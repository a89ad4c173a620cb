import ChannelManager.Profiles.Reconcile

/-!
# No channel is stranded

Wherever a reconcile ends or is looked at in between, every channel that was in some profile is in
some profile, and a channel found owned at the re-check is in the profiles it was in.
-/

namespace ChannelManager.Profiles

open Eff

/-- Only the counters of requests and checks move. -/
structure Idle (w w' : World) : Prop where
  store : w'.store = w.store
  snapshots : w'.snapshots = w.snapshots
  moments : w'.moments = w.moments

/-- No membership is written and no listing completed. -/
structure Quiet (w w' : World) : Prop where
  groups : w'.store.groups = w.store.groups
  profiles : w'.store.profiles = w.store.profiles
  member : w'.store.member = w.store.member
  snapshots : w'.snapshots = w.snapshots
  moments : w'.moments = w.moments

/-- The memberships `m` differ from `before` only for these channels in these profiles, and there
in one direction. -/
def Changed (channelIds profileIds : List ℤ) (enabled : Bool) (before m : Members) : Prop :=
  ∀ c p, m c p ≠ before c p → c ∈ channelIds ∧ p ∈ profileIds ∧ m c p = enabled

/-- Only memberships of these channels in these profiles are written. -/
structure Written (channelIds profileIds : List ℤ) (enabled : Bool) (w w' : World) : Prop where
  groups : w'.store.groups = w.store.groups
  channels : w'.store.channels = w.store.channels
  profiles : w'.store.profiles = w.store.profiles
  snapshots : w'.snapshots = w.snapshots
  member : Changed channelIds profileIds enabled w.store.member w'.store.member
  moments : ∃ later, w'.moments = w.moments ++ later ∧
    ∀ m ∈ later, Changed channelIds profileIds enabled w.store.member m

instance : Std.Refl Idle := ⟨fun _ => ⟨rfl, rfl, rfl⟩⟩

instance : IsTrans World Idle :=
  ⟨fun _ _ _ h h' => ⟨h'.store.trans h.store, h'.snapshots.trans h.snapshots,
    h'.moments.trans h.moments⟩⟩

instance : Std.Refl Quiet := ⟨fun _ => ⟨rfl, rfl, rfl, rfl, rfl⟩⟩

instance : IsTrans World Quiet :=
  ⟨fun _ _ _ h h' => ⟨h'.groups.trans h.groups, h'.profiles.trans h.profiles,
    h'.member.trans h.member, h'.snapshots.trans h.snapshots, h'.moments.trans h.moments⟩⟩

/-- No request raises and `cancel_check` never fires. -/
def Upstream.Calm (upstream : Upstream) : Prop :=
  (∀ n, upstream.raises n = false) ∧ ∀ n, upstream.cancels n = false

section

variable {w w' w'' : World} {channelIds profileIds : List ℤ} {enabled : Bool}

theorem Idle.quiet (h : Idle w w') : Quiet w w' where
  groups := by rw [h.store]
  profiles := by rw [h.store]
  member := by rw [h.store]
  snapshots := h.snapshots
  moments := h.moments

theorem Changed.refl (before : Members) : Changed channelIds profileIds enabled before before :=
  fun _ _ hne => (hne rfl).elim

theorem Changed.trans {before m m' : Members} {profileId : ℤ}
    (h : Changed channelIds [profileId] enabled before m)
    (h' : Changed channelIds profileIds enabled m m') :
    Changed channelIds (profileId :: profileIds) enabled before m' := by
  intro c p hne
  by_cases hsame : m' c p = m c p
  · rw [hsame] at hne ⊢
    obtain ⟨hc, hp, hm⟩ := h c p hne
    exact ⟨hc, by simp [List.mem_singleton.mp hp], hm⟩
  · obtain ⟨hc, hp, hm⟩ := h' c p hsame
    exact ⟨hc, List.mem_cons_of_mem _ hp, hm⟩

theorem Changed.cons {before m : Members} {profileId : ℤ}
    (h : Changed channelIds [profileId] enabled before m) :
    Changed channelIds (profileId :: profileIds) enabled before m :=
  h.trans (Changed.refl m)

/-- Who was put in stays in while others are. -/
theorem Changed.kept {before m : Members} (h : Changed channelIds profileIds enabled before m)
    {c p : ℤ} (hbefore : before c p = enabled) : m c p = enabled := by
  by_cases hsame : m c p = before c p
  · rw [hsame, hbefore]
  · exact (h c p hsame).2.2

theorem Idle.written (h : Idle w w') : Written channelIds profileIds enabled w w' where
  groups := by rw [h.store]
  channels := by rw [h.store]
  profiles := by rw [h.store]
  snapshots := h.snapshots
  member := by
    rw [h.store]
    exact Changed.refl _
  moments := ⟨[], by simp [h.moments], by simp⟩

theorem Idle.then_written (h : Idle w w') (h' : Written channelIds profileIds enabled w' w'') :
    Written channelIds profileIds enabled w w'' where
  groups := by rw [← h.store, h'.groups]
  channels := by rw [← h.store, h'.channels]
  profiles := by rw [← h.store, h'.profiles]
  snapshots := h'.snapshots.trans h.snapshots
  member := by
    rw [← h.store]
    exact h'.member
  moments := by
    rw [← h.store, ← h.moments]
    exact h'.moments

theorem Written.trans {profileId : ℤ} (h : Written channelIds [profileId] enabled w w')
    (h' : Written channelIds profileIds enabled w' w'') :
    Written channelIds (profileId :: profileIds) enabled w w'' where
  groups := h'.groups.trans h.groups
  channels := h'.channels.trans h.channels
  profiles := h'.profiles.trans h.profiles
  snapshots := h'.snapshots.trans h.snapshots
  member := h.member.trans h'.member
  moments := by
    obtain ⟨first, hfirst, hall⟩ := h.moments
    obtain ⟨rest, hrest, hall'⟩ := h'.moments
    refine ⟨first ++ rest, by rw [hrest, hfirst, List.append_assoc], ?_⟩
    intro m hm
    rcases List.mem_append.mp hm with hm | hm
    · exact (hall m hm).cons
    · exact h.member.trans (hall' m hm)

end

section Requests

variable (upstream : Upstream) {w : World}

theorem request_spec {α : Type} (answer : Store → ℕ → α) :
    wp (request upstream answer) (fun a w' => a = answer w.store w.calls ∧ Idle w w')
      (fun _ w' => Idle w w' ∧ ¬upstream.Calm) w := by
  unfold request
  rw [wp_bind, wp_get, wp_bind]
  show wp _ _ _ { w with calls := w.calls + 1 }
  apply (wp_ite _ _ _).mpr
  constructor
  · intro hraises
    refine ⟨⟨rfl, rfl, rfl⟩, fun hcalm => ?_⟩
    rw [hcalm.1] at hraises
    cases hraises
  · exact fun _ => ⟨rfl, rfl, rfl, rfl⟩

theorem checkCancel_spec :
    wp (checkCancel upstream) (fun _ w' => Idle w w') (fun _ w' => Idle w w' ∧ ¬upstream.Calm) w := by
  unfold checkCancel
  rw [wp_bind, wp_get, wp_bind]
  show wp _ _ _ { w with polls := w.polls + 1 }
  apply (wp_ite _ _ _).mpr
  constructor
  · intro hcancels
    refine ⟨⟨rfl, rfl, rfl⟩, fun hcalm => ?_⟩
    rw [hcalm.2] at hcancels
    cases hcancels
  · exact fun _ => ⟨rfl, rfl, rfl⟩

theorem idle_request {α : Type} (answer : Store → ℕ → α) : Moves Idle (request upstream answer) :=
  fun _ => wp_mono (request_spec upstream answer) (fun _ _ h => h.2) fun _ _ h => h.1

theorem idle_checkCancel : Moves Idle (checkCancel upstream) :=
  fun _ => wp_mono (checkCancel_spec upstream) (fun _ _ h => h) fun _ _ h => h.1

theorem quiet_of_idle {α : Type} {x : Eff World α} (h : Moves Idle x) : Moves Quiet x :=
  fun w => wp_mono (h w) (fun _ _ => Idle.quiet) fun _ _ => Idle.quiet

theorem quiet_getChannels (groupId : ℤ) (page : ℕ) :
    Moves Quiet (getChannels upstream groupId page) := by
  unfold getChannels
  apply Moves.bind
  · apply moves_modify
    intro w
    split
    · exact ⟨rfl, rfl, rfl, rfl, rfl⟩
    · exact Std.Refl.refl w
  · exact fun _ => quiet_of_idle (idle_request upstream _)

theorem quiet_fetchPages (groupId : ℤ) (remaining page : ℕ) (channels : List Row) :
    Moves Quiet (fetchPages upstream groupId remaining page channels) := by
  induction remaining generalizing page channels with
  | zero => exact moves_pure channels
  | succ remaining ih =>
    rw [fetchPages]
    apply (quiet_of_idle (idle_checkCancel upstream)).bind
    intro _
    apply (quiet_getChannels upstream groupId page).bind
    intro response
    exact Moves.ite (moves_pure _) (ih _ _)

/-- A completed listing is kept; of one that raised nothing is. -/
theorem fetchGroupChannels_spec (groupId : ℤ) :
    wp (fetchGroupChannels upstream groupId)
      (fun rows w' => Quiet { w with snapshots := w.snapshots ++ [rows] } w')
      (fun _ w' => Quiet w w') w := by
  unfold fetchGroupChannels
  apply (quiet_fetchPages upstream groupId maxChannelPages 1 []).wp_bind
  · intro rows w' h
    rw [wp_bind, wp_modify]
    exact ⟨h.groups, h.profiles, h.member, by rw [h.snapshots], h.moments⟩
  · exact fun _ _ h => h

theorem quiet_clearOwnershipMarker (channelId : ℤ) :
    Moves Quiet (clearOwnershipMarker upstream channelId) := by
  unfold clearOwnershipMarker
  apply Moves.tryCatch
  · apply (quiet_of_idle (idle_request upstream _)).bind
    intro properties
    cases properties with
    | dict fields =>
      apply Moves.ite
      · exact moves_pure ()
      · apply (quiet_of_idle (idle_request upstream _)).bind
        exact fun _ => moves_modify fun w => ⟨rfl, rfl, rfl, rfl, rfl⟩
    | _ => exact moves_pure ()
  · exact fun _ => moves_pure ()

/-- One bulk write of a loop. -/
theorem bulkUpdateProfileChannels_spec (profileId : ℤ) (channelIds : List ℤ) (enabled : Bool) :
    wp (bulkUpdateProfileChannels upstream profileId channelIds enabled)
      (fun _ w' => Written channelIds [profileId] enabled w w' ∧
        ∀ c ∈ channelIds, w'.store.member c profileId = enabled)
      (fun _ w' => Idle w w' ∧ (profileId ∈ w.store.profiles → ¬upstream.Calm)) w := by
  unfold bulkUpdateProfileChannels
  rw [wp_bind]
  apply wp_mono (request_spec upstream _)
  · rintro _ w' ⟨-, h⟩
    rw [wp_bind, wp_get]
    split
    next live =>
      have hchanged : Changed channelIds [profileId] enabled w.store.member
          (Store.enrolled w'.store.member profileId channelIds enabled) := by
        intro c p hne
        rw [h.store] at hne ⊢
        unfold Store.enrolled at hne ⊢
        split at hne
        next hcp => exact ⟨hcp.2, by simp [hcp.1], if_pos hcp⟩
        next => exact (hne rfl).elim
      constructor
      · exact ⟨by rw [← h.store]; rfl, by rw [← h.store]; rfl, by rw [← h.store]; rfl, h.snapshots,
          hchanged, [Store.enrolled w'.store.member profileId channelIds enabled],
          by rw [← h.moments]; rfl, fun m hm => List.mem_singleton.mp hm ▸ hchanged⟩
      · intro c hc
        exact if_pos ⟨rfl, hc⟩
    next hgone => exact ⟨h, fun hlive => (hgone (h.store ▸ hlive)).elim⟩
  · exact fun _ _ h => ⟨h.1, fun _ => h.2⟩

/-- A loop of bulk writes: what it says was written is, and all of it is where every profile is
there and no request raises. -/
theorem writeAll_spec (channelIds : List ℤ) (enabled : Bool) (profileIds : List ℤ) :
    wp (writeAll upstream channelIds enabled profileIds)
      (fun result w' => Written channelIds profileIds enabled w w' ∧
        (∀ p ∈ profileIds, p ∈ result.1 ∨ p ∈ result.2) ∧
        (∀ p ∈ result.1, ∀ c ∈ channelIds, w'.store.member c p = enabled) ∧
        ((∀ p ∈ profileIds, p ∈ w.store.profiles) → upstream.Calm → result.2 = []))
      (fun _ w' => Written channelIds profileIds enabled w w' ∧ ¬upstream.Calm) w := by
  induction profileIds generalizing w with
  | nil => exact ⟨(Std.Refl.refl (r := Idle) w).written, by simp, by simp, fun _ _ => rfl⟩
  | cons profileId profileIds ih =>
    rw [writeAll, wp_bind]
    apply wp_mono (checkCancel_spec upstream) _ fun _ _ h => ⟨h.1.written, h.2⟩
    intro _ w₁ hcheck
    rw [wp_bind, wp_tryCatch, wp_bind]
    apply wp_mono (bulkUpdateProfileChannels_spec upstream profileId channelIds enabled)
    · intro _ w₂ hbulk
      have hone : Written channelIds [profileId] enabled w w₂ := hcheck.then_written hbulk.1
      rw [wp_pure, wp_bind]
      apply wp_mono (ih (w := w₂))
      · rintro result w₃ ⟨hwritten, hall, hlanded, hcalm⟩
        rw [wp_pure]
        refine ⟨hone.trans hwritten, ?_, ?_, ?_⟩
        · intro p hp
          rcases List.mem_cons.mp hp with rfl | hp
          · exact .inl (List.mem_cons_self ..)
          · exact (hall p hp).imp_left (List.mem_cons_of_mem _)
        · intro p hp c hc
          rcases List.mem_cons.mp hp with rfl | hp
          · exact hwritten.member.kept (hbulk.2 c hc)
          · exact hlanded p hp c hc
        · intro hlive
          rw [hone.profiles] at hcalm
          exact hcalm fun p hp => hlive p (List.mem_cons_of_mem _ hp)
      · exact fun _ _ h => ⟨hone.trans h.1, h.2⟩
    · intro _ w₂ hraised
      have hidle : Idle w w₂ := IsTrans.trans _ _ _ hcheck hraised.1
      rw [wp_pure, wp_bind]
      apply wp_mono (ih (w := w₂))
      · rintro result w₃ ⟨hwritten, hall, hlanded, -⟩
        rw [wp_pure]
        refine ⟨hidle.written.trans hwritten, ?_, hlanded, ?_⟩
        · intro p hp
          rcases List.mem_cons.mp hp with rfl | hp
          · exact .inr (List.mem_cons_self ..)
          · exact (hall p hp).imp_right (List.mem_cons_of_mem _)
        · intro hlive hcalm
          have hthere := hlive profileId (List.mem_cons_self ..)
          rw [← hcheck.store] at hthere
          exact (hraised.2 hthere hcalm).elim
      · exact fun _ _ h => ⟨hidle.written.trans h.1, h.2⟩

end Requests

/-- The memberships leave no channel stranded that was in a profile before, and are as before for
all but these channels. -/
structure Sheltered (channelIds : List ℤ) (before m : Members) : Prop where
  others : ∀ c ∉ channelIds, m c = before c
  kept : ∀ c, (∃ p, before c p) → ∃ p, m c p

/-- What a run does no harm to: at every moment channels stay in some profile, and those owned at
the re-check in theirs. -/
structure Unharmed (liveRuleIds : Option (List ℤ)) (before : Members) (world : World) : Prop where
  kept : ∀ m ∈ world.moments ++ [world.store.member], ∀ c, (∃ p, before c p) → ∃ p, m c p
  owned : ∀ rows, world.snapshots[1]? = some rows → ∀ c ∈ ownedOf rows liveRuleIds,
    ∀ m ∈ world.moments ++ [world.store.member], m c = before c

/-- No membership has been written yet. -/
structure Untouched (before : Members) (world : World) : Prop where
  member : world.store.member = before
  moments : world.moments = []

section

variable {channelIds profileIds : List ℤ} {before m m' : Members} {w w' : World}
  {liveRuleIds : Option (List ℤ)}

theorem sheltered_of_enabled (h : Changed channelIds profileIds true before m) :
    Sheltered channelIds before m where
  others c hc := by
    funext p
    by_contra hne
    exact hc (h c p hne).1
  kept c := fun ⟨p, hp⟩ => ⟨p, h.kept hp⟩

/-- Taking channels out of profiles strands none while one profile they are all in is left out. -/
theorem Sheltered.disabled (h : Sheltered channelIds before m) {profileId : ℤ}
    (hin : ∀ c ∈ channelIds, m c profileId) (hout : profileId ∉ profileIds)
    (h' : Changed channelIds profileIds false m m') : Sheltered channelIds before m' where
  others c hc := by
    rw [← h.others c hc]
    funext p
    by_contra hne
    exact hc (h' c p hne).1
  kept c hbefore := by
    by_cases hc : c ∈ channelIds
    · refine ⟨profileId, ?_⟩
      by_contra hne
      have hdiffers : m' c profileId ≠ m c profileId := fun heq => hne (heq ▸ hin c hc)
      exact hout (h' c profileId hdiffers).2.1
    · obtain ⟨p, hp⟩ := h.kept c hbefore
      refine ⟨p, ?_⟩
      by_contra hne
      have hdiffers : m' c p ≠ m c p := fun heq => hne (heq ▸ hp)
      exact hc (h' c p hdiffers).1

theorem Untouched.unharmed (h : Untouched before w) : Unharmed liveRuleIds before w where
  kept m hm c hc := by
    rw [h.moments, h.member] at hm
    rwa [List.mem_singleton.mp hm]
  owned rows _ c _ m hm := by
    rw [h.moments, h.member] at hm
    rw [List.mem_singleton.mp hm]

theorem Untouched.quiet (h : Untouched before w) (hquiet : Quiet w w') : Untouched before w' where
  member := hquiet.member.trans h.member
  moments := hquiet.moments.trans h.moments

theorem unharmed_of_sheltered
    (hall : ∀ m ∈ w.moments ++ [w.store.member], Sheltered channelIds before m)
    (hspared : ∀ rows, w.snapshots[1]? = some rows → ∀ c ∈ ownedOf rows liveRuleIds,
      c ∉ channelIds) : Unharmed liveRuleIds before w where
  kept m hm := (hall m hm).kept
  owned rows hrows c hc m hm := (hall m hm).others c (hspared rows hrows c hc)

/-- Every moment of a loop that enables shelters. -/
theorem Untouched.sheltered (h : Untouched before w)
    (hwritten : Written channelIds profileIds true w w') :
    ∀ m ∈ w'.moments ++ [w'.store.member], Sheltered channelIds before m := by
  obtain ⟨later, hlater, hall⟩ := hwritten.moments
  have hmember := hwritten.member
  rw [h.member] at hmember hall
  rw [hlater, h.moments, List.nil_append]
  intro m hm
  rcases List.mem_append.mp hm with hm | hm
  · exact sheltered_of_enabled (hall m hm)
  · rw [List.mem_singleton.mp hm]
    exact sheltered_of_enabled hmember

end

section Run

variable (upstream : Upstream) (liveRuleIds : Option (List ℤ)) {before : Members} {w : World}

/-- The channels kept for the writes are none that the re-check found owned. -/
theorem spared_of_recheck {w' : World} {rows first : List Row} {channelIds : List ℤ}
    (hw : w.snapshots = [first]) (hsnapshots : w'.snapshots = w.snapshots ++ [rows]) :
    ∀ rows', w'.snapshots[1]? = some rows' → ∀ c ∈ ownedOf rows' liveRuleIds,
      c ∉ channelIds.filter fun c => c ∉ ownedOf rows liveRuleIds := by
  intro rows' hrows' c hc hmem
  rw [hsnapshots, hw] at hrows'
  obtain rfl : rows = rows' := by simpa using hrows'
  simp [hc] at hmem

/-- The re-check completes a listing or fails, and writes nothing. -/
theorem recheck_spec (groupId : ℤ) :
    wp (tryCatch (do
        let newlyOwned ← recheckNewlyOwned upstream groupId liveRuleIds
        pure (some newlyOwned)) fun _ => pure none)
      (fun recheck w' => recheck = none ∧ Quiet w w' ∨
        ∃ rows, recheck = some (ownedOf rows liveRuleIds) ∧
          Quiet { w with snapshots := w.snapshots ++ [rows] } w')
      (fun _ _ => False) w := by
  rw [wp_tryCatch, wp_bind]
  unfold recheckNewlyOwned
  rw [wp_bind]
  apply wp_mono (fetchGroupChannels_spec upstream groupId)
  · exact fun rows w' h => .inr ⟨rows, rfl, h⟩
  · exact fun _ w' h => .inl ⟨rfl, h⟩

/-- The enable-only path. -/
theorem unharmed_enableOnly (effectiveGroupId : ℤ) (selection channelIds : List ℤ) (base : Outcome)
    {first : List Row} (hw : w.snapshots = [first]) (h : Untouched before w) :
    wp (enableOnly upstream effectiveGroupId liveRuleIds selection channelIds base)
      (fun _ => Unharmed liveRuleIds before) (fun _ => Unharmed liveRuleIds before) w := by
  unfold enableOnly
  rw [wp_bind]
  apply wp_mono (recheck_spec upstream liveRuleIds effectiveGroupId)
  · rintro recheck w₁ (⟨rfl, hquiet⟩ | ⟨rows, rfl, hquiet⟩)
    · exact (h.quiet hquiet).unharmed
    · have htouched : Untouched before w₁ := ⟨hquiet.member.trans h.member,
        hquiet.moments.trans h.moments⟩
      apply (wp_ite _ _ _).mpr
      refine ⟨fun _ => htouched.unharmed, fun _ => ?_⟩
      rw [wp_bind]
      have hspared := fun w₂ (hw₂ : Written (channelIds.filter fun c =>
          c ∉ ownedOf rows liveRuleIds) selection true w₁ w₂) =>
        unharmed_of_sheltered (htouched.sheltered hw₂)
          (spared_of_recheck liveRuleIds hw (hw₂.snapshots.trans hquiet.snapshots))
      apply wp_mono (writeAll_spec upstream _ true selection)
      · exact fun result w₂ hresult => hspared w₂ hresult.1
      · exact fun _ w₂ hw₂ => hspared w₂ hw₂.1
  · exact fun _ _ hfalse => hfalse.elim

/-- The path that enables and then disables: the disables begin only when every channel is in a
profile that none of them concerns. -/
theorem unharmed_applySelection (effectiveGroupId : ℤ) (selection channelIds universeIds : List ℤ)
    (base : Outcome) {first : List Row} (hw : w.snapshots = [first]) (h : Untouched before w) :
    wp (applySelection upstream effectiveGroupId liveRuleIds selection channelIds universeIds base)
      (fun _ => Unharmed liveRuleIds before) (fun _ => Unharmed liveRuleIds before) w := by
  unfold applySelection
  apply (wp_ite _ _ _).mpr
  refine ⟨fun _ => h.unharmed, fun hvalid => ?_⟩
  rw [wp_bind]
  apply wp_mono (recheck_spec upstream liveRuleIds effectiveGroupId)
  · rintro recheck w₁ (⟨rfl, hquiet⟩ | ⟨rows, rfl, hquiet⟩)
    · exact (h.quiet hquiet).unharmed
    · have htouched : Untouched before w₁ := ⟨hquiet.member.trans h.member,
        hquiet.moments.trans h.moments⟩
      apply (wp_ite _ _ _).mpr
      refine ⟨fun _ => htouched.unharmed, fun _ => ?_⟩
      have hspared : ∀ w' : World, w'.snapshots = w₁.snapshots → ∀ rows', w'.snapshots[1]? = some rows' →
          ∀ c ∈ ownedOf rows' liveRuleIds,
            c ∉ channelIds.filter fun c => c ∉ ownedOf rows liveRuleIds :=
        fun w' hw' => spared_of_recheck liveRuleIds hw (hw'.trans hquiet.snapshots)
      rw [wp_bind]
      apply wp_mono (writeAll_spec upstream _ true _)
      · rintro ⟨enabled, failedEnable⟩ w₂ ⟨hwritten, hall, hlanded, -⟩
        have hsheltered := htouched.sheltered hwritten
        apply (wp_ite _ _ _).mpr
        refine ⟨fun _ => unharmed_of_sheltered hsheltered (hspared w₂ hwritten.snapshots), ?_⟩
        intro hnone
        obtain rfl : failedEnable = [] := not_not.mp hnone
        -- Some selected profile exists; every channel is in it now and no disable names it.
        obtain ⟨p, hp⟩ := List.exists_mem_of_ne_nil _ hvalid
        have hlive : p ∈ universeIds := by simpa using (List.mem_filter.mp hp).2
        have hin : ∀ c ∈ channelIds.filter fun c => c ∉ ownedOf rows liveRuleIds,
            w₂.store.member c p := by
          apply hlanded
          simpa using hall p (List.mem_filter.mpr ⟨hlive, decide_eq_true hp⟩)
        have hout : p ∉ universeIds.filter fun p =>
            p ∉ selection.filter fun p => p ∈ universeIds := by
          intro hmem
          simpa [hp] using (List.mem_filter.mp hmem).2
        have hdisabled : ∀ w₃, Written (channelIds.filter fun c => c ∉ ownedOf rows liveRuleIds)
            (universeIds.filter fun p => p ∉ selection.filter fun p => p ∈ universeIds) false w₂ w₃ →
            Unharmed liveRuleIds before w₃ := by
          intro w₃ hw₃
          apply unharmed_of_sheltered _ (hspared w₃ (hw₃.snapshots.trans hwritten.snapshots))
          have hnow := hsheltered w₂.store.member (by simp)
          obtain ⟨later, hlater, hchanged⟩ := hw₃.moments
          intro m hm
          rw [hlater, List.append_assoc] at hm
          rcases List.mem_append.mp hm with hm | hm
          · exact hsheltered m (List.mem_append_left _ hm)
          · rcases List.mem_append.mp hm with hm | hm
            · exact hnow.disabled hin hout (hchanged m hm)
            · rw [List.mem_singleton.mp hm]
              exact hnow.disabled hin hout hw₃.member
        rw [wp_bind]
        apply wp_mono (writeAll_spec upstream _ false _)
        · exact fun result w₃ hresult => hdisabled w₃ hresult.1
        · exact fun _ w₃ hw₃ => hdisabled w₃ hw₃.1
      · exact fun _ w₂ hraised => unharmed_of_sheltered (htouched.sheltered hraised.1)
          (hspared w₂ hraised.1.snapshots)
  · exact fun _ _ hfalse => hfalse.elim

theorem unharmed_reconcileSelection (groupId effectiveGroupId : ℤ) (selection : List ℤ)
    (hw : w.snapshots = []) (h : Untouched before w) :
    wp (reconcileSelection upstream groupId effectiveGroupId liveRuleIds selection)
      (fun _ => Unharmed liveRuleIds before) (fun _ => Unharmed liveRuleIds before) w := by
  unfold reconcileSelection
  rw [wp_bind]
  apply wp_mono (fetchGroupChannels_spec upstream effectiveGroupId)
  · intro rows w₁ hfetch
    have hfirst : w₁.snapshots = [rows] := by rw [hfetch.snapshots, hw, List.nil_append]
    have htouched : Untouched before w₁ := ⟨hfetch.member.trans h.member,
      hfetch.moments.trans h.moments⟩
    apply (moves_each (quiet_clearOwnershipMarker upstream) _).wp_bind
    · intro _ w₂ hclear
      have hfirst₂ : w₂.snapshots = [rows] := hclear.snapshots.trans hfirst
      have htouched₂ := htouched.quiet hclear
      apply (wp_ite _ _ _).mpr
      refine ⟨fun _ => htouched₂.unharmed, fun _ => ?_⟩
      rw [wp_bind, wp_tryCatch, wp_bind]
      apply wp_mono (quiet_of_idle (idle_request upstream upstream.channelProfiles) w₂)
      · intro profiles w₃ hprofiles
        exact unharmed_applySelection upstream liveRuleIds effectiveGroupId selection _ _ _
          (hprofiles.snapshots.trans hfirst₂) (htouched₂.quiet hprofiles)
      · intro _ w₃ hprofiles
        exact unharmed_enableOnly upstream liveRuleIds effectiveGroupId selection _ _
          (hprofiles.snapshots.trans hfirst₂) (htouched₂.quiet hprofiles)
    · exact fun _ _ hclear => (htouched.quiet hclear).unharmed
  · exact fun _ _ hfetch => (h.quiet hfetch).unharmed

theorem unharmed_reconcileGroupLocked (settings : Settings) (groupId effectiveGroupId : ℤ)
    (hw : w.snapshots = []) (h : Untouched before w) :
    wp (reconcileGroupLocked upstream settings groupId effectiveGroupId liveRuleIds)
      (fun _ => Unharmed liveRuleIds before) (fun _ => Unharmed liveRuleIds before) w := by
  unfold reconcileGroupLocked
  apply (wp_ite _ _ _).mpr
  refine ⟨fun _ => h.unharmed, fun _ => ?_⟩
  cases selectionFromSetting (settings.get? groupId) with
  | none => exact h.unharmed
  | some selection =>
    exact unharmed_reconcileSelection upstream liveRuleIds groupId effectiveGroupId selection hw h

theorem unharmed_reconcileAttempts (revalidate : Bool) (groupId : ℤ) (attempts : ℕ)
    (settings : Settings) (hw : w.snapshots = []) (h : Untouched before w) :
    wp (reconcileAttempts upstream revalidate groupId liveRuleIds attempts settings)
      (fun _ => Unharmed liveRuleIds before) (fun _ => Unharmed liveRuleIds before) w := by
  induction attempts generalizing settings w with
  | zero => exact h.unharmed
  | succ attempts ih =>
    rw [reconcileAttempts]
    have hread : Moves Quiet (revalidated upstream revalidate settings) := by
      unfold revalidated
      apply Moves.ite _ (moves_pure _)
      apply Moves.tryCatch _ fun _ => moves_pure _
      exact (quiet_of_idle (idle_request upstream _)).bind fun _ => moves_pure _
    apply hread.wp_bind
    · intro answer w₁ hquiet
      have hw₁ : w₁.snapshots = [] := hquiet.snapshots.trans hw
      have htouched := h.quiet hquiet
      cases answer with
      | none => exact htouched.unharmed
      | some settings' =>
        apply (wp_ite _ _ _).mpr
        refine ⟨fun _ => ?_, fun _ => ih settings' hw₁ htouched⟩
        unfold reconcileUnlessCancelled
        rw [wp_tryCatch]
        apply wp_mono (unharmed_reconcileGroupLocked upstream liveRuleIds settings' groupId _ hw₁
          htouched) (fun _ _ hdone => hdone)
        intro e w₂ hraised
        exact (wp_ite _ _ _).mpr ⟨fun _ => hraised, fun _ => hraised⟩
    · exact fun _ _ hquiet => (h.quiet hquiet).unharmed

/-- Whatever the requests answer and wherever the run ends, no channel is stranded and none that the
re-check finds owned is touched. -/
theorem reconcileGroupProfiles_unharmed (settings : Settings) (groupId : ℤ) (revalidate : Bool)
    (store : Store) :
    Unharmed liveRuleIds store.member
      (reconcileGroupProfiles upstream settings groupId liveRuleIds revalidate
        (World.start store)).2 := by
  have hrun := unharmed_reconcileAttempts upstream liveRuleIds revalidate groupId lockReacquireMax
    settings (w := World.start store) rfl ⟨rfl, rfl⟩
  exact wp_state hrun

end Run

end ChannelManager.Profiles
