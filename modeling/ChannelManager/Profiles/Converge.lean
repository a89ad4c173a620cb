import ChannelManager.Profiles.Settle
import ChannelManager.Profiles.Stranding

/-!
# The reconcile converges

Against a Dispatcharr that answers from what it holds, a reconcile that reports `reconciled` has
settled the channels its enumeration reaches; without failures it leaves exactly the settled store.
The sweep over the winning groups leaves the same store in any order.
-/

namespace ChannelManager.Profiles

open Eff

/-- Dispatcharr, answering from its store with the settings read back as they are; between the
snapshot and the re-check other tasks may give channels new custom properties. -/
def dispatcharr (settings : Settings) (raises cancels : ℕ → Bool) (stamps : ℤ → Option Json) :
    Upstream where
  raises := raises
  cancels := cancels
  stamps listing := if listing = 1 then stamps else fun _ => none
  channelPage store _ groupId page :=
    let rows := rowsOf (residents store groupId)
    some
      { results := (rows.drop ((page - 1) * channelPageSize)).take channelPageSize
        next := page * channelPageSize < rows.length }
  channelProfiles store _ := store.profiles.map some
  channelProperties store _ channelId :=
    match store.channels.get? channelId with
    | some hosted => hosted.customProperties
    | none => .null
  groupSettings _ _ := settings

/-- Dispatcharr when every request succeeds, nothing is cancelled and nobody else writes. -/
def calm (settings : Settings) : Upstream :=
  dispatcharr settings (fun _ => false) (fun _ => false) fun _ => none

/-- The selection a run applies to a group; a conflict freezes it. -/
def selectionOf (settings : Settings) (groupId : ℤ) : Option (List ℤ) :=
  if (settings.get? groupId).any fun row => (row.read "_ecm_channel_profile_conflict").truthy then
    none
  else selectionFromSetting (settings.get? groupId)

/-- What a reconcile of the group leaves. -/
def settleGroup (settings : Settings) (liveRuleIds : Option (List ℤ)) (store : Store)
    (groupId : ℤ) : Store :=
  match selectionOf settings groupId with
  | none => store
  | some selection =>
    settle liveRuleIds selection (resolveEffectiveMasterGroupId settings groupId) store

section Pages

theorem take_pages_more {α : Type} (rows : List α) (n k remaining : ℕ) :
    (rows.drop (k * n)).take ((remaining + 1) * n) =
      (rows.drop (k * n)).take n ++ (rows.drop ((k + 1) * n)).take (remaining * n) := by
  rw [Nat.add_mul, Nat.one_mul, Nat.add_comm, List.take_add, List.drop_drop, Nat.add_mul,
    Nat.one_mul]

/-- The last page asked for was the last one there is. -/
theorem take_pages_done {α : Type} (rows : List α) {n k : ℕ} (remaining : ℕ) (hn : 0 < n)
    (h : (rows.drop (k * n)).take n = [] ∨ rows.length ≤ (k + 1) * n) :
    (rows.drop (k * n)).take ((remaining + 1) * n) = (rows.drop (k * n)).take n := by
  rw [take_pages_more]
  have hrest : rows.drop ((k + 1) * n) = [] := by
    rw [List.drop_eq_nil_iff]
    rcases h with h | h
    · rw [List.take_eq_nil_iff, List.drop_eq_nil_iff] at h
      rcases h with h | h
      · omega
      · exact h.trans (Nat.mul_le_mul_right n (Nat.le_succ k))
    · exact h
  rw [hrest, List.take_nil, List.append_nil]

end Pages

section Run

variable {settings : Settings} {raises cancels : ℕ → Bool} {stamps : ℤ → Option Json}
  {liveRuleIds : Option (List ℤ)} {w : World}

theorem channelPage_dispatcharr (store : Store) (call : ℕ) (groupId : ℤ) (k : ℕ) :
    (dispatcharr settings raises cancels stamps).channelPage store call groupId (k + 1) =
      some ⟨((rowsOf (residents store groupId)).drop (k * channelPageSize)).take channelPageSize,
        decide ((k + 1) * channelPageSize < (rowsOf (residents store groupId)).length)⟩ := rfl

/-- The pages after the first. -/
theorem fetchPages_spec (groupId : ℤ) (remaining k : ℕ) (channels : List Row) :
    wp (fetchPages (dispatcharr settings raises cancels stamps) groupId remaining (k + 2) channels)
      (fun rows w' => rows = channels ++ ((rowsOf (residents w.store groupId)).drop
          ((k + 1) * channelPageSize)).take (remaining * channelPageSize) ∧ Idle w w')
      (fun _ _ => ¬(dispatcharr settings raises cancels stamps).Calm) w := by
  induction remaining generalizing k channels w with
  | zero =>
    rw [fetchPages, wp_pure, Nat.zero_mul, List.take_zero, List.append_nil]
    exact ⟨rfl, rfl, rfl, rfl⟩
  | succ remaining ih =>
    rw [fetchPages, wp_bind]
    apply wp_mono (checkCancel_spec _) _ fun _ _ h => h.2
    intro _ w₁ hcheck
    rw [wp_bind]
    unfold getChannels
    rw [wp_bind, wp_modify, if_neg (by omega)]
    apply wp_mono (request_spec _ _) _ fun _ _ h => h.2
    rintro response w₂ ⟨rfl, hrequest⟩
    have hidle : Idle w w₂ := IsTrans.trans _ _ _ hcheck hrequest
    rw [hcheck.store, channelPage_dispatcharr]
    dsimp only
    apply (wp_ite _ _ _).mpr
    constructor
    · intro hlast
      refine ⟨?_, hidle⟩
      rw [take_pages_done _ remaining (by decide)]
      simpa [Nat.not_lt] using hlast
    · intro _
      apply wp_mono (ih (k + 1) _) _ fun _ _ h => h
      rintro rows w₃ ⟨rfl, hrest⟩
      refine ⟨?_, IsTrans.trans _ _ _ hidle hrest⟩
      rw [take_pages_more, List.append_assoc, hidle.store]

/-- A completed listing is what the enumeration reaches, in the store as other tasks have left it. -/
theorem fetchGroupChannels_reaches (groupId : ℤ) :
    wp (fetchGroupChannels (dispatcharr settings raises cancels stamps) groupId)
      (fun rows w' => w'.store = w.store.stamp
          ((dispatcharr settings raises cancels stamps).stamps w.snapshots.length) ∧
        rows = rowsOf (reached w'.store groupId) ∧ w'.snapshots = w.snapshots ++ [rows])
      (fun _ _ => ¬(dispatcharr settings raises cancels stamps).Calm) w := by
  unfold fetchGroupChannels
  rw [wp_bind, show maxChannelPages = 999 + 1 from rfl, fetchPages, wp_bind]
  apply wp_mono (checkCancel_spec _) _ fun _ _ h => h.2
  intro _ w₁ hcheck
  rw [wp_bind]
  unfold getChannels
  rw [wp_bind, wp_modify, if_pos rfl]
  apply wp_mono (request_spec _ _) _ fun _ _ h => h.2
  rintro response w₂ ⟨rfl, hrequest⟩
  have hstore : w₂.store = w.store.stamp
      ((dispatcharr settings raises cancels stamps).stamps w.snapshots.length) := by
    rw [hrequest.store, hcheck.store, hcheck.snapshots]
  have hpage := @channelPage_dispatcharr settings raises cancels stamps w₂.store w₁.calls groupId 0
  rw [← hrequest.store, hpage]
  dsimp only
  apply (wp_ite _ _ _).mpr
  constructor
  · intro hlast
    rw [wp_pure, wp_bind, wp_modify, wp_pure]
    refine ⟨hstore, ?_, by rw [hrequest.snapshots, hcheck.snapshots]⟩
    have hdone := take_pages_done (rowsOf (residents w₂.store groupId)) 999
      (show 0 < channelPageSize by decide) (k := 0) (by simpa [Nat.not_lt] using hlast)
    rw [List.nil_append, ← hdone, Nat.zero_mul, List.drop_zero]
    exact List.map_take.symm
  · intro _
    rw [List.nil_append]
    apply wp_mono (fetchPages_spec groupId 999 0 _) _ fun _ _ h => h
    rintro rows w₃ ⟨rfl, hrest⟩
    rw [wp_bind, wp_modify, wp_pure]
    refine ⟨hrest.store.trans hstore, ?_, ?_⟩
    · show _ = rowsOf (reached w₃.store groupId)
      rw [hrest.store, ← take_pages_more, Nat.zero_mul, List.drop_zero]
      exact List.map_take.symm
    · show w₃.snapshots ++ [_] = _
      rw [hrest.snapshots, hrequest.snapshots, hcheck.snapshots]

/-- Clearing a marker takes it off, unless a request raises. -/
theorem clearOwnershipMarker_spec (channelId : ℤ) :
    wp (clearOwnershipMarker (dispatcharr settings raises cancels stamps) channelId)
      (fun _ w' => w'.snapshots = w.snapshots ∧ (w'.store = w.store.clear [channelId] ∨
        w'.store = w.store ∧ ¬(dispatcharr settings raises cancels stamps).Calm))
      (fun _ _ => False) w := by
  unfold clearOwnershipMarker
  rw [wp_tryCatch, wp_bind]
  unfold getChannelProperties
  apply wp_mono (request_spec _ _)
  · rintro properties w₁ ⟨hproperties, hread⟩
    have hkeep : (∀ hosted, w.store.channels.get? channelId = some hosted →
        unmarked hosted.customProperties = hosted.customProperties) →
        w₁.snapshots = w.snapshots ∧ (w₁.store = w.store.clear [channelId] ∨
          w₁.store = w.store ∧ ¬(dispatcharr settings raises cancels stamps).Calm) :=
      fun h => ⟨hread.snapshots, .inl (by rw [clear_singleton_eq_self h, hread.store])⟩
    cases hget : w.store.channels.get? channelId with
    | none =>
      have hanswer : properties = .null := by
        rw [hproperties]
        simp only [dispatcharr, hget]
      subst hanswer
      exact hkeep (by simp [hget])
    | some hosted =>
      have hanswer : properties = hosted.customProperties := by
        rw [hproperties]
        simp only [dispatcharr, hget]
      rw [hget] at hkeep
      cases hcp : properties with
      | dict fields =>
        apply (wp_ite _ _ _).mpr
        constructor
        · rintro ⟨hmarker, hrule⟩
          apply hkeep
          rintro hosted' ⟨⟩
          rw [← hanswer, hcp]
          exact congrArg Json.dict (withoutMarker_eq_self hmarker hrule)
        · intro _
          unfold updateChannelProperties
          rw [wp_bind]
          apply wp_mono (request_spec _ _)
          · rintro _ w₂ ⟨-, hwrite⟩
            rw [wp_modify]
            refine ⟨hwrite.snapshots.trans hread.snapshots, .inl ?_⟩
            show w₂.store.setProperties channelId (unmarked (.dict fields)) = _
            rw [hwrite.store, hread.store, ← hcp, hanswer]
            exact setProperties_unmarked hget
          · rintro _ w₂ ⟨hwrite, hraised⟩
            exact ⟨hwrite.snapshots.trans hread.snapshots,
              .inr ⟨hwrite.store.trans hread.store, hraised⟩⟩
      | _ =>
        apply hkeep
        rintro hosted' ⟨⟩
        rw [← hanswer, hcp]
        rfl
  · rintro _ w₁ ⟨hread, hraised⟩
    exact ⟨hread.snapshots, .inr ⟨hread.store, hraised⟩⟩

/-- Clearing the markers takes off some of them, and all of them unless a request raises. -/
theorem clear_each (channelIds : List ℤ) :
    wp (each (clearOwnershipMarker (dispatcharr settings raises cancels stamps)) channelIds)
      (fun _ w' => w'.snapshots = w.snapshots ∧ ∃ done, (∀ c ∈ done, c ∈ channelIds) ∧
        w'.store = w.store.clear done ∧ ((dispatcharr settings raises cancels stamps).Calm → done = channelIds))
      (fun _ _ => False) w := by
  induction channelIds generalizing w with
  | nil => exact ⟨rfl, [], nofun, (clear_nil _).symm, fun _ => rfl⟩
  | cons c channelIds ih =>
    rw [each, wp_bind]
    apply wp_mono (clearOwnershipMarker_spec c) _ fun _ _ h => h
    rintro _ w₁ ⟨hsnapshots, hstore⟩
    apply wp_mono ih _ fun _ _ h => h
    rintro _ w₂ ⟨hsnapshots', done, hdone, hstore', hall⟩
    refine ⟨hsnapshots'.trans hsnapshots, ?_⟩
    rcases hstore with hstore | ⟨hstore, hraised⟩
    · refine ⟨c :: done, ?_, ?_, fun hcalm => by rw [hall hcalm]⟩
      · intro c' hc'
        rcases List.mem_cons.mp hc' with rfl | hc'
        · exact List.mem_cons_self ..
        · exact List.mem_cons_of_mem _ (hdone c' hc')
      · rw [hstore', hstore, clear_clear]
        rfl
    · exact ⟨done, fun c' hc' => List.mem_cons_of_mem _ (hdone c' hc'), by rw [hstore', hstore],
        fun hcalm => (hraised hcalm).elim⟩

/-- How the run ends from the re-check on, when it goes through. -/
def recheckEnds (stamps : ℤ → Option Json) (liveRuleIds : Option (List ℤ))
    (selection channelIds : List ℤ) (groupId : ℤ) (store : Store) : Status × Store :=
  let kept := channelIds.filter fun c =>
    c ∉ ownedOf (rowsOf (reached (store.stamp stamps) groupId)) liveRuleIds
  if (selection.filter fun p => p ∈ store.profiles) = [] then (.staleSelection, store)
  else if kept = [] then (.noChannels, store.stamp stamps)
  else (.reconciled, (store.stamp stamps).converge kept selection)

/-- How the run ends when it goes through, having cleared the markers of some channels. -/
def runEnds (stamps : ℤ → Option Json) (liveRuleIds : Option (List ℤ)) (selection done : List ℤ)
    (groupId : ℤ) (store : Store) : Status × Store :=
  if targets liveRuleIds groupId store = [] then (.noChannels, store.clear done)
  else recheckEnds stamps liveRuleIds selection (targets liveRuleIds groupId store) groupId
    (store.clear done)

/-- The two loops of bulk writes together put the channels in exactly the selected profiles. -/
theorem converge_of_written {channelIds selection : List ℤ} {w₁ w₂ w₃ : World}
    (henabled : Written channelIds
      (w₁.store.profiles.filter fun p => p ∈ selection.filter fun p => p ∈ w₁.store.profiles) true
      w₁ w₂)
    (hon : ∀ p ∈ w₁.store.profiles, p ∈ selection → ∀ c ∈ channelIds, w₂.store.member c p = true)
    (hdisabled : Written channelIds
      (w₁.store.profiles.filter fun p => p ∉ selection.filter fun p => p ∈ w₁.store.profiles) false
      w₂ w₃)
    (hoff : ∀ p ∈ w₁.store.profiles, p ∉ selection → ∀ c ∈ channelIds, w₃.store.member c p = false) :
    w₃.store = w₁.store.converge channelIds selection := by
  refine Store.ext (hdisabled.groups.trans henabled.groups)
    (hdisabled.channels.trans henabled.channels) (hdisabled.profiles.trans henabled.profiles) ?_
  funext c p
  dsimp only [Store.converge]
  by_cases hcp : c ∈ channelIds ∧ p ∈ w₁.store.profiles
  · rw [if_pos hcp]
    by_cases hselected : p ∈ selection
    · rw [decide_eq_true hselected, ← hon p hcp.2 hselected c hcp.1]
      by_contra hne
      have hmem := (hdisabled.member c p hne).2.1
      simp [hcp.2, hselected] at hmem
    · rw [decide_eq_false hselected]
      exact hoff p hcp.2 hselected c hcp.1
  · rw [if_neg hcp]
    have hsame : w₂.store.member c p = w₁.store.member c p := by
      by_contra hne
      obtain ⟨hc, hp, -⟩ := henabled.member c p hne
      exact hcp ⟨hc, (List.mem_filter.mp hp).1⟩
    rw [← hsame]
    by_contra hne
    obtain ⟨hc, hp, -⟩ := hdisabled.member c p hne
    exact hcp ⟨hc, (List.mem_filter.mp hp).1⟩

theorem recheck_reaches (groupId : ℤ) (hw : w.snapshots.length = 1) :
    wp (tryCatch (do
        let newlyOwned ← recheckNewlyOwned (dispatcharr settings raises cancels stamps) groupId
          liveRuleIds
        pure (some newlyOwned)) fun _ => pure none)
      (fun recheck w' =>
        recheck = some (ownedOf (rowsOf (reached (w.store.stamp stamps) groupId)) liveRuleIds) ∧
          w'.store = w.store.stamp stamps ∨
        recheck = none ∧ ¬(dispatcharr settings raises cancels stamps).Calm)
      (fun _ _ => False) w := by
  rw [wp_tryCatch, wp_bind]
  unfold recheckNewlyOwned
  rw [wp_bind]
  apply wp_mono (fetchGroupChannels_reaches groupId)
  · rintro rows w' ⟨hstore, rfl, -⟩
    have hstamps : (dispatcharr settings raises cancels stamps).stamps w.snapshots.length =
        stamps := by
      rw [hw]
      rfl
    rw [hstamps] at hstore
    exact .inl ⟨by rw [hstore], hstore⟩
  · exact fun _ _ h => .inr ⟨rfl, h⟩

theorem applySelection_spec (effectiveGroupId : ℤ) (selection channelIds : List ℤ) (base : Outcome)
    (hw : w.snapshots.length = 1) :
    wp (applySelection (dispatcharr settings raises cancels stamps) effectiveGroupId liveRuleIds
        selection channelIds w.store.profiles base)
      (fun outcome w' =>
        outcome.status = .reconciled ∨ (dispatcharr settings raises cancels stamps).Calm →
          (outcome.status, w'.store) =
            recheckEnds stamps liveRuleIds selection channelIds effectiveGroupId w.store)
      (fun _ _ => ¬(dispatcharr settings raises cancels stamps).Calm) w := by
  unfold applySelection recheckEnds
  dsimp only
  apply (wp_ite _ _ _).mpr
  refine ⟨fun hstale _ => by rw [if_pos hstale], fun hvalid => ?_⟩
  rw [if_neg hvalid, wp_bind]
  apply wp_mono (recheck_reaches effectiveGroupId hw) _ fun _ _ h => h.elim
  rintro recheck w₁ (⟨rfl, hstore⟩ | ⟨rfl, hraised⟩)
  · apply (wp_ite _ _ _).mpr
    refine ⟨fun hnone _ => by rw [if_pos hnone, hstore], fun hkept => ?_⟩
    rw [if_neg hkept, wp_bind]
    have hprofiles : w.store.profiles = w₁.store.profiles := by
      rw [hstore]
      rfl
    rw [hprofiles]
    apply wp_mono (writeAll_spec _ _ true _) _ fun _ _ h => h.2
    rintro ⟨enabled, failedEnable⟩ w₂ ⟨henabled, hall, hlanded, hcalm⟩
    apply (wp_ite _ _ _).mpr
    constructor
    · rintro hfailed (hstatus | hisCalm)
      · cases hstatus
      · exact (hfailed (hcalm (fun p hp => (List.mem_filter.mp hp).1) hisCalm)).elim
    · intro hnone
      obtain rfl : failedEnable = [] := not_not.mp hnone
      rw [wp_bind]
      apply wp_mono (writeAll_spec _ _ false _) _ fun _ _ h => h.2
      rintro ⟨disabled, failedDisable⟩ w₃ ⟨hdisabled, hall', hlanded', hcalm'⟩ hends
      have hempty : failedDisable = [] := by
        rcases hends with hstatus | hisCalm
        · by_contra hne
          rw [if_pos hne] at hstatus
          cases hstatus
        · apply hcalm' _ hisCalm
          intro p hp
          rw [henabled.profiles]
          exact (List.mem_filter.mp hp).1
      subst hempty
      have hon := fun p (hp : p ∈ w₁.store.profiles) (hselected : p ∈ selection) =>
        hlanded p (by simpa using hall p (by simp [hp, hselected]))
      have hoff := fun p (hp : p ∈ w₁.store.profiles) (hselected : p ∉ selection) =>
        hlanded' p (by simpa using hall' p (by simp [hp, hselected]))
      have hfinal := converge_of_written henabled hon hdisabled hoff
      rw [hfinal, hstore]
      rfl
  · rintro (hstatus | hisCalm)
    · cases hstatus
    · exact (hraised hisCalm).elim

/-- Without the profiles nothing is reported reconciled. -/
theorem enableOnly_spec (upstream : Upstream) (effectiveGroupId : ℤ) (selection channelIds : List ℤ)
    (base : Outcome) :
    wp (enableOnly upstream effectiveGroupId liveRuleIds selection channelIds base)
      (fun outcome _ => outcome.status ≠ .reconciled) (fun _ _ => ¬upstream.Calm) w := by
  unfold enableOnly
  rw [wp_bind]
  apply wp_mono (recheck_spec upstream liveRuleIds effectiveGroupId) _ fun _ _ h => h.elim
  rintro recheck w₁ (⟨rfl, -⟩ | ⟨rows, rfl, -⟩)
  · rw [wp_pure]
    nofun
  · apply (wp_ite _ _ _).mpr
    constructor
    · intro _
      rw [wp_pure]
      nofun
    · intro _
      rw [wp_bind]
      apply wp_mono (writeAll_spec upstream _ true selection) _ fun _ _ h => h.2
      intro result w₂ _
      rw [wp_pure]
      nofun

theorem reconcileSelection_spec (groupId effectiveGroupId : ℤ) (selection : List ℤ)
    (hw : w.snapshots = []) :
    wp (reconcileSelection (dispatcharr settings raises cancels stamps) groupId effectiveGroupId
        liveRuleIds selection)
      (fun outcome w' => ∃ done,
        (∀ c ∈ done, c ∈ released liveRuleIds effectiveGroupId w.store) ∧
        ((dispatcharr settings raises cancels stamps).Calm →
          done = released liveRuleIds effectiveGroupId w.store) ∧
        (outcome.status = .reconciled ∨ (dispatcharr settings raises cancels stamps).Calm →
          (outcome.status, w'.store) =
            runEnds stamps liveRuleIds selection done effectiveGroupId w.store))
      (fun _ _ => ¬(dispatcharr settings raises cancels stamps).Calm) w := by
  unfold reconcileSelection
  rw [wp_bind]
  apply wp_mono (fetchGroupChannels_reaches effectiveGroupId) _ fun _ _ h => h
  rintro rows w₁ ⟨hstore, rfl, hsnapshots⟩
  have hfirst : w₁.store = w.store := by
    rw [hstore, hw]
    exact stamp_none w.store
  rw [hfirst, wp_bind]
  apply wp_mono (clear_each _) _ fun _ _ h => h.elim
  rintro _ w₂ ⟨hsnapshots', done, hdone, hcleared, hcalm⟩
  have hone : w₂.snapshots.length = 1 := by
    rw [hsnapshots', hsnapshots, hw]
    rfl
  rw [hfirst] at hcleared
  apply (wp_ite _ _ _).mpr
  constructor
  · intro hnone
    refine ⟨done, hdone, hcalm, fun _ => ?_⟩
    have htargets : targets liveRuleIds effectiveGroupId w.store = [] := hnone
    rw [runEnds, if_pos htargets, hcleared]
  · intro hsome
    have htargets : targets liveRuleIds effectiveGroupId w.store ≠ [] := hsome
    rw [wp_bind, wp_tryCatch, wp_bind]
    apply wp_mono (request_spec _ _)
    · rintro profiles w₃ ⟨rfl, hprofiles⟩
      have hlive : ((dispatcharr settings raises cancels stamps).channelProfiles w₂.store
          w₂.calls).reduceOption = w₃.store.profiles := by
        rw [hprofiles.store]
        change (w₂.store.profiles.map some).filterMap id = _
        rw [List.filterMap_map]
        exact List.filterMap_some
      rw [wp_pure]
      dsimp only
      rw [hlive]
      have hone' : w₃.snapshots.length = 1 := by rw [hprofiles.snapshots, hone]
      apply wp_mono (applySelection_spec effectiveGroupId selection _ _ hone') _ fun _ _ h => h
      intro outcome w₄ hends
      refine ⟨done, hdone, hcalm, fun h => ?_⟩
      rw [hends h, runEnds, if_neg htargets, hprofiles.store, hcleared]
      rfl
    · rintro _ w₃ ⟨-, hraised⟩
      rw [wp_pure]
      apply wp_mono (enableOnly_spec _ effectiveGroupId selection _ _) _ fun _ _ h => h
      intro outcome w₄ hstatus
      refine ⟨done, hdone, hcalm, ?_⟩
      rintro (hreconciled | hisCalm)
      · exact (hstatus hreconciled).elim
      · exact (hraised hisCalm).elim

theorem reconcileGroupProfiles_spec (groupId : ℤ) (revalidate : Bool) (hw : w.snapshots = []) :
    wp (reconcileGroupProfiles (dispatcharr settings raises cancels stamps) settings groupId
        liveRuleIds revalidate)
      (fun outcome w' =>
        outcome.status = .reconciled ∨ (dispatcharr settings raises cancels stamps).Calm →
        match selectionOf settings groupId with
        | none => outcome.status ≠ .reconciled ∧ w'.store = w.store
        | some selection =>
          let effective := resolveEffectiveMasterGroupId settings groupId
          ∃ done, (∀ c ∈ done, c ∈ released liveRuleIds effective w.store) ∧
            ((dispatcharr settings raises cancels stamps).Calm →
              done = released liveRuleIds effective w.store) ∧
            (outcome.status, w'.store) =
              runEnds stamps liveRuleIds selection done effective w.store)
      (fun _ _ => ¬(dispatcharr settings raises cancels stamps).Calm) w := by
  unfold reconcileGroupProfiles
  rw [show lockReacquireMax = 2 + 1 from rfl, reconcileAttempts, wp_bind]
  have hread : wp (revalidated (dispatcharr settings raises cancels stamps) revalidate settings)
      (fun answer w' => Idle w w' ∧ (answer = some settings ∨
        answer = none ∧ ¬(dispatcharr settings raises cancels stamps).Calm))
      (fun _ _ => False) w := by
    unfold revalidated
    apply (wp_ite _ _ _).mpr
    constructor
    · intro _
      rw [wp_tryCatch, wp_bind]
      apply wp_mono (request_spec _ _)
      · rintro answer w' ⟨rfl, h⟩
        exact ⟨h, .inl rfl⟩
      · exact fun _ _ h => ⟨h.1, .inr ⟨rfl, h.2⟩⟩
    · exact fun _ => ⟨⟨rfl, rfl, rfl⟩, .inl rfl⟩
  apply wp_mono hread _ fun _ _ h => h.elim
  rintro answer w₁ ⟨hidle, rfl | ⟨rfl, hraised⟩⟩
  · dsimp only
    rw [if_pos rfl]
    unfold reconcileUnlessCancelled reconcileGroupLocked selectionOf
    rw [wp_tryCatch]
    dsimp only
    by_cases hconflict : (settings.get? groupId).any fun row =>
        (row.read "_ecm_channel_profile_conflict").truthy
    · rw [if_pos hconflict, if_pos hconflict, wp_pure]
      exact fun _ => ⟨by simp, hidle.store⟩
    · rw [if_neg hconflict, if_neg hconflict]
      cases hselection : selectionFromSetting (settings.get? groupId) with
      | none =>
        rw [wp_pure]
        exact fun _ => ⟨by simp, hidle.store⟩
      | some selection =>
        have hw₁ : w₁.snapshots = [] := hidle.snapshots.trans hw
        apply wp_mono (reconcileSelection_spec groupId _ selection hw₁)
        · rintro outcome w₂ ⟨done, hdone, hcalm, hends⟩ h
          rw [hidle.store] at hdone hcalm hends
          exact ⟨done, hdone, hcalm, hends h⟩
        · intro e w₂ hraised
          apply (wp_ite _ _ _).mpr
          refine ⟨fun _ => ?_, fun _ => hraised⟩
          rw [wp_pure]
          rintro (hstatus | hisCalm)
          · cases hstatus
          · exact (hraised hisCalm).elim
  · rw [wp_pure]
    rintro (hstatus | hisCalm)
    · cases hstatus
    · exact (hraised hisCalm).elim

end Run

section Ends

variable {settings : Settings} {stamps : ℤ → Option Json} {liveRuleIds : Option (List ℤ)}
  {selection done : List ℤ} {groupId : ℤ} {store : Store}

/-- What the enumeration reaches at the re-check. -/
theorem reached_recheck : reached ((store.clear done).stamp stamps) groupId =
    (reached store groupId).map fun e => (e.1, { e.2 with
      customProperties := (stamps e.1).getD
        (if e.1 ∈ done then unmarked e.2.customProperties else e.2.customProperties) }) := by
  unfold Store.clear Store.stamp
  rw [mapProperties_mapProperties, reached_mapProperties]

/-- The channels that are not owned at the re-check: not owned before and not given an owner since. -/
theorem mem_targets_recheck (hdone : ∀ c ∈ done, c ∈ released liveRuleIds groupId store)
    (hstamps : ∀ c properties, stamps c = some properties →
      ownershipState properties liveRuleIds = .owned) {c : ℤ} :
    c ∈ targets liveRuleIds groupId ((store.clear done).stamp stamps) ↔
      c ∈ targets liveRuleIds groupId store ∧ stamps c = none := by
  rw [mem_targets, mem_targets, reached_recheck]
  constructor
  · rintro ⟨hosted, hmem, hstate⟩
    obtain ⟨e, he, heq⟩ := List.mem_map.mp hmem
    obtain ⟨rfl, rfl⟩ := Prod.mk.inj heq
    cases hstamp : stamps e.1 with
    | none =>
      rw [hstamp, Option.getD_none] at hstate
      exact ⟨⟨e.2, he, mt (state_clear he hdone).mpr hstate⟩, rfl⟩
    | some properties =>
      rw [hstamp, Option.getD_some] at hstate
      exact (hstate (hstamps e.1 properties hstamp)).elim
  · rintro ⟨⟨hosted, hmem, hstate⟩, hstamp⟩
    refine ⟨_, List.mem_map.mpr ⟨_, hmem, rfl⟩, ?_⟩
    rw [hstamp, Option.getD_none]
    exact mt (state_clear hmem hdone).mp hstate

theorem mem_kept (hdone : ∀ c ∈ done, c ∈ released liveRuleIds groupId store)
    (hstamps : ∀ c properties, stamps c = some properties →
      ownershipState properties liveRuleIds = .owned) {c : ℤ} :
    c ∈ ((targets liveRuleIds groupId store).filter fun c =>
        c ∉ ownedOf (rowsOf (reached ((store.clear done).stamp stamps) groupId)) liveRuleIds) ↔
      c ∈ targets liveRuleIds groupId store ∧ stamps c = none := by
  rw [← mem_targets_recheck hdone hstamps, List.mem_filter, mem_targets, mem_targets]
  unfold ownedOf
  simp only [decide_eq_true_eq, mem_idsIn]
  constructor
  · rintro ⟨⟨hosted, hmem, -⟩, hnot⟩
    have hmem' := List.mem_map_of_mem (f := fun e : ℤ × Hosted => (e.1, ({ e.2 with
      customProperties := (stamps e.1).getD
        (if e.1 ∈ done then unmarked e.2.customProperties
          else e.2.customProperties) } : Hosted))) hmem
    rw [← reached_recheck] at hmem'
    exact ⟨_, hmem', fun hstate => hnot ⟨_, hmem', hstate⟩⟩
  · rintro ⟨hosted, hmem, hstate⟩
    constructor
    · rw [← mem_targets]
      exact ((mem_targets_recheck hdone hstamps).mp (mem_targets.mpr ⟨hosted, hmem, hstate⟩)).1
    · rintro ⟨hosted', hmem', hstate'⟩
      have hsame := reached_unique hmem hmem' rfl
      obtain ⟨-, rfl⟩ := Prod.mk.inj hsame
      exact hstate hstate'

theorem converge_nil (store : Store) (selection : List ℤ) : store.converge [] selection = store := by
  refine Store.ext rfl rfl rfl ?_
  funext c p
  simp [Store.converge]

/-- Nobody else writing, a run that goes through settles. -/
theorem runEnds_calm :
    runEnds (fun _ => none) liveRuleIds selection (released liveRuleIds groupId store) groupId
        store =
      (statusOf liveRuleIds selection groupId store, settle liveRuleIds selection groupId store) := by
  have hkept : ((targets liveRuleIds groupId store).filter fun c => c ∉ ownedOf (rowsOf (reached
      ((store.clear (released liveRuleIds groupId store)).stamp fun _ => none) groupId))
      liveRuleIds) = targets liveRuleIds groupId store := by
    apply List.filter_eq_self.mpr
    intro c hc
    exact (List.mem_filter.mp ((mem_kept (fun _ h => h) fun _ _ h => by cases h).mpr ⟨hc, rfl⟩)).2
  unfold runEnds recheckEnds statusOf settle
  rw [hkept, stamp_none]
  by_cases htargets : targets liveRuleIds groupId store = []
  · simp [htargets, converge_nil]
  · by_cases hvalid : (selection.filter fun p => p ∈ store.profiles) = []
    · have hvalid' : (selection.filter fun p =>
          p ∈ (store.clear (released liveRuleIds groupId store)).profiles) = [] := hvalid
      simp [htargets, hvalid, hvalid', statusOf, converge_nil]
    · have hvalid' : (selection.filter fun p =>
          p ∈ (store.clear (released liveRuleIds groupId store)).profiles) ≠ [] := hvalid
      simp only [htargets, hvalid, hvalid', statusOf, if_true, if_false]

end Ends

end ChannelManager.Profiles
