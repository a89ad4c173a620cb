import ChannelManager.Dbas.AttachedOnce

/-!
# One placeholder for a missed stream

In a restore whose calls all succeed, a custom stream is created for every slot the matcher missed,
and written down by the id of the archived stream. An archived stream missed in two slots so has two
of them, and the first is attached nowhere.
-/

namespace ChannelManager.Dbas

open Eff

section Counting

variable {creations : Creations} {w : World}

/-- The layer after an answered create. -/
def StreamLayer.created (layer : StreamLayer) (orphan : ArchivedStream) (destId : ℤ) : StreamLayer :=
  { layer with
    category := { layer.category with created := layer.category.created + 1 }
    ledger := layer.ledger.recordCreated .stream destId (shownName orphan.2.name)
    remap := match orphan.1 with
      | some sourceId => layer.remap.add .stream sourceId destId
      | none => layer.remap }

theorem synthesizeStream_calm (hnamed : ∀ n, creations.anonymous n = false) (accountId : ℤ)
    (layer : StreamLayer) (orphan : ArchivedStream) :
    synthesizeStream calmUpstream creations accountId layer orphan w =
      (.ok (layer.created orphan (creations.streamId w.destination)),
        { w with
          writes := w.writes + 1
          destination := w.destination.addStream (creations.streamId w.destination)
            { orphan.2 with m3uAccount := some accountId } }) := by
  have hcreate : createStream calmUpstream creations { orphan.2 with m3uAccount := some accountId } w =
      (.ok (some (creations.streamId w.destination)), { w with
        writes := w.writes + 1
        destination := w.destination.addStream (creations.streamId w.destination)
          { orphan.2 with m3uAccount := some accountId } }) := by
    rw [createStream_apply, hnamed]
    rfl
  have hcaught : caught (createStream calmUpstream creations
      { orphan.2 with m3uAccount := some accountId }) w = _ :=
    tryCatch_eq_ok _ (bind_eq_ok.mpr ⟨_, _, hcreate, rfl⟩)
  unfold synthesizeStream
  dsimp only
  rw [bind_apply, hcaught]
  rfl

/-- Every archived id gets a stream. -/
theorem mem_synthesised_calm (hnamed : ∀ n, creations.anonymous n = false) (n : ℕ)
    {orphans : List ArchivedStream} {orphan : ArchivedStream} {k : ℤ} (h : orphan ∈ orphans)
    (hk : orphan.1 = some k) : k ∈ synthesised calmUpstream creations n orphans := by
  induction orphans generalizing n with
  | nil => cases h
  | cons first rest ih =>
    rw [synthesised, hnamed, List.mem_append]
    rcases List.mem_cons.mp h with rfl | hrest
    · exact .inl (by simp [calmUpstream, hk])
    · exact .inr (ih (n + 1) hrest)

/-- What the creating loop has counted, and that it wrote every new stream down when the archived ones
carry ids of their own. -/
structure Counted (before : Destination) (created : ℕ) (done : List ArchivedStream)
    (layer : StreamLayer) (w : World) : Prop where
  created : layer.category.created = created + done.length
  mapped : (∀ orphan ∈ done, orphan.1 ≠ none) → (done.filterMap Prod.fst).Nodup →
    ∀ s ∈ w.destination.streams, s ∈ before.streams ∨ ∃ k, layer.remap.resolve .stream k = some s

variable {before : Destination} {created n : ℕ} {done : List ArchivedStream} {layer : StreamLayer}

theorem Counted.next (h : Counted before created done layer w)
    (hcreating : Creating calmUpstream creations before n done layer.remap w)
    (orphan : ArchivedStream) (record : StreamRecord) :
    Counted before created (done ++ [orphan])
      (layer.created orphan (creations.streamId w.destination))
      { w with
        writes := w.writes + 1
        destination := w.destination.addStream (creations.streamId w.destination) record } where
  created := by
    show layer.category.created + 1 = _
    rw [h.created, List.length_append, Nat.add_assoc]
    rfl
  mapped hids hnodup s hs := by
    obtain ⟨k, hk⟩ := Option.ne_none_iff_exists'.mp
      (hids orphan (List.mem_append_right _ (List.mem_singleton_self _)))
    have hremap : (layer.created orphan (creations.streamId w.destination)).remap =
        layer.remap.add .stream k (creations.streamId w.destination) := by
      unfold StreamLayer.created
      rw [hk]
    rw [List.filterMap_append, List.nodup_append] at hnodup
    obtain ⟨hdone, -, hother⟩ := hnodup
    rw [hremap]
    rcases (Dict.mem_set _ _ _ _).mp hs with rfl | hold
    · exact .inr ⟨k, by rw [resolve_add, if_pos rfl]⟩
    · rcases h.mapped (fun a ha => hids a (List.mem_append_left _ ha)) hdone s hold with
        hbefore | ⟨k', hk'⟩
      · exact .inl hbefore
      · -- The id of the orphan was not written down before.
        have hne : k ≠ k' := by
          rintro rfl
          obtain ⟨a, ha, hak⟩ := mem_synthesised ((hcreating.resolved k).mp (by rw [hk']; rfl))
          exact hother k (List.mem_filterMap.mpr ⟨a, ha, hak⟩) k
            (List.mem_filterMap.mpr ⟨orphan, List.mem_singleton_self _, hk⟩) rfl
        exact .inr ⟨k', by rw [resolve_add, if_neg hne, hk']⟩

theorem fold_synthesizeStream_counted (hnamed : ∀ n, creations.anonymous n = false) (accountId : ℤ)
    (orphans : List ArchivedStream) (h : Counted before created [] layer w)
    (hcreating : Creating calmUpstream creations before n [] layer.remap w) :
    wp (fold (synthesizeStream calmUpstream creations accountId) layer orphans)
      (fun layer' w' => Counted before created orphans layer' w' ∧
        Creating calmUpstream creations before n orphans layer'.remap w')
      (fun _ _ => False) w := by
  let inv : List ArchivedStream → StreamLayer → World → Prop := fun rest layer w =>
    ∃ done, done ++ rest = orphans ∧ Counted before created done layer w ∧
      Creating calmUpstream creations before n done layer.remap w
  have hstep : ∀ orphan rest layer w, inv (orphan :: rest) layer w →
      wp (synthesizeStream calmUpstream creations accountId layer orphan) (inv rest)
        (fun _ _ => False) w := by
    rintro orphan rest layer w ⟨done, hdone, hcounted, hcreating⟩
    have hnext := synthesizeStream_creating accountId orphan hcreating
    rw [wp, synthesizeStream_calm hnamed] at hnext ⊢
    exact ⟨done ++ [orphan], by rw [List.append_assoc]; exact hdone,
      hcounted.next hcreating orphan _, hnext⟩
  apply wp_mono (wp_fold inv orphans hstep layer w ⟨[], rfl, h, hcreating⟩) _ (fun _ _ hf => hf)
  rintro layer' w' ⟨done, hdone, hend⟩
  rwa [← hdone, List.append_nil]

/-- Sending creates nothing. -/
theorem fold_attachPlan_created (plans : List ChannelStreamPlan) (attached : Attached) :
    wp (fold (attachPlan calmUpstream) attached plans)
      (fun attached' _ => attached'.layer.category.created = attached.layer.category.created)
      (fun _ _ => False) w := by
  have hstep : ∀ plan (rest : List ChannelStreamPlan) (attached' : Attached) (w : World),
      attached'.layer.category.created = attached.layer.category.created →
      wp (attachPlan calmUpstream attached' plan)
        (fun attached'' _ => attached''.layer.category.created = attached.layer.category.created)
        (fun _ _ => False) w := by
    intro plan rest attached' w h
    unfold attachPlan
    dsimp only
    apply (wp_ite _ _ _).mpr
    refine ⟨fun _ => h, fun _ => ?_⟩
    rw [wp_bind, wp_caught]
    exact wp_mono (updateChannelStreams_spec calmUpstream plan.destChannelId _) (fun _ _ _ => h)
      fun _ _ _ => h
  exact wp_fold (fun _ attached' _ => attached'.layer.category.created =
    attached.layer.category.created) plans hstep attached w rfl

theorem foldl_planStreams_created {names : NameRules} {allowFuzzy : Bool}
    {candidates : List (ℤ × StreamRecord)} (restored : List (ArchiveChannel × ℤ))
    (planned : List ChannelStreamPlan × StreamLayer) :
    (restored.foldl (planStreams names allowFuzzy candidates) planned).2.category.created =
      planned.2.category.created := by
  induction restored generalizing planned with
  | nil => rfl
  | cons row rest ih =>
    rw [List.foldl_cons, ih]
    unfold planStreams
    dsimp only
    split
    · rfl
    · rfl

end Counting

section Once

variable (names : NameRules) (allowFuzzy : Bool) (candidates : List (ℤ × StreamRecord))
  (restored : List (ArchiveChannel × ℤ))

/-- The distinct archived ids the matcher missed. -/
def missedIds : List ℤ :=
  ((orphansOf names allowFuzzy candidates restored).filterMap Prod.fst).dedup

/-- What an attach should create: a stream for every archived id that was missed, sent to exactly the
channels whose archive lists the archived stream, and as many as there are missed ids. -/
structure PlacedOnce (layer : StreamLayer) (w : World) (attached : Attached) (w' : World) : Prop where
  each : ∀ k ∈ missedIds names allowFuzzy candidates restored, ∃ s ∈ w'.destination.streams,
    s ∉ w.destination.streams ∧ attached.layer.remap.resolve .stream k = some s
  listed : ∀ s ∈ w'.destination.streams, s ∉ w.destination.streams →
    ∃ orphan ∈ orphansOf names allowFuzzy candidates restored, ∃ k, orphan.1 = some k ∧
      attached.layer.remap.resolve .stream k = some s ∧
      ∀ c, (∃ ids, (c, ids) ∈ attached.sent ∧ s ∈ ids) ↔
        ∃ row ∈ restored, row.2 = c ∧ orphan ∈ row.1.streams
  counted : attached.layer.category.created =
    layer.category.created + (missedIds names allowFuzzy candidates restored).length

/-- Every archived stream that is missed has an id, and none is missed in two slots. -/
def MissedOnce : Prop :=
  (∀ orphan ∈ orphansOf names allowFuzzy candidates restored, orphan.1 ≠ none) ∧
    ((orphansOf names allowFuzzy candidates restored).filterMap Prod.fst).Nodup

variable {names allowFuzzy candidates restored} {creations : Creations} {w : World}

/-- An attach creates a stream for every slot that was missed. -/
theorem importStreams_counted (hnamed : ∀ n, creations.anonymous n = false) (layer : StreamLayer)
    (hempty : layer.remap.mappings .stream = ∅) :
    wp (importStreams calmUpstream creations names allowFuzzy candidates restored layer)
      (fun attached w' =>
        ImportSends names allowFuzzy candidates calmUpstream creations restored w attached w' ∧
        attached.layer.category.created = layer.category.created +
          (orphansOf names allowFuzzy candidates restored).length ∧
        (MissedOnce names allowFuzzy candidates restored → ∀ s ∈ w'.destination.streams,
          s ∈ w.destination.streams ∨ ∃ k, attached.layer.remap.resolve .stream k = some s))
      (fun _ _ => False) w := by
  obtain ⟨hplans, hremap⟩ : (restored.foldl (planStreams names allowFuzzy candidates)
        ([], layer)).1 = [] ++ restored.filterMap (planOf names allowFuzzy candidates) ∧
      (restored.foldl (planStreams names allowFuzzy candidates) ([], layer)).2.remap =
        layer.remap := foldl_planStreams restored ([], layer)
  have hcreated : (restored.foldl (planStreams names allowFuzzy candidates)
      ([], layer)).2.category.created = layer.category.created :=
    foldl_planStreams_created restored ([], layer)
  rw [List.nil_append] at hplans
  have hsending : ∀ (layer₁ : StreamLayer) (w₁ : World),
      Counted w.destination layer.category.created (orphansOf names allowFuzzy candidates restored)
        layer₁ w₁ →
      wp (fold (attachPlan calmUpstream) ⟨layer₁, []⟩
          (restored.filterMap (planOf names allowFuzzy candidates)))
        (fun attached w' => attached.layer.category.created = layer.category.created +
            (orphansOf names allowFuzzy candidates restored).length ∧
          (MissedOnce names allowFuzzy candidates restored → ∀ s ∈ w'.destination.streams,
            s ∈ w.destination.streams ∨ ∃ k, attached.layer.remap.resolve .stream k = some s))
        (fun _ _ => False) w₁ := by
    intro layer₁ w₁ hcounted
    apply wp_mono (wp_and (fold_attachPlan _ _) (fold_attachPlan_created _ _)) _
      (fun _ _ hf => hf.1)
    rintro attached w' ⟨⟨-, hkept, hstreams⟩, hsame⟩
    refine ⟨hsame.trans hcounted.created, fun hmissed s hs => ?_⟩
    rw [hkept]
    exact hcounted.mapped hmissed.1 hmissed.2 s (hstreams ▸ hs)
  have hcount : wp (importStreams calmUpstream creations names allowFuzzy candidates restored layer)
      (fun attached w' => attached.layer.category.created = layer.category.created +
          (orphansOf names allowFuzzy candidates restored).length ∧
        (MissedOnce names allowFuzzy candidates restored → ∀ s ∈ w'.destination.streams,
          s ∈ w.destination.streams ∨ ∃ k, attached.layer.remap.resolve .stream k = some s))
      (fun _ _ => False) w := by
    unfold importStreams attachStreams
    dsimp only
    rw [hplans, orphans_planned]
    apply (wp_ite _ _ _).mpr
    constructor
    · intro hnone
      rw [wp_bind, wp_pure]
      apply hsending
      rw [hnone]
      exact ⟨hcreated, fun _ _ s hs => .inl hs⟩
    · intro _
      rw [wp_bind]
      apply wp_mono ensureCustomStreamAccount_spec
      · rintro accountId w₁ ⟨-, hstreams, hchannels⟩
        have hstart : Creating calmUpstream creations w.destination w₁.writes []
            (restored.foldl (planStreams names allowFuzzy candidates) ([], layer)).2.remap w₁ :=
          Creating.start (by rw [hremap]; exact hempty) hstreams hchannels
        have hcounted : Counted w.destination layer.category.created []
            (restored.foldl (planStreams names allowFuzzy candidates) ([], layer)).2 w₁ :=
          ⟨hcreated, fun _ _ s hs => .inl (hstreams ▸ hs)⟩
        rw [wp_bind]
        apply wp_mono (fold_synthesizeStream_counted hnamed accountId _ hcounted hstart) _
          (fun _ _ hf => hf.elim)
        exact fun layer₂ w₂ hdone => hsending layer₂ w₂ hdone.1
      · rintro _ w₁ ⟨hfirst, -⟩
        -- The account is there or created.
        unfold firstCreate calmUpstream at hfirst
        rw [hnamed, if_neg (by simp)] at hfirst
        cases hfound : findAccountIdByName w.destination with
        | some accountId =>
          rw [hfound] at hfirst
          cases hfirst
        | none =>
          rw [hfound] at hfirst
          cases hfirst
  apply wp_mono (wp_and (importStreams_sends layer hempty) hcount) (fun _ _ h => h)
  exact fun _ _ hf => hf.2

/-- The streams created are attached wherever their archived ones are listed. -/
theorem attached_of_missedOnce (hmissed : MissedOnce names allowFuzzy candidates restored)
    (hlisted : ∀ row ∈ candidates, row.1 ∈ w.destination.streams) {n : ℕ} {remap : IdRemapTable}
    {w₁ : World} (hcreating : Creating calmUpstream creations w.destination n
      (orphansOf names allowFuzzy candidates restored) remap w₁) {s k : ℤ}
    (hk : remap.resolve .stream k = some s) :
    ∃ orphan ∈ orphansOf names allowFuzzy candidates restored, ∃ k, orphan.1 = some k ∧
      remap.resolve .stream k = some s ∧
      ∀ c, (∃ ids, (c, ids) ∈ listsFor names allowFuzzy candidates remap restored ∧ s ∈ ids) ↔
        ∃ row ∈ restored, row.2 = c ∧ orphan ∈ row.1.streams := by
  obtain ⟨orphan, horphan, hsource⟩ := mem_synthesised ((hcreating.resolved k).mp (by rw [hk]; rfl))
  refine ⟨orphan, horphan, k, hsource, hk, fun c => ?_⟩
  have hmiss : hit names allowFuzzy candidates orphan = none := by
    obtain ⟨row, -, hrow⟩ := List.mem_flatMap.mp horphan
    simpa using (List.mem_filter.mp hrow).2
  have hstands : ∀ row ∈ restored, ∀ stream ∈ row.1.streams,
      standsAs names allowFuzzy candidates remap stream = some s ↔ stream = orphan := by
    intro row hrow stream hstream
    constructor
    · intro h
      rcases Option.or_eq_some_iff.mp h with hhit | ⟨hnone, hresolved⟩
      · obtain ⟨listed, hmem, hid⟩ := List.mem_map.mp (hit_mem hhit)
        exact absurd (hid ▸ hlisted listed hmem) (hcreating.fresh k s hk).2
      · obtain ⟨k', hk', hs⟩ := Option.bind_eq_some_iff.mp hresolved
        obtain rfl := hcreating.apart k k' s hk hs
        apply eq_of_id hmissed.2 _ horphan hk' hsource
        exact List.mem_flatMap.mpr ⟨row, hrow, List.mem_filter.mpr ⟨hstream, decide_eq_true hnone⟩⟩
    · rintro rfl
      rw [standsAs, hmiss, Option.none_or, hsource]
      exact hk
  constructor
  · rintro ⟨ids, hids, hs⟩
    obtain ⟨row, hrow, heq⟩ := List.mem_map.mp (List.mem_filter.mp hids).1
    obtain ⟨rfl, rfl⟩ := Prod.mk.inj heq
    obtain ⟨stream, hstream, hstand⟩ := List.mem_filterMap.mp hs
    obtain rfl := (hstands row hrow stream hstream).mp hstand
    exact ⟨row, hrow, rfl, hstream⟩
  · rintro ⟨row, hrow, rfl, hstream⟩
    have hs : s ∈ row.1.streams.filterMap (standsAs names allowFuzzy candidates remap) :=
      List.mem_filterMap.mpr ⟨orphan, hstream, (hstands row hrow orphan hstream).mpr rfl⟩
    refine ⟨_, List.mem_filter.mpr ⟨List.mem_map_of_mem hrow, ?_⟩, hs⟩
    exact decide_eq_true (List.ne_nil_of_mem hs)

/-- A restore whose calls all succeed places every missed stream once and attaches it wherever it is
listed exactly when every archived stream that is missed has an id and none is missed in two slots.
-/
theorem placedOnce_iff (names : NameRules) (allowFuzzy : Bool) (creations : Creations)
    (candidates : List (ℤ × StreamRecord)) (restored : List (ArchiveChannel × ℤ))
    (layer : StreamLayer) (w : World) (hnamed : ∀ n, creations.anonymous n = false)
    (hempty : layer.remap.mappings .stream = ∅)
    (hlisted : ∀ row ∈ candidates, row.1 ∈ w.destination.streams) :
    wp (importStreams calmUpstream creations names allowFuzzy candidates restored layer)
        (PlacedOnce names allowFuzzy candidates restored layer w) (fun _ _ => False) w ↔
      MissedOnce names allowFuzzy candidates restored := by
  constructor
  · intro hplaced
    have hboth := wp_and hplaced (importStreams_counted hnamed layer hempty)
    unfold wp at hboth
    split at hboth
    next attached w' _ =>
      obtain ⟨honce, -, hslots, -⟩ := hboth
      apply length_dedup_ids.mp
      have hsame := honce.counted.symm.trans hslots
      exact Nat.add_left_cancel hsame
    next => exact hboth.1.elim
  · intro hmissed
    apply wp_mono (importStreams_counted hnamed layer hempty) _ (fun _ _ hf => hf)
    rintro attached w' ⟨⟨n, w₁, -, hcreating, hstreams, horder⟩, hslots, hmapped⟩
    refine ⟨fun k hk => ?_, fun s hs hnew => ?_, ?_⟩
    · have hsynthesised : k ∈ synthesised calmUpstream creations n
          (orphansOf names allowFuzzy candidates restored) := by
        obtain ⟨orphan, horphan, hsource⟩ := List.mem_filterMap.mp (List.mem_dedup.mp hk)
        exact mem_synthesised_calm hnamed n horphan hsource
      obtain ⟨s, hs⟩ := Option.isSome_iff_exists.mp ((hcreating.resolved k).mpr hsynthesised)
      obtain ⟨hthere, hnew⟩ := hcreating.fresh k s hs
      exact ⟨s, hstreams ▸ hthere, hnew, hs⟩
    · rcases hmapped hmissed s hs with hold | ⟨k, hk⟩
      · exact absurd hold hnew
      · rw [horder]
        exact attached_of_missedOnce hmissed hlisted hcreating hk
    · rw [hslots, missedIds, length_dedup_ids.mpr hmissed]

end Once

section Samples

/-- A stream the destination does not have. -/
def sharedStream : ArchivedStream := (some 70, ⟨"Extra HD", some "http://p/70", some 4⟩)

/-- Two channels that list it. -/
def sharing : List (ArchiveChannel × ℤ) :=
  [(⟨some 10, "News", [sharedStream]⟩, 1), (⟨some 11, "Sport", [sharedStream]⟩, 2)]

def alone : List (ArchiveChannel × ℤ) := [(⟨some 10, "News", [sharedStream]⟩, 1)]

theorem placedOnce_alone :
    wp (importStreams calmUpstream serialCreations plainNames true provided.streams.items alone
        bareLayer)
      (PlacedOnce plainNames true provided.streams.items alone bareLayer (World.start provided))
      (fun _ _ => False) (World.start provided) := by
  apply (placedOnce_iff plainNames true serialCreations provided.streams.items alone bareLayer
    (World.start provided) (fun _ => rfl) rfl (by decide)).mpr
  unfold MissedOnce
  decide +kernel

/-- Two streams are created for the one both channels list, and the first is sent to neither. -/
theorem shared_stream_placed_twice :
    ¬wp (importStreams calmUpstream serialCreations plainNames true provided.streams.items sharing
        bareLayer)
      (PlacedOnce plainNames true provided.streams.items sharing bareLayer (World.start provided))
      (fun _ _ => False) (World.start provided) := by
  have hcreated : (importStreams calmUpstream serialCreations plainNames true
      provided.streams.items sharing bareLayer (World.start provided)).1.toOption.map
        (fun attached => (attached.sent, attached.layer.category.created)) =
          some ([(1, [103]), (2, [103])], 2) := by
    decide +kernel
  have hmissed : (missedIds plainNames true provided.streams.items sharing).length = 1 := by
    decide +kernel
  intro h
  unfold wp at h
  split at h
  next attached w' hrun =>
    rw [hrun] at hcreated
    obtain ⟨-, hcount⟩ := Prod.mk.inj (Option.some.inj hcreated)
    have hone := h.counted
    rw [hmissed, hcount] at hone
    exact absurd hone (by decide)
  next => exact h

end Samples

end ChannelManager.Dbas
