import ChannelManager.Dbas.CalmRebind
import ChannelManager.Dbas.StreamAttach
import ChannelManager.Lib.OwnIds
import Mathlib.Data.List.MinMax

/-!
# A stream once to a channel

What the two passes of a restore that write the streams of a channel send. The rebind gives no
stream to two slots. The attach does not look: it sends a stream as often as the archived streams of
the channel stand for it.
-/

namespace ChannelManager.Dbas

open Eff

section Answers

variable (upstream : Upstream) (creations : Creations)

/-- The number of the first write that creates a stream, when there is an account to put it on. -/
def firstCreate (w : World) : Option ℕ :=
  if upstream.accountListing then none
  else match findAccountIdByName w.destination with
    | some _ => some w.writes
    | none =>
      if upstream.write w.writes || creations.anonymous w.writes then none else some (w.writes + 1)

/-- The archived ids that get a stream, when the orphans are created from the `n`-th write on. -/
def synthesised : ℕ → List ArchivedStream → List ℤ
  | _, [] => []
  | n, orphan :: rest =>
    (if upstream.write n || creations.anonymous n then [] else orphan.1.toList) ++
      synthesised (n + 1) rest

end Answers

section Input

variable (names : NameRules) (allowFuzzy : Bool) (candidates : List (ℤ × StreamRecord))

/-- The archived streams the matcher misses, channel after channel. -/
def orphansOf (restored : List (ArchiveChannel × ℤ)) : List ArchivedStream :=
  restored.flatMap fun row => row.1.streams.filter fun stream =>
    hit names allowFuzzy candidates stream = none

/-- Two archived streams the matcher gives one candidate, or that it misses both and that carry one
id for which a stream is created. -/
def SameTarget (created : List ℤ) (a b : ArchivedStream) : Prop :=
  (∃ s, hit names allowFuzzy candidates a = some s ∧ hit names allowFuzzy candidates b = some s) ∨
    hit names allowFuzzy candidates a = none ∧ hit names allowFuzzy candidates b = none ∧
      ∃ k ∈ created, a.1 = some k ∧ b.1 = some k

/-- No restored channel has two archived streams of one target, unless the account for the created
ones cannot be had. -/
def TargetsApart (upstream : Upstream) (creations : Creations) (w : World)
    (restored : List (ArchiveChannel × ℤ)) : Prop :=
  ∀ n, orphansOf names allowFuzzy candidates restored = [] ∨
      firstCreate upstream creations w = some n →
    ∀ row ∈ restored, row.1.streams.Pairwise fun a b => ¬SameTarget names allowFuzzy candidates
      (synthesised upstream creations n (orphansOf names allowFuzzy candidates restored)) a b

/-- The stream an archived one stands for: its match, or the one created for its id. -/
def standsAs (remap : IdRemapTable) (stream : ArchivedStream) : Option ℤ :=
  (hit names allowFuzzy candidates stream).or (stream.1.bind (remap.resolve .stream))

end Input

section Slots

variable {names : NameRules} {allowFuzzy : Bool} {candidates : List (ℤ × StreamRecord)}

theorem hit_mem {stream : ArchivedStream} {s : ℤ}
    (h : hit names allowFuzzy candidates stream = some s) : s ∈ candidates.map Prod.fst := by
  unfold hit at h
  dsimp only at h
  split at h
  · exact matchStream_mem h
  · cases h

theorem resolve_slotOf (remap : IdRemapTable) (stream : ArchivedStream) :
    (slotOf names allowFuzzy candidates stream).resolve remap =
      standsAs names allowFuzzy candidates remap stream := by
  unfold slotOf standsAs
  cases hit names allowFuzzy candidates stream with
  | some s => rfl
  | none => rfl

theorem orphan_slotOf (stream : ArchivedStream) :
    (slotOf names allowFuzzy candidates stream).orphan =
      if hit names allowFuzzy candidates stream = none then some stream else none := by
  unfold slotOf
  cases hit names allowFuzzy candidates stream with
  | some s => rfl
  | none => rfl

/-- The plan of a restored channel, none when the archive gives it no streams. -/
def planOf (names : NameRules) (allowFuzzy : Bool) (candidates : List (ℤ × StreamRecord))
    (row : ArchiveChannel × ℤ) : Option ChannelStreamPlan :=
  if row.1.streams = [] then none
  else some ⟨row.2, shownName row.1.name, row.1.streams.map (slotOf names allowFuzzy candidates)⟩

/-- Planning adds the plans of the channels and leaves the remap as it was. -/
theorem foldl_planStreams (restored : List (ArchiveChannel × ℤ))
    (planned : List ChannelStreamPlan × StreamLayer) :
    (restored.foldl (planStreams names allowFuzzy candidates) planned).1 =
        planned.1 ++ restored.filterMap (planOf names allowFuzzy candidates) ∧
      (restored.foldl (planStreams names allowFuzzy candidates) planned).2.remap =
        planned.2.remap := by
  induction restored generalizing planned with
  | nil => exact ⟨(List.append_nil _).symm, rfl⟩
  | cons row rest ih =>
    obtain ⟨hplans, hremap⟩ := ih (planStreams names allowFuzzy candidates planned row)
    rw [List.foldl_cons, hplans, hremap]
    by_cases h : row.1.streams = []
    · rw [List.filterMap_cons_none (by rw [planOf, if_pos h]), planStreams, if_pos h]
      exact ⟨rfl, rfl⟩
    · rw [List.filterMap_cons_some (by rw [planOf, if_neg h]), planStreams, if_neg h]
      exact ⟨List.append_assoc .., rfl⟩

theorem orphans_planned (restored : List (ArchiveChannel × ℤ)) :
    ((restored.filterMap (planOf names allowFuzzy candidates)).flatMap fun plan =>
        plan.slots.filterMap StreamSlot.orphan) =
      orphansOf names allowFuzzy candidates restored := by
  have hslots : ∀ streams : List ArchivedStream,
      (streams.map (slotOf names allowFuzzy candidates)).filterMap StreamSlot.orphan =
        streams.filter fun stream => hit names allowFuzzy candidates stream = none := by
    intro streams
    rw [List.filterMap_map, ← List.filterMap_eq_filter]
    apply List.filterMap_congr
    intro stream _
    rw [Function.comp_apply, orphan_slotOf]
    simp [Option.guard]
  induction restored with
  | nil => rfl
  | cons row rest ih =>
    rw [orphansOf, List.flatMap_cons, ← orphansOf]
    by_cases h : row.1.streams = []
    · rw [List.filterMap_cons_none (by rw [planOf, if_pos h]), ih, h]
      rfl
    · rw [List.filterMap_cons_some (by rw [planOf, if_neg h]), List.flatMap_cons, ih]
      exact congrArg (· ++ _) (hslots row.1.streams)

end Slots

section Creating

variable {upstream : Upstream} {creations : Creations} {w : World}

theorem request_apply : request upstream w =
    (if upstream.write w.writes then .error "upstream request failed" else .ok (),
      { w with writes := w.writes + 1 }) := by
  have hcases : request upstream w =
      (if upstream.write w.writes then (throw "upstream request failed" : Eff World Unit)
        else pure ()) { w with writes := w.writes + 1 } := rfl
  rw [hcases]
  split
  · rfl
  · rfl

theorem createStream_apply (record : StreamRecord) :
    createStream upstream creations record w =
      if upstream.write w.writes then
        (.error "upstream request failed", { w with writes := w.writes + 1 })
      else
        (.ok (if creations.anonymous w.writes then none
          else some (creations.streamId w.destination)),
          { w with
            writes := w.writes + 1
            destination :=
              w.destination.addStream (creations.streamId w.destination) record }) := by
  unfold createStream
  rw [bind_apply]
  show (request upstream >>= _) w = _
  rw [bind_apply, request_apply]
  cases upstream.write w.writes with
  | true => rfl
  | false => rfl

theorem resolve_add (remap : IdRemapTable) (k k' d : ℤ) :
    (remap.add .stream k d).resolve .stream k' =
      if k = k' then some d else remap.resolve .stream k' :=
  Dict.get?_set _ _ _ _

theorem synthesised_concat (n : ℕ) (done : List ArchivedStream) (orphan : ArchivedStream) :
    synthesised upstream creations n (done ++ [orphan]) =
      synthesised upstream creations n done ++
        if upstream.write (n + done.length) || creations.anonymous (n + done.length) then []
        else orphan.1.toList := by
  induction done generalizing n with
  | nil => simp [synthesised]
  | cons first done ih =>
    rw [List.cons_append, synthesised, ih, synthesised, List.append_assoc, List.length_cons,
      Nat.add_right_comm, Nat.add_assoc]

/-- Where the creating loop is: the ids written down are those of the streams created so far, each
for one archived id and none there before. -/
structure Creating (upstream : Upstream) (creations : Creations) (before : Destination) (n : ℕ)
    (done : List ArchivedStream) (remap : IdRemapTable) (w : World) : Prop where
  writes : w.writes = n + done.length
  resolved : ∀ k, (remap.resolve .stream k).isSome ↔ k ∈ synthesised upstream creations n done
  fresh : ∀ k d, remap.resolve .stream k = some d →
    d ∈ w.destination.streams ∧ d ∉ before.streams
  apart : ∀ k k' d, remap.resolve .stream k = some d → remap.resolve .stream k' = some d → k = k'
  grown : ∀ s ∈ before.streams, s ∈ w.destination.streams
  channels : w.destination.channels = before.channels

variable {before : Destination} {n : ℕ} {done : List ArchivedStream} {remap : IdRemapTable}

/-- A create that gave no id leaves nothing written down. -/
theorem Creating.unanswered (h : Creating upstream creations before n done remap w)
    (orphan : ArchivedStream) {destination : Destination}
    (hanswer : (upstream.write w.writes || creations.anonymous w.writes) = true ∨ orphan.1 = none)
    (hgrown : ∀ s ∈ w.destination.streams, s ∈ destination.streams)
    (hchannels : destination.channels = w.destination.channels) :
    Creating upstream creations before n (done ++ [orphan]) remap
      { w with writes := w.writes + 1, destination } where
  writes := by
    show w.writes + 1 = _
    rw [h.writes, List.length_append]
    rfl
  resolved k := by
    rw [h.resolved, synthesised_concat, ← h.writes]
    rcases hanswer with hnone | hnone
    · rw [if_pos hnone, List.append_nil]
    · rw [hnone, Option.toList_none, ite_self, List.append_nil]
  fresh k d hk := ⟨hgrown d (h.fresh k d hk).1, (h.fresh k d hk).2⟩
  apart := h.apart
  grown s hs := hgrown s (h.grown s hs)
  channels := hchannels.trans h.channels

/-- A create that gave an id has it written down for the archived one. -/
theorem Creating.answered (h : Creating upstream creations before n done remap w)
    {orphan : ArchivedStream} {sourceId : ℤ} (record : StreamRecord)
    (hsource : orphan.1 = some sourceId)
    (hanswer : (upstream.write w.writes || creations.anonymous w.writes) = false) :
    Creating upstream creations before n (done ++ [orphan])
      (remap.add .stream sourceId (creations.streamId w.destination))
      { w with
        writes := w.writes + 1
        destination := w.destination.addStream (creations.streamId w.destination) record } where
  writes := by
    show w.writes + 1 = _
    rw [h.writes, List.length_append]
    rfl
  resolved k := by
    rw [resolve_add, synthesised_concat, ← h.writes, hanswer, hsource, List.mem_append,
      ← h.resolved k]
    split
    next heq => simp [heq]
    next hne => simp [Ne.symm hne]
  fresh k d hk := by
    rw [resolve_add] at hk
    split at hk
    · obtain rfl := Option.some.inj hk
      refine ⟨(Dict.mem_set _ _ _ _).mpr (.inl rfl), fun hold => ?_⟩
      exact creations.fresh _ (h.grown _ hold)
    · exact ⟨(Dict.mem_set _ _ _ _).mpr (.inr (h.fresh k d hk).1), (h.fresh k d hk).2⟩
  apart k k' d hk hk' := by
    have hnew : ∀ j, remap.resolve .stream j ≠ some (creations.streamId w.destination) :=
      fun j hj => creations.fresh _ (h.fresh j _ hj).1
    rw [resolve_add] at hk hk'
    split at hk
    next heq =>
      split at hk'
      next heq' => exact heq.symm.trans heq'
      next => exact (hnew k' (hk'.trans hk.symm)).elim
    next =>
      split at hk'
      next => exact (hnew k (hk.trans hk'.symm)).elim
      next => exact h.apart k k' d hk hk'
  grown s hs := (Dict.mem_set _ _ _ _).mpr (.inr (h.grown s hs))
  channels := h.channels

/-- One orphan, created or failed. -/
theorem synthesizeStream_creating {layer : StreamLayer} (accountId : ℤ) (orphan : ArchivedStream)
    (h : Creating upstream creations before n done layer.remap w) :
    wp (synthesizeStream upstream creations accountId layer orphan)
      (fun layer' w' => Creating upstream creations before n (done ++ [orphan]) layer'.remap w')
      (fun _ _ => False) w := by
  unfold synthesizeStream
  dsimp only
  rw [wp_bind, wp_caught, wp, createStream_apply]
  cases hwrite : upstream.write w.writes with
  | true => exact h.unanswered orphan (.inl (by rw [hwrite]; rfl)) (fun _ hs => hs) rfl
  | false =>
    cases hanonymous : creations.anonymous w.writes with
    | true =>
      exact h.unanswered orphan (.inl (by rw [hanonymous, Bool.or_true]))
        (fun s hs => (Dict.mem_set _ _ _ _).mpr (.inr hs)) rfl
    | false =>
      cases hsource : orphan.1 with
      | none =>
        exact h.unanswered orphan (.inr hsource)
          (fun s hs => (Dict.mem_set _ _ _ _).mpr (.inr hs)) rfl
      | some sourceId =>
        exact h.answered _ hsource (by rw [hwrite, hanonymous]; rfl)

/-- All orphans, one after the other. -/
theorem fold_synthesizeStream {layer : StreamLayer} (accountId : ℤ) (orphans : List ArchivedStream)
    (h : Creating upstream creations before n [] layer.remap w) :
    wp (fold (synthesizeStream upstream creations accountId) layer orphans)
      (fun layer' w' => Creating upstream creations before n orphans layer'.remap w')
      (fun _ _ => False) w := by
  let inv : List ArchivedStream → StreamLayer → World → Prop := fun rest layer w =>
    ∃ done, done ++ rest = orphans ∧ Creating upstream creations before n done layer.remap w
  have hstep : ∀ orphan rest layer w, inv (orphan :: rest) layer w →
      wp (synthesizeStream upstream creations accountId layer orphan) (inv rest)
        (fun _ _ => False) w := by
    rintro orphan rest layer w ⟨done, hdone, hcreating⟩
    apply wp_mono (synthesizeStream_creating accountId orphan hcreating) _ (fun _ _ hf => hf)
    intro layer' w' hcreating'
    exact ⟨done ++ [orphan], by rw [List.append_assoc]; exact hdone, hcreating'⟩
  apply wp_mono (wp_fold inv orphans hstep layer w ⟨[], rfl, h⟩) _ (fun _ _ hf => hf)
  rintro layer' w' ⟨done, hdone, hcreating⟩
  rwa [← hdone, List.append_nil]

/-- Before the first create. -/
theorem Creating.start (hempty : remap.mappings .stream = ∅) (hstreams : w.destination.streams =
    before.streams) (hchannels : w.destination.channels = before.channels) :
    Creating upstream creations before w.writes [] remap w where
  writes := rfl
  resolved k := by
    rw [IdRemapTable.resolve, hempty]
    simp [synthesised]
  fresh k d hk := by
    rw [IdRemapTable.resolve, hempty] at hk
    cases hk
  apart k k' d hk := by
    rw [IdRemapTable.resolve, hempty] at hk
    cases hk
  grown s hs := hstreams ▸ hs
  channels := hchannels

theorem createM3uAccount_apply (name : String) :
    createM3uAccount upstream creations name w =
      if upstream.write w.writes then
        (.error "upstream request failed", { w with writes := w.writes + 1 })
      else
        (.ok (if creations.anonymous w.writes then none
          else some (creations.accountId w.destination)),
          { w with
            writes := w.writes + 1
            destination := w.destination.addAccount (creations.accountId w.destination) name }) := by
  unfold createM3uAccount
  rw [bind_apply]
  show (request upstream >>= _) w = _
  rw [bind_apply, request_apply]
  cases upstream.write w.writes with
  | true => rfl
  | false => rfl

/-- Having the account touches no stream and no channel. -/
theorem ensureCustomStreamAccount_spec :
    wp (ensureCustomStreamAccount upstream creations)
      (fun _ w' => firstCreate upstream creations w = some w'.writes ∧
        w'.destination.streams = w.destination.streams ∧
          w'.destination.channels = w.destination.channels)
      (fun _ w' => firstCreate upstream creations w = none ∧
        w'.destination.channels = w.destination.channels) w := by
  unfold ensureCustomStreamAccount firstCreate
  rw [wp_bind, wp_get]
  cases upstream.accountListing with
  | true => exact ⟨rfl, rfl⟩
  | false =>
    rw [if_neg (by simp), if_neg (by simp)]
    cases findAccountIdByName w.destination with
    | some accountId => exact ⟨rfl, rfl, rfl⟩
    | none =>
      show wp (createM3uAccount upstream creations customStreamAccountName >>= _) _ _ w
      rw [wp_bind, wp, createM3uAccount_apply]
      cases upstream.write w.writes with
      | true => exact ⟨rfl, rfl⟩
      | false =>
        cases creations.anonymous w.writes with
        | true => exact ⟨rfl, rfl⟩
        | false => exact ⟨rfl, rfl, rfl⟩

end Creating

section Sending

variable {upstream : Upstream} {w : World}

/-- The list a plan is sent with, when it is not empty. -/
def sentFor (remap : IdRemapTable) (plan : ChannelStreamPlan) : Option (ℤ × List ℤ) :=
  let orderedIds := plan.slots.filterMap (StreamSlot.resolve remap)
  if orderedIds = [] then none else some (plan.destChannelId, orderedIds)

theorem attachPlan_spec (attached : Attached) (plan : ChannelStreamPlan) :
    wp (attachPlan upstream attached plan)
      (fun attached' w' =>
        attached'.sent = attached.sent ++ (sentFor attached.layer.remap plan).toList ∧
          attached'.layer.remap = attached.layer.remap ∧
            w'.destination.streams = w.destination.streams)
      (fun _ _ => False) w := by
  unfold attachPlan sentFor
  dsimp only
  apply (wp_ite _ _ _).mpr
  constructor
  · intro hempty
    rw [if_pos hempty]
    exact ⟨(List.append_nil _).symm, rfl, rfl⟩
  · intro hsome
    rw [if_neg hsome, wp_bind, wp_caught]
    apply wp_mono (updateChannelStreams_spec upstream plan.destChannelId _)
    · rintro _ w' ⟨hpatched, -⟩
      exact ⟨rfl, rfl, hpatched.streams⟩
    · rintro _ w' ⟨hdest, -⟩
      exact ⟨rfl, rfl, by rw [hdest]⟩

/-- Every plan sends its list, by the ids written down before. -/
theorem fold_attachPlan (plans : List ChannelStreamPlan) (attached : Attached) :
    wp (fold (attachPlan upstream) attached plans)
      (fun attached' w' =>
        attached'.sent = attached.sent ++ plans.filterMap (sentFor attached.layer.remap) ∧
          attached'.layer.remap = attached.layer.remap ∧
            w'.destination.streams = w.destination.streams)
      (fun _ _ => False) w := by
  induction plans generalizing attached w with
  | nil => exact ⟨(List.append_nil _).symm, rfl, rfl⟩
  | cons plan plans ih =>
    rw [fold, wp_bind]
    apply wp_mono (attachPlan_spec attached plan) _ (fun _ _ hf => hf)
    rintro attached₁ w₁ ⟨hsent₁, hremap₁, hstreams₁⟩
    apply wp_mono (ih attached₁) _ (fun _ _ hf => hf)
    rintro attached₂ w₂ ⟨hsent₂, hremap₂, hstreams₂⟩
    refine ⟨?_, hremap₂.trans hremap₁, hstreams₂.trans hstreams₁⟩
    rw [hsent₂, hsent₁, hremap₁, List.append_assoc, filterMap_cons_toList]

end Sending

section Import

variable {names : NameRules} {allowFuzzy : Bool} {candidates : List (ℤ × StreamRecord)}
  {upstream : Upstream} {creations : Creations} {restored : List (ArchiveChannel × ℤ)} {w : World}

/-- The lists of the restored channels, without the empty ones. -/
def listsFor (names : NameRules) (allowFuzzy : Bool) (candidates : List (ℤ × StreamRecord))
    (remap : IdRemapTable) (restored : List (ArchiveChannel × ℤ)) : List (ℤ × List ℤ) :=
  (restored.map fun row => (row.2,
    row.1.streams.filterMap (standsAs names allowFuzzy candidates remap))).filter (·.2 ≠ [])

theorem sentFor_planned (remap : IdRemapTable) :
    (restored.filterMap (planOf names allowFuzzy candidates)).filterMap (sentFor remap) =
      listsFor names allowFuzzy candidates remap restored := by
  have hslots : ∀ streams : List ArchivedStream,
      (streams.map (slotOf names allowFuzzy candidates)).filterMap (StreamSlot.resolve remap) =
        streams.filterMap (standsAs names allowFuzzy candidates remap) := by
    intro streams
    rw [List.filterMap_map]
    exact List.filterMap_congr fun stream _ => resolve_slotOf remap stream
  induction restored with
  | nil => rfl
  | cons row rest ih =>
    rw [listsFor, List.map_cons, List.filter_cons, ← listsFor]
    by_cases h : row.1.streams = []
    · rw [List.filterMap_cons_none (by rw [planOf, if_pos h]), ih, h]
      rfl
    · rw [List.filterMap_cons_some (by rw [planOf, if_neg h]), List.filterMap_cons, ih, sentFor]
      dsimp only
      rw [hslots]
      by_cases hids : row.1.streams.filterMap (standsAs names allowFuzzy candidates remap) = []
      · rw [if_pos hids, if_neg (by simp [hids])]
      · rw [if_neg hids, if_pos (by simp [hids])]

/-- What an import sends: the lists of the restored channels, by the ids of the streams it created
from the `n`-th write on. -/
def ImportSends (names : NameRules) (allowFuzzy : Bool) (candidates : List (ℤ × StreamRecord))
    (upstream : Upstream) (creations : Creations) (restored : List (ArchiveChannel × ℤ))
    (w : World) (attached : Attached) (w' : World) : Prop :=
  ∃ n w₁, (orphansOf names allowFuzzy candidates restored = [] ∨
      firstCreate upstream creations w = some n) ∧
    Creating upstream creations w.destination n (orphansOf names allowFuzzy candidates restored)
      attached.layer.remap w₁ ∧
    w'.destination.streams = w₁.destination.streams ∧
    attached.sent = listsFor names allowFuzzy candidates attached.layer.remap restored

/-- An import that raises does so before it sends anything. -/
theorem importStreams_sends (layer : StreamLayer) (hempty : layer.remap.mappings .stream = ∅) :
    wp (importStreams upstream creations names allowFuzzy candidates restored layer)
      (ImportSends names allowFuzzy candidates upstream creations restored w)
      (fun _ w' => orphansOf names allowFuzzy candidates restored ≠ [] ∧
        firstCreate upstream creations w = none ∧
          w'.destination.channels = w.destination.channels) w := by
  obtain ⟨hplans, hremap⟩ : (restored.foldl (planStreams names allowFuzzy candidates)
        ([], layer)).1 = [] ++ restored.filterMap (planOf names allowFuzzy candidates) ∧
      (restored.foldl (planStreams names allowFuzzy candidates) ([], layer)).2.remap =
        layer.remap := foldl_planStreams restored ([], layer)
  rw [List.nil_append] at hplans
  have hsending : ∀ (layer₁ : StreamLayer) (w₁ : World) (n : ℕ),
      (orphansOf names allowFuzzy candidates restored = [] ∨
        firstCreate upstream creations w = some n) →
      Creating upstream creations w.destination n (orphansOf names allowFuzzy candidates restored)
        layer₁.remap w₁ →
      wp (fold (attachPlan upstream) ⟨layer₁, []⟩
          (restored.filterMap (planOf names allowFuzzy candidates)))
        (ImportSends names allowFuzzy candidates upstream creations restored w)
        (fun _ w' => orphansOf names allowFuzzy candidates restored ≠ [] ∧
          firstCreate upstream creations w = none ∧
            w'.destination.channels = w.destination.channels) w₁ := by
    intro layer₁ w₁ n hn hcreating
    apply wp_mono (fold_attachPlan _ _) _ (fun _ _ hf => hf.elim)
    rintro attached w' ⟨hsent, hkept, hstreams⟩
    refine ⟨n, w₁, hn, by rwa [hkept], hstreams, ?_⟩
    rw [hsent, hkept, List.nil_append, sentFor_planned]
  unfold importStreams attachStreams
  dsimp only
  rw [hplans, orphans_planned]
  apply (wp_ite _ _ _).mpr
  constructor
  · intro hnone
    rw [wp_bind, wp_pure]
    apply hsending _ w w.writes (.inl hnone)
    rw [hnone, hremap]
    exact Creating.start hempty rfl rfl
  · intro hsome
    rw [wp_bind]
    apply wp_mono ensureCustomStreamAccount_spec
    · rintro accountId w₁ ⟨hfirst, hstreams, hchannels⟩
      have hstart : Creating upstream creations w.destination w₁.writes []
          (restored.foldl (planStreams names allowFuzzy candidates) ([], layer)).2.remap w₁ :=
        Creating.start (by rw [hremap]; exact hempty) hstreams hchannels
      rw [wp_bind]
      apply wp_mono (fold_synthesizeStream accountId _ hstart) _ (fun _ _ hf => hf.elim)
      exact fun layer₂ w₂ hcreating => hsending layer₂ w₂ w₁.writes (.inr hfirst) hcreating
    · rintro _ w₁ ⟨hfirst, hchannels⟩
      exact ⟨hsome, hfirst, hchannels⟩

/-- Two archived streams stand for one stream exactly when they have one target. -/
theorem sameTarget_iff {n : ℕ} {orphans : List ArchivedStream} {remap : IdRemapTable} {w₁ : World}
    (hlisted : ∀ row ∈ candidates, row.1 ∈ w.destination.streams)
    (h : Creating upstream creations w.destination n orphans remap w₁) (a b : ArchivedStream) :
    SameTarget names allowFuzzy candidates (synthesised upstream creations n orphans) a b ↔
      ∃ s, standsAs names allowFuzzy candidates remap a = some s ∧
        standsAs names allowFuzzy candidates remap b = some s := by
  -- A match is on the destination from the start, a created stream is not.
  have hforeign : ∀ (a b : ArchivedStream) (s : ℤ), hit names allowFuzzy candidates a = some s →
      b.1.bind (remap.resolve .stream) ≠ some s := by
    intro a b s ha hb
    obtain ⟨row, hrow, rfl⟩ := List.mem_map.mp (hit_mem ha)
    obtain ⟨k, -, hk⟩ := Option.bind_eq_some_iff.mp hb
    exact (h.fresh k row.1 hk).2 (hlisted row hrow)
  unfold SameTarget standsAs
  constructor
  · rintro (⟨s, ha, hb⟩ | ⟨ha, hb, k, hk, hka, hkb⟩)
    · exact ⟨s, by rw [ha]; rfl, by rw [hb]; rfl⟩
    · obtain ⟨s, hs⟩ := Option.isSome_iff_exists.mp ((h.resolved k).mpr hk)
      exact ⟨s, by rw [ha, hka]; exact hs, by rw [hb, hkb]; exact hs⟩
  · rintro ⟨s, ha, hb⟩
    cases hhita : hit names allowFuzzy candidates a with
    | some s' =>
      rw [hhita] at ha
      obtain rfl := Option.some.inj ha
      cases hhitb : hit names allowFuzzy candidates b with
      | some s'' =>
        rw [hhitb] at hb
        exact .inl ⟨s', rfl, hb⟩
      | none =>
        rw [hhitb] at hb
        exact (hforeign a b s' hhita hb).elim
    | none =>
      rw [hhita] at ha
      cases hhitb : hit names allowFuzzy candidates b with
      | some s'' =>
        rw [hhitb] at hb
        obtain rfl := Option.some.inj hb
        exact (hforeign b a s'' hhitb ha).elim
      | none =>
        rw [hhitb] at hb
        obtain ⟨k, hka, hk⟩ := Option.bind_eq_some_iff.mp ha
        obtain ⟨k', hkb, hk'⟩ := Option.bind_eq_some_iff.mp hb
        obtain rfl := h.apart k k' s hk hk'
        exact .inr ⟨rfl, rfl, k, (h.resolved k).mp (by rw [hk]; rfl), hka, hkb⟩

/-- What an attach should send: no stream twice to a channel, and for every restored channel, in the
order of the archive, the streams its archived ones stand for, one created in this run where there
is no match. -/
structure SentInOrder (names : NameRules) (allowFuzzy : Bool) (candidates : List (ℤ × StreamRecord))
    (restored : List (ArchiveChannel × ℤ)) (w : World) (attached : Attached) (w' : World) :
    Prop where
  distinct : ∀ row ∈ attached.sent, row.2.Nodup
  order : attached.sent = listsFor names allowFuzzy candidates attached.layer.remap restored
  created : ∀ k s, attached.layer.remap.resolve .stream k = some s →
    s ∈ w'.destination.streams ∧ s ∉ w.destination.streams ∧
      ∃ orphan ∈ orphansOf names allowFuzzy candidates restored, orphan.1 = some k

theorem mem_synthesised {n : ℕ} {orphans : List ArchivedStream} {source : ℤ}
    (h : source ∈ synthesised upstream creations n orphans) :
    ∃ orphan ∈ orphans, orphan.1 = some source := by
  induction orphans generalizing n with
  | nil => cases h
  | cons orphan rest ih =>
    rcases List.mem_append.mp h with hfirst | hrest
    · split at hfirst
      · cases hfirst
      · exact ⟨orphan, List.mem_cons_self .., by simpa using hfirst⟩
    · obtain ⟨later, hlater, hsource⟩ := ih hrest
      exact ⟨later, List.mem_cons_of_mem _ hlater, hsource⟩

/-- The lists sent repeat no stream exactly when no channel has two archived streams of one target.
-/
theorem distinct_iff {n : ℕ} {orphans : List ArchivedStream} {remap : IdRemapTable} {w₁ : World}
    (hlisted : ∀ row ∈ candidates, row.1 ∈ w.destination.streams)
    (h : Creating upstream creations w.destination n orphans remap w₁) :
    (∀ row ∈ listsFor names allowFuzzy candidates remap restored, row.2.Nodup) ↔
      ∀ row ∈ restored, row.1.streams.Pairwise fun a b =>
        ¬SameTarget names allowFuzzy candidates (synthesised upstream creations n orphans) a b := by
  have hlist : ∀ streams : List ArchivedStream,
      (streams.filterMap (standsAs names allowFuzzy candidates remap)).Nodup ↔
        streams.Pairwise fun a b => ¬SameTarget names allowFuzzy candidates
          (synthesised upstream creations n orphans) a b := by
    intro streams
    rw [List.Nodup, List.pairwise_filterMap]
    apply List.Pairwise.iff
    intro a b
    rw [sameTarget_iff hlisted h]
    constructor
    · rintro hne ⟨s, ha, hb⟩
      exact hne s ha s hb rfl
    · rintro hnone s ha s' hb rfl
      exact hnone ⟨s, ha, hb⟩
  constructor
  · intro hdistinct row hrow
    rw [← hlist]
    by_cases hempty : row.1.streams.filterMap (standsAs names allowFuzzy candidates remap) = []
    · rw [hempty]
      exact List.nodup_nil
    · exact hdistinct _ (List.mem_filter.mpr ⟨List.mem_map_of_mem hrow, decide_eq_true hempty⟩)
  · intro hapart row hrow
    obtain ⟨restoredRow, hmem, rfl⟩ := List.mem_map.mp (List.mem_filter.mp hrow).1
    exact (hlist _).mpr (hapart restoredRow hmem)

theorem importStreams_iff (layer : StreamLayer) (hempty : layer.remap.mappings .stream = ∅)
    (hlisted : ∀ row ∈ candidates, row.1 ∈ w.destination.streams) :
    wp (importStreams upstream creations names allowFuzzy candidates restored layer)
        (SentInOrder names allowFuzzy candidates restored w)
        (fun _ w' => w'.destination.channels = w.destination.channels) w ↔
      TargetsApart names allowFuzzy candidates upstream creations w restored := by
  constructor
  · intro hsound n hn row hrow
    obtain ⟨attached, w', -, hsent, n₁, w₁, hn₁, hcreating, -, horder⟩ :
        ∃ attached w', importStreams upstream creations names allowFuzzy candidates restored layer
            w = (.ok attached, w') ∧ SentInOrder names allowFuzzy candidates restored w attached w' ∧
          ImportSends names allowFuzzy candidates upstream creations restored w attached w' := by
      have hboth := wp_and hsound (importStreams_sends layer hempty)
      unfold wp at hboth
      cases hrun : importStreams upstream creations names allowFuzzy candidates restored layer w with
      | mk outcome w' =>
        rw [hrun] at hboth
        cases outcome with
        | ok attached => exact ⟨attached, w', rfl, hboth.1, hboth.2⟩
        | error e =>
          obtain ⟨-, hsome, hnone, -⟩ := hboth
          rcases hn with hn | hn
          · exact (hsome hn).elim
          · rw [hnone] at hn
            cases hn
    have hsame : synthesised upstream creations n (orphansOf names allowFuzzy candidates restored) =
        synthesised upstream creations n₁ (orphansOf names allowFuzzy candidates restored) := by
      rcases hn with hn | hn
      · rw [hn]
        rfl
      · rcases hn₁ with hn₁ | hn₁
        · rw [hn₁]
          rfl
        · rw [Option.some.inj (hn.symm.trans hn₁)]
    rw [hsame]
    have hdistinct := hsent.distinct
    rw [horder] at hdistinct
    exact (distinct_iff hlisted hcreating).mp hdistinct row hrow
  · intro hapart
    apply wp_mono (importStreams_sends layer hempty)
    · rintro attached w' ⟨n, w₁, hn, hcreating, hstreams, horder⟩
      refine ⟨?_, horder, ?_⟩
      · rw [horder]
        exact (distinct_iff hlisted hcreating).mpr (hapart n hn)
      · intro k s hk
        obtain ⟨hnow, hbefore⟩ := hcreating.fresh k s hk
        refine ⟨by rwa [hstreams], hbefore, ?_⟩
        exact mem_synthesised ((hcreating.resolved k).mp (by rw [hk]; rfl))
    · rintro e w' ⟨-, -, hchannels⟩
      exact hchannels

end Import

section Rebind

variable (matcher : Matcher) (placeholderIds : List ℤ) (archivedFor : ℤ → Option StreamRecord)
  (candidates : List (ℤ × StreamRecord))

/-- The list the rebind of a channel sends, if it sends one. -/
def rebindSends (currentIds : List ℤ) : Option (List ℤ) :=
  let slots := channelSlots matcher placeholderIds archivedFor candidates currentIds
  if slots.rebound = 0 then none else some slots.orderedIds

/-- The rebind of a channel is its one write, or none. -/
theorem rebindOneChannel_sends (upstream : Upstream) (destChannelId : ℤ) (currentIds : List ℤ) :
    rebindOneChannel matcher placeholderIds archivedFor candidates upstream destChannelId
        currentIds =
      let slots := channelSlots matcher placeholderIds archivedFor candidates currentIds
      match rebindSends matcher placeholderIds archivedFor candidates currentIds with
      | none => pure ⟨currentIds, 0, false, slots.retained⟩
      | some ids => (do
        if ← attempt (updateChannelStreams upstream destChannelId ids) then
          pure ⟨ids, slots.rebound, true, slots.retained⟩
        else pure ⟨currentIds, 0, false, currentIds.filter (· ∈ placeholderIds)⟩) := by
  unfold rebindOneChannel rebindSends
  dsimp only
  by_cases hzero : (channelSlots matcher placeholderIds archivedFor candidates currentIds).rebound = 0
  · have hsame := orderedIds_of_rebound_zero matcher placeholderIds archivedFor candidates _ _ hzero
    rw [if_pos hzero, if_pos hzero, channelSlots, hsame]
  · rw [if_neg hzero, if_neg hzero]

/-- What the rebind of a channel should do: send no stream twice, move placeholders only, each in
its slot onto a candidate, and leave the channel as it was when nothing was written. -/
structure ReboundInPlace (destChannelId : ℤ) (currentIds : List ℤ) (w : World)
    (outcome : ChannelRebind) (w' : World) : Prop where
  distinct : ∀ ids, rebindSends matcher placeholderIds archivedFor candidates currentIds = some ids →
    ids.Nodup
  inPlace : ∀ ids, rebindSends matcher placeholderIds archivedFor candidates currentIds = some ids →
    List.Forall₂ (fun old new => new = old ∨ old ∈ placeholderIds ∧ new ∈ candidates.map Prod.fst)
      currentIds ids
  written : outcome.updated = true →
    rebindSends matcher placeholderIds archivedFor candidates currentIds = some outcome.finalIds ∧
      w'.destination.held destChannelId =
        (w.destination.held destChannelId).map fun _ => outcome.finalIds
  failed : outcome.updated = false →
    outcome.finalIds = currentIds ∧ w'.destination = w.destination

theorem rebindSlots_inPlace (claimedIds currentIds : List ℤ) :
    List.Forall₂ (fun old new => new = old ∨ old ∈ placeholderIds ∧ new ∈ candidates.map Prod.fst)
      currentIds
      (rebindSlots matcher placeholderIds archivedFor candidates claimedIds currentIds).orderedIds := by
  induction currentIds generalizing claimedIds with
  | nil => exact .nil
  | cons boundId rest ih =>
    rw [rebindSlots]
    split
    next hbound =>
      split
      next matchId hclaim =>
        exact .cons (.inr ⟨hbound, claim_candidate matcher archivedFor candidates hclaim⟩) (ih _)
      next => exact .cons (.inl rfl) (ih _)
    next => exact .cons (.inl rfl) (ih _)

theorem rebindOneChannel_inPlace (upstream : Upstream) (destChannelId : ℤ) {currentIds : List ℤ}
    {w : World} (hreal : ∀ s ∈ candidates.map Prod.fst, s ∉ placeholderIds)
    (hnodup : currentIds.Nodup) :
    wp (rebindOneChannel matcher placeholderIds archivedFor candidates upstream destChannelId
        currentIds)
      (ReboundInPlace matcher placeholderIds archivedFor candidates destChannelId currentIds w)
      (fun _ _ => False) w := by
  have hsends : ∀ ids, rebindSends matcher placeholderIds archivedFor candidates currentIds =
      some ids → ids.Nodup ∧ List.Forall₂
        (fun old new => new = old ∨ old ∈ placeholderIds ∧ new ∈ candidates.map Prod.fst)
        currentIds ids := by
    intro ids hids
    unfold rebindSends at hids
    dsimp only at hids
    split at hids
    · cases hids
    · obtain rfl := Option.some.inj hids
      refine ⟨(rebindSlots_nodup matcher placeholderIds archivedFor candidates hreal _ _ hnodup ?_).1,
        rebindSlots_inPlace matcher placeholderIds archivedFor candidates _ _⟩
      exact fun s hs hp => List.mem_filter.mpr ⟨hs, decide_eq_true hp⟩
  have hdistinct := fun ids hids => (hsends ids hids).1
  have hinPlace := fun ids hids => (hsends ids hids).2
  rw [rebindOneChannel_sends]
  dsimp only
  cases hids : rebindSends matcher placeholderIds archivedFor candidates currentIds with
  | none => exact ⟨hdistinct, hinPlace, nofun, fun _ => ⟨rfl, rfl⟩⟩
  | some ids =>
    show wp (attempt _ >>= _) _ _ w
    rw [wp_bind, wp_attempt]
    apply wp_mono (updateChannelStreams_spec upstream destChannelId ids)
    · rintro _ w' ⟨-, hheld⟩
      exact ⟨hdistinct, hinPlace, fun _ => ⟨hids, hheld⟩, nofun⟩
    · rintro _ w' ⟨hdest, -⟩
      exact ⟨hdistinct, hinPlace, nofun, fun _ => ⟨rfl, hdest⟩⟩

end Rebind

/-- No list a restore sends repeats a stream, the attach keeps the order of the archive and the
rebind the slots of the channel, exactly when no restored channel has two archived streams of one
target. -/
theorem restore_writes_iff (names : NameRules) (allowFuzzy : Bool) (upstream : Upstream)
    (creations : Creations) (candidates : List (ℤ × StreamRecord))
    (restored : List (ArchiveChannel × ℤ)) (layer : StreamLayer) (w : World)
    (hempty : layer.remap.mappings .stream = ∅)
    (hlisted : ∀ row ∈ candidates, row.1 ∈ w.destination.streams)
    (placeholderIds : List ℤ) (archivedFor : ℤ → Option StreamRecord)
    (realStreams : List (ℤ × StreamRecord)) (destChannelId : ℤ) (currentIds : List ℤ) (w₁ : World)
    (hreal : ∀ s ∈ realStreams.map Prod.fst, s ∉ placeholderIds) (hnodup : currentIds.Nodup) :
    (wp (importStreams upstream creations names allowFuzzy candidates restored layer)
        (SentInOrder names allowFuzzy candidates restored w)
        (fun _ w' => w'.destination.channels = w.destination.channels) w ∧
      wp (rebindOneChannel (streamMatcher names allowFuzzy) placeholderIds archivedFor realStreams
          upstream destChannelId currentIds)
        (ReboundInPlace (streamMatcher names allowFuzzy) placeholderIds archivedFor realStreams
          destChannelId currentIds w₁)
        (fun _ _ => False) w₁) ↔
      TargetsApart names allowFuzzy candidates upstream creations w restored := by
  rw [importStreams_iff layer hempty hlisted]
  constructor
  · exact fun h => h.1
  · intro hapart
    exact ⟨hapart, rebindOneChannel_inPlace _ _ _ _ upstream destChannelId hreal hnodup⟩

section Samples

/-- Names compared without their case, none of them similar. -/
def plainNames : NameRules := ⟨fun name => String.ofList (name.toList.map Char.toLower), fun _ _ => 0⟩

/-- Each new stream gets the id after the highest. -/
def serialCreations : Creations where
  streamId destination := destination.streams.keys.foldr max 0 + 1
  accountId destination := destination.accounts.keys.foldr max 0 + 1
  anonymous _ := false
  fresh := by
    intro destination h
    have hle := List.le_max_of_le' 0 h le_rfl
    omega

/-- One stream of the provider, and a restored channel. -/
def provided : Destination where
  accounts := Dict.ofList [(4, "Provider")]
  streams := Dict.ofList [(101, ⟨"News HD", some "http://p/101", some 4⟩)]
  channels := Dict.ofList [(1, ⟨"News", []⟩)]
  bound := by
    intro c record h
    have hmem := (Dict.get?_eq_some _ _ _).mp h
    rw [Dict.items_ofList _ (by decide), List.mem_singleton] at hmem
    cases hmem
    decide

def bareLayer : StreamLayer := ⟨.empty, [], .empty, .empty⟩

/-- Two streams of the provider whose names differ in their case; it has one of them left. -/
def twiceNamed : ArchiveChannel :=
  ⟨some 10, "News", [(some 70, ⟨"News HD", some "http://p/70", some 4⟩),
    (some 71, ⟨"NEWS HD", some "http://p/71", some 4⟩)]⟩

/-- Two streams of different names. -/
def onceNamed : ArchiveChannel :=
  ⟨some 10, "News", [(some 70, ⟨"News HD", some "http://p/70", some 4⟩),
    (some 71, ⟨"Sport", some "http://p/71", some 4⟩)]⟩

theorem restore_writes_once :
    wp (importStreams calmUpstream serialCreations plainNames true provided.streams.items
        [(onceNamed, 1)] bareLayer)
        (SentInOrder plainNames true provided.streams.items [(onceNamed, 1)] (World.start provided))
        (fun _ w' => w'.destination.channels = provided.channels) (World.start provided) ∧
      wp (rebindOneChannel (streamMatcher plainNames true) [7] (fun _ => some ⟨"Sport", none, none⟩)
          [(101, ⟨"Sport", some "http://p/1", some 4⟩)] calmUpstream 1 [7])
        (ReboundInPlace (streamMatcher plainNames true) [7]
          (fun _ => some ⟨"Sport", none, none⟩) [(101, ⟨"Sport", some "http://p/1", some 4⟩)] 1 [7]
          (World.start stranded))
        (fun _ _ => False) (World.start stranded) := by
  apply (restore_writes_iff plainNames true calmUpstream serialCreations provided.streams.items
    [(onceNamed, 1)] bareLayer (World.start provided) rfl (by decide) [7]
    (fun _ => some ⟨"Sport", none, none⟩) [(101, ⟨"Sport", some "http://p/1", some 4⟩)] 1 [7]
    (World.start stranded) (by decide) (by decide)).mpr
  have hnews : hit plainNames true provided.streams.items
      (some 70, ⟨"News HD", some "http://p/70", some 4⟩) = some 101 := by decide +kernel
  have hsport : hit plainNames true provided.streams.items
      (some 71, ⟨"Sport", some "http://p/71", some 4⟩) = none := by decide +kernel
  intro n _ row hrow
  obtain rfl := List.mem_singleton.mp hrow
  refine List.pairwise_pair.mpr ?_
  rintro (⟨s, -, hs⟩ | ⟨hnone, -⟩)
  · rw [hsport] at hs
    cases hs
  · rw [hnews] at hnone
    cases hnone

/-- The attach sends the one stream left for both of the archived ones. -/
theorem attach_sends_twice :
    ¬wp (importStreams calmUpstream serialCreations plainNames true provided.streams.items
        [(twiceNamed, 1)] bareLayer)
      (SentInOrder plainNames true provided.streams.items [(twiceNamed, 1)] (World.start provided))
      (fun _ w' => w'.destination.channels = provided.channels) (World.start provided) := by
  have hsent : (importStreams calmUpstream serialCreations plainNames true provided.streams.items
      [(twiceNamed, 1)] bareLayer (World.start provided)).1.toOption.map Attached.sent =
        some [(1, [101, 101])] := by
    decide +kernel
  intro h
  unfold wp at h
  split at h
  next attached w' hrun =>
    rw [hrun] at hsent
    have hlists : attached.sent = [(1, [101, 101])] := Option.some.inj hsent
    exact absurd (h.distinct (1, [101, 101]) (by rw [hlists]; exact List.mem_singleton_self _))
      (by decide)
  next e w' hrun =>
    rw [hrun] at hsent
    cases hsent

end Samples

end ChannelManager.Dbas
