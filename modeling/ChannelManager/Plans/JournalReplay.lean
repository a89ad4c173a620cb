import ChannelManager.Plans.JournalReal
import ChannelManager.Plans.JournalStanding

/-!
# The journal of a successful replay

The journal is compared with the replay it describes, write by write: its shadow has the channels
that the plan read and the replay created, each as the store has it but for what is left to
Dispatcharr.
-/

namespace ChannelManager.Plans

open Eff

/-- The temporary id that the next create takes. -/
def nextTempAfter (writes : List Write) : ℤ := -(creations writes : ℤ) - 1

theorem withTempIds_concat (nextTemp : ℤ) (writes : List Write) (w : Write) :
    withTempIds nextTemp (writes ++ [w]) =
      withTempIds nextTemp writes ++ [(nextTemp - creations writes, w)] := by
  induction writes generalizing nextTemp with
  | nil => simp [withTempIds, creations]
  | cons w' writes ih =>
    have hcount : creations (w' :: writes) = creations writes + if w'.isCreate then 1 else 0 :=
      List.countP_cons
    rw [List.cons_append, withTempIds, ih, withTempIds, List.cons_append, hcount]
    cases w'.isCreate
    · simp
    · simp only [if_true, Nat.cast_add, Nat.cast_one]
      rw [sub_sub, add_comm]

theorem lastWrite_withTempIds {β : Type} (f : ℤ × Write → Option β) (writes : List Write)
    (w : Write) :
    (lastWrite f (withTempIds (-1) (writes ++ [w]))).map Prod.snd =
      (f (nextTempAfter writes, w)).or ((lastWrite f (withTempIds (-1) writes)).map Prod.snd) := by
  have hnext : (-1 : ℤ) - creations writes = nextTempAfter writes := by
    unfold nextTempAfter
    omega
  rw [withTempIds_concat, lastWrite_concat, hnext]
  cases f (nextTempAfter writes, w) <;> simp

theorem leftBy_of_some {leaves : ℤ × Write → Option Bool} {writes : List Write} {w : Write}
    {b : Bool} (h : leaves (nextTempAfter writes, w) = some b) :
    LeftBy leaves (writes ++ [w]) ↔ b = true := by
  rw [LeftBy, lastWrite_withTempIds, h, Option.some_or, Option.some.injEq]

theorem leftBy_of_none {leaves : ℤ × Write → Option Bool} {writes : List Write} {w : Write}
    (h : leaves (nextTempAfter writes, w) = none) :
    LeftBy leaves (writes ++ [w]) ↔ LeftBy leaves writes := by
  rw [LeftBy, lastWrite_withTempIds, h, Option.none_or, LeftBy]

/-! ## Shadow and store -/

/-- The journal has the channel as the store has it, except that it has nothing where the store has
what was left to Dispatcharr. -/
structure Alike (noStreams noNumber : Prop) (s t : Standing) : Prop where
  streams : ¬noStreams → s.streams = t.streams
  streamless : noStreams → s.streams = ∅
  number : ¬noNumber → s.number = t.number
  unnumbered : noNumber → s.number = .null

/-- Both have the channel, alike, or neither has it. -/
def BothAlike (noStreams noNumber : Prop) : Option Standing → Option Standing → Prop
  | some s, some t => Alike noStreams noNumber s t
  | none, none => True
  | _, _ => False

theorem Alike.congr {P P' Q Q' : Prop} {s t : Standing} (h : Alike P Q s t) (hP : P' ↔ P)
    (hQ : Q' ↔ Q) : Alike P' Q' s t := by
  rw [hP, hQ]
  exact h

theorem BothAlike.congr {P P' Q Q' : Prop} {s t : Option Standing} (h : BothAlike P Q s t)
    (hP : P' ↔ P) (hQ : Q' ↔ Q) : BothAlike P' Q' s t := by
  rw [hP, hQ]
  exact h

theorem BothAlike.map {P P' Q Q' : Prop} {s t : Option Standing} {f g : Standing → Standing}
    (h : BothAlike P Q s t) (hfg : ∀ s t, Alike P Q s t → Alike P' Q' (f s) (g t)) :
    BothAlike P' Q' (s.map f) (t.map g) := by
  cases s <;> cases t
  · trivial
  · exact h
  · exact h
  · exact hfg _ _ h

/-- An update states what it sets. -/
theorem Alike.restated {P P' Q Q' : Prop} {s t : Standing} (h : Alike P Q s t) {data : Record}
    (hP : P' ↔ "streams" ∉ data ∧ P) (hQ : Q' ↔ "channel_number" ∉ data ∧ Q) :
    Alike P' Q' (s.restated data) (t.restated data) := by
  have hstreams : ∀ s : Standing, (s.restated data).streams =
      if "streams" ∈ data then streamSet (data.read "streams") else s.streams := fun _ => rfl
  have hnumber : ∀ s : Standing, (s.restated data).number =
      if "channel_number" ∈ data then (data.read "channel_number").canonical else s.number := by
    intro s
    split
    case isTrue hmem =>
      obtain ⟨v, hget⟩ := Dict.exists_get? hmem
      simp [Standing.restated, Record.read, hget]
    case isFalse hmem =>
      simp [Standing.restated, (Dict.get?_eq_none _ _).mpr hmem]
  constructor
  · rw [hstreams, hstreams, hP]
    split
    · exact fun _ => rfl
    case isFalse hmem => exact fun hno => h.streams fun hp => hno ⟨hmem, hp⟩
  · rw [hstreams, hP]
    rintro ⟨hmem, hp⟩
    rw [if_neg hmem, h.streamless hp]
  · rw [hnumber, hnumber, hQ]
    split
    · exact fun _ => rfl
    case isFalse hmem => exact fun hno => h.number fun hq => hno ⟨hmem, hq⟩
  · rw [hnumber, hQ]
    rintro ⟨hmem, hq⟩
    rw [if_neg hmem, h.unnumbered hq]

/-- Nothing is known of a channel that was only just created. -/
theorem alike_empty (t : Standing) : Alike True True (standingOf ∅) t where
  streams h := absurd trivial h
  streamless _ := rfl
  number h := absurd trivial h
  unnumbered _ := rfl

section Step

variable {server : Server} {live : Live} {remap : Dict ℤ ℤ} {writes : List Write} {w : Write}
  {c : ℤ} {s t : Option Standing}

/-- The shadow has the channel as the store has it after some writes. -/
def AlikeAfter (remap : Dict ℤ ℤ) (writes : List Write) (c : ℤ) (s t : Option Standing) : Prop :=
  BothAlike (LeftBy (leavesStreams remap c) writes) (LeftBy (leavesNumber remap c) writes) s t

theorem numbers_keys (remap : Dict ℤ ℤ) (ids : List ℤ) (f : ℕ → Json) :
    (ids.zipIdx.map fun e => (resolve remap e.1, f e.2)).map Prod.fst =
      ids.map (resolve remap) := by
  have hfst : ∀ (n : ℕ) (ids : List ℤ),
      ((ids.zipIdx n).map fun e => (resolve remap e.1, f e.2)).map Prod.fst =
        ids.map (resolve remap) := by
    intro n ids
    induction ids generalizing n with
    | nil => rfl
    | cons c ids ih => simpa using ih (n + 1)
  exact hfst 0 ids

theorem numberFrom_of_mem {ids : List ℤ} (f : ℕ → Json) (h : c ∈ ids.map (resolve remap)) :
    ∃ index, numberFrom c (ids.zipIdx.map fun e => (resolve remap e.1, f e.2)) =
      some (f index) := by
  cases hfrom : numberFrom c (ids.zipIdx.map fun e => (resolve remap e.1, f e.2)) with
  | none =>
    rw [numberFrom_eq_none, numbers_keys] at hfrom
    exact absurd h hfrom
  | some v =>
    obtain ⟨e, -, heq⟩ := List.mem_map.mp (mem_of_numberFrom hfrom)
    exact ⟨e.2, congrArg some (congrArg Prod.snd heq).symm⟩

theorem liveNumbers_assign (ids : List ℤ) (startingNumber : Json) :
    liveNumbers server live remap (.assignChannelNumbers ids startingNumber) =
      ids.zipIdx.map fun e => (resolve remap e.1,
        live.numberAt server (ids.map (resolve remap)) startingNumber e.2) := by
  rw [liveNumbers, List.zipIdx_map, List.map_map]
  rfl

theorem numberAt_stated (ids : List ℤ) {startingNumber : Json} (h : startingNumber ≠ .null) :
    live.numberAt server ids startingNumber = numberPlus startingNumber := by
  funext index
  cases startingNumber with
  | null => exact absurd rfl h
  | _ => rfl

/-- An assignment states the numbers it gives, unless it starts from none. -/
theorem Alike.assigned {ids : List ℤ} {startingNumber : Json} {s t : Standing}
    (h : Alike (LeftBy (leavesStreams remap c) writes) (LeftBy (leavesNumber remap c) writes) s t) :
    let w := .assignChannelNumbers ids startingNumber
    Alike (LeftBy (leavesStreams remap c) (writes ++ [w]))
      (LeftBy (leavesNumber remap c) (writes ++ [w]))
      { s with number := ((numberFrom c (journalNumbers remap w)).map Json.canonical).getD s.number }
      { t with number :=
        ((numberFrom c (liveNumbers server live remap w)).map Json.canonical).getD t.number } := by
  intro w
  have hstreams : LeftBy (leavesStreams remap c) (writes ++ [w]) ↔
      LeftBy (leavesStreams remap c) writes := leftBy_of_none rfl
  by_cases hc : c ∈ ids.map (resolve remap)
  · have hleft : LeftBy (leavesNumber remap c) (writes ++ [w]) ↔ startingNumber = .null := by
      rw [leftBy_of_some (if_pos hc), decide_eq_true_iff]
    obtain ⟨i, hi⟩ := numberFrom_of_mem (numberPlus startingNumber) hc
    have hjournal : numberFrom c (journalNumbers remap w) = some (numberPlus startingNumber i) := hi
    rw [hstreams, hleft, hjournal]
    constructor
    · exact h.streams
    · exact h.streamless
    · intro hstart
      rw [liveNumbers_assign, numberAt_stated _ hstart, hi]
      rfl
    · rintro rfl
      rfl
  · have hleft : LeftBy (leavesNumber remap c) (writes ++ [w]) ↔
        LeftBy (leavesNumber remap c) writes := leftBy_of_none (if_neg hc)
    have hnone : ∀ f : ℕ → Json,
        numberFrom c (ids.zipIdx.map fun e => (resolve remap e.1, f e.2)) = none := by
      intro f
      rw [numberFrom_eq_none, numbers_keys]
      exact hc
    rw [hstreams, hleft, liveNumbers_assign, hnone, journalNumbers, hnone]
    exact h

/-- One more write keeps the two alike. -/
theorem AlikeAfter.step (h : AlikeAfter remap writes c s t) :
    AlikeAfter remap (writes ++ [w]) c
      (standingAfter remap (nextTempAfter writes) ∅ (journalNumbers remap w) c s w)
      (standingAfter remap (nextTempAfter writes) server.defaults
        (liveNumbers server live remap w) c t w) := by
  cases w with
  | createChannel data =>
    by_cases hc : resolve remap (nextTempAfter writes) = c
    · rw [standingAfter, standingAfter, if_pos hc, if_pos hc]
      refine (alike_empty (standingOf server.defaults)).restated ?_ ?_
      · rw [leftBy_of_some (if_pos hc)]
        simp
      · rw [leftBy_of_some (if_pos hc)]
        simp
    · rw [standingAfter, standingAfter, if_neg hc, if_neg hc]
      exact h.congr (leftBy_of_none (if_neg hc)) (leftBy_of_none (if_neg hc))
  | updateChannel c' data =>
    by_cases hc : resolve remap c' = c
    · rw [standingAfter, standingAfter, if_pos hc, if_pos hc]
      refine BothAlike.map h fun s t hst => hst.restated ?_ ?_
      · by_cases hmem : "streams" ∈ data
        · rw [leftBy_of_some (if_pos ⟨hc, hmem⟩)]
          simp [hmem]
        · rw [leftBy_of_none (if_neg fun hboth => hmem hboth.2)]
          simp [hmem]
      · by_cases hmem : "channel_number" ∈ data
        · rw [leftBy_of_some (if_pos ⟨hc, hmem⟩)]
          simp [hmem]
        · rw [leftBy_of_none (if_neg fun hboth => hmem hboth.2)]
          simp [hmem]
    · rw [standingAfter, standingAfter, if_neg hc, if_neg hc]
      exact h.congr (leftBy_of_none (if_neg fun hboth => hc hboth.1))
        (leftBy_of_none (if_neg fun hboth => hc hboth.1))
  | deleteChannel c' =>
    rw [standingAfter, standingAfter]
    split
    · trivial
    · exact h.congr (leftBy_of_none rfl) (leftBy_of_none rfl)
  | assignChannelNumbers ids startingNumber =>
    exact BothAlike.map h fun s t hst => hst.assigned
  | _ => exact h.congr (leftBy_of_none rfl) (leftBy_of_none rfl)

end Step

/-! ## The whole journal -/

section Journal

variable {plan : PipelineWritePlan} {remap : Dict ℤ ℤ} (executionId : ℤ) {writes : List Write}

/-- Every write finds in the shadow what it needs. -/
def AllGrounded (plan : PipelineWritePlan) (remap : Dict ℤ ℤ) (executionId : ℤ)
    (writes : List Write) : Prop :=
  ∀ earlier w later, writes = earlier ++ w :: later →
    Grounded remap (journalOf plan remap executionId earlier) w

theorem nextTemp_journalOf (plan : PipelineWritePlan) (remap : Dict ℤ ℤ) (executionId : ℤ)
    (writes : List Write) :
    (journalOf plan remap executionId writes).nextTemp = nextTempAfter writes := by
  induction writes using List.reverseRecOn with
  | nil => rfl
  | append_singleton writes w ih =>
    have hassigns : ∀ (startingNumber : Json) (es : List (ℤ × ℕ)) (journal : Journal),
        (es.foldl (Journal.assign remap executionId startingNumber) journal).nextTemp =
          journal.nextTemp := by
      intro startingNumber es
      induction es with
      | nil => exact fun _ => rfl
      | cons e es ihes => exact fun journal => ihes _
    have hstep : ((journalOf plan remap executionId writes).write remap executionId plan
        w).nextTemp = (journalOf plan remap executionId writes).nextTemp -
          if w.isCreate then 1 else 0 := by
      cases w with
      | assignChannelNumbers ids startingNumber =>
        exact (hassigns startingNumber ids.zipIdx _).trans (sub_zero _).symm
      | createChannel | createChannelGroup | createLogo => rfl
      | _ => exact (sub_zero _).symm
    rw [journalOf_concat, hstep, ih, nextTempAfter, nextTempAfter, creations_concat]
    split <;> push_cast <;> omega

/-- The rows of each channel tell what its shadow is in the end. -/
theorem told_journalOf (hground : AllGrounded plan remap executionId writes) (c : ℤ) :
    (channelRows c (journalOf plan remap executionId writes).rows).foldl applyRow
        (preconditionOf plan c) = (journalOf plan remap executionId writes).standing c := by
  induction writes using List.reverseRecOn with
  | nil => rfl
  | append_singleton writes w ih =>
    obtain ⟨hearlier, hlast⟩ := forall_split_concat.mp hground
    obtain ⟨new, hext, -⟩ := write_extends executionId plan w hlast
    rw [journalOf_concat, hext.rows, channelRows_append, List.foldl_append, ih hearlier, hext.told]

/-- The rows chain exactly when every update is of one row. -/
theorem chained_journalOf (hground : AllGrounded plan remap executionId writes) :
    (∀ c, RowsChain (preconditionOf plan c)
        (channelRows c (journalOf plan remap executionId writes).rows)) ↔
      ∀ earlier w later, writes = earlier ++ w :: later →
        ChainsAt remap (journalOf plan remap executionId earlier) w := by
  induction writes using List.reverseRecOn with
  | nil => simp [journalOf, channelRows, RowsChain]
  | append_singleton writes w ih =>
    obtain ⟨hearlier, hlast⟩ := forall_split_concat.mp hground
    obtain ⟨new, hext, hchain⟩ := write_extends executionId plan w hlast
    rw [forall_split_concat, ← ih hearlier, ← hchain, journalOf_concat, hext.rows]
    simp only [channelRows_append, RowsChain, chained_append, told_journalOf executionId hearlier]
    exact forall_and

theorem statedStreams_concat (plan : PipelineWritePlan) (remap : Dict ℤ ℤ) (writes : List Write)
    (w : Write) (c : ℤ) :
    statedStreams plan remap (writes ++ [w]) c =
      (statesStreams remap c (nextTempAfter writes, w)).getD
        (statedStreams plan remap writes c) := by
  have hstated : ∀ writes, statedStreams plan remap writes c =
      ((lastWrite (statesStreams remap c) (withTempIds (-1) writes)).map Prod.snd).getD
        (((preconditionOf plan c).map (·.streams)).getD ∅) := by
    intro writes
    rw [statedStreams]
    split
    case h_1 h => rw [h]; rfl
    case h_2 h => rw [h]; rfl
  rw [hstated, hstated, lastWrite_withTempIds]
  cases statesStreams remap c (nextTempAfter writes, w) <;> rfl

/-- The shadow has the streams that the plan states. -/
theorem streams_journalOf (hground : AllGrounded plan remap executionId writes) {c : ℤ}
    {s : Standing} (h : (journalOf plan remap executionId writes).standing c = some s) :
    s.streams = statedStreams plan remap writes c := by
  induction writes using List.reverseRecOn generalizing s with
  | nil =>
    have hpre : preconditionOf plan c = some s := h
    rw [statedStreams, withTempIds, lastWrite_nil, hpre]
    rfl
  | append_singleton writes w ih =>
    obtain ⟨hearlier, hlast⟩ := forall_split_concat.mp hground
    rw [journalOf_concat, standing_write executionId w hlast, nextTemp_journalOf] at h
    have ih := fun s => ih (s := s) hearlier
    rw [statedStreams_concat]
    cases w with
    | createChannel data =>
      rw [standingAfter] at h
      rw [statesStreams]
      split at h
      case isTrue hc =>
        rw [if_pos hc, ← Option.some.inj h, Option.getD_some, restated_empty]
        rfl
      case isFalse hc => rw [if_neg hc]; exact ih s h
    | updateChannel c' data =>
      rw [standingAfter] at h
      rw [statesStreams]
      split at h
      case isTrue hc =>
        obtain ⟨before, hbefore, rfl⟩ := Option.map_eq_some_iff.mp h
        by_cases hmem : "streams" ∈ data
        · rw [if_pos ⟨hc, hmem⟩]
          exact if_pos hmem
        · rw [if_neg fun hboth => hmem hboth.2]
          exact (if_neg hmem).trans (ih before hbefore)
      case isFalse hc => rw [if_neg fun hboth => hc hboth.1]; exact ih s h
    | deleteChannel c' =>
      rw [standingAfter] at h
      split at h
      · simp at h
      · exact ih s h
    | assignChannelNumbers ids startingNumber =>
      obtain ⟨before, hbefore, rfl⟩ := Option.map_eq_some_iff.mp h
      exact ih before hbefore
    | _ => exact ih s h

end Journal

/-! ## The replay -/

section Validation

theorem streamSet_canonical (v : Json) : streamSet v.canonical = streamSet v := by
  have hitems : ∀ items : List Json,
      (Json.canonicalItems items).filterMap Json.int? = items.filterMap Json.int? := by
    intro items
    induction items with
    | nil => rfl
    | cons v items ih =>
      have hv : Json.int? v.canonical = Json.int? v := by
        cases v <;> rfl
      rw [Json.canonicalItems, List.filterMap_cons, List.filterMap_cons, hv, ih]
  cases v with
  | list items => rw [Json.canonical, streamSet, streamSet, hitems]
  | _ => rfl

/-- A store that passes validation has the channels that planning read, as they were read. -/
theorem standing_of_valid {d : Digest} (hdigest : Function.Injective d.digest) {live live₀ : Live}
    {plan : PipelineWritePlan} (hvalid : validateReadSet d live plan = .ok ()) {c : ℤ}
    {before : Record} (hsnap : SnapshotOf live₀ c before)
    (hget : plan.channelPreconditions.get? c = some before) :
    ∃ channel, live.channels.get? c = some channel ∧ standingOf channel = standingOf before := by
  have hchannels : checkAll (checkChannel d live) plan.channelPreconditions.items = .ok () := by
    rw [validateReadSet] at hvalid
    cases hall : checkAll (checkChannel d live) plan.channelPreconditions.items with
    | error e =>
      rw [hall] at hvalid
      cases hvalid
    | ok u => rfl
  have hone := (checkAll_ok _ _).mp hchannels (c, before) ((Dict.get?_eq_some _ _ _).mp hget)
  obtain ⟨channel₀, streams, -, -, rfl⟩ := hsnap
  cases hlive : live.channels.get? c with
  | none => simp [checkChannel, Live.getChannel, hlive] at hone
  | some channel =>
    refine ⟨channel, rfl, ?_⟩
    have hsame : canonicalHash d (actualOf c (Planner.relevant c channel₀ streams) channel) =
        canonicalHash d (Planner.relevant c channel₀ streams) := by
      simpa [checkChannel, Live.getChannel, hlive] using hone
    rw [canonicalHash, canonicalHash, hdigest.eq_iff, items_actualOf_relevant,
      items_relevant] at hsame
    have hfields : (channel.read "channel_number").canonical =
          (channel₀.read "channel_number").canonical ∧
        (channel.read "streams").canonical = (Json.list streams).canonical := by
      simp [Json.canonical, Json.canonicalFields, List.orderedInsert] at hsame
      simp [hsame, Json.canonical]
    have hstreams : (Planner.relevant c channel₀ streams).read "streams" = .list streams := rfl
    have hnumber : (Planner.relevant c channel₀ streams).read "channel_number" =
        channel₀.read "channel_number" := rfl
    rw [Standing.ext_iff, standingOf, standingOf, hstreams, hnumber]
    refine ⟨?_, hfields.1⟩
    show streamSet (channel.read "streams") = streamSet (.list streams)
    rw [← streamSet_canonical, hfields.2, streamSet_canonical]

end Validation

/-- The replay of a plan went through on a store that passes validation, with the remap and the
store as it left them. -/
structure Succeeds (d : Digest) (server : Server) (fails : ℕ → Bool) (live : Live)
    (plan : PipelineWritePlan) (remap : Dict ℤ ℤ) (final : Live) : Prop where
  valid : validateReadSet d live plan = .ok ()
  run : ∃ readSetValidated results exec, exec.live = final ∧
    replayWritePlan d server fails plan readSetValidated ⟨live, []⟩ =
      (.ok (.done results remap), exec)

section Replay

variable {d : Digest} {server : Server} {fails : ℕ → Bool} {live live₀ : Live}
  {plan : PipelineWritePlan} {remap : Dict ℤ ℤ} {final : Live}

/-- A replay that went through went through its loop. -/
theorem Succeeds.loop (h : Succeeds d server fails live plan remap final) :
    ∃ R, each (Replay.replayOne server fails) plan.writes (Replay.start live) = (.ok (), R) ∧
      R.remap = remap ∧ R.exec.live = final := by
  obtain ⟨flag, results, exec, hfinal, hrun⟩ := h.run
  have hvalid : (if flag then .ok () else validateReadSet d live plan : Except String Unit) =
      .ok () := by
    cases flag
    · exact h.valid
    · rfl
  unfold replayWritePlan at hrun
  simp only [hvalid] at hrun
  have hstart : (⟨⟨live, []⟩, ∅, -1, [], []⟩ : Replay) = Replay.start live := rfl
  rw [hstart] at hrun
  cases hloop : each (Replay.replayOne server fails) plan.writes (Replay.start live) with
  | mk outcome R =>
    rw [hloop] at hrun
    cases outcome with
    | ok u =>
      simp only [Prod.mk.injEq, Except.ok.injEq, ReplayEnd.done.injEq] at hrun
      exact ⟨R, rfl, hrun.1.2, hrun.2 ▸ hfinal⟩
    | error e =>
      dsimp only at hrun
      cases hundo : Replay.compensate server fails plan R.completed.reverse R.exec with
      | mk errors exec' =>
        rw [hundo] at hrun
        cases errors <;> simp [Except.map] at hrun

/-- How the ids of a plan are looked up in the remap of its replay. -/
structure Resolves (server : Server) (live : Live) (plan : PipelineWritePlan)
    (remap : Dict ℤ ℤ) : Prop where
  kept : ∀ n, 0 ≤ n → resolve remap n = n
  handed : ∀ n < 0, -n ≤ (creations plan.writes : ℤ) →
    resolve remap n = realIdOf server live n ∧ ∃ tempId, remap.get? tempId = some (resolve remap n)
  created : ∀ tempId c, remap.get? tempId = some c → ∃ k, live.created ≤ k ∧ c = server.alloc k

theorem resolves_of_items
    (hremap : remap.items = remapItems server live (creations plan.writes)) :
    Resolves server live plan remap where
  kept n hn := by
    have hnone : remap.get? n = none := by
      rw [Dict.get?_eq_none]
      intro hmem
      obtain ⟨m, hm⟩ := Dict.exists_get? hmem
      rw [Dict.get?_eq_some, hremap, mem_remapItems] at hm
      obtain ⟨k, -, rfl, -⟩ := hm
      omega
    rw [resolve, hnone]
    rfl
  handed n hneg hle := by
    have hget : remap.get? n = some (server.alloc (live.created + (n.natAbs - 1))) := by
      rw [Dict.get?_eq_some, hremap, mem_remapItems]
      exact ⟨n.natAbs - 1, by omega, by omega, rfl⟩
    have hresolve : resolve remap n = server.alloc (live.created + (n.natAbs - 1)) := by
      rw [resolve, hget]
      rfl
    exact ⟨by rw [hresolve, realIdOf, if_pos hneg], n, by rw [hget, hresolve]⟩
  created tempId c hget := by
    rw [Dict.get?_eq_some, hremap, mem_remapItems] at hget
    obtain ⟨k, -, -, rfl⟩ := hget
    exact ⟨live.created + k, by omega, rfl⟩

/-- An id that was handed out or is a real one is looked up as the replay maps it. -/
theorem Resolves.eq (h : Resolves server live plan remap) {n : ℤ}
    (hn : n < 0 → -n ≤ (creations plan.writes : ℤ)) :
    resolve remap n = realIdOf server live n := by
  by_cases hneg : n < 0
  · exact (h.handed n hneg (hn hneg)).1
  · rw [h.kept n (by omega), realIdOf_of_nonneg server live (by omega)]

theorem Resolves.nonneg (h : Resolves server live plan remap) {n : ℤ}
    (hn : n < 0 → -n ≤ (creations plan.writes : ℤ)) : 0 ≤ resolve remap n := by
  rw [h.eq hn, realIdOf]
  split
  · exact (server.alloc_pos _).le
  · omega

/-- Every channel that is not a temporary one has a precondition. -/
def Covers (plan : PipelineWritePlan) : Prop :=
  ∀ w ∈ plan.writes, ∀ c ∈ w.channelIds, 0 ≤ c → c ∈ plan.channelPreconditions

variable {earlier later : List Write} {w : Write} {R R' : Replay}

theorem creations_le (hwrites : plan.writes = earlier ++ w :: later) :
    creations earlier + (if w.isCreate then 1 else 0) ≤ creations plan.writes := by
  have hconcat : plan.writes = (earlier ++ [w]) ++ later := by simp [hwrites]
  have hsplit : creations ((earlier ++ [w]) ++ later) =
      creations (earlier ++ [w]) + creations later := List.countP_append
  rw [← creations_concat, hconcat, hsplit]
  omega

/-- A round maps ids that were handed out before it. -/
theorem handedOut_of_round (hdone : Replayed server live earlier R)
    (hok : Replay.replayOne server fails w R = (.ok (), R'))
    (hwrites : plan.writes = earlier ++ w :: later) :
    ∀ n ∈ w.ints, n < 0 → -n ≤ (creations plan.writes : ℤ) := by
  obtain ⟨args, result, live', hmap, -⟩ := (replayOne_ok fails R R' w).mp hok
  obtain rfl := hdone.mapInts_eq hmap
  intro n hn hneg
  have hle := (hdone.mapInts w).mpr hmap n hn hneg
  have hmore := creations_le hwrites
  omega

theorem channelIds_subset_ints {c : ℤ} (h : c ∈ w.channelIds) : c ∈ w.ints := by
  cases w <;> simp_all [Write.channelIds, Write.ints]

/-- The create of a round takes the id that Dispatcharr allocates next. -/
theorem resolve_nextTemp (hresolves : Resolves server live plan remap)
    (hwrites : plan.writes = earlier ++ w :: later) (hcreate : w.isCreate) :
    resolve remap (nextTempAfter earlier) = server.alloc (live.created + creations earlier) ∧
      ∃ tempId, remap.get? tempId = some (resolve remap (nextTempAfter earlier)) := by
  have hmore := creations_le hwrites
  rw [if_pos hcreate] at hmore
  have hneg : nextTempAfter earlier < 0 := by
    unfold nextTempAfter
    omega
  obtain ⟨heq, hconcerned⟩ := hresolves.handed _ hneg (by unfold nextTempAfter; omega)
  refine ⟨?_, hconcerned⟩
  have habs : (nextTempAfter earlier).natAbs - 1 = creations earlier := by
    unfold nextTempAfter
    omega
  rw [heq, realIdOf, if_pos hneg, habs]

/-- A channel that a round addresses was read by planning or created before. -/
theorem concerned_of_addressed (hresolves : Resolves server live plan remap)
    (hcovers : Covers plan) (hdone : Replayed server live earlier R)
    (hok : Replay.replayOne server fails w R = (.ok (), R'))
    (hwrites : plan.writes = earlier ++ w :: later) {c : ℤ} (hc : c ∈ w.channelIds) :
    Concerned plan remap (resolve remap c) := by
  have hle := handedOut_of_round hdone hok hwrites c (channelIds_subset_ints hc)
  by_cases hneg : c < 0
  · exact .inr (hresolves.handed c hneg (hle hneg)).2
  · rw [hresolves.kept c (by omega)]
    exact .inl (hcovers w (by simp [hwrites]) c hc (by omega))

/-- The rows of a round are filed under real ids. -/
theorem filed_of_round (hresolves : Resolves server live plan remap)
    (hdone : Replayed server live earlier R)
    (hok : Replay.replayOne server fails w R = (.ok (), R'))
    (hwrites : plan.writes = earlier ++ w :: later) (executionId : ℤ) :
    Filed remap (journalOf plan remap executionId earlier) w where
  created hcreate := by
    rw [nextTemp_journalOf, (resolve_nextTemp hresolves hwrites hcreate).1]
    exact (server.alloc_pos _).le
  addressed c hc :=
    hresolves.nonneg (handedOut_of_round hdone hok hwrites c (channelIds_subset_ints hc))
  group g hg :=
    hresolves.nonneg (handedOut_of_round hdone hok hwrites g (by simp [hg, Write.ints]))

/-- After each write of a replay the shadow has what the store has, of the channels that concern the
journal. -/
def Follows (plan : PipelineWritePlan) (remap : Dict ℤ ℤ) (executionId : ℤ)
    (writes : List Write) (live : Live) : Prop :=
  ∀ c, Concerned plan remap c → AlikeAfter remap writes c
    ((journalOf plan remap executionId writes).standing c)
    ((live.channels.get? c).map standingOf)

theorem BothAlike.isSome_iff {P Q : Prop} {s t : Option Standing} (h : BothAlike P Q s t) :
    s.isSome ↔ t.isSome := by
  cases s <;> cases t <;> simp_all [BothAlike]

/-- A channel of the store that concerns the journal is in its shadow, and no other. -/
theorem Follows.mem_shadow {executionId : ℤ} {writes : List Write} {store : Live}
    (h : Follows plan remap executionId writes store) {c : ℤ} (hc : Concerned plan remap c) :
    c ∈ (journalOf plan remap executionId writes).shadow ↔ c ∈ store.channels := by
  have hsome := (h c hc).isSome_iff
  rwa [Journal.standing, Option.isSome_map, Option.isSome_map, Dict.isSome_get?,
    Dict.isSome_get?] at hsome

/-- A round finds in the shadow what it needs. -/
theorem Follows.grounded {executionId : ℤ}
    (h : Follows plan remap executionId earlier R.exec.live)
    (hresolves : Resolves server live plan remap) (hcovers : Covers plan)
    (hdone : Replayed server live earlier R)
    (hok : Replay.replayOne server fails w R = (.ok (), R'))
    (hwrites : plan.writes = earlier ++ w :: later) :
    Grounded remap (journalOf plan remap executionId earlier) w := by
  obtain ⟨args, result, live', hmap, -, hperform, -⟩ := (replayOne_ok fails R R' w).mp hok
  obtain rfl := hdone.mapInts_eq hmap
  have haddressed : ∀ c ∈ w.channelIds,
      resolve remap c ∈ (journalOf plan remap executionId earlier).shadow := by
    intro c hc
    have hle := handedOut_of_round hdone hok hwrites c (channelIds_subset_ints hc)
    rw [h.mem_shadow (concerned_of_addressed hresolves hcovers hdone hok hwrites hc),
      hresolves.eq hle]
    apply (performed hperform).addressed
    rw [Write.channelIds_rename]
    exact List.mem_map_of_mem hc
  cases w with
  | createChannel data =>
    obtain ⟨halloc, hconcerned⟩ := resolve_nextTemp hresolves hwrites rfl
    show resolve remap _ ∉ _
    rw [nextTemp_journalOf, h.mem_shadow (.inr hconcerned), halloc, ← hdone.created]
    exact (hdone.free _ le_rfl).1
  | _ => exact haddressed

/-- One more round of writes that carry real ids. -/
theorem Follows.step {executionId : ℤ}
    (h : Follows plan remap executionId earlier R.exec.live)
    (hresolves : Resolves server live plan remap) (hcovers : Covers plan)
    (hreal : w.CarriesReal) (hdone : Replayed server live earlier R)
    (hok : Replay.replayOne server fails w R = (.ok (), R'))
    (hwrites : plan.writes = earlier ++ w :: later) :
    Follows plan remap executionId (earlier ++ [w]) R'.exec.live := by
  have hground := h.grounded hresolves hcovers hdone hok hwrites
  have hle := handedOut_of_round hdone hok hwrites
  obtain ⟨args, result, live', hmap, -, hperform, rfl⟩ := (replayOne_ok fails R R' w).mp hok
  obtain rfl := hdone.mapInts_eq hmap
  intro c hc
  have hstore : (live'.channels.get? c).map standingOf = standingAfter remap (nextTempAfter earlier)
      server.defaults (liveNumbers server R.exec.live remap w) c
      ((R.exec.live.channels.get? c).map standingOf) w :=
    standing_perform hperform hreal (fun n hn => realIdOf_of_nonneg server live hn)
      (fun c hc => (hresolves.eq (hle c (channelIds_subset_ints hc))).symm)
      (fun hcreate => by rw [hdone.created]; exact (resolve_nextTemp hresolves hwrites hcreate).1) c
  have hshadow : ((journalOf plan remap executionId earlier).write remap executionId plan
      w).standing c = _ := standing_write executionId w hground c
  rw [nextTemp_journalOf, ← journalOf_concat] at hshadow
  show AlikeAfter remap (earlier ++ [w]) c _ ((live'.channels.get? c).map standingOf)
  rw [hstore, hshadow]
  exact (h c hc).step

/-- Before the first write the shadow has what planning read, and the store has it too. -/
theorem follows_start (hdigest : Function.Injective d.digest) (hosts : Hosts server live)
    (hrecorded : Recorded live₀ plan) (hvalid : validateReadSet d live plan = .ok ())
    (hresolves : Resolves server live plan remap) (executionId : ℤ) :
    Follows plan remap executionId [] live := by
  intro c hc
  show BothAlike _ _ (preconditionOf plan c) _
  have hnone : ∀ leaves, ¬LeftBy leaves [] := fun _ h => by cases h
  cases hget : plan.channelPreconditions.get? c with
  | some before =>
    obtain ⟨channel, hlive, hsame⟩ :=
      standing_of_valid hdigest hvalid (hrecorded.channels c before hget) hget
    rw [preconditionOf, hget, hlive]
    exact ⟨fun _ => congrArg _ hsame.symm, fun h => absurd h (hnone _),
      fun _ => congrArg _ hsame.symm, fun h => absurd h (hnone _)⟩
  | none =>
    obtain ⟨tempId, hremap⟩ := hc.resolve_left ((Dict.get?_eq_none _ _).mp hget)
    obtain ⟨k, hk, rfl⟩ := hresolves.created tempId c hremap
    rw [preconditionOf, hget, (Dict.get?_eq_none _ _).mpr (hosts.free k hk).1]
    trivial

/-- All along a replay the shadow has what the store has. -/
theorem follows_replay (hdigest : Function.Injective d.digest) (hosts : Hosts server live)
    (hrecorded : Recorded live₀ plan) (hvalid : validateReadSet d live plan = .ok ())
    (hresolves : Resolves server live plan remap) (hcovers : Covers plan)
    (hreal : ∀ w ∈ plan.writes, w.CarriesReal) (executionId : ℤ)
    (hwrites : plan.writes = earlier ++ later)
    (hloop : each (Replay.replayOne server fails) earlier (Replay.start live) = (.ok (), R)) :
    AllGrounded plan remap executionId earlier ∧
      Follows plan remap executionId earlier R.exec.live := by
  induction earlier using List.reverseRecOn generalizing later R with
  | nil =>
    obtain rfl : Replay.start live = R := congrArg Prod.snd hloop
    refine ⟨fun earlier w later heq => by simp at heq, ?_⟩
    exact follows_start hdigest hosts hrecorded hvalid hresolves executionId
  | append_singleton earlier w ih =>
    have hsplit : plan.writes = earlier ++ w :: later := by simpa using hwrites
    obtain ⟨R₀, hbefore, hlast⟩ := (each_concat_ok _ _ _ _ _).mp hloop
    obtain ⟨hground, hfollows⟩ := ih hsplit hbefore
    have hdone := replayed_of_each hosts hbefore
    exact ⟨forall_split_concat.mpr
        ⟨hground, hfollows.grounded hresolves hcovers hdone hlast hsplit⟩,
      hfollows.step hresolves hcovers (hreal w (by simp [hsplit])) hdone hlast hsplit⟩

theorem canonical_eq_null {v : Json} : v.canonical = .null ↔ v = .null := by
  cases v <;> simp [Json.canonical]

/-- What is left to Dispatcharr is all that the shadow and the store can differ in. -/
theorem BothAlike.eq_iff {P Q : Prop} {s : Option Standing} {channel? : Option Record}
    (h : BothAlike P Q s (channel?.map standingOf)) :
    s = channel?.map standingOf ↔ ∀ channel, channel? = some channel →
      (P → streamSet (channel.read "streams") = ∅) ∧
        (Q → channel.read "channel_number" = .null) := by
  cases channel? with
  | none =>
    cases s with
    | none => simp
    | some s => exact absurd h (by simp [BothAlike])
  | some channel =>
    cases s with
    | none => exact absurd h (by simp [BothAlike])
    | some s =>
      have halike : Alike P Q s (standingOf channel) := h
      rw [Option.map_some, Option.some.injEq]
      constructor
      · rintro rfl channel' heq
        obtain rfl := Option.some.inj heq
        exact ⟨halike.streamless, fun hq => canonical_eq_null.mp (halike.unnumbered hq)⟩
      · intro hleft
        obtain ⟨hstreams, hnumber⟩ := hleft channel rfl
        rw [Standing.ext_iff]
        constructor
        · by_cases hp : P
          · exact (halike.streamless hp).trans (hstreams hp).symm
          · exact halike.streams hp
        · by_cases hq : Q
          · exact (halike.unnumbered hq).trans (canonical_eq_null.mpr (hnumber hq)).symm
          · exact halike.number hq

/-- Of a replay whose writes carry real ids, the rows chain when every update is of one row. -/
theorem chained_iff_oneRow {executionId : ℤ} {writes : List Write}
    (hground : AllGrounded plan remap executionId writes) :
    (∀ c, RowsChain (preconditionOf plan c)
        (channelRows c (journalOf plan remap executionId writes).rows)) ↔
      ∀ earlier c data later, writes = earlier ++ .updateChannel c data :: later →
        OneRow (statedStreams plan remap earlier (resolve remap c)) data := by
  have hstated : ∀ earlier c data later, writes = earlier ++ .updateChannel c data :: later →
      (journalOf plan remap executionId earlier).streamsOf (resolve remap c) =
        statedStreams plan remap earlier (resolve remap c) := by
    intro earlier c data later heq
    have hmem := hground earlier _ later heq c (by simp [Write.channelIds])
    obtain ⟨channel, -, hstanding⟩ := standing_of_mem hmem
    have hbefore : AllGrounded plan remap executionId earlier := fun earlier' w later' heq' =>
      hground earlier' w (later' ++ .updateChannel c data :: later) (by simp [heq, heq'])
    rw [Journal.streamsOf, hstanding, ← streams_journalOf executionId hbefore hstanding]
    rfl
  rw [chained_journalOf executionId hground]
  constructor
  · intro h earlier c data later heq
    rw [← hstated earlier c data later heq]
    exact h earlier _ later heq
  · intro h earlier w later heq
    cases w with
    | updateChannel c data =>
      show OneRow _ data
      rw [hstated earlier c data later heq]
      exact h earlier c data later heq
    | _ => trivial

end Replay

/-- The journal of a successful replay names real ids, chains and tells what the replay left exactly
when no write carries a temporary id but as what it addresses, no update adds two streams or
changes streams together with another field, and Dispatcharr leaves empty what is left to it. -/
theorem journal_holds_iff {d : Digest} (hdigest : Function.Injective d.digest) {server : Server}
    {fails : ℕ → Bool} {live₀ live final : Live} {remap : Dict ℤ ℤ} {calls : List Planner.Call}
    (hosts₀ : Hosts server live₀) (hosts : Hosts server live)
    (hread : ∀ c before, (planned live₀ calls).plan.channelPreconditions.get? c = some before →
      before.Real)
    (hlisted : ∀ w ∈ (planned live₀ calls).plan.writes, w.StreamsListed)
    (hreplay : Succeeds d server fails live (planned live₀ calls).plan remap final)
    (executionId : ℤ) :
    JournalHolds (planned live₀ calls).plan remap
        (journalEntriesForPlan (planned live₀ calls).plan remap executionId) final ↔
      Journalable (planned live₀ calls).plan remap final := by
  have htracks := tracks_planned hosts₀ calls
  set plan := (planned live₀ calls).plan
  obtain ⟨R, hloop, hremap, hfinal⟩ := hreplay.loop
  have hdone := replayed_of_each hosts hloop
  have hresolves : Resolves server live plan remap := resolves_of_items (hremap ▸ hdone.remap)
  have hcovers : Covers plan := fun w hw c hc hnonneg => (htracks.addressed w hw c hc hnonneg).2
  have hrows := (real_journalOf executionId hread (fun earlier w later hwrites => by
    obtain ⟨R₀, R₁, hbefore, hround⟩ := exists_round hloop hwrites
    exact filed_of_round hresolves (replayed_of_each hosts hbefore) hround hwrites executionId)
    hlisted).1
  have hrest : (∀ w ∈ plan.writes, w.CarriesReal) →
      ((∀ c, RowsChain (preconditionOf plan c)
            (channelRows c (journalEntriesForPlan plan remap executionId))) ↔
          ∀ earlier c data later, plan.writes = earlier ++ .updateChannel c data :: later →
            OneRow (statedStreams plan remap earlier (resolve remap c)) data) ∧
        ∀ c, Concerned plan remap c →
          ((channelRows c (journalEntriesForPlan plan remap executionId)).foldl applyRow
              (preconditionOf plan c) = (final.channels.get? c).map standingOf ↔
            ∀ channel, final.channels.get? c = some channel →
              (LeftBy (leavesStreams remap c) plan.writes →
                  streamSet (channel.read "streams") = ∅) ∧
                (LeftBy (leavesNumber remap c) plan.writes →
                  channel.read "channel_number" = .null)) := by
    intro hreal
    obtain ⟨hground, hfollows⟩ := follows_replay hdigest hosts htracks.recorded hreplay.valid
      hresolves hcovers hreal executionId (List.append_nil _).symm hloop
    refine ⟨chained_iff_oneRow hground, fun c hc => ?_⟩
    have hboth := hfollows c hc
    rw [hfinal] at hboth
    rw [journalEntriesForPlan, told_journalOf executionId hground]
    exact hboth.eq_iff
  constructor
  · intro h
    have hreal := hrows.mp h.real
    obtain ⟨hchain, hlast⟩ := hrest hreal
    exact ⟨hreal, hchain.mp h.chained, fun c hc => (hlast c hc).mp (h.last c hc)⟩
  · intro h
    obtain ⟨hchain, hlast⟩ := hrest h.real
    exact ⟨hrows.mpr h.real, hchain.mpr h.oneRow, fun c hc => (hlast c hc).mpr (h.left c hc)⟩

/-- Planning adds a stream to the live channel. -/
def addStream : List Planner.Call :=
  [.write (.updateChannel 1 (Dict.ofList [("streams", .list [.int 7, .int 8])]))]

theorem journal_holds_addStream :
    ∃ final, Succeeds plainDigest plainServer neverFails oneChannel (planned oneChannel addStream).plan
        ∅ final ∧
      JournalHolds (planned oneChannel addStream).plan ∅
        (journalEntriesForPlan (planned oneChannel addStream).plan ∅ 1) final := by
  have hreplay : Succeeds plainDigest plainServer neverFails oneChannel
      (planned oneChannel addStream).plan ∅ _ := ⟨by rfl, false, _, _, rfl, by rfl⟩
  have hwrites : (planned oneChannel addStream).plan.writes =
      [.updateChannel 1 (Dict.ofList [("streams", .list [.int 7, .int 8])])] := rfl
  have hread : ∀ c before,
      (planned oneChannel addStream).plan.channelPreconditions.get? c = some before →
        before.Real := by
    intro c before hget
    rw [Dict.get?_eq_some] at hget
    obtain ⟨-, rfl⟩ := Prod.mk.inj (List.mem_singleton.mp hget)
    show ∀ n ∈ _, (0 : ℤ) ≤ n
    decide
  have hlisted : ∀ w ∈ (planned oneChannel addStream).plan.writes, w.StreamsListed := by
    rw [hwrites]
    intro w hw
    obtain rfl := List.mem_singleton.mp hw
    intro v hget
    exact ⟨[7, 8], (Option.some.inj hget).symm⟩
  have hleft : ∀ {leaves : ℤ × Write → Option Bool},
      (∀ e, (∃ data, e.2 = .updateChannel 1 data) → leaves e ≠ some true) →
        ¬LeftBy leaves (planned oneChannel addStream).plan.writes := by
    intro leaves hnever h
    rw [LeftBy, hwrites, ← List.nil_append [_], lastWrite_withTempIds] at h
    rcases Option.or_eq_some_iff.mp h with h | ⟨-, h⟩
    · exact hnever _ ⟨_, rfl⟩ h
    · simp [withTempIds] at h
  refine ⟨_, hreplay, (journal_holds_iff Function.injective_id
    hosts_oneChannel hosts_oneChannel hread hlisted hreplay 1).mpr ⟨?_, ?_, ?_⟩⟩
  · rw [hwrites]
    intro w hw
    obtain rfl := List.mem_singleton.mp hw
    show ∀ n ∈ _, (0 : ℤ) ≤ n
    decide
  · intro earlier c data later heq
    rw [hwrites] at heq
    rcases earlier with _ | ⟨w, earlier⟩
    · obtain ⟨hw, -⟩ := List.cons.inj heq
      obtain ⟨rfl, rfl⟩ := Write.updateChannel.inj hw
      intro _
      exact ⟨by decide, .inr (by decide)⟩
    · simp at heq
  · intro c _ channel _
    refine ⟨fun h => absurd h (hleft ?_), fun h => absurd h (hleft ?_)⟩
    · rintro ⟨nextTemp, w⟩ ⟨data, rfl⟩
      rw [leavesStreams]
      split <;> simp
    · rintro ⟨nextTemp, w⟩ ⟨data, rfl⟩
      rw [leavesNumber]
      split <;> simp

/-- Planning creates a group and a channel in it. -/
def createInGroup : List Planner.Call :=
  [.write (.createChannelGroup "News"),
    .write (.createChannel (Dict.ofList [("name", .str "One"), ("channel_group_id", .int (-1))]))]

/-- Planning adds two streams to the live channel. -/
def addStreams : List Planner.Call :=
  [.write (.updateChannel 1 (Dict.ofList [("streams", .list [.int 7, .int 8, .int 9])]))]

/-- The row of a channel in a new group names the group by its temporary id, and the second of two
streams added at once is said to join the streams that were there before the first. -/
theorem journal_fails :
    (∃ remap final, Succeeds plainDigest plainServer neverFails oneChannel
        (planned oneChannel createInGroup).plan remap final ∧
      ¬JournalHolds (planned oneChannel createInGroup).plan remap
        (journalEntriesForPlan (planned oneChannel createInGroup).plan remap 1) final) ∧
    ∃ final, Succeeds plainDigest plainServer neverFails oneChannel
        (planned oneChannel addStreams).plan ∅ final ∧
      ¬JournalHolds (planned oneChannel addStreams).plan ∅
        (journalEntriesForPlan (planned oneChannel addStreams).plan ∅ 1) final := by
  constructor
  · refine ⟨_, _, ⟨by rfl, false, _, _, rfl, by rfl⟩, fun h => ?_⟩
    have hrow := h.real _ (List.mem_cons_of_mem _ (List.mem_singleton_self _))
    have hgroup := hrow.2.2 (-1) (by decide)
    omega
  · refine ⟨_, ⟨by rfl, false, _, _, rfl, by rfl⟩, fun h => ?_⟩
    let before : Record := Planner.relevant 1 (Dict.ofList [("id", .int 1), ("name", .str "News"),
      ("streams", .list [.int 7]), ("channel_number", .int 5)]) [.int 7]
    let data : Record := Dict.ofList [("streams", .list [.int 7, .int 8, .int 9])]
    have hrows : journalEntriesForPlan (planned oneChannel addStreams).plan ∅ 1 =
        Journal.updateRows 1 1 before data := rfl
    have hchain := h.chained 1
    rw [hrows, channelRows_of_all (rows_updateRows 1 1 before data), if_pos rfl] at hchain
    have hone := ((updateRows_tell 1 1 before data).2.mp hchain (by decide)).1
    exact absurd hone (by decide)

end ChannelManager.Plans
