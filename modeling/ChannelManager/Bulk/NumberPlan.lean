import ChannelManager.Bulk.Consolidate
import ChannelManager.Lib.LastWrite
import ChannelManager.Numbering.Consent

/-!
# What the materialiser computes

`build_final_numbering_state` folds the operations over the lineup. For the operation lists the
request check accepts, and for consolidated ones, its result has a closed form: the channels of the
lineup and the created ones, less the deleted ones, each on the number written to it last.
-/

namespace ChannelManager

/-- The lineup as Dispatcharr holds it: ids are primary keys, never staging placeholders. -/
structure Lineup where
  channels : List Channel
  nodup_ids : (channels.map (·.id)).Nodup
  id_nonneg : ∀ ch ∈ channels, 0 ≤ ch.id

namespace Lineup

def ids (lineup : Lineup) : List ℤ := lineup.channels.map (·.id)

def number (lineup : Lineup) (c : ℤ) : Option ℚ :=
  (lineup.channels.find? (·.id = c)).bind (·.channelNumber)

theorem nonneg_of_mem_ids {lineup : Lineup} {c : ℤ} (h : c ∈ lineup.ids) : 0 ≤ c := by
  obtain ⟨ch, hch, rfl⟩ := List.mem_map.mp h
  exact lineup.id_nonneg ch hch

theorem number_eq_none {lineup : Lineup} {c : ℤ} (h : c ∉ lineup.ids) :
    lineup.number c = none := by
  have hnone : lineup.channels.find? (·.id = c) = none := by
    rw [List.find?_eq_none]
    intro ch hch
    simpa using fun heq => h (List.mem_map.mpr ⟨ch, hch, heq⟩)
  simp [number, hnone]

end Lineup

/-- What an operation that sets a channel's number leaves on it. -/
structure NumberWrite where
  number : Option ℚ
  acknowledgement : Option Acknowledgement
deriving DecidableEq

/-- The number a range ends up giving a channel: the last of its positions. -/
def numberAt (c : ℤ) (assignments : List (ℤ × ℚ)) : Option ℚ :=
  (lastWrite (fun e => if e.1 = c then some e.2 else none) assignments).map Prod.snd

/-- What `op` writes to the number of channel `c`. A create writes even when it carries none. -/
def numberWrite (c : ℤ) (op : BulkOperation) : Option NumberWrite :=
  match op with
  | .updateChannel u =>
    if u.channelId = c then u.data.channelNumber.map (⟨·, acknowledgementOf op⟩) else none
  | .createChannel k =>
    if k.tempId = c then some ⟨k.channelNumber, acknowledgementOf op⟩ else none
  | .bulkAssignChannelNumbers r => (numberAt c r.assignments).map (⟨some ·, none⟩)
  | _ => none

theorem numberAt_concat (c : ℤ) (es : List (ℤ × ℚ)) (e : ℤ × ℚ) :
    numberAt c (es ++ [e]) = if e.1 = c then some e.2 else numberAt c es := by
  rw [numberAt, lastWrite_concat]
  split <;> simp_all [numberAt]

theorem numberAt_isSome (c : ℤ) (es : List (ℤ × ℚ)) :
    (numberAt c es).isSome ↔ c ∈ es.map Prod.fst := by
  induction es using List.reverseRecOn with
  | nil => simp [numberAt]
  | append_singleton es e ih =>
    rw [numberAt_concat]
    by_cases he : e.1 = c
    · simp [he]
    · simp only [he, if_false, ih, List.map_append, List.map_cons, List.map_nil, List.mem_append,
        List.mem_singleton, Ne.symm he, or_false]

def Outcome.write (o : Outcome) (index : ℕ) (w : NumberWrite) : Outcome :=
  { o with number := w.number, arrival := some index, acknowledgement := w.acknowledgement }

/-- The evolution of one channel, which no other channel takes part in. -/
def outcomeStep (c : ℤ) (index : ℕ) (op : BulkOperation) (o : Option Outcome) : Option Outcome :=
  match op with
  | .deleteChannel d => if d = c then none else o
  | .createChannel k =>
    if k.tempId = c then
      some { channelId := c, baseNumber := none, isNew := true, number := k.channelNumber,
             arrival := some index, acknowledgement := acknowledgementOf op }
    else o
  | _ => o.map fun o => (numberWrite c op).elim o (o.write index)

theorem outcome_setNumber (p : Placement) (value : Option ℚ) (index : ℕ) (op : BulkOperation) :
    (p.setNumber value index op).outcome = p.outcome.write index ⟨value, acknowledgementOf op⟩ := by
  simp [Placement.setNumber, Placement.outcome, Outcome.write]

theorem get?_assignPosition (index : ℕ) (op : BulkOperation) (byId : Dict ℤ Placement)
    (e : ℤ × ℚ) (c : ℤ) :
    (assignPosition index op byId e).get? c =
      (byId.get? c).map fun p => if e.1 = c then p.setNumber (some e.2) index op else p := by
  unfold assignPosition
  cases hget : byId.get? e.1 with
  | none =>
    by_cases he : e.1 = c
    · simp [← he, hget]
    · simp [he]
  | some p =>
    by_cases he : e.1 = c
    · simp [← he, hget]
    · simp [he, Dict.get?_set_ne]

theorem outcome_assignPositions (c : ℤ) (index : ℕ) (op : BulkOperation)
    (hop : acknowledgementOf op = none) (es : List (ℤ × ℚ)) (byId : Dict ℤ Placement) :
    ((es.foldl (assignPosition index op) byId).get? c).map Placement.outcome =
      ((byId.get? c).map Placement.outcome).map fun o =>
        ((numberAt c es).map fun n => (⟨some n, none⟩ : NumberWrite)).elim o (o.write index) := by
  induction es using List.reverseRecOn with
  | nil => simp [numberAt]; rfl
  | append_singleton es e ih =>
    rw [List.foldl_append, List.foldl_cons, List.foldl_nil, numberAt_concat, get?_assignPosition]
    by_cases he : e.1 = c
    · have hset : ∀ p : Placement, (p.setNumber (some e.2) index op).outcome =
          p.outcome.write index ⟨some e.2, none⟩ := fun p => by rw [outcome_setNumber, hop]
      calc (((es.foldl (assignPosition index op) byId).get? c).map fun p =>
              if e.1 = c then p.setNumber (some e.2) index op else p).map Placement.outcome
          = (((es.foldl (assignPosition index op) byId).get? c).map Placement.outcome).map
              fun o => o.write index ⟨some e.2, none⟩ := by
            simp only [he, if_true, Option.map_map]
            congr 1
            exact funext hset
        _ = _ := by
            rw [ih, Option.map_map]
            congr 1
            funext o
            cases numberAt c es <;> simp [he, Outcome.write]
    · simp only [he, if_false, Option.map_id']
      exact ih

/-- Each operation moves each channel on its own. -/
theorem outcome_applyNumbering (st : NumberingState) (index : ℕ) (op : BulkOperation) (c : ℤ) :
    ((applyNumbering st index op).byId.get? c).map Placement.outcome =
      outcomeStep c index op ((st.byId.get? c).map Placement.outcome) := by
  cases op with
  | updateChannel u =>
    simp only [applyNumbering, outcomeStep, numberWrite]
    by_cases hc : u.channelId = c
    · subst hc
      cases hget : st.byId.get? u.channelId with
      | none => simp [hget]
      | some p =>
        cases hn : u.data.channelNumber with
        | none => simp [Placement.outcome]
        | some n => simp [outcome_setNumber]; rfl
    · simp only [hc, if_false, Option.elim_none, Option.map_id']
      cases hget : st.byId.get? u.channelId with
      | none => rfl
      | some p => simp [Dict.get?_set_ne, hc]
  | createChannel k =>
    simp only [applyNumbering, outcomeStep]
    by_cases hc : k.tempId = c
    · subst hc
      simp only [Dict.get?_set_self, Option.map_some, outcome_setNumber, if_true]
      rfl
    · simp [Dict.get?_set_ne, hc]
  | deleteChannel d =>
    have hbyId : (applyNumbering st index (.deleteChannel d)).byId.get? c =
        if d = c then none else st.byId.get? c := by
      by_cases hd : d ∈ st.byId
      · simp only [applyNumbering, hd, if_true, Dict.get?_erase]
      · simp only [applyNumbering, hd, if_false]
        split
        next hc => exact hc ▸ (st.byId.get?_eq_none d).mpr hd
        next => rfl
    rw [hbyId, outcomeStep]
    split <;> rfl
  | bulkAssignChannelNumbers r =>
    simp only [applyNumbering, outcomeStep, numberWrite]
    exact outcome_assignPositions c index _ rfl r.assignments st.byId
  | _ => simp only [applyNumbering, outcomeStep, numberWrite, Option.elim_none, Option.map_id']

/-- What the closed form needs of an operation list: no temporary id is created twice, nor again
after a delete of it. -/
structure Numberable (ops : List BulkOperation) : Prop where
  nodup_creates : (channelsToCreate ops).Nodup
  not_recreated : ∀ pre c post, ops = pre ++ .deleteChannel c :: post → c ∉ channelsToCreate post

/-- The channels left: those of the lineup, then the created ones, less the deleted ones. -/
def survivors (lineup : Lineup) (ops : List BulkOperation) : List ℤ :=
  (lineup.ids ++ channelsToCreate ops).filter (· ∉ channelsToDelete ops)

def Outcome.settle (o : Outcome) (last : Option (ℕ × NumberWrite)) : Outcome :=
  last.elim o fun e => o.write e.1 e.2

def baseOutcome (lineup : Lineup) (c : ℤ) : Outcome where
  channelId := c
  baseNumber := lineup.number c
  isNew := decide (c ∉ lineup.ids)
  number := lineup.number c
  arrival := none
  acknowledgement := none

/-- A surviving channel ends on the number written to it last. -/
def plannedOutcome (lineup : Lineup) (ops : List BulkOperation) (c : ℤ) : Outcome :=
  (baseOutcome lineup c).settle (lastWrite (numberWrite c) ops)

theorem channelId_plannedOutcome (lineup : Lineup) (ops : List BulkOperation) (c : ℤ) :
    (plannedOutcome lineup ops c).channelId = c := by
  rw [plannedOutcome, Outcome.settle]
  cases lastWrite (numberWrite c) ops <;> rfl

theorem channelsToCreate_append (ops ops' : List BulkOperation) :
    channelsToCreate (ops ++ ops') = channelsToCreate ops ++ channelsToCreate ops' :=
  List.filterMap_append

theorem channelsToDelete_append (ops ops' : List BulkOperation) :
    channelsToDelete (ops ++ ops') = channelsToDelete ops ++ channelsToDelete ops' :=
  List.filterMap_append

theorem mem_channelsToCreate {ops : List BulkOperation} {c : ℤ} :
    c ∈ channelsToCreate ops ↔ ∃ k : BulkCreateChannelOp, .createChannel k ∈ ops ∧ k.tempId = c := by
  simp only [channelsToCreate, List.mem_filterMap]
  constructor
  · rintro ⟨op, hop, hc⟩
    cases op <;> simp only [BulkOperation.createdTempId?, reduceCtorEq, Option.some.injEq] at hc
    next k => exact ⟨k, hop, hc⟩
  · rintro ⟨k, hk, rfl⟩
    exact ⟨_, hk, rfl⟩

theorem mem_channelsToDelete {ops : List BulkOperation} {c : ℤ} :
    c ∈ channelsToDelete ops ↔ .deleteChannel c ∈ ops := by
  simp only [channelsToDelete, List.mem_filterMap]
  constructor
  · rintro ⟨op, hop, hc⟩
    cases op <;> simp only [reduceCtorEq, Option.some.injEq] at hc
    exact hc ▸ hop
  · intro h
    exact ⟨_, h, rfl⟩

theorem neg_of_mem_channelsToCreate {ops : List BulkOperation} {c : ℤ}
    (h : c ∈ channelsToCreate ops) : c < 0 := by
  obtain ⟨k, _, rfl⟩ := mem_channelsToCreate.mp h
  exact k.tempId_neg

theorem not_mem_ids_of_mem_channelsToCreate {lineup : Lineup} {ops : List BulkOperation} {c : ℤ}
    (h : c ∈ channelsToCreate ops) : c ∉ lineup.ids := by
  intro hmem
  have := neg_of_mem_channelsToCreate h
  have := Lineup.nonneg_of_mem_ids hmem
  omega

theorem mem_survivors {lineup : Lineup} {ops : List BulkOperation} {c : ℤ} :
    c ∈ survivors lineup ops ↔
      (c ∈ lineup.ids ∨ c ∈ channelsToCreate ops) ∧ c ∉ channelsToDelete ops := by
  simp only [survivors, List.mem_filter, List.mem_append, decide_eq_true_eq]

theorem Numberable.of_concat {ops : List BulkOperation} {op : BulkOperation}
    (h : Numberable (ops ++ [op])) : Numberable ops where
  nodup_creates := by
    have := h.nodup_creates
    rw [channelsToCreate_append] at this
    exact this.of_append_left
  not_recreated := by
    intro pre c post heq hc
    apply h.not_recreated pre c (post ++ [op]) (by simp [heq])
    rw [channelsToCreate_append]
    exact List.mem_append_left _ hc

/-- Another create in a well-formed list names a channel nothing earlier created or deleted. -/
theorem Numberable.fresh {ops : List BulkOperation} {k : BulkCreateChannelOp}
    (h : Numberable (ops ++ [.createChannel k])) :
    k.tempId ∉ channelsToCreate ops ∧ k.tempId ∉ channelsToDelete ops := by
  constructor
  · intro hmem
    have hnodup := h.nodup_creates
    rw [channelsToCreate_append] at hnodup
    exact (List.disjoint_of_nodup_append hnodup) hmem (by simp [channelsToCreate,
      BulkOperation.createdTempId?])
  · intro hmem
    obtain ⟨pre, post, heq⟩ := List.append_of_mem (mem_channelsToDelete.mp hmem)
    apply h.not_recreated pre k.tempId (post ++ [.createChannel k]) (by simp [heq])
    simp [channelsToCreate, BulkOperation.createdTempId?]

/-- Whoever the fold still holds stands on the number written to it last. -/
structure Follows (lineup : Lineup) (ops : List BulkOperation) (st : NumberingState) : Prop where
  nodup : st.order.Nodup
  named : ∀ c ∈ st.order, c ∈ lineup.ids ∨ c ∈ channelsToCreate ops
  outcome : ∀ c, (st.byId.get? c).map Placement.outcome =
    if c ∈ st.order then some (plannedOutcome lineup ops c) else none

theorem Follows.mem_byId {lineup : Lineup} {ops : List BulkOperation} {st : NumberingState}
    (h : Follows lineup ops st) (c : ℤ) : c ∈ st.byId ↔ c ∈ st.order := by
  have hc := congrArg Option.isSome (h.outcome c)
  rw [Option.isSome_map] at hc
  rw [← Dict.isSome_get?, hc]
  split <;> simp_all

private theorem initial_order (channels : List Channel) :
    (initialNumberingState channels).order = channels.map (·.id) := by
  induction channels using List.reverseRecOn with
  | nil => rfl
  | append_singleton channels ch ih =>
    simp only [initialNumberingState, List.foldl_append, List.foldl_cons, List.foldl_nil,
      registerExisting, List.map_append, List.map_cons, List.map_nil] at ih ⊢
    rw [ih]

private theorem initial_outcome (channels : List Channel) (hn : (channels.map (·.id)).Nodup)
    (c : ℤ) :
    ((initialNumberingState channels).byId.get? c).map Placement.outcome =
      (channels.find? (·.id = c)).map fun ch =>
        { channelId := c, baseNumber := ch.channelNumber, isNew := false,
          number := ch.channelNumber, arrival := none, acknowledgement := none } := by
  induction channels using List.reverseRecOn with
  | nil => rfl
  | append_singleton channels ch ih =>
    rw [List.map_append, List.nodup_append] at hn
    have ih := ih hn.1
    simp only [initialNumberingState, List.foldl_append, List.foldl_cons, List.foldl_nil,
      registerExisting, Dict.get?_set] at ih ⊢
    by_cases hc : ch.id = c
    · subst hc
      have hnone : channels.find? (·.id = ch.id) = none := by
        rw [List.find?_eq_none]
        intro x hx
        simpa using hn.2.2 x.id (List.mem_map_of_mem hx) ch.id (by simp)
      simp [List.find?_append, hnone, Placement.outcome]
    · rw [if_neg hc, ih]
      simp [List.find?_append, hc]

theorem follows_nil (lineup : Lineup) :
    Follows lineup [] (initialNumberingState lineup.channels) where
  nodup := by
    rw [initial_order]
    exact lineup.nodup_ids
  named := by
    intro c hc
    rw [initial_order] at hc
    exact .inl hc
  outcome := by
    intro c
    rw [initial_outcome _ lineup.nodup_ids, initial_order, ← Lineup.ids]
    by_cases hc : c ∈ lineup.ids
    · have hsome : (lineup.channels.find? (·.id = c)).isSome := by
        rw [List.find?_isSome]
        obtain ⟨ch, hch, heq⟩ := List.mem_map.mp hc
        exact ⟨ch, hch, by simpa using heq⟩
      obtain ⟨ch, hch⟩ := Option.isSome_iff_exists.mp hsome
      rw [if_pos hc, hch]
      simp [plannedOutcome, baseOutcome, Outcome.settle, Lineup.number, hch, hc]
    · have hnone : lineup.channels.find? (·.id = c) = none := by
        rw [List.find?_eq_none]
        intro ch hch
        simpa using fun heq => hc (List.mem_map.mpr ⟨ch, hch, heq⟩)
      rw [if_neg hc, hnone, Option.map_none]

/-- Only creates and deletes change which channels are left. -/
theorem survivors_concat_other (lineup : Lineup) (ops : List BulkOperation) (op : BulkOperation)
    (hcreate : op.createdTempId? = none) (hdelete : ∀ c, op ≠ .deleteChannel c) :
    survivors lineup (ops ++ [op]) = survivors lineup ops := by
  have hdel : channelsToDelete [op] = [] := by
    cases op <;> simp_all [channelsToDelete]
  rw [survivors, channelsToCreate_append, channelsToDelete_append, hdel]
  simp [survivors, channelsToCreate, hcreate]

theorem survivors_concat_create (lineup : Lineup) (ops : List BulkOperation)
    (k : BulkCreateChannelOp) (hk : k.tempId ∉ channelsToDelete ops) :
    survivors lineup (ops ++ [.createChannel k]) = survivors lineup ops ++ [k.tempId] := by
  have hcreate : channelsToCreate [.createChannel k] = [k.tempId] := rfl
  have hdelete : channelsToDelete [.createChannel k] = [] := rfl
  rw [survivors, channelsToCreate_append, channelsToDelete_append, hcreate, hdelete,
    List.append_nil, ← List.append_assoc, List.filter_append, survivors]
  simp [hk]

theorem survivors_concat_delete (lineup : Lineup) (ops : List BulkOperation) (d : ℤ) :
    survivors lineup (ops ++ [.deleteChannel d]) = (survivors lineup ops).filter (· ≠ d) := by
  have hcreate : channelsToCreate [.deleteChannel d] = [] := rfl
  have hdelete : channelsToDelete [.deleteChannel d] = [d] := rfl
  rw [survivors, channelsToCreate_append, channelsToDelete_append, hcreate, hdelete,
    List.append_nil, survivors, List.filter_filter]
  apply List.filter_congr
  intro c _
  simp [and_comm]

theorem plannedOutcome_concat (lineup : Lineup) (ops : List BulkOperation) (op : BulkOperation)
    (c : ℤ) :
    plannedOutcome lineup (ops ++ [op]) c =
      (numberWrite c op).elim (plannedOutcome lineup ops c)
        ((plannedOutcome lineup ops c).write ops.length) := by
  rw [plannedOutcome, lastWrite_concat, plannedOutcome]
  cases numberWrite c op <;> cases lastWrite (numberWrite c) ops <;> rfl

theorem order_applyNumbering (st : NumberingState) (index : ℕ) (op : BulkOperation)
    (hcreate : op.createdTempId? = none) (hdelete : ∀ c, op ≠ .deleteChannel c) :
    (applyNumbering st index op).order = st.order := by
  cases op with
  | updateChannel u =>
    simp only [applyNumbering]
    split <;> rfl
  | createChannel k => simp [BulkOperation.createdTempId?] at hcreate
  | deleteChannel d => exact absurd rfl (hdelete d)
  | _ => rfl

/-- Another create names a channel the fold does not hold. -/
private theorem Follows.fresh {lineup : Lineup} {ops : List BulkOperation} {st : NumberingState}
    (h : Follows lineup ops st) {k : BulkCreateChannelOp}
    (hops : (channelsToCreate (ops ++ [.createChannel k])).Nodup) :
    k.tempId ∉ st.order ∧ k.tempId ∉ lineup.ids := by
  have hids : k.tempId ∉ lineup.ids := not_mem_ids_of_mem_channelsToCreate
    (mem_channelsToCreate.mpr ⟨k, List.mem_singleton_self _, rfl⟩)
  refine ⟨fun hmem => ?_, hids⟩
  rw [channelsToCreate_append] at hops
  rcases h.named k.tempId hmem with hid | hcreated
  · exact hids hid
  · exact List.disjoint_of_nodup_append hops hcreated (by simp [channelsToCreate,
      BulkOperation.createdTempId?])

private theorem Follows.step_create {lineup : Lineup} {ops : List BulkOperation}
    {st : NumberingState} (h : Follows lineup ops st) {k : BulkCreateChannelOp}
    (hops : (channelsToCreate (ops ++ [.createChannel k])).Nodup) :
    Follows lineup (ops ++ [.createChannel k])
      (applyNumbering st ops.length (.createChannel k)) := by
  obtain ⟨hfresh, hids⟩ := h.fresh hops
  have horder : (applyNumbering st ops.length (.createChannel k)).order =
      st.order ++ [k.tempId] := rfl
  refine ⟨?_, ?_, ?_⟩
  · rw [horder]
    exact h.nodup.append (List.nodup_singleton _) (by simpa using hfresh)
  · intro c hc
    rw [horder, List.mem_append, List.mem_singleton] at hc
    rw [channelsToCreate_append, List.mem_append]
    rcases hc with hc | rfl
    · exact (h.named c hc).imp_right .inl
    · exact .inr (.inr (by simp [channelsToCreate, BulkOperation.createdTempId?]))
  · intro c
    rw [outcome_applyNumbering, outcomeStep, horder, plannedOutcome_concat]
    by_cases hc : k.tempId = c
    · subst hc
      simp only [if_true, List.mem_append, List.mem_singleton, or_true, numberWrite,
        Option.elim_some]
      simp only [Outcome.write, plannedOutcome, baseOutcome, Outcome.settle,
        Lineup.number_eq_none hids]
      cases lastWrite (numberWrite k.tempId) ops <;> simp [hids]
    · simp only [hc, if_false, h.outcome c, List.mem_append, List.mem_singleton, Ne.symm hc,
        or_false, numberWrite, Option.elim_none]

private theorem Follows.order_delete {lineup : Lineup} {ops : List BulkOperation}
    {st : NumberingState} (h : Follows lineup ops st) (d : ℤ) :
    (applyNumbering st ops.length (.deleteChannel d)).order = st.order.filter (· ≠ d) := by
  by_cases hd : d ∈ st.byId
  · simp [applyNumbering, hd]
  · simp only [applyNumbering, hd, if_false]
    refine (List.filter_eq_self.mpr ?_).symm
    intro c hc
    simpa using fun heq : c = d => hd ((h.mem_byId d).mpr (heq ▸ hc))

private theorem Follows.step_delete {lineup : Lineup} {ops : List BulkOperation}
    {st : NumberingState} (h : Follows lineup ops st) (d : ℤ) :
    Follows lineup (ops ++ [.deleteChannel d])
      (applyNumbering st ops.length (.deleteChannel d)) := by
  have hcreates : channelsToCreate (ops ++ [.deleteChannel d]) = channelsToCreate ops := by
    rw [channelsToCreate_append]
    exact List.append_nil _
  refine ⟨?_, ?_, ?_⟩
  · rw [h.order_delete]
    exact h.nodup.filter _
  · intro c hc
    rw [h.order_delete] at hc
    rw [hcreates]
    exact h.named c (List.mem_filter.mp hc).1
  · intro c
    rw [outcome_applyNumbering, outcomeStep, h.order_delete, plannedOutcome_concat, h.outcome c]
    by_cases hc : d = c
    · simp [hc]
    · simp only [hc, if_false, List.mem_filter, ne_eq, Ne.symm hc, not_false_eq_true, decide_true,
        and_true, numberWrite, Option.elim_none]

private theorem Follows.step_other {lineup : Lineup} {ops : List BulkOperation}
    {st : NumberingState} (h : Follows lineup ops st) {op : BulkOperation}
    (hcreate : op.createdTempId? = none) (hdelete : ∀ c, op ≠ .deleteChannel c) :
    Follows lineup (ops ++ [op]) (applyNumbering st ops.length op) := by
  have horder := order_applyNumbering st ops.length op hcreate hdelete
  refine ⟨?_, ?_, ?_⟩
  · rw [horder]
    exact h.nodup
  · intro c hc
    rw [horder] at hc
    rw [channelsToCreate_append]
    exact (h.named c hc).imp_right (List.mem_append_left _)
  · intro c
    have hstep : outcomeStep c ops.length op ((st.byId.get? c).map Placement.outcome) =
        ((st.byId.get? c).map Placement.outcome).map fun o =>
          (numberWrite c op).elim o (o.write ops.length) := by
      cases op with
      | createChannel k => simp [BulkOperation.createdTempId?] at hcreate
      | deleteChannel d => exact absurd rfl (hdelete d)
      | _ => rfl
    rw [outcome_applyNumbering, hstep, horder, plannedOutcome_concat, h.outcome c]
    split <;> simp

/-- One more operation keeps every held channel on its last write. -/
theorem Follows.step {lineup : Lineup} {ops : List BulkOperation} {st : NumberingState}
    (h : Follows lineup ops st) {op : BulkOperation} (hops : (channelsToCreate (ops ++ [op])).Nodup) :
    Follows lineup (ops ++ [op]) (applyNumbering st ops.length op) := by
  cases op with
  | createChannel k => exact h.step_create hops
  | deleteChannel d => exact h.step_delete d
  | _ => exact h.step_other rfl (by simp)

theorem finalNumberingState_concat (channels : List Channel) (ops : List BulkOperation)
    (op : BulkOperation) :
    finalNumberingState channels (ops ++ [op]) =
      applyNumbering (finalNumberingState channels ops) ops.length op := by
  rw [finalNumberingState, finalNumberingState, List.zipIdx_append, List.foldl_append]
  simp

theorem follows_finalNumberingState (lineup : Lineup) {ops : List BulkOperation}
    (hops : (channelsToCreate ops).Nodup) :
    Follows lineup ops (finalNumberingState lineup.channels ops) := by
  induction ops using List.reverseRecOn with
  | nil => exact follows_nil lineup
  | append_singleton ops op ih =>
    rw [finalNumberingState_concat]
    have hops' := hops
    rw [channelsToCreate_append] at hops'
    exact (ih hops'.of_append_left).step hops

/-- A well-formed list leaves the channels no operation deletes. -/
theorem order_finalNumberingState (lineup : Lineup) {ops : List BulkOperation}
    (hops : Numberable ops) :
    (finalNumberingState lineup.channels ops).order = survivors lineup ops := by
  induction ops using List.reverseRecOn with
  | nil =>
    rw [finalNumberingState, List.zipIdx_nil, List.foldl_nil, initial_order]
    simp [survivors, channelsToCreate, channelsToDelete, Lineup.ids]
  | append_singleton ops op ih =>
    have hfollows := follows_finalNumberingState lineup hops.of_concat.nodup_creates
    have horder := ih hops.of_concat
    rw [finalNumberingState_concat]
    have hother : op.createdTempId? = none → (∀ c, op ≠ .deleteChannel c) →
        (applyNumbering (finalNumberingState lineup.channels ops) ops.length op).order =
          survivors lineup (ops ++ [op]) := by
      intro hcreate hdelete
      rw [order_applyNumbering _ _ op hcreate hdelete, horder,
        survivors_concat_other lineup ops op hcreate hdelete]
    cases op with
    | createChannel k =>
      rw [survivors_concat_create lineup ops k hops.fresh.2, ← horder]
      rfl
    | deleteChannel d => rw [hfollows.order_delete, horder, survivors_concat_delete]
    | _ => exact hother rfl (by simp)

/-- The channels still held, each on the number written to it last. -/
theorem Follows.outcome_placements {lineup : Lineup} {ops : List BulkOperation}
    {st : NumberingState} (h : Follows lineup ops st) :
    (st.order.filterMap st.byId.get?).map Placement.outcome =
      st.order.map (plannedOutcome lineup ops) := by
  rw [List.map_filterMap, ← List.filterMap_eq_map]
  apply List.filterMap_congr
  intro c hc
  rw [h.outcome c, if_pos hc]
  rfl

/-- The materialiser in closed form. -/
theorem outcome_buildFinalNumberingState (lineup : Lineup) {ops : List BulkOperation}
    (hops : Numberable ops) :
    (buildFinalNumberingState lineup.channels ops).map Placement.outcome =
      (survivors lineup ops).map (plannedOutcome lineup ops) := by
  have h := follows_finalNumberingState lineup hops.nodup_creates
  rw [buildFinalNumberingState, h.outcome_placements, order_finalNumberingState lineup hops]

theorem mem_of_numberAt {c : ℤ} {n : ℚ} {es : List (ℤ × ℚ)} (h : numberAt c es = some n) :
    (c, n) ∈ es := by
  induction es using List.reverseRecOn with
  | nil => simp [numberAt] at h
  | append_singleton es e ih =>
    rw [numberAt_concat] at h
    split at h
    next he => simp [← he, ← Option.some.inj h]
    next => exact List.mem_append_left _ (ih h)

theorem mem_assignments {r : BulkAssignNumbersOp} {c : ℤ} {n : ℚ} (h : (c, n) ∈ r.assignments) :
    ∃ i : ℕ, r.channelIds[i]? = some c ∧ n = r.start + i := by
  obtain ⟨⟨x, i⟩, hx, heq⟩ := List.mem_map.mp h
  simp only [Prod.mk.injEq] at heq
  obtain ⟨rfl, rfl⟩ := heq
  exact ⟨i, by simpa [List.mem_zipIdx_iff_getElem?] using hx, rfl⟩

/-- One operation never writes two channels into one slot. -/
theorem slot_ne_of_numberWrite {c d : ℤ} (hcd : c ≠ d) {op : BulkOperation} {w w' : NumberWrite}
    (hc : numberWrite c op = some w) (hd : numberWrite d op = some w') {n m : ℚ}
    (hn : w.number = some n) (hm : w'.number = some m) : slotKey n ≠ slotKey m := by
  cases op with
  | updateChannel u =>
    by_cases h : u.channelId = c
    · simp [numberWrite, h, hcd] at hd
    · simp [numberWrite, h] at hc
  | createChannel k =>
    by_cases h : k.tempId = c
    · simp [numberWrite, h, hcd] at hd
    · simp [numberWrite, h] at hc
  | bulkAssignChannelNumbers r =>
    simp only [numberWrite, Option.map_eq_some_iff] at hc hd
    obtain ⟨n', hc, rfl⟩ := hc
    obtain ⟨m', hd, rfl⟩ := hd
    obtain rfl := Option.some.inj hn
    obtain rfl := Option.some.inj hm
    obtain ⟨i, hi, rfl⟩ := mem_assignments (mem_of_numberAt hc)
    obtain ⟨j, hj, rfl⟩ := mem_assignments (mem_of_numberAt hd)
    have hij : i ≠ j := by
      rintro rfl
      exact hcd (Option.some.inj (hi.symm.trans hj))
    rcases Nat.lt_or_gt_of_ne hij with hlt | hlt
    · apply slotKey_ne_of_one_le
      have : ((i + 1 : ℕ) : ℚ) ≤ j := by exact_mod_cast hlt
      push_cast at this
      linarith
    · apply Ne.symm
      apply slotKey_ne_of_one_le
      have : ((j + 1 : ℕ) : ℚ) ≤ i := by exact_mod_cast hlt
      push_cast at this
      linarith
  | _ => simp [numberWrite] at hc

theorem nodup_survivors (lineup : Lineup) {ops : List BulkOperation} (hops : Numberable ops) :
    (survivors lineup ops).Nodup := by
  apply List.Nodup.filter
  refine List.Nodup.append lineup.nodup_ids hops.nodup_creates ?_
  intro c hc hcreate
  exact not_mem_ids_of_mem_channelsToCreate hcreate hc

theorem plannedOutcome_untied (lineup : Lineup) (ops : List BulkOperation) {c d : ℤ}
    (hcd : c ≠ d) : (plannedOutcome lineup ops c).Untied (plannedOutcome lineup ops d) := by
  intro hc hd slot hcs hds heq
  have hc' := Outcome.isSome_arrival hc
  have hd' := Outcome.isSome_arrival hd
  cases hlc : lastWrite (numberWrite c) ops with
  | none => simp [plannedOutcome, Outcome.settle, hlc, baseOutcome] at hc'
  | some e =>
    cases hld : lastWrite (numberWrite d) ops with
    | none => simp [plannedOutcome, Outcome.settle, hld, baseOutcome] at hd'
    | some e' =>
      obtain ⟨i, w⟩ := e
      obtain ⟨j, w'⟩ := e'
      simp only [plannedOutcome, Outcome.settle, hlc, hld, Option.elim_some, Outcome.write,
        Option.some.injEq, Outcome.slot?, Option.map_eq_some_iff] at heq hcs hds
      obtain ⟨n, hn, hns⟩ := hcs
      obtain ⟨m, hm, hms⟩ := hds
      obtain ⟨pre, op, post, hops, hi, hop, -⟩ := lastWrite_eq_some.mp hlc
      obtain ⟨pre', op', post', hops', hj, hop', -⟩ := lastWrite_eq_some.mp hld
      have hsame : op = op' := by
        have h1 : ops[i]? = some op := by simp [hops, ← hi]
        have h2 : ops[j]? = some op' := by simp [hops', ← hj]
        rw [heq, h2] at h1
        exact (Option.some.inj h1).symm
      subst hsame
      exact slot_ne_of_numberWrite hcd hop hop' hn hm (hns.trans hms.symm)

/-- The preflight verdict on a well-formed operation list. -/
theorem evaluateFinalNumbering_eq_nil (lineup : Lineup) {ops : List BulkOperation}
    (hops : Numberable ops) :
    evaluateFinalNumbering lineup.channels ops = [] ↔
      Acceptable ((survivors lineup ops).map (plannedOutcome lineup ops)) := by
  have hbuild := outcome_buildFinalNumberingState lineup hops
  rw [← hbuild]
  apply issuesOfPlacements_eq_nil
  rw [hbuild, List.pairwise_map]
  exact (nodup_survivors lineup hops).imp fun h => plannedOutcome_untied lineup ops h

end ChannelManager
