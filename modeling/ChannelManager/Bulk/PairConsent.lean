import ChannelManager.Bulk.NumberPlan

/-!
# Consent, pair by pair

`evaluate_final_numbering` walks each slot in the order of arrival. For a list that creates no
temporary id twice, the final placements and the operation that set each number last say the same:
of two channels on one slot, the one this request put there later named the other.
-/

namespace ChannelManager

/-- Operation `op`, at index `i`, is the last one to set the number of channel `c`. -/
structure SetsLast (ops : List BulkOperation) (c : ℤ) (i : ℕ) (op : BulkOperation) : Prop where
  at_index : ops[i]? = some op
  sets : (numberWrite c op).isSome
  last : ∀ j op', i < j → ops[j]? = some op' → numberWrite c op' = none

/-- `p` arrives after `q`, which this request may not have moved at all. -/
def ArrivesAfter (ops : List BulkOperation) (p q : Placement) : Prop :=
  q.moved → ∃ i j op op', SetsLast ops p.channelId i op ∧ SetsLast ops q.channelId j op' ∧ j < i

/-- The last operation to set the number of `p` carries consent to joining `q` on `slot`. -/
def CarriesConsent (ops : List BulkOperation) (slot : SlotKey) (p q : Placement) : Prop :=
  ∃ i op a, SetsLast ops p.channelId i op ∧ acknowledgementOf op = some a ∧ a.slot = slot ∧
    q.channelId ∈ a.occupantIds

/-- Whoever is moved onto a slot has consented to every channel there before it. -/
def PairsConsent (ops : List BulkOperation) (ps : List Placement) : Prop :=
  ∀ p ∈ ps, ∀ q ∈ ps, p.channelId ≠ q.channelId → ∀ slot, p.number.map slotKey = some slot →
    q.number.map slotKey = some slot → p.moved → ArrivesAfter ops p q → CarriesConsent ops slot p q

/-- Moved, and onto a number that is no channel number. -/
def Placement.outOfContract (p : Placement) : Bool :=
  p.moved && p.number.any fun n => !isValidChannelNumber n

section LastWriter

variable {ops : List BulkOperation} {c : ℤ} {i : ℕ} {op : BulkOperation}

theorem acknowledgement_of_numberWrite {w : NumberWrite} (h : numberWrite c op = some w) :
    w.acknowledgement = acknowledgementOf op := by
  cases op with
  | updateChannel u =>
    simp only [numberWrite] at h
    split at h
    · obtain ⟨n, -, rfl⟩ := Option.map_eq_some_iff.mp h
      rfl
    · simp at h
  | createChannel k =>
    simp only [numberWrite] at h
    split at h
    · exact (Option.some.inj h) ▸ rfl
    · simp at h
  | bulkAssignChannelNumbers r =>
    obtain ⟨n, -, rfl⟩ := Option.map_eq_some_iff.mp h
    rfl
  | _ => simp [numberWrite] at h

/-- The last operation to set a number is the one the history ends on. -/
theorem setsLast_iff : SetsLast ops c i op ↔
    ∃ w, numberWrite c op = some w ∧ ops[i]? = some op ∧
      lastWrite (numberWrite c) ops = some (i, w) := by
  constructor
  · intro h
    obtain ⟨w, hw⟩ := Option.isSome_iff_exists.mp h.sets
    obtain ⟨hi, hget⟩ := List.getElem?_eq_some_iff.mp h.at_index
    refine ⟨w, hw, h.at_index, lastWrite_eq_some.mpr
      ⟨ops.take i, op, ops.drop (i + 1), ?_, by simp [hi.le], hw, ?_⟩⟩
    · rw [← hget, List.cons_getElem_drop_succ, List.take_append_drop]
    · intro x hx
      obtain ⟨k, hk, rfl⟩ := List.mem_iff_getElem.mp hx
      exact h.last (i + 1 + k) _ (by omega) (by simp)
  · rintro ⟨w, hw, hat, hlast⟩
    obtain ⟨pre, op₀, post, rfl, rfl, -, hpost⟩ := lastWrite_eq_some.mp hlast
    refine ⟨hat, by simp [hw], ?_⟩
    intro j op' hj hop'
    apply hpost
    rw [List.getElem?_append_right hj.le, List.getElem?_cons] at hop'
    split at hop'
    next => omega
    next => exact List.mem_of_getElem? hop'

theorem exists_setsLast {w : NumberWrite} (h : lastWrite (numberWrite c) ops = some (i, w)) :
    ∃ op, SetsLast ops c i op ∧ numberWrite c op = some w := by
  obtain ⟨pre, op, post, hops, hi, hw, -⟩ := lastWrite_eq_some.mp h
  have hat : ops[i]? = some op := by simp [hops, ← hi]
  exact ⟨op, setsLast_iff.mpr ⟨w, hw, hat, h⟩, hw⟩

/-- No channel's number is set last twice. -/
theorem SetsLast.unique {j : ℕ} {op' : BulkOperation} (h : SetsLast ops c i op)
    (h' : SetsLast ops c j op') : i = j ∧ op = op' := by
  obtain ⟨w, -, hat, hlast⟩ := setsLast_iff.mp h
  obtain ⟨w', -, hat', hlast'⟩ := setsLast_iff.mp h'
  rw [hlast, Option.some.injEq, Prod.mk.injEq] at hlast'
  obtain ⟨rfl, -⟩ := hlast'
  exact ⟨rfl, Option.some.inj (hat.symm.trans hat')⟩

end LastWriter

theorem type_invalidNumberIssue {p : Placement} {issue : NumberingIssue}
    (h : invalidNumberIssue p = some issue) : issue.type = .invalidChannelNumber := by
  unfold invalidNumberIssue at h
  split at h
  · simp at h
  · split at h
    · exact (Option.some.inj h) ▸ rfl
    · simp at h

theorem type_duplicateNumberIssue {slot : SlotKey} {occupants : List Placement}
    {issue : NumberingIssue} (h : duplicateNumberIssue slot occupants = some issue) :
    issue.type = .duplicateChannelNumber := by
  unfold duplicateNumberIssue at h
  split at h
  · simp at h
  · dsimp only at h
    split at h
    · simp at h
    · exact (Option.some.inj h) ▸ rfl

section FinalState

variable {lineup : Lineup} {ops : List BulkOperation} (hunique : (channelsToCreate ops).Nodup)
include hunique

theorem outcomes_buildFinalNumberingState :
    (buildFinalNumberingState lineup.channels ops).map Placement.outcome =
      (finalNumberingState lineup.channels ops).order.map (plannedOutcome lineup ops) :=
  (follows_finalNumberingState lineup hunique).outcome_placements

/-- A final placement is the plan for a channel the fold still holds. -/
theorem plannedOutcome_of_mem {p : Placement}
    (hp : p ∈ buildFinalNumberingState lineup.channels ops) :
    (p.channelId ∈ lineup.ids ∨ p.channelId ∈ channelsToCreate ops) ∧
      p.outcome = plannedOutcome lineup ops p.channelId := by
  have hmem := List.mem_map_of_mem (f := Placement.outcome) hp
  rw [outcomes_buildFinalNumberingState hunique] at hmem
  obtain ⟨c, hc, houtcome⟩ := List.mem_map.mp hmem
  have hid : p.channelId = c := by
    have := congrArg Outcome.channelId houtcome
    rw [channelId_plannedOutcome] at this
    exact this.symm
  rw [hid]
  exact ⟨(follows_finalNumberingState lineup hunique).named c hc, houtcome.symm⟩

/-- Whoever is moved was moved by an operation, and stands where the last one put it. -/
theorem exists_setsLast_of_moved {p : Placement}
    (hp : p ∈ buildFinalNumberingState lineup.channels ops) (hmoved : p.moved) :
    ∃ i op, SetsLast ops p.channelId i op ∧ p.outcome.arrival = some i ∧
      p.acknowledgement = acknowledgementOf op := by
  obtain ⟨hnamed, houtcome⟩ := plannedOutcome_of_mem hunique hp
  cases hlast : lastWrite (numberWrite p.channelId) ops with
  | none =>
    -- a channel nothing renumbers is one of the lineup's, on its own number
    have hid : p.channelId ∈ lineup.ids := by
      refine hnamed.resolve_right fun hcreated => ?_
      obtain ⟨k, hk, htemp⟩ := mem_channelsToCreate.mp hcreated
      have := (lastWrite_eq_none _ _).mp hlast _ hk
      simp [numberWrite, htemp] at this
    have hstay : p.isNew = false ∧ p.baseNumber = p.number := by
      have hnew := congrArg Outcome.isNew houtcome
      have hbase := congrArg Outcome.baseNumber houtcome
      have hnumber := congrArg Outcome.number houtcome
      simp only [plannedOutcome, hlast, Outcome.settle, Option.elim_none, baseOutcome,
        Placement.outcome] at hnew hbase hnumber
      exact ⟨by simpa [hid] using hnew, hbase.trans hnumber.symm⟩
    simp [Placement.moved, hstay.1, hstay.2] at hmoved
  | some e =>
    obtain ⟨i, w⟩ := e
    obtain ⟨op, hset, hw⟩ := exists_setsLast hlast
    refine ⟨i, op, hset, ?_, ?_⟩
    · rw [houtcome, plannedOutcome, hlast]
      rfl
    · have hack : p.outcome.acknowledgement = w.acknowledgement := by
        rw [houtcome, plannedOutcome, hlast]
        rfl
      exact hack.trans (acknowledgement_of_numberWrite hw)

theorem placed_eq_moved {p : Placement} (hp : p ∈ buildFinalNumberingState lineup.channels ops) :
    p.placed = p.moved := by
  cases hmoved : p.moved with
  | false => simp [Placement.placed, hmoved]
  | true =>
    obtain ⟨i, -, -, harrival, -⟩ := exists_setsLast_of_moved hunique hp hmoved
    have htouched : p.touchedBy ≠ [] := by
      intro hnil
      simp [Placement.outcome, hnil] at harrival
    simp [Placement.placed, hmoved, htouched]

theorem arrivesAfter_iff {p q : Placement} (hp : p ∈ buildFinalNumberingState lineup.channels ops)
    (hq : q ∈ buildFinalNumberingState lineup.channels ops) (hmoved : p.moved) :
    ArrivesAfter ops p q ↔ (q.placed → q.arrival < p.arrival) := by
  rw [placed_eq_moved hunique hq]
  refine forall_congr' fun hmoved' => ?_
  obtain ⟨i, op, hset, harrival, -⟩ := exists_setsLast_of_moved hunique hp hmoved
  obtain ⟨j, op', hset', harrival', -⟩ := exists_setsLast_of_moved hunique hq hmoved'
  rw [← arrival_outcome, ← arrival_outcome, harrival, harrival']
  constructor
  · rintro ⟨i', j', _, _, hi, hj, hlt⟩
    rw [(hset.unique hi).1, (hset'.unique hj).1]
    exact hlt
  · intro hlt
    exact ⟨i, j, op, op', hset, hset', hlt⟩

theorem carriesConsent_iff {p : Placement} (hp : p ∈ buildFinalNumberingState lineup.channels ops)
    (hmoved : p.moved) (slot : SlotKey) (q : Placement) :
    CarriesConsent ops slot p q ↔ p.outcome.Names slot q.channelId := by
  obtain ⟨i, op, hset, -, hack⟩ := exists_setsLast_of_moved hunique hp hmoved
  constructor
  · rintro ⟨i', op', a, hset', ha, hslot, hmem⟩
    rw [← (hset.unique hset').2, ← hack] at ha
    exact ⟨a, ha, hslot, hmem⟩
  · rintro ⟨a, ha, hslot, hmem⟩
    exact ⟨i, op, a, hset, hack.symm.trans ha, hslot, hmem⟩

theorem nodup_channelIds :
    ((buildFinalNumberingState lineup.channels ops).map (·.channelId)).Nodup := by
  have hids : (buildFinalNumberingState lineup.channels ops).map (·.channelId) =
      (finalNumberingState lineup.channels ops).order := by
    have houtcomes : (buildFinalNumberingState lineup.channels ops).map Placement.outcome = _ :=
      outcomes_buildFinalNumberingState hunique
    have h := congrArg (List.map Outcome.channelId) houtcomes
    rw [List.map_map, List.map_map] at h
    refine Eq.trans h ?_
    refine (List.map_congr_left fun c _ => ?_).trans (List.map_id _)
    exact channelId_plannedOutcome lineup ops c
  rw [hids]
  exact (follows_finalNumberingState lineup hunique).nodup

theorem untied_buildFinalNumberingState :
    ((buildFinalNumberingState lineup.channels ops).map Placement.outcome).Pairwise
      Outcome.Untied := by
  rw [outcomes_buildFinalNumberingState hunique, List.pairwise_map]
  exact (follows_finalNumberingState lineup hunique).nodup.imp
    fun h => plannedOutcome_untied lineup ops h

/-- The placements the slots are built from. -/
theorem slotted_eq : (buildFinalNumberingState lineup.channels ops).filter
      (fun p => (invalidNumberIssue p).isNone) =
    (buildFinalNumberingState lineup.channels ops).filter (fun p => !p.outOfContract) := by
  apply List.filter_congr
  intro p hp
  rw [Bool.eq_iff_iff, Option.isNone_iff_eq_none, invalidNumberIssue_eq_none,
    placed_eq_moved hunique hp]
  cases hnumber : p.number with
  | none => simp [Placement.outOfContract, hnumber]
  | some n => cases hmoved : p.moved <;> simp [Placement.outOfContract, hnumber, hmoved]

end FinalState

/-- Of two moved channels on one slot, exactly one arrives after the other. -/
theorem arrivesAfter_or {lineup : Lineup} {ops : List BulkOperation}
    (hunique : (channelsToCreate ops).Nodup) {p q : Placement}
    (hp : p ∈ buildFinalNumberingState lineup.channels ops)
    (hq : q ∈ buildFinalNumberingState lineup.channels ops) (hne : p.channelId ≠ q.channelId)
    {slot : SlotKey} (hslot : p.number.map slotKey = some slot)
    (hslot' : q.number.map slotKey = some slot) (hmoved : p.moved) (hmoved' : q.moved) :
    ArrivesAfter ops p q ↔ ¬ ArrivesAfter ops q p := by
  obtain ⟨i, -, -, harrival, -⟩ := exists_setsLast_of_moved hunique hp hmoved
  obtain ⟨j, -, -, harrival', -⟩ := exists_setsLast_of_moved hunique hq hmoved'
  have huntied := plannedOutcome_untied lineup ops hne
  rw [← (plannedOutcome_of_mem hunique hp).2, ← (plannedOutcome_of_mem hunique hq).2] at huntied
  have harrivals := huntied
    (by rw [placed_outcome, placed_eq_moved hunique hp, hmoved])
    (by rw [placed_outcome, placed_eq_moved hunique hq, hmoved']) slot hslot hslot'
  rw [harrival, harrival', ne_eq, Option.some.injEq] at harrivals
  rw [arrivesAfter_iff hunique hp hq hmoved, arrivesAfter_iff hunique hq hp hmoved',
    placed_eq_moved hunique hp, placed_eq_moved hunique hq, ← arrival_outcome, ← arrival_outcome,
    harrival, harrival', hmoved, hmoved']
  simp only [Option.getD_some, true_implies]
  omega

/-- Only the walk over a slot reports a duplicate. -/
theorem no_duplicate_issue_iff (ps : List Placement) :
    (∀ issue ∈ issuesOfPlacements ps, issue.type ≠ .duplicateChannelNumber) ↔
      ∀ slot, duplicateNumberIssue slot
        (occupantsOf slot (ps.filter fun p => (invalidNumberIssue p).isNone)) = none := by
  have hinvalid : ∀ issue ∈ ps.filterMap invalidNumberIssue,
      issue.type ≠ .duplicateChannelNumber := by
    intro issue hissue
    obtain ⟨p, -, hp⟩ := List.mem_filterMap.mp hissue
    rw [type_invalidNumberIssue hp]
    simp
  rw [← duplicates_eq_nil, List.eq_nil_iff_forall_not_mem, issuesOfPlacements]
  constructor
  · intro h issue hissue
    obtain ⟨e, -, he⟩ := List.mem_filterMap.mp hissue
    exact h issue (List.mem_append_right _ hissue) (type_duplicateNumberIssue he)
  · intro h issue hissue
    exact (List.mem_append.mp hissue).elim (hinvalid issue) fun hdup => absurd hdup (h issue)

private def lineupOf57 : Lineup where
  channels := [{ id := 1, name := "One", channelNumber := some 5 },
    { id := 2, name := "Two", channelNumber := some 7 }]
  nodup_ids := by decide
  id_nonneg := by decide

/-- Channel 2 joins channel 1 on 5 with consent, leaves, and comes back with nobody asked. -/
private def goneAndBack : List BulkOperation :=
  [.updateChannel { channelId := 2, data := { channelNumber := some (some 5) },
                    acknowledgedDuplicate := some ⟨5, [1]⟩ },
   .updateChannel { channelId := 2, data := { channelNumber := some (some 6) } },
   .updateChannel { channelId := 2, data := { channelNumber := some (some 5) } }]

/-- Channel 2 goes to a number between two tenths, in the slot of channel 1. -/
private def offTheGrid : List BulkOperation :=
  [.updateChannel { channelId := 2, data := { channelNumber := some (some (161 / 32)) } }]

end ChannelManager
