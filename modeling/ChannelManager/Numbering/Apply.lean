import ChannelManager.Lib.Dict
import ChannelManager.Numbering.ChannelNumber
import Mathlib.Data.List.Perm.Subperm
import Mathlib.Data.List.Sort

/-!
# Numbering writes: the order they go in, and how they are put back

`channel_number_apply.py`: `order_numbering_writes` moves a channel onto a number only once the
write that vacates it has gone out, breaking cycles where there is no such order, and
`NumberingCompensator` remembers every numbering write that landed.
-/

namespace ChannelManager

/-- One channel moving from one number to another. -/
structure NumberingWrite where
  channelId : ℤ
  name : String
  before : Option ℚ
  after : Option ℚ
deriving DecidableEq

/-- Does this write change anything? -/
def NumberingWrite.moves (write : NumberingWrite) : Bool := numberMoves write.before write.after

structure NumberingOrder where
  writes : List NumberingWrite
  cycles : List (List ℤ)

/-- The write at `holder` leaves the number the write at `position` goes to. -/
def blocksWrite (holder position : NumberingWrite) : Bool :=
  holder.moves && sameChannelNumber holder.before position.after

/-- `blockers`: the positions to be written before this one. -/
def blockersOf (pending : List NumberingWrite) (remaining : List ℕ) (position : ℕ) : List ℕ :=
  remaining.filter fun holder =>
    holder ≠ position &&
      match pending[holder]?, pending[position]? with
      | some h, some p => blocksWrite h p
      | _, _ => false

/-- Walk from write to blocker until a position repeats, and return the cycle the walk ended in;
nothing when the fuel runs out. -/
def walkCycle (blockers : ℕ → List ℕ) : ℕ → List ℕ → ℕ → Option (List ℕ)
  | 0, _, _ => none
  | fuel + 1, seen, cursor =>
    if cursor ∈ seen then some (seen.drop (seen.idxOf cursor))
    else walkCycle blockers fuel (seen ++ [cursor]) ((blockers cursor).min?.getD cursor)

/-- What one pass of the loop writes out, with the cycle it had to break. -/
def releasedNow (pending : List NumberingWrite) (remaining : List ℕ) :
    List ℕ × List (List ℕ) :=
  let ready := remaining.filter fun p => blockersOf pending remaining p = []
  if ready ≠ [] then (ready, [])
  else
    match remaining with
    | [] => ([], [])
    | start :: _ =>
      match walkCycle (blockersOf pending remaining) (remaining.length + 1) [] start with
      | some cycle => (cycle.min?.toList, [cycle])
      | none => ([start], [])

/-- The loop of `order_numbering_writes`; every pass writes something out, so the number of writes
is fuel enough. -/
def orderLoop (pending : List NumberingWrite) :
    ℕ → List ℕ → List ℕ × List (List ℕ)
  | 0, _ => ([], [])
  | fuel + 1, remaining =>
    let released := releasedNow pending remaining
    let rest := orderLoop pending fuel (remaining.filter (· ∉ released.1))
    (released.1 ++ rest.1, released.2 ++ rest.2)

/-- `order_numbering_writes`. -/
def orderNumberingWrites (writes : List NumberingWrite) : NumberingOrder :=
  let order := orderLoop writes writes.length (List.range writes.length)
  { writes := order.1.filterMap (writes[·]?)
    cycles := (order.2.map fun cycle =>
      (cycle.filterMap fun p => writes[p]?.map (·.channelId)).insertionSort
        (· ≤ ·)).insertionSort (· ≤ ·) }

theorem blockersOf_subset (pending : List NumberingWrite) (remaining : List ℕ) (position : ℕ) :
    blockersOf pending remaining position ⊆ remaining :=
  List.filter_sublist.subset

section Walk

variable {blockers : ℕ → List ℕ} {remaining : List ℕ}

theorem next_mem (hb : ∀ p, blockers p ⊆ remaining) {cursor : ℕ} (hc : cursor ∈ remaining) :
    (blockers cursor).min?.getD cursor ∈ remaining := by
  cases hmin : (blockers cursor).min? with
  | none => exact hc
  | some m => exact hb cursor (List.min?_mem hmin)

theorem walkCycle_subset (hb : ∀ p, blockers p ⊆ remaining) {fuel : ℕ} {seen : List ℕ}
    {cursor : ℕ} (hs : seen ⊆ remaining) (hc : cursor ∈ remaining) {cycle : List ℕ}
    (h : walkCycle blockers fuel seen cursor = some cycle) :
    cycle ⊆ remaining ∧ cycle ≠ [] := by
  induction fuel generalizing seen cursor with
  | zero => cases h
  | succ fuel ih =>
    rw [walkCycle] at h
    by_cases hmem : cursor ∈ seen
    · rw [if_pos hmem, Option.some.injEq] at h
      subst h
      constructor
      · exact fun p hp => hs (List.mem_of_mem_drop hp)
      · intro hnil
        have hlt := List.idxOf_lt_length_iff.mpr hmem
        have hle := List.drop_eq_nil_iff.mp hnil
        omega
    · rw [if_neg hmem] at h
      apply ih _ (next_mem hb hc) h
      intro p hp
      rcases List.mem_append.mp hp with hp | hp
      · exact hs hp
      · rw [List.mem_singleton.mp hp]
        exact hc

/-- The walk stays among the remaining positions, so it repeats one before the fuel is gone. -/
theorem walkCycle_isSome (hb : ∀ p, blockers p ⊆ remaining) {fuel : ℕ} {seen : List ℕ}
    {cursor : ℕ} (hn : seen.Nodup) (hs : seen ⊆ remaining) (hc : cursor ∈ remaining)
    (hfuel : remaining.length < fuel + seen.length) :
    (walkCycle blockers fuel seen cursor).isSome := by
  induction fuel generalizing seen cursor with
  | zero =>
    have hle := (List.subperm_of_subset hn hs).length_le
    omega
  | succ fuel ih =>
    rw [walkCycle]
    by_cases hmem : cursor ∈ seen
    · simp [hmem]
    · rw [if_neg hmem]
      apply ih
      · rw [List.nodup_append_comm]
        exact List.nodup_cons.mpr ⟨hmem, hn⟩
      · intro p hp
        rcases List.mem_append.mp hp with hp | hp
        · exact hs hp
        · rw [List.mem_singleton.mp hp]
          exact hc
      · exact next_mem hb hc
      · rw [List.length_append, List.length_singleton]
        omega

end Walk

/-- A pass writes out some of what remains, each position once. -/
theorem releasedNow_spec (pending : List NumberingWrite) {remaining : List ℕ}
    (hn : remaining.Nodup) (hne : remaining ≠ []) :
    (releasedNow pending remaining).1 ⊆ remaining ∧ (releasedNow pending remaining).1.Nodup ∧
      (releasedNow pending remaining).1 ≠ [] := by
  unfold releasedNow
  by_cases hready : remaining.filter (fun p => blockersOf pending remaining p = []) = []
  · cases remaining with
    | nil => exact absurd rfl hne
    | cons start rest =>
      have hb := blockersOf_subset pending (start :: rest)
      have hstart : start ∈ start :: rest := by simp
      have hfuel : (start :: rest).length < (start :: rest).length + 1 + ([] : List ℕ).length := by simp
      have hsome := walkCycle_isSome hb List.nodup_nil (List.nil_subset _) hstart hfuel
      rcases Option.isSome_iff_exists.mp hsome with ⟨cycle, hcycle⟩
      have hsub := walkCycle_subset hb (List.nil_subset _) hstart hcycle
      rcases Option.isSome_iff_exists.mp (List.isSome_min?_of_ne_nil hsub.2) with ⟨m, hm⟩
      simp only [hready, ne_eq, not_true_eq_false, if_false, hcycle, hm, Option.toList_some]
      refine ⟨?_, List.nodup_singleton m, List.cons_ne_nil m []⟩
      intro p hp
      rw [List.mem_singleton.mp hp]
      exact hsub.1 (List.min?_mem hm)
  · simp only [ne_eq, hready, not_false_eq_true, if_true]
    exact ⟨List.filter_sublist.subset, hn.filter _, trivial⟩

theorem orderLoop_perm (pending : List NumberingWrite) {fuel : ℕ} {remaining : List ℕ}
    (hn : remaining.Nodup) (hfuel : remaining.length ≤ fuel) :
    (orderLoop pending fuel remaining).1.Perm remaining := by
  induction fuel generalizing remaining with
  | zero =>
    have hnil : remaining = [] := List.length_eq_zero_iff.mp (by omega)
    rw [hnil]
    exact List.Perm.refl _
  | succ fuel ih =>
    by_cases hnil : remaining = []
    · subst hnil
      have hrest := ih List.nodup_nil (by simp)
      simpa [orderLoop, releasedNow] using hrest
    · have hspec := releasedNow_spec pending hn hnil
      rw [orderLoop]
      generalize releasedNow pending remaining = released at hspec
      have hin : released.1.Perm (remaining.filter (· ∈ released.1)) := by
        rw [List.perm_ext_iff_of_nodup hspec.2.1 (hn.filter _)]
        intro p
        simp only [List.mem_filter, decide_eq_true_eq]
        exact ⟨fun hp => ⟨hspec.1 hp, hp⟩, fun hp => hp.2⟩
      have hsplit : (remaining.filter (· ∈ released.1) ++ remaining.filter (· ∉ released.1)).Perm
          remaining := by
        have h := List.filter_append_perm (fun p => decide (p ∈ released.1)) remaining
        simpa using h
      have hpos : 0 < (remaining.filter (· ∈ released.1)).length := by
        rw [← hin.length_eq]
        exact List.length_pos_iff.mpr hspec.2.2
      have hlen := hsplit.length_eq
      rw [List.length_append] at hlen
      have hrest := ih (hn.filter fun p => decide (p ∉ released.1)) (by omega)
      exact (hin.append hrest).trans hsplit

theorem filterMap_range_getElem? (writes : List NumberingWrite) :
    (List.range writes.length).filterMap (writes[·]?) = writes := by
  induction writes using List.reverseRecOn with
  | nil => rfl
  | append_singleton writes w ih =>
    rw [List.length_append, List.length_singleton, List.range_succ, List.filterMap_append]
    have hinit : (List.range writes.length).filterMap ((writes ++ [w])[·]?) =
        (List.range writes.length).filterMap (writes[·]?) := by
      apply List.filterMap_congr
      intro i hi
      rw [List.getElem?_append_left (List.mem_range.mp hi)]
    rw [hinit, ih]
    simp

/-- Every submitted write goes out exactly once. -/
theorem orderNumberingWrites_perm (writes : List NumberingWrite) :
    (orderNumberingWrites writes).writes.Perm writes := by
  have hfuel : (List.range writes.length).length ≤ writes.length := by simp
  have hperm := orderLoop_perm writes List.nodup_range hfuel
  have h := hperm.filterMap (writes[·]?)
  rw [filterMap_range_getElem?] at h
  exact h

/-- `NumberingCompensator`: every numbering write that landed or failed to, and the number each
channel held before the run touched it. -/
structure NumberingCompensator where
  landed : List NumberingWrite := []
  failed : List NumberingWrite := []
  firstBefore : Dict ℤ (Option ℚ) := ∅

namespace NumberingCompensator

def recordLanded (compensator : NumberingCompensator) (channelId : ℤ) (name : String)
    (before after : Option ℚ) : NumberingCompensator :=
  { compensator with
    firstBefore := if channelId ∈ compensator.firstBefore then compensator.firstBefore
      else compensator.firstBefore.set channelId before
    landed := compensator.landed ++ [⟨channelId, name, before, after⟩] }

def recordFailed (compensator : NumberingCompensator) (channelId : ℤ) (name : String)
    (intended : Option ℚ) : NumberingCompensator :=
  { compensator with
    failed := compensator.failed ++
      [⟨channelId, name, (compensator.firstBefore.get? channelId).getD none, intended⟩] }

/-- Did part of this run's numbering land while part of it did not? -/
def halfApplied (compensator : NumberingCompensator) : Bool :=
  compensator.landed ≠ [] && compensator.failed ≠ []

/-- The write that puts a landed one back to where its channel was before the run. -/
def restore (compensator : NumberingCompensator) (write : NumberingWrite) : NumberingWrite where
  channelId := write.channelId
  name := write.name
  before := write.after
  after := (compensator.firstBefore.get? write.channelId).getD none

/-- The loop of `compensation_steps`, over the landed writes newest first. -/
def stepsFrom (compensator : NumberingCompensator) (seen : List ℤ) :
    List NumberingWrite → List NumberingWrite
  | [] => []
  | write :: writes =>
    if write.channelId ∈ seen then compensator.stepsFrom seen writes
    else if (compensator.restore write).moves then
      compensator.restore write :: compensator.stepsFrom (write.channelId :: seen) writes
    else compensator.stepsFrom (write.channelId :: seen) writes

def compensationSteps (compensator : NumberingCompensator) : List NumberingWrite :=
  if compensator.halfApplied then compensator.stepsFrom [] compensator.landed.reverse else []

end NumberingCompensator

/-- The first number recorded for a channel stays. -/
theorem firstBefore_recordLanded (compensator : NumberingCompensator) (x : ℤ) (name : String)
    (before after : Option ℚ) (c : ℤ) :
    (compensator.recordLanded x name before after).firstBefore.get? c =
      if x = c then (compensator.firstBefore.get? c).or (some before)
      else compensator.firstBefore.get? c := by
  simp only [NumberingCompensator.recordLanded]
  by_cases hmem : x ∈ compensator.firstBefore
  · rw [if_pos hmem]
    split
    · rename_i hx
      subst hx
      obtain ⟨v, hv⟩ := Option.isSome_iff_exists.mp ((Dict.isSome_get? _ _).mpr hmem)
      rw [hv, Option.some_or]
    · rfl
  · rw [if_neg hmem, Dict.get?_set]
    have hnone := (Dict.get?_eq_none _ _).mpr hmem
    by_cases hx : x = c
    · subst hx
      simp [hnone]
    · simp [hx]

end ChannelManager
