import Mathlib.Data.List.Dedup
import Mathlib.Data.List.Lex
import Mathlib.Data.List.Sort
import Mathlib.Order.Defs.LinearOrder

/-!
# Sorting by a key

The insertion sort of a list by a key. Where entries of one key are equal the order of the list does not
matter.
-/

namespace ChannelManager

variable {α κ : Type} [LinearOrder κ]

def sortedOn (key : α → κ) (l : List α) : List α := l.insertionSort fun a b => key a ≤ key b

theorem sortedOn_perm (key : α → κ) (l : List α) : (sortedOn key l).Perm l :=
  List.perm_insertionSort _ _

theorem mem_sortedOn {key : α → κ} {l : List α} {a : α} : a ∈ sortedOn key l ↔ a ∈ l :=
  (sortedOn_perm key l).mem_iff

theorem pairwise_sortedOn (key : α → κ) (l : List α) :
    (sortedOn key l).Pairwise fun a b => key a ≤ key b := by
  have htotal : Std.Total fun a b : α => key a ≤ key b := ⟨fun a b => le_total (key a) (key b)⟩
  have htrans : IsTrans α fun a b => key a ≤ key b := ⟨fun _ _ _ hab hbc => hab.trans hbc⟩
  exact List.pairwise_insertionSort _ _

/-- Lists of the same entries are sorted to the same list. -/
theorem sortedOn_congr {key : α → κ} {l l' : List α} (h : l.Perm l')
    (hkey : ∀ a ∈ l, ∀ b ∈ l, key a = key b → a = b) : sortedOn key l = sortedOn key l' := by
  refine List.Perm.eq_of_pairwise ?_ (pairwise_sortedOn key l) (pairwise_sortedOn key l') ?_
  · intro a b ha hb hab hba
    have hb' : b ∈ l := h.mem_iff.mpr (mem_sortedOn.mp hb)
    exact hkey a (mem_sortedOn.mp ha) b hb' (le_antisymm hab hba)
  · exact ((sortedOn_perm key l).trans h).trans (sortedOn_perm key l').symm

/-- Keys that put every entry on the same side of those after it sort a list alike. -/
theorem sortedOn_eq_of_pairwise {κ' : Type} [LinearOrder κ'] {key : α → κ} {key' : α → κ'} {l : List α}
    (h : l.Pairwise fun a b => key a ≤ key b ↔ key' a ≤ key' b) : sortedOn key l = sortedOn key' l := by
  induction l with
  | nil => rfl
  | cons a l ih =>
    obtain ⟨ha, hl⟩ := List.pairwise_cons.mp h
    have hinsert : ∀ m : List α, (∀ b ∈ m, key a ≤ key b ↔ key' a ≤ key' b) →
        m.orderedInsert (fun a b => key a ≤ key b) a = m.orderedInsert (fun a b => key' a ≤ key' b) a := by
      intro m hm
      induction m with
      | nil => rfl
      | cons b m ihm =>
        obtain ⟨hb, hm⟩ := List.forall_mem_cons.mp hm
        simp only [List.orderedInsert_cons, hb, ihm hm]
    have htail : sortedOn key (a :: l) = (sortedOn key l).orderedInsert (fun a b => key a ≤ key b) a := rfl
    rw [htail, hinsert _ fun b hb => ha b (mem_sortedOn.mp hb), ih hl]
    rfl

theorem cons_le_cons_iff {a b : κ} {l m : List κ} : a :: l ≤ b :: m ↔ a < b ∨ a = b ∧ l ≤ m := by
  have hlt : b :: m < a :: l ↔ b < a ∨ b = a ∧ m < l := List.cons_lt_cons_iff
  rw [← not_lt, hlt, ← not_lt (a := m)]
  obtain hless | rfl | hmore := lt_trichotomy a b
  · simp [hless, hless.not_gt, hless.ne']
  · simp
  · simp [hmore, hmore.not_gt, hmore.ne']

/-- An entry at the end of lists of one length decides between those that are the same. -/
theorem append_singleton_le_iff {l m : List κ} (h : l.length = m.length) {x y : κ} (hxy : x ≤ y) :
    l ++ [x] ≤ m ++ [y] ↔ l ≤ m := by
  induction l generalizing m with
  | nil =>
    obtain rfl : m = [] := List.length_eq_zero_iff.mp h.symm
    rw [List.nil_append, List.nil_append, cons_le_cons_iff]
    simpa using le_iff_lt_or_eq.mp hxy
  | cons a l ih =>
    cases m with
    | nil => cases h
    | cons b m =>
      rw [List.cons_append, List.cons_append, cons_le_cons_iff, cons_le_cons_iff,
        ih (Nat.succ.inj h)]

/-- In order of their keys, the entries below a bound come first. -/
theorem takeWhile_lt_sorted {key : α → κ} {l : List α} (h : l.Pairwise fun a b => key a ≤ key b) (bound : κ) :
    l.takeWhile (key · < bound) = l.filter (key · < bound) := by
  induction l with
  | nil => rfl
  | cons a l ih =>
    rw [List.pairwise_cons] at h
    by_cases ha : key a < bound
    · rw [List.takeWhile_cons_of_pos (by simpa using ha), List.filter_cons_of_pos (by simpa using ha), ih h.2]
    · have hnone : l.filter (key · < bound) = [] := by
        rw [List.filter_eq_nil_iff]
        intro b hb
        simpa using (not_lt.mp ha).trans (h.1 b hb)
      rw [List.takeWhile_cons_of_neg (by simpa using ha), List.filter_cons_of_neg (by simpa using ha), hnone]

end ChannelManager
