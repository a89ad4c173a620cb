import Mathlib.Data.Nat.Basic
import ChannelManager.Lib.Dict

/-!
# Taking from a list on a budget

As many entries are taken from the front of a list as a budget allows, where a budget of nothing is no
budget. What is taken leaves the list, and round after round the list runs out.
-/

namespace ChannelManager

variable {α : Type}

theorem firsts_filter [DecidableEq α] (p : α → Bool) (l : List α) : firsts (l.filter p) = (firsts l).filter p := by
  induction l using List.reverseRecOn with
  | nil => rfl
  | append_singleton l a ih =>
    rw [List.filter_append, firsts_concat]
    cases hp : p a with
    | false => by_cases ha : a ∈ l <;> simp [hp, ha, ih, List.filter_append]
    | true =>
      rw [List.filter_cons_of_pos hp, List.filter_nil, firsts_concat]
      by_cases ha : a ∈ l <;> simp [hp, ha, ih, List.filter_append]

/-- The entries a budget allows. -/
def limited (cap : ℕ) (l : List α) : List α := if cap = 0 then l else l.take cap

section Limited

variable {cap : ℕ} {l : List α}

theorem limited_sublist : (limited cap l).Sublist l := by
  rw [limited]
  split_ifs
  · exact List.Sublist.refl l
  · exact List.take_sublist cap l

theorem length_limited_le (hcap : cap ≠ 0) : (limited cap l).length ≤ cap := by
  rw [limited, if_neg hcap, List.length_take]
  exact Nat.min_le_left _ _

/-- While the budget is not used up nothing is left out. -/
theorem limited_eq_self (h : ¬(cap ≠ 0 ∧ cap ≤ (limited cap l).length)) : limited cap l = l := by
  rw [limited] at h ⊢
  split_ifs at h ⊢ with hcap
  · rfl
  · rw [List.length_take] at h
    exact List.take_of_length_le (by omega)

/-- One more entry is taken unless the budget is used up. -/
theorem limited_concat (a : α) : limited cap (l ++ [a]) =
    if cap ≠ 0 ∧ cap ≤ (limited cap l).length then limited cap l else limited cap l ++ [a] := by
  split_ifs with hfull
  · have hlength : cap ≤ l.length := Nat.le_trans hfull.2 limited_sublist.length_le
    rw [limited, limited, if_neg hfull.1, if_neg hfull.1, List.take_append_of_le_length hlength]
  · rw [limited_eq_self hfull]
    rw [limited_eq_self hfull] at hfull
    rw [limited]
    split_ifs with hcap
    · rfl
    · exact List.take_of_length_le (by rw [List.length_append, List.length_singleton]; omega)

/-- What is left is what was not taken. -/
theorem limited_append_filter [BEq α] [LawfulBEq α] (cap : ℕ) (hnodup : l.Nodup) :
    limited cap l ++ l.filter (· ∉ limited cap l) = l := by
  by_cases hcap : cap = 0
  · simp [limited, hcap]
  · have htaken : limited cap l = l.take cap := if_neg hcap
    have hsplit : (l.take cap ++ l.drop cap).Nodup := by rwa [List.take_append_drop]
    have htake : (l.take cap).filter (· ∉ l.take cap) = [] :=
      List.filter_eq_nil_iff.mpr fun a ha => by simpa using ha
    have hdrop : (l.drop cap).filter (· ∉ l.take cap) = l.drop cap :=
      List.filter_eq_self.mpr fun a ha => by
        simpa using fun htaken => List.disjoint_of_nodup_append hsplit htaken ha
    have hrest : l.filter (· ∉ l.take cap) = l.drop cap := by
      calc
        l.filter (· ∉ l.take cap) = (l.take cap ++ l.drop cap).filter (· ∉ l.take cap) := by
          rw [List.take_append_drop]
        _ = l.drop cap := by rw [List.filter_append, htake, hdrop, List.nil_append]
    rw [htaken, hrest, List.take_append_drop]

end Limited

/-- The distinct entries a budget allows, each where it comes first. -/
def taken [DecidableEq α] (cap : ℕ) (l : List α) : List α := limited cap (firsts l)

section Taken

variable [DecidableEq α] {cap : ℕ} {l : List α}

/-- One more entry is taken if it is new and the budget is not used up. -/
theorem taken_concat (a : α) : taken cap (l ++ [a]) =
    if a ∈ taken cap l ∨ cap ≠ 0 ∧ cap ≤ (taken cap l).length then taken cap l
    else taken cap l ++ [a] := by
  rw [taken, taken, firsts_concat]
  by_cases ha : a ∈ l
  · rw [if_pos ha, if_pos]
    refine or_iff_not_imp_right.mpr fun hbudget => ?_
    rw [limited_eq_self hbudget]
    exact mem_firsts.mpr ha
  · have hnew : a ∉ limited cap (firsts l) := fun h => ha (mem_firsts.mp (limited_sublist.subset h))
    rw [if_neg ha, limited_concat]
    simp only [hnew, false_or]

end Taken

section Rounds

variable [BEq α] [LawfulBEq α] {cap : ℕ} (todo : ℕ → List α)

theorem nodup_rounds (hnodup : (todo 0).Nodup)
    (hstep : ∀ n, todo (n + 1) = (todo n).filter (· ∉ limited cap (todo n))) (n : ℕ) :
    (todo n).Nodup := by
  induction n with
  | zero => exact hnodup
  | succ n ih =>
    rw [hstep]
    exact ih.filter _

/-- What some rounds have taken, in order, before what is left. -/
theorem flatMap_limited_append (hnodup : (todo 0).Nodup)
    (hstep : ∀ n, todo (n + 1) = (todo n).filter (· ∉ limited cap (todo n))) (n : ℕ) :
    ((List.range n).flatMap fun k => limited cap (todo k)) ++ todo n = todo 0 := by
  induction n with
  | zero => rfl
  | succ n ih =>
    rw [List.range_succ, List.flatMap_append, List.flatMap_singleton, List.append_assoc, hstep,
      limited_append_filter cap (nodup_rounds todo hnodup hstep n), ih]

/-- A round takes something as long as something is left. -/
theorem length_rounds_le (hnodup : (todo 0).Nodup)
    (hstep : ∀ n, todo (n + 1) = (todo n).filter (· ∉ limited cap (todo n))) (n : ℕ) :
    (todo n).length ≤ (todo 0).length - n := by
  induction n with
  | zero => exact (Nat.le_refl _)
  | succ n ih =>
    have hsplit := congrArg List.length
      (limited_append_filter cap (nodup_rounds todo hnodup hstep n))
    rw [List.length_append, ← hstep] at hsplit
    have htaken : todo n = [] ∨ 0 < (limited cap (todo n)).length := by
      refine or_iff_not_imp_left.mpr fun hne => ?_
      rw [limited]
      split_ifs with hcap
      · exact List.length_pos_of_ne_nil hne
      · rw [List.length_take]
        exact Nat.lt_min.mpr ⟨Nat.pos_of_ne_zero hcap, List.length_pos_of_ne_nil hne⟩
    obtain hnil | htaken := htaken
    · rw [hnil, List.length_nil] at hsplit
      omega
    · omega

/-- In the end everything has been taken once, in order, and nothing is left. -/
theorem rounds_drain (hnodup : (todo 0).Nodup)
    (hstep : ∀ n, todo (n + 1) = (todo n).filter (· ∉ limited cap (todo n))) :
    ((List.range (todo 0).length).flatMap fun k => limited cap (todo k)) = todo 0 ∧
      ∀ n, (todo 0).length ≤ n → todo n = [] := by
  have hdone : ∀ n, (todo 0).length ≤ n → todo n = [] := by
    intro n hn
    have hlength := length_rounds_le todo hnodup hstep n
    exact List.length_eq_zero_iff.mp (by omega)
  have hall := flatMap_limited_append todo hnodup hstep (todo 0).length
  rw [hdone _ (Nat.le_refl _), List.append_nil] at hall
  exact ⟨hall, hdone⟩

end Rounds

end ChannelManager
