import Mathlib.Data.Set.Finite.Basic
import Mathlib.Order.Interval.Set.Infinite
import Mathlib.Order.Interval.Finset.Defs
import Mathlib.Order.Monotone.Basic

/-!
# The next of a set after a point

A walk that goes from each point to the least of a set after it meets every later element of the set,
and each once.
-/

namespace ChannelManager

variable {α : Type} [LinearOrder α]

/-- The least of `s` after `a`. -/
def IsNext (s : Set α) (a b : α) : Prop := IsLeast {x | x ∈ s ∧ a < x} b

variable {s : Set α} {a b : α} {walk : ℕ → α}

theorem IsNext.mem (h : IsNext s a b) : b ∈ s := h.1.1

theorem IsNext.lt (h : IsNext s a b) : a < b := h.1.2

theorem IsNext.le (h : IsNext s a b) {x : α} (hx : x ∈ s) (hlt : a < x) : b ≤ x := h.2 ⟨hx, hlt⟩

theorem strictMono_of_isNext (h : ∀ n, IsNext s (walk n) (walk (n + 1))) : StrictMono walk :=
  strictMono_nat_of_lt_succ fun n => (h n).lt

/-- Every later element of the set is met once. -/
theorem met_once_of_isNext [LocallyFiniteOrder α] (h : ∀ n, IsNext s (walk n) (walk (n + 1))) {x : α}
    (hx : x ∈ s) (hlt : walk 0 < x) : ∃! n, walk (n + 1) = x := by
  have hmono := strictMono_of_isNext h
  have hpassed : ∃ n, x ≤ walk n := by
    by_contra hnever
    simp only [not_exists, not_le] at hnever
    have hbounded : ∀ n, walk n ∈ Set.Icc (walk 0) x := fun n =>
      ⟨hmono.monotone n.zero_le, (hnever n).le⟩
    exact Set.infinite_of_injective_forall_mem hmono.injective hbounded (Set.finite_Icc _ _)
  classical
  obtain ⟨n, hn⟩ : ∃ n, Nat.find hpassed = n + 1 := by
    refine Nat.exists_eq_succ_of_ne_zero fun hzero => ?_
    have hfirst := Nat.find_spec hpassed
    rw [hzero] at hfirst
    exact absurd hlt (not_lt.mpr hfirst)
  have hle : x ≤ walk (n + 1) := hn ▸ Nat.find_spec hpassed
  have hbefore : walk n < x := not_le.mp (Nat.find_min hpassed (hn ▸ Nat.lt_succ_self n))
  refine ⟨n, le_antisymm ((h n).le hx hbefore) hle, fun m hm => ?_⟩
  have hsame : walk (m + 1) = walk (n + 1) := hm.trans (le_antisymm hle ((h n).le hx hbefore))
  exact Nat.succ_injective (hmono.injective hsame)

end ChannelManager
