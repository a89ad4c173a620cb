import Mathlib

/-!
# The first entries of a list in falling order

A list sorted by a falling key, in which equal keys are equal entries. Whether an entry is among the
first `n` depends on how many stand above it, and whether it is among the others on how many do not
stand below it; several copies of an entry can be in both parts.
-/

namespace ChannelManager

variable {α κ : Type} [LinearOrder κ] {key : α → κ} {sorted : List α}

/-- What stands first is not below what stands later. -/
theorem key_le_of_mem_take (h : sorted.Pairwise fun a b => key b ≤ key a) {n : ℕ} {a b : α}
    (ha : a ∈ sorted.take n) (hb : b ∈ sorted.drop n) : key b ≤ key a := by
  rw [← List.take_append_drop n sorted, List.pairwise_append] at h
  exact h.2.2 a ha b hb

section Distinct

variable (hsorted : sorted.Pairwise fun a b => key b ≤ key a)
  (hkey : ∀ a ∈ sorted, ∀ b ∈ sorted, key a = key b → a = b)

include hsorted hkey

theorem mem_take_iff {a : α} (ha : a ∈ sorted) (n : ℕ) :
    a ∈ sorted.take n ↔ sorted.countP (fun b => key a < key b) < n := by
  induction sorted generalizing n with
  | nil => cases ha
  | cons first rest ih =>
    have hrest := List.pairwise_cons.mp hsorted
    have hkey' : ∀ a ∈ rest, ∀ b ∈ rest, key a = key b → a = b := fun a ha b hb =>
      hkey a (List.mem_cons_of_mem _ ha) b (List.mem_cons_of_mem _ hb)
    cases n with
    | zero => simp
    | succ n =>
      rw [List.take_succ_cons, List.mem_cons, List.countP_cons]
      by_cases hlt : key a < key first
      · have hne : a ≠ first := fun h => lt_irrefl _ (h ▸ hlt)
        have hmem : a ∈ rest := (List.mem_cons.mp ha).resolve_left hne
        simp [hlt, hne, ih hrest.2 hkey' hmem n]
      · have heq : a = first := by
          cases List.mem_cons.mp ha with
          | inl heq => exact heq
          | inr hmem =>
            exact hkey a ha first List.mem_cons_self
              (le_antisymm (hrest.1 a hmem) (not_lt.mp hlt))
        have hnone : rest.countP (fun b => key a < key b) = 0 := by
          rw [List.countP_eq_zero]
          intro b hb
          simpa [heq] using hrest.1 b hb
        rw [hnone, if_neg (by simpa using hlt)]
        exact ⟨fun _ => Nat.succ_pos n, fun _ => .inl heq⟩

theorem mem_drop_iff {a : α} (ha : a ∈ sorted) (n : ℕ) :
    a ∈ sorted.drop n ↔ n < sorted.countP (fun b => key a ≤ key b) := by
  induction sorted generalizing n with
  | nil => cases ha
  | cons first rest ih =>
    have hrest := List.pairwise_cons.mp hsorted
    have hkey' : ∀ a ∈ rest, ∀ b ∈ rest, key a = key b → a = b := fun a ha b hb =>
      hkey a (List.mem_cons_of_mem _ ha) b (List.mem_cons_of_mem _ hb)
    have hle : key a ≤ key first := by
      cases List.mem_cons.mp ha with
      | inl heq => exact le_of_eq (congrArg key heq)
      | inr hmem => exact hrest.1 a hmem
    cases n with
    | zero =>
      simp only [List.drop_zero, ha, true_iff]
      exact List.countP_pos_iff.mpr ⟨a, ha, by simp⟩
    | succ n =>
      rw [List.drop_succ_cons, List.countP_cons, if_pos (by simpa using hle), Nat.add_lt_add_iff_right]
      by_cases hmem : a ∈ rest
      · exact ih hrest.2 hkey' hmem n
      · have hnone : rest.countP (fun b => key a ≤ key b) = 0 := by
          rw [List.countP_eq_zero]
          intro b hb hge
          have heq := hkey a ha b (List.mem_cons_of_mem _ hb)
            (le_antisymm (by simpa using hge) ?_)
          · exact hmem (heq ▸ hb)
          · cases List.mem_cons.mp ha with
            | inl hfirst => exact hfirst ▸ hrest.1 b hb
            | inr hmem' => exact absurd hmem' hmem
        rw [hnone]
        exact ⟨fun h => absurd (List.drop_subset n rest h) hmem, fun h => absurd h (Nat.not_lt_zero n)⟩

end Distinct

end ChannelManager
