import Mathlib.Data.List.Sort
import Mathlib.Tactic.Linarith

/-!
# Pushing down

Occupied places are pushed down by a fixed distance, from a start up to a stop, to free some claimed
places. A place that stays is in the way if it is claimed or if one that moves lands on it. One pass up the
occupied places finds the least stop with nothing in the way.
-/

namespace ChannelManager

section PushDown

variable (claimed : ℤ → Prop) (start shift : ℤ) (occupied : List ℤ)

/-- With this stop, the place is claimed or one that moves lands on it. -/
def InTheWay (stop place : ℤ) : Prop :=
  claimed place ∨ (start ≤ place - shift ∧ place - shift < stop ∧ place - shift ∈ occupied)

/-- Where a place is after the push. -/
def pushed (start shift stop place : ℤ) : ℤ :=
  if start ≤ place ∧ place < stop then place + shift else place

/-- The stop, after these places have been seen: none of them that stays is in the way, and with a lesser
stop one would be. -/
structure Grown (seen : List ℤ) (stop : ℤ) : Prop where
  start_le : start ≤ stop
  clear : ∀ place ∈ seen, stop ≤ place → ¬ InTheWay claimed start shift occupied stop place
  least : ∀ stop', start ≤ stop' → stop' < stop →
    ∃ place ∈ seen, stop' ≤ place ∧ InTheWay claimed start shift occupied stop' place

variable {claimed start shift occupied}

theorem grown_start : Grown claimed start shift occupied [] start where
  start_le := le_refl start
  clear _ h := absurd h List.not_mem_nil
  least _ hge hlt := absurd hge (not_le.mpr hlt)

namespace Grown

variable {seen : List ℤ} {stop place : ℤ} (h : Grown claimed start shift occupied seen stop)
include h

/-- A place that is not in the way leaves the stop where it is. -/
theorem keep (hplace : stop ≤ place → ¬ InTheWay claimed start shift occupied stop place) :
    Grown claimed start shift occupied (seen ++ [place]) stop where
  start_le := h.start_le
  clear p hp hstop := by
    cases List.mem_append.mp hp with
    | inl hseen => exact h.clear p hseen hstop
    | inr hlast => exact List.mem_singleton.mp hlast ▸ hplace (List.mem_singleton.mp hlast ▸ hstop)
  least stop' hge hlt := by
    obtain ⟨p, hp, hway⟩ := h.least stop' hge hlt
    exact ⟨p, List.mem_append_left _ hp, hway⟩

/-- A place in the way is taken into the run. -/
theorem grow (hsorted : ∀ p ∈ seen, p ≤ place) (hstop : stop ≤ place)
    (hplace : InTheWay claimed start shift occupied stop place) :
    Grown claimed start shift occupied (seen ++ [place]) (place + 1) where
  start_le := by have := h.start_le; omega
  clear p hp hge := by
    have hle : p ≤ place := by
      cases List.mem_append.mp hp with
      | inl hseen => exact hsorted p hseen
      | inr hlast => exact (List.mem_singleton.mp hlast).le
    omega
  least stop' hge hlt := by
    by_cases hold : stop' < stop
    · obtain ⟨p, hp, hway⟩ := h.least stop' hge hold
      exact ⟨p, List.mem_append_left _ hp, hway⟩
    · -- what the run had before moves with the lesser stop, too
      refine ⟨place, List.mem_append_right _ (List.mem_singleton_self place), by omega, ?_⟩
      cases hplace with
      | inl hclaimed => exact .inl hclaimed
      | inr hland => exact .inr ⟨hland.1, by omega, hland.2.2⟩

end Grown

section Pushed

variable {stop : ℤ}
  (hclear : ∀ place ∈ occupied, stop ≤ place → ¬ InTheWay claimed start shift occupied stop place)
include hclear

/-- A place that moves does not land on one that stays. -/
theorem pushed_ne_of_stays {place place' : ℤ} (hplace : place ∈ occupied) (hplace' : place' ∈ occupied)
    (hge : start ≤ place) (hlt : place < stop) (hstay : stop ≤ place') : place + shift ≠ place' := by
  intro heq
  refine hclear place' hplace' hstay (.inr ?_)
  have hback : place' - shift = place := by omega
  rw [hback]
  exact ⟨hge, hlt, hplace⟩

/-- The claimed places are free after the push. -/
theorem pushed_not_claimed (hclaimed : ∀ place, claimed place → start ≤ place ∧ place < start + shift)
    {place : ℤ} (hplace : start ≤ place → place ∈ occupied) :
    ¬ claimed (pushed start shift stop place) := by
  intro h
  have hbounds := hclaimed _ h
  rw [pushed] at h hbounds
  split at h
  · rename_i hmoves
    rw [if_pos hmoves] at hbounds
    omega
  · rename_i hstays
    rw [if_neg hstays] at hbounds
    have hstop : stop ≤ place := by
      rw [not_and, not_lt] at hstays
      exact hstays hbounds.1
    exact hclear place (hplace hbounds.1) hstop (.inl h)

/-- Places that come together were one place. -/
theorem pushed_injective (hshift : 0 < shift) {place place' : ℤ} (hplace : start ≤ place → place ∈ occupied)
    (hplace' : start ≤ place' → place' ∈ occupied)
    (heq : pushed start shift stop place = pushed start shift stop place') : place = place' := by
  have hmiss : ∀ p q : ℤ, (start ≤ p → p ∈ occupied) → (start ≤ q → q ∈ occupied) →
      start ≤ p → p < stop → ¬ (start ≤ q ∧ q < stop) → p + shift ≠ q := by
    intro p q hp hq hge hlt hstays
    by_cases hq' : start ≤ q
    · exact pushed_ne_of_stays hclear (hp hge) (hq hq') hge hlt (by omega)
    · omega
  rw [pushed, pushed] at heq
  split at heq
  · rename_i hmoves
    split at heq
    · omega
    · rename_i hstays
      exact absurd heq (hmiss place place' hplace hplace' hmoves.1 hmoves.2 hstays)
  · rename_i hstays
    split at heq
    · rename_i hmoves
      exact absurd heq.symm (hmiss place' place hplace' hplace hmoves.1 hmoves.2 hstays)
    · exact heq

end Pushed

/-- The push keeps the order, but that a place that moves may pass one that stays. -/
theorem pushed_lt (stop : ℤ) (hshift : 0 < shift) {place place' : ℤ} (hlt : place < place') :
    pushed start shift stop place < pushed start shift stop place' ∨
      (start ≤ place ∧ place < stop ∧ stop ≤ place' ∧ place' ≤ place + shift) := by
  rw [pushed, pushed]
  split <;> split <;> omega

end PushDown

end ChannelManager
