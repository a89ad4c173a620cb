import ChannelManager.Pipeline.Executor
import Mathlib.Data.List.Perm.Subperm
import Mathlib.Order.Bounds.Basic

/-!
# The number an action is given

The walk up the grid stops at the first free number: among one more number than are used there is one.
A spec has a start and a step, and whatever it is, the number given is the least free one of that
walk.
-/

namespace ChannelManager.Pipeline

section Walk

variable {α : Type} [DecidableEq α] {slot : ℕ → α}

/-- A walk over distinct slots meets a free one after as many steps as there are used ones. -/
theorem find?_walk (hslot : Function.Injective slot) (used : List α) :
    ∃ k, ((List.range (used.length + 1)).map slot).find? (· ∉ used) = some (slot k) ∧
      slot k ∉ used ∧ ∀ j < k, slot j ∈ used := by
  rw [List.find?_map]
  cases hfind : (List.range (used.length + 1)).find? ((fun n => decide (n ∉ used)) ∘ slot) with
  | some k =>
    obtain ⟨hk, _, hbefore⟩ := List.find?_range_eq_some.mp hfind
    exact ⟨k, rfl, by simpa using hk, fun j hj => by simpa using hbefore j hj⟩
  | none =>
    have hall : ∀ n ∈ (List.range (used.length + 1)).map slot, n ∈ used := by
      intro n hn
      obtain ⟨i, hi, rfl⟩ := List.mem_map.mp hn
      simpa using List.find?_eq_none.mp hfind i hi
    have hnodup : ((List.range (used.length + 1)).map slot).Nodup := List.nodup_range.map hslot
    have hlength := (hnodup.subperm hall).length_le
    simp only [List.length_map, List.length_range] at hlength
    omega

end Walk

/-- Among the numbers from `start` on in steps, the walk stops at the least free one. -/
theorem nextFreeNumber_isLeast (used : List ℕ) (start : ℕ) {step : ℕ} (hstep : 0 < step) :
    IsLeast {t | t ∉ used ∧ ∃ k, t = start + k * step} (nextFreeNumber used start step) := by
  have hinj : Function.Injective fun i => start + i * step := fun i j hij =>
    Nat.eq_of_mul_eq_mul_right hstep (Nat.add_left_cancel hij)
  obtain ⟨k, hfind, hfree, hbefore⟩ := find?_walk hinj used
  have hnext : nextFreeNumber used start step = start + k * step := by
    rw [nextFreeNumber, hfind, Option.getD_some]
  rw [hnext]
  refine ⟨⟨hfree, k, rfl⟩, fun t ht => ?_⟩
  obtain ⟨hunused, j, rfl⟩ := ht
  have hkj : k ≤ j := not_lt.mp fun hlt => hunused (hbefore j hlt)
  exact Nat.add_le_add_left (Nat.mul_le_mul_right step hkj) start

theorem nextFreeNumber_not_mem (used : List ℕ) (start step : ℕ) (hstep : 0 < step) :
    nextFreeNumber used start step ∉ used :=
  (nextFreeNumber_isLeast used start hstep).1.1

namespace NumberSpec

/-- Where the walk for a spec starts. A range with its ends exchanged has no slot inside, and its walk
starts above its top. -/
def start : NumberSpec → ℕ
  | auto => 10
  | literal ticks => ticks
  | range lo hi => 10 * min lo (hi + 1)

/-- Tenths for a literal that names one, whole numbers otherwise. -/
def step : NumberSpec → ℕ
  | literal ticks => if ticks % 10 = 0 then 10 else 1
  | _ => 10

/-- The numbers a spec admits. -/
def Admits (spec : NumberSpec) (t : ℕ) : Prop := ∃ k, t = spec.start + k * spec.step

theorem step_pos (spec : NumberSpec) : 0 < spec.step := by
  cases spec with
  | literal ticks => rw [step]; split <;> omega
  | auto => exact Nat.succ_pos 9
  | range lo hi => exact Nat.succ_pos 9

end NumberSpec

theorem getNextChannelNumber_isLeast (used : List ℕ) (spec : NumberSpec) :
    IsLeast {t | t ∉ used ∧ spec.Admits t} (getNextChannelNumber used spec) := by
  cases spec with
  | auto => exact nextFreeNumber_isLeast used 10 (Nat.succ_pos 9)
  | literal ticks => exact nextFreeNumber_isLeast used ticks (NumberSpec.step_pos (.literal ticks))
  | range lo hi =>
    rw [getNextChannelNumber, List.find?_map]
    cases hfind : (List.range (hi + 1 - lo)).find?
        ((fun n => decide (n ∉ used)) ∘ fun i => 10 * (lo + i)) with
    | some i =>
      obtain ⟨hfree, hi', hbefore⟩ := List.find?_range_eq_some.mp hfind
      have hlo : min lo (hi + 1) = lo := by
        have := List.mem_range.mp hi'
        omega
      refine ⟨⟨by simpa using hfree, i, ?_⟩, fun t ht => ?_⟩
      · simp only [NumberSpec.start, NumberSpec.step, hlo, Option.map_some, Option.getD_some]
        omega
      · obtain ⟨hunused, k, rfl⟩ := ht
        simp only [NumberSpec.start, NumberSpec.step, hlo, Option.map_some, Option.getD_some]
          at hunused ⊢
        by_contra hlt
        have hused := hbefore k (by omega)
        simp only [Function.comp_apply, Bool.not_eq_true', decide_eq_false_iff_not, not_not] at hused
        exact hunused (by convert hused using 1; omega)
    | none =>
      have hinside := List.find?_range_eq_none.mp hfind
      obtain ⟨⟨hfree, k, hk⟩, hleast⟩ := nextFreeNumber_isLeast used (10 * (hi + 1))
        (Nat.succ_pos 9)
      refine ⟨⟨hfree, hi + 1 - min lo (hi + 1) + k, ?_⟩, fun t ht => ?_⟩
      · have hnext : nextFreeNumber used (10 * (hi + 1)) 10 = 10 * (hi + 1) + k * 10 := hk
        simp only [NumberSpec.start, NumberSpec.step, Option.map_none, Option.getD_none, hnext]
        omega
      · obtain ⟨hunused, j, rfl⟩ := ht
        simp only [NumberSpec.start, NumberSpec.step] at hunused ⊢
        by_cases hin : min lo (hi + 1) + j < hi + 1
        · have hused := hinside (min lo (hi + 1) + j - lo) (by omega)
          simp only [Function.comp_apply, Bool.not_eq_true', decide_eq_false_iff_not, not_not] at hused
          exact absurd (by convert hused using 1; omega) hunused
        · exact hleast ⟨hunused, min lo (hi + 1) + j - (hi + 1), by omega⟩

theorem getNextChannelNumber_not_mem (used : List ℕ) (spec : NumberSpec) :
    getNextChannelNumber used spec ∉ used :=
  (getNextChannelNumber_isLeast used spec).1.1

/-- A range is left only when every slot inside is taken. -/
theorem getNextChannelNumber_range_le {used : List ℕ} {lo hi m : ℕ} (hlo : lo ≤ m) (hhi : m ≤ hi)
    (hfree : 10 * m ∉ used) : getNextChannelNumber used (.range lo hi) ≤ 10 * m :=
  (getNextChannelNumber_isLeast used (.range lo hi)).2
    ⟨hfree, m - lo, by simp only [NumberSpec.start, NumberSpec.step]; omega⟩

end ChannelManager.Pipeline
