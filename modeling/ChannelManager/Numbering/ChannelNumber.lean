import Mathlib.Algebra.Order.Round
import Mathlib.Data.Rat.Floor
import Mathlib.Tactic.Linarith
import Mathlib.Tactic.NormNum
import Mathlib.Tactic.Positivity

/-!
# The channel-number contract

A channel number is a non-negative number with at most one decimal place; `none` stands for
"unassigned". A finite float is an exact rational, so numbers are rationals here. Two numbers
are the same channel number when they occupy the same slot: the nearest tenth below `2 ^ 53`,
the number itself from there up.
-/

namespace ChannelManager

/-- One tick per tenth. -/
def channelNumberTicksPerUnit : ℚ := 10

/-- From here up every float is an exact integer. -/
def exactIntegerFloor : ℚ := 2 ^ 53

/-- How far a scaled number may lie from a whole tick. -/
def tenthTolerance : ℚ := 1 / 10 ^ 9

/-- Python's `round`: the nearest integer, the even one of two. -/
def roundHalfEven (q : ℚ) : ℤ :=
  if q - ⌊q⌋ < 1 / 2 then ⌊q⌋
  else if 1 / 2 < q - ⌊q⌋ then ⌊q⌋ + 1
  else if ⌊q⌋ % 2 = 0 then ⌊q⌋ else ⌊q⌋ + 1

/-- `is_valid_channel_number` on a finite number. -/
def isValidChannelNumber (value : ℚ) : Bool :=
  decide (0 ≤ value) &&
    (decide (exactIntegerFloor ≤ value) ||
      decide (|value * channelNumberTicksPerUnit -
        roundHalfEven (value * channelNumberTicksPerUnit)| ≤ tenthTolerance))

/-- The slot a number occupies; the two regimes cannot collide. -/
inductive SlotKey where
  | tick (n : ℤ)
  | exact (q : ℚ)
deriving DecidableEq

/-- `_slot_key` of `channel_number_plan.py` and `channel_number_apply.py`. -/
def slotKey (value : ℚ) : SlotKey :=
  if exactIntegerFloor ≤ |value| then .exact value
  else .tick (roundHalfEven (value * channelNumberTicksPerUnit))

/-- `_same_number` and `same_channel_number`: unassigned is the same as nothing. -/
def sameChannelNumber : Option ℚ → Option ℚ → Bool
  | some a, some b => slotKey a = slotKey b
  | _, _ => false

/-- `_same_channel_number_or_both_unset`. -/
def sameChannelNumberOrBothUnset : Option ℚ → Option ℚ → Bool
  | none, none => true
  | a, b => sameChannelNumber a b

/-- Whether going from one number to another changes anything: the rule that
`_Placement.moved` and `NumberingWrite.moves` share. -/
def numberMoves : Option ℚ → Option ℚ → Bool
  | none, none => false
  | some a, some b => !sameChannelNumber (some a) (some b)
  | _, _ => true

@[simp] theorem sameChannelNumber_some (a b : ℚ) :
    sameChannelNumber (some a) (some b) = decide (slotKey a = slotKey b) := rfl

@[simp] theorem numberMoves_self (n : Option ℚ) : numberMoves n n = false := by
  cases n <;> simp [numberMoves]

theorem roundHalfEven_near (q : ℚ) : |(roundHalfEven q : ℚ) - q| ≤ 1 / 2 := by
  have hlow := Int.floor_le q
  have hhigh := Int.lt_floor_add_one q
  unfold roundHalfEven
  rw [abs_le]
  split_ifs <;> push_cast <;> constructor <;> linarith

theorem roundHalfEven_intCast (n : ℤ) : roundHalfEven n = n := by
  simp [roundHalfEven]

/-- Numbers at least one apart occupy different slots. -/
theorem slotKey_ne_of_one_le {a b : ℚ} (h : a + 1 ≤ b) : slotKey a ≠ slotKey b := by
  unfold slotKey
  split_ifs <;> simp only [ne_eq, SlotKey.exact.injEq, SlotKey.tick.injEq, reduceCtorEq,
    not_false_eq_true]
  · intro heq
    linarith
  · intro heq
    have ha := abs_le.mp (roundHalfEven_near (a * channelNumberTicksPerUnit))
    have hb := abs_le.mp (roundHalfEven_near (b * channelNumberTicksPerUnit))
    rw [heq] at ha
    unfold channelNumberTicksPerUnit at ha hb
    linarith [ha.1, ha.2, hb.1, hb.2]

/-- A number on the tenths grid. -/
def IsTenths (q : ℚ) : Prop := ∃ k : ℤ, q * 10 = k

instance (q : ℚ) : Decidable (IsTenths q) :=
  decidable_of_iff (((⌊q * 10⌋ : ℤ) : ℚ) = q * 10) ⟨fun h => ⟨⌊q * 10⌋, h.symm⟩, by
    rintro ⟨k, hk⟩
    rw [hk, Int.floor_intCast]⟩

example : slotKey (51 / 10) = .tick 51 ∧ slotKey (2 ^ 53) = .exact (2 ^ 53) := by decide +kernel

end ChannelManager
