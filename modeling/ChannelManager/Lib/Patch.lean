import Mathlib.Data.List.Basic
import ChannelManager.Lib.Dict

/-!
# Patches of records

A record gives every field a value of the field's own type; a patch gives some fields a new one. An
undo log is a list of patches, each of which says what the fields were that were about to be
overwritten: replayed from its end, it gives a field what its first entry for the field says.
-/

namespace ChannelManager

/-- New values for some of the fields. -/
def Patch {ι : Type} (V : ι → Type) : Type := (f : ι) → Option (V f)

namespace Patch

variable {ι : Type} {V : ι → Type}

/-- The record with the patch written over it. -/
def apply (p : Patch V) (r : (f : ι) → V f) : (f : ι) → V f := fun f => (p f).getD (r f)

/-- A new value for one field. -/
def single [DecidableEq ι] (f : ι) (v : V f) : Patch V := fun g =>
  if h : f = g then some (h ▸ v) else none

/-- What a record says of some fields. -/
def keep [DecidableEq ι] (fields : List ι) (r : (f : ι) → V f) : Patch V := fun f =>
  if f ∈ fields then some (r f) else none

/-- One patch, and another where it is silent. -/
def orElse (p q : Patch V) : Patch V := fun f => (p f).or (q f)

/-- Replay an undo log, its last entry first. -/
def undo (log : List (Patch V)) (r : (f : ι) → V f) : (f : ι) → V f := log.foldr apply r

@[simp] theorem apply_apply (p : Patch V) (r : (f : ι) → V f) (f : ι) :
    p.apply r f = (p f).getD (r f) := rfl

@[simp] theorem single_self [DecidableEq ι] (f : ι) (v : V f) : single f v f = some v := by
  simp [single]

theorem single_ne [DecidableEq ι] {f g : ι} (v : V f) (h : f ≠ g) : single f v g = none := by
  simp [single, h]

theorem keep_eq_some [DecidableEq ι] {fields : List ι} {r : (f : ι) → V f} {f : ι} {v : V f} :
    keep fields r f = some v ↔ f ∈ fields ∧ r f = v := by
  by_cases h : f ∈ fields
  · simp [keep, h]
  · simp [keep, h]

/-- The first entry for a field decides. -/
theorem undo_apply (log : List (Patch V)) (r : (f : ι) → V f) (f : ι) :
    undo log r f = (log.findSome? (· f)).getD (r f) := by
  induction log with
  | nil => rfl
  | cons p log ih =>
    have hstep : undo (p :: log) r f = (p f).getD (undo log r f) := rfl
    rw [hstep, List.findSome?_cons, ih]
    cases p f <;> rfl

end Patch

end ChannelManager
