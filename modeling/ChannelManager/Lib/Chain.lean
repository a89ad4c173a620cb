import Mathlib.Data.List.Induction

/-!
# Logs that chain

A log of rows is read from a starting state: each row says something of the state it was written
in, and what it did to it. The log chains when every row is true of what the earlier ones made.
-/

namespace ChannelManager

variable {σ ρ : Type}

/-- Every row follows from what the earlier ones make of the start. -/
def Chained (apply : σ → ρ → σ) (follows : σ → ρ → Prop) : σ → List ρ → Prop
  | _, [] => True
  | s, row :: rows => follows s row ∧ Chained apply follows (apply s row) rows

section Chained

variable {apply : σ → ρ → σ} {follows : σ → ρ → Prop}

@[simp] theorem chained_nil (s : σ) : Chained apply follows s [] := trivial

@[simp] theorem chained_cons (s : σ) (row : ρ) (rows : List ρ) :
    Chained apply follows s (row :: rows) ↔
      follows s row ∧ Chained apply follows (apply s row) rows := Iff.rfl

theorem chained_append (s : σ) (rows rows' : List ρ) :
    Chained apply follows s (rows ++ rows') ↔
      Chained apply follows s rows ∧ Chained apply follows (rows.foldl apply s) rows' := by
  induction rows generalizing s with
  | nil => simp
  | cons row rows ih =>
    rw [List.cons_append, chained_cons, chained_cons, ih, List.foldl_cons, and_assoc]

end Chained

/-- Every place in a log but the last, and the last. -/
theorem forall_split_concat {P : List ρ → ρ → Prop} {rows : List ρ} {row : ρ} :
    (∀ earlier x later, rows ++ [row] = earlier ++ x :: later → P earlier x) ↔
      (∀ earlier x later, rows = earlier ++ x :: later → P earlier x) ∧ P rows row := by
  constructor
  · intro h
    exact ⟨fun earlier x later heq => h earlier x (later ++ [row]) (by simp [heq]),
      h rows row [] rfl⟩
  · rintro ⟨h, hlast⟩ earlier x later heq
    induction later using List.reverseRecOn with
    | nil =>
      obtain ⟨rfl, hrow⟩ := List.append_inj' heq rfl
      rw [← List.singleton_inj.mp hrow]
      exact hlast
    | append_singleton later y _ =>
      have hcons : earlier ++ x :: (later ++ [y]) = (earlier ++ x :: later) ++ [y] := by simp
      rw [hcons] at heq
      exact h earlier x later (List.append_inj' heq rfl).1

end ChannelManager
