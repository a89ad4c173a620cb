import Mathlib.Data.List.Basic

/-!
# At every point of a run

A run is a list of steps, and a crash stops it after any of them. What holds at every point is what holds
of the first state and, after the first step, at every point of the rest.
-/

namespace ChannelManager

section EveryPoint

variable {σ α : Type} (step : σ → α → σ) (P : σ → Prop)

/-- The property holds before the run, after it and between any two of its steps. -/
def EveryPoint : σ → List α → Prop
  | s, [] => P s
  | s, a :: rest => P s ∧ EveryPoint (step s a) rest

variable {step P} {s : σ}

theorem EveryPoint.first {run : List α} (h : EveryPoint step P s run) : P s := by
  cases run with
  | nil => exact h
  | cons a rest => exact h.1

theorem everyPoint_iff {run : List α} :
    EveryPoint step P s run ↔ ∀ done, done <+: run → P (done.foldl step s) := by
  induction run generalizing s with
  | nil => simp [EveryPoint]
  | cons a rest ih =>
    rw [EveryPoint, ih]
    constructor
    · rintro ⟨hfirst, hrest⟩ done hdone
      obtain rfl | ⟨tail, rfl, htail⟩ := List.prefix_cons_iff.mp hdone
      · exact hfirst
      · exact hrest tail htail
    · intro h
      exact ⟨h [] List.nil_prefix, fun done hdone => h (a :: done) (List.prefix_cons_inj a |>.mpr hdone)⟩

/-- A run in two parts. -/
theorem everyPoint_append {run rest : List α} : EveryPoint step P s (run ++ rest) ↔
    EveryPoint step P s run ∧ EveryPoint step P (run.foldl step s) rest := by
  induction run generalizing s with
  | nil => exact ⟨fun h => ⟨h.first, h⟩, And.right⟩
  | cons a run ih =>
    rw [List.cons_append, EveryPoint, EveryPoint, ih, List.foldl_cons, and_assoc]

end EveryPoint

/-- A run of rounds is cut off between two rounds or within one. -/
theorem prefix_flatMap {α β : Type} {f : α → List β} {rounds : List α} {done : List β}
    (h : done <+: rounds.flatMap f) :
    done = rounds.flatMap f ∨ ∃ finished round rest part, rounds = finished ++ round :: rest ∧
      done = finished.flatMap f ++ part ∧ part <+: f round ∧ part ≠ f round := by
  induction rounds generalizing done with
  | nil => exact .inl (List.prefix_nil.mp h)
  | cons round rounds ih =>
    rw [List.flatMap_cons] at h ⊢
    have hlater : ∀ part, part <+: rounds.flatMap f → f round ++ part = f round ++ rounds.flatMap f ∨
        ∃ finished later rest part', round :: rounds = finished ++ later :: rest ∧
          f round ++ part = finished.flatMap f ++ part' ∧ part' <+: f later ∧ part' ≠ f later := by
      intro part hpart
      obtain rfl | ⟨finished, later, rest, part', hrounds, hsplit, hpart', hne⟩ := ih hpart
      · exact .inl rfl
      · refine .inr ⟨round :: finished, later, rest, part', by rw [hrounds]; rfl, ?_, hpart', hne⟩
        rw [hsplit, List.flatMap_cons, List.append_assoc]
    obtain hwithin | ⟨part, rfl⟩ := List.prefix_or_prefix_of_prefix h (List.prefix_append _ _)
    · by_cases hwhole : done = f round
      · have hnext := hlater [] List.nil_prefix
        rw [List.append_nil] at hnext
        exact hwhole ▸ hnext
      · exact .inr ⟨[], round, rounds, done, rfl, rfl, hwithin, hwhole⟩
    · exact hlater part ((List.prefix_append_right_inj _).mp h)

end ChannelManager
