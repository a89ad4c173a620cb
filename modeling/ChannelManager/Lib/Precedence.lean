import Mathlib.Data.List.Chain

/-!
# Schedules and what their items wait for

A schedule is a list of items, and `waits a b` says that `a` should come after `b`. The items that
come too early are listed; a schedule without any is a linear extension, and then there is no cycle
of waiting items.
-/

namespace ChannelManager

variable {α : Type} {waits : α → α → Prop}

section Early

variable [DecidableRel waits]

/-- The items scheduled while one they wait for is still to come, in schedule order. -/
def early (waits : α → α → Prop) [DecidableRel waits] : List α → List α
  | [] => []
  | a :: rest => if ∃ b ∈ rest, waits a b then a :: early waits rest else early waits rest

/-- Items that wait for nothing still to come are not early. -/
theorem early_append {ready rest : List α} (h : ∀ a ∈ ready, ∀ b ∈ ready ++ rest, ¬waits a b) :
    early waits (ready ++ rest) = early waits rest := by
  induction ready with
  | nil => rfl
  | cons a ready ih =>
    have hfree : ¬∃ b ∈ ready ++ rest, waits a b := by
      intro ⟨b, hb, hw⟩
      exact h a List.mem_cons_self b (List.mem_cons_of_mem a hb) hw
    rw [List.cons_append, early, if_neg hfree]
    exact ih fun c hc b hb => h c (List.mem_cons_of_mem a hc) b (List.mem_cons_of_mem a hb)

theorem early_eq_nil_iff {items : List α} :
    early waits items = [] ↔ items.Pairwise fun a b => ¬waits a b := by
  induction items with
  | nil => simp [early]
  | cons a rest ih =>
    rw [List.pairwise_cons, ← ih, early]
    by_cases h : ∃ b ∈ rest, waits a b
    · rw [if_pos h]
      simpa using fun hnone => absurd h (by simpa using hnone)
    · rw [if_neg h]
      simp only [not_exists, not_and] at h
      exact ⟨fun hnil => ⟨h, hnil⟩, fun hboth => hboth.2⟩

end Early

/-- Distinct items, each waiting for the next and the last one for the first. -/
structure IsCycle (waits : α → α → Prop) (cycle : List α) : Prop where
  nonempty : cycle ≠ []
  nodup : cycle.Nodup
  steps : cycle.IsChain waits
  closes : waits (cycle.getLast nonempty) (cycle.head nonempty)

theorem IsCycle.transGen {cycle : List α} (h : IsCycle waits cycle) :
    Relation.TransGen waits (cycle.head h.nonempty) (cycle.head h.nonempty) :=
  Relation.TransGen.tail' (List.relationReflTransGen_of_exists_isChain cycle h.steps h.nonempty)
    h.closes

/-- Every member of a cycle waits for a member. -/
theorem IsCycle.exists_waits {cycle : List α} (h : IsCycle waits cycle) {a : α} (ha : a ∈ cycle) :
    ∃ b ∈ cycle, waits a b := by
  obtain ⟨before, after, hsplit⟩ := List.append_of_mem ha
  cases after with
  | nil =>
    subst hsplit
    have hclose := h.closes
    rw [List.getLast_append_singleton] at hclose
    exact ⟨_, List.head_mem h.nonempty, hclose⟩
  | cons b after =>
    subst hsplit
    have hstep := (List.isChain_split.mp h.steps).2
    exact ⟨b, by simp, (List.isChain_cons_cons.mp hstep).1⟩

/-- In a schedule of all items without an early one, nothing waits for itself, however indirectly. -/
theorem acyclic_of_schedule {items : List α} (hschedule : items.Pairwise fun a b => ¬waits a b)
    (hall : ∀ a b, waits a b → a ∈ items ∧ b ∈ items) (hirrefl : ∀ a, ¬waits a a) (a : α) :
    ¬Relation.TransGen waits a a := by
  classical
  have hbefore : ∀ a b, waits a b → items.idxOf b < items.idxOf a := by
    intro a b hab
    have hmem := hall a b hab
    have ha := List.idxOf_lt_length_iff.mpr hmem.1
    have hb := List.idxOf_lt_length_iff.mpr hmem.2
    by_contra hle
    rcases Nat.lt_or_eq_of_le (Nat.le_of_not_lt hle) with hlt | heq
    · have hno := List.pairwise_iff_getElem.mp hschedule _ _ ha hb hlt
      rw [List.getElem_idxOf, List.getElem_idxOf] at hno
      exact hno hab
    · rw [List.idxOf_inj hmem.1] at heq
      exact hirrefl b (heq ▸ hab)
  have hchain : ∀ a b, Relation.TransGen waits a b → items.idxOf b < items.idxOf a := by
    intro a b hab
    induction hab with
    | single hab => exact hbefore _ _ hab
    | tail _ hbc ih => exact (hbefore _ _ hbc).trans ih
  exact fun hcycle => lt_irrefl _ (hchain a a hcycle)

end ChannelManager
