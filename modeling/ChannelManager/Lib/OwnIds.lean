import Mathlib.Data.List.Dedup
import Mathlib.Data.List.Pairwise

/-!
# Entries with ids of their own

A list whose entries may carry an id, and in which no id is carried twice.
-/

namespace ChannelManager

variable {α κ : Type} {id : α → Option κ} {l : List α}

/-- Two entries do not share an id. -/
theorem pairwise_of_ids (h : (l.filterMap id).Nodup) :
    l.Pairwise fun a b => ∀ k, id a = some k → id b ≠ some k := by
  apply (List.pairwise_filterMap.mp h).imp
  intro a b hne k ha hb
  exact hne k ha k hb rfl

theorem eq_of_id (h : (l.filterMap id).Nodup) {a b : α} {k : κ} (ha : a ∈ l) (hb : b ∈ l)
    (hka : id a = some k) (hkb : id b = some k) : a = b := by
  by_contra hne
  have : Std.Symm fun a b => ∀ k, id a = some k → id b ≠ some k :=
    ⟨fun _ _ hab k hb ha => hab k ha hb⟩
  exact (pairwise_of_ids h).forall ha hb hne k hka hkb

/-- There are as many ids as entries exactly when every entry carries one of its own. -/
theorem length_dedup_ids [DecidableEq κ] :
    (l.filterMap id).dedup.length = l.length ↔
      (∀ a ∈ l, id a ≠ none) ∧ (l.filterMap id).Nodup := by
  have hids : (l.filterMap id).length ≤ l.length := List.length_filterMap_le id l
  have hdistinct : (l.filterMap id).dedup.length ≤ (l.filterMap id).length :=
    (List.dedup_sublist _).length_le
  constructor
  · intro h
    have hall : (l.filterMap id).length = l.length := by omega
    have hself : (l.filterMap id).dedup = l.filterMap id :=
      (List.dedup_sublist _).eq_of_length (by omega)
    refine ⟨fun a ha hnone => ?_, hself ▸ List.nodup_dedup _⟩
    have hsome := List.filterMap_length_eq_length.mp hall a ha
    rw [hnone] at hsome
    cases hsome
  · rintro ⟨hsome, hnodup⟩
    rw [hnodup.dedup]
    exact List.filterMap_length_eq_length.mpr fun a ha => Option.isSome_iff_ne_none.mpr (hsome a ha)

/-- A list of what each entry has, the first entry's before the others'. -/
theorem filterMap_cons_toList (f : α → Option κ) (a : α) (as : List α) :
    (a :: as).filterMap f = (f a).toList ++ as.filterMap f := by
  cases h : f a with
  | none => rw [List.filterMap_cons_none h]; rfl
  | some b => rw [List.filterMap_cons_some h]; rfl

end ChannelManager
