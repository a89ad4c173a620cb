import ChannelManager.Lib.Dict

/-!
# Grouping by a key

The entries of a list that have a key, gathered under it in the order they come in.
-/

namespace ChannelManager

variable {α κ : Type} [DecidableEq κ]

/-- Put an entry under its key. -/
def addToGroup (key : α → Option κ) (groups : Dict κ (List α)) (a : α) : Dict κ (List α) :=
  match key a with
  | none => groups
  | some k => groups.set k ((groups.get? k).getD [] ++ [a])

def groupedBy (key : α → Option κ) (l : List α) : Dict κ (List α) := l.foldl (addToGroup key) ∅

section Grouped

variable {key : α → Option κ} {l : List α}

/-- A key has the entries of it, if there are any. -/
theorem get?_groupedBy (k : κ) : (groupedBy key l).get? k =
    if l.filter (key · = some k) = [] then none else some (l.filter (key · = some k)) := by
  induction l using List.reverseRecOn with
  | nil => rfl
  | append_singleton l a ih =>
    rw [groupedBy, List.foldl_append, List.foldl_cons, List.foldl_nil, ← groupedBy, addToGroup,
      List.filter_append]
    cases hkey : key a with
    | none => simpa [hkey] using ih
    | some k' =>
      by_cases hk : k' = k
      · subst hk
        rw [Dict.get?_set_self, ih]
        split_ifs <;> simp_all
      · simp only [Dict.get?_set_ne _ _ hk, ih]
        simp [hkey, hk]

theorem getD_groupedBy (k : κ) : ((groupedBy key l).get? k).getD [] = l.filter (key · = some k) := by
  rw [get?_groupedBy]
  split_ifs with hnil
  · exact hnil.symm
  · rfl

theorem mem_groupedBy {k : κ} : k ∈ groupedBy key l ↔ ∃ a ∈ l, key a = some k := by
  rw [← Dict.isSome_get?, get?_groupedBy]
  split_ifs with hnil
  · simpa using List.filter_eq_nil_iff.mp hnil
  · obtain ⟨a, ha⟩ := List.exists_mem_of_ne_nil _ hnil
    obtain ⟨hmem, hkey⟩ := List.mem_filter.mp ha
    simpa using ⟨a, hmem, of_decide_eq_true hkey⟩

/-- The groups of distinct keys that cover a list are the list in another order. -/
theorem flatMap_filter_perm {ks : List κ} (hnodup : ks.Nodup)
    (hcover : ∀ a ∈ l, ∃ k ∈ ks, key a = some k) :
    (ks.flatMap fun k => l.filter (key · = some k)).Perm l := by
  induction ks generalizing l with
  | nil =>
    obtain rfl : l = [] := List.eq_nil_iff_forall_not_mem.mpr fun a ha => by simpa using hcover a ha
    exact List.Perm.refl []
  | cons k ks ih =>
    obtain ⟨hk, hnodup⟩ := List.nodup_cons.mp hnodup
    have hrest : (ks.flatMap fun k' => l.filter (key · = some k')) =
        ks.flatMap fun k' => (l.filter (key · ≠ some k)).filter (key · = some k') := by
      refine List.flatMap_congr fun k' hk' => ?_
      rw [List.filter_filter]
      refine List.filter_congr fun a _ => ?_
      have hne : k' ≠ k := fun h => hk (h ▸ hk')
      grind
    have hcovered : ∀ a ∈ l.filter (key · ≠ some k), ∃ k' ∈ ks, key a = some k' := by
      intro a ha
      obtain ⟨hmem, hne⟩ := List.mem_filter.mp ha
      obtain ⟨k', hk', hkey⟩ := hcover a hmem
      obtain rfl | hk' := List.mem_cons.mp hk'
      · exact absurd hkey (of_decide_eq_true hne)
      · exact ⟨k', hk', hkey⟩
    rw [List.flatMap_cons, hrest]
    refine ((ih hnodup hcovered).append_left _).trans ?_
    simpa using List.filter_append_perm (fun a => decide (key a = some k)) l

end Grouped

end ChannelManager
