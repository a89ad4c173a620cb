import ChannelManager.Lib.SortOn

/-!
# Sorting where a key or a comparison may raise

The keys of all entries come first, and the entries are put in order by comparing these. Where no key
raises and the keys compare as in a linear order, this is the sort by the place of the key in it.
-/

namespace ChannelManager

section RaisingSort

variable {ε κ κ' α : Type} (less : κ → κ → Except ε Bool)

/-- An entry comes before those its key is not greater than. -/
def insertRaising (e : κ × α) : List (κ × α) → Except ε (List (κ × α))
  | [] => .ok [e]
  | e' :: l => do
    if ← less e'.1 e.1 then
      return e' :: (← insertRaising e l)
    else
      return e :: e' :: l

def sortRaising (key : α → Except ε κ) (l : List α) : Except ε (List α) := do
  let keyed ← l.mapM fun a => do return (← key a, a)
  let sorted ← keyed.foldrM (insertRaising less) []
  return sorted.map Prod.snd

variable {less} {key : α → Except ε κ} {keyOf : α → κ} {l : List α}

theorem mapM_eq_ok {β : Type} {f : α → Except ε β} {g : α → β} (h : ∀ a ∈ l, f a = .ok (g a)) :
    l.mapM f = .ok (l.map g) := by
  induction l with
  | nil => rfl
  | cons a l ih =>
    rw [List.forall_mem_cons] at h
    rw [List.mapM_cons, h.1, ih h.2]
    rfl

theorem forall_of_mapM {β : Type} {f : α → Except ε β} {bs : List β} (h : l.mapM f = .ok bs) :
    ∀ a ∈ l, ∃ b, f a = .ok b := by
  induction l generalizing bs with
  | nil => simp
  | cons a l ih =>
    rw [List.mapM_cons] at h
    cases ha : f a with
    | error e => rw [ha] at h; cases h
    | ok b =>
      cases hl : l.mapM f with
      | error e => rw [ha, hl] at h; cases h
      | ok bs' => exact List.forall_mem_cons.mpr ⟨⟨b, ha⟩, ih hl⟩

variable [LinearOrder κ'] {rank : κ → κ'}

theorem insertRaising_eq {a : α} {m : List α}
    (hless : ∀ b ∈ m, less (keyOf b) (keyOf a) = .ok (decide (rank (keyOf b) < rank (keyOf a)))) :
    insertRaising less (keyOf a, a) (m.map fun b => (keyOf b, b)) =
      .ok ((m.orderedInsert (fun a b => rank (keyOf a) ≤ rank (keyOf b)) a).map fun b => (keyOf b, b)) := by
  induction m with
  | nil => rfl
  | cons b m ih =>
    rw [List.forall_mem_cons] at hless
    rw [List.map_cons, insertRaising, hless.1, List.orderedInsert_cons]
    by_cases hlt : rank (keyOf b) < rank (keyOf a)
    · rw [if_neg hlt.not_ge, decide_eq_true hlt, ih hless.2]
      rfl
    · rw [if_pos (not_lt.mp hlt), decide_eq_false hlt]
      rfl

variable (keyOf rank) in
theorem sortRaising_eq (hkey : ∀ a ∈ l, key a = .ok (keyOf a))
    (hless : ∀ a ∈ l, ∀ b ∈ l,
      less (keyOf a) (keyOf b) = .ok (decide (rank (keyOf a) < rank (keyOf b)))) :
    sortRaising less key l = .ok (sortedOn (fun a => rank (keyOf a)) l) := by
  have hkeyed : l.mapM (fun a => do return (← key a, a)) = .ok (l.map fun a => (keyOf a, a)) := by
    refine mapM_eq_ok fun a ha => ?_
    rw [hkey a ha]
    rfl
  have hsorted : ∀ m ⊆ l, (m.map fun a => (keyOf a, a)).foldrM (insertRaising less) [] =
      .ok ((sortedOn (fun a => rank (keyOf a)) m).map fun a => (keyOf a, a)) := by
    intro m hm
    induction m with
    | nil => rfl
    | cons a m ih =>
      rw [List.cons_subset] at hm
      rw [List.map_cons, List.foldrM_cons, ih hm.2]
      exact insertRaising_eq fun b hb => hless b (hm.2 (mem_sortedOn.mp hb)) a hm.1
  rw [sortRaising, hkeyed]
  change (do let sorted ← (l.map fun a => (keyOf a, a)).foldrM (insertRaising less) []
             return sorted.map Prod.snd) = _
  rw [hsorted l (List.Subset.refl l)]
  change Except.ok _ = _
  rw [List.map_map]
  congr 1
  exact List.map_id _

end RaisingSort

end ChannelManager
