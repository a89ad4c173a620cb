import Mathlib.Data.List.Induction
import Mathlib.Data.Prod.Lex

/-!
# The least entry of a list

A loop that keeps the least key of the entries it admits, and answers that name an admitted entry of
the least key. A first choice among some of the entries and a second among all of them is one choice
that prefers the first. What is picked does not depend on the order of the list.
-/

namespace ChannelManager

variable {α ι ι' κ κ' : Type} [LinearOrder κ] [LinearOrder κ']

/-- One round of a loop that keeps the least key. -/
def keepLeast (key : α → κ) (admits : α → Bool) (best : Option κ) (a : α) : Option κ :=
  if admits a && best.all (key a < ·) then some (key a) else best

/-- An answer is of an admitted entry of the least key, and there is one when an entry is admitted. -/
structure Picks (l : List α) (admits : α → Bool) (key : α → κ) (id : α → ι) (answer : Option ι) :
    Prop where
  winner : ∀ i, answer = some i →
    ∃ a ∈ l, admits a = true ∧ id a = i ∧ ∀ b ∈ l, admits b = true → key a ≤ key b
  none : answer = none → ∀ a ∈ l, admits a = false

variable {l l' : List α} {admits : α → Bool} {key : α → κ} {id : α → ι} {answer : Option ι}

theorem picks_foldl (key : α → κ) (admits : α → Bool) (l : List α) :
    Picks l admits key key (l.foldl (keepLeast key admits) none) := by
  induction l using List.reverseRecOn with
  | nil => exact ⟨nofun, fun _ a ha => absurd ha List.not_mem_nil⟩
  | append_singleton l a ih =>
    rw [List.foldl_append, List.foldl_cons, List.foldl_nil]
    generalize l.foldl (keepLeast key admits) none = best at ih
    unfold keepLeast
    cases ha : admits a with
    | false =>
      constructor
      · intro k hk
        obtain ⟨b, hb, hadmits, hkey, hleast⟩ := ih.winner k hk
        refine ⟨b, List.mem_append_left _ hb, hadmits, hkey, fun c hc hcadmits => ?_⟩
        rcases List.mem_append.mp hc with hc | hc
        · exact hleast c hc hcadmits
        · rw [List.mem_singleton.mp hc, ha] at hcadmits
          cases hcadmits
      · intro hnone b hb
        rcases List.mem_append.mp hb with hb | hb
        · exact ih.none hnone b hb
        · rw [List.mem_singleton.mp hb, ha]
    | true =>
      cases best with
      | none =>
        refine ⟨fun k hk => ?_, nofun⟩
        refine ⟨a, List.mem_append_right _ (List.mem_singleton_self _), ha,
          Option.some.inj hk, fun b hb hadmits => ?_⟩
        rcases List.mem_append.mp hb with hb | hb
        · rw [ih.none rfl b hb] at hadmits
          cases hadmits
        · rw [List.mem_singleton.mp hb]
      | some best =>
        obtain ⟨b, hb, hadmits, rfl, hleast⟩ := ih.winner best rfl
        simp only [Bool.true_and, Option.all_some, decide_eq_true_eq]
        refine ⟨fun k hk => ?_, fun hnone => ?_⟩
        · split at hk
          next hlt =>
            refine ⟨a, List.mem_append_right _ (List.mem_singleton_self _), ha,
              Option.some.inj hk, fun c hc hcadmits => ?_⟩
            rcases List.mem_append.mp hc with hc | hc
            · exact hlt.le.trans (hleast c hc hcadmits)
            · rw [List.mem_singleton.mp hc]
          next hle =>
            refine ⟨b, List.mem_append_left _ hb, hadmits, Option.some.inj hk,
              fun c hc hcadmits => ?_⟩
            rcases List.mem_append.mp hc with hc | hc
            · exact hleast c hc hcadmits
            · rw [List.mem_singleton.mp hc]
              exact not_lt.mp hle
        · split at hnone <;> cases hnone

/-- One round of a loop that keeps the entry itself. -/
def keepLeastEntry (key : α → κ) (admits : α → Bool) (best : Option α) (a : α) : Option α :=
  if admits a && best.all (key a < key ·) then some a else best

theorem map_keepLeastEntry (key : α → κ) (admits : α → Bool) (l : List α) (best : Option α) :
    (l.foldl (keepLeastEntry key admits) best).map key =
      l.foldl (keepLeast key admits) (best.map key) := by
  induction l generalizing best with
  | nil => rfl
  | cons a l ih =>
    rw [List.foldl_cons, List.foldl_cons, ih]
    congr 1
    rw [keepLeastEntry, keepLeast, Option.all_map]
    split <;> rfl

theorem picks_foldl_entry (key : α → κ) (admits : α → Bool) (l : List α) :
    Picks l admits key (fun a => a) (l.foldl (keepLeastEntry key admits) none) := by
  have hpicks := picks_foldl key admits l
  have hkey := map_keepLeastEntry key admits l none
  rw [Option.map_none] at hkey
  rw [← hkey] at hpicks
  have hfrom : ∀ a, l.foldl (keepLeastEntry key admits) none = some a →
      a ∈ l ∧ admits a = true := by
    clear hpicks hkey
    induction l using List.reverseRecOn with
    | nil => nofun
    | append_singleton l b ih =>
      intro a ha
      rw [List.foldl_append, List.foldl_cons, List.foldl_nil, keepLeastEntry] at ha
      split at ha
      next htaken =>
        obtain rfl := Option.some.inj ha
        exact ⟨List.mem_append_right _ (List.mem_singleton_self _), (Bool.and_eq_true_iff.mp htaken).1⟩
      next =>
        obtain ⟨hmem, hadmits⟩ := ih a ha
        exact ⟨List.mem_append_left _ hmem, hadmits⟩
  refine ⟨fun a ha => ?_, fun hnone => hpicks.none (by rw [hnone, Option.map_none])⟩
  obtain ⟨hmem, hadmits⟩ := hfrom a ha
  obtain ⟨b, -, -, hb, hleast⟩ := hpicks.winner (key a) (by rw [ha, Option.map_some])
  exact ⟨a, hmem, hadmits, rfl, fun c hc hc' => hb ▸ hleast c hc hc'⟩

namespace Picks

theorem isSome_iff (h : Picks l admits key id answer) :
    answer.isSome = true ↔ ∃ a ∈ l, admits a = true := by
  cases answer with
  | none =>
    refine iff_of_false Bool.false_ne_true ?_
    rintro ⟨a, ha, hadmits⟩
    rw [h.none rfl a ha] at hadmits
    cases hadmits
  | some i =>
    obtain ⟨a, ha, hadmits, -⟩ := h.winner i rfl
    exact iff_of_true rfl ⟨a, ha, hadmits⟩

theorem map (h : Picks l admits key id answer) (f : ι → ι') :
    Picks l admits key (fun a => f (id a)) (answer.map f) where
  winner i hi := by
    obtain ⟨j, hj, rfl⟩ := Option.map_eq_some_iff.mp hi
    obtain ⟨a, ha, hadmits, rfl, hleast⟩ := h.winner j hj
    exact ⟨a, ha, hadmits, rfl, hleast⟩
  none hnone := h.none (Option.map_eq_none_iff.mp hnone)

/-- The entries may be told by another key that orders them the same. -/
theorem of_le (h : Picks l admits key id answer) {key' : α → κ'}
    (hkey : ∀ a b, key a ≤ key b → key' a ≤ key' b) : Picks l admits key' id answer where
  winner i hi := by
    obtain ⟨a, ha, hadmits, hid, hleast⟩ := h.winner i hi
    exact ⟨a, ha, hadmits, hid, fun b hb hb' => hkey a b (hleast b hb hb')⟩
  none := h.none

theorem of_admits (h : Picks l admits key id answer) {admits' : α → Bool}
    (hadmits : ∀ a, admits' a = admits a) : Picks l admits' key id answer := by
  obtain rfl : admits' = admits := funext hadmits
  exact h

/-- A choice among some of the entries, or else among all of them, prefers the former. -/
theorem or {first : α → Bool} {other : Option ι}
    (h : Picks l (fun a => admits a && first a) key id answer) (h' : Picks l admits key id other) :
    Picks l admits (fun a => toLex (!first a, key a)) id (answer.or other) where
  winner i hi := by
    rcases Option.or_eq_some_iff.mp hi with hfirst | ⟨hnone, hother⟩
    · obtain ⟨a, ha, hadmits, hid, hleast⟩ := h.winner i hfirst
      rw [Bool.and_eq_true] at hadmits
      refine ⟨a, ha, hadmits.1, hid, fun b hb hb' => ?_⟩
      rw [Prod.Lex.toLex_le_toLex]
      cases hpreferred : first b with
      | false => exact .inl (by simp [hadmits.2])
      | true => exact .inr ⟨by simp [hadmits.2], hleast b hb (by simp [hb', hpreferred])⟩
    · obtain ⟨a, ha, hadmits, hid, hleast⟩ := h'.winner i hother
      have hlast : ∀ b ∈ l, admits b = true → first b = false := by
        intro b hb hb'
        have hrefused := h.none hnone b hb
        rwa [hb', Bool.true_and] at hrefused
      refine ⟨a, ha, hadmits, hid, fun b hb hb' => ?_⟩
      rw [Prod.Lex.toLex_le_toLex, hlast a ha hadmits, hlast b hb hb']
      exact .inr ⟨rfl, hleast b hb hb'⟩
  none hnone := h'.none (Option.or_eq_none_iff.mp hnone).2

/-- Lists of the same entries have one answer when keys tell ids. -/
theorem eq_of_mem_iff (h : Picks l admits key id answer) {answer' : Option ι}
    (h' : Picks l' admits key id answer') (hmem : ∀ a, a ∈ l ↔ a ∈ l')
    (hkey : ∀ a ∈ l, ∀ b ∈ l, key a = key b → id a = id b) : answer = answer' := by
  have hsome : answer.isSome = true ↔ answer'.isSome = true := by
    rw [h.isSome_iff, h'.isSome_iff]
    exact exists_congr fun a => and_congr_left fun _ => hmem a
  cases hanswer : answer with
  | none =>
    rw [hanswer] at hsome
    exact (Option.not_isSome_iff_eq_none.mp fun hthere => by cases hsome.mpr hthere).symm
  | some i =>
    rw [hanswer] at hsome
    obtain ⟨i', hanswer'⟩ := Option.isSome_iff_exists.mp (hsome.mp rfl)
    obtain ⟨a, ha, hadmits, rfl, hleast⟩ := h.winner i hanswer
    obtain ⟨a', ha', hadmits', rfl, hleast'⟩ := h'.winner i' hanswer'
    have hle := hleast a' ((hmem a').mpr ha') hadmits'
    have hge := hleast' a ((hmem a).mp ha) hadmits
    rw [hanswer', hkey a ha a' ((hmem a').mpr ha') (le_antisymm hle hge)]

end Picks

end ChannelManager
