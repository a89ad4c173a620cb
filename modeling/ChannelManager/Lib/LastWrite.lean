import Mathlib.Data.List.Induction
import Mathlib.Data.List.Nodup

/-!
# The last write of a history

A history is a list of events, each of which may write a value. `lastWrite` is the value written
last together with the position of the event that wrote it.
-/

namespace ChannelManager

variable {α β : Type}

def lastWrite (write : α → Option β) (history : List α) : Option (ℕ × β) :=
  history.zipIdx.foldl (fun last e => ((write e.1).map (e.2, ·)).or last) none

@[simp] theorem lastWrite_nil (write : α → Option β) : lastWrite write [] = none := rfl

/-- Everything else about a last write follows from how one more event extends it. -/
theorem lastWrite_concat (write : α → Option β) (history : List α) (a : α) :
    lastWrite write (history ++ [a]) =
      ((write a).map (history.length, ·)).or (lastWrite write history) := by
  simp [lastWrite, List.zipIdx_append]

theorem lastWrite_append (write : α → Option β) (l l' : List α) :
    lastWrite write (l ++ l') =
      ((lastWrite write l').map fun e => (l.length + e.1, e.2)).or (lastWrite write l) := by
  induction l' using List.reverseRecOn with
  | nil => simp
  | append_singleton l' a ih =>
    rw [← List.append_assoc, lastWrite_concat, lastWrite_concat, ih, List.length_append]
    cases write a <;> simp

theorem lastWrite_eq_none (write : α → Option β) (l : List α) :
    lastWrite write l = none ↔ ∀ a ∈ l, write a = none := by
  induction l using List.reverseRecOn with
  | nil => simp
  | append_singleton l a ih =>
    rw [lastWrite_concat, Option.or_eq_none_iff, ih]
    simp only [Option.map_eq_none_iff, List.mem_append, List.mem_singleton]
    constructor
    · rintro ⟨ha, hl⟩ x (hx | rfl)
      · exact hl x hx
      · exact ha
    · intro h
      exact ⟨h a (.inr rfl), fun x hx => h x (.inl hx)⟩

/-- The last write splits its history: what comes after it writes nothing. -/
theorem lastWrite_eq_some {write : α → Option β} {l : List α} {i : ℕ} {b : β} :
    lastWrite write l = some (i, b) ↔
      ∃ pre a post, l = pre ++ a :: post ∧ pre.length = i ∧ write a = some b ∧
        ∀ x ∈ post, write x = none := by
  constructor
  · induction l using List.reverseRecOn with
    | nil => simp
    | append_singleton l a ih =>
      rw [lastWrite_concat]
      cases ha : write a with
      | some b' =>
        simp only [Option.map_some, Option.some_or, Option.some.injEq, Prod.mk.injEq]
        rintro ⟨rfl, rfl⟩
        exact ⟨l, a, [], by simp, rfl, ha, by simp⟩
      | none =>
        simp only [Option.map_none, Option.none_or]
        intro h
        obtain ⟨pre, a', post, rfl, hi, ha', hpost⟩ := ih h
        refine ⟨pre, a', post ++ [a], by simp, hi, ha', ?_⟩
        intro x hx
        rcases List.mem_append.mp hx with hx | hx
        · exact hpost x hx
        · rw [List.mem_singleton.mp hx, ha]
  · rintro ⟨pre, a, post, rfl, rfl, ha, hpost⟩
    have hnone := (lastWrite_eq_none write post).mpr hpost
    rw [List.append_cons, lastWrite_append, hnone, lastWrite_concat, ha]
    simp

theorem lastWrite_isSome {write : α → Option β} {l : List α} :
    (lastWrite write l).isSome ↔ ∃ a ∈ l, (write a).isSome := by
  rw [← not_iff_not, Bool.not_eq_true, Option.isSome_eq_false_iff, Option.isNone_iff_eq_none,
    lastWrite_eq_none]
  simp [Option.isSome_iff_ne_none]

/-- Two writers that agree on every event of a history agree on its last write. -/
theorem lastWrite_congr {write write' : α → Option β} {l : List α}
    (h : ∀ a ∈ l, write a = write' a) : lastWrite write l = lastWrite write' l := by
  induction l using List.reverseRecOn with
  | nil => rfl
  | append_singleton l a ih =>
    rw [lastWrite_concat, lastWrite_concat, h a (by simp), ih fun x hx => h x (by simp [hx])]

theorem lastWrite_map {γ : Type} (write : α → Option β) (g : β → γ) (l : List α) :
    lastWrite (fun a => (write a).map g) l = (lastWrite write l).map fun e => (e.1, g e.2) := by
  induction l using List.reverseRecOn with
  | nil => rfl
  | append_singleton l a ih =>
    rw [lastWrite_concat, lastWrite_concat, ih]
    cases write a <;> simp

/-- A history that only ever writes one value ends with it. -/
theorem lastWrite_of_constant {write : α → Option β} {l : List α} {a : α} {b : β} (ha : a ∈ l)
    (hb : write a = some b) (hconst : ∀ x ∈ l, ∀ y, write x = some y → y = b) :
    (lastWrite write l).map Prod.snd = some b := by
  have hsome : (lastWrite write l).isSome := lastWrite_isSome.mpr ⟨a, ha, by simp [hb]⟩
  obtain ⟨⟨i, y⟩, hy⟩ := Option.isSome_iff_exists.mp hsome
  obtain ⟨pre, x, post, rfl, -, hx, -⟩ := lastWrite_eq_some.mp hy
  rw [hy, Option.map_some, hconst x (by simp) y hx]

/-- Two writers are ordered by any cut of the history after which only the second one writes. -/
theorem lastWrite_lt_of_cut {write write' : α → Option β} {l l' : List α} {i j : ℕ} {b b' : β}
    (hfirst : lastWrite write (l ++ l') = some (i, b))
    (hsecond : lastWrite write' (l ++ l') = some (j, b'))
    (hquiet : ∀ a ∈ l', write a = none) (hloud : ∃ a ∈ l', (write' a).isSome) : i < j := by
  have hi : i < l.length := by
    rw [lastWrite_append, (lastWrite_eq_none write l').mpr hquiet, Option.map_none,
      Option.none_or] at hfirst
    obtain ⟨pre, a, post, rfl, rfl, -, -⟩ := lastWrite_eq_some.mp hfirst
    simp
  have hj : l.length ≤ j := by
    obtain ⟨e, he⟩ := Option.isSome_iff_exists.mp (lastWrite_isSome.mpr hloud)
    rw [lastWrite_append, he, Option.map_some, Option.some_or] at hsecond
    have hpos := congrArg Prod.fst (Option.some.inj hsecond)
    omega
  omega

end ChannelManager
