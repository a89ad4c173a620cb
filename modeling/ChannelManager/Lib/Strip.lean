import Mathlib.Data.List.DropRight

/-!
# Stripping and replacing

A list stripped at both ends of what a predicate holds of, and a list in which every occurrence of
another one is replaced, in one pass or by splitting and joining. Two predicates strip a list alike
exactly when they take the same at the front and then the same at the end.
-/

namespace ChannelManager

variable {α : Type}

/-- A list without the entries at its ends that `p` holds of. -/
def stripEnds (p : α → Bool) (l : List α) : List α := (l.dropWhile p).rdropWhile p

/-- Two predicates take the same at the ends of a list. -/
def StripAlike (p q : α → Bool) (l : List α) : Prop :=
  l.takeWhile p = l.takeWhile q ∧ (l.dropWhile p).rtakeWhile p = (l.dropWhile p).rtakeWhile q

instance [DecidableEq α] (p q : α → Bool) (l : List α) : Decidable (StripAlike p q l) :=
  inferInstanceAs (Decidable (_ ∧ _))

section Strip

variable {p q : α → Bool}

theorem stripEnds_cons_of_pos {a : α} (l : List α) (h : p a = true) :
    stripEnds p (a :: l) = stripEnds p l := by
  rw [stripEnds, List.dropWhile_cons_of_pos h, stripEnds]

theorem head_stripEnds_not {a : α} {l rest : List α} (h : stripEnds p l = a :: rest) :
    p a = false := by
  obtain ⟨dropped, hdropped⟩ := List.rdropWhile_prefix p (l.dropWhile p)
  have hhead : (l.dropWhile p).head? = some a := by
    rw [← hdropped, ← stripEnds, h]
    rfl
  simpa [hhead] using List.head?_dropWhile_not p l

theorem stripEnds_cons_of_neg {a : α} (l : List α) (h : p a = false) :
    ∃ rest, stripEnds p (a :: l) = a :: rest := by
  rw [stripEnds, List.dropWhile_cons_of_neg (by simp [h])]
  cases hstrip : (a :: l).rdropWhile p with
  | nil =>
    have hall := List.rdropWhile_eq_nil_iff.mp hstrip a List.mem_cons_self
    exact absurd hall (by simp [h])
  | cons b rest =>
    obtain ⟨dropped, hdropped⟩ := List.rdropWhile_prefix p (a :: l)
    rw [hstrip] at hdropped
    obtain ⟨rfl, _⟩ := List.cons_eq_cons.mp hdropped
    exact ⟨rest, rfl⟩

theorem stripEnds_sublist (l : List α) : (stripEnds p l).Sublist l :=
  (List.rdropWhile_prefix p _).sublist.trans (List.dropWhile_sublist p)

theorem stripEnds_eq_nil_iff (l : List α) : stripEnds p l = [] ↔ ∀ a ∈ l, p a = true := by
  rw [stripEnds, List.rdropWhile_eq_nil_iff]
  constructor
  · intro h a ha
    have hsplit : l.takeWhile p ++ l.dropWhile p = l := List.takeWhile_append_dropWhile
    rw [← hsplit] at ha
    obtain ha | ha := List.mem_append.mp ha
    · exact List.mem_takeWhile_imp ha
    · exact h a ha
  · intro h a ha
    exact h a ((List.dropWhile_sublist p).subset ha)

theorem stripEnds_stripEnds (l : List α) : stripEnds p (stripEnds p l) = stripEnds p l := by
  have hdrop : (stripEnds p l).dropWhile p = stripEnds p l := by
    cases h : stripEnds p l with
    | nil => rfl
    | cons a rest => exact List.dropWhile_cons_of_neg (by simp [head_stripEnds_not h])
  rw [stripEnds, hdrop, stripEnds, List.rdropWhile_idempotent]

/-- What was stripped at the ends. -/
theorem exists_ends (p : α → Bool) (l : List α) : ∃ front back, l = front ++ (stripEnds p l ++ back) ∧
    (∀ a ∈ front, p a = true) ∧ ∀ a ∈ back, p a = true := by
  refine ⟨l.takeWhile p, (l.dropWhile p).rtakeWhile p, ?_, fun a ha => List.mem_takeWhile_imp ha,
    fun a ha => List.mem_rtakeWhile_imp ha⟩
  rw [stripEnds, List.rdropWhile_append_rtakeWhile, List.takeWhile_append_dropWhile]

theorem rdropWhile_append_of_neg {front back : List α} (h : ¬ ∀ a ∈ back, p a = true) :
    (front ++ back).rdropWhile p = front ++ back.rdropWhile p := by
  have hne : (back.reverse.dropWhile p).isEmpty = false := by
    rw [List.isEmpty_eq_false_iff, Ne, List.dropWhile_eq_nil_iff]
    simpa using h
  simp [List.rdropWhile, List.dropWhile_append, hne]

/-- What is left tells what was taken at the front. -/
theorem takeWhile_eq_of_stripEnds_eq {l : List α} (h : stripEnds p l = stripEnds q l) :
    l.takeWhile p = l.takeWhile q := by
  induction l with
  | nil => rfl
  | cons a l ih =>
    cases hp : p a with
    | true =>
      cases hq : q a with
      | true =>
        rw [stripEnds_cons_of_pos l hp, stripEnds_cons_of_pos l hq] at h
        rw [List.takeWhile_cons_of_pos hp, List.takeWhile_cons_of_pos hq, ih h]
      | false =>
        obtain ⟨rest, hrest⟩ := stripEnds_cons_of_neg l hq
        have hnot := head_stripEnds_not (h.trans hrest)
        rw [hp] at hnot
        cases hnot
    | false =>
      cases hq : q a with
      | true =>
        obtain ⟨rest, hrest⟩ := stripEnds_cons_of_neg l hp
        have hnot := head_stripEnds_not (h.symm.trans hrest)
        rw [hq] at hnot
        cases hnot
      | false =>
        rw [List.takeWhile_cons_of_neg (by simp [hp]), List.takeWhile_cons_of_neg (by simp [hq])]

theorem dropWhile_eq_of_takeWhile_eq {l : List α} (h : l.takeWhile p = l.takeWhile q) :
    l.dropWhile p = l.dropWhile q := by
  have hsplit : l.takeWhile p ++ l.dropWhile p = l.takeWhile q ++ l.dropWhile q := by
    rw [List.takeWhile_append_dropWhile, List.takeWhile_append_dropWhile]
  rw [h] at hsplit
  exact List.append_cancel_left hsplit

theorem rdropWhile_eq_iff (p q : α → Bool) (l : List α) :
    l.rdropWhile p = l.rdropWhile q ↔ l.rtakeWhile p = l.rtakeWhile q := by
  have hsplit : l.rdropWhile p ++ l.rtakeWhile p = l.rdropWhile q ++ l.rtakeWhile q := by
    rw [List.rdropWhile_append_rtakeWhile, List.rdropWhile_append_rtakeWhile]
  constructor
  · intro h
    rw [h] at hsplit
    exact List.append_cancel_left hsplit
  · intro h
    rw [h] at hsplit
    exact List.append_cancel_right hsplit

theorem stripEnds_eq_iff (p q : α → Bool) (l : List α) :
    stripEnds p l = stripEnds q l ↔ StripAlike p q l := by
  constructor
  · intro h
    have htake := takeWhile_eq_of_stripEnds_eq h
    rw [stripEnds, stripEnds, ← dropWhile_eq_of_takeWhile_eq htake] at h
    exact ⟨htake, (rdropWhile_eq_iff p q _).mp h⟩
  · intro h
    rw [stripEnds, stripEnds, ← dropWhile_eq_of_takeWhile_eq h.1]
    exact (rdropWhile_eq_iff p q _).mpr h.2

end Strip

section Replace

variable [DecidableEq α]

/-- Every occurrence of `src` replaced; `skip` entries of the last one are still to be passed over. -/
def replaceFrom (src dst : List α) : ℕ → List α → List α
  | _, [] => []
  | skip + 1, _ :: rest => replaceFrom src dst skip rest
  | 0, a :: rest =>
    if src.isPrefixOf (a :: rest) then dst ++ replaceFrom src dst (src.length - 1) rest
    else a :: replaceFrom src dst 0 rest

/-- The pieces between the occurrences of `src`; `piece` is what there is of the current one. -/
def piecesFrom (src : List α) : ℕ → List α → List α → List (List α)
  | _, piece, [] => [piece]
  | skip + 1, piece, _ :: rest => piecesFrom src skip piece rest
  | 0, piece, a :: rest =>
    if src.isPrefixOf (a :: rest) then piece :: piecesFrom src (src.length - 1) [] rest
    else piecesFrom src 0 (piece ++ [a]) rest

theorem piecesFrom_ne_nil (src : List α) (skip : ℕ) (piece l : List α) :
    piecesFrom src skip piece l ≠ [] := by
  induction l generalizing skip piece with
  | nil => simp [piecesFrom]
  | cons a l ih =>
    cases skip with
    | succ skip => exact ih skip piece
    | zero =>
      rw [piecesFrom]
      split
      · exact List.cons_ne_nil _ _
      · exact ih 0 _

/-- Splitting and joining replaces. -/
theorem intercalate_piecesFrom (src dst : List α) (skip : ℕ) (piece l : List α) :
    dst.intercalate (piecesFrom src skip piece l) = piece ++ replaceFrom src dst skip l := by
  induction l generalizing skip piece with
  | nil => simp [piecesFrom, replaceFrom]
  | cons a l ih =>
    cases skip with
    | succ skip => exact ih skip piece
    | zero =>
      rw [piecesFrom, replaceFrom]
      split
      · rw [List.intercalate_cons_of_ne_nil (piecesFrom_ne_nil src _ [] l), ih, List.nil_append,
          List.append_assoc]
      · rw [ih, List.append_assoc, List.singleton_append]

omit [DecidableEq α] in
/-- Entries joined one by one have `dst` after every entry but the last. -/
theorem intercalate_singletons (dst : List α) {l : List α} (h : l ≠ []) :
    dst.intercalate (l.map fun a => [a]) ++ dst = l.flatMap fun a => a :: dst := by
  induction l with
  | nil => exact absurd rfl h
  | cons a l ih =>
    cases l with
    | nil => simp
    | cons b l =>
      rw [List.map_cons, List.intercalate_cons_of_ne_nil (by simp), List.append_assoc,
        List.append_assoc, ih (List.cons_ne_nil b l), List.flatMap_cons]
      rfl

/-- `src` starts the list, and what comes right after it is no entry `p` holds of. -/
def startsAlone (p : α → Bool) (src l : List α) : Bool :=
  src.isPrefixOf l && (l.drop src.length).head?.all fun a => !p a

/-- Every occurrence of `src` replaced that has no entry `p` holds of on either side: `joined` tells that
there is one in front of the list. -/
def replaceAlone (p : α → Bool) (src dst : List α) : Bool → ℕ → List α → List α
  | _, _, [] => []
  | _, skip + 1, a :: rest => replaceAlone p src dst (p a) skip rest
  | joined, 0, a :: rest =>
    if !joined && startsAlone p src (a :: rest) then dst ++ replaceAlone p src dst (p a) (src.length - 1) rest
    else a :: replaceAlone p src dst (p a) 0 rest

omit [DecidableEq α] in
/-- `src` occurs with no entry `p` holds of on either side. -/
def OccursAlone (p : α → Bool) (src : List α) (joined : Bool) (l : List α) : Prop :=
  ∃ before after, l = before ++ src ++ after ∧ before.getLast?.elim joined p = false ∧
    after.head?.all fun a => !p a

section Alone

variable {p : α → Bool} {src dst : List α}

theorem startsAlone_iff {l : List α} :
    startsAlone p src l = true ↔ ∃ after, l = src ++ after ∧ after.head?.all fun a => !p a := by
  rw [startsAlone, Bool.and_eq_true, List.isPrefixOf_iff_prefix]
  constructor
  · rintro ⟨⟨after, rfl⟩, hafter⟩
    exact ⟨after, rfl, by simpa using hafter⟩
  · rintro ⟨after, rfl, hafter⟩
    exact ⟨List.prefix_append src after, by simpa using hafter⟩

/-- An occurrence is at the head of the list or behind it. -/
theorem occursAlone_cons {joined : Bool} {a : α} {rest : List α} :
    OccursAlone p src joined (a :: rest) ↔
      (joined = false ∧ startsAlone p src (a :: rest) = true) ∨ OccursAlone p src (p a) rest := by
  constructor
  · rintro ⟨before, after, hsplit, hbefore, hafter⟩
    cases before with
    | nil => exact .inl ⟨hbefore, startsAlone_iff.mpr ⟨after, hsplit, hafter⟩⟩
    | cons b before =>
      obtain ⟨rfl, rfl⟩ := List.cons_eq_cons.mp hsplit
      refine .inr ⟨before, after, rfl, ?_, hafter⟩
      cases hlast : before.getLast? with
      | none =>
        rw [List.getLast?_eq_none_iff.mp hlast] at hbefore
        exact hbefore
      | some c =>
        rw [List.getLast?_cons, hlast] at hbefore
        exact hbefore
  · rintro (⟨rfl, hstarts⟩ | ⟨before, after, rfl, hbefore, hafter⟩)
    · obtain ⟨after, hsplit, hafter⟩ := startsAlone_iff.mp hstarts
      exact ⟨[], after, hsplit, rfl, hafter⟩
    · refine ⟨a :: before, after, rfl, ?_, hafter⟩
      cases hlast : before.getLast? with
      | none =>
        rw [List.getLast?_eq_none_iff.mp hlast]
        rwa [hlast] at hbefore
      | some c =>
        rw [List.getLast?_cons, hlast]
        rwa [hlast] at hbefore

theorem replaceAlone_of_not_occurs {joined : Bool} {l : List α}
    (h : ¬ OccursAlone p src joined l) : replaceAlone p src dst joined 0 l = l := by
  induction l generalizing joined with
  | nil => rfl
  | cons a rest ih =>
    rw [occursAlone_cons, not_or] at h
    have hnot : (!joined && startsAlone p src (a :: rest)) ≠ true := by
      rw [Ne, Bool.and_eq_true, Bool.not_eq_true']
      exact h.1
    rw [replaceAlone, if_neg hnot, ih h.2]

theorem length_of_startsAlone {a : α} {rest : List α} (h : startsAlone p src (a :: rest) = true) :
    src.length ≤ rest.length + 1 := by
  obtain ⟨after, hsplit, _⟩ := startsAlone_iff.mp h
  have hlength := congrArg List.length hsplit
  rw [List.length_cons, List.length_append] at hlength
  omega

theorem length_replaceAlone_le (hsrc : src ≠ []) (hle : dst.length ≤ src.length) (joined : Bool)
    {skip : ℕ} {l : List α} (hskip : skip ≤ l.length) :
    (replaceAlone p src dst joined skip l).length + skip ≤ l.length := by
  have hpos := List.length_pos_of_ne_nil hsrc
  induction l generalizing joined skip with
  | nil => simpa [replaceAlone] using hskip
  | cons a rest ih =>
    rw [List.length_cons] at hskip ⊢
    cases skip with
    | succ skip =>
      have hrest := ih (p a) (Nat.le_of_succ_le_succ hskip)
      rw [replaceAlone]
      omega
    | zero =>
      rw [replaceAlone]
      split
      · rename_i hmatch
        have hlength := length_of_startsAlone (Bool.and_eq_true_iff.mp hmatch).2
        have hskip : src.length - 1 ≤ rest.length := by omega
        have hrest := ih (p a) hskip
        rw [List.length_append]
        omega
      · have hrest := ih (p a) (Nat.zero_le rest.length)
        rw [List.length_cons]
        omega

theorem le_length_replaceAlone (hsrc : src ≠ []) (hle : src.length ≤ dst.length) (joined : Bool)
    (skip : ℕ) (l : List α) : l.length ≤ (replaceAlone p src dst joined skip l).length + skip := by
  have hpos := List.length_pos_of_ne_nil hsrc
  induction l generalizing joined skip with
  | nil => exact Nat.zero_le _
  | cons a rest ih =>
    rw [List.length_cons]
    cases skip with
    | succ skip =>
      have hrest := ih (p a) skip
      rw [replaceAlone]
      omega
    | zero =>
      rw [replaceAlone]
      split
      · have hrest := ih (p a) (src.length - 1)
        rw [List.length_append]
        omega
      · have hrest := ih (p a) 0
        rw [List.length_cons]
        omega

/-- A list in which something else is put for an occurrence is another list. -/
theorem replaceAlone_ne (hsrc : src ≠ []) (hne : src ≠ dst) {joined : Bool} {l : List α}
    (h : OccursAlone p src joined l) : replaceAlone p src dst joined 0 l ≠ l := by
  have hpos := List.length_pos_of_ne_nil hsrc
  induction l generalizing joined with
  | nil =>
    obtain ⟨before, after, hsplit, _⟩ := h
    have hnil := List.append_eq_nil_iff.mp (List.append_eq_nil_iff.mp hsplit.symm).1
    exact absurd hnil.2 hsrc
  | cons a rest ih =>
    rw [replaceAlone]
    split
    · rename_i hmatch
      have hstarts := (Bool.and_eq_true_iff.mp hmatch).2
      have hlength := length_of_startsAlone hstarts
      intro heq
      have hlengths := congrArg List.length heq
      rw [List.length_append, List.length_cons] at hlengths
      -- the rest could only make up for a change of length by one the other way
      obtain hlt | hsame | hgt := lt_trichotomy dst.length src.length
      · have hskip : src.length - 1 ≤ rest.length := by omega
        have hrest := length_replaceAlone_le (p := p) hsrc hlt.le (p a) hskip
        omega
      · obtain ⟨after, hsplit, _⟩ := startsAlone_iff.mp hstarts
        rw [hsplit] at heq
        exact hne (List.append_inj_left heq hsame).symm
      · have hrest := le_length_replaceAlone (p := p) hsrc hgt.le (p a) (src.length - 1) rest
        omega
    · rename_i hmatch
      rw [occursAlone_cons] at h
      have hlater := h.resolve_left fun hhead => hmatch (by rw [hhead.1, hhead.2]; rfl)
      exact fun heq => ih hlater (List.tail_eq_of_cons_eq heq)

/-- Replacing leaves a list alone exactly when there is nothing to replace. -/
theorem replaceAlone_eq_self_iff (hsrc : src ≠ []) (hne : src ≠ dst) {joined : Bool} {l : List α} :
    replaceAlone p src dst joined 0 l = l ↔ ¬ OccursAlone p src joined l :=
  ⟨fun heq h => replaceAlone_ne hsrc hne h heq, replaceAlone_of_not_occurs⟩

end Alone

end Replace

end ChannelManager
