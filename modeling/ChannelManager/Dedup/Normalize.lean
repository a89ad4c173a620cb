import ChannelManager.Lib.Strip
import ChannelManager.Templates.Engines

/-!
# Normalizing a name

The conservative cleaner on text in ASCII, which the Unicode normal form leaves as it is: a name is cut,
a channel number in front of it is taken off unless nothing would be left, and what remains is put in
lower case and stripped.
-/

namespace ChannelManager.Dedup

open Templates (Text)
open Templates.Python (isSpace)

/-- `_NORMALIZE_MAX_LEN`. -/
def normalizeMaxLen : ℕ := 512

/-- What comes after a match of `_CHANNEL_NUMBER_PREFIX_RE`. -/
def afterNumber (name : Text) : Option Text :=
  let digits := name.dropWhile isSpace
  if digits.takeWhile Char.isDigit = [] then none
  else match (digits.dropWhile Char.isDigit).dropWhile isSpace with
    | '|' :: rest => some (rest.dropWhile isSpace)
    | _ => none

/-- A name without the number in front, or the whole name if only blanks come after it. -/
def withoutNumber (name : Text) : Text :=
  let stripped := (afterNumber name).getD name
  if stripEnds isSpace stripped ≠ [] then stripped else name

/-- `_normalize`, conservative. -/
def normalize (value : Text) : Text :=
  let value := if normalizeMaxLen < value.length then value.take normalizeMaxLen else value
  stripEnds isSpace ((withoutNumber value).map Char.toLower)

/-- There is a number in front of a name that is not blank. -/
def Numbered (name : Text) : Prop := ∃ rest, afterNumber name = some rest ∧ stripEnds isSpace rest ≠ []

/-- There are two numbers in front of a name that is not blank. -/
def TwiceNumbered (name : Text) : Prop := ∃ rest, afterNumber name = some rest ∧ Numbered rest

section Numbered

theorem stripEnds_dropWhile_ne_nil_iff (rest : Text) :
    stripEnds isSpace (rest.dropWhile isSpace) ≠ [] ↔ ¬ ∀ c ∈ rest, isSpace c = true := by
  rw [Ne, ← stripEnds_eq_nil_iff]
  simp only [stripEnds, List.dropWhile_idempotent]

theorem isSpace_of_code {c : Char} (h : 32 < c.toNat) : isSpace c = false := by
  have hne : c ≠ ' ' := by
    intro hc
    exact absurd (hc ▸ h) (by decide)
  simp only [isSpace, Bool.or_eq_false_iff, Bool.and_eq_false_iff, decide_eq_false_iff_not]
  exact ⟨⟨hne, .inr (by omega)⟩, .inr (by omega)⟩

theorem isSpace_of_isDigit {c : Char} (h : c.isDigit = true) : isSpace c = false := by
  simp only [Char.isDigit, Bool.and_eq_true, decide_eq_true_eq] at h
  have hcode : 48 ≤ c.toNat ∧ c.toNat ≤ 57 := h
  exact isSpace_of_code (by omega)

theorem isDigit_of_isSpace {c : Char} (h : isSpace c = true) : c.isDigit = false := by
  cases hdigit : c.isDigit with
  | false => rfl
  | true => rw [isSpace_of_isDigit hdigit] at h; cases h

/-- A name with a number in front: blanks, digits, blanks, a bar and what comes after it. -/
theorem numbered_iff (name : Text) : Numbered name ↔
    ∃ front digits gap rest : Text, name = front ++ (digits ++ (gap ++ '|' :: rest)) ∧
      (∀ c ∈ front, isSpace c = true) ∧ digits ≠ [] ∧ (∀ c ∈ digits, c.isDigit = true) ∧
        (∀ c ∈ gap, isSpace c = true) ∧ ¬ ∀ c ∈ rest, isSpace c = true := by
  constructor
  · intro ⟨rest, hafter, hrest⟩
    simp only [afterNumber] at hafter
    split_ifs at hafter with hdigits
    split at hafter
    · rename_i rest' hbar
      obtain rfl := Option.some.inj hafter
      refine ⟨name.takeWhile isSpace, (name.dropWhile isSpace).takeWhile Char.isDigit,
        ((name.dropWhile isSpace).dropWhile Char.isDigit).takeWhile isSpace, rest', ?_,
        fun c hc => List.mem_takeWhile_imp hc, hdigits, fun c hc => List.mem_takeWhile_imp hc,
        fun c hc => List.mem_takeWhile_imp hc, (stripEnds_dropWhile_ne_nil_iff _).mp hrest⟩
      rw [← hbar, List.takeWhile_append_dropWhile, List.takeWhile_append_dropWhile,
        List.takeWhile_append_dropWhile]
    · cases hafter
  · intro ⟨front, digits, gap, rest, hname, hfront, hne, hdigits, hgap, hrest⟩
    obtain ⟨d, ds, rfl⟩ := List.exists_cons_of_ne_nil hne
    have hd : d.isDigit = true := hdigits d List.mem_cons_self
    have hspace : isSpace d = false := isSpace_of_isDigit hd
    have hgap' : (gap ++ '|' :: rest).dropWhile Char.isDigit = gap ++ '|' :: rest := by
      cases gap with
      | nil => rfl
      | cons g gap =>
        have hg : g.isDigit = false := isDigit_of_isSpace (hgap g List.mem_cons_self)
        rw [List.cons_append, List.dropWhile_cons_of_neg (by simp [hg])]
    refine ⟨rest.dropWhile isSpace, ?_, (stripEnds_dropWhile_ne_nil_iff _).mpr hrest⟩
    have hdrop : name.dropWhile isSpace = d :: ds ++ (gap ++ '|' :: rest) := by
      rw [hname, List.dropWhile_append_of_pos hfront, List.cons_append,
        List.dropWhile_cons_of_neg (by simp [hspace])]
    have htake : (d :: ds ++ (gap ++ '|' :: rest)).takeWhile Char.isDigit ≠ [] := by
      rw [List.cons_append, List.takeWhile_cons_of_pos hd]
      exact List.cons_ne_nil _ _
    have hbar : (gap ++ '|' :: rest).dropWhile isSpace = '|' :: rest := by
      rw [List.dropWhile_append_of_pos hgap]
      rfl
    simp only [afterNumber, hdrop, if_neg htake, List.dropWhile_append_of_pos hdigits, hgap', hbar]

theorem toLower_eq_or (c : Char) :
    c.toLower = c ∨ (65 ≤ c.toNat ∧ c.toNat ≤ 90) ∧ c.toLower.toNat = c.toNat + 32 := by
  unfold Char.toLower
  split_ifs with hupper
  · have hcode : 65 ≤ c.toNat ∧ c.toNat ≤ 90 := hupper
    have h32 : ('a'.val - 'A'.val).toNat = 32 := rfl
    right
    refine ⟨hcode, ?_⟩
    simp only [Char.toNat] at hcode ⊢
    rw [UInt32.toNat_add]
    omega
  · exact .inl rfl

theorem isDigit_of_letter {c : Char} (h : 65 ≤ c.toNat) : c.isDigit = false := by
  have hnot : ¬ c.toNat ≤ 57 := by omega
  simp only [Char.isDigit, Bool.and_eq_false_iff, decide_eq_false_iff_not]
  exact .inr hnot

theorem isSpace_toLower (c : Char) : isSpace c.toLower = isSpace c := by
  obtain hsame | ⟨hcode, hlower⟩ := toLower_eq_or c
  · rw [hsame]
  · rw [isSpace_of_code (by omega), isSpace_of_code (by omega)]

theorem isDigit_toLower (c : Char) : c.toLower.isDigit = c.isDigit := by
  obtain hsame | ⟨hcode, hlower⟩ := toLower_eq_or c
  · rw [hsame]
  · rw [isDigit_of_letter hcode.1, isDigit_of_letter (by omega)]

theorem toLower_eq_bar {c : Char} (h : c.toLower = '|') : c = '|' := by
  obtain hsame | ⟨hcode, hlower⟩ := toLower_eq_or c
  · rwa [hsame] at h
  · rw [h] at hlower
    have hbar : ('|').toNat = 124 := rfl
    omega

theorem toLower_toLower (c : Char) : c.toLower.toLower = c.toLower := by
  obtain hsame | ⟨hcode, hlower⟩ := toLower_eq_or c
  · rw [hsame, hsame]
  · obtain hsame | ⟨hcode', _⟩ := toLower_eq_or c.toLower
    · exact hsame
    · omega

theorem numbered_toLower_iff (name : Text) : Numbered (name.map Char.toLower) ↔ Numbered name := by
  simp only [numbered_iff]
  constructor
  · intro ⟨front, digits, gap, rest, hname, hfront, hne, hdigits, hgap, hrest⟩
    obtain ⟨front', tail, rfl, rfl, htail⟩ := List.map_eq_append_iff.mp hname
    obtain ⟨digits', tail', rfl, rfl, htail'⟩ := List.map_eq_append_iff.mp htail
    obtain ⟨gap', barred, rfl, rfl, hbarred⟩ := List.map_eq_append_iff.mp htail'
    obtain ⟨bar, rest', rfl, hbar, rfl⟩ := List.map_eq_cons_iff.mp hbarred
    obtain rfl := toLower_eq_bar hbar
    simp only [List.forall_mem_map, isSpace_toLower, isDigit_toLower] at hfront hdigits hgap hrest
    exact ⟨front', digits', gap', rest', rfl, hfront, fun h => hne (by rw [h]; rfl), hdigits, hgap, hrest⟩
  · intro ⟨front, digits, gap, rest, hname, hfront, hne, hdigits, hgap, hrest⟩
    refine ⟨front.map Char.toLower, digits.map Char.toLower, gap.map Char.toLower,
      rest.map Char.toLower, ?_, ?_, fun h => hne (List.map_eq_nil_iff.mp h), ?_, ?_, ?_⟩
    · have hbar : ('|').toLower = '|' := rfl
      simp only [hname, List.map_append, List.map_cons, hbar]
    all_goals simpa only [List.forall_mem_map, isSpace_toLower, isDigit_toLower]

theorem numbered_stripEnds_iff (name : Text) : Numbered (stripEnds isSpace name) ↔ Numbered name := by
  obtain ⟨before, after, hsplit, hbefore, hafter⟩ := exists_ends isSpace name
  simp only [numbered_iff]
  constructor
  · intro ⟨front, digits, gap, rest, hname, hfront, hne, hdigits, hgap, hrest⟩
    refine ⟨before ++ front, digits, gap, rest ++ after, ?_, ?_, hne, hdigits, hgap, ?_⟩
    · rw [hname] at hsplit
      simp only [hsplit, List.append_assoc, List.cons_append]
    · intro c hc
      obtain hc | hc := List.mem_append.mp hc
      · exact hbefore c hc
      · exact hfront c hc
    · exact fun h => hrest fun c hc => h c (List.mem_append_left _ hc)
  · intro ⟨front, digits, gap, rest, hname, hfront, hne, hdigits, hgap, hrest⟩
    obtain ⟨d, ds, rfl⟩ := List.exists_cons_of_ne_nil hne
    have hspace : isSpace d = false := isSpace_of_isDigit (hdigits d List.mem_cons_self)
    have hdrop : name.dropWhile isSpace = d :: ds ++ (gap ++ '|' :: rest) := by
      rw [hname, List.dropWhile_append_of_pos hfront, List.cons_append,
        List.dropWhile_cons_of_neg (by simp [hspace])]
    refine ⟨[], d :: ds, gap, rest.rdropWhile isSpace, ?_, by simp, hne, hdigits, hgap, ?_⟩
    · have hassoc : d :: ds ++ (gap ++ '|' :: rest) = (d :: ds ++ (gap ++ ['|'])) ++ rest := by simp
      rw [stripEnds, hdrop, hassoc, rdropWhile_append_of_neg hrest]
      simp
    · intro hall
      refine hrest fun c hc => ?_
      rw [← rest.rdropWhile_append_rtakeWhile (p := isSpace)] at hc
      obtain hc | hc := List.mem_append.mp hc
      · exact hall c hc
      · exact List.mem_rtakeWhile_imp hc

theorem Numbered.not_blank {name : Text} (h : Numbered name) : stripEnds isSpace name ≠ [] := by
  intro hblank
  rw [stripEnds_eq_nil_iff] at hblank
  obtain ⟨front, digits, gap, rest, rfl, -⟩ := (numbered_iff name).mp h
  have hbar : isSpace '|' = true := hblank '|' (by simp)
  cases hbar

/-- A number is left in front exactly if there were two. -/
theorem numbered_withoutNumber_iff (name : Text) : Numbered (withoutNumber name) ↔ TwiceNumbered name := by
  unfold withoutNumber TwiceNumbered
  cases hafter : afterNumber name with
  | none =>
    simp only [Option.getD_none, ite_self, Numbered, hafter, reduceCtorEq, false_and, exists_false]
  | some rest =>
    by_cases hrest : stripEnds isSpace rest = []
    · have hname : ¬ Numbered name := by
        intro ⟨rest', hafter', hne⟩
        rw [hafter] at hafter'
        exact hne (Option.some.inj hafter' ▸ hrest)
      simp only [Option.getD_some, hrest, ne_eq, not_true_eq_false, if_false, hname, Option.some.injEq,
        exists_eq_left', false_iff]
      exact fun h => h.not_blank hrest
    · simp only [Option.getD_some, ne_eq, hrest, not_false_eq_true, if_true, Option.some.injEq,
        exists_eq_left']

end Numbered

section Normalize

theorem normalize_eq (value : Text) : normalize value =
    stripEnds isSpace ((withoutNumber (value.take normalizeMaxLen)).map Char.toLower) := by
  unfold normalize
  split_ifs with hlong
  · rfl
  · rw [List.take_of_length_le (not_lt.mp hlong)]

theorem afterNumber_length {name rest : Text} (h : afterNumber name = some rest) :
    rest.length < name.length := by
  simp only [afterNumber] at h
  split_ifs at h
  split at h
  · rename_i rest' hbar
    obtain rfl := Option.some.inj h
    have hle := (List.dropWhile_sublist (l := name) isSpace).length_le
    have hle' := (List.dropWhile_sublist (l := name.dropWhile isSpace) Char.isDigit).length_le
    have hle'' := (List.dropWhile_sublist (l := (name.dropWhile isSpace).dropWhile Char.isDigit)
      isSpace).length_le
    have hrest := (List.dropWhile_sublist (l := rest') isSpace).length_le
    rw [hbar, List.length_cons] at hle''
    omega
  · cases h

theorem withoutNumber_of_not {name : Text} (h : ¬ Numbered name) : withoutNumber name = name := by
  unfold withoutNumber
  cases hafter : afterNumber name with
  | none => exact ite_self name
  | some rest =>
    have hrest : stripEnds isSpace rest = [] := by
      by_contra hne
      exact h ⟨rest, hafter, hne⟩
    simp only [Option.getD_some, hrest, ne_eq, not_true_eq_false, if_false]

theorem withoutNumber_length_lt {name : Text} (h : Numbered name) :
    (withoutNumber name).length < name.length := by
  obtain ⟨rest, hafter, hrest⟩ := h
  have hwithout : withoutNumber name = rest := by
    simp only [withoutNumber, hafter, Option.getD_some, ne_eq, hrest, not_false_eq_true, if_true]
  rw [hwithout]
  exact afterNumber_length hafter

theorem withoutNumber_length_le (name : Text) : (withoutNumber name).length ≤ name.length := by
  by_cases h : Numbered name
  · exact (withoutNumber_length_lt h).le
  · rw [withoutNumber_of_not h]

/-- Taking the number off leaves something if there was something. -/
theorem withoutNumber_not_blank {name : Text} (h : stripEnds isSpace name ≠ []) :
    stripEnds isSpace (withoutNumber name) ≠ [] := by
  simp only [withoutNumber]
  split_ifs with hrest
  · exact hrest
  · exact h

theorem normalize_length_le (value : Text) : (normalize value).length ≤ normalizeMaxLen := by
  rw [normalize_eq]
  have hstrip := (stripEnds_sublist (p := isSpace)
    ((withoutNumber (value.take normalizeMaxLen)).map Char.toLower)).length_le
  rw [List.length_map] at hstrip
  exact hstrip.trans ((withoutNumber_length_le _).trans (List.length_take_le _ _))

/-- What is normalized is in lower case. -/
theorem map_toLower_normalize (value : Text) : (normalize value).map Char.toLower = normalize value := by
  refine (List.map_congr_left fun c hc => ?_).trans (List.map_id _)
  rw [normalize_eq] at hc
  obtain ⟨c', _, rfl⟩ := List.mem_map.mp ((stripEnds_sublist _).subset hc)
  exact toLower_toLower c'

/-- Normalizing again takes off a number that is left in front. -/
theorem normalize_normalize_iff (value : Text) :
    normalize (normalize value) = normalize value ↔ ¬ Numbered (normalize value) := by
  have hself : stripEnds isSpace (normalize value) = normalize value := by
    rw [normalize_eq, stripEnds_stripEnds]
  rw [normalize_eq (normalize value), List.take_of_length_le (normalize_length_le value)]
  constructor
  · intro h hnumbered
    have hlt := withoutNumber_length_lt hnumbered
    have hle := (stripEnds_sublist (p := isSpace)
      ((withoutNumber (normalize value)).map Char.toLower)).length_le
    rw [h, List.length_map] at hle
    omega
  · intro h
    rw [withoutNumber_of_not h, map_toLower_normalize, hself]

/-- A name is normalized once and for all unless it starts with two numbers, and what is not blank in the
part that is read stays. -/
theorem normalize_projection (value : Text) :
    (normalize (normalize value) = normalize value ↔ ¬ TwiceNumbered (value.take normalizeMaxLen)) ∧
      ((∃ c ∈ value.take normalizeMaxLen, isSpace c = false) → normalize value ≠ []) := by
  constructor
  · rw [normalize_normalize_iff, normalize_eq, numbered_stripEnds_iff, numbered_toLower_iff,
      numbered_withoutNumber_iff]
  · intro ⟨c, hc, hspace⟩
    have hvalue : stripEnds isSpace (value.take normalizeMaxLen) ≠ [] := by
      rw [Ne, stripEnds_eq_nil_iff]
      intro hall
      rw [hall c hc] at hspace
      cases hspace
    have hwithout := withoutNumber_not_blank hvalue
    rw [Ne, stripEnds_eq_nil_iff] at hwithout
    rw [normalize_eq, Ne, stripEnds_eq_nil_iff]
    simpa only [List.forall_mem_map, isSpace_toLower]

/-- Two numbers in front of a name, and a name after more blanks than are read. -/
theorem normalized_twice :
    let stacked := "5 | 6 | News".toList
    let far := List.replicate 512 ' ' ++ "News".toList
    normalize (normalize stacked) ≠ normalize stacked ∧
      (∃ c ∈ far, isSpace c = false) ∧ normalize far = [] := by
  exact ⟨by decide +kernel, ⟨'N', List.mem_append_right _ (by decide), rfl⟩, by decide +kernel⟩

end Normalize

end ChannelManager.Dedup
