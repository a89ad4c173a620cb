import ChannelManager.Import.KeptLines

/-!
# An export read back

What is exported reads back exactly when an import keeps each line that a field goes on to and no
number is so small that it is written with an exponent.
-/

namespace ChannelManager.CsvHandler

open Csv
open Dbas (isSpace)
open Templates (Text)

variable {python : Python}

/-! ### Numbers -/

section Numbers

/-- What the contract takes. -/
structure Number.Valid (python : Python) (n : Number) : Prop where
  valid : isValidNumber python n = true
  float : ∀ q, n = .float q → python.isFloat q

/-- No fraction so small that it is written with an exponent. -/
def Number.Plain (n : Number) : Prop := ∀ q, n = .float q → q.isInt ∨ 1 / 10000 ≤ q

variable {isDigit isDigit' : Char → Bool} {t : Text} {n : Number}

theorem stripped_of_none (h : ∀ c ∈ t, isSpace c = false) : stripped t = t := by
  have hfirst : t.dropWhile isSpace = t := by
    rw [List.dropWhile_eq_self_iff]
    intro hpos
    simp [h t[0] (List.getElem_mem hpos)]
  rw [stripped, stripEnds, hfirst, List.rdropWhile_eq_self_iff]
  intro hsome
  simp [h _ (List.getLast_mem hsome)]

theorem isDecimal_chars (h : isDecimal isDigit t = true) :
    t ≠ [] ∧ ∀ c ∈ t, isDigit c = true ∨ c = '.' := by
  have hsplit := List.takeWhile_append_dropWhile (p := isDigit) (l := t)
  have hwhole : ∀ c ∈ t.takeWhile isDigit, isDigit c = true := fun c hc => List.mem_takeWhile_imp hc
  unfold isDecimal at h
  generalize t.takeWhile isDigit = whole at h hsplit hwhole
  generalize t.dropWhile isDigit = rest at h hsplit
  subst hsplit
  cases rest with
  | nil =>
    rw [List.append_nil]
    exact ⟨by simpa using h, fun c hc => .inl (hwhole c hc)⟩
  | cons d fraction =>
    simp only [Bool.and_eq_true, decide_eq_true_eq, List.all_eq_true] at h
    obtain ⟨⟨⟨rfl, hsome⟩, -⟩, hfraction⟩ := h
    refine ⟨by simp, fun c hc => ?_⟩
    simp only [List.mem_append, List.mem_cons] at hc
    rcases hc with hc | rfl | hc
    · exact .inl (hwhole c hc)
    · exact .inr rfl
    · exact .inl (hfraction c hc)

theorem isDecimal_agree (h : ∀ c ∈ t, isDigit c = isDigit' c) :
    isDecimal isDigit t = isDecimal isDigit' t := by
  have hsplit : ∀ l : Text, (∀ c ∈ l, isDigit c = isDigit' c) →
      l.takeWhile isDigit = l.takeWhile isDigit' ∧ l.dropWhile isDigit = l.dropWhile isDigit' := by
    intro l hl
    induction l with
    | nil => exact ⟨rfl, rfl⟩
    | cons c l ih =>
      obtain ⟨hc, hrest⟩ := List.forall_mem_cons.mp hl
      obtain ⟨htake, hdrop⟩ := ih hrest
      simp only [List.takeWhile_cons, List.dropWhile_cons, hc, htake, hdrop, and_self]
  obtain ⟨htake, hdrop⟩ := hsplit t h
  unfold isDecimal
  rw [htake, hdrop]
  have hmem : ∀ c ∈ t.dropWhile isDigit', isDigit c = isDigit' c :=
    fun c hc => h c ((List.dropWhile_sublist isDigit').subset hc)
  cases hrest : t.dropWhile isDigit' with
  | nil => rfl
  | cons d fraction =>
    rw [hrest] at hmem
    have hall : fraction.all isDigit = fraction.all isDigit' := by
      rw [Bool.eq_iff_iff, List.all_eq_true, List.all_eq_true]
      exact forall₂_congr fun c hc => by rw [hmem c (List.mem_cons_of_mem d hc)]
    simp only [hall]

theorem isDecimal_digits (hsome : t ≠ []) (h : ∀ c ∈ t, isDigit c = true) :
    isDecimal isDigit t = true := by
  unfold isDecimal
  rw [List.takeWhile_eq_self_iff.mpr h, List.dropWhile_eq_nil_iff.mpr h]
  simp [hsome]

/-- A digit of ASCII, or a point. -/
def IsNumeral (t : Text) : Prop := ∀ c ∈ t, c.isDigit = true ∨ c = '.'

theorem IsNumeral.agree (python : Python) (h : IsNumeral t) :
    ∀ c ∈ t, python.isDigit c = c.isDigit := by
  intro c hc
  apply python.isDigit_ascii
  rcases h c hc with hdigit | rfl
  · simp only [Char.isDigit, Bool.and_eq_true, decide_eq_true_eq] at hdigit
    have hle : c.val.toNat ≤ 57 := hdigit.2
    exact Nat.lt_of_le_of_lt hle (by decide)
  · decide

theorem IsNumeral.plain (h : IsNumeral t) : ∀ c ∈ t, isSpace c = false ∧ c ≠ '#' := by
  intro c hc
  rcases h c hc with hdigit | rfl
  · simp only [Char.isDigit, Bool.and_eq_true, decide_eq_true_eq] at hdigit
    have hge : 48 ≤ c.toNat := hdigit.1
    have hle : c.toNat ≤ 57 := hdigit.2
    constructor
    · simp only [isSpace, Bool.or_eq_false_iff, Bool.and_eq_false_iff, decide_eq_false_iff_not]
      omega
    · rintro rfl
      exact absurd hge (by decide)
  · decide

/-- What a number is exported as, read again. -/
structure Spelled (python : Python) (t : Text) (number : Option ℚ) : Prop where
  numeral : IsNumeral t
  decimal : isDecimal python.isDigit t = true
  read : python.read t = number

theorem spelled_nat (python : Python) (m : ℕ) :
    Spelled python (toString (m : ℤ)).toList (python.ofInt m) := by
  have htext : (toString (m : ℤ)).toList = Nat.toDigits 10 m := by
    simp [toString, Int.repr, Nat.repr]
  have hdigits : ∀ c ∈ Nat.toDigits 10 m, c.isDigit = true := fun c hc =>
    Nat.isDigit_of_mem_toDigits (by decide) (by decide) hc
  have hnumeral : IsNumeral (Nat.toDigits 10 m) := fun c hc => .inl (hdigits c hc)
  rw [htext]
  refine ⟨hnumeral, ?_, python.read_digits m⟩
  rw [isDecimal_agree (hnumeral.agree python)]
  exact isDecimal_digits Nat.toDigits_ne_nil hdigits

theorem Number.Valid.toFloat (h : n.Valid python) :
    ∃ q, n.toFloat python = some q ∧ isValidFloat python q = true := by
  have hvalid := h.valid
  rw [isValidNumber, Option.any_eq_true] at hvalid
  exact hvalid

theorem nonneg_of_valid {q : ℚ} (h : isValidFloat python q = true) : 0 ≤ q := by
  rw [isValidFloat, Bool.and_eq_true, decide_eq_true_eq] at h
  exact h.1

/-- A whole number of either kind is exported as its digits. -/
theorem spelled_int {m : ℤ} {q : ℚ} (hfloat : python.ofInt m = some q) (hnonneg : 0 ≤ q) :
    Spelled python (toString m).toList (some q) := by
  obtain ⟨k, rfl⟩ := Int.eq_ofNat_of_zero_le (python.ofInt_nonneg m q hfloat hnonneg)
  rw [← hfloat]
  exact spelled_nat python k

theorem Number.Valid.spelled (h : n.Valid python) (hplain : n.Plain) :
    Spelled python (numberText python n) (n.toFloat python) := by
  obtain ⟨q, hq, hvalid⟩ := h.toFloat
  have hnonneg := nonneg_of_valid hvalid
  rw [hq]
  cases n with
  | int m => exact spelled_int hq hnonneg
  | float q' =>
    obtain rfl : q' = q := Option.some.inj hq
    have hfloat := h.float q' rfl
    rw [numberText]
    by_cases hint : q'.isInt = true
    · have hwhole : (q'.num : ℚ) = q' := Rat.coe_int_num_of_den_eq_one (by simpa [Rat.isInt] using hint)
      have hread := python.ofInt_whole q'.num (by rwa [hwhole])
      rw [hwhole] at hread
      rw [if_pos hint]
      exact spelled_int hread hnonneg
    · have hlarge : q' < exactIntegerFloor := by
        by_contra hle
        exact hint (python.whole_of_large q' hfloat (not_lt.mp hle))
      have hbound : q' < 10 ^ 16 := hlarge.trans (by norm_num [exactIntegerFloor])
      have hdecimal := python.str_decimal q' hfloat ((hplain q' rfl).resolve_left hint) hbound
      have hnumeral : IsNumeral (python.str q') := (isDecimal_chars hdecimal).2
      rw [if_neg hint]
      refine ⟨hnumeral, ?_, python.read_str q' hfloat⟩
      rw [isDecimal_agree (hnumeral.agree python)]
      exact hdecimal

theorem Spelled.stripped {number : Option ℚ} (h : Spelled python t number) : stripped t = t :=
  stripped_of_none fun c hc => (h.numeral.plain c hc).1

/-- A number that is written without an exponent is read as itself. -/
theorem Number.Valid.parse (h : n.Valid python) (hplain : n.Plain) :
    parseChannelNumberText python (numberText python n) = n.toFloat python := by
  obtain ⟨q, hq, hvalid⟩ := h.toFloat
  have hspelled := h.spelled hplain
  have hsome := (isDecimal_chars hspelled.decimal).1
  rw [parseChannelNumberText, hspelled.stripped, hspelled.decimal,
    if_neg (not_or.mpr ⟨hsome, by decide⟩), hspelled.read, hq]
  simp [hvalid]

theorem Number.Valid.exponent (h : n.Valid python) (hplain : ¬ n.Plain) :
    'e' ∈ numberText python n ∧ stripped (numberText python n) = numberText python n := by
  simp only [Number.Plain, not_forall, not_or, not_le] at hplain
  obtain ⟨q, rfl, hint, hsmall⟩ := hplain
  obtain ⟨q', hq, hvalid⟩ := h.toFloat
  obtain rfl : q = q' := Option.some.inj hq
  have hpos : 0 < q := by
    apply lt_of_le_of_ne (nonneg_of_valid hvalid)
    rintro rfl
    exact hint rfl
  rw [numberText, if_neg hint]
  exact python.str_exponent q (h.float q rfl) hpos hsmall

theorem Number.Valid.stripped (h : n.Valid python) :
    stripped (numberText python n) = numberText python n := by
  by_cases hplain : n.Plain
  · exact (h.spelled hplain).stripped
  · exact (h.exponent hplain).2

/-- One that is read at all is written without an exponent. -/
theorem Number.Valid.plain (h : n.Valid python)
    (hread : parseChannelNumberText python (numberText python n) ≠ none) : n.Plain := by
  by_contra hplain
  obtain ⟨hexponent, hstrip⟩ := h.exponent hplain
  have hdecimal : isDecimal python.isDigit (numberText python n) = true := by
    by_contra hnot
    rw [parseChannelNumberText, hstrip, if_pos (.inr (by simpa using hnot))] at hread
    exact hread rfl
  rcases (isDecimal_chars hdecimal).2 'e' hexponent with hdigit | hpoint
  · rw [python.isDigit_ascii 'e' (by decide)] at hdigit
    exact absurd hdigit (by decide)
  · exact absurd hpoint (by decide)

end Numbers

/-! ### Rows -/

section Rows

variable {channel : ExportChannel}

def titles : List Text := allColumns.map Column.title

def cells (python : Python) (channel : ExportChannel) : List Text := allColumns.map (cell python channel)

/-- A channel with a valid number or none, a name, a logo with a valid address or none, and text
without spaces at its ends. -/
structure Exportable (python : Python) (channel : ExportChannel) : Prop where
  number : ∀ n, channel.channelNumber = some n → n.Valid python
  name : cell python channel .name ≠ []
  logo : cell python channel .logoUrl = [] ∨ isValidUrl python (cell python channel .logoUrl) = true
  strips : ∀ column, column ≠ .channelNumber →
    stripped (cell python channel column) = cell python channel column

/-- The condition on which a channel reads back. -/
structure ReadsBack (python : Python) (channel : ExportChannel) : Prop where
  number : ∀ n, channel.channelNumber = some n → n.Plain
  lines : ∀ column, goesOn (cell python channel column) = true

theorem cell_number {n : Number} (h : channel.channelNumber = some n) :
    cell python channel .channelNumber = numberText python n := by
  rw [cell, h]
  rfl

theorem Exportable.strip (h : Exportable python channel) (column : Column) :
    stripped (cell python channel column) = cell python channel column := by
  by_cases hcolumn : column = .channelNumber
  · subst hcolumn
    cases hnumber : channel.channelNumber with
    | none =>
      rw [cell, hnumber]
      rfl
    | some n =>
      rw [cell_number hnumber]
      exact (h.number n hnumber).stripped
  · exact h.strips column hcolumn

theorem validate_cell (h : Exportable python channel)
    (hplain : ∀ n, channel.channelNumber = some n → n.Plain) :
    validateChannelRow python (cell python channel) = [] := by
  have hnumber : ¬ (cell python channel .channelNumber ≠ [] ∧
      parseChannelNumberText python (cell python channel .channelNumber) = none) := by
    rintro ⟨hsome, hread⟩
    cases hn : channel.channelNumber with
    | none => exact hsome (by rw [cell, hn]; rfl)
    | some n =>
      obtain ⟨q, hq, -⟩ := (h.number n hn).toFloat
      rw [cell_number hn, (h.number n hn).parse (hplain n hn), hq] at hread
      cases hread
  have hlogo : ¬ (cell python channel .logoUrl ≠ [] ∧
      isValidUrl python (cell python channel .logoUrl) = false) := by
    rintro ⟨hsome, hurl⟩
    exact absurd (h.logo.resolve_left hsome) (by simp [hurl])
  rw [validateChannelRow, h.strip, h.strip, h.strip, if_neg h.name, if_neg hnumber, if_neg hlogo]
  rfl

theorem plain_of_validate (h : Exportable python channel)
    (hvalid : validateChannelRow python (cell python channel) = []) {n : Number}
    (hn : channel.channelNumber = some n) : n.Plain := by
  by_contra hplain
  rw [validateChannelRow, h.strip, h.strip, h.strip, List.append_eq_nil_iff,
    List.append_eq_nil_iff] at hvalid
  have hnumber := hvalid.1.2
  rw [cell_number hn] at hnumber
  have hsome : numberText python n ≠ [] := List.ne_nil_of_mem ((h.number n hn).exponent hplain).1
  split at hnumber
  · cases hnumber
  · rename_i hnot
    exact hplain ((h.number n hn).plain fun hread => hnot ⟨hsome, hread⟩)

theorem plain_titles : ∀ t ∈ titles, ∀ c ∈ t, isSpace c = false ∧ c ≠ '#' := by
  have hall : (titles.all fun t => t.all fun c => !isSpace c && c ≠ '#') = true := by decide +kernel
  simpa only [List.all_eq_true, Bool.and_eq_true, Bool.not_eq_true', decide_eq_true_eq] using hall

theorem stripped_titles : ∀ t ∈ titles, stripped t = t :=
  fun t ht => stripped_of_none fun c hc => (plain_titles t ht c hc).1

theorem isRow_titles : IsRow titles where
  shape := ⟨_, _, _, rfl⟩
  first t ht := plain_titles t (List.mem_of_mem_head? ht)
  strips := stripped_titles

theorem goesOn_titles : ∀ t ∈ titles, goesOn t = true := fun t ht =>
  goesOn_of_line fun hline => absurd (plain_titles t ht '\n' hline).1 (by decide)

theorem isRow_cells (h : Exportable python channel)
    (hplain : ∀ n, channel.channelNumber = some n → n.Plain) : IsRow (cells python channel) where
  shape := ⟨_, _, _, rfl⟩
  first := by
    intro t ht
    obtain rfl : cell python channel .channelNumber = t := Option.some.inj ht
    cases hn : channel.channelNumber with
    | none =>
      rw [cell, hn]
      exact fun c hc => nomatch hc
    | some n =>
      rw [cell_number hn]
      exact ((h.number n hn).spelled (hplain n hn)).numeral.plain
  strips := by
    intro t ht
    obtain ⟨column, -, rfl⟩ := List.mem_map.mp ht
    exact h.strip column

/-- A value for each column. -/
def byColumn {β : Type} (a b c d e f g : β) : Column → β
  | .channelNumber => a
  | .name => b
  | .groupName => c
  | .tvgId => d
  | .gracenoteId => e
  | .logoUrl => f
  | .streamUrls => g

theorem exists_columns {β : Type} {l : List β} (h : 7 ≤ l.length) :
    ∃ (v : Column → β) (rest : List β), l = allColumns.map v ++ rest := by
  obtain _ | ⟨a, _ | ⟨b, _ | ⟨c, _ | ⟨d, _ | ⟨e, _ | ⟨f, _ | ⟨g, rest⟩⟩⟩⟩⟩⟩⟩ := l
  iterate 7 · simp at h
  exact ⟨byColumn a b c d e f g, rest, rfl⟩

theorem get?_columns {β : Type} (v : Column → β) (column : Column) :
    (Dict.ofList (allColumns.map fun c => (c.title, v c))).get? column.title = some (v column) := by
  have hkeys : ((allColumns.map fun c => (c.title, v c)).map Prod.fst).Nodup := by
    rw [List.map_map]
    exact (by decide +kernel : (allColumns.map Column.title).Nodup)
  rw [Dict.get?_eq_some, Dict.items_ofList _ hkeys]
  exact List.mem_map.mpr ⟨column, by cases column <;> decide, rfl⟩

/-- The row under the titles of an export, column by column. -/
theorem normalizedRow_titles {row : List Text} {v : Column → Option Text} {rest : List (Option Text)}
    (h : row.map some ++ List.replicate (7 - row.length) none = allColumns.map v ++ rest)
    (column : Column) :
    normalizedRow python titles row column = ((v column).map stripped).getD [] := by
  have hmapping : (titles.map fun col => (stripped (python.lower col), col)) =
      allColumns.map fun c => (c.title, c.title) := by
    have hstrip : ∀ c : Column, stripped c.title = c.title := fun c =>
      stripped_titles c.title (List.mem_map_of_mem (by cases c <;> decide))
    rw [titles, List.map_map]
    exact List.map_congr_left fun c _ => by simp [python.lower_title, hstrip]
  have hrow : dictRow titles row = Dict.ofList (allColumns.map fun c => (c.title, v c)) := by
    have hlength : titles.length = 7 := rfl
    rw [dictRow, hlength, h]
    rfl
  simp only [normalizedRow, hmapping, python.lower_title, get?_columns, hrow]
  cases v column <;> rfl

theorem normalizedRow_cells (h : Exportable python channel) :
    normalizedRow python titles (cells python channel) = cell python channel := by
  funext column
  have hlength : (cells python channel).length = 7 := rfl
  have hcolumns : (cells python channel).map some ++
      List.replicate (7 - (cells python channel).length) none =
        allColumns.map (some ∘ cell python channel) ++ [] := by
    rw [hlength, cells, List.map_map]
    rfl
  rw [normalizedRow_titles hcolumns]
  exact h.strip column

theorem count_stripped (t : Text) : (stripped t).count '\n' ≤ t.count '\n' :=
  (((List.rdropWhile_prefix isSpace _).sublist).trans (List.dropWhile_sublist isSpace)).count_le _

/-- A row has no more newlines in its columns than it has. -/
theorem newlines_normalizedRow (row : List Text) :
    newlines (allColumns.map (normalizedRow python titles row)) ≤ newlines row := by
  have hlong : 7 ≤ (row.map some ++ List.replicate (7 - row.length) (none : Option Text)).length := by
    rw [List.length_append, List.length_map, List.length_replicate]
    omega
  obtain ⟨v, rest, hv⟩ := exists_columns hlong
  let count : Option Text → ℕ := fun value => (value.map (List.count '\n')).getD 0
  have hcolumn : ∀ column, (normalizedRow python titles row column).count '\n' ≤ count (v column) := by
    intro column
    rw [normalizedRow_titles hv]
    cases v column with
    | none => exact Nat.le_refl _
    | some value => exact count_stripped value
  have hle : newlines (allColumns.map (normalizedRow python titles row)) ≤
      ((allColumns.map v).map count).sum := by
    rw [newlines, List.map_map, List.map_map]
    exact List.sum_le_sum fun column _ => hcolumn column
  have hrow : ((row.map some ++ List.replicate (7 - row.length) none).map count).sum =
      newlines row := by
    simp [newlines, count, Function.comp_def]
  rw [hv, List.map_append, List.sum_append] at hrow
  omega

end Rows

/-! ### The round trip -/

section RoundTrip

variable {channels : List ExportChannel}

/-- Nothing is reported, and there is a row for each channel with what was exported of it. -/
def RoundTrips (python : Python) (channels : List ExportChannel) : Prop :=
  parseCsv python (generateCsv python channels) = .ok (channels.map (cell python), []) ∧
    ∀ channel ∈ channels, ∀ n, channel.channelNumber = some n →
      parseChannelNumberText python (cell python channel .channelNumber) = n.toFloat python

theorem generateCsv_eq (python : Python) (channels : List ExportChannel) :
    generateCsv python channels =
      rowBody titles ++ '\n' :: written (channels.map (cells python)) := by
  have hfirst : generateCsv python channels =
      rowText titles ++ written (channels.map (cells python)) := rfl
  rw [hfirst, rowText, List.append_assoc]
  rfl

/-- The newline at the end of some rows ends no line that an import keeps. -/
theorem filter_lines (rows : List (List Text)) (last : List Text) :
    ((written (rows ++ [last])).splitOn '\n').filter keepsLine =
      ((written rows ++ rowBody last).splitOn '\n').filter keepsLine := by
  have hblank : ((([] : Text).splitOn '\n').filter keepsLine) = [] := rfl
  rw [written_concat, List.splitOn_append_cons_self, List.filter_append, hblank, List.append_nil]

theorem filteredLines_generateCsv (python : Python) (channels : List ExportChannel) :
    filteredLines (generateCsv python channels) = rowBody titles ::
      ((written (channels.map (cells python))).splitOn '\n').filter keepsLine := by
  have hline : '\n' ∉ rowBody titles := by decide +kernel
  have hkeeps : keepsLine (rowBody titles) = true := by decide +kernel
  rw [filteredLines, generateCsv_eq, List.splitOn_append_cons_self_of_not_mem hline,
    List.filter_cons_of_pos hkeeps]

/-- The first row that is read is that of the titles. -/
theorem parseCsv_generateCsv (python : Python) (channels : List ExportChannel) :
    ∃ rows, (readText (['\n'].intercalate (filteredLines (generateCsv python channels)))).rows =
        titles :: rows ∧
      parseCsv python (generateCsv python channels) =
        if (readText (['\n'].intercalate (filteredLines (generateCsv python channels)))).state =
          .failed then .error .reader
        else .ok (validatedRows python
          ((rows.filter (· ≠ [])).map (normalizedRow python titles))) := by
  have hlines := filteredLines_generateCsv python channels
  have htitles : titles ≠ [] := by decide
  obtain ⟨rows, hrows⟩ := readText_first htitles
    (((written (channels.map (cells python))).splitOn '\n').filter keepsLine)
  rw [← hlines] at hrows
  have hcontent : stripped (generateCsv python channels) ≠ [] := by
    have hbegin : generateCsv python channels = 'c' :: (generateCsv python channels).tail := rfl
    obtain ⟨rest, hrest⟩ := stripEnds_cons_of_neg (p := isSpace) (a := 'c')
      (generateCsv python channels).tail (by decide)
    rw [hbegin, stripped, hrest]
    exact List.cons_ne_nil _ _
  have hname : Column.name.title ∈ titles.map fun col => stripped (python.lower col) := by
    refine List.mem_map.mpr ⟨Column.name.title, by decide, ?_⟩
    rw [python.lower_title]
    decide +kernel
  have hsome : ¬ (generateCsv python channels = [] ∨ stripped (generateCsv python channels) = []) :=
    not_or.mpr ⟨List.cons_ne_nil _ _, hcontent⟩
  refine ⟨rows, hrows, ?_⟩
  rw [parseCsv, if_neg hsome, if_neg (by rw [hlines]; exact List.cons_ne_nil _ _)]
  simp only [hrows]
  rw [if_neg (not_not.mpr hname)]

theorem validatedRows_clean {rows valid : List CsvRow} :
    validatedRows python rows = (valid, []) ↔
      valid = rows ∧ ∀ row ∈ rows, validateChannelRow python row = [] := by
  have herrors : ((rows.zipIdx 2).flatMap fun e =>
      (validateChannelRow python e.1).map (RowError.mk e.2)) = [] ↔
      ∀ row ∈ rows, validateChannelRow python row = [] := by
    rw [List.flatMap_eq_nil_iff]
    conv_rhs => rw [← List.zipIdx_map_fst 2 rows]
    simp only [List.mem_map, List.map_eq_nil_iff]
    constructor
    · rintro h row ⟨e, he, rfl⟩
      exact h e he
    · exact fun h e he => h e.1 ⟨e, he, rfl⟩
  rw [validatedRows, Prod.mk.injEq, herrors]
  constructor
  · rintro ⟨rfl, hvalid⟩
    exact ⟨List.filter_eq_self.mpr fun row hrow => by simpa using hvalid row hrow, hvalid⟩
  · rintro ⟨rfl, hvalid⟩
    exact ⟨List.filter_eq_self.mpr fun row hrow => by simpa using hvalid row hrow, hvalid⟩

theorem roundTrips_of_readsBack (h : ∀ channel ∈ channels, Exportable python channel)
    (hback : ∀ channel ∈ channels, ReadsBack python channel) : RoundTrips python channels := by
  refine ⟨?_, fun channel hchannel n hn => ?_⟩
  · obtain ⟨rows, hrows, hparse⟩ := parseCsv_generateCsv python channels
    obtain ⟨before, last, hsplit⟩ : ∃ before last,
        titles :: channels.map (cells python) = before ++ [last] :=
      ⟨_, _, (List.dropLast_append_getLast (List.cons_ne_nil _ _)).symm⟩
    have hshape : ∀ row ∈ before ++ [last], IsRow row := by
      rw [← hsplit, List.forall_mem_cons, List.forall_mem_map]
      exact ⟨isRow_titles, fun channel hc => isRow_cells (h channel hc) (hback channel hc).number⟩
    have hgoes : ∀ row ∈ before ++ [last], ∀ t ∈ row, goesOn t = true := by
      rw [← hsplit, List.forall_mem_cons, List.forall_mem_map]
      refine ⟨goesOn_titles, fun channel hc => ?_⟩
      rw [cells, List.forall_mem_map]
      exact fun column _ => (hback channel hc).lines column
    have hsome : ∀ row ∈ before ++ [last], row ≠ [] := by
      intro row hrow
      obtain ⟨first, next, fields, rfl⟩ := (hshape row hrow).shape
      exact List.cons_ne_nil _ _
    have hlines : filteredLines (generateCsv python channels) =
        (written before ++ rowBody last).splitOn '\n' := by
      have hwritten : generateCsv python channels = written (before ++ [last]) := by
        rw [← hsplit]
        rfl
      rw [filteredLines, hwritten, filter_lines]
      exact List.filter_eq_self.mpr ((lines_kept_iff hshape).mpr hgoes)
    have hread := readText_written (fun row hrow => hsome row (List.mem_append_left _ hrow))
      (hsome last (by simp))
    rw [hlines, List.intercalate_splitOn, hread] at hrows hparse
    have hcells : rows = channels.map (cells python) := by
      rw [← hsplit] at hrows
      exact (List.tail_eq_of_cons_eq hrows).symm
    have hfilter : (channels.map (cells python)).filter (· ≠ []) = channels.map (cells python) := by
      rw [List.filter_eq_self, List.forall_mem_map]
      exact fun channel _ => rfl
    have hstate : ¬ ReadState.startRecord = .failed := by decide
    rw [hparse, if_neg hstate, hcells, hfilter, List.map_map]
    refine congrArg Except.ok (validatedRows_clean.mpr ⟨?_, ?_⟩)
    · exact List.map_congr_left fun channel hc => (normalizedRow_cells (h channel hc)).symm
    · rw [List.forall_mem_map]
      intro channel hc
      rw [Function.comp_apply, normalizedRow_cells (h channel hc)]
      exact validate_cell (h channel hc) (hback channel hc).number
  · rw [cell_number hn]
    exact ((h channel hchannel).number n hn).parse ((hback channel hchannel).number n hn)

/-- The rows that are read, with their newlines, are no more than the kept lines of the channels. -/
theorem rows_le_lines {rows : List (List Text)}
    (hrows : (readText (['\n'].intercalate (filteredLines (generateCsv python channels)))).rows =
      titles :: rows) :
    rows.length + (rows.map newlines).sum ≤
      (((written (channels.map (cells python))).splitOn '\n').filter keepsLine).length := by
  have hkept := kept_readText (['\n'].intercalate (filteredLines (generateCsv python channels)))
  have hline : ∀ line ∈ filteredLines (generateCsv python channels), '\n' ∉ line :=
    fun line hmem => notMem_of_mem_splitOn (List.mem_filter.mp hmem).1
  have hlength := length_splitOn (['\n'].intercalate (filteredLines (generateCsv python channels)))
  have hsome : filteredLines (generateCsv python channels) ≠ [] := by
    rw [filteredLines_generateCsv]
    exact List.cons_ne_nil _ _
  rw [List.splitOn_intercalate '\n' hline hsome, filteredLines_generateCsv,
    List.length_cons] at hlength
  rw [filteredLines_generateCsv] at hkept hrows
  rw [Reader.kept, hrows, List.length_cons, List.map_cons, List.sum_cons] at hkept
  omega

theorem newlines_cells_le {rows : List (List Text)}
    (hrows : channels.map (cell python) = (rows.filter (· ≠ [])).map (normalizedRow python titles)) :
    channels.length + ((channels.map (cells python)).map newlines).sum ≤
      rows.length + (rows.map newlines).sum := by
  have hlength := congrArg List.length hrows
  rw [List.length_map, List.length_map] at hlength
  have hshort := List.length_filter_le (· ≠ []) rows
  have hcells : (channels.map (cells python)).map newlines =
      (rows.filter (· ≠ [])).map fun row =>
        newlines (allColumns.map (normalizedRow python titles row)) := by
    have hmap := congrArg (List.map fun row : CsvRow => newlines (allColumns.map row)) hrows
    rw [List.map_map, List.map_map] at hmap
    rw [List.map_map]
    exact hmap
  have hsum : ((channels.map (cells python)).map newlines).sum ≤
      ((rows.filter (· ≠ [])).map newlines).sum := by
    rw [hcells]
    exact List.sum_le_sum fun row _ => newlines_normalizedRow row
  have hsublist := (List.filter_sublist : (rows.filter (· ≠ [])).Sublist rows).map newlines
  have hall := hsublist.sum_le_sum fun n _ => Nat.zero_le n
  omega

/-- No line that a field goes on to is missed where every row is read. -/
theorem readsBack_of_roundTrips (h : ∀ channel ∈ channels, Exportable python channel)
    (hround : RoundTrips python channels) : ∀ channel ∈ channels, ReadsBack python channel := by
  obtain ⟨rows, hread, hparse⟩ := parseCsv_generateCsv python channels
  obtain ⟨hrows, hvalid⟩ : channels.map (cell python) =
      (rows.filter (· ≠ [])).map (normalizedRow python titles) ∧
        ∀ row ∈ channels.map (cell python), validateChannelRow python row = [] := by
    rw [hround.1] at hparse
    split at hparse
    · cases hparse
    · obtain ⟨hrows, hvalid⟩ := validatedRows_clean.mp (Except.ok.inj hparse).symm
      exact ⟨hrows, hrows ▸ hvalid⟩
  have hplain : ∀ channel ∈ channels, ∀ n, channel.channelNumber = some n → n.Plain :=
    fun channel hc n hn => plain_of_validate (h channel hc) (hvalid _ (List.mem_map_of_mem hc)) hn
  have hle := (newlines_cells_le hrows).trans (rows_le_lines hread)
  have hcount := count_written (channels.map (cells python))
  rw [List.length_map] at hcount
  have hgoes : ∀ row ∈ channels.map (cells python), ∀ t ∈ row, goesOn t = true := by
    obtain hnone | ⟨before, last, hsplit⟩ := (channels.map (cells python)).eq_nil_or_concat'
    · rw [hnone]
      exact fun row hrow => nomatch hrow
    · have hshape : ∀ row ∈ before ++ [last], IsRow row := by
        rw [← hsplit, List.forall_mem_map]
        exact fun channel hc => isRow_cells (h channel hc) (hplain channel hc)
      have hlines := length_splitOn (written before ++ rowBody last)
      rw [hsplit, filter_lines] at hle
      rw [hsplit, written_concat, List.count_append, List.count_singleton_self] at hcount
      have hkept := List.length_filter_le keepsLine ((written before ++ rowBody last).splitOn '\n')
      have hall := List.length_filter_eq_length_iff.mp
        (by omega : (((written before ++ rowBody last).splitOn '\n').filter keepsLine).length = _)
      rw [hsplit]
      exact (lines_kept_iff hshape).mp hall
  intro channel hc
  refine ⟨hplain channel hc, fun column => ?_⟩
  exact hgoes _ (List.mem_map_of_mem hc) _ (List.mem_map_of_mem (by cases column <;> decide))

/-- An import undoes an export exactly when it keeps each line that a field goes on to and no number
has an exponent. -/
theorem roundTrips_iff (python : Python) (channels : List ExportChannel)
    (h : ∀ channel ∈ channels, Exportable python channel) :
    RoundTrips python channels ↔ ∀ channel ∈ channels, ReadsBack python channel :=
  ⟨readsBack_of_roundTrips h, roundTrips_of_readsBack h⟩

end RoundTrip

/-! ### Samples -/

section Samples

/-- Python on ASCII, with `1.1` for its only float. -/
def asciiPython : Python where
  lower := List.map Char.toLower
  lower_title := by
    intro column
    cases column <;> decide +kernel
  urlparse url :=
    if "http://".toList.isPrefixOf url then some ("http".toList, (url.drop 7).takeWhile (· ≠ '/'))
    else some ([], [])
  isDigit := Char.isDigit
  isDigit_ascii _ _ := rfl
  isFloat q := q = 11 / 10
  ofInt n := some n
  ofInt_nonneg := by
    intro n q hq hnonneg
    obtain rfl := Option.some.inj hq
    exact_mod_cast hnonneg
  ofInt_whole _ _ := rfl
  whole_of_large := by
    rintro q rfl hlarge
    exact absurd hlarge (by norm_num [exactIntegerFloor])
  str _ := "1.1".toList
  str_decimal _ _ _ _ := by decide +kernel
  str_exponent := by
    rintro q rfl - hsmall
    exact absurd hsmall (by norm_num)
  read t :=
    if t.all Char.isDigit then some (Nat.ofDigitChars 10 t 0 : ℕ)
    else if t = "1.1".toList then some (11 / 10) else none
  read_digits := by
    intro n
    have hdigits : (Nat.toDigits 10 n).all Char.isDigit = true := by
      rw [List.all_eq_true]
      exact fun c hc => Nat.isDigit_of_mem_toDigits (by decide) (by decide) hc
    rw [if_pos hdigits, Nat.ofDigitChars_ten_toDigits]
    rfl
  read_str := by
    rintro q rfl
    decide +kernel
  timesTen q := q * 10

def sportsChannel : ExportChannel where
  channelNumber := some (.float (11 / 10))
  name := some "Sports, \"live\"".toList
  groupName := some "Sports\nlive".toList
  tvgId := none
  gracenoteId := none
  logoUrl := some "http://logos/sports".toList
  streamUrls := none

/-- The second line of the group begins like a comment. -/
def remarkedChannel : ExportChannel where
  channelNumber := some (.int 7)
  name := some "News".toList
  groupName := some "News\n#2".toList
  tvgId := none
  gracenoteId := none
  logoUrl := none
  streamUrls := none

theorem exportable_sports : Exportable asciiPython sportsChannel where
  number := by
    intro n hn
    obtain rfl := Option.some.inj hn
    refine ⟨by decide +kernel, fun q hq => ?_⟩
    obtain rfl : 11 / 10 = q := by simpa using hq
    rfl
  name := by decide +kernel
  logo := by decide +kernel
  strips column _ := by cases column <;> decide +kernel

theorem readsBack_sports : ReadsBack asciiPython sportsChannel where
  number := by
    intro n hn q hq
    obtain rfl := Option.some.inj hn
    obtain rfl : 11 / 10 = q := by simpa using hq
    exact .inr (by norm_num)
  lines column := by cases column <;> decide +kernel

theorem exportable_remarked : Exportable asciiPython remarkedChannel where
  number := by
    intro n hn
    obtain rfl := Option.some.inj hn
    exact ⟨by decide +kernel, nofun⟩
  name := by decide +kernel
  logo := by decide +kernel
  strips column _ := by cases column <;> decide +kernel

theorem roundTrips_iff_sports :
    RoundTrips asciiPython [sportsChannel] ∧ (∀ channel ∈ [sportsChannel],
      Exportable asciiPython channel) := by
  have hexport : ∀ channel ∈ [sportsChannel], Exportable asciiPython channel :=
    List.forall_mem_singleton.mpr exportable_sports
  exact ⟨(roundTrips_iff asciiPython [sportsChannel] hexport).mpr
    (List.forall_mem_singleton.mpr readsBack_sports), hexport⟩

/-- The rest of the row goes with the line that begins like a comment. -/
theorem group_cut_short : Exportable asciiPython remarkedChannel ∧
    ¬ RoundTrips asciiPython [remarkedChannel] := by
  refine ⟨exportable_remarked, fun hround => ?_⟩
  have hread : ((parseCsv asciiPython (generateCsv asciiPython [remarkedChannel])).map fun result =>
      result.1.map fun row => row .groupName) = .ok ["News".toList] := by decide +kernel
  rw [hround.1] at hread
  exact absurd hread (by decide +kernel)

end Samples

end ChannelManager.CsvHandler
