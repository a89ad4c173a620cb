import ChannelManager.Import.CsvHandler

/-!
# The lines an import keeps

The newlines of a quoted field spread its row over several lines, of which an import drops those that
are blank or begin with `#`. It keeps every line of some rows exactly when it keeps each line that a
field of theirs goes on to.
-/

namespace ChannelManager.CsvHandler

open Csv
open Dbas (isSpace)
open Templates (Text)

/-! ### The lines of a text -/

section Lines

/-- Where a text stands: on a line that is blank so far or has something on it, or after a line that
an import drops. -/
inductive Scan
  | fresh
  | seen
  | dropped
deriving DecidableEq

def scan : Scan → Char → Scan
  | .fresh, c =>
    if c = '\n' then .dropped else if isSpace c then .fresh else if c = '#' then .dropped else .seen
  | .seen, c => if c = '\n' then .fresh else .seen
  | .dropped, _ => .dropped

variable {t line : Text}

theorem scan_dropped (t : Text) : t.foldl scan .dropped = .dropped := by
  induction t with
  | nil => rfl
  | cons c t ih => exact ih

theorem scan_seen_line (h : '\n' ∉ line) : line.foldl scan .seen = .seen := by
  induction line with
  | nil => rfl
  | cons c line ih =>
    rw [List.mem_cons, not_or] at h
    rw [List.foldl_cons, scan, if_neg (Ne.symm h.1), ih h.2]

theorem scan_line (h : '\n' ∉ line) :
    line.foldl scan .fresh =
      if keepsLine line then .seen else if stripped line = [] then .fresh else .dropped := by
  induction line with
  | nil => rfl
  | cons c line ih =>
    rw [List.mem_cons, not_or] at h
    rw [List.foldl_cons, scan, if_neg (Ne.symm h.1)]
    cases hspace : isSpace c with
    | true =>
      have hstrip : stripped (c :: line) = stripped line := stripEnds_cons_of_pos line hspace
      rw [if_pos rfl, ih h.2, keepsLine, keepsLine, hstrip]
    | false =>
      obtain ⟨rest, hrest⟩ := stripEnds_cons_of_neg line hspace
      have hstrip : stripped (c :: line) = c :: rest := hrest
      rw [if_neg Bool.false_ne_true, keepsLine, hstrip]
      by_cases hmark : c = '#'
      · simp [hmark, scan_dropped]
      · simp [hmark, scan_seen_line h.2]

/-- A line that ends is dropped, or the next one is begun. -/
theorem scan_line_end (h : '\n' ∉ line) :
    (line ++ ['\n']).foldl scan .fresh = if keepsLine line then .fresh else .dropped := by
  rw [List.foldl_append, scan_line h]
  cases hkeeps : keepsLine line with
  | true => rfl
  | false =>
    rw [if_neg Bool.false_ne_true, if_neg Bool.false_ne_true]
    split <;> rfl

/-- A text is a line, or a line and what follows it. -/
theorem line_or_more (t : Text) : '\n' ∉ t ∨ ∃ line rest, '\n' ∉ line ∧ t = line ++ '\n' :: rest := by
  by_cases h : '\n' ∈ t
  · obtain ⟨line, rest, hsplit, hline⟩ := List.eq_append_cons_of_mem h
    exact .inr ⟨line, rest, hline, hsplit⟩
  · exact .inl h

theorem scan_lines (t : Text) :
    (t ++ ['\n']).foldl scan .fresh ≠ .dropped ↔ ∀ line ∈ t.splitOn '\n', keepsLine line := by
  obtain ⟨n, hn⟩ : ∃ n, t.length = n := ⟨_, rfl⟩
  induction n using Nat.strong_induction_on generalizing t with
  | _ n ih =>
    rcases line_or_more t with hline | ⟨line, rest, hline, rfl⟩
    · rw [scan_line_end hline, List.splitOn_eq_singleton hline, List.forall_mem_singleton]
      split <;> simp_all
    · have hless : rest.length < n := by
        rw [← hn, List.length_append, List.length_cons]
        omega
      have hsplit : line ++ '\n' :: rest ++ ['\n'] = (line ++ ['\n']) ++ (rest ++ ['\n']) := by simp
      rw [hsplit, List.foldl_append, scan_line_end hline,
        List.splitOn_append_cons_self_of_not_mem hline, List.forall_mem_cons]
      cases hkeeps : keepsLine line with
      | true => simpa using ih _ hless rest rfl
      | false =>
        rw [if_neg Bool.false_ne_true, scan_dropped]
        simp

/-- The lines that a text goes on to, after the one it begins on. -/
theorem scan_tail (t : Text) :
    (t ++ ['\n']).foldl scan .seen ≠ .dropped ↔
      ∀ line ∈ (t.splitOn '\n').tail, keepsLine line := by
  rcases line_or_more t with hline | ⟨line, rest, hline, rfl⟩
  · rw [List.foldl_append, scan_seen_line hline, List.splitOn_eq_singleton hline]
    simp [scan]
  · have hsplit : line ++ '\n' :: rest ++ ['\n'] = line ++ (['\n'] ++ (rest ++ ['\n'])) := by simp
    rw [hsplit, List.foldl_append, scan_seen_line hline, List.foldl_append,
      List.splitOn_append_cons_self_of_not_mem hline, List.tail_cons]
    exact scan_lines rest

end Lines

/-! ### The lines of a row -/

section Rows

/-- Whether an import reads each line that a field goes on to. -/
def goesOn (t : Text) : Bool := (t.splitOn '\n').tail.all keepsLine

variable {t : Text}

theorem goesOn_of_line (h : '\n' ∉ t) : goesOn t = true := by
  rw [goesOn, List.splitOn_eq_singleton h]
  rfl

theorem goesOn_iff : goesOn t = true ↔ (t ++ ['\n']).foldl scan .seen ≠ .dropped := by
  rw [scan_tail, goesOn, List.all_eq_true]

theorem scan_doubled (s : Scan) (t : Text) : (doubled t).foldl scan s = t.foldl scan s := by
  induction t generalizing s with
  | nil => rfl
  | cons c t ih =>
    rw [doubled, List.flatMap_cons, List.foldl_append, ← doubled, ih]
    by_cases hquote : c = '"'
    · subst hquote
      cases s <;> rfl
    · rw [if_neg hquote]
      rfl

theorem isSpace_last {c : Char} (hstrip : stripped (t ++ [c]) = t ++ [c]) : isSpace c = false := by
  have hnot := List.rdropWhile_last_not isSpace ((t ++ [c]).dropWhile isSpace)
  have hends : ((t ++ [c]).dropWhile isSpace).rdropWhile isSpace = t ++ [c] := hstrip
  simpa [hends] using hnot

/-- A text that ends in no space ends on a line with something on it. -/
theorem scan_ne_fresh (hsome : t ≠ []) (hstrip : stripped t = t) (s : Scan) :
    t.foldl scan s ≠ .fresh := by
  cases t using List.reverseRecOn with
  | nil => exact absurd rfl hsome
  | append_singleton t c =>
    have hspace := isSpace_last hstrip
    have hline : c ≠ '\n' := by
      rintro rfl
      exact absurd hspace (by decide)
    rw [List.foldl_append]
    cases t.foldl scan s with
    | fresh =>
      simp only [List.foldl_cons, List.foldl_nil, scan, if_neg hline, hspace]
      by_cases hmark : c = '#' <;> simp [hmark]
    | seen => simp [scan, hline]
    | dropped => simp [scan]

theorem scan_fieldText (hstrip : stripped t = t) :
    (fieldText t).foldl scan .seen = if goesOn t then .seen else .dropped := by
  unfold fieldText
  cases hquotes : needsQuotes t with
  | false =>
    have hline : '\n' ∉ t := by
      intro h
      exact absurd hquotes (by simpa [needsQuotes] using ⟨'\n', h, by simp⟩)
    rw [if_neg Bool.false_ne_true, goesOn_of_line hline, if_pos rfl, scan_seen_line hline]
  | true =>
    have hsome : t ≠ [] := by
      rintro rfl
      exact absurd hquotes (by decide)
    have hopen : scan .seen '"' = .seen := rfl
    have hend := goesOn_iff (t := t)
    rw [if_pos rfl, List.foldl_cons, hopen, List.foldl_append, scan_doubled]
    rw [List.foldl_append] at hend
    cases hscan : t.foldl scan .seen with
    | fresh => exact absurd hscan (scan_ne_fresh hsome hstrip _)
    | seen =>
      rw [hscan] at hend
      rw [if_pos (hend.mpr (by decide))]
      rfl
    | dropped =>
      rw [hscan] at hend
      rw [if_neg fun h => hend.mp h rfl]
      rfl

theorem scan_fieldsText {fields : List Text} (hstrip : ∀ t ∈ fields, stripped t = t) :
    (fieldsText fields).foldl scan .seen = if fields.all goesOn then .seen else .dropped := by
  induction fields with
  | nil => rfl
  | cons t fields ih =>
    obtain ⟨ht, hfields⟩ := List.forall_mem_cons.mp hstrip
    cases fields with
    | nil => simp [fieldsText, scan_fieldText ht]
    | cons next fields =>
      have hcomma : scan .seen ',' = .seen := rfl
      rw [fieldsText.eq_3 _ _ (List.cons_ne_nil next fields), List.foldl_append, scan_fieldText ht,
        List.all_cons]
      cases goesOn t with
      | true => simpa [hcomma] using ih hfields
      | false => exact scan_dropped _

/-- The fields of a row, the first of which a line can begin with. -/
structure IsRow (row : List Text) : Prop where
  shape : ∃ first next fields, row = first :: next :: fields
  first : ∀ t ∈ row.head?, ∀ c ∈ t, isSpace c = false ∧ c ≠ '#'
  strips : ∀ t ∈ row, stripped t = t

theorem scan_first {t : Text} (h : ∀ c ∈ t, isSpace c = false ∧ c ≠ '#') :
    (fieldText t ++ [',']).foldl scan .fresh = .seen := by
  have hbegin : ∀ c rest, isSpace c = false → c ≠ '#' → '\n' ∉ rest →
      (c :: rest).foldl scan .fresh = .seen := by
    intro c rest hspace hmark hline
    have hc : c ≠ '\n' := by
      rintro rfl
      exact absurd hspace (by decide)
    rw [List.foldl_cons, scan, if_neg hc, hspace, if_neg Bool.false_ne_true, if_neg hmark,
      scan_seen_line hline]
  have hline : '\n' ∉ t := fun hmem => absurd (h '\n' hmem).1 (by decide)
  have hdoubled : '\n' ∉ doubled t := by
    intro hmem
    obtain ⟨c, hc, hin⟩ := List.mem_flatMap.mp hmem
    split at hin
    · simp at hin
    · rw [List.mem_singleton] at hin
      exact hline (hin ▸ hc)
  unfold fieldText
  split
  · exact hbegin '"' _ (by decide) (by decide) (by simp [hdoubled])
  · cases t with
    | nil => rfl
    | cons c t =>
      obtain ⟨hspace, hmark⟩ := h c List.mem_cons_self
      rw [List.mem_cons, not_or] at hline
      exact hbegin c _ hspace hmark (by simp [hline.2])

theorem scan_rowText {row : List Text} (h : IsRow row) :
    (rowText row).foldl scan .fresh = if row.all goesOn then .fresh else .dropped := by
  obtain ⟨first, next, fields, rfl⟩ := h.shape
  have hfirst := h.first first rfl
  have hline : '\n' ∉ first := fun hmem => absurd (hfirst '\n' hmem).1 (by decide)
  have hsplit : rowText (first :: next :: fields) =
      (fieldText first ++ [',']) ++ (fieldsText (next :: fields) ++ ['\r', '\n']) := by
    simp [rowText, rowBody, fieldsText]
  rw [hsplit, List.foldl_append, scan_first hfirst, List.foldl_append,
    scan_fieldsText fun t ht => h.strips t (List.mem_cons_of_mem first ht),
    List.all_cons (a := first), goesOn_of_line hline, Bool.true_and]
  split <;> rfl

theorem scan_written {rows : List (List Text)} (h : ∀ row ∈ rows, IsRow row) :
    (written rows).foldl scan .fresh =
      if rows.all (·.all goesOn) then .fresh else .dropped := by
  induction rows with
  | nil => rfl
  | cons row rows ih =>
    obtain ⟨hrow, hrows⟩ := List.forall_mem_cons.mp h
    rw [written, List.flatMap_cons, List.foldl_append, ← written, scan_rowText hrow, List.all_cons]
    cases row.all goesOn with
    | true => simpa using ih hrows
    | false => exact scan_dropped _

/-- An import drops no line of some rows, up to the end of the last, if each field goes on. -/
theorem lines_kept_iff {rows : List (List Text)} {last : List Text}
    (h : ∀ row ∈ rows ++ [last], IsRow row) :
    (∀ line ∈ (written rows ++ rowBody last).splitOn '\n', keepsLine line) ↔
      ∀ row ∈ rows ++ [last], ∀ t ∈ row, goesOn t := by
  have hrows : (rows ++ [last]).all (·.all goesOn) = true ↔
      ∀ row ∈ rows ++ [last], ∀ t ∈ row, goesOn t = true := by
    simp only [List.all_eq_true]
  rw [← scan_lines, ← written_concat, scan_written h, ← hrows]
  cases (rows ++ [last]).all (·.all goesOn) <;> decide

end Rows

end ChannelManager.CsvHandler
