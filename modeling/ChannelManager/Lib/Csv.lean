import Mathlib

/-!
# Comma-separated values

A writer that quotes a field where it must, and a reader that goes over a text character by
character, ending a line at each newline. What is written reads back, with or without the newline at
its end, and the rows read from any text, counted with the newlines in them, are no more than its
lines.
-/

namespace ChannelManager.Csv

/-! ### Writing -/

def needsQuotes (field : List Char) : Bool :=
  field.any fun c => c = ',' || c = '"' || c = '\r' || c = '\n'

/-- The quotes in a field are doubled. -/
def doubled (field : List Char) : List Char :=
  field.flatMap fun c => if c = '"' then ['"', '"'] else [c]

def fieldText (field : List Char) : List Char :=
  if needsQuotes field then '"' :: (doubled field ++ ['"']) else field

def fieldsText : List (List Char) → List Char
  | [] => []
  | [field] => fieldText field
  | field :: fields => fieldText field ++ ',' :: fieldsText fields

/-- The row up to its newline. One empty field is quoted, as it would be no row else. -/
def rowBody (fields : List (List Char)) : List Char :=
  (if fields = [[]] then ['"', '"'] else fieldsText fields) ++ ['\r']

def rowText (fields : List (List Char)) : List Char := rowBody fields ++ ['\n']

def written (rows : List (List (List Char))) : List Char := rows.flatMap rowText

/-! ### Reading -/

inductive ReadState
  | startRecord
  | startField
  | inField
  | inQuotedField
  | quoteInQuotedField
  | eatNewline
  | failed
deriving DecidableEq

/-- The reader, the field and the row it is in, and the rows read. -/
structure Reader where
  state : ReadState
  field : List Char
  fields : List (List Char)
  rows : List (List (List Char))
deriving DecidableEq

namespace Reader

def start : Reader := ⟨.startRecord, [], [], []⟩

def addChar (r : Reader) (c : Char) (state : ReadState) : Reader :=
  ⟨state, r.field ++ [c], r.fields, r.rows⟩

def saveField (r : Reader) (state : ReadState) : Reader :=
  ⟨state, [], r.fields ++ [r.field], r.rows⟩

def go (r : Reader) (state : ReadState) : Reader := ⟨state, r.field, r.fields, r.rows⟩

/-- A row is read. -/
def emit (r : Reader) : Reader := ⟨.startRecord, [], [], r.rows ++ [r.fields]⟩

def atFieldStart (r : Reader) (c : Char) : Reader :=
  if c = '\n' ∨ c = '\r' then r.saveField .eatNewline
  else if c = '"' then r.go .inQuotedField
  else if c = ',' then r.saveField .startField
  else r.addChar c .inField

def processChar (r : Reader) (c : Char) : Reader :=
  match r.state with
  | .startRecord => if c = '\n' ∨ c = '\r' then r.go .eatNewline else r.atFieldStart c
  | .startField => r.atFieldStart c
  | .inField =>
    if c = '\n' ∨ c = '\r' then r.saveField .eatNewline
    else if c = ',' then r.saveField .startField
    else r.addChar c .inField
  | .inQuotedField => if c = '"' then r.go .quoteInQuotedField else r.addChar c .inQuotedField
  | .quoteInQuotedField =>
    if c = '"' then r.addChar c .inQuotedField
    else if c = ',' then r.saveField .startField
    else if c = '\n' ∨ c = '\r' then r.saveField .eatNewline
    else r.addChar c .inField
  | .eatNewline => if c = '\n' ∨ c = '\r' then r else r.go .failed
  | .failed => r

/-- A quoted field goes on after the end of a line. -/
def endOfLine (r : Reader) : Reader :=
  match r.state with
  | .startRecord | .eatNewline => r.emit
  | .startField | .inField | .quoteInQuotedField => (r.saveField .startRecord).emit
  | .inQuotedField | .failed => r

def feed (r : Reader) (c : Char) : Reader :=
  if c = '\n' then (r.processChar c).endOfLine else r.processChar c

/-- At the end of the text a line ends, and a field whose quotes are open. -/
def finish (r : Reader) (t : List Char) : Reader :=
  let r := if t = [] ∨ t.getLast? = some '\n' then r else r.endOfLine
  if r.state = .inQuotedField then (r.saveField .startRecord).emit else r

end Reader

def readText (t : List Char) : Reader := (t.foldl Reader.feed Reader.start).finish t

/-! ### What is written reads back -/

section RoundTrip

variable {r : Reader} {field : List Char}

theorem feed_of_ne {c : Char} (h : c ≠ '\n') : r.feed c = r.processChar c := if_neg h

/-- Within quotes the doubled text of a field is the field. -/
theorem feed_doubled (hstate : r.state = .inQuotedField) :
    (doubled field).foldl Reader.feed r =
      ⟨.inQuotedField, r.field ++ field, r.fields, r.rows⟩ := by
  induction field generalizing r with
  | nil =>
    rw [List.append_nil, ← hstate]
    rfl
  | cons c field ih =>
    have hone : (if c = '"' then ['"', '"'] else [c]).foldl Reader.feed r =
        r.addChar c .inQuotedField := by
      by_cases hquote : c = '"'
      · subst hquote
        simp [Reader.feed, Reader.processChar, hstate, Reader.go, Reader.addChar]
      · by_cases hline : c = '\n'
        · subst hline
          simp [Reader.feed, Reader.processChar, hstate, Reader.addChar, Reader.endOfLine]
        · simp [Reader.feed, Reader.processChar, hstate, hquote, hline]
    rw [doubled, List.flatMap_cons, List.foldl_append, ← doubled, hone, ih rfl, Reader.addChar,
      List.append_assoc]
    rfl

/-- Outside quotes a field without special characters is read as it is. -/
theorem feed_plain (hstate : r.state = .inField) (hplain : needsQuotes field = false) :
    field.foldl Reader.feed r = ⟨.inField, r.field ++ field, r.fields, r.rows⟩ := by
  induction field generalizing r with
  | nil =>
    rw [List.append_nil, ← hstate]
    rfl
  | cons c field ih =>
    simp only [needsQuotes, List.any_cons, Bool.or_eq_false_iff, decide_eq_false_iff_not] at hplain
    obtain ⟨⟨⟨⟨hcomma, hquote⟩, hreturn⟩, hline⟩, hrest⟩ := hplain
    have hone : r.feed c = r.addChar c .inField := by
      simp [Reader.feed, Reader.processChar, hstate, hline, hreturn, hcomma]
    rw [List.foldl_cons, hone, ih rfl hrest, Reader.addChar, List.append_assoc]
    rfl

/-- A field is saved where the next one or the end of the row follows it. -/
theorem feed_field {c : Char} (hc : c = ',' ∨ c = '\r') (hfield : r.field = [])
    (hstate : r.state = .startField ∨ r.state = .startRecord ∧ (field ≠ [] ∨ c = ',')) :
    (fieldText field ++ [c]).foldl Reader.feed r =
      ⟨if c = ',' then .startField else .eatNewline, [], r.fields ++ [field], r.rows⟩ := by
  have hline : c ≠ '\n' := by
    rcases hc with rfl | rfl <;> decide
  have hstart : ∀ d, ¬ (d = '\n' ∨ d = '\r') → r.processChar d = r.atFieldStart d := by
    intro d hd
    rcases hstate with h | ⟨h, -⟩
    · simp only [Reader.processChar, h]
    · simp only [Reader.processChar, h, if_neg hd]
  rw [List.foldl_append, List.foldl_cons, List.foldl_nil, feed_of_ne hline]
  cases hquotes : needsQuotes field with
  | true =>
    have hopen : r.feed '"' = r.go .inQuotedField := by
      rw [feed_of_ne (by decide), hstart '"' (by decide)]
      rfl
    rw [fieldText, if_pos hquotes, List.foldl_cons, hopen, List.foldl_append, feed_doubled rfl]
    rcases hc with rfl | rfl <;>
      simp [Reader.go, Reader.feed, Reader.processChar, Reader.saveField, hfield]
  | false =>
    rw [fieldText, hquotes, if_neg Bool.false_ne_true]
    cases field with
    | nil =>
      have hsaved : r.processChar c = r.atFieldStart c := by
        rcases hc with rfl | rfl
        · exact hstart ',' (by decide)
        · rcases hstate with h | ⟨-, h | h⟩
          · simp only [Reader.processChar, h]
          · exact absurd rfl h
          · exact absurd h (by decide)
      rw [List.foldl_nil, hsaved]
      rcases hc with rfl | rfl <;> simp [Reader.atFieldStart, Reader.saveField, hfield]
    | cons d field =>
      simp only [needsQuotes, List.any_cons, Bool.or_eq_false_iff, decide_eq_false_iff_not]
        at hquotes
      obtain ⟨⟨⟨⟨hcomma, hquote⟩, hreturn⟩, hend⟩, hrest⟩ := hquotes
      have hfirst : r.feed d = r.addChar d .inField := by
        rw [feed_of_ne hend, hstart d (not_or.mpr ⟨hend, hreturn⟩)]
        simp [Reader.atFieldStart, hend, hreturn, hquote, hcomma]
      rw [List.foldl_cons, hfirst, feed_plain rfl hrest]
      rcases hc with rfl | rfl <;>
        simp [Reader.addChar, Reader.processChar, Reader.saveField, hfield]

/-- The fields of a row up to the return that ends it. -/
theorem feed_fields {fields : List (List Char)} (hfields : fields ≠ []) (hfield : r.field = [])
    (hstate : r.state = .startField ∨ r.state = .startRecord ∧ fields ≠ [[]]) :
    (fieldsText fields ++ ['\r']).foldl Reader.feed r =
      ⟨.eatNewline, [], r.fields ++ fields, r.rows⟩ := by
  induction fields generalizing r with
  | nil => exact absurd rfl hfields
  | cons field fields ih =>
    cases fields with
    | nil =>
      rw [fieldsText, feed_field (.inr rfl) hfield]
      · rfl
      · refine hstate.imp_right fun h => ⟨h.1, .inl fun hnil => ?_⟩
        subst hnil
        exact h.2 rfl
    | cons next fields =>
      have hsplit : fieldsText (field :: next :: fields) ++ ['\r'] =
          (fieldText field ++ [',']) ++ (fieldsText (next :: fields) ++ ['\r']) := by
        simp [fieldsText]
      rw [hsplit, List.foldl_append, feed_field (.inl rfl) hfield
        (hstate.imp_right fun h => ⟨h.1, .inr rfl⟩), ih (List.cons_ne_nil _ _) rfl (.inl rfl)]
      simp

theorem feed_row {fields : List (List Char)} (hfields : fields ≠ []) (hfield : r.field = [])
    (hnone : r.fields = []) (hstate : r.state = .startRecord) :
    (rowBody fields).foldl Reader.feed r = ⟨.eatNewline, [], fields, r.rows⟩ := by
  unfold rowBody
  split
  next h =>
    subst h
    simp [Reader.feed, Reader.processChar, Reader.atFieldStart, Reader.go, Reader.saveField,
      hstate, hfield, hnone]
  next h => rw [feed_fields hfields hfield (.inr ⟨hstate, h⟩), hnone, List.nil_append]

theorem foldl_written (rows done : List (List (List Char))) (h : ∀ fields ∈ rows, fields ≠ []) :
    (written rows).foldl Reader.feed ⟨.startRecord, [], [], done⟩ =
      ⟨.startRecord, [], [], done ++ rows⟩ := by
  induction rows generalizing done with
  | nil => simp [written]
  | cons fields rows ih =>
    obtain ⟨hfields, hrows⟩ := List.forall_mem_cons.mp h
    rw [written, List.flatMap_cons, List.foldl_append, ← written, rowText, List.foldl_append,
      feed_row hfields rfl rfl rfl]
    have hend : ['\n'].foldl Reader.feed ⟨.eatNewline, [], fields, done⟩ =
        ⟨.startRecord, [], [], done ++ [fields]⟩ := rfl
    rw [hend, ih _ hrows, List.append_assoc, List.singleton_append]

theorem written_concat (rows : List (List (List Char))) (fields : List (List Char)) :
    written (rows ++ [fields]) = (written rows ++ rowBody fields) ++ ['\n'] := by
  simp [written, rowText]

/-- What is written reads back, without the newline at its end. -/
theorem readText_written {rows : List (List (List Char))} {fields : List (List Char)}
    (hrows : ∀ row ∈ rows, row ≠ []) (hfields : fields ≠ []) :
    readText (written rows ++ rowBody fields) = ⟨.startRecord, [], [], rows ++ [fields]⟩ := by
  have hend : (written rows ++ rowBody fields).getLast? = some '\r' := by
    simp [rowBody]
  have hsome : written rows ++ rowBody fields ≠ [] := by
    simp [rowBody]
  rw [readText, List.foldl_append, Reader.start, foldl_written rows [] hrows, List.nil_append,
    feed_row hfields rfl rfl rfl, Reader.finish, hend, if_neg (not_or.mpr ⟨hsome, by decide⟩)]
  rfl

end RoundTrip

/-! ### Rows and lines -/

section Lines

/-- The newlines in some fields. -/
def newlines (fields : List (List Char)) : ℕ := (fields.map (List.count '\n')).sum

/-- The rows read with the newlines that a reader has kept. -/
def Reader.kept (r : Reader) : ℕ :=
  r.rows.length + (r.rows.map newlines).sum + newlines r.fields + r.field.count '\n'

theorem newlines_concat (fields : List (List Char)) (field : List Char) :
    newlines (fields ++ [field]) = newlines fields + field.count '\n' := by
  simp [newlines]

theorem kept_saveField (r : Reader) (state : ReadState) : (r.saveField state).kept = r.kept := by
  simp [Reader.kept, Reader.saveField, newlines_concat, Nat.add_assoc]

theorem kept_go (r : Reader) (state : ReadState) : (r.go state).kept = r.kept := rfl

theorem kept_addChar (r : Reader) {c : Char} (state : ReadState) (h : c ≠ '\n') :
    (r.addChar c state).kept = r.kept := by
  simp [Reader.kept, Reader.addChar, h]

theorem kept_emit (r : Reader) : r.emit.kept + r.field.count '\n' = r.kept + 1 := by
  simp [Reader.kept, Reader.emit, newlines]
  omega

theorem kept_endOfLine (r : Reader) : r.endOfLine.kept ≤ r.kept + 1 := by
  have hemit := kept_emit r
  have hsave := kept_emit (r.saveField .startRecord)
  rw [kept_saveField] at hsave
  unfold Reader.endOfLine
  split <;> omega

theorem kept_atFieldStart (r : Reader) {c : Char} (h : c ≠ '\n') :
    (r.atFieldStart c).kept = r.kept := by
  unfold Reader.atFieldStart
  repeat' split
  all_goals simp only [kept_saveField, kept_go, kept_addChar _ _ h]

theorem kept_processChar (r : Reader) {c : Char} (h : c ≠ '\n') :
    (r.processChar c).kept = r.kept := by
  unfold Reader.processChar
  repeat' split
  all_goals simp only [kept_saveField, kept_go, kept_addChar _ _ h, kept_atFieldStart _ h]

/-- A newline is kept in a quoted field or ends a line, not both. -/
theorem kept_newline (r : Reader) : (r.feed '\n').kept ≤ r.kept + 1 := by
  by_cases hquoted : r.state = .inQuotedField
  · have hfeed : r.feed '\n' = r.addChar '\n' .inQuotedField := by
      simp [Reader.feed, Reader.processChar, hquoted, Reader.addChar, Reader.endOfLine]
    simp [hfeed, Reader.kept, Reader.addChar]
    omega
  · have hkept : (r.processChar '\n').kept = r.kept := by
      cases hstate : r.state <;>
        simp_all [Reader.processChar, Reader.atFieldStart, kept_saveField, kept_go]
    rw [Reader.feed, if_pos rfl, ← hkept]
    exact kept_endOfLine _

theorem kept_foldl (t : List Char) (r : Reader) :
    (t.foldl Reader.feed r).kept ≤ r.kept + t.count '\n' := by
  induction t generalizing r with
  | nil => exact Nat.le_refl _
  | cons c t ih =>
    have hrest := ih (r.feed c)
    rw [List.foldl_cons, List.count_cons]
    by_cases hc : c = '\n'
    · subst hc
      have hone := kept_newline r
      simp only [beq_self_eq_true, if_true]
      omega
    · have hone := kept_processChar r hc
      rw [feed_of_ne hc] at hrest ⊢
      simp only [beq_iff_eq, hc, if_false]
      omega

/-- The rows of a text, with the newlines in them, are no more than its lines. -/
theorem kept_readText (t : List Char) : (readText t).kept ≤ t.count '\n' + 1 := by
  have hfold := kept_foldl t Reader.start
  have hstart : Reader.start.kept = 0 := rfl
  have hend := kept_endOfLine (t.foldl Reader.feed Reader.start)
  have hsave := kept_emit ((t.foldl Reader.feed Reader.start).saveField .startRecord)
  rw [kept_saveField] at hsave
  unfold readText Reader.finish
  generalize t.foldl Reader.feed Reader.start = r at hfold hend hsave
  by_cases hquoted : r.state = .inQuotedField
  · have hopen : r.endOfLine = r := by simp [Reader.endOfLine, hquoted]
    simp only [hopen, ite_self, hquoted, if_true]
    omega
  · have hclosed : r.endOfLine.state ≠ .inQuotedField := by
      unfold Reader.endOfLine
      split <;> simp_all [Reader.emit]
    by_cases hline : t = [] ∨ t.getLast? = some '\n'
    · simp only [hline, if_true, hquoted, if_false]
      omega
    · simp only [hline, if_false, hclosed]
      omega

theorem length_splitOn (t : List Char) : (t.splitOn '\n').length = t.count '\n' + 1 := by
  induction t with
  | nil => rfl
  | cons c t ih =>
    rw [List.splitOn_cons_eq_if_modifyHead, List.count_cons]
    split <;> simp [ih]

theorem notMem_of_mem_splitOn {t line : List Char} (h : line ∈ t.splitOn '\n') : '\n' ∉ line := by
  induction t generalizing line with
  | nil =>
    obtain rfl : line = [] := by simpa using h
    exact List.not_mem_nil
  | cons c t ih =>
    obtain ⟨first, lines, hsplit⟩ := List.exists_cons_of_ne_nil (List.splitOn_ne_nil '\n' t)
    rw [List.splitOn_cons_eq_if_modifyHead, hsplit] at h
    rw [hsplit] at ih
    split at h
    · rcases List.mem_cons.mp h with rfl | hmem
      · exact List.not_mem_nil
      · exact ih hmem
    · rename_i hc
      rcases List.mem_cons.mp h with rfl | hmem
      · rw [List.mem_cons, not_or]
        exact ⟨fun heq => hc (by simp [← heq]), ih List.mem_cons_self⟩
      · exact ih (List.mem_cons_of_mem first hmem)

theorem count_doubled (t : List Char) : (doubled t).count '\n' = t.count '\n' := by
  induction t with
  | nil => rfl
  | cons c t ih =>
    rw [doubled, List.flatMap_cons, List.count_append, ← doubled, ih, List.count_cons]
    by_cases hquote : c = '"'
    · subst hquote
      simp
    · by_cases hline : c = '\n' <;> simp [hquote, hline, Nat.add_comm]

theorem count_fieldText (t : List Char) : (fieldText t).count '\n' = t.count '\n' := by
  unfold fieldText
  split
  · simp [count_doubled]
  · rfl

theorem count_fieldsText (fields : List (List Char)) :
    (fieldsText fields).count '\n' = newlines fields := by
  induction fields with
  | nil => rfl
  | cons t fields ih =>
    cases fields with
    | nil => simp [fieldsText, newlines, count_fieldText]
    | cons next fields =>
      rw [fieldsText.eq_3 _ _ (List.cons_ne_nil next fields), List.count_append, count_fieldText]
      simpa [newlines] using ih

/-- A row is written with a newline and those of its fields. -/
theorem count_written (rows : List (List (List Char))) :
    (written rows).count '\n' = rows.length + (rows.map newlines).sum := by
  induction rows with
  | nil => rfl
  | cons fields rows ih =>
    have hrow : (rowText fields).count '\n' = newlines fields + 1 := by
      rw [rowText, rowBody]
      by_cases hempty : fields = [[]]
      · subst hempty
        decide
      · simp [hempty, count_fieldsText]
    rw [written, List.flatMap_cons, List.count_append, ← written, ih, hrow]
    simp only [List.length_cons, List.map_cons, List.sum_cons]
    omega

end Lines

/-! ### The first row -/

section FirstRow

theorem rows_processChar (r : Reader) (c : Char) : (r.processChar c).rows = r.rows := by
  unfold Reader.processChar Reader.atFieldStart
  repeat' split
  all_goals rfl

theorem rows_endOfLine (r : Reader) : r.rows <+: r.endOfLine.rows := by
  unfold Reader.endOfLine
  split
  all_goals first | exact List.prefix_append _ _ | exact List.prefix_rfl

/-- A row that is read stays. -/
theorem rows_foldl (t : List Char) (r : Reader) : r.rows <+: (t.foldl Reader.feed r).rows := by
  induction t generalizing r with
  | nil => exact List.prefix_rfl
  | cons c t ih =>
    have hone : r.rows <+: (r.feed c).rows := by
      unfold Reader.feed
      rw [← rows_processChar r c]
      split
      · exact rows_endOfLine _
      · exact List.prefix_rfl
    exact hone.trans (ih _)

theorem rows_finish (t : List Char) (r : Reader) : r.rows <+: (r.finish t).rows := by
  have hsaved : ∀ r : Reader, r.rows <+: ((r.saveField .startRecord).emit).rows :=
    fun r => List.prefix_append _ _
  unfold Reader.finish
  by_cases hend : t = [] ∨ t.getLast? = some '\n'
  · simp only [hend, if_true]
    split
    · exact hsaved r
    · exact List.prefix_rfl
  · simp only [hend, if_false]
    split
    · exact (rows_endOfLine r).trans (hsaved _)
    · exact rows_endOfLine r

/-- Whatever follows a first row, it is read as it is written. -/
theorem readText_first {fields : List (List Char)} (hfields : fields ≠ []) (lines : List (List Char)) :
    ∃ rows, (readText (['\n'].intercalate (rowBody fields :: lines))).rows = fields :: rows := by
  cases lines with
  | nil =>
    refine ⟨[], ?_⟩
    have hone : readText (written [] ++ rowBody fields) = ⟨.startRecord, [], [], [] ++ [fields]⟩ :=
      readText_written (fun _ h => nomatch h) hfields
    simp only [written, List.flatMap_nil, List.nil_append] at hone
    simp [hone]
  | cons line lines =>
    have hsplit : ['\n'].intercalate (rowBody fields :: line :: lines) =
        written [fields] ++ ['\n'].intercalate (line :: lines) := by
      simp [written, rowText]
    have hfirst := foldl_written [fields] [] (by simpa using hfields)
    obtain ⟨rows, hrows⟩ := (rows_foldl (['\n'].intercalate (line :: lines))
      ⟨.startRecord, [], [], [] ++ [fields]⟩).trans (rows_finish (['\n'].intercalate
        (rowBody fields :: line :: lines)) _)
    refine ⟨rows, ?_⟩
    rw [readText, Reader.start]
    conv_lhs => rw [hsplit, List.foldl_append, hfirst]
    rw [← hsplit]
    exact hrows.symm

end FirstRow

end ChannelManager.Csv
