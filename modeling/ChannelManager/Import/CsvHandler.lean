import ChannelManager.Dbas.RestoreContracts
import ChannelManager.Lib.Csv
import ChannelManager.Lib.Dict
import ChannelManager.Numbering.ChannelNumber
import ChannelManager.Templates.Segment

/-!
# Channels as CSV

Channels are exported with a header and a row each. An import drops the lines that are blank or begin
with `#` before it reads the rows, and reports a row that does not validate.
-/

namespace ChannelManager.CsvHandler

open Csv
open Dbas (isSpace)
open Templates (Text)

inductive Column
  | channelNumber
  | name
  | groupName
  | tvgId
  | gracenoteId
  | logoUrl
  | streamUrls
deriving DecidableEq

def Column.title : Column → Text
  | .channelNumber => "channel_number".toList
  | .name => "name".toList
  | .groupName => "group_name".toList
  | .tvgId => "tvg_id".toList
  | .gracenoteId => "gracenote_id".toList
  | .logoUrl => "logo_url".toList
  | .streamUrls => "stream_urls".toList

/-- `ALL_COLUMNS`. -/
def allColumns : List Column :=
  [.channelNumber, .name, .groupName, .tvgId, .gracenoteId, .logoUrl, .streamUrls]

/-- `str.strip`. -/
def stripped (t : Text) : Text := stripEnds isSpace t

/-- An `int` or a `float`. -/
inductive Number
  | int (n : ℤ)
  | float (q : ℚ)

/-- Digits and, after a point, more digits. -/
def isDecimal (isDigit : Char → Bool) (t : Text) : Bool :=
  let whole := t.takeWhile isDigit
  match t.dropWhile isDigit with
  | [] => whole ≠ []
  | c :: fraction => c = '.' && whole ≠ [] && fraction ≠ [] && fraction.all isDigit

/-- Python's floats and what its library makes of text. `float(n)` is none where it overflows, and
`float(text)` where it is infinite. -/
structure Python where
  lower : Text → Text
  lower_title : ∀ column : Column, lower column.title = column.title
  urlparse : Text → Option (Text × Text)
  isDigit : Char → Bool
  isDigit_ascii : ∀ c : Char, c.toNat < 128 → isDigit c = c.isDigit
  isFloat : ℚ → Prop
  ofInt : ℤ → Option ℚ
  ofInt_nonneg : ∀ n q, ofInt n = some q → 0 ≤ q → 0 ≤ n
  ofInt_whole : ∀ n : ℤ, isFloat n → ofInt n = some (n : ℚ)
  whole_of_large : ∀ q, isFloat q → exactIntegerFloor ≤ q → q.isInt
  str : ℚ → Text
  str_decimal : ∀ q, isFloat q → 1 / 10000 ≤ q → q < 10 ^ 16 → isDecimal Char.isDigit (str q)
  str_exponent : ∀ q, isFloat q → 0 < q → q < 1 / 10000 → 'e' ∈ str q ∧ stripped (str q) = str q
  read : Text → Option ℚ
  read_digits : ∀ n : ℕ, read (Nat.toDigits 10 n) = ofInt n
  read_str : ∀ q, isFloat q → read (str q) = some q
  timesTen : ℚ → ℚ

section Handler

variable (python : Python)

/-- `float(value)`. -/
def Number.toFloat : Number → Option ℚ
  | .int n => python.ofInt n
  | .float q => some q

/-- `is_valid_channel_number` of a float. -/
def isValidFloat (number : ℚ) : Bool :=
  0 ≤ number && (exactIntegerFloor ≤ number ||
    |python.timesTen number - roundHalfEven (python.timesTen number)| ≤ tenthTolerance)

def isValidNumber (value : Number) : Bool :=
  (value.toFloat python).any (isValidFloat python)

/-- `parse_channel_number_text(…, allow_empty=False)`, which raises where it is none. -/
def parseChannelNumberText (text : Text) : Option ℚ :=
  if stripped text = [] ∨ isDecimal python.isDigit (stripped text) = false then none
  else (python.read (stripped text)).filter (isValidFloat python)

/-- `_is_valid_url` -/
def isValidUrl (url : Text) : Bool :=
  (python.urlparse url).any fun parts =>
    (parts.1 = "http".toList || parts.1 = "https".toList) && parts.2 ≠ []

/-- A row by its columns. -/
abbrev CsvRow := Column → Text

structure RowError where
  row : ℕ
  error : String
deriving DecidableEq

def channelNumberRuleMessage : String :=
  "Channel numbers must be 0 or greater and support one decimal place (for example 1.0 or 1.1)."

def validateChannelRow (row : CsvRow) : List String :=
  (if stripped (row .name) = [] then ["Missing required field: name"] else []) ++
  (if stripped (row .channelNumber) ≠ [] ∧
      parseChannelNumberText python (stripped (row .channelNumber)) = none then
    ["channel_number: " ++ channelNumberRuleMessage] else []) ++
  (if stripped (row .logoUrl) ≠ [] ∧ isValidUrl python (stripped (row .logoUrl)) = false then
    ["logo_url must be a valid HTTP/HTTPS URL"] else [])

inductive CsvError
  | missingColumn (column : Column)
  | reader
deriving DecidableEq

/-- Whether an import reads a line. -/
def keepsLine (line : Text) : Bool :=
  stripped line ≠ [] && (stripped line).head? ≠ some '#'

def filteredLines (csvContent : Text) : List Text := (csvContent.splitOn '\n').filter keepsLine

/-- The row of a `DictReader`, with nothing where a row is short. -/
def dictRow (fieldnames row : List Text) : Dict Text (Option Text) :=
  Dict.ofList (fieldnames.zip
    (row.map some ++ List.replicate (fieldnames.length - row.length) none))

def normalizedRow (fieldnames row : List Text) : CsvRow := fun column =>
  let columnMapping := Dict.ofList (fieldnames.map fun col => (stripped (python.lower col), col))
  match columnMapping.get? (python.lower column.title) with
  | none => []
  | some original =>
    match (dictRow fieldnames row).get? original with
    | some (some value) => stripped value
    | _ => []

/-- The rows that validate and the errors of the others, the first being row 2. -/
def validatedRows (rows : List CsvRow) : List CsvRow × List RowError :=
  (rows.filter fun row => validateChannelRow python row = [],
    (rows.zipIdx 2).flatMap fun e => (validateChannelRow python e.1).map (RowError.mk e.2))

def parseCsv (csvContent : Text) : Except CsvError (List CsvRow × List RowError) :=
  if csvContent = [] ∨ stripped csvContent = [] then .ok ([], [])
  else
    if filteredLines csvContent = [] then .ok ([], [])
    else
      let reader := readText (['\n'].intercalate (filteredLines csvContent))
      match reader.rows with
      | [] => if reader.state = .failed then .error .reader else .ok ([], [])
      | fieldnames :: rows =>
        if Column.name.title ∉ fieldnames.map (fun col => stripped (python.lower col)) then
          .error (.missingColumn .name)
        else if reader.state = .failed then .error .reader
        else
          .ok (validatedRows python ((rows.filter (· ≠ [])).map (normalizedRow python fieldnames)))

/-- What an export is given of a channel. -/
structure ExportChannel where
  channelNumber : Option Number
  name : Option Text
  groupName : Option Text
  tvgId : Option Text
  gracenoteId : Option Text
  logoUrl : Option Text
  streamUrls : Option Text

/-- A whole number without a fraction. -/
def numberText : Number → Text
  | .int n => (toString n).toList
  | .float q => if q.isInt then (toString q.num).toList else python.str q

/-- What is exported in a column. -/
def cell (channel : ExportChannel) : CsvRow
  | .channelNumber => (channel.channelNumber.map (numberText python)).getD []
  | .name => channel.name.getD []
  | .groupName => channel.groupName.getD []
  | .tvgId => channel.tvgId.getD []
  | .gracenoteId => channel.gracenoteId.getD []
  | .logoUrl => channel.logoUrl.getD []
  | .streamUrls => channel.streamUrls.getD []

def generateCsv (channels : List ExportChannel) : Text :=
  written (allColumns.map Column.title ::
    channels.map fun channel => allColumns.map (cell python channel))

end Handler

end ChannelManager.CsvHandler
