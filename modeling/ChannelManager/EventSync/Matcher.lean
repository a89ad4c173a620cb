import ChannelManager.Lib.SortOn
import Mathlib.Algebra.Order.Ring.Rat
import Mathlib.Data.Prod.Lex
import Mathlib.Data.String.Basic

/-!
# Matching events

A stream of a secondary group is scored against every master whose event starts within the time window.
Reading a name, comparing two teams and comparing two titles are left to the functions of a `Scorer`;
what is made of their answers, the bands and the order of the candidates is here.
-/

namespace ChannelManager.EventSync

/-- The start of an event: the instant in seconds, and the clock the name carried with the standard
offset of its zone. -/
structure Start where
  instant : ℤ
  clock : String
deriving DecidableEq

structure ParsedEvent where
  rawName : String
  title : Option String
  start : Option Start
  teams : Option (String × String)
  matchedPattern : Option String
deriving DecidableEq

/-- What a name says apart from the name itself. -/
structure EventReading where
  title : Option String
  start : Option Start
  teams : Option (String × String)
  matchedPattern : Option String

inductive TeamVerdict
  | agree
  | conflict
  | uncertain
  | absent
deriving DecidableEq

inductive Band
  | attach
  | ambiguous
  | reject
deriving DecidableEq

inductive RejectReason
  | parseFailure
  | noParsedTime
  | outsideTimeWindow
  | teamTokenConflict
  | numericIdentityConflict
  | belowAmbiguousFloor
  | venueTokenConflict
deriving DecidableEq

/-- The functions on names and titles: reading a name with some patterns or the default ones, with or
without assuming today's date, the verdict on two pairs of teams with its score, the fuzzy score of two
titles, the two checks on the tokens of titles, the cleaning of a title and what is left of one that
cleans to nothing, the text of an instant in UTC and the hash of a name. -/
structure Scorer (π : Type) where
  read : Option (List π) → Bool → String → EventReading
  teamPairVerdict : Option (String × String) → Option (String × String) → TeamVerdict × Option ℚ
  fuzzyTitleScore : String → String → ℚ
  numericIdentityConflict : String → String → Bool
  mutualUnmatchedIdentityTokens : String → String → Bool
  cleanName : String → String
  lowerWords : String → String
  utcIsoformat : ℤ → String
  streamNameHash : String → String
  synthesizedDatePatternNames : List String

/-- `EVENT_ATTACH_FLOOR`. -/
def eventAttachFloor : ℚ := 4 / 5

/-- `EVENT_AMBIGUOUS_FLOOR`. -/
def eventAmbiguousFloor : ℚ := 3 / 5

/-- `EVENT_NO_TEAMS_FLOOR`. -/
def eventNoTeamsFloor : ℚ := 9 / 10

/-- `DEFAULT_TIME_WINDOW_MINUTES`. -/
def defaultTimeWindowMinutes : ℤ := 30

structure PairScore where
  score : ℚ
  band : Band
  teamVerdict : TeamVerdict
  fuzzyScore : ℚ
  teamScore : Option ℚ
  timeDeltaMinutes : Option ℚ
  rejectReasons : List RejectReason

structure MasterCandidate where
  masterName : String
  parsed : ParsedEvent
  score : ℚ
  band : Band
  teamVerdict : TeamVerdict
  timeDeltaMinutes : ℚ
  rejectReasons : List RejectReason
deriving DecidableEq

structure StreamMatchResult where
  streamName : String
  parsed : ParsedEvent
  candidates : List MasterCandidate
  unmatchableReason : Option RejectReason
deriving DecidableEq

/-- `is_event_attachable`. -/
def isEventAttachable (score : ℚ) (verdict : TeamVerdict) (threshold : ℚ) : Bool :=
  if verdict = .conflict then false
  else
    let effective :=
      if verdict ≠ .agree ∧ eventAttachFloor ≤ threshold then max threshold eventNoTeamsFloor
      else threshold
    decide (effective ≤ score)

section Matcher

variable {π : Type} (scorer : Scorer π)

/-- `parse_event_name`. -/
def parseEventName (patterns : Option (List π)) (assumeCurrentDate : Bool) (name : String) :
    ParsedEvent :=
  let r := scorer.read patterns assumeCurrentDate name
  ⟨name, r.title, r.start, r.teams, r.matchedPattern⟩

/-- Minutes between two starts. -/
def minutesApart (a b : Start) : ℚ := |((a.instant - b.instant : ℤ) : ℚ)| / 60

/-- `_score_parsed_pair` on two names that were read whole. -/
def scoreWhole (a b : ParsedEvent) (titleA titleB : String) (startA startB : Start)
    (windowMinutes : Option ℤ) (threshold : ℚ) : PairScore :=
  let delta := minutesApart startA startB
  let (verdict, teamScore) := scorer.teamPairVerdict a.teams b.teams
  let fuzzy := scorer.fuzzyTitleScore titleA titleB
  let result := fun (score : ℚ) (band : Band) (reasons : List RejectReason) =>
    (⟨score, band, verdict, fuzzy, teamScore, some delta, reasons⟩ : PairScore)
  if windowMinutes.any fun window => decide ((window : ℚ) < delta) then
    result 0 .reject [.outsideTimeWindow]
  else if verdict = .conflict then result 0 .reject [.teamTokenConflict]
  else if verdict ≠ .agree ∧ scorer.numericIdentityConflict titleA titleB then
    result 0 .reject [.numericIdentityConflict]
  else
    let score := match verdict, teamScore with
      | .agree, some team => min 1 (max fuzzy team)
      | _, _ => fuzzy
    if isEventAttachable score verdict threshold then
      if verdict ≠ .agree ∧ eventAttachFloor ≤ threshold ∧
          scorer.mutualUnmatchedIdentityTokens titleA titleB then
        result score .ambiguous [.venueTokenConflict]
      else result score .attach []
    else if eventAmbiguousFloor ≤ score then result score .ambiguous []
    else result score .reject [.belowAmbiguousFloor]

/-- `_score_parsed_pair`. -/
def scoreParsedPair (a b : ParsedEvent) (windowMinutes : Option ℤ) (threshold : ℚ) : PairScore :=
  match a.title, b.title with
  | some titleA, some titleB =>
    match a.start, b.start with
    | some startA, some startB =>
      scoreWhole scorer a b titleA titleB startA startB windowMinutes threshold
    | _, _ => ⟨0, .reject, .absent, 0, none, none, [.noParsedTime]⟩
  | _, _ => ⟨0, .reject, .absent, 0, none, none, [.parseFailure]⟩

/-- A master as a candidate for a stream, unless the time window keeps it out. -/
def candidate (parsed : ParsedEvent) (start : Start) (windowMinutes : Option ℤ) (threshold : ℚ)
    (master : ParsedEvent) (masterStart : Start) : Option MasterCandidate :=
  let delta := minutesApart start masterStart
  if windowMinutes.any fun window => decide ((window : ℚ) < delta) then none
  else
    let pair := scoreParsedPair scorer parsed master windowMinutes threshold
    some ⟨master.rawName, master, pair.score, pair.band, pair.teamVerdict, delta, pair.rejectReasons⟩

/-- Best first, and by name among equals. -/
def bestFirst (candidates : List MasterCandidate) : List MasterCandidate :=
  sortedOn (fun c => toLex (-c.score, c.masterName)) candidates

/-- What `match_streams` finds for one stream; only masters read whole can be candidates. -/
def matchStream (masters : List ParsedEvent) (patterns : Option (List π)) (windowMinutes : Option ℤ)
    (threshold : ℚ) (assumeCurrentDate : Bool) (streamName : String) : StreamMatchResult :=
  let parsed := parseEventName scorer patterns assumeCurrentDate streamName
  match parsed.title, parsed.start with
  | none, _ => ⟨streamName, parsed, [], some .parseFailure⟩
  | some _, none => ⟨streamName, parsed, [], some .noParsedTime⟩
  | some _, some start =>
    let candidates := masters.filterMap fun master =>
      match master.title, master.start with
      | some _, some masterStart =>
        candidate scorer parsed start windowMinutes threshold master masterStart
      | _, _ => none
    ⟨streamName, parsed, bestFirst candidates, none⟩

/-- `match_streams`. -/
def matchStreams (streamNames masterNames : List String) (patterns masterPatterns : Option (List π))
    (windowMinutes : Option ℤ) (threshold : ℚ) (assumeCurrentDate : Bool) : List StreamMatchResult :=
  let effectiveMasterPatterns := masterPatterns.or patterns
  let masters := masterNames.map (parseEventName scorer effectiveMasterPatterns assumeCurrentDate)
  streamNames.map (matchStream scorer masters patterns windowMinutes threshold assumeCurrentDate)

end Matcher

end ChannelManager.EventSync
