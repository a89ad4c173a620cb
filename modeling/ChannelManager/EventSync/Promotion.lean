import ChannelManager.EventSync.LocalTime
import ChannelManager.EventSync.Resolver
import ChannelManager.Lib.Budget
import ChannelManager.Lib.Grouping

/-!
# Promoting unmatched events

`build_promotion_plan`: the streams of one event key make a unit, the unit's channel is named after its
first stream, and a unit whose name no channel has is created as long as the cap allows it. Reading a
name is left to the parser; cleaning a title and the cases of a text are parameters.
-/

namespace ChannelManager.EventSync.Promote

open Templates (Text)

/-- `clean_name` in the locals mode, what is left of a title it cleans to nothing, `str.title` and
`str.lower`. -/
structure PromotionText where
  cleanName : Text → Text
  lowerWords : Text → Text
  title : Text → Text
  lower : Text → Text

/-- What the planner reads of a `ParsedEvent`. -/
structure ParsedEvent where
  title : Option Text
  start : Option LocalTime
  matchedPattern : Option String

/-- What the planner reads of a `ResolvedStream`. -/
structure ResolvedStream where
  stream : SecondaryStream
  parsed : ParsedEvent
  disposition : Disposition

inductive PromoteAction
  | create
  | attachExisting
deriving DecidableEq

/-- A promotion unit before it is known what becomes of it. -/
structure UnitDraft where
  eventKey : Text
  channelName : Text
  dateless : Bool
  rows : List ResolvedStream

structure PromotionUnit extends UnitDraft where
  action : PromoteAction
  existingChannelId : Option ℤ

structure PromotionPlan where
  units : List PromotionUnit
  cappedUnits : List PromotionUnit
  cap : ℕ
  targetGroupId : Option ℤ

/-- The fields of the configuration the planner reads. -/
structure PromotionConfig where
  maxPromotePerRun : Option ℕ
  promoteTargetGroupId : Option ℤ

def defaultMaxPromotePerRun : ℕ := 25

/-- `SYNTHESIZED_DATE_PATTERN_NAMES` -/
def synthesizedDatePatternNames : List String :=
  ["dateless-title-time-ampm", "dateless-title-time-24h", "dateless-time-first"]

/-- `PROMOTABLE_DISPOSITIONS` -/
def promotableDispositions : List Disposition := [.unmatched, .excludedByOperator]

/-- The date of the start was made up. -/
def ParsedEvent.dateless (parsed : ParsedEvent) : Bool :=
  parsed.matchedPattern.any (· ∈ synthesizedDatePatternNames)

/-- `_row_sort_key` -/
def rowSortKey (row : ResolvedStream) : ℤ ×ₗ ℤ ×ₗ String :=
  toLex (row.stream.providerId.getD (-1), toLex (row.stream.streamId.getD (-1), row.stream.name))

section Planner

variable (text : PromotionText)

def cleanedTitle (title : Text) : Text :=
  if text.cleanName title = [] then text.lowerWords title else text.cleanName title

/-- `master_event_key` -/
def masterEventKey (parsed : ParsedEvent) : Option Text :=
  match parsed.title, parsed.start with
  | some title, some start =>
    if parsed.dateless then
      some (cleanedTitle text title ++ "|dateless|".toList ++ start.datelessClockToken)
    else some (cleanedTitle text title ++ "|".toList ++ start.utcIsoformat)
  | _, _ => none

/-- `promoted_channel_name` -/
def promotedChannelName (parsed : ParsedEvent) : Option Text :=
  match parsed.start, masterEventKey text parsed with
  | some start, some key =>
    let displayTitle := text.title (key.takeWhile (· ≠ '|'))
    some (displayTitle ++ " @ ".toList ++ if parsed.dateless then start.clock12 else start.stamp)
  | _, _ => none

/-- The event key of a row that can be promoted. -/
def promotableKey (row : ResolvedStream) : Option Text :=
  if row.disposition ∈ promotableDispositions then masterEventKey text row.parsed else none

/-- `by_key` -/
def byKey (resolved : List ResolvedStream) : Dict Text (List ResolvedStream) :=
  groupedBy (promotableKey text) resolved

/-- The rows of a key in order, under the name their first one has. -/
def draft (resolved : List ResolvedStream) (key : Text) : Option UnitDraft :=
  match sortedOn rowSortKey (((byKey text resolved).get? key).getD []) with
  | [] => none
  | first :: rest =>
    (promotedChannelName text first.parsed).map fun name =>
      ⟨key, name, first.parsed.dateless, first :: rest⟩

def drafts (resolved : List ResolvedStream) : List UnitDraft :=
  (sortedOn id (byKey text resolved).keys).filterMap (draft text resolved)

def lowerName (d : UnitDraft) : Text := text.lower d.channelName

end Planner

/-- The loop of the planner over the event keys. -/
structure Planning where
  units : List PromotionUnit
  cappedUnits : List PromotionUnit
  creates : ℕ
  plannedNames : Dict Text Text

section Loop

variable (text : PromotionText) (cap : ℕ) (existingNameToId : Dict Text ℤ)

def planUnit (s : Planning) (d : UnitDraft) : Planning :=
  let existingId := existingNameToId.get? (lowerName text d)
  if existingId.isSome ∨ lowerName text d ∈ s.plannedNames then
    { s with units := s.units ++ [⟨d, .attachExisting, existingId⟩] }
  else if cap ≠ 0 ∧ cap ≤ s.creates then
    { s with cappedUnits := s.cappedUnits ++ [⟨d, .create, existingId⟩] }
  else
    { s with
      units := s.units ++ [⟨d, .create, existingId⟩]
      creates := s.creates + 1
      plannedNames := s.plannedNames.set (lowerName text d) d.eventKey }

def planned (ds : List UnitDraft) : Planning :=
  ds.foldl (planUnit text cap existingNameToId) ⟨[], [], 0, ∅⟩

end Loop

/-- `build_promotion_plan` -/
def buildPromotionPlan (text : PromotionText) (config : PromotionConfig) (resolved : List ResolvedStream)
    (existingNameToId : Dict Text ℤ) : PromotionPlan :=
  let cap := config.maxPromotePerRun.getD defaultMaxPromotePerRun
  let s := planned text cap existingNameToId (drafts text resolved)
  ⟨s.units, s.cappedUnits, cap, config.promoteTargetGroupId⟩

section Keys

variable {text : PromotionText} {parsed parsed' : ParsedEvent} {key : Text}

/-- A key is the cleaned title, and the token of the clock or the instant. -/
theorem masterEventKey_eq_some : masterEventKey text parsed = some key ↔
    ∃ title start, parsed.title = some title ∧ parsed.start = some start ∧
      key = if parsed.dateless then
          cleanedTitle text title ++ "|dateless|".toList ++ start.datelessClockToken
        else cleanedTitle text title ++ "|".toList ++ start.utcIsoformat := by
  constructor
  · intro h
    rw [masterEventKey] at h
    split at h
    next title start htitle hstart =>
      refine ⟨title, start, htitle, hstart, ?_⟩
      split_ifs at h ⊢ <;> exact (Option.some.inj h).symm
    next => cases h
  · intro ⟨title, start, htitle, hstart, hkey⟩
    rw [masterEventKey, htitle, hstart, hkey]
    dsimp only
    split_ifs <;> rfl

/-- No event without a date has the key of one with a date. -/
theorem dateless_key_ne (cleaned cleaned' : Text) (start start' : LocalTime) :
    cleaned ++ "|dateless|".toList ++ start.datelessClockToken ≠
      cleaned' ++ "|".toList ++ start'.utcIsoformat := by
  intro h
  have hshort : cleaned ++ "|dateless|".toList ++ start.datelessClockToken =
      (cleaned ++ "|dateless".toList) ++ '|' :: start.datelessClockToken := by
    rw [List.append_assoc, List.append_assoc]
    rfl
  obtain ⟨hour, minute, hiso, hlength⟩ := start'.exists_utcIsoformat
  rw [hshort, hiso, ← List.append_assoc] at h
  have hsuffix := (List.append_inj' h (by rw [List.length_cons, List.length_cons, hlength]; rfl)).2
  exact absurd (List.head_eq_of_cons_eq hsuffix) (by decide)

/-- Rows of one key are of one kind. -/
theorem dateless_eq_of_key (h : masterEventKey text parsed = some key)
    (h' : masterEventKey text parsed' = some key) : parsed.dateless = parsed'.dateless := by
  obtain ⟨title, start, _, _, rfl⟩ := masterEventKey_eq_some.mp h
  obtain ⟨title', start', _, _, hkey⟩ := masterEventKey_eq_some.mp h'
  cases hdateless : parsed.dateless <;> cases hdateless' : parsed'.dateless
  · rfl
  · simp only [hdateless, hdateless', Bool.false_eq_true, if_false, if_true] at hkey
    exact absurd hkey.symm (dateless_key_ne _ _ _ _)
  · simp only [hdateless, hdateless', Bool.false_eq_true, if_false, if_true] at hkey
    exact absurd hkey (dateless_key_ne _ _ _ _)
  · rfl

end Keys

end ChannelManager.EventSync.Promote
