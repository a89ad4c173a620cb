import ChannelManager.Pipeline.ChannelIndex
import Mathlib.Algebra.Order.Ring.Rat
import Mathlib.Data.String.Basic

/-!
# Scoring a stream against channels

The ladder of the scorer: differing call signs rule a pair out, an equal call sign of a guide id
settles it, and the names decide the rest. One policy admits what was scored, and two loops keep the
best of what they admit.
-/

namespace ChannelManager.Dedup

open Pipeline

inductive NameCleanMode
  | conservative
  | locals
deriving DecidableEq

/-- What scoring is made of: the call sign in a name, `str.upper`, the name cleaner, the similarity
of cleaned names between 0 and 1, and rounding to four places. -/
structure Scoring where
  extractCallSign : String → Option String
  upper : String → String
  normalize : NameCleanMode → String → String
  tokenSetRatio : String → String → ℚ
  round4 : ℚ → ℚ

inductive CallsignVerdict
  | matched
  | conflict
  | absent
deriving DecidableEq

inductive Signal
  | tvgIdOverride
  | fuzzyWithCallsign
  | fuzzyNoCallsign
  | callsignConflict
deriving DecidableEq

structure ScoredMatch where
  score : ℚ
  callsignVerdict : CallsignVerdict
  tvgIdOverride : Bool
  signal : Signal
  streamCallsign : Option String
  candidateCallsign : Option String
deriving DecidableEq

/-- The double `0.90`. -/
def noCallsignFloor : ℚ := 8106479329266893 / 9007199254740992

/-- The double `0.60`. -/
def confidenceFloor : ℚ := 5404319552844595 / 9007199254740992

/-- `a or b`, the empty text being false. -/
def orText (a b : Option String) : Option String :=
  match a with
  | none | some "" => b
  | some text => some text

section Score

variable (scoring : Scoring)

def extractCallsign (name : String) : Option String :=
  if name = "" then none else scoring.extractCallSign name

/-- The call sign of a guide id, if there is an id. -/
def tvgCallsign (tvgId : Option String) : Option String :=
  tvgId.bind (extractCallsign scoring)

/-- Both call signs are there and they are the same in upper case. -/
def sameCallsign (a b : Option String) : Bool :=
  a.any fun a => b.any fun b => scoring.upper a = scoring.upper b

/-- Both call signs are there and they differ in upper case. -/
def callsignsDiffer (a b : Option String) : Bool :=
  a.any fun a => b.any fun b => scoring.upper a ≠ scoring.upper b

/-- `_score_one_prepared` -/
def scoreOnePrepared (streamCs streamTvgCs : Option String) (normStream candidateName : String)
    (candidateTvgId : Option String) (mode : NameCleanMode) : ScoredMatch :=
  let candCsName := extractCallsign scoring candidateName
  if callsignsDiffer scoring streamCs candCsName then
    ⟨0, .conflict, false, .callsignConflict, streamCs, candCsName⟩
  else
    let candCsEffective := orText candCsName (tvgCallsign scoring candidateTvgId)
    let overrideStreamCs := orText streamCs streamTvgCs
    if sameCallsign scoring overrideStreamCs candCsEffective then
      ⟨1, .matched, true, .tvgIdOverride, overrideStreamCs, candCsEffective⟩
    else
      let normCand := scoring.normalize mode candidateName
      let score :=
        if normStream = "" ∨ normCand = "" then 0
        else if normStream = normCand then 1
        else scoring.tokenSetRatio normStream normCand
      if streamCs ≠ none ∧ candCsName ≠ none then
        ⟨score, .matched, false, .fuzzyWithCallsign, streamCs, candCsName⟩
      else ⟨score, .absent, false, .fuzzyNoCallsign, streamCs, candCsName⟩

def scoreOne (streamName candidateName : String) (streamTvgId candidateTvgId : Option String)
    (mode : NameCleanMode) : ScoredMatch :=
  scoreOnePrepared scoring (extractCallsign scoring streamName) (tvgCallsign scoring streamTvgId)
    (scoring.normalize mode streamName) candidateName candidateTvgId mode

/-- `score_all`: what belongs to the stream is computed once. -/
def scoreAll (streamName : String) (candidates : List (String × String))
    (streamTvgId : Option String) (candidateTvgIds : Dict String String) (mode : NameCleanMode) :
    List (String × String × ScoredMatch) :=
  let streamCs := extractCallsign scoring streamName
  let streamTvgCs := tvgCallsign scoring streamTvgId
  let normStream := scoring.normalize mode streamName
  candidates.map fun candidate => (candidate.1, candidate.2,
    scoreOnePrepared scoring streamCs streamTvgCs normStream candidate.2
      (candidateTvgIds.get? candidate.1) mode)

def isAdmissible (scoredMatch : ScoredMatch) (minScore : ℚ) (allowNoCallsign : Bool) : Bool :=
  match scoredMatch.callsignVerdict with
  | .conflict => false
  | .absent => allowNoCallsign && noCallsignFloor ≤ scoredMatch.score
  | .matched => minScore ≤ scoredMatch.score

/-- Why a channel was resolved to. -/
structure Provenance where
  score : ℚ
  effectiveThreshold : ℚ
  signal : Signal
  callsignVerdict : CallsignVerdict
  streamCallsign : Option String
  candidateCallsign : Option String
  tvgIdOverride : Bool
  ruleId : Option ℤ
  allowlistGroups : List ℤ
deriving DecidableEq

inductive TieBreak
  | lowestId
  | highestScore
deriving DecidableEq

/-- A channel of the run by its id, and its score. -/
abbrev Candidate := (ℤ × Pipeline.Channel) × ScoredMatch

/-- Keep the best of two admitted candidates. -/
def keepBest (tieBreak : TieBreak) (best : Option Candidate) (candidate : Candidate) :
    Option Candidate :=
  match best with
  | none => some candidate
  | some kept =>
    if kept.2.score < candidate.2.score then some candidate
    else if candidate.2.score = kept.2.score ∧ tieBreak = .lowestId ∧
        toString candidate.1.1 < toString kept.1.1 then some candidate
    else some kept

/-- What a merge action resolves by. -/
structure ScoredPolicy where
  minScore : ℚ
  allowedGroups : List ℤ
  allowNoCallsign : Bool
  tieBreak : TieBreak
  ruleId : Option ℤ

def scoreChannel (stream : Stream) (channel : Pipeline.Channel) : ScoredMatch :=
  scoreOne scoring stream.streamName channel.name stream.tvgId channel.tvgId .locals

/-- Whether a channel is a candidate that the policy admits. -/
def eligible (policy : ScoredPolicy) (stream : Stream) (channel : Pipeline.Channel) : Bool :=
  channel.channelGroupId.any (· ∈ policy.allowedGroups) && channel.name ≠ "" &&
    isAdmissible (scoreChannel scoring stream channel) policy.minScore policy.allowNoCallsign

/-- `_resolve_scored_fuzzy` over the existing channels. -/
def resolveScoredFuzzy (policy : ScoredPolicy) (stream : Stream)
    (existingChannels : List (ℤ × Pipeline.Channel)) : Option ((ℤ × Pipeline.Channel) × Provenance) :=
  let best := existingChannels.foldl (fun best row =>
    if eligible scoring policy stream row.2 then
      keepBest policy.tieBreak best (row, scoreChannel scoring stream row.2)
    else best) none
  best.map fun kept => (kept.1,
    { score := scoring.round4 kept.2.score
      effectiveThreshold := policy.minScore
      signal := kept.2.signal
      callsignVerdict := kept.2.callsignVerdict
      streamCallsign := kept.2.streamCallsign
      candidateCallsign := kept.2.candidateCallsign
      tvgIdOverride := kept.2.tvgIdOverride
      ruleId := policy.ruleId
      allowlistGroups := policy.allowedGroups })

structure MatchResult where
  candidateChannelId : String
  candidateName : String
  confidence : ℚ
deriving DecidableEq

def confidenceOf (normalizedStream normalizedCandidate : String) : ℚ :=
  if normalizedStream = normalizedCandidate then 1
  else scoring.tokenSetRatio normalizedStream normalizedCandidate

/-- One turn of the loop of `find_candidate`. -/
def considerCandidate (normalizedStream : String) (effectiveThreshold : ℚ)
    (best : Option MatchResult) (candidate : String × String) : Option MatchResult :=
  let normalizedCandidate := scoring.normalize .conservative candidate.2
  let confidence := confidenceOf scoring normalizedStream normalizedCandidate
  if normalizedCandidate = "" ∨ confidence < effectiveThreshold then best
  else match best with
    | none => some ⟨candidate.1, candidate.2, confidence⟩
    | some kept =>
      if kept.confidence < confidence ∨
          confidence = kept.confidence ∧ candidate.1 < kept.candidateChannelId then
        some ⟨candidate.1, candidate.2, confidence⟩
      else some kept

def findCandidate (streamName : String) (candidates : List (String × String)) (threshold : ℚ) :
    Option MatchResult :=
  let normalizedStream := scoring.normalize .conservative streamName
  if candidates = [] ∨ normalizedStream = "" then none
  else candidates.foldl
    (considerCandidate scoring normalizedStream (max threshold confidenceFloor)) none

end Score

end ChannelManager.Dedup
