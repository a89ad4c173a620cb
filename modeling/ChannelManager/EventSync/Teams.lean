import ChannelManager.EventSync.Matcher
import ChannelManager.Templates.Segment
import Mathlib.Data.Finset.Dedup

/-!
# Comparing teams

Two names of teams are compared by their identity tokens, with the operator's aliases declaring some of
them the same. Two pairs of teams are laid over one another both ways round, and the better way is judged.
-/

namespace ChannelManager.EventSync

open Templates (Text)

/-- What the comparison is made of: `\w`, `str.lower`, the ratio of two texts, which is between zero and
one, and the rounding of a sum to a double, which keeps the order. -/
structure TeamText where
  isWord : Char → Bool
  lower : Text → Text
  ratio : Text → Text → ℚ
  zero_le_ratio : ∀ a b, 0 ≤ ratio a b
  ratio_le_one : ∀ a b, ratio a b ≤ 1
  round : ℚ → ℚ
  round_mono : Monotone round

/-- `_TEAM_CONFLICT_CEILING`, the double `0.60`. -/
def teamConflictCeiling : ℚ := 5404319552844595 / 9007199254740992

/-- `_TEAM_AGREE_FLOOR`, the double `0.90`. -/
def teamAgreeFloor : ℚ := 8106479329266893 / 9007199254740992

/-- The double `0.95`. -/
def initialismScore : ℚ := 8556839292003942 / 9007199254740992

/-- The characters of `_TEAM_APOSTROPHE_RE`. -/
def teamApostrophes : List ℕ := [0x27, 0x2019, 0x2bc, 0x60, 0xb4]

def teamQualifierClasses : List (Text × Text) :=
  [("w", "women"), ("women", "women"), ("womens", "women"), ("ladies", "women"), ("fem", "women"),
    ("femenil", "women"), ("femenino", "women"), ("u16", "u16"), ("u17", "u17"), ("u18", "u18"),
    ("u19", "u19"), ("u20", "u20"), ("u21", "u21"), ("u23", "u23"), ("reserve", "reserves"),
    ("reserves", "reserves"), ("res", "reserves"), ("ii", "reserves"), ("b", "reserves"),
    ("academy", "youth"), ("youth", "youth")].map fun entry => (entry.1.toList, entry.2.toList)

def teamGenericTokens : List Text :=
  ["fc".toList, "afc".toList, "cf".toList, "sc".toList, "cfc".toList, "club".toList]

def initialismSuffixes : List Text := ["afc".toList, "fc".toList, "cf".toList, "sc".toList]

/-- The runs of characters that `p` holds of. -/
def runsOf (p : Char → Bool) (t : Text) : List Text :=
  (t.splitOnP fun c => !p c).filter (· ≠ [])

/-- `_team_tokens` -/
def teamTokens (text : TeamText) (team : Text) : List Text :=
  runsOf text.isWord (text.lower (team.filter fun c => c.toNat ∉ teamApostrophes))

/-- `_qualifiers` -/
def qualifiers (tokens : List Text) : Finset Text :=
  (tokens.filterMap fun t => findEntry t teamQualifierClasses).toFinset

/-- `_identity_tokens` -/
def identityTokens (tokens : List Text) : List Text :=
  tokens.filter fun t => findEntry t teamQualifierClasses = none ∧ !teamGenericTokens.contains t

def normalizeAliasTerm (text : TeamText) (term : Text) : List Text :=
  identityTokens (teamTokens text term)

abbrev AliasIndex := Dict (List Text) ℕ

/-- `build_team_alias_index`: a term stays with the first group it is in. -/
def buildTeamAliasIndex (text : TeamText) (groups : List (List Text)) : AliasIndex :=
  groups.zipIdx.foldl (fun index group => group.1.foldl (fun index term =>
    let key := normalizeAliasTerm text term
    if key ≠ [] ∧ key ∉ index then index.set key group.2 else index) index) ∅

/-- `_is_abbrev_of`; the bound on the length is `0.60` of the longer one. -/
def isAbbrevOf (short long : Text) : Bool :=
  2 ≤ short.length && short.head? = long.head? && 5 * short.length ≤ 3 * long.length &&
    short.isSublist long

/-- `_token_similarity` -/
def tokenSimilarity (text : TeamText) (a b : Text) : ℚ :=
  if a = b then 1
  else if isAbbrevOf a b || isAbbrevOf b a then teamAgreeFloor
  else text.ratio a b

/-- What `_initialism_matches` compares: the token without the first suffix it ends in. -/
def bareInitialism (single : Text) : Text :=
  match initialismSuffixes.find? fun suffix =>
      suffix.isSuffixOf single && suffix.length < single.length with
  | some suffix => single.take (single.length - suffix.length)
  | none => single

/-- `_initialism_matches` -/
def initialismMatches (single : Text) (words : List Text) : Bool :=
  2 ≤ words.length && 2 ≤ (bareInitialism single).length &&
    bareInitialism single = words.filterMap List.head?

/-- The best match of a token among some others. -/
def bestMatch (text : TeamText) (longer : List Text) (token : Text) : ℚ :=
  (longer.map (tokenSimilarity text token)).max?.getD 0

/-- The worst of the best matches. -/
def worstMatch (text : TeamText) (shorter longer : List Text) : ℚ :=
  shorter.foldl (fun worst token => min worst (bestMatch text longer token)) 1

/-- Both keys are of one alias group. -/
def sameAliasGroup (index : Option AliasIndex) (a b : List Text) : Bool :=
  index.any fun index => (index.get? a).any fun group => index.get? b = some group

/-- `_team_similarity` -/
def teamSimilarity (text : TeamText) (index : Option AliasIndex) (teamA teamB : Text) : ℚ :=
  let tokensA := teamTokens text teamA
  let tokensB := teamTokens text teamB
  let identA := identityTokens tokensA
  let identB := identityTokens tokensB
  if qualifiers tokensA ≠ qualifiers tokensB then 0
  else if identA = [] ∨ identB = [] then
    text.ratio ([' '].intercalate tokensA) ([' '].intercalate tokensB)
  else if identA = identB then 1
  else if sameAliasGroup index identA identB then 1
  else if identA.length = 1 ∧ identA.any (initialismMatches · identB) then initialismScore
  else if identB.length = 1 ∧ identB.any (initialismMatches · identA) then initialismScore
  else if identA.length ≤ identB.length then worstMatch text identA identB
  else worstMatch text identB identA

/-- The scores of the two teams of an assignment. -/
abbrev Assignment := ℚ × ℚ

def straight (text : TeamText) (index : Option AliasIndex) (a b : Text × Text) : Assignment :=
  (teamSimilarity text index a.1 b.1, teamSimilarity text index a.2 b.2)

def swapped (text : TeamText) (index : Option AliasIndex) (a b : Text × Text) : Assignment :=
  (teamSimilarity text index a.1 b.2, teamSimilarity text index a.2 b.1)

/-- `sum` of the two scores, a double. -/
def scoreSum (text : TeamText) (scores : Assignment) : ℚ := text.round (scores.1 + scores.2)

/-- The swapped assignment has the larger sum. -/
def swaps (text : TeamText) (index : Option AliasIndex) (a b : Text × Text) : Bool :=
  scoreSum text (straight text index a b) < scoreSum text (swapped text index a b)

/-- The assignment with the larger sum, the straight one if they are the same. -/
def bestAssignment (text : TeamText) (index : Option AliasIndex) (a b : Text × Text) : Assignment :=
  if swaps text index a b then swapped text index a b else straight text index a b

/-- What is made of the scores of an assignment. -/
def judge (best : Assignment) : TeamVerdict :=
  if min best.1 best.2 < teamConflictCeiling then .conflict
  else if teamAgreeFloor ≤ min best.1 best.2 then .agree
  else if teamAgreeFloor ≤ max best.1 best.2 then .conflict
  else .uncertain

/-- `_team_pair_verdict` -/
def teamPairVerdict (text : TeamText) (index : Option AliasIndex) :
    Option (Text × Text) → Option (Text × Text) → TeamVerdict × Option ℚ
  | some a, some b =>
    let best := bestAssignment text index a b
    (judge best, some (min best.1 best.2))
  | _, _ => (.absent, none)

end ChannelManager.EventSync
