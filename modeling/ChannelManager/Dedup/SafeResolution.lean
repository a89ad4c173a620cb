import ChannelManager.Dedup.ScoredMatch
import ChannelManager.Lib.LeastPick

/-!
# A safe resolution in any order

The two loops keep an admitted candidate of the best score. Ids are compared as text, which is the
order of the ids that `find_candidate` is given but not the order of the numbers that channels have.
-/

namespace ChannelManager.Dedup

open Pipeline

/-! ### Ids as text -/

theorem repr_inj {m n : ℕ} (h : m.repr = n.repr) : m = n := by
  have hdigits := congrArg String.toList h
  rw [Nat.toList_repr, Nat.toList_repr] at hdigits
  rw [← Nat.ofDigitChars_ten_toDigits (n := m), hdigits, Nat.ofDigitChars_ten_toDigits]

/-- Ids are told apart by their text. -/
theorem toString_inj {a b : ℤ} (h : toString a = toString b) : a = b := by
  have hminus : ∀ m n : ℕ, m.repr ≠ "-" ++ n.repr := by
    intro m n hmn
    have hlist := congrArg String.toList hmn
    rw [Nat.toList_repr, String.toList_append] at hlist
    have hmem : '-' ∈ Nat.toDigits 10 m := by
      rw [hlist]
      exact List.mem_append_left _ (by decide)
    exact absurd (Nat.isDigit_of_mem_toDigits (by decide) (by decide) hmem) (by decide)
  cases a with
  | ofNat m =>
    cases b with
    | ofNat n => exact congrArg Int.ofNat (repr_inj h)
    | negSucc n => exact absurd h (hminus _ _)
  | negSucc m =>
    cases b with
    | ofNat n => exact absurd h.symm (hminus _ _)
    | negSucc n =>
      have hsucc : (m + 1).repr = (n + 1).repr := (String.append_right_inj "-").mp h
      exact congrArg Int.negSucc (Nat.succ_injective (repr_inj hsucc))

variable (scoring : Scoring)

/-- A pair whose call signs differ is never admitted. -/
theorem not_admissible_of_differ {streamName candidateName : String}
    {streamTvgId candidateTvgId : Option String} {mode : NameCleanMode} {minScore : ℚ}
    {allowNoCallsign : Bool}
    (h : isAdmissible (scoreOne scoring streamName candidateName streamTvgId candidateTvgId mode)
      minScore allowNoCallsign = true) :
    callsignsDiffer scoring (extractCallsign scoring streamName)
      (extractCallsign scoring candidateName) = false := by
  by_contra hdiffer
  rw [Bool.not_eq_false] at hdiffer
  rw [scoreOne, scoreOnePrepared, if_pos hdiffer] at h
  cases h

/-! ### The executor's loop -/

section Resolve

variable (policy : ScoredPolicy) (stream : Stream)

/-- A channel before another: of a higher score, or of the same and first by its id as text. -/
def textRank (row : ℤ × Pipeline.Channel) : ℚ ×ₗ String :=
  toLex (-(scoreChannel scoring stream row.2).score, toString row.1)

def bestRow (rows : List (ℤ × Pipeline.Channel)) : Option (ℤ × Pipeline.Channel) :=
  rows.foldl (keepLeastEntry (textRank scoring stream) fun row =>
    eligible scoring policy stream row.2) none

/-- Why `row` was resolved to. -/
def provenanceOf (row : ℤ × Pipeline.Channel) : Provenance :=
  { score := scoring.round4 (scoreChannel scoring stream row.2).score
    effectiveThreshold := policy.minScore
    signal := (scoreChannel scoring stream row.2).signal
    callsignVerdict := (scoreChannel scoring stream row.2).callsignVerdict
    streamCallsign := (scoreChannel scoring stream row.2).streamCallsign
    candidateCallsign := (scoreChannel scoring stream row.2).candidateCallsign
    tvgIdOverride := (scoreChannel scoring stream row.2).tvgIdOverride
    ruleId := policy.ruleId
    allowlistGroups := policy.allowedGroups }

theorem keepBest_eq (best : Option (ℤ × Pipeline.Channel)) (row : ℤ × Pipeline.Channel) :
    (if eligible scoring policy stream row.2 then
        keepBest .lowestId (best.map fun kept => (kept, scoreChannel scoring stream kept.2))
          (row, scoreChannel scoring stream row.2)
      else best.map fun kept => (kept, scoreChannel scoring stream kept.2)) =
      (keepLeastEntry (textRank scoring stream)
        (fun row => eligible scoring policy stream row.2) best row).map
          fun kept => (kept, scoreChannel scoring stream kept.2) := by
  unfold keepLeastEntry
  cases hrow : eligible scoring policy stream row.2 with
  | false => simp [hrow]
  | true =>
    cases best with
    | none => simp [hrow, keepBest]
    | some kept =>
      have hlt : textRank scoring stream row < textRank scoring stream kept ↔
          (scoreChannel scoring stream kept.2).score < (scoreChannel scoring stream row.2).score ∨
            (scoreChannel scoring stream row.2).score = (scoreChannel scoring stream kept.2).score ∧
              toString row.1 < toString kept.1 := by
        simp [textRank, Prod.Lex.toLex_lt_toLex, neg_inj]
      simp only [hrow, keepBest, Option.map_some, if_true, Option.all_some, Bool.true_and,
        decide_eq_true_eq, hlt, true_and]
      by_cases hhigher : (scoreChannel scoring stream kept.2).score <
          (scoreChannel scoring stream row.2).score
      · rw [if_pos hhigher, if_pos (.inl hhigher), Option.map_some]
      · simp only [hhigher, false_or, if_false]
        split <;> rfl

theorem resolveScoredFuzzy_eq (htie : policy.tieBreak = .lowestId) (rows : List (ℤ × Pipeline.Channel)) :
    resolveScoredFuzzy scoring policy stream rows =
      (bestRow scoring policy stream rows).map fun row =>
        (row, provenanceOf scoring policy stream row) := by
  have hfold : ∀ best : Option (ℤ × Pipeline.Channel),
      rows.foldl (fun best row =>
        if eligible scoring policy stream row.2 then
          keepBest policy.tieBreak best (row, scoreChannel scoring stream row.2)
        else best) (best.map fun kept => (kept, scoreChannel scoring stream kept.2)) =
      (rows.foldl (keepLeastEntry (textRank scoring stream) fun row =>
        eligible scoring policy stream row.2) best).map
          fun kept => (kept, scoreChannel scoring stream kept.2) := by
    induction rows with
    | nil => exact fun _ => rfl
    | cons row rows ih =>
      intro best
      rw [List.foldl_cons, List.foldl_cons, ← ih, htie, keepBest_eq]
  have hnone := hfold none
  rw [Option.map_none] at hnone
  rw [resolveScoredFuzzy, hnone, Option.map_map]
  rfl

theorem picks_bestRow (rows : List (ℤ × Pipeline.Channel)) :
    Picks rows (fun row => eligible scoring policy stream row.2) (textRank scoring stream)
      (fun row => row) (bestRow scoring policy stream rows) :=
  picks_foldl_entry _ _ rows

/-- An eligible channel that none scores higher than. -/
def TopScoring (rows : List (ℤ × Pipeline.Channel)) (row : ℤ × Pipeline.Channel) : Prop :=
  (row ∈ rows ∧ eligible scoring policy stream row.2 = true) ∧
    ∀ other ∈ rows, eligible scoring policy stream other.2 = true →
      (scoreChannel scoring stream other.2).score ≤ (scoreChannel scoring stream row.2).score

/-- What a resolution by the lowest id does. -/
structure SafeResolution (rows : List (ℤ × Pipeline.Channel)) : Prop where
  perm : ∀ rows', rows.Perm rows' →
    resolveScoredFuzzy scoring policy stream rows' = resolveScoredFuzzy scoring policy stream rows
  allowed : ∀ row provenance,
    resolveScoredFuzzy scoring policy stream rows = some (row, provenance) →
      row ∈ rows ∧ (∃ group ∈ policy.allowedGroups, row.2.channelGroupId = some group) ∧
        isAdmissible (scoreChannel scoring stream row.2) policy.minScore
          policy.allowNoCallsign = true
  best : ∀ row provenance,
    resolveScoredFuzzy scoring policy stream rows = some (row, provenance) →
      TopScoring scoring policy stream rows row ∧
        ∀ other, TopScoring scoring policy stream rows other → row.1 ≤ other.1
  callsign : ∀ row provenance,
    resolveScoredFuzzy scoring policy stream rows = some (row, provenance) →
      callsignsDiffer scoring (extractCallsign scoring stream.streamName)
        (extractCallsign scoring row.2.name) = false

/-- Of the top-scoring channels, the first by its id as text has the least id. -/
def TextLeast (rows : List (ℤ × Pipeline.Channel)) : Prop :=
  ∀ row, TopScoring scoring policy stream rows row →
    (∀ other, TopScoring scoring policy stream rows other → toString row.1 ≤ toString other.1) →
      ∀ other, TopScoring scoring policy stream rows other → row.1 ≤ other.1

variable {scoring policy stream}

theorem eligible_iff (channel : Pipeline.Channel) :
    eligible scoring policy stream channel = true ↔
      ((∃ group ∈ policy.allowedGroups, channel.channelGroupId = some group) ∧ channel.name ≠ "") ∧
        isAdmissible (scoreChannel scoring stream channel) policy.minScore
          policy.allowNoCallsign = true := by
  unfold eligible
  cases channel.channelGroupId with
  | none => simp
  | some group => simp

/-- The channel kept is top-scoring and the first of those by its id as text. -/
theorem bestRow_spec {rows : List (ℤ × Pipeline.Channel)} {row : ℤ × Pipeline.Channel}
    (h : bestRow scoring policy stream rows = some row) :
    TopScoring scoring policy stream rows row ∧
      ∀ other, TopScoring scoring policy stream rows other → toString row.1 ≤ toString other.1 := by
  obtain ⟨best, hmem, heligible, rfl, hleast⟩ := (picks_bestRow scoring policy stream rows).winner row h
  have hcompare : ∀ other ∈ rows, eligible scoring policy stream other.2 = true →
      (scoreChannel scoring stream other.2).score < (scoreChannel scoring stream best.2).score ∨
        (scoreChannel scoring stream best.2).score = (scoreChannel scoring stream other.2).score ∧
          toString best.1 ≤ toString other.1 := by
    intro other hother hother'
    simpa [textRank, Prod.Lex.toLex_le_toLex, neg_inj] using hleast other hother hother'
  have htop : TopScoring scoring policy stream rows best := by
    refine ⟨⟨hmem, heligible⟩, fun other hother hother' => ?_⟩
    rcases hcompare other hother hother' with hlt | ⟨heq, -⟩
    · exact hlt.le
    · exact heq.ge
  refine ⟨htop, fun other hother => ?_⟩
  rcases hcompare other hother.1.1 hother.1.2 with hlt | ⟨-, htext⟩
  · exact absurd hlt (not_lt.mpr (hother.2 best hmem heligible))
  · exact htext

theorem bestRow_perm {rows rows' : List (ℤ × Pipeline.Channel)} (hids : (rows.map Prod.fst).Nodup)
    (hperm : rows.Perm rows') :
    bestRow scoring policy stream rows' = bestRow scoring policy stream rows := by
  refine ((picks_bestRow scoring policy stream rows).eq_of_mem_iff
    (picks_bestRow scoring policy stream rows') (fun row => hperm.mem_iff) ?_).symm
  intro row hrow other hother hkey
  have htext : toString row.1 = toString other.1 := by
    simpa [textRank] using congrArg (fun k => (ofLex k).2) hkey
  exact List.inj_on_of_nodup_map hids hrow hother (toString_inj htext)

theorem exists_bestRow {rows : List (ℤ × Pipeline.Channel)} {row : ℤ × Pipeline.Channel}
    (h : TopScoring scoring policy stream rows row) :
    ∃ best, bestRow scoring policy stream rows = some best := by
  apply Option.isSome_iff_exists.mp
  rw [(picks_bestRow scoring policy stream rows).isSome_iff]
  exact ⟨row, h.1⟩

/-- A resolution is safe exactly when the text of the ids orders the best as their numbers do. -/
theorem safeResolution_iff (htie : policy.tieBreak = .lowestId) {rows : List (ℤ × Pipeline.Channel)}
    (hids : (rows.map Prod.fst).Nodup) :
    SafeResolution scoring policy stream rows ↔ TextLeast scoring policy stream rows := by
  have hresolve : ∀ row provenance,
      resolveScoredFuzzy scoring policy stream rows = some (row, provenance) →
        bestRow scoring policy stream rows = some row := by
    intro row provenance h
    rw [resolveScoredFuzzy_eq scoring policy stream htie] at h
    obtain ⟨best, hbest, heq⟩ := Option.map_eq_some_iff.mp h
    rw [← (Prod.mk.inj heq).1]
    exact hbest
  constructor
  · intro hsafe row htop htext other hother
    obtain ⟨best, hbest⟩ := exists_bestRow htop
    obtain ⟨hbesttop, hbesttext⟩ := bestRow_spec hbest
    have hsame : best.1 = row.1 :=
      toString_inj (le_antisymm (hbesttext row htop) (htext best hbesttop))
    have hfound : resolveScoredFuzzy scoring policy stream rows =
        some (best, provenanceOf scoring policy stream best) := by
      rw [resolveScoredFuzzy_eq scoring policy stream htie, hbest, Option.map_some]
    rw [← hsame]
    exact (hsafe.best best _ hfound).2 other hother
  · intro hleast
    constructor
    · intro rows' hperm
      rw [resolveScoredFuzzy_eq scoring policy stream htie,
        resolveScoredFuzzy_eq scoring policy stream htie, bestRow_perm hids hperm]
    · intro row provenance h
      obtain ⟨⟨⟨hmem, heligible⟩, -⟩, -⟩ := bestRow_spec (hresolve row provenance h)
      obtain ⟨⟨hgroup, -⟩, hadmissible⟩ := (eligible_iff row.2).mp heligible
      exact ⟨hmem, hgroup, hadmissible⟩
    · intro row provenance h
      obtain ⟨htop, htext⟩ := bestRow_spec (hresolve row provenance h)
      exact ⟨htop, hleast row htop htext⟩
    · intro row provenance h
      obtain ⟨⟨⟨-, heligible⟩, -⟩, -⟩ := bestRow_spec (hresolve row provenance h)
      exact not_admissible_of_differ scoring ((eligible_iff row.2).mp heligible).2

end Resolve

/-! ### The loop over a group's channels -/

section Find

/-- What finding a candidate does. -/
structure SafeCandidate (streamName : String) (candidates : List (String × String))
    (threshold : ℚ) : Prop where
  perm : ∀ candidates', candidates.Perm candidates' →
    findCandidate scoring streamName candidates' threshold =
      findCandidate scoring streamName candidates threshold
  confident : ∀ found, findCandidate scoring streamName candidates threshold = some found →
    max threshold confidenceFloor ≤ found.confidence
  best : ∀ found, findCandidate scoring streamName candidates threshold = some found →
    (found.candidateChannelId, found.candidateName) ∈ candidates ∧
      found.confidence = confidenceOf scoring (scoring.normalize .conservative streamName)
        (scoring.normalize .conservative found.candidateName) ∧
      ∀ candidate ∈ candidates, scoring.normalize .conservative candidate.2 ≠ "" →
        confidenceOf scoring (scoring.normalize .conservative streamName)
            (scoring.normalize .conservative candidate.2) < found.confidence ∨
          confidenceOf scoring (scoring.normalize .conservative streamName)
              (scoring.normalize .conservative candidate.2) = found.confidence ∧
            found.candidateChannelId ≤ candidate.1

variable (normalizedStream : String) (effectiveThreshold : ℚ)

def candidateConfidence (candidate : String × String) : ℚ :=
  confidenceOf scoring normalizedStream (scoring.normalize .conservative candidate.2)

/-- Whether the loop takes a candidate at all. -/
def confident (candidate : String × String) : Bool :=
  scoring.normalize .conservative candidate.2 ≠ "" &&
    effectiveThreshold ≤ candidateConfidence scoring normalizedStream candidate

theorem le_of_confident {candidate : String × String}
    (h : confident scoring normalizedStream effectiveThreshold candidate = true) :
    effectiveThreshold ≤ candidateConfidence scoring normalizedStream candidate :=
  of_decide_eq_true (Bool.and_eq_true_iff.mp h).2

def confidenceRank (candidate : String × String) : ℚ ×ₗ String :=
  toLex (-candidateConfidence scoring normalizedStream candidate, candidate.1)

def matchResult (candidate : String × String) : MatchResult :=
  ⟨candidate.1, candidate.2, candidateConfidence scoring normalizedStream candidate⟩

theorem considerCandidate_eq (best : Option (String × String)) (candidate : String × String) :
    considerCandidate scoring normalizedStream effectiveThreshold
        (best.map (matchResult scoring normalizedStream)) candidate =
      (keepLeastEntry (confidenceRank scoring normalizedStream)
        (confident scoring normalizedStream effectiveThreshold) best candidate).map
          (matchResult scoring normalizedStream) := by
  have hconfident : confident scoring normalizedStream effectiveThreshold candidate = true ↔
      ¬ (scoring.normalize .conservative candidate.2 = "" ∨
        confidenceOf scoring normalizedStream (scoring.normalize .conservative candidate.2) <
          effectiveThreshold) := by
    rw [confident, Bool.and_eq_true, decide_eq_true_eq, decide_eq_true_eq, not_or, not_lt]
    rfl
  unfold considerCandidate keepLeastEntry
  by_cases hskip : scoring.normalize .conservative candidate.2 = "" ∨
      confidenceOf scoring normalizedStream (scoring.normalize .conservative candidate.2) <
        effectiveThreshold
  · have hrefused := mt hconfident.mp (not_not_intro hskip)
    simp [hskip, hrefused]
  · have htaken := hconfident.mpr hskip
    simp only [hskip, if_false, htaken, Bool.true_and]
    cases best with
    | none => rfl
    | some kept =>
      have hlt : confidenceRank scoring normalizedStream candidate <
            confidenceRank scoring normalizedStream kept ↔
          candidateConfidence scoring normalizedStream kept <
              candidateConfidence scoring normalizedStream candidate ∨
            candidateConfidence scoring normalizedStream candidate =
                candidateConfidence scoring normalizedStream kept ∧
              candidate.1 < kept.1 := by
        simp [confidenceRank, Prod.Lex.toLex_lt_toLex, neg_inj]
      simp only [Option.map_some, Option.all_some, decide_eq_true_eq, hlt]
      rw [apply_ite (Option.map _)]
      rfl

def bestCandidate (candidates : List (String × String)) : Option (String × String) :=
  candidates.foldl (keepLeastEntry (confidenceRank scoring normalizedStream)
    (confident scoring normalizedStream effectiveThreshold)) none

theorem findCandidate_eq {streamName : String}
    (hname : scoring.normalize .conservative streamName ≠ "") (candidates : List (String × String))
    (threshold : ℚ) :
    findCandidate scoring streamName candidates threshold =
      (bestCandidate scoring (scoring.normalize .conservative streamName)
        (max threshold confidenceFloor) candidates).map
          (matchResult scoring (scoring.normalize .conservative streamName)) := by
  have hfold : ∀ best, candidates.foldl
      (considerCandidate scoring (scoring.normalize .conservative streamName)
        (max threshold confidenceFloor))
        (best.map (matchResult scoring (scoring.normalize .conservative streamName))) =
      (candidates.foldl (keepLeastEntry
        (confidenceRank scoring (scoring.normalize .conservative streamName))
        (confident scoring (scoring.normalize .conservative streamName)
          (max threshold confidenceFloor))) best).map
            (matchResult scoring (scoring.normalize .conservative streamName)) := by
    induction candidates with
    | nil => exact fun _ => rfl
    | cons candidate candidates ih =>
      intro best
      rw [List.foldl_cons, List.foldl_cons, ← ih, considerCandidate_eq]
  unfold findCandidate
  by_cases hnil : candidates = []
  · subst hnil
    rfl
  · rw [if_neg (not_or.mpr ⟨hnil, hname⟩)]
    exact hfold none

theorem safeCandidate {candidates : List (String × String)}
    (hids : (candidates.map Prod.fst).Nodup) (streamName : String) (threshold : ℚ) :
    SafeCandidate scoring streamName candidates threshold := by
  by_cases hname : scoring.normalize .conservative streamName = ""
  · have hnone : ∀ candidates', findCandidate scoring streamName candidates' threshold = none :=
      fun candidates' => if_pos (.inr hname)
    constructor
    · intro candidates' _
      rw [hnone, hnone]
    · intro found h
      rw [hnone] at h
      cases h
    · intro found h
      rw [hnone] at h
      cases h
  · have hpicks := fun candidates' : List (String × String) => picks_foldl_entry
      (confidenceRank scoring (scoring.normalize .conservative streamName))
      (confident scoring (scoring.normalize .conservative streamName)
        (max threshold confidenceFloor)) candidates'
    have hfound : ∀ found, findCandidate scoring streamName candidates threshold = some found →
        ∃ candidate ∈ candidates, confident scoring (scoring.normalize .conservative streamName)
            (max threshold confidenceFloor) candidate = true ∧
          found = matchResult scoring (scoring.normalize .conservative streamName) candidate ∧
          ∀ other ∈ candidates, confident scoring (scoring.normalize .conservative streamName)
              (max threshold confidenceFloor) other = true →
            confidenceRank scoring (scoring.normalize .conservative streamName) candidate ≤
              confidenceRank scoring (scoring.normalize .conservative streamName) other := by
      intro found h
      rw [findCandidate_eq scoring hname] at h
      obtain ⟨best, hbest, rfl⟩ := Option.map_eq_some_iff.mp h
      obtain ⟨candidate, hmem, hconfident, rfl, hleast⟩ := (hpicks candidates).winner best hbest
      exact ⟨candidate, hmem, hconfident, rfl, hleast⟩
    constructor
    · intro candidates' hperm
      rw [findCandidate_eq scoring hname, findCandidate_eq scoring hname]
      congr 1
      refine ((hpicks candidates).eq_of_mem_iff (hpicks candidates') (fun _ => hperm.mem_iff)
        ?_).symm
      intro candidate hcandidate other hother hkey
      have hid : candidate.1 = other.1 := by
        simpa [confidenceRank] using congrArg (fun k => (ofLex k).2) hkey
      exact List.inj_on_of_nodup_map hids hcandidate hother hid
    · intro found h
      obtain ⟨candidate, -, hconfident, rfl, -⟩ := hfound found h
      exact le_of_confident scoring _ _ hconfident
    · intro found h
      obtain ⟨candidate, hmem, hconfident, rfl, hleast⟩ := hfound found h
      refine ⟨hmem, rfl, fun other hother hother' => ?_⟩
      have hfloor := le_of_confident scoring _ _ hconfident
      by_cases hlow : max threshold confidenceFloor ≤ candidateConfidence scoring
          (scoring.normalize .conservative streamName) other
      · have htaken : confident scoring (scoring.normalize .conservative streamName)
            (max threshold confidenceFloor) other = true := by
          simpa [confident, hother'] using hlow
        simpa [confidenceRank, Prod.Lex.toLex_le_toLex, neg_inj, eq_comm, matchResult,
          candidateConfidence] using hleast other hother htaken
      · exact .inl ((not_le.mp hlow).trans_le hfloor)

end Find

/-! ### In a pipeline run -/

/-- What the run keeps of a candidate. -/
def keptOf (kept : Candidate) : ChannelKey × ℚ := (.existing kept.1.1, kept.2.score)

theorem better_eq (tieBreak : TieBreak) (best : Option Candidate) (candidate : Candidate) :
    better (tieBreak = .lowestId) (best.map keptOf) (.existing candidate.1.1) candidate.2.score =
      (keepBest tieBreak best candidate).map keptOf := by
  cases best with
  | none => rfl
  | some kept =>
    simp only [better, keepBest, keptOf, Option.map_some, decide_eq_true_eq]
    by_cases hhigher : kept.2.score < candidate.2.score
    · simp [hhigher, keptOf]
    · simp only [hhigher, false_or, if_false]
      rw [apply_ite (Option.map _)]
      rfl

/-- One candidate, scored as is told here, against the best so far. -/
theorem keptOf_round {cfg : Config} (policy : ScoredPolicy) (stream : Stream)
    (hscore : ∀ channel : Pipeline.Channel, cfg.score stream policy.minScore policy.allowNoCallsign
        channel.name channel.tvgId =
      if isAdmissible (scoreChannel scoring stream channel) policy.minScore policy.allowNoCallsign
      then some (scoreChannel scoring stream channel).score else none)
    (best : Option Candidate) (row : ℤ × Pipeline.Channel) :
    (if (row.2.channelGroupId.any (· ∈ policy.allowedGroups)) && decide (row.2.name ≠ "") then
      match cfg.score stream policy.minScore policy.allowNoCallsign row.2.name row.2.tvgId with
      | none => best.map keptOf
      | some score => better (policy.tieBreak = .lowestId) (best.map keptOf) (.existing row.1) score
    else best.map keptOf) =
      (if eligible scoring policy stream row.2 then
        keepBest policy.tieBreak best (row, scoreChannel scoring stream row.2)
      else best).map keptOf := by
  rw [hscore, eligible]
  cases (row.2.channelGroupId.any (· ∈ policy.allowedGroups)) && decide (row.2.name ≠ "") with
  | false => rfl
  | true =>
    cases isAdmissible (scoreChannel scoring stream row.2) policy.minScore
      policy.allowNoCallsign with
    | false => rfl
    | true => exact better_eq policy.tieBreak best (row, scoreChannel scoring stream row.2)

/-- A run that scores as is told here resolves to the same channel. -/
theorem run_resolves {cfg : Config} {s : State} {rows : List (ℤ × Pipeline.Channel)}
    (policy : ScoredPolicy) (stream : Stream)
    (hrows : existingChannels s = rows.map fun row => (.existing row.1, row.2))
    (hscore : ∀ channel : Pipeline.Channel, cfg.score stream policy.minScore policy.allowNoCallsign
        channel.name channel.tvgId =
      if isAdmissible (scoreChannel scoring stream channel) policy.minScore policy.allowNoCallsign
      then some (scoreChannel scoring stream channel).score else none) :
    Pipeline.resolveScoredFuzzy cfg s stream policy.minScore policy.allowedGroups
        policy.allowNoCallsign (policy.tieBreak = .lowestId) =
      (resolveScoredFuzzy scoring policy stream rows).map fun found => .existing found.1.1 := by
  rw [Pipeline.resolveScoredFuzzy, hrows, List.foldl_map]
  refine (congrArg (Option.map Prod.fst)
    (@List.foldl_hom _ _ _ (Option.map keptOf) _ _ rows none (keptOf_round scoring policy stream hscore))).trans ?_
  rw [resolveScoredFuzzy, Option.map_map, Option.map_map]
  rfl

/-- A scored resolution by the lowest id is safe exactly when the text of the best channels' ids orders
them as their numbers do; finding a candidate is safe. -/
theorem resolution_safe_iff :
    (∀ (policy : ScoredPolicy) (stream : Stream) (rows : List (ℤ × Pipeline.Channel)),
      policy.tieBreak = .lowestId → (rows.map Prod.fst).Nodup →
        (SafeResolution scoring policy stream rows ↔ TextLeast scoring policy stream rows)) ∧
    ∀ (streamName : String) (candidates : List (String × String)) (threshold : ℚ),
      (candidates.map Prod.fst).Nodup → SafeCandidate scoring streamName candidates threshold :=
  ⟨fun _ _ _ htie hids => safeResolution_iff htie hids,
    fun streamName _ threshold hids => safeCandidate scoring hids streamName threshold⟩

section Samples

/-- Names without call signs, each similar to every other. -/
def soundAlike : Scoring := ⟨fun _ => none, id, fun _ name => name, fun _ _ => 1, id⟩

def lowestOfNews : ScoredPolicy := ⟨confidenceFloor, [1], true, .lowestId, none⟩

def newsStream : Stream := ⟨7, "News", none, none, none, none⟩

def newsChannel : Pipeline.Channel := ⟨"News", some 1, none, [], none, none, false⟩

theorem resolution_safe_iff_two :
    (SafeResolution soundAlike lowestOfNews newsStream [(8, newsChannel), (9, newsChannel)] ↔
      TextLeast soundAlike lowestOfNews newsStream [(8, newsChannel), (9, newsChannel)]) ∧
    SafeCandidate soundAlike "News" [("8", "News"), ("9", "News HD")] 0 :=
  ⟨(resolution_safe_iff soundAlike).1 _ _ _ rfl (by decide),
    (resolution_safe_iff soundAlike).2 _ _ _ (by decide)⟩

/-- Of channels 9 and 10 of one score, 10 is resolved to. -/
theorem ten_before_nine :
    ¬ SafeResolution soundAlike lowestOfNews newsStream [(9, newsChannel), (10, newsChannel)] := by
  intro h
  obtain ⟨provenance, hfound⟩ : ∃ provenance, resolveScoredFuzzy soundAlike lowestOfNews newsStream
      [(9, newsChannel), (10, newsChannel)] = some ((10, newsChannel), provenance) :=
    ⟨provenanceOf soundAlike lowestOfNews newsStream (10, newsChannel), by decide +kernel⟩
  have hnine : TopScoring soundAlike lowestOfNews newsStream
      [(9, newsChannel), (10, newsChannel)] (9, newsChannel) :=
    ⟨by decide +kernel, by decide +kernel⟩
  exact absurd ((h.best _ _ hfound).2 _ hnine) (by decide)

end Samples

end ChannelManager.Dedup
