import ChannelManager.Dbas.StreamMatcher
import ChannelManager.Lib.LeastPick
import Mathlib.Algebra.Order.Ring.Rat

/-!
# The ladder of the stream matcher

What a tier admits and which of its candidates it prefers. The matcher answers with the first tier
that admits a candidate and with the one that tier prefers to all others, in whatever order they are
listed.
-/

namespace ChannelManager.Dbas

/-- The tiers in the order they are tried. -/
def ladder : List MatchTier :=
  [.exactUrl, .exactNameSameProvider, .exactNormalizedName, .fuzzyNormalizedName]

section Ladder

variable (names : NameRules) (allowFuzzy : Bool) (stream : StreamRecord)

def sameNormalizedName (record : StreamRecord) : Bool :=
  names.normalizedName stream ≠ "" && names.normalizedName record = names.normalizedName stream

/-- The similarity of the names. -/
def fuzzyScore (record : StreamRecord) : ℚ :=
  names.tokenSetRatio (names.normalizedName stream) (names.normalizedName record)

/-- Whether a tier admits a candidate. -/
def admits : MatchTier → StreamRecord → Bool
  | .miss, _ => false
  | .exactUrl, record => urlCanServe stream.url && record.url = stream.url
  | .exactNameSameProvider, record =>
    stream.m3uAccount ≠ none && record.m3uAccount = stream.m3uAccount &&
      sameNormalizedName names stream record
  | .exactNormalizedName, record => sameNormalizedName names stream record
  | .fuzzyNormalizedName, record =>
    allowFuzzy && names.normalizedName stream ≠ "" && names.normalizedName record ≠ "" &&
      streamFuzzyFloor ≤ fuzzyScore names stream record

/-- What a tier prefers: the lowest id by address; by name what can serve, of the same spelling, of
the lowest id; by similar name what can serve, the most similar, of the lowest id. -/
def rank (tier : MatchTier) (row : ℤ × StreamRecord) : Bool ×ₗ ℚ ×ₗ ℤ :=
  match tier with
  | .miss | .exactUrl => toLex (false, toLex (0, row.1))
  | .exactNameSameProvider | .exactNormalizedName =>
    toLex (!urlCanServe row.2.url, toLex (if row.2.name = stream.name then 0 else 1, row.1))
  | .fuzzyNormalizedName =>
    toLex (!urlCanServe row.2.url, toLex (-fuzzyScore names stream row.2, row.1))

/-- The answer of the first tier that admits a candidate: one it admits and prefers to all others. -/
structure FirstAndBest (candidates : List (ℤ × StreamRecord)) (answer : MatchTier × Option ℤ) :
    Prop where
  tier : answer.1 = (ladder.find? fun tier =>
    candidates.any fun row => admits names allowFuzzy stream tier row.2).getD .miss
  winner : ∀ s, answer.2 = some s → ∃ row ∈ candidates,
    admits names allowFuzzy stream answer.1 row.2 = true ∧ row.1 = s ∧
      ∀ other ∈ candidates, admits names allowFuzzy stream answer.1 other.2 = true →
        rank names stream answer.1 row ≤ rank names stream answer.1 other
  miss : answer.2 = none ↔ answer.1 = .miss

variable (candidates : List (ℤ × StreamRecord))

/-- What each tier finds. -/
def found : MatchTier → Option ℤ
  | .miss => none
  | .exactUrl => if urlCanServe stream.url then
      lowestIdWhere candidates fun record => record.url = stream.url else none
  | .exactNameSameProvider => if names.normalizedName stream = "" ∨ stream.m3uAccount = none then none
    else selectInTier candidates stream.name fun record =>
      record.m3uAccount = stream.m3uAccount &&
        decide (names.normalizedName record = names.normalizedName stream)
  | .exactNormalizedName => if names.normalizedName stream = "" then none else
      selectInTier candidates stream.name fun record =>
        decide (names.normalizedName record = names.normalizedName stream)
  | .fuzzyNormalizedName => if names.normalizedName stream = "" ∨ ¬allowFuzzy then none else
      (bestFuzzyId candidates names (names.normalizedName stream) true).or
        (bestFuzzyId candidates names (names.normalizedName stream) false)

variable {names allowFuzzy stream candidates}

theorem picks_none {α ι κ : Type} [LinearOrder κ] {l : List α} {admits : α → Bool} {key : α → κ}
    {id : α → ι} (h : ∀ a ∈ l, admits a = false) : Picks l admits key id none :=
  ⟨nofun, fun _ => h⟩

theorem picks_lowestIdWhere (candidates : List (ℤ × StreamRecord)) (test : StreamRecord → Bool) :
    Picks candidates (fun row => test row.2) Prod.fst Prod.fst (lowestIdWhere candidates test) :=
  picks_foldl Prod.fst (fun row => test row.2) candidates

theorem picks_preferringRawName (candidates : List (ℤ × StreamRecord)) {rawName : String}
    (hname : rawName ≠ "") (test : StreamRecord → Bool) :
    Picks candidates (fun row => test row.2)
      (fun row => toLex (!decide (row.2.name = rawName), row.1)) Prod.fst
      (lowestIdPreferringRawName candidates rawName test) := by
  unfold lowestIdPreferringRawName
  rw [if_neg hname]
  exact Picks.or (picks_lowestIdWhere candidates fun record => test record && record.name = rawName)
    (picks_lowestIdWhere candidates test)

theorem picks_selectInTier (candidates : List (ℤ × StreamRecord)) {rawName : String}
    (hname : rawName ≠ "") (test : StreamRecord → Bool) :
    Picks candidates (fun row => test row.2)
      (fun row => toLex (!urlCanServe row.2.url, toLex (!decide (row.2.name = rawName), row.1)))
      Prod.fst (selectInTier candidates rawName test) :=
  Picks.or (picks_preferringRawName candidates hname fun record => test record && urlCanServe record.url)
    (picks_preferringRawName candidates hname test)

/-- The score falls before the id rises. -/
def scoreKey (best : ℚ × ℤ) : ℚ ×ₗ ℤ := toLex (-best.1, best.2)

theorem scoreKey_lt (score score' : ℚ) (s s' : ℤ) :
    scoreKey (score', s') < scoreKey (score, s) ↔ score < score' ∨ score' = score ∧ s' < s := by
  unfold scoreKey
  rw [Prod.Lex.toLex_lt_toLex]
  simp [neg_lt_neg_iff, neg_inj]

/-- Whether a pass over the similar names takes a candidate. -/
def similar (names : NameRules) (normStreamName : String) (servableOnly : Bool)
    (record : StreamRecord) : Bool :=
  names.normalizedName record ≠ "" &&
    streamFuzzyFloor ≤ names.tokenSetRatio normStreamName (names.normalizedName record) &&
      (!servableOnly || urlCanServe record.url)

/-- How near a candidate is, less when nearer. -/
def nearness (names : NameRules) (normStreamName : String) (row : ℤ × StreamRecord) : ℚ ×ₗ ℤ :=
  scoreKey (names.tokenSetRatio normStreamName (names.normalizedName row.2), row.1)

theorem not_similar (names : NameRules) (normStreamName : String) (servableOnly : Bool)
    (record : StreamRecord) :
    (servableOnly && !urlCanServe record.url || names.normalizedName record = "" ||
      names.tokenSetRatio normStreamName (names.normalizedName record) < streamFuzzyFloor) =
        !similar names normStreamName servableOnly record := by
  unfold similar
  by_cases hname : names.normalizedName record = ""
  · simp [hname]
  · by_cases hbelow : names.tokenSetRatio normStreamName (names.normalizedName record) <
        streamFuzzyFloor
    · simp [hbelow, not_le.mpr hbelow]
    · simp [hname, hbelow, not_lt.mp hbelow]

theorem closerId_eq (names : NameRules) (normStreamName : String) (servableOnly : Bool)
    (best : Option (ℚ × ℤ)) (row : ℤ × StreamRecord) :
    (closerId names normStreamName servableOnly best row).map scoreKey =
      keepLeast (nearness names normStreamName)
        (fun row => similar names normStreamName servableOnly row.2) (best.map scoreKey) row := by
  unfold closerId keepLeast nearness
  dsimp only
  rw [not_similar]
  by_cases hsimilar : similar names normStreamName servableOnly row.2 = true
  · cases best with
    | none => simp [hsimilar]
    | some b =>
      have hlt := scoreKey_lt b.1
        (names.tokenSetRatio normStreamName (names.normalizedName row.2)) b.2 row.1
      simp only [hsimilar, Bool.not_true, Bool.false_eq_true, if_false, Bool.true_and,
        Option.all_some, Option.map_some, decide_eq_true_eq, hlt, Bool.or_eq_true,
        Bool.and_eq_true]
      split <;> rfl
  · simp [hsimilar]

/-- The running best of the similar names. -/
theorem picks_bestFuzzyId (candidates : List (ℤ × StreamRecord)) (names : NameRules)
    (normStreamName : String) (servableOnly : Bool) :
    Picks candidates (fun row => similar names normStreamName servableOnly row.2)
      (nearness names normStreamName) Prod.fst (bestFuzzyId candidates names normStreamName servableOnly) := by
  have hfold : candidates.foldl (keepLeast (nearness names normStreamName)
      fun row => similar names normStreamName servableOnly row.2) (Option.map scoreKey none) =
        (candidates.foldl (closerId names normStreamName servableOnly) none).map scoreKey :=
    List.foldl_hom (Option.map scoreKey) fun best row =>
      (closerId_eq names normStreamName servableOnly best row).symm
  have hpicks := picks_foldl (nearness names normStreamName)
    (fun row => similar names normStreamName servableOnly row.2) candidates
  rw [Option.map_none] at hfold
  rw [hfold] at hpicks
  have hid := hpicks.map fun k => (ofLex k).2
  rw [Option.map_map] at hid
  exact hid

/-- What each tier finds is what it prefers of what it admits. -/
theorem picks_found (names : NameRules) (allowFuzzy : Bool) (stream : StreamRecord)
    (candidates : List (ℤ × StreamRecord)) (tier : MatchTier) :
    Picks candidates (fun row => admits names allowFuzzy stream tier row.2)
      (rank names stream tier) Prod.fst (found names allowFuzzy stream candidates tier) := by
  have hraw : names.normalizedName stream ≠ "" → stream.name ≠ "" := by
    intro hnamed hempty
    exact hnamed (if_pos hempty)
  have hspelt : ∀ row row' : ℤ × StreamRecord,
      (toLex (!urlCanServe row.2.url, toLex (!decide (row.2.name = stream.name), row.1)) :
        Bool ×ₗ Bool ×ₗ ℤ) ≤
          toLex (!urlCanServe row'.2.url, toLex (!decide (row'.2.name = stream.name), row'.1)) →
      rank names stream .exactNormalizedName row ≤ rank names stream .exactNormalizedName row' := by
    intro row row' hle
    unfold rank
    rw [Prod.Lex.toLex_le_toLex, Prod.Lex.toLex_le_toLex] at hle ⊢
    refine hle.imp_right (And.imp_right fun hle => ?_)
    dsimp only at hle ⊢
    by_cases h : row.2.name = stream.name
    · by_cases h' : row'.2.name = stream.name
      · simpa [h, h'] using hle
      · simp [h, h']
    · by_cases h' : row'.2.name = stream.name
      · simp only [h, h', decide_false, decide_true, Bool.not_false, Bool.not_true,
          reduceCtorEq, false_and, or_false] at hle
        exact absurd hle (by decide)
      · simpa [h, h'] using hle
  cases tier with
  | miss => exact picks_none fun _ _ => rfl
  | exactUrl =>
    rw [found]
    split
    next hserves =>
      apply (picks_lowestIdWhere candidates fun record => record.url = stream.url).of_le _ |>.of_admits
      · intro row
        simp [admits, hserves]
      · intro row row' hle
        simpa [rank, Prod.Lex.toLex_le_toLex] using hle
    next hdead => exact picks_none fun _ _ => by simp [admits, hdead]
  | exactNameSameProvider =>
    rw [found]
    split
    next hnone =>
      refine picks_none fun _ _ => ?_
      rcases hnone with hname | haccount
      · simp [admits, sameNormalizedName, hname]
      · simp [admits, haccount]
    next hsome =>
      rw [not_or] at hsome
      apply (picks_selectInTier candidates (hraw hsome.1) _).of_le hspelt |>.of_admits
      intro row
      simp [admits, sameNormalizedName, hsome.1, hsome.2]
  | exactNormalizedName =>
    rw [found]
    split
    next hname => exact picks_none fun _ _ => by simp [admits, sameNormalizedName, hname]
    next hname =>
      apply (picks_selectInTier candidates (hraw hname) _).of_le hspelt |>.of_admits
      intro row
      simp [admits, sameNormalizedName, hname]
  | fuzzyNormalizedName =>
    rw [found]
    split
    next hnone =>
      refine picks_none fun _ _ => ?_
      rcases hnone with hname | hfloored
      · simp [admits, hname]
      · simp [admits, hfloored]
    next hsome =>
      rw [not_or, not_not] at hsome
      have hall := picks_bestFuzzyId candidates names (names.normalizedName stream) false
      have hserving := picks_bestFuzzyId candidates names (names.normalizedName stream) true
      have hboth : ∀ row : ℤ × StreamRecord,
          (similar names (names.normalizedName stream) false row.2 && urlCanServe row.2.url) =
            similar names (names.normalizedName stream) true row.2 := fun row => by simp [similar]
      apply Picks.of_admits ((hserving.of_admits hboth).or hall)
      intro row
      simp only [admits, similar, fuzzyScore, hsome.1, hsome.2, Bool.not_false, Bool.true_or,
        Bool.and_true, Bool.true_and, ne_eq, not_false_eq_true, decide_true]
      rfl

theorem firstTier_map (found : MatchTier → Option ℤ) (tiers : List MatchTier) :
    firstTier (tiers.map fun tier => (tier, found tier)) =
      match tiers.find? fun tier => (found tier).isSome with
      | none => (.miss, none)
      | some tier => (tier, found tier) := by
  induction tiers with
  | nil => rfl
  | cons tier tiers ih =>
    cases hfound : found tier with
    | none => simp [firstTier, hfound, ih]
    | some s => simp [firstTier, hfound]

theorem matchStream_eq (names : NameRules) (allowFuzzy : Bool) (stream : StreamRecord)
    (candidates : List (ℤ × StreamRecord)) :
    matchStream candidates names allowFuzzy stream =
      firstTier (ladder.map fun tier => (tier, found names allowFuzzy stream candidates tier)) := by
  by_cases hempty : candidates = []
  · subst hempty
    have hnone : ∀ tier, found names allowFuzzy stream [] tier = none := by
      intro tier
      have hsome := (picks_found names allowFuzzy stream [] tier).isSome_iff
      simpa using hsome
    rw [firstTier_map]
    simp [matchStream, hnone, ladder]
  · unfold matchStream
    rw [if_neg hempty]
    by_cases hname : names.normalizedName stream = ""
    · rw [if_pos hname]
      cases hurl : found names allowFuzzy stream candidates .exactUrl with
      | none => simp_all [ladder, found, firstTier]
      | some s => simp_all [ladder, found, firstTier]
    · rw [if_neg hname]
      cases allowFuzzy with
      | false => simp [ladder, found, hname]
      | true => simp [ladder, found, hname]

/-- The matcher answers with the first tier of its ladder that admits a candidate and with the
candidate that tier prefers. In another order the same candidates get the same answer, and a stream
whose address carries the redaction marker is never found by its address. -/
theorem matchStream_firstAndBest (names : NameRules) (allowFuzzy : Bool) (stream : StreamRecord)
    (candidates : List (ℤ × StreamRecord)) :
    FirstAndBest names allowFuzzy stream candidates
        (matchStream candidates names allowFuzzy stream) ∧
      (∀ candidates' : List (ℤ × StreamRecord), candidates.Perm candidates' →
        matchStream candidates' names allowFuzzy stream =
          matchStream candidates names allowFuzzy stream) ∧
      (urlIsRedacted stream.url = true →
        (matchStream candidates names allowFuzzy stream).1 ≠ .exactUrl) := by
  have hsome : ∀ tier, (found names allowFuzzy stream candidates tier).isSome =
      candidates.any fun row => admits names allowFuzzy stream tier row.2 := by
    intro tier
    rw [Bool.eq_iff_iff, (picks_found names allowFuzzy stream candidates tier).isSome_iff,
      List.any_eq_true]
  have hanswer := matchStream_eq names allowFuzzy stream candidates
  rw [firstTier_map] at hanswer
  simp only [hsome] at hanswer
  refine ⟨?_, fun candidates' hperm => ?_, fun hredacted => ?_⟩
  · cases hfirst : ladder.find? fun tier =>
        candidates.any fun row => admits names allowFuzzy stream tier row.2 with
    | none =>
      rw [hfirst] at hanswer
      rw [hanswer]
      exact ⟨by rw [hfirst]; rfl, nofun, iff_of_true rfl rfl⟩
    | some tier =>
      rw [hfirst] at hanswer
      rw [hanswer]
      have hpicks := picks_found names allowFuzzy stream candidates tier
      have hhit : (found names allowFuzzy stream candidates tier).isSome = true := by
        rw [hsome]
        have hadmits := List.find?_some hfirst
        exact hadmits
      have hmiss : tier ≠ .miss := by
        rintro rfl
        cases hhit
      refine ⟨by rw [hfirst]; rfl, hpicks.winner, iff_of_false ?_ hmiss⟩
      exact Option.isSome_iff_ne_none.mp hhit
  · rw [matchStream_eq, matchStream_eq]
    have hsame : ∀ tier, found names allowFuzzy stream candidates' tier =
        found names allowFuzzy stream candidates tier := by
      intro tier
      have hpicks := picks_found names allowFuzzy stream candidates tier
      have hpicks' := picks_found names allowFuzzy stream candidates' tier
      apply hpicks'.eq_of_mem_iff hpicks fun row => hperm.symm.mem_iff
      intro row _ row' _ hkey
      cases tier <;> simpa [rank] using congrArg (fun k => (ofLex (ofLex k).2).2) hkey
    simp only [hsame]
  · have hdead : urlCanServe stream.url = false := by
      cases hurl : stream.url with
      | none => rfl
      | some url =>
        rw [hurl] at hredacted
        have hmarked := (Bool.and_eq_true_iff.mp hredacted).2
        simp [urlCanServe, hmarked]
    intro htier
    cases hfirst : ladder.find? fun tier =>
        candidates.any fun row => admits names allowFuzzy stream tier row.2 with
    | none =>
      rw [hanswer, hfirst] at htier
      cases htier
    | some tier =>
      rw [hanswer, hfirst] at htier
      obtain rfl : tier = .exactUrl := htier
      simpa [admits, hdead] using List.find?_some hfirst

end Ladder

section Samples

/-- Names as they are, and one similar to another as much as the archive's is to "two". -/
def soundAlike : NameRules := ⟨id, fun _ name => if name = "two" then 1 else streamFuzzyFloor⟩

/-- The lowest id wins by address, also over the spelling of the archive, and the most similar name
wins over a lower id. -/
theorem matchStream_not_by_spelling :
    let stream : StreamRecord := ⟨"News", some "http://p/1", none⟩
    let other : StreamRecord := ⟨"NEWS", some "http://p/1", none⟩
    let one : StreamRecord := ⟨"one", some "http://p/2", none⟩
    let two : StreamRecord := ⟨"two", some "http://p/3", none⟩
    matchStream [(9, stream), (3, other)] soundAlike true stream = (.exactUrl, some 3) ∧
      admits soundAlike true stream .exactUrl stream = true ∧
      urlCanServe stream.url = urlCanServe other.url ∧ other.name ≠ stream.name ∧
      matchStream [(1, one), (2, two)] soundAlike true stream = (.fuzzyNormalizedName, some 2) ∧
      admits soundAlike true stream .fuzzyNormalizedName one = true ∧
      urlCanServe one.url = urlCanServe two.url ∧ one.name ≠ stream.name ∧
      two.name ≠ stream.name := by
  decide +kernel

end Samples

end ChannelManager.Dbas
