import ChannelManager.Dbas.PlaceholderRebind
import Mathlib.Data.Rat.Defs

/-!
# The stream matcher

An archived stream is looked for among the streams of the destination on four tiers, by its
address, by its name on the same provider, by its name alone and by a similar name. The first tier
that admits a candidate decides.
-/

namespace ChannelManager.Dbas

/-- `MatchTier`. -/
inductive MatchTier where
  | miss
  | exactUrl
  | exactNameSameProvider
  | exactNormalizedName
  | fuzzyNormalizedName
deriving DecidableEq

/-- `STREAM_FUZZY_FLOOR`. -/
def streamFuzzyFloor : ℚ := 3 / 5

/-- What names are compared by: `_normalize` in its conservative mode and `token_set_ratio` as a
fraction. -/
structure NameRules where
  normalize : String → String
  tokenSetRatio : String → String → ℚ

/-- `_normalized_name`. -/
def NameRules.normalizedName (names : NameRules) (record : StreamRecord) : String :=
  if record.name = "" then "" else names.normalize record.name

section Tiers

variable (candidates : List (ℤ × StreamRecord))

/-- One round of `_lowest_id_where`. -/
def lowerId (admits : StreamRecord → Bool) (best : Option ℤ) (row : ℤ × StreamRecord) : Option ℤ :=
  if admits row.2 && best.all (row.1 < ·) then some row.1 else best

/-- `_lowest_id_where`. -/
def lowestIdWhere (admits : StreamRecord → Bool) : Option ℤ :=
  candidates.foldl (lowerId admits) none

/-- `_lowest_id_preferring_raw_name`. -/
def lowestIdPreferringRawName (rawName : String) (admits : StreamRecord → Bool) : Option ℤ :=
  let exact := if rawName = "" then none else
    lowestIdWhere candidates fun record => admits record && record.name = rawName
  exact.or (lowestIdWhere candidates admits)

/-- `_select_in_tier`: one that can serve, of the same spelling, of the lowest id. -/
def selectInTier (rawName : String) (admits : StreamRecord → Bool) : Option ℤ :=
  (lowestIdPreferringRawName candidates rawName fun record =>
      admits record && urlCanServe record.url).or
    (lowestIdPreferringRawName candidates rawName admits)

variable (names : NameRules)

/-- One round of `_best_fuzzy_id`. -/
def closerId (normStreamName : String) (servableOnly : Bool) (best : Option (ℚ × ℤ))
    (row : ℤ × StreamRecord) : Option (ℚ × ℤ) :=
  let score := names.tokenSetRatio normStreamName (names.normalizedName row.2)
  if (servableOnly && !urlCanServe row.2.url) || names.normalizedName row.2 = "" ||
      score < streamFuzzyFloor then best
  else if best.all fun b => b.1 < score || score = b.1 && row.1 < b.2 then some (score, row.1)
  else best

/-- `_best_fuzzy_id`. -/
def bestFuzzyId (normStreamName : String) (servableOnly : Bool) : Option ℤ :=
  (candidates.foldl (closerId names normStreamName servableOnly) none).map Prod.snd

/-- The first tier of those tried that hits. -/
def firstTier : List (MatchTier × Option ℤ) → MatchTier × Option ℤ
  | [] => (.miss, none)
  | (tier, some matchId) :: _ => (tier, some matchId)
  | (_, none) :: rest => firstTier rest

/-- `match_stream`. -/
def matchStream (allowFuzzy : Bool) (stream : StreamRecord) : MatchTier × Option ℤ :=
  let normStreamName := names.normalizedName stream
  let byUrl := if urlCanServe stream.url then
    lowestIdWhere candidates fun record => record.url = stream.url else none
  let sameName := fun record => decide (names.normalizedName record = normStreamName)
  let byProvider := if stream.m3uAccount = none then none else
    selectInTier candidates stream.name fun record =>
      record.m3uAccount = stream.m3uAccount && sameName record
  let byName := selectInTier candidates stream.name sameName
  let byFuzzyName := if allowFuzzy then
    (bestFuzzyId candidates names normStreamName true).or
      (bestFuzzyId candidates names normStreamName false) else none
  if candidates = [] then (.miss, none)
  else if normStreamName = "" then firstTier [(.exactUrl, byUrl)]
  else firstTier [(.exactUrl, byUrl), (.exactNameSameProvider, byProvider),
    (.exactNormalizedName, byName), (.fuzzyNormalizedName, byFuzzyName)]

end Tiers

section Found

variable {candidates : List (ℤ × StreamRecord)} {names : NameRules} {s : ℤ}

/-- A loop that keeps what it has or takes the row it is at ends on a row. -/
theorem foldl_taken {β : Type} {best : Option β → ℤ × StreamRecord → Option β} {id : β → ℤ}
    (h : ∀ b row b', best b row = some b' → b = some b' ∨ id b' = row.1)
    (rows : List (ℤ × StreamRecord)) (b : Option β) {b' : β} (hfold : rows.foldl best b = some b') :
    b = some b' ∨ id b' ∈ rows.map Prod.fst := by
  induction rows generalizing b with
  | nil => exact .inl hfold
  | cons row rows ih =>
    rcases ih (best b row) hfold with hrow | hrows
    · rcases h b row b' hrow with hkept | htaken
      · exact .inl hkept
      · exact .inr (List.mem_map.mpr ⟨row, List.mem_cons_self .., htaken.symm⟩)
    · exact .inr (List.mem_cons_of_mem _ hrows)

theorem lowestIdWhere_mem {admits : StreamRecord → Bool}
    (h : lowestIdWhere candidates admits = some s) : s ∈ candidates.map Prod.fst := by
  have hround : ∀ b row b', lowerId admits b row = some b' → b = some b' ∨ b' = row.1 := by
    intro b row b' h
    unfold lowerId at h
    split at h
    · exact .inr (Option.some.inj h).symm
    · exact .inl h
  exact (foldl_taken hround candidates none h).resolve_left (by simp)

theorem lowestIdPreferringRawName_mem {rawName : String} {admits : StreamRecord → Bool}
    (h : lowestIdPreferringRawName candidates rawName admits = some s) :
    s ∈ candidates.map Prod.fst := by
  rcases Option.or_eq_some_iff.mp h with hexact | ⟨-, hany⟩
  · split at hexact
    · cases hexact
    · exact lowestIdWhere_mem hexact
  · exact lowestIdWhere_mem hany

theorem selectInTier_mem {rawName : String} {admits : StreamRecord → Bool}
    (h : selectInTier candidates rawName admits = some s) : s ∈ candidates.map Prod.fst := by
  rcases Option.or_eq_some_iff.mp h with hserves | ⟨-, hany⟩
  · exact lowestIdPreferringRawName_mem hserves
  · exact lowestIdPreferringRawName_mem hany

theorem bestFuzzyId_mem {normStreamName : String} {servableOnly : Bool}
    (h : bestFuzzyId candidates names normStreamName servableOnly = some s) :
    s ∈ candidates.map Prod.fst := by
  have hround : ∀ b row b', closerId names normStreamName servableOnly b row = some b' →
      b = some b' ∨ b'.2 = row.1 := by
    intro b row b' h
    unfold closerId at h
    dsimp only at h
    split at h
    · exact .inl h
    · split at h
      · exact .inr (by rw [← Option.some.inj h])
      · exact .inl h
  obtain ⟨best, hbest, rfl⟩ := Option.map_eq_some_iff.mp h
  exact (foldl_taken hround candidates none hbest).resolve_left (by simp)

/-- What is found, one of the tiers found. -/
theorem firstTier_mem {tiers : List (MatchTier × Option ℤ)} (h : (firstTier tiers).2 = some s) :
    ∃ tier, (tier, some s) ∈ tiers := by
  induction tiers with
  | nil => cases h
  | cons tried rest ih =>
    obtain ⟨tier, hit⟩ := tried
    cases hit with
    | some matchId =>
      cases h
      exact ⟨tier, List.mem_cons_self ..⟩
    | none =>
      obtain ⟨tier', hmem⟩ := ih h
      exact ⟨tier', List.mem_cons_of_mem _ hmem⟩

/-- A tier that hits is not the miss. -/
theorem firstTier_miss {tiers : List (MatchTier × Option ℤ)} (h : ∀ t ∈ tiers, t.1 ≠ .miss) :
    (firstTier tiers).1 = .miss ↔ (firstTier tiers).2 = none := by
  induction tiers with
  | nil => exact ⟨fun _ => rfl, fun _ => rfl⟩
  | cons tried rest ih =>
    obtain ⟨tier, hit⟩ := tried
    cases hit with
    | some matchId =>
      exact ⟨fun hmiss => (h _ (List.mem_cons_self ..) hmiss).elim, fun hnone => by cases hnone⟩
    | none => exact ih fun t ht => h t (List.mem_cons_of_mem _ ht)

/-- A match is a candidate. -/
theorem matchStream_mem {allowFuzzy : Bool} {stream : StreamRecord}
    (h : (matchStream candidates names allowFuzzy stream).2 = some s) :
    s ∈ candidates.map Prod.fst := by
  have hurl : ∀ {b : Bool}, (if b then lowestIdWhere candidates fun record =>
      record.url = stream.url else none) = some s → s ∈ candidates.map Prod.fst := by
    intro b hb
    split at hb
    · exact lowestIdWhere_mem hb
    · cases hb
  unfold matchStream at h
  dsimp only at h
  split at h
  · cases h
  · split at h
    · obtain ⟨tier, hmem⟩ := firstTier_mem h
      obtain ⟨-, hhit⟩ := Prod.mk.inj (List.mem_singleton.mp hmem)
      exact hurl hhit.symm
    · obtain ⟨tier, hmem⟩ := firstTier_mem h
      simp only [List.mem_cons, Prod.mk.injEq, List.not_mem_nil, or_false] at hmem
      rcases hmem with ⟨-, hhit⟩ | ⟨-, hhit⟩ | ⟨-, hhit⟩ | ⟨-, hhit⟩
      · exact hurl hhit.symm
      · split at hhit
        · cases hhit
        · exact selectInTier_mem hhit.symm
      · exact selectInTier_mem hhit.symm
      · split at hhit
        · rcases Option.or_eq_some_iff.mp hhit.symm with hserves | ⟨-, hany⟩
          · exact bestFuzzyId_mem hserves
          · exact bestFuzzyId_mem hany
        · cases hhit

/-- It is a miss exactly when there is no match. -/
theorem matchStream_miss (allowFuzzy : Bool) (stream : StreamRecord) :
    (matchStream candidates names allowFuzzy stream).1 = .miss ↔
      (matchStream candidates names allowFuzzy stream).2 = none := by
  unfold matchStream
  dsimp only
  split
  · exact ⟨fun _ => rfl, fun _ => rfl⟩
  · split
    · exact firstTier_miss (by simp)
    · exact firstTier_miss (by simp)

end Found

/-- The matcher of the rebind. -/
def streamMatcher (names : NameRules) (allowFuzzy : Bool) : Matcher where
  matchStream archived candidates := (matchStream candidates names allowFuzzy archived).2
  found _ _ _ h := matchStream_mem h

end ChannelManager.Dbas
