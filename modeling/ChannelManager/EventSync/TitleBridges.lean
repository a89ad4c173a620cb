import ChannelManager.EventSync.Teams

/-!
# Bridging titles

Before two titles are scored, a hyphenated token is split where the other title has its parts, and a run
of words becomes the acronym that spells it where the other title has that. The acronyms are a set, and
the scan takes the first of them that spells a run in whatever order the set is gone through.
-/

namespace ChannelManager.EventSync

open Templates (Text)

/-- What `_TITLE_HYPHEN_RE` splits at. -/
def isTitleHyphen (c : Char) : Bool := c = '-' || (0x2010 ≤ c.toNat && c.toNat ≤ 0x2015)

/-- `_contains_run` -/
def containsRun (tokens run : List Text) : Bool :=
  (List.range (tokens.length + 1 - run.length)).any fun i => (tokens.drop i).take run.length = run

/-- The token is written with hyphens, and its parts stand in a row in the other title. -/
def splitsAgainst (other : List Text) (token : Text) : Bool :=
  let parts := runsOf (fun c => !isTitleHyphen c) token
  2 ≤ parts.length && containsRun other parts

/-- `_bridge_hyphen_variants` -/
def bridgeHyphenVariants (tokens other : List Text) : List Text :=
  tokens.flatMap fun token =>
    if splitsAgainst other token then runsOf (fun c => !isTitleHyphen c) token else [token]

/-- The length of an acronym is between `_TITLE_ACRONYM_MIN_LEN` and `_TITLE_ACRONYM_MAX_LEN`. -/
def isShort (token : Text) : Bool := 2 ≤ token.length && token.length ≤ 6

/-- An order in which the set of the short tokens is gone through. -/
structure Iteration (acronymTokens : List Text) where
  order : List Text
  nodup : order.Nodup
  mem_iff : ∀ t, t ∈ order ↔ t ∈ acronymTokens ∧ isShort t = true

/-- `range(min(_TITLE_ACRONYM_MAX_RUN, n), 1, -1)` -/
def runLengths (n : ℕ) : List ℕ := (List.range' 2 (min 5 n - 1)).reverse

/-- The first short token that spells the longest run the tokens start with, and the length of the run. -/
def spelledRun (shorts tokens : List Text) : Option (Text × ℕ) :=
  (runLengths tokens.length).findSome? fun runLen =>
    (shorts.find? (initialismMatches · (tokens.take runLen))).map (·, runLen)

/-- The loop of `_collapse_title_initialisms`; the first argument counts the tokens of a run that are
still to pass. -/
def collapseFrom (shorts : List Text) : ℕ → List Text → List Text
  | _, [] => []
  | pass + 1, _ :: rest => collapseFrom shorts pass rest
  | 0, token :: rest =>
    match spelledRun shorts (token :: rest) with
    | some (hit, runLen) => hit :: collapseFrom shorts (runLen - 1) rest
    | none => token :: collapseFrom shorts 0 rest

/-- `_collapse_title_initialisms` -/
def collapseTitleInitialisms (expansionTokens : List Text) {acronymTokens : List Text}
    (shorts : Iteration acronymTokens) : List Text :=
  if shorts.order = [] then expansionTokens else collapseFrom shorts.order 0 expansionTokens

/-- The tokens of both titles after the hyphens. -/
def hyphenBridged (tokensA tokensB : List Text) : List Text × List Text :=
  let bridgedA := bridgeHyphenVariants tokensA tokensB
  (bridgedA, bridgeHyphenVariants tokensB bridgedA)

/-- `_bridged_title_tokens` from the tokens of the cleaned titles on. -/
def bridgedTokens (tokensA tokensB : List Text)
    (shortsB : Iteration (hyphenBridged tokensA tokensB).2)
    (shortsA : Iteration (hyphenBridged tokensA tokensB).1) : List Text × List Text :=
  (collapseTitleInitialisms (hyphenBridged tokensA tokensB).1 shortsB,
    collapseTitleInitialisms (hyphenBridged tokensA tokensB).2 shortsA)

section Cuts

variable (acronymTokens : List Text)

/-- The short token is among the acronyms and spells the run. -/
def Spells (run : List Text) (token : Text) : Prop :=
  token ∈ acronymTokens ∧ isShort token = true ∧ initialismMatches token run = true

instance (run : List Text) (token : Text) : Decidable (Spells acronymTokens run token) :=
  inferInstanceAs (Decidable (_ ∧ _ ∧ _))

def isSpelled (run : List Text) : Bool := acronymTokens.any (Spells acronymTokens run ·)

/-- How long the run is that the scan takes: the longest one that is spelled, or a single token. -/
def runLength (tokens : List Text) : ℕ :=
  ((runLengths tokens.length).find? fun n => isSpelled acronymTokens (tokens.take n)).getD 1

/-- The runs the scan cuts the tokens into, past some tokens of the run before. -/
def cutFrom : ℕ → List Text → List (List Text)
  | _, [] => []
  | pass + 1, _ :: rest => cutFrom pass rest
  | 0, token :: rest =>
    let n := runLength acronymTokens (token :: rest)
    (token :: rest).take n :: cutFrom (n - 1) rest

def cutRuns (tokens : List Text) : List (List Text) := cutFrom acronymTokens 0 tokens

/-- What the scan puts for a run. -/
def written (shorts : List Text) (run : List Text) : Text :=
  (shorts.find? (initialismMatches · run)).getD (run.headD [])

end Cuts

section Scan

variable {acronymTokens : List Text} (shorts : Iteration acronymTokens)

theorem Iteration.mem_find {run : List Text} {token : Text} :
    token ∈ shorts.order ∧ initialismMatches token run = true ↔ Spells acronymTokens run token := by
  rw [shorts.mem_iff, Spells, and_assoc]

theorem Iteration.isSome_find (run : List Text) :
    (shorts.order.find? (initialismMatches · run)).isSome = isSpelled acronymTokens run := by
  rw [Bool.eq_iff_iff, List.find?_isSome, isSpelled, List.any_eq_true]
  constructor
  · intro ⟨token, hmem, hmatch⟩
    have hspells := shorts.mem_find.mp ⟨hmem, hmatch⟩
    exact ⟨token, hspells.1, decide_eq_true hspells⟩
  · intro ⟨token, _, hspells⟩
    exact ⟨token, shorts.mem_find.mpr (of_decide_eq_true hspells)⟩

theorem findSome_map_pair {α β : Type} (f : α → Option β) (l : List α) :
    (l.findSome? fun a => (f a).map (·, a)) =
      (l.find? fun a => (f a).isSome).bind fun a => (f a).map (·, a) := by
  induction l with
  | nil => rfl
  | cons a l ih =>
    cases h : f a with
    | none => simp [h, ih]
    | some b => simp [h]

theorem spelledRun_eq (tokens : List Text) : spelledRun shorts.order tokens =
    ((runLengths tokens.length).find? fun n => isSpelled acronymTokens (tokens.take n)).bind fun n =>
      (shorts.order.find? (initialismMatches · (tokens.take n))).map (·, n) := by
  rw [spelledRun, findSome_map_pair fun n => shorts.order.find? (initialismMatches · (tokens.take n))]
  simp only [shorts.isSome_find]

theorem initialismMatches_singleton (single token : Text) : initialismMatches single [token] = false := rfl

/-- A single token is written as it is. -/
theorem written_singleton (order : List Text) (token : Text) : written order [token] = token := by
  have hnone : order.find? (initialismMatches · [token]) = none := by
    simp only [initialismMatches_singleton, List.find?_eq_none, Bool.false_eq_true, not_false_eq_true,
      implies_true]
  rw [written, hnone]
  rfl

theorem collapseFrom_eq (pass : ℕ) (tokens : List Text) : collapseFrom shorts.order pass tokens =
    (cutFrom acronymTokens pass tokens).map (written shorts.order) := by
  induction tokens generalizing pass with
  | nil => cases pass <;> rfl
  | cons token rest ih =>
    cases pass with
    | succ pass => exact ih pass
    | zero =>
      simp only [collapseFrom, cutFrom, runLength, spelledRun_eq, List.map_cons]
      cases hfind : (runLengths (token :: rest).length).find? fun n =>
          isSpelled acronymTokens ((token :: rest).take n) with
      | none => simp [ih, written_singleton]
      | some n =>
        have hspelled := List.find?_some hfind
        rw [← shorts.isSome_find, Option.isSome_iff_exists] at hspelled
        obtain ⟨hit, hhit⟩ := hspelled
        simp [hhit, ih, written]

theorem collapseFrom_nil (tokens : List Text) : collapseFrom [] 0 tokens = tokens := by
  induction tokens with
  | nil => rfl
  | cons token rest ih =>
    have hnone : spelledRun [] (token :: rest) = none := by
      simp only [spelledRun, List.find?_nil, Option.map_none, List.findSome?_eq_none_iff, implies_true]
    rw [collapseFrom, hnone]
    exact congrArg (token :: ·) ih

theorem collapse_eq (tokens : List Text) : collapseTitleInitialisms tokens shorts =
    (cutRuns acronymTokens tokens).map (written shorts.order) := by
  rw [cutRuns, ← collapseFrom_eq, collapseTitleInitialisms, ite_eq_right_iff]
  intro hempty
  rw [hempty, collapseFrom_nil]

/-- A run the scan takes is a single token or is spelled. -/
theorem singleton_or_spelled {pass : ℕ} {tokens run : List Text} (h : run ∈ cutFrom acronymTokens pass tokens) :
    (∃ token, run = [token]) ∨ isSpelled acronymTokens run = true := by
  induction tokens generalizing pass with
  | nil => cases pass <;> cases h
  | cons token rest ih =>
    cases pass with
    | succ pass => exact ih h
    | zero =>
      obtain rfl | htail := List.mem_cons.mp h
      · rw [runLength]
        cases hfind : (runLengths (token :: rest).length).find? fun n =>
            isSpelled acronymTokens ((token :: rest).take n) with
        | none => exact .inl ⟨token, rfl⟩
        | some n =>
          have hspelled := List.find?_some hfind
          exact .inr hspelled
      · exact ih htail

theorem written_spelled {run : List Text} (h : isSpelled acronymTokens run = true) :
    Spells acronymTokens run (written shorts.order run) := by
  rw [← shorts.isSome_find, Option.isSome_iff_exists] at h
  obtain ⟨hit, hhit⟩ := h
  have hmatch := List.find?_some hhit
  rw [written, hhit, Option.getD_some]
  exact shorts.mem_find.mp ⟨List.mem_of_find?_eq_some hhit, hmatch⟩

theorem isSpelled_of_spells {run : List Text} {token : Text} (h : Spells acronymTokens run token) :
    isSpelled acronymTokens run = true :=
  List.any_eq_true.mpr ⟨token, h.1, decide_eq_true h⟩

/-- If only one token spells a run, every order takes it. -/
theorem written_only {run : List Text} {token : Text} (h : Spells acronymTokens run token)
    (honly : ∀ other, Spells acronymTokens run other → other = token) :
    written shorts.order run = token :=
  honly _ (written_spelled shorts (isSpelled_of_spells h))

end Scan

section Orders

variable {acronymTokens : List Text}

/-- The set in the order in which its tokens come first. -/
def Iteration.canonical (acronymTokens : List Text) : Iteration acronymTokens where
  order := (acronymTokens.filter isShort).dedup
  nodup := List.nodup_dedup _
  mem_iff := fun t => by rw [List.mem_dedup, List.mem_filter]

def Iteration.ofPerm (shorts : Iteration acronymTokens) {order : List Text}
    (h : order.Perm shorts.order) : Iteration acronymTokens where
  order := order
  nodup := h.nodup_iff.mpr shorts.nodup
  mem_iff := fun t => h.mem_iff.trans (shorts.mem_iff t)

/-- The order with a given token moved to the front. -/
def Iteration.first (shorts : Iteration acronymTokens) {token : Text} (h : token ∈ shorts.order) :
    Iteration acronymTokens := shorts.ofPerm (List.perm_cons_erase h).symm

/-- The order with a given token moved to the end. -/
def Iteration.last (shorts : Iteration acronymTokens) {token : Text} (h : token ∈ shorts.order) :
    Iteration acronymTokens :=
  shorts.ofPerm ((List.perm_append_singleton token _).trans (List.perm_cons_erase h).symm)

variable {run : List Text} {token : Text} (shorts : Iteration acronymTokens) (h : token ∈ shorts.order)

theorem written_first (hmatch : initialismMatches token run = true) :
    written (shorts.first h).order run = token := by
  have hfind : (shorts.first h).order.find? (initialismMatches · run) = some token :=
    List.find?_cons_of_pos hmatch
  rw [written, hfind, Option.getD_some]

/-- At the end of the order a token is written only for a run that no other token spells. -/
theorem only_of_written_last (hwritten : written (shorts.last h).order run = token) :
    ∀ other, Spells acronymTokens run other → other = token := by
  intro other hother
  by_contra hne
  have hmem : other ∈ shorts.order.erase token :=
    (List.mem_erase_of_ne hne).mpr (shorts.mem_find.mpr hother).1
  have hsome : ((shorts.order.erase token).find? (initialismMatches · run)).isSome = true :=
    List.find?_isSome.mpr ⟨other, hmem, hother.2.2⟩
  obtain ⟨hit, hhit⟩ := Option.isSome_iff_exists.mp hsome
  have hfind : (shorts.last h).order.find? (initialismMatches · run) = some hit := by
    change (shorts.order.erase token ++ [token]).find? _ = _
    rw [List.find?_append, hhit, Option.some_or]
  rw [written, hfind, Option.getD_some] at hwritten
  have hhitmem := List.mem_of_find?_eq_some hhit
  rw [hwritten] at hhitmem
  exact shorts.nodup.not_mem_erase hhitmem

end Orders

section Exact

variable {acronymTokens : List Text}

/-- Every run that the scan takes is spelled by one acronym at most. -/
def OneSpelling (acronymTokens tokens : List Text) : Prop :=
  ∀ run ∈ cutRuns acronymTokens tokens, ∀ s s', Spells acronymTokens run s → Spells acronymTokens run s' →
    s = s'

/-- The scan leaves the token by itself, or takes a run that only this token spells. -/
def Stays (acronymTokens tokens : List Text) (token : Text) : Prop :=
  [token] ∈ cutRuns acronymTokens tokens ∨ ∃ run ∈ cutRuns acronymTokens tokens,
    Spells acronymTokens run token ∧ ∀ other, Spells acronymTokens run other → other = token

theorem collapse_unique_iff (tokens : List Text) :
    (∀ shorts shorts' : Iteration acronymTokens,
        collapseTitleInitialisms tokens shorts = collapseTitleInitialisms tokens shorts') ↔
      OneSpelling acronymTokens tokens := by
  simp only [collapse_eq, List.map_inj_left]
  constructor
  · intro h run hrun s s' hs hs'
    have base := Iteration.canonical acronymTokens
    have hmem := base.mem_find.mpr hs
    have hmem' := base.mem_find.mpr hs'
    rw [← written_first base hmem.1 hmem.2, ← written_first base hmem'.1 hmem'.2]
    exact h _ _ run hrun
  · intro h shorts shorts' run hrun
    obtain ⟨token, rfl⟩ | hspelled := singleton_or_spelled hrun
    · rw [written_singleton, written_singleton]
    · exact h run hrun _ _ (written_spelled shorts hspelled) (written_spelled shorts' hspelled)

theorem mem_collapse_iff (tokens : List Text) (token : Text) :
    (∀ shorts : Iteration acronymTokens, token ∈ collapseTitleInitialisms tokens shorts) ↔
      Stays acronymTokens tokens token := by
  simp only [collapse_eq, List.mem_map]
  constructor
  · intro h
    have base := Iteration.canonical acronymTokens
    by_cases hmem : token ∈ base.order
    · obtain ⟨run, hrun, hwritten⟩ := h (base.last hmem)
      obtain ⟨single, rfl⟩ | hspelled := singleton_or_spelled hrun
      · rw [written_singleton] at hwritten
        exact .inl (hwritten ▸ hrun)
      · have hspells := written_spelled (base.last hmem) hspelled
        rw [hwritten] at hspells
        exact .inr ⟨run, hrun, hspells, only_of_written_last base hmem hwritten⟩
    · obtain ⟨run, hrun, hwritten⟩ := h base
      obtain ⟨single, rfl⟩ | hspelled := singleton_or_spelled hrun
      · rw [written_singleton] at hwritten
        exact .inl (hwritten ▸ hrun)
      · have hspells := written_spelled base hspelled
        rw [hwritten] at hspells
        exact absurd (base.mem_find.mpr hspells).1 hmem
  · intro h shorts
    obtain hsingle | ⟨run, hrun, hspells, honly⟩ := h
    · exact ⟨[token], hsingle, written_singleton _ _⟩
    · exact ⟨run, hrun, written_only shorts hspells honly⟩

end Exact

/-- The result does not depend on the order of the set, and no shared token goes, exactly when no run is
spelled twice and every shared token is left by itself or is the only one to spell a run; of the titles
no shared token goes exactly when that is so after the hyphens. -/
theorem onlyAdds_iff (tokensA tokensB : List Text) :
    (((∀ shorts shorts' : Iteration tokensB,
            collapseTitleInitialisms tokensA shorts = collapseTitleInitialisms tokensA shorts') ∧
          ∀ shorts : Iteration tokensB, ∀ token ∈ tokensA, token ∈ tokensB →
            token ∈ collapseTitleInitialisms tokensA shorts) ↔
        OneSpelling tokensB tokensA ∧
          ∀ token ∈ tokensA, token ∈ tokensB → Stays tokensB tokensA token) ∧
      ((∀ shortsB shortsA, ∀ token ∈ tokensA, token ∈ tokensB →
          token ∈ (bridgedTokens tokensA tokensB shortsB shortsA).1 ∧
            token ∈ (bridgedTokens tokensA tokensB shortsB shortsA).2) ↔
        ∀ token ∈ tokensA, token ∈ tokensB →
          Stays (hyphenBridged tokensA tokensB).2 (hyphenBridged tokensA tokensB).1 token ∧
            Stays (hyphenBridged tokensA tokensB).1 (hyphenBridged tokensA tokensB).2 token) := by
  constructor
  · rw [collapse_unique_iff, and_congr_right_iff]
    intro _
    simp only [← mem_collapse_iff]
    exact ⟨fun h token ha hb shorts => h shorts token ha hb, fun h shorts token ha hb => h token ha hb shorts⟩
  · simp only [← mem_collapse_iff, bridgedTokens]
    constructor
    · intro h token ha hb
      exact ⟨fun shortsB => (h shortsB (Iteration.canonical _) token ha hb).1,
        fun shortsA => (h (Iteration.canonical _) shortsA token ha hb).2⟩
    · intro h shortsB shortsA token ha hb
      exact ⟨(h token ha hb).1 shortsB, (h token ha hb).2 shortsA⟩

/-- Two acronyms spell one run; a shared word goes into an acronym; a shared compound is split. -/
theorem shared_tokens_go :
    let united := ["manchester".toList, "united".toList]
    let shorts := ["mufc".toList, "mu".toList]
    let race := ["race".toList, "of".toList, "champions".toList]
    let rocRace := ["roc".toList, "race".toList]
    let resort := ["shangri-la".toList]
    let spelledOut := ["shangri-la".toList, "shangri".toList, "la".toList]
    (∃ order order' : Iteration shorts,
        collapseTitleInitialisms united order ≠ collapseTitleInitialisms united order') ∧
      "race".toList ∉ collapseTitleInitialisms race (Iteration.canonical rocRace) ∧
      "shangri-la".toList ∉ (bridgedTokens resort spelledOut (Iteration.canonical _)
        (Iteration.canonical _)).1 := by
  refine ⟨⟨Iteration.canonical _,
    (Iteration.canonical _).last (show "mufc".toList ∈ _ by decide +kernel), ?_⟩, ?_⟩
  · decide +kernel
  · decide +kernel

end ChannelManager.EventSync
