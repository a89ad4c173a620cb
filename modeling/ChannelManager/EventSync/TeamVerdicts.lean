import ChannelManager.EventSync.Teams
import Mathlib.Data.List.Sublists
import Mathlib.Tactic.Linarith
import Mathlib.Tactic.Positivity

/-!
# Verdicts on teams

An alias raises the similarity of the teams it declares the same to one and leaves every other. The
verdict is made from the two scores of the better assignment, and it is not monotone in them: one score
over the floor beside one under it speaks for another fixture.
-/

namespace ChannelManager.EventSync

open Templates (Text)

section Similarity

variable (text : TeamText) (index : Option AliasIndex)

/-- The names are brought to one by an alias: no qualifier tells them apart, and both keys are of one
group. -/
def Bridged (a b : Text) : Prop :=
  qualifiers (teamTokens text a) = qualifiers (teamTokens text b) ∧
    normalizeAliasTerm text a ≠ [] ∧ normalizeAliasTerm text b ≠ [] ∧
    sameAliasGroup index (normalizeAliasTerm text a) (normalizeAliasTerm text b) = true

instance (a b : Text) : Decidable (Bridged text index a b) :=
  inferInstanceAs (Decidable (_ ∧ _ ∧ _ ∧ _))

theorem sameAliasGroup_none (a b : List Text) : sameAliasGroup none a b = false := rfl

theorem teamSimilarity_aliased (a b : Text) : teamSimilarity text index a b =
    if Bridged text index a b then 1 else teamSimilarity text none a b := by
  simp only [teamSimilarity, Bridged, normalizeAliasTerm, sameAliasGroup_none]
  split_ifs <;> simp_all

theorem worstMatch_le_one (shorter longer : List Text) : worstMatch text shorter longer ≤ 1 := by
  have hfold : ∀ worst : ℚ, worst ≤ 1 →
      shorter.foldl (fun worst token => min worst (bestMatch text longer token)) worst ≤ 1 := by
    induction shorter with
    | nil => exact fun worst h => h
    | cons token shorter ih => exact fun worst h => ih _ ((min_le_left _ _).trans h)
  exact hfold 1 le_rfl

theorem teamSimilarity_le_one (a b : Text) : teamSimilarity text index a b ≤ 1 := by
  simp only [teamSimilarity]
  split_ifs
  · exact zero_le_one
  · exact text.ratio_le_one _ _
  · exact le_rfl
  · exact le_rfl
  · norm_num [initialismScore]
  · norm_num [initialismScore]
  · exact worstMatch_le_one text _ _
  · exact worstMatch_le_one text _ _

theorem teamSimilarity_mono (a b : Text) :
    teamSimilarity text none a b ≤ teamSimilarity text index a b := by
  rw [teamSimilarity_aliased text index]
  split_ifs
  · exact teamSimilarity_le_one text none a b
  · exact le_rfl

end Similarity

section Verdict

variable (text : TeamText) (index : Option AliasIndex)

theorem judge_eq_agree (best : Assignment) :
    judge best = .agree ↔ teamAgreeFloor ≤ best.1 ∧ teamAgreeFloor ≤ best.2 := by
  have hfloor : teamConflictCeiling < teamAgreeFloor := by decide +kernel
  rw [← le_min_iff, judge]
  constructor
  · intro h
    split_ifs at h with _ hagree
    exact hagree
  · intro h
    rw [if_neg (by linarith), if_pos h]

theorem judge_eq_uncertain (best : Assignment) :
    judge best = .uncertain ↔ (teamConflictCeiling ≤ best.1 ∧ teamConflictCeiling ≤ best.2) ∧
      best.1 < teamAgreeFloor ∧ best.2 < teamAgreeFloor := by
  rw [← le_min_iff, ← max_lt_iff, judge]
  constructor
  · intro h
    split_ifs at h with hceiling _ hmixed
    exact ⟨not_lt.mp hceiling, not_le.mp hmixed⟩
  · intro ⟨hceiling, hmixed⟩
    have hmin : min best.1 best.2 < teamAgreeFloor := (min_le_max).trans_lt hmixed
    rw [if_neg (not_lt.mpr hceiling), if_neg (not_le.mpr hmin), if_neg (not_le.mpr hmixed)]

/-- One score over the floor beside one under it. -/
theorem judge_mixed {best : Assignment}
    (h : teamAgreeFloor ≤ best.1 ∧ best.2 < teamAgreeFloor ∨
      teamAgreeFloor ≤ best.2 ∧ best.1 < teamAgreeFloor) : judge best = .conflict := by
  have hmin : min best.1 best.2 < teamAgreeFloor := by
    obtain h | h := h
    · exact min_lt_of_right_lt h.2
    · exact min_lt_of_left_lt h.2
  have hmax : teamAgreeFloor ≤ max best.1 best.2 := by
    obtain h | h := h
    · exact le_max_of_le_left h.1
    · exact le_max_of_le_right h.1
  rw [judge, if_neg (not_le.mpr hmin), if_pos hmax, ite_self]

/-- The teams laid over one another in the assignment with the larger sum. -/
def bestPairing (a b : Text × Text) : (Text × Text) × (Text × Text) :=
  if swaps text index a b then ((a.1, b.2), (a.2, b.1)) else ((a.1, b.1), (a.2, b.2))

theorem bestAssignment_eq (a b : Text × Text) : bestAssignment text index a b =
    (teamSimilarity text index (bestPairing text index a b).1.1 (bestPairing text index a b).1.2,
      teamSimilarity text index (bestPairing text index a b).2.1 (bestPairing text index a b).2.2) := by
  unfold bestAssignment bestPairing
  split_ifs <;> rfl

/-- The scores are level: both at the floor of agreement, or both between the ceiling of conflict and
that floor. -/
def Level (best : Assignment) : Prop :=
  (teamAgreeFloor ≤ best.1 ∧ teamAgreeFloor ≤ best.2) ∨
    (teamConflictCeiling ≤ best.1 ∧ teamConflictCeiling ≤ best.2) ∧
      best.1 < teamAgreeFloor ∧ best.2 < teamAgreeFloor

/-- With the aliases, the better way to lay the teams over one another has a pair that an alias brings to
one beside a pair whose similarity is under the floor. -/
def OneSided (a b : Text × Text) : Prop :=
  let pairing := bestPairing text index a b
  (Bridged text index pairing.1.1 pairing.1.2 ∧
      teamSimilarity text index pairing.2.1 pairing.2.2 < teamAgreeFloor) ∨
    (Bridged text index pairing.2.1 pairing.2.2 ∧
      teamSimilarity text index pairing.1.1 pairing.1.2 < teamAgreeFloor)

instance (best : Assignment) : Decidable (Level best) := inferInstanceAs (Decidable (_ ∨ _))

instance (a b : Text × Text) : Decidable (OneSided text index a b) :=
  inferInstanceAs (Decidable (_ ∨ _))

/-- A verdict of agreement stays one, and an uncertain one does not become a conflict. -/
def NeverWorse (base aliased : TeamVerdict) : Prop :=
  (base = .agree → aliased = .agree) ∧ (base = .uncertain → aliased = .uncertain ∨ aliased = .agree)

instance (base aliased : TeamVerdict) : Decidable (NeverWorse base aliased) :=
  inferInstanceAs (Decidable (_ ∧ _))

variable {text index} {a b : Text × Text}

theorem teamSimilarity_bridged {x y : Text} (h : Bridged text index x y) :
    teamSimilarity text index x y = 1 := by rw [teamSimilarity_aliased, if_pos h]

theorem teamSimilarity_unbridged {x y : Text} (h : ¬ Bridged text index x y) :
    teamSimilarity text index x y = teamSimilarity text none x y := by
  rw [teamSimilarity_aliased, if_neg h]

theorem scoreSum_mono {s t : Assignment} (h : s.1 ≤ t.1 ∧ s.2 ≤ t.2) :
    scoreSum text s ≤ scoreSum text t := text.round_mono (add_le_add h.1 h.2)

/-- An alias that raises neither pair of the better assignment has not changed which one it is. -/
theorem bestAssignment_unraised
    (hfirst : ¬ Bridged text index (bestPairing text index a b).1.1 (bestPairing text index a b).1.2)
    (hsecond : ¬ Bridged text index (bestPairing text index a b).2.1 (bestPairing text index a b).2.2) :
    bestAssignment text index a b = bestAssignment text none a b := by
  have hstraight : scoreSum text (straight text none a b) ≤ scoreSum text (straight text index a b) :=
    scoreSum_mono ⟨teamSimilarity_mono text index _ _, teamSimilarity_mono text index _ _⟩
  have hswapped : scoreSum text (swapped text none a b) ≤ scoreSum text (swapped text index a b) :=
    scoreSum_mono ⟨teamSimilarity_mono text index _ _, teamSimilarity_mono text index _ _⟩
  by_cases hswaps : swaps text index a b = true
  · rw [bestPairing, if_pos hswaps] at hfirst hsecond
    have hsame : swapped text index a b = swapped text none a b := by
      rw [swapped, teamSimilarity_unbridged hfirst, teamSimilarity_unbridged hsecond, swapped]
    have hlt : scoreSum text (straight text index a b) < scoreSum text (swapped text index a b) := by
      simpa [swaps] using hswaps
    have hnone : swaps text none a b = true := by
      rw [swaps, decide_eq_true_iff, ← hsame]
      exact hstraight.trans_lt hlt
    rw [bestAssignment, if_pos hswaps, bestAssignment, if_pos hnone, hsame]
  · rw [bestPairing, if_neg hswaps] at hfirst hsecond
    have hsame : straight text index a b = straight text none a b := by
      rw [straight, teamSimilarity_unbridged hfirst, teamSimilarity_unbridged hsecond, straight]
    have hle : scoreSum text (swapped text index a b) ≤ scoreSum text (straight text index a b) := by
      simpa [swaps] using hswaps
    have hnone : ¬ swaps text none a b = true := by
      rw [swaps, decide_eq_true_iff, ← hsame, not_lt]
      exact hswapped.trans hle
    rw [bestAssignment, if_neg hswaps, bestAssignment, if_neg hnone, hsame]

/-- What is beside a pair brought to one is under the floor. -/
theorem judge_oneSided (h : OneSided text index a b) :
    judge (bestAssignment text index a b) = .conflict := by
  have hfloor : teamAgreeFloor ≤ 1 := by decide +kernel
  rw [bestAssignment_eq]
  apply judge_mixed
  obtain ⟨hbridged, hunder⟩ | ⟨hbridged, hunder⟩ := h
  · exact .inl ⟨by rwa [teamSimilarity_bridged hbridged], hunder⟩
  · exact .inr ⟨by rwa [teamSimilarity_bridged hbridged], hunder⟩

/-- If no pair brought to one stands beside a pair under the floor, either both are at the floor or the
aliases have changed nothing. -/
theorem judge_not_oneSided (h : ¬ OneSided text index a b) :
    judge (bestAssignment text index a b) = .agree ∨
      bestAssignment text index a b = bestAssignment text none a b := by
  have hfloor : teamAgreeFloor ≤ 1 := by decide +kernel
  simp only [OneSided, not_or, not_and, not_lt] at h
  by_cases hfirst : Bridged text index (bestPairing text index a b).1.1 (bestPairing text index a b).1.2
  · left
    rw [bestAssignment_eq, judge_eq_agree]
    exact ⟨by rwa [teamSimilarity_bridged hfirst], h.1 hfirst⟩
  · by_cases hsecond :
      Bridged text index (bestPairing text index a b).2.1 (bestPairing text index a b).2.2
    · left
      rw [bestAssignment_eq, judge_eq_agree]
      exact ⟨h.2 hsecond, by rwa [teamSimilarity_bridged hsecond]⟩
    · exact .inr (bestAssignment_unraised hfirst hsecond)

end Verdict

/-- Aliases never make a verdict worse, unless the scores are level without them and they bring only one
of two teams to one. -/
theorem neverWorse_iff (text : TeamText) (index : Option AliasIndex) (a b : Text × Text) :
    NeverWorse (teamPairVerdict text none (some a) (some b)).1
        (teamPairVerdict text index (some a) (some b)).1 ↔
      ¬ (Level (bestAssignment text none a b) ∧ OneSided text index a b) := by
  simp only [teamPairVerdict, NeverWorse]
  have hlevel : Level (bestAssignment text none a b) ↔
      judge (bestAssignment text none a b) = .agree ∨
        judge (bestAssignment text none a b) = .uncertain := by
    rw [judge_eq_agree, judge_eq_uncertain, Level]
  by_cases hsided : OneSided text index a b
  · simp only [judge_oneSided hsided, hsided, and_true, hlevel, not_or, reduceCtorEq, imp_false, or_self]
  · simp only [hsided, and_false, not_false_eq_true, iff_true]
    obtain hagree | hsame := judge_not_oneSided hsided
    · exact ⟨fun _ => hagree, fun _ => .inr hagree⟩
    · rw [hsame]
      exact ⟨id, .inl⟩

/-- The length of the longest common subsequence. -/
def commonLength (a b : Text) : ℕ :=
  ((a.sublists.filter (·.isSublist b)).map List.length).max?.getD 0

theorem exists_common (a b : Text) :
    ∃ t : Text, t.Sublist a ∧ t.Sublist b ∧ t.length = commonLength a b := by
  unfold commonLength
  cases hmax : ((a.sublists.filter (·.isSublist b)).map List.length).max? with
  | none => exact ⟨[], List.nil_sublist a, List.nil_sublist b, rfl⟩
  | some n =>
    obtain ⟨t, ht, rfl⟩ := List.mem_map.mp (List.max?_mem hmax)
    rw [List.mem_filter, List.mem_sublists, List.isSublist_iff_sublist] at ht
    exact ⟨t, ht.1, ht.2, rfl⟩

theorem commonLength_le (a b : Text) : commonLength a b ≤ a.length ∧ commonLength a b ≤ b.length := by
  obtain ⟨t, ha, hb, hlength⟩ := exists_common a b
  exact ⟨hlength ▸ ha.length_le, hlength ▸ hb.length_le⟩

/-- `fuzz.ratio` out of one: the share of both texts that a longest common subsequence takes up. -/
def indelRatio (a b : Text) : ℚ :=
  if a = [] ∧ b = [] then 1 else 2 * commonLength a b / (a.length + b.length)

/-- Texts in ASCII, with sums that are exact. -/
def plainText : TeamText where
  isWord := fun c => c.isAlphanum || c = '_'
  lower := List.map Char.toLower
  ratio := indelRatio
  zero_le_ratio := fun a b => by
    unfold indelRatio
    split_ifs
    · exact zero_le_one
    · positivity
  ratio_le_one := fun a b => by
    unfold indelRatio
    split_ifs with hempty
    · exact le_rfl
    · have hle : (commonLength a b : ℚ) ≤ a.length ∧ (commonLength a b : ℚ) ≤ b.length := by
        exact_mod_cast commonLength_le a b
      exact div_le_one_of_le₀ (by linarith [hle.1, hle.2]) (by positivity)
  round := id
  round_mono := monotone_id

/-- Two spellings of Munich are declared the same; beside them two spellings of Seville now speak for
another fixture. -/
theorem spelling_declared :
    let groups := [["Bayern Munchen".toList, "Bayern Munich".toList]]
    let stream := ("Bayern Munchen".toList, "Sevilla".toList)
    let master := ("Bayern Munich".toList, "Seville".toList)
    (teamPairVerdict plainText none (some stream) (some master)).1 = .uncertain ∧
      (teamPairVerdict plainText (some (buildTeamAliasIndex plainText groups)) (some stream)
        (some master)).1 = .conflict := by
  decide +kernel

section Symmetry

variable (text : TeamText) (index : Option AliasIndex)

/-- If both assignments have the same sum, they are judged alike. -/
def TiesAlike (a b : Text × Text) : Prop :=
  scoreSum text (straight text index a b) = scoreSum text (swapped text index a b) →
    judge (straight text index a b) = judge (swapped text index a b)

instance (a b : Text × Text) : Decidable (TiesAlike text index a b) :=
  inferInstanceAs (Decidable (_ → _))

/-- Two names of equally many identity tokens whose similarity depends on which of them is first. -/
def Lopsided (a b : Text) : Prop :=
  (normalizeAliasTerm text a).length = (normalizeAliasTerm text b).length ∧
    teamSimilarity text index a b ≠ teamSimilarity text index b a

instance (a b : Text) : Decidable (Lopsided text index a b) := inferInstanceAs (Decidable (_ ∧ _))

variable {text index} {a b : Text × Text}

theorem judge_swap (best : Assignment) : judge best.swap = judge best := by
  simp only [judge, Prod.fst_swap, Prod.snd_swap, min_comm, max_comm]

theorem scoreSum_swap (scores : Assignment) : scoreSum text scores.swap = scoreSum text scores := by
  simp only [scoreSum, Prod.fst_swap, Prod.snd_swap, add_comm]

theorem sameAliasGroup_comm (a b : List Text) : sameAliasGroup index a b = sameAliasGroup index b a := by
  cases index with
  | none => rfl
  | some index =>
    simp only [sameAliasGroup, Option.any_some]
    cases index.get? a <;> cases index.get? b <;> simp [eq_comm]

/-- The similarity looks at the shorter name; only where there is none does it matter which is first. -/
theorem teamSimilarity_comm (hratio : ∀ x y, text.ratio x y = text.ratio y x) {a b : Text}
    (h : ¬ Lopsided text index a b) : teamSimilarity text index a b = teamSimilarity text index b a := by
  by_cases hlength : (normalizeAliasTerm text a).length = (normalizeAliasTerm text b).length
  · by_contra hne
    exact h ⟨hlength, hne⟩
  · simp only [normalizeAliasTerm] at hlength
    have hratio' := hratio ([' '].intercalate (teamTokens text a)) ([' '].intercalate (teamTokens text b))
    simp only [teamSimilarity]
    rw [sameAliasGroup_comm (identityTokens (teamTokens text a))]
    grind

theorem straight_swap_left : straight text index a.swap b = (swapped text index a b).swap := rfl

theorem swapped_swap_left : swapped text index a.swap b = (straight text index a b).swap := rfl

theorem straight_swap_right : straight text index a b.swap = swapped text index a b := rfl

theorem swapped_swap_right : swapped text index a b.swap = straight text index a b := rfl

/-- Two assignments in either order: which of them is judged is the same unless their sums are. -/
theorem judge_choice_iff (s t : Assignment) :
    (judge (if scoreSum text t < scoreSum text s then s else t) =
        judge (if scoreSum text s < scoreSum text t then t else s)) ↔
      (scoreSum text s = scoreSum text t → judge s = judge t) := by
  obtain hlt | heq | hgt := lt_trichotomy (scoreSum text s) (scoreSum text t)
  · simp [hlt, hlt.ne, hlt.not_gt]
  · simp [heq, eq_comm]
  · simp [hgt, hgt.ne', hgt.not_gt]

theorem judge_best (a b : Text × Text) : judge (bestAssignment text index a b) =
    judge (if scoreSum text (straight text index a b) < scoreSum text (swapped text index a b) then
      swapped text index a b else straight text index a b) := by
  simp only [bestAssignment, swaps, decide_eq_true_iff]

theorem judge_swap_right_iff :
    judge (bestAssignment text index a b.swap) = judge (bestAssignment text index a b) ↔
      TiesAlike text index a b := by
  rw [judge_best, judge_best a b, straight_swap_right, swapped_swap_right, TiesAlike]
  exact judge_choice_iff _ _

/-- Swapping the teams of the first pair instead turns both assignments round. -/
theorem judge_swap_left :
    judge (bestAssignment text index a.swap b) = judge (bestAssignment text index a b.swap) := by
  rw [judge_best, judge_best a b.swap, straight_swap_left, swapped_swap_left, scoreSum_swap, scoreSum_swap,
    straight_swap_right, swapped_swap_right]
  split_ifs
  · exact judge_swap _
  · exact judge_swap _

theorem judge_exchanged
    (h : ∀ x ∈ [a.1, a.2], ∀ y ∈ [b.1, b.2],
      teamSimilarity text index y x = teamSimilarity text index x y) :
    judge (bestAssignment text index b a) = judge (bestAssignment text index a b) := by
  have hstraight : straight text index b a = straight text index a b := by
    rw [straight, h a.1 (by simp) b.1 (by simp), h a.2 (by simp) b.2 (by simp), straight]
  have hswapped : swapped text index b a = (swapped text index a b).swap := by
    rw [swapped, h a.2 (by simp) b.1 (by simp), h a.1 (by simp) b.2 (by simp), swapped, Prod.swap_prod_mk]
  rw [judge_best, judge_best a b, hstraight, hswapped, scoreSum_swap]
  split_ifs
  · exact judge_swap _
  · rfl

end Symmetry

/-- Swapping home and away in either pair leaves the verdict exactly when assignments of the same sum are
judged alike; exchanging the pairs leaves it when no two names compared are lopsided. -/
theorem rearranged_iff (text : TeamText) (hratio : ∀ x y, text.ratio x y = text.ratio y x)
    (index : Option AliasIndex) (a b : Text × Text) :
    ((teamPairVerdict text index (some a.swap) (some b)).1 =
          (teamPairVerdict text index (some a) (some b)).1 ∧
        (teamPairVerdict text index (some a) (some b.swap)).1 =
          (teamPairVerdict text index (some a) (some b)).1 ↔ TiesAlike text index a b) ∧
      ((∀ x ∈ [a.1, a.2], ∀ y ∈ [b.1, b.2], ¬ Lopsided text index x y) →
        (teamPairVerdict text index (some b) (some a)).1 =
          (teamPairVerdict text index (some a) (some b)).1) := by
  simp only [teamPairVerdict]
  constructor
  · rw [judge_swap_left, and_self]
    exact judge_swap_right_iff
  · intro h
    exact judge_exchanged fun x hx y hy => (teamSimilarity_comm hratio (h x hx y hy)).symm

theorem le_commonLength {t a b : Text} (ha : t.Sublist a) (hb : t.Sublist b) :
    t.length ≤ commonLength a b := by
  have hmem : t.length ∈ (a.sublists.filter (·.isSublist b)).map List.length :=
    List.mem_map_of_mem (List.mem_filter.mpr
      ⟨List.mem_sublists.mpr ha, List.isSublist_iff_sublist.mpr hb⟩)
  unfold commonLength
  cases hmax : ((a.sublists.filter (·.isSublist b)).map List.length).max? with
  | none => exact absurd (List.max?_eq_none_iff.mp hmax) (List.ne_nil_of_mem hmem)
  | some n => exact (List.max?_eq_some_iff.mp hmax).2 _ hmem

theorem indelRatio_comm (a b : Text) : indelRatio a b = indelRatio b a := by
  have hle : ∀ a b : Text, commonLength a b ≤ commonLength b a := by
    intro a b
    obtain ⟨t, ha, hb, hlength⟩ := exists_common a b
    exact hlength ▸ le_commonLength hb ha
  simp only [indelRatio, (hle a b).antisymm (hle b a), and_comm, add_comm]

theorem rearranged_munich :
    let stream := ("Bayern Munchen".toList, "Sevilla".toList)
    let master := ("Bayern Munich".toList, "Seville".toList)
    (teamPairVerdict plainText none (some stream.swap) (some master)).1 =
        (teamPairVerdict plainText none (some stream) (some master)).1 ∧
      (teamPairVerdict plainText none (some master) (some stream)).1 =
        (teamPairVerdict plainText none (some stream) (some master)).1 := by
  have h := rearranged_iff plainText indelRatio_comm none ("Bayern Munchen".toList, "Sevilla".toList)
    ("Bayern Munich".toList, "Seville".toList)
  exact ⟨(h.1.mpr (by decide +kernel)).1, h.2 (by decide +kernel)⟩

/-- Two assignments of one sum that are judged differently, and two names that agree from one side only. -/
theorem order_matters :
    let pair := ("Leon".toList, "Lyon".toList)
    let other := ("Leon".toList, "Reon".toList)
    let inter := ("Inter Internacional".toList, "Leon".toList)
    let miami := ("Inter Miami".toList, "Leon".toList)
    ((teamPairVerdict plainText none (some pair) (some other)).1 = .conflict ∧
        (teamPairVerdict plainText none (some pair.swap) (some other)).1 = .uncertain) ∧
      (teamPairVerdict plainText none (some inter) (some miami)).1 = .agree ∧
        (teamPairVerdict plainText none (some miami) (some inter)).1 = .conflict := by
  decide +kernel

end ChannelManager.EventSync
