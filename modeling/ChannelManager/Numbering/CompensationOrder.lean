import ChannelManager.Numbering.WriteOrder
import Mathlib.Logic.Function.Basic

/-!
# Newest-first compensation

`NumberingCompensator.compensation_steps` after an acyclic plan that stopped part way. What landed is
an initial part of the chosen order, in which nobody moves onto a number before it is left; read
backwards, nobody moves back onto a number before it is left either.
-/

namespace ChannelManager

/-- What a run tells the compensator about one numbering write. -/
inductive NumberingOutcome
  | landed (write : NumberingWrite)
  | failed (channelId : ℤ) (name : String) (intended : Option ℚ)

namespace NumberingOutcome

def landed? : NumberingOutcome → Option NumberingWrite
  | landed write => some write
  | failed _ _ _ => none

end NumberingOutcome

/-- The writes that landed, in order. -/
def landedWrites (outcomes : List NumberingOutcome) : List NumberingWrite :=
  outcomes.filterMap (·.landed?)

namespace NumberingCompensator

def record (compensator : NumberingCompensator) : NumberingOutcome → NumberingCompensator
  | .landed write =>
    compensator.recordLanded write.channelId write.name write.before write.after
  | .failed channelId name intended => compensator.recordFailed channelId name intended

def recorded (outcomes : List NumberingOutcome) : NumberingCompensator := outcomes.foldl record {}

end NumberingCompensator

/-- The write that puts this one back. -/
def NumberingWrite.inverse (write : NumberingWrite) : NumberingWrite where
  channelId := write.channelId
  name := write.name
  before := write.after
  after := write.before

/-- The numbers of the channels after some writes. -/
def writeNumbers (numbers : ℤ → Option ℚ) (writes : List NumberingWrite) : ℤ → Option ℚ :=
  writes.foldl (fun numbers write => Function.update numbers write.channelId write.after) numbers

theorem numberMoves_comm (a b : Option ℚ) : numberMoves a b = numberMoves b a := by
  cases a <;> cases b <;> simp [numberMoves, eq_comm]

theorem NumberingWrite.moves_inverse (write : NumberingWrite) :
    write.inverse.moves = write.moves :=
  numberMoves_comm write.after write.before

section Recording

theorem landed_recorded (outcomes : List NumberingOutcome) (compensator : NumberingCompensator) :
    (outcomes.foldl NumberingCompensator.record compensator).landed =
      compensator.landed ++ landedWrites outcomes := by
  induction outcomes generalizing compensator with
  | nil => simp [landedWrites]
  | cons outcome outcomes ih =>
    rw [List.foldl_cons, ih]
    cases outcome <;>
      simp [NumberingCompensator.record, NumberingCompensator.recordLanded,
        NumberingCompensator.recordFailed, landedWrites, NumberingOutcome.landed?]

theorem failed_recorded {outcomes : List NumberingOutcome} {compensator : NumberingCompensator}
    (h : compensator.failed ≠ [] ∨ ∃ c name n, .failed c name n ∈ outcomes) :
    (outcomes.foldl NumberingCompensator.record compensator).failed ≠ [] := by
  induction outcomes generalizing compensator with
  | nil => simpa using h
  | cons outcome outcomes ih =>
    rw [List.foldl_cons]
    apply ih
    cases outcome with
    | landed write =>
      simp only [List.mem_cons, reduceCtorEq, false_or] at h
      exact h
    | failed c name n => exact .inl (by simp [NumberingCompensator.record,
        NumberingCompensator.recordFailed])

/-- The first number recorded for a channel is kept. -/
theorem firstBefore_recorded (outcomes : List NumberingOutcome)
    (compensator : NumberingCompensator) (c : ℤ) :
    (outcomes.foldl NumberingCompensator.record compensator).firstBefore.get? c =
      (compensator.firstBefore.get? c).or
        (((landedWrites outcomes).find? (·.channelId = c)).map (·.before)) := by
  induction outcomes generalizing compensator with
  | nil => simp [landedWrites]
  | cons outcome outcomes ih =>
    rw [List.foldl_cons, ih]
    cases outcome with
    | failed c' name n => rfl
    | landed write =>
      have hland : landedWrites (.landed write :: outcomes) = write :: landedWrites outcomes := rfl
      rw [NumberingCompensator.record, firstBefore_recordLanded, hland]
      by_cases hc : write.channelId = c
      · simp [hc]
      · simp [hc]

end Recording

/-- Of distinct channels, each is found under its own id. -/
theorem find?_channelId {writes : List NumberingWrite} (hn : (writes.map (·.channelId)).Nodup)
    {write : NumberingWrite} (h : write ∈ writes) :
    writes.find? (·.channelId = write.channelId) = some write := by
  induction writes with
  | nil => cases h
  | cons first rest ih =>
    have hn' := List.nodup_cons.mp hn
    cases h with
    | head => simp
    | tail _ h =>
      have hne : first.channelId ≠ write.channelId := fun heq =>
        hn'.1 (List.mem_map.mpr ⟨write, h, heq.symm⟩)
      rw [List.find?_cons_of_neg (by simpa using hne)]
      exact ih hn'.2 h

/-- Over distinct channels, each of which came from the number recorded for it, the loop puts every
moving write back. -/
theorem stepsFrom_eq {compensator : NumberingCompensator} {writes : List NumberingWrite}
    {seen : List ℤ} (hn : (writes.map (·.channelId)).Nodup)
    (hseen : ∀ write ∈ writes, write.channelId ∉ seen)
    (hbefore : ∀ write ∈ writes,
      compensator.firstBefore.get? write.channelId = some write.before) :
    compensator.stepsFrom seen writes =
      (writes.filter (·.moves)).map NumberingWrite.inverse := by
  induction writes generalizing seen with
  | nil => rfl
  | cons write writes ih =>
    have hn' := List.nodup_cons.mp hn
    have hunseen : ∀ w ∈ writes, w.channelId ∉ write.channelId :: seen := by
      intro w hw hmem
      cases List.mem_cons.mp hmem with
      | inl heq => exact hn'.1 (List.mem_map.mpr ⟨w, hw, heq⟩)
      | inr hmem => exact hseen w (List.mem_cons_of_mem _ hw) hmem
    have hrest := ih hn'.2 hunseen fun w hw => hbefore w (List.mem_cons_of_mem _ hw)
    have hrestore : compensator.restore write = write.inverse := by
      simp [NumberingCompensator.restore, NumberingWrite.inverse, hbefore write List.mem_cons_self]
    rw [NumberingCompensator.stepsFrom, if_neg (hseen write List.mem_cons_self), hrestore, hrest,
      NumberingWrite.moves_inverse]
    cases hm : write.moves <;> simp [hm]

/-- What is put back after a run that stopped part way. -/
theorem compensationSteps_eq {outcomes : List NumberingOutcome}
    (hn : ((landedWrites outcomes).map (·.channelId)).Nodup)
    (hfailed : ∃ c name n, .failed c name n ∈ outcomes) :
    (NumberingCompensator.recorded outcomes).compensationSteps =
      ((landedWrites outcomes).reverse.filter (·.moves)).map NumberingWrite.inverse := by
  have hlanded : (NumberingCompensator.recorded outcomes).landed = landedWrites outcomes := by
    rw [NumberingCompensator.recorded, landed_recorded]
    rfl
  have hf : (NumberingCompensator.recorded outcomes).failed ≠ [] := failed_recorded (.inr hfailed)
  unfold NumberingCompensator.compensationSteps NumberingCompensator.halfApplied
  rw [hlanded]
  by_cases hnil : landedWrites outcomes = []
  · simp [hnil]
  · rw [if_pos (by simp [hnil, hf])]
    apply stepsFrom_eq
    · rw [List.map_reverse]
      exact List.nodup_reverse.mpr hn
    · simp
    · intro write hw
      rw [NumberingCompensator.recorded, firstBefore_recorded,
        find?_channelId hn (List.mem_reverse.mp hw)]
      rfl

section Numbers

variable {numbers : ℤ → Option ℚ} {writes : List NumberingWrite}

theorem writeNumbers_of_not_mem {c : ℤ} (h : c ∉ writes.map (·.channelId)) :
    writeNumbers numbers writes c = numbers c := by
  induction writes generalizing numbers with
  | nil => rfl
  | cons write writes ih =>
    rw [List.map_cons, List.mem_cons, not_or] at h
    rw [writeNumbers, List.foldl_cons, ← writeNumbers, ih h.2, Function.update_of_ne h.1]

theorem writeNumbers_of_mem (hn : (writes.map (·.channelId)).Nodup) {write : NumberingWrite}
    (h : write ∈ writes) : writeNumbers numbers writes write.channelId = write.after := by
  induction writes generalizing numbers with
  | nil => cases h
  | cons first rest ih =>
    have hn' := List.nodup_cons.mp hn
    rw [writeNumbers, List.foldl_cons, ← writeNumbers]
    cases h with
    | head => rw [writeNumbers_of_not_mem hn'.1, Function.update_self]
    | tail _ h => exact ih hn'.2 h

end Numbers

/-- In the order of an acyclic plan no write goes to a number a later one leaves. -/
theorem orderNumberingWrites_pairwise {plan : List NumberingWrite}
    (hacyclic : ∀ p, ¬Relation.TransGen (WaitsFor plan) p p) :
    (orderNumberingWrites plan).writes.Pairwise fun a b => blocksWrite b a = false := by
  have hpositions := early_eq_nil_iff.mp ((acyclic_iff_early_eq_nil plan).mp hacyclic)
  have hn : (positionOrder plan).1.Nodup :=
    (positionOrder_perm plan).nodup_iff.mpr List.nodup_range
  have hwrites : (orderNumberingWrites plan).writes =
      (positionOrder plan).1.filterMap (plan[·]?) := rfl
  rw [hwrites, List.pairwise_filterMap]
  apply (hpositions.and hn).imp
  intro p q ⟨hwaits, hne⟩ a ha b hb
  by_contra hblocks
  exact hwaits ⟨hne.symm, a, b, ha, hb, by simpa using hblocks⟩

section PutBack

variable {landed moved : List NumberingWrite} {numbers : ℤ → Option ℚ}

/-- A channel a step puts back is on the number its write came from. -/
theorem writeNumbers_inverse (hn : (moved.map (·.channelId)).Nodup)
    (hbefore : ∀ write ∈ moved, numbers write.channelId = write.before) {numbers' : ℤ → Option ℚ}
    {write : NumberingWrite} (h : write ∈ moved) :
    writeNumbers numbers' (moved.map NumberingWrite.inverse) write.channelId =
      numbers write.channelId := by
  have hn' : ((moved.map NumberingWrite.inverse).map (·.channelId)).Nodup := by
    rw [List.map_map]
    exact hn
  rw [hbefore write h]
  exact writeNumbers_of_mem hn' (List.mem_map_of_mem h)

/-- What the landed writes and the steps together leave a channel on. -/
theorem putBack_cases (hn : (landed.map (·.channelId)).Nodup)
    (hbefore : ∀ write ∈ landed, numbers write.channelId = write.before) (c : ℤ) :
    writeNumbers (writeNumbers numbers landed)
        ((landed.reverse.filter (·.moves)).map NumberingWrite.inverse) c = numbers c ∨
      ∃ write ∈ landed, write.channelId = c ∧ write.moves = false ∧
        writeNumbers (writeNumbers numbers landed)
          ((landed.reverse.filter (·.moves)).map NumberingWrite.inverse) c = write.after := by
  have hmoved : ((landed.reverse.filter (·.moves)).map (·.channelId)).Nodup := by
    apply List.Nodup.sublist (List.filter_sublist.map _)
    rw [List.map_reverse]
    exact List.nodup_reverse.mpr hn
  by_cases hc : c ∈ (landed.reverse.filter (·.moves)).map (·.channelId)
  · obtain ⟨write, hw, rfl⟩ := List.mem_map.mp hc
    left
    apply writeNumbers_inverse hmoved _ hw
    exact fun w hw => hbefore w (List.mem_reverse.mp (List.mem_filter.mp hw).1)
  · have hc' : c ∉ ((landed.reverse.filter (·.moves)).map NumberingWrite.inverse).map
        (·.channelId) := by
      rw [List.map_map]
      exact hc
    rw [writeNumbers_of_not_mem hc']
    by_cases hl : c ∈ landed.map (·.channelId)
    · obtain ⟨write, hw, rfl⟩ := List.mem_map.mp hl
      right
      refine ⟨write, hw, rfl, ?_, writeNumbers_of_mem hn hw⟩
      by_contra hmoves
      exact hc (List.mem_map.mpr ⟨write, List.mem_filter.mpr
        ⟨List.mem_reverse.mpr hw, by simpa using hmoves⟩, rfl⟩)
    · left
      exact writeNumbers_of_not_mem hl

/-- No step goes to a number that a later one leaves. -/
theorem steps_pairwise (hn : (landed.map (·.channelId)).Nodup)
    (hsafe : landed.Pairwise fun a b => blocksWrite b a = false) :
    ((landed.reverse.filter (·.moves)).map NumberingWrite.inverse).Pairwise fun a b =>
      a.channelId ≠ b.channelId ∧ sameChannelNumber a.after b.before = false := by
  rw [List.pairwise_map]
  have hreverse : landed.reverse.Pairwise fun a b =>
      a.channelId ≠ b.channelId ∧ blocksWrite a b = false := by
    rw [List.pairwise_reverse]
    exact ((List.pairwise_map.mp hn).and hsafe).imp fun h => ⟨h.1.symm, h.2⟩
  apply (hreverse.sublist List.filter_sublist).imp_of_mem
  intro a b ha _ ⟨hne, hblocks⟩
  have hmoves : a.moves = true := by simpa using (List.mem_filter.mp ha).2
  refine ⟨hne, ?_⟩
  simpa [blocksWrite, hmoves, NumberingWrite.inverse] using hblocks

end PutBack

/-- After an acyclic plan over distinct channels stopped part way, every channel that moved is put
back once, newest first; then all are on the numbers they had; and no step goes to a number on which
the channel of a later step still is. -/
theorem compensationSteps_safe {plan : List NumberingWrite}
    (hdistinct : (plan.map (·.channelId)).Nodup)
    (hacyclic : ∀ p, ¬Relation.TransGen (WaitsFor plan) p p) {outcomes : List NumberingOutcome}
    (hlanded : landedWrites outcomes <+: (orderNumberingWrites plan).writes)
    (hfailed : ∃ c name n, .failed c name n ∈ outcomes) {numbers : ℤ → Option ℚ}
    (hbefore : ∀ write ∈ plan, numbers write.channelId = write.before) :
    let landed := landedWrites outcomes
    let steps := (NumberingCompensator.recorded outcomes).compensationSteps
    let after := fun k => writeNumbers (writeNumbers numbers landed) (steps.take k)
    steps.map (·.channelId) = ((landed.filter (·.moves)).map (·.channelId)).reverse ∧
      (∀ c, numberMoves (after steps.length c) (numbers c) = false) ∧
      (∀ c, (∀ write ∈ landed, write.channelId = c → write.moves = true) →
        after steps.length c = numbers c) ∧
      ∀ i j step later, i < j → steps[i]? = some step → steps[j]? = some later →
        sameChannelNumber step.after (after i later.channelId) = false := by
  have hperm := orderNumberingWrites_perm plan
  have hn : ((landedWrites outcomes).map (·.channelId)).Nodup :=
    ((hperm.map _).nodup_iff.mpr hdistinct).sublist (hlanded.sublist.map _)
  have hfrom : ∀ write ∈ landedWrites outcomes, numbers write.channelId = write.before :=
    fun write hw => hbefore write (hperm.subset (hlanded.subset hw))
  have hsafe : (landedWrites outcomes).Pairwise fun a b => blocksWrite b a = false :=
    (orderNumberingWrites_pairwise hacyclic).sublist hlanded.sublist
  intro landed steps after
  have hsteps : steps = (landed.reverse.filter (·.moves)).map NumberingWrite.inverse :=
    compensationSteps_eq hn hfailed
  have hafter : after steps.length = writeNumbers (writeNumbers numbers landed)
      ((landed.reverse.filter (·.moves)).map NumberingWrite.inverse) := by
    simp only [after, List.take_length]
    rw [hsteps]
  have hids : steps.map (·.channelId) = ((landed.filter (·.moves)).map (·.channelId)).reverse := by
    rw [hsteps, List.map_map, List.filter_reverse, List.map_reverse]
    rfl
  refine ⟨hids, ?_, ?_, ?_⟩
  · intro c
    rw [hafter]
    rcases putBack_cases hn hfrom c with heq | ⟨write, hw, hc, hmoves, heq⟩
    · rw [heq, numberMoves_self]
    · rw [heq, ← hc, hfrom write hw, numberMoves_comm]
      exact hmoves
  · intro c hall
    rw [hafter]
    rcases putBack_cases hn hfrom c with heq | ⟨write, hw, hc, hmoves, _⟩
    · exact heq
    · rw [hall write hw hc] at hmoves
      cases hmoves
  · intro i j step later hij hi hj
    have hpair : steps.Pairwise fun a b =>
        a.channelId ≠ b.channelId ∧ sameChannelNumber a.after b.before = false := by
      rw [hsteps]
      exact steps_pairwise hn hsafe
    rw [List.pairwise_iff_getElem] at hpair
    obtain ⟨hilt, hieq⟩ := List.getElem?_eq_some_iff.mp hi
    obtain ⟨hjlt, hjeq⟩ := List.getElem?_eq_some_iff.mp hj
    have hnew : later.channelId ∉ (steps.take i).map (·.channelId) := by
      intro hmem
      obtain ⟨first, hfirst, heq⟩ := List.mem_map.mp hmem
      obtain ⟨k, hk, hkeq⟩ := List.mem_take_iff_getElem.mp hfirst
      have hki : k < i := (lt_min_iff.mp hk).1
      have hne := (hpair k j (hki.trans hilt) hjlt (hki.trans hij)).1
      rw [hkeq, hjeq] at hne
      exact hne heq
    have hmem : later ∈ steps := hjeq ▸ List.getElem_mem hjlt
    rw [hsteps] at hmem
    obtain ⟨write, hw, hinverse⟩ := List.mem_map.mp hmem
    have hwl : write ∈ landed := List.mem_reverse.mp (List.mem_filter.mp hw).1
    have hon : after i later.channelId = later.before := by
      rw [← hinverse] at hnew ⊢
      exact (writeNumbers_of_not_mem hnew).trans (writeNumbers_of_mem hn hwl)
    rw [hon]
    have hlater := (hpair i j hilt hjlt hij).2
    rwa [hieq, hjeq] at hlater

/-- News moves onto the number Sports leaves. -/
def chainPlan : List NumberingWrite :=
  [⟨1, "News", some 5, some 6⟩, ⟨2, "Sports", some 6, some 7⟩]

/-- Sports moved, and News could not. -/
def chainOutcomes : List NumberingOutcome :=
  [.landed ⟨2, "Sports", some 6, some 7⟩, .failed 1 "News" (some 6)]

def chainNumbers (c : ℤ) : Option ℚ := some (c + 4)

theorem compensationSteps_safe_chain :
    (NumberingCompensator.recorded chainOutcomes).compensationSteps.map (·.channelId) = [2] ∧
      writeNumbers (writeNumbers chainNumbers (landedWrites chainOutcomes))
        (NumberingCompensator.recorded chainOutcomes).compensationSteps 2 = chainNumbers 2 := by
  have hdistinct : (chainPlan.map (·.channelId)).Nodup := by decide
  have hacyclic : ∀ p, ¬Relation.TransGen (WaitsFor chainPlan) p p :=
    (acyclic_iff_early_eq_nil chainPlan).mpr (by decide +kernel)
  have hlanded : landedWrites chainOutcomes <+: (orderNumberingWrites chainPlan).writes := by
    decide +kernel
  have hfailed : ∃ c name n, .failed c name n ∈ chainOutcomes :=
    ⟨1, "News", some 6, by simp [chainOutcomes]⟩
  have hbefore : ∀ write ∈ chainPlan, chainNumbers write.channelId = write.before := by
    decide +kernel
  have h := compensationSteps_safe hdistinct hacyclic hlanded hfailed hbefore
  have hmoved : ∀ write ∈ landedWrites chainOutcomes, write.channelId = 2 → write.moves = true := by
    decide +kernel
  have hback := h.2.2.1 2 hmoved
  simp only [List.take_length] at hback
  exact ⟨h.1.trans (by decide +kernel), hback⟩

end ChannelManager
