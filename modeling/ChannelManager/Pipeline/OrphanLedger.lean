import ChannelManager.Pipeline.Orphans

/-!
# The ledgers after orphan reconciliation

What Pass 4 does to the channels is settled by the writes that land, and what it does to the ledgers
by what the run saw; the two need not agree, and a channel is lost where a cleanup failed.
-/

namespace ChannelManager.Pipeline

/-- The group a channel is in on Dispatcharr. -/
def World.group? (w : World) (c : ℤ) : Option ℤ := (w.channels.get? c).bind StoredChannel.channelGroupId

/-- The channel is on Dispatcharr, outside Uncategorized. -/
def World.outside (w : World) (c : ℤ) : Bool := (w.group? c).isSome

/-- A rule's ledger. -/
def ledger (ledgers : Dict ℤ (List ℤ)) (ruleId : ℤ) : List ℤ := (ledgers.get? ruleId).getD []

theorem ledger_set (order : Dict ℤ (List ℤ)) (ruleId : ℤ) (ids : List ℤ) (id : ℤ) :
    ledger (order.set ruleId ids) id = if ruleId = id then ids else ledger order id := by
  rw [ledger, Dict.get?_set]
  split <;> rfl

section Cleanup

variable {answers : Answers} {w w' w'' : World} {c c' : ℤ} {landed landed' : ℤ → Bool}

/-- What a stretch of cleanup leaves: the channels outside Uncategorized are those no write landed
on, and of those the executor knows what it knew. -/
structure Cleaned (landed : ℤ → Bool) (w w' : World) : Prop where
  managed : w'.managed = w.managed
  saved : w'.saved = w.saved
  outside : ∀ c, w'.outside c = (w.outside c && !landed c)
  known : ∀ c, w'.outside c → w'.known.get? c = w.known.get? c

theorem Cleaned.refl (w : World) : Cleaned (fun _ => false) w w where
  managed := rfl
  saved := rfl
  outside c := by simp
  known _ _ := rfl

theorem Cleaned.trans (h : Cleaned landed w w') (h' : Cleaned landed' w' w'') :
    Cleaned (fun c => landed c || landed' c) w w'' where
  managed := h'.managed.trans h.managed
  saved := h'.saved.trans h.saved
  outside c := by
    rw [h'.outside, h.outside, Bool.not_or, Bool.and_assoc]
  known c hc := by
    have hbefore : w'.outside c = true := by
      rw [h'.outside, Bool.and_eq_true] at hc
      exact hc.1
    exact (h'.known c hc).trans (h.known c hbefore)

theorem Cleaned.congr (h : Cleaned landed w w') (heq : ∀ c, landed c = landed' c) :
    Cleaned landed' w w' where
  managed := h.managed
  saved := h.saved
  outside c := by rw [h.outside, heq]
  known := h.known

/-- What the results say does not matter to the channels. -/
theorem Cleaned.with_results (h : Cleaned landed w w') (results : Results) :
    Cleaned landed w { w' with results } where
  managed := h.managed
  saved := h.saved
  outside := h.outside
  known := h.known

/-- A write about one channel, which takes it out of its group where it lands. -/
theorem send_cleaned (answer : Answer) (c : ℤ) (change : Dict ℤ StoredChannel → Dict ℤ StoredChannel)
    (w : World)
    (hout : ∀ channels, ((change channels).get? c).bind StoredChannel.channelGroupId = none)
    (hframe : ∀ channels c', c' ≠ c → (change channels).get? c' = channels.get? c') :
    Cleaned (fun c' => decide (c' = c) && answer.lands) w (send answer c change w).2 := by
  have hchanged : Cleaned (fun c' => decide (c' = c)) w { w with channels := change w.channels } := by
    constructor
    · rfl
    · rfl
    · intro c'
      unfold World.outside World.group?
      by_cases hc : c' = c
      · subst hc
        simp [hout]
      · simp [hframe _ _ hc, hc]
    · intro _ _
      rfl
  have hunchanged : ∀ landed : ℤ → Bool, (∀ c', landed c' = true → w.outside c' = false) →
      Cleaned landed w w := by
    intro landed hlanded
    constructor
    · rfl
    · rfl
    · intro c'
      cases hl : landed c' with
      | false => simp
      | true => simp [hlanded c' hl]
    · intro _ _
      rfl
  unfold send
  by_cases hmem : c ∈ w.channels
  · rw [if_pos hmem]
    cases answer with
    | done => exact hchanged.congr fun c' => by simp [Answer.lands]
    | raised error landed =>
      cases landed with
      | true => exact hchanged.congr fun c' => by simp [Answer.lands]
      | false => exact hunchanged _ fun c' h => by simp [Answer.lands] at h
  · rw [if_neg hmem]
    apply hunchanged
    intro c' h
    have hc : c' = c := by
      rw [Bool.and_eq_true, decide_eq_true_eq] at h
      exact h.1
    subst hc
    have hgone := (Dict.get?_eq_none _ _).mpr hmem
    unfold World.outside World.group?
    rw [hgone]
    rfl

theorem removeChannel_cleaned (answer : Answer) (c : ℤ) (w : World) :
    Cleaned (fun c' => decide (c' = c) && answer.lands) w (removeChannel answer c w).2 := by
  have hsend := send_cleaned answer c (·.erase c) w
    (fun channels => by rw [Dict.get?_erase, if_pos rfl]; rfl)
    (fun channels c' hc => by rw [Dict.get?_erase, if_neg (Ne.symm hc)])
  unfold removeChannel
  cases hanswer : send answer c (·.erase c) w with
  | mk outcome w' =>
    rw [hanswer] at hsend
    cases outcome <;> exact hsend

theorem get?_uncategorize (c c' : ℤ) (channels : Dict ℤ StoredChannel) :
    (uncategorize c channels).get? c' = (channels.get? c').map fun channel =>
      if c' = c then { channel with channelGroupId := none } else channel :=
  Dict.get?_mapValues _ _ _

theorem moveChannelToUncategorized_cleaned (answer : Answer) (c : ℤ) (w : World) :
    Cleaned (fun c' => decide (c' = c) && answer.lands) w
      (moveChannelToUncategorized answer c w).2 := by
  have hsend := send_cleaned answer c (uncategorize c) w
    (fun channels => by
      rw [get?_uncategorize]
      cases channels.get? c <;> simp)
    (fun channels c' hc => by
      rw [get?_uncategorize]
      cases channels.get? c' <;> simp [hc])
  have hout : ∀ channels : Dict ℤ StoredChannel,
      ((uncategorize c channels).get? c).bind StoredChannel.channelGroupId = none := by
    intro channels
    rw [get?_uncategorize]
    cases channels.get? c <;> simp
  unfold moveChannelToUncategorized
  cases hanswer : send answer c (uncategorize c) w with
  | mk outcome w' =>
    rw [hanswer] at hsend
    cases outcome with
    | error error => exact hsend
    | ok _ =>
      constructor
      · exact hsend.managed
      · exact hsend.saved
      · exact hsend.outside
      · intro c' hc
        have hne : c' ≠ c := by
          rintro rfl
          have hmoved : w'.outside c' = false := by
            unfold send at hanswer
            by_cases hmem : c' ∈ w.channels
            · rw [if_pos hmem] at hanswer
              cases answer with
              | done =>
                cases hanswer
                unfold World.outside World.group?
                rw [hout]
                rfl
              | raised error landed => cases landed <;> cases hanswer
            · rw [if_neg hmem] at hanswer
              cases hanswer
          exact Bool.false_ne_true (hmoved.symm.trans hc)
        have hknown : (noteUncategorized c w'.known).get? c' = w'.known.get? c' := by
          unfold noteUncategorized
          rw [Dict.get?_mapValues]
          cases w'.known.get? c' <;> simp [hne]
        exact hknown.trans (hsend.known c' hc)

end Cleanup

section Rule

variable {answers : Answers} {order : Dict ℤ (List ℤ)} {w w' : World} {c : ℤ} {ruleId : ℤ}
  {rule : ReconciledRule}

/-- The cleanup call a rule makes for a channel takes effect. -/
def cleanupLands (answers : Answers) (ruleId : ℤ) (rule : ReconciledRule) (c : ℤ) : Bool :=
  if rule.orphanAction = .moveUncategorized then (answers.move ruleId c).lands
  else (answers.delete ruleId c).lands

theorem cleanUpOrphan_cleaned (answers : Answers) (ruleId : ℤ) (rule : ReconciledRule) (w : World)
    (c : ℤ) : Cleaned (fun c' => decide (c' = c) && cleanupLands answers ruleId rule c) w
      (cleanUpOrphan answers ruleId rule w c) := by
  unfold cleanUpOrphan cleanupLands
  by_cases hmove : rule.orphanAction = .moveUncategorized
  · simp only [hmove, if_true]
    exact (moveChannelToUncategorized_cleaned _ c w).with_results _
  · simp only [hmove, if_false]
    exact (removeChannel_cleaned _ c w).with_results _

theorem cleanUpOrphans_cleaned (answers : Answers) (ruleId : ℤ) (rule : ReconciledRule)
    (orphans : List ℤ) (w : World) :
    Cleaned (fun c => decide (c ∈ orphans) && cleanupLands answers ruleId rule c) w
      (orphans.foldl (cleanUpOrphan answers ruleId rule) w) := by
  induction orphans generalizing w with
  | nil => exact (Cleaned.refl w).congr fun c => by simp
  | cons c orphans ih =>
    rw [List.foldl_cons]
    apply ((cleanUpOrphan_cleaned answers ruleId rule w c).trans (ih _)).congr
    intro c'
    by_cases hc : c' = c
    · subst hc
      by_cases hmem : c' ∈ orphans <;> simp [hmem]
    · simp [hc]

/-- Renumbering leaves every channel in its group. -/
theorem renumberRemaining_cleaned (answers : Answers) (ruleId : ℤ) (rule : ReconciledRule)
    (remaining orphans : List ℤ) (w : World) :
    Cleaned (fun _ => false) w
      (renumberRemaining answers false ruleId rule remaining orphans w) := by
  have hnumbers : ∀ start, Cleaned (fun _ => false) w
      { w with channels := renumbered start remaining w.channels } := by
    intro start
    constructor
    · rfl
    · rfl
    · intro c
      unfold World.outside World.group? renumbered
      rw [Dict.get?_mapValues]
      cases w.channels.get? c with
      | none => rfl
      | some channel => by_cases hc : c ∈ remaining <;> simp [hc]
    · intro _ _
      rfl
  unfold renumberRemaining
  cases rule.startingNumber with
  | none => exact Cleaned.refl w
  | some start =>
    dsimp only
    by_cases hskip : remaining = [] ∨ rule.sortField = none
    · rw [if_pos hskip]
      exact Cleaned.refl w
    · rw [if_neg hskip, if_neg Bool.false_ne_true]
      cases answers.renumber ruleId with
      | done => exact (hnumbers start).with_results _
      | raised error landed =>
        cases landed with
        | true => exact (hnumbers start).with_results _
        | false => exact (Cleaned.refl w).with_results _

/-- The orphans Pass 4 finds under a rule. -/
def orphansOf (order : Dict ℤ (List ℤ)) (w : World) (row : ℤ × ReconciledRule) : List ℤ :=
  match row.2.scope, w.managed.get? row.1 with
  | some scope, some previous =>
    if row.2.orphanAction = .none then []
    else orphanIds w.known scope previous (currentIds order row.1)
  | _, _ => []

/-- Pass 4 writes the rule's ledger anew. -/
def rewrites (order : Dict ℤ (List ℤ)) (managed : Dict ℤ (List ℤ)) (row : ℤ × ReconciledRule) :
    Bool :=
  row.2.scope.isSome &&
    (currentIds order row.1 ≠ [] ||
      row.2.orphanAction ≠ .none && (managed.get? row.1).isSome)

theorem ledger_setManaged (ruleId ruleId' : ℤ) (ids : List ℤ) (w : World) :
    ledger (setManaged ruleId ids w).managed ruleId' =
      if ruleId = ruleId' then ids else ledger w.managed ruleId' := by
  unfold setManaged ledger
  by_cases hids : ids = []
  · simp only [hids, if_true, Dict.get?_erase]
    split <;> rfl
  · simp only [hids, if_false, Dict.get?_set]
    split <;> rfl

theorem setManaged_others (ruleId : ℤ) (ids : List ℤ) (w : World) {id : ℤ} (hid : id ≠ ruleId) :
    (setManaged ruleId ids w).managed.get? id = w.managed.get? id := by
  by_cases hids : ids = []
  · simp only [setManaged, hids, if_true, Dict.get?_erase, Ne.symm hid, if_false]
  · simp only [setManaged, hids, if_false, Dict.get?_set, Ne.symm hid]

/-- What Pass 4 leaves of one rule: its ledger is rewritten or kept, every other rule's is kept, and
the channels outside Uncategorized are those its cleanup did not land on. -/
structure Settled (answers : Answers) (order : Dict ℤ (List ℤ)) (row : ℤ × ReconciledRule)
    (w w' : World) : Prop where
  saved : w'.saved = w.saved
  others : ∀ id, id ≠ row.1 → w'.managed.get? id = w.managed.get? id
  ledger : ∀ c, c ∈ ledger w'.managed row.1 ↔
    c ∈ if rewrites order w.managed row then currentIds order row.1 else ledger w.managed row.1
  outside : ∀ c, w'.outside c = (w.outside c &&
    !(decide (c ∈ orphansOf order w row) && cleanupLands answers row.1 row.2 c))
  known : ∀ c, w'.outside c → w'.known.get? c = w.known.get? c

/-- The ledger is replaced after the cleanup. -/
theorem settled_of_set {row : ℤ × ReconciledRule} (h : Cleaned (fun c =>
      decide (c ∈ orphansOf order w row) && cleanupLands answers row.1 row.2 c) w w')
    (hrewrites : rewrites order w.managed row = true) :
    Settled answers order row w (setManaged row.1 (currentIds order row.1) w') where
  saved := h.saved
  others id hid := by
    have hmanaged := h.managed
    unfold setManaged
    by_cases hids : currentIds order row.1 = []
    · simp only [hids, if_true, Dict.get?_erase, Ne.symm hid, if_false, hmanaged]
    · simp only [hids, if_false, Dict.get?_set, Ne.symm hid, hmanaged]
  ledger c := by rw [ledger_setManaged, if_pos rfl, if_pos hrewrites]
  outside := h.outside
  known := h.known

/-- The ledger is kept. -/
theorem settled_of_kept {row : ℤ × ReconciledRule} (h : Cleaned (fun c =>
      decide (c ∈ orphansOf order w row) && cleanupLands answers row.1 row.2 c) w w')
    (hledger : ∀ c, c ∈ ledger w.managed row.1 ↔
      c ∈ if rewrites order w.managed row then currentIds order row.1
        else ledger w.managed row.1) :
    Settled answers order row w w' where
  saved := h.saved
  others id _ := by rw [h.managed]
  ledger c := by rw [h.managed, hledger]
  outside := h.outside
  known := h.known

theorem reconcileRule_settled (answers : Answers) (order : Dict ℤ (List ℤ)) (w : World)
    (row : ℤ × ReconciledRule) :
    Settled answers order row w (reconcileRule answers false true order w row) := by
  obtain ⟨ruleId, rule⟩ := row
  unfold reconcileRule
  have hquiet : orphansOf order w (ruleId, rule) = [] → Cleaned (fun c =>
      decide (c ∈ orphansOf order w (ruleId, rule)) && cleanupLands answers ruleId rule c) w w := by
    intro hnone
    apply (Cleaned.refl w).congr
    intro c
    simp [hnone]
  dsimp only
  cases hscope : rule.scope with
  | none =>
    apply settled_of_kept (hquiet (by simp [orphansOf, hscope]))
    intro c
    simp [rewrites, hscope]
  | some scope =>
    dsimp only
    by_cases haction : rule.orphanAction = .none
    · have hnone : orphansOf order w (ruleId, rule) = [] := by
        unfold orphansOf
        simp only [hscope, haction, if_true]
        split <;> rfl
      rw [if_pos haction]
      by_cases hcurrent : currentIds order ruleId = []
      · rw [if_neg fun h => h.1 hcurrent]
        apply settled_of_kept (hquiet hnone)
        intro c
        simp [rewrites, hscope, hcurrent, haction]
      · rw [if_pos ⟨hcurrent, Bool.false_ne_true⟩]
        apply settled_of_set (hquiet hnone)
        simp [rewrites, hscope, hcurrent]
    · rw [if_neg haction]
      cases hprevious : w.managed.get? ruleId with
      | none =>
        have hnone : orphansOf order w (ruleId, rule) = [] := by
          simp [orphansOf, hscope, hprevious]
        dsimp only
        by_cases hcurrent : currentIds order ruleId = []
        · rw [if_neg fun h => h.1 hcurrent]
          apply settled_of_kept (hquiet hnone)
          intro c
          simp [rewrites, hscope, hcurrent, hprevious]
        · rw [if_pos ⟨hcurrent, Bool.false_ne_true⟩]
          apply settled_of_set (hquiet hnone)
          simp [rewrites, hscope, hcurrent]
      | some previous =>
        have horphans : orphansOf order w (ruleId, rule) =
            orphanIds w.known scope previous (currentIds order ruleId) := by
          simp [orphansOf, hscope, hprevious, haction]
        have hrewrites : rewrites order w.managed (ruleId, rule) = true := by
          simp [rewrites, hscope, hprevious, haction]
        dsimp only
        rw [← horphans]
        by_cases hnone : orphansOf order w (ruleId, rule) = []
        · rw [if_pos hnone, Bool.true_and]
          by_cases hsame : currentIds order ruleId ⊆ previous ∧ previous ⊆ currentIds order ruleId
          · rw [if_neg (by simp [hsame])]
            apply settled_of_kept (hquiet hnone)
            intro c
            rw [if_pos hrewrites, ledger, hprevious]
            exact ⟨fun h => hsame.2 h, fun h => hsame.1 h⟩
          · rw [if_pos (decide_eq_true hsame)]
            exact settled_of_set (hquiet hnone) hrewrites
        · rw [if_neg hnone, if_neg Bool.false_ne_true, if_pos rfl]
          apply settled_of_set _ hrewrites
          apply ((cleanUpOrphans_cleaned answers ruleId rule _ w).trans
            (renumberRemaining_cleaned answers ruleId rule _ _ _)).congr
          intro c
          simp

/-- The orphans of a rule depend on its ledger and on what the executor knows of them. -/
theorem orphansOf_congr {row : ℤ × ReconciledRule}
    (hmanaged : w'.managed.get? row.1 = w.managed.get? row.1)
    (hknown : w'.known.get? c = w.known.get? c) :
    c ∈ orphansOf order w' row ↔ c ∈ orphansOf order w row := by
  have hmem : c ∈ w'.known ↔ c ∈ w.known := by
    rw [← Dict.isSome_get?, ← Dict.isSome_get?, hknown]
  unfold orphansOf
  rw [hmanaged]
  cases hscope : row.2.scope with
  | none => exact Iff.rfl
  | some scope =>
    cases w.managed.get? row.1 with
    | none => exact Iff.rfl
    | some previous =>
      dsimp only
      by_cases haction : row.2.orphanAction = .none
      · rw [if_pos haction, if_pos haction]
      · rw [if_neg haction, if_neg haction]
        have hin : inScope w'.known scope c = inScope w.known scope c := by
          unfold inScope
          rw [hknown]
        simp only [orphanIds, List.mem_filter, hin, hmem]

end Rule

section Pass

variable {answers : Answers} {order : Dict ℤ (List ℤ)} {w w' : World} {c : ℤ}

/-- The rule's ledger once Pass 4 is done. -/
def ledgerAfter (order : Dict ℤ (List ℤ)) (managed : Dict ℤ (List ℤ))
    (rules : List (ℤ × ReconciledRule)) (id : ℤ) : List ℤ :=
  match findEntry id rules with
  | none => ledger managed id
  | some rule => if rewrites order managed (id, rule) then currentIds order id else ledger managed id

/-- Some rule's cleanup takes the channel out of its group. -/
def cleanedUp (answers : Answers) (order : Dict ℤ (List ℤ)) (w : World)
    (rules : List (ℤ × ReconciledRule)) (c : ℤ) : Bool :=
  rules.any fun row => decide (c ∈ orphansOf order w row) && cleanupLands answers row.1 row.2 c

/-- What Pass 4 leaves: every rule's ledger is rewritten or kept, and the channels outside
Uncategorized are those no rule's cleanup landed on. -/
theorem reconcileRules_spec (answers : Answers) (order : Dict ℤ (List ℤ))
    (rules : List (ℤ × ReconciledRule)) (hnodup : (rules.map Prod.fst).Nodup) (w : World) :
    let after := rules.foldl (reconcileRule answers false true order) w
    after.saved = w.saved ∧
      (∀ id c, c ∈ ledger after.managed id ↔ c ∈ ledgerAfter order w.managed rules id) ∧
      (∀ c, after.outside c = (w.outside c && !cleanedUp answers order w rules c)) ∧
      ∀ c, after.outside c → after.known.get? c = w.known.get? c := by
  induction rules generalizing w with
  | nil => exact ⟨rfl, fun _ _ => Iff.rfl, fun c => by simp [cleanedUp], fun _ _ => rfl⟩
  | cons row rules ih =>
    have hnodup' := (List.nodup_cons.mp hnodup)
    have hstep := reconcileRule_settled answers order w row
    generalize hw : reconcileRule answers false true order w row = w₁ at hstep
    obtain ⟨hsaved, hledger, houtside, hknown⟩ := ih hnodup'.2 w₁
    dsimp only
    rw [List.foldl_cons, hw]
    refine ⟨hsaved.trans hstep.saved, fun id c => ?_, fun c => ?_, fun c hc => ?_⟩
    · rw [hledger]
      unfold ledgerAfter
      by_cases hid : row.1 = id
      · subst hid
        have hfind : findEntry row.1 rules = none := by
          rw [← Option.not_isSome_iff_eq_none, findEntry_isSome]
          exact hnodup'.1
        simp only [hfind, findEntry, if_true]
        exact hstep.ledger c
      · have hkept := hstep.others id (Ne.symm hid)
        have hsame : ledger w₁.managed id = ledger w.managed id := by rw [ledger, ledger, hkept]
        rw [findEntry, if_neg hid, hsame]
        cases findEntry id rules with
        | none => exact Iff.rfl
        | some rule =>
          have hrewrites : rewrites order w₁.managed (id, rule) =
              rewrites order w.managed (id, rule) := by rw [rewrites, rewrites, hkept]
          dsimp only
          rw [hrewrites]
    · rw [houtside, hstep.outside, Bool.and_assoc]
      cases hout : w.outside c with
      | false => rfl
      | true =>
        cases hland : decide (c ∈ orphansOf order w row) && cleanupLands answers row.1 row.2 c with
        | true => simp [cleanedUp, hland]
        | false =>
          have hstill : w₁.outside c = true := by rw [hstep.outside, hout, hland]; rfl
          have hrest : cleanedUp answers order w₁ rules c = cleanedUp answers order w rules c := by
            unfold cleanedUp
            rw [Bool.eq_iff_iff, List.any_eq_true, List.any_eq_true]
            have hiff : ∀ row' ∈ rules,
                (c ∈ orphansOf order w₁ row' ↔ c ∈ orphansOf order w row') := by
              intro row' hmem
              have hne : row'.1 ≠ row.1 := fun h => hnodup'.1 (h ▸ List.mem_map_of_mem hmem)
              exact orphansOf_congr (hstep.others _ hne) (hstep.known c hstill)
            constructor
            · rintro ⟨row', hmem, hlands⟩
              exact ⟨row', hmem, by simpa [hiff row' hmem] using hlands⟩
            · rintro ⟨row', hmem, hlands⟩
              exact ⟨row', hmem, by simpa [hiff row' hmem] using hlands⟩
          rw [hrest]
          unfold cleanedUp
          rw [List.any_cons, hland, Bool.false_or, Bool.not_false, Bool.true_and]
    · have hbefore : w₁.outside c = true := by
        rw [houtside, Bool.and_eq_true] at hc
        exact hc.1
      exact (hknown c hc).trans (hstep.known c hbefore)

/-- Nothing is saved before the commit. -/
theorem reconcileRules_saved (answers : Answers) (persist : Bool) (order : Dict ℤ (List ℤ))
    (rules : List (ℤ × ReconciledRule)) (w : World) :
    (rules.foldl (reconcileRule answers false persist order) w).saved = w.saved := by
  induction rules generalizing w with
  | nil => rfl
  | cons row rules ih =>
    rw [List.foldl_cons, ih]
    have hcleanup : ∀ orphans remaining, (renumberRemaining answers false row.1 row.2 remaining orphans
        (orphans.foldl (cleanUpOrphan answers row.1 row.2) w)).saved = w.saved :=
      fun orphans remaining => ((cleanUpOrphans_cleaned answers row.1 row.2 orphans w).trans
        (renumberRemaining_cleaned answers row.1 row.2 remaining orphans _)).saved
    unfold reconcileRule
    dsimp only
    cases row.2.scope with
    | none => rfl
    | some scope =>
      dsimp only
      by_cases haction : row.2.orphanAction = .none
      · rw [if_pos haction]
        split <;> rfl
      · rw [if_neg haction]
        cases w.managed.get? row.1 with
        | none =>
          dsimp only
          split <;> rfl
        | some previous =>
          dsimp only
          by_cases hnone : orphanIds w.known scope previous (currentIds order row.1) = []
          · rw [if_pos hnone]
            split <;> rfl
          · rw [if_neg hnone, if_neg Bool.false_ne_true]
            split
            · exact hcleanup _ _
            · exact hcleanup _ _

/-- The state Pass 4 starts from: the ledgers in memory are those of the database. -/
def World.start (channels : Dict ℤ StoredChannel) (known : Dict ℤ KnownChannel)
    (saved : Dict ℤ (List ℤ)) : World :=
  ⟨channels, known, saved, saved, ⟨0, 0, [], [], []⟩⟩

/-- A managed channel is kept in some ledger as long as it is on Dispatcharr outside Uncategorized
exactly when every channel the ledgers drop was gone or Uncategorized before, or some rule's cleanup
call for it takes effect. -/
theorem managed_channels_kept_iff (answers : Answers) (allowInternalSideEffects commits : Bool)
    (rules : Dict ℤ ReconciledRule) (order : Dict ℤ (List ℤ)) (channels : Dict ℤ StoredChannel)
    (known : Dict ℤ KnownChannel) (saved : Dict ℤ (List ℤ)) :
    let before := World.start channels known saved
    let after := reconcileOrphans answers false allowInternalSideEffects commits rules order before
    (∀ ruleId ∈ rules, ∀ c ∈ ledger saved ruleId, after.outside c →
        ∃ id, c ∈ ledger after.saved id) ↔
      (allowInternalSideEffects = true → commits = true → ∀ ruleId ∈ rules,
        ∀ c ∈ ledger saved ruleId, (∀ id, c ∉ ledgerAfter order saved rules.items id) →
          before.outside c → cleanedUp answers order before rules.items c = true) := by
  dsimp only
  have hunsaved : ∀ persist, ((rules.items.foldl (reconcileRule answers false persist order)
      (World.start channels known saved)).saved) = saved :=
    fun persist => reconcileRules_saved answers persist order rules.items _
  obtain ⟨-, hledger, houtside, -⟩ := reconcileRules_spec answers order rules.items
    rules.nodup_keys (World.start channels known saved)
  unfold reconcileOrphans
  by_cases hpersist : allowInternalSideEffects = true ∧ commits = true
  · obtain ⟨rfl, rfl⟩ := hpersist
    simp only [Bool.not_false, Bool.and_self, if_true, true_implies]
    constructor
    · intro hkept ruleId hrule c hc hdropped hout
      by_contra hclean
      have hstill : (rules.items.foldl (reconcileRule answers false true order)
          (World.start channels known saved)).outside c = true := by
        rw [houtside, hout, Bool.not_eq_true _ |>.mp hclean]
        rfl
      obtain ⟨id, hid⟩ := hkept ruleId hrule c hc hstill
      exact hdropped id ((hledger id c).mp hid)
    · intro hclean ruleId hrule c hc hout
      by_contra hlost
      have hdropped : ∀ id, c ∉ ledgerAfter order saved rules.items id :=
        fun id hid => hlost ⟨id, (hledger id c).mpr hid⟩
      have hparts : (World.start channels known saved).outside c = true ∧
          cleanedUp answers order (World.start channels known saved) rules.items c = false := by
        have hafter := (houtside c).symm.trans hout
        simpa using hafter
      have hcleaned := hclean ruleId hrule c hc hdropped hparts.1
      exact Bool.false_ne_true (hparts.2.symm.trans hcleaned)
  · have hoff : (!false && allowInternalSideEffects && commits) = false := by
      cases allowInternalSideEffects <;> cases commits <;> simp at hpersist ⊢
    simp only [hoff, Bool.false_eq_true, if_false, hunsaved]
    constructor
    · intro _ hallow hcommits
      exact absurd ⟨hallow, hcommits⟩ hpersist
    · intro _ ruleId _ c hc _
      exact ⟨ruleId, hc⟩

/-- A delete that fails leaves the channel on Dispatcharr and in no ledger. -/
theorem failed_delete_is_forgotten :
    let answers : Answers := ⟨fun _ _ => .raised "500 Internal Server Error" false,
      fun _ _ => .done, fun _ => .done⟩
    let rule : ReconciledRule := ⟨"News", none, .delete, none, none⟩
    let saved : Dict ℤ (List ℤ) := Dict.ofList [(1, [5])]
    let after := reconcileOrphans answers false true true (Dict.ofList [(1, rule)]) ∅
      (World.start (Dict.ofList [(5, ⟨"BBC", some 3, some 1⟩)]) (Dict.ofList [(5, ⟨"BBC", some 3⟩)])
        saved)
    ¬∀ ruleId ∈ (Dict.ofList [(1, rule)] : Dict ℤ ReconciledRule), ∀ c ∈ ledger saved ruleId,
      after.outside c → ∃ id, c ∈ ledger after.saved id := by
  intro answers rule saved after hkept
  have hsaved : after.saved = ∅ := Dict.ext (by decide +kernel)
  obtain ⟨id, hid⟩ := hkept 1 (by decide +kernel) 5 (by decide +kernel) (by decide +kernel)
  rw [hsaved] at hid
  cases hid

end Pass

end ChannelManager.Pipeline
