import ChannelManager.Pipeline.Foretold
import ChannelManager.Pipeline.Passes

/-!
# Channels the orphan reconciliation spares

A channel that no rule counts among its orphans comes out of Pass 4 as it was. A rule counts a
channel of its ledger among its orphans unless the run noted the channel for that very rule, whatever
other rules did with it.
-/

namespace ChannelManager.Pipeline

/-- Whether a channel is on Dispatcharr, and in which group. -/
def World.place (w : World) (c : ℤ) : Option (Option ℤ) :=
  (w.channels.get? c).map StoredChannel.channelGroupId

section Spared

variable {answers : Answers} {order : Dict ℤ (List ℤ)} {w w' w'' : World} {c : ℤ}

/-- A stretch of Pass 4 leaves a channel where it was and known as it was. -/
structure Spared (c : ℤ) (w w' : World) : Prop where
  place : w'.place c = w.place c
  known : w'.known.get? c = w.known.get? c

theorem Spared.refl (c : ℤ) (w : World) : Spared c w w := ⟨rfl, rfl⟩

theorem Spared.trans (h : Spared c w w') (h' : Spared c w' w'') : Spared c w w'' :=
  ⟨h'.place.trans h.place, h'.known.trans h.known⟩

/-- A write about another channel. -/
theorem send_spared (answer : Answer) (id : ℤ)
    (change : Dict ℤ StoredChannel → Dict ℤ StoredChannel) (w : World)
    (hframe : ∀ channels, (change channels).get? c = channels.get? c) :
    Spared c w (send answer id change w).2 := by
  have hchanged : Spared c w { w with channels := change w.channels } :=
    ⟨by simp only [World.place, hframe], rfl⟩
  unfold send
  split
  · cases answer with
    | done => exact hchanged
    | raised error landed =>
      cases landed with
      | true => exact hchanged
      | false => exact Spared.refl c w
  · exact Spared.refl c w

theorem removeChannel_spared (answer : Answer) {id : ℤ} (hid : c ≠ id) (w : World) :
    Spared c w (removeChannel answer id w).2 := by
  have hsend := send_spared answer id (·.erase id) w
    (fun channels => by rw [Dict.get?_erase, if_neg (Ne.symm hid)])
  rw [removeChannel]
  cases hanswer : send answer id (·.erase id) w with
  | mk outcome w' =>
    rw [hanswer] at hsend
    cases outcome <;> exact hsend

theorem moveChannelToUncategorized_spared (answer : Answer) {id : ℤ} (hid : c ≠ id) (w : World) :
    Spared c w (moveChannelToUncategorized answer id w).2 := by
  have hsend := send_spared answer id (uncategorize id) w
    (fun channels => by
      rw [get?_uncategorize]
      cases channels.get? c <;> simp [hid])
  rw [moveChannelToUncategorized]
  cases hanswer : send answer id (uncategorize id) w with
  | mk outcome w' =>
    rw [hanswer] at hsend
    cases outcome with
    | error error => exact hsend
    | ok _ =>
      refine ⟨hsend.place, ?_⟩
      have hnote : (noteUncategorized id w'.known).get? c = w'.known.get? c := by
        rw [noteUncategorized, Dict.get?_mapValues]
        cases w'.known.get? c <;> simp [hid]
      exact hnote.trans hsend.known

theorem cleanUpOrphan_spared (ruleId : ℤ) (rule : ReconciledRule) {id : ℤ} (hid : c ≠ id)
    (w : World) : Spared c w (cleanUpOrphan answers ruleId rule w id) := by
  by_cases hmove : rule.orphanAction = .moveUncategorized
  · have hmoved := moveChannelToUncategorized_spared (answers.move ruleId id) hid w
    simp only [cleanUpOrphan, hmove, if_true]
    exact ⟨hmoved.place, hmoved.known⟩
  · have hremoved := removeChannel_spared (answers.delete ruleId id) hid w
    simp only [cleanUpOrphan, hmove, if_false]
    exact ⟨hremoved.place, hremoved.known⟩

theorem cleanUpOrphans_spared (ruleId : ℤ) (rule : ReconciledRule) (orphans : List ℤ)
    (hc : c ∉ orphans) (w : World) :
    Spared c w (orphans.foldl (cleanUpOrphan answers ruleId rule) w) := by
  induction orphans generalizing w with
  | nil => exact Spared.refl c w
  | cons id orphans ih =>
    rw [List.mem_cons, not_or] at hc
    exact (cleanUpOrphan_spared ruleId rule hc.1 w).trans (ih hc.2 _)

/-- Renumbering moves no channel. -/
theorem renumberRemaining_spared (ruleId : ℤ) (rule : ReconciledRule) (remaining orphans : List ℤ)
    (w : World) :
    Spared c w (renumberRemaining answers false ruleId rule remaining orphans w) := by
  have hnumbers : ∀ start, Spared c w
      { w with channels := renumbered start remaining w.channels } := by
    intro start
    refine ⟨?_, rfl⟩
    simp only [World.place, renumbered, Dict.get?_mapValues, Option.map_map]
    cases w.channels.get? c with
    | none => rfl
    | some channel => by_cases hmem : c ∈ remaining <;> simp [hmem]
  rw [renumberRemaining]
  cases rule.startingNumber with
  | none => exact Spared.refl c w
  | some start =>
    dsimp only
    split
    · exact Spared.refl c w
    · rw [if_neg Bool.false_ne_true]
      cases answers.renumber ruleId with
      | done => exact ⟨(hnumbers start).place, rfl⟩
      | raised error landed =>
        cases landed with
        | true => exact ⟨(hnumbers start).place, rfl⟩
        | false => exact ⟨rfl, rfl⟩

/-- What Pass 4 does for one rule, seen from a channel it does not count among the orphans and from
the other rules' ledgers. -/
theorem reconcileRule_spared (persist : Bool) (order : Dict ℤ (List ℤ)) (w : World)
    (row : ℤ × ReconciledRule) (hc : c ∉ orphansOf order w row) :
    Spared c w (reconcileRule answers false persist order w row) ∧
      ∀ id, id ≠ row.1 →
        (reconcileRule answers false persist order w row).managed.get? id = w.managed.get? id := by
  obtain ⟨ruleId, rule⟩ := row
  have hset : ∀ {w' : World} (ids : List ℤ), Spared c w w' → w'.managed = w.managed →
      Spared c w (setManaged ruleId ids w') ∧
        ∀ id, id ≠ ruleId → (setManaged ruleId ids w').managed.get? id = w.managed.get? id := by
    intro w' ids hspared hmanaged
    refine ⟨⟨hspared.place, hspared.known⟩, fun id hid => ?_⟩
    rw [setManaged_others ruleId ids w' hid, hmanaged]
  have hkept : Spared c w w ∧ ∀ id, id ≠ ruleId → w.managed.get? id = w.managed.get? id :=
    ⟨Spared.refl c w, fun _ _ => rfl⟩
  rw [reconcileRule]
  dsimp only
  cases hscope : rule.scope with
  | none => exact hkept
  | some scope =>
    dsimp only
    by_cases haction : rule.orphanAction = .none
    · rw [if_pos haction]
      split
      · exact hset _ (Spared.refl c w) rfl
      · exact hkept
    · rw [if_neg haction]
      cases hprevious : w.managed.get? ruleId with
      | none =>
        dsimp only
        split
        · exact hset _ (Spared.refl c w) rfl
        · exact hkept
      | some previous =>
        have hc' : c ∉ orphanIds w.known scope previous (currentIds order ruleId) := by
          simpa [orphansOf, hscope, hprevious, haction] using hc
        dsimp only
        split
        · split
          · exact hset _ (Spared.refl c w) rfl
          · exact hkept
        · rw [if_neg Bool.false_ne_true]
          let orphans := orphanIds w.known scope previous (currentIds order ruleId)
          let remaining := (firsts ((order.get? ruleId).getD [])).filter (· ∉ orphans)
          let cleaned := orphans.foldl (cleanUpOrphan answers ruleId rule) w
          have hcleanup : Spared c w
              (renumberRemaining answers false ruleId rule remaining orphans cleaned) :=
            (cleanUpOrphans_spared ruleId rule orphans hc' w).trans
              (renumberRemaining_spared ruleId rule remaining orphans cleaned)
          have hmanaged :
              (renumberRemaining answers false ruleId rule remaining orphans cleaned).managed =
                w.managed :=
            ((cleanUpOrphans_cleaned answers ruleId rule orphans w).trans
              (renumberRemaining_cleaned answers ruleId rule remaining orphans cleaned)).managed
          split
          · exact hset _ hcleanup hmanaged
          · exact ⟨hcleanup, fun id _ => by rw [hmanaged]⟩

theorem reconcileRules_spared (persist : Bool) (order : Dict ℤ (List ℤ))
    (rules : List (ℤ × ReconciledRule)) (hnodup : (rules.map Prod.fst).Nodup) (w : World)
    (hc : ∀ row ∈ rules, c ∉ orphansOf order w row) :
    Spared c w (rules.foldl (reconcileRule answers false persist order) w) := by
  induction rules generalizing w with
  | nil => exact Spared.refl c w
  | cons row rules ih =>
    have hnodup' := List.nodup_cons.mp hnodup
    have hstep : Spared c w (reconcileRule answers false persist order w row) ∧ _ :=
      reconcileRule_spared persist order w row (hc row List.mem_cons_self)
    obtain ⟨hspared, hothers⟩ := hstep
    rw [List.foldl_cons]
    apply hspared.trans
    apply ih hnodup'.2
    intro row' hmem
    have hne : row'.1 ≠ row.1 := fun heq => hnodup'.1 (heq ▸ List.mem_map_of_mem hmem)
    rw [orphansOf_congr (hothers _ hne) hspared.known]
    exact hc row' (List.mem_cons_of_mem _ hmem)

/-- A channel no rule counts among its orphans is neither deleted nor moved. -/
theorem reconcileOrphans_spared (allowInternalSideEffects commits : Bool)
    (rules : Dict ℤ ReconciledRule) (order : Dict ℤ (List ℤ)) (w : World)
    (hc : ∀ row ∈ rules.items, c ∉ orphansOf order w row) :
    (reconcileOrphans answers false allowInternalSideEffects commits rules order w).place c =
      w.place c := by
  have hspared : Spared c w (rules.items.foldl
      (reconcileRule answers false (!false && allowInternalSideEffects) order) w) :=
    reconcileRules_spared _ order rules.items rules.nodup_keys w hc
  by_cases hcommits : (!false && allowInternalSideEffects && commits) = true
  · simp only [reconcileOrphans, hcommits, if_true]
    exact hspared.place
  · simp only [reconcileOrphans, hcommits]
    exact hspared.place

end Spared

/-! ## What a run notes -/

section Noted

variable {input : RunInput} {c : ℤ}

theorem trackChannel_keeps (rule : PipelineRule) (turn : StreamTurn) (order : Dict ℤ (List ℤ))
    {id : ℤ} (hc : c ∈ ledger order id) : c ∈ ledger (trackChannel input rule turn order) id := by
  unfold trackChannel
  split
  · exact hc
  · split
    · rw [ledger_set]
      split
      next heq =>
        subst heq
        exact List.mem_append_left _ hc
      next => exact hc
    · exact hc

/-- The channel a stream ends on is noted for a rule whose ledger lists it. -/
theorem trackChannel_notes (rule : PipelineRule) (turn : StreamTurn) (order : Dict ℤ (List ℤ))
    (hcurrent : turn.currentChannelId.filter (· ≠ 0) = some c)
    (hledger : c ∈ ledger input.managed rule.id) :
    c ∈ ledger (trackChannel input rule turn order) rule.id := by
  simp only [trackChannel, hcurrent, if_pos (Or.inr hledger), ledger_set, if_true]
  exact List.mem_append_right _ List.mem_cons_self

/-- Whatever was executed is noted where the rule's ledger lists the channel it ended on. -/
def Noted (input : RunInput) (executed : List Executed) (order : Dict ℤ (List ℤ)) : Prop :=
  ∀ e ∈ executed, ∀ c, e.turn.currentChannelId.filter (· ≠ 0) = some c →
    c ∈ ledger input.managed e.rule.id → c ∈ ledger order e.rule.id

theorem executeEntries_noted {σ : Type} (services : Services σ)
    (entries : List (Stream × PipelineRule)) (pass : PassTwo σ)
    (h : Noted input pass.executed pass.order) :
    Noted input (executeEntries services input entries pass).executed
      (executeEntries services input entries pass).order := by
  induction entries generalizing pass with
  | nil => exact h
  | cons entry entries ih =>
    obtain ⟨stream, rule⟩ := entry
    rw [executeEntries]
    split
    · exact h
    · split
      · exact ih pass h
      · apply ih
        intro e he c hcurrent hledger
        rcases List.mem_append.mp he with he | he
        · exact trackChannel_keeps rule _ pass.order (h e he c hcurrent hledger)
        · rw [List.mem_singleton] at he
          subst he
          exact trackChannel_notes rule _ pass.order hcurrent hledger

theorem registerRow_keeps (order : Dict ℤ (List ℤ)) (row : ℤ × List ℤ) {id : ℤ}
    (hc : c ∈ ledger order id) : c ∈ ledger (registerRow order row) id := by
  rw [registerRow, ledger_set]
  split
  next heq =>
    subst heq
    exact List.mem_append_left _ hc
  next => exact hc

theorem registerRow_notes (order : Dict ℤ (List ℤ)) (row : ℤ × List ℤ) (hc : c ∈ row.2) :
    c ∈ ledger (registerRow order row) row.1 := by
  rw [registerRow, ledger_set, if_pos rfl, List.mem_append]
  by_cases hlisted : c ∈ (order.get? row.1).getD []
  · exact Or.inl hlisted
  · right
    rw [List.mem_filter]
    exact ⟨by simpa using hc, by simpa using hlisted⟩

theorem foldl_registerRow_keeps (rows : List (ℤ × List ℤ)) (order : Dict ℤ (List ℤ)) {id : ℤ}
    (hc : c ∈ ledger order id) : c ∈ ledger (rows.foldl registerRow order) id := by
  induction rows generalizing order with
  | nil => exact hc
  | cons row rows ih => exact ih _ (registerRow_keeps order row hc)

/-- The channels promoted are noted for their rule. -/
theorem registerPromoted_notes (promoted order : Dict ℤ (List ℤ)) {id : ℤ}
    (hc : c ∈ ledger promoted id) : c ∈ ledger (registerPromoted promoted order) id := by
  cases hget : promoted.get? id with
  | none => simp [ledger, hget] at hc
  | some ids =>
    have hids : c ∈ ids := by simpa [ledger, hget] using hc
    have hrow : (id, ids) ∈ promoted.items := (Dict.get?_eq_some _ _ _).mp hget
    obtain ⟨earlier, later, hitems⟩ := List.append_of_mem hrow
    rw [registerPromoted, hitems, List.foldl_append, List.foldl_cons]
    exact foldl_registerRow_keeps later _ (registerRow_notes _ (id, ids) hids)

end Noted

/-! ## The channels a run used -/

section Used

variable {σ : Type} (services : Services σ) (input : RunInput) (answers : Answers)

/-- The rule's orphan action, scope and ledger allow it to clean the channel up. -/
def mayCleanUp (w : World) (row : ℤ × ReconciledRule) (c : ℤ) : Bool :=
  decide (row.2.orphanAction ≠ .none) && row.2.scope.any (fun scope => inScope w.known scope c) &&
    decide (c ∈ ledger w.managed row.1)

theorem mayCleanUp_of_orphan {order : Dict ℤ (List ℤ)} {w : World} {row : ℤ × ReconciledRule}
    {c : ℤ} (h : c ∈ orphansOf order w row) :
    mayCleanUp w row c = true ∧ c ∉ currentIds order row.1 := by
  unfold orphansOf at h
  cases hscope : row.2.scope with
  | none => simp [hscope] at h
  | some scope =>
    cases hmanaged : w.managed.get? row.1 with
    | none => simp [hscope, hmanaged] at h
    | some previous =>
      simp only [hscope, hmanaged] at h
      by_cases haction : row.2.orphanAction = .none
      · simp [haction] at h
      · simp only [haction, if_false, orphanIds, List.mem_filter, List.mem_dedup,
          Bool.and_eq_true, decide_eq_true_eq] at h
        refine ⟨?_, h.2.1.1⟩
        simp [mayCleanUp, haction, hscope, ledger, hmanaged, h.1, h.2.2]

/-- A channel on the ledger of a rule a stream of which ended on it is noted for the rule. -/
theorem mem_currentIds_of_endedOn (allowInternalSideEffects commits : Bool) (s : σ) {id c : ℤ}
    (hended : (runLive services input answers allowInternalSideEffects commits s).endedOn id c)
    (hledger : c ∈ ledger input.managed id) :
    c ∈ currentIds (runLive services input answers allowInternalSideEffects commits s).order id := by
  let pass := executeEntries services input (sortedEntries (matchedEntries input)) ⟨s, ∅, 0, []⟩
  have hnoted : Noted input pass.executed pass.order :=
    executeEntries_noted services _ _ fun e he => absurd he List.not_mem_nil
  rw [currentIds, List.mem_dedup]
  change c ∈ ledger (registerPromoted (services.syncEvents pass.executor).1.promoted pass.order) id
  rcases hended with ⟨e, he, rfl, hcurrent⟩ | hpromoted
  · exact foldl_registerRow_keeps _ _ (hnoted e he c hcurrent hledger)
  · exact registerPromoted_notes _ _ hpromoted

/-- A channel that every rule which may clean it up has a stream ending on is left as it was. -/
theorem runLive_spares (allowInternalSideEffects commits : Bool) (s : σ) {c : ℤ} :
    let run := runLive services input answers allowInternalSideEffects commits s
    (∀ row ∈ (reconciledRules input run.sync.promoted).items,
      mayCleanUp run.before row c = true → run.endedOn row.1 c) →
    run.after.place c = run.before.place c := by
  intro run hended
  apply reconcileOrphans_spared
  intro row hrow horphan
  obtain ⟨hmay, hnot⟩ := mayCleanUp_of_orphan horphan
  have hledger : c ∈ ledger input.managed row.1 := by
    rw [mayCleanUp, Bool.and_eq_true] at hmay
    exact of_decide_eq_true hmay.2
  exact hnot (mem_currentIds_of_endedOn services input answers allowInternalSideEffects commits s
    (hended row hrow hmay) hledger)

end Used

section Sample

/-- The rule merges every stream into the channel of its name. -/
def mergingRule (id : ℤ) (conditions : Stream → Bool) : PipelineRule where
  id := id
  m3uAccountId := none
  conditions := conditions
  stopOnFirstMatch := true
  sortBy := none
  skipStruckStreams := false
  actions := [createByName .merge]
  options := plainOptions
  reconciled := ⟨"News", none, .delete, none, none⟩

/-- A run over one account, in which nothing is filtered and every fetch succeeds. -/
def plainInput (rules : List PipelineRule) (streams : List Stream) (channelCap : ℕ)
    (managed : Dict ℤ (List ℤ)) : RunInput where
  rules := rules
  eventSyncRules := ∅
  catalog := Dict.ofList [(1, streams)]
  m3uAccountIds := []
  pagesRead := fun _ => none
  excluded := fun _ => false
  inTimezone := fun _ => true
  struck := []
  channelCap := channelCap
  managed := managed

def plainServices : Services State := executorServices plainConfig noFailure fun n => 100 + n

def plainAnswers : Answers := ⟨fun _ _ => .done, fun _ _ => .done, fun _ => .done⟩

end Sample

end ChannelManager.Pipeline
