import ChannelManager.EditMode.Concurrency

/-!
# What decisions settle

Once every conflict has its decision and the staged operations are rewritten, the check asks about none of
them again. It asks about another channel only if the consent for it went with a range that was removed.
-/

namespace ChannelManager.EditMode

/-- The operation places the number of the channel. -/
def placesNumber (c : ℤ) (operation : StagedOperation) : Bool :=
  match operation.apiCall with
  | .updateChannel call => call.channelId = c && call.data.channelNumber.isSome
  | .bulkAssignChannelNumbers call => decide (c ∈ call.channelIds)
  | _ => false

def deletesChannel (c : ℤ) (operation : StagedOperation) : Bool :=
  match operation.apiCall with
  | .deleteChannel channelId => channelId = c
  | _ => false

/-- One operation on those that place a channel. -/
def placeStep (c : ℤ) (placing : List StagedOperation) (operation : StagedOperation) : List StagedOperation :=
  if deletesChannel c operation then []
  else if placesNumber c operation then placing ++ [operation] else placing

/-- The operations that place the number of a channel, since it was last deleted. -/
def placingOperations (c : ℤ) (operations : List StagedOperation) : List StagedOperation :=
  operations.foldl (placeStep c) []

/-! ## The planned writes of one channel -/

/-- The planned write has the operations that place the channel, whatever their multiplicity. -/
def Tracks (c : ℤ) (write : Option PlannedNumberWrite) (placing : List StagedOperation) : Prop :=
  (write = none ∧ placing = []) ∨
    ∃ w, write = some w ∧ w.channelId = c ∧ placing ≠ [] ∧ ∀ op, op ∈ w.operations ↔ op ∈ placing

section Track

variable {c : ℤ} {writes : Dict ℤ PlannedNumberWrite} {placing : List StagedOperation}

theorem tracks_recordWrite (h : Tracks c (writes.get? c) placing) (channelId : ℤ) (number : Option ℚ)
    (operation : StagedOperation) (fromRange : Bool) :
    Tracks c ((recordWrite writes channelId number operation fromRange).get? c)
      (if channelId = c then placing ++ [operation] else placing) := by
  rw [recordWrite]
  by_cases heq : channelId = c
  · subst heq
    rw [if_pos rfl]
    obtain ⟨hnone, rfl⟩ | ⟨w, hsome, hid, _, hmem⟩ := h
    · rw [hnone]
      exact .inr ⟨_, Dict.get?_set_self _ _ _, rfl, List.cons_ne_nil _ _, fun op => by simp⟩
    · rw [hsome]
      refine .inr ⟨_, Dict.get?_set_self _ _ _, hid, by simp, fun op => ?_⟩
      rw [List.mem_append, List.mem_append, hmem]
  · rw [if_neg heq]
    cases writes.get? channelId <;> exact (Dict.get?_set_ne _ _ heq).symm ▸ h

/-- A range that lists a channel more than once places it as if it did once. -/
theorem tracks_range (h : Tracks c (writes.get? c) placing) (operation : StagedOperation) (start : ℚ)
    (es : List (ℤ × ℕ)) :
    Tracks c ((es.foldl (fun writes e =>
        recordWrite writes e.1 (some (start + e.2)) operation true) writes).get? c)
      (if c ∈ es.map Prod.fst then placing ++ [operation] else placing) := by
  induction es using List.reverseRecOn with
  | nil => simpa using h
  | append_singleton es e ih =>
    rw [List.foldl_concat, List.map_append]
    have hstep := tracks_recordWrite ih e.1 (some (start + e.2)) operation true
    by_cases hin : c ∈ es.map Prod.fst
    · rw [if_pos hin] at hstep
      rw [if_pos (List.mem_append_left _ hin)]
      split at hstep
      · obtain ⟨_, hnil⟩ | ⟨w, hw, hid, _, hmem⟩ := hstep
        · simp at hnil
        · exact .inr ⟨w, hw, hid, by simp, fun op => by rw [hmem]; simp⟩
      · exact hstep
    · rw [if_neg hin] at hstep
      by_cases heq : e.1 = c
      · rw [if_pos heq] at hstep
        rwa [if_pos (by simp [heq])]
      · rw [if_neg heq] at hstep
        rwa [if_neg (by simpa [Ne.symm heq] using hin)]

theorem tracks_planWrite (h : Tracks c (writes.get? c) placing) (operation : StagedOperation) :
    Tracks c ((planWrite writes operation).get? c) (placeStep c placing operation) := by
  cases hcall : operation.apiCall with
  | updateChannel call =>
    cases hnumber : call.data.channelNumber with
    | none => simpa [planWrite, placeStep, deletesChannel, placesNumber, hcall, hnumber] using h
    | some number =>
      simpa [planWrite, placeStep, deletesChannel, placesNumber, hcall, hnumber] using
        tracks_recordWrite h call.channelId number operation false
  | bulkAssignChannelNumbers call =>
    have hrange := tracks_range h operation (call.startingNumber.getD 1) call.channelIds.zipIdx
    rw [List.zipIdx_map_fst] at hrange
    simpa [planWrite, placeStep, deletesChannel, placesNumber, hcall] using hrange
  | deleteChannel channelId =>
    by_cases heq : channelId = c
    · simp [planWrite, placeStep, deletesChannel, hcall, Dict.get?_erase, heq, Tracks]
    · simpa [planWrite, placeStep, deletesChannel, placesNumber, hcall, Dict.get?_erase, heq] using h
  | _ => simpa [planWrite, placeStep, deletesChannel, placesNumber, hcall] using h

theorem tracks_plannedNumberWrites (c : ℤ) (operations : List StagedOperation) :
    Tracks c ((plannedNumberWrites operations).get? c) (placingOperations c operations) := by
  induction operations using List.reverseRecOn with
  | nil => exact .inl ⟨rfl, rfl⟩
  | append_singleton operations operation ih =>
    rw [plannedNumberWrites, placingOperations, List.foldl_concat, List.foldl_concat]
    exact tracks_planWrite ih operation

end Track

/-! ## Conflicts -/

/-- The writes of a channel conflict with the change from one number to another, or with its deletion. -/
structure InConflict (lineups : Lineups) (c : ℤ) (placing : List StagedOperation)
    (kind : NumberingConflictKind) (baselineNumber serverNumber : Option ℚ) : Prop where
  nonneg : 0 ≤ c
  placed : placing ≠ []
  baseline : (lineups.baselineById.get? c).map ChannelSnapshot.channelNumber = some baselineNumber
  server : match kind with
    | .channelDeleted => lineups.serverById.get? c = none ∧ serverNumber = none
    | .numberChanged =>
      (lineups.serverById.get? c).map ServerChannelNumber.channelNumber = some serverNumber ∧
        numbersAgree baselineNumber serverNumber = false ∧
          ∀ op ∈ placing, consents c baselineNumber serverNumber op = false

section Detect

variable (lineups : Lineups) {c : ℤ} {placing : List StagedOperation} {kind : NumberingConflictKind}
  {baselineNumber serverNumber : Option ℚ}

theorem channelId_conflictOf {w : PlannedNumberWrite} {conflict : NumberingConflict}
    (h : conflictOf lineups.baselineById lineups.serverById w = some conflict) :
    conflict.channelId = w.channelId := by
  rw [conflictOf] at h
  split at h
  · cases h
  · split at h
    · cases h
    · split at h
      · cases h
        rfl
      · split at h
        · cases h
        · split at h
          · cases h
          · cases h
            rfl

/-- A write is in conflict exactly when its operations are. -/
theorem conflictOf_iff {w : PlannedNumberWrite} (hid : w.channelId = c) (hplaced : placing ≠ [])
    (hmem : ∀ op, op ∈ w.operations ↔ op ∈ placing) :
    (∃ conflict, conflictOf lineups.baselineById lineups.serverById w = some conflict ∧
        conflict.channelId = c ∧ conflict.kind = kind ∧ conflict.baselineNumber = baselineNumber ∧
          conflict.serverNumber = serverNumber) ↔
      InConflict lineups c placing kind baselineNumber serverNumber := by
  have hany : ∀ b s, w.operations.any (consents c b s) = true ↔ ∃ op ∈ placing, consents c b s op = true := by
    intro b s
    rw [List.any_eq_true]
    exact exists_congr fun op => and_congr_left fun _ => hmem op
  rw [conflictOf, hid]
  constructor
  · rintro ⟨conflict, h, _, rfl, rfl, rfl⟩
    split at h
    · cases h
    · rename_i hneg
      split at h
      · cases h
      · rename_i entry hentry
        split at h
        · rename_i hnone
          cases h
          exact ⟨not_lt.mp hneg, hplaced, by rw [hentry]; rfl, hnone, rfl⟩
        · rename_i channel hchannel
          split at h
          · cases h
          · rename_i hagree
            split at h
            · cases h
            · rename_i hconsent
              cases h
              refine ⟨not_lt.mp hneg, hplaced, by rw [hentry]; rfl, by rw [hchannel]; rfl,
                Bool.eq_false_of_not_eq_true hagree, fun op hop => ?_⟩
              refine Bool.eq_false_of_not_eq_true fun hop' => hconsent ?_
              exact (hany _ _).mpr ⟨op, hop, hop'⟩
  · rintro ⟨hnonneg, _, hbaseline, hserver⟩
    obtain ⟨entry, hentry, rfl⟩ := Option.map_eq_some_iff.mp hbaseline
    rw [if_neg (not_lt.mpr hnonneg), hentry]
    dsimp only
    cases kind with
    | channelDeleted =>
      obtain ⟨hnone, rfl⟩ := hserver
      rw [hnone]
      exact ⟨_, rfl, rfl, rfl, rfl, rfl⟩
    | numberChanged =>
      obtain ⟨hsome, hagree, hrefuse⟩ := hserver
      obtain ⟨channel, hchannel, rfl⟩ := Option.map_eq_some_iff.mp hsome
      have hconsent : ¬ w.operations.any (consents c entry.channelNumber channel.channelNumber) = true := by
        rw [hany]
        rintro ⟨op, hop, hop'⟩
        rw [hrefuse op hop] at hop'
        cases hop'
      rw [hchannel]
      dsimp only
      rw [if_neg (by rw [hagree]; exact Bool.false_ne_true), if_neg hconsent]
      exact ⟨_, rfl, rfl, rfl, rfl, rfl⟩

theorem mem_detect_iff (operations : List StagedOperation) :
    (∃ conflict ∈ lineups.detectNumberingConflicts operations, conflict.channelId = c ∧
        conflict.kind = kind ∧ conflict.baselineNumber = baselineNumber ∧
          conflict.serverNumber = serverNumber) ↔
      InConflict lineups c (placingOperations c operations) kind baselineNumber serverNumber := by
  have htracks := tracks_plannedNumberWrites c operations
  constructor
  · rintro ⟨conflict, hmem, hid, hrest⟩
    obtain ⟨w, hw, hconflict⟩ := List.mem_filterMap.mp hmem
    obtain ⟨c', hget⟩ := Dict.mem_values.mp hw
    have hwrite : w.channelId = c := (channelId_conflictOf lineups hconflict).symm.trans hid
    have hkey : c' = c := by
      obtain ⟨hnone, _⟩ | ⟨w', hw', hid', _⟩ := tracks_plannedNumberWrites c' operations
      · rw [hget] at hnone
        cases hnone
      · rw [hget] at hw'
        cases hw'
        exact hid'.symm.trans hwrite
    subst hkey
    obtain ⟨hnone, _⟩ | ⟨w', hw', _, hplaced, hops⟩ := htracks
    · rw [hget] at hnone
      cases hnone
    · rw [hget] at hw'
      cases hw'
      exact (conflictOf_iff lineups hwrite hplaced hops).mp ⟨conflict, hconflict, hid, hrest⟩
  · intro h
    obtain ⟨_, hnil⟩ | ⟨w, hw, hid, hplaced, hops⟩ := htracks
    · exact absurd hnil h.placed
    · obtain ⟨conflict, hconflict, hrest⟩ := (conflictOf_iff lineups hid hplaced hops).mpr h
      exact ⟨conflict, List.mem_filterMap.mpr ⟨w, Dict.mem_values.mpr ⟨c, hw⟩, hconflict⟩, hrest⟩

end Detect

/-! ## Acknowledgements -/

section Merge

variable {existing : List ConcurrentNumberAcknowledgement} {decisions : List ReconcileDecision}

theorem keys_decisions (decisions : List ReconcileDecision) :
    (decisions.map fun d => (d.channelId,
      (⟨d.channelId, d.baselineNumber, d.serverNumber⟩ : ConcurrentNumberAcknowledgement))).map Prod.fst =
      decisions.map ReconcileDecision.channelId := by
  rw [List.map_map]
  rfl

/-- An acknowledgement for a channel without a decision stays. -/
theorem mem_mergeAcknowledgements_of_existing {a : ConcurrentNumberAcknowledgement} (ha : a ∈ existing)
    (hnodup : (existing.map ConcurrentNumberAcknowledgement.channelId).Nodup)
    (hundecided : a.channelId ∉ decisions.map ReconcileDecision.channelId) :
    a ∈ mergeAcknowledgements existing decisions := by
  have hkeys : ((existing.map fun a => (a.channelId, a)).map Prod.fst).Nodup := by
    rwa [List.map_map]
  refine Dict.mem_values.mpr ⟨a.channelId, ?_⟩
  rw [Dict.get?_ofList_append (by rwa [keys_decisions]), Dict.get?_eq_some, Dict.items_ofList _ hkeys]
  exact List.mem_map_of_mem ha

/-- The decision of a channel becomes its acknowledgement. -/
theorem mem_mergeAcknowledgements_of_decision {d : ReconcileDecision} (hd : d ∈ decisions)
    (honly : ∀ d' ∈ decisions, d'.channelId = d.channelId → d' = d) :
    ⟨d.channelId, d.baselineNumber, d.serverNumber⟩ ∈ mergeAcknowledgements existing decisions := by
  refine Dict.mem_values.mpr ⟨d.channelId, ?_⟩
  induction decisions using List.reverseRecOn with
  | nil => cases hd
  | append_singleton decisions e ih =>
    rw [List.map_append, ← List.append_assoc, List.map_singleton, Dict.get?_ofList_concat]
    split
    · rename_i hkey
      rw [honly e (List.mem_append_right _ (List.mem_singleton_self e)) hkey]
    · rename_i hkey
      have hmem : d ∈ decisions := (List.mem_append.mp hd).resolve_right fun h =>
        hkey (List.mem_singleton.mp h ▸ rfl)
      exact ih hmem fun d' hd' => honly d' (List.mem_append_left _ hd')

/-- There is one acknowledgement a channel. -/
theorem nodup_mergeAcknowledgements :
    ((mergeAcknowledgements existing decisions).map ConcurrentNumberAcknowledgement.channelId).Nodup := by
  rw [mergeAcknowledgements]
  generalize hentries : existing.map (fun a => (a.channelId, a)) ++ decisions.map _ = entries
  have hkeyed : ∀ e ∈ entries, e.2.channelId = e.1 := by
    intro e he
    rw [← hentries, List.mem_append] at he
    cases he with
    | inl hin =>
      obtain ⟨a, _, rfl⟩ := List.mem_map.mp hin
      rfl
    | inr hin =>
      obtain ⟨d, _, rfl⟩ := List.mem_map.mp hin
      rfl
  have hkeys : (Dict.ofList entries).values.map ConcurrentNumberAcknowledgement.channelId =
      (Dict.ofList entries).keys := by
    rw [Dict.values, Dict.keys, List.map_map]
    refine List.map_congr_left fun e he => ?_
    exact hkeyed e (Dict.mem_of_get?_ofList ((Dict.get?_eq_some _ e.1 e.2).mpr he))
  rw [hkeys]
  exact (Dict.ofList entries).nodup_keys

end Merge

theorem numbersAgree_self (number : Option ℚ) : numbersAgree number number = true := by
  cases number <;> simp [numbersAgree, sameChannelNumber]

/-- An operation has one acknowledgement a channel. -/
def OneEach (operation : StagedOperation) : Prop :=
  ((concurrentAcknowledgementsOf operation).map ConcurrentNumberAcknowledgement.channelId).Nodup

/-! ## The operations rewritten -/

section Rewrite

variable {computeAutoRename : String → Option ℚ → Option ℚ → Option String}
  {keepMine : Dict ℤ ReconcileDecision} {takeTheirs : List ℤ}

/-- The operation places a channel that is decided. -/
def PlacesDecided (keepMine : Dict ℤ ReconcileDecision) (takeTheirs : List ℤ) (op : StagedOperation) : Prop :=
  ∃ c, placesNumber c op = true ∧ (c ∈ takeTheirs ∨ ∃ d, keepMine.get? c = some d)

/-- What an operation becomes that is not removed. -/
inductive Rewritten (keepMine : Dict ℤ ReconcileDecision) (takeTheirs : List ℤ) (op : StagedOperation) :
    StagedOperation → Prop
  | kept (h : ∀ c, placesNumber c op = true → c ∉ takeTheirs ∧ keepMine.get? c = none) :
      Rewritten keepMine takeTheirs op op
  | range {call : BulkAssignCall} (hcall : op.apiCall = .bulkAssignChannelNumbers call)
      (hdecided : PlacesDecided keepMine takeTheirs op) (h : ∀ c ∈ call.channelIds, c ∉ takeTheirs) :
      Rewritten keepMine takeTheirs op { op with
        apiCall := .bulkAssignChannelNumbers { call with
          acknowledgedConcurrentChanges := mergeAcknowledgements call.acknowledgedConcurrentChanges
            (call.channelIds.filterMap keepMine.get?) } }
  | surrendered {call : UpdateChannelCall} (hcall : op.apiCall = .updateChannel call)
      (hdecided : PlacesDecided keepMine takeTheirs op) (h : call.channelId ∈ takeTheirs)
      {rest : ChannelPatch} (hrest : rest.channelNumber = none) :
      Rewritten keepMine takeTheirs op { op with apiCall := .updateChannel { call with data := rest } }
  | consented {call : UpdateChannelCall} {decision : ReconcileDecision}
      (hcall : op.apiCall = .updateChannel call) (hdecided : PlacesDecided keepMine takeTheirs op)
      (h : call.channelId ∉ takeTheirs) (hdecision : keepMine.get? call.channelId = some decision) :
      Rewritten keepMine takeTheirs op { op with
        apiCall := .updateChannel { call with
          acknowledgedConcurrentChanges :=
            mergeAcknowledgements call.acknowledgedConcurrentChanges [decision] } }

theorem rewritten_of_reconcileOperation {op op' : StagedOperation}
    (h : reconcileOperation computeAutoRename keepMine takeTheirs op = .inr op') :
    Rewritten keepMine takeTheirs op op' := by
  cases hcall : op.apiCall with
  | bulkAssignChannelNumbers call =>
    simp only [reconcileOperation, hcall] at h
    split at h
    · cases h
    · rename_i hnone
      rw [not_not, List.filter_eq_nil_iff] at hnone
      have hfree : ∀ c ∈ call.channelIds, c ∉ takeTheirs := fun c hc => by simpa using hnone c hc
      split at h
      · rename_i hagreed
        obtain ⟨d, hd⟩ := List.exists_mem_of_ne_nil _ hagreed
        obtain ⟨c, hc, hget⟩ := List.mem_filterMap.mp hd
        cases h
        exact .range hcall ⟨c, by simpa [placesNumber, hcall] using hc, .inr ⟨d, hget⟩⟩ hfree
      · rename_i hagreed
        rw [not_not, List.filterMap_eq_nil_iff] at hagreed
        cases h
        refine .kept fun c hc => ?_
        have hmem : c ∈ call.channelIds := by simpa [placesNumber, hcall] using hc
        exact ⟨hfree c hmem, hagreed c hmem⟩
  | updateChannel call =>
    cases hnumber : call.data.channelNumber with
    | none =>
      simp only [reconcileOperation, hcall, hnumber] at h
      cases h
      exact .kept fun c hc => by simp [placesNumber, hcall, hnumber] at hc
    | some number =>
      have hplaces : placesNumber call.channelId op = true := by simp [placesNumber, hcall, hnumber]
      simp only [reconcileOperation, hcall, hnumber] at h
      split at h
      · rename_i htheirs
        have hdecided : PlacesDecided keepMine takeTheirs op := ⟨call.channelId, hplaces, .inl htheirs⟩
        -- with or without the name the number made
        split at h
        · split at h
          · cases h
          · cases h
            exact .surrendered hcall hdecided htheirs rfl
        · split at h
          · cases h
          · cases h
            exact .surrendered hcall hdecided htheirs rfl
      · rename_i hfree
        split at h
        · rename_i hnone
          cases h
          refine .kept fun c hc => ?_
          have hsame : call.channelId = c := by simpa [placesNumber, hcall, hnumber] using hc
          exact hsame ▸ ⟨hfree, hnone⟩
        · rename_i decision hdecision
          cases h
          exact .consented hcall ⟨call.channelId, hplaces, .inr ⟨decision, hdecision⟩⟩ hfree hdecision
  | _ =>
    simp only [reconcileOperation, hcall] at h
    cases h
    exact .kept fun c hc => by simp [placesNumber, hcall] at hc

/-- An operation that is removed places a channel whose number is theirs. -/
theorem removed_of_reconcileOperation {op : StagedOperation} {removed : RemovedOperation}
    (h : reconcileOperation computeAutoRename keepMine takeTheirs op = .inl removed) :
    PlacesDecided keepMine takeTheirs op ∧
      ((∃ call, op.apiCall = .bulkAssignChannelNumbers call ∧ ∃ c ∈ call.channelIds, c ∈ takeTheirs) ∨
        ∃ call, op.apiCall = .updateChannel call ∧ call.channelId ∈ takeTheirs) := by
  cases hcall : op.apiCall with
  | bulkAssignChannelNumbers call =>
    simp only [reconcileOperation, hcall] at h
    split at h
    · rename_i hsome
      obtain ⟨c, hc⟩ := List.exists_mem_of_ne_nil _ hsome
      rw [List.mem_filter, decide_eq_true_iff] at hc
      exact ⟨⟨c, by simpa [placesNumber, hcall] using hc.1, .inl hc.2⟩, .inl ⟨call, rfl, c, hc⟩⟩
    · split at h <;> cases h
  | updateChannel call =>
    cases hnumber : call.data.channelNumber with
    | none =>
      simp only [reconcileOperation, hcall, hnumber] at h
      cases h
    | some number =>
      simp only [reconcileOperation, hcall, hnumber] at h
      split at h
      · rename_i htheirs
        exact ⟨⟨call.channelId, by simp [placesNumber, hcall, hnumber], .inl htheirs⟩,
          .inr ⟨call, rfl, htheirs⟩⟩
      · split at h <;> cases h
  | _ =>
    simp only [reconcileOperation, hcall] at h
    cases h

theorem Rewritten.deletesChannel_eq {op op' : StagedOperation} (h : Rewritten keepMine takeTheirs op op')
    (c : ℤ) : deletesChannel c op' = deletesChannel c op := by
  cases h with
  | kept _ => rfl
  | range hcall _ _ => simp [deletesChannel, hcall]
  | surrendered hcall _ _ _ => simp [deletesChannel, hcall]
  | consented hcall _ _ _ => simp [deletesChannel, hcall]

theorem Rewritten.placesNumber_eq {op op' : StagedOperation} (h : Rewritten keepMine takeTheirs op op')
    {c : ℤ} (hc : c ∉ takeTheirs) : placesNumber c op' = placesNumber c op := by
  cases h with
  | kept _ => rfl
  | range hcall _ _ => simp [placesNumber, hcall]
  | surrendered hcall _ htheirs _ =>
    have hne : ∀ call : UpdateChannelCall, call.channelId ∈ takeTheirs → call.channelId ≠ c :=
      fun call hmem heq => hc (heq ▸ hmem)
    simp [placesNumber, hcall, hne _ htheirs]
  | consented hcall _ _ _ => simp [placesNumber, hcall]

/-- Nothing that is left writes a number that is theirs. -/
theorem Rewritten.not_places {op op' : StagedOperation} (h : Rewritten keepMine takeTheirs op op') {c : ℤ}
    (hc : c ∈ takeTheirs) : placesNumber c op' = false := by
  refine Bool.eq_false_of_not_eq_true fun hplaces => ?_
  cases h with
  | kept h => exact (h c hplaces).1 hc
  | range hcall _ h =>
    have hmem : c ∈ _ := of_decide_eq_true hplaces
    exact h c hmem hc
  | surrendered hcall _ _ hrest => simp [placesNumber, hrest] at hplaces
  | consented hcall _ h _ =>
    have hsame := (Bool.and_eq_true_iff.mp hplaces).1
    exact h (of_decide_eq_true hsame ▸ hc)

/-- One acknowledgement a channel stays one. -/
theorem Rewritten.oneEach {op op' : StagedOperation} (h : Rewritten keepMine takeTheirs op op')
    (hone : OneEach op) : OneEach op' := by
  cases h with
  | kept _ => exact hone
  | range _ _ _ => exact nodup_mergeAcknowledgements
  | surrendered hcall _ _ _ =>
    rw [OneEach, concurrentAcknowledgementsOf, hcall] at hone
    exact hone
  | consented _ _ _ _ => exact nodup_mergeAcknowledgements

section Consent

variable {c : ℤ} {baselineNumber serverNumber : Option ℚ}
  (hkeys : ∀ c d, keepMine.get? c = some d → d.channelId = c)
include hkeys

/-- The consent to change a channel that nobody decides stays with the operation. -/
theorem Rewritten.consents_of_undecided {op op' : StagedOperation} (h : Rewritten keepMine takeTheirs op op')
    (hone : OneEach op) (hundecided : keepMine.get? c = none)
    (hconsent : consents c baselineNumber serverNumber op = true) :
    consents c baselineNumber serverNumber op' = true := by
  obtain ⟨a, ha, hagree⟩ := List.any_eq_true.mp hconsent
  have hid : a.channelId = c := by simpa using (Bool.and_eq_true_iff.mp (Bool.and_eq_true_iff.mp hagree).1).1
  refine List.any_eq_true.mpr ⟨a, ?_, hagree⟩
  cases h with
  | kept _ => exact ha
  | range hcall _ _ =>
    rw [concurrentAcknowledgementsOf, hcall] at ha
    rw [OneEach, concurrentAcknowledgementsOf, hcall] at hone
    refine mem_mergeAcknowledgements_of_existing ha hone fun hmem => ?_
    obtain ⟨d, hd, hdc⟩ := List.mem_map.mp hmem
    obtain ⟨c', _, hget⟩ := List.mem_filterMap.mp hd
    have hc' : c' = c := (hkeys c' d hget).symm.trans (hdc.trans hid)
    rw [hc', hundecided] at hget
    cases hget
  | surrendered hcall _ _ _ => rwa [concurrentAcknowledgementsOf, hcall] at ha
  | consented hcall _ _ hdecision =>
    rw [concurrentAcknowledgementsOf, hcall] at ha
    rw [OneEach, concurrentAcknowledgementsOf, hcall] at hone
    refine mem_mergeAcknowledgements_of_existing ha hone fun hmem => ?_
    rw [List.map_singleton, List.mem_singleton, hkeys _ _ hdecision, hid] at hmem
    rw [← hmem, hundecided] at hdecision
    cases hdecision

/-- Every operation that places a channel kept mine consents to the change decided on. -/
theorem Rewritten.consents_of_decided {op op' : StagedOperation} (h : Rewritten keepMine takeTheirs op op')
    {d : ReconcileDecision} (hdecided : keepMine.get? c = some d) (hplaces : placesNumber c op = true)
    (hc : c ∉ takeTheirs) : consents c d.baselineNumber d.serverNumber op' = true := by
  have hid := hkeys c d hdecided
  refine List.any_eq_true.mpr ⟨⟨d.channelId, d.baselineNumber, d.serverNumber⟩, ?_, by
    simp [hid, numbersAgree_self]⟩
  cases h with
  | kept h =>
    rw [(h c hplaces).2] at hdecided
    cases hdecided
  | range hcall _ _ =>
    rw [placesNumber, hcall] at hplaces
    refine mem_mergeAcknowledgements_of_decision (List.mem_filterMap.mpr ⟨c, of_decide_eq_true hplaces,
      hdecided⟩) fun d' hd' hsame => ?_
    obtain ⟨c', _, hget⟩ := List.mem_filterMap.mp hd'
    have hc' : c' = c := (hkeys c' d' hget).symm.trans (hsame.trans hid)
    rw [hc', hdecided] at hget
    exact (Option.some_inj.mp hget).symm
  | surrendered hcall _ htheirs _ =>
    rw [placesNumber, hcall] at hplaces
    exact absurd (of_decide_eq_true (Bool.and_eq_true_iff.mp hplaces).1 ▸ htheirs) hc
  | consented hcall _ _ hdecision =>
    rw [placesNumber, hcall] at hplaces
    rw [of_decide_eq_true (Bool.and_eq_true_iff.mp hplaces).1, hdecided] at hdecision
    cases hdecision
    exact mem_mergeAcknowledgements_of_decision (List.mem_singleton_self d) fun d' hd' _ =>
      List.mem_singleton.mp hd'

end Consent

/-- An operation that places no channel decided on is left as it is. -/
theorem reconcileOperation_of_undecided {op : StagedOperation} (h : ¬ PlacesDecided keepMine takeTheirs op) :
    reconcileOperation computeAutoRename keepMine takeTheirs op = .inr op := by
  cases hresult : reconcileOperation computeAutoRename keepMine takeTheirs op with
  | inl removed => exact absurd (removed_of_reconcileOperation hresult).1 h
  | inr op' =>
    cases rewritten_of_reconcileOperation hresult with
    | kept _ => rfl
    | range _ hdecided _ => exact absurd hdecided h
    | surrendered _ hdecided _ _ => exact absurd hdecided h
    | consented _ hdecided _ _ => exact absurd hdecided h

end Rewrite

/-- The operations that place a channel are among the operations, and place it. -/
theorem mem_placingOperations {c : ℤ} {op : StagedOperation} {operations : List StagedOperation}
    (h : op ∈ placingOperations c operations) : op ∈ operations ∧ placesNumber c op = true := by
  induction operations using List.reverseRecOn with
  | nil => cases h
  | append_singleton operations last ih =>
    rw [placingOperations, List.foldl_concat, placeStep] at h
    split at h
    · cases h
    · split at h
      · rename_i hplaces
        cases List.mem_append.mp h with
        | inl hmem => exact ⟨List.mem_append_left _ (ih hmem).1, (ih hmem).2⟩
        | inr hlast =>
          rw [List.mem_singleton.mp hlast]
          exact ⟨List.mem_append_right _ (List.mem_singleton_self last), hplaces⟩
      · exact ⟨List.mem_append_left _ (ih h).1, (ih h).2⟩

/-- The operations that place a channel are rewritten with the others. -/
theorem placingOperations_filterMap {c : ℤ} {f : StagedOperation → Option StagedOperation}
    (hremoved : ∀ op, f op = none → deletesChannel c op = false)
    (hkept : ∀ op op', f op = some op' → deletesChannel c op' = deletesChannel c op ∧
      placesNumber c op' = placesNumber c op) (operations : List StagedOperation) :
    placingOperations c (operations.filterMap f) = (placingOperations c operations).filterMap f := by
  induction operations using List.reverseRecOn with
  | nil => rfl
  | append_singleton operations op ih =>
    have hlast : ∀ ops op, placingOperations c (ops ++ [op]) = placeStep c (placingOperations c ops) op :=
      fun ops op => List.foldl_concat ..
    rw [List.filterMap_append, hlast, placeStep]
    cases hf : f op with
    | none =>
      rw [List.filterMap_cons_none hf, List.filterMap_nil, List.append_nil, ih, hremoved op hf,
          if_neg Bool.false_ne_true]
      split
      · rw [List.filterMap_append, List.filterMap_cons_none hf, List.filterMap_nil, List.append_nil]
      · rfl
    | some op' =>
      obtain ⟨hdeletes, hplaces⟩ := hkept op op' hf
      rw [List.filterMap_cons_some hf, List.filterMap_nil, hlast, placeStep, ih, hdeletes, hplaces]
      split
      · rfl
      · split
        · rw [List.filterMap_append, List.filterMap_cons_some hf, List.filterMap_nil]
        · rfl

/-! ## After the decisions -/

/-- The decision answers the conflict: it is about its channel and its numbers, and a channel that was
deleted is theirs. -/
structure ReconcileDecision.Answers (d : ReconcileDecision) (conflict : NumberingConflict) : Prop where
  channelId : d.channelId = conflict.channelId
  baselineNumber : d.baselineNumber = conflict.baselineNumber
  serverNumber : d.serverNumber = conflict.serverNumber
  deleted : conflict.kind = .channelDeleted → d.choice = .takeTheirs

/-- Every conflict is decided, and nothing else is. -/
structure Decided (lineups : Lineups) (operations : List StagedOperation) (decisions : List ReconcileDecision) :
    Prop where
  all : ∀ conflict ∈ lineups.detectNumberingConflicts operations,
    ∃ d ∈ decisions, d.channelId = conflict.channelId
  only : ∀ d ∈ decisions, ∃ conflict ∈ lineups.detectNumberingConflicts operations, d.Answers conflict

/-- The consent to change the channel was on a range that goes, since it has a channel that is theirs. -/
def ConsentRemoved (decisions : List ReconcileDecision) (operations : List StagedOperation)
    (conflict : NumberingConflict) : Prop :=
  ∃ op ∈ operations, ∃ call, op.apiCall = .bulkAssignChannelNumbers call ∧
    conflict.channelId ∈ call.channelIds ∧ (∃ c ∈ call.channelIds, c ∈ takeTheirsOf decisions) ∧
      consents conflict.channelId conflict.baselineNumber conflict.serverNumber op = true

/-- What a map keeps as it is stays, in its order. -/
theorem filter_sublist_filterMap {α : Type} {p : α → Bool} {f : α → Option α}
    (h : ∀ a, p a = true → f a = some a) (l : List α) : (l.filter p).Sublist (l.filterMap f) := by
  induction l with
  | nil => exact .slnil
  | cons a l ih =>
    by_cases ha : p a = true
    · rw [List.filter_cons_of_pos ha, List.filterMap_cons_some (h a ha)]
      exact ih.cons_cons a
    · rw [List.filter_cons_of_neg ha]
      cases hf : f a with
      | none => rwa [List.filterMap_cons_none hf]
      | some b =>
        rw [List.filterMap_cons_some hf]
        exact ih.cons b

section Settled

variable {decisions : List ReconcileDecision}

theorem get?_keepMineOf {c : ℤ} {d : ReconcileDecision} (h : (keepMineOf decisions).get? c = some d) :
    d ∈ decisions ∧ d.choice = .keepMine ∧ d.channelId = c := by
  obtain ⟨d', hd', heq⟩ := List.mem_map.mp (Dict.mem_of_get?_ofList h)
  obtain ⟨rfl, rfl⟩ := Prod.mk.inj heq
  obtain ⟨hmem, hchoice⟩ := List.mem_filter.mp hd'
  exact ⟨hmem, of_decide_eq_true hchoice, rfl⟩

/-- A channel with a decision is theirs or kept mine. -/
theorem decided_cases {d : ReconcileDecision} (hd : d ∈ decisions) :
    d.channelId ∈ takeTheirsOf decisions ∨ ∃ d', (keepMineOf decisions).get? d.channelId = some d' := by
  cases hchoice : d.choice with
  | keepMine =>
    refine .inr (Dict.exists_get?_ofList ?_)
    rw [List.map_map]
    exact List.mem_map_of_mem (f := ReconcileDecision.channelId)
      (List.mem_filter.mpr ⟨hd, decide_eq_true hchoice⟩)
  | takeTheirs => exact .inl (List.mem_map_of_mem (List.mem_filter.mpr ⟨hd, decide_eq_true hchoice⟩))

theorem operations_applyReconcileDecisions (computeAutoRename : String → Option ℚ → Option ℚ → Option String)
    (operations : List StagedOperation) (decisions : List ReconcileDecision) :
    (applyReconcileDecisions computeAutoRename operations decisions).operations =
      operations.filterMap fun op => (reconcileOperation computeAutoRename (keepMineOf decisions)
        (takeTheirsOf decisions) op).getRight? := by
  rw [applyReconcileDecisions, List.filterMap_map]
  rfl

section Run

variable {computeAutoRename : String → Option ℚ → Option ℚ → Option String} {lineups : Lineups}
  {operations : List StagedOperation}

/-- What the operations left were before. -/
theorem rewritten_of_mem {op' : StagedOperation}
    (h : op' ∈ (applyReconcileDecisions computeAutoRename operations decisions).operations) :
    ∃ op ∈ operations, Rewritten (keepMineOf decisions) (takeTheirsOf decisions) op op' := by
  rw [operations_applyReconcileDecisions] at h
  obtain ⟨op, hop, hresult⟩ := List.mem_filterMap.mp h
  exact ⟨op, hop, rewritten_of_reconcileOperation (Sum.getRight?_eq_some_iff.mp hresult)⟩

theorem not_places_theirs {op' : StagedOperation} {c : ℤ}
    (h : op' ∈ (applyReconcileDecisions computeAutoRename operations decisions).operations)
    (hc : c ∈ takeTheirsOf decisions) : placesNumber c op' = false := by
  obtain ⟨op, _, hrewritten⟩ := rewritten_of_mem h
  exact hrewritten.not_places hc

/-- Decisions keep to one acknowledgement a channel. -/
theorem oneEach_after (hone : ∀ op ∈ operations, OneEach op) :
    ∀ op ∈ (applyReconcileDecisions computeAutoRename operations decisions).operations, OneEach op := by
  intro op' hop'
  obtain ⟨op, hop, hrewritten⟩ := rewritten_of_mem hop'
  exact hrewritten.oneEach (hone op hop)

/-- The operations that place a channel that is not theirs, after the decisions. -/
theorem placing_after (computeAutoRename : String → Option ℚ → Option ℚ → Option String)
    (operations : List StagedOperation) {c : ℤ} (hc : c ∉ takeTheirsOf decisions) :
    placingOperations c (applyReconcileDecisions computeAutoRename operations decisions).operations =
      (placingOperations c operations).filterMap fun op =>
        (reconcileOperation computeAutoRename (keepMineOf decisions) (takeTheirsOf decisions) op).getRight? := by
  rw [operations_applyReconcileDecisions]
  refine placingOperations_filterMap (fun op hnone => ?_) (fun op op' hsome => ?_) operations
  · obtain ⟨removed, hremoved⟩ := Sum.isLeft_iff.mp (Sum.getRight?_eq_none_iff.mp hnone)
    obtain ⟨_, ⟨call, hcall, _⟩ | ⟨call, hcall, _⟩⟩ := removed_of_reconcileOperation hremoved
    · simp [deletesChannel, hcall]
    · simp [deletesChannel, hcall]
  · have hrewritten := rewritten_of_reconcileOperation (Sum.getRight?_eq_some_iff.mp hsome)
    exact ⟨hrewritten.deletesChannel_eq c, hrewritten.placesNumber_eq hc⟩

/-- A channel whose writes are in conflict after the decisions is not decided. -/
theorem undecided_after (hdecided : Decided lineups operations decisions) {c : ℤ}
    {kind : NumberingConflictKind} {baselineNumber serverNumber : Option ℚ}
    (h : InConflict lineups c (placingOperations c
      (applyReconcileDecisions computeAutoRename operations decisions).operations) kind baselineNumber
        serverNumber) :
    c ∉ takeTheirsOf decisions ∧ (keepMineOf decisions).get? c = none := by
  obtain ⟨op', hop'⟩ := List.exists_mem_of_ne_nil _ h.placed
  have htheirs : c ∉ takeTheirsOf decisions := by
    intro hc
    obtain ⟨hmem, hplaces⟩ := mem_placingOperations hop'
    rw [not_places_theirs hmem hc] at hplaces
    cases hplaces
  refine ⟨htheirs, Option.eq_none_iff_forall_ne_some.mpr fun d hd => ?_⟩
  obtain ⟨hmem, hchoice, hid⟩ := get?_keepMineOf hd
  obtain ⟨conflict, hconflict, hanswers⟩ := hdecided.only d hmem
  have hbefore := (mem_detect_iff lineups operations).mp
    ⟨conflict, hconflict, hanswers.channelId.symm.trans hid, rfl, hanswers.baselineNumber.symm,
      hanswers.serverNumber.symm⟩
  have hbaseline := hbefore.baseline
  have hserver := hbefore.server
  rw [h.baseline] at hbaseline
  cases hkind : conflict.kind with
  | channelDeleted =>
    rw [hanswers.deleted hkind] at hchoice
    cases hchoice
  | numberChanged =>
    rw [hkind] at hserver
    cases kind with
    | channelDeleted =>
      rw [h.server.1] at hserver
      cases hserver.1
    | numberChanged =>
      obtain ⟨hnumber, _, hrefuse⟩ := h.server
      rw [hnumber] at hserver
      rw [placing_after _ _ htheirs] at hop'
      obtain ⟨op, hop, hresult⟩ := List.mem_filterMap.mp hop'
      have hrewritten := rewritten_of_reconcileOperation (Sum.getRight?_eq_some_iff.mp hresult)
      have hconsent := hrewritten.consents_of_decided (fun _ _ hget => (get?_keepMineOf hget).2.2) hd
        (mem_placingOperations hop).2 htheirs
      rw [← Option.some_inj.mp hbaseline, ← Option.some_inj.mp hserver.1] at hconsent
      rw [hrefuse op' (placing_after _ _ htheirs ▸ hop')] at hconsent
      cases hconsent

/-- The consent for a channel that comes into conflict by the decisions went with a range. -/
theorem consentRemoved_after (hone : ∀ op ∈ operations, OneEach op) {conflict : NumberingConflict}
    (htheirs : conflict.channelId ∉ takeTheirsOf decisions)
    (hmine : (keepMineOf decisions).get? conflict.channelId = none)
    (hnone : ∀ kind baselineNumber serverNumber, ¬ InConflict lineups conflict.channelId
      (placingOperations conflict.channelId operations) kind baselineNumber serverNumber)
    (h : InConflict lineups conflict.channelId (placingOperations conflict.channelId
      (applyReconcileDecisions computeAutoRename operations decisions).operations) conflict.kind
        conflict.baselineNumber conflict.serverNumber) :
    ConsentRemoved decisions operations conflict := by
  have hafter := placing_after computeAutoRename operations htheirs
  have hplaced : placingOperations conflict.channelId operations ≠ [] := by
    intro hnil
    refine h.placed ?_
    rw [hafter, hnil]
    rfl
  cases hkind : conflict.kind with
  | channelDeleted =>
    have hserver := h.server
    rw [hkind] at hserver
    exact absurd ⟨h.nonneg, hplaced, h.baseline, hserver⟩ (hnone .channelDeleted _ _)
  | numberChanged =>
    have hserver := h.server
    rw [hkind] at hserver
    obtain ⟨hnumber, hagree, hrefuse⟩ := hserver
    obtain ⟨op, hop, hconsent⟩ : ∃ op ∈ placingOperations conflict.channelId operations,
        consents conflict.channelId conflict.baselineNumber conflict.serverNumber op = true := by
      by_contra hall
      push Not at hall
      refine hnone .numberChanged _ _ ⟨h.nonneg, hplaced, h.baseline, hnumber, hagree, fun op hop => ?_⟩
      exact Bool.eq_false_of_not_eq_true (hall op hop)
    obtain ⟨hmem, hplaces⟩ := mem_placingOperations hop
    cases hresult : reconcileOperation computeAutoRename (keepMineOf decisions) (takeTheirsOf decisions) op with
    | inr op' =>
      have hkept : op' ∈ placingOperations conflict.channelId
          (applyReconcileDecisions computeAutoRename operations decisions).operations := by
        rw [hafter]
        exact List.mem_filterMap.mpr ⟨op, hop, by rw [hresult]; rfl⟩
      have hconsent' := (rewritten_of_reconcileOperation hresult).consents_of_undecided
        (fun _ _ hget => (get?_keepMineOf hget).2.2) (hone op hmem) hmine hconsent
      rw [hrefuse op' hkept] at hconsent'
      cases hconsent'
    | inl removed =>
      obtain ⟨_, ⟨call, hcall, hrange⟩ | ⟨call, hcall, hupdate⟩⟩ := removed_of_reconcileOperation hresult
      · exact ⟨op, hmem, call, hcall, by simpa [placesNumber, hcall] using hplaces, hrange, hconsent⟩
      · rw [placesNumber, hcall] at hplaces
        exact absurd (of_decide_eq_true (Bool.and_eq_true_iff.mp hplaces).1 ▸ hupdate) htheirs

end Run

/-- The decisions settle the conflicts they answer: the check raises no other than for a channel whose
consent went with a range that was removed, no number that is theirs is written, and the operations that
place no channel decided on are left as they are, in their order. -/
theorem reconcile_settles (computeAutoRename : String → Option ℚ → Option ℚ → Option String)
    (lineups : Lineups) (operations : List StagedOperation) (hone : ∀ op ∈ operations, OneEach op)
    (hdecided : Decided lineups operations decisions) :
    let result := applyReconcileDecisions computeAutoRename operations decisions
    (∀ conflict ∈ lineups.detectNumberingConflicts result.operations,
      (∀ d ∈ decisions, d.channelId ≠ conflict.channelId) ∧ ConsentRemoved decisions operations conflict) ∧
    (∀ op ∈ result.operations, ∀ d ∈ decisions, d.choice = .takeTheirs →
      placesNumber d.channelId op = false) ∧
    (operations.filter fun op => decisions.all fun d => !placesNumber d.channelId op).Sublist
      result.operations := by
  refine ⟨fun conflict hconflict => ?_, fun op hop d hd hchoice => ?_, ?_⟩
  · have hafter := (mem_detect_iff lineups _).mp ⟨conflict, hconflict, rfl, rfl, rfl, rfl⟩
    obtain ⟨htheirs, hmine⟩ := undecided_after hdecided hafter
    have hnone : ∀ d ∈ decisions, d.channelId ≠ conflict.channelId := by
      intro d hd heq
      obtain hin | ⟨d', hd'⟩ := decided_cases hd
      · exact htheirs (heq ▸ hin)
      · rw [heq, hmine] at hd'
        cases hd'
    refine ⟨hnone, consentRemoved_after hone htheirs hmine (fun kind b s hbefore => ?_) hafter⟩
    obtain ⟨before, hbefore, hid, _⟩ := (mem_detect_iff lineups operations).mpr hbefore
    obtain ⟨d, hd, heq⟩ := hdecided.all before hbefore
    exact hnone d hd (heq.trans hid)
  · exact not_places_theirs hop (List.mem_map_of_mem (List.mem_filter.mpr ⟨hd, decide_eq_true hchoice⟩))
  · rw [operations_applyReconcileDecisions]
    have hkept : ∀ op, (decisions.all fun d => !placesNumber d.channelId op) = true →
        (reconcileOperation computeAutoRename (keepMineOf decisions) (takeTheirsOf decisions) op).getRight? =
          some op := by
      intro op hop
      rw [List.all_eq_true] at hop
      rw [reconcileOperation_of_undecided]
      · rfl
      rintro ⟨c, hplaces, hdecided⟩
      obtain ⟨d, hd, rfl⟩ : ∃ d ∈ decisions, d.channelId = c := by
        obtain hin | ⟨d, hget⟩ := hdecided
        · obtain ⟨d, hd, hid⟩ := List.mem_map.mp hin
          exact ⟨d, List.mem_of_mem_filter hd, hid⟩
        · exact ⟨d, (get?_keepMineOf hget).1, (get?_keepMineOf hget).2.2⟩
      have hnot := hop d hd
      rw [hplaces] at hnot
      cases hnot
    exact filter_sublist_filterMap hkept operations

end Settled

section Sample

/-- The session began with channels 1 and 2 on 1 and 5, which somebody moved to 2 and 6. -/
def movedLineups : Lineups where
  baseline := [⟨1, some 1, "news", none, []⟩, ⟨2, some 5, "sport", none, []⟩]
  server := [⟨1, "news", some 2⟩, ⟨2, "sport", some 6⟩]

/-- A range over both channels, which has the consent for the second, and an update of the second. -/
def stagedOverRange : List StagedOperation :=
  [{ id := "a"
     description := "range"
     apiCall := .bulkAssignChannelNumbers ⟨[1, 2], some 10, [⟨2, some 5, some 6⟩]⟩ },
    { id := "b"
      description := "update"
      apiCall := .updateChannel { channelId := 2, data := { channelNumber := some (some 20) } } }]

/-- The number the server has of the first channel is taken. -/
def theirsOfFirst : List ReconcileDecision := [⟨1, .takeTheirs, some 1, some 2⟩]

theorem detect_stagedOverRange : movedLineups.detectNumberingConflicts stagedOverRange =
    [⟨.numberChanged, 1, "news", some 1, some 2, some 10, ["a"], ["range"], true⟩] := by
  decide +kernel

theorem decided_stagedOverRange : Decided movedLineups stagedOverRange theirsOfFirst where
  all := by
    rw [detect_stagedOverRange]
    intro conflict hconflict
    rw [List.mem_singleton.mp hconflict]
    exact ⟨_, List.mem_singleton_self _, rfl⟩
  only := by
    rw [detect_stagedOverRange]
    intro d hd
    rw [List.mem_singleton.mp hd]
    exact ⟨_, List.mem_singleton_self _, rfl, rfl, rfl, nofun⟩

theorem oneEach_stagedOverRange : ∀ op ∈ stagedOverRange, OneEach op := by
  intro op hop
  rw [stagedOverRange, List.mem_cons, List.mem_singleton] at hop
  obtain rfl | rfl := hop
  · exact List.nodup_singleton 2
  · exact List.nodup_nil

theorem reconcile_settles_overRange :
    let result := applyReconcileDecisions (fun _ _ _ => none) stagedOverRange theirsOfFirst
    (∀ conflict ∈ movedLineups.detectNumberingConflicts result.operations,
      (∀ d ∈ theirsOfFirst, d.channelId ≠ conflict.channelId) ∧
        ConsentRemoved theirsOfFirst stagedOverRange conflict) ∧
    (∀ op ∈ result.operations, ∀ d ∈ theirsOfFirst, d.choice = .takeTheirs →
      placesNumber d.channelId op = false) ∧
    (stagedOverRange.filter fun op => theirsOfFirst.all fun d => !placesNumber d.channelId op).Sublist
      result.operations :=
  reconcile_settles _ movedLineups stagedOverRange oneEach_stagedOverRange decided_stagedOverRange

/-- The range goes with the consent for the second channel, which its update still writes. -/
theorem reconcile_unsettles :
    ¬ ∀ (lineups : Lineups) (operations : List StagedOperation) (decisions : List ReconcileDecision),
      (∀ op ∈ operations, OneEach op) → Decided lineups operations decisions →
        lineups.detectNumberingConflicts
          (applyReconcileDecisions (fun _ _ _ => none) operations decisions).operations = [] := by
  intro hclaim
  have hnone := hclaim movedLineups stagedOverRange theirsOfFirst oneEach_stagedOverRange
    decided_stagedOverRange
  exact absurd hnone (by decide +kernel)

end Sample

end ChannelManager.EditMode
