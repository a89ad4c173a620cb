import ChannelManager.Dbas.LedgeredRun
import ChannelManager.Lib.EveryPoint

/-!
# Crashes of a restore

A restore that crashes is undone from the ledger file. The file has every entity created, but for one
whose create is in flight, as long as each create is the last call of its importer or followed by a write
of the file. The rollback of whatever the file has deletes it, and can itself be interrupted anywhere.
-/

namespace ChannelManager.Dbas

/-! ## The apply -/

/-- Everything created is in the ledger file, or its create is in flight. -/
def Applying.Covered (s : Applying) : Prop :=
  ∀ e ∈ s.created, e ∈ s.file.entities ∨ s.inFlight = some e

/-- The ledger file is the ledger, and has what was created. -/
structure Applying.Written (s : Applying) : Prop where
  file : s.file = s.ledger
  entities : ∀ e, e ∈ s.ledger.entities ↔ e ∈ s.created

/-- What a call makes is in the ledger after it. -/
def ImporterCall.recorded : ImporterCall → Bool
  | .create _ _ (.created _ answered) => answered
  | _ => false

/-- What each call makes is recorded, and the ledger file is written before the next call. -/
def Sheltered (persistsEach : Bool) : List ImporterCall → Prop
  | [] => True
  | call :: calls => (call.made.isSome → call.recorded = true ∧ (persistsEach = true ∨ calls = [])) ∧
      Sheltered persistsEach calls

def ImporterStep.Sheltered (step : ImporterStep) : Prop := Dbas.Sheltered step.persistsEach step.calls

/-- What some importers create, call after call. -/
def madeBy (calls : List ImporterCall) : List CreatedEntity := calls.filterMap ImporterCall.made

theorem entities_recordCreated (ledger : RollbackLedger) (entityType : EntityType) (id : ℤ) (label : String) :
    (ledger.recordCreated entityType id label).entities = ledger.entities ++ [(entityType, id)] := by
  rw [RollbackLedger.recordCreated, RollbackLedger.entities, List.map_append]
  rfl

section Apply

variable {s : Applying} {persistsEach : Bool}

theorem Applying.Written.covered (h : s.Written) : s.Covered :=
  fun e he => .inl (h.file ▸ (h.entities e).mpr he)

/-- What was made by a call that is not in flight any more has to be in the file. -/
theorem not_covered {e : CreatedEntity} (hmade : e ∈ s.created) (hfile : e ∉ s.file.entities)
    (hlater : s.inFlight ≠ some e) : ¬s.Covered :=
  fun h => (h e hmade).elim hfile hlater

/-- After the next call, if there is one, or else after the write of the file, nothing made before is in
flight. -/
theorem not_everyPoint {calls : List ImporterCall} {e : CreatedEntity} (hmade : e ∈ s.created)
    (hfile : e ∉ s.file.entities) (hledger : calls = [] → e ∉ s.ledger.entities) (hlater : e ∉ madeBy calls) :
    ¬EveryPoint Applying.step Applying.Covered s
      (calls.flatMap (afterCall persistsEach) ++ [.persist]) := by
  intro h
  cases calls with
  | nil => exact not_covered (s := s.step .persist) hmade (hledger rfl) (Option.some_ne_none e).symm h.2
  | cons call calls =>
    have hnext := h.2.first
    refine not_covered (s := s.step (.call call.made)) (List.mem_append_left _ hmade) hfile ?_ hnext
    intro hsame
    have hsame : call.made = some e := hsame
    refine hlater ?_
    rw [madeBy, List.filterMap_cons, hsame]
    exact List.mem_cons_self

/-- What a call and the steps after it can be. -/
theorem afterCall_cases (persistsEach : Bool) (call : ImporterCall) :
    (call.made = none ∧ afterCall persistsEach call = [.call none]) ∨
    (∃ e, call.made = some e ∧ call.recorded = false ∧ afterCall persistsEach call = [.call (some e)]) ∨
    ∃ entityType id label, call.made = some (entityType, id) ∧ call.recorded = true ∧
      afterCall persistsEach call = .call (some (entityType, id)) :: .record entityType id label ::
        if persistsEach then [.persist] else [] := by
  cases call with
  | other => exact .inl ⟨rfl, rfl⟩
  | customStreamAccount id => exact .inr (.inl ⟨_, rfl, rfl, rfl⟩)
  | create entityType label answer =>
    cases answer with
    | raised => exact .inl ⟨rfl, rfl⟩
    | created id answered =>
      cases answered with
      | false => exact .inr (.inl ⟨_, rfl, rfl, rfl⟩)
      | true => exact .inr (.inr ⟨entityType, id, label, rfl, rfl, rfl⟩)

/-- An entity that is new is in neither ledger nor file. -/
theorem Applying.Written.fresh (h : s.Written) {e : CreatedEntity} (he : e ∉ s.created) :
    e ∉ s.ledger.entities ∧ e ∉ s.file.entities :=
  ⟨mt (h.entities e).mp he, h.file ▸ mt (h.entities e).mp he⟩

theorem Applying.Written.call_none (h : s.Written) : (s.step (.call none)).Written := by
  refine ⟨h.file, fun e => ?_⟩
  change e ∈ s.ledger.entities ↔ e ∈ s.created ++ []
  rw [List.append_nil]
  exact h.entities e

/-- A created entity that is recorded, and the ledger written. -/
theorem Applying.Written.record (h : s.Written) (entityType : EntityType) (id : ℤ) (label : String) :
    (((s.step (.call (some (entityType, id)))).step (.record entityType id label)).step .persist).Written := by
  refine ⟨rfl, fun e => ?_⟩
  change e ∈ (s.ledger.recordCreated entityType id label).entities ↔ e ∈ s.created ++ [(entityType, id)]
  rw [entities_recordCreated, List.mem_append, List.mem_append, h.entities]

/-- An importer is covered at every point if and only if its creates are sheltered. -/
theorem everyPoint_calls {calls : List ImporterCall} (h : s.Written)
    (hfresh : (s.created ++ madeBy calls).Nodup) :
    EveryPoint Applying.step Applying.Covered s (calls.flatMap (afterCall persistsEach) ++ [.persist]) ↔
      Sheltered persistsEach calls := by
  induction calls generalizing s with
  | nil => exact iff_of_true ⟨h.covered, fun e he => .inl ((h.entities e).mpr he)⟩ trivial
  | cons call calls ih =>
    rw [List.flatMap_cons, List.append_assoc, Sheltered]
    obtain ⟨hmade, hafter⟩ | ⟨e, hmade, hrecorded, hafter⟩ |
      ⟨entityType, id, label, hmade, hrecorded, hafter⟩ := afterCall_cases persistsEach call
    · rw [madeBy, List.filterMap_cons, hmade, ← madeBy] at hfresh
      have hnext := h.call_none
      have hiff := ih hnext (by rwa [Applying.step, Option.toList_none, List.append_nil])
      rw [hafter, hmade]
      exact ⟨fun hpoints => ⟨fun hsome => absurd hsome (by decide), hiff.mp hpoints.2⟩,
        fun hsheltered => ⟨h.covered, hiff.mpr hsheltered.2⟩⟩
    · rw [madeBy, List.filterMap_cons, hmade, ← madeBy, List.nodup_append, List.nodup_cons] at hfresh
      obtain ⟨_, ⟨hlater, _⟩, hdisjoint⟩ := hfresh
      obtain ⟨hledger, hfile⟩ := h.fresh fun he => hdisjoint e he e List.mem_cons_self rfl
      rw [hafter, hmade, hrecorded]
      refine iff_of_false (fun hpoints => ?_) fun hsheltered => absurd (hsheltered.1 rfl).1 (by decide)
      exact not_everyPoint (s := s.step (.call (some e)))
        (List.mem_append_right _ (List.mem_singleton.mpr rfl)) hfile (fun _ => hledger) hlater hpoints.2
    · rw [madeBy, List.filterMap_cons, hmade, ← madeBy] at hfresh
      have hrest := hfresh
      rw [List.nodup_append, List.nodup_cons] at hrest
      obtain ⟨_, ⟨hlater, _⟩, hdisjoint⟩ := hrest
      obtain ⟨_, hfile⟩ := h.fresh fun he => hdisjoint _ he _ List.mem_cons_self rfl
      have hflight : (s.step (.call (some (entityType, id)))).Covered := by
        intro e he
        obtain he | he := List.mem_append.mp he
        · exact .inl (h.file ▸ (h.entities e).mpr he)
        · exact .inr (congrArg some (List.mem_singleton.mp he).symm)
      have hwritten := h.record entityType id label
      rw [hafter, hmade]
      cases persistsEach with
      | true =>
        have hiff := ih hwritten (by rwa [Applying.step, Applying.step, Applying.step, Option.toList_some,
          List.append_assoc, List.singleton_append])
        exact ⟨fun hpoints => ⟨fun _ => ⟨hrecorded, .inl rfl⟩, hiff.mp hpoints.2.2.2⟩,
          fun hsheltered => ⟨h.covered, hflight, hflight, hiff.mpr hsheltered.2⟩⟩
      | false =>
        cases calls with
        | nil =>
          exact iff_of_true ⟨h.covered, hflight, hflight, hwritten.covered⟩
            ⟨fun _ => ⟨hrecorded, .inr rfl⟩, trivial⟩
        | cons next calls =>
          -- the file is not written before the next call
          refine iff_of_false (fun hpoints => ?_) fun hsheltered => ?_
          · exact not_everyPoint
              (s := (s.step (.call (some (entityType, id)))).step (.record entityType id label))
              (List.mem_append_right _ (List.mem_singleton.mpr rfl)) hfile (fun hnil => absurd hnil (by simp))
              hlater hpoints.2.2
          · exact (hsheltered.1 rfl).2.elim (absurd · (by decide)) (absurd · (by simp))

/-- The ledger has what was created. -/
def Applying.Known (s : Applying) : Prop := ∀ e, e ∈ s.ledger.entities ↔ e ∈ s.created

theorem known_calls {calls : List ImporterCall} (h : s.Known) (hcalls : Sheltered persistsEach calls) :
    ((calls.flatMap (afterCall persistsEach)).foldl Applying.step s).Known := by
  induction calls generalizing s with
  | nil => exact h
  | cons call calls ih =>
    rw [List.flatMap_cons, List.foldl_append]
    refine ih ?_ hcalls.2
    obtain ⟨_, hafter⟩ | ⟨e, hmade, hrecorded, _⟩ | ⟨entityType, id, label, _, _, hafter⟩ :=
      afterCall_cases persistsEach call
    · rw [hafter]
      intro e
      change e ∈ s.ledger.entities ↔ e ∈ s.created ++ []
      rw [List.append_nil]
      exact h e
    · have hsheltered := hcalls.1 (by rw [hmade]; rfl)
      rw [hrecorded] at hsheltered
      exact absurd hsheltered.1 (by decide)
    · have hrecord : ((s.step (.call (some (entityType, id)))).step (.record entityType id label)).Known := by
        intro e
        change e ∈ (s.ledger.recordCreated entityType id label).entities ↔ e ∈ s.created ++ [(entityType, id)]
        rw [entities_recordCreated, List.mem_append, List.mem_append, h]
      rw [hafter]
      cases persistsEach <;> exact hrecord

/-- After an importer whose creates are sheltered the ledger file has them. -/
theorem written_applySteps {step : ImporterStep} (h : s.Written) (hstep : step.Sheltered) :
    (step.applySteps.foldl Applying.step s).Written := by
  rw [ImporterStep.applySteps, List.foldl_append]
  exact ⟨rfl, known_calls h.entities hstep⟩

theorem created_applySteps (calls : List ImporterCall) :
    ((calls.flatMap (afterCall persistsEach)).foldl Applying.step s).created = s.created ++ madeBy calls := by
  induction calls generalizing s with
  | nil => exact (List.append_nil _).symm
  | cons call calls ih =>
    have hcall : ((afterCall persistsEach call).foldl Applying.step s).created =
        s.created ++ call.made.toList := by
      obtain ⟨hmade, hafter⟩ | ⟨e, hmade, _, hafter⟩ | ⟨entityType, id, label, hmade, _, hafter⟩ :=
        afterCall_cases persistsEach call
      · rw [hafter, hmade]
        rfl
      · rw [hafter, hmade]
        rfl
      · rw [hafter, hmade]
        cases persistsEach <;> rfl
    have hmadeBy : madeBy (call :: calls) = call.made.toList ++ madeBy calls := by
      rw [madeBy, List.filterMap_cons]
      cases call.made <;> rfl
    rw [List.flatMap_cons, List.foldl_append, ih, hcall, hmadeBy, List.append_assoc]

/-- An apply is covered at every point if and only if the creates of each of its importers are
sheltered. -/
theorem everyPoint_apply {steps : List ImporterStep} (h : s.Written)
    (hfresh : (s.created ++ steps.flatMap fun step => madeBy step.calls).Nodup) :
    EveryPoint Applying.step Applying.Covered s (steps.flatMap ImporterStep.applySteps) ↔
      ∀ step ∈ steps, step.Sheltered := by
  induction steps generalizing s with
  | nil => exact iff_of_true h.covered (fun _ hstep => absurd hstep List.not_mem_nil)
  | cons step steps ih =>
    rw [List.flatMap_cons, ← List.append_assoc] at hfresh
    have hcalls : EveryPoint Applying.step Applying.Covered s step.applySteps ↔ step.Sheltered :=
      everyPoint_calls h hfresh.of_append_left
    have hcreated : (step.applySteps.foldl Applying.step s).created = s.created ++ madeBy step.calls := by
      rw [ImporterStep.applySteps, List.foldl_append]
      exact created_applySteps step.calls
    rw [List.flatMap_cons, everyPoint_append, List.forall_mem_cons]
    refine (and_congr_left' hcalls).trans (and_congr_right fun hsheltered => ?_)
    exact ih (written_applySteps h hsheltered) (hcreated ▸ hfresh)

end Apply

/-! ## The rollback -/

/-- The ledger with some entries compensated. -/
def RollbackLedger.marked (ledger : RollbackLedger) (sequences : List ℕ) : RollbackLedger :=
  ⟨ledger.entries.map fun e => if e.sequence ∈ sequences then { e with compensated := true } else e⟩

namespace RollbackLedger

variable (ledger : RollbackLedger)

theorem marked_nil : ledger.marked [] = ledger := by
  simp [marked]

theorem marked_marked (first later : List ℕ) :
    (ledger.marked first).marked later = ledger.marked (first ++ later) := by
  rw [marked, marked, marked, List.map_map]
  congr 1
  refine List.map_congr_left fun e _ => ?_
  rw [Function.comp_apply]
  by_cases hfirst : e.sequence ∈ first <;> by_cases hlater : e.sequence ∈ later <;> simp [hfirst, hlater]

/-- The entries have numbers of their own. -/
def Numbered : Prop := (ledger.entries.map LedgerEntry.sequence).Nodup

variable {ledger}

theorem Numbered.eq (h : ledger.Numbered) {e e' : LedgerEntry} (he : e ∈ ledger.entries)
    (he' : e' ∈ ledger.entries) (hsame : e.sequence = e'.sequence) : e = e' :=
  List.inj_on_of_nodup_map h he he' hsame

theorem mem_compensationOrder {e : LedgerEntry} :
    e ∈ ledger.compensationOrder ↔ e ∈ ledger.entries ∧ e.compensated = false := by
  rw [compensationOrder, List.mem_insertionSort, List.mem_filter, Bool.not_eq_true']

theorem Numbered.nodup_order (h : ledger.Numbered) :
    (ledger.compensationOrder.map LedgerEntry.sequence).Nodup := by
  have hperm : ledger.compensationOrder.Perm (ledger.entries.filter fun e => !e.compensated) :=
    List.perm_insertionSort _ _
  rw [(hperm.map LedgerEntry.sequence).nodup_iff]
  exact h.sublist (List.filter_sublist.map _)

/-- What is left to compensate once some entries have been. -/
theorem Numbered.order_marked (h : ledger.Numbered) (sequences : List ℕ) :
    (ledger.marked sequences).compensationOrder =
      ledger.compensationOrder.filter fun e => e.sequence ∉ sequences := by
  have hpending : (ledger.marked sequences).entries.filter (fun e => !e.compensated) =
      (ledger.entries.filter fun e => !e.compensated).filter fun e => e.sequence ∉ sequences := by
    rw [marked]
    induction ledger.entries with
    | nil => rfl
    | cons e entries ih =>
      rw [List.map_cons]
      by_cases hmem : e.sequence ∈ sequences
      · cases hcompensated : e.compensated <;> simp [hmem, hcompensated, ih]
      · cases hcompensated : e.compensated <;> simp [hmem, hcompensated, ih]
  have hpairwise : ∀ l : List LedgerEntry,
      (l.insertionSort fun e e' => e'.sequence ≤ e.sequence).Pairwise fun e e' => e'.sequence ≤ e.sequence :=
    fun l => List.pairwise_insertionSort _ l
  refine List.Perm.eq_of_pairwise ?_ (hpairwise _) ((hpairwise _).filter _) ?_
  · intro e e' he he' hle hle'
    have hentry : ∀ x, x ∈ (ledger.marked sequences).compensationOrder → x ∈ ledger.entries := by
      intro x hx
      rw [compensationOrder, List.mem_insertionSort, hpending] at hx
      exact List.mem_of_mem_filter (List.mem_of_mem_filter hx)
    exact h.eq (hentry e he) (mem_compensationOrder.mp (List.mem_of_mem_filter he')).1
      (Nat.le_antisymm hle' hle)
  · rw [compensationOrder, hpending]
    exact (List.perm_insertionSort _ _).trans ((List.perm_insertionSort _ _).symm.filter _)

end RollbackLedger

section Rollback

variable {refuses : CreatedEntity → Bool}

variable (refuses) in
/-- The entry's delete goes through, or is answered that the entity is gone. -/
def undone (entry : LedgerEntry) : Bool := hasCompensator entry.entityType && !refuses entry.entity

variable (refuses) in
/-- The entities that a rollback of some entries takes away. -/
def takenAway (entries : List LedgerEntry) : List CreatedEntity :=
  (entries.filter (undone refuses)).map LedgerEntry.entity

variable (refuses) in
/-- What the rollback of some entries comes to. -/
structure RolledBack (s : Undoing) (entries : List LedgerEntry) (s' : Undoing) : Prop where
  upstream : s'.upstream = s.upstream.filter (· ∉ takenAway refuses entries)
  ledger : s'.ledger = s.ledger.marked ((entries.filter (undone refuses)).map LedgerEntry.sequence)
  file : s'.file = s'.ledger
  deletes : s'.deletes = s.deletes ++ entries.filter fun e => hasCompensator e.entityType
  residue : s'.residue = s.residue ++ entries.filter fun e => !undone refuses e
  inFlight : s'.inFlight = none

theorem rolledBack_entry {s : Undoing} (hfile : s.file = s.ledger) (entry : LedgerEntry) :
    RolledBack refuses s [entry] ((undoEntry refuses entry).foldl (Undoing.step refuses) s) := by
  rw [undoEntry]
  cases hcompensator : hasCompensator entry.entityType with
  | false =>
    constructor <;>
      simp [undone, takenAway, hcompensator, Undoing.step, RollbackLedger.marked_nil, hfile]
  | true =>
    cases hrefuses : refuses entry.entity with
    | true =>
      constructor <;>
        simp [undone, takenAway, hcompensator, hrefuses, Undoing.step, RollbackLedger.marked_nil, hfile]
    | false =>
      constructor <;> simp [undone, takenAway, hcompensator, hrefuses, Undoing.step,
        RollbackLedger.marked, RollbackLedger.markCompensated]

theorem RolledBack.trans {s s' s'' : Undoing} {first later : List LedgerEntry}
    (h : RolledBack refuses s first s') (h' : RolledBack refuses s' later s'') :
    RolledBack refuses s (first ++ later) s'' where
  upstream := by
    rw [h'.upstream, h.upstream, List.filter_filter, takenAway, takenAway, takenAway, List.filter_append,
      List.map_append]
    simp only [List.mem_append, not_or, Bool.decide_and, Bool.and_comm]
  ledger := by
    rw [h'.ledger, h.ledger, RollbackLedger.marked_marked, List.filter_append, List.map_append]
  file := h'.file
  deletes := by rw [h'.deletes, h.deletes, List.filter_append, List.append_assoc]
  residue := by rw [h'.residue, h.residue, List.filter_append, List.append_assoc]
  inFlight := h'.inFlight

theorem rolledBack_entries {s : Undoing} (hfile : s.file = s.ledger) (hinFlight : s.inFlight = none)
    (entries : List LedgerEntry) :
    RolledBack refuses s entries ((entries.flatMap (undoEntry refuses)).foldl (Undoing.step refuses) s) := by
  induction entries using List.reverseRecOn with
  | nil => exact ⟨by simp [takenAway], by simp [RollbackLedger.marked_nil], hfile, by simp, by simp, hinFlight⟩
  | append_singleton entries entry ih =>
    rw [List.flatMap_append, List.flatMap_singleton, List.foldl_append]
    exact ih.trans (rolledBack_entry ih.file entry)

variable {upstream : List CreatedEntity} {ledger : RollbackLedger}

theorem rolledBack_run : RolledBack refuses (.start upstream ledger) ledger.compensationOrder
    (runRollback refuses upstream ledger) :=
  rolledBack_entries rfl rfl _

variable (refuses upstream ledger) in
/-- A rollback cut off behind some entries: the file has those that were finished, and the delete of the
next may have been sent. -/
structure CutOff (s : Undoing) (finished later : List LedgerEntry) : Prop where
  order : ledger.compensationOrder = finished ++ later
  file : s.file = ledger.marked ((finished.filter (undone refuses)).map LedgerEntry.sequence)
  upstream : ∃ gone ⊆ takenAway refuses later,
    s.upstream = (upstream.filter (· ∉ takenAway refuses finished)).filter (· ∉ gone)
  deletes : ∀ entry ∈ s.deletes, entry ∈ finished ∨ refuses entry.entity = true ∨ s.inFlight = some entry

theorem RolledBack.mem_finished {s : Undoing} {finished : List LedgerEntry} {entry : LedgerEntry}
    (h : RolledBack refuses (.start upstream ledger) finished s) (hentry : entry ∈ s.deletes) :
    entry ∈ finished := by
  rw [h.deletes] at hentry
  exact (List.mem_filter.mp hentry).1

theorem RolledBack.cutOff {s : Undoing} {finished later : List LedgerEntry}
    (h : RolledBack refuses (.start upstream ledger) finished s)
    (horder : ledger.compensationOrder = finished ++ later) :
    CutOff refuses upstream ledger s finished later where
  order := horder
  file := h.file.trans h.ledger
  upstream := ⟨[], List.nil_subset _, by simpa [Undoing.start] using h.upstream⟩
  deletes := fun _ hentry => .inl (h.mem_finished hentry)

/-- The delete of the next entry has been sent, and nothing was made of its answer. -/
theorem RolledBack.cutOff_deleting {s : Undoing} {finished rest : List LedgerEntry} {entry : LedgerEntry}
    (h : RolledBack refuses (.start upstream ledger) finished s)
    (horder : ledger.compensationOrder = finished ++ entry :: rest)
    (hcompensator : hasCompensator entry.entityType = true) :
    CutOff refuses upstream ledger (s.step refuses (.delete entry)) finished (entry :: rest) where
  order := horder
  file := h.file.trans h.ledger
  upstream := by
    have hupstream : s.upstream = upstream.filter (· ∉ takenAway refuses finished) := h.upstream
    rw [← hupstream]
    cases hrefuses : refuses entry.entity with
    | true => exact ⟨[], List.nil_subset _, by simp [Undoing.step, hrefuses]⟩
    | false =>
      have hundone : undone refuses entry = true := by simp [undone, hcompensator, hrefuses]
      refine ⟨[entry.entity], ?_, by simp [Undoing.step, hrefuses]⟩
      simp [takenAway, hundone]
  deletes := by
    intro e he
    obtain he | he := List.mem_append.mp he
    · exact .inl (h.mem_finished he)
    · exact .inr (.inr (congrArg some (List.mem_singleton.mp he).symm))

theorem CutOff.mark {s : Undoing} {finished later : List LedgerEntry}
    (h : CutOff refuses upstream ledger s finished later) (entry : LedgerEntry) :
    CutOff refuses upstream ledger (s.step refuses (.mark entry)) finished later :=
  ⟨h.order, h.file, h.upstream, h.deletes⟩

/-- What the steps of an entry are cut off to. -/
theorem undoEntry_cutOff {entry : LedgerEntry} {part : List UndoStep} (h : part <+: undoEntry refuses entry)
    (hne : part ≠ undoEntry refuses entry) :
    part = [] ∨ hasCompensator entry.entityType = true ∧
      (part = [.delete entry] ∨ part = [.delete entry, .mark entry]) := by
  rw [undoEntry] at h hne
  cases hcompensator : hasCompensator entry.entityType with
  | false =>
    rw [hcompensator, Bool.not_false, if_pos rfl] at h hne
    have hleave : part <+: [] ++ [UndoStep.leave entry] := h
    exact .inl ((List.prefix_concat_iff.mp hleave).elim (absurd · hne) List.prefix_nil.mp)
  | true =>
    cases hrefuses : refuses entry.entity with
    | true =>
      simp only [hcompensator, hrefuses, Bool.not_true, Bool.false_eq_true, if_false, if_true] at h hne
      simp only [List.prefix_cons_iff, List.prefix_nil] at h
      aesop
    | false =>
      simp only [hcompensator, hrefuses, Bool.not_true, Bool.false_eq_true, if_false] at h hne
      simp only [List.prefix_cons_iff, List.prefix_nil] at h
      aesop

variable (upstream) in
/-- Wherever a rollback stops, it is cut off behind some entries. -/
theorem cutOff_of_prefix {done : List UndoStep} (h : done <+: rollbackSteps refuses ledger) :
    ∃ finished later, CutOff refuses upstream ledger
      (done.foldl (Undoing.step refuses) (.start upstream ledger)) finished later := by
  obtain rfl | ⟨finished, entry, rest, part, horder, rfl, hpart, hne⟩ := prefix_flatMap h
  · exact ⟨_, [], rolledBack_run.cutOff (List.append_nil _).symm⟩
  · have hfinished : RolledBack refuses (.start upstream ledger) finished
        ((finished.flatMap (undoEntry refuses)).foldl (Undoing.step refuses) (.start upstream ledger)) :=
      rolledBack_entries rfl rfl finished
    refine ⟨finished, entry :: rest, ?_⟩
    rw [List.foldl_append]
    generalize (finished.flatMap (undoEntry refuses)).foldl (Undoing.step refuses) (.start upstream ledger) =
      s at hfinished ⊢
    have hcut := hfinished.cutOff horder
    obtain rfl | ⟨hcompensator, rfl | rfl⟩ := undoEntry_cutOff hpart hne
    · exact hcut
    · exact hfinished.cutOff_deleting horder hcompensator
    · exact (hfinished.cutOff_deleting horder hcompensator).mark entry

/-- Two rollbacks come to the same. -/
structure SameEnd (whole other : Undoing) : Prop where
  upstream : other.upstream = whole.upstream
  file : other.file = whole.file
  residue : other.residue = whole.residue

variable (refuses) in
/-- A rollback resumed where another stopped comes to what that one would have come to, and sends no delete
again but those that were refused or whose answer was not written down. -/
structure Resumes (whole stopped resumed : Undoing) : Prop extends SameEnd whole resumed where
  pending : ∀ entry ∈ resumed.deletes, entry ∈ stopped.file.entries ∧ entry.compensated = false
  again : ∀ entry ∈ resumed.deletes, entry ∈ stopped.deletes →
    refuses entry.entity = true ∨ stopped.inFlight = some entry

section Resumed

variable {s : Undoing} {finished later : List LedgerEntry} (h : CutOff refuses upstream ledger s finished later)
  (hnumbered : ledger.Numbered)

include h hnumbered

/-- An entry that was finished is not to come. -/
theorem CutOff.disjoint {entry entry' : LedgerEntry} (hfinished : entry ∈ finished) (hlater : entry' ∈ later) :
    entry.sequence ≠ entry'.sequence := by
  have hnodup := hnumbered.nodup_order
  rw [h.order, List.map_append, List.nodup_append] at hnodup
  exact hnodup.2.2 _ (List.mem_map_of_mem hfinished) _ (List.mem_map_of_mem hlater)

/-- What is left of a rollback that was cut off: what it had to leave, and what it had not come to. -/
theorem CutOff.order_file :
    s.file.compensationOrder = (finished.filter fun e => !undone refuses e) ++ later := by
  have hentry : ∀ e ∈ finished, e ∈ ledger.entries := by
    intro e he
    exact (RollbackLedger.mem_compensationOrder.mp (h.order ▸ List.mem_append_left later he)).1
  rw [h.file, hnumbered.order_marked, h.order, List.filter_append]
  congr 1
  · refine List.filter_congr fun e he => ?_
    rw [Bool.eq_iff_iff, decide_eq_true_iff, Bool.not_eq_true']
    constructor
    · intro hnot
      by_contra hundone
      rw [Bool.not_eq_false] at hundone
      exact hnot (List.mem_map_of_mem (List.mem_filter.mpr ⟨he, hundone⟩))
    · intro hundone hmem
      obtain ⟨e', he', hsame⟩ := List.mem_map.mp hmem
      obtain ⟨hfinished, hundone'⟩ := List.mem_filter.mp he'
      rw [hnumbered.eq (hentry e' hfinished) (hentry e he) hsame, hundone] at hundone'
      exact absurd hundone' (by decide)
  · refine List.filter_eq_self.mpr fun e he => decide_eq_true fun hmem => ?_
    obtain ⟨e', he', hsame⟩ := List.mem_map.mp hmem
    exact h.disjoint hnumbered (List.mem_of_mem_filter he') he hsame

theorem CutOff.resumed :
    Resumes refuses (runRollback refuses upstream ledger) s (runRollback refuses s.upstream s.file) := by
  have hwhole : RolledBack refuses (.start upstream ledger) ledger.compensationOrder
    (runRollback refuses upstream ledger) := rolledBack_run
  have hagain : RolledBack refuses (.start s.upstream s.file) s.file.compensationOrder
    (runRollback refuses s.upstream s.file) := rolledBack_run
  rw [h.order] at hwhole
  rw [h.order_file hnumbered] at hagain
  have hleft : (finished.filter fun e => !undone refuses e).filter (undone refuses) = [] := by
    simp [List.filter_filter]
  refine ⟨⟨?_, ?_, ?_⟩, ?_, ?_⟩
  · obtain ⟨gone, hgone, hupstream⟩ := h.upstream
    rw [hagain.upstream, hwhole.upstream, Undoing.start, hupstream, List.filter_filter, List.filter_filter]
    refine List.filter_congr fun e _ => ?_
    have := @hgone e
    simp only [takenAway, List.filter_append, List.map_append, hleft] at this ⊢
    grind
  · rw [hagain.file, hagain.ledger, hwhole.file, hwhole.ledger]
    change s.file.marked _ = ledger.marked _
    rw [h.file, RollbackLedger.marked_marked, List.filter_append, List.filter_append, hleft,
      List.nil_append, List.map_append]
  · rw [hagain.residue, hwhole.residue, List.filter_append, List.filter_append, List.filter_filter]
    simp only [Bool.and_self]
    rfl
  · intro entry hentry
    have hpending := hagain.mem_finished hentry
    rw [← h.order_file hnumbered] at hpending
    exact RollbackLedger.mem_compensationOrder.mp hpending
  · intro entry hentry hsent
    obtain hfinished | hrest := h.deletes entry hsent
    · rw [hagain.deletes] at hentry
      obtain ⟨hmem, hcompensator⟩ := List.mem_filter.mp hentry
      obtain hmem | hmem := List.mem_append.mp hmem
      · refine .inl ?_
        have hleave := (List.mem_filter.mp hmem).2
        simpa [undone, hcompensator] using hleave
      · exact absurd rfl (h.disjoint hnumbered hfinished hmem)
    · exact hrest

end Resumed

variable (refuses) in
/-- A rollback is interrupted: the next one finds what is left upstream and the ledger file. -/
def Interrupts (before after : List CreatedEntity × RollbackLedger) : Prop :=
  ∃ done, done <+: rollbackSteps refuses before.2 ∧
    let stopped := done.foldl (Undoing.step refuses) (.start before.1 before.2)
    after = (stopped.upstream, stopped.file)

theorem numbered_marked (h : ledger.Numbered) (sequences : List ℕ) : (ledger.marked sequences).Numbered := by
  have hsequences : (ledger.marked sequences).entries.map LedgerEntry.sequence =
      ledger.entries.map LedgerEntry.sequence := by
    rw [RollbackLedger.marked, List.map_map]
    refine List.map_congr_left fun e _ => ?_
    rw [Function.comp_apply]
    split <;> rfl
  rw [RollbackLedger.Numbered, hsequences]
  exact h

/-- However often a rollback is interrupted, the next one comes to what the first would have come to. -/
theorem sameEnd_of_interrupted {before after : List CreatedEntity × RollbackLedger}
    (h : Relation.ReflTransGen (Interrupts refuses) before after) (hnumbered : before.2.Numbered) :
    after.2.Numbered ∧
      SameEnd (runRollback refuses before.1 before.2) (runRollback refuses after.1 after.2) := by
  induction h with
  | refl => exact ⟨hnumbered, rfl, rfl, rfl⟩
  | @tail last after _ hstop ih =>
    obtain ⟨hnumbered, hend⟩ := ih
    obtain ⟨done, hdone, rfl⟩ := hstop
    obtain ⟨finished, later, hcut⟩ := cutOff_of_prefix last.1 hdone
    have hresumed := hcut.resumed hnumbered
    refine ⟨hcut.file ▸ numbered_marked hnumbered _, ?_⟩
    exact ⟨hresumed.upstream.trans hend.upstream, hresumed.file.trans hend.file,
      hresumed.residue.trans hend.residue⟩

variable (refuses) in
/-- The rollback from a ledger file deletes every entity in it that the destination lets go, and can be
interrupted anywhere, as often as it may be, and resumed. -/
structure Recovers (upstream : List CreatedEntity) (file : RollbackLedger) : Prop where
  deletes : ∀ e ∈ file.entities, hasCompensator e.1 = true → refuses e = false →
    e ∉ (runRollback refuses upstream file).upstream
  resumes : ∀ before, Relation.ReflTransGen (Interrupts refuses) (upstream, file) before →
    ∀ done, done <+: rollbackSteps refuses before.2 →
      let stopped := done.foldl (Undoing.step refuses) (.start before.1 before.2)
      Resumes refuses (runRollback refuses upstream file) stopped
        (runRollback refuses stopped.upstream stopped.file)

/-- The entries are numbered by their places, and none is compensated. -/
structure RollbackLedger.Kept (ledger : RollbackLedger) : Prop where
  sequences : ledger.entries.map LedgerEntry.sequence = List.range ledger.entries.length
  pending : ∀ entry ∈ ledger.entries, entry.compensated = false

theorem RollbackLedger.Kept.recovers (h : ledger.Kept) (refuses : CreatedEntity → Bool)
    (upstream : List CreatedEntity) : Recovers refuses upstream ledger := by
  have hnumbered : ledger.Numbered := by
    rw [RollbackLedger.Numbered, h.sequences]
    exact List.nodup_range
  constructor
  · intro e he hcompensator hlet hleft
    obtain ⟨entry, hentry, rfl⟩ := List.mem_map.mp he
    rw [rolledBack_run.upstream] at hleft
    refine of_decide_eq_true (List.mem_filter.mp hleft).2 (List.mem_map_of_mem (List.mem_filter.mpr ⟨?_, ?_⟩))
    · exact RollbackLedger.mem_compensationOrder.mpr ⟨hentry, h.pending entry hentry⟩
    · have hcompensator : hasCompensator entry.entityType = true := hcompensator
      rw [undone, hcompensator, hlet]
      rfl
  · intro before hbefore done hdone
    obtain ⟨hlast, hend⟩ := sameEnd_of_interrupted hbefore hnumbered
    obtain ⟨finished, later, hcut⟩ := cutOff_of_prefix before.1 hdone
    have hresumed := hcut.resumed hlast
    exact ⟨⟨hresumed.upstream.trans hend.upstream, hresumed.file.trans hend.file,
      hresumed.residue.trans hend.residue⟩, hresumed.pending, hresumed.again⟩

end Rollback

/-! ## The restore -/

theorem kept_recordCreated {ledger : RollbackLedger} (h : ledger.Kept) (entityType : EntityType) (id : ℤ)
    (label : String) : (ledger.recordCreated entityType id label).Kept := by
  constructor
  · rw [RollbackLedger.recordCreated, List.map_append, h.sequences, List.length_append, List.length_singleton,
      List.range_succ]
    rfl
  · intro entry hentry
    obtain hentry | hentry := List.mem_append.mp hentry
    · exact h.pending entry hentry
    · rw [List.mem_singleton.mp hentry]

theorem kept_step {s : Applying} (h : s.ledger.Kept ∧ s.file.Kept) (step : ApplyStep) :
    (s.step step).ledger.Kept ∧ (s.step step).file.Kept := by
  cases step with
  | call made => exact h
  | record entityType id label => exact ⟨kept_recordCreated h.1 entityType id label, h.2⟩
  | persist => exact ⟨h.1, h.1⟩

theorem kept_steps {s : Applying} (h : s.ledger.Kept ∧ s.file.Kept) (done : List ApplyStep) :
    (done.foldl Applying.step s).ledger.Kept ∧ (done.foldl Applying.step s).file.Kept := by
  induction done generalizing s with
  | nil => exact h
  | cons step done ih => exact ih (kept_step h step)

/-- Wherever the apply crashes, the ledger file has everything created but for what was in flight, and
the rollback from it deletes that, if and only if the creates of every importer it came to were
sheltered. -/
theorem survives_iff (nonFatal : List EntityType) (steps : List ImporterStep)
    (hfresh : ((carriedOut nonFatal steps).flatMap fun step => madeBy step.calls).Nodup) :
    (∀ done, done <+: orderedApply nonFatal steps →
      let crashed := done.foldl Applying.step .start
      crashed.Covered ∧ ∀ refuses upstream, Recovers refuses upstream crashed.file) ↔
    ∀ step ∈ carriedOut nonFatal steps, step.Sheltered := by
  have hempty : RollbackLedger.empty.Kept := ⟨rfl, fun _ hentry => absurd hentry List.not_mem_nil⟩
  have hwritten : Applying.start.Written := ⟨rfl, fun e => iff_of_false List.not_mem_nil List.not_mem_nil⟩
  rw [← everyPoint_apply hwritten hfresh, everyPoint_iff]
  refine forall₂_congr fun done _ => and_iff_left fun refuses upstream => ?_
  exact (kept_steps ⟨hempty, hempty⟩ done).2.recovers refuses upstream

namespace CrashRuns

/-- An importer that lists what there is and creates two entities. -/
def importing (entityType : EntityType) : ImporterStep where
  entityType
  calls := [.other, .create entityType "first" (.created 1 true), .create entityType "second" (.created 2 true)]
  raised := false
  failed := false

/-- An apply of that importer alone, crashed after some steps. -/
def crashed (entityType : EntityType) (steps : ℕ) : Applying :=
  ((orderedApply [] [importing entityType]).take steps).foldl Applying.step .start

theorem survives_users : (crashed .user 5).created = [(.user, 1), (.user, 2)] ∧ (crashed .user 5).Covered ∧
    Recovers (fun _ => false) [(.user, 1), (.user, 2)] (crashed .user 5).file := by
  have hsheltered : ∀ step ∈ carriedOut [] [importing .user], step.Sheltered := by
    intro step hstep
    rw [List.mem_singleton.mp hstep]
    exact ⟨fun hmade => absurd hmade (by decide), fun _ => ⟨rfl, .inl rfl⟩, fun _ => ⟨rfl, .inl rfl⟩, trivial⟩
  have hcrash := (survives_iff [] [importing .user] (by decide)).mpr hsheltered _
    (List.take_prefix 5 (orderedApply [] [importing .user]))
  exact ⟨rfl, hcrash.1, hcrash.2 _ _⟩

/-- The first group is not in the ledger file when the second is created. -/
theorem lost_groups : ¬∀ done, done <+: orderedApply [] [importing .channelGroup] →
    (done.foldl Applying.step .start).Covered := by
  intro h
  have hcrash := h _ (List.take_prefix 4 _) (.channelGroup, 1) (by decide)
  exact absurd hcrash (by decide)

end CrashRuns

end ChannelManager.Dbas
