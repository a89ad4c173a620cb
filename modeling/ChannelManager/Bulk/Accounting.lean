import ChannelManager.Bulk.Books
import ChannelManager.Bulk.Commit
import ChannelManager.Bulk.Dispatcharr

/-!
# The accounting of a bulk commit

What closing an operation does to the books, and the audit of the finished envelope: it finds
nothing, whatever the upstream calls do.
-/

namespace ChannelManager

variable {σ : Type}

/-- Every operation opened in a trace is closed exactly once, before anything else happens. -/
inductive Paired : List RunEvent → Prop
  | nil : Paired []
  | groupCreated {t : List RunEvent} : Paired t → Paired (t ++ [.groupCreated])
  | setupFailed {t : List RunEvent} : Paired t → Paired (t ++ [.setupFailed])
  | applied {t : List RunEvent} : Paired t → Paired (t ++ [.opened, .applied])
  | appliedIncomplete {t : List RunEvent} : Paired t → Paired (t ++ [.opened, .appliedIncomplete])
  | failed {t : List RunEvent} (sideEffectsLanded : Bool) :
      Paired t → Paired (t ++ [.opened, .failed sideEffectsLanded])

/-- The event an error entry reports: an operation that failed or was left incomplete, or a step
outside the operations. -/
def ErrorEntry.event (entry : ErrorEntry) : RunEvent :=
  if entry.applied then .appliedIncomplete
  else if entry.operationType.isNone then .setupFailed
  else .failed entry.sideEffectsLanded

/-- The events that leave an error entry. -/
def RunEvent.leavesEntry : RunEvent → Bool
  | .setupFailed | .appliedIncomplete | .failed _ => true
  | .groupCreated | .opened | .applied => false

/-- The books between two steps of a run: every error entry and every event is accounted for. -/
structure Balanced (a : Account) : Prop where
  closed : a.ledger.isOpen = false
  started : a.executionStarted = true
  paired : Paired a.trace
  entries : a.errors.map ErrorEntry.event = a.trace.filter RunEvent.leavesEntry
  unapplied : (a.errors.filter (!·.applied)).length = a.ledger.failed + a.ledger.setupFailures
  applied : (a.errors.filter (·.applied)).length = a.ledger.incomplete
  marked : (a.errors.filter (·.sideEffectsLanded)).length = a.ledger.partiallyApplied
  normalization : ∀ entry ∈ a.normalizationFailures, entry.tempId ∈ a.ledger.appliedCreateTempIds
  opened : a.trace.count .opened = a.ledger.applied + a.ledger.failed
  tracedApplied : a.trace.count .applied + a.trace.count .appliedIncomplete = a.ledger.applied
  tracedIncomplete : a.trace.count .appliedIncomplete = a.ledger.incomplete
  tracedFailed :
    a.trace.count (.failed true) + a.trace.count (.failed false) = a.ledger.failed
  tracedPartial : a.trace.count (.failed true) = a.ledger.partiallyApplied
  tracedSetup : a.trace.count .setupFailed = a.ledger.setupFailures
  grouped : .groupCreated ∈ a.trace → 0 < a.writes
  landed : 0 < a.writes →
    .groupCreated ∈ a.trace ∨ 0 < a.ledger.applied ∨ 0 < a.ledger.partiallyApplied
  numbered : a.numbered = true → 0 < a.ledger.applied

theorem Within.recordApplied_eq {start now : Account} (h : Within start now)
    (htold : now.ledger.told = true) (incomplete : Bool) :
    now.ledger.recordApplied incomplete = .ok { start.ledger with
      isOpen := false
      journalRows := now.ledger.journalRows
      persisted := now.ledger.persisted
      sideEffects := 0
      appliedWithoutWriting := false
      applied := start.ledger.applied + 1
      incomplete := start.ledger.incomplete + if incomplete then 1 else 0
      appliedCreateTempIds :=
        start.ledger.appliedCreateTempIds ++ now.ledger.pendingCreateTempId.toList
      pendingCreateTempId := none } := by
  have hopen : now.ledger.isOpen = true := by
    rw [h.ledger]
    exact h.isOpen
  rw [OperationLedger.recordApplied, if_pos htold, OperationLedger.close, if_pos hopen]
  rw [h.ledger]
  rfl

theorem Within.recordFailed_eq {start now : Account} (h : Within start now) :
    now.ledger.recordFailed = .ok { start.ledger with
      isOpen := false
      journalRows := now.ledger.journalRows
      persisted := now.ledger.persisted
      sideEffects := 0
      appliedWithoutWriting := false
      failed := start.ledger.failed + 1
      partiallyApplied :=
        start.ledger.partiallyApplied + if now.ledger.sideEffectsLanded then 1 else 0
      pendingCreateTempId := none } := by
  have hopen : now.ledger.isOpen = true := by
    rw [h.ledger]
    exact h.isOpen
  rw [OperationLedger.recordFailed, OperationLedger.close, if_pos hopen]
  rw [h.ledger]
  rfl

/-- The books with an operation just opened. -/
def openedOn (a : Account) : Account :=
  { a with
    ledger := { a.ledger with
      isOpen := true
      persisted := false
      sideEffects := 0
      appliedWithoutWriting := false
      pendingCreateTempId := none }
    trace := a.trace ++ [.opened] }

theorem unwritten_openedOn (a : Account) : Unwritten (openedOn a) (openedOn a) where
  isOpen := rfl
  ledger := rfl
  errors := rfl
  trace := rfl
  started := rfl
  normalization := fun _ h => .inl h
  writes_le := le_refl _
  wrote := fun h => absurd rfl h
  numbered := .inl
  persisted := rfl
  noFailures := rfl

/-- A group created before the operation landed before it. -/
theorem Balanced.grouped_later {a now : Account} (h : Balanced a) (hnow : Opened (openedOn a) now)
    (hgroup : .groupCreated ∈ now.trace) : 0 < now.writes := by
  rw [hnow.trace] at hgroup
  have hbefore : .groupCreated ∈ a.trace := by simpa [openedOn] using hgroup
  exact Nat.lt_of_lt_of_le (h.grouped hbefore) hnow.writes_le

/-- Closing an operation as applied balances the books. -/
theorem Balanced.applied_closed {a now : Account} (h : Balanced a) (hnow : Within (openedOn a) now)
    (ledger : OperationLedger) (hledger : now.ledger.recordApplied = .ok ledger)
    (htold : now.ledger.told = true) :
    Balanced { now with ledger := ledger, trace := now.trace ++ [.applied] } := by
  rw [hnow.recordApplied_eq htold, Except.ok.injEq] at hledger
  subst hledger
  have hopened := h.opened
  have htraced := h.tracedApplied
  constructor
  · rfl
  · exact hnow.started.trans h.started
  · rw [hnow.trace]
    simpa [openedOn] using h.paired.applied
  · rw [hnow.errors, hnow.trace]
    simpa [openedOn, RunEvent.leavesEntry] using h.entries
  · rw [hnow.errors]; exact h.unapplied
  · rw [hnow.errors]; exact h.applied
  · rw [hnow.errors]; exact h.marked
  · intro entry hentry
    rcases hnow.normalization entry hentry with hold | hnew
    · exact List.mem_append_left _ (h.normalization entry hold)
    · exact List.mem_append_right _ (by simp [hnew.2])
  case grouped =>
    intro hgroup
    have hwrote : 0 < now.writes := h.grouped_later hnow.toOpened (by simpa using hgroup)
    exact hwrote
  case landed => exact fun _ => .inr (.inl (Nat.succ_pos _))
  case numbered => exact fun _ => Nat.succ_pos _
  all_goals rw [hnow.trace]
  all_goals simp only [openedOn, List.count_append, List.count_singleton, reduceCtorEq, beq_iff_eq,
    if_true, if_false, BEq.rfl, Nat.add_zero]
  · omega
  · omega
  · exact h.tracedIncomplete
  · exact h.tracedFailed
  · exact h.tracedPartial
  · exact h.tracedSetup

/-- So does closing it as applied but incomplete, with its entry. -/
theorem Balanced.incomplete_closed {a now : Account} (h : Balanced a)
    (hnow : Within (openedOn a) now) (ledger : OperationLedger)
    (hledger : now.ledger.recordApplied true = .ok ledger) (htold : now.ledger.told = true)
    (entry : ErrorEntry) (happlied : entry.applied = true)
    (hmarked : entry.sideEffectsLanded = false) :
    Balanced { now with
      ledger := ledger
      trace := now.trace ++ [.appliedIncomplete]
      errors := now.errors ++ [entry] } := by
  rw [hnow.recordApplied_eq htold, Except.ok.injEq] at hledger
  subst hledger
  have hopened := h.opened
  have htraced := h.tracedApplied
  have hincomplete := h.tracedIncomplete
  have hentries := h.applied
  constructor
  · rfl
  · exact hnow.started.trans h.started
  · rw [hnow.trace]
    simpa [openedOn] using h.paired.appliedIncomplete
  · rw [hnow.errors, hnow.trace]
    simp [openedOn, RunEvent.leavesEntry, ErrorEntry.event, happlied, h.entries, List.filter_cons]
  · rw [hnow.errors]
    simpa [openedOn, happlied] using h.unapplied
  · rw [hnow.errors]
    simpa [openedOn, happlied] using hentries
  · rw [hnow.errors]
    simpa [openedOn, hmarked] using h.marked
  · intro failure hfailure
    rcases hnow.normalization failure hfailure with hold | hnew
    · exact List.mem_append_left _ (h.normalization failure hold)
    · exact List.mem_append_right _ (by simp [hnew.2])
  case grouped =>
    intro hgroup
    have hwrote : 0 < now.writes := h.grouped_later hnow.toOpened (by simpa using hgroup)
    exact hwrote
  case landed => exact fun _ => .inr (.inl (Nat.succ_pos _))
  case numbered => exact fun _ => Nat.succ_pos _
  all_goals rw [hnow.trace]
  all_goals simp only [openedOn, List.count_append, List.count_singleton, reduceCtorEq, beq_iff_eq,
    if_true, if_false, BEq.rfl, Nat.add_zero]
  · omega
  · omega
  · omega
  · exact h.tracedFailed
  · exact h.tracedPartial
  · exact h.tracedSetup

/-- And closing it as failed; its entry says whether writes of its own had landed. -/
theorem Balanced.failed_closed {a now : Account} (h : Balanced a) (hnow : Within (openedOn a) now)
    (ledger : OperationLedger) (hledger : now.ledger.recordFailed = .ok ledger)
    (hpersisted : now.ledger.persisted = false) (entry : ErrorEntry)
    (happlied : entry.applied = false) (htype : entry.operationType.isSome)
    (hmarked : entry.sideEffectsLanded = now.ledger.sideEffectsLanded) :
    Balanced { now with
      ledger := ledger
      trace := now.trace ++ [.failed now.ledger.sideEffectsLanded]
      errors := now.errors ++ [entry] } := by
  rw [hnow.recordFailed_eq, Except.ok.injEq] at hledger
  subst hledger
  have hopened := h.opened
  have hunapplied := h.unapplied
  have htraced := h.tracedFailed
  have hpart := h.tracedPartial
  have hmarks := h.marked
  constructor
  · rfl
  · exact hnow.started.trans h.started
  · rw [hnow.trace]
    simpa [openedOn] using h.paired.failed now.ledger.sideEffectsLanded
  · have hnone : entry.operationType.isNone = false := by
      cases hop : entry.operationType with
      | none => rw [hop] at htype; cases htype
      | some _ => rfl
    rw [hnow.errors, hnow.trace]
    simp [openedOn, RunEvent.leavesEntry, ErrorEntry.event, happlied, hnone, hmarked, h.entries,
      List.filter_cons]
  · rw [hnow.errors]
    simp only [openedOn, List.filter_append, List.length_append, List.filter_cons, happlied,
      Bool.not_false, if_true, List.filter_nil, List.length_singleton]
    omega
  · rw [hnow.errors]
    simpa [openedOn, happlied] using h.applied
  · rw [hnow.errors]
    cases hside : now.ledger.sideEffectsLanded <;>
      simpa [openedOn, hmarked, hside] using hmarks
  · intro failure hfailure
    rcases hnow.normalization failure hfailure with hold | hnew
    · exact h.normalization failure hold
    · rw [hpersisted] at hnew
      cases hnew.1
  case grouped =>
    intro hgroup
    have hwrote : 0 < now.writes := h.grouped_later hnow.toOpened (by simpa using hgroup)
    exact hwrote
  case landed =>
    intro hwrites
    by_cases hsame : now.writes = (openedOn a).writes
    · rw [show now.writes = a.writes from hsame] at hwrites
      rw [hnow.trace]
      rcases h.landed hwrites with hgroup | happ | hpart
      · exact .inl (by simp [openedOn, hgroup])
      · exact .inr (.inl happ)
      · exact .inr (.inr (Nat.lt_of_lt_of_le hpart (Nat.le_add_right _ _)))
    · rcases hnow.wrote hsame with hp | hside
      · rw [hpersisted] at hp
        cases hp
      · have hlanded : now.ledger.sideEffectsLanded = true := decide_eq_true hside
        exact .inr (.inr (by simp [hlanded]))
  case numbered =>
    intro hnumbered
    rcases hnow.numbered hnumbered with hbefore | hp
    · exact h.numbered hbefore
    · rw [hpersisted] at hp
      cases hp
  all_goals rw [hnow.trace]
  all_goals cases hside : now.ledger.sideEffectsLanded
  all_goals simp only [openedOn, List.count_append, List.count_singleton, reduceCtorEq, beq_iff_eq,
    if_true, if_false, BEq.rfl, Nat.add_zero, RunEvent.failed.injEq, Bool.true_eq_false,
    Bool.false_eq_true]
  all_goals first
    | omega
    | exact h.tracedApplied
    | exact h.tracedIncomplete
    | exact h.tracedSetup

def Account.attempted (a : Account) : ℕ := a.ledger.applied + a.ledger.failed

/-- One operation later. -/
structure Attempted (a a' : Account) : Prop extends Balanced a' where
  total : a'.ledger.totalOperations = a.ledger.totalOperations
  aborted : a'.ledger.aborted = a.ledger.aborted
  attempted : a'.attempted = a.attempted + 1

theorem Within.told_of_persisted {start now : Account} (_h : Within start now)
    (hpersisted : now.ledger.persisted = true) : now.ledger.told = true := by
  simp [OperationLedger.told, hpersisted]

theorem landed_foldl_recordFailed (s : Exec σ) (intended : List (ℤ × Option ℚ))
    (compensator : NumberingCompensator) :
    (intended.foldl (fun compensator e => compensator.recordFailed e.1 (s.channelNameOf e.1) e.2)
      compensator).landed = compensator.landed := by
  induction intended generalizing compensator with
  | nil => rfl
  | cons e intended ih =>
    rw [List.foldl_cons, ih]
    rfl

theorem wp_closeRaised (ctx : BulkContext σ) (e : IndexedOp) (error : String) {a : Account}
    (h : Balanced a) {s : Exec σ} (hs : Within (openedOn a) s.account) :
    (closeRaised ctx e error).wp (fun _ s' => Attempted a s'.account) (fun _ _ => False) s := by
  have hnoted : (noteUnwrittenNumbers e.2 s).account = s.account := by
    unfold noteUnwrittenNumbers
    split
    · rfl
    · simp [Exec.account, landed_foldl_recordFailed]
  have hnow : Within (openedOn a) (noteUnwrittenNumbers e.2 s).account := by
    rw [hnoted]
    exact hs
  unfold closeRaised
  rw [Eff.wp_bind, Eff.wp_modify, Eff.wp_bind, Eff.wp_get]
  generalize noteUnwrittenNumbers e.2 s = s' at hnow
  split
  · rename_i hpersisted
    have htold := hnow.told_of_persisted hpersisted
    have hledger := hnow.recordApplied_eq htold true
    rw [Eff.wp_bind, Eff.wp_tellLedger, show s'.ledger.recordApplied true = _ from hledger]
    exact
      { h.incomplete_closed hnow _ hledger htold _ rfl rfl with
        total := rfl
        aborted := rfl
        attempted := by
          simp only [Exec.account, addError, openedOn, Account.attempted]
          omega }
  · rename_i hpersisted
    have hfalse : s'.account.ledger.persisted = false := Bool.eq_false_iff.mpr hpersisted
    have hledger := hnow.recordFailed_eq
    rw [Eff.wp_bind, Eff.wp_tellLedger, show s'.ledger.recordFailed = _ from hledger]
    exact
      { h.failed_closed hnow _ hledger hfalse _ rfl rfl rfl with
        total := rfl
        aborted := rfl
        attempted := by
          simp only [Exec.account, addError, openedOn, Account.attempted]
          omega }

/-- One iteration of the loop never raises, closes the operation once, and goes on unless it
stops the run. -/
theorem wp_attemptOperation (ctx : BulkContext σ) (e : IndexedOp) {s : Exec σ}
    (h : Balanced s.account) :
    (attemptOperation ctx e).wp
      (fun goOn s' =>
        if goOn then Attempted s.account s'.account
        else Balanced s'.account ∧ s'.ledger.aborted = true ∧
          s'.ledger.totalOperations = s.ledger.totalOperations ∧
          s'.account.attempted = s.account.attempted + 1)
      (fun _ _ => False) s := by
  have hbegin : s.ledger.begin = .ok (openedOn s.account).ledger := by
    have hclosed : s.ledger.isOpen = false := h.closed
    simp only [OperationLedger.begin, hclosed, Bool.false_eq_true, if_false]
    rfl
  unfold attemptOperation
  rw [Eff.wp_bind, Eff.wp_modify, Eff.wp_bind, Eff.wp_tellLedger]
  rw [show ({ s with numberingLanded := false } : Exec σ).ledger.begin = _ from hbegin]
  dsimp only
  rw [Eff.wp_bind, Eff.wp_note, Eff.wp_tryCatch, Eff.wp_bind]
  have hbranch : Branch (openedOn s.account) (executeOperation ctx e.2) :=
    branch_executeOperation ctx e.2
  have hbody := hbranch
    { s with
      numberingLanded := false
      ledger := (openedOn s.account).ledger
      trace := s.trace ++ [.opened] } (unwritten_openedOn s.account)
  apply Eff.wp_mono hbody
  · intro _ s' hs'
    have hledger := hs'.recordApplied_eq hs'.told false
    rw [Eff.wp_bind, Eff.wp_tellLedger, show s'.ledger.recordApplied = _ from hledger]
    exact
      { h.applied_closed hs'.toWithin _ hledger hs'.told with
        total := rfl
        aborted := rfl
        attempted := by
          simp only [Exec.account, logApplied, openedOn, Account.attempted]
          omega }
  · intro error s' hs'
    unfold handleFailure
    rw [Eff.wp_bind]
    apply Eff.wp_mono (wp_closeRaised ctx e error h hs') _ (fun _ _ hf => hf)
    intro _ s'' hs''
    cases hgo : ctx.continueOnError with
    | true => exact hs''
    | false =>
      exact ⟨{ hs''.toBalanced with }, rfl, hs''.total, hs''.attempted⟩

/-- The books of a run that has gone through its operations, or given up on the way. -/
structure Consistent (submitted : ℕ) (a : Account) : Prop extends Balanced a where
  total : a.ledger.totalOperations = submitted
  attempted_le : a.attempted ≤ submitted
  attempted_all : a.ledger.aborted = false → a.attempted = submitted

/-- The books before the first operation. -/
structure Untouched (submitted : ℕ) (a : Account) : Prop extends Balanced a where
  total : a.ledger.totalOperations = submitted
  attempted : a.attempted = 0
  aborted : a.ledger.aborted = false

theorem wp_processOperations (ctx : BulkContext σ) (operations : List BulkOperation) {s : Exec σ}
    (h : Untouched operations.length s.account) :
    (processOperations ctx operations).wp
      (fun _ s' => Consistent operations.length s'.account) (fun _ _ => False) s := by
  unfold processOperations
  rw [Eff.wp_bind, Eff.wp_get]
  have hloop := @Eff.wp_eachUntil _ _ (attemptOperation ctx) (fun _ _ => False)
    (fun rest s' => Balanced s'.account ∧
      s'.ledger.totalOperations = operations.length ∧ s'.ledger.aborted = false ∧
      s'.account.attempted + rest.length = operations.length)
    (fun s' => Balanced s'.account ∧ s'.ledger.aborted = true ∧
      s'.ledger.totalOperations = operations.length ∧ s'.account.attempted ≤ operations.length)
    (numberingExecutionOrder operations s.existingChannels)
  apply Eff.wp_mono (hloop _ s _) _ (fun _ _ hf => hf)
  · intro e rest s' hs'
    have hlen : s'.account.attempted + (rest.length + 1) = operations.length := hs'.2.2.2
    apply Eff.wp_mono (wp_attemptOperation ctx e hs'.1) _ (fun _ _ hf => hf)
    intro goOn s'' hs''
    cases goOn with
    | true =>
      have hstep : Attempted s'.account s''.account := hs''
      have hcount := hstep.attempted
      refine ⟨hstep.toBalanced, hstep.total.trans hs'.2.1, hstep.aborted.trans hs'.2.2.1, ?_⟩
      omega
    | false =>
      have hcount := hs''.2.2.2
      refine ⟨hs''.1, hs''.2.1, hs''.2.2.1.trans hs'.2.1, ?_⟩
      omega
  · have hcount := h.attempted
    refine ⟨h.toBalanced, h.total, h.aborted, ?_⟩
    rw [length_numberingExecutionOrder]
    omega
  · intro _ s' hs'
    rcases hs' with hdone | hstopped
    · have hcount : s'.account.attempted + 0 = operations.length := hdone.2.2.2
      exact ⟨hdone.1, hdone.2.1, by omega, fun _ => by omega⟩
    · refine ⟨hstopped.1, hstopped.2.2.1, hstopped.2.2.2, fun hnot => ?_⟩
      rw [show s'.account.ledger.aborted = true from hstopped.2.1] at hnot
      cases hnot

/-- A failure outside the operations keeps the books balanced. -/
theorem Balanced.setup_failed {a : Account} (h : Balanced a) (entry : ErrorEntry)
    (happlied : entry.applied = false) (htype : entry.operationType = none)
    (hmarked : entry.sideEffectsLanded = false) (abortedRun : Bool) :
    Balanced { a with
      errors := a.errors ++ [entry]
      ledger := a.ledger.recordSetupFailure abortedRun
      trace := a.trace ++ [.setupFailed] } := by
  have hunapplied := h.unapplied
  have hsetup := h.tracedSetup
  constructor
  · exact h.closed
  · exact h.started
  · exact h.paired.setupFailed
  · simp [RunEvent.leavesEntry, ErrorEntry.event, happlied, htype, h.entries, List.filter_cons]
  · simp only [OperationLedger.recordSetupFailure, List.filter_append, List.length_append,
      List.filter_cons, happlied, Bool.not_false, if_true, List.filter_nil, List.length_singleton]
    omega
  · simpa [OperationLedger.recordSetupFailure, happlied] using h.applied
  · simpa [OperationLedger.recordSetupFailure, hmarked] using h.marked
  · exact h.normalization
  case grouped => exact fun hgroup => h.grouped (by simpa using hgroup)
  case landed => simpa [OperationLedger.recordSetupFailure] using h.landed
  case numbered => exact h.numbered
  all_goals simp only [OperationLedger.recordSetupFailure, List.count_append, List.count_singleton,
    reduceCtorEq, beq_iff_eq, if_true, if_false, BEq.rfl, Nat.add_zero]
  · exact h.opened
  · exact h.tracedApplied
  · exact h.tracedIncomplete
  · exact h.tracedFailed
  · exact h.tracedPartial
  · omega

theorem wp_setupFailure {entry : ErrorEntry} (happlied : entry.applied = false)
    (htype : entry.operationType = none) (hmarked : entry.sideEffectsLanded = false)
    (abortedRun : Bool) {submitted : ℕ} {s : Exec σ}
    (h : Consistent submitted s.account) :
    (setupFailure entry abortedRun).wp (fun _ s' => Consistent submitted s'.account)
      (fun _ _ => False) s := by
  unfold setupFailure
  rw [Eff.wp_bind, Eff.wp_modify, Eff.wp_bind, Eff.wp_modify, Eff.wp_note]
  exact
    { h.setup_failed entry happlied htype hmarked abortedRun with
      total := h.total
      attempted_le := h.attempted_le
      attempted_all := by
        intro hnot
        have haborted : s.ledger.aborted = false := (Bool.or_eq_false_iff.mp hnot).1
        exact h.attempted_all haborted }

/-- The journal queue is not part of the balance. -/
theorem Consistent.requeue {submitted : ℕ} {a : Account} (h : Consistent submitted a)
    (rows : List JournalRow) (sideEffects : ℕ) :
    Consistent submitted { a with
      ledger := { a.ledger with journalRows := rows, sideEffects := sideEffects } } :=
  { h with }

/-- A step that keeps the books consistent and never raises. -/
def Quiet {α : Type} (submitted : ℕ) (x : Eff (Exec σ) α) : Prop :=
  ∀ s : Exec σ, Consistent submitted s.account →
    x.wp (fun _ s' => Consistent submitted s'.account) (fun _ _ => False) s

/-- A compensating write puts back a number an applied operation wrote. -/
theorem Consistent.written_back {submitted : ℕ} {a : Account} (h : Consistent submitted a)
    (hnumbered : a.numbered = true) (rows : List JournalRow) (sideEffects : ℕ) :
    Consistent submitted { a with
      ledger := { a.ledger with journalRows := rows, sideEffects := sideEffects }
      writes := a.writes + 1 } :=
  { h with
    grouped := fun _ => Nat.succ_pos _
    landed := fun _ => .inr (.inl (h.numbered hnumbered)) }

theorem wp_writeBack (ctx : BulkContext σ) (steps : List NumberingWrite) {submitted : ℕ} :
    ∀ s : Exec σ, Consistent submitted s.account → s.account.numbered = true →
      (writeBack ctx steps).wp (fun _ s' => Consistent submitted s'.account) (fun _ _ => False)
        s := by
  induction steps with
  | nil => exact fun s h _ => h
  | cons step steps ih =>
    intro s h hnumbered
    rw [writeBack, Eff.wp_bind, Eff.wp_tryCatch, Eff.wp_bind, Eff.wp_write]
    split
    · rw [Eff.wp_pure, Eff.wp_bind, Eff.wp_recordWrite (JournalRowSpec.stated_singleton _),
        Eff.wp_bind, Eff.wp_modify]
      exact ih _ (h.written_back hnumbered _ _) hnumbered
    · rw [Eff.wp_pure, Eff.wp_bind]
      exact Eff.wp_mono (ih _ h hnumbered) (fun _ _ hs' => hs') (fun _ _ hf => hf)

theorem wp_compensate (ctx : BulkContext σ) {submitted : ℕ} {s : Exec σ}
    (h : Consistent submitted s.account) :
    (compensate ctx).wp (fun _ s' => Consistent submitted s'.account) (fun _ _ => False) s := by
  unfold compensate
  rw [Eff.wp_bind, Eff.wp_get]
  split
  · rename_i hhalf
    have hnumbered : s.account.numbered = true := by
      have hboth := Bool.and_eq_true_iff.mp hhalf
      exact hboth.1
    rw [Eff.wp_bind]
    apply Eff.wp_mono (wp_writeBack ctx _ s h hnumbered) _ (fun _ _ hf => hf)
    intro unrepaired s' hs'
    split
    · exact hs'
    · rw [Eff.wp_bind, Eff.wp_modify]
      exact wp_setupFailure rfl rfl rfl false hs'
  · exact h

section Journal

variable {submitted : ℕ}

theorem quiet_tried (call : Call σ Bool) :
    Quiet submitted (tryCatch (request call) (fun _ => pure false) : Eff (Exec σ) Bool) := by
  intro s h
  rw [Eff.wp_tryCatch, Eff.wp_request]
  split <;> exact h

theorem quiet_countUnwritten (ctx : BulkContext σ) (rows : List JournalRow) :
    Quiet submitted (countUnwritten ctx rows) := by
  induction rows with
  | nil => exact fun s h => h
  | cons row rows ih =>
    intro s h
    rw [countUnwritten, Eff.wp_bind]
    apply Eff.wp_mono (quiet_tried _ s h) _ (fun _ _ hf => hf)
    intro written s' hs'
    rw [Eff.wp_bind]
    exact Eff.wp_mono (ih s' hs') (fun _ _ h' => h') (fun _ _ hf => hf)

theorem quiet_writeJournalRows (ctx : BulkContext σ) (rows : List JournalRow) :
    Quiet submitted (writeJournalRows ctx rows) := by
  intro s h
  unfold writeJournalRows
  split
  · exact h
  · rw [Eff.wp_bind]
    apply Eff.wp_mono (quiet_tried _ s h) _ (fun _ _ hf => hf)
    intro written s' hs'
    split
    · exact hs'
    · exact quiet_countUnwritten ctx rows s' hs'

theorem wp_flushJournal (ctx : BulkContext σ) : Quiet submitted (flushJournal ctx) := by
  intro s h
  unfold flushJournal
  rw [Eff.wp_bind, Eff.wp_get]
  split
  · exact h
  · rw [Eff.wp_bind, Eff.wp_modify, Eff.wp_bind]
    apply Eff.wp_mono (quiet_writeJournalRows ctx _ _ (h.requeue [] s.ledger.sideEffects)) _
      (fun _ _ hf => hf)
    intro rowsUnwritten s' hs'
    rw [Eff.wp_bind]
    apply Eff.wp_mono (quiet_tried _ s' hs') _ (fun _ _ hf => hf)
    intro summary s'' hs''
    generalize (if summary then rowsUnwritten else rowsUnwritten + 1) = unwritten
    dsimp only
    split
    · exact hs''
    · rw [Eff.wp_bind, Eff.wp_modify]
      exact wp_setupFailure rfl rfl rfl false hs''

end Journal

/-- Consistent books pass the audit. -/
theorem violations_settled {submitted : ℕ} {result : Envelope} {ledger : OperationLedger}
    {trace : List RunEvent} {started numbered : Bool} {writes : ℕ}
    (h : Consistent submitted ⟨ledger, result.errors, result.normalizationFailures, trace, started,
      writes, numbered⟩) :
    bulkCommitAccountingViolations (settleEnvelope result ledger) ledger = [] := by
  have hunapplied : (result.errors.filter (!·.applied)).length =
      ledger.failed + ledger.setupFailures := h.unapplied
  have happlied : (result.errors.filter (·.applied)).length = ledger.incomplete := h.applied
  have hmarked : (result.errors.filter (·.sideEffectsLanded)).length = ledger.partiallyApplied :=
    h.marked
  have hpart : trace.count (.failed true) = ledger.partiallyApplied := h.tracedPartial
  have hfailed : trace.count (.failed true) + trace.count (.failed false) = ledger.failed :=
    h.tracedFailed
  have htotal : ledger.totalOperations = submitted := h.total
  have hle : ledger.applied + ledger.failed ≤ submitted := h.attempted_le
  have hall : ledger.aborted = false → ledger.applied + ledger.failed = submitted := h.attempted_all
  have hnorm : result.normalizationFailures.filter
      (fun entry => decide (entry.tempId ∉ ledger.appliedCreateTempIds)) = [] := by
    rw [List.filter_eq_nil_iff]
    intro entry hentry
    simpa using h.normalization entry hentry
  have hnot : ¬ledger.failed < ledger.partiallyApplied := by omega
  simp only [bulkCommitAccountingViolations, settleEnvelope, Envelope.unappliedErrors,
    Envelope.appliedErrors, Envelope.markedErrors, hunapplied, happlied, hmarked, hnorm,
    hnot, ne_eq, not_true_eq_false, if_false, List.append_nil, List.map_nil]
  cases haborted : ledger.aborted with
  | true =>
    simp only [htotal, if_true, if_neg (Nat.not_lt.mpr hle), List.nil_append]
    exact if_neg fun hdiffer => hdiffer rfl
  | false =>
    simp only [htotal, hall haborted, Bool.false_eq_true, if_false, not_true_eq_false,
      List.nil_append]
    exact if_neg fun hdiffer => hdiffer rfl

theorem wp_finalizeBulkCommitResult {submitted : ℕ} {s : Exec σ}
    (h : Consistent submitted s.account) :
    (finalizeBulkCommitResult : Eff (Exec σ) Unit).wp
      (fun _ s' => Consistent submitted s'.account ∧ s'.result = settleEnvelope s'.result s'.ledger)
      (fun _ _ => False) s := by
  unfold finalizeBulkCommitResult
  rw [Eff.wp_bind, Eff.wp_modify, Eff.wp_bind, Eff.wp_get]
  rw [if_pos (violations_settled h)]
  exact ⟨h, rfl⟩

/-- A settled envelope over consistent books. -/
def Settled (submitted : ℕ) (s : Exec σ) : Prop :=
  Consistent submitted s.account ∧ s.result = settleEnvelope s.result s.ledger

theorem wp_finish (ctx : BulkContext σ) {submitted : ℕ} {s : Exec σ}
    (h : Consistent submitted s.account) :
    (finish ctx).wp (fun _ s' => Settled submitted s') (fun _ _ => False) s := by
  unfold finish
  rw [Eff.wp_bind]
  exact Eff.wp_mono (wp_flushJournal ctx s h) (fun _ _ hs' => wp_finalizeBulkCommitResult hs')
    (fun _ _ hf => hf)

section Groups

variable {submitted : ℕ}

theorem Untouched.group_created {a : Account} (h : Untouched submitted a) (rows : List JournalRow)
    (sideEffects : ℕ) :
    Untouched submitted { a with
      ledger := { a.ledger with journalRows := rows, sideEffects := sideEffects }
      writes := a.writes + 1
      trace := a.trace ++ [.groupCreated] } := by
  have hcount : ∀ event, event ≠ .groupCreated →
      (a.trace ++ [RunEvent.groupCreated]).count event = a.trace.count event := by
    intro event hne
    simp [List.count_append, Ne.symm hne]
  exact
    { closed := h.closed
      started := h.started
      paired := h.paired.groupCreated
      entries := by simpa [RunEvent.leavesEntry] using h.entries
      unapplied := h.unapplied
      applied := h.applied
      marked := h.marked
      normalization := h.normalization
      opened := (hcount _ (by simp)).trans h.opened
      tracedApplied := by
        rw [hcount _ (by simp), hcount _ (by simp)]
        exact h.tracedApplied
      tracedIncomplete := (hcount _ (by simp)).trans h.tracedIncomplete
      tracedFailed := by
        rw [hcount _ (by simp), hcount _ (by simp)]
        exact h.tracedFailed
      tracedPartial := (hcount _ (by simp)).trans h.tracedPartial
      tracedSetup := (hcount _ (by simp)).trans h.tracedSetup
      grouped := fun _ => Nat.succ_pos _
      landed := fun _ => .inl (by simp)
      numbered := h.numbered
      total := h.total
      attempted := h.attempted
      aborted := h.aborted }

/-- A run that gives up before the first operation. -/
theorem wp_setupFailure_aborting {entry : ErrorEntry} (happlied : entry.applied = false)
    (htype : entry.operationType = none) (hmarked : entry.sideEffectsLanded = false)
    {s : Exec σ} (h : Untouched submitted s.account) :
    (setupFailure entry true).wp (fun _ s' => Consistent submitted s'.account)
      (fun _ _ => False) s := by
  unfold setupFailure
  rw [Eff.wp_bind, Eff.wp_modify, Eff.wp_bind, Eff.wp_modify, Eff.wp_note]
  exact
    { h.setup_failed entry happlied htype hmarked true with
      total := h.total
      attempted_le := le_of_eq_of_le h.attempted (Nat.zero_le _)
      attempted_all := by
        intro hnot
        have haborted : (s.ledger.aborted || true) = false := hnot
        rw [Bool.or_true] at haborted
        cases haborted }

theorem wp_findExistingGroup (ctx : BulkContext σ) (name : String) {s : Exec σ}
    (h : Untouched submitted s.account) :
    (findExistingGroup ctx name).wp (fun _ s' => Untouched submitted s'.account)
      (fun _ _ => False) s := by
  unfold findExistingGroup
  rw [Eff.wp_tryCatch, Eff.wp_bind, Eff.wp_request]
  split
  · split <;> exact h
  · exact h

/-- Creating a group leaves the operations untouched, or ends the run. -/
theorem wp_createGroupUpFront (ctx : BulkContext σ) (groupName : Option String) {s : Exec σ}
    (h : Untouched submitted s.account) :
    (createGroupUpFront ctx groupName).wp
      (fun goOn s' =>
        if goOn then Untouched submitted s'.account else Consistent submitted s'.account)
      (fun _ _ => False) s := by
  have hhandle : ∀ (name e : String) (s' : Exec σ), Untouched submitted s'.account →
      (do
        if mentions "400" e ∨ mentions "already exists" e.toLower then
          findExistingGroup ctx name
          pure true
        else
          setupFailure { operationId := "create-group-" ++ name, error := e } true
          pure false : Eff (Exec σ) Bool).wp
        (fun goOn s'' =>
          if goOn then Untouched submitted s''.account else Consistent submitted s''.account)
        (fun _ _ => False) s' := by
    intro name e s' hs'
    split
    · rw [Eff.wp_bind]
      exact Eff.wp_mono (wp_findExistingGroup ctx name hs') (fun _ _ h' => h') (fun _ _ hf => hf)
    · rw [Eff.wp_bind]
      exact Eff.wp_mono (wp_setupFailure_aborting rfl rfl rfl hs') (fun _ _ h' => h') (fun _ _ hf => hf)
  unfold createGroupUpFront
  split
  · exact h
  · rename_i name
    split
    · exact h
    · rw [Eff.wp_tryCatch, Eff.wp_bind, Eff.wp_write]
      split
      · rename_i created u _
        rw [Eff.wp_bind, Eff.wp_recordWrite (JournalRowSpec.stated_singleton _), Eff.wp_bind,
          Eff.wp_note]
        have hcreated := h.group_created (s.ledger.journalRows ++
          (JournalRowSpec.rows [⟨"group_create", created, some name⟩]).list)
          (s.ledger.sideEffects + if s.ledger.isOpen then 1 else 0)
        cases created with
        | some id => exact hcreated
        | none => exact hhandle name _ _ hcreated
      · exact hhandle name _ _ h

theorem wp_createGroups (ctx : BulkContext σ) (names : List (Option String)) :
    ∀ s : Exec σ, Untouched submitted s.account →
      (createGroups ctx names).wp
        (fun goOn s' =>
          if goOn then Untouched submitted s'.account else Consistent submitted s'.account)
        (fun _ _ => False) s := by
  induction names with
  | nil => exact fun s h => h
  | cons name names ih =>
    intro s h
    rw [createGroups, Eff.wp_bind]
    apply Eff.wp_mono (wp_createGroupUpFront ctx name h) _ (fun _ _ hf => hf)
    intro goOn s' hs'
    cases goOn with
    | true => exact ih s' hs'
    | false => exact hs'

end Groups

/-- Everything from Phase 1 on ends settled; nothing in it raises. -/
theorem wp_execute (ctx : BulkContext σ) (request : BulkCommitRequest) {s : Exec σ}
    (hstart : Untouched request.operations.length { s.account with executionStarted := true }) :
    (execute ctx request).wp (fun _ s' => Settled request.operations.length s')
      (fun _ _ => False) s := by
  unfold execute
  rw [Eff.wp_bind, Eff.wp_modify, Eff.wp_bind]
  apply Eff.wp_mono (wp_createGroups ctx request.groupsToCreate _ hstart) _ (fun _ _ hf => hf)
  intro goOn s' hs'
  cases goOn with
  | true =>
    rw [if_pos rfl, Eff.wp_bind]
    apply Eff.wp_mono (wp_processOperations ctx request.operations hs') _ (fun _ _ hf => hf)
    intro _ s'' hs''
    rw [Eff.wp_bind]
    exact Eff.wp_mono (wp_compensate ctx hs'') (fun _ _ h => wp_finish ctx h) (fun _ _ hf => hf)
  | false => exact wp_finish ctx hs'

/-- The books a run starts with. -/
def freshAccount (submitted : ℕ) : Account where
  ledger := { totalOperations := submitted }
  errors := []
  normalizationFailures := []
  trace := []
  executionStarted := false
  writes := 0
  numbered := false

theorem untouched_fresh (submitted : ℕ) :
    Untouched submitted { freshAccount submitted with executionStarted := true } where
  closed := rfl
  started := rfl
  paired := .nil
  entries := rfl
  unapplied := rfl
  applied := rfl
  marked := rfl
  normalization := by
    intro entry hentry
    cases hentry
  opened := rfl
  tracedApplied := rfl
  tracedIncomplete := rfl
  tracedFailed := rfl
  tracedPartial := rfl
  tracedSetup := rfl
  grouped := by
    intro hgroup
    cases hgroup
  landed := by
    intro hwrote
    cases hwrote
  numbered := by
    intro hnumbered
    cases hnumbered
  total := rfl
  attempted := rfl
  aborted := rfl

/-- A lookup that never raises and leaves the books alone. -/
def Harmless {α : Type} (x : Eff (Exec σ) α) : Prop :=
  ∀ a (s : Exec σ), s.account = a → x.wp (fun _ s' => s'.account = a) (fun _ _ => False) s

section Lookups

variable {α : Type} (up : Upstream σ)

theorem Harmless.bind {β : Type} {x : Eff (Exec σ) α} {f : α → Eff (Exec σ) β} (hx : Harmless x)
    (hf : ∀ a, Harmless (f a)) : Harmless (x >>= f) := by
  intro a s h
  rw [Eff.wp_bind]
  exact Eff.wp_mono (hx a s h) (fun b s' h' => hf b a s' h') (fun _ _ hf => hf)

theorem harmless_pure (b : α) : Harmless (pure b : Eff (Exec σ) α) := fun _ _ h => h

theorem harmless_tried {β : Type} (call : Call σ β) (f : β → α) (g : String → α) :
    Harmless (tryCatch (do let b ← request call; pure (f b)) (fun e => pure (g e)) :
      Eff (Exec σ) α) := by
  intro a s h
  rw [Eff.wp_tryCatch, Eff.wp_bind, Eff.wp_request]
  split <;> exact h

theorem harmless_lookUp (operations : List BulkOperation) : Harmless (lookUp up operations) := by
  unfold lookUp
  refine Harmless.bind ?_ fun channels => Harmless.bind ?_ fun streams =>
    Harmless.bind ?_ fun profiles => ?_
  · unfold readChannels
    split
    · refine Harmless.bind ?_ fun read => harmless_pure _
      intro a s h
      rw [Eff.wp_tryCatch, Eff.wp_request]
      split <;> exact h
    · exact harmless_pure _
  · unfold readStreams
    split
    · exact harmless_pure _
    · exact harmless_tried _ _ _
  · unfold readProfiles
    split
    · exact harmless_pure _
    · exact harmless_tried _ _ _
  · unfold readHiddenGroups
    split
    · exact harmless_pure _
    · exact harmless_tried _ _ _

end Lookups

/-- A run is refused or is a dry run, and then nothing executed; or it ends settled. -/
theorem wp_commitOperations (up : Upstream σ) (format : Option ℚ → String)
    (request : BulkCommitRequest) {s : Exec σ}
    (hs : s.account = freshAccount request.operations.length) :
    (commitOperations up format request).wp
      (fun _ s' => s'.executionStarted = true → Settled request.operations.length s')
      (fun _ _ => False) s := by
  unfold commitOperations
  rw [Eff.wp_bind]
  apply Eff.wp_mono (harmless_lookUp up request.operations _ s hs) _ (fun _ _ hf => hf)
  intro l s' hs'
  have hstarted : s'.executionStarted = false := congrArg Account.executionStarted hs'
  dsimp only
  rw [Eff.wp_bind, Eff.wp_modify]
  split
  · rw [Eff.wp_modify]
    intro hexecuted
    rw [show s'.executionStarted = true from hexecuted] at hstarted
    cases hstarted
  · rw [Eff.wp_tryCatch]
    have hexecute : ∀ s₀ : Exec σ, s₀.account = freshAccount request.operations.length →
        (execute (contextOf up format request l) request).wp
          (fun _ s₁ => Settled request.operations.length s₁) (fun _ _ => False) s₀ := by
      intro s₀ h₀
      apply wp_execute
      rw [h₀]
      exact untouched_fresh _
    exact Eff.wp_mono (hexecute _ hs') (fun _ _ h' _ => h') (fun _ _ hf => hf.elim)

/-- The state in which Phase 1 of a run starts. -/
def phase1Start (up : Upstream σ) (format : Option ℚ → String) (request : BulkCommitRequest)
    (l : Lookups) (s : Exec σ) : Exec σ :=
  let issues := validationIssues format l (contextOf up format request l).tempChannelNames
    request.operations
  { s with
    existingChannels := l.existingChannels
    result := { s.result with
      validationIssues := issues
      validationPassed := !issues.any (·.severity = .error) }
    executionStarted := true }

/-- Phase 2b and the exit of a run. -/
def closeRun (ctx : BulkContext σ) : Eff (Exec σ) Unit := do
  compensate ctx
  finish ctx

theorem wp_closeRun (ctx : BulkContext σ) {submitted : ℕ} {s : Exec σ}
    (h : Consistent submitted s.account) :
    (closeRun ctx).wp (fun _ s' => Settled submitted s') (fun _ _ => False) s := by
  unfold closeRun
  rw [Eff.wp_bind]
  exact Eff.wp_mono (wp_compensate ctx h) (fun _ _ hs' => wp_finish ctx hs') (fun _ _ hf => hf)

/-- The end of a run of which Phase 0 and Phase 1 are known. -/
theorem commitOperations_eq {up : Upstream σ} {format : Option ℚ → String}
    {request : BulkCommitRequest} {l : Lookups} {s s₀ s₁ s₂ : Exec σ}
    (hlookup : lookUp up request.operations s = (.ok l, s₀))
    (hgo : ¬stopsAfterValidation request l (validationIssues format l
      (contextOf up format request l).tempChannelNames request.operations))
    (hgroups : createGroups (contextOf up format request l) request.groupsToCreate
      (phase1Start up format request l s₀) = (.ok true, s₁))
    (hprocess : processOperations (contextOf up format request l) request.operations s₁ =
      (.ok (), s₂))
    (hbooks : Consistent request.operations.length s₂.account) :
    (commitOperations up format request s).2 = (closeRun (contextOf up format request l) s₂).2 := by
  obtain ⟨_, final, hclose, -⟩ := Eff.wp_returns (wp_closeRun (contextOf up format request l) hbooks)
  have hexecute : ∀ s' : Exec σ,
      ({ s' with executionStarted := true } : Exec σ) = phase1Start up format request l s₀ →
      execute (contextOf up format request l) request s' =
        closeRun (contextOf up format request l) s₂ := by
    intro s' hs'
    unfold execute
    rw [Eff.bind_apply, Eff.modify_apply]
    dsimp only
    rw [Eff.bind_apply, hs', hgroups]
    dsimp only
    rw [if_pos rfl, Eff.bind_apply, hprocess]
    rfl
  unfold commitOperations
  rw [Eff.bind_apply, hlookup]
  dsimp only
  rw [Eff.bind_apply, Eff.modify_apply]
  dsimp only
  rw [if_neg hgo, Eff.tryCatch_apply, hexecute _ rfl, hclose]

/-- A run that gets to the end of Phase 2: what the phases before did, and what is left to do. -/
theorem phases_of_endOfPhase2 {up : Upstream σ} {format : Option ℚ → String}
    {request : BulkCommitRequest} {start : σ} {ctx : BulkContext σ} {s₂ : Exec σ}
    (h : endOfPhase2 up format request start = some (ctx, s₂)) :
    ∃ l s₀ s₁,
      lookUp up (effectiveRequest request).operations
        { up := start, ledger :=
          { totalOperations := (effectiveRequest request).operations.length } } = (.ok l, s₀) ∧
      ctx = contextOf up format (effectiveRequest request) l ∧
      createGroups ctx (effectiveRequest request).groupsToCreate
        (phase1Start up format (effectiveRequest request) l s₀) = (.ok true, s₁) ∧
      Untouched (effectiveRequest request).operations.length s₁.account ∧
      processOperations ctx (effectiveRequest request).operations s₁ = (.ok (), s₂) ∧
      runBulkCommit up format request start = some (closeRun ctx s₂).2 := by
  unfold endOfPhase2 at h
  split at h
  · rename_i hvalid
    dsimp only at h
    generalize hfresh : ({ up := start, ledger :=
      { totalOperations := (effectiveRequest request).operations.length } } : Exec σ) = fresh at h
    have haccount : fresh.account = freshAccount (effectiveRequest request).operations.length := by
      rw [← hfresh]
      rfl
    split at h
    · rename_i l s₀ hlookup
      split at h
      · cases h
      · rename_i hgo
        split at h
        · rename_i s₁ hgroups
          rw [Option.some.injEq, Prod.mk.injEq] at h
          obtain ⟨rfl, hs₂⟩ := h
          have hbooks₀ : s₀.account = _ :=
            Eff.wp_exec (harmless_lookUp up _ _ fresh haccount) hlookup
          have hstart : Untouched (effectiveRequest request).operations.length
              (phase1Start up format (effectiveRequest request) l s₀).account := by
            have hstarted : (phase1Start up format (effectiveRequest request) l s₀).account =
                { s₀.account with executionStarted := true } := rfl
            rw [hstarted, hbooks₀]
            exact untouched_fresh _
          have hbooks₁ : Untouched _ s₁.account :=
            Eff.wp_exec (wp_createGroups _ _ _ hstart) hgroups
          obtain ⟨_, s', hprocess, hbooks₂⟩ := Eff.wp_returns (wp_processOperations
            (contextOf up format (effectiveRequest request) l) (effectiveRequest request).operations
            hbooks₁)
          rw [hprocess] at hs₂
          subst hs₂
          refine ⟨l, s₀, s₁, hlookup, rfl, hgroups, hbooks₁, hprocess, ?_⟩
          unfold runBulkCommit
          split
          · rename_i hbad
            rw [hbad] at hvalid
            cases hvalid.1
          · dsimp only
            split
            · rename_i hbad
              rw [hbad] at hvalid
              cases hvalid.2
            · rw [hfresh, commitOperations_eq hlookup hgo hgroups hprocess hbooks₂]
        · cases h
    · cases h
  · cases h

/-- What a finished run's books say. -/
theorem settled_of_run {up : Upstream σ} {format : Option ℚ → String} {request : BulkCommitRequest}
    {start : σ} {final : Exec σ} (hrun : runBulkCommit up format request start = some final)
    (hstarted : final.executionStarted = true) :
    Settled (effectiveRequest request).operations.length final := by
  unfold runBulkCommit at hrun
  split at hrun
  · cases hrun
  · dsimp only at hrun
    split at hrun
    · cases hrun
    · rw [Option.some.injEq] at hrun
      have hcommit := wp_commitOperations up format (effectiveRequest request)
        (s := { up := start,
                ledger := { totalOperations := (effectiveRequest request).operations.length } }) rfl
      unfold Eff.wp at hcommit
      split at hcommit
      · rename_i hexec
        rw [hexec] at hrun
        subst hrun
        exact hcommit hstarted
      · exact hcommit.elim

/-- However the upstream calls turn out, the audit of a run that reached its first phase finds
nothing: every operation begun was closed exactly once, the counters are the operations begun, every
error entry reports one event, and every normalization failure names an applied create. -/
theorem run_passes_audit (up : Upstream σ) (format : Option ℚ → String) (request : BulkCommitRequest)
    (start : σ) (final : Exec σ) (hrun : runBulkCommit up format request start = some final)
    (hstarted : final.executionStarted = true) :
    bulkCommitAccountingViolations final.result final.ledger = [] ∧
    final.ledger.isOpen = false ∧ Paired final.trace ∧
    final.result.operationsApplied + final.result.operationsFailed = final.trace.count .opened ∧
    final.result.operationsApplied =
      final.trace.count .applied + final.trace.count .appliedIncomplete ∧
    (final.ledger.aborted = false →
      final.trace.count .opened = (effectiveRequest request).operations.length) ∧
    final.trace.count .opened ≤ (effectiveRequest request).operations.length ∧
    final.result.errors.map ErrorEntry.event = final.trace.filter RunEvent.leavesEntry ∧
    final.result.operationsPartiallyApplied = final.result.markedErrors.length ∧
    ∀ failure ∈ final.result.normalizationFailures,
      failure.tempId ∈ final.ledger.appliedCreateTempIds := by
  have hsettled := settled_of_run hrun hstarted
  have hbooks := hsettled.1
  have haudit : bulkCommitAccountingViolations (settleEnvelope final.result final.ledger)
      final.ledger = [] := violations_settled hbooks
  rw [← hsettled.2] at haudit
  have happlied : final.result.operationsApplied = final.ledger.applied :=
    congrArg Envelope.operationsApplied hsettled.2
  have hfailed : final.result.operationsFailed = final.ledger.failed :=
    congrArg Envelope.operationsFailed hsettled.2
  have hpart : final.result.operationsPartiallyApplied = final.ledger.partiallyApplied :=
    congrArg Envelope.operationsPartiallyApplied hsettled.2
  have hopened : final.trace.count .opened = final.ledger.applied + final.ledger.failed :=
    hbooks.opened
  refine ⟨haudit, hbooks.closed, hbooks.paired, ?_, ?_, ?_, ?_, hbooks.entries, ?_,
    hbooks.normalization⟩
  · rw [happlied, hfailed, hopened]
  · rw [happlied]
    exact hbooks.tracedApplied.symm
  · intro haborted
    rw [hopened]
    exact hbooks.attempted_all haborted
  · rw [hopened]
    exact hbooks.attempted_le
  · rw [hpart]
    exact hbooks.marked.symm

/-- Two operations and a group against a Dispatcharr whose fourth call raises. -/
theorem run_passes_audit_example :
    ∃ final, runBulkCommit (dispatcharr (raisingAt 3)) (fun _ => "")
        { operations := [.updateChannel { channelId := 1, data := { name := some "B" } },
            .deleteChannel 1],
          groupsToCreate := [some "G"], continueOnError := true }
        { channels := [{ id := 1, name := "A" }], nextId := 2 } = some final ∧
      final.executionStarted = true ∧
      final.trace = [.groupCreated, .opened, .applied, .opened, .failed false] ∧
      bulkCommitAccountingViolations final.result final.ledger = [] := by
  obtain ⟨final, hrun, hseen⟩ := (Option.any_eq_true
    (fun s : Exec Dispatcharr => s.executionStarted &&
      (s.trace = [.groupCreated, .opened, .applied, .opened, .failed false] : Bool))
    (runBulkCommit (dispatcharr (raisingAt 3)) (fun _ => "")
      { operations := [.updateChannel { channelId := 1, data := { name := some "B" } },
          .deleteChannel 1],
        groupsToCreate := [some "G"], continueOnError := true }
      { channels := [{ id := 1, name := "A" }], nextId := 2 })).mp (by decide +kernel)
  rw [Bool.and_eq_true, decide_eq_true_eq] at hseen
  exact ⟨final, hrun, hseen.1, hseen.2, (run_passes_audit _ _ _ _ final hrun hseen.1).1⟩

section Partial

/-- The operation applied, or failed having written. -/
def RunEvent.landed : RunEvent → Bool
  | .applied | .appliedIncomplete | .failed true => true
  | _ => false

/-- The operation failed, or was left incomplete. -/
def RunEvent.unclean : RunEvent → Bool
  | .appliedIncomplete | .failed _ => true
  | _ => false

/-- The runs in which the operations alone tell what landed and what went wrong: a group created up
front is not the only thing that landed, an operation that applied wrote something when another
failed, and a step outside the operations is not the only one that failed. -/
structure OperationsTell (trace : List RunEvent) (writes : ℕ) : Prop where
  groups : trace.any (·.unclean) → .groupCreated ∈ trace → trace.any (·.landed)
  wrote : trace.any (·.unclean) → trace.any (·.landed) → 0 < writes
  setup : .setupFailed ∈ trace → 0 < writes → trace.any (·.unclean)

theorem any_landed_iff (trace : List RunEvent) :
    trace.any (·.landed) = true ↔ 0 < trace.count .applied + trace.count .appliedIncomplete ∨
      0 < trace.count (.failed true) := by
  have hpos : ∀ e : RunEvent, 0 < trace.count e ↔ e ∈ trace := fun _ => List.count_pos_iff
  rw [Nat.add_pos_iff_pos_or_pos, hpos, hpos, hpos, List.any_eq_true]
  constructor
  · rintro ⟨e, he, hlanded⟩
    cases e with
    | applied => exact .inl (.inl he)
    | appliedIncomplete => exact .inl (.inr he)
    | failed side =>
      cases side with
      | true => exact .inr he
      | false => cases hlanded
    | _ => cases hlanded
  · rintro ((he | he) | he)
    · exact ⟨_, he, rfl⟩
    · exact ⟨_, he, rfl⟩
    · exact ⟨_, he, rfl⟩

theorem any_unclean_iff (trace : List RunEvent) :
    trace.any (·.unclean) = true ↔ 0 < trace.count (.failed true) + trace.count (.failed false) ∨
      0 < trace.count .appliedIncomplete := by
  have hpos : ∀ e : RunEvent, 0 < trace.count e ↔ e ∈ trace := fun _ => List.count_pos_iff
  rw [Nat.add_pos_iff_pos_or_pos, hpos, hpos, hpos, List.any_eq_true]
  constructor
  · rintro ⟨e, he, hunclean⟩
    cases e with
    | appliedIncomplete => exact .inr he
    | failed side =>
      cases side with
      | true => exact .inl (.inl he)
      | false => exact .inl (.inr he)
    | _ => cases hunclean
  · rintro ((he | he) | he)
    · exact ⟨_, he, rfl⟩
    · exact ⟨_, he, rfl⟩
    · exact ⟨_, he, rfl⟩

/-- The flags of a settled envelope, in terms of what happened. -/
theorem Settled.isPartial_iff {submitted : ℕ} {s : Exec σ} (h : Settled submitted s) :
    s.result.isPartial = true ↔
      s.trace.any (·.landed) = true ∧ s.trace.any (·.unclean) = true := by
  have hflag := congrArg Envelope.isPartial h.2
  have happlied : s.trace.count .applied + s.trace.count .appliedIncomplete = s.ledger.applied :=
    h.1.tracedApplied
  have hincomplete : s.trace.count .appliedIncomplete = s.ledger.incomplete := h.1.tracedIncomplete
  have hfailed : s.trace.count (.failed true) + s.trace.count (.failed false) = s.ledger.failed :=
    h.1.tracedFailed
  have hpart : s.trace.count (.failed true) = s.ledger.partiallyApplied := h.1.tracedPartial
  rw [hflag, any_landed_iff, any_unclean_iff, happlied, hincomplete, hfailed, hpart]
  simp [settleEnvelope]

theorem Settled.success_iff {submitted : ℕ} {s : Exec σ} (h : Settled submitted s) :
    s.result.success = false ↔ s.trace.any (·.unclean) = true ∨ .setupFailed ∈ s.trace := by
  have hflag := congrArg Envelope.success h.2
  have hincomplete : s.trace.count .appliedIncomplete = s.ledger.incomplete := h.1.tracedIncomplete
  have hfailed : s.trace.count (.failed true) + s.trace.count (.failed false) = s.ledger.failed :=
    h.1.tracedFailed
  have hsetup : s.trace.count .setupFailed = s.ledger.setupFailures := h.1.tracedSetup
  rw [hflag, any_unclean_iff, ← List.count_pos_iff, hincomplete, hfailed, hsetup]
  simp only [settleEnvelope, Bool.and_eq_false_iff, beq_eq_false_iff_ne, ne_eq, Nat.pos_iff_ne_zero]

end Partial

end ChannelManager
