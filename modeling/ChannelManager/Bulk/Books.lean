import ChannelManager.Bulk.Executor

/-!
# The books inside an operation

What every branch of the executor may do to the ledger while its operation is open. It returns only
after the ledger has been told what the operation came to, every write that lands is recorded before
anything can raise, and nothing else of the books moves.
-/

namespace ChannelManager

variable {σ : Type}

/-- The part of a run the books are kept in. -/
structure Account where
  ledger : OperationLedger
  errors : List ErrorEntry
  normalizationFailures : List NormalizationFailure
  trace : List RunEvent
  executionStarted : Bool
  writes : ℕ
  /-- Whether a numbering write has landed. -/
  numbered : Bool

def Exec.account (s : Exec σ) : Account where
  ledger := s.ledger
  errors := s.result.errors
  normalizationFailures := s.result.normalizationFailures
  trace := s.trace
  executionStarted := s.executionStarted
  writes := s.writes
  numbered := s.compensator.landed ≠ []

def JournalRowSpec.list : JournalRowSpec → List JournalRow
  | .rows queued => queued
  | .nothingToJournal => []

/-- The rows are there, or their absence is stated. -/
def JournalRowSpec.Stated (spec : JournalRowSpec) : Prop := spec ≠ .rows []

theorem JournalRowSpec.stated_singleton (row : JournalRow) : (JournalRowSpec.rows [row]).Stated := by
  intro h
  cases h

theorem JournalRowSpec.stated_rowIf (wrote : Bool) (row : JournalRow) : (rowIf wrote row).Stated := by
  cases wrote
  · intro h
    cases h
  · exact stated_singleton row

theorem OperationLedger.queueJournal_of_stated (ledger : OperationLedger) {spec : JournalRowSpec}
    (h : spec.Stated) :
    ledger.queueJournal spec = .ok { ledger with journalRows := ledger.journalRows ++ spec.list } := by
  cases spec with
  | nothingToJournal => simp [queueJournal, JournalRowSpec.list]
  | rows rows =>
    have hne : rows ≠ [] := fun hnil => h (by rw [hnil])
    simp [queueJournal, JournalRowSpec.list, hne]

namespace Eff

variable {post : Unit → Exec σ → Prop} {fail : String → Exec σ → Prop} {s : Exec σ}

theorem wp_recordPersisted {spec : JournalRowSpec} (h : spec.Stated) (createTempId : Option ℤ) :
    wp (tellLedger (·.recordPersisted spec createTempId)) post fail s ↔
      post () { s with
        ledger := { s.ledger with
          journalRows := s.ledger.journalRows ++ spec.list
          persisted := true
          pendingCreateTempId := createTempId.or s.ledger.pendingCreateTempId } } := by
  rw [wp_tellLedger, OperationLedger.recordPersisted, OperationLedger.queueJournal_of_stated _ h]
  exact Iff.rfl

theorem wp_recordWrite {spec : JournalRowSpec} (h : spec.Stated) :
    wp (tellLedger (·.recordWrite spec)) post fail s ↔
      post () { s with
        ledger := { s.ledger with
          journalRows := s.ledger.journalRows ++ spec.list
          sideEffects := s.ledger.sideEffects + if s.ledger.isOpen then 1 else 0 } } := by
  rw [wp_tellLedger, OperationLedger.recordWrite, OperationLedger.queueJournal_of_stated _ h]
  cases hopen : s.ledger.isOpen <;> simp [hopen]

theorem wp_sayAppliedWithoutWriting (h : s.ledger.isOpen = true) :
    wp (tellLedger (·.sayAppliedWithoutWriting)) post fail s ↔
      post () { s with ledger := { s.ledger with appliedWithoutWriting := true } } := by
  rw [wp_tellLedger, OperationLedger.sayAppliedWithoutWriting, if_pos h]

end Eff

/-- What stays as it is inside an operation that was opened on `start`. -/
structure Opened (start now : Account) : Prop where
  isOpen : start.ledger.isOpen = true
  ledger : now.ledger = { start.ledger with
    journalRows := now.ledger.journalRows
    persisted := now.ledger.persisted
    sideEffects := now.ledger.sideEffects
    appliedWithoutWriting := now.ledger.appliedWithoutWriting
    pendingCreateTempId := now.ledger.pendingCreateTempId }
  errors : now.errors = start.errors
  trace : now.trace = start.trace
  started : now.executionStarted = start.executionStarted
  normalization : ∀ entry ∈ now.normalizationFailures, entry ∈ start.normalizationFailures ∨
    (now.ledger.persisted = true ∧ now.ledger.pendingCreateTempId = some entry.tempId)
  writes_le : start.writes ≤ now.writes

/-- How the books stand inside an operation: a write that landed has been recorded. -/
structure Within (start now : Account) : Prop extends Opened start now where
  wrote : now.writes ≠ start.writes → now.ledger.persisted = true ∨ 0 < now.ledger.sideEffects
  numbered : now.numbered = true → start.numbered = true ∨ now.ledger.persisted = true

/-- Between the landing of a write and its record. -/
structure Landing (start now : Account) : Prop extends Opened start now where
  persisted : now.ledger.persisted = false
  noFailures : now.normalizationFailures = start.normalizationFailures

/-- Before the operation's own write has landed. -/
structure Unwritten (start now : Account) : Prop extends Within start now where
  persisted : now.ledger.persisted = false
  noFailures : now.normalizationFailures = start.normalizationFailures

/-- Once the ledger has been told what the operation came to. -/
structure Told (start now : Account) : Prop extends Within start now where
  told : now.ledger.told = true

/-- A step that keeps a condition on the books, whether it returns or raises. -/
def Keeps {α : Type} (cond : Account → Prop) (x : Eff (Exec σ) α) : Prop :=
  ∀ s : Exec σ, cond s.account →
    x.wp (fun _ s' => cond s'.account) (fun _ s' => cond s'.account) s

/-- The body of an operation: it returns only after the ledger has been told. -/
def Branch (start : Account) (x : Eff (Exec σ) Unit) : Prop :=
  ∀ s : Exec σ, Unwritten start s.account →
    x.wp (fun _ s' => Told start s'.account) (fun _ s' => Within start s'.account) s

/-- What a body does once its own write has landed. -/
def Landed (start : Account) (x : Eff (Exec σ) Unit) : Prop :=
  ∀ s : Exec σ, Landing start s.account →
    x.wp (fun _ s' => Told start s'.account) (fun _ s' => Within start s'.account) s

/-- What a body does after the ledger has been told. -/
def Tail (start : Account) (x : Eff (Exec σ) Unit) : Prop :=
  ∀ s : Exec σ, Told start s.account →
    x.wp (fun _ s' => Told start s'.account) (fun _ s' => Within start s'.account) s

section Steps

variable {cond : Account → Prop} {start : Account} {α β : Type}

theorem keeps_pure (a : α) : Keeps cond (pure a : Eff (Exec σ) α) := fun _ h => h

theorem keeps_throw (e : String) : Keeps cond (throw e : Eff (Exec σ) α) := fun _ h => h

theorem keeps_get : Keeps cond (get : Eff (Exec σ) (Exec σ)) := fun _ h => h

theorem keeps_request (call : Call σ α) : Keeps cond (request call) := by
  intro s h
  rw [Eff.wp_request]
  split <;> exact h

/-- The books do not see a change of anything else. -/
theorem keeps_modify {f : Exec σ → Exec σ} (hf : ∀ s, (f s).account = s.account) :
    Keeps cond (modify f : Eff (Exec σ) Unit) := by
  intro s h
  rw [Eff.wp_modify, hf]
  exact h

theorem Keeps.bind {x : Eff (Exec σ) α} {f : α → Eff (Exec σ) β} (hx : Keeps cond x)
    (hf : ∀ a, Keeps cond (f a)) : Keeps cond (x >>= f) := by
  intro s h
  rw [Eff.wp_bind]
  exact Eff.wp_mono (hx s h) (fun a s' h' => hf a s' h') (fun _ _ h' => h')

theorem Keeps.tryCatch {x : Eff (Exec σ) α} {handle : String → Eff (Exec σ) α}
    (hx : Keeps cond x) (hh : ∀ e, Keeps cond (handle e)) : Keeps cond (tryCatch x handle) := by
  intro s h
  rw [Eff.wp_tryCatch]
  exact Eff.wp_mono (hx s h) (fun _ _ h' => h') (fun e s' h' => hh e s' h')

theorem Keeps.ite {c : Prop} [Decidable c] {x y : Eff (Exec σ) α} (hx : Keeps cond x)
    (hy : Keeps cond y) : Keeps cond (if c then x else y) := by
  split
  · exact hx
  · exact hy

theorem keeps_each {body : α → Eff (Exec σ) Unit} (hbody : ∀ a, Keeps cond (body a))
    (xs : List α) : Keeps cond (Eff.each body xs) := fun s h =>
  Eff.wp_each (fun s => cond s.account) xs (fun x _ s hs => hbody x s hs) s h

theorem Branch.bind {x : Eff (Exec σ) α} {f : α → Eff (Exec σ) Unit}
    (hx : Keeps (Unwritten start) x) (hf : ∀ a, Branch start (f a)) : Branch start (x >>= f) := by
  intro s h
  rw [Eff.wp_bind]
  exact Eff.wp_mono (hx s h) (fun a s' h' => hf a s' h') (fun _ _ h' => h'.toWithin)

/-- A step whose result is known to satisfy something. -/
theorem Branch.bind_of {x : Eff (Exec σ) α} {f : α → Eff (Exec σ) Unit} {p : α → Prop}
    (hx : Keeps (Unwritten start) x) (hp : ∀ s, x.wp (fun a _ => p a) (fun _ _ => True) s)
    (hf : ∀ a, p a → Branch start (f a)) : Branch start (x >>= f) := by
  intro s h
  rw [Eff.wp_bind]
  exact Eff.wp_mono (Eff.wp_and (hx s h) (hp s)) (fun a s' h' => hf a h'.2 s' h'.1)
    (fun _ _ h' => h'.1.toWithin)

theorem Branch.ite {c : Prop} [Decidable c] {x y : Eff (Exec σ) Unit} (hx : Branch start x)
    (hy : Branch start y) : Branch start (if c then x else y) := by
  split
  · exact hx
  · exact hy

theorem branch_throw (e : String) : Branch start (throw e : Eff (Exec σ) Unit) :=
  fun _ h => h.toWithin

theorem Tail.of_keeps {x : Eff (Exec σ) Unit} (hx : Keeps (Told start) x) : Tail start x :=
  fun s h => Eff.wp_mono (hx s h) (fun _ _ h' => h') (fun _ _ h' => h'.toWithin)

theorem Tail.bind {x : Eff (Exec σ) α} {f : α → Eff (Exec σ) Unit} (hx : Keeps (Told start) x)
    (hf : ∀ a, Tail start (f a)) : Tail start (x >>= f) := by
  intro s h
  rw [Eff.wp_bind]
  exact Eff.wp_mono (hx s h) (fun a s' h' => hf a s' h') (fun _ _ h' => h'.toWithin)

theorem Unwritten.landing {now : Account} (h : Unwritten start now) : Landing start now :=
  { h with }

/-- A write, recorded as it lands, that is not the operation's outcome. -/
theorem Keeps.write_recordWrite (call : Call σ α) {spec : α → JournalRowSpec}
    (hspec : ∀ a, (spec a).Stated) {f : α → Eff (Exec σ) β}
    (hf : ∀ a, Keeps (Unwritten start) (f a)) :
    Keeps (Unwritten start) (do
      let a ← write call
      tellLedger (·.recordWrite (spec a))
      f a) := by
  intro s h
  have hledger : s.account.ledger = _ := h.ledger
  have hopen : s.ledger.isOpen = true := by
    have hnow := congrArg OperationLedger.isOpen hledger
    exact hnow.trans h.isOpen
  rw [Eff.wp_bind, Eff.wp_write]
  split
  · rename_i a u _
    rw [Eff.wp_bind, Eff.wp_recordWrite (hspec a)]
    apply hf
    exact
      { isOpen := h.isOpen
        ledger := congrArg (fun l : OperationLedger => { l with
          journalRows := s.ledger.journalRows ++ (spec a).list
          sideEffects := s.ledger.sideEffects + if s.ledger.isOpen then 1 else 0 }) hledger
        errors := h.errors
        trace := h.trace
        started := h.started
        normalization := h.normalization
        writes_le := Nat.le_succ_of_le h.writes_le
        wrote := fun _ => .inr (by simp [Exec.account, hopen])
        numbered := h.numbered
        persisted := h.persisted
        noFailures := h.noFailures }
  · exact h

theorem keeps_write_recordWrite {call : Call σ α} {spec : α → JournalRowSpec}
    (hspec : ∀ a, (spec a).Stated) :
    Keeps (Unwritten start) (do
      let a ← write call
      tellLedger (·.recordWrite (spec a)) : Eff (Exec σ) Unit) := by
  intro s h
  have hbind := Keeps.write_recordWrite call hspec (fun _ => keeps_pure ()) s h
  rw [Eff.wp_bind] at hbind ⊢
  apply Eff.wp_mono hbind _ (fun _ _ h' => h')
  intro a s' h'
  rw [Eff.wp_bind] at h'
  exact h'

/-- A step after which the operation's own write has landed. -/
theorem Branch.landing {x : Eff (Exec σ) α} {f : α → Eff (Exec σ) Unit}
    (hx : ∀ s : Exec σ, Unwritten start s.account →
      x.wp (fun _ s' => Landing start s'.account) (fun _ s' => Within start s'.account) s)
    (hf : ∀ a, Landed start (f a)) : Branch start (x >>= f) := by
  intro s h
  rw [Eff.wp_bind]
  exact Eff.wp_mono (hx s h) (fun a s' h' => hf a s' h') (fun _ _ h' => h')

theorem landing_write (call : Call σ α) (s : Exec σ) (h : Unwritten start s.account) :
    (write call).wp (fun _ s' => Landing start s'.account) (fun _ s' => Within start s'.account)
      s := by
  rw [Eff.wp_write]
  split
  · exact { h with writes_le := Nat.le_succ_of_le h.writes_le }
  · exact h.toWithin

theorem Branch.write {call : Call σ α} {f : α → Eff (Exec σ) Unit}
    (hf : ∀ a, Landed start (f a)) : Branch start (write call >>= f) :=
  Branch.landing (landing_write call) hf

theorem Landed.branch {x : Eff (Exec σ) Unit} (hx : Landed start x) : Branch start x :=
  fun s h => hx s h.landing

/-- Noting a landed number. -/
theorem Landed.modify_bind {g : Exec σ → Exec σ} {f : Unit → Eff (Exec σ) Unit}
    (hg : ∀ s, (g s).account = { s.account with numbered := (g s).account.numbered })
    (hf : Landed start (f ())) : Landed start (modify g >>= f) := by
  intro s h
  rw [Eff.wp_bind, Eff.wp_modify]
  apply hf
  rw [hg]
  exact { h with }

/-- The write that is the operation's outcome. -/
theorem landed_recordPersisted {spec : JournalRowSpec} (hspec : spec.Stated)
    (createTempId : Option ℤ) {f : Unit → Eff (Exec σ) Unit}
    (hf : ∀ s : Exec σ, Told start s.account → s.result.normalizationFailures =
      start.normalizationFailures → s.ledger.persisted = true →
      (∀ t, createTempId = some t → s.ledger.pendingCreateTempId = some t) →
      (f ()).wp (fun _ s' => Told start s'.account) (fun _ s' => Within start s'.account) s) :
    Landed start (tellLedger (·.recordPersisted spec createTempId) >>= f) := by
  intro s h
  rw [Eff.wp_bind, Eff.wp_recordPersisted hspec]
  have hledger : s.account.ledger = _ := h.ledger
  apply hf
  · exact
      { isOpen := h.isOpen
        ledger := congrArg (fun l : OperationLedger => { l with
          journalRows := s.ledger.journalRows ++ spec.list
          persisted := true
          pendingCreateTempId := createTempId.or s.ledger.pendingCreateTempId }) hledger
        errors := h.errors
        trace := h.trace
        started := h.started
        normalization := fun entry hentry => .inl (by rw [← h.noFailures]; exact hentry)
        writes_le := h.writes_le
        wrote := fun _ => .inl rfl
        numbered := fun _ => .inr rfl
        told := rfl }
  · exact h.noFailures
  · rfl
  · intro t ht
    simp [ht]

theorem landed_persisted {spec : JournalRowSpec} (hspec : spec.Stated) {f : Unit → Eff (Exec σ) Unit}
    (hf : Tail start (f ())) : Landed start (tellLedger (·.recordPersisted spec) >>= f) :=
  landed_recordPersisted hspec none fun s h _ _ _ => hf s h

theorem landed_persisted_last {spec : JournalRowSpec} (hspec : spec.Stated) :
    Landed start (tellLedger (·.recordPersisted spec) : Eff (Exec σ) Unit) := by
  intro s h
  have hbind := landed_persisted (f := fun _ => pure ()) hspec
    (fun s' (h' : Told start s'.account) => h') s h
  rw [Eff.wp_bind] at hbind
  exact hbind

theorem branch_sayAppliedWithoutWriting :
    Branch start (tellLedger (·.sayAppliedWithoutWriting) : Eff (Exec σ) Unit) := by
  intro s h
  have hledger : s.account.ledger = _ := h.ledger
  have hopen : s.ledger.isOpen = true := by
    have hnow := congrArg OperationLedger.isOpen hledger
    exact hnow.trans h.isOpen
  rw [Eff.wp_sayAppliedWithoutWriting hopen]
  exact
    { isOpen := h.isOpen
      ledger := congrArg (fun l : OperationLedger => { l with appliedWithoutWriting := true }) hledger
      errors := h.errors
      trace := h.trace
      started := h.started
      normalization := h.normalization
      writes_le := h.writes_le
      wrote := h.wrote
      numbered := h.numbered
      told := by simp [OperationLedger.told, Exec.account] }

end Steps

section Branches

variable {cond : Account → Prop} {start : Account}

theorem keeps_rejectUnresolvedChannel (c : ℤ) (label : String) :
    Keeps cond (rejectUnresolvedChannel c label : Eff (Exec σ) ℤ) :=
  Keeps.ite (keeps_throw _) (keeps_pure c)

theorem keeps_rejectUnresolvedGroup (g : Option ℤ) (label : String) :
    Keeps cond (rejectUnresolvedGroup g label : Eff (Exec σ) (Option ℤ)) := by
  cases g with
  | none => exact keeps_pure none
  | some g => exact Keeps.ite (keeps_throw _) (keeps_pure (some g))

theorem keeps_checkExpectedNumber (ctx : BulkContext σ) (op : BulkUpdateChannelOp) (c : ℤ) :
    Keeps cond (checkExpectedNumber ctx op c) := by
  unfold checkExpectedNumber
  split
  · exact Keeps.ite (Keeps.ite (keeps_pure ()) (keeps_throw _)) (keeps_throw _)
  · exact keeps_pure ()

theorem keeps_resolveChannels (label : String) (cs : List ℤ) :
    Keeps cond (resolveChannels label cs : Eff (Exec σ) (List ℤ)) := by
  induction cs with
  | nil => exact keeps_pure []
  | cons c cs ih =>
    exact keeps_get.bind fun _ => (keeps_rejectUnresolvedChannel _ _).bind fun _ =>
      ih.bind fun _ => keeps_pure _

theorem branch_updateChannel (ctx : BulkContext σ) (op : BulkUpdateChannelOp) :
    Branch start (executeUpdateChannel ctx op) := by
  unfold executeUpdateChannel
  refine Branch.bind keeps_get fun s => ?_
  refine Branch.bind (keeps_rejectUnresolvedChannel _ _) fun c => ?_
  refine Branch.bind (keeps_rejectUnresolvedGroup _ _) fun _ => ?_
  refine Branch.bind (keeps_checkExpectedNumber ctx op c) fun _ => ?_
  refine Branch.write fun _ => ?_
  dsimp only
  split
  · refine Landed.modify_bind (fun _ => rfl) (landed_persisted (JournalRowSpec.stated_rowIf _ _)
      (Tail.of_keeps ?_))
    exact keeps_modify fun _ => rfl
  · refine landed_persisted (JournalRowSpec.stated_rowIf _ _) (Tail.of_keeps ?_)
    exact keeps_modify fun _ => rfl

theorem branch_writeStreams (ctx : BulkContext σ) (channel : Channel) (c : ℤ) (streams : List ℤ)
    (actionType : String) : Branch start (writeStreams ctx channel c streams actionType) :=
  Branch.bind keeps_get fun _ => Branch.write fun _ =>
    landed_persisted_last (JournalRowSpec.stated_singleton _)

theorem branch_addStream (ctx : BulkContext σ) (c x : ℤ) :
    Branch start (executeAddStream ctx c x) :=
  Branch.bind keeps_get fun _ => Branch.bind (keeps_rejectUnresolvedChannel _ _) fun _ =>
    Branch.ite (branch_throw _) <| Branch.bind (keeps_request _) fun channel =>
      Branch.ite branch_sayAppliedWithoutWriting (branch_writeStreams ctx channel _ _ _)

theorem branch_removeStream (ctx : BulkContext σ) (c x : ℤ) :
    Branch start (executeRemoveStream ctx c x) :=
  Branch.bind keeps_get fun _ => Branch.bind (keeps_rejectUnresolvedChannel _ _) fun _ =>
    Branch.bind (keeps_request _) fun channel =>
      Branch.ite (branch_writeStreams ctx channel _ _ _) branch_sayAppliedWithoutWriting

theorem branch_reorderStreams (ctx : BulkContext σ) (c : ℤ) (xs : List ℤ) :
    Branch start (executeReorderStreams ctx c xs) := by
  refine Branch.bind keeps_get fun _ => Branch.bind (keeps_rejectUnresolvedChannel _ _) fun _ =>
    Branch.bind (keeps_request _) fun channel => ?_
  split
  · exact branch_throw _
  · exact branch_writeStreams ctx channel _ _ _

theorem branch_assignNumbers (ctx : BulkContext σ) (op : BulkAssignNumbersOp) :
    Branch start (executeAssignNumbers ctx op) := by
  refine Branch.bind (keeps_resolveChannels _ _) fun ids => Branch.bind keeps_get fun s =>
    Branch.write fun _ => Landed.modify_bind (fun _ => rfl) ?_
  have hstated : (if assignedRows s ids op.start = [] then JournalRowSpec.nothingToJournal
      else .rows (assignedRows s ids op.start)).Stated := by
    split
    · intro h
      cases h
    · rename_i hne
      intro h
      injection h with hnil
      exact hne hnil
  refine landed_persisted hstated (Tail.of_keeps ?_)
  exact keeps_modify fun _ => rfl

theorem keeps_ensureLogoIndex (ctx : BulkContext σ) : Keeps cond (ensureLogoIndex ctx) := by
  refine keeps_get.bind fun s => ?_
  split
  · exact keeps_pure ()
  · refine (keeps_request _).bind fun read => Keeps.bind ?_ fun _ => ?_
    · exact keeps_modify fun _ => rfl
    · split
      · exact keeps_throw _
      · exact keeps_pure ()

theorem keeps_logoBodyId (id : Option ℤ) : Keeps cond (logoBodyId id : Eff (Exec σ) ℤ) := by
  cases id with
  | some id => exact keeps_pure id
  | none => exact keeps_throw _

theorem keeps_resolveLogoId (ctx : BulkContext σ) (url name : String) :
    Keeps (Unwritten start) (resolveLogoId ctx url name) := by
  refine (keeps_ensureLogoIndex ctx).bind fun _ => keeps_get.bind fun s => ?_
  split
  · exact keeps_logoBodyId _
  · refine Keeps.write_recordWrite _ (fun _ => JournalRowSpec.stated_singleton _) fun created =>
      Keeps.bind ?_ fun _ => keeps_logoBodyId created
    exact keeps_modify fun _ => rfl

theorem keeps_normalizedName (ctx : BulkContext σ) (op : BulkCreateChannelOp) :
    Keeps cond (normalizedName ctx op) :=
  Keeps.ite (((keeps_request _).bind fun _ => keeps_pure _).tryCatch fun _ => keeps_pure _)
    (keeps_pure _)

theorem keeps_createLogoId (ctx : BulkContext σ) (op : BulkCreateChannelOp) (name : String) :
    Keeps (Unwritten start) (createLogoId ctx op name) := by
  unfold createLogoId
  split
  · exact Keeps.ite
      (((keeps_resolveLogoId ctx _ name).bind fun _ => keeps_pure _).tryCatch fun _ => keeps_pure _)
      (keeps_pure _)
  · exact keeps_pure _

theorem normalizedName_tempId (ctx : BulkContext σ) (op : BulkCreateChannelOp) (s : Exec σ) :
    (normalizedName ctx op).wp (fun named _ => ∀ failure ∈ named.2, failure.tempId = op.tempId)
      (fun _ _ => True) s := by
  unfold normalizedName
  split
  · rw [Eff.wp_tryCatch, Eff.wp_bind, Eff.wp_request]
    split
    · simp
    · simp
  · simp

theorem branch_createChannel (ctx : BulkContext σ) (op : BulkCreateChannelOp) :
    Branch start (executeCreateChannel ctx op) := by
  refine Branch.bind keeps_get fun _ => Branch.bind (keeps_rejectUnresolvedGroup _ _) fun _ =>
    Branch.bind_of (keeps_normalizedName ctx op) (normalizedName_tempId ctx op) fun named hnamed =>
      Branch.bind (keeps_createLogoId ctx op _) fun _ => Branch.write fun created =>
        landed_recordPersisted (JournalRowSpec.stated_singleton _) (some op.tempId) ?_
  intro s h hnone hpersisted hpending
  have hwithin : Told start { s.account with
      normalizationFailures := s.result.normalizationFailures ++ named.2.toList } :=
    { h with
      normalization := by
        intro entry hentry
        rcases List.mem_append.mp hentry with hold | hnew
        · rw [hnone] at hold
          exact .inl hold
        · right
          rw [hnamed entry (Option.mem_toList.mp hnew)]
          exact ⟨hpersisted, hpending op.tempId rfl⟩ }
  rw [Eff.wp_bind, Eff.wp_modify]
  cases created with
  | none => exact hwithin.toWithin
  | some channel => exact hwithin

/-- A channel that is already gone counts as deleted. -/
theorem landing_deletion (ctx : BulkContext σ) (c : ℤ) (s : Exec σ)
    (h : Unwritten start s.account) :
    (tryCatch
      (do
        write (ctx.up.deleteChannel c)
        pure true)
      (fun e => if saysNotFound e then pure false else throw e) : Eff (Exec σ) Bool).wp
      (fun _ s' => Landing start s'.account) (fun _ s' => Within start s'.account) s := by
  rw [Eff.wp_tryCatch, Eff.wp_bind, Eff.wp_write]
  split
  · exact { h with writes_le := Nat.le_succ_of_le h.writes_le }
  · split
    · exact h.landing
    · exact h.toWithin

theorem branch_deleteChannel (ctx : BulkContext σ) (c : ℤ) :
    Branch start (executeDeleteChannel ctx c) :=
  Branch.bind keeps_get fun _ => Branch.bind (keeps_rejectUnresolvedChannel _ _) fun _ =>
    Branch.landing (landing_deletion ctx _) fun _ =>
      landed_persisted_last (JournalRowSpec.stated_rowIf _ _)

theorem branch_createGroup (ctx : BulkContext σ) (name : String) :
    Branch start (executeCreateGroup ctx name) := by
  refine Branch.bind keeps_get fun _ => Branch.ite branch_sayAppliedWithoutWriting <|
    Branch.write fun created =>
      landed_persisted (JournalRowSpec.stated_singleton _) (Tail.of_keeps ?_)
  cases created with
  | some id => exact keeps_modify fun _ => rfl
  | none => exact keeps_throw _

theorem keeps_moveMember (ctx : BulkContext σ) (g : ℤ) (target : ChannelGroup) (member : Channel) :
    Keeps (Unwritten start) (moveMember ctx g target member) := by
  refine Keeps.bind
    (((keeps_request _).bind fun _ => keeps_pure _).tryCatch fun _ => keeps_pure _) fun _ =>
    Keeps.ite ?_ (keeps_pure ())
  exact keeps_write_recordWrite fun _ => JournalRowSpec.stated_singleton _

theorem keeps_reparentGroupChannels (ctx : BulkContext σ) (g : ℤ) :
    Keeps (Unwritten start) (reparentGroupChannels ctx g) := by
  refine (keeps_request _).bind fun read => ?_
  split
  · exact keeps_throw _
  · refine Keeps.ite (keeps_pure ()) ((keeps_request _).bind fun groups => ?_)
    split
    · exact keeps_throw _
    · exact Keeps.ite (keeps_throw _) (keeps_each (keeps_moveMember ctx g _) _)

theorem branch_deleteChannelGroup (ctx : BulkContext σ) (g : ℤ) :
    Branch start (executeDeleteChannelGroup ctx g) :=
  Branch.bind (keeps_reparentGroupChannels ctx g) fun _ => Branch.write fun _ =>
    landed_persisted_last (JournalRowSpec.stated_singleton _)

theorem branch_setProfileMembership (ctx : BulkContext σ) (p c : ℤ) (enabled : Bool) :
    Branch start (executeSetProfileMembership ctx p c enabled) :=
  Branch.bind keeps_get fun _ => Branch.bind (keeps_rejectUnresolvedChannel _ _) fun _ =>
    Branch.write fun _ => landed_persisted_last (JournalRowSpec.stated_singleton _)

theorem branch_restoreChannelGroup (ctx : BulkContext σ) (g : ℤ) :
    Branch start (executeRestoreChannelGroup ctx g) :=
  Branch.bind (keeps_request _) fun _ =>
    (landed_persisted_last (JournalRowSpec.stated_rowIf _ _)).branch

theorem branch_clearStreamStats (ctx : BulkContext σ) (xs : List ℤ) :
    Branch start (executeClearStreamStats ctx xs) :=
  Branch.bind (Keeps.ite (keeps_pure 0) (keeps_request _)) fun _ =>
    (landed_persisted_last (JournalRowSpec.stated_rowIf _ _)).branch

theorem branch_renameChannelGroup (ctx : BulkContext σ) (g : ℤ) (name : String) :
    Branch start (executeRenameChannelGroup ctx g name) :=
  Branch.write fun _ => landed_persisted_last (JournalRowSpec.stated_singleton _)

/-- Every branch of the executor. -/
theorem branch_executeOperation (ctx : BulkContext σ) (op : BulkOperation) :
    Branch start (executeOperation ctx op) := by
  cases op with
  | updateChannel op => exact branch_updateChannel ctx op
  | addStreamToChannel c x => exact branch_addStream ctx c x
  | removeStreamFromChannel c x => exact branch_removeStream ctx c x
  | reorderChannelStreams c xs => exact branch_reorderStreams ctx c xs
  | bulkAssignChannelNumbers op => exact branch_assignNumbers ctx op
  | createChannel op => exact branch_createChannel ctx op
  | deleteChannel c => exact branch_deleteChannel ctx c
  | createGroup name => exact branch_createGroup ctx name
  | deleteChannelGroup g => exact branch_deleteChannelGroup ctx g
  | renameChannelGroup g name => exact branch_renameChannelGroup ctx g name
  | setProfileMembership p c enabled => exact branch_setProfileMembership ctx p c enabled
  | restoreChannelGroup g => exact branch_restoreChannelGroup ctx g
  | clearStreamStats xs => exact branch_clearStreamStats ctx xs

end Branches

end ChannelManager
