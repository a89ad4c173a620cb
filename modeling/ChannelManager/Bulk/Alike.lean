import ChannelManager.Bulk.Commit
import ChannelManager.Lib.Coupled

/-!
# What a run can tell apart

A run reads its upstream, the id maps, the catalogs and which operation its ledger has open. Two runs
that agree on these answer every operation the same and still agree after it; the journal, the
counters and the compensator are only written.
-/

namespace ChannelManager

variable {σ α : Type}

/-- What a ledger decides by. -/
structure LedgerStatus where
  isOpen : Bool
  persisted : Bool
  sideEffects : ℕ
  appliedWithoutWriting : Bool

def OperationLedger.status (ledger : OperationLedger) : LedgerStatus where
  isOpen := ledger.isOpen
  persisted := ledger.persisted
  sideEffects := ledger.sideEffects
  appliedWithoutWriting := ledger.appliedWithoutWriting

/-- What the operations of a run read. -/
structure ExecView (σ : Type) where
  up : σ
  tempIdMap : Dict ℤ ℤ
  groupIdMap : Dict String ℤ
  channel : ℤ → Option Channel
  logoIndex : Option (Dict String (Option ℤ))
  ledger : LedgerStatus

def Exec.view (s : Exec σ) : ExecView σ where
  up := s.up
  tempIdMap := s.result.tempIdMap
  groupIdMap := s.result.groupIdMap
  channel := s.existingChannels.get?
  logoIndex := s.logoIndex
  ledger := s.ledger.status

/-- The runs read the same; temporary ids are negative. -/
structure Alike (s t : Exec σ) : Prop where
  view : s.view = t.view
  tempIds : ∀ c ∈ s.result.tempIdMap, c < 0

namespace Alike

variable {s t : Exec σ}

theorem up (h : Alike s t) : s.up = t.up := congrArg ExecView.up h.view

theorem tempIdMap (h : Alike s t) : s.result.tempIdMap = t.result.tempIdMap :=
  congrArg ExecView.tempIdMap h.view

theorem groupIdMap (h : Alike s t) : s.result.groupIdMap = t.result.groupIdMap :=
  congrArg ExecView.groupIdMap h.view

theorem channel (h : Alike s t) : s.existingChannels.get? = t.existingChannels.get? :=
  congrArg ExecView.channel h.view

theorem logoIndex (h : Alike s t) : s.logoIndex = t.logoIndex := congrArg ExecView.logoIndex h.view

theorem ledger (h : Alike s t) : s.ledger.status = t.ledger.status :=
  congrArg ExecView.ledger h.view

theorem resolveId (h : Alike s t) (c : ℤ) : s.resolveId c = t.resolveId c := by
  rw [Exec.resolveId, h.tempIdMap, Exec.resolveId]

theorem resolveGroupId (h : Alike s t) (g : Option ℤ) (name : Option String) :
    s.resolveGroupId g name = t.resolveGroupId g name := by
  unfold Exec.resolveGroupId
  rw [h.groupIdMap]

theorem channelNameOf (h : Alike s t) (c : ℤ) : s.channelNameOf c = t.channelNameOf c := by
  rw [Exec.channelNameOf, h.channel, Exec.channelNameOf]

theorem catalogNumber (h : Alike s t) (c : ℤ) : s.catalogNumber c = t.catalogNumber c := by
  rw [Exec.catalogNumber, h.channel, Exec.catalogNumber]

end Alike

/-- From runs that read the same, the computations answer the same and leave such runs. -/
def Parallel (x y : Eff (Exec σ) α) : Prop := ∀ s t, Alike s t → Eff.Coupled Alike x y s t

section Rules

variable {s t : Exec σ} {β : Type}

theorem parallel_pure (a : α) : Parallel (pure a : Eff (Exec σ) α) (pure a) :=
  fun _ _ h => Eff.coupled_pure h a

theorem parallel_throw (e : String) : Parallel (throw e : Eff (Exec σ) α) (throw e) :=
  fun _ _ h => Eff.coupled_throw h e

theorem Parallel.bind {x : Eff (Exec σ) β} {f : β → Eff (Exec σ) α} (hx : Parallel x x)
    (hf : ∀ b, Parallel (f b) (f b)) : Parallel (x >>= f) (x >>= f) :=
  fun s t h => (hx s t h).bind fun b s' t' h' => hf b s' t' h'

theorem parallel_get {f : Exec σ → Eff (Exec σ) α} (hf : ∀ s t, Alike s t → Parallel (f s) (f t)) :
    Parallel (get >>= f) (get >>= f) :=
  fun s t h => Eff.coupled_get (hf s t h s t h)

theorem Parallel.tryCatch {x : Eff (Exec σ) α} {handle : String → Eff (Exec σ) α}
    (hx : Parallel x x) (hh : ∀ e, Parallel (handle e) (handle e)) :
    Parallel (tryCatch x handle) (tryCatch x handle) :=
  fun s t h => (hx s t h).tryCatch fun e s' t' h' => hh e s' t' h'

theorem Parallel.ite {c : Prop} [Decidable c] {x y x' y' : Eff (Exec σ) α} (h : Parallel x y)
    (h' : Parallel x' y') : Parallel (if c then x else x') (if c then y else y') :=
  fun s t hst => (h s t hst).ite (h' s t hst)

theorem parallel_each {body : β → Eff (Exec σ) Unit} (h : ∀ b, Parallel (body b) (body b))
    (xs : List β) : Parallel (Eff.each body xs) (Eff.each body xs) :=
  Eff.coupled_each h xs

/-- A change of what nothing reads. -/
theorem parallel_modify {f g : Exec σ → Exec σ} (hf : ∀ s, (f s).view = s.view)
    (hg : ∀ s, (g s).view = s.view) (htemp : ∀ s, (f s).result.tempIdMap = s.result.tempIdMap) :
    Parallel (modify f) (modify g) := by
  intro s t h
  apply Eff.coupled_modify
  refine ⟨(hf s).trans (h.view.trans (hg t).symm), ?_⟩
  rw [htemp]
  exact h.tempIds

theorem parallel_note (event : RunEvent) :
    Parallel (note event : Eff (Exec σ) Unit) (note event) :=
  parallel_modify (fun _ => rfl) (fun _ => rfl) fun _ => rfl

theorem parallel_request (call : Call σ α) : Parallel (request call) (request call) := by
  intro s t h
  unfold Eff.Coupled request
  rw [h.up]
  exact ⟨rfl, congrArg (fun v : ExecView σ => { v with up := (call t.up).2 }) h.view, h.tempIds⟩

theorem parallel_write (call : Call σ α) : Parallel (write call) (write call) := by
  intro s t h
  unfold Eff.Coupled write
  rw [h.up]
  cases call t.up with
  | mk outcome u =>
    cases outcome <;>
      exact ⟨rfl, congrArg (fun v : ExecView σ => { v with up := u }) h.view, h.tempIds⟩

theorem parallel_tellLedger {f g : OperationLedger → Except String OperationLedger}
    (hfg : ∀ l m, l.status = m.status →
      (f l).map OperationLedger.status = (g m).map OperationLedger.status) :
    Parallel (tellLedger f : Eff (Exec σ) Unit) (tellLedger g) := by
  intro s t h
  have hsame := hfg _ _ h.ledger
  unfold Eff.Coupled tellLedger
  cases hf : f s.ledger with
  | error e =>
    rw [hf] at hsame
    cases hg : g t.ledger with
    | error e' =>
      rw [hg] at hsame
      cases hsame
      exact ⟨rfl, h⟩
    | ok m => rw [hg] at hsame; cases hsame
  | ok l =>
    rw [hf] at hsame
    cases hg : g t.ledger with
    | error e' => rw [hg] at hsame; cases hsame
    | ok m =>
      rw [hg] at hsame
      have hstatus : l.status = m.status := Except.ok.inj hsame
      have hview := h.view
      refine ⟨rfl, ?_, h.tempIds⟩
      calc { s with ledger := l : Exec σ }.view = { s.view with ledger := l.status } := rfl
        _ = { t.view with ledger := m.status } := by rw [hview, hstatus]

end Rules

section Ledger

variable {l m : OperationLedger}

theorem queueJournal_status (h : l.status = m.status) (spec : JournalRowSpec) :
    (l.queueJournal spec).map OperationLedger.status =
      (m.queueJournal spec).map OperationLedger.status := by
  cases spec with
  | nothingToJournal => exact congrArg Except.ok h
  | rows rows =>
    dsimp only [OperationLedger.queueJournal]
    by_cases hrows : rows = []
    · rw [if_pos hrows, if_pos hrows]
    · rw [if_neg hrows, if_neg hrows]
      exact congrArg Except.ok h

theorem begin_status (h : l.status = m.status) :
    l.begin.map OperationLedger.status = m.begin.map OperationLedger.status := by
  have hopen : l.isOpen = m.isOpen := congrArg LedgerStatus.isOpen h
  unfold OperationLedger.begin
  rw [hopen]
  split
  · rfl
  · rfl

theorem recordWrite_status (h : l.status = m.status) (spec : JournalRowSpec) :
    (l.recordWrite spec).map OperationLedger.status =
      (m.recordWrite spec).map OperationLedger.status := by
  have hopen : l.isOpen = m.isOpen := congrArg LedgerStatus.isOpen h
  unfold OperationLedger.recordWrite
  apply queueJournal_status
  by_cases hm : m.isOpen = true
  · rw [if_pos (hopen.trans hm), if_pos hm]
    exact congrArg (fun v : LedgerStatus => { v with sideEffects := v.sideEffects + 1 }) h
  · rw [if_neg (hopen ▸ hm), if_neg hm]
    exact h

theorem recordPersisted_status (h : l.status = m.status) (spec : JournalRowSpec)
    (createTempId : Option ℤ) :
    (l.recordPersisted spec createTempId).map OperationLedger.status =
      (m.recordPersisted spec createTempId).map OperationLedger.status := by
  have hqueue := queueJournal_status h spec
  unfold OperationLedger.recordPersisted
  cases hl : l.queueJournal spec with
  | error e =>
    rw [hl] at hqueue
    cases hm : m.queueJournal spec with
    | error e' => rw [hm] at hqueue; exact hqueue
    | ok m' => rw [hm] at hqueue; cases hqueue
  | ok l' =>
    rw [hl] at hqueue
    cases hm : m.queueJournal spec with
    | error e' => rw [hm] at hqueue; cases hqueue
    | ok m' =>
      rw [hm] at hqueue
      have hstatus := congrArg (fun v : LedgerStatus => { v with persisted := true })
        (Except.ok.inj hqueue)
      exact congrArg Except.ok hstatus

theorem sayAppliedWithoutWriting_status (h : l.status = m.status) :
    l.sayAppliedWithoutWriting.map OperationLedger.status =
      m.sayAppliedWithoutWriting.map OperationLedger.status := by
  have hopen : l.isOpen = m.isOpen := congrArg LedgerStatus.isOpen h
  have hsaid := congrArg (fun v : LedgerStatus => { v with appliedWithoutWriting := true }) h
  unfold OperationLedger.sayAppliedWithoutWriting
  by_cases hm : m.isOpen = true
  · rw [if_pos (hopen.trans hm), if_pos hm]
    exact congrArg Except.ok hsaid
  · rw [if_neg (hopen ▸ hm), if_neg hm]

theorem recordApplied_status (h : l.status = m.status) (incomplete : Bool) :
    (l.recordApplied incomplete).map OperationLedger.status =
      (m.recordApplied incomplete).map OperationLedger.status := by
  have hopen : l.isOpen = m.isOpen := congrArg LedgerStatus.isOpen h
  have hpersisted : l.persisted = m.persisted := congrArg LedgerStatus.persisted h
  have hside : l.sideEffects = m.sideEffects := congrArg LedgerStatus.sideEffects h
  have hsaid : l.appliedWithoutWriting = m.appliedWithoutWriting :=
    congrArg LedgerStatus.appliedWithoutWriting h
  have htold : l.told = m.told := by
    rw [OperationLedger.told, hpersisted, hside, hsaid, OperationLedger.told]
  unfold OperationLedger.recordApplied OperationLedger.close
  rw [htold, hopen]
  split
  · split
    · exact congrArg Except.ok (by simp [OperationLedger.status, hpersisted])
    · rfl
  · rfl

end Ledger

section Told

variable {spec : JournalRowSpec}

theorem parallel_recordPersisted (spec : JournalRowSpec) (createTempId : Option ℤ) :
    Parallel (tellLedger (·.recordPersisted spec createTempId) : Eff (Exec σ) Unit)
      (tellLedger (·.recordPersisted spec createTempId)) :=
  parallel_tellLedger fun _ _ h => recordPersisted_status h spec createTempId

theorem parallel_recordWrite (spec : JournalRowSpec) :
    Parallel (tellLedger (·.recordWrite spec) : Eff (Exec σ) Unit)
      (tellLedger (·.recordWrite spec)) :=
  parallel_tellLedger fun _ _ h => recordWrite_status h spec

theorem parallel_sayAppliedWithoutWriting :
    Parallel (tellLedger (·.sayAppliedWithoutWriting) : Eff (Exec σ) Unit)
      (tellLedger (·.sayAppliedWithoutWriting)) :=
  parallel_tellLedger fun _ _ h => sayAppliedWithoutWriting_status h

end Told

/-- An entry of a catalog that follows a write, where it is there. -/
theorem get?_follow (d : Dict ℤ Channel) (c : ℤ) (f : Channel → Channel) :
    (match d.get? c with
      | some ch => d.set c (f ch)
      | none => d).get? = fun c' => if c' = c then (d.get? c).map f else d.get? c' := by
  funext c'
  cases hc : d.get? c with
  | some ch =>
    dsimp only
    rw [Dict.get?_set]
    simp only [eq_comm, Option.map_some]
  | none =>
    dsimp only
    split
    · subst_vars
      exact hc
    · rfl

theorem view_follow (s : Exec σ) (c : ℤ) (f : Channel → Channel) :
    { s with
      existingChannels := match s.existingChannels.get? c with
        | some ch => s.existingChannels.set c (f ch)
        | none => s.existingChannels : Exec σ }.view =
    { s.view with
      channel := fun c' => if c' = c then (s.view.channel c).map f else s.view.channel c' } :=
  congrArg (fun channel => { s.view with channel := channel }) (get?_follow s.existingChannels c f)

/-- A change of the catalog that depends on its entries alone. -/
theorem parallel_catalog {g : Dict ℤ Channel → Dict ℤ Channel}
    (hg : ∀ d d', d.get? = d'.get? → (g d).get? = (g d').get?) :
    Parallel (modify fun s : Exec σ => { s with existingChannels := g s.existingChannels })
      (modify fun s : Exec σ => { s with existingChannels := g s.existingChannels }) := by
  intro s t h
  apply Eff.coupled_modify
  refine ⟨?_, h.tempIds⟩
  have hchannel := hg _ _ h.channel
  have hview := h.view
  calc { s with existingChannels := g s.existingChannels : Exec σ }.view
      = { s.view with channel := (g s.existingChannels).get? } := rfl
    _ = { t.view with channel := (g t.existingChannels).get? } := by rw [hview, hchannel]

theorem parallel_follow (c : ℤ) (f : Channel → Channel) :
    let follow := fun s : Exec σ => { s with
      existingChannels := match s.existingChannels.get? c with
        | some ch => s.existingChannels.set c (f ch)
        | none => s.existingChannels }
    Parallel (modify follow) (modify follow) := by
  have hsame : ∀ d d' : Dict ℤ Channel, d.get? = d'.get? →
      (match d.get? c with
        | some ch => d.set c (f ch)
        | none => d).get? =
      (match d'.get? c with
        | some ch => d'.set c (f ch)
        | none => d').get? := by
    intro d d' h
    rw [get?_follow, get?_follow, h]
  exact parallel_catalog hsame

section Branches

variable (ctx : BulkContext σ)

theorem parallel_rejectUnresolvedChannel (c : ℤ) (label : String) :
    Parallel (rejectUnresolvedChannel c label : Eff (Exec σ) ℤ) (rejectUnresolvedChannel c label) :=
  Parallel.ite (parallel_throw _) (parallel_pure c)

theorem parallel_rejectUnresolvedGroup (g : Option ℤ) (label : String) :
    Parallel (rejectUnresolvedGroup g label : Eff (Exec σ) (Option ℤ))
      (rejectUnresolvedGroup g label) := by
  cases g with
  | none => exact parallel_pure none
  | some g => exact Parallel.ite (parallel_throw _) (parallel_pure (some g))

theorem parallel_checkExpectedNumber (op : BulkUpdateChannelOp) (c : ℤ) :
    Parallel (checkExpectedNumber ctx op c) (checkExpectedNumber ctx op c) := by
  unfold checkExpectedNumber
  split
  · exact Parallel.ite (Parallel.ite (parallel_pure ()) (parallel_throw _)) (parallel_throw _)
  · exact parallel_pure ()

theorem parallel_updateChannel (op : BulkUpdateChannelOp) :
    Parallel (executeUpdateChannel ctx op) (executeUpdateChannel ctx op) := by
  apply parallel_get
  intro s t h
  dsimp only
  simp only [h.resolveId, h.channel, h.channelNameOf]
  apply (parallel_rejectUnresolvedChannel _ _).bind
  intro channelId
  apply (parallel_rejectUnresolvedGroup _ _).bind
  intro _
  apply (parallel_checkExpectedNumber ctx op channelId).bind
  intro _
  apply (parallel_write _).bind
  intro _
  have hrest : Parallel
      (do
        tellLedger (·.recordPersisted (rowIf
          (describeChannelUpdate (t.existingChannels.get? channelId) op.data ≠ [])
          ⟨"update", some channelId, t.channelNameOf channelId⟩))
        modify fun s => { s with
          existingChannels := match s.existingChannels.get? channelId with
            | some ch => s.existingChannels.set channelId (ch.patch op.data)
            | none => s.existingChannels } : Eff (Exec σ) Unit) _ :=
    (parallel_recordPersisted _ none).bind fun _ => parallel_follow channelId (·.patch op.data)
  cases op.data.channelNumber with
  | none => exact hrest
  | some n =>
    apply Parallel.bind
    · exact parallel_modify (fun _ => rfl) (fun _ => rfl) fun _ => rfl
    · exact fun _ => hrest

theorem parallel_writeStreams (channel : Channel) (c : ℤ) (streams : List ℤ) (action : String) :
    Parallel (writeStreams ctx channel c streams action)
      (writeStreams ctx channel c streams action) := by
  apply parallel_get
  intro s t h
  rw [h.channelNameOf]
  exact (parallel_write _).bind fun _ => parallel_recordPersisted _ none

theorem parallel_addStream (c x : ℤ) :
    Parallel (executeAddStream ctx c x) (executeAddStream ctx c x) := by
  apply parallel_get
  intro s t h
  rw [h.resolveId]
  apply (parallel_rejectUnresolvedChannel _ _).bind
  intro channelId
  apply Parallel.ite (parallel_throw _)
  apply (parallel_request _).bind
  intro channel
  exact Parallel.ite parallel_sayAppliedWithoutWriting (parallel_writeStreams ctx _ _ _ _)

theorem parallel_removeStream (c x : ℤ) :
    Parallel (executeRemoveStream ctx c x) (executeRemoveStream ctx c x) := by
  apply parallel_get
  intro s t h
  rw [h.resolveId]
  apply (parallel_rejectUnresolvedChannel _ _).bind
  intro channelId
  apply (parallel_request _).bind
  intro channel
  exact Parallel.ite (parallel_writeStreams ctx _ _ _ _) parallel_sayAppliedWithoutWriting

theorem parallel_reorderStreams (c : ℤ) (xs : List ℤ) :
    Parallel (executeReorderStreams ctx c xs) (executeReorderStreams ctx c xs) := by
  apply parallel_get
  intro s t h
  rw [h.resolveId]
  apply (parallel_rejectUnresolvedChannel _ _).bind
  intro channelId
  apply (parallel_request _).bind
  intro channel
  cases validateStreamPermutation channel.streams xs with
  | some e => exact parallel_throw _
  | none => exact parallel_writeStreams ctx _ _ _ _

theorem parallel_resolveChannels (label : String) (cs : List ℤ) :
    Parallel (resolveChannels label cs : Eff (Exec σ) (List ℤ)) (resolveChannels label cs) := by
  induction cs with
  | nil => exact parallel_pure []
  | cons c cs ih =>
    apply parallel_get
    intro s t h
    rw [h.resolveId]
    apply (parallel_rejectUnresolvedChannel _ _).bind
    exact fun _ => ih.bind fun _ => parallel_pure _

theorem Alike.renumberedBy {s t : Exec σ} (h : Alike s t) (ids : List ℤ) (start : ℚ) :
    ChannelManager.renumberedBy s ids start = ChannelManager.renumberedBy t ids start := by
  unfold ChannelManager.renumberedBy
  simp only [h.catalogNumber]

theorem Alike.assignedRows {s t : Exec σ} (h : Alike s t) (ids : List ℤ) (start : ℚ) :
    ChannelManager.assignedRows s ids start = ChannelManager.assignedRows t ids start := by
  unfold ChannelManager.assignedRows
  simp only [h.catalogNumber, h.channelNameOf]

/-- The catalog after a range depends on its entries alone. -/
theorem foldl_follow_congr (entries : List (ℤ × ℚ)) {d d' : Dict ℤ Channel}
    (h : d.get? = d'.get?) :
    let step := fun (existing : Dict ℤ Channel) (e : ℤ × ℚ) => match existing.get? e.1 with
      | some ch => existing.set e.1 { ch with channelNumber := some e.2 }
      | none => existing
    (entries.foldl step d).get? = (entries.foldl step d').get? := by
  induction entries generalizing d d' with
  | nil => exact h
  | cons e entries ih =>
    apply ih
    rw [get?_follow d e.1 fun ch => { ch with channelNumber := some e.2 },
      get?_follow d' e.1 fun ch => { ch with channelNumber := some e.2 }, h]

theorem parallel_assignNumbers (op : BulkAssignNumbersOp) :
    Parallel (executeAssignNumbers ctx op) (executeAssignNumbers ctx op) := by
  apply (parallel_resolveChannels _ _).bind
  intro ids
  apply parallel_get
  intro s t h
  dsimp only
  rw [h.renumberedBy, h.assignedRows]
  apply (parallel_write _).bind
  intro _
  apply Parallel.bind
  · exact parallel_modify (fun _ => rfl) (fun _ => rfl) fun _ => rfl
  · intro _
    have hcatalog := parallel_catalog (σ := σ)
      fun _ _ => foldl_follow_congr (renumberedBy t ids op.start).items
    split
    · exact (parallel_recordPersisted _ none).bind fun _ => hcatalog
    · exact (parallel_recordPersisted _ none).bind fun _ => hcatalog

/-- The logo index is replaced in both runs. -/
theorem parallel_setLogoIndex (g : Option (Dict String (Option ℤ)) → Dict String (Option ℤ)) :
    Parallel (modify fun s : Exec σ => { s with logoIndex := some (g s.logoIndex) })
      (modify fun s : Exec σ => { s with logoIndex := some (g s.logoIndex) }) := by
  intro s t h
  apply Eff.coupled_modify
  exact ⟨congrArg (fun v : ExecView σ => { v with logoIndex := some (g v.logoIndex) }) h.view,
    h.tempIds⟩

theorem parallel_ensureLogoIndex :
    Parallel (ensureLogoIndex ctx) (ensureLogoIndex ctx) := by
  apply parallel_get
  intro s t h
  rw [h.logoIndex]
  cases t.logoIndex with
  | some index => exact parallel_pure ()
  | none =>
    apply (parallel_request _).bind
    intro read
    apply (parallel_setLogoIndex fun _ => indexLogos read.rows).bind
    intro _
    cases read.error with
    | none => exact parallel_pure ()
    | some e => exact parallel_throw e

theorem parallel_logoBodyId (id : Option ℤ) :
    Parallel (logoBodyId id : Eff (Exec σ) ℤ) (logoBodyId id) := by
  cases id with
  | none => exact parallel_throw _
  | some id => exact parallel_pure id

theorem parallel_resolveLogoId (url name : String) :
    Parallel (resolveLogoId ctx url name) (resolveLogoId ctx url name) := by
  apply (parallel_ensureLogoIndex ctx).bind
  intro _
  apply parallel_get
  intro s t h
  rw [h.logoIndex]
  cases (t.logoIndex.getD ∅).get? url with
  | some existing => exact parallel_logoBodyId existing
  | none =>
    apply (parallel_write _).bind
    intro created
    apply (parallel_recordWrite _).bind
    intro _
    exact (parallel_setLogoIndex fun index => (index.getD ∅).set url created).bind
      fun _ => parallel_logoBodyId created

theorem parallel_normalizedName (op : BulkCreateChannelOp) :
    Parallel (normalizedName ctx op) (normalizedName ctx op) := by
  apply Parallel.ite _ (parallel_pure _)
  exact ((parallel_request _).bind fun _ => parallel_pure _).tryCatch fun _ => parallel_pure _

theorem parallel_createLogoId (op : BulkCreateChannelOp) (name : String) :
    Parallel (createLogoId ctx op name) (createLogoId ctx op name) := by
  unfold createLogoId
  cases op.logoUrl with
  | none => exact parallel_pure _
  | some url =>
    apply Parallel.ite _ (parallel_pure _)
    exact ((parallel_resolveLogoId ctx url name).bind fun _ => parallel_pure _).tryCatch
      fun _ => parallel_pure _

/-- A created channel enters the id map and the catalog. -/
theorem parallel_register (tempId : ℤ) (hneg : tempId < 0) (channel : Channel) :
    let register := fun s : Exec σ => { s with
      result := { s.result with tempIdMap := s.result.tempIdMap.set tempId channel.id }
      existingChannels := s.existingChannels.set channel.id channel }
    Parallel (modify register) (modify register) := by
  intro register s t h
  apply Eff.coupled_modify
  have hview : ∀ s : Exec σ, (register s).view =
      { s.view with
        tempIdMap := s.view.tempIdMap.set tempId channel.id
        channel := fun c => if channel.id = c then some channel else s.view.channel c } := by
    intro s
    have hget : (s.existingChannels.set channel.id channel).get? =
        fun c => if channel.id = c then some channel else s.existingChannels.get? c :=
      funext fun c => Dict.get?_set _ _ _ _
    dsimp only [Exec.view, register]
    rw [hget]
  refine ⟨by rw [hview, hview, h.view], ?_⟩
  intro c hc
  rw [Dict.mem_set] at hc
  rcases hc with rfl | hc
  · exact hneg
  · exact h.tempIds c hc

theorem parallel_createChannel (op : BulkCreateChannelOp) :
    Parallel (executeCreateChannel ctx op) (executeCreateChannel ctx op) := by
  apply parallel_get
  intro s t h
  rw [h.resolveGroupId]
  apply (parallel_rejectUnresolvedGroup _ _).bind
  intro groupId
  apply (parallel_normalizedName ctx op).bind
  intro named
  apply (parallel_createLogoId ctx op named.1).bind
  intro logoId
  apply (parallel_write _).bind
  intro created
  apply (parallel_recordPersisted _ _).bind
  intro _
  apply Parallel.bind
  · exact parallel_modify (fun _ => rfl) (fun _ => rfl) fun _ => rfl
  · intro _
    cases created with
    | none => exact parallel_throw _
    | some channel => exact parallel_register op.tempId op.tempId_neg channel

theorem parallel_deleteChannel (c : ℤ) :
    Parallel (executeDeleteChannel ctx c) (executeDeleteChannel ctx c) := by
  apply parallel_get
  intro s t h
  simp only [h.resolveId, h.channelNameOf]
  apply (parallel_rejectUnresolvedChannel _ _).bind
  intro channelId
  apply Parallel.bind
  · exact ((parallel_write _).bind fun _ => parallel_pure true).tryCatch
      fun _ => Parallel.ite (parallel_pure false) (parallel_throw _)
  · exact fun _ => parallel_recordPersisted _ none

theorem parallel_mapGroup (name : String) (id : ℤ) :
    Parallel (modify (mapGroup name id) : Eff (Exec σ) Unit) (modify (mapGroup name id)) := by
  intro s t h
  apply Eff.coupled_modify
  exact ⟨congrArg (fun v : ExecView σ => { v with groupIdMap := v.groupIdMap.set name id }) h.view,
    h.tempIds⟩

theorem parallel_createGroup (name : String) :
    Parallel (executeCreateGroup ctx name) (executeCreateGroup ctx name) := by
  apply parallel_get
  intro s t h
  rw [h.groupIdMap]
  apply Parallel.ite parallel_sayAppliedWithoutWriting
  apply (parallel_write _).bind
  intro created
  apply (parallel_recordPersisted _ none).bind
  intro _
  cases created with
  | none => exact parallel_throw _
  | some id => exact parallel_mapGroup name id

theorem parallel_moveMember (g : ℤ) (target : ChannelGroup) (member : Channel) :
    Parallel (moveMember ctx g target member) (moveMember ctx g target member) := by
  apply Parallel.bind
  · exact ((parallel_request _).bind fun _ => parallel_pure _).tryCatch fun _ => parallel_pure true
  · exact fun _ => Parallel.ite ((parallel_write _).bind fun _ => parallel_recordWrite _)
      (parallel_pure ())

theorem parallel_reparentGroupChannels (g : ℤ) :
    Parallel (reparentGroupChannels ctx g) (reparentGroupChannels ctx g) := by
  apply (parallel_request _).bind
  intro read
  cases read.error with
  | some e => exact parallel_throw e
  | none =>
    apply Parallel.ite (parallel_pure ())
    apply (parallel_request _).bind
    intro groups
    cases groups.find? (·.name.trimAscii.toString.toLower = ungroupedTargetGroupName.toLower) with
    | none => exact parallel_throw _
    | some target =>
      exact Parallel.ite (parallel_throw _)
        (parallel_each (parallel_moveMember ctx g target) _)

theorem parallel_deleteChannelGroup (g : ℤ) :
    Parallel (executeDeleteChannelGroup ctx g) (executeDeleteChannelGroup ctx g) :=
  (parallel_reparentGroupChannels ctx g).bind fun _ =>
    (parallel_write _).bind fun _ => parallel_recordPersisted _ none

theorem parallel_setProfileMembership (p c : ℤ) (enabled : Bool) :
    Parallel (executeSetProfileMembership ctx p c enabled)
      (executeSetProfileMembership ctx p c enabled) := by
  apply parallel_get
  intro s t h
  simp only [h.resolveId, h.channelNameOf]
  apply (parallel_rejectUnresolvedChannel _ _).bind
  exact fun _ => (parallel_write _).bind fun _ => parallel_recordPersisted _ none

theorem parallel_clearStreamStats (xs : List ℤ) :
    Parallel (executeClearStreamStats ctx xs) (executeClearStreamStats ctx xs) := by
  apply Parallel.bind
  · exact Parallel.ite (parallel_pure 0) (parallel_request _)
  · exact fun _ => parallel_recordPersisted _ none

theorem parallel_executeOperation (op : BulkOperation) :
    Parallel (executeOperation ctx op) (executeOperation ctx op) := by
  cases op with
  | updateChannel op => exact parallel_updateChannel ctx op
  | addStreamToChannel c x => exact parallel_addStream ctx c x
  | removeStreamFromChannel c x => exact parallel_removeStream ctx c x
  | reorderChannelStreams c xs => exact parallel_reorderStreams ctx c xs
  | bulkAssignChannelNumbers op => exact parallel_assignNumbers ctx op
  | createChannel op => exact parallel_createChannel ctx op
  | deleteChannel c => exact parallel_deleteChannel ctx c
  | createGroup name => exact parallel_createGroup ctx name
  | deleteChannelGroup g => exact parallel_deleteChannelGroup ctx g
  | renameChannelGroup g name =>
    exact (parallel_write _).bind fun _ => parallel_recordPersisted _ none
  | setProfileMembership p c enabled => exact parallel_setProfileMembership ctx p c enabled
  | restoreChannelGroup g =>
    exact (parallel_request _).bind fun _ => parallel_recordPersisted _ none
  | clearStreamStats xs => exact parallel_clearStreamStats ctx xs

end Branches

end ChannelManager
