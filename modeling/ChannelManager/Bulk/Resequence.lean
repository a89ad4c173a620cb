import ChannelManager.Bulk.Alike
import ChannelManager.Bulk.Tracking

/-!
# Renumbers in another order

`_numbering_execution_order` may move numbering edits of distinct channels past one another inside a
run of them. Such edits commute: whether they go through and what they leave the upstream with does
not depend on their order, and no later operation can tell.
-/

namespace ChannelManager

variable {σ : Type}

/-- The loop body of Phase 2 without its handler. -/
def applyOperation (ctx : BulkContext σ) (e : IndexedOp) : Eff (Exec σ) Unit := do
  modify fun s => { s with numberingLanded := false }
  tellLedger (·.begin)
  note .opened
  executeOperation ctx e.2
  tellLedger (·.recordApplied)
  note .applied
  modify (logApplied e.2)

theorem parallel_applyOperation (ctx : BulkContext σ) (e : IndexedOp) :
    Parallel (applyOperation ctx e) (applyOperation ctx e) := by
  apply Parallel.bind
  · exact parallel_modify (fun _ => rfl) (fun _ => rfl) fun _ => rfl
  · intro _
    apply (parallel_tellLedger fun _ _ h => begin_status h).bind
    intro _
    apply (parallel_note _).bind
    intro _
    apply (parallel_executeOperation ctx e.2).bind
    intro _
    apply (parallel_tellLedger fun _ _ h => recordApplied_status h false).bind
    intro _
    apply (parallel_note _).bind
    exact fun _ => parallel_modify (fun _ => rfl) (fun _ => rfl) fun _ => rfl

/-- An operation that raises nothing is attempted without its handler. -/
theorem attemptOperation_of_applies {ctx : BulkContext σ} {e : IndexedOp} {s t : Exec σ}
    (h : applyOperation ctx e s = (.ok (), t)) : attemptOperation ctx e s = (.ok true, t) := by
  simp only [applyOperation, Eff.bind_eq_ok] at h
  obtain ⟨_, s₁, h₁, _, s₂, h₂, _, s₃, h₃, _, s₄, h₄, _, s₅, h₅, _, s₆, h₆, h₇⟩ := h
  refine Eff.bind_eq_ok.mpr ⟨_, s₁, h₁, Eff.bind_eq_ok.mpr ⟨_, s₂, h₂,
    Eff.bind_eq_ok.mpr ⟨_, s₃, h₃, Eff.tryCatch_eq_ok _ ?_⟩⟩⟩
  exact Eff.bind_eq_ok.mpr ⟨_, s₄, h₄, Eff.bind_eq_ok.mpr ⟨_, s₅, h₅,
    Eff.bind_eq_ok.mpr ⟨_, s₆, h₆, Eff.bind_eq_ok.mpr ⟨_, t, h₇, rfl⟩⟩⟩⟩

section Edits

variable {fails : ℕ → Option String} {ctx : BulkContext Dispatcharr}

/-- The checks of an update that only look at the request. -/
structure UpdateAccepted (ctx : BulkContext Dispatcharr) (op : BulkUpdateChannelOp) : Prop where
  group : ∀ g, op.data.channelGroupId.getD none = some g → 0 ≤ g
  expected : ∀ expected n, op.expectedNumber = some expected → op.data.channelNumber = some n →
    ctx.channelsResolved = true ∧ sameChannelNumberOrBothUnset
      ((ctx.numbersAtRunStart.get? op.channelId).getD none) expected.number = true

/-- The update goes through where a run has this in view. -/
structure GoesThrough (fails : ℕ → Option String) (ctx : BulkContext Dispatcharr)
    (op : BulkUpdateChannelOp) (v : ExecView Dispatcharr) : Prop where
  closed : v.ledger.isOpen = false
  accepted : UpdateAccepted ctx op
  answered : fails v.up.calls = none
  present : (v.up.channel? op.channelId).isSome = true

/-- What a run has in view after the update. -/
def updatedView (op : BulkUpdateChannelOp) (v : ExecView Dispatcharr) : ExecView Dispatcharr :=
  { v with
    up := { v.up with calls := v.up.calls + 1 }.mapChannel op.channelId (·.patch op.data)
    channel := fun c =>
      if c = op.channelId then (v.channel op.channelId).map (·.patch op.data) else v.channel c
    ledger := ⟨false, true, 0, false⟩ }

theorem wp_rejectUnresolvedGroup (g : Option ℤ) (label : String) (s : Exec Dispatcharr) :
    Eff.wp (rejectUnresolvedGroup g label) (fun _ t => (∀ n, g = some n → 0 ≤ n) ∧ t = s)
      (fun _ _ => ¬∀ n, g = some n → 0 ≤ n) s := by
  cases g with
  | none => exact ⟨by simp, rfl⟩
  | some n =>
    dsimp only [rejectUnresolvedGroup]
    by_cases hn : n < 0
    · rw [if_pos hn]
      exact fun h => absurd (h n rfl) (by omega)
    · rw [if_neg hn]
      exact ⟨fun m hm => by cases hm; omega, rfl⟩

theorem wp_checkExpectedNumber (op : BulkUpdateChannelOp) (s : Exec Dispatcharr) :
    let held := ∀ expected n, op.expectedNumber = some expected →
      op.data.channelNumber = some n →
      ctx.channelsResolved = true ∧ sameChannelNumberOrBothUnset
        ((ctx.numbersAtRunStart.get? op.channelId).getD none) expected.number = true
    Eff.wp (checkExpectedNumber ctx op op.channelId) (fun _ t => held ∧ t = s)
      (fun _ _ => ¬held) s := by
  intro held
  unfold checkExpectedNumber
  split
  · rename_i expected n hexpected hnumber
    have hiff : held ↔ ctx.channelsResolved = true ∧ sameChannelNumberOrBothUnset
        ((ctx.numbersAtRunStart.get? op.channelId).getD none) expected.number = true := by
      simp [held, hexpected, hnumber]
    rw [hiff, Eff.wp_ite, Eff.wp_ite]
    exact ⟨fun hres => ⟨fun hsame => ⟨⟨hres, hsame⟩, rfl⟩, fun hsame h => hsame h.2⟩,
      fun hres h => hres h.1⟩
  · rename_i hnone
    exact ⟨fun expected n he hn => (hnone expected n he hn).elim, rfl⟩

theorem wp_writeUpdate {rowsRead : ℕ → ℕ} (d : Dispatcharr) (c : ℤ) (data : ChannelPatch)
    {s : Exec Dispatcharr} (hd : s.up = d) :
    Eff.wp (write ((dispatcharr fails rowsRead).updateChannel c data))
      (fun _ t => (fails d.calls = none ∧ (d.channel? c).isSome = true) ∧
        t = { s with
          up := { d with calls := d.calls + 1 }.mapChannel c (·.patch data)
          writes := s.writes + 1 })
      (fun _ _ => ¬(fails d.calls = none ∧ (d.channel? c).isSome = true)) s := by
  rw [Eff.wp_write, hd]
  dsimp only [dispatcharr, guarded]
  cases hfails : fails d.calls with
  | some e => simp
  | none =>
    have hch : ({ d with calls := d.calls + 1 } : Dispatcharr).channel? c = d.channel? c := rfl
    dsimp only
    rw [hch]
    cases d.channel? c with
    | none => simp
    | some ch => simp

/-- What comes after the write of an update: the compensator, the journal and the catalog. -/
theorem wp_noteUpdate (op : BulkUpdateChannelOp) (before : Option ℚ) (spec : JournalRowSpec)
    (hspec : spec.Stated) (s : Exec Dispatcharr) :
    Eff.wp
      (do
        match op.data.channelNumber with
        | some after =>
          modify fun s => { s with
            compensator := s.compensator.recordLanded op.channelId
              (s.channelNameOf op.channelId) before after
            numberingLanded := true }
        | none => pure ()
        tellLedger (·.recordPersisted spec)
        modify fun s => { s with
          existingChannels := match s.existingChannels.get? op.channelId with
            | some ch => s.existingChannels.set op.channelId (ch.patch op.data)
            | none => s.existingChannels })
      (fun _ t => t.view = { updatedView op s.view with
          up := s.up, ledger := { s.ledger.status with persisted := true } } ∧
        t.result = s.result)
      (fun _ _ => False) s := by
  have hrest : ∀ s' : Exec Dispatcharr, s'.view = s.view → s'.result = s.result → Eff.wp
      (do
        tellLedger (·.recordPersisted spec)
        modify fun s : Exec Dispatcharr => { s with
          existingChannels := match s.existingChannels.get? op.channelId with
            | some ch => s.existingChannels.set op.channelId (ch.patch op.data)
            | none => s.existingChannels })
      (fun _ t => t.view = { updatedView op s.view with
          up := s.up, ledger := { s.ledger.status with persisted := true } } ∧
        t.result = s.result)
      (fun _ _ => False) s' := by
    intro s' hview hresult
    rw [Eff.wp_bind, Eff.wp_recordPersisted hspec, Eff.wp_modify]
    refine ⟨(view_follow _ op.channelId (·.patch op.data)).trans ?_, hresult⟩
    exact congrArg (fun v : ExecView Dispatcharr => { v with
      channel := (updatedView op v).channel
      ledger := { v.ledger with persisted := true } }) hview
  cases hn : op.data.channelNumber with
  | none => exact hrest s rfl rfl
  | some n => exact hrest _ rfl rfl

/-- An update of a channel that exists goes through or raises, and this is what it leaves. -/
theorem wp_executeUpdate {rowsRead : ℕ → ℕ} (hup : ctx.up = dispatcharr fails rowsRead)
    {op : BulkUpdateChannelOp} (hid : 0 ≤ op.channelId) {s : Exec Dispatcharr}
    (hresolve : s.resolveId op.channelId = op.channelId) :
    let goes := UpdateAccepted ctx op ∧ fails s.up.calls = none ∧
      (s.up.channel? op.channelId).isSome = true
    Eff.wp (executeUpdateChannel ctx op)
      (fun _ t => goes ∧ t.view = { updatedView op s.view with
          ledger := { s.ledger.status with persisted := true } } ∧ t.result = s.result)
      (fun _ _ => ¬goes) s := by
  intro goes
  unfold executeUpdateChannel
  rw [Eff.wp_bind, Eff.wp_get, Eff.wp_bind, hresolve, rejectUnresolvedChannel, if_neg (by omega),
    Eff.wp_pure]
  dsimp only
  rw [Eff.wp_bind]
  apply Eff.wp_mono (wp_rejectUnresolvedGroup _ _ _) _ fun _ _ hno h => hno h.1.group
  intro _ t ⟨hgroup, ht⟩
  subst ht
  rw [Eff.wp_bind]
  apply Eff.wp_mono (wp_checkExpectedNumber op t) _ fun _ _ hno h => hno h.1.expected
  intro _ t' ⟨hexpected, ht⟩
  subst ht
  rw [Eff.wp_bind, hup]
  apply Eff.wp_mono (wp_writeUpdate t'.up op.channelId op.data rfl) _ fun _ _ hno h => hno h.2
  intro _ t ⟨hanswered, ht⟩
  subst ht
  have hnote := wp_noteUpdate op
    ((t'.existingChannels.get? op.channelId).bind (·.channelNumber))
    (rowIf (describeChannelUpdate (t'.existingChannels.get? op.channelId) op.data ≠ [])
      ⟨"update", some op.channelId, t'.channelNameOf op.channelId⟩)
    (JournalRowSpec.stated_rowIf _ _)
    { t' with
      up := { t'.up with calls := t'.up.calls + 1 }.mapChannel op.channelId (·.patch op.data)
      writes := t'.writes + 1 }
  apply Eff.wp_mono hnote _ fun _ _ h => h.elim
  intro _ t ⟨hview, hresult⟩
  exact ⟨⟨⟨hgroup, hexpected⟩, hanswered⟩, hview, hresult⟩

/-- The loop body around an update. -/
theorem wp_applyUpdate {rowsRead : ℕ → ℕ} (hup : ctx.up = dispatcharr fails rowsRead) (i : ℕ)
    {op : BulkUpdateChannelOp} (hid : 0 ≤ op.channelId) {s : Exec Dispatcharr}
    (htemp : ∀ c ∈ s.result.tempIdMap, c < 0) :
    Eff.wp (applyOperation ctx (i, .updateChannel op))
      (fun _ t => GoesThrough fails ctx op s.view ∧ t.view = updatedView op s.view ∧
        t.result = s.result)
      (fun _ _ => ¬GoesThrough fails ctx op s.view) s := by
  have hnone : op.channelId ∉ s.result.tempIdMap := fun hmem => by
    have hneg := htemp _ hmem
    omega
  unfold applyOperation
  simp only [Eff.wp_bind, Eff.wp_modify, Eff.wp_tellLedger, Eff.wp_note]
  unfold OperationLedger.begin
  by_cases hopen : s.ledger.isOpen = true
  · rw [if_pos hopen]
    intro h
    have hclosed : s.ledger.isOpen = false := h.closed
    rw [hopen] at hclosed
    cases hclosed
  · rw [if_neg hopen]
    dsimp only [executeOperation]
    apply Eff.wp_mono (wp_executeUpdate hup hid _)
    · rintro _ t ⟨hgoes, hview, hresult⟩
      have hstatus : t.ledger.status = ⟨true, true, 0, false⟩ := congrArg ExecView.ledger hview
      have hisOpen : t.ledger.isOpen = true := congrArg LedgerStatus.isOpen hstatus
      have hpersisted : t.ledger.persisted = true := congrArg LedgerStatus.persisted hstatus
      have htold : t.ledger.told = true := by
        rw [OperationLedger.told, hpersisted, Bool.true_or, Bool.true_or]
      rw [Eff.wp_bind, Eff.wp_tellLedger, OperationLedger.recordApplied, if_pos htold,
        OperationLedger.close, if_pos hisOpen]
      have hclosed : s.ledger.isOpen = false := by simpa using hopen
      refine ⟨⟨hclosed, hgoes.1, hgoes.2.1, hgoes.2.2⟩, ?_, hresult⟩
      have hlast : { t.view with ledger := ⟨false, t.ledger.persisted, 0, false⟩ } =
          updatedView op s.view := by
        rw [hview, hpersisted]
        rfl
      exact hlast
    · exact fun _ _ hno h => hno ⟨h.accepted, h.answered, h.present⟩
    · rw [Exec.resolveId, (Dict.get?_eq_none _ _).mpr hnone, Option.getD_none]

theorem mapChannel_comm (d : Dispatcharr) {c c' : ℤ} (hne : c ≠ c') (data data' : ChannelPatch) :
    (d.mapChannel c (·.patch data)).mapChannel c' (·.patch data') =
      (d.mapChannel c' (·.patch data')).mapChannel c (·.patch data) := by
  unfold Dispatcharr.mapChannel
  simp only [List.map_map]
  congr 1
  apply List.map_congr_left
  intro ch _
  by_cases hc : ch.id = c
  · have hc' : ch.id ≠ c' := fun h => hne (hc.symm.trans h)
    simp [hc, hne]
  · by_cases hc' : ch.id = c'
    · simp [hc', Ne.symm hne]
    · simp [hc, hc']

theorem updatedView_comm {op op' : BulkUpdateChannelOp} (hne : op.channelId ≠ op'.channelId)
    (v : ExecView Dispatcharr) :
    updatedView op' (updatedView op v) = updatedView op (updatedView op' v) := by
  have hup : (updatedView op' (updatedView op v)).up = (updatedView op (updatedView op' v)).up :=
    mapChannel_comm { v.up with calls := v.up.calls + 1 + 1 } hne op.data op'.data
  have hchannel : (updatedView op' (updatedView op v)).channel =
      (updatedView op (updatedView op' v)).channel := by
    funext c
    dsimp only [updatedView]
    by_cases hc : c = op.channelId
    · simp [hc, hne]
    · by_cases hc' : c = op'.channelId
      · simp [hc', Ne.symm hne]
      · simp [hc, hc']
  calc updatedView op' (updatedView op v)
      = { updatedView op (updatedView op' v) with
          up := (updatedView op' (updatedView op v)).up
          channel := (updatedView op' (updatedView op v)).channel } := rfl
    _ = updatedView op (updatedView op' v) := by rw [hup, hchannel]

/-- An update neither adds nor removes a channel. -/
theorem isSome_updatedView (op : BulkUpdateChannelOp) (v : ExecView Dispatcharr) (c : ℤ) :
    ((updatedView op v).up.channel? c).isSome = true ↔ (v.up.channel? c).isSome = true := by
  dsimp only [updatedView]
  rw [Dispatcharr.channel?_mapChannel { v.up with calls := v.up.calls + 1 } op.channelId c
    (·.patch op.data) fun _ => rfl, Option.isSome_map]
  exact Iff.rfl

/-- Two updates may change places. -/
theorem GoesThrough.swap {op op' : BulkUpdateChannelOp}
    {v : ExecView Dispatcharr} (h : GoesThrough fails ctx op v)
    (h' : GoesThrough fails ctx op' (updatedView op v)) :
    GoesThrough fails ctx op' v ∧ GoesThrough fails ctx op (updatedView op' v) :=
  ⟨⟨h.closed, h'.accepted, h.answered, (isSome_updatedView op v op'.channelId).mp h'.present⟩,
    ⟨rfl, h.accepted, h'.answered, (isSome_updatedView op' v op.channelId).mpr h.present⟩⟩

end Edits

/-- The channel an operation renumbers, where the execution order may move it. -/
def editedChannel (e : IndexedOp) : Option ℤ := (numberingEdit? e.2).map Prod.fst

/-- Numbering edits of distinct channels. -/
structure IsNumberingRun (run : List IndexedOp) : Prop where
  edits : ∀ e ∈ run, (editedChannel e).isSome = true
  distinct : run.Pairwise fun a b => editedChannel a ≠ editedChannel b

theorem IsNumberingRun.perm {run run' : List IndexedOp} (h : IsNumberingRun run)
    (hperm : run.Perm run') : IsNumberingRun run' where
  edits e he := h.edits e (hperm.symm.subset he)
  distinct := hperm.pairwise h.distinct fun hne => Ne.symm hne

theorem IsNumberingRun.tail {e : IndexedOp} {run : List IndexedOp}
    (h : IsNumberingRun (e :: run)) : IsNumberingRun run where
  edits e' he' := h.edits e' (List.mem_cons_of_mem e he')
  distinct := (List.pairwise_cons.mp h.distinct).2

theorem exists_update {e : IndexedOp} (h : (editedChannel e).isSome = true) :
    ∃ op, e.2 = .updateChannel op ∧ 0 ≤ op.channelId ∧ editedChannel e = some op.channelId := by
  unfold editedChannel numberingEdit? at h ⊢
  cases hop : e.2 with
  | updateChannel op =>
    rw [hop] at h
    dsimp only at h ⊢
    by_cases hid : 0 ≤ op.channelId
    · rw [if_pos hid] at h ⊢
      refine ⟨op, rfl, hid, ?_⟩
      cases hn : op.data.channelNumber with
      | none => simp [hn] at h
      | some n => rfl
    · rw [if_neg hid] at h
      cases h
  | _ => simp [hop] at h

/-- Operations with some runs of numbering edits in another order. -/
inductive Resequenced : List IndexedOp → List IndexedOp → Prop
  | nil : Resequenced [] []
  | keep (ops ops' : List IndexedOp) (e : IndexedOp) (before : Resequenced ops ops') :
      Resequenced (ops ++ [e]) (ops' ++ [e])
  | run (ops ops' run run' : List IndexedOp) (before : Resequenced ops ops')
      (edits : IsNumberingRun run) (perm : run.Perm run') :
      Resequenced (ops ++ run) (ops' ++ run')

theorem Resequenced.perm {ops ops' : List IndexedOp} (h : Resequenced ops ops') :
    ops.Perm ops' := by
  induction h with
  | nil => exact List.Perm.refl []
  | keep _ _ e _ ih => exact ih.append_right [e]
  | run _ _ _ _ _ _ hperm ih => exact ih.append hperm

section Scan

variable {lineup : Dict ℤ Channel}

/-- What the scan has in hand: what it planned, and a run in progress. -/
structure Scanned (lineup : Dict ℤ Channel) (seen : List IndexedOp) (st : OrderState) : Prop where
  resequenced : ∃ planned, seen = planned ++ st.run.map Prod.fst ∧ Resequenced planned st.plan
  edits : ∀ e ∈ st.run, numberingEdit? e.1.2 = some e.2
  distinct : (st.run.map (·.2.1)).Nodup

theorem Scanned.isNumberingRun {seen : List IndexedOp} {st : OrderState}
    (h : Scanned lineup seen st) : IsNumberingRun (st.run.map Prod.fst) := by
  constructor
  · intro e he
    obtain ⟨x, hx, rfl⟩ := List.mem_map.mp he
    simp [editedChannel, h.edits x hx]
  · rw [List.pairwise_map]
    apply (List.pairwise_map.mp h.distinct).imp_of_mem
    intro a b ha hb hne
    simpa [editedChannel, h.edits a ha, h.edits b hb] using hne

/-- A flushed run is in the plan. -/
theorem Scanned.flush {seen : List IndexedOp} {st : OrderState} (h : Scanned lineup seen st) :
    Resequenced seen (st.flush lineup).plan := by
  obtain ⟨planned, rfl, hplan⟩ := h.resequenced
  exact .run _ _ _ _ hplan h.isNumberingRun (orderedRun_perm lineup h.distinct).symm

theorem orderStep_scanned {seen : List IndexedOp} {st : OrderState} (h : Scanned lineup seen st)
    (e : IndexedOp) : Scanned lineup (seen ++ [e]) (orderStep lineup st e) := by
  have hflushed : Scanned lineup (seen ++ [e])
      { st.flush lineup with plan := (st.flush lineup).plan ++ [e] } :=
    ⟨⟨seen ++ [e], by simp [OrderState.flush], .keep _ _ e h.flush⟩, by simp [OrderState.flush],
      List.nodup_nil⟩
  unfold orderStep
  cases hedit : numberingEdit? e.2 with
  | none => exact hflushed
  | some edit =>
    dsimp only
    by_cases hmem : edit.1 ∈ st.run.map (·.2.1)
    · rw [if_pos hmem]
      exact hflushed
    · rw [if_neg hmem]
      obtain ⟨planned, rfl, hplan⟩ := h.resequenced
      refine ⟨⟨planned, by simp, hplan⟩, ?_, ?_⟩
      · intro x hx
        cases List.mem_append.mp hx with
        | inl hx => exact h.edits x hx
        | inr hx =>
          rw [List.mem_singleton.mp hx]
          exact hedit
      · rw [List.map_append, List.nodup_append_comm]
        exact List.nodup_cons.mpr ⟨hmem, h.distinct⟩

end Scan

/-- The operations with their submitted indexes. -/
def submitted (operations : List BulkOperation) : List IndexedOp :=
  operations.zipIdx.map fun e => (e.2, e.1)

theorem numberingExecutionOrder_resequenced (operations : List BulkOperation)
    (lineup : Dict ℤ Channel) :
    Resequenced (submitted operations) (numberingExecutionOrder operations lineup) := by
  have hscan : ∀ (todo seen : List IndexedOp) (st : OrderState), Scanned lineup seen st →
      Scanned lineup (seen ++ todo) (todo.foldl (orderStep lineup) st) := by
    intro todo
    induction todo with
    | nil =>
      intro seen st h
      rw [List.append_nil]
      exact h
    | cons e todo ih =>
      intro seen st h
      have hrest := ih _ _ (orderStep_scanned h e)
      rw [List.append_assoc] at hrest
      exact hrest
  have hstart : Scanned lineup [] {} :=
    ⟨⟨[], rfl, .nil⟩, by simp, List.nodup_nil⟩
  exact (hscan _ [] {} hstart).flush

/-- Both operations are numbering edits in one run of consecutive ones on distinct channels. -/
def InOneRun (ops : List IndexedOp) (a b : IndexedOp) : Prop :=
  ∃ before run after, ops = before ++ run ++ after ∧ IsNumberingRun run ∧ a ∈ run ∧ b ∈ run

theorem InOneRun.append {ops : List IndexedOp} {a b : IndexedOp} (h : InOneRun ops a b)
    (more : List IndexedOp) : InOneRun (ops ++ more) a b := by
  obtain ⟨before, run, after, rfl, hrun, ha, hb⟩ := h
  exact ⟨before, run, after ++ more, by simp, hrun, ha, hb⟩

/-- Operations come in their submitted order, but for those of one run. -/
theorem Resequenced.pairwise {ops ops' : List IndexedOp} (h : Resequenced ops ops')
    (hsorted : ops.Pairwise fun a b => a.1 < b.1) :
    ops'.Pairwise fun a b => a.1 < b.1 ∨ InOneRun ops a b := by
  induction h with
  | nil => exact List.Pairwise.nil
  | keep ops ops' e before ih =>
    rw [List.pairwise_append] at hsorted ⊢
    refine ⟨(ih hsorted.1).imp fun h => h.imp_right (·.append [e]), List.pairwise_singleton _ _, ?_⟩
    exact fun a ha b hb => .inl (hsorted.2.2 a (before.perm.symm.subset ha) b hb)
  | run ops ops' run run' before hrun hperm ih =>
    rw [List.pairwise_append] at hsorted ⊢
    refine ⟨(ih hsorted.1).imp fun h => h.imp_right (·.append run), ?_, ?_⟩
    · apply List.pairwise_of_forall_mem_list
      intro a ha b hb
      exact .inr ⟨ops, run, [], by simp, hrun, hperm.symm.subset ha, hperm.symm.subset hb⟩
    · exact fun a ha b hb =>
        .inl (hsorted.2.2 a (before.perm.symm.subset ha) b (hperm.symm.subset hb))

theorem submitted_sorted (operations : List BulkOperation) :
    (submitted operations).Pairwise fun a b => a.1 < b.1 := by
  have hindexes : (submitted operations).map Prod.fst = List.range operations.length := by
    rw [submitted, List.map_map, List.range_eq_range', ← List.zipIdx_map_snd 0 operations]
    rfl
  have hrange := List.pairwise_lt_range (n := operations.length)
  rw [← hindexes, List.pairwise_map] at hrange
  exact hrange

section Runs

variable {fails : ℕ → Option String} {rowsRead : ℕ → ℕ} {ctx : BulkContext Dispatcharr}

/-- The operations one after the other, until one raises. -/
def applyAll (ctx : BulkContext Dispatcharr) (ops : List IndexedOp) : Eff (Exec Dispatcharr) Unit :=
  Eff.each (applyOperation ctx) ops

/-- From runs that read the same, where one list of operations goes through so does the other, and
the runs read the same after. -/
def GoesAs (ctx : BulkContext Dispatcharr) (ops ops' : List IndexedOp) : Prop :=
  ∀ s t s', Alike s t → applyAll ctx ops s = (.ok (), s') →
    ∃ t', applyAll ctx ops' t = (.ok (), t') ∧ Alike s' t'

theorem Alike.refl {s : Exec σ} (h : ∀ c ∈ s.result.tempIdMap, c < 0) : Alike s s := ⟨rfl, h⟩

theorem Alike.trans {s t u : Exec σ} (h : Alike s t) (h' : Alike t u) : Alike s u :=
  ⟨h.view.trans h'.view, h.tempIds⟩

theorem goesAs_refl (ctx : BulkContext Dispatcharr) (ops : List IndexedOp) : GoesAs ctx ops ops := by
  intro s t s' h hs
  obtain ⟨hout, hrel⟩ := parallel_each (parallel_applyOperation ctx) ops s t h
  rw [applyAll] at hs
  rw [hs] at hout hrel
  exact ⟨(applyAll ctx ops t).2, Prod.ext hout.symm rfl, hrel⟩

theorem GoesAs.append {ops ops' more more' : List IndexedOp} (h : GoesAs ctx ops ops')
    (hmore : GoesAs ctx more more') : GoesAs ctx (ops ++ more) (ops' ++ more') := by
  intro s t s' hst hs
  rw [applyAll, Eff.each_append] at hs
  cases hops : Eff.each (applyOperation ctx) ops s with
  | mk outcome u =>
    rw [hops] at hs
    cases outcome with
    | error e => cases hs
    | ok _ =>
      obtain ⟨u', hu', halike⟩ := h s t u hst hops
      obtain ⟨t', ht', halike'⟩ := hmore u u' s' halike hs
      refine ⟨t', ?_, halike'⟩
      rw [applyAll, Eff.each_append, ← applyAll, hu']
      exact ht'

/-- An update that goes through in one run does so in every run that reads the same. -/
theorem applyUpdate_ok (hup : ctx.up = dispatcharr fails rowsRead) {e : IndexedOp}
    {op : BulkUpdateChannelOp} (hop : e.2 = .updateChannel op) (hid : 0 ≤ op.channelId)
    {s : Exec Dispatcharr} (htemp : ∀ c ∈ s.result.tempIdMap, c < 0) :
    (∀ s', applyOperation ctx e s = (.ok (), s') →
      GoesThrough fails ctx op s.view ∧ s'.view = updatedView op s.view ∧ s'.result = s.result) ∧
    (GoesThrough fails ctx op s.view → ∃ s', applyOperation ctx e s = (.ok (), s')) := by
  obtain ⟨i, _⟩ := e
  cases hop
  have hwp := wp_applyUpdate hup i hid htemp
  constructor
  · exact fun s' hs => Eff.wp_exec hwp hs
  · intro hgoes
    cases hs : applyOperation ctx (i, .updateChannel op) s with
    | mk outcome s' =>
      cases outcome with
      | ok u => exact ⟨s', rfl⟩
      | error e => exact absurd hgoes (Eff.wp_exec hwp hs)

theorem goesAs_swap (hup : ctx.up = dispatcharr fails rowsRead) {a b : IndexedOp}
    (h : IsNumberingRun [a, b]) : GoesAs ctx [a, b] [b, a] := by
  intro s t s' hst hs
  obtain ⟨op, hop, hid, hedited⟩ := exists_update (h.edits a (by simp))
  obtain ⟨op', hop', hid', hedited'⟩ := exists_update (h.edits b (by simp))
  have htemp := hst.tempIds
  have htemp' : ∀ c ∈ t.result.tempIdMap, c < 0 := hst.tempIdMap ▸ htemp
  simp only [applyAll, Eff.each, Eff.bind_eq_ok] at hs ⊢
  obtain ⟨_, s₁, h₁, _, s₂, h₂, hend⟩ := hs
  obtain ⟨hgoes, hview, hresult⟩ := (applyUpdate_ok hup hop hid htemp).1 s₁ h₁
  have htemp₁ : ∀ c ∈ s₁.result.tempIdMap, c < 0 := hresult ▸ htemp
  obtain ⟨hgoes', hview', hresult'⟩ := (applyUpdate_ok hup hop' hid' htemp₁).1 s₂ h₂
  rw [hview] at hgoes'
  obtain ⟨hfirst, hsecond⟩ := hgoes.swap hgoes'
  rw [hst.view] at hfirst
  obtain ⟨t₁, ht₁⟩ := (applyUpdate_ok hup hop' hid' htemp').2 hfirst
  obtain ⟨_, htview, htresult⟩ := (applyUpdate_ok hup hop' hid' htemp').1 t₁ ht₁
  have htemp₂ : ∀ c ∈ t₁.result.tempIdMap, c < 0 := htresult ▸ htemp'
  rw [hst.view, ← htview] at hsecond
  obtain ⟨t₂, ht₂⟩ := (applyUpdate_ok hup hop hid htemp₂).2 hsecond
  obtain ⟨_, htview', _⟩ := (applyUpdate_ok hup hop hid htemp₂).1 t₂ ht₂
  cases hend
  refine ⟨t₂, ⟨_, t₁, ht₁, _, t₂, ht₂, rfl⟩, ?_, ?_⟩
  · have hne : op.channelId ≠ op'.channelId := by
      have hdistinct := (List.pairwise_cons.mp h.distinct).1 b (by simp)
      rw [hedited, hedited'] at hdistinct
      exact fun heq => hdistinct (congrArg some heq)
    rw [hview', hview, htview', htview, hst.view]
    exact updatedView_comm hne t.view
  · rw [hresult', hresult]
    exact htemp

/-- A run of numbering edits in any order. -/
theorem goesAs_perm (hup : ctx.up = dispatcharr fails rowsRead) {run run' : List IndexedOp}
    (hperm : run.Perm run') (h : IsNumberingRun run) : GoesAs ctx run run' := by
  induction hperm with
  | nil => exact goesAs_refl ctx []
  | cons e _ ih => exact (goesAs_refl ctx [e]).append (ih h.tail)
  | swap a b rest =>
    have hpair : IsNumberingRun [b, a] :=
      ⟨fun e he => h.edits e (by simp at he ⊢; tauto),
        h.distinct.sublist (List.Sublist.cons_cons b (List.Sublist.cons_cons a (List.nil_sublist _)))⟩
    exact (goesAs_swap hup hpair).append (goesAs_refl ctx rest)
  | trans hperm _ ih ih' =>
    intro s t s' hst hs
    obtain ⟨u, hu, halike⟩ := ih h s s s' (Alike.refl hst.tempIds) hs
    obtain ⟨t', ht', halike'⟩ := ih' (h.perm hperm) s t u hst hu
    exact ⟨t', ht', halike.trans halike'⟩

theorem Resequenced.goesAs (hup : ctx.up = dispatcharr fails rowsRead) {ops ops' : List IndexedOp}
    (h : Resequenced ops ops') : GoesAs ctx ops ops' ∧ GoesAs ctx ops' ops := by
  induction h with
  | nil => exact ⟨goesAs_refl ctx [], goesAs_refl ctx []⟩
  | keep _ _ e _ ih =>
    exact ⟨ih.1.append (goesAs_refl ctx [e]), ih.2.append (goesAs_refl ctx [e])⟩
  | run _ _ _ _ _ hrun hperm ih =>
    exact ⟨ih.1.append (goesAs_perm hup hperm hrun),
      ih.2.append (goesAs_perm hup hperm.symm (hrun.perm hperm))⟩

/-- The loop of Phase 2 over operations that go through. -/
theorem eachUntil_of_applyAll {ops : List IndexedOp} {s t : Exec Dispatcharr}
    (h : applyAll ctx ops s = (.ok (), t)) :
    Eff.eachUntil (attemptOperation ctx) ops s = (.ok (), t) := by
  induction ops generalizing s with
  | nil => exact h
  | cons e ops ih =>
    rw [applyAll, Eff.each, Eff.bind_eq_ok] at h
    obtain ⟨_, s', he, hrest⟩ := h
    rw [Eff.eachUntil, Eff.bind_eq_ok]
    exact ⟨true, s', attemptOperation_of_applies he, ih hrest⟩

/-- Every operation comes once with its submitted index; only edits of one run change places; and
where one order goes through so does the other, to the same store. -/
theorem numberingExecutionOrder_invisible (hup : ctx.up = dispatcharr fails rowsRead)
    (operations : List BulkOperation) (lineup : Dict ℤ Channel) :
    (numberingExecutionOrder operations lineup).Perm (submitted operations) ∧
      (numberingExecutionOrder operations lineup).Pairwise
        (fun a b => a.1 < b.1 ∨ InOneRun (submitted operations) a b) ∧
      ∀ s : Exec Dispatcharr, (∀ c ∈ s.result.tempIdMap, c < 0) →
        ((applyAll ctx (numberingExecutionOrder operations lineup) s).1 = .ok () ↔
          (applyAll ctx (submitted operations) s).1 = .ok ()) ∧
        ((applyAll ctx (numberingExecutionOrder operations lineup) s).1 = .ok () →
          (Eff.eachUntil (attemptOperation ctx)
            (numberingExecutionOrder operations lineup) s).2.up =
          (Eff.eachUntil (attemptOperation ctx) (submitted operations) s).2.up) := by
  have hreseq := numberingExecutionOrder_resequenced operations lineup
  obtain ⟨hgoes, hgoes'⟩ := hreseq.goesAs hup
  refine ⟨hreseq.perm.symm, hreseq.pairwise (submitted_sorted operations), ?_⟩
  intro s htemp
  have halike : Alike s s := Alike.refl htemp
  constructor
  · constructor
    · intro hok
      obtain ⟨t, ht, _⟩ := hgoes' s s _ halike (Prod.ext hok rfl)
      rw [ht]
    · intro hok
      obtain ⟨t, ht, _⟩ := hgoes s s _ halike (Prod.ext hok rfl)
      rw [ht]
  · intro hok
    have hordered : applyAll ctx (numberingExecutionOrder operations lineup) s =
        (.ok (), (applyAll ctx (numberingExecutionOrder operations lineup) s).2) := Prod.ext hok rfl
    obtain ⟨t, ht, hsame⟩ := hgoes' s s _ halike hordered
    rw [eachUntil_of_applyAll hordered, eachUntil_of_applyAll ht]
    exact hsame.up

/-- News moves onto the number Sports leaves, and is sent first. -/
def moveUp : List BulkOperation :=
  [.updateChannel { channelId := 1, data := { channelNumber := some (some 6) } },
    .updateChannel { channelId := 2, data := { channelNumber := some (some 7) } }]

def newsAndSports : Dispatcharr where
  channels := [{ id := 1, name := "News", channelNumber := some 5 },
    { id := 2, name := "Sports", channelNumber := some 6 }]
  nextId := 3

def newsAndSportsContext : BulkContext Dispatcharr where
  up := dispatcharr fun _ => none
  continueOnError := false
  channelsResolved := true
  streamsResolved := true
  existingStreams := ∅
  tempChannelNames := ∅
  numbersAtRunStart := ∅
  formatChannelNumber := fun _ => ""

def newsAndSportsRun : Exec Dispatcharr where
  up := newsAndSports
  ledger := { totalOperations := 2 }
  existingChannels := newsAndSports.channels.foldl (fun d ch => d.set ch.id ch) ∅

theorem numberingExecutionOrder_invisible_moveUp :
    let order := numberingExecutionOrder moveUp newsAndSportsRun.existingChannels
    order.map Prod.fst = [1, 0] ∧
      (Eff.eachUntil (attemptOperation newsAndSportsContext) order newsAndSportsRun).2.up =
        (Eff.eachUntil (attemptOperation newsAndSportsContext) (submitted moveUp)
          newsAndSportsRun).2.up := by
  intro order
  have hup : newsAndSportsContext.up = dispatcharr fun _ => none := rfl
  have h := numberingExecutionOrder_invisible hup moveUp newsAndSportsRun.existingChannels
  have hok : (applyAll newsAndSportsContext order newsAndSportsRun).1 = .ok () := by
    decide +kernel
  exact ⟨by decide +kernel, (h.2.2 newsAndSportsRun (by decide +kernel)).2 hok⟩

end Runs

end ChannelManager
