import ChannelManager.EditMode.WorkingCopy

/-!
# Undo and redo against the replay

`localUndo` restores from the snapshots taken at staging time and `localRedo` rebuilds a created
channel from one, while Apply replays the queue. The two agree as long as an undo has everything it
needs in the snapshots and a redo in the create's own fields.
-/

namespace ChannelManager.EditMode

@[simp] theorem restoreFields_id (snapshot : ChannelSnapshot) (ch : Channel) :
    (restoreFields snapshot ch).id = ch.id := rfl

@[simp] theorem restoreFields_createSnapshot (ch : Channel) :
    restoreFields (createSnapshot ch) ch = ch := rfl

@[simp] theorem restoreFields_restoreFields (a b : ChannelSnapshot) (ch : Channel) :
    restoreFields a (restoreFields b ch) = restoreFields a ch := rfl

/-- What restoring a channel's own snapshot makes of its record. -/
def restoredCell (channels : List Channel) (apiCall : ApiCallSpec) (snapshot : ChannelSnapshot)
    (c : ℤ) (record : Option Channel) : Option Channel :=
  match record, apiCall with
  | some ch, _ => some (restoreFields snapshot ch)
  | none, .deleteChannel _ => look channels c
  | none, _ => none

theorem look_modify (wc : List Channel) (d c : ℤ) (g : Channel → Channel)
    (hg : ∀ ch, (g ch).id = ch.id) (i : ℕ) (hi : wc.findIdx? (·.id = d) = some i) :
    look (wc.modify i g) c = if d = c then (look wc c).map g else look wc c := by
  induction wc generalizing i with
  | nil => simp at hi
  | cons x wc ih =>
    rw [List.findIdx?_cons] at hi
    by_cases hx : x.id = d
    · have hi0 : i = 0 := by simpa [hx] using hi.symm
      subst hi0
      by_cases hdc : d = c
      · simp [look, hg, hx, hdc]
      · simp [look, hg, hx, hdc]
    · simp only [hx, decide_false, Bool.false_eq_true, if_false, Option.map_eq_some_iff] at hi
      rcases hi with ⟨j, hj, rfl⟩
      have ih' := ih j hj
      by_cases hxc : x.id = c
      · have hdc : d ≠ c := fun h => hx (hxc.trans h.symm)
        simp [look, hxc, hdc]
      · simpa [look, List.find?_cons, hxc] using ih'

theorem baselineSnapshot_find? (s : Session) (c : ℤ) :
    s.baselineSnapshot.find? (·.id = c) = (look s.channels c).map createSnapshot := by
  simp only [Session.baselineSnapshot, List.find?_map, look]
  rfl

theorem look_restoreSnapshot (s : Session) (apiCall : ApiCallSpec) (wc : List Channel)
    (snapshot : ChannelSnapshot) (c : ℤ) :
    look (restoreSnapshot s apiCall wc snapshot) c =
      if snapshot.id = c then restoredCell s.channels apiCall snapshot c (look wc c)
      else look wc c := by
  unfold restoreSnapshot
  cases hi : wc.findIdx? (·.id = snapshot.id) with
  | some i =>
    rw [look_modify wc snapshot.id c _ (restoreFields_id snapshot) i hi]
    by_cases hc : snapshot.id = c
    · have hsome : (look wc c).isSome := by
        have h := congrArg Option.isSome hi
        rw [List.findIdx?_isSome] at h
        rw [← hc]
        simpa [look, List.find?_isSome] using h
      cases hl : look wc c with
      | none => simp [hl] at hsome
      | some ch => simp [hc, restoredCell]
    · simp [hc]
  | none =>
    have hnone : look wc snapshot.id = none := by
      rw [look_eq_none]
      simpa [List.findIdx?_eq_none_iff] using hi
    have hother : ∀ hne : ¬snapshot.id = c, ∀ o : Channel, look s.channels snapshot.id = some o →
        look (wc ++ [o]) c = look wc c := by
      intro hne o ho
      rw [look_append, look_singleton, look_id ho, if_neg hne, Option.or_none]
    by_cases hc : snapshot.id = c
    · rw [if_pos hc]
      subst hc
      cases apiCall
      case deleteChannel d =>
        simp only [baselineSnapshot_find?, restoredCell, hnone]
        cases ho : look s.channels snapshot.id with
        | none => simpa using hnone
        | some o =>
          have ho' : s.channels.find? (·.id = snapshot.id) = some o := ho
          simp [ho', look_append, look_singleton, look_id ho, hnone]
      all_goals simp [restoredCell, hnone]
    · rw [if_neg hc]
      cases apiCall
      case deleteChannel d =>
        simp only [baselineSnapshot_find?]
        cases ho : look s.channels snapshot.id with
        | none => rfl
        | some o =>
          have ho' : s.channels.find? (·.id = snapshot.id) = some o := ho
          simpa [ho'] using hother hc o ho
      all_goals rfl

/-- The record of channel `c` after one operation is undone, from the one before. -/
def uncell (channels : List Channel) (operation : StagedOperation) (c : ℤ)
    (record : Option Channel) : Option Channel :=
  if operation.createdId? = some c then none
  else
    match operation.beforeSnapshot.find? (·.id = c) with
    | none => record
    | some snapshot => restoredCell channels operation.apiCall snapshot c record

theorem look_restoreSnapshots (s : Session) (apiCall : ApiCallSpec)
    (snapshots : List ChannelSnapshot) (hn : (snapshots.map (·.id)).Nodup) (wc : List Channel)
    (c : ℤ) :
    look (snapshots.foldl (restoreSnapshot s apiCall) wc) c =
      match snapshots.find? (·.id = c) with
      | none => look wc c
      | some snapshot => restoredCell s.channels apiCall snapshot c (look wc c) := by
  induction snapshots generalizing wc with
  | nil => rfl
  | cons snapshot snapshots ih =>
    have hn' := List.nodup_cons.mp hn
    rw [List.foldl_cons, ih hn'.2, look_restoreSnapshot]
    by_cases hc : snapshot.id = c
    · have htail : snapshots.find? (·.id = c) = none := by
        rw [List.find?_eq_none]
        intro x hx hxc
        exact hn'.1 (List.mem_map.mpr ⟨x, hx, (of_decide_eq_true hxc).trans hc.symm⟩)
      simp [htail, hc]
    · simp [hc]

theorem look_undoOnWorkingCopy (s : Session) (wc : List Channel) (op : StagedOperation)
    (hn : (op.beforeSnapshot.map (·.id)).Nodup) (hneg : ∀ t, op.createdId? = some t → t < 0)
    (c : ℤ) : look (undoOnWorkingCopy s wc op) c = uncell s.channels op c (look wc c) := by
  have hrestored := look_restoreSnapshots s op.apiCall op.beforeSnapshot hn wc c
  unfold undoOnWorkingCopy uncell
  cases hcall : op.apiCall
  case createChannel call =>
    cases ht : op.snapshotId? with
    | none =>
      have hcreated : op.createdId? = none := by simp [StagedOperation.createdId?, hcall, ht]
      simpa [hcreated, hcall] using hrestored
    | some t =>
      have hcreated : op.createdId? = some t := by simp [StagedOperation.createdId?, hcall, ht]
      simp only [if_pos (hneg t hcreated), look_filter_ne, hcreated, Option.some.injEq]
      rw [← hcall, hrestored]
  all_goals
    have hcreated : op.createdId? = none := by simp [StagedOperation.createdId?, hcall]
    simpa [hcreated, hcall] using hrestored

/-- An operation carries what was recorded when it was staged on top of `before`. -/
structure Fits (base : List Channel) (before : List StagedOperation) (op : StagedOperation) :
    Prop where
  snapshot : ∀ c, op.beforeSnapshot.find? (·.id = c) =
    if c ∈ affectedChannelIdsOf op.apiCall then (look (replayed base before) c).map createSnapshot
    else none
  nodup : (op.beforeSnapshot.map (·.id)).Nodup
  created : ∀ call, op.apiCall = .createChannel call →
    ∃ t, t < 0 ∧ op.afterSnapshot = [createSnapshot (buildStagedChannel call t)]
  fresh : ∀ t, op.createdId? = some t → look base t = none ∧
    ∀ earlier ∈ before, earlier.createdId? ≠ some t

/-- Every operation of a trail was staged on top of those before it. -/
def Recorded (base : List Channel) (trail : List StagedOperation) : Prop :=
  ∀ before op after, trail = before ++ op :: after → Fits base before op

theorem Recorded.of_append {base : List Channel} {xs ys : List StagedOperation}
    (h : Recorded base (xs ++ ys)) : Recorded base xs := by
  intro before op after hxs
  exact h before op (after ++ ys) (by simp [hxs])

theorem Recorded.concat {base : List Channel} {xs : List StagedOperation} {op : StagedOperation}
    (h : Recorded base xs) (hop : Fits base xs op) : Recorded base (xs ++ [op]) := by
  intro before op' after heq
  rcases List.eq_nil_or_concat after with hnil | ⟨after', last, hconcat⟩
  · subst hnil
    have hparts := List.append_inj' heq rfl
    have hop' : op = op' := by simpa using hparts.2
    rw [← hparts.1, ← hop']
    exact hop
  · subst hconcat
    rw [List.concat_eq_append, ← List.cons_append, ← List.append_assoc] at heq
    exact h before op' after' (List.append_inj' heq rfl).1

theorem Fits.createdId {base : List Channel} {before : List StagedOperation} {op : StagedOperation}
    (h : Fits base before op) {call : CreateChannelCall} (hcall : op.apiCall = .createChannel call) :
    op.createdId? = some op.tempId ∧ op.tempId < 0 ∧
      op.afterSnapshot = [createSnapshot (buildStagedChannel call op.tempId)] := by
  rcases h.created call hcall with ⟨t, ht, hafter⟩
  have hid : op.snapshotId? = some t := by
    rw [StagedOperation.snapshotId?, hafter]
    rfl
  have htemp : op.tempId = t := by simp [StagedOperation.tempId, hid]
  refine ⟨?_, ?_, ?_⟩
  · simp [StagedOperation.createdId?, hcall, hid, htemp]
  · rw [htemp]; exact ht
  · rw [htemp]; exact hafter

theorem Fits.created_neg {base : List Channel} {before : List StagedOperation}
    {op : StagedOperation} (h : Fits base before op) {t : ℤ} (ht : op.createdId? = some t) :
    t < 0 := by
  cases hcall : op.apiCall
  case createChannel call =>
    have hids := h.createdId hcall
    rw [hids.1, Option.some.injEq] at ht
    rw [← ht]
    exact hids.2.1
  all_goals simp [StagedOperation.createdId?, hcall] at ht

theorem Fits.tempId_ne {base : List Channel} {before : List StagedOperation}
    {op : StagedOperation} (h : Fits base before op) {c : ℤ} (hc : op.createdId? ≠ some c)
    (call : CreateChannelCall) (hcall : op.apiCall = .createChannel call) : op.tempId ≠ c := by
  intro heq
  exact hc (heq ▸ (h.createdId hcall).1)

/-- A channel that nothing creates does not appear. -/
theorem look_replayed_eq_none {base : List Channel} {ops : List StagedOperation} {c : ℤ}
    (hrec : Recorded base ops) (hbase : look base c = none)
    (hops : ∀ op ∈ ops, op.createdId? ≠ some c) : look (replayed base ops) c = none := by
  induction ops using List.reverseRecOn with
  | nil => exact hbase
  | append_singleton ops op ih =>
    have hfits := hrec ops op [] rfl
    have hop := hops op (by simp)
    rw [look_replayed_concat, ih hrec.of_append (fun x hx => hops x (by simp [hx]))]
    exact cell_none (hfits.tempId_ne hop)

/-- Undo a list of operations, newest first, on one record. -/
def uncells (channels : List Channel) (ops : List StagedOperation) (c : ℤ)
    (record : Option Channel) : Option Channel :=
  ops.foldr (fun op record => uncell channels op c record) record

theorem look_undo_reverse (s : Session) (ops : List StagedOperation) (wc : List Channel)
    (hn : ∀ op ∈ ops, (op.beforeSnapshot.map (·.id)).Nodup)
    (hneg : ∀ op ∈ ops, ∀ t, op.createdId? = some t → t < 0) (c : ℤ) :
    look (ops.reverse.foldl (undoOnWorkingCopy s) wc) c =
      uncells s.channels ops c (look wc c) := by
  induction ops with
  | nil => rfl
  | cons op ops ih =>
    rw [List.reverse_cons, List.foldl_append, List.foldl_cons, List.foldl_nil,
      look_undoOnWorkingCopy s _ op (hn op (by simp)) (hneg op (by simp)),
      ih (fun x hx => hn x (by simp [hx])) (fun x hx => hneg x (by simp [hx]))]
    rfl

def StagedOperation.isDelete (op : StagedOperation) : Bool :=
  match op.apiCall with
  | .deleteChannel _ => true
  | _ => false

theorem restoredCell_of_not_delete {channels : List Channel} {op : StagedOperation}
    (h : op.isDelete = false) (snapshot : ChannelSnapshot) (c : ℤ) (record : Option Channel) :
    restoredCell channels op.apiCall snapshot c record = record.map (restoreFields snapshot) := by
  cases record with
  | some ch => rfl
  | none =>
    cases hcall : op.apiCall
    case deleteChannel d => simp [StagedOperation.isDelete, hcall] at h
    all_goals rfl

/-- A record survives every operation on it that is not a delete. -/
theorem cell_some_of_not_delete {op : StagedOperation} (h : op.isDelete = false) (c : ℤ)
    (ch : Channel) : ∃ ch', cell op.apiCall op.tempId c (some ch) = some ch' := by
  cases hcall : op.apiCall
  case deleteChannel d => simp [StagedOperation.isDelete, hcall] at h
  case createChannel call => exact ⟨ch, rfl⟩
  all_goals exact ⟨_, rfl⟩

theorem look_replayed_append_of_none {base : List Channel} {before ops : List StagedOperation}
    {c : ℤ} (hrec : Recorded base (before ++ ops)) (hnone : look (replayed base before) c = none)
    (hops : ∀ op ∈ ops, op.createdId? ≠ some c) :
    look (replayed base (before ++ ops)) c = none := by
  induction ops using List.reverseRecOn with
  | nil => simpa using hnone
  | append_singleton ops op ih =>
    rw [← List.append_assoc] at hrec
    have hfits := hrec (before ++ ops) op [] rfl
    rw [← List.append_assoc, look_replayed_concat,
      ih hrec.of_append (fun x hx => hops x (by simp [hx]))]
    exact cell_none (hfits.tempId_ne (hops op (by simp)))

theorem look_replayed_append_of_untouched {base : List Channel}
    {before ops : List StagedOperation} {c : ℤ} (hrec : Recorded base (before ++ ops))
    (hops : ∀ op ∈ ops, op.createdId? ≠ some c)
    (htouch : ∀ op ∈ ops, c ∉ affectedChannelIdsOf op.apiCall) :
    look (replayed base (before ++ ops)) c = look (replayed base before) c := by
  induction ops using List.reverseRecOn with
  | nil => simp
  | append_singleton ops op ih =>
    rw [← List.append_assoc] at hrec
    have hfits := hrec (before ++ ops) op [] rfl
    rw [← List.append_assoc, look_replayed_concat,
      cell_of_not_affected (hfits.tempId_ne (hops op (by simp))) (htouch op (by simp))
        (fun _ => look_id)]
    exact ih hrec.of_append (fun x hx => hops x (by simp [hx]))
      (fun x hx => htouch x (by simp [hx]))

/-- What undoing `ops` leaves of a channel they do not create: the last four fields come from the
oldest snapshot, the others from what is shown, or from the original list after a delete. -/
def undoneRecord (ops : List StagedOperation) (c : ℤ) (before shown original : Option Channel) :
    Option Channel :=
  match ops.find? (c ∈ affectedChannelIdsOf ·.apiCall), before, shown with
  | none, _, _ => before
  | some _, none, _ => none
  | some _, some ch, some ch' => some (restoreFields (createSnapshot ch) ch')
  | some op, some ch, none =>
    if op.isDelete then original else original.map (restoreFields (createSnapshot ch))

theorem undoneRecord_none (ops : List StagedOperation) (c : ℤ) (shown original : Option Channel) :
    undoneRecord ops c none shown original = none := by
  unfold undoneRecord
  cases ops.find? (c ∈ affectedChannelIdsOf ·.apiCall) <;> rfl

theorem undoneRecord_cons_untouched {op : StagedOperation} {c : ℤ}
    (h : c ∉ affectedChannelIdsOf op.apiCall) (ops : List StagedOperation)
    (before shown original : Option Channel) :
    undoneRecord (op :: ops) c before shown original = undoneRecord ops c before shown original := by
  simp [undoneRecord, h]

theorem undoneRecord_cons_touched {op : StagedOperation} {c : ℤ}
    (h : c ∈ affectedChannelIdsOf op.apiCall) (ops : List StagedOperation) (ch : Channel)
    (shown original : Option Channel) :
    undoneRecord (op :: ops) c (some ch) shown original =
      match shown with
      | some ch' => some (restoreFields (createSnapshot ch) ch')
      | none => if op.isDelete then original
          else original.map (restoreFields (createSnapshot ch)) := by
  cases shown <;> simp [undoneRecord, h]

theorem uncell_of_untouched {base : List Channel} {before : List StagedOperation}
    {op : StagedOperation} {c : ℤ} (hfits : Fits base before op) (hop : op.createdId? ≠ some c)
    (htouch : c ∉ affectedChannelIdsOf op.apiCall) (record : Option Channel) :
    uncell base op c record = record := by
  have hsnap := hfits.snapshot c
  rw [if_neg htouch] at hsnap
  simp [uncell, hop, hsnap]

theorem uncell_of_touched {base : List Channel} {before : List StagedOperation}
    {op : StagedOperation} {c : ℤ} (hfits : Fits base before op) (hop : op.createdId? ≠ some c)
    (htouch : c ∈ affectedChannelIdsOf op.apiCall) (record : Option Channel) :
    uncell base op c record =
      match look (replayed base before) c with
      | none => record
      | some ch => restoredCell base op.apiCall (createSnapshot ch) c record := by
  have hsnap := hfits.snapshot c
  rw [if_pos htouch] at hsnap
  unfold uncell
  rw [if_neg hop, hsnap]
  cases look (replayed base before) c <;> rfl

theorem cell_of_isDelete {op : StagedOperation} {c : ℤ} (h : op.isDelete = true)
    (htouch : c ∈ affectedChannelIdsOf op.apiCall) (record : Option Channel) :
    cell op.apiCall op.tempId c record = none ∧
      ∀ channels snapshot, restoredCell channels op.apiCall snapshot c none = look channels c := by
  cases hcall : op.apiCall
  case deleteChannel d =>
    have hd : d = c := by simpa [affectedChannelIdsOf, hcall, eq_comm] using htouch
    exact ⟨by simp [cell, hd], fun _ _ => rfl⟩
  all_goals simp [StagedOperation.isDelete, hcall] at h

/-- Undoing recorded operations, as long as they do not create the channel. -/
theorem uncells_eq_undoneRecord {base : List Channel} (before ops : List StagedOperation) {c : ℤ}
    (hrec : Recorded base (before ++ ops)) (hops : ∀ op ∈ ops, op.createdId? ≠ some c) :
    uncells base ops c (look (replayed base (before ++ ops)) c) =
      undoneRecord ops c (look (replayed base before) c)
        (look (replayed base (before ++ ops)) c) (look base c) := by
  induction ops generalizing before with
  | nil => simp [uncells, undoneRecord]
  | cons op ops ih =>
    have hfits : Fits base before op := hrec before op ops rfl
    have hop := hops op (by simp)
    have hops' : ∀ x ∈ ops, x.createdId? ≠ some c := fun x hx => hops x (by simp [hx])
    have hsplit : before ++ op :: ops = (before ++ [op]) ++ ops := by simp
    rw [hsplit] at hrec ⊢
    have hrest := ih (before ++ [op]) hrec hops'
    have hstep := look_replayed_concat base before op c
    rw [hstep] at hrest
    show uncell base op c (uncells base ops c _) = _
    rw [hrest]
    by_cases htouch : c ∈ affectedChannelIdsOf op.apiCall
    · rw [uncell_of_touched hfits hop htouch]
      cases hx : look (replayed base before) c with
      | none =>
        rw [cell_none (hfits.tempId_ne hop), undoneRecord_none, undoneRecord_none]
      | some ch =>
        rw [undoneRecord_cons_touched htouch]
        cases hdel : op.isDelete with
        | true =>
          have hcell := cell_of_isDelete hdel htouch (some ch)
          have hgone : look (replayed base (before ++ [op])) c = none := by
            rw [hstep, hx, hcell.1]
          rw [look_replayed_append_of_none hrec hgone hops', hcell.1, undoneRecord_none]
          exact hcell.2 base _
        | false =>
          rcases cell_some_of_not_delete hdel c ch with ⟨ch', hch'⟩
          simp only [hch', restoredCell_of_not_delete hdel]
          unfold undoneRecord
          cases hfind : ops.find? (c ∈ affectedChannelIdsOf ·.apiCall) with
          | none =>
            have huntouched : ∀ x ∈ ops, c ∉ affectedChannelIdsOf x.apiCall := by
              simpa [List.find?_eq_none] using hfind
            rw [look_replayed_append_of_untouched hrec hops' huntouched, hstep, hx, hch']
            rfl
          | some first =>
            cases look (replayed base (before ++ [op] ++ ops)) c with
            | some shown => rfl
            | none =>
              cases hfirst : first.isDelete <;> cases look base c <;> simp [hfirst]
    · rw [uncell_of_untouched hfits hop htouch, undoneRecord_cons_untouched htouch,
        cell_of_not_affected (hfits.tempId_ne hop) htouch (fun _ => look_id)]

theorem look_replayed_before_created {base : List Channel} {before ops : List StagedOperation}
    {c : ℤ} (hrec : Recorded base (before ++ ops))
    (hcreated : ∃ op ∈ ops, op.createdId? = some c) : look (replayed base before) c = none := by
  rcases hcreated with ⟨creator, hmem, hc⟩
  rcases List.append_of_mem hmem with ⟨xs, ys, rfl⟩
  have hfresh := (hrec (before ++ xs) creator ys (by simp)).fresh c hc
  exact look_replayed_eq_none hrec.of_append hfresh.1
    (fun op hop => hfresh.2 op (List.mem_append_left _ hop))

/-- Undoing the operation that created a channel takes the channel away. -/
theorem uncells_of_created {base : List Channel} (before ops : List StagedOperation) {c : ℤ}
    (hrec : Recorded base (before ++ ops)) (hcreated : ∃ op ∈ ops, op.createdId? = some c)
    (record : Option Channel) : uncells base ops c record = none := by
  induction ops generalizing before with
  | nil => simp at hcreated
  | cons op ops ih =>
    show uncell base op c (uncells base ops c record) = none
    by_cases hop : op.createdId? = some c
    · simp [uncell, hop]
    · have hlater : ∃ x ∈ ops, x.createdId? = some c := by simpa [hop] using hcreated
      have hfits : Fits base before op := hrec before op ops rfl
      have hbefore := look_replayed_before_created hrec hcreated
      rw [ih (before ++ [op]) (by simpa using hrec) hlater]
      by_cases htouch : c ∈ affectedChannelIdsOf op.apiCall
      · rw [uncell_of_touched hfits hop htouch, hbefore]
      · exact uncell_of_untouched hfits hop htouch none

/-- The snapshots hold everything the undo of `ops` has to put back on channel `c`: what is shown
differs from the record before `ops` in snapshot fields only; a channel they deleted is the one in
the original list, up to those fields when an earlier operation of `ops` recorded them. -/
def SnapshotsSuffice (ops : List StagedOperation) (c : ℤ) (before shown original : Option Channel) :
    Prop :=
  match before, shown with
  | none, _ => True
  | some ch, some ch' => restoreFields (createSnapshot ch) ch' = ch
  | some ch, none =>
    if (ops.find? (c ∈ affectedChannelIdsOf ·.apiCall)).any (·.isDelete) then original = some ch
    else original.map (restoreFields (createSnapshot ch)) = some ch

instance (ops : List StagedOperation) (c : ℤ) (before shown original : Option Channel) :
    Decidable (SnapshotsSuffice ops c before shown original) :=
  match before, shown with
  | none, _ => inferInstanceAs (Decidable True)
  | some ch, some ch' => inferInstanceAs (Decidable (restoreFields (createSnapshot ch) ch' = ch))
  | some ch, none =>
    inferInstanceAs (Decidable (if (ops.find? (c ∈ affectedChannelIdsOf ·.apiCall)).any (·.isDelete)
      then original = some ch else original.map (restoreFields (createSnapshot ch)) = some ch))

theorem undoneRecord_eq_before {ops : List StagedOperation} {c : ℤ}
    {before shown original : Option Channel}
    (h : (∃ op ∈ ops, c ∈ affectedChannelIdsOf op.apiCall) →
      SnapshotsSuffice ops c before shown original) :
    undoneRecord ops c before shown original = before := by
  cases hfind : ops.find? (c ∈ affectedChannelIdsOf ·.apiCall) with
  | none => simp [undoneRecord, hfind]
  | some op =>
    have htouch : c ∈ affectedChannelIdsOf op.apiCall := by
      simpa using List.find?_some hfind
    have hs := h ⟨op, List.mem_of_find?_eq_some hfind, htouch⟩
    cases before with
    | none => exact undoneRecord_none ops c shown original
    | some ch =>
      cases shown with
      | some ch' => simpa [undoneRecord, SnapshotsSuffice, hfind] using hs
      | none =>
        cases hdel : op.isDelete <;> simpa [undoneRecord, SnapshotsSuffice, hfind, hdel] using hs

end ChannelManager.EditMode
