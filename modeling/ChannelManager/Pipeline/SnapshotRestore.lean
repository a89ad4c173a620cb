import ChannelManager.Pipeline.Unwound
import Mathlib.Data.List.Induction

/-!
# What a rollback with a snapshot undoes

A run changes more than its actions record: passes over the channels reorder and prune streams,
renumber and rename, move orphans and delete them. The snapshot has what was there before, of the
channels it takes in; a deletion that fails goes unreported, and a run that the journal accounts for
is undone from the journal alone.
-/

namespace ChannelManager.Pipeline

/-- A step of a run: a change by an action, a write by a pass that records nothing, or the deletion
of an orphan. -/
inductive RunStep
  | change (c : Change)
  | rewrite (key : ChannelKey) (patch : RowPatch)
  | delete (key : ChannelKey)

namespace Run

def step (r : Run) : RunStep → Run
  | .change c => r.change c
  | .rewrite key patch => { r with channels := r.channels.modify key patch.apply }
  | .delete key => { r with channels := r.channels.erase key }

/-- The steps of a run, one after the other. -/
def steps (r : Run) (ss : List RunStep) : Run := ss.foldl step r

/-- What is stored of a run over the channels there were, the master groups of its event_sync rules
being as configured. -/
def snapshotted (r : Run) (status : RunStatus) (b : Before) (masterGroupIds : List ℤ) : Execution :=
  r.execution status (some (captureSnapshot masterGroupIds b.channels))

end Run

section Restoring

variable (failures : Failures)

/-- The channels of a run were there or are recorded as created. -/
structure Accounted (b : Before) (r : Run) : Prop where
  channels : ∀ key ∈ r.channels, key ∈ b.channels ∨ .channel key ∈ r.created
  fresh : ∀ key, .channel key ∈ r.created → ∃ n, key = .created n

theorem accounted_step {b : Before} {r : Run} (h : Accounted b r) (s : RunStep) :
    Accounted b (r.step s) := by
  cases s with
  | rewrite key patch =>
    refine ⟨fun k hk => ?_, h.fresh⟩
    obtain ⟨row, hrow⟩ := Dict.exists_get? hk
    apply h.channels k
    simp only [Run.step, Dict.get?_modify] at hrow
    split at hrow
    · obtain ⟨row', hrow', _⟩ := Option.map_eq_some_iff.mp hrow
      simp_all [Dict.mem_of_get? hrow']
    · exact Dict.mem_of_get? hrow
  | delete key =>
    refine ⟨fun k hk => ?_, h.fresh⟩
    obtain ⟨row, hrow⟩ := Dict.exists_get? hk
    simp only [Run.step, Dict.get?_erase] at hrow
    split at hrow
    · cases hrow
    · exact h.channels k (Dict.mem_of_get? hrow)
  | change c =>
    cases c with
    | createGroup =>
      exact ⟨fun k hk => by simpa [Run.step, Run.change, Run.createGroup] using h.channels k hk,
        fun k hk => h.fresh k (by simpa [Run.step, Run.change, Run.createGroup] using hk)⟩
    | createChannel row =>
      refine ⟨fun k hk => ?_, fun k hk => ?_⟩
      · simp only [Run.step, Run.change, Run.createChannel, Dict.mem_set, List.mem_append,
          List.mem_singleton, Created.channel.injEq] at hk ⊢
        have hold := h.channels k
        tauto
      · simp only [Run.step, Run.change, Run.createChannel, List.mem_append, List.mem_singleton,
          Created.channel.injEq] at hk
        exact hk.elim (h.fresh k) fun hnew => ⟨r.nextChannel, hnew⟩
    | act key action =>
      rcases r.act_cases key action with hsame | ⟨row, w, hget, _, hrun⟩
      · simpa only [Run.step, Run.change, hsame] using h
      · refine ⟨fun k hk => ?_, fun k hk => h.fresh k (by
          simpa [Run.step, Run.change, hrun] using hk)⟩
        simp only [Run.step, Run.change, hrun, Run.perform_channels, Dict.mem_set,
          Run.perform_created] at hk ⊢
        exact hk.elim (fun heq => heq ▸ h.channels key (Dict.mem_of_get? hget)) (h.channels k)

theorem accounted (b : Before) (ss : List RunStep) : Accounted b ((Run.start b).steps ss) := by
  have hstart : Accounted b (.start b) :=
    ⟨fun key hkey => .inl hkey, fun key hkey => by simp [Run.start] at hkey⟩
  unfold Run.steps
  induction ss using List.reverseRecOn with
  | nil => exact hstart
  | append_singleton ss s ih =>
    rw [List.foldl_append]
    exact accounted_step ih s

/-- A channel that was there before the run was not created by it. -/
theorem Accounted.not_created {b : Before} {r : Run} (h : Accounted b r) {key : ChannelKey}
    (hkey : key ∈ b.channels) : .channel key ∉ r.created := by
  intro hnew
  obtain ⟨n, hn⟩ := h.fresh key hnew
  obtain ⟨id, hid⟩ := b.loaded key hkey
  rw [hn] at hid
  cases hid

/-- The snapshot has a channel unless it leaves it out. -/
theorem find?_captureSnapshot {masterGroupIds : List ℤ} {channels : Dict ChannelKey Row}
    {key : ChannelKey} {row : Row} (h : channels.get? key = some row) :
    (captureSnapshot masterGroupIds channels).find? (·.id = key) =
      if excluded masterGroupIds row then none else some (.of key row) := by
  have huniq : ∀ e ∈ channels.items, e.1 = key → e = (key, row) := by
    intro e he hkey
    have hget := (Dict.get?_eq_some channels e.1 e.2).mpr he
    rw [hkey, h] at hget
    exact Prod.ext hkey (Option.some.inj hget).symm
  unfold captureSnapshot
  rw [List.find?_map, List.find?_filter]
  by_cases hout : excluded masterGroupIds row
  · rw [if_pos hout, Option.map_eq_none_iff, List.find?_eq_none]
    intro e he
    by_cases hkey : e.1 = key
    · simp [huniq e he hkey, hout]
    · simp [SnapshotChannel.of, hkey]
  · have hmem := (Dict.get?_eq_some channels key row).mp h
    rw [if_neg hout]
    cases hfind : channels.items.find? fun e =>
        decide ((!excluded masterGroupIds e.2) = true ∧
          ((fun ch : SnapshotChannel => decide (ch.id = key)) ∘ fun e => .of e.1 e.2) e = true) with
    | none =>
      have := List.find?_eq_none.mp hfind _ hmem
      simp [hout, SnapshotChannel.of] at this
    | some e =>
      have hp := List.find?_some hfind
      have hkey : e.1 = key := by
        simp only [Function.comp_apply, SnapshotChannel.of, decide_eq_true_eq] at hp
        exact hp.2
      rw [huniq e (List.mem_of_find?_eq_some hfind) hkey]
      rfl

theorem nodup_captureSnapshot (masterGroupIds : List ℤ) (channels : Dict ChannelKey Row) :
    ((captureSnapshot masterGroupIds channels).map (·.id)).Nodup := by
  have hkeys := channels.nodup_keys
  unfold captureSnapshot
  rw [List.map_map]
  exact (List.filter_sublist.map _).nodup hkeys

/-- When no channel fails, each channel of the snapshot is written back. -/
theorem get?_restoreChannels {chs : List SnapshotChannel} (hnodup : (chs.map (·.id)).Nodup)
    {u : Upstream} (h : (restoreChannels failures chs u).1 = []) (key : ChannelKey) :
    (restoreChannels failures chs u).2.channels.get? key = (u.channels.get? key).map fun row =>
      match chs.find? (·.id = key) with
      | none => row
      | some ch => (restorePayload ch).apply row := by
  induction chs generalizing u with
  | nil => simp [restoreChannels]
  | cons ch chs ih =>
    rw [List.map_cons, List.nodup_cons] at hnodup
    unfold restoreChannels at h ⊢
    split
    · rename_i hfail
      rw [if_pos hfail] at h
      simp at h
    · rename_i hfail
      rw [if_neg hfail] at h
      rw [ih hnodup.2 h, Dict.get?_modify]
      by_cases hk : ch.id = key
      · have hrest : chs.find? (·.id = key) = none := by
          rw [List.find?_eq_none]
          intro ch' hch' heq
          have heq : ch'.id = key := by simpa using heq
          exact hnodup.1 (List.mem_map.mpr ⟨ch', hch', heq.trans hk.symm⟩)
        rw [if_pos hk, List.find?_cons_of_pos (by simp [hk]), hrest, Option.map_map]
        rfl
      · rw [if_neg hk, List.find?_cons_of_neg (by simp [hk])]

/-- A channel written back from its own snapshot entry has its streams, and unless Dispatcharr
created it the name, group, guide entry and tvg id it had. -/
structure PutBack (row row' : Row) : Prop where
  streams : row' .streams = row .streams
  fields : row .autoCreated = false → ∀ f ∈ [Field.name, .channelGroupId, .epgDataId, .tvgId],
    row' f = row f

theorem putBack_restorePayload (key : ChannelKey) (row row' : Row) :
    PutBack row ((restorePayload (.of key row)).apply row') where
  streams := by
    cases hauto : row .autoCreated <;>
      simp [restorePayload, SnapshotChannel.of, hauto, Patch.orElse, Patch.single]
  fields hauto f hf := by
    simp only [List.mem_cons, List.not_mem_nil, or_false] at hf
    rcases hf with rfl | rfl | rfl | rfl <;>
      simp [restorePayload, SnapshotChannel.of, hauto, Patch.orElse, Patch.single]

/-- The state before a run is back: no channel the run created is there, and every channel that was
there and that the run did not delete is as it was. -/
structure Reverted (b : Before) (r : Run) (u : Upstream) : Prop where
  created : ∀ key ∈ u.channels, key ∈ b.channels
  kept : ∀ key row, b.channels.get? key = some row → key ∈ r.channels →
    ∃ row', u.channels.get? key = some row' ∧ PutBack row row'

/-- When writing the snapshot back reverts the run: the deletion of every created channel that is
still there goes through, and the run left the streams of the channels outside the snapshot alone. -/
structure RestoreReverts (masterGroupIds : List ℤ) (b : Before) (r : Run) : Prop where
  deletions : ∀ key ∈ r.channels, .channel key ∈ r.created →
    failures.call (.deleteChannel key) = false
  untouched : ∀ key row row', b.channels.get? key = some row → excluded masterGroupIds row →
    r.channels.get? key = some row' → row' .streams = row .streams

/-- When the unmerge reverts the run: beyond the streams the journal lists it changed nothing of a
channel, and where a call of the unmerge fails not its streams either. -/
def UnmergeReverts (b : Before) (r : Run) : Prop :=
  ∀ key row row', b.channels.get? key = some row → r.channels.get? key = some row' →
    (row .autoCreated = false → ∀ f ∈ [Field.name, .channelGroupId, .epgDataId, .tvgId],
      row' f = row f) ∧
    (if failures.unmergeFails key then row' .streams
      else (row' .streams).filter (· ∉ addedByChannel (getEntries r.journal) key)) = row .streams

/-- What a restore that reports no failure leaves of a channel. -/
theorem get?_restoreSnapshot {b : Before} {r : Run} (hacc : Accounted b r) {status : RunStatus}
    {masterGroupIds : List ℤ}
    (h : (restoreSnapshot failures (r.snapshotted status b masterGroupIds) r.upstream).success =
      true) (key : ChannelKey) :
    (∀ row, b.channels.get? key = some row →
      (restoreSnapshot failures (r.snapshotted status b masterGroupIds) r.upstream).upstream.channels.get?
        key = (r.channels.get? key).map fun row' =>
          if excluded masterGroupIds row then row' else (restorePayload (.of key row)).apply row') ∧
      (key ∉ b.channels → (key ∈ (restoreSnapshot failures (r.snapshotted status b masterGroupIds)
        r.upstream).upstream.channels ↔
          key ∈ r.channels ∧ failures.call (.deleteChannel key) = true)) := by
  unfold restoreSnapshot Run.snapshotted Run.execution at h ⊢
  simp only [Bool.false_eq_true, if_false] at h ⊢
  split at h
  · simp [refuse] at h
  rename_i hstatus
  simp only [hstatus, if_false]
  have hfailed : (restoreChannels failures (captureSnapshot masterGroupIds b.channels)
      (rollbackCreated failures r.created r.upstream)).1 = [] := List.isEmpty_iff.mp h
  have hget := get?_restoreChannels failures (nodup_captureSnapshot masterGroupIds b.channels)
    hfailed key
  rw [get?_rollbackCreated] at hget
  constructor
  · intro row hrow
    have hnew := hacc.not_created (Dict.mem_of_get? hrow)
    rw [hget, if_neg (by simp [hnew]), find?_captureSnapshot hrow]
    simp only [Run.upstream]
    congr 1
    funext row'
    by_cases hout : excluded masterGroupIds row <;> simp [hout]
  · intro hold
    have hnone : (captureSnapshot masterGroupIds b.channels).find? (·.id = key) = none := by
      rw [List.find?_eq_none]
      intro ch hch heq
      obtain ⟨e, he, rfl⟩ := List.mem_map.mp hch
      have hkey : e.1 = key := of_decide_eq_true heq
      apply hold
      rw [← hkey, Dict.mem_def]
      exact List.mem_map.mpr ⟨e, (List.mem_filter.mp he).1, rfl⟩
    rw [← Dict.isSome_get?, hget, hnone, ← Dict.isSome_get?]
    simp only [Option.map_id', Run.upstream]
    by_cases hin : key ∈ r.channels
    · have hnew := (hacc.channels key hin).resolve_left hold
      cases hcall : failures.call (.deleteChannel key) <;> simp [hnew]
    · have hgone := (Dict.get?_eq_none r.channels key).mpr hin
      simp [hgone]

/-- A restore that reports success reverts the run exactly when no deletion was lost and the run kept
to the channels of the snapshot. -/
theorem restoreSnapshot_reverts_iff {b : Before} {r : Run} (hacc : Accounted b r)
    (status : RunStatus) (masterGroupIds : List ℤ)
    (h : (restoreSnapshot failures (r.snapshotted status b masterGroupIds) r.upstream).success =
      true) :
    Reverted b r (restoreSnapshot failures (r.snapshotted status b masterGroupIds)
        r.upstream).upstream ↔ RestoreReverts failures masterGroupIds b r := by
  have hleft := get?_restoreSnapshot failures hacc h
  generalize (restoreSnapshot failures (r.snapshotted status b masterGroupIds) r.upstream).upstream =
    u at hleft
  constructor
  · intro hrev
    refine ⟨fun key hkey hnew => ?_, fun key row row' hrow hout hrow' => ?_⟩
    · by_contra hcall
      have hold : key ∉ b.channels := fun hold => hacc.not_created hold hnew
      exact hold (hrev.created key (((hleft key).2 hold).mpr ⟨hkey, by simpa using hcall⟩))
    · obtain ⟨row'', hrow'', hput⟩ := hrev.kept key row hrow (Dict.mem_of_get? hrow')
      rw [(hleft key).1 row hrow, hrow'] at hrow''
      simp only [hout, if_true, Option.map_some, Option.some.injEq] at hrow''
      rw [hrow'']
      exact hput.streams
  · intro hcond
    refine ⟨fun key hkey => ?_, fun key row hrow hmem => ?_⟩
    · by_contra hold
      obtain ⟨hin, hcall⟩ := ((hleft key).2 hold).mp hkey
      have := hcond.deletions key hin ((hacc.channels key hin).resolve_left hold)
      simp [this] at hcall
    · obtain ⟨row', hrow'⟩ := Dict.exists_get? hmem
      rw [(hleft key).1 row hrow, hrow']
      refine ⟨_, rfl, ?_⟩
      dsimp only
      by_cases hout : excluded masterGroupIds row
      · rw [if_pos hout]
        refine ⟨hcond.untouched key row row' hrow hout hrow', fun hauto => ?_⟩
        simp [excluded, hauto] at hout
      · rw [if_neg hout]
        exact putBack_restorePayload key row row'

/-- An unmerge reverts the run exactly when the run did nothing else. -/
theorem unmerge_reverts_iff {b : Before} {r : Run} (hacc : Accounted b r) (hnone : r.created = [])
    {u : Upstream} (h : journalDrivenUnmerge failures r.journal r.upstream = (true, u)) :
    Reverted b r u ↔ UnmergeReverts failures b r := by
  have hleft := get?_journalDrivenUnmerge failures h
  have hold : ∀ key ∈ u.channels, key ∈ b.channels := by
    intro key hkey
    obtain ⟨row, hrow⟩ := Dict.exists_get? hkey
    rw [hleft] at hrow
    obtain ⟨row', hrow', _⟩ := Option.map_eq_some_iff.mp hrow
    exact (hacc.channels key (Dict.mem_of_get? hrow')).resolve_right (by simp [hnone])
  -- the streams and the other fields of a channel the unmerge went over
  have hfields : ∀ key (row : Row) f, f ≠ .streams →
      (if failures.unmergeFails key then row else unmerged (getEntries r.journal) key row) f = row f := by
    intro key row f hf
    split
    · rfl
    · exact unmerged_field _ _ _ hf
  have hstreams : ∀ key (row : Row),
      (if failures.unmergeFails key then row else unmerged (getEntries r.journal) key row) .streams =
        if failures.unmergeFails key then row .streams
        else (row .streams).filter (· ∉ addedByChannel (getEntries r.journal) key) := by
    intro key row
    split
    · rfl
    · exact unmerged_streams _ _ _
  have hother : ∀ f ∈ [Field.name, .channelGroupId, .epgDataId, .tvgId], f ≠ Field.streams := by
    decide
  constructor
  · intro hrev key row row' hrow hrow'
    obtain ⟨row'', hrow'', hput⟩ := hrev.kept key row hrow (Dict.mem_of_get? hrow')
    rw [hleft, show r.upstream.channels.get? key = some row' from hrow'] at hrow''
    cases hrow''
    refine ⟨fun hauto f hf => ?_, ?_⟩
    · rw [← hfields key row' f (hother f hf)]
      exact hput.fields hauto f hf
    · rw [← hstreams key row']
      exact hput.streams
  · intro hcond
    refine ⟨hold, fun key row hrow hmem => ?_⟩
    obtain ⟨row', hrow'⟩ := Dict.exists_get? hmem
    obtain ⟨hsame, hlist⟩ := hcond key row row' hrow hrow'
    rw [hleft, show r.upstream.channels.get? key = some row' from hrow']
    refine ⟨_, rfl, (hstreams key row').trans hlist, fun hauto f hf => ?_⟩
    exact (hfields key row' f (hother f hf)).trans (hsame hauto f hf)

/-- A run the journal covers created nothing, and merged something. -/
theorem covered {e : Execution} (h : eventSyncJournalCoversRun failures e = true) :
    e.created = [] ∧ getEntries e.journal ≠ [] := by
  simp only [eventSyncJournalCoversRun, Bool.and_eq_true, List.isEmpty_iff, Bool.not_eq_true',
    List.isEmpty_eq_false_iff, List.all_eq_true, List.isPerm_iff] at h
  obtain ⟨⟨⟨⟨⟨⟨hcreated, hmodified⟩, hall⟩, _⟩, _⟩, _⟩, hperm⟩ := h
  refine ⟨hcreated, fun hpage => ?_⟩
  rw [hpage, List.map_nil, List.nil_perm, List.filterMap_eq_nil_iff] at hperm
  obtain ⟨m, hm⟩ := List.exists_mem_of_ne_nil _ hmodified
  have hentity := (hall m hm).1
  rw [hperm m hm] at hentity
  cases hentity

/-- A rollback that a snapshot backs and that reports success reverts the run exactly when the way it
took does: the unmerge where the journal covers the run and can be read again, the restore of the
snapshot everywhere else. -/
theorem snapshot_rollback_reverts_iff (b : Before) (ss : List RunStep) (status : RunStatus)
    (masterGroupIds : List ℤ) :
    ((restoreSnapshot failures (((Run.start b).steps ss).snapshotted status b masterGroupIds)
        ((Run.start b).steps ss).upstream).success = true →
      (Reverted b ((Run.start b).steps ss)
        (restoreSnapshot failures (((Run.start b).steps ss).snapshotted status b masterGroupIds)
          ((Run.start b).steps ss).upstream).upstream ↔
        RestoreReverts failures masterGroupIds b ((Run.start b).steps ss))) ∧
      ((rollbackExecution failures true
          (((Run.start b).steps ss).snapshotted status b masterGroupIds)
          ((Run.start b).steps ss).upstream).success = true →
        (Reverted b ((Run.start b).steps ss)
          (rollbackExecution failures true
            (((Run.start b).steps ss).snapshotted status b masterGroupIds)
            ((Run.start b).steps ss).upstream).upstream ↔
          if eventSyncJournalCoversRun failures
              (((Run.start b).steps ss).snapshotted status b masterGroupIds) ∧
                failures.unmergeRead = false then
            UnmergeReverts failures b ((Run.start b).steps ss)
          else RestoreReverts failures masterGroupIds b ((Run.start b).steps ss))) := by
  have hacc := accounted b ss
  generalize (Run.start b).steps ss = r at hacc
  have hrestore := restoreSnapshot_reverts_iff failures hacc status masterGroupIds
  refine ⟨hrestore, fun h => ?_⟩
  unfold rollbackExecution at h ⊢
  split at h
  · simp [refuse] at h
  rename_i hstatus
  simp only [hstatus, if_false]
  have hlive : (r.snapshotted status b masterGroupIds).dryRun = false := rfl
  have hsnap : (r.snapshotted status b masterGroupIds).snapshot.isNone = false := rfl
  simp only [hlive, hsnap, Bool.false_eq_true, if_false, Bool.not_true] at h ⊢
  by_cases hcovers : eventSyncJournalCoversRun failures (r.snapshotted status b masterGroupIds) = true
  · obtain ⟨hnone, hpage⟩ := covered failures hcovers
    have hpage : getEntries r.journal ≠ [] := hpage
    simp only [hcovers, if_true, true_and] at h ⊢
    have hjournal : (r.snapshotted status b masterGroupIds).journal = r.journal := rfl
    rw [hjournal] at h ⊢
    cases hread : failures.unmergeRead with
    | true =>
      have hlost : journalDrivenUnmerge failures r.journal r.upstream = (false, r.upstream) := by
        simp [journalDrivenUnmerge, hread]
      rw [hlost] at h ⊢
      simpa using hrestore h
    | false =>
      cases hunmerge : journalDrivenUnmerge failures r.journal r.upstream with
      | mk handled u =>
      have hhandled : handled = true := by
        have hfst := congrArg Prod.fst hunmerge
        simpa [journalDrivenUnmerge, hread, hpage] using hfst.symm
      subst hhandled
      simpa using unmerge_reverts_iff failures hacc hnone hunmerge
  · simp only [hcovers, Bool.false_eq_true, if_false, false_and] at h ⊢
    exact hrestore h

section Samples

/-- A run that creates a channel, every call of whose rollback succeeds. -/
theorem snapshot_rollback_reverts_creation :
    (Reverted oneChannelBefore ((Run.start oneChannelBefore).steps [.change (.createChannel plainRow)])
        (restoreSnapshot .never
          (((Run.start oneChannelBefore).steps [.change (.createChannel plainRow)]).snapshotted
            .completed oneChannelBefore [])
          ((Run.start oneChannelBefore).steps [.change (.createChannel plainRow)]).upstream).upstream ↔
      RestoreReverts .never [] oneChannelBefore
        ((Run.start oneChannelBefore).steps [.change (.createChannel plainRow)])) ∧
      (rollbackExecution .never true
        (((Run.start oneChannelBefore).steps [.change (.createChannel plainRow)]).snapshotted
          .completed oneChannelBefore [])
        ((Run.start oneChannelBefore).steps [.change (.createChannel plainRow)]).upstream).success =
          true :=
  ⟨(snapshot_rollback_reverts_iff .never oneChannelBefore [.change (.createChannel plainRow)]
    .completed []).1 (by decide +kernel), by decide +kernel⟩

/-- Only the deletion of the first created channel fails. -/
def deletionFails : Failures where
  call := (· = .deleteChannel (.created 0))
  coverageRead := false
  unmergeRead := false

/-- A run that creates a channel whose deletion fails: the restore reports success and the channel
stays. -/
theorem lost_deletion_reported_restored :
    ¬ ∀ (failures : Failures) (b : Before) (ss : List RunStep) (status : RunStatus)
      (masterGroupIds : List ℤ),
      ((restoreSnapshot failures (((Run.start b).steps ss).snapshotted status b masterGroupIds)
          ((Run.start b).steps ss).upstream).success = true →
        Reverted b ((Run.start b).steps ss)
          (restoreSnapshot failures (((Run.start b).steps ss).snapshotted status b masterGroupIds)
            ((Run.start b).steps ss).upstream).upstream) ∧
      ((rollbackExecution failures true
          (((Run.start b).steps ss).snapshotted status b masterGroupIds)
          ((Run.start b).steps ss).upstream).success = true →
        Reverted b ((Run.start b).steps ss)
          (rollbackExecution failures true
            (((Run.start b).steps ss).snapshotted status b masterGroupIds)
            ((Run.start b).steps ss).upstream).upstream) := by
  intro hall
  have hrev := (hall deletionFails oneChannelBefore [.change (.createChannel plainRow)] .completed
    []).1 (by decide +kernel)
  have hstays : ChannelKey.created 0 ∈ (restoreSnapshot deletionFails
      (((Run.start oneChannelBefore).steps [.change (.createChannel plainRow)]).snapshotted .completed
        oneChannelBefore [])
      ((Run.start oneChannelBefore).steps [.change (.createChannel plainRow)]).upstream).upstream.channels := by
    decide +kernel
  exact absurd (hrev.created _ hstays) (by decide +kernel)

end Samples

end Restoring

end ChannelManager.Pipeline
