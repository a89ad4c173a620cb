import ChannelManager.Pipeline.Rollback

/-!
# What a rollback without a snapshot undoes

The two ways of undoing exclude each other. Without merges the recorded states are written back, and
a channel gets what was first recorded of it unless that was a removal, which is recorded under the
stream. With merges nothing is written back: the streams that the newest thousand entries added are
taken out, and everything else stays as the run left it.
-/

namespace ChannelManager.Pipeline

namespace Run

/-- What was recorded of a channel. -/
def changesOf (r : Run) (key : ChannelKey) : List Modified := r.modified.filter (·.channel = key)

/-- The value recorded as previous by the first change to a field of a channel. -/
def firstRecorded (r : Run) (key : ChannelKey) (f : Field) : Option f.Value :=
  (r.changesOf key).findSome? (·.previous f)

/-- What is stored of a live run. -/
def execution (r : Run) (status : RunStatus) (snapshot : Option (List SnapshotChannel)) :
    Execution where
  dryRun := false
  status := status
  created := r.created
  modified := r.modified
  journal := r.journal
  snapshot := snapshot

end Run

section Records

/-- The channels and groups of a run are those there were and those it created. -/
structure Tracked (b : Before) (r : Run) : Prop where
  channels : ∀ key, key ∈ r.channels ↔ key ∈ b.channels ∨ .channel key ∈ r.created
  groups : ∀ g, g ∈ r.groups ↔ g ∈ b.groups ∨ .group g ∈ r.created
  fresh : ∀ key, .channel key ∈ r.created → ∃ n, key = .created n

theorem tracked_start (b : Before) : Tracked b (.start b) where
  channels key := by simp [Run.start]
  groups g := by simp [Run.start]
  fresh key hkey := by simp [Run.start] at hkey

theorem tracked_change {b : Before} {r : Run} (h : Tracked b r) (c : Change) :
    Tracked b (r.change c) := by
  cases c with
  | createGroup =>
    exact ⟨fun key => by simp [Run.change, Run.createGroup, h.channels key],
      fun g => by simp [Run.change, Run.createGroup, h.groups g, or_assoc],
      fun key hkey => h.fresh key (by simpa [Run.change, Run.createGroup] using hkey)⟩
  | createChannel row =>
    constructor
    · intro key
      simp only [Run.change, Run.createChannel, Dict.mem_set, h.channels key, List.mem_append,
        List.mem_singleton, Created.channel.injEq]
      tauto
    · intro g
      simp [Run.change, Run.createChannel, h.groups g]
    · intro key hkey
      simp only [Run.change, Run.createChannel, List.mem_append, List.mem_singleton,
        Created.channel.injEq] at hkey
      exact hkey.elim (h.fresh key) fun hnew => ⟨r.nextChannel, hnew⟩
  | act key action =>
    rcases r.act_cases key action with hsame | ⟨row, w, hget, _, hrun⟩
    · simpa only [Run.change, hsame] using h
    · have hmem : key ∈ r.channels := Dict.mem_of_get? hget
      simp only [Run.change, hrun]
      constructor
      · intro k
        simp only [Run.perform_channels, Dict.mem_set, Run.perform_created, ← h.channels k]
        exact ⟨fun hk => hk.elim (fun hk => hk ▸ hmem) id, .inr⟩
      · intro g
        simpa using h.groups g
      · intro k hk
        exact h.fresh k (by simpa using hk)

theorem tracked (b : Before) (cs : List Change) : Tracked b ((Run.start b).changes cs) :=
  Run.changes_induction cs (tracked_start b) fun _ c h => tracked_change h c

/-- A channel that was there before is still there, and was not created. -/
theorem Tracked.existing {b : Before} {r : Run} (h : Tracked b r) (id : ℤ) :
    (.existing id ∈ r.channels ↔ .existing id ∈ b.channels) ∧
      .channel (.existing id) ∉ r.created := by
  have hfresh : .channel (.existing id) ∉ r.created := by
    intro hmem
    obtain ⟨n, hn⟩ := h.fresh _ hmem
    cases hn
  exact ⟨by rw [h.channels]; simp [hfresh], hfresh⟩

/-- What is true of every write an action makes: a removal takes a stream that is there, records the
streams and merges nothing; and only a merge brings in a stream. -/
structure Write.Fits (row : Row) (w : Write) : Prop where
  removal : ∀ s, w.removed = some s →
    s ∈ row .streams ∧ s ∉ w.patch.apply row .streams ∧ w.recorded = [.streams]
  shrinks : w.merged = none → w.patch.apply row .streams ⊆ row .streams

/-- A write that leaves the streams alone and removes nothing. -/
theorem Write.fits_of_silent {row : Row} {w : Write} (hremoved : w.removed = none)
    (hstreams : w.patch .streams = none) : w.Fits row where
  removal s hs := by simp [hremoved] at hs
  shrinks _ := by simp [hstreams]

theorem ChannelAction.write_fits {action : ChannelAction} {row : Row} {w : Write}
    (h : action.write row = some w) : w.Fits row := by
  cases action with
  | addStream category streamId =>
    obtain ⟨_, hw⟩ := Option.ite_none_left_eq_some.mp h
    cases hw
    exact ⟨fun s hs => by simp at hs, fun hm => by simp at hm⟩
  | updateChannel logoUrl tvgId =>
    obtain ⟨_, hw⟩ := Option.ite_none_left_eq_some.mp h
    cases hw
    exact Write.fits_of_silent rfl rfl
  | rename name => cases h; exact Write.fits_of_silent rfl rfl
  | assignLogo logoId => cases h; exact Write.fits_of_silent rfl rfl
  | assignTvgId tvgId => cases h; exact Write.fits_of_silent rfl rfl
  | assignEpg epgDataId tvgId =>
    cases tvgId with
    | none => cases h; exact Write.fits_of_silent rfl rfl
    | some tvgId => cases h; exact Write.fits_of_silent rfl rfl
  | assignProfile profileId => cases h; exact Write.fits_of_silent rfl rfl
  | setChannelNumber number => cases h; exact Write.fits_of_silent rfl rfl
  | setStreamPriority streamId highest =>
    obtain ⟨hcond, hw⟩ := Option.ite_none_left_eq_some.mp h
    cases hw
    have hin : streamId ∈ row .streams := by
      by_contra hout
      exact hcond (.inl hout)
    refine ⟨fun s hs => by simp [Write.record] at hs, fun _ s hs => ?_⟩
    cases highest with
    | true =>
      have hs : s = streamId ∨ s ∈ row .streams ∧ s ≠ streamId := by simpa [Write.record] using hs
      exact hs.elim (fun heq => heq ▸ hin) And.left
    | false =>
      have hs : s ∈ row .streams ∧ s ≠ streamId ∨ s = streamId := by simpa [Write.record] using hs
      exact hs.elim And.left fun heq => heq ▸ hin
  | removeFromChannel streamId =>
    obtain ⟨hcond, hw⟩ := Option.ite_none_left_eq_some.mp h
    cases hw
    refine ⟨fun s hs => ?_, fun _ => by simp⟩
    cases hs
    exact ⟨by simpa using hcond, by simp, rfl⟩

/-- Every entry about a channel that was there before names the channel, or is a removal: recorded
under the stream, it says what the streams were and nothing else. -/
def Named (r : Run) : Prop :=
  ∀ m ∈ r.modified, m.entity = .channel m.channel ∨
    ∃ s, m.entity = .stream s ∧ (∃ l, m.previous .streams = some l ∧ s ∈ l) ∧
      ∀ f, f ≠ .streams → m.previous f = none

theorem named_change {r : Run} (h : Named r) (c : Change) : Named (r.change c) := by
  cases c with
  | createGroup => exact h
  | createChannel row => exact h
  | act key action =>
    rcases r.act_cases key action with hsame | ⟨row, w, _, hwrite, hrun⟩
    · simpa only [Run.change, hsame] using h
    · intro m hm
      simp only [Run.change, hrun, Run.perform_modified, List.mem_append] at hm
      rcases hm with hm | hm
      · exact h m hm
      unfold Run.recordOf at hm
      split at hm
      · cases hm
      have hm := List.mem_singleton.mp hm
      subst hm
      cases hremoved : w.removed with
      | none => exact .inl rfl
      | some s =>
        obtain ⟨hin, _, hrec⟩ := (ChannelAction.write_fits hwrite).removal s hremoved
        refine .inr ⟨s, rfl, ⟨row .streams, ?_, hin⟩, fun f hf => ?_⟩
        · simp [hrec, Patch.keep]
        · simp [hrec, Patch.keep, hf]

theorem named (b : Before) (cs : List Change) : Named ((Run.start b).changes cs) :=
  Run.changes_induction cs (fun m hm => by simp [Run.start] at hm) fun _ c h => named_change h c

/-- As long as nothing is merged, a stream that was removed from a channel does not come back. -/
structure RemovalsStay (r : Run) (id : ℤ) : Prop where
  gone : ∀ m ∈ r.changesOf (.existing id), ∀ s, m.entity = .stream s →
    ∀ row, r.channels.get? (.existing id) = some row → s ∉ row .streams
  later : (r.changesOf (.existing id)).Pairwise fun m m' =>
    ∀ s, m.entity = .stream s → ∀ l, m'.previous .streams = some l → s ∉ l

/-- What a write adds to the records of a channel. -/
theorem changesOf_perform (r : Run) (key k : ChannelKey) (row : Row) (w : Write) :
    (r.perform key row w).changesOf k =
      r.changesOf k ++ if key = k then Run.recordOf key row w else [] := by
  unfold Run.changesOf
  rw [Run.perform_modified, List.filter_append]
  congr 1
  unfold Run.recordOf
  by_cases hk : key = k
  · by_cases hrec : w.recorded = [] <;> simp [hk, hrec]
  · by_cases hrec : w.recorded = [] <;> simp [hk, hrec]

/-- Where a write records the streams, it records those the channel had. -/
theorem previous_of_recordOf {key : ChannelKey} {row : Row} {w : Write} {m : Modified}
    (hm : m ∈ Run.recordOf key row w) {f : Field} {v : f.Value} (hv : m.previous f = some v) :
    row f = v := by
  unfold Run.recordOf at hm
  split at hm
  · cases hm
  cases List.mem_singleton.mp hm
  exact (Patch.keep_eq_some.mp hv).2

theorem entity_of_recordOf {key : ChannelKey} {row : Row} {w : Write} {m : Modified}
    (hm : m ∈ Run.recordOf key row w) {s : ℤ} (hs : m.entity = .stream s) : w.removed = some s := by
  unfold Run.recordOf at hm
  split at hm
  · cases hm
  cases List.mem_singleton.mp hm
  cases hremoved : w.removed with
  | none => simp [hremoved] at hs
  | some t => simpa [hremoved] using hs

theorem removalsStay_perform {r : Run} {id : ℤ} (h : RemovalsStay r id) {row : Row} {w : Write}
    (hget : r.channels.get? (.existing id) = some row) (hfits : w.Fits row)
    (hmerged : w.merged = none) : RemovalsStay (r.perform (.existing id) row w) id := by
  constructor
  · intro m hm s hs row' hrow'
    rw [Run.perform_channels, Dict.get?_set_self] at hrow'
    cases hrow'
    rw [changesOf_perform, if_pos rfl, List.mem_append] at hm
    rcases hm with hm | hm
    · exact fun hin => h.gone m hm s hs row hget (hfits.shrinks hmerged hin)
    · exact (hfits.removal s (entity_of_recordOf hm hs)).2.1
  · rw [changesOf_perform, if_pos rfl, List.pairwise_append]
    refine ⟨h.later, ?_, fun m hm m' hm' s hs l hl => ?_⟩
    · unfold Run.recordOf
      split
      · exact .nil
      · exact List.pairwise_singleton _ _
    · rw [← previous_of_recordOf hm' hl]
      exact h.gone m hm s hs row hget

/-- A run that merged nothing has kept every removal. -/
theorem removalsStay (b : Before) (cs : List Change) (id : ℤ)
    (hjournal : ((Run.start b).changes cs).journal = []) :
    RemovalsStay ((Run.start b).changes cs) id := by
  have hrun := Run.changes_induction (P := fun r => r.journal = [] → RemovalsStay r id)
    (r := Run.start b) cs
  refine hrun (fun _ => ⟨fun m hm => by simp [Run.changesOf, Run.start] at hm, .nil⟩) ?_ hjournal
  intro r c ih hjournal
  cases c with
  | createGroup => exact ⟨(ih hjournal).gone, (ih hjournal).later⟩
  | createChannel row =>
    refine ⟨fun m hm s hs row' hrow' => ?_, (ih hjournal).later⟩
    rw [Run.change, Run.createChannel, Dict.get?_set_ne _ _ (by simp)] at hrow'
    exact (ih hjournal).gone m hm s hs row' hrow'
  | act key action =>
    rw [Run.change] at hjournal ⊢
    rcases r.act_cases key action with hsame | ⟨row, w, hget, hwrite, hrun⟩
    · rw [hsame] at hjournal ⊢
      exact ih hjournal
    · rw [hrun] at hjournal ⊢
      obtain ⟨hbefore, hmerged⟩ := Run.perform_journal_nil hjournal
      have hr := ih hbefore
      by_cases hk : key = .existing id
      · subst hk
        exact removalsStay_perform hr hget (ChannelAction.write_fits hwrite) hmerged
      · refine ⟨fun m hm s hs row' hrow' => ?_, ?_⟩
        · rw [changesOf_perform, if_neg hk, List.append_nil] at hm
          rw [Run.perform_channels, Dict.get?_set_ne _ _ hk] at hrow'
          exact hr.gone m hm s hs row' hrow'
        · rw [changesOf_perform, if_neg hk, List.append_nil]
          exact hr.later

end Records

section Undoing

/-- The first change of a channel's streams is recorded under the channel: it is not a removal. -/
def FirstListed (r : Run) (key : ChannelKey) : Prop :=
  ∀ m, (r.changesOf key).find? (fun m => (m.previous .streams).isSome) = some m →
    m.entity = .channel key

/-- The run left a channel's recorded fields at the values first recorded, and its streams are those
first recorded, in that order, and others that the journal's page says were added to it. -/
structure LeftAsRecorded (r : Run) (key : ChannelKey) (row : Row) : Prop where
  fields : ∀ f v, f ≠ .streams → r.firstRecorded key f = some v → row f = v
  streams : ∀ l, r.firstRecorded key .streams = some l → (row .streams).filter (· ∈ l) = l ∧
    ∀ s ∈ row .streams, s ∈ addedByChannel (getEntries r.journal) key ↔ s ∉ l

/-- When the rollback of a run without a snapshot undoes it. -/
def Restorable (r : Run) : Prop :=
  ∀ id row, r.channels.get? (.existing id) = some row →
    (r.journal = [] → FirstListed r (.existing id)) ∧
      (r.journal ≠ [] → LeftAsRecorded r (.existing id) row)

/-- Every channel that was there has what its first changes recorded as previous, and nothing the run
created is there. -/
structure Undone (b : Before) (r : Run) (u : Upstream) : Prop where
  values : ∀ id, .existing id ∈ b.channels → ∃ row, u.channels.get? (.existing id) = some row ∧
    ∀ f v, r.firstRecorded (.existing id) f = some v → row f = v
  channels : ∀ key ∈ u.channels, key ∈ b.channels
  groups : ∀ g ∈ u.groups, g ∈ b.groups

theorem findSome?_filter_of_silent {α β : Type} {l : List α} {p : α → Bool} {g : α → Option β}
    (h : ∀ a ∈ l, p a = false → g a = none) : (l.filter p).findSome? g = l.findSome? g := by
  induction l with
  | nil => rfl
  | cons a l ih =>
    have hl := ih fun a ha => h a (List.mem_cons_of_mem _ ha)
    cases hp : p a with
    | true => rw [List.filter_cons_of_pos hp, List.findSome?_cons, List.findSome?_cons, hl]
    | false =>
      have ha := h a List.mem_cons_self hp
      rw [List.filter_cons_of_neg (by simp [hp]), List.findSome?_cons, ha, hl]

/-- What the rollback reads of a channel are its records that name it. -/
theorem recordedUnder_eq {r : Run} (h : Named r) (key : ChannelKey) :
    recordedUnder r.modified key =
      ((r.changesOf key).filter (·.entity = .channel key)).map (·.previous) := by
  unfold recordedUnder Run.changesOf
  rw [List.filter_filter]
  congr 1
  apply List.filter_congr
  intro m hm
  rcases h m hm with hname | ⟨s, hs, _⟩
  · simp [hname]
  · simp [hs]

/-- Outside the stream list no record is overlooked. -/
theorem recordedUnder_field {r : Run} (h : Named r) (key : ChannelKey) {f : Field}
    (hf : f ≠ .streams) :
    (recordedUnder r.modified key).findSome? (· f) = r.firstRecorded key f := by
  rw [recordedUnder_eq h, List.findSome?_map]
  apply findSome?_filter_of_silent
  intro m hm hother
  have hmem := List.mem_filter.mp hm
  have hkey : m.channel = key := by simpa using hmem.2
  rcases h m hmem.1 with hname | ⟨s, _, _, hsilent⟩
  · simp [hname, hkey] at hother
  · exact hsilent f hf

/-- The stream list is put back to what was first recorded unless that was a removal. -/
theorem undo_streams_iff {r : Run} {id : ℤ} (hnamed : Named r) (hstay : RemovalsStay r id) {row : Row}
    (hget : r.channels.get? (.existing id) = some row) :
    (∀ l, r.firstRecorded (.existing id) .streams = some l →
      Patch.undo (recordedUnder r.modified (.existing id)) row .streams = l) ↔
      FirstListed r (.existing id) := by
  unfold FirstListed
  rw [Patch.undo_apply, recordedUnder_eq hnamed, List.findSome?_map]
  cases hfind : (r.changesOf (.existing id)).find? fun m => (m.previous .streams).isSome with
  | none =>
    have hnone : r.firstRecorded (.existing id) .streams = none := by
      rw [Run.firstRecorded, List.findSome?_eq_none_iff]
      intro m hm
      simpa using List.find?_eq_none.mp hfind m hm
    simp [hnone]
  | some m =>
    obtain ⟨hsome, pre, post, hsplit, hpre⟩ := List.find?_eq_some_iff_append.mp hfind
    obtain ⟨l, hl⟩ := Option.isSome_iff_exists.mp hsome
    have hsilent : ∀ a ∈ pre, a.previous .streams = none := fun a ha => by simpa using hpre a ha
    have hpre' : pre.findSome? (·.previous .streams) = none := List.findSome?_eq_none_iff.mpr hsilent
    have hfirst : r.firstRecorded (.existing id) .streams = some l := by
      rw [Run.firstRecorded, hsplit, List.findSome?_append, hpre', List.findSome?_cons, hl]
      rfl
    have hm : m ∈ r.changesOf (.existing id) := by simp [hsplit]
    have hmem := List.mem_filter.mp hm
    have hkey : m.channel = .existing id := by simpa using hmem.2
    rcases hnamed m hmem.1 with hname | ⟨s, hs, ⟨l', hl', hin⟩, _⟩
    · -- the record names the channel: it is the first the rollback reads
      rw [hkey] at hname
      have hread : ((r.changesOf (.existing id)).filter (·.entity = .channel (.existing id))).findSome?
          (·.previous .streams) = some l := by
        have hpref : (pre.filter (·.entity = .channel (.existing id))).findSome?
            (·.previous .streams) = none :=
          List.findSome?_eq_none_iff.mpr fun a ha => hsilent a (List.mem_filter.mp ha).1
        rw [hsplit, List.filter_append, List.findSome?_append, hpref,
          List.filter_cons_of_pos (by simp [hname]), List.findSome?_cons, hl]
        rfl
      simp only [Function.comp_def, hread, hfirst, hname, Option.getD_some, Option.some.injEq,
        forall_eq']
    · -- the record is a removal: what is read instead was recorded after it
      rw [hl] at hl'
      cases hl'
      have hwrong : ¬ m.entity = .channel (.existing id) := by simp [hs]
      refine iff_of_false (fun hall => ?_) fun hall => hwrong (hall m rfl)
      have hlist := hall l hfirst
      have hout : s ∉ ((((r.changesOf (.existing id)).filter
          (·.entity = .channel (.existing id))).findSome? ((· .streams) ∘ (·.previous))).getD
            (row .streams)) := by
        cases hread : ((r.changesOf (.existing id)).filter
            (·.entity = .channel (.existing id))).findSome? ((· .streams) ∘ (·.previous)) with
        | none => exact hstay.gone m hm s hs row hget
        | some l' =>
          obtain ⟨m', hm', hprev⟩ := List.exists_of_findSome?_eq_some hread
          obtain ⟨hin', hent⟩ := List.mem_filter.mp hm'
          have hlater := hstay.later
          rw [hsplit, List.pairwise_append, List.pairwise_cons] at hlater
          rw [hsplit, List.mem_append, List.mem_cons] at hin'
          rcases hin' with hin' | rfl | hin'
          · have := hsilent m' hin'
            simp only [Function.comp_apply] at hprev
            rw [this] at hprev
            cases hprev
          · simp [hs] at hent
          · exact hlater.2.1.1 m' hin' s hs l' hprev
      rw [hlist] at hout
      exact hout hin

/-- Taking some elements out leaves exactly another list. -/
theorem filter_not_mem_eq_iff {α : Type} [DecidableEq α] (xs l out : List α) :
    xs.filter (· ∉ out) = l ↔ xs.filter (· ∈ l) = l ∧ ∀ s ∈ xs, s ∈ out ↔ s ∉ l := by
  constructor
  · intro h
    have hiff : ∀ s ∈ xs, s ∈ out ↔ s ∉ l := by
      intro s hs
      rw [← h, List.mem_filter]
      simp [hs]
    refine ⟨?_, hiff⟩
    calc xs.filter (· ∈ l) = xs.filter (· ∉ out) :=
          List.filter_congr fun s hs => by simp [hiff s hs]
      _ = l := h
  · rintro ⟨h, hiff⟩
    calc xs.filter (· ∉ out) = xs.filter (· ∈ l) :=
          List.filter_congr fun s hs => by simp [hiff s hs]
      _ = l := h

theorem unmerged_field (page : List MergeEntry) (key : ChannelKey) (row : Row) {f : Field}
    (hf : f ≠ .streams) : unmerged page key row f = row f := by
  simp [unmerged, Patch.single_ne _ (Ne.symm hf)]

theorem unmerged_streams (page : List MergeEntry) (key : ChannelKey) (row : Row) :
    unmerged page key row .streams = (row .streams).filter (· ∉ addedByChannel page key) := by
  simp [unmerged]

/-- The unmerge gives a channel what was first recorded of it when the run left it so. -/
theorem unmerged_iff (r : Run) (key : ChannelKey) (row : Row) :
    (∀ f v, r.firstRecorded key f = some v → unmerged (getEntries r.journal) key row f = v) ↔
      LeftAsRecorded r key row := by
  constructor
  · intro h
    refine ⟨fun f v hf hv => ?_, fun l hl => ?_⟩
    · rw [← unmerged_field (getEntries r.journal) key row hf]
      exact h f v hv
    · have hlist := h .streams l hl
      rw [unmerged_streams] at hlist
      exact (filter_not_mem_eq_iff _ _ _).mp hlist
  · intro h f v hv
    by_cases hf : f = .streams
    · subst hf
      rw [unmerged_streams]
      exact (filter_not_mem_eq_iff _ _ _).mpr (h.streams v hv)
    · rw [unmerged_field _ _ _ hf]
      exact h.fields f v hf hv

/-- The rollback of a run that has no snapshot, with every call succeeding. -/
def Run.rollback (r : Run) (status : RunStatus) (confirm : Bool) : RollbackAnswer :=
  rollbackExecution .never confirm (r.execution status none) r.upstream

/-- What a rollback that is not refused leaves of the run's channels and groups. -/
theorem Run.rollback_upstream {r : Run} {status : RunStatus} {confirm : Bool}
    (h : (r.rollback status confirm).success = true) :
    (∀ key, (r.rollback status confirm).upstream.channels.get? key =
      if .channel key ∈ r.created then none
      else (r.channels.get? key).map
        (if r.journal = [] then Patch.undo (recordedUnder r.modified key)
          else unmerged (getEntries r.journal) key)) ∧
      ∀ g, g ∈ (r.rollback status confirm).upstream.groups ↔ g ∈ r.groups ∧ .group g ∉ r.created := by
  unfold Run.rollback rollbackExecution at h ⊢
  split at h
  · simp [refuse] at h
  rename_i hstatus
  simp only [hstatus, if_false]
  simp only [Run.execution, Bool.false_eq_true, if_false, Option.isNone_none, if_true] at h ⊢
  unfold rollbackLegacy at h ⊢
  split at h
  · simp [refuse] at h
  rename_i hrecorded
  simp only [hrecorded, if_false]
  have hcreated := get?_rollbackCreated .never r.created r.upstream
  have hgroups := mem_groups_rollbackCreated .never r.created r.upstream
  generalize rollbackCreated .never r.created r.upstream = u at hcreated hgroups
  have hcreated' : ∀ key, u.channels.get? key =
      if .channel key ∈ r.created then none else r.channels.get? key := by
    intro key
    rw [hcreated]
    simp [Failures.never, Run.upstream]
  have hgroups' : ∀ g, g ∈ u.groups ↔ g ∈ r.groups ∧ .group g ∉ r.created := by
    intro g
    rw [hgroups]
    simp [Failures.never, Run.upstream]
  cases hunmerge : journalDrivenUnmerge .never r.journal u with
  | mk handled u' =>
  have hg := journalDrivenUnmerge_groups .never r.journal u
  rw [hunmerge] at hg
  by_cases hjournal : r.journal = []
  · have hnot : (handled, u') = (false, u) := by
      rw [← hunmerge]
      simp [journalDrivenUnmerge, getEntries, hjournal]
    cases hnot
    simp only [Bool.false_eq_true, if_false, hjournal, if_true]
    refine ⟨fun key => ?_, fun g => by rw [rollbackModified_groups, hgroups']⟩
    rw [get?_rollbackModified, hcreated']
    by_cases hkey : Created.channel key ∈ r.created <;> simp [hkey]
  · have hhandled : handled = true := by
      have hpage : getEntries r.journal ≠ [] := by
        simp [getEntries, hjournal]
      have := congrArg Prod.fst hunmerge
      simpa [journalDrivenUnmerge, hpage, Failures.never] using this.symm
    subst hhandled
    simp only [if_true, hjournal, if_false]
    refine ⟨fun key => ?_, fun g => by rw [hg, hgroups']⟩
    rw [get?_journalDrivenUnmerge .never hunmerge, hcreated']
    by_cases hkey : Created.channel key ∈ r.created
    · simp [hkey]
    · simp [hkey, Failures.unmergeFails, Failures.never]

/-- A rollback without a snapshot undoes a run exactly when one of its two ways of undoing does: with
no merge, no channel's first recorded stream change is a removal; with merges, the run left every
channel as first recorded but for streams the newest thousand merges added. -/
theorem legacy_rollback_undoes_iff (b : Before) (cs : List Change) (status : RunStatus)
    (confirm : Bool)
    (h : (((Run.start b).changes cs).rollback status confirm).success = true) :
    Undone b ((Run.start b).changes cs)
        (((Run.start b).changes cs).rollback status confirm).upstream ↔
      Restorable ((Run.start b).changes cs) := by
  obtain ⟨hchannels, hgroups⟩ := Run.rollback_upstream h
  have htracked := tracked b cs
  have hnamed := named b cs
  have hstay := fun id hjournal => removalsStay b cs id hjournal
  generalize (Run.start b).changes cs = r at *
  -- what one channel that was there comes to
  have hone : ∀ id row, r.channels.get? (.existing id) = some row →
      ((∃ row', (r.rollback status confirm).upstream.channels.get? (.existing id) = some row' ∧
        ∀ f v, r.firstRecorded (.existing id) f = some v → row' f = v) ↔
      (r.journal = [] → FirstListed r (.existing id)) ∧
        (r.journal ≠ [] → LeftAsRecorded r (.existing id) row)) := by
    intro id row hget
    rw [hchannels, if_neg (htracked.existing id).2, hget]
    simp only [Option.map_some, Option.some.injEq, exists_eq_left']
    by_cases hjournal : r.journal = []
    · simp only [hjournal, if_true, true_implies, ne_eq, not_true_eq_false, false_implies, and_true]
      rw [← undo_streams_iff hnamed (hstay id hjournal) hget]
      refine ⟨fun hall l hl => hall .streams l hl, fun hlist f v hv => ?_⟩
      by_cases hf : f = .streams
      · subst hf
        exact hlist v hv
      · rw [Patch.undo_apply, recordedUnder_field hnamed _ hf, hv]
        rfl
    · simp only [hjournal, if_false, false_implies, ne_eq, not_false_eq_true, true_implies, true_and]
      exact unmerged_iff r (.existing id) row
  constructor
  · intro hundone id row hget
    have hmem := (htracked.existing id).1.mp (Dict.mem_of_get? hget)
    exact (hone id row hget).mp (hundone.values id hmem)
  · intro hrest
    refine ⟨fun id hmem => ?_, fun key hkey => ?_, fun g hg => ?_⟩
    · obtain ⟨row, hget⟩ := Dict.exists_get? ((htracked.existing id).1.mpr hmem)
      exact (hone id row hget).mpr (hrest id row hget)
    · obtain ⟨row, hget⟩ := Dict.exists_get? hkey
      rw [hchannels] at hget
      by_cases hnew : .channel key ∈ r.created
      · simp [hnew] at hget
      · rw [if_neg hnew] at hget
        obtain ⟨row', hrow', _⟩ := Option.map_eq_some_iff.mp hget
        exact ((htracked.channels key).mp (Dict.mem_of_get? hrow')).resolve_right hnew
    · obtain ⟨hin, hnew⟩ := (hgroups g).mp hg
      exact ((htracked.groups g).mp hin).resolve_right hnew

section Samples

/-- A channel with one stream. -/
def plainRow : Row
  | .name => "A"
  | .channelGroupId => some 1
  | .channelNumber => some 10
  | .streams => [10]
  | .tvgId => none
  | .epgDataId => none
  | .logoId => none
  | .logoUrl => none
  | .streamProfileId => none
  | .autoCreated => false

/-- An upstream with that channel, in a group. -/
def oneChannelBefore : Before where
  channels := (∅ : Dict ChannelKey Row).set (.existing 1) plainRow
  groups := [.existing 1]
  loaded key hkey := ⟨1, by
    rw [Dict.mem_set] at hkey
    simpa [Dict.mem_def] using hkey⟩
  listed g hg := ⟨1, by simpa using hg⟩

/-- A tvg id assigned after a group was created is taken back with the group. -/
theorem legacy_rollback_undoes_tvg_id :
    (((Run.start oneChannelBefore).changes
        [.createGroup, .act (.existing 1) (.assignTvgId "a.uk")]).rollback .completed false).success =
        true ∧
      (Undone oneChannelBefore ((Run.start oneChannelBefore).changes
          [.createGroup, .act (.existing 1) (.assignTvgId "a.uk")])
          (((Run.start oneChannelBefore).changes
            [.createGroup, .act (.existing 1) (.assignTvgId "a.uk")]).rollback .completed
              false).upstream ↔
        Restorable ((Run.start oneChannelBefore).changes
          [.createGroup, .act (.existing 1) (.assignTvgId "a.uk")])) :=
  ⟨by decide +kernel, legacy_rollback_undoes_iff oneChannelBefore
    [.createGroup, .act (.existing 1) (.assignTvgId "a.uk")] .completed false (by decide +kernel)⟩

/-- A run that merges a stream and assigns a tvg id: the rollback takes the stream out and leaves
the tvg id. -/
theorem merge_keeps_tvg_id :
    ¬ ∀ (b : Before) (cs : List Change) (status : RunStatus) (confirm : Bool),
      (((Run.start b).changes cs).rollback status confirm).success = true →
        Undone b ((Run.start b).changes cs)
          (((Run.start b).changes cs).rollback status confirm).upstream := by
  intro hall
  have hundone := hall oneChannelBefore [.act (.existing 1) (.addStream .autoCreation 20),
    .act (.existing 1) (.assignTvgId "a.uk")] .completed false (by decide +kernel)
  obtain ⟨row, hrow, hvalues⟩ := hundone.values 1 (by decide)
  have htvg : ((((Run.start oneChannelBefore).changes
      [.act (.existing 1) (.addStream .autoCreation 20), .act (.existing 1) (.assignTvgId "a.uk")]
        ).rollback .completed false).upstream.channels.get? (.existing 1)).map (· .tvgId) =
          some (some "a.uk") := by
    decide +kernel
  rw [hrow] at htvg
  have hnone := hvalues .tvgId none (by decide +kernel)
  simp [hnone] at htvg

end Samples

end Undoing

end ChannelManager.Pipeline
