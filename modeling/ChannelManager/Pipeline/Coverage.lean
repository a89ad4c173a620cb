import ChannelManager.Lib.SortOn
import ChannelManager.Pipeline.SnapshotRestore
import Mathlib.Data.Prod.Lex

/-!
# When the journal covers a run

`_event_sync_journal_covers_run` compares the entities a run recorded with the merges it journalled. The
passes after the attaches write to channels and record nothing: where they leave the streams and the guide
entry of a channel alone, a run that is covered is undone from its journal, whatever streams others added
since.
-/

namespace ChannelManager.Pipeline

/-- A write of a pass to one channel, none of which is recorded: the prune of Pass 2.75, the numbers and
names of Passes 3 and 3.6, the order of streams of Pass 3.5 by what `_reorder_streams_for_rule` answers,
the move of an orphan in Pass 4, the retry of a deferred `assign_epg` in Pass 5. -/
inductive PassWrite
  | prune (desired : List ℤ)
  | renumber (number : ℕ)
  | autoRename (name : String)
  | reorder (sortStreams : List ℤ → List ℤ)
  | moveToUncategorized
  | retryAssignEpg (epgDataId : ℤ) (tvgId : Option String)

/-- What a pass sends for a channel. -/
def PassWrite.patch : PassWrite → Row → Option RowPatch
  | .prune desired, row =>
    let pruned := (row .streams).filter (· ∈ desired)
    if pruned = row .streams then none else some (.single .streams pruned)
  | .renumber number, _ => some (.single .channelNumber (some number))
  | .autoRename name, _ => some (.single .name name)
  | .reorder sortStreams, row =>
    let sorted := sortStreams (row .streams)
    if (row .streams).length < 2 ∨ sorted = row .streams then none else some (.single .streams sorted)
  | .moveToUncategorized, _ => some (.single .channelGroupId none)
  | .retryAssignEpg epgDataId tvgId, row => (writeAssignEpg epgDataId tvgId row).map (·.patch)

/-- `_sort_streams_by_m3u_account_priority`. -/
def sortStreamsByM3uAccountPriority (priority : ℤ → ℤ) (desc : Bool) (streamIds : List ℤ) : List ℤ :=
  sortedOn (fun sid => toLex (if desc then -priority sid else priority sid, sid)) streamIds

/-- A step of a live run: a change by an action or an attach, the verification of the guide entry of a
channel the run created, a write of a pass, or the deletion of an orphan. -/
inductive PassStep
  | change (c : Change)
  | verifyEpg (n : ℕ) (epgDataId : ℤ) (tvgId : Option String)
  | write (key : ChannelKey) (w : PassWrite)
  | removeChannel (key : ChannelKey)

/-- The write of a pass to a channel, if there is anything to send. -/
def PassWrite.runStep (w : PassWrite) (r : Run) (key : ChannelKey) : Option RunStep :=
  (r.channels.get? key).bind fun row => (w.patch row).map (.rewrite key)

/-- What a step comes to. -/
def PassStep.runStep (r : Run) : PassStep → Option RunStep
  | .change c => some (.change c)
  | .verifyEpg n epgDataId tvgId =>
    (r.channels.get? (.created n)).bind fun row =>
      if row .epgDataId = some epgDataId then none
      else (PassWrite.retryAssignEpg epgDataId tvgId).runStep r (.created n)
  | .write key w => w.runStep r key
  | .removeChannel key => some (.delete key)

namespace Run

def pass (r : Run) (s : PassStep) : Run := (s.runStep r).elim r r.step

/-- The steps of a live run, one after the other. -/
def passes (r : Run) (ss : List PassStep) : Run := ss.foldl pass r

end Run

/-- A write leaves the streams and the guide entry of a channel as they are. -/
def PassWrite.keeps (row : Row) : PassWrite → Prop
  | .prune desired => ∀ s ∈ row .streams, s ∈ desired
  | .reorder sortStreams => (row .streams).length < 2 ∨ sortStreams (row .streams) = row .streams
  | .retryAssignEpg epgDataId _ => row .epgDataId = some epgDataId
  | .renumber _ | .autoRename _ | .moveToUncategorized => True

/-- A step leaves the streams and the guide entries alone that were there before the run, but for what
the actions and the attaches do, and deletes no channel that was there. -/
def PassStep.harmless (b : Before) (r : Run) : PassStep → Prop
  | .change _ | .verifyEpg _ _ _ => True
  | .write key w => ∀ row, key ∈ b.channels → r.channels.get? key = some row → w.keeps row
  | .removeChannel key => key ∉ b.channels

/-- Every step of a run is harmless where it is made. -/
def Harmless (b : Before) : Run → List PassStep → Prop
  | _, [] => True
  | r, s :: ss => s.harmless b r ∧ Harmless b (r.pass s) ss

section Coverage

/-- So long as a run has recorded nothing but its merges, a channel that was there has its guide entry,
and its streams with those behind them that the journal lists as added. -/
structure Appended (b : Before) (r : Run) : Prop where
  journalled : r.journal.length ≤ r.modified.length
  kept : r.created = [] → r.modified.length ≤ r.journal.length →
    ∀ key row, b.channels.get? key = some row → ∃ row' added, r.channels.get? key = some row' ∧
      row' .epgDataId = row .epgDataId ∧ row' .streams = row .streams ++ added ∧
      (∀ s ∈ added, s ∉ row .streams) ∧ ∀ s, s ∈ addedByChannel r.journal key ↔ s ∈ added

theorem appended_start (b : Before) : Appended b (.start b) where
  journalled := le_refl _
  kept _ _ key row h := ⟨row, [], h, rfl, by simp, by simp, by simp [Run.start, addedByChannel]⟩

/-- What an action sends either is recorded and not journalled, or keeps the streams and the guide entry
unrecorded, or appends a stream the channel lacks and is recorded and journalled. -/
theorem write_cases {action : ChannelAction} {row : Row} {w : Write} (h : action.write row = some w) :
    (w.recorded ≠ [] ∧ w.merged = none) ∨
      (w.recorded = [] ∧ w.merged = none ∧ w.patch .streams = none ∧ w.patch .epgDataId = none) ∨
      ∃ category s, s ∉ row .streams ∧
        w = ⟨.single .streams (row .streams ++ [s]), [.streams], none, some category⟩ := by
  cases action with
  | addStream category streamId =>
    simp only [ChannelAction.write, writeAddStream] at h
    split at h
    · cases h
    · rename_i hnew
      cases h
      exact .inr (.inr ⟨category, streamId, hnew, rfl⟩)
  | updateChannel logoUrl tvgId =>
    simp only [ChannelAction.write, writeUpdateChannel] at h
    split at h
    · cases h
    · cases h
      exact .inl ⟨List.cons_ne_nil _ _, rfl⟩
  | rename name =>
    cases h
    exact .inr (.inl ⟨rfl, rfl, rfl, rfl⟩)
  | assignLogo logoId => cases h; exact .inl ⟨List.cons_ne_nil _ _, rfl⟩
  | assignTvgId tvgId => cases h; exact .inl ⟨List.cons_ne_nil _ _, rfl⟩
  | assignEpg epgDataId tvgId =>
    cases tvgId <;> cases h <;> exact .inl ⟨List.cons_ne_nil _ _, rfl⟩
  | assignProfile profileId => cases h; exact .inl ⟨List.cons_ne_nil _ _, rfl⟩
  | setChannelNumber number => cases h; exact .inl ⟨List.cons_ne_nil _ _, rfl⟩
  | setStreamPriority streamId highest =>
    simp only [ChannelAction.write, writeSetStreamPriority] at h
    generalize (if highest then _ else _) = reordered at h
    split at h
    · cases h
    · cases h
      exact .inl ⟨List.cons_ne_nil _ _, rfl⟩
  | removeFromChannel streamId =>
    simp only [ChannelAction.write, writeRemoveFromChannel] at h
    split at h
    · cases h
    · cases h
      exact .inl ⟨List.cons_ne_nil _ _, rfl⟩

theorem keeps_of_patch {row : Row} {w : PassWrite} {patch : RowPatch} (hkeeps : w.keeps row)
    (h : w.patch row = some patch) :
    patch.apply row .streams = row .streams ∧ patch.apply row .epgDataId = row .epgDataId := by
  cases w with
  | prune desired =>
    have hall : (row .streams).filter (· ∈ desired) = row .streams :=
      List.filter_eq_self.mpr fun s hs => decide_eq_true (hkeeps s hs)
    simp [PassWrite.patch, hall] at h
  | renumber number => cases h; exact ⟨rfl, rfl⟩
  | autoRename name => cases h; exact ⟨rfl, rfl⟩
  | reorder sortStreams =>
    have hsame : (row .streams).length < 2 ∨ sortStreams (row .streams) = row .streams := hkeeps
    rw [PassWrite.patch, if_pos hsame] at h
    cases h
  | moveToUncategorized => cases h; exact ⟨rfl, rfl⟩
  | retryAssignEpg epgDataId tvgId =>
    have hlink : row .epgDataId = some epgDataId := hkeeps
    cases tvgId with
    | none => cases h; exact ⟨rfl, hlink.symm⟩
    | some tvgId => cases h; exact ⟨rfl, hlink.symm⟩

/-- A step that records and journals nothing and keeps the streams and guide entries that were there. -/
theorem Appended.of_unrecorded {b : Before} {r r' : Run} (h : Appended b r)
    (hcreated : r'.created = [] → r.created = []) (hmodified : r'.modified = r.modified)
    (hjournal : r'.journal = r.journal)
    (hkept : ∀ key ∈ b.channels, ∀ row, r.channels.get? key = some row →
      ∃ row', r'.channels.get? key = some row' ∧ row' .streams = row .streams ∧
        row' .epgDataId = row .epgDataId) : Appended b r' := by
  refine ⟨by rw [hmodified, hjournal]; exact h.journalled, ?_⟩
  intro hnone hlength key row hrow
  rw [hmodified, hjournal] at hlength
  obtain ⟨row', added, hrow', hepg, hstreams, hfresh, hadded⟩ := h.kept (hcreated hnone) hlength key row hrow
  obtain ⟨row'', hrow'', hsame, hlink⟩ := hkept key (Dict.mem_of_get? hrow) row' hrow'
  rw [hjournal]
  exact ⟨row'', added, hrow'', hlink.trans hepg, hsame.trans hstreams, hfresh, hadded⟩

/-- What a write appends to the journal. -/
def Run.entriesOf (key : ChannelKey) (row : Row) (w : Write) : List MergeEntry :=
  w.merged.toList.map fun category => ⟨category, key, row .streams, w.patch.apply row .streams⟩

theorem Run.perform_journal (r : Run) (key : ChannelKey) (row : Row) (w : Write) :
    (r.perform key row w).journal = r.journal ++ Run.entriesOf key row w := by
  rw [Run.perform, Run.addResult_eq, Run.entriesOf]
  cases hmerged : w.merged with
  | none => simp [Run.journalMerge, hmerged]
  | some category => simp [Run.journalMerge, hmerged]

/-- The streams a channel is listed with once another entry is journalled. -/
theorem addedByChannel_append (journal entries : List MergeEntry) (key : ChannelKey) :
    addedByChannel (journal ++ entries) key = addedByChannel journal key ++ addedByChannel entries key := by
  simp [addedByChannel]

/-- A merge puts its stream behind the others and lists it. -/
theorem appended_merge {b : Before} {r : Run} (h : Appended b r) {key : ChannelKey} {row : Row}
    (hget : r.channels.get? key = some row) (category : MergeCategory) {s : ℤ} (hnew : s ∉ row .streams) :
    Appended b (r.perform key row
      ⟨.single .streams (row .streams ++ [s]), [.streams], none, some category⟩) := by
  have hjournal := r.perform_journal key row
    ⟨.single .streams (row .streams ++ [s]), [.streams], none, some category⟩
  have hentry : Run.entriesOf key row
      ⟨.single .streams (row .streams ++ [s]), [.streams], none, some category⟩ =
        [⟨category, key, row .streams, row .streams ++ [s]⟩] := by
    simp [Run.entriesOf]
  have hmodified : (r.perform key row
      ⟨.single .streams (row .streams ++ [s]), [.streams], none, some category⟩).modified.length =
        r.modified.length + 1 := by
    simp [Run.recordOf]
  rw [hentry] at hjournal
  have hle := h.journalled
  refine ⟨by rw [hmodified, hjournal, List.length_append, List.length_singleton]; omega, ?_⟩
  intro hnone hlength key' row₀ hrow₀
  rw [hmodified, hjournal, List.length_append, List.length_singleton] at hlength
  obtain ⟨row', added, hrow', hepg, hstreams, hfresh, hadded⟩ :=
    h.kept (by simpa using hnone) (by omega) key' row₀ hrow₀
  rw [hjournal, addedByChannel_append]
  by_cases hkey : key' = key
  · subst hkey
    rw [hget] at hrow'
    cases hrow'
    have hlisted : addedByChannel [⟨category, key', row .streams, row .streams ++ [s]⟩] key' = [s] := by
      simp [addedByChannel, addedStreamIds, List.filter_append, hnew]
    refine ⟨_, added ++ [s], by rw [Run.perform_channels, Dict.get?_set, if_pos rfl], ?_, ?_, ?_, ?_⟩
    · exact hepg
    · simp [hstreams]
    · intro s' hs'
      rw [List.mem_append, List.mem_singleton] at hs'
      cases hs' with
      | inl hold => exact hfresh s' hold
      | inr hlast =>
        intro hmem
        exact hnew (by rw [hstreams, ← hlast]; exact List.mem_append_left _ hmem)
    · intro s'
      rw [hlisted, List.mem_append, List.mem_append, hadded]
  · have hlisted : addedByChannel [⟨category, key, row .streams, row .streams ++ [s]⟩] key' = [] := by
      simp [addedByChannel, Ne.symm hkey]
    rw [hlisted, List.append_nil]
    exact ⟨row', added, by simp [Dict.get?_set, Ne.symm hkey, hrow'], hepg, hstreams, hfresh, hadded⟩

theorem appended_act {b : Before} {r : Run} (h : Appended b r) (key : ChannelKey) (action : ChannelAction) :
    Appended b (r.act key action) := by
  obtain hsame | ⟨row, w, hget, hwrite, hrun⟩ := r.act_cases key action
  · rwa [hsame]
  rw [hrun]
  obtain ⟨hrecorded, hmerged⟩ | ⟨hrecorded, hmerged, hstreams, hepg⟩ | ⟨category, s, hnew, hw⟩ :=
    write_cases hwrite
  · -- more is recorded than journalled from here on
    have hmodified : (r.perform key row w).modified.length = r.modified.length + 1 := by
      simp [Run.recordOf, hrecorded]
    have hjournal : (r.perform key row w).journal = r.journal := by
      simp [Run.perform_journal, Run.entriesOf, hmerged]
    have hle := h.journalled
    refine ⟨by rw [hmodified, hjournal]; omega, ?_⟩
    intro _ hlength
    rw [hmodified, hjournal] at hlength
    omega
  · refine h.of_unrecorded ?_ ?_ ?_ ?_
    · exact fun hnone => by simpa using hnone
    · simp [Run.recordOf, hrecorded]
    · simp [Run.perform_journal, Run.entriesOf, hmerged]
    · intro key' _ row' hrow'
      by_cases hkey : key' = key
      · subst hkey
        rw [hget] at hrow'
        cases hrow'
        exact ⟨w.patch.apply row, by simp, by simp [hstreams], by simp [hepg]⟩
      · exact ⟨row', by simp [Dict.get?_set, Ne.symm hkey, hrow'], rfl, rfl⟩
  · rw [hw]
    exact appended_merge h hget category hnew

theorem Before.ne_created (b : Before) {key : ChannelKey} (hkey : key ∈ b.channels) (n : ℕ) :
    key ≠ .created n := by
  obtain ⟨id, rfl⟩ := b.loaded key hkey
  exact ChannelKey.noConfusion

theorem appended_change {b : Before} {r : Run} (h : Appended b r) (c : Change) :
    Appended b (r.change c) := by
  cases c with
  | createGroup =>
    refine h.of_unrecorded ?_ rfl rfl fun _ _ row hrow => ⟨row, hrow, rfl, rfl⟩
    exact fun hnone => by simp [Run.change, Run.createGroup] at hnone
  | createChannel row =>
    refine h.of_unrecorded ?_ rfl rfl ?_
    · exact fun hnone => by simp [Run.change, Run.createChannel] at hnone
    · intro key hkey row' hrow'
      have hne := b.ne_created hkey r.nextChannel
      exact ⟨row', by simp [Run.change, Run.createChannel, Dict.get?_set, Ne.symm hne, hrow'], rfl, rfl⟩
  | act key action => exact appended_act h key action

theorem appended_rewrite {b : Before} {r : Run} (h : Appended b r) {key : ChannelKey} {patch : RowPatch}
    (hkeeps : key ∈ b.channels → ∀ row, r.channels.get? key = some row →
      patch.apply row .streams = row .streams ∧ patch.apply row .epgDataId = row .epgDataId) :
    Appended b (r.step (.rewrite key patch)) := by
  refine h.of_unrecorded id rfl rfl ?_
  intro key' hkey' row hrow
  by_cases hkey : key = key'
  · subst hkey
    exact ⟨patch.apply row, by simp [Run.step, Dict.get?_modify, hrow], hkeeps hkey' row hrow⟩
  · exact ⟨row, by simp [Run.step, Dict.get?_modify, hkey, hrow], rfl, rfl⟩

theorem appended_passWrite {b : Before} {r : Run} (h : Appended b r) {key : ChannelKey} {w : PassWrite}
    (hkeeps : ∀ row, key ∈ b.channels → r.channels.get? key = some row → w.keeps row) :
    Appended b ((w.runStep r key).elim r r.step) := by
  rw [PassWrite.runStep]
  cases hget : r.channels.get? key with
  | none => exact h
  | some row =>
    rw [Option.bind_some]
    cases hpatch : w.patch row with
    | none => exact h
    | some patch =>
      refine appended_rewrite h ?_
      intro hkey row' hrow'
      rw [hget] at hrow'
      cases hrow'
      exact keeps_of_patch (hkeeps row hkey hget) hpatch

/-- A harmless step keeps what a covered run is undone by. -/
theorem appended_pass {b : Before} {r : Run} (h : Appended b r) {s : PassStep} (hs : s.harmless b r) :
    Appended b (r.pass s) := by
  cases s with
  | change c => exact appended_change h c
  | verifyEpg n epgDataId tvgId =>
    rw [Run.pass, PassStep.runStep]
    cases hget : r.channels.get? (.created n) with
    | none => exact h
    | some row =>
      rw [Option.bind_some]
      split
      · exact h
      · exact appended_passWrite h fun _ hkey => absurd rfl (b.ne_created hkey n)
  | write key w => exact appended_passWrite h hs
  | removeChannel key =>
    refine h.of_unrecorded id rfl rfl ?_
    intro key' hkey' row hrow
    have hne : key ≠ key' := fun heq => hs (heq ▸ hkey')
    exact ⟨row, by simp [Run.pass, PassStep.runStep, Run.step, Dict.get?_erase, hne, hrow], rfl, rfl⟩

theorem appended_passes {b : Before} {r : Run} {ss : List PassStep} (h : Appended b r)
    (hss : Harmless b r ss) : Appended b (r.passes ss) := by
  induction ss generalizing r with
  | nil => exact h
  | cons s ss ih =>
    obtain ⟨hs, hrest⟩ := hss
    exact ih (appended_pass h hs) hrest

/-! ## Undoing a covered run -/

/-- After the run others have added streams to the channels, wherever in their lists. -/
def AddedSince (after later : Upstream) : Prop :=
  ∀ key row, after.channels.get? key = some row → ∃ row', later.channels.get? key = some row' ∧
    row' .epgDataId = row .epgDataId ∧ (row' .streams).filter (· ∈ row .streams) = row .streams

/-- Every channel that was there has its guide entry and its streams again, in their order, with no
others between them but those added since the run, all of which are kept. -/
def RestoredSince (b : Before) (after later final : Upstream) : Prop :=
  ∀ key row, b.channels.get? key = some row → ∃ rowAfter rowLater rowFinal,
    after.channels.get? key = some rowAfter ∧ later.channels.get? key = some rowLater ∧
    final.channels.get? key = some rowFinal ∧ rowFinal .epgDataId = row .epgDataId ∧
    (rowFinal .streams).filter (· ∈ rowAfter .streams) = row .streams ∧
    ∀ s ∈ rowLater .streams, s ∉ rowAfter .streams → s ∈ rowFinal .streams

/-- A covered run created nothing, and its journal fits a page and is as long as its record. -/
theorem covers_journal {e : Execution} (h : eventSyncJournalCoversRun .never e = true) :
    e.created = [] ∧ e.modified.length = e.journal.length ∧ getEntries e.journal = e.journal.reverse := by
  simp only [eventSyncJournalCoversRun, Bool.and_eq_true, List.isEmpty_iff, List.all_eq_true,
    decide_eq_true_eq, List.isPerm_iff] at h
  obtain ⟨⟨⟨⟨⟨⟨hcreated, _⟩, hentities⟩, _⟩, hpage⟩, _⟩, hperm⟩ := h
  have hwhole : getEntries e.journal = e.journal.reverse := by
    rw [getEntries, List.take_of_length_le]
    rw [getEntries, List.length_take, List.length_reverse] at hpage
    rw [List.length_reverse]
    omega
  have hrecord : (e.modified.filterMap (·.channelEntity)).length = e.modified.length :=
    List.filterMap_length_eq_length.mpr fun m hm => (hentities m hm).1
  have hlength := hperm.length_eq
  rw [hrecord, List.length_map, ← hpage] at hlength
  exact ⟨hcreated, hlength.symm, hwhole⟩

theorem mem_addedByChannel_reverse (journal : List MergeEntry) (key : ChannelKey) (s : ℤ) :
    s ∈ addedByChannel journal.reverse key ↔ s ∈ addedByChannel journal key := by
  simp [addedByChannel]

/-- A covered run whose steps are harmless is undone by its journal. -/
theorem covered_run_undone (b : Before) (ss : List PassStep) (hss : Harmless b (.start b) ss)
    (status : RunStatus) (snapshot : Option (List SnapshotChannel))
    (hcovers : eventSyncJournalCoversRun .never (((Run.start b).passes ss).execution status snapshot) = true)
    (later : Upstream) (hlater : AddedSince ((Run.start b).passes ss).upstream later) :
    (journalDrivenUnmerge .never ((Run.start b).passes ss).journal later).1 = true ∧
      RestoredSince b ((Run.start b).passes ss).upstream later
        (journalDrivenUnmerge .never ((Run.start b).passes ss).journal later).2 := by
  have happended := appended_passes (appended_start b) hss
  generalize (Run.start b).passes ss = r at happended hcovers hlater
  obtain ⟨hcreated, hlength, hpage⟩ : r.created = [] ∧ r.modified.length = r.journal.length ∧
    getEntries r.journal = r.journal.reverse := covers_journal hcovers
  have hentries : getEntries r.journal ≠ [] := (covered .never hcovers).2
  cases hunmerge : journalDrivenUnmerge .never r.journal later with
  | mk handled final =>
  have hhandled : handled = true := by
    have hfst := congrArg Prod.fst hunmerge
    simpa [journalDrivenUnmerge, Failures.never, hentries] using hfst.symm
  subst hhandled
  refine ⟨rfl, ?_⟩
  intro key row hrow
  obtain ⟨rowAfter, added, hafter, hepg, hstreams, hfresh, hadded⟩ :=
    happended.kept hcreated hlength.le key row hrow
  obtain ⟨rowLater, hlaterRow, hlink, hsince⟩ := hlater key rowAfter hafter
  have hfinal := get?_journalDrivenUnmerge .never hunmerge key
  rw [hlaterRow, Option.map_some] at hfinal
  have hleft : unmerged (getEntries r.journal) key rowLater .streams =
      (rowLater .streams).filter (· ∉ added) := by
    rw [unmerged_streams, hpage]
    refine List.filter_congr ?_
    intro s _
    exact decide_eq_decide.mpr (not_congr ((mem_addedByChannel_reverse _ _ _).trans (hadded s)))
  refine ⟨rowAfter, rowLater, _, hafter, hlaterRow, hfinal, ?_, ?_, ?_⟩
  · calc
      unmerged (getEntries r.journal) key rowLater .epgDataId = rowLater .epgDataId :=
        unmerged_field _ _ _ (by decide)
      _ = rowAfter .epgDataId := hlink
      _ = row .epgDataId := hepg
  · calc
      (unmerged (getEntries r.journal) key rowLater .streams).filter (· ∈ rowAfter .streams)
        = ((rowLater .streams).filter (· ∈ rowAfter .streams)).filter (· ∉ added) := by
          rw [hleft, List.filter_comm]
      _ = (row .streams ++ added).filter (· ∉ added) := by rw [hsince, hstreams]
      _ = row .streams := by
        rw [List.filter_append, List.filter_eq_self.mpr, List.filter_eq_nil_iff.mpr, List.append_nil]
        · simp
        · intro s hs
          simpa using fun hadded => hfresh s hadded hs
  · intro s hs hnew
    have hkept : unmerged (getEntries r.journal) key rowLater .streams =
        (rowLater .streams).filter (· ∉ added) := hleft
    simp only [Failures.unmergeFails, Failures.never, Bool.or_self, Bool.false_eq_true, if_false]
    rw [hkept, List.mem_filter]
    refine ⟨hs, ?_⟩
    simpa using fun hmem => hnew (by rw [hstreams]; exact List.mem_append_right _ hmem)

section Samples

/-- A master channel with two streams. -/
def masterRow : Row
  | .name => "Peacock 14"
  | .channelNumber => some 14
  | .streams => [11, 10]
  | .tvgId | .logoUrl => none
  | .autoCreated => true
  | .channelGroupId => some 10
  | .epgDataId | .logoId | .streamProfileId => none

def masterBefore : Before where
  channels := (∅ : Dict ChannelKey Row).set (.existing 14) masterRow
  groups := [.existing 10]
  loaded key hkey := ⟨14, by
    rw [Dict.mem_set] at hkey
    simpa [Dict.mem_def] using hkey⟩
  listed g hg := ⟨10, by simpa using hg⟩

/-- The accounts of streams 11, 10 and 20 have the priorities 0, 1 and 2. -/
def accountPriority (sid : ℤ) : ℤ := if sid = 10 then 1 else if sid = 20 then 2 else 0

/-- Stream 20 is attached to the master, whose streams are then put in provider order. -/
def attachAndSort (desc : Bool) : List PassStep :=
  [.change (.act (.existing 14) (.addStream .eventSync 20)),
    .write (.existing 14) (.reorder (sortStreamsByM3uAccountPriority accountPriority desc))]

/-- The upstream after such a run with the master's streams as given. -/
def masterWith (streams : List ℤ) : Upstream :=
  ⟨(∅ : Dict ChannelKey Row).set (.existing 14) ((Patch.single .streams streams : RowPatch).apply masterRow),
    [.existing 10]⟩

/-- In ascending order the streams stay where they are, and a stream put in front of them since is kept. -/
theorem covered_run_undone_ascending :
    ((journalDrivenUnmerge .never ((Run.start masterBefore).passes (attachAndSort false)).journal
        (masterWith [30, 11, 10, 20])).2.channels.get? (.existing 14)).map (· .streams) =
      some [30, 11, 10] ∧
    RestoredSince masterBefore ((Run.start masterBefore).passes (attachAndSort false)).upstream
      (masterWith [30, 11, 10, 20])
      (journalDrivenUnmerge .never ((Run.start masterBefore).passes (attachAndSort false)).journal
        (masterWith [30, 11, 10, 20])).2 := by
  refine ⟨by decide +kernel, ?_⟩
  refine (covered_run_undone masterBefore (attachAndSort false) ?_ .completed none (by decide +kernel)
    (masterWith [30, 11, 10, 20]) ?_).2
  · refine ⟨trivial, ?_, trivial⟩
    intro row _ hrow
    have hstreams : row .streams = [11, 10, 20] := by
      have hattached : (((Run.start masterBefore).pass (.change (.act (.existing 14)
          (.addStream .eventSync 20)))).channels.get? (.existing 14)).map (· .streams) =
            some [11, 10, 20] := by decide +kernel
      rw [hrow] at hattached
      exact Option.some.inj hattached
    exact .inr (by rw [hstreams]; decide +kernel)
  · intro key row hrow
    have hkey : key = .existing 14 := by
      have hmem := Dict.mem_of_get? hrow
      rw [Dict.mem_def, show ((Run.start masterBefore).passes (attachAndSort false)).upstream.channels.keys =
        [.existing 14] by decide +kernel] at hmem
      exact List.mem_singleton.mp hmem
    subst hkey
    have hsorted : (((Run.start masterBefore).passes (attachAndSort false)).upstream.channels.get?
        (.existing 14)).map (fun row => (row .epgDataId, row .streams)) = some (none, [11, 10, 20]) := by
      decide +kernel
    rw [hrow, Option.map_some, Option.some.injEq, Prod.mk.injEq] at hsorted
    refine ⟨_, Dict.get?_set_self _ _ _, ?_, ?_⟩
    · rw [hsorted.1]
      rfl
    · rw [hsorted.2]
      decide +kernel

/-- In descending order the master is left with its streams the other way round. -/
theorem reordered_run_covered :
    ¬ ∀ (b : Before) (ss : List PassStep) (status : RunStatus)
      (snapshot : Option (List SnapshotChannel)),
      eventSyncJournalCoversRun .never (((Run.start b).passes ss).execution status snapshot) = true →
        ∀ later, AddedSince ((Run.start b).passes ss).upstream later →
          RestoredSince b ((Run.start b).passes ss).upstream later
            (journalDrivenUnmerge .never ((Run.start b).passes ss).journal later).2 := by
  intro hall
  have hrestored := hall masterBefore (attachAndSort true) .completed none (by decide +kernel)
    ((Run.start masterBefore).passes (attachAndSort true)).upstream
    (fun key row hrow => ⟨row, hrow, rfl, List.filter_eq_self.mpr fun s hs => decide_eq_true hs⟩)
  obtain ⟨rowAfter, rowLater, rowFinal, hafter, -, hfinal, -, hstreams, -⟩ :=
    hrestored (.existing 14) masterRow (Dict.get?_set_self _ _ _)
  have hsorted : (((Run.start masterBefore).passes (attachAndSort true)).upstream.channels.get?
      (.existing 14)).map (· .streams) = some [20, 10, 11] := by decide +kernel
  have hleft : ((journalDrivenUnmerge .never ((Run.start masterBefore).passes (attachAndSort true)).journal
      ((Run.start masterBefore).passes (attachAndSort true)).upstream).2.channels.get?
        (.existing 14)).map (· .streams) = some [10, 11] := by decide +kernel
  rw [hafter, Option.map_some, Option.some.injEq] at hsorted
  rw [hfinal, Option.map_some, Option.some.injEq] at hleft
  rw [hsorted, hleft] at hstreams
  revert hstreams
  decide

end Samples

end Coverage

end ChannelManager.Pipeline
