import ChannelManager.Plans.Journal
import Mathlib.Data.Finset.Option

/-!
# What the rows of a journal say

Read in order, the rows of one channel tell its stream set and its number. Here is what it takes for
each row to be true of what the earlier ones tell, write by write.
-/

namespace ChannelManager.Plans

/-- What rows tell of a channel: its streams, and its number as `json.dumps` writes it. -/
@[ext] structure Standing where
  streams : Finset ℤ
  number : Json
deriving DecidableEq

def standingOf (channel : Record) : Standing where
  streams := streamSet (channel.read "streams")
  number := (channel.read "channel_number").canonical

/-- A field of a row's value. -/
def fieldOf (v : Json) (key : String) : Json := (v.field? key).getD .null

/-- The stream a row of one stream is about. -/
def streamOf (v : Json) : Finset ℤ := ((v.field? "stream_id").bind Json.int?).toFinset

/-- The channel as a value that has its fields gives it. -/
def standingIn (v : Json) : Standing where
  streams := streamSet (fieldOf v "streams")
  number := (fieldOf v "channel_number").canonical

/-- Whether rows of the action are about channels. -/
def RowAction.ofChannel : RowAction → Bool
  | .createChannelGroup | .createLogo | .deleteChannelGroup => false
  | _ => true

/-- The rows of a channel. -/
def channelRows (c : ℤ) (rows : List JournalRow) : List JournalRow :=
  rows.filter fun row => row.action.ofChannel && row.entityId == c

/-- What a row makes of what was told of its channel. -/
def applyRow (s : Option Standing) (row : JournalRow) : Option Standing :=
  match row.action with
  | .createChannel => some (standingIn row.after)
  | .assignChannelNumber =>
    s.map fun s => { s with number := (fieldOf row.after "channel_number").canonical }
  | .mergeStream => s.map fun s => { s with streams := s.streams ∪ streamOf row.after }
  | .removeStream => s.map fun s => { s with streams := s.streams \ streamOf row.before }
  | .updateChannel =>
    s.map fun s =>
      { s with number := ((row.after.field? "channel_number").map Json.canonical).getD s.number }
  | .deleteChannel => none
  | _ => s

/-- The row's value before is what was told of its channel. -/
def RowFollows (s : Option Standing) (row : JournalRow) : Prop :=
  match s, row.action with
  | none, action => action = .createChannel
  | some _, .createChannel => False
  | some s, .assignChannelNumber => (fieldOf row.before "channel_number").canonical = s.number
  | some s, .mergeStream => streamSet (fieldOf row.before "stream_ids") = s.streams
  | some s, .removeStream => streamOf row.before ⊆ s.streams
  | some s, .updateChannel | some s, .deleteChannel => standingIn row.before = s
  | some _, _ => True

/-- Every row of a channel is true of what the earlier ones tell. -/
def RowsChain (s : Option Standing) (rows : List JournalRow) : Prop :=
  Chained applyRow RowFollows s rows

/-- What planning read of a channel. -/
def preconditionOf (plan : PipelineWritePlan) (c : ℤ) : Option Standing :=
  (plan.channelPreconditions.get? c).map standingOf

/-- Planning has read the channel, or the replay created it. -/
def Concerned (plan : PipelineWritePlan) (remap : Dict ℤ ℤ) (c : ℤ) : Prop :=
  c ∈ plan.channelPreconditions ∨ ∃ tempId, remap.get? tempId = some c

/-- The rows name real ids only, they chain channel by channel, and together they tell what the
replay left on each channel. -/
structure JournalHolds (plan : PipelineWritePlan) (remap : Dict ℤ ℤ) (rows : List JournalRow)
    (final : Live) : Prop where
  real : ∀ row ∈ rows, 0 ≤ row.entityId ∧ row.before.Real ∧ row.after.Real
  chained : ∀ c, RowsChain (preconditionOf plan c) (channelRows c rows)
  last : ∀ c, Concerned plan remap c →
    (channelRows c rows).foldl applyRow (preconditionOf plan c) =
      (final.channels.get? c).map standingOf

/-! ## When it holds -/

/-- The writes, each with the temporary id that it takes if it is a create. -/
def withTempIds : ℤ → List Write → List (ℤ × Write)
  | _, [] => []
  | nextTemp, w :: writes =>
    (nextTemp, w) :: withTempIds (if w.isCreate then nextTemp - 1 else nextTemp) writes

/-- The streams a write states for a channel. -/
def statesStreams (remap : Dict ℤ ℤ) (c : ℤ) : ℤ × Write → Option (Finset ℤ)
  | (nextTemp, .createChannel data) =>
    if resolve remap nextTemp = c then some (streamSet (data.read "streams")) else none
  | (_, .updateChannel c' data) =>
    if resolve remap c' = c ∧ "streams" ∈ data then some (streamSet (data.read "streams")) else none
  | _ => none

/-- The streams of a channel as the plan states them: by the last write that does, or as read. -/
def statedStreams (plan : PipelineWritePlan) (remap : Dict ℤ ℤ) (earlier : List Write) (c : ℤ) :
    Finset ℤ :=
  match lastWrite (statesStreams remap c) (withTempIds (-1) earlier) with
  | some (_, streams) => streams
  | none => ((preconditionOf plan c).map (·.streams)).getD ∅

/-- Whether a write that sets the streams of a channel leaves them to Dispatcharr. -/
def leavesStreams (remap : Dict ℤ ℤ) (c : ℤ) : ℤ × Write → Option Bool
  | (nextTemp, .createChannel data) =>
    if resolve remap nextTemp = c then some ("streams" ∉ data) else none
  | (_, .updateChannel c' data) =>
    if resolve remap c' = c ∧ "streams" ∈ data then some false else none
  | _ => none

/-- Whether a write that sets the number of a channel leaves it to Dispatcharr. -/
def leavesNumber (remap : Dict ℤ ℤ) (c : ℤ) : ℤ × Write → Option Bool
  | (nextTemp, .createChannel data) =>
    if resolve remap nextTemp = c then some ("channel_number" ∉ data) else none
  | (_, .updateChannel c' data) =>
    if resolve remap c' = c ∧ "channel_number" ∈ data then some false else none
  | (_, .assignChannelNumbers ids startingNumber) =>
    if c ∈ ids.map (resolve remap) then some (startingNumber = .null) else none
  | _ => none

/-- The last write to set a value of the channel left it to Dispatcharr. -/
def LeftBy (leaves : ℤ × Write → Option Bool) (writes : List Write) : Prop :=
  (lastWrite leaves (withTempIds (-1) writes)).map Prod.snd = some true

/-- A write carries no temporary id besides those of what it addresses. -/
def Write.CarriesReal : Write → Prop
  | .createChannel data | .createLogo data | .updateChannel _ data => Record.Real data
  | .updateProfileChannel profileId _ data => 0 ≤ profileId ∧ Record.Real data
  | .assignChannelNumbers channelIds startingNumber =>
    channelIds = [] ∨ Json.Real startingNumber
  | _ => True

/-- What an update may do for its rows to chain: add one stream at most, and no change of streams
together with another field. -/
def OneRow (old : Finset ℤ) (data : Record) : Prop :=
  "streams" ∈ data → (streamSet (data.read "streams") \ old).card ≤ 1 ∧
    (streamSet (data.read "streams") = old ∨ (data.erase "streams").items = [])

/-- Writes that carry real ids, updates of one row, and nothing left to Dispatcharr that it does not
leave empty. -/
structure Journalable (plan : PipelineWritePlan) (remap : Dict ℤ ℤ) (final : Live) : Prop where
  real : ∀ w ∈ plan.writes, w.CarriesReal
  oneRow : ∀ earlier c data later, plan.writes = earlier ++ .updateChannel c data :: later →
    OneRow (statedStreams plan remap earlier (resolve remap c)) data
  left : ∀ c, Concerned plan remap c → ∀ channel, final.channels.get? c = some channel →
    (LeftBy (leavesStreams remap c) plan.writes → streamSet (channel.read "streams") = ∅) ∧
      (LeftBy (leavesNumber remap c) plan.writes → channel.read "channel_number" = .null)

/-! ## One write -/

section Rows

variable {remap : Dict ℤ ℤ} (executionId : ℤ) {plan : PipelineWritePlan} {journal : Journal}

/-- What the shadow tells of a channel. -/
def Journal.standing (journal : Journal) (c : ℤ) : Option Standing :=
  (journal.shadow.get? c).map standingOf

/-- What a write needs of the shadow: the channels it addresses are in it, and the one it creates is
not. -/
def Grounded (remap : Dict ℤ ℤ) (journal : Journal) : Write → Prop
  | .createChannel _ => resolve remap journal.nextTemp ∉ journal.shadow
  | w => ∀ c ∈ w.channelIds, resolve remap c ∈ journal.shadow

/-- The rows added tell what becomes of the shadow. -/
structure Extends (journal journal' : Journal) (new : List JournalRow) : Prop where
  rows : journal'.rows = journal.rows ++ new
  told : ∀ c, (channelRows c new).foldl applyRow (journal.standing c) = journal'.standing c

theorem channelRows_append (c : ℤ) (rows rows' : List JournalRow) :
    channelRows c (rows ++ rows') = channelRows c rows ++ channelRows c rows' :=
  List.filter_append rows rows'

/-- Rows of one channel are rows of no other. -/
theorem channelRows_of_all {id : ℤ} {rows : List JournalRow}
    (h : ∀ row ∈ rows, row.action.ofChannel ∧ row.entityId = id) (c : ℤ) :
    channelRows c rows = if id = c then rows else [] := by
  unfold channelRows
  split
  case isTrue heq =>
    rw [List.filter_eq_self]
    intro row hrow
    simp [(h row hrow).1, (h row hrow).2, heq]
  case isFalse hne =>
    rw [List.filter_eq_nil_iff]
    intro row hrow
    simp [(h row hrow).2, hne]

theorem channelRows_single {id : ℤ} {row : JournalRow} (hkind : row.action.ofChannel)
    (hid : row.entityId = id) (c : ℤ) : channelRows c [row] = if id = c then [row] else [] := by
  apply channelRows_of_all
  intro row' hrow'
  rw [List.mem_singleton.mp hrow']
  exact ⟨hkind, hid⟩

/-- Rows of no channel. -/
theorem channelRows_of_none {rows : List JournalRow}
    (h : ∀ row ∈ rows, row.action.ofChannel = false) (c : ℤ) : channelRows c rows = [] := by
  rw [channelRows, List.filter_eq_nil_iff]
  intro row hrow
  simp [h row hrow]

theorem Extends.refl (journal : Journal) : Extends journal journal [] where
  rows := (List.append_nil _).symm
  told _ := rfl

theorem Extends.trans {journal' journal'' : Journal} {new new' : List JournalRow}
    (h : Extends journal journal' new) (h' : Extends journal' journal'' new') :
    Extends journal journal'' (new ++ new') where
  rows := by rw [h'.rows, h.rows, List.append_assoc]
  told c := by rw [channelRows_append, List.foldl_append, h.told, h'.told]

theorem streamSet_ids (ids : List ℤ) : streamSet (.list (ids.map .int)) = ids.toFinset := by
  have hints : (ids.map Json.int).filterMap Json.int? = ids := by
    induction ids with
    | nil => rfl
    | cons n ids ih => simpa [Json.int?] using ih
  rw [streamSet, hints]

@[simp] theorem streamSet_sortedIds (ids : Finset ℤ) : streamSet (sortedIds ids) = ids := by
  rw [sortedIds, streamSet_ids, Finset.sort_toFinset]

@[simp] theorem streamOf_int (n : ℤ) : streamOf (.dict [("stream_id", .int n)]) = {n} := rfl

theorem standingIn_items (channel : Record) :
    standingIn (.dict channel.items) = standingOf channel := rfl

/-- Merge rows add their streams; each states the streams before all of them. -/
theorem told_mergeRows (id : ℤ) (name : Json) (old : Finset ℤ) (ids : List ℤ) (s : Standing) :
    (ids.map (Journal.mergeRow executionId id name old)).foldl applyRow (some s) =
      some { s with streams := s.streams ∪ ids.toFinset } := by
  induction ids generalizing s with
  | nil => simp
  | cons n ids ih =>
    have hrow : applyRow (some s) (Journal.mergeRow executionId id name old n) =
        some { s with streams := s.streams ∪ {n} } := rfl
    rw [List.map_cons, List.foldl_cons, hrow, ih, List.toFinset_cons, Finset.insert_eq,
      Finset.union_assoc]

theorem told_removeRows (id : ℤ) (name : Json) (new : Finset ℤ) (ids : List ℤ) (s : Standing) :
    (ids.map (Journal.removeRow executionId id name new)).foldl applyRow (some s) =
      some { s with streams := s.streams \ ids.toFinset } := by
  induction ids generalizing s with
  | nil => simp
  | cons n ids ih =>
    have hrow : applyRow (some s) (Journal.removeRow executionId id name new n) =
        some { s with streams := s.streams \ {n} } := rfl
    rw [List.map_cons, List.foldl_cons, hrow, ih, List.toFinset_cons, Finset.insert_eq,
      sdiff_sdiff_left, Finset.sup_eq_union]

/-- Merge rows chain when there is only one: the second would have to state the first. -/
theorem mergeRows_chain (id : ℤ) (name : Json) (s : Standing) {ids : List ℤ}
    (hnew : ∀ n ∈ ids, n ∉ s.streams) :
    RowsChain (some s) (ids.map (Journal.mergeRow executionId id name s.streams)) ↔
      ids.length ≤ 1 := by
  have hfirst : ∀ n, RowFollows (some s) (Journal.mergeRow executionId id name s.streams n) :=
    fun n => streamSet_sortedIds s.streams
  match ids, hnew with
  | [], _ => simp [RowsChain]
  | [n], _ => simpa [RowsChain] using hfirst n
  | n :: n' :: ids, hnew =>
    refine iff_of_false ?_ (by simp)
    rintro ⟨-, hsecond, -⟩
    have hstated : streamSet (sortedIds s.streams) = s.streams ∪ {n} := hsecond
    rw [streamSet_sortedIds] at hstated
    exact hnew n (by simp) (hstated ▸ Finset.mem_union_right _ (Finset.mem_singleton_self n))

theorem removeRows_chain (id : ℤ) (name : Json) (new : Finset ℤ) {ids : List ℤ} (s : Standing)
    (hnodup : ids.Nodup) (hold : ∀ n ∈ ids, n ∈ s.streams) :
    RowsChain (some s) (ids.map (Journal.removeRow executionId id name new)) := by
  induction ids generalizing s with
  | nil => trivial
  | cons n ids ih =>
    obtain ⟨hn, hnodup⟩ := List.nodup_cons.mp hnodup
    refine ⟨?_, ih { s with streams := s.streams \ {n} } hnodup ?_⟩
    · exact Finset.singleton_subset_iff.mpr (hold n (by simp))
    · intro m hm
      rw [Finset.mem_sdiff, Finset.mem_singleton]
      exact ⟨hold m (by simp [hm]), fun heq => hn (heq ▸ hm)⟩

/-- What the row of an update tells. -/
theorem applyRow_update (id : ℤ) (name before : Json) (data : Record) (text : String)
    (s : Standing) :
    applyRow (some s) (Journal.row executionId .updateChannel id name before (.dict data.items)
        text) =
      some ⟨s.streams, ((data.get? "channel_number").map Json.canonical).getD s.number⟩ := rfl

theorem number_updated (before data : Record) :
    ((data.get? "channel_number").map Json.canonical).getD (standingOf before).number =
      (standingOf (before.update data)).number := by
  simp only [standingOf, Record.read, Dict.get?_update]
  cases data.get? "channel_number" <;> rfl

theorem streams_updated (before data : Record) :
    (standingOf (before.update data)).streams =
      if "streams" ∈ data then streamSet (data.read "streams")
      else (standingOf before).streams := by
  simp only [standingOf, Record.read_update]
  split <;> rfl

theorem told_streamRows (id : ℤ) (name : Json) (new : Finset ℤ) (s : Standing) :
    (Journal.streamRows executionId id name s.streams new).foldl applyRow (some s) =
      some { s with streams := new } := by
  have hset : (s.streams ∪ (new \ s.streams)) \ (s.streams \ new) = new := by
    ext n
    simp only [Finset.mem_sdiff, Finset.mem_union]
    tauto
  rw [Journal.streamRows, List.foldl_append, told_mergeRows, told_removeRows,
    Finset.sort_toFinset, Finset.sort_toFinset, hset]

theorem streamRows_chain (id : ℤ) (name : Json) (new : Finset ℤ) (s : Standing) :
    RowsChain (some s) (Journal.streamRows executionId id name s.streams new) ↔
      (new \ s.streams).card ≤ 1 := by
  have hmerges : RowsChain (some s) (((new \ s.streams).sort (· ≤ ·)).map
      (Journal.mergeRow executionId id name s.streams)) ↔ _ :=
    mergeRows_chain executionId id name s (by simp)
  rw [Finset.length_sort] at hmerges
  rw [← hmerges, Journal.streamRows, RowsChain, chained_append, told_mergeRows]
  refine and_iff_left (removeRows_chain executionId id name new _ (Finset.sort_nodup _ _) ?_)
  intro n hn
  rw [Finset.mem_sort, Finset.mem_sdiff] at hn
  exact Finset.mem_union_left _ hn.1

/-- The rows of an update tell what it leaves, and chain when the update is of one row. -/
theorem updateRows_tell (id : ℤ) (before data : Record) :
    (Journal.updateRows executionId id before data).foldl applyRow (some (standingOf before)) =
        some (standingOf (before.update data)) ∧
      (RowsChain (some (standingOf before)) (Journal.updateRows executionId id before data) ↔
        OneRow (standingOf before).streams data) := by
  by_cases hstreams : "streams" ∈ data
  · have hrows : Journal.updateRows executionId id before data =
        Journal.streamRows executionId id (before.read "name") (standingOf before).streams
            (streamSet (data.read "streams")) ++
          if (data.erase "streams").items = [] then []
          else [Journal.updateRow executionId id before (data.erase "streams")] :=
      if_pos hstreams
    have hrest : (data.erase "streams").get? "channel_number" = data.get? "channel_number" := by
      rw [Dict.get?_erase, if_neg (by decide)]
    have hafter : (⟨streamSet (data.read "streams"),
        ((data.get? "channel_number").map Json.canonical).getD (standingOf before).number⟩ :
          Standing) = standingOf (before.update data) := by
      rw [Standing.ext_iff, streams_updated, if_pos hstreams]
      exact ⟨rfl, number_updated before data⟩
    rw [hrows, List.foldl_append, told_streamRows, RowsChain, chained_append, told_streamRows,
      ← RowsChain, streamRows_chain]
    by_cases hempty : (data.erase "streams").items = []
    · have hnone : data.get? "channel_number" = none := by
        rw [← hrest, Dict.get?_eq_none, Dict.mem_def, Dict.keys, hempty]
        exact List.not_mem_nil
      rw [if_pos hempty]
      refine ⟨?_, ?_⟩
      · rw [List.foldl_nil, ← hafter, hnone]
        rfl
      · simp [OneRow, hstreams, hempty]
    · rw [if_neg hempty]
      refine ⟨?_, ?_⟩
      · rw [List.foldl_cons, List.foldl_nil, Journal.updateRow, applyRow_update, hrest, hafter]
      · have hrow : RowFollows (some { standingOf before with
              streams := streamSet (data.read "streams") })
            (Journal.updateRow executionId id before (data.erase "streams")) ↔
              streamSet (data.read "streams") = (standingOf before).streams := by
          show standingOf before = _ ↔ _
          rw [Standing.ext_iff]
          exact ⟨fun h => h.1.symm, fun h => ⟨h.symm, rfl⟩⟩
        simp [OneRow, hstreams, hempty, hrow]
  · have hrows : Journal.updateRows executionId id before data =
        [Journal.row executionId .updateChannel id (before.read "name") (.dict before.items)
          (.dict data.items) s!"Planned pipeline executed update_channel for {id}"] :=
      if_neg hstreams
    rw [hrows]
    refine ⟨?_, ?_⟩
    · rw [List.foldl_cons, List.foldl_nil, applyRow_update, Option.some.injEq, Standing.ext_iff,
        streams_updated, if_neg hstreams]
      exact ⟨rfl, number_updated before data⟩
    · simp [RowsChain, OneRow, hstreams, RowFollows, Journal.row, standingIn_items]

/-- The streams the shadow has for a channel. -/
def Journal.streamsOf (journal : Journal) (c : ℤ) : Finset ℤ :=
  ((journal.standing c).map (·.streams)).getD ∅

/-- What it takes for the rows of a write to chain. -/
def ChainsAt (remap : Dict ℤ ℤ) (journal : Journal) : Write → Prop
  | .updateChannel c data => OneRow (journal.streamsOf (resolve remap c)) data
  | _ => True

/-- One row of one channel, read from the shadow before it. -/
theorem Extends.single {journal' : Journal} {new : JournalRow} (id : ℤ)
    (hrows : journal'.rows = journal.rows ++ [new]) (hkind : new.action.ofChannel)
    (hid : new.entityId = id) (hother : ∀ c, id ≠ c → journal'.standing c = journal.standing c)
    (htold : applyRow (journal.standing id) new = journal'.standing id) :
    Extends journal journal' [new] where
  rows := hrows
  told c := by
    rw [channelRows_single hkind hid]
    split
    case isTrue heq =>
      subst heq
      exact htold
    case isFalse hne => exact (hother c hne).symm

theorem chain_single {new : JournalRow} (id : ℤ) (hkind : new.action.ofChannel)
    (hid : new.entityId = id) :
    (∀ c, RowsChain (journal.standing c) (channelRows c [new])) ↔
      RowFollows (journal.standing id) new := by
  have hrows := channelRows_single hkind hid
  constructor
  · intro h
    have hid' := h id
    rw [hrows, if_pos rfl] at hid'
    exact hid'.1
  · intro h c
    rw [hrows]
    split
    case isTrue heq =>
      subst heq
      exact ⟨h, trivial⟩
    case isFalse => trivial

/-- Rows about no channel leave what is told. -/
theorem Extends.silent {journal' : Journal} {new : List JournalRow}
    (hrows : journal'.rows = journal.rows ++ new) (hshadow : journal'.shadow = journal.shadow)
    (hkind : ∀ row ∈ new, row.action.ofChannel = false) : Extends journal journal' new where
  rows := hrows
  told c := by
    rw [channelRows_of_none hkind, Journal.standing, Journal.standing, hshadow]
    rfl

theorem silent_row {row : JournalRow} (h : row.action.ofChannel = false) :
    ∀ row' ∈ [row], row'.action.ofChannel = false := by
  simpa using h

theorem silent_chain {new : List JournalRow} (hkind : ∀ row ∈ new, row.action.ofChannel = false)
    {P : Prop} (hP : P) :
    (∀ c, RowsChain (journal.standing c) (channelRows c new)) ↔ P := by
  simp only [channelRows_of_none hkind, hP, iff_true]
  exact fun _ => trivial

theorem standing_set (id : ℤ) (channel : Record) (rows : List JournalRow) (nextTemp c : ℤ) :
    Journal.standing ⟨rows, nextTemp, journal.shadow.set id channel⟩ c =
      if id = c then some (standingOf channel) else journal.standing c := by
  rw [Journal.standing, Dict.get?_set, Journal.standing]
  split <;> rfl

theorem standing_erase (id : ℤ) (rows : List JournalRow) (nextTemp c : ℤ) :
    Journal.standing ⟨rows, nextTemp, journal.shadow.erase id⟩ c =
      if id = c then none else journal.standing c := by
  rw [Journal.standing, Dict.get?_erase, Journal.standing]
  split <;> rfl

theorem standing_of_mem {c : ℤ} (h : c ∈ journal.shadow) :
    ∃ channel, journal.shadow.get? c = some channel ∧
      journal.standing c = some (standingOf channel) := by
  obtain ⟨channel, hget⟩ := Dict.exists_get? h
  exact ⟨channel, hget, by rw [Journal.standing, hget]; rfl⟩

/-- One channel of an assignment tells its new number, and the old one truly. -/
theorem assign_extends (startingNumber : Json) (e : ℤ × ℕ)
    (hground : resolve remap e.1 ∈ journal.shadow) :
    ∃ new, Extends journal (Journal.assign remap executionId startingNumber journal e) new ∧
      ∀ c, RowsChain (journal.standing c) (channelRows c new) := by
  obtain ⟨channel, hget, hstanding⟩ := standing_of_mem hground
  refine ⟨_, Extends.single (resolve remap e.1) rfl rfl rfl ?_ ?_, ?_⟩
  · intro c hne
    rw [Journal.assign, standing_set, if_neg hne]
  · rw [Journal.assign, standing_set, if_pos rfl, hstanding]
    simp only [hget, Option.getD_some]
    show some (⟨(standingOf channel).streams, _⟩ : Standing) = _
    rw [Option.some.injEq, Standing.ext_iff]
    exact ⟨by simp [standingOf, Record.read_set], by simp [standingOf, Record.read_set]; rfl⟩
  · rw [chain_single (resolve remap e.1) rfl rfl, hstanding, hget]
    rfl

theorem mem_assign_shadow (startingNumber : Json) (e : ℤ × ℕ) {c : ℤ} (h : c ∈ journal.shadow) :
    c ∈ (Journal.assign remap executionId startingNumber journal e).shadow :=
  (Dict.mem_set _ _ _ _).mpr (.inr h)

theorem assigns_extend (startingNumber : Json) (es : List (ℤ × ℕ))
    (hground : ∀ e ∈ es, resolve remap e.1 ∈ journal.shadow) :
    ∃ new, Extends journal (es.foldl (Journal.assign remap executionId startingNumber) journal)
        new ∧ ∀ c, RowsChain (journal.standing c) (channelRows c new) := by
  induction es generalizing journal with
  | nil => exact ⟨[], Extends.refl journal, fun _ => trivial⟩
  | cons e es ih =>
    obtain ⟨new, hext, hchain⟩ := assign_extends executionId startingNumber e
      (hground e (by simp))
    obtain ⟨new', hext', hchain'⟩ := ih fun e' he' =>
      mem_assign_shadow executionId startingNumber e (hground e' (by simp [he']))
    refine ⟨new ++ new', hext.trans hext', ?_⟩
    intro c
    rw [channelRows_append, RowsChain, chained_append, hext.told]
    exact ⟨hchain c, hchain' c⟩

theorem rows_updateRows (executionId id : ℤ) (before data : Record) :
    ∀ row ∈ Journal.updateRows executionId id before data,
      row.action.ofChannel ∧ row.entityId = id := by
  intro row hrow
  unfold Journal.updateRows at hrow
  split at hrow
  · rcases List.mem_append.mp hrow with hrow | hrow
    · rcases List.mem_append.mp hrow with hrow | hrow
      · obtain ⟨n, -, rfl⟩ := List.mem_map.mp hrow
        exact ⟨rfl, rfl⟩
      · obtain ⟨n, -, rfl⟩ := List.mem_map.mp hrow
        exact ⟨rfl, rfl⟩
    · split at hrow
      · simp at hrow
      · rw [List.mem_singleton.mp hrow]
        exact ⟨rfl, rfl⟩
  · rw [List.mem_singleton.mp hrow]
    exact ⟨rfl, rfl⟩

/-- A new channel is what its request says, its id apart. -/
theorem streams_created (id : ℤ) (data : Record) :
    (standingOf (Dict.update (Dict.ofList [("id", .int id)]) data)).streams =
      (standingOf data).streams := by
  rw [streams_updated]
  split
  case isTrue => rfl
  case isFalse h =>
    have hread : data.read "streams" = .null := by
      rw [Record.read, (Dict.get?_eq_none _ _).mpr h]
      rfl
    rw [standingOf, standingOf, hread]
    rfl

theorem number_created (id : ℤ) (data : Record) :
    (standingOf (Dict.update (Dict.ofList [("id", .int id)]) data)).number =
      (standingOf data).number := by
  rw [← number_updated]
  simp only [standingOf, Record.read]
  cases data.get? "channel_number" <;> rfl

/-- The rows of a write tell what it does to the shadow, and chain when the write is an update of
one row or no update. -/
theorem write_extends (plan : PipelineWritePlan) (w : Write) (hground : Grounded remap journal w) :
    ∃ new, Extends journal (journal.write remap executionId plan w) new ∧
      ((∀ c, RowsChain (journal.standing c) (channelRows c new)) ↔ ChainsAt remap journal w) := by
  have hbefore : ∀ c channel, journal.shadow.get? (resolve remap c) = some channel →
      Journal.beforeOf remap plan journal c = channel := by
    intro c channel hget
    rw [Journal.beforeOf, hget, Option.getD_some]
  cases w with
  | createChannel data =>
    have hnone : journal.standing (resolve remap journal.nextTemp) = none := by
      rw [Journal.standing, (Dict.get?_eq_none _ _).mpr hground, Option.map_none]
    refine ⟨_, Extends.single (resolve remap journal.nextTemp) rfl rfl rfl ?_ ?_, ?_⟩
    · intro c hne
      rw [Journal.write, standing_set, if_neg hne]
    · rw [Journal.write, standing_set, if_pos rfl]
      show some (standingOf data) = _
      rw [Option.some.injEq, Standing.ext_iff]
      exact ⟨(streams_created _ data).symm, (number_created _ data).symm⟩
    · rw [chain_single (resolve remap journal.nextTemp) rfl rfl, hnone]
      exact iff_of_true rfl trivial
  | createChannelGroup name =>
    exact ⟨_, Extends.silent rfl rfl (silent_row rfl), silent_chain (silent_row rfl) trivial⟩
  | createLogo data =>
    exact ⟨_, Extends.silent rfl rfl (silent_row rfl), silent_chain (silent_row rfl) trivial⟩
  | assignChannelNumbers ids startingNumber =>
    obtain ⟨new, hext, hchain⟩ := assigns_extend executionId startingNumber
      ids.zipIdx fun e he => hground e.1 (List.fst_mem_of_mem_zipIdx he)
    exact ⟨new, hext, iff_of_true hchain trivial⟩
  | updateProfileChannel p c data =>
    obtain ⟨channel, hget, hstanding⟩ := standing_of_mem (hground c (by simp [Write.channelIds]))
    refine ⟨_, Extends.single (resolve remap c) rfl rfl rfl (fun _ _ => rfl) ?_, ?_⟩
    · rw [hstanding, Journal.write]
      exact hstanding.symm
    · rw [chain_single (resolve remap c) rfl rfl, hstanding]
      exact iff_of_true trivial trivial
  | updateChannel c data =>
    obtain ⟨channel, hget, hstanding⟩ := standing_of_mem (hground c (by simp [Write.channelIds]))
    obtain ⟨htold, hchain⟩ := updateRows_tell executionId (resolve remap c)
      channel data
    have hrows := channelRows_of_all (rows_updateRows executionId (resolve remap c) channel data)
    refine ⟨Journal.updateRows executionId (resolve remap c) channel data, ⟨?_, ?_⟩, ?_⟩
    · rw [Journal.write, hbefore c channel hget]
    · intro c'
      rw [Journal.write, standing_set, hrows, hbefore c channel hget]
      split
      case isTrue heq => rw [← heq, hstanding, htold]
      case isFalse => rfl
    · have hstreams : journal.streamsOf (resolve remap c) = (standingOf channel).streams := by
        rw [Journal.streamsOf, hstanding]
        rfl
      rw [ChainsAt, hstreams, ← hchain]
      constructor
      · intro h
        have hown := h (resolve remap c)
        rwa [hrows, if_pos rfl, hstanding] at hown
      · intro h c'
        rw [hrows]
        split
        case isTrue heq => rwa [← heq, hstanding]
        case isFalse => trivial
  | deleteChannel c =>
    obtain ⟨channel, hget, hstanding⟩ := standing_of_mem (hground c (by simp [Write.channelIds]))
    refine ⟨_, Extends.single (resolve remap c) rfl rfl rfl ?_ ?_, ?_⟩
    · intro c' hne
      rw [Journal.write, standing_erase, if_neg hne]
    · rw [Journal.write, standing_erase, if_pos rfl]
      rfl
    · rw [chain_single (resolve remap c) rfl rfl, hstanding, hbefore c channel hget]
      exact iff_of_true rfl trivial
  | deleteChannelGroup g =>
    exact ⟨_, Extends.silent rfl rfl (silent_row rfl), silent_chain (silent_row rfl) trivial⟩

end Rows

end ChannelManager.Plans
