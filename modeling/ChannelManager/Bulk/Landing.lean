import ChannelManager.Bulk.ConsolidateNumbering
import ChannelManager.Bulk.Executor

/-!
# The store a commit lands on

Channels under the ids a request names them by (a created channel under its temporary id), and
around them the groups, the profile memberships, ECM's hidden groups and probe stats. Every call
succeeds: `Admits` says when a branch of the executor raises nothing, `landed` what it leaves.
-/

namespace ChannelManager

/-- Everything but the channels. -/
structure Surroundings where
  groups : List ChannelGroup := []
  /-- The id Dispatcharr gives the next group. -/
  nextGroupId : ℤ
  groupIdMap : Dict String ℤ := ∅
  memberships : Dict (ℤ × ℤ) Bool := ∅
  hiddenGroups : Dict ℤ String := ∅
  streamStats : List ℤ := []
deriving DecidableEq

structure CommitStore where
  channels : Dict ℤ Channel := ∅
  around : Surroundings
  /-- The temporary ids that have been mapped to a channel. -/
  created : List ℤ := []
deriving DecidableEq

/-- What the branches read and none of them writes. -/
structure LandingContext where
  streamIsMissing : ℤ → Bool := fun _ => false
  channelsResolved : Bool := true
  /-- The lineup as it stood when the run started. -/
  numbersAtRunStart : Dict ℤ (Option ℚ) := ∅
  normalize : String → String := fun name => name
  /-- The id the logo catalog has, or gives, for a url. -/
  resolveLogoId : String → Option ℤ := fun _ => none

namespace Surroundings

def resolveGroupId (around : Surroundings) (groupId : Option ℤ) (newGroupName : Option String) :
    Option ℤ :=
  match newGroupName with
  | some name => if name = "" then groupId else (around.groupIdMap.get? name).or groupId
  | none => groupId

/-- Where the members of a deleted group go. -/
def target (around : Surroundings) : Option ChannelGroup :=
  around.groups.find? (·.name.trimAscii.toString.toLower = ungroupedTargetGroupName.toLower)

def hasGroup (around : Surroundings) (groupId : ℤ) : Prop := groupId ∈ around.groups.map (·.id)

instance (around : Surroundings) (groupId : ℤ) : Decidable (around.hasGroup groupId) :=
  inferInstanceAs (Decidable (groupId ∈ around.groups.map (·.id)))

/-- What an operation leaves of everything but the channels. -/
def landed (around : Surroundings) : BulkOperation → Surroundings
  | .createGroup name =>
    if name ∈ around.groupIdMap then around
    else { around with
      groups := around.groups ++ [⟨around.nextGroupId, name⟩]
      nextGroupId := around.nextGroupId + 1
      groupIdMap := around.groupIdMap.set name around.nextGroupId }
  | .deleteChannelGroup g => { around with groups := around.groups.filter (·.id ≠ g) }
  | .renameChannelGroup g name =>
    { around with
      groups := around.groups.map fun x => if x.id = g then { x with name := name } else x }
  | .setProfileMembership p c enabled =>
    { around with memberships := around.memberships.set (p, c) enabled }
  | .restoreChannelGroup g => { around with hiddenGroups := around.hiddenGroups.erase g }
  | .clearStreamStats xs => { around with streamStats := around.streamStats.filter (· ∉ xs) }
  | _ => around

/-- The group `reparent_group_channels` leaves a channel in. -/
def regrouped (around : Surroundings) (groupId : ℤ) (group : Option ℤ) : Option ℤ :=
  match around.target with
  | some target => if group = some groupId then some target.id else group
  | none => group

theorem regrouped_of_ne (around : Surroundings) {g : ℤ} {group : Option ℤ}
    (h : group ≠ some g) : around.regrouped g group = group := by
  unfold regrouped
  split
  · exact if_neg h
  · rfl

end Surroundings

/-- A channel's list once a stream has been added: unchanged when it is there. -/
def withStream (streams : List ℤ) (streamId : ℤ) : List ℤ :=
  if streamId ∈ streams then streams else streams ++ [streamId]

namespace LandingContext

def createdName (ctx : LandingContext) (op : BulkCreateChannelOp) : String :=
  if op.normalize then ctx.normalize op.name else op.name

/-- The logo a create goes out with; a url without an id in the catalog leaves it as it was. -/
def createLogoId (ctx : LandingContext) (op : BulkCreateChannelOp) : Option ℤ :=
  match op.logoUrl with
  | some url =>
    if (op.logoId = none ∨ op.logoId = some 0) ∧ url ≠ "" then (ctx.resolveLogoId url).or op.logoId
    else op.logoId
  | none => op.logoId

/-- The channel a create makes. It keeps the number it was sent with. -/
def newChannel (ctx : LandingContext) (around : Surroundings) (op : BulkCreateChannelOp) :
    Channel where
  id := op.tempId
  name := ctx.createdName op
  channelNumber := op.channelNumber
  channelGroupId := around.resolveGroupId op.groupId op.newGroupName
  logoId := ctx.createLogoId op
  tvgId := op.tvgId
  tvcGuideStationid := op.tvcGuideStationId

/-- `check_expected_number` lets the update through. -/
def expectationHolds (ctx : LandingContext) (op : BulkUpdateChannelOp) : Bool :=
  match op.expectedNumber, op.data.channelNumber with
  | some expected, some _ =>
    ctx.channelsResolved &&
      sameChannelNumberOrBothUnset ((ctx.numbersAtRunStart.get? op.channelId).getD none)
        expected.number
  | _, _ => true

end LandingContext

def groupResolved (groupId : Option ℤ) : Prop := ∀ g ∈ groupId, 0 ≤ g

instance (groupId : Option ℤ) : Decidable (groupResolved groupId) :=
  match groupId with
  | none => .isTrue (by simp [groupResolved])
  | some g => decidable_of_iff (0 ≤ g) (by simp [groupResolved])

namespace CommitStore

def setNumber (channels : Dict ℤ Channel) (e : ℤ × ℚ) : Dict ℤ Channel :=
  channels.modify e.1 fun channel => { channel with channelNumber := some e.2 }

/-- What a branch that raises nothing leaves. -/
def landed (ctx : LandingContext) (s : CommitStore) (op : BulkOperation) : CommitStore where
  channels :=
    match op with
    | .updateChannel u => s.channels.modify u.channelId (·.patch u.data)
    | .addStreamToChannel c x =>
      s.channels.modify c fun channel => { channel with streams := withStream channel.streams x }
    | .removeStreamFromChannel c x =>
      s.channels.modify c fun channel => { channel with streams := channel.streams.erase x }
    | .reorderChannelStreams c xs =>
      s.channels.modify c fun channel => { channel with streams := xs }
    | .bulkAssignChannelNumbers r => r.assignments.foldl setNumber s.channels
    | .createChannel k => s.channels.set k.tempId (ctx.newChannel s.around k)
    | .deleteChannel c => s.channels.erase c
    | .deleteChannelGroup g =>
      s.channels.mapValues fun _ channel =>
        { channel with channelGroupId := s.around.regrouped g channel.channelGroupId }
    | _ => s.channels
  around := s.around.landed op
  created := s.created ++ op.createdTempId?.toList

/-- The request's name for a channel is that of a channel. -/
def resolves (s : CommitStore) (channelId : ℤ) : Prop := 0 ≤ channelId ∨ channelId ∈ s.created

def membersOf (s : CommitStore) (groupId : ℤ) : List Channel :=
  s.channels.values.filter (·.channelGroupId = some groupId)

/-- The reorder keeps the streams of the channel. -/
def permutes (s : CommitStore) (channelId : ℤ) (streamIds : List ℤ) : Prop :=
  ∀ channel ∈ s.channels.get? channelId,
    validateStreamPermutation channel.streams streamIds = none

/-- A group's channels have somewhere to go. -/
def canEmpty (s : CommitStore) (groupId : ℤ) : Prop :=
  s.membersOf groupId = [] ∨ ∃ target ∈ s.around.target, target.id ≠ groupId

/-- The branch raises nothing. -/
def Admits (ctx : LandingContext) (s : CommitStore) : BulkOperation → Prop
  | .updateChannel u =>
    s.resolves u.channelId ∧ groupResolved (u.data.channelGroupId.getD none) ∧
      ctx.expectationHolds u ∧ u.channelId ∈ s.channels
  | .addStreamToChannel c x => s.resolves c ∧ ¬ctx.streamIsMissing x ∧ c ∈ s.channels
  | .removeStreamFromChannel c _ => s.resolves c ∧ c ∈ s.channels
  | .reorderChannelStreams c xs => s.resolves c ∧ c ∈ s.channels ∧ s.permutes c xs
  | .bulkAssignChannelNumbers r => ∀ c ∈ r.channelIds, s.resolves c ∧ c ∈ s.channels
  | .createChannel k => groupResolved (s.around.resolveGroupId k.groupId k.newGroupName)
  -- a channel that is not there counts as deleted
  | .deleteChannel c => s.resolves c
  | .createGroup name =>
    name ∈ s.around.groupIdMap ∨ name ∉ s.around.groups.map (·.name)
  | .deleteChannelGroup g => s.canEmpty g ∧ s.around.hasGroup g
  | .renameChannelGroup g _ => s.around.hasGroup g
  | .setProfileMembership _ c _ => s.resolves c
  | .restoreChannelGroup _ | .clearStreamStats _ => True

instance (s : CommitStore) (c : ℤ) : Decidable (s.resolves c) :=
  inferInstanceAs (Decidable (_ ∨ _))

instance (s : CommitStore) (c : ℤ) (xs : List ℤ) : Decidable (s.permutes c xs) :=
  match h : s.channels.get? c with
  | none => .isTrue (by simp [permutes, h])
  | some channel =>
    decidable_of_iff (validateStreamPermutation channel.streams xs = none) (by simp [permutes, h])

instance (s : CommitStore) (g : ℤ) : Decidable (s.canEmpty g) :=
  match h : s.around.target with
  | none => decidable_of_iff (s.membersOf g = []) (by simp [canEmpty, h])
  | some target =>
    decidable_of_iff (s.membersOf g = [] ∨ target.id ≠ g) (by simp [canEmpty, h])

instance (ctx : LandingContext) (s : CommitStore) (op : BulkOperation) :
    Decidable (s.Admits ctx op) :=
  match op with
  | .updateChannel _ => inferInstanceAs (Decidable (_ ∧ _ ∧ _ ∧ _))
  | .addStreamToChannel _ _ => inferInstanceAs (Decidable (_ ∧ _ ∧ _))
  | .removeStreamFromChannel _ _ => inferInstanceAs (Decidable (_ ∧ _))
  | .reorderChannelStreams _ _ => inferInstanceAs (Decidable (_ ∧ _ ∧ _))
  | .bulkAssignChannelNumbers r =>
    inferInstanceAs (Decidable (∀ c ∈ r.channelIds, s.resolves c ∧ c ∈ s.channels))
  | .createChannel k =>
    inferInstanceAs (Decidable (groupResolved (s.around.resolveGroupId k.groupId k.newGroupName)))
  | .deleteChannel c => inferInstanceAs (Decidable (s.resolves c))
  | .createGroup name =>
    inferInstanceAs
      (Decidable (name ∈ s.around.groupIdMap ∨ name ∉ s.around.groups.map (·.name)))
  | .deleteChannelGroup g => inferInstanceAs (Decidable (s.canEmpty g ∧ s.around.hasGroup g))
  | .renameChannelGroup g _ => inferInstanceAs (Decidable (s.around.hasGroup g))
  | .setProfileMembership _ c _ => inferInstanceAs (Decidable (s.resolves c))
  | .restoreChannelGroup _ | .clearStreamStats _ => .isTrue trivial

/-- One operation of a run: what it leaves, or nothing when its branch raises. -/
def land (ctx : LandingContext) (s : CommitStore) (op : BulkOperation) : Option CommitStore :=
  if s.Admits ctx op then some (s.landed ctx op) else none

/-- The operations one after the other. -/
def landAll (ctx : LandingContext) (s : CommitStore) (ops : List BulkOperation) :
    Option CommitStore :=
  ops.foldlM (land ctx) s

/-! ## Runs -/

variable {ctx : LandingContext} {s t : CommitStore} {op : BulkOperation} {ops : List BulkOperation}

@[simp] theorem around_landed : (s.landed ctx op).around = s.around.landed op := rfl

@[simp] theorem created_landed :
    (s.landed ctx op).created = s.created ++ op.createdTempId?.toList := rfl

/-- What a list leaves when none of its branches raises. -/
def leftBy (ctx : LandingContext) (s : CommitStore) (ops : List BulkOperation) : CommitStore :=
  ops.foldl (landed ctx) s

def AdmitsAll (ctx : LandingContext) : CommitStore → List BulkOperation → Prop
  | _, [] => True
  | s, op :: ops => s.Admits ctx op ∧ AdmitsAll ctx (s.landed ctx op) ops

theorem landAll_eq_some :
    s.landAll ctx ops = some t ↔ s.AdmitsAll ctx ops ∧ s.leftBy ctx ops = t := by
  induction ops generalizing s with
  | nil => simp [landAll, AdmitsAll, leftBy]
  | cons op ops ih =>
    by_cases hop : s.Admits ctx op
    · have hland : s.landAll ctx (op :: ops) = (s.landed ctx op).landAll ctx ops := by
        simp [landAll, land, hop]
      rw [hland, ih, AdmitsAll, leftBy, leftBy, List.foldl_cons]
      simp [hop]
    · have hland : s.landAll ctx (op :: ops) = none := by simp [landAll, land, hop]
      simp [hland, AdmitsAll, hop]

@[simp] theorem leftBy_nil : s.leftBy ctx [] = s := rfl

@[simp] theorem leftBy_cons : s.leftBy ctx (op :: ops) = (s.landed ctx op).leftBy ctx ops := rfl

theorem leftBy_append (ops' : List BulkOperation) :
    s.leftBy ctx (ops ++ ops') = (s.leftBy ctx ops).leftBy ctx ops' := List.foldl_append

theorem leftBy_concat : s.leftBy ctx (ops ++ [op]) = (s.leftBy ctx ops).landed ctx op :=
  List.foldl_concat ..

theorem admitsAll_append (ops' : List BulkOperation) :
    s.AdmitsAll ctx (ops ++ ops') ↔
      s.AdmitsAll ctx ops ∧ (s.leftBy ctx ops).AdmitsAll ctx ops' := by
  induction ops generalizing s with
  | nil => simp [AdmitsAll]
  | cons op ops ih => simp only [List.cons_append, AdmitsAll, ih, leftBy_cons, and_assoc]

theorem admitsAll_concat :
    s.AdmitsAll ctx (ops ++ [op]) ↔ s.AdmitsAll ctx ops ∧ (s.leftBy ctx ops).Admits ctx op := by
  rw [admitsAll_append]
  simp [AdmitsAll]

theorem AdmitsAll.of_mem (h : s.AdmitsAll ctx ops) (hop : op ∈ ops) :
    ∃ pre post, ops = pre ++ op :: post ∧ (s.leftBy ctx pre).Admits ctx op := by
  obtain ⟨pre, post, rfl⟩ := List.append_of_mem hop
  exact ⟨pre, post, rfl, ((admitsAll_append _).mp h).2.1⟩

/-! ## One channel -/

/-- What an operation leaves of one channel, which no other channel takes part in. -/
def channelAfter (ctx : LandingContext) (around : Surroundings) (c : ℤ) (channel : Option Channel) :
    BulkOperation → Option Channel
  | .updateChannel u => if u.channelId = c then channel.map (·.patch u.data) else channel
  | .addStreamToChannel d x =>
    if d = c then channel.map fun ch => { ch with streams := withStream ch.streams x } else channel
  | .removeStreamFromChannel d x =>
    if d = c then channel.map fun ch => { ch with streams := ch.streams.erase x } else channel
  | .reorderChannelStreams d xs =>
    if d = c then channel.map fun ch => { ch with streams := xs } else channel
  | .bulkAssignChannelNumbers r =>
    channel.map fun ch =>
      (numberAt c r.assignments).elim ch fun n => { ch with channelNumber := some n }
  | .createChannel k => if k.tempId = c then some (ctx.newChannel around k) else channel
  | .deleteChannel d => if d = c then none else channel
  | .deleteChannelGroup g =>
    channel.map fun ch => { ch with channelGroupId := around.regrouped g ch.channelGroupId }
  | _ => channel

theorem get?_foldl_setNumber (es : List (ℤ × ℚ)) (channels : Dict ℤ Channel) (c : ℤ) :
    (es.foldl setNumber channels).get? c = (channels.get? c).map fun ch =>
      (numberAt c es).elim ch fun n => { ch with channelNumber := some n } := by
  induction es using List.reverseRecOn with
  | nil => simp [numberAt]
  | append_singleton es e ih =>
    rw [List.foldl_concat, setNumber, Dict.get?_modify, ih, numberAt_concat]
    by_cases he : e.1 = c
    · rw [if_pos he, if_pos he, Option.map_map]
      congr 1
      funext ch
      cases numberAt c es <;> rfl
    · rw [if_neg he, if_neg he]

theorem get?_landed (c : ℤ) : (s.landed ctx op).channels.get? c =
    channelAfter ctx s.around c (s.channels.get? c) op := by
  cases op with
  | bulkAssignChannelNumbers r => exact get?_foldl_setNumber _ _ _
  | createChannel k => simp only [landed, channelAfter, Dict.get?_set]
  | deleteChannel d => simp only [landed, channelAfter, Dict.get?_erase]
  | deleteChannelGroup g => simp only [landed, channelAfter, Dict.get?_mapValues]
  | updateChannel _ | addStreamToChannel _ _ | removeStreamFromChannel _ _
  | reorderChannelStreams _ _ => simp only [landed, channelAfter, Dict.get?_modify]
  | _ => rfl

theorem mem_channels {c : ℤ} : c ∈ s.channels ↔ (s.channels.get? c).isSome :=
  (Dict.isSome_get? _ _).symm

/-- Only its deletion takes a channel away. -/
theorem isSome_channelAfter {around : Surroundings} {c : ℤ} {channel : Option Channel}
    (hop : op ≠ .deleteChannel c) (h : channel.isSome) :
    (channelAfter ctx around c channel op).isSome := by
  obtain ⟨ch, rfl⟩ := Option.isSome_iff_exists.mp h
  cases op with
  | deleteChannel d =>
    have hd : d ≠ c := fun heq => hop (by rw [heq])
    simp [channelAfter, hd]
  | updateChannel _ | addStreamToChannel _ _ | removeStreamFromChannel _ _
  | reorderChannelStreams _ _ | createChannel _ =>
    simp only [channelAfter]
    split <;> rfl
  | _ => rfl

/-- A channel that no operation deletes stays. -/
theorem mem_leftBy {c : ℤ} (hc : c ∉ channelsToDelete ops) (h : c ∈ s.channels) :
    c ∈ (s.leftBy ctx ops).channels := by
  induction ops generalizing s with
  | nil => exact h
  | cons op ops ih =>
    rw [mem_channelsToDelete, List.mem_cons, not_or] at hc
    apply ih (mt mem_channelsToDelete.mp hc.2)
    rw [mem_channels, get?_landed]
    exact isSome_channelAfter (fun heq => hc.1 heq.symm) (mem_channels.mp h)

theorem created_leftBy : (s.leftBy ctx ops).created = s.created ++ channelsToCreate ops := by
  induction ops using List.reverseRecOn with
  | nil => simp [channelsToCreate]
  | append_singleton ops op ih =>
    rw [leftBy_concat, channelsToCreate_append, ← List.append_assoc, ← ih, created_landed]
    cases hop : op.createdTempId? <;> simp [channelsToCreate, hop]

theorem resolves_leftBy {c : ℤ} (h : s.resolves c) : (s.leftBy ctx ops).resolves c := by
  refine h.imp id fun hc => ?_
  rw [created_leftBy]
  exact List.mem_append_left _ hc

/-- A temporary id that nothing creates names no channel. -/
theorem get?_leftBy_of_uncreated {c : ℤ} (hc : c ∉ channelsToCreate ops)
    (h : s.channels.get? c = none) : (s.leftBy ctx ops).channels.get? c = none := by
  induction ops using List.reverseRecOn with
  | nil => exact h
  | append_singleton ops op ih =>
    rw [channelsToCreate_append, List.mem_append, not_or] at hc
    have ih := ih hc.1
    have hlast := hc.2
    rw [leftBy_concat, get?_landed, ih]
    cases op <;> simp only [channelAfter, Option.map_none, ite_self]
    case createChannel k =>
      have hk : k.tempId ≠ c := fun heq => hlast (by simp [channelsToCreate,
        BulkOperation.createdTempId?, heq])
      rw [if_neg hk]

/-- A deleted channel that nothing creates afterwards is gone. -/
theorem get?_leftBy_of_deleted {c : ℤ}
    (hn : ∀ pre c post, ops = pre ++ .deleteChannel c :: post → c ∉ channelsToCreate post)
    (hc : c ∈ channelsToDelete ops) : (s.leftBy ctx ops).channels.get? c = none := by
  obtain ⟨pre, post, rfl⟩ := List.append_of_mem (mem_channelsToDelete.mp hc)
  rw [leftBy_append, leftBy_cons]
  apply get?_leftBy_of_uncreated (hn pre c post rfl)
  rw [get?_landed]
  simp [channelAfter]

/-- Every update was of a channel that is still there, or that was deleted. -/
theorem AdmitsAll.untouched (h : s.AdmitsAll ctx ops) {c : ℤ} (hc : c ∉ channelsToDelete ops)
    (hnone : (s.leftBy ctx ops).channels.get? c = none) {u : BulkUpdateChannelOp}
    (hu : .updateChannel u ∈ ops) : u.channelId ≠ c := by
  rintro rfl
  obtain ⟨pre, post, rfl, -, -, -, hmem⟩ := h.of_mem hu
  have hpost : u.channelId ∉ channelsToDelete (.updateChannel u :: post) := by
    rw [channelsToDelete_append, List.mem_append, not_or] at hc
    exact hc.2
  have hstays : u.channelId ∈ ((s.leftBy ctx pre).leftBy ctx (.updateChannel u :: post)).channels :=
    mem_leftBy hpost hmem
  rw [← leftBy_append] at hstays
  exact (Dict.get?_eq_none _ _).mp hnone hstays

/-! ## Numbers -/

/-- A channel ends on the number written to it last. -/
theorem channelNumber_leftBy {c : ℤ} {channel : Channel}
    (h : (s.leftBy ctx ops).channels.get? c = some channel) :
    channel.channelNumber = ((lastWrite (numberWrite c) ops).map Prod.snd).elim
      ((s.channels.get? c).bind (·.channelNumber)) (·.number) := by
  induction ops using List.reverseRecOn generalizing channel with
  | nil =>
    rw [leftBy_nil] at h
    simp [h]
  | append_singleton ops op ih =>
    rw [leftBy_concat, get?_landed] at h
    rw [lastWrite_concat]
    cases op <;> simp only [channelAfter] at h <;> simp only [numberWrite]
    case updateChannel u =>
      split at h
      next hu =>
        obtain ⟨before, hbefore, rfl⟩ := Option.map_eq_some_iff.mp h
        cases hnum : u.data.channelNumber with
        | none => simp [hu, hnum, ih hbefore]
        | some n => simp [hu, hnum]
      next hu => simpa [hu] using ih h
    case bulkAssignChannelNumbers r =>
      obtain ⟨before, hbefore, rfl⟩ := Option.map_eq_some_iff.mp h
      cases hnum : numberAt c r.assignments with
      | none => simpa [hnum] using ih hbefore
      | some n => simp
    case createChannel k =>
      split at h
      next hk =>
        obtain rfl := Option.some.inj h
        simp [hk, LandingContext.newChannel]
      next hk => simpa [hk] using ih h
    case deleteChannel d =>
      split at h
      · cases h
      · simpa using ih h
    case deleteChannelGroup g =>
      obtain ⟨before, hbefore, rfl⟩ := Option.map_eq_some_iff.mp h
      simpa using ih hbefore
    case addStreamToChannel d x | removeStreamFromChannel d x | reorderChannelStreams d x =>
      split at h
      · obtain ⟨before, hbefore, rfl⟩ := Option.map_eq_some_iff.mp h
        simpa using ih hbefore
      · simpa using ih h
    all_goals simpa using ih h

end CommitStore

end ChannelManager
