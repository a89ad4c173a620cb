import ChannelManager.Lib.Dict
import Mathlib.Data.Finset.Basic

/-!
# What changed in a playlist

A snapshot of a playlist is kept of every refresh, with the names of the streams of each group, and a
refresh is compared with the latest one. A group that is common to both is compared by its number of
streams first, and by their names where the number is the same.
-/

namespace ChannelManager.M3u

/-- The order in which Python lists a set. -/
structure SetOrder where
  list : Finset String → List String
  perm : ∀ s, (list s : Multiset String) = s.val

/-- A group as a refresh has it. -/
structure GroupData where
  name : String
  streamCount : Option ℕ
  enabled : Option Bool
  isStale : Option Bool
deriving DecidableEq

def GroupData.count (group : GroupData) : ℕ := group.streamCount.getD 0

def GroupData.isEnabled (group : GroupData) : Bool := group.enabled.getD false

/-- A group as a snapshot has it. -/
structure StoredGroup where
  group : GroupData
  streamNames : Option (List String)
deriving DecidableEq

structure M3USnapshot where
  id : ℕ
  m3uAccountId : ℕ
  snapshotTime : ℤ
  totalStreams : ℕ
  dispatcharrUpdatedAt : Option String
  groups : List StoredGroup
deriving DecidableEq

/-- The table of snapshots. -/
structure Database where
  snapshots : List M3USnapshot
  nextId : ℕ

inductive ChangeType
  | added
  | removed
  | streamsAdded
  | streamsRemoved
deriving DecidableEq

structure GroupChange where
  groupName : String
  changeType : ChangeType
  streamCount : ℕ
  enabled : Bool
deriving DecidableEq

structure StreamChange where
  groupName : String
  changeType : ChangeType
  streamNames : List String
  count : ℕ
  enabled : Bool
deriving DecidableEq

structure M3UChangeSet where
  m3uAccountId : ℕ
  previousSnapshotId : Option ℕ
  currentSnapshotId : ℕ
  groupsAdded : List GroupChange
  groupsRemoved : List GroupChange
  streamsAdded : List StreamChange
  streamsRemoved : List StreamChange
  totalStreamsBefore : ℕ
  totalStreamsAfter : ℕ
deriving DecidableEq

def M3UChangeSet.hasChanges (changes : M3UChangeSet) : Bool :=
  changes.groupsAdded ≠ [] || changes.groupsRemoved ≠ [] || changes.streamsAdded ≠ [] ||
    changes.streamsRemoved ≠ []

/-- The names of a group, where there are any. -/
def namesOf (streamNamesByGroup : Option (Dict String (List String))) (name : String) : List String :=
  (streamNamesByGroup.bind fun names => names.get? name).getD []

/-- What a snapshot keeps of a group. -/
def storedGroup (streamNamesByGroup : Option (Dict String (List String))) (group : GroupData) :
    StoredGroup where
  group := { group with isStale := some (group.isStale.getD false) }
  streamNames := streamNamesByGroup.bind fun names => names.get? group.name

def createSnapshot (db : Database) (now : ℤ) (m3uAccountId : ℕ) (groupsData : List GroupData)
    (totalStreams : ℕ) (dispatcharrUpdatedAt : Option String)
    (streamNamesByGroup : Option (Dict String (List String))) : M3USnapshot × Database :=
  let snapshot : M3USnapshot := ⟨db.nextId, m3uAccountId, now, totalStreams, dispatcharrUpdatedAt,
    groupsData.map (storedGroup streamNamesByGroup)⟩
  (snapshot, ⟨db.snapshots ++ [snapshot], db.nextId + 1⟩)

/-- The later of two snapshots. -/
def laterSnapshot (latest : Option M3USnapshot) (snapshot : M3USnapshot) : Option M3USnapshot :=
  match latest with
  | none => some snapshot
  | some latest => if latest.snapshotTime < snapshot.snapshotTime then some snapshot else some latest

/-- The snapshot of an account with the latest time. -/
def getLatestSnapshot (db : Database) (m3uAccountId : ℕ) : Option M3USnapshot :=
  (db.snapshots.filter fun snapshot => snapshot.m3uAccountId = m3uAccountId).foldl laterSnapshot none

/-- `Counter(l) - Counter(m)`, element by element. -/
def counterDiff (l m : List String) : List String :=
  (firsts l).flatMap fun name => List.replicate (l.count name - m.count name) name

/-- `MAX_STREAM_NAMES` -/
def streamNameCap : ℕ := 500

section Changes

variable (order : SetOrder)

/-- The names of one list that are not in another, each once. -/
def newNames (names others : List String) : List String :=
  if names ≠ [] ∧ others ≠ [] then order.list (names.toFinset \ others.toFinset)
  else if names ≠ [] then order.list names.toFinset
  else []

/-- What is recorded of names that took the place of others. -/
def renamed (name : String) (changeType : ChangeType) (names : List String) (enabled : Bool) :
    List StreamChange :=
  if names = [] then [] else [⟨name, changeType, names, names.length, enabled⟩]

/-- The streams that are added to a group and removed from it. -/
def groupStreamChanges (name : String) (prev : StoredGroup) (curr : GroupData)
    (currStreamNames : List String) : List StreamChange × List StreamChange :=
  let prevCount := prev.group.count
  let currCount := curr.count
  let prevStreamNames := prev.streamNames.getD []
  if prevCount < currCount then
    ([⟨name, .streamsAdded, newNames order currStreamNames prevStreamNames, currCount - prevCount,
      curr.isEnabled⟩], [])
  else if currCount < prevCount then
    ([], [⟨name, .streamsRemoved, newNames order prevStreamNames currStreamNames,
      prevCount - currCount, curr.isEnabled⟩])
  else if prevStreamNames ≠ [] ∧ currStreamNames ≠ [] ∧ prevCount < streamNameCap ∧
      currCount < streamNameCap then
    let added := counterDiff currStreamNames prevStreamNames
    let removed := counterDiff prevStreamNames currStreamNames
    (renamed name .streamsAdded added curr.isEnabled,
      renamed name .streamsRemoved removed curr.isEnabled)
  else ([], [])

/-- What is recorded of the streams of a group that is in both. -/
def commonChanges (prevGroups : Dict String StoredGroup) (currGroups : Dict String GroupData)
    (streamNamesByGroup : Option (Dict String (List String))) (name : String) :
    List StreamChange × List StreamChange :=
  match prevGroups.get? name, currGroups.get? name with
  | some prev, some curr => groupStreamChanges order name prev curr (namesOf streamNamesByGroup name)
  | _, _ => ([], [])

def groupChange (changeType : ChangeType) (group : GroupData) : GroupChange :=
  ⟨group.name, changeType, group.count, group.isEnabled⟩

/-- Every group is added by the first snapshot, with the streams it has. -/
def firstChanges (groups : List GroupData)
    (streamNamesByGroup : Option (Dict String (List String))) :
    List GroupChange × List StreamChange :=
  (groups.map (groupChange .added), (groups.filter fun group => 0 < group.count).map fun group =>
    ⟨group.name, .streamsAdded, namesOf streamNamesByGroup group.name, group.count, group.isEnabled⟩)

def detectChanges (db : Database) (now : ℤ) (m3uAccountId : ℕ) (currentGroups : List GroupData)
    (currentTotalStreams : ℕ) (streamNamesByGroup : Option (Dict String (List String)))
    (dispatcharrUpdatedAt : Option String) : M3UChangeSet × Database :=
  let previousSnapshot := getLatestSnapshot db m3uAccountId
  let (currentSnapshot, db) := createSnapshot db now m3uAccountId currentGroups currentTotalStreams
    dispatcharrUpdatedAt streamNamesByGroup
  match previousSnapshot with
  | none =>
    let first := firstChanges currentGroups streamNamesByGroup
    (⟨m3uAccountId, none, currentSnapshot.id, first.1, [], first.2, [], 0, currentTotalStreams⟩, db)
  | some previous =>
    let prevGroups := Dict.ofList (previous.groups.map fun stored => (stored.group.name, stored))
    let currGroups := Dict.ofList (currentGroups.map fun group => (group.name, group))
    let prevGroupNames := prevGroups.keys.toFinset
    let currGroupNames := currGroups.keys.toFinset
    let changesOf := commonChanges order prevGroups currGroups streamNamesByGroup
    let common := order.list (prevGroupNames ∩ currGroupNames)
    (⟨m3uAccountId, some previous.id, currentSnapshot.id,
      (order.list (currGroupNames \ prevGroupNames)).filterMap fun name =>
        (currGroups.get? name).map (groupChange .added),
      (order.list (prevGroupNames \ currGroupNames)).filterMap fun name =>
        (prevGroups.get? name).map fun stored => groupChange .removed stored.group,
      common.flatMap fun name => (changesOf name).1,
      common.flatMap fun name => (changesOf name).2,
      previous.totalStreams, currentTotalStreams⟩, db)

end Changes

end ChannelManager.M3u
