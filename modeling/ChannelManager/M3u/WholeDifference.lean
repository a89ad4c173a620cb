import ChannelManager.M3u.ChangeDetector
import Mathlib

/-!
# Changes replayed

A playlist is its groups with the streams of each, counted. What is recorded of a change depends on
whether a group grew, shrank or kept its number of streams. Replaying what was recorded gives every
playlist again exactly when a group that appears is empty, one that grows only gains names, each once,
and one that shrinks only loses names that were there once.
-/

namespace ChannelManager.M3u

/-- The groups of a playlist, with their streams. -/
abbrev Playlist := String → Option (Multiset String)

def noGroups : Playlist := fun _ => none

/-! ### What is recorded of a group -/

section Gains

variable {α : Type} [DecidableEq α]

/-- The streams recorded as added to a group: each new name once where it grew, the whole difference
where its number of streams is the same. -/
def gained (old new : Multiset α) : Multiset α :=
  if old.card < new.card then (new.toFinset \ old.toFinset).val
  else if new.card < old.card then 0
  else new - old

/-- A group that grows keeps what it has and gains only new names, each once, and one that shrinks
is what grows back so. -/
def OnlyGrows (old new : Multiset α) : Prop :=
  old.card < new.card → ∀ a, (a ∈ old → new.count a = old.count a) ∧ (a ∉ old → new.count a ≤ 1)

theorem count_gained_of_grown {old new : Multiset α} (h : old.card < new.card) (a : α) :
    (gained old new).count a = if a ∈ new ∧ a ∉ old then 1 else 0 := by
  rw [gained, if_pos h, Multiset.count_eq_of_nodup (Finset.nodup _)]
  simp only [Finset.mem_val, Finset.mem_sdiff, Multiset.mem_toFinset]

/-- What is recorded of a group gives the new one exactly when neither the growth nor the shrinking
leaves anything out. -/
theorem gained_lost_iff (old new : Multiset α) :
    old + gained old new - gained new old = new ↔ OnlyGrows old new ∧ OnlyGrows new old := by
  rw [Multiset.ext]
  obtain hgrown | hsame | hshrunk := lt_trichotomy old.card new.card
  · have hnone : gained new old = 0 := by
      rw [gained, if_neg hgrown.not_gt, if_pos hgrown]
    have hother : OnlyGrows new old := fun h => absurd h hgrown.not_gt
    rw [and_iff_left hother, OnlyGrows, imp_iff_right hgrown]
    refine forall_congr' fun a => ?_
    rw [hnone, Multiset.count_sub, Multiset.count_add, Multiset.count_zero,
      count_gained_of_grown hgrown]
    simp only [← Multiset.count_pos]
    split <;> omega
  · have hgained : gained old new = new - old := by
      rw [gained, if_neg hsame.not_lt, if_neg hsame.not_gt]
    have hlost : gained new old = old - new := by
      rw [gained, if_neg hsame.not_gt, if_neg hsame.not_lt]
    refine iff_of_true (fun a => ?_) ⟨fun h => absurd h hsame.not_lt, fun h => absurd h hsame.not_gt⟩
    rw [hgained, hlost, Multiset.count_sub, Multiset.count_add, Multiset.count_sub, Multiset.count_sub]
    omega
  · have hnone : gained old new = 0 := by
      rw [gained, if_neg hshrunk.not_gt, if_pos hshrunk]
    have hother : OnlyGrows old new := fun h => absurd h hshrunk.not_gt
    rw [and_iff_right hother, OnlyGrows, imp_iff_right hshrunk]
    refine forall_congr' fun a => ?_
    rw [hnone, Multiset.count_sub, Multiset.count_add, Multiset.count_zero,
      count_gained_of_grown hshrunk]
    simp only [← Multiset.count_pos]
    split <;> omega

/-- What left a group is recorded where what is recorded gives the new one. -/
theorem lost_le {old new : Multiset α} (h : old + gained old new - gained new old = new) :
    old - new ≤ gained new old := by
  rw [Multiset.le_iff_count]
  intro a
  have hcount := congrArg (Multiset.count a) h
  rw [Multiset.count_sub, Multiset.count_add] at hcount
  rw [Multiset.count_sub]
  omega

theorem sub_self_eq (s : Multiset α) : s - s = 0 := by
  ext a
  rw [Multiset.count_sub, Nat.sub_self, Multiset.count_zero]

end Gains

/-! ### What is recorded of one group -/

section OneGroup

variable (order : SetOrder)

theorem SetOrder.mem_list (s : Finset String) (name : String) : name ∈ order.list s ↔ name ∈ s := by
  rw [← Multiset.mem_coe, order.perm s, Finset.mem_val]

theorem SetOrder.nodup_list (s : Finset String) : (order.list s).Nodup := by
  rw [← Multiset.coe_nodup, order.perm s]
  exact s.nodup

theorem counterDiff_eq (l m : List String) :
    (counterDiff l m : Multiset String) = (l : Multiset String) - m := by
  have hcount : ∀ ks : List String, ks.Nodup → ∀ a,
      (ks.flatMap fun k => List.replicate (l.count k - m.count k) k).count a =
        if a ∈ ks then l.count a - m.count a else 0 := by
    intro ks hks a
    induction ks with
    | nil => rfl
    | cons k ks ih =>
      obtain ⟨hk, hks⟩ := List.nodup_cons.mp hks
      rw [List.flatMap_cons, List.count_append, ih hks, List.count_replicate]
      by_cases ha : a = k
      · subst ha
        simp [hk]
      · simp [ha, Ne.symm ha]
  ext a
  rw [Multiset.count_sub, Multiset.coe_count, Multiset.coe_count, Multiset.coe_count, counterDiff,
    hcount _ (nodup_firsts l)]
  simp only [mem_firsts]
  split
  · rfl
  · rename_i hmem
    rw [List.count_eq_zero.mpr hmem, Nat.zero_sub]

theorem newNames_eq (names others : List String) :
    (newNames order names others : Multiset String) = (names.toFinset \ others.toFinset).val := by
  unfold newNames
  by_cases hnames : names = []
  · subst hnames
    simp
  · by_cases hothers : others = []
    · subst hothers
      rw [if_neg (by simp), if_pos hnames, order.perm, List.toFinset_nil, Finset.sdiff_empty]
    · rw [if_pos ⟨hnames, hothers⟩, order.perm]

theorem names_renamed (name : String) (changeType : ChangeType) (names : List String)
    (enabled : Bool) :
    (renamed name changeType names enabled).flatMap StreamChange.streamNames = names := by
  unfold renamed
  split <;> simp_all

theorem of_mem_renamed {name : String} {changeType : ChangeType} {names : List String}
    {enabled : Bool} {change : StreamChange} (h : change ∈ renamed name changeType names enabled) :
    change.groupName = name ∧ names ≠ [] := by
  unfold renamed at h
  split at h
  · cases h
  · rename_i hsome
    rw [List.mem_singleton] at h
    subst h
    exact ⟨rfl, hsome⟩

/-- Where the numbers of streams are those of their names, below the cap, the names tell what is
recorded. -/
theorem groupStreamChanges_spec (name : String) {prev : StoredGroup} {curr : GroupData}
    {names names' : List String} (hstored : prev.streamNames.getD [] = names)
    (hprev : prev.group.count = names.length) (hcurr : curr.count = names'.length)
    (hcap : prev.group.count < streamNameCap) (hcap' : curr.count < streamNameCap) :
    (((groupStreamChanges order name prev curr names').1.flatMap StreamChange.streamNames :
        List String) : Multiset String) = gained (names : Multiset String) names' ∧
    (((groupStreamChanges order name prev curr names').2.flatMap StreamChange.streamNames :
        List String) : Multiset String) = gained (names' : Multiset String) names ∧
    ∀ change ∈ (groupStreamChanges order name prev curr names').1 ++
      (groupStreamChanges order name prev curr names').2,
      change.groupName = name ∧ (names : Multiset String) ≠ names' := by
  have hne : ∀ l l' : List String, l.length ≠ l'.length → (l : Multiset String) ≠ l' :=
    fun l l' hlength heq => hlength (Multiset.coe_eq_coe.mp heq).length_eq
  unfold groupStreamChanges gained
  simp only [hstored, hprev, hcurr, Multiset.coe_card, List.toFinset_coe]
  rw [hprev] at hcap
  rw [hcurr] at hcap'
  obtain hgrown | hsame | hshrunk := lt_trichotomy names.length names'.length
  · simp only [hgrown, hgrown.not_gt, if_true, if_false]
    refine ⟨by simpa using newNames_eq order names' names, by simp, fun change hchange => ?_⟩
    rw [List.append_nil, List.mem_singleton] at hchange
    subst hchange
    exact ⟨rfl, hne _ _ hgrown.ne⟩
  · simp only [hsame, lt_irrefl, if_false]
    by_cases hnone : names' = []
    · subst hnone
      rw [List.length_nil, List.length_eq_zero_iff] at hsame
      subst hsame
      simp
    · have hsome : names ≠ [] := by
        rintro rfl
        exact hnone (List.length_eq_zero_iff.mp hsame.symm)
      have hdiff : ∀ l l' : List String, counterDiff l l' ≠ [] → (l : Multiset String) ≠ l' := by
        intro l l' hsome heq
        rw [Ne, ← Multiset.coe_eq_zero, counterDiff_eq, heq, sub_self_eq] at hsome
        exact hsome rfl
      rw [if_pos ⟨hsome, hnone, hcap', hcap'⟩]
      refine ⟨?_, ?_, fun change hchange => ?_⟩
      · rw [names_renamed, counterDiff_eq]
      · rw [names_renamed, counterDiff_eq]
      · rcases List.mem_append.mp hchange with hchange | hchange
        · obtain ⟨hname, hadded⟩ := of_mem_renamed hchange
          exact ⟨hname, (hdiff _ _ hadded).symm⟩
        · obtain ⟨hname, hremoved⟩ := of_mem_renamed hchange
          exact ⟨hname, hdiff _ _ hremoved⟩
  · simp only [hshrunk, hshrunk.not_gt, if_true, if_false]
    refine ⟨by simp, by simpa using newNames_eq order names names', fun change hchange => ?_⟩
    rw [List.nil_append, List.mem_singleton] at hchange
    subst hchange
    exact ⟨rfl, hne _ _ hshrunk.ne'⟩

end OneGroup

/-! ### What is recorded of a playlist -/

section Detected

/-- The streams recorded under a group. -/
def named (changes : List StreamChange) (group : String) : Multiset String :=
  ((changes.filter fun change => change.groupName = group).flatMap StreamChange.streamNames :
    List String)

/-- What a change set makes of a playlist: groups are added, which are empty, and removed with their
streams, and then streams. -/
def M3UChangeSet.replay (changes : M3UChangeSet) (playlist : Playlist) : Playlist := fun group =>
  let added :=
    if group ∈ changes.groupsAdded.map GroupChange.groupName then some ((playlist group).getD 0)
    else playlist group
  let kept := if group ∈ changes.groupsRemoved.map GroupChange.groupName then none else added
  kept.map fun streams =>
    streams + named changes.streamsAdded group - named changes.streamsRemoved group

/-- What a refresh passes. -/
structure Call where
  now : ℤ
  groups : List GroupData
  totalStreams : ℕ
  streamNames : Option (Dict String (List String))
  updatedAt : Option String

def Call.playlist (call : Call) : Playlist := fun group =>
  if group ∈ call.groups.map GroupData.name then
    some (namesOf call.streamNames group : Multiset String)
  else none

/-- Distinct groups, fewer streams than are captured, and the names of all of them. -/
structure Call.Complete (call : Call) : Prop where
  distinct : (call.groups.map GroupData.name).Nodup
  counts : ∀ group ∈ call.groups, group.count = (namesOf call.streamNames group.name).length
  capped : ∀ group ∈ call.groups, group.count < streamNameCap

def gainedBy (before after : Playlist) (group : String) : Multiset String :=
  match before group, after group with
  | some old, some new => gained old new
  | _, _ => 0

/-- A change set tells the groups that differ, and of the others what is recorded of one group. -/
structure Detected (before after : Playlist) (changes : M3UChangeSet) : Prop where
  groupsAdded : ∀ group, group ∈ changes.groupsAdded.map GroupChange.groupName ↔
    before group = none ∧ after group ≠ none
  groupsRemoved : ∀ group, group ∈ changes.groupsRemoved.map GroupChange.groupName ↔
    before group ≠ none ∧ after group = none
  streamsAdded : ∀ group, named changes.streamsAdded group = gainedBy before after group
  streamsRemoved : ∀ group, named changes.streamsRemoved group = gainedBy after before group
  differs : ∀ change ∈ changes.streamsAdded ++ changes.streamsRemoved,
    before change.groupName ≠ after change.groupName

/-- A group that appears is empty, one that grows only gains, and one that shrinks is what grows
back so. -/
def Steady (before after : Playlist) : Prop :=
  ∀ group, match before group, after group with
    | none, some new => new = 0
    | some old, some new => OnlyGrows old new ∧ OnlyGrows new old
    | _, none => True

variable {before after : Playlist} {changes : M3UChangeSet}

/-- Replaying what is recorded gives the new playlist exactly when nothing is left out. -/
theorem Detected.replay_iff (h : Detected before after changes) :
    changes.replay before = after ↔ Steady before after := by
  rw [funext_iff]
  refine forall_congr' fun group => ?_
  have hadded := h.groupsAdded group
  have hremoved := h.groupsRemoved group
  have hgained := h.streamsAdded group
  have hlost := h.streamsRemoved group
  unfold gainedBy at hgained hlost
  simp only [M3UChangeSet.replay]
  cases hbefore : before group with
  | none =>
    cases hafter : after group with
    | none => simp_all
    | some new =>
      simp only [hbefore, hafter] at hadded hremoved hgained hlost
      rw [if_pos (hadded.mpr (by simp)), if_neg (fun hmem => (hremoved.mp hmem).1 rfl), hgained, hlost]
      simp [eq_comm]
  | some old =>
    cases hafter : after group with
    | none => simp_all
    | some new =>
      simp only [hbefore, hafter] at hadded hremoved hgained hlost
      rw [if_neg (fun hmem => nomatch (hadded.mp hmem).1),
        if_neg (fun hmem => nomatch (hremoved.mp hmem).2), hgained, hlost, Option.map_some,
        Option.some_inj]
      exact gained_lost_iff old new

/-- A stream that left a group is recorded. -/
theorem Detected.removed (h : Detected before after changes) (hsteady : Steady before after)
    {group : String} {old new : Multiset String} (hbefore : before group = some old)
    (hafter : after group = some new) : old - new ≤ named changes.streamsRemoved group := by
  have hgroup := hsteady group
  simp only [hbefore, hafter] at hgroup
  rw [h.streamsRemoved, gainedBy, hbefore, hafter]
  exact lost_le ((gained_lost_iff old new).mpr hgroup)

/-- Nothing is recorded of a playlist that is the same. -/
theorem Detected.unchanged (h : Detected before after changes) (hsame : before = after) :
    changes.hasChanges = false := by
  subst hsame
  have hadded : changes.groupsAdded = [] := by
    rw [← List.map_eq_nil_iff (f := GroupChange.groupName), List.eq_nil_iff_forall_not_mem]
    intro group hmem
    obtain ⟨hnone, hsome⟩ := (h.groupsAdded group).mp hmem
    exact hsome hnone
  have hremoved : changes.groupsRemoved = [] := by
    rw [← List.map_eq_nil_iff (f := GroupChange.groupName), List.eq_nil_iff_forall_not_mem]
    intro group hmem
    obtain ⟨hsome, hnone⟩ := (h.groupsRemoved group).mp hmem
    exact hsome hnone
  have hstreams : changes.streamsAdded ++ changes.streamsRemoved = [] :=
    List.eq_nil_iff_forall_not_mem.mpr fun change hmem => h.differs change hmem rfl
  obtain ⟨hgained, hlost⟩ := List.append_eq_nil_iff.mp hstreams
  simp [M3UChangeSet.hasChanges, hadded, hremoved, hgained, hlost]

end Detected

/-! ### What a call detects -/

section Calls

variable {order : SetOrder} {account : ℕ}

/-- A call on an account. -/
def detect (order : SetOrder) (account : ℕ) (db : Database) (call : Call) : M3UChangeSet × Database :=
  detectChanges order db call.now account call.groups call.totalStreams call.streamNames call.updatedAt

/-- The change sets of some calls, one after the other. -/
def changeSets (order : SetOrder) (account : ℕ) : Database → List Call → List M3UChangeSet
  | _, [] => []
  | db, call :: calls =>
    (detect order account db call).1 :: changeSets order account (detect order account db call).2 calls

/-- The latest snapshot is that of a call. -/
def Latest (account : ℕ) (db : Database) (call : Call) : Prop :=
  ∃ snapshot, getLatestSnapshot db account = some snapshot ∧ snapshot.snapshotTime = call.now ∧
    snapshot.groups = call.groups.map (storedGroup call.streamNames)

variable {db : Database} {prev call : Call}

theorem latest_detect
    (h : ∀ snapshot, getLatestSnapshot db account = some snapshot → snapshot.snapshotTime < call.now) :
    Latest account (detect order account db call).2 call := by
  obtain ⟨snapshot, hmine, htime, hgroups, hsnapshots⟩ : ∃ snapshot : M3USnapshot,
      snapshot.m3uAccountId = account ∧ snapshot.snapshotTime = call.now ∧
      snapshot.groups = call.groups.map (storedGroup call.streamNames) ∧
      (detect order account db call).2.snapshots = db.snapshots ++ [snapshot] := by
    refine ⟨⟨db.nextId, account, call.now, call.totalStreams, call.updatedAt,
      call.groups.map (storedGroup call.streamNames)⟩, rfl, rfl, rfl, ?_⟩
    unfold detect detectChanges
    simp only [createSnapshot]
    split <;> rfl
  refine ⟨snapshot, ?_, htime, hgroups⟩
  rw [getLatestSnapshot, hsnapshots, List.filter_append, List.filter_singleton, decide_eq_true hmine,
    cond_true, List.foldl_append, ← getLatestSnapshot]
  cases hlatest : getLatestSnapshot db account with
  | none => rfl
  | some latest => exact if_pos (htime ▸ h latest hlatest)

/-- The groups of a call by their names, as its snapshot has them and as they are. -/
def Call.stored (call : Call) : Dict String StoredGroup :=
  Dict.ofList (call.groups.map fun group => (group.name, storedGroup call.streamNames group))

def Call.current (call : Call) : Dict String GroupData :=
  Dict.ofList (call.groups.map fun group => (group.name, group))

theorem items_groups {β : Type} {groups : List GroupData} (hnodup : (groups.map GroupData.name).Nodup)
    (f : GroupData → β) :
    (Dict.ofList (groups.map fun group => (group.name, f group))).items =
      groups.map fun group => (group.name, f group) := by
  apply Dict.items_ofList
  rw [List.map_map]
  exact hnodup

theorem get?_stored (h : call.Complete) {name : String} {value : StoredGroup} :
    call.stored.get? name = some value ↔
      ∃ group ∈ call.groups, group.name = name ∧ storedGroup call.streamNames group = value := by
  rw [Call.stored, Dict.get?_eq_some, items_groups h.distinct]
  simp

theorem get?_current (h : call.Complete) {name : String} {value : GroupData} :
    call.current.get? name = some value ↔ ∃ group ∈ call.groups, group.name = name ∧ group = value := by
  rw [Call.current, Dict.get?_eq_some, items_groups h.distinct]
  simp

theorem playlist_of_mem {group : GroupData} (h : group ∈ call.groups) :
    call.playlist group.name = some (namesOf call.streamNames group.name : Multiset String) :=
  if_pos (List.mem_map_of_mem h)

theorem playlist_eq_none (name : String) :
    call.playlist name = none ↔ name ∉ call.groups.map GroupData.name := by
  unfold Call.playlist
  split <;> simp_all

theorem mem_keys_stored (h : call.Complete) (name : String) :
    name ∈ call.stored.keys.toFinset ↔ call.playlist name ≠ none := by
  rw [List.mem_toFinset, Dict.keys, Call.stored, items_groups h.distinct, List.map_map, Ne,
    playlist_eq_none, not_not]
  rfl

theorem mem_keys_current (h : call.Complete) (name : String) :
    name ∈ call.current.keys.toFinset ↔ call.playlist name ≠ none := by
  rw [List.mem_toFinset, Dict.keys, Call.current, items_groups h.distinct, List.map_map, Ne,
    playlist_eq_none, not_not]
  rfl

/-- Streams recorded under one group after the other. -/
theorem named_flatMap {names : List String} {f : String → List StreamChange} (hnodup : names.Nodup)
    (hf : ∀ name ∈ names, ∀ change ∈ f name, change.groupName = name) (group : String) :
    named (names.flatMap f) group =
      if group ∈ names then (((f group).flatMap StreamChange.streamNames : List String) :
        Multiset String) else 0 := by
  induction names with
  | nil => rfl
  | cons name names ih =>
    obtain ⟨hname, hrest⟩ := List.forall_mem_cons.mp hf
    obtain ⟨hnot, hnodup⟩ := List.nodup_cons.mp hnodup
    have hsplit : named ((name :: names).flatMap f) group =
        named (f name) group + named (names.flatMap f) group := by
      simp [named]
    rw [hsplit, ih hnodup hrest]
    by_cases hgroup : group = name
    · subst hgroup
      have hall : (f group).filter (fun change => change.groupName = group) = f group :=
        List.filter_eq_self.mpr fun change hc => by simpa using hname change hc
      rw [named, hall, if_neg hnot, if_pos List.mem_cons_self, add_zero]
    · have hnone : (f name).filter (fun change => change.groupName = group) = [] :=
        List.filter_eq_nil_iff.mpr fun change hc => by
          simpa [hname change hc] using Ne.symm hgroup
      simp only [named, hnone, List.mem_cons, hgroup, false_or]
      exact zero_add _

/-- The groups of a set, as they are recorded. -/
theorem mem_groupChanges {β : Type} {d : Dict String β} {f : β → GroupChange} {s : Finset String}
    (hs : ∀ name ∈ s, name ∈ d)
    (hf : ∀ name value, d.get? name = some value → (f value).groupName = name) (group : String) :
    group ∈ ((order.list s).filterMap fun name => (d.get? name).map f).map GroupChange.groupName ↔
      group ∈ s := by
  constructor
  · intro hmem
    obtain ⟨change, hchange, rfl⟩ := List.mem_map.mp hmem
    obtain ⟨name, hname, hget⟩ := List.mem_filterMap.mp hchange
    obtain ⟨value, hvalue, rfl⟩ := Option.map_eq_some_iff.mp hget
    rw [hf name value hvalue]
    exact (order.mem_list s name).mp hname
  · intro hmem
    obtain ⟨value, hvalue⟩ := Dict.exists_get? (hs group hmem)
    rw [← hf group value hvalue]
    refine List.mem_map_of_mem (List.mem_filterMap.mpr ⟨group, (order.mem_list s group).mpr hmem, ?_⟩)
    rw [hvalue]
    rfl

/-- What is recorded of the streams of one group. -/
theorem commonChanges_spec (order : SetOrder) (hprev : prev.Complete) (hcall : call.Complete) {name : String}
    (hname : name ∈ prev.stored.keys.toFinset ∩ call.current.keys.toFinset) :
    (((commonChanges order prev.stored call.current call.streamNames name).1.flatMap
        StreamChange.streamNames : List String) : Multiset String) =
      gainedBy prev.playlist call.playlist name ∧
    (((commonChanges order prev.stored call.current call.streamNames name).2.flatMap
        StreamChange.streamNames : List String) : Multiset String) =
      gainedBy call.playlist prev.playlist name ∧
    ∀ change ∈ (commonChanges order prev.stored call.current call.streamNames name).1 ++
      (commonChanges order prev.stored call.current call.streamNames name).2,
      change.groupName = name ∧ prev.playlist name ≠ call.playlist name := by
  rw [Finset.mem_inter, List.mem_toFinset, List.mem_toFinset] at hname
  obtain ⟨stored, hold⟩ := Dict.exists_get? hname.1
  obtain ⟨current, hnew⟩ := Dict.exists_get? hname.2
  obtain ⟨group, hgroup, rfl, rfl⟩ := (get?_stored hprev).mp hold
  obtain ⟨group', hgroup', heq, rfl⟩ := (get?_current hcall).mp hnew
  have hlength := hcall.counts group' hgroup'
  have hplaylist := playlist_of_mem hgroup'
  rw [heq] at hlength hplaylist
  obtain ⟨hadded, hremoved, hdiffers⟩ := groupStreamChanges_spec order group.name
    (rfl : (storedGroup prev.streamNames group).streamNames.getD [] = _) (hprev.counts group hgroup)
    hlength (hprev.capped group hgroup) (hcall.capped group' hgroup')
  simp only [commonChanges, hold, hnew, gainedBy, playlist_of_mem hgroup, hplaylist]
  exact ⟨hadded, hremoved, fun change hc => ⟨(hdiffers change hc).1, fun hsame =>
    (hdiffers change hc).2 (Option.some.inj hsame)⟩⟩

theorem gainedBy_of_not_common (hprev : prev.Complete) (hcall : call.Complete) {name : String}
    (hname : name ∉ prev.stored.keys.toFinset ∩ call.current.keys.toFinset) :
    gainedBy prev.playlist call.playlist name = 0 ∧
      gainedBy call.playlist prev.playlist name = 0 := by
  rw [Finset.mem_inter, mem_keys_stored hprev, mem_keys_current hcall] at hname
  unfold gainedBy
  cases hbefore : prev.playlist name <;> cases hafter : call.playlist name <;> simp_all

/-- A call is compared with the one before it. -/
theorem detected (order : SetOrder) (hprev : prev.Complete) (hcall : call.Complete)
    (hlatest : Latest account db prev) :
    Detected prev.playlist call.playlist (detect order account db call).1 := by
  obtain ⟨snapshot, hsnapshot, -, hgroups⟩ := hlatest
  have hprevGroups : Dict.ofList (snapshot.groups.map fun stored => (stored.group.name, stored)) =
      prev.stored := by
    rw [hgroups, List.map_map]
    rfl
  have hcurrGroups : Dict.ofList (call.groups.map fun group => (group.name, group)) = call.current :=
    rfl
  have hspec := fun name (hname : name ∈ order.list
      (prev.stored.keys.toFinset ∩ call.current.keys.toFinset)) =>
    commonChanges_spec order hprev hcall ((order.mem_list _ name).mp hname)
  have hnot := fun name (hname : name ∉ order.list
      (prev.stored.keys.toFinset ∩ call.current.keys.toFinset)) =>
    gainedBy_of_not_common hprev hcall (fun hin => hname ((order.mem_list _ name).mpr hin))
  have hnodup := order.nodup_list (prev.stored.keys.toFinset ∩ call.current.keys.toFinset)
  unfold detect detectChanges
  simp only [createSnapshot, hsnapshot, hprevGroups, hcurrGroups]
  refine ⟨fun group => ?_, fun group => ?_, fun group => ?_, fun group => ?_, ?_⟩
  · rw [mem_groupChanges (fun name hname => ?_) (fun name value hvalue => ?_), Finset.mem_sdiff,
      mem_keys_current hcall, mem_keys_stored hprev, not_not, and_comm]
    · exact List.mem_toFinset.mp (Finset.mem_sdiff.mp hname).1
    · obtain ⟨group, -, rfl, rfl⟩ := (get?_current hcall).mp hvalue
      rfl
  · rw [mem_groupChanges (fun name hname => ?_) (fun name value hvalue => ?_), Finset.mem_sdiff,
      mem_keys_current hcall, mem_keys_stored hprev, not_not]
    · exact List.mem_toFinset.mp (Finset.mem_sdiff.mp hname).1
    · obtain ⟨group, -, rfl, rfl⟩ := (get?_stored hprev).mp hvalue
      rfl
  · rw [named_flatMap hnodup fun name hname change hc =>
      ((hspec name hname).2.2 change (List.mem_append_left _ hc)).1]
    split
    · rename_i hmem
      exact (hspec group hmem).1
    · rename_i hmem
      exact (hnot group hmem).1.symm
  · rw [named_flatMap hnodup fun name hname change hc =>
      ((hspec name hname).2.2 change (List.mem_append_right _ hc)).1]
    split
    · rename_i hmem
      exact (hspec group hmem).2.1
    · rename_i hmem
      exact (hnot group hmem).2.symm
  · intro change hchange
    rw [List.mem_append, List.mem_flatMap, List.mem_flatMap] at hchange
    rcases hchange with ⟨name, hname, hc⟩ | ⟨name, hname, hc⟩
    · obtain ⟨rfl, hdiffers⟩ := (hspec name hname).2.2 change (List.mem_append_left _ hc)
      exact hdiffers
    · obtain ⟨rfl, hdiffers⟩ := (hspec name hname).2.2 change (List.mem_append_right _ hc)
      exact hdiffers

end Calls

/-! ### Runs -/

section Runs

variable {order : SetOrder} {account : ℕ} {db : Database} {prev call : Call} {calls : List Call}

/-- The streams that the first snapshot records of its groups. -/
theorem named_firstChanges {streamNames : Option (Dict String (List String))}
    {groups : List GroupData} (hnodup : (groups.map GroupData.name).Nodup)
    (hcounts : ∀ group ∈ groups, group.count = (namesOf streamNames group.name).length)
    (name : String) :
    named (firstChanges groups streamNames).2 name =
      if name ∈ groups.map GroupData.name then (namesOf streamNames name : Multiset String) else 0 := by
  induction groups with
  | nil => rfl
  | cons group groups ih =>
    obtain ⟨hcount, hcounts⟩ := List.forall_mem_cons.mp hcounts
    obtain ⟨hnot, hnodup⟩ := List.nodup_cons.mp hnodup
    have hsplit : named (firstChanges (group :: groups) streamNames).2 name =
        (if group.name = name then (namesOf streamNames group.name : Multiset String) else 0) +
          named (firstChanges groups streamNames).2 name := by
      by_cases hsome : 0 < group.count
      · by_cases hname : group.name = name <;> simp [named, firstChanges, hsome, hname]
      · have hempty : namesOf streamNames group.name = [] := by
          rw [← List.length_eq_zero_iff, ← hcount]
          omega
        simp [named, firstChanges, hsome, hempty]
    rw [hsplit, ih hnodup hcounts]
    by_cases hname : group.name = name
    · subst hname
      rw [if_pos rfl, if_neg hnot, List.map_cons, if_pos List.mem_cons_self, add_zero]
    · simp [hname, Ne.symm hname]

theorem replay_first (hcall : call.Complete) (hnone : getLatestSnapshot db account = none) :
    (detect order account db call).1.replay noGroups = call.playlist := by
  have hnames : (firstChanges call.groups call.streamNames).1.map GroupChange.groupName =
      call.groups.map GroupData.name := by
    rw [firstChanges, List.map_map]
    rfl
  funext name
  unfold detect detectChanges
  simp only [createSnapshot, hnone, M3UChangeSet.replay, hnames,
    named_firstChanges hcall.distinct hcall.counts, Call.playlist, noGroups]
  split
  · simp [named]
  · rfl

theorem latest_next (order : SetOrder) (hlatest : Latest account db prev) (htime : prev.now < call.now) :
    Latest account (detect order account db call).2 call := by
  obtain ⟨latest, hfound, hnow, -⟩ := hlatest
  refine latest_detect fun snapshot hsnapshot => ?_
  rw [hfound] at hsnapshot
  rw [← Option.some.inj hsnapshot, hnow]
  exact htime

/-- Every change set after the first one tells what was detected of two calls. -/
theorem detected_at (hprev : prev.Complete) (hlatest : Latest account db prev)
    (hcalls : ∀ call ∈ calls, call.Complete)
    (htimes : (prev :: calls).IsChain fun a b => a.now < b.now) {i : ℕ} {before after : Call}
    {change : M3UChangeSet} (hbefore : (prev :: calls)[i]? = some before)
    (hafter : calls[i]? = some after) (hchange : (changeSets order account db calls)[i]? = some change) :
    Detected before.playlist after.playlist change := by
  induction calls generalizing prev db i with
  | nil => cases hafter
  | cons call calls ih =>
    obtain ⟨hcall, hcalls⟩ := List.forall_mem_cons.mp hcalls
    obtain ⟨htime, htimes⟩ := List.isChain_cons_cons.mp htimes
    cases i with
    | zero =>
      obtain rfl := Option.some.inj hbefore
      obtain rfl := Option.some.inj hafter
      obtain rfl := Option.some.inj hchange
      exact detected order hprev hcall hlatest
    | succ i => exact ih hcall (latest_next order hlatest htime) hcalls htimes hbefore hafter hchange

/-- Replaying what is recorded after a call gives every playlist exactly when nothing is left out. -/
theorem replays_iff (order : SetOrder) (hprev : prev.Complete) (hlatest : Latest account db prev)
    (hcalls : ∀ call ∈ calls, call.Complete)
    (htimes : (prev :: calls).IsChain fun a b => a.now < b.now) :
    ((changeSets order account db calls).scanl (fun playlist changes => changes.replay playlist)
        prev.playlist).tail = calls.map Call.playlist ↔
      (prev :: calls).IsChain fun a b => Steady a.playlist b.playlist := by
  induction calls generalizing prev db with
  | nil => simp [changeSets]
  | cons call calls ih =>
    obtain ⟨hcall, hcalls⟩ := List.forall_mem_cons.mp hcalls
    obtain ⟨htime, htimes⟩ := List.isChain_cons_cons.mp htimes
    have hrest := ih hcall (latest_next order hlatest htime) hcalls htimes
    have hhead : ∀ playlist, (changeSets order account (detect order account db call).2 calls).scanl
        (fun playlist changes => changes.replay playlist) playlist = playlist ::
          ((changeSets order account (detect order account db call).2 calls).scanl
            (fun playlist changes => changes.replay playlist) playlist).tail := by
      intro playlist
      cases changeSets order account (detect order account db call).2 calls <;> simp
    rw [changeSets, List.scanl_cons, List.tail_cons, hhead, List.map_cons, List.cons.injEq,
      List.isChain_cons_cons, ← (detected order hprev hcall hlatest).replay_iff]
    refine and_congr_right fun hreplay => ?_
    rw [hreplay]
    exact hrest

/-- Replaying the change sets gives the playlists of the calls, a stream that left a group is recorded
as removed, and nothing is recorded of a playlist that is the same. -/
structure Accounted (calls : List Call) (changeSets : List M3UChangeSet) : Prop where
  replays : (changeSets.scanl (fun playlist changes => changes.replay playlist) noGroups).tail =
    calls.map Call.playlist
  removed : ∀ i before after changes, calls[i]? = some before → calls[i + 1]? = some after →
    changeSets[i + 1]? = some changes → ∀ group old new, before.playlist group = some old →
      after.playlist group = some new → old - new ≤ named changes.streamsRemoved group
  unchanged : ∀ i before after changes, calls[i]? = some before → calls[i + 1]? = some after →
    changeSets[i + 1]? = some changes → before.playlist = after.playlist → changes.hasChanges = false

/-- The change sets account for the whole difference exactly when a group that appears after the first
call is empty, a group that grows only gains names, each once, and one that shrinks only loses names
that were there once. -/
theorem accounted_iff (order : SetOrder) (account : ℕ) (db : Database) (calls : List Call)
    (hnone : getLatestSnapshot db account = none) (hcalls : ∀ call ∈ calls, call.Complete)
    (htimes : calls.IsChain fun a b => a.now < b.now) :
    Accounted calls (changeSets order account db calls) ↔
      calls.IsChain fun a b => Steady a.playlist b.playlist := by
  cases calls with
  | nil =>
    refine iff_of_true ⟨rfl, ?_, ?_⟩ List.IsChain.nil
    · intro i before after changes hbefore
      cases hbefore
    · intro i before after changes hbefore
      cases hbefore
  | cons call calls =>
    obtain ⟨hcall, hcalls⟩ := List.forall_mem_cons.mp hcalls
    have hlatest : Latest account (detect order account db call).2 call :=
      latest_detect fun snapshot hsnapshot => by rw [hnone] at hsnapshot; cases hsnapshot
    have hreplays := replays_iff order hcall hlatest hcalls htimes
    have hfirst : ((changeSets order account db (call :: calls)).scanl
        (fun playlist changes => changes.replay playlist) noGroups).tail =
          call.playlist :: ((changeSets order account (detect order account db call).2 calls).scanl
            (fun playlist changes => changes.replay playlist) call.playlist).tail := by
      rw [changeSets, List.scanl_cons, List.tail_cons, replay_first hcall hnone]
      cases changeSets order account (detect order account db call).2 calls <;> simp
    constructor
    · intro h
      have hplaylists := h.replays
      rw [hfirst, List.map_cons, List.cons.injEq] at hplaylists
      exact hreplays.mp hplaylists.2
    · intro hsteady
      refine ⟨?_, ?_, ?_⟩
      · rw [hfirst, List.map_cons, hreplays.mpr hsteady]
      · intro i before after changes hbefore hafter hchanges group old new hold hnew
        have hdetected := detected_at hcall hlatest hcalls htimes hbefore hafter hchanges
        refine hdetected.removed ?_ hold hnew
        obtain ⟨hi, rfl⟩ := List.getElem?_eq_some_iff.mp hbefore
        obtain ⟨hi', rfl⟩ := List.getElem?_eq_some_iff.mp hafter
        exact List.isChain_iff_getElem.mp hsteady i hi'
      · intro i before after changes hbefore hafter hchanges hsame
        exact (detected_at hcall hlatest hcalls htimes hbefore hafter hchanges).unchanged hsame

end Runs

/-! ### Samples -/

section Samples

def alphabetically : SetOrder where
  list s := s.sort (· ≤ ·)
  perm s := s.sort_eq (· ≤ ·)

def noSnapshots : Database := ⟨[], 1⟩

def sampleCall (now : ℤ) (groups : List (String × List String)) : Call where
  now := now
  groups := groups.map fun group => ⟨group.1, some group.2.length, some true, none⟩
  totalStreams := (groups.map fun group => group.2.length).sum
  streamNames := some (Dict.ofList groups)
  updatedAt := none

/-- One stream takes the place of another, and an empty group appears. -/
def renamedCalls : List Call :=
  [sampleCall 0 [("Sports", ["A", "B"])], sampleCall 1 [("Sports", ["A", "C"]), ("News", [])]]

/-- One stream leaves a group that two others join. -/
def grownCalls : List Call :=
  [sampleCall 0 [("Sports", ["A", "B"])], sampleCall 1 [("Sports", ["B", "C", "D"])]]

theorem complete_renamed : ∀ call ∈ renamedCalls, call.Complete := by
  rw [renamedCalls, List.forall_mem_cons, List.forall_mem_singleton]
  exact ⟨⟨by decide +kernel, by decide +kernel, by decide +kernel⟩,
    ⟨by decide +kernel, by decide +kernel, by decide +kernel⟩⟩

theorem complete_grown : ∀ call ∈ grownCalls, call.Complete := by
  rw [grownCalls, List.forall_mem_cons, List.forall_mem_singleton]
  exact ⟨⟨by decide +kernel, by decide +kernel, by decide +kernel⟩,
    ⟨by decide +kernel, by decide +kernel, by decide +kernel⟩⟩

theorem steady_renamed : renamedCalls.IsChain fun a b => Steady a.playlist b.playlist := by
  rw [renamedCalls, List.isChain_cons_cons]
  refine ⟨fun group => ?_, List.IsChain.singleton _⟩
  by_cases hsports : group = "Sports"
  · subst hsports
    have hgrows : OnlyGrows (["A", "B"] : Multiset String) ["A", "C"] ∧
        OnlyGrows (["A", "C"] : Multiset String) ["A", "B"] :=
      ⟨fun h => absurd h (by decide), fun h => absurd h (by decide)⟩
    exact hgrows
  · by_cases hnews : group = "News"
    · subst hnews
      rfl
    · simp [sampleCall, Call.playlist, hsports, hnews]

theorem accounted_iff_renamed :
    Accounted renamedCalls (changeSets alphabetically 1 noSnapshots renamedCalls) :=
  (accounted_iff alphabetically 1 noSnapshots renamedCalls rfl complete_renamed
    (by simp [renamedCalls, sampleCall])).mpr steady_renamed

/-- Of a group that grew only what it gained is recorded. -/
theorem departure_unrecorded : getLatestSnapshot noSnapshots 1 = none ∧
    (∀ call ∈ grownCalls, call.Complete) ∧ (grownCalls.IsChain fun a b => a.now < b.now) ∧
    ¬ Accounted grownCalls (changeSets alphabetically 1 noSnapshots grownCalls) := by
  refine ⟨rfl, complete_grown, by simp [grownCalls, sampleCall], fun h => ?_⟩
  have hrecorded := h.removed 0 (sampleCall 0 [("Sports", ["A", "B"])])
    (sampleCall 1 [("Sports", ["B", "C", "D"])]) _ rfl rfl rfl "Sports" (["A", "B"] : List String)
    (["B", "C", "D"] : List String) rfl rfl
  exact absurd hrecorded (by decide +kernel)

end Samples

end ChannelManager.M3u
