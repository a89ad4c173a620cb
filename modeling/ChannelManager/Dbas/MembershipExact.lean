import ChannelManager.Dbas.MembershipReattach
import ChannelManager.Lib.Cells
import ChannelManager.Lib.OwnIds
import Mathlib

/-!
# What a reattachment writes and what it reports

The writes of the pass do not depend on what it finds, and no two are for one membership. What it
reports as drift goes by the names of the profiles, and is what changed where a name tells a profile.
-/

namespace ChannelManager.Dbas

/-- A membership set by the pass. -/
structure MembershipWrite where
  profile : ℤ
  channel : ℤ
  enabled : Bool
deriving DecidableEq

namespace MembershipWrite

/-- The membership a write is for. -/
def cell (w : MembershipWrite) : ℤ × ℤ := (w.profile, w.channel)

/-- The destination after a write, the same when it was refused. -/
def apply (refusal : ℤ → ℤ → Option String) (destination : Dict ℤ ProfileRow)
    (w : MembershipWrite) : Dict ℤ ProfileRow :=
  match updateProfileChannel refusal destination w.profile w.channel w.enabled with
  | .ok destination' => destination'
  | .error _ => destination

/-- Whether a write goes through on a profile that is there. -/
def accepted (refusal : ℤ → ℤ → Option String) (w : MembershipWrite) : Bool :=
  (refusal w.profile w.channel).isNone

end MembershipWrite

/-- Whether a channel is enabled in a profile, none when there is no such profile. -/
def membership (destination : Dict ℤ ProfileRow) (cell : ℤ × ℤ) : Option Bool :=
  (destination.get? cell.1).map fun row => decide (cell.2 ∈ row.channels)

section Writes

variable {refusal : ℤ → ℤ → Option String}

theorem mem_updated (channels : List ℤ) (enabled : Bool) (c e : ℤ) :
    e ∈ (if enabled then channels.filter (· ≠ c) ++ [c] else channels.filter (· ≠ c)) ↔
      if e = c then enabled = true else e ∈ channels := by
  cases enabled with
  | true => by_cases h : e = c <;> simp [h]
  | false => by_cases h : e = c <;> simp [h]

/-- A write sets its own membership, and no other. -/
theorem acts_apply : ActsOnCells (MembershipWrite.apply refusal) MembershipWrite.cell membership
    fun w held => if w.accepted refusal then held.map fun _ => w.enabled else held where
  own destination w := by
    unfold MembershipWrite.apply updateProfileChannel MembershipWrite.accepted membership
      MembershipWrite.cell
    cases hrefusal : refusal w.profile w.channel with
    | some typeName => rfl
    | none =>
      cases hrow : destination.get? w.profile with
      | none => simp [hrow]
      | some row =>
        simp only [Option.isNone_none, if_true, Dict.get?_set_self, Option.map_some]
        refine congrArg some ?_
        rw [Bool.eq_iff_iff, decide_eq_true_iff, mem_updated, if_pos rfl]
  other destination w cell hne := by
    unfold MembershipWrite.apply updateProfileChannel membership
    cases hrefusal : refusal w.profile w.channel with
    | some typeName => rfl
    | none =>
      cases hrow : destination.get? w.profile with
      | none => rfl
      | some row =>
        dsimp only
        rw [Dict.get?_set]
        by_cases hprofile : w.profile = cell.1
        · have hchannel : cell.2 ≠ w.channel := fun h => hne (Prod.ext hprofile.symm h)
          rw [if_pos hprofile, ← hprofile, hrow, Option.map_some, Option.map_some]
          refine congrArg some ?_
          rw [Bool.eq_iff_iff, decide_eq_true_iff, decide_eq_true_iff, mem_updated, if_neg hchannel]
        · rw [if_neg hprofile]

theorem updateProfileChannel_eq {destination : Dict ℤ ProfileRow} {profileId : ℤ} (channelId : ℤ)
    (enabled : Bool) (h : profileId ∈ destination) :
    updateProfileChannel refusal destination profileId channelId enabled =
      match refusal profileId channelId with
      | some typeName => .error typeName
      | none => .ok (MembershipWrite.apply refusal destination ⟨profileId, channelId, enabled⟩) := by
  obtain ⟨row, hrow⟩ := Dict.exists_get? h
  unfold MembershipWrite.apply updateProfileChannel
  cases refusal profileId channelId with
  | some typeName => rfl
  | none =>
    dsimp only
    rw [hrow]

theorem apply_refused {w : MembershipWrite} {typeName : String}
    (h : refusal w.profile w.channel = some typeName) (destination : Dict ℤ ProfileRow) :
    w.apply refusal destination = destination := by
  unfold MembershipWrite.apply updateProfileChannel
  rw [h]

/-- Profiles keep their names, and none comes or goes. -/
theorem name_apply (destination : Dict ℤ ProfileRow) (w : MembershipWrite) (d : ℤ) :
    ((w.apply refusal destination).get? d).map ProfileRow.name =
      (destination.get? d).map ProfileRow.name := by
  unfold MembershipWrite.apply updateProfileChannel
  cases hrefusal : refusal w.profile w.channel with
  | some typeName => rfl
  | none =>
    cases hrow : destination.get? w.profile with
    | none => rfl
    | some row =>
      dsimp only
      rw [Dict.get?_set]
      split
      next heq => rw [← heq, hrow]; rfl
      next => rfl

theorem name_foldl_apply (ws : List MembershipWrite) (destination : Dict ℤ ProfileRow) (d : ℤ) :
    ((ws.foldl (MembershipWrite.apply refusal) destination).get? d).map ProfileRow.name =
      (destination.get? d).map ProfileRow.name := by
  induction ws generalizing destination with
  | nil => rfl
  | cons w ws ih => rw [List.foldl_cons, ih, name_apply]

end Writes

section Asserted

variable (refusal : ℤ → ℤ → Option String) (remap : IdRemapTable)
  (createdSourceIds : Option (List ℤ))

/-- The membership of an archived channel in a profile and the state it is set to, none when the
channel was not restored or is not for the pass to set. -/
def assertedState (enabledSources : Option (List ℤ)) (destProfileId : ℤ)
    (archiveChannel : ArchiveChannel) : Option MembershipWrite :=
  archiveChannel.id.bind fun sourceChannelId =>
    (remap.resolve .channel sourceChannelId).bind fun destChannelId =>
      if enabledSources.isNone && !createdHere createdSourceIds sourceChannelId then none
      else some ⟨destProfileId, destChannelId, enabledSources.any (sourceChannelId ∈ ·)⟩

namespace Selection

variable (selection : Selection) (archiveChannel : ArchiveChannel)

def asserted : Option MembershipWrite :=
  assertedState remap createdSourceIds selection.enabledSources selection.destProfileId
    archiveChannel

/-- What the pass takes the membership to be before. -/
def believed (w : MembershipWrite) : Bool :=
  archiveChannel.id.any (createdHere createdSourceIds) ||
    selection.currentlyEnabledIds.all (w.channel ∈ ·)

/-- The name the pass notes for a channel it turned to a state. -/
def notedAs (enabled : Bool) : Option String :=
  (selection.asserted remap createdSourceIds archiveChannel).bind fun w =>
    if w.accepted refusal && w.enabled == enabled &&
        selection.believed createdSourceIds archiveChannel w != enabled then
      some (shownName archiveChannel.name)
    else none

/-- The failure the pass counts for a channel. -/
def refusedAs : Option FailureDetail :=
  (selection.asserted remap createdSourceIds archiveChannel).bind fun w =>
    (refusal w.profile w.channel).map
      (refusedDetail selection (shownName archiveChannel.name) w.enabled)

end Selection

variable {refusal remap createdSourceIds} {selection : Selection}

/-- One channel: its write, its failure and its name, each when there is one. -/
theorem reassertMembership_eq (archiveChannel : ArchiveChannel) (pass : ProfilePass)
    (hprofile : selection.destProfileId ∈ pass.destination) :
    reassertMembership refusal remap createdSourceIds false selection pass archiveChannel =
      { destination := (selection.asserted remap createdSourceIds archiveChannel).toList.foldl
          (MembershipWrite.apply refusal) pass.destination
        category := (selection.refusedAs refusal remap createdSourceIds archiveChannel).toList.foldl
          EntityCategoryReport.fail pass.category
        disabledNames := pass.disabledNames ++
          (selection.notedAs refusal remap createdSourceIds archiveChannel false).toList
        enabledNames := pass.enabledNames ++
          (selection.notedAs refusal remap createdSourceIds archiveChannel true).toList
        asserted := pass.asserted + ((selection.asserted remap createdSourceIds
          archiveChannel).toList.filter (MembershipWrite.accepted refusal)).length } := by
  unfold reassertMembership Selection.notedAs Selection.refusedAs Selection.believed
    Selection.asserted assertedState
  cases archiveChannel.id with
  | none => simp
  | some sourceChannelId =>
    cases hdest : remap.resolve .channel sourceChannelId with
    | none => simp [hdest]
    | some destChannelId =>
      cases hleft : selection.enabledSources.isNone && !createdHere createdSourceIds
          sourceChannelId with
      | true =>
        simp only [Option.bind_some, hdest, hleft, if_true, Option.toList_none, Option.bind_none,
          List.foldl_nil, List.filter_nil, List.length_nil, Nat.add_zero, List.append_nil]
      | false =>
        simp only [Option.bind_some, hdest, hleft, Bool.false_eq_true, if_false,
          Option.toList_some, List.foldl_cons, List.foldl_nil, MembershipWrite.accepted,
          updateProfileChannel_eq _ _ hprofile]
        have haccepted : ∀ enabled, MembershipWrite.accepted refusal
            ⟨selection.destProfileId, destChannelId, enabled⟩ =
              (refusal selection.destProfileId destChannelId).isNone := fun _ => rfl
        rcases Option.eq_none_or_eq_some (refusal selection.destProfileId destChannelId)
          with hrefusal | ⟨typeName, hrefusal⟩
        · cases selection.enabledSources.any (sourceChannelId ∈ ·) with
          | true => simp [hrefusal, haccepted, apply_ite Option.toList]
          | false => simp [hrefusal, haccepted, apply_ite Option.toList]
        · simp [hrefusal, haccepted, apply_refused]

theorem mem_foldl_apply (ws : List MembershipWrite) (destination : Dict ℤ ProfileRow) (d : ℤ) :
    d ∈ ws.foldl (MembershipWrite.apply refusal) destination ↔ d ∈ destination := by
  rw [← Dict.isSome_get?, ← Dict.isSome_get?, ← Option.isSome_map (f := ProfileRow.name),
    name_foldl_apply, Option.isSome_map]

/-- A profile: its writes, failures and names in the order of the channels. -/
theorem foldl_reassertMembership (archiveChannels : List ArchiveChannel) (pass : ProfilePass)
    (hprofile : selection.destProfileId ∈ pass.destination) :
    archiveChannels.foldl (reassertMembership refusal remap createdSourceIds false selection) pass =
      { destination := (archiveChannels.filterMap
          (selection.asserted remap createdSourceIds)).foldl (MembershipWrite.apply refusal)
            pass.destination
        category := (archiveChannels.filterMap
          (selection.refusedAs refusal remap createdSourceIds)).foldl EntityCategoryReport.fail
            pass.category
        disabledNames := pass.disabledNames ++ archiveChannels.filterMap
          (selection.notedAs refusal remap createdSourceIds · false)
        enabledNames := pass.enabledNames ++ archiveChannels.filterMap
          (selection.notedAs refusal remap createdSourceIds · true)
        asserted := pass.asserted + ((archiveChannels.filterMap (selection.asserted remap
          createdSourceIds)).filter (MembershipWrite.accepted refusal)).length } := by
  induction archiveChannels generalizing pass with
  | nil => simp
  | cons archiveChannel rest ih =>
    rw [List.foldl_cons, reassertMembership_eq _ _ hprofile, ih _ ((mem_foldl_apply _ _ _).mpr
      hprofile)]
    simp only [filterMap_cons_toList, List.foldl_append, List.filter_append, List.length_append,
      List.append_assoc, Nat.add_assoc]

end Asserted

section Run

variable (refusal : ℤ → ℤ → Option String) (remap : IdRemapTable)
  (createdSourceIds : Option (List ℤ)) (lower : String → String)
  (enabledByName : Option (Dict String (List ℤ))) (archiveChannels : List ArchiveChannel)

namespace ArchiveProfile

/-- The writes for a profile. -/
def writes (archiveProfile : ArchiveProfile) : List MembershipWrite :=
  match archiveProfile.target remap with
  | none => []
  | some destProfileId => archiveChannels.filterMap
      (assertedState remap createdSourceIds archiveProfile.archivedEnabledChannels destProfileId)

/-- The failures counted for a profile. -/
def refused (archiveProfile : ArchiveProfile) : List FailureDetail :=
  match archiveProfile.target remap with
  | none => []
  | some destProfileId => archiveChannels.filterMap
      ((selectionOf lower enabledByName archiveProfile destProfileId).refusedAs refusal remap
        createdSourceIds)

/-- What is recorded of a profile with these names, nothing when there are none. -/
def driftRow (archiveProfile : ArchiveProfile) (disabled enabled : ℤ → ArchiveChannel → Option String) :
    Option ProfileMembershipDriftDetail :=
  (archiveProfile.target remap).bind fun destProfileId =>
    let channelsDisabled := archiveChannels.filterMap (disabled destProfileId)
    let channelsEnabled := archiveChannels.filterMap (enabled destProfileId)
    if channelsDisabled = [] ∧ channelsEnabled = [] then none
    else some ⟨destProfileId, shownName archiveProfile.name, channelsDisabled, channelsEnabled⟩

/-- The name the pass notes for a profile and a channel. -/
def noted (enabled : Bool) (archiveProfile : ArchiveProfile) (destProfileId : ℤ)
    (archiveChannel : ArchiveChannel) : Option String :=
  (selectionOf lower enabledByName archiveProfile destProfileId).notedAs refusal remap
    createdSourceIds archiveChannel enabled

/-- The row the pass records for a profile. -/
def recorded (archiveProfile : ArchiveProfile) : Option ProfileMembershipDriftDetail :=
  archiveProfile.driftRow remap archiveChannels
    (archiveProfile.noted refusal remap createdSourceIds lower enabledByName false)
    (archiveProfile.noted refusal remap createdSourceIds lower enabledByName true)

end ArchiveProfile

/-- How many memberships a row of the report is about. -/
def ProfileMembershipDriftDetail.flips (detail : ProfileMembershipDriftDetail) : ℕ :=
  detail.channelsDisabled.length + detail.channelsEnabled.length

/-- What a pass over profiles comes to, from what was carried before. -/
structure Came (archiveProfiles : List ArchiveProfile) (pass done : MembershipPass) : Prop where
  destination : done.destination = (archiveProfiles.flatMap (ArchiveProfile.writes remap
    createdSourceIds archiveChannels)).foldl (MembershipWrite.apply refusal) pass.destination
  category : done.report.category = (archiveProfiles.flatMap (ArchiveProfile.refused refusal remap
    createdSourceIds lower enabledByName archiveChannels)).foldl EntityCategoryReport.fail
      pass.report.category
  details : done.report.driftDetails = pass.report.driftDetails ++ archiveProfiles.filterMap
    (ArchiveProfile.recorded refusal remap createdSourceIds lower enabledByName archiveChannels)
  flips : done.report.profileMembershipDrift = pass.report.profileMembershipDrift +
    ((archiveProfiles.filterMap (ArchiveProfile.recorded refusal remap createdSourceIds lower
      enabledByName archiveChannels)).map ProfileMembershipDriftDetail.flips).sum
  notes : pass.report.notes <+: done.report.notes

variable {refusal remap createdSourceIds lower enabledByName archiveChannels}

/-- A row is appended and its memberships are counted, when there is one. -/
theorem recordDrift_eq (report : MembershipReport) (detail : ProfileMembershipDriftDetail) :
    let row := if detail.channelsDisabled = [] ∧ detail.channelsEnabled = [] then none
      else some detail
    report.recordDrift detail =
      { report with
        profileMembershipDrift := report.profileMembershipDrift +
          (row.toList.map ProfileMembershipDriftDetail.flips).sum
        driftDetails := report.driftDetails ++ row.toList } := by
  unfold MembershipReport.recordDrift
  split
  · simp
  · simp [ProfileMembershipDriftDetail.flips]

theorem reattachProfile_came (archiveProfile : ArchiveProfile) (pass : MembershipPass)
    (hprofile : ∀ d, archiveProfile.target remap = some d → d ∈ pass.destination) :
    Came refusal remap createdSourceIds lower enabledByName archiveChannels [archiveProfile] pass
      (reattachProfile refusal remap createdSourceIds false lower enabledByName archiveChannels pass
        archiveProfile) := by
  cases htarget : archiveProfile.target remap with
  | none =>
    have hrow : archiveProfile.recorded refusal remap createdSourceIds lower enabledByName
        archiveChannels = none := by
      rw [ArchiveProfile.recorded, ArchiveProfile.driftRow, htarget, Option.bind_none]
    unfold reattachProfile
    rw [htarget]
    constructor
    · simp [ArchiveProfile.writes, htarget]
    · simp [ArchiveProfile.refused, htarget]
    · simp [hrow]
    · simp [hrow]
    · exact List.prefix_append _ _
  | some d =>
    have hchannels : archiveChannels.foldl (reassertMembership refusal remap createdSourceIds false
        (selectionOf lower enabledByName archiveProfile d))
          ⟨pass.destination, pass.report.category, [], [], pass.asserted⟩ = _ :=
      foldl_reassertMembership archiveChannels _ (hprofile d htarget)
    unfold reattachProfile
    rw [htarget]
    dsimp only
    rw [hchannels, recordDrift_eq]
    constructor
    · rw [List.flatMap_singleton, ArchiveProfile.writes, htarget]
      rfl
    · rw [List.flatMap_singleton, ArchiveProfile.refused, htarget]
    · rw [filterMap_cons_toList, ArchiveProfile.recorded, ArchiveProfile.driftRow, htarget,
        List.filterMap_nil, List.append_nil]
      rfl
    · rw [filterMap_cons_toList, ArchiveProfile.recorded, ArchiveProfile.driftRow, htarget,
        List.filterMap_nil, List.append_nil]
      rfl
    · exact List.prefix_append _ _

theorem Came.trans {profiles profiles' : List ArchiveProfile} {pass pass' pass'' : MembershipPass}
    (h : Came refusal remap createdSourceIds lower enabledByName archiveChannels profiles pass pass')
    (h' : Came refusal remap createdSourceIds lower enabledByName archiveChannels profiles' pass'
      pass'') :
    Came refusal remap createdSourceIds lower enabledByName archiveChannels (profiles ++ profiles')
      pass pass'' where
  destination := by rw [List.flatMap_append, List.foldl_append, ← h.destination, h'.destination]
  category := by rw [List.flatMap_append, List.foldl_append, ← h.category, h'.category]
  details := by rw [List.filterMap_append, ← List.append_assoc, ← h.details, h'.details]
  flips := by
    rw [List.filterMap_append, List.map_append, List.sum_append, ← Nat.add_assoc, ← h.flips,
      h'.flips]
  notes := h.notes.trans h'.notes

/-- All profiles. -/
theorem foldl_reattachProfile (archiveProfiles : List ArchiveProfile) (pass : MembershipPass)
    (hprofile : ∀ archiveProfile ∈ archiveProfiles, ∀ d, archiveProfile.target remap = some d →
      d ∈ pass.destination) :
    Came refusal remap createdSourceIds lower enabledByName archiveChannels archiveProfiles pass
      (archiveProfiles.foldl (reattachProfile refusal remap createdSourceIds false lower
        enabledByName archiveChannels) pass) := by
  induction archiveProfiles generalizing pass with
  | nil => exact ⟨rfl, rfl, (List.append_nil _).symm, rfl, List.prefix_rfl⟩
  | cons archiveProfile rest ih =>
    have hfirst : Came refusal remap createdSourceIds lower enabledByName archiveChannels
        [archiveProfile] pass (reattachProfile refusal remap createdSourceIds false lower
          enabledByName archiveChannels pass archiveProfile) :=
      reattachProfile_came archiveProfile pass (hprofile archiveProfile (List.mem_cons_self ..))
    apply hfirst.trans (ih _ _)
    intro later hlater d hd
    rw [hfirst.destination, mem_foldl_apply]
    exact hprofile later (List.mem_cons_of_mem _ hlater) d hd

end Run

/-- The remaps of a restore: an archive whose records have ids of their own, restored one to one,
each profile onto one of its name. -/
structure BuiltRemaps (lower : String → String) (remap : IdRemapTable)
    (archiveProfiles : List ArchiveProfile) (archiveChannels : List ArchiveChannel)
    (destination : Dict ℤ ProfileRow) : Prop where
  profileIds : (archiveProfiles.filterMap ArchiveProfile.id).Nodup
  channelIds : (archiveChannels.filterMap ArchiveChannel.id).Nodup
  profiles : ∀ p p' d, remap.resolve .channelProfile p = some d →
    remap.resolve .channelProfile p' = some d → p = p'
  channels : ∀ c c' e, remap.resolve .channel c = some e → remap.resolve .channel c' = some e → c = c'
  named : ∀ archiveProfile ∈ archiveProfiles, ∀ d, archiveProfile.target remap = some d →
    ∃ row, destination.get? d = some row ∧
      profileNameKey lower row.name = profileNameKey lower archiveProfile.name

section Cells

variable {refusal : ℤ → ℤ → Option String} {remap : IdRemapTable}
  {createdSourceIds : Option (List ℤ)} {lower : String → String}
  {archiveProfiles : List ArchiveProfile} {archiveChannels : List ArchiveChannel}
  {destination : Dict ℤ ProfileRow}

theorem assertedState_eq_some {enabledSources : Option (List ℤ)} {d : ℤ}
    {archiveChannel : ArchiveChannel} {w : MembershipWrite}
    (h : assertedState remap createdSourceIds enabledSources d archiveChannel = some w) :
    w.profile = d ∧ ∃ source, archiveChannel.id = some source ∧
      remap.resolve .channel source = some w.channel ∧
        w.enabled = enabledSources.any (source ∈ ·) := by
  obtain ⟨source, hsource, h⟩ := Option.bind_eq_some_iff.mp h
  obtain ⟨e, he, h⟩ := Option.bind_eq_some_iff.mp h
  split at h
  · cases h
  · obtain rfl := Option.some.inj h
    exact ⟨rfl, source, hsource, he, rfl⟩

theorem mem_writes {archiveProfile : ArchiveProfile} {w : MembershipWrite} :
    w ∈ archiveProfile.writes remap createdSourceIds archiveChannels ↔
      ∃ d, archiveProfile.target remap = some d ∧ ∃ archiveChannel ∈ archiveChannels,
        assertedState remap createdSourceIds archiveProfile.archivedEnabledChannels d archiveChannel =
          some w := by
  unfold ArchiveProfile.writes
  cases archiveProfile.target remap with
  | none => simp
  | some d => simp

/-- No two writes are for one membership. -/
theorem BuiltRemaps.cells (h : BuiltRemaps lower remap archiveProfiles archiveChannels destination) :
    ((archiveProfiles.flatMap (ArchiveProfile.writes remap createdSourceIds archiveChannels)).map
      MembershipWrite.cell).Nodup := by
  rw [List.map_flatMap, List.nodup_flatMap]
  constructor
  · intro archiveProfile _
    unfold ArchiveProfile.writes
    cases archiveProfile.target remap with
    | none => exact List.nodup_nil
    | some d =>
      rw [List.Nodup, List.pairwise_map, List.pairwise_filterMap]
      apply (pairwise_of_ids h.channelIds).imp
      intro c c' hids w hw w' hw' hcell
      obtain ⟨-, source, hsource, hchannel, -⟩ := assertedState_eq_some hw
      obtain ⟨-, source', hsource', hchannel', -⟩ := assertedState_eq_some hw'
      obtain ⟨-, hsame⟩ := Prod.mk.inj hcell
      obtain rfl := h.channels source source' w.channel hchannel (hsame ▸ hchannel')
      exact hids source hsource hsource'
  · apply (pairwise_of_ids h.profileIds).imp
    intro p p' hids cell hcell hcell'
    obtain ⟨w, hw, rfl⟩ := List.mem_map.mp hcell
    obtain ⟨w', hw', hsame⟩ := List.mem_map.mp hcell'
    obtain ⟨d, hd, c, -, hc⟩ := mem_writes.mp hw
    obtain ⟨d', hd', c', -, hc'⟩ := mem_writes.mp hw'
    obtain ⟨hprofile, -⟩ := Prod.mk.inj hsame
    rw [(assertedState_eq_some hc).1, (assertedState_eq_some hc').1] at hprofile
    obtain rfl := hprofile
    obtain ⟨source, hsource, hresolve⟩ := Option.bind_eq_some_iff.mp hd
    obtain ⟨source', hsource', hresolve'⟩ := Option.bind_eq_some_iff.mp hd'
    obtain rfl := h.profiles source source' _ hresolve hresolve'
    exact hids source hsource hsource'

/-- After the writes a membership is as its write set it, if that went through. -/
theorem BuiltRemaps.written (h : BuiltRemaps lower remap archiveProfiles archiveChannels destination)
    {archiveProfile : ArchiveProfile} (hmem : archiveProfile ∈ archiveProfiles) {w : MembershipWrite}
    (hw : w ∈ archiveProfile.writes remap createdSourceIds archiveChannels) :
    membership ((archiveProfiles.flatMap (ArchiveProfile.writes remap createdSourceIds
        archiveChannels)).foldl (MembershipWrite.apply refusal) destination) w.cell =
      if w.accepted refusal then some w.enabled else membership destination w.cell := by
  rw [acts_apply.foldl_own h.cells (List.mem_flatMap.mpr ⟨archiveProfile, hmem, hw⟩)]
  split
  next haccepted =>
    obtain ⟨d, hd, c, -, hc⟩ := mem_writes.mp hw
    obtain ⟨row, hrow, -⟩ := h.named archiveProfile hmem d hd
    rw [membership, MembershipWrite.cell, (assertedState_eq_some hc).1, hrow]
    rfl
  next => rfl

/-- A membership of a restored profile and channel that the pass leaves alone is no other's. -/
theorem BuiltRemaps.left_alone
    (h : BuiltRemaps lower remap archiveProfiles archiveChannels destination)
    {archiveProfile : ArchiveProfile} (hmem : archiveProfile ∈ archiveProfiles) {d e : ℤ}
    (hd : archiveProfile.target remap = some d) {archiveChannel : ArchiveChannel}
    (hchannel : archiveChannel ∈ archiveChannels) (he : archiveChannel.target remap = some e)
    (hnone : assertedState remap createdSourceIds archiveProfile.archivedEnabledChannels d
      archiveChannel = none) :
    membership ((archiveProfiles.flatMap (ArchiveProfile.writes remap createdSourceIds
        archiveChannels)).foldl (MembershipWrite.apply refusal) destination) (d, e) =
      membership destination (d, e) := by
  apply acts_apply.foldl_other
  intro w hw hcell
  obtain ⟨p, hp, hw⟩ := List.mem_flatMap.mp hw
  obtain ⟨d', hd', c, hc, hasserted⟩ := mem_writes.mp hw
  obtain ⟨hprofile, source, hsource, hresolve, -⟩ := assertedState_eq_some hasserted
  obtain ⟨hd'', he''⟩ := Prod.mk.inj hcell
  obtain ⟨source', hsource', hresolve'⟩ := Option.bind_eq_some_iff.mp he
  obtain ⟨k, hk, hpk⟩ := Option.bind_eq_some_iff.mp hd
  obtain ⟨k', hk', hpk'⟩ := Option.bind_eq_some_iff.mp hd'
  rw [← hprofile, ← hd''] at hpk'
  rw [← he''] at hresolve
  obtain rfl := h.profiles k k' d hpk hpk'
  obtain rfl := h.channels source source' e hresolve hresolve'
  -- The write is for the same archived profile and channel.
  obtain rfl := eq_of_id h.profileIds hp hmem hk' hk
  obtain rfl := eq_of_id h.channelIds hc hchannel hsource hsource'
  rw [← hprofile, ← hd'', hnone] at hasserted
  cases hasserted

end Cells

section Known

variable (lower : String → String) (readable : Bool) (destination : Dict ℤ ProfileRow)

/-- What the pass reads of the destination. -/
def readIndex : Option (Dict String (List ℤ)) :=
  destinationEnabledByProfile lower (if readable then some destination.values else none)

/-- The destination can be read and has at most one profile of the name. -/
def Known (archiveProfile : ArchiveProfile) : Prop :=
  readable = true ∧ ∃ key, profileNameKey lower archiveProfile.name = some key ∧
    ∀ d d' row row', destination.get? d = some row → destination.get? d' = some row' →
      profileNameKey lower row.name = some key → profileNameKey lower row'.name = some key → d = d'

/-- A channel this run created is enabled in every profile. -/
def StartsEnabled (remap : IdRemapTable) (createdSourceIds : Option (List ℤ)) : Prop :=
  ∀ source e, createdHere createdSourceIds source = true → remap.resolve .channel source = some e →
    ∀ d row, destination.get? d = some row → e ∈ row.channels

variable {lower readable destination}

/-- Profiles of other names leave the entry of a name as it is. -/
theorem foldl_indexProfile_other {key : String} {rows : List ProfileRow}
    (h : ∀ row ∈ rows, profileNameKey lower row.name ≠ some key)
    (index : Dict String (List ℤ) × List String) :
    (rows.foldl (indexProfile lower) index).1.get? key = index.1.get? key ∧
      (key ∈ (rows.foldl (indexProfile lower) index).2 ↔ key ∈ index.2) := by
  induction rows generalizing index with
  | nil => exact ⟨rfl, Iff.rfl⟩
  | cons row rows ih =>
    obtain ⟨hget, hmem⟩ := ih (fun r hr => h r (List.mem_cons_of_mem _ hr)) (indexProfile lower index row)
    rw [List.foldl_cons, hget, hmem]
    have hne := h row (List.mem_cons_self ..)
    unfold indexProfile
    cases hkey : profileNameKey lower row.name with
    | none => exact ⟨rfl, Iff.rfl⟩
    | some key' =>
      have hother : key' ≠ key := fun heq => hne (by rw [hkey, heq])
      dsimp only
      split
      · exact ⟨rfl, by simp [Ne.symm hother]⟩
      · exact ⟨Dict.get?_set_ne _ _ hother, Iff.rfl⟩

/-- A name that one profile has is in the index with what is enabled in that profile. -/
theorem readIndex_unique {key : String} {d : ℤ} {row : ProfileRow} (hrow : destination.get? d = some row)
    (hkey : profileNameKey lower row.name = some key)
    (hunique : ∀ d' row', destination.get? d' = some row' → profileNameKey lower row'.name = some key →
      d = d') :
    ∃ index, readIndex lower true destination = some index ∧
      index.get? key = some row.channels := by
  obtain ⟨before, after, hsplit⟩ := List.append_of_mem ((Dict.get?_eq_some _ _ _).mp hrow)
  have hnodup := destination.nodup_keys
  rw [hsplit, List.map_append, List.map_cons, List.nodup_append] at hnodup
  have hothers : ∀ item ∈ before ++ after, profileNameKey lower item.2.name ≠ some key := by
    intro item hitem hsame
    have hmem : item ∈ destination.items := by
      rw [hsplit]
      rcases List.mem_append.mp hitem with h | h
      · exact List.mem_append_left _ h
      · exact List.mem_append_right _ (List.mem_cons_of_mem _ h)
    have heq := hunique item.1 item.2 ((Dict.get?_eq_some _ _ _).mpr hmem) hsame
    rcases List.mem_append.mp hitem with h | h
    · exact hnodup.2.2 item.1 (List.mem_map_of_mem h) d (List.mem_cons_self ..) heq.symm
    · exact (List.nodup_cons.mp hnodup.2.1).1 (List.mem_map.mpr ⟨item, h, heq.symm⟩)
  refine ⟨_, rfl, ?_⟩
  have hvalues : destination.values = before.map Prod.snd ++ row :: after.map Prod.snd := by
    rw [Dict.values, hsplit, List.map_append, List.map_cons]
  have hbefore : ∀ r ∈ before.map Prod.snd, profileNameKey lower r.name ≠ some key := by
    intro r hr
    obtain ⟨item, hitem, rfl⟩ := List.mem_map.mp hr
    exact hothers item (List.mem_append_left _ hitem)
  have hafter : ∀ r ∈ after.map Prod.snd, profileNameKey lower r.name ≠ some key := by
    intro r hr
    obtain ⟨item, hitem, rfl⟩ := List.mem_map.mp hr
    exact hothers item (List.mem_append_right _ hitem)
  obtain ⟨hget, hmem⟩ := foldl_indexProfile_other hbefore (∅, [])
  have hfree : key ∉ ((before.map Prod.snd).foldl (indexProfile lower) (∅, [])).1 := by
    rw [← Dict.get?_eq_none, hget, Dict.get?_empty]
  have hat : indexProfile lower ((before.map Prod.snd).foldl (indexProfile lower) (∅, [])) row =
      (((before.map Prod.snd).foldl (indexProfile lower) (∅, [])).1.set key row.channels,
        ((before.map Prod.snd).foldl (indexProfile lower) (∅, [])).2) := by
    unfold indexProfile
    rw [hkey]
    exact if_neg hfree
  obtain ⟨hget', hmem'⟩ := foldl_indexProfile_other hafter (indexProfile lower
    ((before.map Prod.snd).foldl (indexProfile lower) (∅, [])) row)
  rw [hat] at hget' hmem'
  rw [hvalues]
  dsimp only
  rw [List.foldl_append, List.foldl_cons, hat, Dict.get?_foldl_erase, if_neg, hget',
    Dict.get?_set_self]
  rw [hmem', hmem]
  exact List.not_mem_nil

theorem mem_indexProfile {key : String} (index : Dict String (List ℤ) × List String)
    (row : ProfileRow) (h : key ∈ index.1 ∨ profileNameKey lower row.name = some key) :
    key ∈ (indexProfile lower index row).1 := by
  unfold indexProfile
  cases hkey : profileNameKey lower row.name with
  | none =>
    rcases h with h | h
    · exact h
    · rw [hkey] at h
      cases h
  | some key' =>
    dsimp only
    split
    next hseen =>
      rcases h with h | h
      · exact h
      · obtain rfl : key' = key := Option.some.inj (hkey.symm.trans h)
        exact hseen
    next =>
      rw [Dict.mem_set]
      rcases h with h | h
      · exact .inr h
      · exact .inl (Option.some.inj (h.symm.trans hkey))

/-- A name met again is noted, and stays noted. -/
theorem met_indexProfile {key : String} (index : Dict String (List ℤ) × List String)
    (row : ProfileRow)
    (h : key ∈ index.2 ∨ key ∈ index.1 ∧ profileNameKey lower row.name = some key) :
    key ∈ (indexProfile lower index row).2 := by
  unfold indexProfile
  rcases h with h | ⟨hseen, hkey⟩
  · cases profileNameKey lower row.name with
    | none => exact h
    | some key' =>
      dsimp only
      split
      · exact List.mem_cons_of_mem _ h
      · exact h
  · rw [hkey]
    dsimp only
    rw [if_pos hseen]
    exact List.mem_cons_self ..

theorem mem_foldl_indexProfile {key : String} (rows : List ProfileRow)
    (index : Dict String (List ℤ) × List String)
    (h : key ∈ index.1 ∨ ∃ row ∈ rows, profileNameKey lower row.name = some key) :
    key ∈ (rows.foldl (indexProfile lower) index).1 := by
  induction rows generalizing index with
  | nil => simpa using h
  | cons row rows ih =>
    rw [List.foldl_cons]
    apply ih
    rcases h with h | ⟨r, hr, hkey⟩
    · exact .inl (mem_indexProfile index row (.inl h))
    · rcases List.mem_cons.mp hr with rfl | hr
      · exact .inl (mem_indexProfile index r (.inr hkey))
      · exact .inr ⟨r, hr, hkey⟩

theorem met_foldl_indexProfile {key : String} (rows : List ProfileRow)
    (index : Dict String (List ℤ) × List String)
    (h : key ∈ index.2 ∨ key ∈ index.1 ∧ ∃ row ∈ rows, profileNameKey lower row.name = some key) :
    key ∈ (rows.foldl (indexProfile lower) index).2 := by
  induction rows generalizing index with
  | nil => simpa using h
  | cons row rows ih =>
    rw [List.foldl_cons]
    apply ih
    rcases h with h | ⟨hseen, r, hr, hkey⟩
    · exact .inl (met_indexProfile index row (.inl h))
    · rcases List.mem_cons.mp hr with rfl | hr
      · exact .inl (met_indexProfile index r (.inr ⟨hseen, hkey⟩))
      · exact .inr ⟨mem_indexProfile index row (.inl hseen), r, hr, hkey⟩

/-- A name of two profiles is not in the index. -/
theorem readIndex_ambiguous {key : String} {d d' : ℤ} {row row' : ProfileRow}
    (hrow : destination.get? d = some row) (hrow' : destination.get? d' = some row')
    (hkey : profileNameKey lower row.name = some key)
    (hkey' : profileNameKey lower row'.name = some key) (hne : d ≠ d') :
    ∃ index, readIndex lower true destination = some index ∧ index.get? key = none := by
  refine ⟨_, rfl, ?_⟩
  dsimp only
  rw [Dict.get?_foldl_erase, if_pos]
  obtain ⟨before, after, hsplit⟩ := List.append_of_mem ((Dict.get?_eq_some _ _ _).mp hrow)
  have hother := (Dict.get?_eq_some _ _ _).mp hrow'
  rw [hsplit] at hother
  have hvalues : destination.values = before.map Prod.snd ++ row :: after.map Prod.snd := by
    rw [Dict.values, hsplit, List.map_append, List.map_cons]
  rw [hvalues, List.foldl_append]
  rcases List.mem_append.mp hother with hbefore | hafter
  · apply met_foldl_indexProfile
    refine .inr ⟨?_, row, List.mem_cons_self .., hkey⟩
    exact mem_foldl_indexProfile _ _ (.inr ⟨row', List.mem_map_of_mem hbefore, hkey'⟩)
  · have hlater : (d', row') ∈ after := by
      rcases List.mem_cons.mp hafter with heq | h
      · exact absurd (Prod.mk.inj heq).1.symm hne
      · exact h
    rw [List.foldl_cons]
    apply met_foldl_indexProfile
    refine .inr ⟨?_, row', List.mem_map_of_mem hlater, hkey'⟩
    exact mem_indexProfile _ row (.inr hkey)

/-- The name of a channel whose membership went to a state between two destinations. -/
def turnedTo (remap : IdRemapTable) (before after : Dict ℤ ProfileRow) (enabled : Bool)
    (destProfileId : ℤ) (archiveChannel : ArchiveChannel) : Option String :=
  (archiveChannel.target remap).bind fun destChannelId =>
    if membership before (destProfileId, destChannelId) = some !enabled ∧
        membership after (destProfileId, destChannelId) = some enabled then
      some (shownName archiveChannel.name)
    else none

/-- The drift of a profile: the channels whose membership changed. -/
def drift (remap : IdRemapTable) (archiveChannels : List ArchiveChannel)
    (before after : Dict ℤ ProfileRow) (archiveProfile : ArchiveProfile) :
    Option ProfileMembershipDriftDetail :=
  archiveProfile.driftRow remap archiveChannels (turnedTo remap before after false)
    (turnedTo remap before after true)

variable {refusal : ℤ → ℤ → Option String} {remap : IdRemapTable}
  {createdSourceIds : Option (List ℤ)} {archiveProfiles : List ArchiveProfile}
  {archiveChannels : List ArchiveChannel}

/-- What the pass believes of a known profile is so. -/
theorem believed_of_known
    (h : BuiltRemaps lower remap archiveProfiles archiveChannels destination)
    (hcreated : StartsEnabled destination remap createdSourceIds)
    {archiveProfile : ArchiveProfile} (hmem : archiveProfile ∈ archiveProfiles)
    (hknown : Known lower readable destination archiveProfile) {d : ℤ}
    (hd : archiveProfile.target remap = some d) {archiveChannel : ArchiveChannel}
    {w : MembershipWrite}
    (hw : assertedState remap createdSourceIds archiveProfile.archivedEnabledChannels d
      archiveChannel = some w) :
    membership destination w.cell = some ((selectionOf lower (readIndex lower readable destination)
      archiveProfile d).believed createdSourceIds archiveChannel w) := by
  obtain ⟨hreadable, key, hkey, hunique⟩ := hknown
  obtain ⟨row, hrow, hname⟩ := h.named archiveProfile hmem d hd
  obtain ⟨index, hindex, hset⟩ := readIndex_unique hrow (hname.trans hkey)
    fun d' row' hrow' hkey' => hunique d d' row row' hrow hrow' (hname.trans hkey) hkey'
  have hids : (selectionOf lower (readIndex lower readable destination) archiveProfile
      d).currentlyEnabledIds = some row.channels := by
    rw [hreadable]
    show (readIndex lower true destination).bind (fun index =>
      (profileNameKey lower archiveProfile.name).bind index.get?) = _
    rw [hindex, hkey]
    exact hset
  obtain ⟨hprofile, source, hsource, hresolve, -⟩ := assertedState_eq_some hw
  rw [membership, MembershipWrite.cell, hprofile, hrow, Option.map_some, Selection.believed, hids,
    hsource]
  refine congrArg some ?_
  cases hours : createdHere createdSourceIds source with
  | false => simp [hours]
  | true => simp [hours, hcreated source w.channel hours hresolve d row hrow]

/-- The names noted for a known profile are those of the memberships that changed. -/
theorem noted_of_known (h : BuiltRemaps lower remap archiveProfiles archiveChannels destination)
    (hcreated : StartsEnabled destination remap createdSourceIds)
    {archiveProfile : ArchiveProfile} (hmem : archiveProfile ∈ archiveProfiles)
    (hknown : Known lower readable destination archiveProfile) {d : ℤ}
    (hd : archiveProfile.target remap = some d) (enabled : Bool) {archiveChannel : ArchiveChannel}
    (hchannel : archiveChannel ∈ archiveChannels) :
    archiveProfile.noted refusal remap createdSourceIds lower
        (readIndex lower readable destination) enabled d archiveChannel =
      turnedTo remap destination ((archiveProfiles.flatMap (ArchiveProfile.writes remap
        createdSourceIds archiveChannels)).foldl (MembershipWrite.apply refusal) destination) enabled
        d archiveChannel := by
  unfold ArchiveProfile.noted Selection.notedAs turnedTo
  cases hasserted : assertedState remap createdSourceIds archiveProfile.archivedEnabledChannels d
      archiveChannel with
  | none =>
    have hquiet : (selectionOf lower (readIndex lower readable destination) archiveProfile d).asserted
        remap createdSourceIds archiveChannel = none := hasserted
    rw [hquiet, Option.bind_none]
    cases htarget : archiveChannel.target remap with
    | none => rfl
    | some e =>
      rw [Option.bind_some, h.left_alone hmem hd hchannel htarget hasserted, if_neg]
      rintro ⟨hbefore, hafter⟩
      rw [hafter] at hbefore
      cases enabled <;> cases hbefore
  | some w =>
    have hwrite : (selectionOf lower (readIndex lower readable destination) archiveProfile d).asserted
        remap createdSourceIds archiveChannel = some w := hasserted
    obtain ⟨hprofile, source, hsource, hresolve, -⟩ := assertedState_eq_some hasserted
    have htarget : archiveChannel.target remap = some w.channel := by
      rw [ArchiveChannel.target, hsource]
      exact hresolve
    have hcell : (d, w.channel) = w.cell := by rw [← hprofile]; rfl
    have hmemw : w ∈ archiveProfile.writes remap createdSourceIds archiveChannels :=
      mem_writes.mpr ⟨d, hd, archiveChannel, hchannel, hasserted⟩
    rw [hwrite, htarget, Option.bind_some, Option.bind_some, hcell, h.written hmem hmemw,
      believed_of_known h hcreated hmem hknown hd hasserted]
    cases w.accepted refusal <;> cases w.enabled <;> cases enabled <;>
      cases (selectionOf lower (readIndex lower readable destination) archiveProfile d).believed
        createdSourceIds archiveChannel w <;> simp

theorem recorded_of_known (h : BuiltRemaps lower remap archiveProfiles archiveChannels destination)
    (hcreated : StartsEnabled destination remap createdSourceIds)
    {archiveProfile : ArchiveProfile} (hmem : archiveProfile ∈ archiveProfiles)
    (hknown : Known lower readable destination archiveProfile) :
    archiveProfile.recorded refusal remap createdSourceIds lower
        (readIndex lower readable destination) archiveChannels =
      drift remap archiveChannels destination ((archiveProfiles.flatMap (ArchiveProfile.writes remap
        createdSourceIds archiveChannels)).foldl (MembershipWrite.apply refusal) destination)
        archiveProfile := by
  unfold ArchiveProfile.recorded drift ArchiveProfile.driftRow
  cases hd : archiveProfile.target remap with
  | none => rfl
  | some d =>
    rw [Option.bind_some, Option.bind_some]
    dsimp only
    rw [List.filterMap_congr fun c hc => noted_of_known h hcreated hmem hknown hd false hc,
      List.filterMap_congr fun c hc => noted_of_known h hcreated hmem hknown hd true hc]

/-- The row of a profile the pass takes as enabling everything: what it turned off. -/
def turnedOff (refusal : ℤ → ℤ → Option String) (remap : IdRemapTable)
    (createdSourceIds : Option (List ℤ)) (archiveChannels : List ArchiveChannel)
    (archiveProfile : ArchiveProfile) : Option ProfileMembershipDriftDetail :=
  archiveProfile.driftRow remap archiveChannels
    (fun d archiveChannel =>
      (assertedState remap createdSourceIds archiveProfile.archivedEnabledChannels d
        archiveChannel).bind fun w =>
          if w.accepted refusal && !w.enabled then some (shownName archiveChannel.name) else none)
    fun _ _ => none

/-- What is enabled in a profile that is not known is not found. -/
theorem currentlyEnabledIds_of_not_known {archiveProfile : ArchiveProfile}
    (hunknown : ¬ Known lower readable destination archiveProfile) (d : ℤ) :
    (selectionOf lower (readIndex lower readable destination) archiveProfile
      d).currentlyEnabledIds = none := by
  show (readIndex lower readable destination).bind (fun index =>
    (profileNameKey lower archiveProfile.name).bind index.get?) = none
  cases readable with
  | false => rfl
  | true =>
    cases hkey : profileNameKey lower archiveProfile.name with
    | none => simp
    | some key =>
      have htwo : ∃ e e' row row', destination.get? e = some row ∧
          destination.get? e' = some row' ∧ profileNameKey lower row.name = some key ∧
            profileNameKey lower row'.name = some key ∧ e ≠ e' := by
        by_contra hnone
        refine hunknown ⟨rfl, key, hkey, fun e e' row row' hrow hrow' hname hname' => ?_⟩
        by_contra hne
        exact hnone ⟨e, e', row, row', hrow, hrow', hname, hname', hne⟩
      obtain ⟨e, e', row, row', hrow, hrow', hname, hname', hne⟩ := htwo
      obtain ⟨index, hindex, hget⟩ := readIndex_ambiguous hrow hrow' hname hname' hne
      rw [hindex, Option.bind_some, Option.bind_some, hget]

theorem recorded_of_not_known {archiveProfile : ArchiveProfile}
    (hunknown : ¬ Known lower readable destination archiveProfile) :
    archiveProfile.recorded refusal remap createdSourceIds lower
        (readIndex lower readable destination) archiveChannels =
      turnedOff refusal remap createdSourceIds archiveChannels archiveProfile := by
  unfold ArchiveProfile.recorded turnedOff ArchiveProfile.driftRow
  refine congrArg (Option.bind _) (funext fun d => ?_)
  have hnoted : ∀ enabled archiveChannel, archiveProfile.noted refusal remap createdSourceIds lower
      (readIndex lower readable destination) enabled d archiveChannel =
      (assertedState remap createdSourceIds archiveProfile.archivedEnabledChannels d
        archiveChannel).bind fun w => if w.accepted refusal && w.enabled == enabled && !enabled then
          some (shownName archiveChannel.name) else none := by
    intro enabled archiveChannel
    unfold ArchiveProfile.noted Selection.notedAs
    refine congrArg (Option.bind _) (funext fun w => ?_)
    have hbelieved : (selectionOf lower (readIndex lower readable destination) archiveProfile
        d).believed createdSourceIds archiveChannel w = true := by
      rw [Selection.believed, currentlyEnabledIds_of_not_known hunknown d]
      exact Bool.or_true _
    rw [hbelieved]
    cases enabled <;> rfl
  have hoff : archiveProfile.noted refusal remap createdSourceIds lower
      (readIndex lower readable destination) false d = fun archiveChannel =>
        (assertedState remap createdSourceIds archiveProfile.archivedEnabledChannels d
          archiveChannel).bind fun w =>
            if w.accepted refusal && !w.enabled then some (shownName archiveChannel.name)
            else none := by
    funext archiveChannel
    rw [hnoted]
    simp
  have hon : archiveProfile.noted refusal remap createdSourceIds lower
      (readIndex lower readable destination) true d = fun _ => none := by
    funext archiveChannel
    rw [hnoted]
    simp
  rw [hoff, hon]

/-- As many failures are counted as writes were refused. -/
theorem length_refused (archiveProfile : ArchiveProfile) :
    (archiveProfile.refused refusal remap createdSourceIds lower (readIndex lower readable destination)
        archiveChannels).length =
      ((archiveProfile.writes remap createdSourceIds archiveChannels).filter
        fun w => !w.accepted refusal).length := by
  unfold ArchiveProfile.refused ArchiveProfile.writes
  cases archiveProfile.target remap with
  | none => rfl
  | some d =>
    dsimp only
    induction archiveChannels with
    | nil => rfl
    | cons archiveChannel rest ih =>
      rw [filterMap_cons_toList, filterMap_cons_toList, List.length_append, List.filter_append,
        List.length_append, ih]
      congr 1
      unfold Selection.refusedAs Selection.asserted
      show ((assertedState remap createdSourceIds archiveProfile.archivedEnabledChannels d
        archiveChannel).bind _).toList.length = _
      cases assertedState remap createdSourceIds archiveProfile.archivedEnabledChannels d
          archiveChannel with
      | none => rfl
      | some w =>
        cases hrefusal : refusal w.profile w.channel with
        | none => simp [MembershipWrite.accepted, hrefusal]
        | some typeName => simp [MembershipWrite.accepted, hrefusal]

theorem foldl_fail (details : List FailureDetail) (category : EntityCategoryReport) :
    (details.foldl EntityCategoryReport.fail category).failed = category.failed + details.length ∧
      (details.foldl EntityCategoryReport.fail category).failureDetails =
        category.failureDetails ++ details := by
  induction details generalizing category with
  | nil => simp
  | cons detail rest ih =>
    obtain ⟨hfailed, hdetails⟩ := ih (category.fail detail)
    rw [List.foldl_cons, hfailed, hdetails]
    constructor
    · show category.failed + 1 + rest.length = category.failed + (rest.length + 1)
      omega
    · show category.failureDetails ++ [detail] ++ rest = _
      rw [List.append_assoc]
      rfl

end Known

/-- What a pass comes to: every membership it may set is as the archive has it unless the write was
refused, every other is as it was, refused writes are counted, and the row on a profile is of the memberships that changed where
the destination tells it by name, else of those the pass turned off. -/
structure ReattachedExactly (lower : String → String) (refusal : ℤ → ℤ → Option String)
    (remap : IdRemapTable) (createdSourceIds : Option (List ℤ)) (readable : Bool)
    (archiveProfiles : List ArchiveProfile) (archiveChannels : List ArchiveChannel)
    (report : MembershipReport) (destination : Dict ℤ ProfileRow) (pass : MembershipPass) :
    Prop where
  written : ∀ archiveProfile ∈ archiveProfiles,
    ∀ w ∈ archiveProfile.writes remap createdSourceIds archiveChannels, w.accepted refusal = true →
      membership pass.destination w.cell = some w.enabled
  others : ∀ cell, (∀ archiveProfile ∈ archiveProfiles,
      ∀ w ∈ archiveProfile.writes remap createdSourceIds archiveChannels,
        w.accepted refusal = true → cell ≠ w.cell) →
    membership pass.destination cell = membership destination cell
  counted : pass.report.category.failed = report.category.failed +
    ((archiveProfiles.flatMap (ArchiveProfile.writes remap createdSourceIds
      archiveChannels)).filter fun w => !w.accepted refusal).length
  drifted : ∃ recorded : ArchiveProfile → Option ProfileMembershipDriftDetail,
    pass.report.driftDetails = report.driftDetails ++ archiveProfiles.filterMap recorded ∧
    pass.report.profileMembershipDrift = report.profileMembershipDrift +
      ((archiveProfiles.filterMap recorded).map ProfileMembershipDriftDetail.flips).sum ∧
    ∀ archiveProfile ∈ archiveProfiles,
      (Known lower readable destination archiveProfile → recorded archiveProfile =
        drift remap archiveChannels destination pass.destination archiveProfile) ∧
      (¬ Known lower readable destination archiveProfile → recorded archiveProfile =
        turnedOff refusal remap createdSourceIds archiveChannels archiveProfile)
  unread : readable = false → unreadNote ∈ pass.report.notes

section Exact

variable {lower : String → String} {refusal : ℤ → ℤ → Option String} {remap : IdRemapTable}
  {createdSourceIds : Option (List ℤ)} {readable : Bool} {archiveProfiles : List ArchiveProfile}
  {archiveChannels : List ArchiveChannel} {report : MembershipReport}
  {destination : Dict ℤ ProfileRow}

/-- The pass from its start. -/
theorem reattach_came
    (h : BuiltRemaps lower remap archiveProfiles archiveChannels destination) :
    Came refusal remap createdSourceIds lower (readIndex lower readable destination) archiveChannels
      archiveProfiles
      ⟨destination, { report with
        notes := report.notes ++ if (readIndex lower readable destination).isNone then
          [unreadNote] else [] }, 0⟩
      (reattachProfileMemberships refusal remap createdSourceIds false lower readable
        archiveProfiles archiveChannels report destination) := by
  apply foldl_reattachProfile
  intro archiveProfile hmem d hd
  obtain ⟨row, hrow, -⟩ := h.named archiveProfile hmem d hd
  exact Dict.mem_of_get? hrow

theorem reattachedExactly
    (h : BuiltRemaps lower remap archiveProfiles archiveChannels destination)
    (hcreated : StartsEnabled destination remap createdSourceIds) :
    ReattachedExactly lower refusal remap createdSourceIds readable archiveProfiles archiveChannels
      report destination (reattachProfileMemberships refusal remap createdSourceIds false lower
        readable archiveProfiles archiveChannels report destination) := by
  obtain ⟨hdest, hcategory, hdetails, hflips, hnotes⟩ : Came refusal remap createdSourceIds lower
      (readIndex lower readable destination) archiveChannels archiveProfiles _ _ := reattach_came h
  have hcount : (archiveProfiles.flatMap (ArchiveProfile.refused refusal remap createdSourceIds lower
      (readIndex lower readable destination) archiveChannels)).length =
      ((archiveProfiles.flatMap (ArchiveProfile.writes remap createdSourceIds
        archiveChannels)).filter fun w => !w.accepted refusal).length := by
    rw [List.filter_flatMap, List.length_flatMap, List.length_flatMap]
    refine congrArg List.sum (List.map_congr_left fun archiveProfile _ => ?_)
    exact length_refused archiveProfile
  constructor
  · intro archiveProfile hmem w hw haccepted
    rw [hdest, h.written hmem hw, if_pos haccepted]
  · intro cell hother
    rw [hdest]
    by_cases hcell : ∃ archiveProfile ∈ archiveProfiles,
        ∃ w ∈ archiveProfile.writes remap createdSourceIds archiveChannels, w.cell = cell
    · obtain ⟨archiveProfile, hmem, w, hw, rfl⟩ := hcell
      rw [h.written hmem hw, if_neg]
      exact fun haccepted => hother archiveProfile hmem w hw haccepted rfl
    · apply acts_apply.foldl_other
      intro w hw heq
      obtain ⟨archiveProfile, hmem, hw⟩ := List.mem_flatMap.mp hw
      exact hcell ⟨archiveProfile, hmem, w, hw, heq.symm⟩
  · rw [hcategory, (foldl_fail _ _).1, hcount]
  · refine ⟨_, hdetails, hflips, fun archiveProfile hmem => ⟨fun hknown => ?_, fun hunknown => ?_⟩⟩
    · rw [recorded_of_known h hcreated hmem hknown, hdest]
    · exact recorded_of_not_known hunknown
  · rintro rfl
    apply hnotes.subset
    exact List.mem_append_right _ (List.mem_singleton_self _)

/-- A pass leaves the profiles where a next one looks for them. -/
theorem BuiltRemaps.again (h : BuiltRemaps lower remap archiveProfiles archiveChannels destination)
    {destination' : Dict ℤ ProfileRow} (hnames : ∀ d, (destination'.get? d).map ProfileRow.name =
      (destination.get? d).map ProfileRow.name) :
    BuiltRemaps lower remap archiveProfiles archiveChannels destination' := by
  refine ⟨h.profileIds, h.channelIds, h.profiles, h.channels, fun archiveProfile hmem d hd => ?_⟩
  obtain ⟨row, hrow, hname⟩ := h.named archiveProfile hmem d hd
  have hthere := hnames d
  rw [hrow] at hthere
  obtain ⟨row', hrow', hsame⟩ := Option.map_eq_some_iff.mp hthere
  exact ⟨row', hrow', by rw [hsame, hname]⟩

theorem Known.again {archiveProfile : ArchiveProfile}
    (h : Known lower readable destination archiveProfile) {destination' : Dict ℤ ProfileRow}
    (hnames : ∀ d, (destination'.get? d).map ProfileRow.name =
      (destination.get? d).map ProfileRow.name) :
    Known lower readable destination' archiveProfile := by
  obtain ⟨hreadable, key, hkey, hunique⟩ := h
  have hback : ∀ d row', destination'.get? d = some row' →
      ∃ row, destination.get? d = some row ∧ row.name = row'.name := by
    intro d row' hrow'
    have hthere := (hnames d).symm
    rw [hrow'] at hthere
    exact Option.map_eq_some_iff.mp hthere
  refine ⟨hreadable, key, hkey, fun d d' row row' hrow hrow' hname hname' => ?_⟩
  obtain ⟨old, hold, hsame⟩ := hback d row hrow
  obtain ⟨old', hold', hsame'⟩ := hback d' row' hrow'
  exact hunique d d' old old' hold hold' (by rw [hsame, hname]) (by rw [hsame', hname'])

/-- Without created channels only a known selection is asserted, and as it was with them. -/
theorem writes_again {archiveProfile : ArchiveProfile} {d : ℤ} {archiveChannel : ArchiveChannel}
    {w : MembershipWrite} (h : assertedState remap none archiveProfile.archivedEnabledChannels d
      archiveChannel = some w) :
    assertedState remap createdSourceIds archiveProfile.archivedEnabledChannels d archiveChannel =
      some w := by
  obtain ⟨source, hsource, h⟩ := Option.bind_eq_some_iff.mp h
  obtain ⟨e, he, h⟩ := Option.bind_eq_some_iff.mp h
  unfold assertedState
  rw [hsource, Option.bind_some, he, Option.bind_some]
  cases hselection : archiveProfile.archivedEnabledChannels with
  | none =>
    rw [hselection] at h
    cases h
  | some enabledSources =>
    rw [hselection] at h
    exact h

/-- The memberships of a profile that was written whole do not change again. -/
theorem settled_again (h : BuiltRemaps lower remap archiveProfiles archiveChannels destination)
    {archiveProfile : ArchiveProfile} (hmem : archiveProfile ∈ archiveProfiles)
    (hwritten : ∀ w ∈ archiveProfile.writes remap createdSourceIds archiveChannels,
      membership destination w.cell = some w.enabled) :
    drift remap archiveChannels destination ((archiveProfiles.flatMap (ArchiveProfile.writes remap
      none archiveChannels)).foldl (MembershipWrite.apply refusal) destination) archiveProfile =
        none := by
  unfold drift ArchiveProfile.driftRow
  cases hd : archiveProfile.target remap with
  | none => rfl
  | some d =>
    have hsame : ∀ archiveChannel ∈ archiveChannels, ∀ e, archiveChannel.target remap = some e →
        membership ((archiveProfiles.flatMap (ArchiveProfile.writes remap none
          archiveChannels)).foldl (MembershipWrite.apply refusal) destination) (d, e) =
          membership destination (d, e) := by
      intro archiveChannel hchannel e he
      cases hasserted : assertedState remap none archiveProfile.archivedEnabledChannels d
          archiveChannel with
      | none => exact h.left_alone hmem hd hchannel he hasserted
      | some w =>
        obtain ⟨hprofile, source, hsource, hresolve, -⟩ := assertedState_eq_some hasserted
        have hcell : (d, e) = w.cell := by
          rw [ArchiveChannel.target, hsource] at he
          exact Prod.ext hprofile.symm (Option.some.inj (he.symm.trans hresolve))
        have hnow := hwritten w (mem_writes.mpr ⟨d, hd, archiveChannel, hchannel,
          writes_again hasserted⟩)
        rw [hcell, h.written hmem (mem_writes.mpr ⟨d, hd, archiveChannel, hchannel, hasserted⟩),
          hnow, ite_self]
    have hnone : ∀ enabled, archiveChannels.filterMap (turnedTo remap destination
        ((archiveProfiles.flatMap (ArchiveProfile.writes remap none archiveChannels)).foldl
          (MembershipWrite.apply refusal) destination) enabled d) = [] := by
      intro enabled
      rw [List.filterMap_eq_nil_iff]
      intro archiveChannel hchannel
      unfold turnedTo
      cases he : archiveChannel.target remap with
      | none => rfl
      | some e =>
        rw [Option.bind_some, hsame archiveChannel hchannel e he, if_neg]
        rintro ⟨hbefore, hafter⟩
        rw [hafter] at hbefore
        cases enabled <;> cases hbefore
    rw [Option.bind_some, hnone, hnone, if_pos ⟨rfl, rfl⟩]

/-- A reattachment is exact, and a second pass that creates no channels records nothing of a profile
the destination tells by name and the first pass wrote whole. -/
theorem reattach_exact (lower : String → String) (refusal : ℤ → ℤ → Option String)
    (remap : IdRemapTable) (createdSourceIds : Option (List ℤ)) (readable : Bool)
    (archiveProfiles : List ArchiveProfile) (archiveChannels : List ArchiveChannel)
    (report : MembershipReport) (destination : Dict ℤ ProfileRow)
    (h : BuiltRemaps lower remap archiveProfiles archiveChannels destination)
    (hcreated : StartsEnabled destination remap createdSourceIds) :
    let pass := reattachProfileMemberships refusal remap createdSourceIds false lower readable
      archiveProfiles archiveChannels report destination
    ReattachedExactly lower refusal remap createdSourceIds readable archiveProfiles archiveChannels
      report destination pass ∧
    ∀ refusal' readable' report',
      let again := reattachProfileMemberships refusal' remap none false lower readable'
        archiveProfiles archiveChannels report' pass.destination
      ∃ recorded : ArchiveProfile → Option ProfileMembershipDriftDetail,
        again.report.driftDetails = report'.driftDetails ++ archiveProfiles.filterMap recorded ∧
        again.report.profileMembershipDrift = report'.profileMembershipDrift +
          ((archiveProfiles.filterMap recorded).map ProfileMembershipDriftDetail.flips).sum ∧
        ∀ archiveProfile ∈ archiveProfiles, Known lower readable' destination archiveProfile →
          (∀ w ∈ archiveProfile.writes remap createdSourceIds archiveChannels,
            w.accepted refusal = true) →
          recorded archiveProfile = none := by
  intro pass
  have hfirst : ReattachedExactly lower refusal remap createdSourceIds readable archiveProfiles
      archiveChannels report destination pass := reattachedExactly h hcreated
  refine ⟨hfirst, fun refusal' readable' report' => ?_⟩
  have hnames : ∀ d, (pass.destination.get? d).map ProfileRow.name =
      (destination.get? d).map ProfileRow.name := by
    intro d
    obtain ⟨hdest, -⟩ : Came refusal remap createdSourceIds lower
      (readIndex lower readable destination) archiveChannels archiveProfiles _ pass := reattach_came h
    rw [hdest, name_foldl_apply]
  have hagain : BuiltRemaps lower remap archiveProfiles archiveChannels pass.destination :=
    h.again hnames
  -- No channel is of this pass, so none has to start enabled.
  have hnothing : StartsEnabled pass.destination remap none := nofun
  obtain ⟨-, -, -, ⟨recorded, hdetails, hflips, hrecorded⟩, -⟩ : ReattachedExactly lower refusal'
    remap none readable' archiveProfiles archiveChannels report' pass.destination _ :=
      reattachedExactly hagain hnothing
  refine ⟨recorded, hdetails, hflips, fun archiveProfile hmem hknown haccepted => ?_⟩
  obtain ⟨hdest', -⟩ : Came refusal' remap none lower (readIndex lower readable' pass.destination)
    archiveChannels archiveProfiles _ (reattachProfileMemberships refusal' remap none false lower
      readable' archiveProfiles archiveChannels report' pass.destination) := reattach_came hagain
  rw [(hrecorded archiveProfile hmem).1 (hknown.again hnames), hdest']
  apply settled_again hagain hmem
  intro w hw
  exact hfirst.written archiveProfile hmem w hw (haccepted w hw)

end Exact

section Samples

def lowerCase (name : String) : String := String.ofList (name.toList.map Char.toLower)

/-- A profile that enables the first of two channels. -/
def newsProfile : ArchiveProfile := ⟨some 5, "News", some [.plain 7]⟩

def newsChannels : List ArchiveChannel := [⟨some 7, "One", []⟩, ⟨some 8, "Two", []⟩]

def newsRemap : IdRemapTable :=
  ((IdRemapTable.empty.add .channelProfile 5 10).add .channel 7 1).add .channel 8 2

def emptyReport : MembershipReport := ⟨[], .empty, 0, []⟩

/-- The profile restored, with both channels enabled. -/
def oneNews : Dict ℤ ProfileRow := Dict.ofList [(10, ⟨"News", [1, 2]⟩)]

/-- The profile restored as it is archived, beside one whose name differs in its case. -/
def twoNews : Dict ℤ ProfileRow := Dict.ofList [(10, ⟨"News", [1]⟩), (11, ⟨"news", []⟩)]

theorem built_newsRemap {destination : Dict ℤ ProfileRow} {row : ProfileRow}
    (hrow : destination.get? 10 = some row) (hname : row.name = "News") :
    BuiltRemaps lowerCase newsRemap [newsProfile] newsChannels destination where
  profileIds := by decide
  channelIds := by decide
  profiles p p' d h h' := by
    have hitems : (newsRemap.mappings .channelProfile).items = [(5, 10)] := by decide +kernel
    simp only [IdRemapTable.resolve, Dict.get?_eq_some, hitems, List.mem_singleton,
      Prod.mk.injEq] at h h'
    rw [h.1, h'.1]
  channels c c' e h h' := by
    have hitems : (newsRemap.mappings .channel).items = [(7, 1), (8, 2)] := by decide +kernel
    simp only [IdRemapTable.resolve, Dict.get?_eq_some, hitems, List.mem_cons, List.not_mem_nil,
      Prod.mk.injEq, or_false] at h h'
    omega
  named archiveProfile hmem d hd := by
    obtain rfl := List.mem_singleton.mp hmem
    have htarget : newsProfile.target newsRemap = some 10 := by decide +kernel
    obtain rfl := Option.some.inj (htarget.symm.trans hd)
    exact ⟨row, hrow, by rw [hname]; rfl⟩

theorem reattach_exact_news : ReattachedExactly lowerCase (fun _ _ => none) newsRemap (some [8]) true
    [newsProfile] newsChannels emptyReport oneNews (reattachProfileMemberships (fun _ _ => none)
      newsRemap (some [8]) false lowerCase true [newsProfile] newsChannels emptyReport oneNews) := by
  apply (reattach_exact lowerCase (fun _ _ => none) newsRemap (some [8]) true [newsProfile]
    newsChannels emptyReport oneNews (built_newsRemap
      (by decide +kernel : oneNews.get? 10 = some ⟨"News", [1, 2]⟩) rfl) _).1
  intro source e hours hresolve d row hrow
  have hitems : oneNews.items = [(10, ⟨"News", [1, 2]⟩)] := by decide +kernel
  rw [Dict.get?_eq_some, hitems, List.mem_singleton] at hrow
  obtain ⟨-, rfl⟩ := Prod.mk.inj hrow
  obtain rfl : source = 8 := by simpa [createdHere] using hours
  obtain rfl : e = 2 := by
    have htwo : newsRemap.resolve .channel 8 = some 2 := by decide +kernel
    exact Option.some.inj (hresolve.symm.trans htwo)
  decide

/-- Beside a profile of the same name nothing changes, and the pass and the next one record that the
second channel was disabled. -/
theorem reattach_records_unchanged :
    let pass := reattachProfileMemberships (fun _ _ => none) newsRemap none false lowerCase true
      [newsProfile] newsChannels emptyReport twoNews
    BuiltRemaps lowerCase newsRemap [newsProfile] newsChannels twoNews ∧
      pass.destination = twoNews ∧
      pass.report.driftDetails = [⟨10, "News", ["Two"], []⟩] ∧
      (reattachProfileMemberships (fun _ _ => none) newsRemap none false lowerCase true
        [newsProfile] newsChannels emptyReport pass.destination).report.driftDetails =
          [⟨10, "News", ["Two"], []⟩] := by
  refine ⟨built_newsRemap (by decide +kernel : twoNews.get? 10 = some ⟨"News", [1]⟩) rfl, ?_⟩
  decide +kernel

end Samples

end ChannelManager.Dbas
