import ChannelManager.Dbas.PlaceholderRebind

/-!
# Profile memberships after a restore

Every restored channel is set to the archived state in every restored profile. What the destination
had is read once before, by the names of its profiles, to tell what drifted.
-/

namespace ChannelManager.Dbas

/-- What a profile of the archive lists: a channel, a record that may carry one under `id` or under
`channel`, or something else. -/
inductive EnabledEntry where
  | plain (id : ℤ)
  | record (id : Option (Option ℤ)) (channel : Option ℤ)
  | other
deriving DecidableEq

/-- The channel of an entry. The `channel` of a record counts when it has no `id`. -/
def EnabledEntry.channelId : EnabledEntry → Option ℤ
  | .plain id => some id
  | .record (some id) _ => id
  | .record none listed => listed
  | .other => none

/-- A channel profile of the archive; without a name it is "". -/
structure ArchiveProfile where
  id : Option ℤ
  name : String
  channels : Option (List EnabledEntry)
deriving DecidableEq

/-- `_archived_enabled_channels`. -/
def ArchiveProfile.archivedEnabledChannels (archiveProfile : ArchiveProfile) : Option (List ℤ) :=
  archiveProfile.channels.map (List.filterMap EnabledEntry.channelId)

/-- The destination profile of an archived one. -/
def ArchiveProfile.target (remap : IdRemapTable) (archiveProfile : ArchiveProfile) : Option ℤ :=
  archiveProfile.id.bind fun id => remap.resolve .channelProfile id

/-- A profile on the destination and the channels enabled in it. -/
structure ProfileRow where
  name : String
  channels : List ℤ
deriving DecidableEq

/-- `_profile_name_key`; `lower` is `str.lower`. -/
def profileNameKey (lower : String → String) (name : String) : Option String :=
  let key := lower (strip name)
  if key = "" then none else some key

section Index

variable (lower : String → String)

/-- One round of the loop over the destination's profiles: the sets by name, and the names met
again. -/
def indexProfile (index : Dict String (List ℤ) × List String) (row : ProfileRow) :
    Dict String (List ℤ) × List String :=
  match profileNameKey lower row.name with
  | none => index
  | some key =>
    if key ∈ index.1 then (index.1, key :: index.2) else (index.1.set key row.channels, index.2)

/-- `_destination_enabled_by_profile`, none when the profiles cannot be listed. -/
def destinationEnabledByProfile (rows : Option (List ProfileRow)) :
    Option (Dict String (List ℤ)) :=
  rows.map fun rows =>
    let index := rows.foldl (indexProfile lower) (∅, [])
    index.2.foldl Dict.erase index.1

end Index

/-- `ProfileMembershipDriftDetail`. -/
structure ProfileMembershipDriftDetail where
  profileId : ℤ
  name : String
  channelsDisabled : List String
  channelsEnabled : List String
deriving DecidableEq

/-- What the report of a restore says of the memberships. -/
structure MembershipReport where
  notes : List String
  category : EntityCategoryReport
  profileMembershipDrift : ℕ
  driftDetails : List ProfileMembershipDriftDetail
deriving DecidableEq

/-- `record_profile_membership_drift`. -/
def MembershipReport.recordDrift (report : MembershipReport) (detail : ProfileMembershipDriftDetail) :
    MembershipReport :=
  if detail.channelsDisabled = [] ∧ detail.channelsEnabled = [] then report
  else
    { report with
      profileMembershipDrift := report.profileMembershipDrift +
        (detail.channelsDisabled.length + detail.channelsEnabled.length)
      driftDetails := report.driftDetails ++ [detail] }

/-- `update_profile_channel`, or the type of what it raises. -/
def updateProfileChannel (refusal : ℤ → ℤ → Option String) (destination : Dict ℤ ProfileRow)
    (profileId channelId : ℤ) (enabled : Bool) : Except String (Dict ℤ ProfileRow) :=
  match refusal profileId channelId, destination.get? profileId with
  | some typeName, _ => .error typeName
  | none, none => .error "HTTPStatusError"
  | none, some row =>
    let others := row.channels.filter (· ≠ channelId)
    .ok (destination.set profileId
      { row with channels := if enabled then others ++ [channelId] else others })

/-- What the pass holds of the profile it is at. -/
structure Selection where
  sourceProfileId : Option ℤ
  destProfileId : ℤ
  label : String
  enabledSources : Option (List ℤ)
  currentlyEnabledIds : Option (List ℤ)

/-- What is carried through the channels. -/
structure ProfilePass where
  destination : Dict ℤ ProfileRow
  category : EntityCategoryReport
  disabledNames : List String
  enabledNames : List String
  asserted : ℕ

/-- What is carried through the profiles. -/
structure MembershipPass where
  destination : Dict ℤ ProfileRow
  report : MembershipReport
  asserted : ℕ

section Reattach

variable (refusal : ℤ → ℤ → Option String) (remap : IdRemapTable)
  (createdSourceIds : Option (List ℤ)) (isDryRun : Bool)

/-- Whether this run created a channel of the archive. -/
def createdHere (sourceChannelId : ℤ) : Bool := createdSourceIds.any (sourceChannelId ∈ ·)

/-- "enabled" or "disabled". -/
def stateWord (enabled : Bool) : String := if enabled then "enabled" else "disabled"

/-- The failure for a membership that was refused. -/
def refusedDetail (selection : Selection) (label : String) (enabled : Bool) (typeName : String) :
    FailureDetail :=
  ⟨.upstreamApiError, selection.label,
    s!"could not set channel '{label}' {stateWord enabled} in this profile ({typeName}); " ++
      "the destination profile does not match the source's channel selection.",
    selection.sourceProfileId⟩

/-- One round of the loop over the channels. -/
def reassertMembership (selection : Selection) (pass : ProfilePass)
    (archiveChannel : ArchiveChannel) : ProfilePass :=
  match archiveChannel.id with
  | none => pass
  | some sourceChannelId =>
    match remap.resolve .channel sourceChannelId with
    | none => pass
    | some destChannelId =>
      let ours := createdHere createdSourceIds sourceChannelId
      -- What the archive does not say is only asserted of the channels this run created.
      if selection.enabledSources.isNone && !ours then pass
      else
        let label := shownName archiveChannel.name
        let shouldBeEnabled := selection.enabledSources.any (sourceChannelId ∈ ·)
        let currentlyEnabled :=
          ours || selection.currentlyEnabledIds.all (destChannelId ∈ ·)
        let drifted := currentlyEnabled != shouldBeEnabled
        let counted :=
          { pass with
            disabledNames := pass.disabledNames ++
              if drifted && !shouldBeEnabled then [label] else []
            enabledNames := pass.enabledNames ++ if drifted && shouldBeEnabled then [label] else []
            asserted := pass.asserted + 1 }
        if isDryRun then counted
        else match updateProfileChannel refusal pass.destination selection.destProfileId
            destChannelId shouldBeEnabled with
          | .ok destination => { counted with destination }
          | .error typeName =>
            let detail := refusedDetail selection label shouldBeEnabled typeName
            { pass with category := pass.category.fail detail }

/-- What is known of a restored profile. -/
def selectionOf (lower : String → String) (enabledByName : Option (Dict String (List ℤ)))
    (archiveProfile : ArchiveProfile) (destProfileId : ℤ) : Selection where
  sourceProfileId := archiveProfile.id
  destProfileId := destProfileId
  label := shownName archiveProfile.name
  enabledSources := archiveProfile.archivedEnabledChannels
  currentlyEnabledIds := enabledByName.bind fun index =>
    (profileNameKey lower archiveProfile.name).bind index.get?

/-- One round of the loop over the profiles. -/
def reattachProfile (lower : String → String) (enabledByName : Option (Dict String (List ℤ)))
    (archiveChannels : List ArchiveChannel) (pass : MembershipPass)
    (archiveProfile : ArchiveProfile) : MembershipPass :=
  let profileLabel := shownName archiveProfile.name
  match archiveProfile.target remap with
  | none =>
    let note := s!"channel profile '{profileLabel}' was not restored on this destination, so its " ++
      "channel selection could not be re-applied."
    { pass with report := { pass.report with notes := pass.report.notes ++ [note] } }
  | some destProfileId =>
    let selection := selectionOf lower enabledByName archiveProfile destProfileId
    let done := archiveChannels.foldl
      (reassertMembership refusal remap createdSourceIds isDryRun selection)
      ⟨pass.destination, pass.report.category, [], [], pass.asserted⟩
    let note := s!"channel profile '{profileLabel}' arrived without its channel selection, so the " ++
      s!"{done.disabledNames.length} membership(s) this run created were disabled rather than left " ++
      "enabled — a profile is a restriction, and guessing 'everything' would have widened it. " ++
      "Re-apply the profile's channel selection on the destination."
    let report :=
      { pass.report with
        category := done.category
        notes := pass.report.notes ++ if selection.enabledSources.isNone then [note] else [] }
    { destination := done.destination
      report := report.recordDrift
        ⟨destProfileId, profileLabel, done.disabledNames, done.enabledNames⟩
      asserted := done.asserted }

/-- The note when the destination's profiles cannot be listed. -/
def unreadNote : String :=
  "the destination's current channel-profile memberships could not be read, so the profile " ++
    "membership count below assumes Dispatcharr's enable-everything default: it is what this run " ++
    "turned OFF, not what was measured to have drifted. The memberships were still applied."

/-- `reattach_profile_memberships`; `readable` is whether the destination's profiles can be listed.
-/
def reattachProfileMemberships (lower : String → String) (readable : Bool)
    (archiveProfiles : List ArchiveProfile) (archiveChannels : List ArchiveChannel)
    (report : MembershipReport) (destination : Dict ℤ ProfileRow) : MembershipPass :=
  let rows := if readable then some destination.values else none
  let enabledByName := destinationEnabledByProfile lower rows
  let notes := report.notes ++ if enabledByName.isNone then [unreadNote] else []
  archiveProfiles.foldl
    (reattachProfile refusal remap createdSourceIds isDryRun lower enabledByName archiveChannels)
    ⟨destination, { report with notes }, 0⟩

end Reattach

end ChannelManager.Dbas
