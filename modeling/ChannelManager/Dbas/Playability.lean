import ChannelManager.Dbas.CalmRebind

/-!
# The playability verdict

What a restore reports of its channels is read off the destination it leaves: who created a stream
does not count. A second pass over that destination, with nothing of its own, changes nothing and
reports the same.
-/

namespace ChannelManager.Dbas

open Eff

/-- The destination has the stream and it can serve. -/
def Destination.serves (destination : Destination) (s : ℤ) : Bool :=
  (destination.streams.get? s).any fun record => urlCanServe record.url

/-- The name the destination has for a stream. -/
def Destination.streamName (destination : Destination) (s : ℤ) : String :=
  ((destination.streams.get? s).map fun record => shownName record.name).getD "<unknown>"

/-- The verdict on a channel that holds these streams: it is reported when one of them cannot serve,
and when it holds none while the archive has some for it. -/
def verdictOn (destination : Destination) (archiveChannel : ArchiveChannel) (c : ℤ)
    (streams : List ℤ) : Option StreamReattachDetail :=
  let silent := streams.filter fun s => !destination.serves s
  if silent ≠ [] ∨ streams = [] ∧ archiveChannel.bySource.items ≠ [] then
    some ⟨c, shownName archiveChannel.name,
      (silent.map destination.streamName).dedup.insertionSort (· ≤ ·),
      streams.any destination.serves⟩
  else none

/-- The verdict on an archived channel that is on the destination. -/
def verdict (destination : Destination) (remap : IdRemapTable) (archiveChannel : ArchiveChannel) :
    Option StreamReattachDetail :=
  (archiveChannel.target remap).bind fun c =>
    (destination.held c).bind fun streams => verdictOn destination archiveChannel c streams

section Verdict

variable {before destination destination' : Destination} {archiveChannel : ArchiveChannel}

/-- The verdict asks of the destination only what it has of the streams held. -/
theorem verdictOn_congr {c : ℤ} {streams : List ℤ}
    (h : ∀ s ∈ streams, destination.streams.get? s = destination'.streams.get? s) :
    verdictOn destination archiveChannel c streams =
      verdictOn destination' archiveChannel c streams := by
  have hserves : ∀ s ∈ streams, destination.serves s = destination'.serves s := by
    intro s hs
    rw [Destination.serves, Destination.serves, h s hs]
  have hsilent : streams.filter (fun s => !destination.serves s) =
      streams.filter fun s => !destination'.serves s := by
    apply List.filter_congr
    intro s hs
    rw [hserves s hs]
  have hnames : (streams.filter fun s => !destination'.serves s).map destination.streamName =
      (streams.filter fun s => !destination'.serves s).map destination'.streamName := by
    apply List.map_congr_left
    intro s hs
    rw [Destination.streamName, Destination.streamName, h s (List.mem_of_mem_filter hs)]
  have hplays : streams.any destination.serves = streams.any destination'.serves := by
    rw [Bool.eq_iff_iff, List.any_eq_true, List.any_eq_true]
    constructor
    · rintro ⟨s, hs, hserve⟩
      exact ⟨s, hs, by rwa [← hserves s hs]⟩
    · rintro ⟨s, hs, hserve⟩
      exact ⟨s, hs, by rwa [hserves s hs]⟩
  unfold verdictOn
  dsimp only
  rw [hsilent, hnames, hplays]

theorem mem_playable (destination : Destination) (s : ℤ) :
    decide (s ∈ (destination.streams.items.filter fun row => urlCanServe row.2.url).map Prod.fst) =
      destination.serves s := by
  rw [Bool.eq_iff_iff, decide_eq_true_eq, Destination.serves]
  constructor
  · intro h
    obtain ⟨row, hrow, rfl⟩ := List.mem_map.mp h
    obtain ⟨hmem, hserves⟩ := List.mem_filter.mp hrow
    rw [(Dict.get?_eq_some _ _ row.2).mpr hmem]
    exact hserves
  · intro h
    cases hrecord : destination.streams.get? s with
    | none =>
      rw [hrecord] at h
      cases h
    | some record =>
      rw [hrecord] at h
      exact List.mem_map.mpr
        ⟨(s, record), List.mem_filter.mpr ⟨(Dict.get?_eq_some _ _ _).mp hrecord, h⟩, rfl⟩

theorem get?_streamNames (destination : Destination) (s : ℤ) :
    ((Dict.ofList (destination.streams.items.map fun row =>
      (row.1, shownName row.2.name)) : Dict ℤ String).get? s).getD "<unknown>" =
        destination.streamName s := by
  have hdict : (Dict.ofList (destination.streams.items.map fun row =>
      (row.1, shownName row.2.name)) : Dict ℤ String) =
        destination.streams.mapValues fun _ record => shownName record.name := by
    apply Dict.ext
    rw [Dict.items_ofList]
    · rfl
    · rw [List.map_map]
      exact destination.streams.nodup_keys
  rw [hdict, Dict.get?_mapValues]
  rfl

/-- What is noted of a channel is the verdict on what it was left with. -/
theorem note_details (progress : Progress) (c : ℤ) (outcome : ChannelRebind) :
    (progress.note destination.streams.items archiveChannel c outcome).details =
      progress.details ++ (verdictOn destination archiveChannel c outcome.finalIds).toList := by
  have hsilent : (outcome.finalIds.filter fun s => decide (s ∉
      (destination.streams.items.filter fun row => urlCanServe row.2.url).map Prod.fst)) =
        outcome.finalIds.filter fun s => !destination.serves s := by
    apply List.filter_congr
    intro s _
    rw [← mem_playable, decide_not]
  have hplays : (outcome.finalIds.any fun s => decide (s ∈
      (destination.streams.items.filter fun row => urlCanServe row.2.url).map Prod.fst)) =
        outcome.finalIds.any destination.serves := by
    congr 1
    funext s
    exact mem_playable destination s
  unfold Progress.note verdictOn
  dsimp only
  rw [hsilent, hplays]
  simp only [get?_streamNames]
  split
  · rfl
  · rfl

end Verdict

section Loop

variable (matcher : Matcher) (ledger : RollbackLedger) (remap : IdRemapTable)
  (archiveChannels : List ArchiveChannel) (before : Destination)

theorem rebindOneChannel_calm {w : World} (archivedFor : ℤ → Option StreamRecord) (c : ℤ)
    (streams : List ℤ) (hstreams : w.destination.streams = before.streams)
    (hheld : w.destination.held c = some streams) :
    wp (rebindOneChannel matcher (ledger.ledgeredIds .stream) archivedFor
        (candidateStreams (ledger.ledgeredIds .stream) before.streams.items) calmUpstream c streams)
      (fun outcome w' => Patched c w w' ∧ w'.destination.held c = some outcome.finalIds ∧
        ∀ s ∈ outcome.finalIds, s ∈ ledger.ledgeredIds .stream → s ∈ outcome.retainedPlaceholders)
      (fun _ _ => False) w := by
  obtain ⟨record, hrecord, rfl⟩ := Option.map_eq_some_iff.mp hheld
  obtain ⟨hnodup, hexist⟩ := w.destination.bound c record hrecord
  have hfresh : ∀ s ∈ (candidateStreams (ledger.ledgeredIds .stream)
      before.streams.items).map Prod.fst, s ∉ ledger.ledgeredIds .stream ∧ s ∈ before.streams := by
    intro s hs
    obtain ⟨row, hrow, rfl⟩ := List.mem_map.mp hs
    obtain ⟨hmem, hpass⟩ := List.mem_filter.mp hrow
    exact ⟨of_decide_eq_true (Bool.and_eq_true_iff.mp hpass).1, List.mem_map_of_mem hmem⟩
  have hslots := rebindSlots_nodup matcher (ledger.ledgeredIds .stream) archivedFor
    (candidateStreams (ledger.ledgeredIds .stream) before.streams.items)
    (fun s hs => (hfresh s hs).1) (record.streams.filter (· ∉ ledger.ledgeredIds .stream))
    record.streams hnodup fun s hs hp => List.mem_filter.mpr ⟨hs, decide_eq_true hp⟩
  have hretained : ∀ s ∈ (channelSlots matcher (ledger.ledgeredIds .stream) archivedFor
      (candidateStreams (ledger.ledgeredIds .stream) before.streams.items)
      record.streams).orderedIds, s ∈ ledger.ledgeredIds .stream →
      s ∈ (channelSlots matcher (ledger.ledgeredIds .stream) archivedFor
        (candidateStreams (ledger.ledgeredIds .stream) before.streams.items)
        record.streams).retained := by
    intro s hs hp
    rcases retained_rebindSlots matcher _ archivedFor _ _ _ hs hp with hcandidate | h
    · exact ((hfresh s hcandidate).1 hp).elim
    · exact h
  have hsound : ∀ s ∈ (channelSlots matcher (ledger.ledgeredIds .stream) archivedFor
      (candidateStreams (ledger.ledgeredIds .stream) before.streams.items)
      record.streams).orderedIds, s ∈ w.destination.streams := by
    intro s hs
    rcases mem_rebindSlots matcher _ archivedFor _ _ _ hs with hcandidate | hold
    · rw [hstreams]
      exact (hfresh s hcandidate).2
    · exact hexist s hold
  unfold rebindOneChannel
  apply (wp_ite _ _ _).mpr
  constructor
  · intro hzero
    have hsame := orderedIds_of_rebound_zero matcher _ archivedFor _ _ _ hzero
    refine ⟨⟨rfl, rfl, rfl, fun _ _ => rfl⟩, ?_, hretained⟩
    rw [hheld]
    exact congrArg some hsame.symm
  · intro _
    rw [wp_bind, wp_attempt]
    apply wp_mono (updateChannelStreams_calm c _ ⟨hslots.1, hsound⟩) _ fun _ _ h => h.elim
    rintro _ w' ⟨hpatched, hnew⟩
    rw [hheld] at hnew
    exact ⟨hpatched, hnew, hretained⟩

/-- Where the loop is: past the channels `done`, with each of them left as noted. -/
structure Noted (details : List StreamReattachDetail) (done : List ArchiveChannel)
    (progress : Progress) (w : World) : Prop where
  streams : w.destination.streams = before.streams
  accounts : w.destination.accounts = before.accounts
  touched : ∀ c left, progress.finalByChannel.get? c = some left →
    w.destination.held c = some left ∧ (before.held c).isSome ∧
      ∀ s ∈ left, s ∈ ledger.ledgeredIds .stream → s ∈ progress.stillReferenced
  untouched : ∀ c, c ∉ progress.finalByChannel → w.destination.held c = before.held c
  keys : ∀ c ∈ progress.finalByChannel, ∃ archiveChannel ∈ done,
    archiveChannel.target remap = some c
  past : ∀ archiveChannel ∈ done, ∀ c, archiveChannel.target remap = some c →
    c ∉ progress.finalByChannel → before.held c = none
  details : progress.details = details ++ done.filterMap fun archiveChannel =>
    (archiveChannel.target remap).bind fun c => (progress.finalByChannel.get? c).bind fun left =>
      verdictOn before archiveChannel c left

/-- One more archived channel, of which the destination has none. -/
theorem Noted.skip {details : List StreamReattachDetail} {done : List ArchiveChannel}
    {progress : Progress} {w : World} (h : Noted ledger remap before details done progress w)
    {archiveChannel : ArchiveChannel}
    (hnone : ∀ c, archiveChannel.target remap = some c →
      before.held c = none ∧ c ∉ progress.finalByChannel) :
    Noted ledger remap before details (done ++ [archiveChannel]) progress w where
  streams := h.streams
  accounts := h.accounts
  touched := h.touched
  untouched := h.untouched
  keys c hc := by
    obtain ⟨other, hother, htarget⟩ := h.keys c hc
    exact ⟨other, List.mem_append_left _ hother, htarget⟩
  past other hother c htarget hfinal := by
    rcases List.mem_append.mp hother with hother | hlast
    · exact h.past other hother c htarget hfinal
    · rw [List.mem_singleton.mp hlast] at htarget
      exact (hnone c htarget).1
  details := by
    rw [h.details, List.filterMap_append]
    have hlast : ((archiveChannel.target remap).bind fun c =>
        (progress.finalByChannel.get? c).bind fun left =>
          verdictOn before archiveChannel c left) = none := by
      cases htarget : archiveChannel.target remap with
      | none => rfl
      | some c =>
        rw [Option.bind_some, (Dict.get?_eq_none _ _).mpr (hnone c htarget).2]
        rfl
    rw [List.filterMap_cons, hlast, List.filterMap_nil, List.append_nil]

/-- One more archived channel gone over. -/
theorem Noted.step {details : List StreamReattachDetail} {done : List ArchiveChannel}
    {progress : Progress} {w w' : World} (h : Noted ledger remap before details done progress w)
    {archiveChannel : ArchiveChannel} {c : ℤ} {outcome : ChannelRebind}
    (htarget : archiveChannel.target remap = some c) (hlisted : (before.held c).isSome)
    (hnew : ∀ other ∈ done, other.target remap ≠ some c) (hpatched : Patched c w w')
    (hheld : w'.destination.held c = some outcome.finalIds)
    (hretained : ∀ s ∈ outcome.finalIds, s ∈ ledger.ledgeredIds .stream →
      s ∈ outcome.retainedPlaceholders) :
    Noted ledger remap before details (done ++ [archiveChannel])
      (progress.note before.streams.items archiveChannel c outcome) w' where
  streams := hpatched.streams.trans h.streams
  accounts := hpatched.accounts.trans h.accounts
  touched := by
    intro c' left hleft
    have hleft' : (progress.finalByChannel.set c outcome.finalIds).get? c' = some left := hleft
    rw [Dict.get?_set] at hleft'
    split at hleft'
    next heq =>
      subst heq
      obtain rfl := Option.some.inj hleft'
      exact ⟨hheld, hlisted, fun s hs hp => List.mem_append_right _ (hretained s hs hp)⟩
    next hne =>
      obtain ⟨hold, hsome, hstill⟩ := h.touched c' left hleft'
      exact ⟨by rw [hpatched.others c' (Ne.symm hne), hold], hsome,
        fun s hs hp => List.mem_append_left _ (hstill s hs hp)⟩
  untouched := by
    intro c' hc'
    have hc'' : c' ∉ progress.finalByChannel.set c outcome.finalIds := hc'
    rw [Dict.mem_set, not_or] at hc''
    rw [hpatched.others c' hc''.1, h.untouched c' hc''.2]
  keys := by
    intro c' hc'
    have hc'' : c' ∈ progress.finalByChannel.set c outcome.finalIds := hc'
    rcases (Dict.mem_set _ _ _ _).mp hc'' with rfl | hold
    · exact ⟨archiveChannel, List.mem_append_right _ (List.mem_singleton.mpr rfl), htarget⟩
    · obtain ⟨other, hother, hothertarget⟩ := h.keys c' hold
      exact ⟨other, List.mem_append_left _ hother, hothertarget⟩
  past := by
    intro other hother c' hothertarget hc'
    have hc'' : c' ∉ progress.finalByChannel.set c outcome.finalIds := hc'
    rw [Dict.mem_set, not_or] at hc''
    rcases List.mem_append.mp hother with hother | hlast
    · exact h.past other hother c' hothertarget hc''.2
    · rw [List.mem_singleton.mp hlast, htarget] at hothertarget
      exact (hc''.1 (Option.some.inj hothertarget).symm).elim
  details := by
    rw [note_details, h.details, List.filterMap_append, List.append_assoc]
    have hdone : (done.filterMap fun other => (other.target remap).bind fun c' =>
        ((progress.finalByChannel.set c outcome.finalIds).get? c').bind fun left =>
          verdictOn before other c' left) = done.filterMap fun other =>
            (other.target remap).bind fun c' => (progress.finalByChannel.get? c').bind fun left =>
              verdictOn before other c' left := by
      apply List.filterMap_congr
      intro other hother
      cases hothertarget : other.target remap with
      | none => rfl
      | some c' =>
        have hne : c ≠ c' := fun heq => hnew other hother (heq ▸ hothertarget)
        rw [Option.bind_some, Option.bind_some, Dict.get?_set_ne _ _ hne]
    have hlast : ([archiveChannel].filterMap fun other => (other.target remap).bind fun c' =>
        ((progress.finalByChannel.set c outcome.finalIds).get? c').bind fun left =>
          verdictOn before other c' left) =
            (verdictOn before archiveChannel c outcome.finalIds).toList := by
      rw [List.filterMap_cons, htarget, Option.bind_some, Dict.get?_set_self, Option.bind_some]
      cases verdictOn before archiveChannel c outcome.finalIds with
      | none => rfl
      | some detail => rfl
    show _ = details ++ (done.filterMap _ ++ [archiveChannel].filterMap _)
    rw [← hdone, ← hlast]
    rfl

theorem rebindArchived_noted (hfits : Fits before)
    (hdistinct : (archiveChannels.filterMap fun a => a.target remap).Nodup)
    (details : List StreamReattachDetail) (archiveChannel : ArchiveChannel)
    (rest : List ArchiveChannel) (progress : Progress) (w : World)
    (h : ∃ done, archiveChannels = done ++ archiveChannel :: rest ∧
      Noted ledger remap before details done progress w) :
    wp (rebindArchived calmUpstream matcher ledger remap (listStreams calmUpstream none before)
        (currentByChannel (listChannels calmUpstream before)) progress archiveChannel)
      (fun progress' w' => ∃ done, archiveChannels = done ++ rest ∧
        Noted ledger remap before details done progress' w') (fun _ _ => False) w := by
  obtain ⟨done, hall, hnoted⟩ := h
  have hnext : archiveChannels = (done ++ [archiveChannel]) ++ rest := by
    rw [hall, List.append_assoc, List.singleton_append]
  -- Two archived channels never have the same target.
  have hnew : ∀ c, archiveChannel.target remap = some c →
      ∀ other ∈ done, other.target remap ≠ some c := by
    intro c htarget other hother hsame
    rw [hall, List.filterMap_append, List.nodup_append] at hdistinct
    have hleft : c ∈ done.filterMap fun a => a.target remap :=
      List.mem_filterMap.mpr ⟨other, hother, hsame⟩
    have hright : c ∈ (archiveChannel :: rest).filterMap fun a => a.target remap :=
      List.mem_filterMap.mpr ⟨archiveChannel, List.mem_cons_self .., htarget⟩
    exact hdistinct.2.2 c hleft c hright rfl
  have hfresh : ∀ c, archiveChannel.target remap = some c → c ∉ progress.finalByChannel := by
    intro c htarget hmem
    obtain ⟨other, hother, hsame⟩ := hnoted.keys c hmem
    exact hnew c htarget other hother hsame
  unfold rebindArchived
  cases htarget : archiveChannel.target remap with
  | none =>
    refine ⟨done ++ [archiveChannel], hnext, hnoted.skip ledger remap before fun c hc => ?_⟩
    rw [htarget] at hc
    cases hc
  | some c =>
    dsimp only
    rw [get?_current_calm hfits]
    cases hheld : before.held c with
    | none =>
      refine ⟨done ++ [archiveChannel], hnext, hnoted.skip ledger remap before fun c' hc => ?_⟩
      obtain rfl := Option.some.inj (htarget.symm.trans hc)
      exact ⟨hheld, hfresh c htarget⟩
    | some streams =>
      dsimp only
      rw [listStreams_calm hfits, wp_bind]
      apply wp_mono (rebindOneChannel_calm matcher ledger before _ c streams hnoted.streams
        (by rw [hnoted.untouched c (hfresh c htarget), hheld])) _ fun _ _ hf => hf
      rintro outcome w' ⟨hpatched, hnewHeld, hretained⟩
      exact ⟨done ++ [archiveChannel], hnext, hnoted.step ledger remap before htarget
        (by rw [hheld]; rfl) (hnew c htarget) hpatched hnewHeld hretained⟩

end Loop

section Pass

variable (matcher : Matcher) (ledger : RollbackLedger) (remap : IdRemapTable)
  (archiveChannels : List ArchiveChannel) (before : Destination)

/-- Nothing is left to clean up: an unservable stream of a synthetic account is on some channel, and
every synthetic account has a stream. -/
structure Tidy (destination : Destination) : Prop where
  streams : ∀ row ∈ destination.streams.items, urlCanServe row.2.url = false →
    row.2.m3uAccount.any (· ∈ syntheticAccountIds calmUpstream .empty destination) →
      ∃ c streams, destination.held c = some streams ∧ row.1 ∈ streams
  accounts : ∀ a ∈ syntheticAccountIds calmUpstream .empty destination,
    ∃ row ∈ destination.streams.items, row.2.m3uAccount = some a

/-- The redacted addresses of a destination. -/
def redactedStreams (destination : Destination) : List (ℤ × String) :=
  (destination.streams.items.filter fun row => urlIsRedacted row.2.url).map fun row =>
    (row.1, shownName row.2.name)

theorem syntheticAccountIds_calm (destination : Destination) (a : ℤ) :
    a ∈ syntheticAccountIds calmUpstream .empty destination ↔
      destination.accounts.get? a = some customStreamAccountName := by
  have hids : syntheticAccountIds calmUpstream .empty destination =
      (destination.accounts.items.filter fun row =>
        row.2 = customStreamAccountName).map Prod.fst := rfl
  rw [hids, Dict.get?_eq_some]
  constructor
  · intro h
    obtain ⟨row, hrow, rfl⟩ := List.mem_map.mp h
    obtain ⟨hmem, hname⟩ := List.mem_filter.mp hrow
    rw [← of_decide_eq_true hname]
    exact hmem
  · intro h
    exact List.mem_map.mpr ⟨_, List.mem_filter.mpr ⟨h, decide_eq_true rfl⟩, rfl⟩

/-- A live synthetic account is one for every pass. -/
theorem synthetic_of_live {destination : Destination} {a : ℤ}
    (h : destination.accounts.get? a = some customStreamAccountName) :
    a ∈ syntheticAccountIds calmUpstream ledger destination := by
  have hids : syntheticAccountIds calmUpstream ledger destination =
      (ledger.entries.filter fun e => e.entityType = .m3uAccount &&
        e.label = customStreamAccountName).map LedgerEntry.destinationId ++
        syntheticAccountIds calmUpstream .empty destination := rfl
  rw [hids]
  exact List.mem_append_right _ ((syntheticAccountIds_calm destination a).mpr h)

/-- Of two destinations with the same channels, one fits when the other does. -/
theorem channels_length {destination destination' : Destination}
    (h : ∀ c, (destination'.held c).isSome = (destination.held c).isSome) :
    destination'.channels.items.length = destination.channels.items.length := by
  have hkeys : ∀ c, c ∈ destination'.channels.keys ↔ c ∈ destination.channels.keys := by
    intro c
    have hsome : ∀ d : Destination, (d.held c).isSome = (d.channels.get? c).isSome := by
      intro d
      unfold Destination.held
      cases d.channels.get? c <;> rfl
    have hboth := h c
    rw [hsome, hsome, Bool.eq_iff_iff, Dict.isSome_get?, Dict.isSome_get?] at hboth
    exact hboth
  have hperm := (List.perm_ext_iff_of_nodup destination'.channels.nodup_keys
    destination.channels.nodup_keys).mpr hkeys
  have hlength := hperm.length_eq
  rwa [List.length_map, List.length_map] at hlength

theorem mem_of_any {account : Option ℤ} {ids : List ℤ} (h : account.any (· ∈ ids)) :
    ∃ a, account = some a ∧ a ∈ ids := by
  cases account with
  | none => cases h
  | some a => exact ⟨a, rfl, of_decide_eq_true h⟩

/-- What the deletes leave: the streams but those removed, and every channel that was gone over as
it was noted. -/
structure Cleared (progress : Progress) (removed : List ℤ) (destination : Destination) : Prop where
  streams : destination.streams.items = before.streams.items.filter (·.1 ∉ removed)
  touched : ∀ c left, progress.finalByChannel.get? c = some left → destination.held c = some left
  untouched : ∀ c, c ∉ progress.finalByChannel →
    destination.held c = (before.held c).map fun streams => streams.filter (· ∉ removed)

theorem Cleared.get?_streams {progress : Progress} {removed : List ℤ} {destination : Destination}
    (h : Cleared before progress removed destination) {s : ℤ} (hs : s ∉ removed) :
    destination.streams.get? s = before.streams.get? s := by
  have hdict : destination.streams = before.streams.filter fun s _ => s ∉ removed :=
    Dict.ext h.streams
  rw [hdict, Dict.get?_filter]
  cases before.streams.get? s with
  | none => rfl
  | some record => simp [Option.filter, hs]

/-- What was noted of the channels is the verdict on what the deletes left. -/
theorem Cleared.verdicts {progress : Progress} {removed : List ℤ} {destination : Destination}
    {w : World} {details : List StreamReattachDetail} (h : Cleared before progress removed destination)
    (hnoted : Noted ledger remap before details archiveChannels progress w) :
    progress.details = details ++ archiveChannels.filterMap (verdict destination remap) := by
  rw [hnoted.details]
  refine congrArg (details ++ ·) (List.filterMap_congr fun archiveChannel hmem => ?_)
  unfold verdict
  cases htarget : archiveChannel.target remap with
  | none => rfl
  | some c =>
    rw [Option.bind_some, Option.bind_some]
    cases hfinal : progress.finalByChannel.get? c with
    | none =>
      have hc : c ∉ progress.finalByChannel := (Dict.get?_eq_none _ _).mp hfinal
      rw [h.untouched c hc, hnoted.past archiveChannel hmem c htarget hc]
      rfl
    | some left =>
      have hheld := h.touched c left hfinal
      rw [hheld, Option.bind_some, Option.bind_some]
      apply verdictOn_congr
      intro s hs
      obtain ⟨record, hrecord, rfl⟩ := Option.map_eq_some_iff.mp hheld
      have hexists := (destination.bound c record hrecord).2 s hs
      have hkept : s ∉ removed := by
        obtain ⟨row, hrow, rfl⟩ := List.mem_map.mp hexists
        rw [h.streams] at hrow
        exact of_decide_eq_true (List.mem_filter.mp hrow).2
      exact (h.get?_streams before hkept).symm

theorem rebindFromArchive_calm (hfits : Fits before)
    (hdistinct : (archiveChannels.filterMap fun a => a.target remap).Nodup) (report : StreamReport) :
    wp (rebindFromArchive calmUpstream matcher ledger remap archiveChannels report)
      (fun out w' => Fits w'.destination ∧ Tidy w'.destination ∧
        out.2.streamReattachDetails = report.streamReattachDetails ++
          archiveChannels.filterMap (verdict w'.destination remap) ∧
        out.2.streamUrlRedactionDetails = redactedStreams w'.destination)
      (fun _ _ => False) (World.start before) := by
  have hstart : ∃ done, archiveChannels = done ++ archiveChannels ∧ Noted ledger remap before
      report.streamReattachDetails done ⟨[], ∅, .none, report.streamReattachDetails⟩
        (World.start before) := by
    refine ⟨[], rfl, rfl, rfl, ?_, fun _ _ => rfl, ?_, ?_, (List.append_nil _).symm⟩
    · intro c left h
      cases h
    · exact fun c h => (List.not_mem_nil h).elim
    · exact fun a h => (List.not_mem_nil h).elim
  unfold rebindFromArchive
  rw [wp_bind, wp_get, wp_bind]
  apply wp_mono (wp_fold (fun rest progress w => ∃ done, archiveChannels = done ++ rest ∧
    Noted ledger remap before report.streamReattachDetails done progress w) archiveChannels
    (rebindArchived_noted matcher ledger remap archiveChannels before hfits hdistinct
      report.streamReattachDetails) _ _ hstart) _ fun _ _ hf => hf
  rintro progress w₁ ⟨done, hall, hnoted⟩
  rw [List.append_nil] at hall
  subst hall
  rw [wp_bind]
  apply wp_mono (deletes_calm _ Trimmed.start) _ fun _ _ hf => hf
  rintro deletedIds w₂ ⟨htrim₂, hdeleted, -⟩
  rw [wp_bind, wp_get, wp_bind]
  apply wp_mono (deletes_calm _ htrim₂) _ fun _ _ hf => hf
  rintro sweptIds w₃ ⟨htrim₃, hswept, hsweptAll⟩
  rw [List.nil_append] at htrim₂ htrim₃ hsweptAll
  have hcurrent : ∀ c, (currentByChannel (listChannels calmUpstream (World.start before).destination)).get? c =
      before.held c := get?_current_calm hfits
  have hlisted : listStreams calmUpstream none (World.start before).destination =
      before.streams.items := listStreams_calm hfits
  rw [hlisted] at hswept hsweptAll ⊢
  have hbase : w₁.destination.streams = before.streams := hnoted.streams
  -- Nothing a channel was left with is removed.
  have hkept : ∀ c left, progress.finalByChannel.get? c = some left → ∀ s ∈ left,
      s ∉ deletedIds ++ sweptIds := by
    intro c left hleft s hs hgone
    obtain ⟨-, hsome, hstill⟩ := hnoted.touched c left hleft
    rcases List.mem_append.mp hgone with hgone | hgone
    · have hmem := List.mem_dedup.mp ((List.mem_insertionSort _).mp (hdeleted s hgone))
      obtain ⟨howned, hunreferenced⟩ := List.mem_filter.mp hmem
      exact of_decide_eq_true hunreferenced (hstill s hs howned)
    · obtain ⟨row, hrow, rfl⟩ := List.mem_map.mp (hswept s hgone)
      have hsweep := (List.mem_filter.mp hrow).2
      unfold sweepable at hsweep
      have hunreferenced := of_decide_eq_true (Bool.and_eq_true_iff.mp hsweep).2
      obtain ⟨streams, hstreams⟩ := Option.isSome_iff_exists.mp hsome
      refine hunreferenced (List.mem_flatMap.mpr ⟨(c, streams), ?_, ?_⟩)
      · exact (Dict.get?_eq_some _ _ _).mp (by rw [hcurrent, hstreams])
      · rw [hleft]
        exact hs
  have hcleared : ∀ destination : Destination, destination.streams = w₃.destination.streams →
      (∀ c, destination.held c = w₃.destination.held c) →
        Cleared before progress (deletedIds ++ sweptIds) destination := by
    intro destination hstreams hheld
    refine ⟨?_, ?_, ?_⟩
    · rw [hstreams, htrim₃.streams, hbase]
    · intro c left hleft
      rw [hheld, htrim₃.held, (hnoted.touched c left hleft).1]
      refine congrArg some (List.filter_eq_self.mpr fun s hs => ?_)
      exact decide_eq_true (hkept c left hleft s hs)
    · intro c hc
      rw [hheld, htrim₃.held, hnoted.untouched c hc]
  have hempty : ∀ a ∈ syntheticAccountIds calmUpstream ledger w₂.destination,
      a ∉ occupiedAccounts before.streams.items (deletedIds ++ sweptIds) → ∀ s record,
        w₃.destination.streams.get? s = some record → record.m3uAccount ≠ some a := by
    intro a _ hfree s record hs haccount
    apply hfree
    have hitem := (Dict.get?_eq_some _ _ _).mp hs
    rw [htrim₃.streams, hbase] at hitem
    exact List.mem_filterMap.mpr ⟨(s, record), hitem, haccount⟩
  rw [wp_bind]
  apply wp_mono (dropEmptySyntheticAccount_calm _ _ _ hempty) _ fun _ _ hf => hf
  rintro _ w₄ ⟨dropped, hemptied, hdropped⟩
  have hclear := hcleared w₄.destination hemptied.streams hemptied.held
  have hlive : ∀ a ∈ syntheticAccountIds calmUpstream .empty w₄.destination,
      a ∈ syntheticAccountIds calmUpstream ledger w₂.destination ∧ a ∉ dropped := by
    intro a ha
    obtain ⟨hthere, hundropped⟩ :=
      hemptied.accounts a _ ((syntheticAccountIds_calm w₄.destination a).mp ha)
    rw [htrim₃.accounts, ← htrim₂.accounts] at hthere
    exact ⟨synthetic_of_live ledger hthere, hundropped⟩
  refine ⟨⟨?_, ?_⟩, ⟨?_, ?_⟩, ?_, ?_⟩
  · rw [hclear.streams]
    exact (List.length_filter_le _ _).trans hfits.streams
  · rw [channels_length]
    · exact hfits.channels
    · intro c
      by_cases hc : c ∈ progress.finalByChannel
      · obtain ⟨left, hleft⟩ := Dict.exists_get? hc
        rw [hclear.touched c left hleft, (hnoted.touched c left hleft).2.1]
        rfl
      · rw [hclear.untouched c hc, Option.isSome_map]
  · intro row hrow hdead hsynthetic
    rw [hclear.streams] at hrow
    obtain ⟨hmem, hkeptRow⟩ := List.mem_filter.mp hrow
    have hnot : row.1 ∉ deletedIds ++ sweptIds := of_decide_eq_true hkeptRow
    obtain ⟨a, haccount, ha⟩ := mem_of_any hsynthetic
    have hreferenced : row.1 ∈ referencedIds (currentByChannel
        (listChannels calmUpstream (World.start before).destination)) progress.finalByChannel := by
      by_contra hunreferenced
      apply hnot
      apply hsweptAll row.1 _ (by rw [hbase]; exact List.mem_map_of_mem hmem)
      refine List.mem_map_of_mem (List.mem_filter.mpr ⟨hmem, ?_⟩)
      have hundeleted : row.1 ∉ deletedIds := fun h => hnot (List.mem_append_left _ h)
      unfold sweepable
      rw [decide_eq_true hundeleted, hdead, haccount, decide_eq_true hunreferenced]
      simpa using (hlive a ha).1
    obtain ⟨⟨c, streams⟩, hitem, hin⟩ := List.mem_flatMap.mp hreferenced
    have hheld : before.held c = some streams := by
      rw [← hcurrent]
      exact (Dict.get?_eq_some _ _ _).mpr hitem
    cases hfinal : progress.finalByChannel.get? c with
    | none =>
      have hc : c ∉ progress.finalByChannel := (Dict.get?_eq_none _ _).mp hfinal
      rw [hfinal] at hin
      refine ⟨c, streams.filter (· ∉ deletedIds ++ sweptIds), ?_, ?_⟩
      · rw [hclear.untouched c hc, hheld]
        rfl
      · exact List.mem_filter.mpr ⟨hin, decide_eq_true hnot⟩
    | some left =>
      rw [hfinal] at hin
      exact ⟨c, left, hclear.touched c left hfinal, hin⟩
  · intro a ha
    obtain ⟨hsynthetic, hundropped⟩ := hlive a ha
    have hoccupied : a ∈ occupiedAccounts before.streams.items (deletedIds ++ sweptIds) := by
      by_contra hfree
      exact hundropped (hdropped a hsynthetic hfree)
    obtain ⟨row, hrow, haccount⟩ := List.mem_filterMap.mp hoccupied
    refine ⟨row, ?_, haccount⟩
    rw [hclear.streams]
    exact hrow
  · exact hclear.verdicts ledger remap archiveChannels before hnoted
  · unfold redactedStreams
    rw [hclear.streams, List.filter_filter]
    refine congrArg (List.map _) (List.filter_congr fun row _ => ?_)
    rw [Bool.and_comm]

/-- A pass that has nothing of its own over a destination that is tidy changes nothing. -/
theorem rebindFromArchive_quiet (hfits : Fits before) (htidy : Tidy before)
    (report : StreamReport) :
    wp (rebindFromArchive calmUpstream matcher .empty remap archiveChannels report)
      (fun out w' => w' = World.start before ∧ out.1.rebound = 0) (fun _ _ => False)
      (World.start before) := by
  have hcurrent : ∀ c, (currentByChannel (listChannels calmUpstream before)).get? c =
      before.held c := get?_current_calm hfits
  have hstep : ∀ (archiveChannel : ArchiveChannel) (rest : List ArchiveChannel)
      (progress : Progress) (w : World), (w = World.start before ∧ progress.result.rebound = 0 ∧
        ∀ c left, progress.finalByChannel.get? c = some left → before.held c = some left) →
      wp (rebindArchived calmUpstream matcher .empty remap (listStreams calmUpstream none before)
          (currentByChannel (listChannels calmUpstream before)) progress archiveChannel)
        (fun progress' w' => w' = World.start before ∧ progress'.result.rebound = 0 ∧
          ∀ c left, progress'.finalByChannel.get? c = some left → before.held c = some left)
        (fun _ _ => False) w := by
    intro archiveChannel rest progress w hquiet
    unfold rebindArchived
    cases archiveChannel.target remap with
    | none => exact hquiet
    | some c =>
      dsimp only
      rw [hcurrent]
      cases hheld : before.held c with
      | none => exact hquiet
      | some streams =>
        obtain ⟨hw, hrebound, hfinal⟩ := hquiet
        have hslots := rebindSlots_real matcher [] (archiveChannel.standsFor remap)
          (candidateStreams [] (listStreams calmUpstream none before))
          (streams.filter (· ∉ ([] : List ℤ))) streams fun _ _ => List.not_mem_nil
        dsimp only
        rw [wp_bind]
        unfold rebindOneChannel
        apply (wp_ite _ _ _).mpr
        refine ⟨fun _ => ⟨hw, hrebound, ?_⟩, fun h => (h (congrArg Slots.rebound hslots)).elim⟩
        intro c' left hleft
        have hleft' : (progress.finalByChannel.set c (rebindSlots matcher []
            (archiveChannel.standsFor remap) (candidateStreams []
              (listStreams calmUpstream none before)) (streams.filter (· ∉ ([] : List ℤ)))
              streams).orderedIds).get? c' = some left := hleft
        rw [hslots, Dict.get?_set] at hleft'
        split at hleft'
        next heq =>
          rw [← heq, hheld]
          exact hleft'
        next => exact hfinal c' left hleft'
  unfold rebindFromArchive
  rw [wp_bind, wp_get, wp_bind]
  apply wp_mono (wp_fold (fun _ progress w => w = World.start before ∧
    progress.result.rebound = 0 ∧ ∀ c left, progress.finalByChannel.get? c = some left →
      before.held c = some left) archiveChannels hstep _ _ ⟨rfl, rfl, fun c left h => by cases h⟩) _
    fun _ _ hf => hf
  rintro progress w ⟨rfl, hrebound, hfinal⟩
  have hlisted : listStreams calmUpstream none (World.start before).destination =
      before.streams.items := listStreams_calm hfits
  have hsweep : (before.streams.items.filter (sweepable (referencedIds (currentByChannel
      (listChannels calmUpstream before)) progress.finalByChannel) []
        (syntheticAccountIds calmUpstream .empty before))).map Prod.fst = [] := by
    rw [List.map_eq_nil_iff, List.filter_eq_nil_iff]
    intro row hrow hsweep
    unfold sweepable at hsweep
    simp only [Bool.and_eq_true, decide_eq_true_eq, Bool.not_eq_true'] at hsweep
    obtain ⟨⟨⟨-, hdead⟩, hsynthetic⟩, hfree⟩ := hsweep
    obtain ⟨c, streams, hheld, hmem⟩ := htidy.streams row hrow hdead hsynthetic
    refine hfree (List.mem_flatMap.mpr ⟨(c, streams), ?_, ?_⟩)
    · exact (Dict.get?_eq_some _ _ _).mp (by rw [hcurrent, hheld])
    · cases hleft : progress.finalByChannel.get? c with
      | none => exact hmem
      | some left =>
        obtain rfl := Option.some.inj ((hfinal c left hleft).symm.trans hheld)
        exact hmem
  have hoccupied : ((syntheticAccountIds calmUpstream .empty before).dedup.insertionSort
      (· ≤ ·)).filter (· ∉ occupiedAccounts before.streams.items []) = [] := by
    rw [List.filter_eq_nil_iff]
    intro a ha hfree
    have hsynthetic := List.mem_dedup.mp ((List.mem_insertionSort _).mp ha)
    obtain ⟨row, hrow, haccount⟩ := htidy.accounts a hsynthetic
    refine of_decide_eq_true hfree (List.mem_filterMap.mpr ⟨row, ?_, haccount⟩)
    exact List.mem_filter.mpr ⟨hrow, decide_eq_true List.not_mem_nil⟩
  have hsweeps : ∀ w, wp (sweepOrphanedPlaceholders calmUpstream before.streams.items
      (referencedIds (currentByChannel (listChannels calmUpstream before)) progress.finalByChannel)
      [] (syntheticAccountIds calmUpstream .empty before))
      (fun sweptIds w' => sweptIds = [] ∧ w' = w) (fun _ _ => False) w := by
    intro w
    unfold sweepOrphanedPlaceholders
    rw [hsweep]
    exact ⟨rfl, rfl⟩
  have hdrops : ∀ w, wp (dropEmptySyntheticAccount calmUpstream before.streams.items []
      (syntheticAccountIds calmUpstream .empty before)) (fun _ w' => w' = w) (fun _ _ => False)
      w := by
    intro w
    unfold dropEmptySyntheticAccount
    rw [hoccupied]
    exact rfl
  have horphans : ∀ w, wp (fold (deleteAndNote calmUpstream) []
      (((RollbackLedger.empty.ledgeredIds .stream).filter
        (· ∉ progress.stillReferenced)).dedup.insertionSort (· ≤ ·)))
      (fun deletedIds w' => deletedIds = [] ∧ w' = w) (fun _ _ => False) w := fun _ => ⟨rfl, rfl⟩
  rw [wp_bind]
  apply wp_mono (horphans (World.start before)) _ fun _ _ hf => hf
  rintro _ w ⟨rfl, rfl⟩
  rw [wp_bind, wp_get, wp_bind, hlisted]
  apply wp_mono (hsweeps (World.start before)) _ fun _ _ hf => hf
  rintro _ w ⟨rfl, rfl⟩
  rw [wp_bind]
  apply wp_mono (hdrops (World.start before)) _ fun _ _ hf => hf
  rintro _ w rfl
  exact ⟨rfl, hrebound⟩

/-- With every call going through and the listings coming back whole, what is recorded is the
verdict on the destination the pass leaves, and a second pass over that with an empty ledger writes
nothing and reports the same. -/
theorem verdict_of_destination (hfits : Fits before)
    (hdistinct : (archiveChannels.filterMap fun a => a.target remap).Nodup) (report : StreamReport) :
    ∃ result reported after,
      rebindFromArchive calmUpstream matcher ledger remap archiveChannels report
        (World.start before) = (.ok (result, reported), after) ∧
      reported.streamReattachDetails = report.streamReattachDetails ++
        archiveChannels.filterMap (verdict after.destination remap) ∧
      ∀ report', ∃ result' reported',
        rebindFromArchive calmUpstream matcher .empty remap archiveChannels report'
          (World.start after.destination) =
            (.ok (result', reported'), World.start after.destination) ∧
        result'.rebound = 0 ∧
        reported'.streamReattachDetails = report'.streamReattachDetails ++
          archiveChannels.filterMap (verdict after.destination remap) ∧
        reported'.streamUrlRedactionDetails = reported.streamUrlRedactionDetails := by
  obtain ⟨⟨result, reported⟩, after, hrun, hfits', htidy, hdetails, hredacted⟩ := wp_returns
    (rebindFromArchive_calm matcher ledger remap archiveChannels before hfits hdistinct report)
  refine ⟨result, reported, after, hrun, hdetails, fun report' => ?_⟩
  have hsecond := wp_and
    (rebindFromArchive_calm matcher .empty remap archiveChannels after.destination hfits' hdistinct
      report')
    (rebindFromArchive_quiet matcher remap archiveChannels after.destination hfits' htidy report')
  obtain ⟨⟨result', reported'⟩, after', hrun', ⟨-, -, hdetails', hredacted'⟩, rfl, hrebound⟩ :=
    wp_returns (wp_mono hsecond (fun _ _ h => h) fun _ _ hf => hf.1)
  exact ⟨result', reported', hrun', hrebound, hdetails', hredacted'.trans hredacted.symm⟩

end Pass

theorem verdict_of_destination_stranded :
    ∃ result reported after,
      rebindFromArchive calmUpstream matchByName strandedLedger strandedRemap strandedArchive
        ⟨0, [], [], []⟩ (World.start stranded) = (.ok (result, reported), after) ∧
      reported.streamReattachDetails =
        [] ++ strandedArchive.filterMap (verdict after.destination strandedRemap) ∧
      ∀ report', ∃ result' reported',
        rebindFromArchive calmUpstream matchByName .empty strandedRemap strandedArchive report'
          (World.start after.destination) =
            (.ok (result', reported'), World.start after.destination) ∧
        result'.rebound = 0 ∧
        reported'.streamReattachDetails = report'.streamReattachDetails ++
          strandedArchive.filterMap (verdict after.destination strandedRemap) ∧
        reported'.streamUrlRedactionDetails = reported.streamUrlRedactionDetails :=
  verdict_of_destination matchByName strandedLedger strandedRemap strandedArchive stranded
    ⟨by decide, by decide⟩ (by decide +kernel) ⟨0, [], [], []⟩

section Crowded

/-- A pass whose archive leads to no listed channel, on a destination without accounts, changes and
records nothing. -/
theorem rebindFromArchive_blind (matcher : Matcher) (remap : IdRemapTable)
    (archiveChannels : List ArchiveChannel) (before : Destination) (report : StreamReport)
    (hnone : ∀ archiveChannel ∈ archiveChannels, ∀ c, archiveChannel.target remap = some c →
      c ∉ currentByChannel (listChannels calmUpstream before))
    (haccounts : before.accounts = ∅) :
    wp (rebindFromArchive calmUpstream matcher .empty remap archiveChannels report)
      (fun out w' => w' = World.start before ∧
        out.2.streamReattachDetails = report.streamReattachDetails) (fun _ _ => False)
      (World.start before) := by
  have hstep : ∀ (archiveChannel : ArchiveChannel) (rest : List ArchiveChannel)
      (progress : Progress) (w : World), (w = World.start before ∧
        progress.details = report.streamReattachDetails ∧
        ∀ next ∈ archiveChannel :: rest, next ∈ archiveChannels) →
      wp (rebindArchived calmUpstream matcher .empty remap (listStreams calmUpstream none before)
          (currentByChannel (listChannels calmUpstream before)) progress archiveChannel)
        (fun progress' w' => w' = World.start before ∧
          progress'.details = report.streamReattachDetails ∧
          ∀ next ∈ rest, next ∈ archiveChannels) (fun _ _ => False) w := by
    rintro archiveChannel rest progress w ⟨hw, hdetails, hrest⟩
    have hdone : w = World.start before ∧ progress.details = report.streamReattachDetails ∧
        ∀ next ∈ rest, next ∈ archiveChannels :=
      ⟨hw, hdetails, fun next hnext => hrest next (List.mem_cons_of_mem _ hnext)⟩
    unfold rebindArchived
    cases htarget : archiveChannel.target remap with
    | none => exact hdone
    | some c =>
      have hc := hnone archiveChannel (hrest archiveChannel (List.mem_cons_self ..)) c htarget
      dsimp only
      rw [(Dict.get?_eq_none _ _).mpr hc]
      exact hdone
  unfold rebindFromArchive
  rw [wp_bind, wp_get, wp_bind]
  apply wp_mono (wp_fold (fun rest progress w => w = World.start before ∧
    progress.details = report.streamReattachDetails ∧ ∀ next ∈ rest, next ∈ archiveChannels)
    archiveChannels hstep _ _ ⟨rfl, rfl, fun _ h => h⟩) _ fun _ _ hf => hf
  rintro progress w ⟨rfl, hdetails, -⟩
  have hsynthetic : syntheticAccountIds calmUpstream .empty before = [] := by
    show ((before.accounts.items).filter _).map _ = []
    rw [haccounts]
    rfl
  have horphans : ∀ w, wp (fold (deleteAndNote calmUpstream) []
      (((RollbackLedger.empty.ledgeredIds .stream).filter
        (· ∉ progress.stillReferenced)).dedup.insertionSort (· ≤ ·)))
      (fun deletedIds w' => deletedIds = [] ∧ w' = w) (fun _ _ => False) w := fun _ => ⟨rfl, rfl⟩
  have hsweeps : ∀ allStreams referenced w, wp (sweepOrphanedPlaceholders calmUpstream allStreams
      referenced [] []) (fun sweptIds w' => w' = w) (fun _ _ => False) w := by
    intro allStreams referenced w
    have hnothing : allStreams.filter (sweepable referenced [] []) = [] := by
      rw [List.filter_eq_nil_iff]
      intro row _ hsweep
      unfold sweepable at hsweep
      cases haccount : row.2.m3uAccount <;> simp [haccount] at hsweep
    unfold sweepOrphanedPlaceholders
    rw [hnothing]
    exact rfl
  rw [wp_bind]
  apply wp_mono (horphans (World.start before)) _ fun _ _ hf => hf
  rintro _ w ⟨rfl, rfl⟩
  rw [wp_bind, wp_get]
  show wp (do let sweptIds ← sweepOrphanedPlaceholders calmUpstream _ _ [] (syntheticAccountIds
    calmUpstream .empty before); _) _ _ _
  rw [hsynthetic, wp_bind]
  apply wp_mono (hsweeps _ _ (World.start before)) _ fun _ _ hf => hf
  rintro sweptIds w rfl
  have hdrops : wp (dropEmptySyntheticAccount calmUpstream (listStreams calmUpstream none before)
      ([] ++ sweptIds) (syntheticAccountIds calmUpstream .empty before))
      (fun _ w' => w' = World.start before) (fun _ _ => False) (World.start before) := by
    rw [hsynthetic]
    exact rfl
  rw [wp_bind]
  apply wp_mono hdrops _ fun _ _ hf => hf
  rintro _ w rfl
  exact ⟨rfl, hdetails⟩

/-- A channel more than `n`, each on a stream without an address. -/
def crowd (n : ℕ) : Destination where
  accounts := ∅
  streams := Dict.ofList [(7, ⟨"News", none, none⟩)]
  channels :=
    { items := (List.range (n + 1)).map fun i : ℕ => ((i : ℤ), ⟨"News", [7]⟩)
      nodup_keys := by
        rw [List.map_map]
        exact List.nodup_range.map fun _ _ h => Int.ofNat.inj h }
  bound := by
    intro c record h
    obtain ⟨i, -, heq⟩ := List.mem_map.mp ((Dict.get?_eq_some _ _ _).mp h)
    cases heq
    decide

theorem channels_crowd (n : ℕ) :
    (crowd n).channels.items = (List.range (n + 1)).map fun i : ℕ => ((i : ℤ), ⟨"News", [7]⟩) := rfl

theorem held_crowd {n i : ℕ} (h : i ≤ n) : (crowd n).held i = some [7] := by
  have hget : (crowd n).channels.get? i = some ⟨"News", [7]⟩ :=
    (Dict.get?_eq_some _ _ _).mpr
      (List.mem_map.mpr ⟨i, List.mem_range.mpr (by omega), rfl⟩)
  rw [Destination.held, hget]
  rfl

/-- A listing of the crowd that breaks off at `n` rows lacks the last channel. -/
theorem last_not_listed {n : ℕ} (hn : maxPages * streamPageSize = n) :
    (n : ℤ) ∉ currentByChannel (listChannels calmUpstream (crowd n)) := by
  intro hlisted
  obtain ⟨streams, hget⟩ := Dict.exists_get? hlisted
  have hitems := (Dict.get?_eq_some _ _ _).mp hget
  have hlist : listChannels calmUpstream (crowd n) =
      (List.range n).map fun i : ℕ => ((i : ℤ), ⟨"News", [7]⟩) := by
    unfold listChannels calmUpstream
    rw [fetchAll_calm, hn, channels_crowd, ← List.map_take, List.take_range, Nat.min_eq_left]
    omega
  rw [hlist, currentByChannel, Dict.items_ofList] at hitems
  · rw [List.map_map] at hitems
    obtain ⟨i, hi, heq⟩ := List.mem_map.mp hitems
    have hlt := List.mem_range.mp hi
    have hkey : (i : ℤ) = n := congrArg Prod.fst heq
    omega
  · rw [List.map_map, List.map_map]
    exact List.nodup_range.map fun _ _ h => Int.ofNat.inj h

/-- The archived channel is the last of them. -/
def crowdRemap (n : ℕ) : IdRemapTable := IdRemapTable.empty.add .channel 10 n

def crowdArchive : List ArchiveChannel := [⟨some 10, "News", []⟩]

theorem target_crowd (n : ℕ) {archiveChannel : ArchiveChannel} (hmem : archiveChannel ∈ crowdArchive) :
    archiveChannel.target (crowdRemap n) = some (n : ℤ) := by
  rw [crowdArchive, List.mem_singleton] at hmem
  subst hmem
  rfl

/-- The channel beyond the two hundred pages holds a stream that cannot serve and is not
recorded. -/
theorem channel_beyond_the_pages :
    ¬∃ result reported after,
      rebindFromArchive calmUpstream matchByName .empty (crowdRemap (maxPages * streamPageSize))
        crowdArchive ⟨0, [], [], []⟩ (World.start (crowd (maxPages * streamPageSize))) =
          (.ok (result, reported), after) ∧
      reported.streamReattachDetails =
        crowdArchive.filterMap
          (verdict after.destination (crowdRemap (maxPages * streamPageSize))) := by
  generalize hn : maxPages * streamPageSize = n
  have hnone : ∀ archiveChannel ∈ crowdArchive, ∀ c,
      archiveChannel.target (crowdRemap n) = some c →
        c ∉ currentByChannel (listChannels calmUpstream (crowd n)) := by
    intro archiveChannel hmem c htarget
    obtain rfl : (n : ℤ) = c := Option.some.inj ((target_crowd n hmem).symm.trans htarget)
    exact last_not_listed hn
  have hone : verdict (crowd n) (crowdRemap n) ⟨some 10, "News", []⟩ ≠ none := by
    have hheld : (crowd n).held (n : ℤ) = some [7] := held_crowd le_rfl
    have htarget : ArchiveChannel.target (crowdRemap n) ⟨some 10, "News", []⟩ = some (n : ℤ) := rfl
    have hsilent : [7].filter (fun s => !(crowd n).serves s) = [7] := rfl
    unfold verdict
    rw [htarget, Option.bind_some, hheld, Option.bind_some]
    unfold verdictOn
    dsimp only
    rw [hsilent, if_pos (Or.inl (List.cons_ne_nil _ _))]
    exact Option.some_ne_none _
  rintro ⟨result, reported, after, hrun, hdetails⟩
  obtain ⟨rfl, hnothing⟩ := wp_exec
    (rebindFromArchive_blind matchByName (crowdRemap n) crowdArchive (crowd n) ⟨0, [], [], []⟩
      hnone rfl) hrun
  rw [hnothing] at hdetails
  have hnot := List.filterMap_eq_nil_iff.mp hdetails.symm _ (List.mem_singleton.mpr rfl)
  exact hone hnot

end Crowded

end ChannelManager.Dbas
