import ChannelManager.Dbas.RebindSafety

/-!
# The two rebind passes cut nothing

Both passes go over channels, then delete what no channel they know of holds. What they cut depends
on what they see alone.
-/

namespace ChannelManager.Dbas

open Eff

section Archive

variable (upstream : Upstream) (matcher : Matcher) (ledger : RollbackLedger) (remap : IdRemapTable)
  (archiveChannels : List ArchiveChannel) (before : Destination)

/-- What the archive-driven pass goes by. -/
def archiveSight : Sight where
  streams := listStreams upstream none before
  current := currentByChannel (listChannels upstream before)
  placeholders := ledger.ledgeredIds .stream
  owned := ledger.ledgeredIds .stream
  syntheticIds := syntheticAccountIds upstream ledger before
  plans c := (archiveChannels.filter fun archiveChannel =>
    archiveChannel.target remap = some c).map fun archiveChannel => archiveChannel.standsFor remap

theorem archiveSight_truthful :
    Truthful (archiveSight upstream ledger remap archiveChannels before) before where
  current _ _ h := current_listed upstream before h
  streams _ h := streams_listed upstream before h

/-- The loop over the archive, and every archived channel it is past. -/
def ArchiveLoop (rest : List ArchiveChannel) (progress : Progress) (w : World) : Prop :=
  Rebound (archiveSight upstream ledger remap archiveChannels before) matcher before
      progress.finalByChannel progress.stillReferenced w ∧
    (∀ archiveChannel ∈ rest, archiveChannel ∈ archiveChannels) ∧
    ∀ archiveChannel ∈ archiveChannels, archiveChannel ∈ rest ∨
      ∀ c, archiveChannel.target remap = some c →
        c ∈ (archiveSight upstream ledger remap archiveChannels before).current →
          c ∈ progress.finalByChannel

theorem rebindArchived_step (archiveChannel : ArchiveChannel) (rest : List ArchiveChannel)
    (progress : Progress) (w : World)
    (h : ArchiveLoop upstream matcher ledger remap archiveChannels before (archiveChannel :: rest)
      progress w) :
    wp (rebindArchived upstream matcher ledger remap (listStreams upstream none before)
        (currentByChannel (listChannels upstream before)) progress archiveChannel)
      (ArchiveLoop upstream matcher ledger remap archiveChannels before rest) (fun _ _ => False)
      w := by
  obtain ⟨hrebound, hrest, hdone⟩ := h
  have hrest' : ∀ next ∈ rest, next ∈ archiveChannels :=
    fun next hnext => hrest next (List.mem_cons_of_mem _ hnext)
  -- An archived channel without a listed destination channel is passed over.
  have hskip : (∀ c, archiveChannel.target remap = some c →
      c ∉ (archiveSight upstream ledger remap archiveChannels before).current) →
      ArchiveLoop upstream matcher ledger remap archiveChannels before rest progress w := by
    intro hnone
    refine ⟨hrebound, hrest', ?_⟩
    intro other hother
    rcases hdone other hother with hmem | hpast
    · rcases List.mem_cons.mp hmem with rfl | hlater
      · exact .inr fun c hc hlisted => (hnone c hc hlisted).elim
      · exact .inl hlater
    · exact .inr hpast
  unfold rebindArchived
  cases htarget : archiveChannel.target remap with
  | none => exact hskip fun c hc => by rw [htarget] at hc; cases hc
  | some channelId =>
    cases hcurrent : (currentByChannel (listChannels upstream before)).get? channelId with
    | none =>
      dsimp only
      rw [hcurrent]
      apply hskip
      intro c hc
      rw [htarget] at hc
      obtain rfl := Option.some.inj hc
      exact (Dict.get?_eq_none _ _).mp hcurrent
    | some streams =>
      have hplan : archiveChannel.standsFor remap ∈
          (archiveSight upstream ledger remap archiveChannels before).plans channelId :=
        List.mem_map_of_mem (List.mem_filter.mpr
          ⟨hrest archiveChannel (List.mem_cons_self ..), decide_eq_true htarget⟩)
      have hone : ∀ w, wp (rebindOneChannel matcher (ledger.ledgeredIds .stream)
          (archiveChannel.standsFor remap) (candidateStreams (ledger.ledgeredIds .stream)
            (listStreams upstream none before)) upstream channelId streams)
          (fun outcome w' => Settles (archiveSight upstream ledger remap archiveChannels before)
            matcher (archiveChannel.standsFor remap) channelId streams outcome w w')
          (fun _ _ => False) w :=
        fun w => rebindOneChannel_settles upstream
          (archiveSight upstream ledger remap archiveChannels before)
          (archiveChannel.standsFor remap) channelId streams
      dsimp only
      rw [hcurrent, wp_bind]
      apply wp_mono (hone w) _ fun _ _ hf => hf
      intro outcome w' hone
      refine ⟨hrebound.step (archiveSight_truthful ..).current hcurrent hplan hone, hrest', ?_⟩
      intro other hother
      rcases hdone other hother with hmem | hpast
      · rcases List.mem_cons.mp hmem with rfl | hlater
        · refine .inr fun c hc _ => ?_
          rw [htarget] at hc
          obtain rfl := Option.some.inj hc
          exact (Dict.mem_set _ _ _ _).mpr (.inl rfl)
        · exact .inl hlater
      · exact .inr fun c hc hlisted => (Dict.mem_set _ _ _ _).mpr (.inr (hpast c hc hlisted))

/-- What is left after the loops: deletes that cut nothing. -/
theorem cleanup_uncut {α : Type} {sight : Sight} {matcher : Matcher} {before : Destination}
    {final : Dict ℤ (List ℤ)} {still deletedIds : List ℤ} {w w' : World} (upstream : Upstream)
    (h : Rebound sight matcher before final still w) (hcovers : sight.Covers matcher before)
    (hsight : Truthful sight before) (howned : ∀ s ∈ sight.owned, s ∈ sight.placeholders)
    (hdone : ∀ s ∈ sight.owned, ∀ c, sight.Covered c → c ∈ final) (hclean : Cleaned w.destination deletedIds w')
    (hdeleted : ∀ s ∈ deletedIds, s ∈ sight.owned ∧ s ∉ still) (report : List ℤ → Bool → α) :
    wp (do
        let sweptIds ← sweepOrphanedPlaceholders upstream sight.streams
          (referencedIds sight.current final) deletedIds sight.syntheticIds
        let accountDeleted ← dropEmptySyntheticAccount upstream sight.streams
          (deletedIds ++ sweptIds) sight.syntheticIds
        pure (report sweptIds accountDeleted))
      (fun _ => Uncut before) (fun _ _ => False) w' := by
  have hfree : ∀ s ∈ (sight.streams.filter (sweepable (referencedIds sight.current final)
      deletedIds sight.syntheticIds)).map Prod.fst, ∀ c streams,
      w.destination.held c = some streams → s ∉ streams := by
    intro s hs
    obtain ⟨row, hrow, rfl⟩ := List.mem_map.mp hs
    obtain ⟨hmem, hsweep⟩ := List.mem_filter.mp hrow
    exact h.sweep_free hcovers hsight hmem hsweep
  rw [wp_bind]
  apply wp_mono (deletes_cleaned upstream _ hclean hfree) _ fun _ _ hf => hf
  rintro sweptIds w₁ ⟨hclean₁, -, hswept⟩
  have hcondemned : ∀ s ∈ deletedIds ++ sweptIds, Condemned sight final still deletedIds s := by
    intro s hs
    rcases List.mem_append.mp hs with hs | hs
    · exact .inl (hdeleted s hs)
    · obtain ⟨row, hrow, heq⟩ := List.mem_map.mp (hswept s hs)
      obtain ⟨hmem, hsweep⟩ := List.mem_filter.mp hrow
      exact .inr ⟨row, hmem, heq, hsweep⟩
  have hempty : ∀ a ∈ sight.syntheticIds,
      a ∉ occupiedAccounts sight.streams (deletedIds ++ sweptIds) → ∀ s record,
        w.destination.streams.get? s = some record → s ∉ deletedIds ++ sweptIds →
          record.m3uAccount ≠ some a := by
    intro a ha hunoccupied s record hs hgone
    rw [h.streams] at hs
    exact h.account_empty hcovers hsight howned hdone hcondemned ha hunoccupied s record hs hgone
  rw [wp_bind]
  apply wp_mono (dropEmptySyntheticAccount_cleaned upstream sight.streams _ _ hclean₁ hempty) _
    fun _ _ hf => hf
  exact fun _ _ hclean₂ => h.uncut hsight hclean₂

theorem rebindFromArchive_uncut (report : StreamReport)
    (hcovers : (archiveSight upstream ledger remap archiveChannels before).Covers matcher before) :
    wp (rebindFromArchive upstream matcher ledger remap archiveChannels report)
      (fun _ => Uncut before) (fun _ _ => False) (World.start before) := by
  have hsight := archiveSight_truthful upstream ledger remap archiveChannels before
  have hstart : ArchiveLoop upstream matcher ledger remap archiveChannels before archiveChannels
      ⟨[], ∅, .none, report.streamReattachDetails⟩ (World.start before) :=
    ⟨Rebound.start before, fun _ h => h, fun _ h => .inl h⟩
  unfold rebindFromArchive
  rw [wp_bind, wp_get, wp_bind]
  apply wp_mono (wp_fold _ archiveChannels
    (rebindArchived_step upstream matcher ledger remap archiveChannels before) _ _ hstart) _
    fun _ _ hf => hf
  rintro progress w ⟨hrebound, -, hpast⟩
  have hdone : ∀ c, (archiveSight upstream ledger remap archiveChannels before).Covered c →
      c ∈ progress.finalByChannel := by
    rintro c ⟨hlisted, hplans⟩
    obtain ⟨_, hplan⟩ := List.exists_mem_of_ne_nil _ hplans
    obtain ⟨archiveChannel, hmem, -⟩ := List.mem_map.mp hplan
    obtain ⟨harchived, htarget⟩ := List.mem_filter.mp hmem
    rcases hpast archiveChannel harchived with h | h
    · exact (List.not_mem_nil h).elim
    · exact h c (of_decide_eq_true htarget) hlisted
  have horphaned : ∀ s ∈ ((ledger.ledgeredIds .stream).filter
      (· ∉ progress.stillReferenced)).dedup.insertionSort (· ≤ ·),
      s ∈ ledger.ledgeredIds .stream ∧ s ∉ progress.stillReferenced := by
    intro s hs
    have hfilter := List.mem_dedup.mp ((List.mem_insertionSort _).mp hs)
    exact ⟨List.mem_of_mem_filter hfilter, of_decide_eq_true (List.mem_filter.mp hfilter).2⟩
  rw [wp_bind]
  apply wp_mono (deletes_cleaned upstream _ (Cleaned.start hrebound.issued) fun s hs =>
    hrebound.orphan_free hcovers (fun _ h => h) (fun _ _ => hdone) (horphaned s hs).1 (horphaned s hs).2) _
    fun _ _ hf => hf
  rintro deletedIds w' ⟨hclean, haccounts, hin⟩
  have hsynthetic : syntheticAccountIds upstream ledger w'.destination =
      (archiveSight upstream ledger remap archiveChannels before).syntheticIds := by
    unfold syntheticAccountIds archiveSight syntheticAccountIds
    rw [haccounts, hrebound.accounts]
  rw [wp_bind, wp_get]
  dsimp only
  rw [hsynthetic]
  exact cleanup_uncut upstream hrebound hcovers hsight (fun _ h => h) (fun _ _ => hdone) hclean
    (fun s hs => horphaned s (hin s hs)) _

end Archive

section Refresh

variable (upstream : Upstream) (matcher : Matcher) (before : Destination)

/-- What the refresh-driven pass goes by. -/
def refreshSight : Sight where
  streams := listStreams upstream none before
  current := currentByChannel (listChannels upstream before)
  placeholders := (leftoverPlaceholders upstream before
    (syntheticAccountIds upstream .empty before)).keys
  owned := []
  syntheticIds := syntheticAccountIds upstream .empty before
  plans _ := [(leftoverPlaceholders upstream before
    (syntheticAccountIds upstream .empty before)).get?]

/-- The refresh-driven pass stops at one of its gates. -/
def GateShut : Prop :=
  (refreshSight upstream before).syntheticIds = [] ∨
    (refreshSight upstream before).placeholders = [] ∨
      (refreshSight upstream before).candidates = []

theorem refreshSight_truthful : Truthful (refreshSight upstream before) before where
  current _ _ h := current_listed upstream before h
  streams _ h := streams_listed upstream before h

/-- The loop over the listed channels, and those without a placeholder it is past. -/
def RefreshLoop (rest : List (ℤ × ChannelRecord)) (progress : Dict ℤ (List ℤ) × RebindResult)
    (w : World) : Prop :=
  (∃ still, Rebound (refreshSight upstream before) matcher before progress.1 still w) ∧
    ∀ row ∈ rest, row ∈ listChannels upstream before

theorem rebindListed_step (row : ℤ × ChannelRecord) (rest : List (ℤ × ChannelRecord))
    (progress : Dict ℤ (List ℤ) × RebindResult) (w : World)
    (h : RefreshLoop upstream matcher before (row :: rest) progress w) :
    wp (rebindListed upstream matcher (leftoverPlaceholders upstream before
          (syntheticAccountIds upstream .empty before)) (refreshSight upstream before).candidates
        progress row)
      (RefreshLoop upstream matcher before rest) (fun _ _ => False) w := by
  obtain ⟨⟨still, hrebound⟩, hrest⟩ := h
  have hrest' : ∀ next ∈ rest, next ∈ listChannels upstream before :=
    fun next hnext => hrest next (List.mem_cons_of_mem _ hnext)
  unfold rebindListed
  apply (wp_ite _ _ _).mpr
  constructor
  · intro _
    rw [wp_bind]
    apply wp_mono (rebindOneChannel_settles upstream (refreshSight upstream before)
      (leftoverPlaceholders upstream before (syntheticAccountIds upstream .empty before)).get?
      row.1 row.2.streams) _ fun _ _ hf => hf
    intro outcome w' hone
    have hcurrent := mem_current upstream before (hrest row (List.mem_cons_self ..))
    exact ⟨⟨_, hrebound.step (refreshSight_truthful upstream before).current hcurrent
      (List.mem_cons_self ..) hone⟩, hrest'⟩
  · exact fun _ => ⟨⟨still, hrebound⟩, hrest'⟩

theorem rebindPlaceholdersAfterRefresh_uncut (inFlight : Bool)
    (hcovers : inFlight = false → ¬GateShut upstream before →
      (refreshSight upstream before).Covers matcher before) :
    wp (rebindPlaceholdersAfterRefresh upstream matcher inFlight)
      (fun _ => Uncut before) (fun _ _ => False) (World.start before) := by
  have hnothing : Uncut before (World.start before) :=
    ⟨fun _ _ h => (List.not_mem_nil h).elim, fun _ streams h => ⟨streams, h, le_rfl⟩⟩
  have hsight := refreshSight_truthful upstream before
  have hstart : RefreshLoop upstream matcher before (listChannels upstream before) (∅, .none)
      (World.start before) :=
    ⟨⟨[], Rebound.start before⟩, fun _ h => h⟩
  unfold rebindPlaceholdersAfterRefresh
  apply (wp_ite _ _ _).mpr
  constructor
  · exact fun _ => hnothing
  · intro hidle
    rw [wp_tryCatch]
    unfold rebindFromLivePlaceholders
    rw [wp_bind, wp_get]
    apply (wp_ite _ _ _).mpr
    constructor
    · exact fun _ => hnothing
    · intro hopen
      have hcovers' := hcovers (by simpa using hidle) hopen
      unfold rebindLeftovers
      rw [wp_bind, wp_get, wp_bind]
      apply wp_mono (wp_fold _ (listChannels upstream before)
        (rebindListed_step upstream matcher before) _ _ hstart) _ fun _ _ hf => hf.elim
      rintro progress w ⟨⟨still, hrebound⟩, -⟩
      exact wp_mono (cleanup_uncut upstream hrebound hcovers' hsight
        (fun _ h => (List.not_mem_nil h).elim) (fun _ h => (List.not_mem_nil h).elim)
        (Cleaned.start hrebound.issued) (fun _ h => (List.not_mem_nil h).elim) _)
        (fun _ _ h => h) fun _ _ hf => hf.elim

end Refresh

/-- A pass that lists everything, and goes over every channel with a stream it deletes as its own,
sees enough. -/
theorem Sight.covers_of_complete {sight : Sight} {before : Destination} (matcher : Matcher)
    (hchannels : ∀ c ∈ before.channels.keys, c ∈ sight.current)
    (hstreams : ∀ row ∈ before.streams.items, row ∈ sight.streams)
    (hplans : ∀ row ∈ before.channels.items, ∀ s ∈ row.2.streams, s ∈ sight.owned →
      sight.plans row.1 ≠ []) : sight.Covers matcher before where
  owned := by
    intro s hs c streams hheld hmem
    obtain ⟨record, hrecord, rfl⟩ := Option.map_eq_some_iff.mp hheld
    have hitem := (Dict.get?_eq_some _ _ _).mp hrecord
    exact .inl ⟨hchannels c (Dict.mem_of_get? hrecord), hplans (c, record) hitem s hmem hs⟩
  residue := by
    intro row _ _ _ c streams hheld _
    obtain ⟨record, hrecord, -⟩ := Option.map_eq_some_iff.mp hheld
    exact .inl (hchannels c (Dict.mem_of_get? hrecord))
  accounts _ _ := .inl fun s record hs _ => hstreams (s, record) ((Dict.get?_eq_some _ _ _).mp hs)

/-- A pass that sees enough, wherever its calls fail, deletes no stream a channel holds and no
account with a stream under it, and leaves every channel its number of streams. -/
theorem rebind_cuts_nothing (upstream : Upstream) (matcher : Matcher) (ledger : RollbackLedger)
    (remap : IdRemapTable) (archiveChannels : List ArchiveChannel) (report : StreamReport)
    (inFlight : Bool) (before : Destination) :
    ((archiveSight upstream ledger remap archiveChannels before).Covers matcher before →
      Uncut before (rebindFromArchive upstream matcher ledger remap archiveChannels report
        (World.start before)).2) ∧
    ((inFlight = false → ¬GateShut upstream before →
        (refreshSight upstream before).Covers matcher before) →
      Uncut before (rebindPlaceholdersAfterRefresh upstream matcher inFlight
        (World.start before)).2) := by
  constructor
  · intro hcovers
    have hrun := rebindFromArchive_uncut upstream matcher ledger remap archiveChannels before report
      hcovers
    exact wp_state (wp_mono hrun (fun _ _ h => h) fun _ _ hf => hf.elim)
  · intro hcovers
    have hrun := rebindPlaceholdersAfterRefresh_uncut upstream matcher before inFlight hcovers
    exact wp_state (wp_mono hrun (fun _ _ h => h) fun _ _ hf => hf.elim)

section Stranded

instance (removal : Removal) (destination : Destination) :
    Decidable (removal.Harmless destination) :=
  match removal with
  | .stream s =>
    decidable_of_iff (∀ row ∈ destination.channels.items, s ∉ row.2.streams) (by
      constructor
      · intro h c streams hheld
        obtain ⟨record, hrecord, rfl⟩ := Option.map_eq_some_iff.mp hheld
        exact h (c, record) ((Dict.get?_eq_some _ _ _).mp hrecord)
      · intro h row hrow
        apply h row.1 row.2.streams
        rw [Destination.held, (Dict.get?_eq_some _ _ row.2).mpr hrow]
        rfl)
  | .account a =>
    decidable_of_iff (∀ row ∈ destination.streams.items, row.2.m3uAccount ≠ some a) (by
      constructor
      · exact fun h s record hs => h (s, record) ((Dict.get?_eq_some _ _ _).mp hs)
      · exact fun h row hrow => h row.1 row.2 ((Dict.get?_eq_some _ _ _).mpr hrow))

/-- A channel on a placeholder, next to the real stream of the same name. -/
def stranded : Destination where
  accounts := Dict.ofList [(3, customStreamAccountName), (4, "Provider")]
  streams := Dict.ofList [(7, ⟨"News", none, some 3⟩), (101, ⟨"Sport", some "http://p/1", some 4⟩)]
  channels := Dict.ofList [(1, ⟨"News", [7]⟩)]
  bound := by
    intro c record h
    have hmem := (Dict.get?_eq_some _ _ _).mp h
    rw [Dict.items_ofList _ (by decide), List.mem_singleton] at hmem
    cases hmem
    decide

/-- The first candidate of the same name. -/
def matchByName : Matcher where
  matchStream archived candidates :=
    (candidates.find? fun row => row.2.name = archived.name).map Prod.fst
  found := by
    intro archived candidates s h
    obtain ⟨row, hrow, rfl⟩ := Option.map_eq_some_iff.mp h
    exact List.mem_map_of_mem (List.mem_of_find?_eq_some hrow)

/-- The restore created the placeholder for the archived stream 70 of the archived channel 10. -/
def strandedLedger : RollbackLedger := RollbackLedger.empty.recordCreated .stream 7 "News"

def strandedRemap : IdRemapTable :=
  (IdRemapTable.empty.add .channel 10 1).add .stream 70 7

def strandedArchive : List ArchiveChannel := [⟨some 10, "News", [(some 70, ⟨"News", none, none⟩)]⟩]

/-- No call raises. -/
def calmUpstream : Upstream := ⟨false, fun _ _ => false, fun _ => false, fun _ => false⟩

theorem rebind_cuts_nothing_stranded :
    Uncut stranded (rebindFromArchive calmUpstream matchByName strandedLedger strandedRemap
        strandedArchive ⟨0, [], [], []⟩ (World.start stranded)).2 ∧
      Uncut stranded (rebindPlaceholdersAfterRefresh calmUpstream matchByName false
        (World.start stranded)).2 := by
  have hrun := rebind_cuts_nothing calmUpstream matchByName strandedLedger strandedRemap
    strandedArchive ⟨0, [], [], []⟩ false stranded
  have hplans : ∀ row ∈ stranded.channels.items, ∀ s ∈ row.2.streams,
      s ∈ (archiveSight calmUpstream strandedLedger strandedRemap strandedArchive stranded).owned →
        (((archiveSight calmUpstream strandedLedger strandedRemap strandedArchive stranded).plans
          row.1).length ≠ 0) := by decide +kernel
  constructor
  · apply hrun.1
    apply Sight.covers_of_complete
    · decide +kernel
    · decide +kernel
    · exact fun row hrow s hs hown h => hplans row hrow s hs hown (by rw [h]; rfl)
  · apply hrun.2
    intro _ _
    apply Sight.covers_of_complete
    · decide +kernel
    · decide +kernel
    · exact fun _ _ _ _ h => (List.not_mem_nil h).elim

/-- The first page of the channel listing raises. -/
def blindUpstream : Upstream := { calmUpstream with channelPage := fun page => page = 1 }

/-- A pass that cannot list the channels deletes the placeholder the channel is on. -/
theorem blind_rebind_cuts :
    ¬Uncut stranded (rebindFromArchive blindUpstream matchByName strandedLedger strandedRemap
        strandedArchive ⟨0, [], [], []⟩ (World.start stranded)).2 ∧
      ¬Uncut stranded (rebindPlaceholdersAfterRefresh blindUpstream matchByName false
        (World.start stranded)).2 := by
  have harchive : (rebindFromArchive blindUpstream matchByName strandedLedger strandedRemap
      strandedArchive ⟨0, [], [], []⟩ (World.start stranded)).2.issued.all
        (fun i => decide (i.1.Harmless i.2)) = false := by decide +kernel
  have hrefresh : (rebindPlaceholdersAfterRefresh blindUpstream matchByName false
      (World.start stranded)).2.issued.all (fun i => decide (i.1.Harmless i.2)) = false := by
    decide +kernel
  constructor
  · intro h
    rw [List.all_eq_true.mpr fun i hi => decide_eq_true (h.harmless i.1 i.2 hi)] at harchive
    cases harchive
  · intro h
    rw [List.all_eq_true.mpr fun i hi => decide_eq_true (h.harmless i.1 i.2 hi)] at hrefresh
    cases hrefresh

end Stranded

end ChannelManager.Dbas
