import ChannelManager.EventSync.Obeyed

/-!
# One reading of a master

The masters are read with the patterns of their group, or with the built-in ones when it has none.
Inside the matching of a secondary group the lack of patterns is filled by those of that group, so a
group with patterns of its own reads the masters by them.
-/

namespace ChannelManager.EventSync

section Reading

variable {π : Type} (scorer : Scorer π) (decisions : Option ReviewDecisions)
  (exclusions : Option (List PairingKey)) (config : EventSyncConfig π) (masterNames : List String)
  (streams : List SecondaryStream) (attachedStreamIds : List ℤ)

/-- How a name is read with the patterns of a group. -/
def readBy (groupId : ℤ) : String → ParsedEvent :=
  parseEventName scorer (effectivePatterns config groupId) (config.assumeCurrentDate.getD false)

/-- The streams that are matched: those of the master group that are attached are left out. -/
def offeredStreams : List SecondaryStream :=
  streams.filter fun s =>
    !(decide (s.groupId = config.masterGroupId) && s.streamId.any (· ∈ attachedStreamIds))

/-- Every master is read as by its own group wherever streams are matched: one that is listed as not
read is no candidate, one that is not listed is a candidate for every stream in its window, and it has
one event key. -/
structure ReadOnce (resolution : EventSyncResolution) : Prop where
  reading : ∀ s ∈ offeredStreams config streams attachedStreamIds, ∀ m ∈ masterNames,
    parseMaster scorer config s.groupId m = readBy scorer config config.masterGroupId m
  unparsed : ∀ row ∈ resolution.resolved, ∀ c ∈ row.result.candidates,
    c.masterName ∉ resolution.unparsedMasterNames
  scored : ∀ s ∈ offeredStreams config streams attachedStreamIds, ∃ row ∈ resolution.resolved,
    row.stream = s ∧ row.result.parsed = readBy scorer config s.groupId s.name ∧
      ∀ m ∈ masterNames, m ∉ resolution.unparsedMasterNames →
        ∀ title start masterStart, row.result.parsed.title = some title →
          row.result.parsed.start = some start →
          (readBy scorer config config.masterGroupId m).start = some masterStart →
          (∀ window, windowMinutes config = some window →
            minutesApart start masterStart ≤ (window : ℚ)) →
          ∃ c ∈ row.result.candidates, c.masterName = m
  key : ∀ row ∈ resolution.resolved, ∀ row' ∈ resolution.resolved, ∀ c ∈ row.result.candidates,
    ∀ c' ∈ row'.result.candidates, c.masterName = c'.masterName →
      masterEventKey scorer c.parsed = masterEventKey scorer c'.parsed

/-- The master group has patterns, its own or the shared ones, or every group with a stream to match
has none or some that read the masters as the built-in ones do. -/
def MastersReadAlike : Prop :=
  effectivePatterns config config.masterGroupId ≠ none ∨
    ∀ s ∈ offeredStreams config streams attachedStreamIds, ∀ m ∈ masterNames,
      readBy scorer config s.groupId m =
        parseEventName scorer none (config.assumeCurrentDate.getD false) m

variable {scorer config masterNames streams attachedStreamIds}

/-- The reading inside the matching of a group is that of the master group exactly then. -/
theorem reading_iff :
    (∀ s ∈ offeredStreams config streams attachedStreamIds, ∀ m ∈ masterNames,
      parseMaster scorer config s.groupId m = readBy scorer config config.masterGroupId m) ↔
        MastersReadAlike scorer config masterNames streams attachedStreamIds := by
  unfold MastersReadAlike
  cases hmaster : effectivePatterns config config.masterGroupId with
  | some patterns =>
    refine iff_of_true (fun s _ m _ => ?_) (.inl nofun)
    rw [parseMaster, readBy, hmaster, Option.some_or]
  | none =>
    have hread : ∀ s : SecondaryStream, ∀ m : String,
        parseMaster scorer config s.groupId m = readBy scorer config s.groupId m := by
      intro s m
      rw [parseMaster, readBy, hmaster, Option.none_or]
    have hbuiltIn : ∀ m : String, readBy scorer config config.masterGroupId m =
        parseEventName scorer none (config.assumeCurrentDate.getD false) m := by
      intro m
      rw [readBy, hmaster]
    simp only [hread, hbuiltIn, ne_eq, not_true, false_or]

/-- Every stream offered has a row, and every row is of one. -/
theorem mem_resolved {row : ResolvedStream} :
    row ∈ (resolveEventSync scorer decisions exclusions config masterNames streams
        attachedStreamIds).resolved ↔
      ∃ s ∈ offeredStreams config streams attachedStreamIds,
        resolveOne scorer decisions exclusions config masterNames s.groupId s = row := by
  show row ∈ (sortedOn id ((offeredStreams config streams attachedStreamIds).map
    (·.groupId)).dedup).flatMap (resolveGroup scorer decisions exclusions config masterNames
      (offeredStreams config streams attachedStreamIds)) ↔ _
  simp only [List.mem_flatMap, mem_sortedOn, List.mem_dedup, resolveGroup_eq, List.mem_map,
    List.mem_filter, decide_eq_true_eq]
  constructor
  · rintro ⟨groupId, -, s, ⟨hs, rfl⟩, hrow⟩
    exact ⟨s, hs, hrow⟩
  · rintro ⟨s, hs, hrow⟩
    exact ⟨s.groupId, ⟨s, hs, rfl⟩, s, ⟨hs, rfl⟩, hrow⟩

theorem result_resolveOne (groupId : ℤ) (s : SecondaryStream) :
    (resolveOne scorer decisions exclusions config masterNames groupId s).stream = s ∧
      (resolveOne scorer decisions exclusions config masterNames groupId s).result =
        matchStream scorer (masterNames.map (parseMaster scorer config groupId))
          (effectivePatterns config groupId) (windowMinutes config)
          (config.attachThreshold.getD eventAttachFloor) (config.assumeCurrentDate.getD false)
          s.name :=
  resolveStream_of scorer decisions exclusions

/-- A master is listed as not read when its own group does not read it whole. -/
theorem mem_unparsed {m : String} :
    m ∈ (resolveEventSync scorer decisions exclusions config masterNames streams
        attachedStreamIds).unparsedMasterNames ↔
      m ∈ masterNames ∧ ((readBy scorer config config.masterGroupId m).title = none ∨
        (readBy scorer config config.masterGroupId m).start = none) := by
  show m ∈ masterNames.filter _ ↔ _
  rw [List.mem_filter, Bool.or_eq_true, Option.isNone_iff_eq_none, Option.isNone_iff_eq_none]
  exact Iff.rfl

theorem parsed_matchStream (masters : List ParsedEvent) (patterns : Option (List π))
    (window : Option ℤ) (threshold : ℚ) (assumeCurrentDate : Bool) (streamName : String) :
    (matchStream scorer masters patterns window threshold assumeCurrentDate streamName).parsed =
      parseEventName scorer patterns assumeCurrentDate streamName := by
  unfold matchStream
  dsimp only
  split <;> rfl

/-- A master that is read whole is a candidate for a stream in its window. -/
theorem candidate_matchStream {masters : List ParsedEvent} {patterns : Option (List π)}
    {window : Option ℤ} {threshold : ℚ} {assumeCurrentDate : Bool} {streamName title : String}
    {start masterStart : Start} {master : ParsedEvent} (hmem : master ∈ masters)
    (htitle : (matchStream scorer masters patterns window threshold assumeCurrentDate
      streamName).parsed.title = some title)
    (hstart : (matchStream scorer masters patterns window threshold assumeCurrentDate
      streamName).parsed.start = some start)
    (hmasterTitle : master.title ≠ none) (hmasterStart : master.start = some masterStart)
    (hwindow : ∀ w, window = some w → minutesApart start masterStart ≤ (w : ℚ)) :
    ∃ c ∈ (matchStream scorer masters patterns window threshold assumeCurrentDate
      streamName).candidates, c.masterName = master.rawName := by
  rw [parsed_matchStream] at htitle hstart
  obtain ⟨masterTitle, hmasterTitle⟩ := Option.ne_none_iff_exists'.mp hmasterTitle
  have hopen : (window.any fun w => decide ((w : ℚ) < minutesApart start masterStart)) = false := by
    cases window with
    | none => rfl
    | some w => simpa using hwindow w rfl
  obtain ⟨c, hc, hname⟩ : ∃ c, candidate scorer (parseEventName scorer patterns assumeCurrentDate
      streamName) start window threshold master masterStart = some c ∧
        c.masterName = master.rawName := by
    rw [candidate, hopen, if_neg Bool.false_ne_true]
    exact ⟨_, rfl, rfl⟩
  unfold matchStream
  dsimp only
  rw [htitle, hstart]
  simp only [bestFirst, mem_sortedOn, List.mem_filterMap]
  exact ⟨c, ⟨master, hmem, by rw [hmasterTitle, hmasterStart]; exact hc⟩, hname⟩

/-- The masters are read one way, with all that follows, exactly when their group has patterns or no
group with a stream to match reads them otherwise than the built-in ones. -/
theorem readOnce_iff (scorer : Scorer π) (decisions : Option ReviewDecisions)
    (exclusions : Option (List PairingKey)) (config : EventSyncConfig π) (masterNames : List String)
    (streams : List SecondaryStream) (attachedStreamIds : List ℤ) :
    ReadOnce scorer config masterNames streams attachedStreamIds
        (resolveEventSync scorer decisions exclusions config masterNames streams attachedStreamIds) ↔
      MastersReadAlike scorer config masterNames streams attachedStreamIds := by
  rw [← reading_iff]
  constructor
  · exact ReadOnce.reading
  · intro hreading
    -- In every group the masters are those the master group reads.
    have hmasters : ∀ s ∈ offeredStreams config streams attachedStreamIds,
        masterNames.map (parseMaster scorer config s.groupId) =
          masterNames.map (readBy scorer config config.masterGroupId) :=
      fun s hs => List.map_congr_left fun m hm => hreading s hs m hm
    have hcandidate : ∀ row ∈ (resolveEventSync scorer decisions exclusions config masterNames
        streams attachedStreamIds).resolved, ∀ c ∈ row.result.candidates,
        c.parsed = readBy scorer config config.masterGroupId c.masterName ∧
          (masterEventKey scorer c.parsed).isSome := by
      intro row hrow c hc
      obtain ⟨s, hs, rfl⟩ := (mem_resolved decisions exclusions).mp hrow
      rw [(result_resolveOne decisions exclusions s.groupId s).2, hmasters s hs] at hc
      exact (mem_candidates scorer hc).2
    refine ⟨hreading, fun row hrow c hc hlisted => ?_, fun s hs => ?_, ?_⟩
    · obtain ⟨hparsed, hkey⟩ := hcandidate row hrow c hc
      rw [hparsed] at hkey
      obtain ⟨-, hnone⟩ := (mem_unparsed decisions exclusions).mp hlisted
      unfold masterEventKey at hkey
      rcases hnone with hnone | hnone
      · rw [hnone] at hkey
        cases hkey
      · rw [hnone] at hkey
        split at hkey
        next hsome => cases hsome
        next => cases hkey
    · obtain ⟨hstream, hresult⟩ : (resolveOne scorer decisions exclusions config masterNames
          s.groupId s).stream = s ∧ _ := result_resolveOne decisions exclusions s.groupId s
      refine ⟨_, (mem_resolved decisions exclusions).mpr ⟨s, hs, rfl⟩, hstream, ?_, ?_⟩
      · rw [hresult, parsed_matchStream]
        rfl
      · intro m hm hread title start masterStart htitle hstart hmasterStart hwindow
        rw [hresult] at htitle hstart ⊢
        have hwhole : (readBy scorer config config.masterGroupId m).title ≠ none := fun hnone =>
          hread ((mem_unparsed decisions exclusions).mpr ⟨hm, .inl hnone⟩)
        have hmaster : readBy scorer config config.masterGroupId m ∈
            masterNames.map (parseMaster scorer config s.groupId) := by
          rw [hmasters s hs]
          exact List.mem_map_of_mem hm
        exact candidate_matchStream hmaster htitle hstart hwhole hmasterStart hwindow
    · intro row hrow row' hrow' c hc c' hc' hname
      rw [(hcandidate row hrow c hc).1, (hcandidate row' hrow' c' hc').1, hname]

end Reading

section Samples

/-- The built-in patterns read the masters of the match day, the pattern of one group its own stream
only. -/
def groupScorer : Scorer Unit :=
  { julyScorer with
    read := fun patterns today name =>
      if patterns = none then julyScorer.read none today name
      else if name = "Mercury vs. Aces | 11 Jul 6pm" then
        ⟨some "Mercury vs. Aces", some ⟨1783807200, "18:00-05:00"⟩, some ("Mercury", "Aces"),
          some "bar"⟩
      else ⟨none, none, none, none⟩ }

/-- Only the group 30 has patterns. -/
def groupConfig : EventSyncConfig Unit :=
  { julyConfig with groupPatterns := Dict.ofList [(.inl 30, [()])] }

def groupStreams : List SecondaryStream :=
  [⟨"Mercury vs. Aces | 11 Jul 6pm", 30, some 201, some "FuboProvider", none, none⟩]

/-- The group reads the master of the event by its own patterns, that is not at all: it is not listed
as not read, and yet the stream of the event has no candidate. -/
theorem master_lost_in_group :
    (resolveEventSync groupScorer none none groupConfig julyMasters groupStreams
        []).unparsedMasterNames = ["Peacock 40: NO EVENT"] ∧
      (resolveEventSync groupScorer none none groupConfig julyMasters groupStreams []).resolved.map
        (fun row => (row.result.parsed.start.isSome, row.result.candidates)) = [(true, [])] ∧
      ¬ReadOnce groupScorer groupConfig julyMasters groupStreams []
        (resolveEventSync groupScorer none none groupConfig julyMasters groupStreams []) := by
  refine ⟨by decide +kernel, by decide +kernel, fun h => ?_⟩
  have hread := h.reading ⟨"Mercury vs. Aces | 11 Jul 6pm", 30, some 201, some "FuboProvider", none,
    none⟩ (by decide +kernel) "Peacock 14: Mercury vs. Aces @ 11 Jul 06:00 PM ET" (by decide)
  revert hread
  decide +kernel

end Samples

end ChannelManager.EventSync
