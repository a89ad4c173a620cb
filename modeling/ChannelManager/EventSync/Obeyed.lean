import ChannelManager.EventSync.Resolver

/-!
# What the operator decided

A stream is attached only where the operator's word allows it: the pairing is neither excluded nor
rejected, and either its master stands alone in the attach band or the pairing was accepted. The rows
do not depend on the order of the masters or of the streams.
-/

namespace ChannelManager.EventSync

section Obeyed

variable {π : Type} (scorer : Scorer π) (decisions : Option ReviewDecisions)
  (exclusions : Option (List PairingKey))

/-! ## Sifting -/

/-- The operator has excluded or rejected the pairing. -/
def ruledOut (stream : SecondaryStream) (c : MasterCandidate) : Bool :=
  (pairingKey scorer stream c.parsed).any fun key =>
    isExcluded exclusions key || isRejected decisions key

/-- The candidates without those ruled out. -/
def remaining (stream : SecondaryStream) (candidates : List MasterCandidate) : List MasterCandidate :=
  candidates.filter fun c => !ruledOut scorer decisions exclusions stream c

theorem siftOne_kept (stream : SecondaryStream) (acc : Sifted) (c : MasterCandidate) :
    (siftOne scorer decisions exclusions stream acc c).kept =
      acc.kept ++ remaining scorer decisions exclusions stream [c] := by
  rw [siftOne, remaining]
  cases hkey : pairingKey scorer stream c.parsed with
  | none => simp [ruledOut, hkey]
  | some key =>
    cases hexcluded : isExcluded exclusions key with
    | true => simp [ruledOut, hkey, hexcluded]
    | false => cases hrejected : isRejected decisions key <;> simp [ruledOut, hkey, hexcluded, hrejected]

theorem ruledOut_of_silent (h : (hasDecisions decisions || exclusions.any (· ≠ [])) = false)
    (stream : SecondaryStream) (c : MasterCandidate) :
    ruledOut scorer decisions exclusions stream c = false := by
  rw [Bool.or_eq_false_iff] at h
  obtain ⟨hdecisions, hexclusions⟩ := h
  rw [ruledOut, Option.any_eq_false]
  intro key _
  have hexcluded : isExcluded exclusions key = false := by
    cases exclusions with
    | none => rfl
    | some keys => simp_all [isExcluded]
  have hrejected : isRejected decisions key = false := by
    cases decisions with
    | none => rfl
    | some d => simp_all [isRejected, hasDecisions]
  simp [hexcluded, hrejected]

theorem sift_kept (stream : SecondaryStream) (candidates : List MasterCandidate) :
    (sift scorer decisions exclusions stream candidates).kept =
      remaining scorer decisions exclusions stream candidates := by
  rw [sift]
  split
  · have hfold : ∀ acc : Sifted,
        (candidates.foldl (siftOne scorer decisions exclusions stream) acc).kept =
          acc.kept ++ remaining scorer decisions exclusions stream candidates := by
      induction candidates with
      | nil => simp [remaining]
      | cons c candidates ih =>
        intro acc
        rw [List.foldl_cons, ih, siftOne_kept, List.append_assoc, remaining, remaining, remaining,
          ← List.filter_append, List.singleton_append]
    exact hfold ⟨[], ∅, 0, 0, []⟩
  · rename_i hsilent
    rw [remaining, List.filter_eq_self.mpr]
    intro c _
    rw [ruledOut_of_silent scorer decisions exclusions (Bool.eq_false_iff.mpr hsilent) stream c]
    rfl

/-- A key is filed under the name of the candidate it belongs to. -/
theorem sift_keyed {stream : SecondaryStream} {candidates : List MasterCandidate} {name : String}
    {key : PairingKey}
    (h : (sift scorer decisions exclusions stream candidates).keyed.get? name = some key) :
    ∃ c ∈ candidates, c.masterName = name ∧ pairingKey scorer stream c.parsed = some key := by
  rw [sift] at h
  split at h
  · have hfold : ∀ acc : Sifted,
        (candidates.foldl (siftOne scorer decisions exclusions stream) acc).keyed.get? name = some key →
        acc.keyed.get? name = some key ∨
          ∃ c ∈ candidates, c.masterName = name ∧ pairingKey scorer stream c.parsed = some key := by
      clear h
      induction candidates with
      | nil => exact fun acc h => .inl h
      | cons c candidates ih =>
        intro acc h
        cases ih _ h with
        | inr hlater =>
          obtain ⟨c', hc', hkey⟩ := hlater
          exact .inr ⟨c', List.mem_cons_of_mem _ hc', hkey⟩
        | inl hstep =>
          rw [siftOne] at hstep
          cases hkey : pairingKey scorer stream c.parsed with
          | none =>
            rw [hkey] at hstep
            exact .inl hstep
          | some key' =>
            rw [hkey] at hstep
            have hset : (acc.keyed.set c.masterName key').get? name = some key := by
              dsimp only at hstep
              split at hstep
              · exact hstep
              · split at hstep <;> exact hstep
            rw [Dict.get?_set] at hset
            split at hset
            · rename_i hname
              cases hset
              exact .inr ⟨c, List.mem_cons_self, by simp_all, hkey⟩
            · exact .inl hset
    cases hfold _ h with
    | inl hnone => simp at hnone
    | inr hfound => exact hfound
  · simp at h

/-! ## One stream -/

theorem classifyCandidates_wouldAttach {reason : Option RejectReason} {candidates : List MasterCandidate}
    (h : (classifyCandidates reason candidates).1 = .wouldAttach) :
    ∃ top runners, candidates = top :: runners ∧ top.band = .attach ∧ isContested top runners = false ∧
      classifyCandidates reason candidates = (.wouldAttach, some top, none) := by
  cases candidates with
  | nil =>
    rw [classifyCandidates] at h
    split at h <;> cases h
  | cons top runners =>
    rw [classifyCandidates] at h ⊢
    by_cases hreason : reason ≠ none
    · rw [if_pos hreason] at h
      cases h
    · rw [if_neg hreason] at h ⊢
      cases hband : top.band with
      | attach =>
        rw [hband] at h
        cases hcontested : isContested top runners with
        | true => simp [hcontested] at h
        | false => exact ⟨top, runners, rfl, hband, hcontested, by simp⟩
      | ambiguous =>
        rw [hband] at h
        dsimp only at h
        split at h <;> cases h
      | reject =>
        rw [hband] at h
        cases h

section OneStream

variable {stream : SecondaryStream} {result : StreamMatchResult} {demoteStaleDateless : Bool}
  {patterns : Option (List π)}

theorem resolveStream_of :
    (resolveStream scorer decisions exclusions stream result demoteStaleDateless patterns).stream = stream ∧
      (resolveStream scorer decisions exclusions stream result demoteStaleDateless patterns).result =
        result := by
  rw [resolveStream]
  dsimp only
  split
  · exact ⟨rfl, rfl⟩
  · split <;> exact ⟨rfl, rfl⟩
  · exact ⟨rfl, rfl⟩
  · exact ⟨rfl, rfl⟩

/-- Which candidate a stream is attached to, and by whose word. -/
theorem resolveStream_wouldAttach {row : ResolvedStream}
    (hrow : resolveStream scorer decisions exclusions stream result demoteStaleDateless patterns = row)
    (h : row.disposition = .wouldAttach) :
    ∃ best ∈ remaining scorer decisions exclusions stream result.candidates, row.best = some best ∧
      ((row.attachSource = some .threshold ∧ best.band = .attach ∧
          ∃ rest, remaining scorer decisions exclusions stream result.candidates = best :: rest ∧
            isContested best rest = false) ∨
        (row.attachSource = some .reviewQueue ∧ best.band ≠ .reject ∧
          isAccepted decisions
            ((sift scorer decisions exclusions stream result.candidates).keyed.get? best.masterName))) := by
  subst hrow
  rw [← sift_kept]
  rw [resolveStream] at h ⊢
  generalize sift scorer decisions exclusions stream result.candidates = sifted at h ⊢
  dsimp only at h ⊢
  generalize hverdict : (if (classifyCandidates result.unmatchableReason sifted.kept).1 = .wouldAttach ∧
      isStale scorer demoteStaleDateless patterns stream then
    ((.ambiguous, none, some .staleDatelessStreamName) :
      Disposition × Option MasterCandidate × Option AmbiguousReason)
    else classifyCandidates result.unmatchableReason sifted.kept) = verdict at h ⊢
  obtain ⟨disposition, best, reason⟩ := verdict
  cases disposition with
  | wouldAttach =>
    split at hverdict
    · cases hverdict
    · obtain ⟨top, rest, hkept, hband, hcontested, htop⟩ :=
        classifyCandidates_wouldAttach (by rw [hverdict])
      cases htop.symm.trans hverdict
      exact ⟨top, by simp [hkept], rfl, .inl ⟨rfl, hband, rest, hkept, hcontested⟩⟩
  | ambiguous =>
    dsimp only at h ⊢
    split at h
    · rename_i c hfind
      have hmem := List.mem_filter.mp (List.mem_of_find?_eq_some hfind)
      have haccepted := List.find?_some hfind
      refine ⟨c, hmem.1, rfl, .inr ⟨rfl, ?_, haccepted⟩⟩
      intro hreject
      simp [hreject] at hmem
    · cases h
  | unmatched =>
    dsimp only at h
    split at h <;> cases h
  | parseFailed => cases h
  | excludedByOperator => cases h

end OneStream

/-! ## Candidates -/

/-- Whether a master can be a candidate for an event, and as which. -/
def candidateFor (parsed : ParsedEvent) (start : Start) (windowMinutes : Option ℤ) (threshold : ℚ)
    (master : ParsedEvent) : Option MasterCandidate :=
  match master.title, master.start with
  | some _, some masterStart => candidate scorer parsed start windowMinutes threshold master masterStart
  | _, _ => none

theorem candidateFor_some {parsed master : ParsedEvent} {start : Start} {windowMinutes : Option ℤ}
    {threshold : ℚ} {c : MasterCandidate}
    (h : candidateFor scorer parsed start windowMinutes threshold master = some c) :
    c.parsed = master ∧ c.masterName = master.rawName ∧ (masterEventKey scorer master).isSome := by
  rw [candidateFor] at h
  split at h
  · rename_i title masterStart htitle hstart
    rw [candidate] at h
    dsimp only at h
    split at h
    · cases h
    · cases h
      refine ⟨rfl, rfl, ?_⟩
      rw [masterEventKey, htitle, hstart]
      dsimp only
      split <;> rfl
  · cases h

section Masters

variable {patterns masterPatterns : Option (List π)} {windowMinutes : Option ℤ} {threshold : ℚ}
  {assumeCurrentDate : Bool} {streamName : String} {masterNames : List String}

variable (patterns windowMinutes threshold assumeCurrentDate streamName) in
/-- The candidates of a stream, best first, come from the masters that can be candidates for it. -/
theorem candidates_matchStream (masters : List ParsedEvent) :
    (matchStream scorer masters patterns windowMinutes threshold assumeCurrentDate streamName).candidates =
        [] ∨
      ∃ start, (matchStream scorer masters patterns windowMinutes threshold assumeCurrentDate
          streamName).candidates =
        bestFirst (masters.filterMap (candidateFor scorer
          (parseEventName scorer patterns assumeCurrentDate streamName) start windowMinutes threshold)) := by
  rw [matchStream]
  dsimp only
  split
  · exact .inl rfl
  · exact .inl rfl
  · exact .inr ⟨_, rfl⟩

theorem mem_candidates {c : MasterCandidate}
    (h : c ∈ (matchStream scorer (masterNames.map (parseEventName scorer masterPatterns assumeCurrentDate))
      patterns windowMinutes threshold assumeCurrentDate streamName).candidates) :
    c.masterName ∈ masterNames ∧
      c.parsed = parseEventName scorer masterPatterns assumeCurrentDate c.masterName ∧
      (masterEventKey scorer c.parsed).isSome := by
  obtain hnone | ⟨start, hsome⟩ := candidates_matchStream scorer patterns windowMinutes threshold
    assumeCurrentDate streamName (masterNames.map (parseEventName scorer masterPatterns assumeCurrentDate))
  · rw [hnone] at h
    cases h
  · rw [hsome, bestFirst, mem_sortedOn, List.mem_filterMap] at h
    obtain ⟨master, hmaster, hc⟩ := h
    obtain ⟨name, hname, rfl⟩ := List.mem_map.mp hmaster
    obtain ⟨hparsed, hmasterName, hkey⟩ := candidateFor_some scorer hc
    have hname' : c.masterName = name := hmasterName
    rw [hname', hparsed]
    exact ⟨hname, rfl, hkey⟩

/-- No candidate scores above one that stands before it. -/
theorem pairwise_candidates (masters : List ParsedEvent) :
    (matchStream scorer masters patterns windowMinutes threshold assumeCurrentDate
      streamName).candidates.Pairwise fun a b => b.score ≤ a.score := by
  obtain hnone | ⟨start, hsome⟩ := candidates_matchStream scorer patterns windowMinutes threshold
    assumeCurrentDate streamName masters
  · rw [hnone]
    exact List.Pairwise.nil
  · rw [hsome]
    refine (pairwise_sortedOn _ _).imp ?_
    intro a b hab
    have hle : -a.score ≤ -b.score := (Prod.Lex.toLex_le_toLex'.mp hab).1
    exact neg_le_neg_iff.mp hle

/-- The order of the masters does not matter. -/
theorem matchStream_perm {masterNames' : List String} (h : masterNames.Perm masterNames') :
    matchStream scorer (masterNames.map (parseEventName scorer masterPatterns assumeCurrentDate)) patterns
        windowMinutes threshold assumeCurrentDate streamName =
      matchStream scorer (masterNames'.map (parseEventName scorer masterPatterns assumeCurrentDate))
        patterns windowMinutes threshold assumeCurrentDate streamName := by
  rw [matchStream, matchStream]
  dsimp only
  split
  · rfl
  · rfl
  · rename_i start _ _
    have hcandidates := (h.map (parseEventName scorer masterPatterns assumeCurrentDate)).filterMap
      (candidateFor scorer (parseEventName scorer patterns assumeCurrentDate streamName) start windowMinutes
        threshold)
    congr 1
    refine sortedOn_congr hcandidates ?_
    intro a ha b hb hab
    obtain ⟨master, hmaster, ha⟩ := List.mem_filterMap.mp ha
    obtain ⟨master', hmaster', hb⟩ := List.mem_filterMap.mp hb
    obtain ⟨name, _, rfl⟩ := List.mem_map.mp hmaster
    obtain ⟨name', _, rfl⟩ := List.mem_map.mp hmaster'
    have hname : name = name' := calc
      name = a.masterName := (candidateFor_some scorer ha).2.1.symm
      _ = b.masterName := congrArg (fun p => (ofLex p).2) hab
      _ = name' := (candidateFor_some scorer hb).2.1
    rw [hname, hb] at ha
    exact (Option.some.inj ha).symm

end Masters

/-! ## Rows -/

variable (config : EventSyncConfig π) (masterNames : List String)

/-- How a master is read when the streams of a group are matched. -/
def parseMaster (groupId : ℤ) : String → ParsedEvent :=
  parseEventName scorer ((effectivePatterns config config.masterGroupId).or (effectivePatterns config groupId))
    (config.assumeCurrentDate.getD false)

/-- The row of one stream of a group. -/
def resolveOne (groupId : ℤ) (stream : SecondaryStream) : ResolvedStream :=
  let patterns := effectivePatterns config groupId
  let assumeCurrentDate := config.assumeCurrentDate.getD false
  let result := matchStream scorer (masterNames.map (parseMaster scorer config groupId)) patterns
    (windowMinutes config) (config.attachThreshold.getD eventAttachFloor) assumeCurrentDate stream.name
  let row := resolveStream scorer decisions exclusions stream result
    (assumeCurrentDate && config.demoteStaleDateless.getD true) patterns
  { row with matchedVia := matchedVia scorer config patterns row }

theorem resolveGroup_eq (streams : List SecondaryStream) (groupId : ℤ) :
    resolveGroup scorer decisions exclusions config masterNames streams groupId =
      (sortedOn (fun s : SecondaryStream => toLex (s.name, s.streamId.getD 0))
        (streams.filter fun s => decide (s.groupId = groupId))).map
          (resolveOne scorer decisions exclusions config masterNames groupId) := by
  rw [resolveGroup]
  dsimp only
  generalize sortedOn (fun s : SecondaryStream => toLex (s.name, s.streamId.getD 0))
    (streams.filter fun s => decide (s.groupId = groupId)) = sorted
  rw [matchStreams, List.map_map]
  induction sorted with
  | nil => rfl
  | cons s sorted ih => exact congrArg₂ List.cons rfl ih

/-- What holds of a row that attaches its stream to `best`: the master is one of those given, its pairing
is neither excluded nor rejected and its band is not that of a reject. A row attached by its score has
its candidate in the attach band, and every other one the operator left is outside of it and clearly
below; a row attached by the review queue has its pairing accepted. -/
structure Obeyed (row : ResolvedStream) (best : MasterCandidate) : Prop where
  master : best.masterName ∈ masterNames ∧
    best.parsed = parseMaster scorer config row.stream.groupId best.masterName
  cleared : ∃ key, pairingKey scorer row.stream best.parsed = some key ∧
    isExcluded exclusions key = false ∧ isRejected decisions key = false
  band : best.band ≠ .reject
  source : row.attachSource = some .threshold ∨ row.attachSource = some .reviewQueue
  threshold : row.attachSource = some .threshold → best.band = .attach ∧
    ∃ others, remaining scorer decisions exclusions row.stream row.result.candidates = best :: others ∧
      ∀ c ∈ others, c.band ≠ .attach ∧ contestedScoreEpsilon < best.score - c.score
  reviewQueue : row.attachSource = some .reviewQueue →
    isAccepted decisions (pairingKey scorer row.stream best.parsed) = true

theorem clear_of_not_contested {best : MasterCandidate} {others : List MasterCandidate}
    (hsorted : (best :: others).Pairwise fun a b => b.score ≤ a.score)
    (h : isContested best others = false) :
    ∀ c ∈ others, c.band ≠ .attach ∧ contestedScoreEpsilon < best.score - c.score := by
  rw [isContested, Bool.or_eq_false_iff] at h
  obtain ⟨hrunner, hbands⟩ := h
  intro c hc
  constructor
  · intro hband
    exact absurd hband (by simpa using List.any_eq_false.mp hbands c hc)
  · cases others with
    | nil => cases hc
    | cons runner others =>
      have hgap : contestedScoreEpsilon < best.score - runner.score :=
        not_le.mp (of_decide_eq_false hrunner)
      have hle : c.score ≤ runner.score := by
        cases hc with
        | head => exact le_refl _
        | tail _ hc => exact List.rel_of_pairwise_cons (List.Pairwise.of_cons hsorted) hc
      exact hgap.trans_le (sub_le_sub_left hle best.score)

theorem pairingKey_isSome (stream : SecondaryStream) {parsed : ParsedEvent}
    (h : (masterEventKey scorer parsed).isSome) : ∃ key, pairingKey scorer stream parsed = some key := by
  obtain ⟨eventKey, heventKey⟩ := Option.isSome_iff_exists.mp h
  exact ⟨_, by rw [pairingKey, heventKey]; rfl⟩

theorem resolveStream_obeyed {stream : SecondaryStream} {result : StreamMatchResult}
    {demoteStaleDateless : Bool} {patterns : Option (List π)}
    (hcandidates : ∀ c ∈ result.candidates, c.masterName ∈ masterNames ∧
      c.parsed = parseMaster scorer config stream.groupId c.masterName ∧
      (masterEventKey scorer c.parsed).isSome)
    (hsorted : result.candidates.Pairwise fun a b => b.score ≤ a.score)
    (h : (resolveStream scorer decisions exclusions stream result demoteStaleDateless patterns).disposition =
      .wouldAttach) :
    ∃ best,
      (resolveStream scorer decisions exclusions stream result demoteStaleDateless patterns).best =
        some best ∧
      Obeyed scorer decisions exclusions config masterNames
        (resolveStream scorer decisions exclusions stream result demoteStaleDateless patterns) best := by
  generalize hrow : resolveStream scorer decisions exclusions stream result demoteStaleDateless patterns =
    row at h ⊢
  obtain ⟨hstream, hresult⟩ : row.stream = stream ∧ row.result = result :=
    hrow ▸ resolveStream_of scorer decisions exclusions
  obtain ⟨best, hremaining, hbest, hway⟩ := resolveStream_wouldAttach scorer decisions exclusions hrow h
  obtain ⟨hmem, hclear⟩ := List.mem_filter.mp hremaining
  obtain ⟨hmaster, hparsed, heventKey⟩ := hcandidates best hmem
  obtain ⟨key, hkey⟩ := pairingKey_isSome scorer stream heventKey
  have hruled : isExcluded exclusions key = false ∧ isRejected decisions key = false := by
    simpa [ruledOut, hkey] using hclear
  refine ⟨best, hbest, ?_⟩
  rw [← hstream] at hkey hparsed hway
  rw [← hresult] at hway
  obtain ⟨hsource, hband, others, hothers, hcontested⟩ | ⟨hsource, hband, haccepted⟩ := hway
  · have hclearly := clear_of_not_contested
      (hothers ▸ (hresult ▸ hsorted).filter _) hcontested
    exact ⟨⟨hmaster, hparsed⟩, ⟨key, hkey, hruled⟩, by simp [hband], .inl hsource,
      fun _ => ⟨hband, others, hothers, hclearly⟩, fun h => by simp [hsource] at h⟩
  · have hpairing : isAccepted decisions (pairingKey scorer row.stream best.parsed) = true := by
      cases hkeyed : (sift scorer decisions exclusions row.stream row.result.candidates).keyed.get?
          best.masterName with
      | none => simp [hkeyed, isAccepted] at haccepted
      | some key' =>
        obtain ⟨c, hc, hname, hkey'⟩ := sift_keyed scorer decisions exclusions hkeyed
        rw [hresult] at hc
        have hparsed' := (hcandidates c hc).2.1
        rw [hname, ← hstream, ← hparsed] at hparsed'
        rwa [← hparsed', hkey', ← hkeyed]
    exact ⟨⟨hmaster, hparsed⟩, ⟨key, hkey, hruled⟩, hband, .inr hsource,
      fun h => by simp [hsource] at h, fun _ => hpairing⟩

theorem resolveOne_obeyed {groupId : ℤ} {stream : SecondaryStream} (hgroup : stream.groupId = groupId)
    (h : (resolveOne scorer decisions exclusions config masterNames groupId stream).disposition =
      .wouldAttach) :
    ∃ best, (resolveOne scorer decisions exclusions config masterNames groupId stream).best = some best ∧
      Obeyed scorer decisions exclusions config masterNames
        (resolveOne scorer decisions exclusions config masterNames groupId stream) best := by
  subst hgroup
  obtain ⟨best, hbest, hobeyed⟩ := resolveStream_obeyed scorer decisions exclusions config masterNames
    (fun c hc => mem_candidates scorer hc) (pairwise_candidates scorer _) h
  exact ⟨best, hbest, hobeyed.master, hobeyed.cleared, hobeyed.band, hobeyed.source, hobeyed.threshold,
    hobeyed.reviewQueue⟩

/-! ## The order of masters and streams -/

theorem resolveOne_perm {masterNames masterNames' : List String} (h : masterNames.Perm masterNames') :
    resolveOne scorer decisions exclusions config masterNames =
      resolveOne scorer decisions exclusions config masterNames' := by
  funext groupId stream
  rw [resolveOne, resolveOne]
  dsimp only [parseMaster]
  rw [matchStream_perm scorer h]

theorem resolveGroup_perm {masterNames masterNames' : List String} {streams streams' : List SecondaryStream}
    (hmasters : masterNames.Perm masterNames') (hstreams : streams.Perm streams')
    (hids : ∀ s ∈ streams, ∀ s' ∈ streams, s.streamId.getD 0 = s'.streamId.getD 0 → s = s') (groupId : ℤ) :
    resolveGroup scorer decisions exclusions config masterNames streams groupId =
      resolveGroup scorer decisions exclusions config masterNames' streams' groupId := by
  rw [resolveGroup_eq, resolveGroup_eq, resolveOne_perm scorer decisions exclusions config hmasters]
  congr 1
  refine sortedOn_congr (hstreams.filter _) ?_
  intro s hs s' hs' hkey
  exact hids s (List.mem_of_mem_filter hs) s' (List.mem_of_mem_filter hs')
    (congrArg (fun p => (ofLex p).2) hkey)

theorem resolved_perm {masterNames masterNames' : List String} {streams streams' : List SecondaryStream}
    (hmasters : masterNames.Perm masterNames') (hstreams : streams.Perm streams')
    (hids : ∀ s ∈ streams, ∀ s' ∈ streams, s.streamId.getD 0 = s'.streamId.getD 0 → s = s')
    (attachedStreamIds : List ℤ) :
    (resolveEventSync scorer decisions exclusions config masterNames streams attachedStreamIds).resolved =
      (resolveEventSync scorer decisions exclusions config masterNames' streams'
        attachedStreamIds).resolved := by
  rw [resolveEventSync, resolveEventSync]
  dsimp only
  generalize (fun s : SecondaryStream => !(decide (s.groupId = config.masterGroupId) &&
    s.streamId.any (· ∈ attachedStreamIds))) = isOffered
  have hoffered := hstreams.filter isOffered
  have hgroupIds : sortedOn id ((streams.filter isOffered).map (·.groupId)).dedup =
      sortedOn id ((streams'.filter isOffered).map (·.groupId)).dedup :=
    sortedOn_congr (hoffered.map _).dedup fun _ _ _ _ h => h
  rw [hgroupIds]
  congr 1
  funext groupId
  exact resolveGroup_perm scorer decisions exclusions config hmasters hoffered
    (fun s hs s' hs' => hids s (List.mem_of_mem_filter hs) s' (List.mem_of_mem_filter hs')) groupId

theorem eq_of_streamId {streams : List SecondaryStream} (hids : (streams.map (·.streamId)).Nodup)
    (hsome : ∀ s ∈ streams, s.streamId ≠ none) :
    ∀ s ∈ streams, ∀ s' ∈ streams, s.streamId.getD 0 = s'.streamId.getD 0 → s = s' := by
  intro s hs s' hs' h
  obtain ⟨id, hid⟩ := Option.ne_none_iff_exists'.mp (hsome s hs)
  obtain ⟨id', hid'⟩ := Option.ne_none_iff_exists'.mp (hsome s' hs')
  rw [hid, hid', Option.getD_some, Option.getD_some] at h
  exact List.inj_on_of_nodup_map hids hs hs' (by rw [hid, hid', h])

/-- Every row that attaches its stream obeys the operator. The order of the streams does not matter; that
of the masters only orders the masters listed as unparsed. -/
theorem decisions_obeyed (streams : List SecondaryStream) (attachedStreamIds : List ℤ)
    (hids : (streams.map (·.streamId)).Nodup) (hsome : ∀ s ∈ streams, s.streamId ≠ none) :
    (∀ row ∈ (resolveEventSync scorer decisions exclusions config masterNames streams
        attachedStreamIds).resolved, row.disposition = .wouldAttach →
      ∃ best, row.best = some best ∧ Obeyed scorer decisions exclusions config masterNames row best) ∧
    ∀ streams', streams.Perm streams' →
      resolveEventSync scorer decisions exclusions config masterNames streams' attachedStreamIds =
        resolveEventSync scorer decisions exclusions config masterNames streams attachedStreamIds ∧
      ∀ masterNames', masterNames.Perm masterNames' →
        (resolveEventSync scorer decisions exclusions config masterNames' streams'
            attachedStreamIds).resolved =
          (resolveEventSync scorer decisions exclusions config masterNames streams
            attachedStreamIds).resolved ∧
        (resolveEventSync scorer decisions exclusions config masterNames' streams'
            attachedStreamIds).unparsedMasterNames.Perm
          (resolveEventSync scorer decisions exclusions config masterNames streams
            attachedStreamIds).unparsedMasterNames := by
  have hdistinct := eq_of_streamId hids hsome
  refine ⟨?_, ?_⟩
  · intro row hrow h
    rw [resolveEventSync] at hrow
    obtain ⟨groupId, _, hrow⟩ := List.mem_flatMap.mp hrow
    rw [resolveGroup_eq] at hrow
    obtain ⟨stream, hstream, rfl⟩ := List.mem_map.mp hrow
    have hgroup : stream.groupId = groupId := by
      simpa using (List.mem_filter.mp (mem_sortedOn.mp hstream)).2
    exact resolveOne_obeyed scorer decisions exclusions config masterNames hgroup h
  · intro streams' hstreams
    refine ⟨?_, ?_⟩
    · exact congrArg (EventSyncResolution.mk · _)
        (resolved_perm scorer decisions exclusions config (List.Perm.refl _) hstreams hdistinct _).symm
    · intro masterNames' hmasters
      exact ⟨(resolved_perm scorer decisions exclusions config hmasters hstreams hdistinct _).symm,
        (hmasters.filter _).symm⟩

end Obeyed

/-! ## A match day -/

/-- The functions on a few names, as of 11 July 2026. -/
def julyScorer : Scorer Unit where
  read _ _ name :=
    if name = "Peacock 14: Mercury vs. Aces @ 11 Jul 06:00 PM ET" ∨
        name = "WNBA TV 01: Mercury vs. Aces @ 11 Jul 06:00 PM ET" then
      ⟨some "Mercury vs. Aces", some ⟨1783807200, "18:00-05:00"⟩, some ("Mercury", "Aces"),
        some "slot-title-day-first-date"⟩
    else ⟨some "NO EVENT", none, none, some "slot-title-day-first-date"⟩
  teamPairVerdict a b := if a.isSome ∧ a = b then (.agree, some 1) else (.absent, none)
  fuzzyTitleScore a b := if a = b then 1 else 0
  numericIdentityConflict _ _ := false
  mutualUnmatchedIdentityTokens _ _ := false
  cleanName title := if title = "Mercury vs. Aces" then "mercury vs. aces" else "no event"
  lowerWords title := if title = "Mercury vs. Aces" then "mercury vs. aces" else "no event"
  utcIsoformat _ := "2026-07-11T22:00:00+00:00"
  streamNameHash name :=
    if name = "WNBA TV 01: Mercury vs. Aces @ 11 Jul 06:00 PM ET" then
      "ef04f1f18c918537f0182d2b0b2092a9e615dd027d2692c8fcdce77ccc61bc0b"
    else "36396f58f96c03882930eb2d52331f05b959ab38c701aa88cc42e8a5b615a196"
  synthesizedDatePatternNames :=
    ["dateless-title-time-ampm", "dateless-title-time-24h", "dateless-time-first"]

/-- `patterns` and `group_patterns` are left to the defaults. -/
def julyConfig : EventSyncConfig Unit := ⟨10, none, ∅, none, some 30, some (4 / 5), none, none, none⟩

def julyMasters : List String :=
  ["Peacock 14: Mercury vs. Aces @ 11 Jul 06:00 PM ET", "Peacock 40: NO EVENT"]

def julyStreams : List SecondaryStream :=
  [⟨"WNBA TV 01: Mercury vs. Aces @ 11 Jul 06:00 PM ET", 30, some 201, some "FuboProvider", none, none⟩,
    ⟨"Fubo Sports Network 07 : NO EVENT", 20, some 302, some "DaznProvider", none, none⟩]

theorem decisions_obeyed_july :
    (resolveEventSync julyScorer none none julyConfig julyMasters julyStreams []).resolved.map
        (fun row => (row.disposition, row.attachSource)) =
      [(.parseFailed, none), (.wouldAttach, some .threshold)] ∧
    (∀ row ∈ (resolveEventSync julyScorer none none julyConfig julyMasters julyStreams []).resolved,
      row.disposition = .wouldAttach →
        ∃ best, row.best = some best ∧ Obeyed julyScorer none none julyConfig julyMasters row best) ∧
    (resolveEventSync julyScorer none none julyConfig julyMasters.reverse julyStreams.reverse []).resolved =
      (resolveEventSync julyScorer none none julyConfig julyMasters julyStreams []).resolved := by
  have h := decisions_obeyed julyScorer none none julyConfig julyMasters julyStreams [] (by decide)
    (by decide)
  have hstreams := h.2 julyStreams.reverse (List.reverse_perm _).symm
  exact ⟨by decide +kernel, h.1, (hstreams.2 julyMasters.reverse (List.reverse_perm _).symm).1⟩

/-- The masters that could not be read are listed in the order they came in. -/
theorem unparsed_in_order :
    ["Peacock 40: NO EVENT", "Peacock 41: NO EVENT"].Perm ["Peacock 41: NO EVENT", "Peacock 40: NO EVENT"] ∧
    resolveEventSync julyScorer none none julyConfig ["Peacock 41: NO EVENT", "Peacock 40: NO EVENT"]
        julyStreams [] ≠
      resolveEventSync julyScorer none none julyConfig ["Peacock 40: NO EVENT", "Peacock 41: NO EVENT"]
        julyStreams [] := by
  refine ⟨List.Perm.swap _ _ _, ?_⟩
  intro h
  have hunparsed := congrArg EventSyncResolution.unparsedMasterNames h
  revert hunparsed
  decide +kernel

end ChannelManager.EventSync
