import ChannelManager.Pipeline.DryRun

/-!
# A dry run and the live run it foretells

The relation a dry run keeps to a live run, step by step: the same channels in the same order with
the names, groups and indices that lookups read, and whatever else the live run has not drifted from.
-/

namespace ChannelManager.Pipeline

/-- What the lookups by name read of a channel. -/
structure Face where
  name : String
  channelGroupId : Option ℤ
  autoCreated : Bool
deriving DecidableEq

def Channel.face (channel : Channel) : Face :=
  ⟨channel.name, channel.channelGroupId, channel.autoCreated⟩

def State.faces (s : State) : Dict ChannelKey Face := s.channels.mapValues fun _ c => c.face

/-- What the lookups by tvg id and by score read of the channels. -/
def State.tags (s : State) : Dict ChannelKey (Face × Option String) :=
  s.channels.mapValues fun _ c => (c.face, c.tvgId)

/-- The stream list held for a channel. -/
def State.streamsOf (s : State) (key : ChannelKey) : Option (List ℤ) :=
  (s.channels.get? key).map Channel.streams

/-- The state `d` of a dry run foretells the state `l` of the live run. -/
structure Foretells (d l : State) : Prop where
  faces : d.faces = l.faces
  tags : l.drift.retagged = false → d.tags = l.tags
  streams : ∀ key, key ∉ l.drift.reordered → d.streamsOf key = l.streamsOf key
  created : d.created = l.created
  byName : d.byName = l.byName
  baseName : d.baseName = l.baseName
  foldKeys : d.foldKeys = l.foldKeys
  fixed : d.fixed = l.fixed
  nextKey : d.nextKey = l.nextKey
  used : d.used = l.used.filter (· ∉ l.drift.setNumbers)
  setNumbers : ∀ n ∈ l.drift.setNumbers, n ∈ l.used
  assigned : ∀ id, d.assigned.get? (.existing id) = l.assigned.get? (.existing id)
  counts : d.counts = l.counts
  seeded : d.seeded = l.seeded
  lastManualBlock : d.lastManualBlock = l.lastManualBlock
  upstream : ∀ key, key ∉ l.drift.written → d.upstream.get? key = l.upstream.get? key
  notLoaded : ∀ key, key ∉ l.channels → key ∉ l.drift.reordered →
    d.upstream.get? key = l.upstream.get? key

/-- A dry turn foretells a live one. -/
structure SameTurn (td tl : Turn) : Prop where
  outcome : td.outcome = tl.outcome
  current : td.ctx.currentChannel = tl.ctx.currentChannel
  state : Foretells td.state tl.state

/-- The manual channel a lookup leaves noted. -/
def State.block (s : State) (blocked : Option ChannelKey) : State :=
  { s with lastManualBlock := blocked }

theorem Foretells.block {d l : State} (h : Foretells d l) (blocked : Option ChannelKey) :
    Foretells (d.block blocked) (l.block blocked) :=
  { h with lastManualBlock := rfl }

/-! ## Channels looked at through what lookups read -/

section Faces

variable {d l : State}

theorem face_of_faces (h : d.faces = l.faces) (key : ChannelKey) :
    (d.channels.get? key).map Channel.face = (l.channels.get? key).map Channel.face := by
  have hget := congrArg (fun faces => faces.get? key) h
  simpa only [State.faces, Dict.get?_mapValues] using hget

/-- A channel of the live run is a channel of the dry run, with the same face. -/
theorem exists_of_faces (h : d.faces = l.faces) {key : ChannelKey} {channel : Channel}
    (hget : l.channels.get? key = some channel) :
    ∃ channel', d.channels.get? key = some channel' ∧ channel'.face = channel.face := by
  have hface := face_of_faces h key
  rw [hget] at hface
  simpa [Option.map_eq_some_iff] using hface

theorem get?_none_of_faces (h : d.faces = l.faces) {key : ChannelKey}
    (hget : l.channels.get? key = none) : d.channels.get? key = none := by
  have hface := face_of_faces h key
  rw [hget] at hface
  simpa using hface

theorem isManualChannel_of_face (cfg : Config) (key : ChannelKey) {channel channel' : Channel}
    (h : channel'.face = channel.face) :
    isManualChannel cfg key channel' = isManualChannel cfg key channel := by
  have hauto := congrArg Face.autoCreated h
  simp only [Channel.face] at hauto
  cases key <;> simp only [isManualChannel, hauto]

/-- The key is that of a channel loaded. -/
def isExisting : ChannelKey → Bool
  | .existing _ => true
  | .created _ => false

/-- The channels loaded, seen through what is read of them. -/
theorem existingChannels_map {α : Type} (view : Channel → α)
    (h : (d.channels.mapValues fun _ c => view c) = l.channels.mapValues fun _ c => view c) :
    (existingChannels d).map (fun e => (e.1, view e.2)) =
      (existingChannels l).map fun e => (e.1, view e.2) := by
  have hfilter : ∀ s : State, (existingChannels s).map (fun e => (e.1, view e.2)) =
      (s.channels.mapValues fun _ c => view c).items.filter fun e => isExisting e.1 := by
    intro s
    change _ = (s.channels.items.map fun e => (e.1, view e.2)).filter fun e => isExisting e.1
    rw [List.filter_map]
    rfl
  rw [hfilter, hfilter, h]

/-- The channels created, seen through what is read of them. -/
theorem createdChannels_map {α : Type} (view : Channel → α)
    (h : (d.channels.mapValues fun _ c => view c) = l.channels.mapValues fun _ c => view c)
    (hcreated : d.created = l.created) :
    (createdChannels d).map (fun e => (e.1, view e.2)) =
      (createdChannels l).map fun e => (e.1, view e.2) := by
  have hread : ∀ s : State, (createdChannels s).map (fun e => (e.1, view e.2)) =
      s.created.values.filterMap fun key =>
        ((s.channels.mapValues fun _ c => view c).get? key).map fun v => (key, v) := by
    intro s
    rw [createdChannels, List.map_filterMap]
    congr 1
    funext key
    rw [Dict.get?_mapValues]
    cases s.channels.get? key <;> rfl
  rw [hread, hread, h, hcreated]

/-- A test on what is read of a channel picks the same channel. -/
theorem findChannel_of_view {α : Type} (view : Channel → α)
    (h : (d.channels.mapValues fun _ c => view c) = l.channels.mapValues fun _ c => view c)
    (hcreated : d.created = l.created) (test : α → Bool) :
    findChannel d (fun c => test (view c)) = findChannel l fun c => test (view c) := by
  have hread : ∀ s : State, findChannel s (fun c => test (view c)) =
      (((existingChannels s ++ createdChannels s).map fun e => (e.1, view e.2)).find?
        fun e => test e.2).map Prod.fst := by
    intro s
    rw [List.find?_map, Option.map_map]
    rfl
  rw [hread, hread, List.map_append, List.map_append, existingChannels_map view h,
    createdChannels_map view h hcreated]

end Faces

/-! ## Lookups find the same channel -/

/-- A lookup finds the same in both states and changes only the manual channel noted. -/
def FindsSame {α : Type} (find : State → α × State) (d l : State) : Prop :=
  ∃ found blocked, find d = (found, d.block blocked) ∧ find l = (found, l.block blocked)

section Lookups

variable {d l : State} (cfg : Config)

theorem firstInScope_of_faces (h : d.faces = l.faces) (scope : Option ℤ) (blockManual : Bool)
    (keys : List ChannelKey) (blocked : Option ChannelKey) :
    firstInScope cfg d.channels scope blockManual keys blocked =
      firstInScope cfg l.channels scope blockManual keys blocked := by
  induction keys generalizing blocked with
  | nil => rfl
  | cons key keys ih =>
    cases hget : l.channels.get? key with
    | none => simp only [firstInScope, hget, get?_none_of_faces h hget, ih]
    | some channel =>
      obtain ⟨channel', hget', hface⟩ := exists_of_faces h hget
      have hgroup : channel'.channelGroupId = channel.channelGroupId :=
        congrArg Face.channelGroupId hface
      simp only [firstInScope, hget, hget', isManualChannel_of_face cfg key hface, hgroup, ih]

theorem eligible_of_faces (h : d.faces = l.faces) (scope : Option ℤ) (blockManual : Bool)
    (keys : List ChannelKey) (blocked : Option ChannelKey) :
    eligible cfg d.channels scope blockManual keys blocked =
      eligible cfg l.channels scope blockManual keys blocked := by
  rw [eligible, eligible]
  congr 1
  funext acc key
  cases hget : l.channels.get? key with
  | none => rw [get?_none_of_faces h hget]
  | some channel =>
    obtain ⟨channel', hget', hface⟩ := exists_of_faces h hget
    have hgroup : channel'.channelGroupId = channel.channelGroupId :=
      congrArg Face.channelGroupId hface
    simp only [hget', isManualChannel_of_face cfg key hface, hgroup]

theorem nameOrder_of_foretells (h : Foretells d l) (name : String) (fold : Bool) :
    nameOrder cfg d name fold = nameOrder cfg l name fold := by
  simp only [nameOrder, fallbackOrder, h.created, h.byName, h.baseName, h.foldKeys, h.fixed]

theorem findChannelByName_same (h : Foretells d l) (name : String) (scope : Option ℤ)
    (blockManual fold : Bool) :
    FindsSame (fun s => findChannelByName cfg s name scope blockManual fold) d l := by
  let walk := firstInScope cfg l.channels scope blockManual (nameOrder cfg l name fold) none
  refine ⟨walk.1, walk.2, ?_, rfl⟩
  simp only [findChannelByName, firstInScope_of_faces cfg h.faces,
    nameOrder_of_foretells cfg h]
  rfl

theorem identityOrder_of_foretells (h : Foretells d l) (name : String) :
    identityOrder cfg d name = identityOrder cfg l name := by
  simp only [identityOrder, h.created, h.byName, h.baseName, h.fixed]

theorem findUnique_same (h : Foretells d l) (name : String) (scope : Option ℤ)
    (blockManual : Bool) :
    FindsSame (fun s => findUniqueChannelByExactIdentity cfg s name scope blockManual) d l := by
  let found := eligible cfg l.channels scope blockManual (identityOrder cfg l name)
    l.lastManualBlock
  refine ⟨if found.1.length = 1 then found.1.head? else none, found.2, ?_, rfl⟩
  simp only [findUniqueChannelByExactIdentity, eligible_of_faces cfg h.faces,
    identityOrder_of_foretells cfg h, h.lastManualBlock]
  rfl

theorem findChannelByTvgId_same (htags : d.tags = l.tags) (hcreated : d.created = l.created)
    (tvgId : Option String) : findChannelByTvgId d tvgId = findChannelByTvgId l tvgId := by
  unfold findChannelByTvgId
  split
  · rfl
  · rfl
  · exact findChannel_of_view (fun c => (c.face, c.tvgId)) htags hcreated
      fun tag => decide (tag.2 = some _)

/-- A candidate, seen through what is read of it, against the best so far. -/
def scoredCandidate (stream : Stream) (minScore : ℚ) (allowedGroups : List ℤ)
    (allowNoCallsign lowestId : Bool) (best : Option (ChannelKey × ℚ))
    (e : ChannelKey × Face × Option String) : Option (ChannelKey × ℚ) :=
  if (e.2.1.channelGroupId.any (· ∈ allowedGroups)) && decide (e.2.1.name ≠ "") then
    match cfg.score stream minScore allowNoCallsign e.2.1.name e.2.2 with
    | none => best
    | some score => better lowestId best e.1 score
  else best

theorem resolveScoredFuzzy_same (htags : d.tags = l.tags) (stream : Stream) (minScore : ℚ)
    (allowedGroups : List ℤ) (allowNoCallsign lowestId : Bool) :
    resolveScoredFuzzy cfg d stream minScore allowedGroups allowNoCallsign lowestId =
      resolveScoredFuzzy cfg l stream minScore allowedGroups allowNoCallsign lowestId := by
  have hread : ∀ s : State,
      resolveScoredFuzzy cfg s stream minScore allowedGroups allowNoCallsign lowestId =
        (((existingChannels s).map fun e => (e.1, e.2.face, e.2.tvgId)).foldl
          (scoredCandidate cfg stream minScore allowedGroups allowNoCallsign lowestId) none).map Prod.fst := by
    intro s
    rw [List.foldl_map]
    rfl
  rw [hread, hread, existingChannels_map (fun c => (c.face, c.tvgId)) htags]

theorem FindsSame.of_eq {α : Type} (h : Foretells d l) (find : State → α)
    (hfind : find d = find l) : FindsSame (fun s => (find s, s)) d l := by
  refine ⟨find l, l.lastManualBlock, ?_, rfl⟩
  change (find d, d) = (find l, { d with lastManualBlock := l.lastManualBlock })
  rw [hfind, ← h.lastManualBlock]

theorem findCore_same (h : Foretells d l) (core : String) :
    FindsSame (fun s => findCore cfg s core) d l := by
  cases hslot : l.fixed.coreName.slot.get? (cfg.naming.lower core) with
  | some key =>
    have hd : findCore cfg d core = (some key, d) := by simp only [findCore, h.fixed, hslot]
    have hl : findCore cfg l core = (some key, l) := by simp only [findCore, hslot]
    have hsame := FindsSame.of_eq h (fun _ => some key) rfl
    simpa only [FindsSame, hd, hl] using hsame
  | none =>
    have hname := findChannelByName_same cfg h core none true false
    simpa only [FindsSame, findCore, h.fixed, hslot] using hname

theorem findByCoreName_same (h : Foretells d l) (core : String) :
    FindsSame (fun s => findByCoreName cfg core s) d l := by
  obtain ⟨found, blocked, hd, hl⟩ := findCore_same cfg h core
  have hd : findCore cfg d core = (found, d.block blocked) := hd
  have hl : findCore cfg l core = (found, l.block blocked) := hl
  cases found with
  | some key => exact ⟨some key, blocked, by simp only [findByCoreName, hd],
      by simp only [findByCoreName, hl]⟩
  | none =>
    have hfixed : (d.block blocked).fixed = (l.block blocked).fixed := h.fixed
    let deparen := cfg.naming.deparen core
    let contained := wordContainment cfg (l.block blocked).fixed.coreName.slot
      (cfg.naming.lower deparen)
    by_cases heq : cfg.naming.lower deparen = cfg.naming.lower core
    · refine ⟨contained, blocked, ?_, ?_⟩
      · simp only [findByCoreName, hd]
        rw [if_pos heq, hfixed]
      · simp only [findByCoreName, hl]
        rw [if_pos heq]
    · obtain ⟨found, blocked', hd', hl'⟩ := findCore_same cfg (h.block blocked) deparen
      have hd' : findCore cfg (d.block blocked) deparen = (found, d.block blocked') := hd'
      have hl' : findCore cfg (l.block blocked) deparen = (found, l.block blocked') := hl'
      refine ⟨found.or contained, blocked', ?_, ?_⟩
      · simp only [findByCoreName, hd]
        rw [if_neg heq, hd', hfixed]
        cases found <;> rfl
      · simp only [findByCoreName, hl]
        rw [if_neg heq, hl']
        cases found <;> rfl

theorem findLoosely_same (h : Foretells d l) (normalizer : Normalizer) (stream : Stream) :
    FindsSame (fun s => findLoosely cfg normalizer stream s) d l := by
  let signed := fun s : State =>
    (filled (normalizer.extractCallSign stream.streamName)).bind s.fixed.callSign.get?
  cases hcore : filled (normalizer.extractCoreName stream.streamName) with
  | none =>
    have hsigned : signed d = signed l := by simp only [signed, h.fixed]
    have hsame := FindsSame.of_eq h signed hsigned
    simpa only [FindsSame, findLoosely, hcore, Option.none_or, signed] using hsame
  | some core =>
    obtain ⟨found, blocked, hd, hl⟩ := findByCoreName_same cfg h core
    have hd : findByCoreName cfg core d = (found, d.block blocked) := hd
    have hl : findByCoreName cfg core l = (found, l.block blocked) := hl
    have hfixed : (d.block blocked).fixed = (l.block blocked).fixed := h.fixed
    refine ⟨found.or (signed (l.block blocked)), blocked, ?_, ?_⟩
    · simp only [findLoosely, hcore, hd, hfixed, signed]
    · simp only [findLoosely, hcore, hl, signed]

/-- The lookups of `merge_streams` agree on the channel and on the manual channel noted. -/
def ResolvesSame (find : State → Option ChannelKey × Option ChannelKey × State) (d l : State) :
    Prop :=
  ∃ found noted blocked, find d = (found, noted, d.block blocked) ∧
    find l = (found, noted, l.block blocked)

theorem findExplicit_same (h : Foretells d l) (params : MergeParams) (opts : RuleOptions)
    (stream : Stream) (htags : readsTvgId params = true → d.tags = l.tags) :
    ResolvesSame (fun s => findExplicit cfg params opts stream s) d l := by
  have hkept : ∀ find : State → Option ChannelKey, find d = find l →
      ResolvesSame (fun s => (find s, none, s)) d l := by
    intro find hfind
    obtain ⟨found, blocked, hd, hl⟩ := FindsSame.of_eq h find hfind
    simp only [Prod.mk.injEq] at hd hl
    exact ⟨found, none, blocked, by simp only [hd.1, ← hd.2], by simp only [hl.1, ← hl.2]⟩
  have hnothing := hkept (fun _ => none) rfl
  cases htarget : params.target with
  | newChannel => simpa only [ResolvesSame, findExplicit, htarget] using hnothing
  | auto => simpa only [ResolvesSame, findExplicit, htarget] using hnothing
  | existingChannel =>
    cases hfind : params.findChannelBy with
    | none => simpa only [ResolvesSame, findExplicit, htarget, hfind] using hnothing
    | some how =>
      cases how with
      | nameExact value =>
        obtain ⟨found, blocked, hd, hl⟩ := findChannelByName_same cfg h (value stream)
          (mergeScope opts) (!opts.allowManualChannelMerge) false
        simp only at hd hl
        refine ⟨found, if found = none then blocked else none, blocked, ?_, ?_⟩
        · simp only [findExplicit, htarget, hfind, hd]
          rfl
        · simp only [findExplicit, htarget, hfind, hl]
          rfl
      | nameRegex test =>
        have hsame := hkept (fun s => findChannel s fun c => test c.name)
          (findChannel_of_view Channel.face h.faces h.created fun face => test face.name)
        simpa only [ResolvesSame, findExplicit, htarget, hfind] using hsame
      | tvgId value =>
        have hreads : readsTvgId params = true := by simp [readsTvgId, hfind]
        have hsame := hkept (fun s => findChannelByTvgId s
            (if filled value = none then stream.tvgId else value))
          (findChannelByTvgId_same (htags hreads) h.created _)
        simpa only [ResolvesSame, findExplicit, htarget, hfind] using hsame

theorem findAuto_same (h : Foretells d l) (params : MergeParams) (opts : RuleOptions)
    (stream : Stream) : FindsSame (fun s => findAuto cfg params opts stream s) d l := by
  by_cases htarget : params.target = .auto
  · have hsame := findUnique_same cfg h (normalizedName cfg opts stream) (mergeScope opts)
      (!opts.allowManualChannelMerge)
    simpa only [FindsSame, findAuto, if_pos htarget] using hsame
  · have hsame := FindsSame.of_eq h (fun _ => (none : Option ChannelKey)) rfl
    simpa only [FindsSame, findAuto, if_neg htarget] using hsame

theorem findFallback_same (h : Foretells d l) (params : MergeParams) (opts : RuleOptions)
    (stream : Stream) (found : Option ChannelKey) :
    FindsSame (fun s => findFallback cfg params opts stream found s) d l := by
  have hkept := FindsSame.of_eq h (fun _ => found) rfl
  cases found with
  | some key => simpa only [FindsSame, findFallback] using hkept
  | none =>
    cases hnormalizer : cfg.normalizer with
    | none => simpa only [FindsSame, findFallback, hnormalizer] using hkept
    | some normalizer =>
      by_cases hloose : params.looseNameMatch = true ∧ opts.normalizationGroupIds ≠ []
      · have hsame := findLoosely_same cfg h normalizer stream
        simpa only [FindsSame, findFallback, hnormalizer, if_pos hloose] using hsame
      · simpa only [FindsSame, findFallback, hnormalizer, if_neg hloose] using hkept

theorem resolveMerge_same (h : Foretells d l) (params : MergeParams) (opts : RuleOptions)
    (stream : Stream) (htags : readsTvgId params = true → d.tags = l.tags) :
    ResolvesSame (fun s => resolveMerge cfg params opts stream s) d l := by
  obtain ⟨found, noted, blocked, hd, hl⟩ := findExplicit_same cfg h params opts stream htags
  simp only at hd hl
  cases found with
  | some key =>
    exact ⟨some key, noted, blocked, by simp only [resolveMerge, hd], by simp only [resolveMerge, hl]⟩
  | none =>
    cases hscore : (if params.looseNameMatch then params.minScore else none) with
    | some minScore =>
      have hreads : readsTvgId params = true := by
        cases hloose : params.looseNameMatch with
        | false => simp [hloose] at hscore
        | true =>
          simp only [hloose, if_true] at hscore
          simp [readsTvgId, hloose, hscore]
      have htags' : (d.block blocked).tags = (l.block blocked).tags := htags hreads
      refine ⟨resolveScoredFuzzy cfg (l.block blocked) stream minScore
        params.targetChannelInGroup params.allowNoCallsign params.lowestId, noted, blocked, ?_, ?_⟩
      · simp only [resolveMerge, hd, hscore, resolveScoredFuzzy_same cfg htags']
      · simp only [resolveMerge, hl, hscore]
    | none =>
      obtain ⟨auto, blocked', hd', hl'⟩ := findAuto_same cfg (h.block blocked) params opts stream
      have hnext := (h.block blocked).block blocked'
      obtain ⟨found, blocked'', hd'', hl''⟩ := findFallback_same cfg hnext params opts stream auto
      simp only at hd' hl' hd'' hl''
      refine ⟨found, if params.target = .auto ∧ auto = none then noted.or blocked' else noted,
        blocked'', ?_, ?_⟩
      · simp only [resolveMerge, hd, hscore, hd', hd'']
        rfl
      · simp only [resolveMerge, hl, hscore, hl', hl'']
        rfl

/-- The rejects agree, and the channel left is one of both states. -/
theorem admitResolved_same (h : Foretells d l) (opts : RuleOptions)
    (found noted : Option ChannelKey) :
    (∃ noted', admitResolved cfg opts found noted d = (none, noted') ∧
      admitResolved cfg opts found noted l = (none, noted')) ∨
    ∃ key cd cl noted', admitResolved cfg opts found noted d = (some (key, cd), noted') ∧
      admitResolved cfg opts found noted l = (some (key, cl), noted') ∧
      d.channels.get? key = some cd ∧ l.channels.get? key = some cl ∧ cd.face = cl.face := by
  cases found with
  | none =>
    refine Or.inl ⟨noted.or l.lastManualBlock, ?_, rfl⟩
    rw [← h.lastManualBlock]
    rfl
  | some key =>
    cases hl : l.channels.get? key with
    | none =>
      have hd := get?_none_of_faces h.faces hl
      refine Or.inl ⟨noted.or l.lastManualBlock, ?_, ?_⟩
      · simp only [admitResolved, Option.bind_some, hd, Option.map_none, h.lastManualBlock]
      · simp only [admitResolved, Option.bind_some, hl, Option.map_none]
    | some cl =>
      obtain ⟨cd, hd, hface⟩ := exists_of_faces h.faces hl
      have hgroup : cd.channelGroupId = cl.channelGroupId := congrArg Face.channelGroupId hface
      have hmanual := isManualChannel_of_face cfg key hface
      simp only [admitResolved, Option.bind_some, hd, hl, Option.map_some, hmanual, hgroup]
      split
      · exact Or.inl ⟨_, rfl, rfl⟩
      · split
        · exact Or.inl ⟨_, rfl, rfl⟩
        · exact Or.inr ⟨key, cd, cl, noted, rfl, rfl, hd, hl, hface⟩

end Lookups

/-! ## Both states follow a write -/

namespace Foretells

variable {d l : State}

theorem called (h : Foretells d l) (calls : ℕ) : Foretells d { l with calls } := { h with }

theorem track (h : Foretells d l) (key : ChannelKey) (accountId : Option ℤ) :
    Foretells (d.trackM3uCount key accountId) (l.trackM3uCount key accountId) := by
  cases accountId with
  | none => exact h
  | some account =>
    have hcounts : (d.trackM3uCount key (some account)).counts =
        (l.trackM3uCount key (some account)).counts := by
      simp only [State.trackM3uCount, h.counts]
    exact { h with counts := hcounts }

theorem setChannel (h : Foretells d l) {key : ChannelKey} {channel' channel : Channel}
    (hface : channel'.face = channel.face)
    (htag : l.drift.retagged = false → channel'.tvgId = channel.tvgId)
    (hstreams : key ∉ l.drift.reordered → channel'.streams = channel.streams) :
    Foretells (d.setChannel key channel') (l.setChannel key channel) := by
  have hfaces : (d.setChannel key channel').faces = (l.setChannel key channel).faces := by
    simp only [State.faces, State.setChannel, Dict.mapValues_set, hface]
    exact congrArg (fun faces => Dict.set faces key channel.face) h.faces
  have htags : l.drift.retagged = false →
      (d.setChannel key channel').tags = (l.setChannel key channel).tags := by
    intro hkept
    simp only [State.tags, State.setChannel, Dict.mapValues_set, hface, htag hkept]
    exact congrArg (fun tags => Dict.set tags key (channel.face, channel.tvgId)) (h.tags hkept)
  have hread : ∀ k, k ∉ l.drift.reordered →
      (d.setChannel key channel').streamsOf k = (l.setChannel key channel).streamsOf k := by
    intro k hk
    by_cases heq : key = k
    · subst heq
      simp only [State.streamsOf, State.setChannel, Dict.get?_set_self, Option.map_some, hstreams hk]
    · simp only [State.streamsOf, State.setChannel, Dict.get?_set_ne _ _ heq]
      exact h.streams k hk
  have hloaded : ∀ k, k ∉ (l.setChannel key channel).channels → k ∉ l.drift.reordered →
      d.upstream.get? k = l.upstream.get? k := by
    intro k hk
    have hold : k ∉ l.channels := fun hmem => hk ((Dict.mem_set _ _ _ _).mpr (Or.inr hmem))
    exact h.notLoaded k hold
  exact { h with faces := hfaces, tags := htags, streams := hread, notLoaded := hloaded }

/-- The live run writes the stream list of a channel it holds. -/
theorem writeStreams (h : Foretells d l) {key : ChannelKey} (streams : List ℤ)
    (hkey : key ∈ l.channels) : Foretells d (l.writeStreams key streams) := by
  have hother : ∀ k, k ≠ key → d.upstream.get? k = l.upstream.get? k →
      d.upstream.get? k = (l.writeStreams key streams).upstream.get? k := by
    intro k hne hsame
    simpa only [State.writeStreams, Dict.get?_set_ne _ _ (Ne.symm hne)] using hsame
  have hupstream : ∀ k, k ∉ (l.writeStreams key streams).drift.written →
      d.upstream.get? k = (l.writeStreams key streams).upstream.get? k := by
    intro k hk
    simp only [State.writeStreams, List.mem_cons, not_or] at hk
    exact hother k hk.1 (h.upstream k hk.2)
  have hloaded : ∀ k, k ∉ l.channels → k ∉ l.drift.reordered →
      d.upstream.get? k = (l.writeStreams key streams).upstream.get? k := by
    intro k hk hr
    have hne : k ≠ key := fun heq => hk (heq ▸ hkey)
    exact hother k hne (h.notLoaded k hk hr)
  exact { h with upstream := hupstream, notLoaded := hloaded }

/-- A stream list is rearranged that the dry run goes on holding as it was. -/
theorem rearranged (h : Foretells d l) {key : ChannelKey} (streams : List ℤ) :
    Foretells d { l.writeStreams key streams with
      drift := { l.drift with
        written := key :: l.drift.written, reordered := key :: l.drift.reordered } } := by
  have hread : ∀ k, k ∉ key :: l.drift.reordered → d.streamsOf k = l.streamsOf k := by
    intro k hk
    simp only [List.mem_cons, not_or] at hk
    exact h.streams k hk.2
  have hupstream : ∀ k, k ∉ key :: l.drift.written →
      d.upstream.get? k = (l.upstream.set key streams).get? k := by
    intro k hk
    simp only [List.mem_cons, not_or] at hk
    rw [Dict.get?_set_ne _ _ (Ne.symm hk.1)]
    exact h.upstream k hk.2
  have hloaded : ∀ k, k ∉ l.channels → k ∉ key :: l.drift.reordered →
      d.upstream.get? k = (l.upstream.set key streams).get? k := by
    intro k hk hr
    simp only [List.mem_cons, not_or] at hr
    rw [Dict.get?_set_ne _ _ (Ne.symm hr.1)]
    exact h.notLoaded k hk hr.2
  exact { h with streams := hread, upstream := hupstream, notLoaded := hloaded }

/-- The streams of a channel are counted from the same list. -/
theorem ensureCounts (h : Foretells d l) (cfg : Config) {key : ChannelKey}
    (hcounts : followsCounts key l = true) :
    Foretells (ensureChannelM3uCounts cfg noFailure d key)
      (ensureChannelM3uCounts cfg noFailure l key) := by
  have hfold : ∀ (streams : List ℤ) (d l : State), Foretells d l →
      Foretells (streams.foldl (fun s id => s.trackM3uCount key (cfg.accountOf id)) d)
        (streams.foldl (fun s id => s.trackM3uCount key (cfg.accountOf id)) l) := by
    intro streams
    induction streams with
    | nil => intro d l h; exact h
    | cons id streams ih => intro d l h; exact ih _ _ (h.track key _)
  by_cases hseeded : key ∈ l.seeded
  · have hseeded' : key ∈ d.seeded := h.seeded ▸ hseeded
    simpa only [ensureChannelM3uCounts, if_pos hseeded, if_pos hseeded'] using h
  · have hseeded' : key ∉ d.seeded := h.seeded ▸ hseeded
    have hwritten : key ∉ l.drift.written := by
      simpa [followsCounts, hseeded] using hcounts
    have hseeds : Foretells
        { d with seeded := key :: d.seeded, calls := d.calls + 1 }
        { l with seeded := key :: l.seeded, calls := l.calls + 1 } :=
      { h with seeded := congrArg (List.cons key) h.seeded }
    simp only [ensureChannelM3uCounts, if_neg hseeded, if_neg hseeded', request, noFailure]
    rw [h.upstream key hwritten]
    cases l.upstream.get? key with
    | none => exact hseeds
    | some streams => exact hfold streams _ _ hseeds

end Foretells

/-! ## Turns that come out the same -/

@[simp] theorem request_noFailure (s : State) :
    request noFailure s = (none, { s with calls := s.calls + 1 }) := rfl

theorem State.setChannel_self {s : State} {key : ChannelKey} {channel : Channel}
    (h : s.channels.get? key = some channel) : s.setChannel key channel = s := by
  rw [State.setChannel, Dict.set_eq_self _ h]

section Turns

variable {d l : State} {key : ChannelKey} {channel' channel : Channel}

theorem Foretells.streams_eq (h : Foretells d l) (hd : d.channels.get? key = some channel')
    (hl : l.channels.get? key = some channel) (hkey : key ∉ l.drift.reordered) :
    channel'.streams = channel.streams := by
  have hread := h.streams key hkey
  simpa [State.streamsOf, hd, hl] using hread

theorem Foretells.tvgId_eq (h : Foretells d l) (hd : d.channels.get? key = some channel')
    (hl : l.channels.get? key = some channel) (hkept : l.drift.retagged = false) :
    channel'.tvgId = channel.tvgId := by
  have hread := congrArg (fun tags => tags.get? key) (h.tags hkept)
  simp only [State.tags, Dict.get?_mapValues, hd, hl, Option.map_some, Option.some.injEq,
    Prod.mk.injEq] at hread
  exact hread.2

/-- The live run alone changes a channel, in nothing the dry run still follows. -/
theorem Foretells.setLive (h : Foretells d l) (hd : d.channels.get? key = some channel')
    (hface : channel'.face = channel.face)
    (htag : l.drift.retagged = false → channel'.tvgId = channel.tvgId)
    (hstreams : key ∉ l.drift.reordered → channel'.streams = channel.streams) :
    Foretells d (l.setChannel key channel) := by
  have hset : Foretells (d.setChannel key channel') (l.setChannel key channel) :=
    h.setChannel hface htag hstreams
  rwa [State.setChannel_self hd] at hset

theorem addStream_same (h : Foretells d l) (hd : d.channels.get? key = some channel')
    (hl : l.channels.get? key = some channel) (hface : channel'.face = channel.face)
    (stream : Stream) (xd xl : Context) (hkey : key ∉ l.drift.reordered) :
    SameTurn (addStreamToChannel noFailure true key channel' stream xd d)
      (addStreamToChannel noFailure false key channel stream xl l) := by
  have hstreams := h.streams_eq hd hl hkey
  have hname : channel'.name = channel.name := congrArg Face.name hface
  by_cases hmem : stream.streamId ∈ channel.streams
  · have hmem' : stream.streamId ∈ channel'.streams := hstreams ▸ hmem
    simp only [addStreamToChannel, if_pos hmem, if_pos hmem', hname]
    exact ⟨rfl, rfl, h⟩
  · have hmem' : stream.streamId ∉ channel'.streams := hstreams ▸ hmem
    let appended := fun c : Channel => { c with streams := c.streams ++ [stream.streamId] }
    let written := { l with calls := l.calls + 1 }.writeStreams key (appended channel).streams
    have hwrite : Foretells d written :=
      (h.called (l.calls + 1)).writeStreams _ (Dict.mem_of_get? hl)
    have htag := h.tvgId_eq hd hl
    have hset : Foretells (d.setChannel key (appended channel'))
        (written.setChannel key (appended channel)) :=
      hwrite.setChannel hface htag fun _ => congrArg (· ++ [stream.streamId]) hstreams
    simp only [addStreamToChannel, if_neg hmem, if_neg hmem', if_true, request_noFailure,
      Bool.false_eq_true, if_false]
    refine ⟨?_, rfl, hset.track key stream.m3uAccountId⟩
    simp only [Turn.outcome, ActionResult.modify, hname, Bool.false_eq_true, if_false]

/-- An update fills in the logo and the tvg id, which the dry run does not. -/
theorem updateChannel_same (h : Foretells d l) (hd : d.channels.get? key = some channel')
    (hl : l.channels.get? key = some channel) (hface : channel'.face = channel.face)
    (stream : Stream) (xd xl : Context) (hchanged : updated channel stream ≠ channel) :
    SameTurn (updateChannel noFailure true key channel' stream xd d)
      (updateChannel noFailure false key channel stream xl l) := by
  have hname : channel'.name = channel.name := congrArg Face.name hface
  let retagged := l.drift.retagged || decide ((updated channel stream).tvgId ≠ channel.tvgId)
  have hdrift : Foretells d
      { l with calls := l.calls + 1, drift := { l.drift with retagged } } := by
    have htags : retagged = false → d.tags = l.tags := by
      intro hkept
      exact h.tags (Bool.or_eq_false_iff.mp hkept).1
    exact { h with tags := htags }
  have htag : retagged = false → channel'.tvgId = (updated channel stream).tvgId := by
    intro hkept
    have hparts := Bool.or_eq_false_iff.mp hkept
    have hsame : (updated channel stream).tvgId = channel.tvgId := by simpa using hparts.2
    rw [hsame]
    exact h.tvgId_eq hd hl hparts.1
  have hstreams := h.streams_eq hd hl
  have hface' : channel'.face = (updated channel stream).face := hface
  have hset := hdrift.setLive hd hface' htag hstreams
  simp only [updateChannel, if_true, Bool.false_eq_true, if_false, if_neg hchanged,
    request_noFailure, hname]
  exact ⟨rfl, rfl, hset⟩

/-- Both runs index the channel they create alike. -/
theorem Foretells.register (h : Foretells d l) (cfg : Config) (baseName : String) (new : Channel)
    {number : ℕ} (hfree : number ∉ l.used) :
    Foretells (d.register cfg baseName new number) (l.register cfg baseName new number) := by
  have hkept : number ∉ l.drift.setNumbers := fun hn => hfree (h.setNumbers number hn)
  have hset : Foretells (d.setChannel (.created l.nextKey) new)
      (l.setChannel (.created l.nextKey) new) := h.setChannel rfl (fun _ => rfl) (fun _ => rfl)
  have hused : number :: d.used = (number :: l.used).filter (· ∉ l.drift.setNumbers) := by
    rw [List.filter_cons_of_pos (by simpa using hkept), h.used]
  have hset' : Foretells (d.setChannel (.created d.nextKey) new)
      (l.setChannel (.created l.nextKey) new) := by
    rw [h.nextKey]
    exact hset
  exact {
    hset' with
    created := by simp only [State.register, h.created, h.nextKey]
    byName := by simp only [State.register, h.byName, h.nextKey]
    baseName := by simp only [State.register, h.baseName, h.nextKey]
    foldKeys := by simp only [State.register, h.foldKeys, h.nextKey]
    nextKey := congrArg (· + 1) h.nextKey
    used := hused
    setNumbers := fun n hn => List.mem_cons_of_mem _ (h.setNumbers n hn) }

theorem createNew_same (h : Foretells d l) (cfg : Config) (params : CreateParams)
    (groupId : Option ℤ) (channelName : String) (stream : Stream) (xd xl : Context)
    (hnumber : followsNumber params.channelNumber l = true) :
    SameTurn (createNew cfg noFailure true params groupId channelName stream xd d)
      (createNew cfg noFailure false params groupId channelName stream xl l) := by
  let number := getNextChannelNumber l.used params.channelNumber
  let new := newChannel number (cfg.numberInName number channelName) groupId stream
  let key := ChannelKey.created l.nextKey
  have hsame : getNextChannelNumber d.used params.channelNumber = number := by
    rw [h.used]
    exact of_decide_eq_true hnumber
  have hregister := (h.called (l.calls + 1)).register cfg channelName new
    (getNextChannelNumber_not_mem l.used params.channelNumber)
  have hkey : key ∈ ({ l with calls := l.calls + 1 }.register cfg channelName new number).channels :=
    (Dict.mem_set _ _ _ _).mpr (Or.inl rfl)
  have hwrite := hregister.writeStreams new.streams hkey
  simp only [createNew, if_true, Bool.false_eq_true, if_false, request_noFailure, hsame]
  refine ⟨?_, ?_, ?_⟩
  · simp only [Turn.outcome, if_true, h.nextKey]
    rfl
  · simp only [h.nextKey]
  · have hassigned : ∀ id, d.assigned.get? (.existing id) =
        (l.assigned.set key number).get? (.existing id) := by
      intro id
      rw [Dict.get?_set_ne _ _ (by simp [key])]
      exact h.assigned id
    exact { hwrite with assigned := hassigned }

theorem renamedTo_of_face (cfg : Config) (opts : RuleOptions) (name : String)
    (hface : channel'.face = channel.face) :
    renamedTo cfg opts channel' name = renamedTo cfg opts channel name := by
  have hname : channel'.name = channel.name := congrArg Face.name hface
  simp only [renamedTo, hname]

theorem useExisting_same (h : Foretells d l) (hd : d.channels.get? key = some channel')
    (hl : l.channels.get? key = some channel) (hface : channel'.face = channel.face) (cfg : Config)
    (params : CreateParams) (opts : RuleOptions) (channelName : String) (stream : Stream)
    (xd xl : Context)
    (hfollows : followsExisting cfg params opts key channel channelName stream l = true) :
    SameTurn (useExisting cfg noFailure true params opts key channel' channelName stream xd d)
      (useExisting cfg noFailure false params opts key channel channelName stream xl l) := by
  rw [followsExisting, Bool.and_eq_true] at hfollows
  obtain ⟨hrename, hfollows⟩ := hfollows
  have hkept : renamedTo cfg opts channel channelName = none := of_decide_eq_true hrename
  have hkept' : renamedTo cfg opts channel' channelName = none := by
    rw [renamedTo_of_face cfg opts channelName hface, hkept]
  simp only [useExisting, renameExisting, hkept, hkept', hd, hl, Option.getD_some]
  cases hexists : params.ifExists with
  | skip => exact ⟨rfl, rfl, h⟩
  | update =>
    simp only [hexists] at hfollows
    exact updateChannel_same h hd hl hface stream xd xl (of_decide_eq_true hfollows)
  | merge =>
    simp only [hexists] at hfollows
    exact addStream_same h hd hl hface stream xd xl (of_decide_eq_true hfollows)
  | mergeOnly =>
    simp only [hexists] at hfollows
    exact addStream_same h hd hl hface stream xd xl (of_decide_eq_true hfollows)

theorem createUnlessMergeOnly_same (h : Foretells d l) (cfg : Config) (params : CreateParams)
    (opts : RuleOptions) (channelName : String) (stream : Stream) (xd xl : Context)
    (hx : xd.currentChannel = xl.currentChannel)
    (hfollows : (decide (params.ifExists = .mergeOnly) ||
      followsNumber params.channelNumber l) = true) :
    SameTurn (createUnlessMergeOnly cfg noFailure true params opts channelName stream xd d)
      (createUnlessMergeOnly cfg noFailure false params opts channelName stream xl l) := by
  by_cases hexists : params.ifExists = .mergeOnly
  · simp only [createUnlessMergeOnly, if_pos hexists]
    exact ⟨rfl, hx, h⟩
  · simp only [createUnlessMergeOnly, if_neg hexists]
    rw [decide_eq_false hexists, Bool.false_or] at hfollows
    exact createNew_same h cfg params _ channelName stream xd xl hfollows

/-- `create_channel` finds the same channel, or none, in both runs. -/
theorem executeCreateChannel_same (h : Foretells d l) (cfg : Config) (params : CreateParams)
    (opts : RuleOptions) (stream : Stream) (xd xl : Context)
    (hx : xd.currentChannel = xl.currentChannel)
    (hfollows : followsCreate cfg params opts stream l = true) :
    SameTurn (executeCreateChannel cfg noFailure true params opts stream xd d)
      (executeCreateChannel cfg noFailure false params opts stream xl l) := by
  obtain ⟨found, blocked, hd, hl⟩ := findChannelByName_same cfg h
    (channelNameFor cfg params opts stream) (createScope params opts)
    (!opts.allowManualChannelMerge) opts.foldMatchKey
  simp only at hd hl
  have hblock := h.block blocked
  have hget : ∀ (s : State) (key : ChannelKey),
      (s.block blocked).channels.get? key = s.channels.get? key := fun _ _ => rfl
  simp only [followsCreate, hl, hget] at hfollows
  simp only [executeCreateChannel, hd, hl, hget]
  cases found with
  | none => exact createUnlessMergeOnly_same hblock cfg params opts _ stream xd xl hx hfollows
  | some key =>
    cases hgetl : l.channels.get? key with
    | none =>
      have hgetd := get?_none_of_faces h.faces hgetl
      simp only [Option.bind_some, hgetl, hgetd, Option.map_none] at hfollows ⊢
      exact createUnlessMergeOnly_same hblock cfg params opts _ stream xd xl hx hfollows
    | some channel =>
      obtain ⟨channel', hgetd, hface⟩ := exists_of_faces h.faces hgetl
      simp only [Option.bind_some, hgetl, hgetd, Option.map_some] at hfollows ⊢
      exact useExisting_same hblock hgetd hgetl hface cfg params opts _ stream xd xl hfollows

/-! ## The other actions -/

/-- Counting a channel's streams changes no channel and no list. -/
theorem ensureCounts_keeps (cfg : Config) (s : State) (key : ChannelKey) :
    (ensureChannelM3uCounts cfg noFailure s key).channels = s.channels ∧
      (ensureChannelM3uCounts cfg noFailure s key).drift = s.drift := by
  have hfold : ∀ (streams : List ℤ) (s : State),
      (streams.foldl (fun s id => s.trackM3uCount key (cfg.accountOf id)) s).channels =
        s.channels ∧
      (streams.foldl (fun s id => s.trackM3uCount key (cfg.accountOf id)) s).drift = s.drift := by
    intro streams
    induction streams with
    | nil => intro s; exact ⟨rfl, rfl⟩
    | cons id streams ih =>
      intro s
      have htrack : (s.trackM3uCount key (cfg.accountOf id)).channels = s.channels ∧
          (s.trackM3uCount key (cfg.accountOf id)).drift = s.drift := by
        cases hid : cfg.accountOf id <;> exact ⟨rfl, rfl⟩
      rw [List.foldl_cons, (ih _).1, (ih _).2]
      exact htrack
  by_cases hseeded : key ∈ s.seeded
  · simp only [ensureChannelM3uCounts, if_pos hseeded, and_self]
  · simp only [ensureChannelM3uCounts, if_neg hseeded, request_noFailure]
    cases s.upstream.get? key with
    | none => exact ⟨rfl, rfl⟩
    | some streams => exact hfold streams _

theorem mergeInto_same (h : Foretells d l) (hd : d.channels.get? key = some channel')
    (hl : l.channels.get? key = some channel) (hface : channel'.face = channel.face) (cfg : Config)
    (params : MergeParams) (stream : Stream) (xd xl : Context)
    (hx : xd.currentChannel = xl.currentChannel)
    (hfollows : followsMergeInto cfg params key channel stream l = true) :
    SameTurn (mergeInto cfg noFailure true params key channel' stream xd d)
      (mergeInto cfg noFailure false params key channel stream xl l) := by
  have hname : channel'.name = channel.name := congrArg Face.name hface
  have hgroup : channel'.channelGroupId = channel.channelGroupId :=
    congrArg Face.channelGroupId hface
  have hallowed : targetGroupAllowed params channel' = targetGroupAllowed params channel := by
    simp only [targetGroupAllowed, hgroup]
  cases hgate : targetGroupAllowed params channel with
  | false =>
    simp only [mergeInto, hallowed, hgate, Bool.not_false, if_true, hname]
    exact ⟨rfl, hx, h⟩
  | true =>
    simp only [followsMergeInto, hgate, Bool.not_true, Bool.false_or] at hfollows
    simp only [mergeInto, hallowed, hgate, Bool.not_true, Bool.false_eq_true, if_false, hname]
    cases hlimit : limitedAccount params stream with
    | none =>
      simp only [hlimit] at hfollows
      exact addStream_same h hd hl hface stream xd xl (of_decide_eq_true hfollows)
    | some account =>
      simp only [hlimit, Bool.and_eq_true] at hfollows
      have hensure := h.ensureCounts cfg hfollows.1
      have hcounts := hensure.counts
      obtain ⟨hchannels', -⟩ := ensureCounts_keeps cfg d key
      obtain ⟨hchannels, hdrift⟩ := ensureCounts_keeps cfg l key
      dsimp only
      rw [hcounts]
      by_cases hfull : params.maxStreamsPerChannel ≤
          ((ensureChannelM3uCounts cfg noFailure l key).counts.get? (key, account)).getD 0
      · rw [if_pos hfull, if_pos hfull]
        exact ⟨rfl, hx, hensure⟩
      · rw [if_neg hfull, if_neg hfull]
        have hstreams := hfollows.2
        rw [decide_eq_false hfull, Bool.false_or] at hstreams
        exact addStream_same hensure (by rw [hchannels', hd]) (by rw [hchannels, hl]) hface stream
          xd xl (by rw [hdrift]; exact of_decide_eq_true hstreams)

/-- `merge_streams` settles on the same channel, or on none, in both runs. -/
theorem executeMergeStreams_same (h : Foretells d l) (cfg : Config) (params : MergeParams)
    (opts : RuleOptions) (stream : Stream) (xd xl : Context)
    (hx : xd.currentChannel = xl.currentChannel)
    (hfollows : followsMerge cfg params opts stream l = true) :
    SameTurn (executeMergeStreams cfg noFailure true params opts stream xd d)
      (executeMergeStreams cfg noFailure false params opts stream xl l) := by
  by_cases htarget : params.target = .newChannel
  · simp only [executeMergeStreams, if_pos htarget]
    exact ⟨rfl, hx, h⟩
  · rw [followsMerge, decide_eq_false htarget, Bool.false_or, Bool.and_eq_true] at hfollows
    obtain ⟨hretag, hfollows⟩ := hfollows
    have htags : readsTvgId params = true → d.tags = l.tags := by
      intro hreads
      rw [hreads, Bool.true_and, Bool.not_eq_true'] at hretag
      exact h.tags hretag
    obtain ⟨found, noted, blocked, hd, hl⟩ := resolveMerge_same cfg h params opts stream htags
    simp only at hd hl
    have hblock := h.block blocked
    simp only [hl] at hfollows
    simp only [executeMergeStreams, if_neg htarget, hd, hl]
    obtain ⟨noted', hnd, hnl⟩ | ⟨key, channel', channel, noted', had, hal, hgetd, hgetl, hface⟩ :=
      admitResolved_same cfg hblock opts found noted
    · simp only [hnd, hnl]
      have hnames : (noted'.bind (d.block blocked).channels.get?).map Channel.name =
          (noted'.bind (l.block blocked).channels.get?).map Channel.name := by
        cases noted' with
        | none => rfl
        | some key =>
          have hread := congrArg (Option.map Face.name) (face_of_faces h.faces key)
          rw [Option.map_map, Option.map_map] at hread
          exact hread
      simp only [mergeNothing, hnames]
      split
      · exact ⟨rfl, hx, hblock⟩
      · exact ⟨rfl, hx, hblock⟩
    · simp only [hal] at hfollows
      simp only [had, hal]
      exact mergeInto_same hblock hgetd hgetl hface cfg params stream xd xl hx hfollows

/-- A number is noted for a channel that was there at the start. -/
theorem Foretells.setNumber (h : Foretells d l) (id : ℤ) (number : ℕ) :
    Foretells (d.setNumber (.existing id) number) (l.setNumber (.existing id) number) := by
  have hassigned : ∀ i, (d.assigned.set (.existing id) number).get? (.existing i) =
      (l.assigned.set (.existing id) number).get? (.existing i) := by
    intro i
    rw [Dict.get?_set, Dict.get?_set, h.assigned i]
  have hnoted : Foretells { d with assigned := d.assigned.set (.existing id) number }
      { l with assigned := l.assigned.set (.existing id) number } :=
    { h with assigned := hassigned }
  cases hgetl : l.channels.get? (.existing id) with
  | none =>
    have hgetd := get?_none_of_faces h.faces hgetl
    simp only [State.setNumber, hgetl, hgetd]
    exact hnoted
  | some channel =>
    obtain ⟨channel', hgetd, hface⟩ := exists_of_faces h.faces hgetl
    have htag := h.tvgId_eq hgetd hgetl
    have hstreams := h.streams_eq hgetd hgetl
    simp only [State.setNumber, hgetl, hgetd]
    exact hnoted.setChannel hface htag hstreams

/-- The live run alone marks a number set as used. -/
theorem Foretells.markSet (h : Foretells d l) {number : ℕ} (hfree : number ∉ l.used) :
    Foretells d { l with
      used := number :: l.used
      drift := { l.drift with setNumbers := number :: l.drift.setNumbers } } := by
  have hused : d.used = (number :: l.used).filter (· ∉ number :: l.drift.setNumbers) := by
    have hother : ∀ n ∈ l.used, (n ∉ number :: l.drift.setNumbers) = (n ∉ l.drift.setNumbers) := by
      intro n hn
      have hne : n ≠ number := fun heq => hfree (heq ▸ hn)
      simp [hne]
    rw [List.filter_cons_of_neg (by simp), h.used]
    apply List.filter_congr
    intro n hn
    simp only [hother n hn]
  have hsub : ∀ n ∈ number :: l.drift.setNumbers, n ∈ number :: l.used := by
    intro n hn
    rcases List.mem_cons.mp hn with rfl | hn
    · exact List.mem_cons_self
    · exact List.mem_cons_of_mem _ (h.setNumbers n hn)
  exact { h with used := hused, setNumbers := hsub }

theorem setNumber_drift (s : State) (key : ChannelKey) (number : ℕ) :
    (s.setNumber key number).drift = s.drift := by
  cases hget : s.channels.get? key <;> simp only [State.setNumber, hget, State.setChannel]

theorem executeSetChannelNumber_same (h : Foretells d l) (value : NumberSpec) (xd xl : Context)
    (hx : xd.currentChannel = xl.currentChannel) (hfollows : followsSetNumber value xl l = true) :
    SameTurn (executeSetChannelNumber noFailure true value xd d)
      (executeSetChannelNumber noFailure false value xl l) := by
  cases hcurrent : xl.currentChannel.filter (· ≠ .existing 0) with
  | none =>
    simp only [executeSetChannelNumber, hx, hcurrent]
    exact ⟨rfl, hx, h⟩
  | some key =>
    cases key with
    | created n =>
      rw [followsSetNumber, hcurrent] at hfollows
      exact absurd hfollows Bool.false_ne_true
    | existing id =>
      simp only [followsSetNumber, hcurrent] at hfollows
      cases hassigned : l.assigned.get? (.existing id) with
      | some number =>
        simp only [executeSetChannelNumber, hx, hcurrent, h.assigned, hassigned]
        exact ⟨rfl, hx, h⟩
      | none =>
        rw [hassigned, Option.isSome_none, Bool.false_or] at hfollows
        have hsame : getNextChannelNumber d.used value = getNextChannelNumber l.used value := by
          rw [h.used]
          exact of_decide_eq_true hfollows
        let number := getNextChannelNumber l.used value
        let numbered := { l with calls := l.calls + 1 }.setNumber (.existing id) number
        have hnumbered : Foretells (d.setNumber (.existing id) number) numbered :=
          (h.called (l.calls + 1)).setNumber id number
        have hused : numbered.used = l.used := setNumber_used _ _ _
        have hdrift : numbered.drift = l.drift := setNumber_drift _ _ _
        have hfree : number ∉ numbered.used := by
          rw [hused]
          exact getNextChannelNumber_not_mem l.used value
        have hmarked := hnumbered.markSet hfree
        rw [hused, hdrift] at hmarked
        simp only [executeSetChannelNumber, hx, hcurrent, h.assigned, hassigned, hsame, if_true,
          Bool.false_eq_true, if_false, request_noFailure]
        exact ⟨rfl, hx, hmarked⟩

/-- The dry run keeps the list it has, whatever the live run makes of its own. -/
theorem rewriteStreams_same (h : Foretells d l) (actionType : String) (entity : Entity)
    (key : ChannelKey) (streams : List ℤ) (xd xl : Context)
    (hx : xd.currentChannel = xl.currentChannel) :
    SameTurn (rewriteStreams noFailure true actionType entity key streams xd d)
      (rewriteStreams noFailure false actionType entity key streams xl l) := by
  let written := { l with calls := l.calls + 1 }.writeStreams key streams
  have hrearranged : Foretells d { written with
      drift := { written.drift with reordered := key :: l.drift.reordered } } :=
    (h.called (l.calls + 1)).rearranged streams
  have hchannels : ({ l with calls := l.calls + 1 }.writeStreams key streams).channels =
      l.channels := rfl
  simp only [rewriteStreams, if_true, Bool.false_eq_true, if_false, request_noFailure, hchannels]
  cases hgetl : l.channels.get? key with
  | none => exact ⟨rfl, hx, hrearranged⟩
  | some channel =>
    obtain ⟨channel', hgetd, hface⟩ := exists_of_faces h.faces hgetl
    let rewritten := { channel with streams }
    have hface' : channel'.face = rewritten.face := hface
    have htag := h.tvgId_eq hgetd hgetl
    have hlist : key ∉ key :: l.drift.reordered → channel'.streams = rewritten.streams :=
      fun hkey => absurd List.mem_cons_self hkey
    exact ⟨rfl, hx, hrearranged.setLive hgetd hface' htag hlist⟩

theorem fetchStreams_same (h : Foretells d l) (hkey : key ∉ l.drift.reordered) :
    ∃ answer : Except String (List ℤ), ∃ callsd callsl : ℕ,
      fetchStreams noFailure key d = (answer, { d with calls := callsd }) ∧
      fetchStreams noFailure key l = (answer, { l with calls := callsl }) := by
  cases hgetl : l.channels.get? key with
  | some channel =>
    obtain ⟨channel', hgetd, hface⟩ := exists_of_faces h.faces hgetl
    have hstreams := h.streams_eq hgetd hgetl hkey
    refine ⟨.ok channel.streams, d.calls, l.calls, ?_, ?_⟩
    · simp only [fetchStreams, hgetd, hstreams]
    · simp only [fetchStreams, hgetl]
  | none =>
    have hgetd := get?_none_of_faces h.faces hgetl
    have hupstream := h.notLoaded key ((Dict.get?_eq_none _ _).mp hgetl) hkey
    cases hread : l.upstream.get? key with
    | none =>
      rw [hread] at hupstream
      refine ⟨.error "404 Not Found", d.calls + 1, l.calls + 1, ?_, ?_⟩
      · simp only [fetchStreams, hgetd, request_noFailure, hupstream]
      · simp only [fetchStreams, hgetl, request_noFailure, hread]
    | some streams =>
      rw [hread] at hupstream
      refine ⟨.ok streams, d.calls + 1, l.calls + 1, ?_, ?_⟩
      · simp only [fetchStreams, hgetd, request_noFailure, hupstream]
      · simp only [fetchStreams, hgetl, request_noFailure, hread]

theorem rearrange_same (h : Foretells d l) (actionType : String) (entity : ChannelKey → Entity)
    (arrange : List ℤ → List ℤ) (stream : Stream) (xd xl : Context)
    (hx : xd.currentChannel = xl.currentChannel) (hfollows : followsRearrange stream l = true) :
    SameTurn (rearrange noFailure true actionType entity arrange stream xd d)
      (rearrange noFailure false actionType entity arrange stream xl l) := by
  cases hchannel : stream.channelId.filter (· ≠ 0) with
  | none =>
    simp only [rearrange, hchannel]
    exact ⟨rfl, hx, h⟩
  | some id =>
    rw [followsRearrange, hchannel, Option.all_some] at hfollows
    obtain ⟨answer, callsd, callsl, hd, hl⟩ := fetchStreams_same h (of_decide_eq_true hfollows)
    have hcalled : Foretells { d with calls := callsd } { l with calls := callsl } := { h with }
    simp only [rearrange, hchannel, hd, hl]
    cases answer with
    | error error => exact ⟨rfl, hx, hcalled⟩
    | ok streams =>
      dsimp only
      split
      · exact ⟨rfl, hx, hcalled⟩
      · exact rewriteStreams_same hcalled actionType _ _ _ xd xl hx

end Turns

/-! ## Runs -/

section Runs

variable {d l : State} (cfg : Config)

/-- One action, step by step: a dry run that has followed so far follows on. -/
theorem execute_same (h : Foretells d l) (action : Action) (opts : RuleOptions) (stream : Stream)
    {xd xl : Context} (hx : xd.currentChannel = xl.currentChannel)
    (hfollows : follows cfg action opts stream xl l = true) :
    SameTurn (execute cfg noFailure true action opts stream xd d)
      (execute cfg noFailure false action opts stream xl l) := by
  have hturn : ∀ {td tl : Turn}, SameTurn td tl →
      SameTurn { td with ctx := { td.ctx with results := td.ctx.results ++ [td.result] } }
        { tl with ctx := { tl.ctx with results := tl.ctx.results ++ [tl.result] } } :=
    fun hsame => ⟨hsame.outcome, hsame.current, hsame.state⟩
  cases action with
  | createChannel params =>
    exact hturn (executeCreateChannel_same h cfg params opts stream xd xl hx hfollows)
  | mergeStreams params =>
    exact hturn (executeMergeStreams_same h cfg params opts stream xd xl hx hfollows)
  | setChannelNumber value => exact hturn (executeSetChannelNumber_same h value xd xl hx hfollows)
  | setStreamPriority highest =>
    exact hturn (rearrange_same h _ _ _ stream xd xl hx hfollows)
  | removeFromChannel => exact hturn (rearrange_same h _ _ _ stream xd xl hx hfollows)

theorem executeActions_same (stream : Stream) (actions : List (Action × RuleOptions))
    {xd xl : Context} (hx : xd.currentChannel = xl.currentChannel) (h : Foretells d l)
    (hfollows : followsActions cfg stream actions xl l = true) :
    (executeActions cfg noFailure true stream actions xd d).1 =
        (executeActions cfg noFailure false stream actions xl l).1 ∧
      Foretells (executeActions cfg noFailure true stream actions xd d).2
        (executeActions cfg noFailure false stream actions xl l).2 := by
  induction actions generalizing xd xl d l with
  | nil => exact ⟨rfl, h⟩
  | cons a actions ih =>
    rw [followsActions, Bool.and_eq_true] at hfollows
    have hturn := execute_same cfg h a.1 a.2 stream hx hfollows.1
    have hrest := ih hturn.current hturn.state hfollows.2
    simp only [executeActions, hturn.outcome, hrest.1, true_and]
    exact hrest.2

theorem executeJobs_same (jobs : List Job) (h : Foretells d l)
    (hfollows : followsJobs cfg jobs l = true) :
    (executeJobs cfg noFailure true jobs d).1 = (executeJobs cfg noFailure false jobs l).1 ∧
      Foretells (executeJobs cfg noFailure true jobs d).2
        (executeJobs cfg noFailure false jobs l).2 := by
  induction jobs generalizing d l with
  | nil => exact ⟨rfl, h⟩
  | cons job jobs ih =>
    rw [followsJobs, Bool.and_eq_true] at hfollows
    have hjob := executeActions_same cfg job.stream job.actions rfl h hfollows.1
    have hrest := ih hjob.2 hfollows.2
    simp only [executeJobs, hjob.1, hrest.1, true_and]
    exact hrest.2

/-- Both runs start from one state. -/
theorem Foretells.start (existing : Dict ℤ Channel) (elsewhere : Dict ℤ (List ℤ)) :
    Foretells (State.start cfg existing elsewhere) (State.start cfg existing elsewhere) where
  faces := rfl
  tags := fun _ => rfl
  streams := fun _ _ => rfl
  created := rfl
  byName := rfl
  baseName := rfl
  foldKeys := rfl
  fixed := rfl
  nextKey := rfl
  used := by simp [State.start]
  setNumbers := fun n hn => absurd hn List.not_mem_nil
  assigned := fun _ => rfl
  counts := rfl
  seeded := rfl
  lastManualBlock := rfl
  upstream := fun _ _ => rfl
  notLoaded := fun _ _ _ => rfl

/-- In every run whose steps a dry run follows, the dry run reports, action by action, what the live
run does. -/
theorem dry_run_foretells (existing : Dict ℤ Channel) (elsewhere : Dict ℤ (List ℤ))
    (jobs : List Job)
    (hfollows : followsJobs cfg jobs (State.start cfg existing elsewhere) = true) :
    (executeJobs cfg noFailure true jobs (State.start cfg existing elsewhere)).1 =
      (executeJobs cfg noFailure false jobs (State.start cfg existing elsewhere)).1 :=
  (executeJobs_same cfg jobs (Foretells.start cfg existing elsewhere) hfollows).1

end Runs

section Sample

/-- Names that are lower case and have no number prefix, and no normalization engine. -/
def plainConfig : Config where
  naming := ⟨id, fun name => [name], id, fun name => ("", name), id⟩
  normalizer := none
  numberInName := fun _ name => name
  score := fun _ _ _ _ _ => none
  accountOf := fun _ => none
  managed := []

def plainOptions : RuleOptions := ⟨some 3, [], true, none, false, false⟩

def plainStream (id : ℤ) (name : String) (channelId : Option ℤ) : Stream :=
  ⟨id, name, none, none, none, channelId⟩

/-- `create_channel` by the stream's name. -/
def createByName (ifExists : IfExists) : Action :=
  .createChannel ⟨Stream.streamName, none, ifExists, .auto⟩

/-- One automatic channel, with one stream. -/
def oneChannel : Dict ℤ Channel :=
  Dict.ofList [(7, ⟨"news", some 3, some 10, [1], none, none, true⟩)]

theorem dry_run_foretells_merge :
    (executeJobs plainConfig noFailure true
        [⟨plainStream 2 "news" none, [(createByName .merge, plainOptions)]⟩,
          ⟨plainStream 3 "sport" none, [(createByName .merge, plainOptions)]⟩,
          ⟨plainStream 4 "sport" (some 7), [(createByName .merge, plainOptions),
            (.removeFromChannel, plainOptions)]⟩]
        (State.start plainConfig oneChannel ∅)).1 =
      (executeJobs plainConfig noFailure false
        [⟨plainStream 2 "news" none, [(createByName .merge, plainOptions)]⟩,
          ⟨plainStream 3 "sport" none, [(createByName .merge, plainOptions)]⟩,
          ⟨plainStream 4 "sport" (some 7), [(createByName .merge, plainOptions),
            (.removeFromChannel, plainOptions)]⟩]
        (State.start plainConfig oneChannel ∅)).1 :=
  dry_run_foretells plainConfig oneChannel ∅ _ (by decide +kernel)

/-- A rule that creates a channel and then numbers it: the live run has numbered the channel when it
created it, the dry run has not. -/
theorem dry_run_numbers_twice :
    ¬ ∀ (cfg : Config) (existing : Dict ℤ Channel) (elsewhere : Dict ℤ (List ℤ))
      (jobs : List Job),
      (executeJobs cfg noFailure true jobs (State.start cfg existing elsewhere)).1 =
        (executeJobs cfg noFailure false jobs (State.start cfg existing elsewhere)).1 := by
  intro hclaim
  have hrun := hclaim plainConfig ∅ ∅ [⟨plainStream 2 "news" none,
    [(createByName .merge, plainOptions), (.setChannelNumber (.literal 500), plainOptions)]⟩]
  exact absurd hrun (by decide +kernel)

end Sample

end ChannelManager.Pipeline
