import ChannelManager.EventSync.Attach
import ChannelManager.EventSync.Obeyed

/-!
# Attaching run after run

Every resolved stream is counted once, no more are attached than the cap allows, and an attached stream
stands once behind the streams its master had. A run whose calls go through attaches the first of the
streams that are not on their master, so that runs in a row attach all of them.
-/

namespace ChannelManager.EventSync

/-- The counts a resolved stream can be under. -/
def outcomes : List Count :=
  [.parseFailed, .unmatched, .excludedByOperator, .ambiguousSkipped, .attached, .alreadyAttached,
    .attachErrors, .capOverage]

/-- A stream may be counted so. -/
def Decision.Fits : Decision → Count → Prop
  | .parseFailed, count => count = .parseFailed
  | .unmatched, count => count = .unmatched
  | .excludedByOperator, count => count = .excludedByOperator
  | .ambiguous _ _, count => count = .ambiguousSkipped
  | .unknown _, count => count = .attachErrors
  | .wouldAttach _ _, count => count ∈ [.attached, .alreadyAttached, .attachErrors, .capOverage]

section Resolved

variable {π : Type} {scorer : Scorer π} {decisions : Option ReviewDecisions}
  {exclusions : Option (List PairingKey)} {config : EventSyncConfig π} {masterNames : List String}
  {streams : List SecondaryStream} {attachedStreamIds : List ℤ} {row : ResolvedStream}

/-- The resolver says to which master a stream is to be attached. -/
theorem best_of_wouldAttach
    (hrow : row ∈ (resolveEventSync scorer decisions exclusions config masterNames streams
      attachedStreamIds).resolved) (h : row.disposition = .wouldAttach) : ∃ best, row.best = some best := by
  obtain ⟨groupId, _, hgroup⟩ := List.mem_flatMap.mp hrow
  rw [resolveGroup_eq] at hgroup
  obtain ⟨stream, _, rfl⟩ := List.mem_map.mp hgroup
  obtain ⟨best, _, hbest, _⟩ := resolveStream_wouldAttach scorer decisions exclusions rfl h
  exact ⟨best, hbest⟩

/-- The executor can decide on every row of the resolver. -/
theorem decided_isSome
    (hrow : row ∈ (resolveEventSync scorer decisions exclusions config masterNames streams
      attachedStreamIds).resolved) : (decided row).isSome := by
  rw [decided, Option.isSome_map]
  cases hdisposition : row.disposition with
  | parseFailed => rfl
  | unmatched => rfl
  | excludedByOperator => rfl
  | ambiguous => rfl
  | wouldAttach =>
    obtain ⟨best, hbest⟩ := best_of_wouldAttach hrow hdisposition
    rw [hbest]
    rfl

end Resolved

/-- The channels and streams of the entries that attached one. -/
def Attaching.attachments (s : Attaching) : List (ℤ × Option ℤ) :=
  (s.attachEntries.filter (·.result = .added)).map fun e => (e.entityId, e.streamId)

/-- The streams attached to a channel, in order. -/
def attachedTo (attachments : List (ℤ × Option ℤ)) (channelId : ℤ) : List (Option ℤ) :=
  (attachments.filter (·.1 = channelId)).map (·.2)

/-- Where a stream is to be attached: its master is among the channels. -/
def target (setup : AttachSetup) (channels : ChannelStreams) (row : DecidedStream) :
    Option (ℤ × Option ℤ) :=
  match row.decision with
  | .wouldAttach best _ =>
    (setup.nameToId.get? best.masterName).bind fun c =>
      if c ∈ channels then some (c, row.stream.streamId) else none
  | _ => none

/-- Nothing is attached. -/
structure Kept (s s' : Attaching) : Prop where
  cache : s'.cache = s.cache
  store : s'.store = s.store
  attachments : s'.attachments = s.attachments
  attached : s'.counts .attached = s.counts .attached

/-- A stream is attached to a channel that had some streams. -/
structure Added (setup : AttachSetup) (s s' : Attaching) (channelId : ℤ) (streams : List (Option ℤ))
    (streamId : Option ℤ) : Prop where
  cache : s'.cache = s.cache.set channelId (streams ++ [streamId])
  store : s'.store = if setup.dryRun then s.store else s.store.set channelId (streams ++ [streamId])
  attachments : s'.attachments = s.attachments ++ [(channelId, streamId)]
  attached : s'.counts .attached = s.counts .attached + 1

section Bump

variable (s : Attaching) (count : Count) (n : ℕ)

@[simp] theorem bump_cache : (s.bump count n).cache = s.cache := rfl

@[simp] theorem bump_store : (s.bump count n).store = s.store := rfl

@[simp] theorem bump_calls : (s.bump count n).calls = s.calls := rfl

@[simp] theorem bump_attachEntries : (s.bump count n).attachEntries = s.attachEntries := rfl

@[simp] theorem bump_counts (other : Count) :
    (s.bump count n).counts other = s.counts other + if other = count then n else 0 := by
  rw [Attaching.bump]
  by_cases h : other = count
  · subst h
    simp
  · simp [h]

end Bump

theorem kept_bump (s : Attaching) {count : Count} (n : ℕ) (h : count ≠ .attached) :
    Kept s (s.bump count n) :=
  ⟨rfl, rfl, rfl, by rw [bump_counts, if_neg h.symm, Nat.add_zero]⟩

theorem Kept.trans {s s' s'' : Attaching} (h : Kept s s') (h' : Kept s' s'') : Kept s s'' :=
  ⟨h'.cache.trans h.cache, h'.store.trans h.store, h'.attachments.trans h.attachments,
    h'.attached.trans h.attached⟩

theorem Kept.added {setup : AttachSetup} {s s' s'' : Attaching} {c : ℤ} {streams : List (Option ℤ)}
    {id : Option ℤ} (h : Kept s s') (h' : Added setup s' s'' c streams id) :
    Added setup s s'' c streams id where
  cache := by rw [h'.cache, h.cache]
  store := by rw [h'.store, h.store]
  attachments := by rw [h'.attachments, h.attachments]
  attached := by rw [h'.attached, h.attached]

section Step

variable {π : Type} (scorer : Scorer π) (setup : AttachSetup) (s : Attaching) (row : DecidedStream)

theorem attach_kept {best : MasterCandidate} {source : Option AttachSource} {c : ℤ}
    {streams : List (Option ℤ)}
    (h : row.stream.streamId ∈ streams ∨ setup.dryRun = false ∧ setup.raises s.calls = true) :
    Kept s (attach setup s row best source c streams) := by
  rw [attach, addStreamToChannel]
  by_cases hid : row.stream.streamId ∈ streams
  · constructor <;> simp [hid, Attaching.attachments]
  · obtain ⟨hdry, hraises⟩ := h.resolve_left hid
    constructor <;> simp [hid, hdry, hraises, Attaching.attachments]

theorem attach_added {best : MasterCandidate} {source : Option AttachSource} {c : ℤ}
    {streams : List (Option ℤ)} (hid : row.stream.streamId ∉ streams)
    (h : ¬(setup.dryRun = false ∧ setup.raises s.calls = true)) :
    Added setup s (attach setup s row best source c streams) c streams row.stream.streamId := by
  rw [attach, addStreamToChannel]
  cases hdry : setup.dryRun with
  | true => constructor <;> split_ifs <;> simp_all [Attaching.attachments]
  | false =>
    have hraises : setup.raises s.calls = false := by simpa [hdry] using h
    constructor <;> split_ifs <;> simp_all [Attaching.attachments]

/-- Attaching counts a stream as attached, as attached already or as an error. -/
theorem attach_counts (best : MasterCandidate) (source : Option AttachSource) (c : ℤ)
    (streams : List (Option ℤ)) :
    ∃ count ∈ [Count.attached, .alreadyAttached, .attachErrors], ∀ other ∈ outcomes,
      (attach setup s row best source c streams).counts other =
        s.counts other + if other = count then 1 else 0 := by
  have hqueue : ∀ s' : Attaching, ∀ other ∈ outcomes,
      (if source = some AttachSource.reviewQueue then s'.bump .queueAttached 1 else s').counts other =
        s'.counts other := by
    intro s' other hother
    split_ifs
    · rw [bump_counts, if_neg]
      · rfl
      · rintro rfl
        exact absurd hother (by decide)
    · rfl
  have hadd : (addStreamToChannel setup s c streams row.stream.streamId).1.counts = s.counts := by
    rw [addStreamToChannel]
    split_ifs <;> rfl
  rw [attach]
  generalize addStreamToChannel setup s c streams row.stream.streamId = added at *
  obtain ⟨s', result⟩ := added
  rw [← hadd]
  cases result with
  | skipped => exact ⟨.alreadyAttached, by decide, fun other _ => bump_counts s' _ 1 other⟩
  | failed => exact ⟨.attachErrors, by decide, fun other _ => bump_counts s' _ 1 other⟩
  | added =>
    refine ⟨.attached, by decide, fun other hother => ?_⟩
    exact (hqueue (s'.bump .attached 1) other hother).trans (bump_counts s' _ 1 other)

/-- The state in which a stream is decided on: what was suppressed has been counted. -/
def suppressed : Attaching :=
  (s.bump .rejectedSuppressed row.rejectedSuppressed).bump .excludedSuppressed row.excludedSuppressed

theorem kept_suppressed : Kept s (suppressed s row) :=
  (kept_bump s _ (by decide)).trans (kept_bump _ _ (by decide))

/-- A stream without a target is passed. -/
theorem decideStream_passed (h : target setup s.cache row = none) :
    Kept s (decideStream scorer setup s row) := by
  refine (kept_suppressed s row).trans ?_
  rw [target] at h
  rw [decideStream, ← suppressed]
  dsimp only
  split
  next => exact kept_bump _ _ (by decide)
  next => exact kept_bump _ _ (by decide)
  next => exact kept_bump _ _ (by decide)
  next reason reviewCandidates _ =>
    refine (kept_bump (suppressed s row) 1 (show Count.ambiguousSkipped ≠ .attached by decide)).trans ?_
    split_ifs
    · exact ⟨rfl, rfl, rfl, by simp⟩
    · exact ⟨rfl, rfl, rfl, rfl⟩
  next => exact kept_bump _ _ (by decide)
  next best source hdecision =>
    rw [hdecision] at h
    split
    next => exact kept_bump _ _ (by decide)
    next c hmaster =>
      have hc : (suppressed s row).cache.get? c = none := by
        rw [(kept_suppressed s row).cache, Dict.get?_eq_none]
        simpa [hmaster] using h
      rw [hc]
      exact kept_bump _ _ (by decide)

/-- A stream is counted under one outcome, which fits what the resolver said of it. -/
theorem decideStream_counts : ∃ count, row.decision.Fits count ∧ count ∈ outcomes ∧
    ∀ other ∈ outcomes, (decideStream scorer setup s row).counts other =
      s.counts other + if other = count then 1 else 0 := by
  have hsuppressed : ∀ other ∈ outcomes, (suppressed s row).counts other = s.counts other := by
    intro other hother
    rw [suppressed, bump_counts, bump_counts, if_neg, if_neg]
    · rfl
    · rintro rfl
      exact absurd hother (by decide)
    · rintro rfl
      exact absurd hother (by decide)
  have hbump : ∀ (s' : Attaching) (count : Count), s'.counts = (suppressed s row).counts →
      ∀ other ∈ outcomes, (s'.bump count 1).counts other = s.counts other + if other = count then 1 else 0 := by
    intro s' count hs' other hother
    rw [bump_counts, hs', hsuppressed other hother]
  rw [decideStream, ← suppressed]
  dsimp only
  split
  next h => exact ⟨.parseFailed, by rw [h]; rfl, by decide, hbump _ _ rfl⟩
  next h => exact ⟨.unmatched, by rw [h]; rfl, by decide, hbump _ _ rfl⟩
  next h => exact ⟨.excludedByOperator, by rw [h]; rfl, by decide, hbump _ _ rfl⟩
  next reason reviewCandidates h =>
    refine ⟨.ambiguousSkipped, by rw [h]; rfl, by decide, fun other hother => ?_⟩
    rw [← hbump (suppressed s row) .ambiguousSkipped rfl other hother]
    dsimp only
    split_ifs
    · rw [bump_counts _ .contestedSkipped, if_neg]
      · rfl
      · rintro rfl
        exact absurd hother (by decide)
    · rfl
  next h => exact ⟨.attachErrors, by rw [h]; rfl, by decide, hbump _ _ rfl⟩
  next best source h =>
    have hfits : ∀ count ∈ [Count.attached, .alreadyAttached, .attachErrors, .capOverage],
        row.decision.Fits count := by
      rw [h]
      exact fun _ hcount => hcount
    split
    next => exact ⟨.attachErrors, hfits _ (by decide), by decide, hbump _ _ rfl⟩
    next c _ =>
      split
      next => exact ⟨.attachErrors, hfits _ (by decide), by decide, hbump _ _ rfl⟩
      next streams _ =>
        split_ifs
        · exact ⟨.capOverage, hfits _ (by decide), by decide, hbump _ _ rfl⟩
        · obtain ⟨count, hcount, hcounts⟩ := attach_counts setup (suppressed s row) row best source c streams
          have hamong : ∀ count ∈ [Count.attached, .alreadyAttached, .attachErrors],
              count ∈ [Count.attached, .alreadyAttached, .attachErrors, .capOverage] ∧
                count ∈ outcomes := by
            decide
          obtain ⟨hfour, houtcome⟩ := hamong count hcount
          refine ⟨count, hfits count hfour, houtcome, fun other hother => ?_⟩
          rw [hcounts other hother, hsuppressed other hother]

/-- A stream with a target is attached unless it is there, the cap is reached or the call raises. -/
theorem decideStream_targeted {c : ℤ} {id : Option ℤ} (h : target setup s.cache row = some (c, id)) :
    ∃ streams, s.cache.get? c = some streams ∧
      ((id ∈ streams ∨ capReached setup s = true ∨ setup.dryRun = false ∧ setup.raises s.calls = true) ∧
          Kept s (decideStream scorer setup s row) ∨
        ¬(id ∈ streams ∨ capReached setup s = true ∨
            setup.dryRun = false ∧ setup.raises s.calls = true) ∧
          Added setup s (decideStream scorer setup s row) c streams id) := by
  rw [target] at h
  split at h
  next best source hdecision =>
    obtain ⟨c', hmaster, h⟩ := Option.bind_eq_some_iff.mp h
    split_ifs at h with hc
    cases h
    obtain ⟨streams, hstreams⟩ := Dict.exists_get? hc
    have hsuppressed := kept_suppressed s row
    have hdecide : decideStream scorer setup s row =
        if row.stream.streamId ∉ streams ∧ capReached setup s then
          { suppressed s row with capped := true }.bump .capOverage 1
        else attach setup (suppressed s row) row best source c streams := by
      have hreached : capReached setup (suppressed s row) = capReached setup s := by
        rw [capReached, hsuppressed.attached, ← capReached]
      rw [decideStream, ← suppressed]
      simp only [hdecision, hmaster, hsuppressed.cache, hstreams, hreached]
    refine ⟨streams, hstreams, ?_⟩
    rw [hdecide]
    split_ifs with hcap
    · refine .inl ⟨.inr (.inl hcap.2), hsuppressed.trans ?_⟩
      exact ⟨rfl, rfl, rfl, by rw [bump_counts]; rfl⟩
    · by_cases hpassed : row.stream.streamId ∈ streams ∨
          setup.dryRun = false ∧ setup.raises s.calls = true
      · refine .inl ⟨hpassed.imp_right .inr, hsuppressed.trans (attach_kept setup _ row hpassed)⟩
      · obtain ⟨hid, hraises⟩ := not_or.mp hpassed
        refine .inr ⟨?_, hsuppressed.added (attach_added setup _ row hid hraises)⟩
        rintro (hid' | hreached | hraises')
        · exact hid hid'
        · exact hcap ⟨hid, hreached⟩
        · exact hraises hraises'
  next => cases h

end Step

section Pairs

variable {store : ChannelStreams} {pairs : List (ℤ × Option ℤ)} {c c' : ℤ} {id : Option ℤ}

theorem attachedTo_concat : attachedTo (pairs ++ [(c, id)]) c' =
    attachedTo pairs c' ++ if c = c' then [id] else [] := by
  rw [attachedTo, attachedTo, List.filter_append, List.map_append]
  by_cases hc : c = c' <;> simp [hc]

theorem mem_attachedTo : id ∈ attachedTo pairs c ↔ (c, id) ∈ pairs := by
  simp [attachedTo]

end Pairs

section Run

variable {π : Type} (scorer : Scorer π) (setup : AttachSetup) (store : ChannelStreams)

/-- What a run has attached: the streams of its entries, each once, none of which was on its channel. -/
structure Attached (s : Attaching) : Prop where
  cache : ∀ c, s.cache.get? c = (store.get? c).map (· ++ attachedTo s.attachments c)
  stored : s.store = if setup.dryRun then store else s.cache
  count : s.counts .attached = s.attachments.length
  nodup : s.attachments.Nodup
  new : ∀ pair ∈ s.attachments, pair.1 ∈ store ∧ onChannel store pair = false
  cap : setup.dryRun = false → setup.cap ≠ 0 → s.counts .attached ≤ setup.cap

variable {setup store} {s s' : Attaching}

theorem Attached.start : Attached setup store (Attaching.start store) where
  cache := by
    intro c
    have hnone : attachedTo (Attaching.start store).attachments c = [] := rfl
    simp only [hnone, List.append_nil, Option.map_id']
    rfl
  stored := by simp [Attaching.start]
  count := rfl
  nodup := List.nodup_nil
  new := fun _ h => (List.not_mem_nil h).elim
  cap := fun _ _ => Nat.zero_le _

theorem Attached.kept (h : Attached setup store s) (hkept : Kept s s') : Attached setup store s' where
  cache := by
    rw [hkept.cache, hkept.attachments]
    exact h.cache
  stored := by rw [hkept.store, hkept.cache, h.stored]
  count := by rw [hkept.attached, hkept.attachments, h.count]
  nodup := by
    rw [hkept.attachments]
    exact h.nodup
  new := by
    rw [hkept.attachments]
    exact h.new
  cap := by
    rw [hkept.attached]
    exact h.cap

/-- A run knows where its streams are. -/
theorem Attached.mem_iff (h : Attached setup store s) {c : ℤ} {streams : List (Option ℤ)}
    (hstreams : s.cache.get? c = some streams) (id : Option ℤ) :
    id ∈ streams ↔ onChannel store (c, id) = true ∨ (c, id) ∈ s.attachments := by
  obtain ⟨before, hbefore, rfl⟩ := Option.map_eq_some_iff.mp ((h.cache c).symm.trans hstreams)
  rw [List.mem_append, mem_attachedTo, onChannel, hbefore]
  simp

theorem Attached.added (h : Attached setup store s) {c : ℤ} {streams : List (Option ℤ)} {id : Option ℤ}
    (hstreams : s.cache.get? c = some streams) (hid : id ∉ streams) (hcap : capReached setup s = false)
    (hadded : Added setup s s' c streams id) : Attached setup store s' := by
  obtain ⟨before, hbefore, hsplit⟩ := Option.map_eq_some_iff.mp ((h.cache c).symm.trans hstreams)
  obtain ⟨hoff, hnew⟩ := not_or.mp ((h.mem_iff hstreams id).not.mp hid)
  constructor
  · intro c'
    rw [hadded.cache, hadded.attachments, attachedTo_concat, Dict.get?_set]
    by_cases hc : c = c'
    · subst hc
      rw [if_pos rfl, if_pos rfl, hbefore, Option.map_some, ← hsplit, List.append_assoc]
    · simp [hc, h.cache]
  · rw [hadded.store, hadded.cache, h.stored]
    split_ifs <;> rfl
  · rw [hadded.attached, hadded.attachments, h.count, List.length_append, List.length_singleton]
  · rw [hadded.attachments]
    exact List.concat_eq_append ▸ h.nodup.concat hnew
  · intro pair hpair
    rw [hadded.attachments] at hpair
    obtain hpair | hpair := List.mem_append.mp hpair
    · exact h.new pair hpair
    · rw [List.mem_singleton.mp hpair]
      exact ⟨Dict.mem_of_get? hbefore, by simpa using hoff⟩
  · intro hdry hnonzero
    rw [hadded.attached]
    rw [capReached, hdry] at hcap
    exact Nat.succ_le_of_lt (by simpa [hnonzero] using hcap)

/-- The channels of a run are those it started with. -/
theorem Attached.target_eq (h : Attached setup store s) (row : DecidedStream) :
    target setup s.cache row = target setup store row := by
  have hmem : ∀ c, c ∈ s.cache ↔ c ∈ store := by
    intro c
    rw [← Dict.isSome_get?, ← Dict.isSome_get?, h.cache, Option.isSome_map]
  simp only [target, hmem]

theorem Attached.step (h : Attached setup store s) (row : DecidedStream) :
    Attached setup store (decideStream scorer setup s row) := by
  cases htarget : target setup s.cache row with
  | none => exact h.kept (decideStream_passed scorer setup s row htarget)
  | some pair =>
    obtain ⟨streams, hstreams, ⟨_, hkept⟩ | ⟨hfree, hadded⟩⟩ :=
      decideStream_targeted scorer setup s row htarget
    · exact h.kept hkept
    · obtain ⟨hid, hfree⟩ := not_or.mp hfree
      exact h.added hstreams hid (Bool.eq_false_iff.mpr (not_or.mp hfree).1) hadded

theorem Attached.run (h : Attached setup store s) (rows : List DecidedStream) :
    Attached setup store (rows.foldl (decideStream scorer setup) s) := by
  induction rows generalizing s with
  | nil => exact h
  | cons row rows ih => exact ih (h.step scorer row)

/-- A run counts every stream once, under an outcome that fits it. -/
theorem run_counts (setup : AttachSetup) (s : Attaching) (rows : List DecidedStream) :
    ∃ counted : List Count, List.Forall₂ (fun row count => row.decision.Fits count ∧ count ∈ outcomes)
        rows counted ∧
      ∀ other ∈ outcomes, (rows.foldl (decideStream scorer setup) s).counts other =
        s.counts other + counted.count other := by
  induction rows generalizing s with
  | nil => exact ⟨[], .nil, fun other _ => rfl⟩
  | cons row rows ih =>
    obtain ⟨count, hfits, hcount, hcounts⟩ := decideStream_counts scorer setup s row
    obtain ⟨counted, hrows, hcounted⟩ := ih (decideStream scorer setup s row)
    refine ⟨count :: counted, .cons ⟨hfits, hcount⟩ hrows, fun other hother => ?_⟩
    have hcons : (count :: counted).count other =
        counted.count other + if other = count then 1 else 0 := by
      rw [List.count_cons]
      by_cases heq : other = count
      · simp [heq]
      · simp [heq, Ne.symm heq]
    rw [List.foldl_cons, hcounted other hother, hcounts other hother, hcons]
    omega

end Run

section Calm

variable {π : Type} (scorer : Scorer π) (setup : AttachSetup) (store : ChannelStreams)

/-- The streams that are not on their master, each once. -/
def waiting (rows : List DecidedStream) : List (ℤ × Option ℤ) :=
  firsts ((rows.filterMap (target setup store)).filter fun pair => !onChannel store pair)

/-- The cap of the run; a dry run has none. -/
def activeCap : ℕ := if setup.dryRun then 0 else setup.cap

theorem capReached_iff {setup : AttachSetup} {s : Attaching} : capReached setup s = true ↔
    activeCap setup ≠ 0 ∧ activeCap setup ≤ s.counts .attached := by
  rw [capReached, activeCap]
  cases setup.dryRun <;> simp

/-- Without a call that raises, a run attaches the first of the streams that wait. -/
theorem attachments_calm (hcalm : ∀ call, setup.raises call = false) (rows : List DecidedStream) :
    (executeEventSyncRule scorer setup rows store).attachments =
      limited (activeCap setup) (waiting setup store rows) := by
  change _ = taken (activeCap setup)
    ((rows.filterMap (target setup store)).filter fun pair => !onChannel store pair)
  induction rows using List.reverseRecOn with
  | nil => simp [executeEventSyncRule, Attaching.start, Attaching.attachments, taken, limited, firsts]
  | append_singleton rows row ih =>
    have h : Attached setup store (executeEventSyncRule scorer setup rows store) :=
      Attached.start.run scorer rows
    rw [executeEventSyncRule, List.foldl_append, List.foldl_cons, List.foldl_nil, ← executeEventSyncRule,
      List.filterMap_append, List.filter_append]
    generalize executeEventSyncRule scorer setup rows store = s at *
    have htargets := h.target_eq row
    cases htarget : target setup store row with
    | none =>
      rw [(decideStream_passed scorer setup s row (htargets.trans htarget)).attachments, ih]
      simp [htarget]
    | some pair =>
      obtain ⟨c, id⟩ := pair
      obtain ⟨streams, hstreams, hcases⟩ :=
        decideStream_targeted scorer setup s row (htargets.trans htarget)
      rw [h.mem_iff hstreams, capReached_iff, h.count] at hcases
      simp only [hcalm, Bool.false_eq_true, and_false, or_false] at hcases
      have hlast : ([row].filterMap (target setup store)).filter (fun pair => !onChannel store pair) =
          if onChannel store (c, id) = true then [] else [(c, id)] := by
        cases hon : onChannel store (c, id) <;> simp [htarget, hon]
      rw [hlast]
      by_cases hon : onChannel store (c, id) = true
      · obtain ⟨_, hkept⟩ | ⟨hfree, _⟩ := hcases
        · rw [if_pos hon, List.append_nil, hkept.attachments, ih]
        · exact absurd (.inl (.inl hon)) hfree
      · simp only [hon, Bool.false_eq_true, false_or] at hcases
        rw [if_neg hon, taken_concat, ← ih]
        obtain ⟨hfull, hkept⟩ | ⟨hfree, hadded⟩ := hcases
        · rw [if_pos hfull, hkept.attachments]
        · rw [if_neg hfree, hadded.attachments]

end Calm

/-- The setup of a run whose calls go through. -/
def AttachSetup.calm (setup : AttachSetup) : AttachSetup := { setup with raises := fun _ => false }

theorem target_calm (setup : AttachSetup) (channels : ChannelStreams) (row : DecidedStream) :
    target setup.calm channels row = target setup channels row := rfl

section Runs

variable {π : Type} (scorer : Scorer π) (setup : AttachSetup) (rows : List DecidedStream)
  (store : ChannelStreams)

/-- What Dispatcharr holds after some runs of one resolution whose calls go through. -/
def storeAfter : ℕ → ChannelStreams
  | 0 => store
  | run + 1 => (executeEventSyncRule scorer setup.calm rows (storeAfter run)).store

/-- The run after some runs. -/
def runAfter (run : ℕ) : Attaching :=
  executeEventSyncRule scorer setup.calm rows (storeAfter scorer setup rows store run)

variable {setup rows store}

theorem attached_execute : Attached setup store (executeEventSyncRule scorer setup rows store) :=
  Attached.start.run scorer rows

/-- A run that attaches nothing leaves the channels as they are. -/
theorem cache_of_attachments (h : (executeEventSyncRule scorer setup rows store).attachments = []) :
    (executeEventSyncRule scorer setup rows store).cache = store := by
  induction rows using List.reverseRecOn with
  | nil => rfl
  | append_singleton rows row ih =>
    rw [executeEventSyncRule, List.foldl_append, List.foldl_cons, List.foldl_nil,
      ← executeEventSyncRule] at h ⊢
    generalize executeEventSyncRule scorer setup rows store = s at *
    have hkept : Kept s (decideStream scorer setup s row) := by
      cases htarget : target setup s.cache row with
      | none => exact decideStream_passed scorer setup s row htarget
      | some pair =>
        obtain ⟨streams, _, ⟨_, hkept⟩ | ⟨_, hadded⟩⟩ :=
          decideStream_targeted scorer setup s row htarget
        · exact hkept
        · rw [hadded.attachments] at h
          exact absurd h (List.append_ne_nil_of_right_ne_nil _ (List.cons_ne_nil _ _))
    rw [hkept.cache]
    exact ih (hkept.attachments ▸ h)

section Live

variable (hlive : setup.dryRun = false)
include hlive

theorem store_live : (executeEventSyncRule scorer setup rows store).store =
    (executeEventSyncRule scorer setup rows store).cache := by
  rw [(attached_execute scorer).stored, hlive]
  rfl

/-- After a live run a stream is on its channel if it was or has been attached. -/
theorem onChannel_live {pair : ℤ × Option ℤ} (hpair : pair.1 ∈ store) :
    onChannel (executeEventSyncRule scorer setup rows store).store pair = true ↔
      onChannel store pair = true ∨
        pair ∈ (executeEventSyncRule scorer setup rows store).attachments := by
  have h : Attached setup store (executeEventSyncRule scorer setup rows store) := attached_execute scorer
  have hsome : pair.1 ∈ (executeEventSyncRule scorer setup rows store).cache := by
    rw [← Dict.isSome_get?, h.cache, Option.isSome_map, Dict.isSome_get?]
    exact hpair
  obtain ⟨streams, hstreams⟩ := Dict.exists_get? hsome
  rw [store_live scorer hlive, ← h.mem_iff hstreams, onChannel, hstreams]
  simp

end Live

theorem target_mem {row : DecidedStream} {pair : ℤ × Option ℤ} (h : target setup store row = some pair) :
    pair.1 ∈ store := by
  rw [target] at h
  split at h
  next =>
    obtain ⟨c, _, h⟩ := Option.bind_eq_some_iff.mp h
    split_ifs at h with hc
    cases h
    exact hc
  next => cases h

/-- A run that is not dry attaches what the cap allows of what waits. -/
theorem attachments_runAfter (hlive : setup.dryRun = false) (run : ℕ) :
    (runAfter scorer setup rows store run).attachments =
      limited setup.cap (waiting setup (storeAfter scorer setup rows store run) rows) := by
  have hcap : activeCap setup.calm = setup.cap := if_neg (by rw [AttachSetup.calm, hlive]; decide)
  rw [runAfter, attachments_calm scorer setup.calm _ fun _ => rfl, hcap]
  rfl

/-- What a run attaches waits no more. -/
theorem waiting_succ (hlive : setup.dryRun = false) (run : ℕ) :
    waiting setup (storeAfter scorer setup rows store (run + 1)) rows =
      (waiting setup (storeAfter scorer setup rows store run) rows).filter
        (· ∉ limited setup.cap (waiting setup (storeAfter scorer setup rows store run) rows)) := by
  have hcalm : setup.calm.dryRun = false := hlive
  rw [← attachments_runAfter scorer hlive]
  change waiting setup (runAfter scorer setup rows store run).store rows = _
  have htargets : ∀ row, target setup (runAfter scorer setup rows store run).store row =
      target setup (storeAfter scorer setup rows store run) row := by
    intro row
    have h : Attached setup.calm (storeAfter scorer setup rows store run)
        (runAfter scorer setup rows store run) := attached_execute scorer
    have hstore : (runAfter scorer setup rows store run).store =
        (runAfter scorer setup rows store run).cache := store_live scorer hcalm
    rw [hstore, ← target_calm setup, ← target_calm setup, h.target_eq]
  rw [waiting, waiting, ← firsts_filter, List.filter_filter, funext htargets]
  refine congrArg firsts (List.filter_congr fun pair hpair => ?_)
  obtain ⟨row, _, htarget⟩ := List.mem_filterMap.mp hpair
  have hon : onChannel (runAfter scorer setup rows store run).store pair = true ↔
      onChannel (storeAfter scorer setup rows store run) pair = true ∨
        pair ∈ (runAfter scorer setup rows store run).attachments :=
    onChannel_live scorer hcalm (target_mem htarget)
  generalize (runAfter scorer setup rows store run).attachments = made at *
  rw [Bool.eq_iff_iff, Bool.and_eq_true, decide_eq_true_eq, Bool.not_eq_true', Bool.not_eq_true',
    ← Bool.not_eq_true, ← Bool.not_eq_true, hon, not_or, and_comm]

end Runs

/-- A run counts every resolved stream once; if it is live and has a cap, it attaches no more streams than
that; and what it attaches, each stream once that was not there, stands behind the streams its masters
had. Live runs without a failed call, on the channels as this one leaves them, each attach what the cap
allows of the streams that are not on their master; together they attach each of these once, and the
runs after that attach nothing and change nothing. -/
theorem executeEventSyncRule_attaches {π : Type} (scorer : Scorer π) (setup : AttachSetup)
    (rows : List DecidedStream) (store : ChannelStreams) :
    let s := executeEventSyncRule scorer setup rows store
    (∃ counted, List.Forall₂ (fun row count => row.decision.Fits count ∧ count ∈ outcomes) rows counted ∧
      ∀ count ∈ outcomes, s.counts count = counted.count count) ∧
    Attached setup store s ∧
    (setup.dryRun = false →
      (∀ run, (runAfter scorer setup rows s.store run).attachments =
        limited setup.cap (waiting setup (storeAfter scorer setup rows s.store run) rows)) ∧
      ∃ runs,
        ((List.range runs).flatMap fun run => (runAfter scorer setup rows s.store run).attachments) =
          waiting setup s.store rows ∧
        ∀ run, runs ≤ run → (runAfter scorer setup rows s.store run).attachments = [] ∧
          storeAfter scorer setup rows s.store (run + 1) = storeAfter scorer setup rows s.store run) := by
  refine ⟨?_, attached_execute scorer, fun hlive => ⟨attachments_runAfter scorer hlive, ?_⟩⟩
  · obtain ⟨counted, hrows, hcounted⟩ := run_counts scorer setup (Attaching.start store) rows
    refine ⟨counted, hrows, fun count hcount => ?_⟩
    rw [executeEventSyncRule, hcounted count hcount]
    exact Nat.zero_add _
  · generalize (executeEventSyncRule scorer setup rows store).store = after
    obtain ⟨hall, hdone⟩ := rounds_drain
      (fun run => waiting setup (storeAfter scorer setup rows after run) rows) (nodup_firsts _)
      (waiting_succ scorer hlive)
    refine ⟨(waiting setup after rows).length, ?_, fun run hrun => ?_⟩
    · simp only [attachments_runAfter scorer hlive]
      exact hall
    · have hnone : (runAfter scorer setup rows after run).attachments = [] := by
        rw [attachments_runAfter scorer hlive, hdone run hrun]
        exact List.sublist_nil.mp limited_sublist
      have hcalm : setup.calm.dryRun = false := hlive
      exact ⟨hnone, (store_live scorer hcalm).trans (cache_of_attachments scorer hnone)⟩

end ChannelManager.EventSync
