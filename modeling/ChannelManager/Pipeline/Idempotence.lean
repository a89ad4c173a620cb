import ChannelManager.Pipeline.SecondRun

/-!
# Running the pipeline twice

A run on the lineup another run left creates, merges, deletes and renumbers nothing, provided that it
matches the streams to the same rules and finds each on the channel it was on.
-/

namespace ChannelManager.Pipeline

/-- No channel is in the ledgers of two rules. -/
def DisjointLedgers (managed : Dict ℤ (List ℤ)) : Prop :=
  ∀ ruleId ruleId' c, c ∈ ledger managed ruleId → c ∈ ledger managed ruleId' → ruleId = ruleId'

/-- The same channels, in whatever order they are listed, and the same ledgers. -/
structure Relisted (lineup lineup' : Lineup) : Prop where
  channels : ∀ c, lineup'.channels.get? c = lineup.channels.get? c
  managed : lineup'.managed = lineup.managed

/-- The same channels with the same numbers in the same groups, each with the same streams. -/
structure Idle (before after : Dict ℤ ListedChannel) : Prop where
  keys : ∀ c, c ∈ after ↔ c ∈ before
  channel : ∀ c x x', before.get? c = some x → after.get? c = some x' →
    x'.channelNumber = x.channelNumber ∧ x'.channelGroupId = x.channelGroupId ∧ x'.streams.Perm x.streams

section Listed

variable {newId : ℕ → ℤ} {order : StreamOrder} {s : State} {channels : Dict ℤ StoredChannel}

theorem RunSetup.channels_run (setup : RunSetup) (lineup : Lineup) :
    (setup.run lineup newId order).channels =
      listedAfter newId order (setup.passTwo lineup newId).executor
        (setup.afterCleanup lineup newId).channels := rfl

/-- A channel listed after a run is one of the executor's that is still there. -/
theorem of_get?_listedAfter (hinj : ∀ k ∈ s.channels, ∀ k' ∈ s.channels, k.id newId = k'.id newId → k = k')
    {c : ℤ} {x : ListedChannel} (h : (listedAfter newId order s channels).get? c = some x) :
    ∃ key channel stored, key.id newId = c ∧ s.channels.get? key = some channel ∧
      channels.get? c = some stored ∧ x.channelNumber = stored.channelNumber ∧
      x.channelGroupId = stored.channelGroupId ∧ x.streams.Perm channel.streams := by
  rw [listedAfter, Dict.get?_ofList_filterMap s.channels (ChannelKey.id newId) (fun key channel =>
    (channels.get? (key.id newId)).map (listedChannel newId order key channel)) hinj] at h
  obtain ⟨key, channel, rfl, hchannel, hlisted⟩ := h
  obtain ⟨stored, hstored, rfl⟩ := Option.map_eq_some_iff.mp hlisted
  exact ⟨key, channel, stored, rfl, hchannel, hstored, rfl, rfl, order.perm _ _⟩

theorem get?_listedAfter (hinj : ∀ k ∈ s.channels, ∀ k' ∈ s.channels, k.id newId = k'.id newId → k = k')
    {key : ChannelKey} {channel : Channel} {stored : StoredChannel}
    (hkey : s.channels.get? key = some channel) (hstored : channels.get? (key.id newId) = some stored) :
    (listedAfter newId order s channels).get? (key.id newId) =
      some (listedChannel newId order key channel stored) := by
  rw [listedAfter, Dict.get?_ofList_filterMap s.channels (ChannelKey.id newId) (fun key channel =>
    (channels.get? (key.id newId)).map (listedChannel newId order key channel)) hinj]
  exact ⟨key, channel, rfl, hkey, by rw [hstored, Option.map_some]⟩

/-- What Dispatcharr has of the executor's channels. -/
theorem get?_storedChannels (lineup : Lineup)
    (hinj : ∀ k ∈ s.channels, ∀ k' ∈ s.channels, k.id newId = k'.id newId → k = k') (c : ℤ)
    (stored : StoredChannel) :
    (storedChannels lineup newId s).get? c = some stored ↔ ∃ key channel, key.id newId = c ∧
      s.channels.get? key = some channel ∧ storedChannel lineup key channel = stored :=
  Dict.get?_ofList_map s.channels (ChannelKey.id newId) (storedChannel lineup) hinj c stored

end Listed

/-! ## What the first run leaves -/

section First

variable {setup : RunSetup} {lineup : Lineup}

theorem items_reconciledRules (setup : RunSetup) (lineup : Lineup) :
    (reconciledRules (setup.input lineup) ∅).items =
      setup.rules.map fun rule => (rule.id, rule.reconciled) := by
  have hitems : (setup.input lineup).rules.map (fun rule => (rule.id, rule.reconciled)) =
      setup.rules.map fun rule => (rule.id, rule.reconciled) := by
    rw [RunSetup.input, List.map_map]
    rfl
  have hnodup : ((setup.rules.map fun rule => (rule.id, rule.reconciled)).map Prod.fst).Nodup := by
    rw [List.map_map]
    exact setup.nodup_rules
  have hnone : ((setup.input lineup).eventSyncRules.filter fun id _ =>
      id ∈ (∅ : Dict ℤ (List ℤ))).items = [] := rfl
  rw [reconciledRules, hnone, List.append_nil, hitems, Dict.items_ofList _ hnodup]

variable (ids : NewIds lineup)

theorem order_passTwo (newId : ℕ → ℤ) (ruleId : ℤ) :
    ledger (setup.passTwo lineup newId).order ruleId =
      noted lineup.managed (setup.passTwo lineup newId).executed ruleId :=
  executeEntries_order _ (setup.input lineup) _ _ ruleId

theorem rule_of_executed {newId : ℕ → ℤ} (h : setup.Uncapped lineup newId) {e : Executed}
    (he : e ∈ (setup.passTwo lineup newId).executed) :
    ∃ rule ∈ setup.rules, e.rule = rule.on lineup.loaded := by
  have hmem : (e.stream, e.rule) ∈ setup.unstruck lineup := h ▸ List.mem_map_of_mem he
  exact winner_of_entry (List.mem_of_mem_filter hmem)

/-- A channel is noted for one rule only. -/
theorem noted_disjoint (h : DisjointLedgers lineup.managed) {ruleId ruleId' c : ℤ}
    (hc : c ∈ ledger (setup.passTwo lineup ids.newId).order ruleId)
    (hc' : c ∈ ledger (setup.passTwo lineup ids.newId).order ruleId') : ruleId = ruleId' := by
  have htraced := traced_passTwo ids setup
  rw [order_passTwo] at hc hc'
  obtain ⟨e, he, hrule, hcurrent, _, howned⟩ := mem_noted_iff.mp hc
  obtain ⟨e', he', hrule', hcurrent', _, howned'⟩ := mem_noted_iff.mp hc'
  have hnew : ∀ x ∈ (setup.passTwo lineup ids.newId).executed, c ∈ x.turn.createdChannelIds →
      ∀ id, c ∉ ledger lineup.managed id := by
    intro x hx hcreated id
    obtain ⟨_, n, rfl⟩ := htraced.created x hx c hcreated
    exact ids.not_managed n id
  cases howned with
  | inr hledger =>
    cases howned' with
    | inr hledger' => exact h ruleId ruleId' c hledger hledger'
    | inl hcreated' => exact absurd hledger (hnew e' he' hcreated' ruleId)
  | inl hcreated =>
    cases howned' with
    | inr hledger' => exact absurd hledger' (hnew e he hcreated ruleId')
    | inl hcreated' =>
      -- of two streams that a channel was created for, the later one came before it
      have hlater := htraced.later
      obtain ⟨before, after, hsplit⟩ := List.append_of_mem he
      rw [hsplit, List.pairwise_append, List.pairwise_cons] at hlater
      rw [hsplit] at he'
      cases List.mem_append.mp he' with
      | inl hin => exact absurd hcurrent' (hlater.2.2 e' hin e List.mem_cons_self c hcreated)
      | inr hin =>
        cases List.mem_cons.mp hin with
        | inl hsame => rw [← hrule, ← hrule', hsame]
        | inr hin => exact absurd hcurrent (hlater.2.1.1 e' hin c hcreated')

/-- The ledgers a run leaves. -/
theorem ledger_run (newId : ℕ → ℤ) (order : StreamOrder) {rule : CreateRule} (hrule : rule ∈ setup.rules)
    (c : ℤ) :
    c ∈ ledger (setup.run lineup newId order).managed rule.id ↔
      c ∈ if rewrites (setup.passTwo lineup newId).order lineup.managed (rule.id, rule.reconciled)
        then currentIds (setup.passTwo lineup newId).order rule.id else ledger lineup.managed rule.id := by
  have hspec := reconcileRules_spec allDone (setup.passTwo lineup newId).order
    (reconciledRules (setup.input lineup) ∅).items (reconciledRules (setup.input lineup) ∅).nodup_keys
    (setup.beforeCleanup lineup newId)
  have hfind : findEntry rule.id (reconciledRules (setup.input lineup) ∅).items =
      some rule.reconciled := by
    change (reconciledRules (setup.input lineup) ∅).get? rule.id = some rule.reconciled
    rw [Dict.get?_eq_some, items_reconciledRules]
    exact List.mem_map_of_mem hrule
  have hledger := hspec.2.1 rule.id c
  rw [ledgerAfter, hfind] at hledger
  exact hledger

end First

/-! ## What the second run finds -/

section Again

variable {setup : RunSetup} {lineup lineup' : Lineup} (ids : NewIds lineup) {order : StreamOrder}

theorem id_injective_passTwo (setup : RunSetup) :
    ∀ k ∈ (setup.passTwo lineup ids.newId).executor.channels,
      ∀ k' ∈ (setup.passTwo lineup ids.newId).executor.channels,
        k.id ids.newId = k'.id ids.newId → k = k' :=
  fun k hk k' hk' => ids.id_injective ((traced_passTwo ids setup).known k hk)
    ((traced_passTwo ids setup).known k' hk')

/-- Every stream that was to be merged is on the channel it had ended on. -/
theorem held_again (hcap : setup.Uncapped lineup ids.newId)
    (hrelisted : Relisted (setup.run lineup ids.newId order) lineup') {e : Executed}
    (he : e ∈ (setup.passTwo lineup ids.newId).executed) :
    ∃ params, e.rule.actions = [.createChannel params] ∧
      (params.ifExists = .merge ∨ params.ifExists = .skip) ∧
      ∃ c, e.turn.currentChannelId = some c ∧ (params.ifExists = .merge → ∀ channel,
        (setup.startState lineup').channels.get? (.existing c) = some channel →
          e.stream.streamId ∈ channel.streams) := by
  obtain ⟨rule, _, hrule⟩ := rule_of_executed hcap he
  have hactions : e.rule.actions = [.createChannel rule.params] := by
    rw [hrule]
    rfl
  have htraced := traced_passTwo ids setup
  obtain ⟨key, channel, hcurrent, hget, hmerged⟩ := htraced.ended e he
  refine ⟨rule.params, hactions, rule.mergesOrSkips, _, hcurrent, fun hmerge again hagain => ?_⟩
  obtain ⟨id, listed, hid, hlisted, rfl⟩ := (get?_startState setup lineup' _ again).mp hagain
  cases hid
  rw [hrelisted.channels, RunSetup.channels_run] at hlisted
  obtain ⟨key', channel', _, hkey, hget', _, _, _, hperm⟩ :=
    of_get?_listedAfter (id_injective_passTwo ids setup) hlisted
  have hsame : key' = key := id_injective_passTwo ids setup key' (Dict.mem_of_get? hget') key
    (Dict.mem_of_get? hget) hkey
  subst hsame
  cases hget.symm.trans hget'
  exact hperm.mem_iff.mpr (hmerged rule.params hactions hmerge)

theorem unstruck_again (hcap : setup.Uncapped lineup ids.newId) (hwinners : SameWinners setup lineup lineup') :
    (unstruckOf (setup.input lineup') (setup.entries lineup')).map unconditioned =
      (setup.passTwo lineup ids.newId).executed.map fun e => unconditioned (e.stream, e.rule) := by
  have hunstruck : ∀ entries : List (Stream × PipelineRule),
      (entries.filter fun e => !(e.2.skipStruckStreams && decide (e.1.streamId ∈ setup.struck))).map
          unconditioned =
        (entries.map unconditioned).filter fun e =>
          !(e.2.skipStruckStreams && decide (e.1.streamId ∈ setup.struck)) := by
    intro entries
    rw [List.filter_map]
    rfl
  have hexecuted : (setup.passTwo lineup ids.newId).executed.map (fun e => unconditioned (e.stream, e.rule)) =
      (setup.unstruck lineup).map unconditioned := by
    rw [← hcap, List.map_map]
    rfl
  rw [hexecuted, RunSetup.unstruck, hunstruck, ← entries_unconditioned hwinners, ← hunstruck]
  rfl

variable (ids' : NewIds lineup')

/-- Pass 2 of the second run: every stream on the channel it was on. -/
theorem passTwo_again (hcap : setup.Uncapped lineup ids.newId)
    (hrelisted : Relisted (setup.run lineup ids.newId order) lineup')
    (hwinners : SameWinners setup lineup lineup')
    (hfound : FoundAgain (setup.services lineup'.managed ids'.newId) (setup.startState lineup')
      (setup.passTwo lineup ids.newId).executed) :
    Renamed (setup.startState lineup') (setup.passTwo lineup' ids'.newId).executor ∧
      List.Forall₂ Again (setup.passTwo lineup ids.newId).executed
        (setup.passTwo lineup' ids'.newId).executed := by
  have hstart : ∀ key ∈ (setup.startState lineup').channels, ∃ id, key = .existing id := by
    intro key hkey
    obtain ⟨channel, hget⟩ := Dict.exists_get? hkey
    obtain ⟨id, _, hid, _⟩ := (get?_startState setup lineup' key channel).mp hget
    exact ⟨id, hid.symm⟩
  obtain ⟨hrenamed, again, hexecuted, hagain⟩ :=
    executeEntries_again (setup.config lineup'.managed) ids'.newId (setup.input lineup') hstart
      (unstruck_again ids hcap hwinners) (fun _ he => held_again ids hcap hrelisted he)
      ⟨setup.startState lineup', ∅, 0, []⟩ (Renamed.refl _) rfl hfound
  rw [List.nil_append] at hexecuted
  exact ⟨hrenamed, hexecuted ▸ hagain⟩

theorem scope_standard (rule : CreateRule) : rule.reconciled.scope = some none := by
  rw [ReconciledRule.scope, rule.standard]

/-- What a rule has noted is in its ledger after the run. -/
theorem managed_of_noted {rule : CreateRule} (hrule : rule ∈ setup.rules) (newId : ℕ → ℤ) {c : ℤ}
    (hc : c ∈ ledger (setup.passTwo lineup newId).order rule.id) :
    c ∈ ledger (setup.run lineup newId order).managed rule.id := by
  have hcurrent : c ∈ currentIds (setup.passTwo lineup newId).order rule.id := List.mem_dedup.mpr hc
  rw [ledger_run newId order hrule, if_pos]
  · exact hcurrent
  · rw [rewrites, scope_standard, decide_eq_true (List.ne_nil_of_mem hcurrent)]
    rfl

/-- And what is in its ledger after the run has been noted or was there before. -/
theorem noted_of_managed {rule : CreateRule} (hrule : rule ∈ setup.rules) (newId : ℕ → ℤ) {c : ℤ}
    (hc : c ∈ ledger (setup.run lineup newId order).managed rule.id) :
    c ∈ ledger (setup.passTwo lineup newId).order rule.id ∨
      c ∈ ledger lineup.managed rule.id ∧
        (rule.reconciled.orphanAction = .none ∨ lineup.managed.get? rule.id = none) := by
  rw [ledger_run newId order hrule] at hc
  split_ifs at hc with hrewrites
  · exact .inl (List.mem_dedup.mp hc)
  · refine .inr ⟨hc, ?_⟩
    rw [rewrites, scope_standard] at hrewrites
    by_contra hnot
    rw [not_or] at hnot
    refine hrewrites ?_
    rw [decide_eq_true hnot.1, Option.isSome_iff_ne_none.mpr hnot.2]
    simp

/-- Each rule notes its channels in the order it had noted them in. -/
theorem order_again (hrelisted : Relisted (setup.run lineup ids.newId order) lineup')
    (hagain : List.Forall₂ Again (setup.passTwo lineup ids.newId).executed
      (setup.passTwo lineup' ids'.newId).executed) {rule : CreateRule} (hrule : rule ∈ setup.rules) :
    firsts (ledger (setup.passTwo lineup' ids'.newId).order rule.id) =
      firsts (ledger (setup.passTwo lineup ids.newId).order rule.id) := by
  rw [order_passTwo, noted_again hagain, order_passTwo]
  refine firsts_noted_again (traced_passTwo ids setup).later (fun c hc => ?_) fun c hc => ?_
  · rw [hrelisted.managed]
    rw [← order_passTwo] at hc
    exact managed_of_noted hrule ids.newId hc
  · rw [hrelisted.managed] at hc
    rw [← order_passTwo]
    exact (noted_of_managed hrule ids.newId hc).imp_right And.left

/-- No channel of a ledger is an orphan. -/
theorem orphansOf_again (hrelisted : Relisted (setup.run lineup ids.newId order) lineup')
    (hagain : List.Forall₂ Again (setup.passTwo lineup ids.newId).executed
      (setup.passTwo lineup' ids'.newId).executed) {rule : CreateRule} (hrule : rule ∈ setup.rules)
    {w : World} (hmanaged : w.managed = lineup'.managed) :
    orphansOf (setup.passTwo lineup' ids'.newId).order w (rule.id, rule.reconciled) = [] := by
  rw [orphansOf]
  dsimp only
  rw [scope_standard, hmanaged]
  cases hprevious : lineup'.managed.get? rule.id with
  | none => rfl
  | some previous =>
    dsimp only
    split_ifs with haction
    · rfl
    · refine List.filter_eq_nil_iff.mpr fun c hc horphan => ?_
      rw [Bool.and_eq_true, Bool.and_eq_true, decide_eq_true_eq] at horphan
      refine horphan.1.1 (List.mem_dedup.mpr ?_)
      have hledger : c ∈ ledger (setup.run lineup ids.newId order).managed rule.id := by
        rw [← hrelisted.managed, ledger, hprevious]
        exact List.mem_dedup.mp hc
      obtain hnoted | ⟨hbefore, hkept⟩ := noted_of_managed hrule ids.newId hledger
      · have hfirst := mem_firsts.mpr hnoted
        rw [← order_again ids ids' hrelisted hagain hrule] at hfirst
        exact mem_firsts.mp hfirst
      · have hnone := hkept.resolve_left haction
        rw [ledger, hnone] at hbefore
        exact (List.not_mem_nil hbefore).elim

/-- The number the first run leaves a channel of a rule that sorts its channels. -/
theorem numbered_run (hdisjoint : DisjointLedgers lineup.managed) {rule : CreateRule}
    (hrule : rule ∈ setup.rules) {start : ℤ} (hstart : rule.reconciled.startingNumber = some start)
    (hsort : rule.reconciled.sortField ≠ none)
    (hlength : 2 ≤ (firsts (ledger (setup.passTwo lineup ids.newId).order rule.id)).length) {c : ℤ}
    (hc : c ∈ ledger (setup.passTwo lineup ids.newId).order rule.id) :
    Numbered c (sortedNumber (setup.passTwo lineup ids.newId).order rule.id start c)
      (setup.afterCleanup lineup ids.newId).channels := by
  -- another rule that notes the channel is this one
  have honly : ∀ rule' ∈ setup.rules, ∀ start', rule'.reconciled.startingNumber = some start' →
      c ∈ ledger (setup.passTwo lineup ids.newId).order rule'.id →
        sortedNumber (setup.passTwo lineup ids.newId).order rule.id start c =
          sortedNumber (setup.passTwo lineup ids.newId).order rule'.id start' c := by
    intro rule' hrule' start' hstart' hc'
    have hid := noted_disjoint ids hdisjoint hc hc'
    obtain rfl : rule = rule' := List.inj_on_of_nodup_map setup.nodup_rules hrule hrule' hid
    cases hstart.symm.trans hstart'
    rfl
  have hsorted : Numbered c (sortedNumber (setup.passTwo lineup ids.newId).order rule.id start c)
      (setup.beforeCleanup lineup ids.newId).channels :=
    renumberSorted_sets hrule hstart hsort hlength hc
      fun rule' hrule' start' hstart' _ hc' => honly rule' hrule' start' hstart' hc'
  refine reconcileRules_numbered allDone hsorted fun row hrow start' hstart' _ hc' => ?_
  rw [items_reconciledRules] at hrow
  obtain ⟨rule', hrule', rfl⟩ := List.mem_map.mp hrow
  exact honly rule' hrule' start' hstart' hc'

/-- The channels of the second run are those it has loaded, with their numbers and groups. -/
theorem get?_passTwo_again (hrenamed : Renamed (setup.startState lineup')
    (setup.passTwo lineup' ids'.newId).executor) {key : ChannelKey} {channel : Channel}
    (hget : (setup.passTwo lineup' ids'.newId).executor.channels.get? key = some channel) :
    ∃ id x, key = .existing id ∧ lineup'.channels.get? id = some x ∧
      channel.channelGroupId = x.channelGroupId ∧ channel.streams = x.streams ∧
      (storedChannel lineup' key channel).channelNumber = x.channelNumber := by
  have hkey := hrenamed.channels key
  rw [hget, Option.map_some] at hkey
  obtain ⟨before, hbefore, hunnamed⟩ := Option.map_eq_some_iff.mp hkey.symm
  obtain ⟨id, x, rfl, hx, rfl⟩ := (get?_startState setup lineup' key before).mp hbefore
  have hgroup : x.loaded.unnamed.channelGroupId = channel.unnamed.channelGroupId :=
    congrArg Channel.channelGroupId hunnamed
  have hstreams : x.loaded.unnamed.streams = channel.unnamed.streams := congrArg Channel.streams hunnamed
  refine ⟨id, x, rfl, hx, hgroup.symm, hstreams.symm, ?_⟩
  rw [storedChannel]
  dsimp only
  rw [hx, Option.bind_some]

/-- Pass 3 of the second run finds every channel on its number. -/
theorem renumberSorted_again (hdisjoint : DisjointLedgers lineup.managed)
    (hrelisted : Relisted (setup.run lineup ids.newId order) lineup')
    (hrenamed : Renamed (setup.startState lineup') (setup.passTwo lineup' ids'.newId).executor)
    (hagain : List.Forall₂ Again (setup.passTwo lineup ids.newId).executed
      (setup.passTwo lineup' ids'.newId).executed) :
    (setup.beforeCleanup lineup' ids'.newId).channels =
      storedChannels lineup' ids'.newId (setup.passTwo lineup' ids'.newId).executor := by
  refine renumberSorted_idle fun rule hrule start hstart hsort hlength c hc => ?_
  have horder := order_again ids ids' hrelisted hagain hrule
  have hfirst : c ∈ ledger (setup.passTwo lineup ids.newId).order rule.id := by
    rw [← mem_firsts, ← horder, mem_firsts]
    exact hc
  intro stored hstored
  obtain ⟨key, channel, hkey, hget, rfl⟩ :=
    (get?_storedChannels lineup' (id_injective_passTwo ids' setup) c stored).mp hstored
  obtain ⟨id, x, rfl, hx, _, _, hnumber⟩ := get?_passTwo_again ids' hrenamed hget
  obtain rfl : id = c := hkey
  rw [hrelisted.channels, RunSetup.channels_run] at hx
  obtain ⟨_, _, left, _, _, hleft, hlisted, _, _⟩ :=
    of_get?_listedAfter (id_injective_passTwo ids setup) hx
  have hnumbered := numbered_run ids hdisjoint hrule hstart hsort (horder ▸ hlength) hfirst left hleft
  rw [hnumber, hlisted, hnumbered, sortedNumber, sortedNumber, horder]

/-- What the second run leaves is what it has loaded. -/
theorem channels_again (hdisjoint : DisjointLedgers lineup.managed)
    (hrelisted : Relisted (setup.run lineup ids.newId order) lineup')
    (hrenamed : Renamed (setup.startState lineup') (setup.passTwo lineup' ids'.newId).executor)
    (hagain : List.Forall₂ Again (setup.passTwo lineup ids.newId).executed
      (setup.passTwo lineup' ids'.newId).executed) :
    (setup.afterCleanup lineup' ids'.newId).channels =
      storedChannels lineup' ids'.newId (setup.passTwo lineup' ids'.newId).executor := by
  rw [← renumberSorted_again ids ids' hdisjoint hrelisted hrenamed hagain]
  refine reconcileRules_idle allDone (reconciledRules (setup.input lineup') ∅).nodup_keys fun row hrow => ?_
  rw [items_reconciledRules] at hrow
  obtain ⟨rule, hrule, rfl⟩ := List.mem_map.mp hrow
  exact orphansOf_again ids ids' hrelisted hagain hrule rfl

end Again

/-- A run that the cap did not stop is done again on the channels it has left, in whatever order they are
listed. If every stream is won by the same rule there, its lookup finds the channel it had ended on, and
no channel is in the ledgers of two rules, then the second run creates, merges, deletes and renumbers
nothing. -/
theorem run_again (setup : RunSetup) {lineup : Lineup} (ids : NewIds lineup) (order : StreamOrder)
    (hcap : setup.Uncapped lineup ids.newId) (hdisjoint : DisjointLedgers lineup.managed)
    {lineup' : Lineup} (hrelisted : Relisted (setup.run lineup ids.newId order) lineup')
    (hwinners : SameWinners setup lineup lineup') (ids' : NewIds lineup') (order' : StreamOrder)
    (hfound : FoundAgain (setup.services lineup'.managed ids'.newId) (setup.startState lineup')
      (setup.passTwo lineup ids.newId).executed) :
    Idle lineup'.channels (setup.run lineup' ids'.newId order').channels := by
  obtain ⟨hrenamed, hagain⟩ := passTwo_again ids ids' hcap hrelisted hwinners hfound
  have hchannels := channels_again ids ids' hdisjoint hrelisted hrenamed hagain
  have hinjective := id_injective_passTwo ids' setup
  have hstored : ∀ {key channel}, (setup.passTwo lineup' ids'.newId).executor.channels.get? key = some channel →
      (setup.afterCleanup lineup' ids'.newId).channels.get? (key.id ids'.newId) =
        some (storedChannel lineup' key channel) := by
    intro key channel hget
    rw [hchannels]
    exact (get?_storedChannels lineup' hinjective _ _).mpr ⟨key, channel, rfl, hget, rfl⟩
  have hlisted : ∀ c x', (setup.run lineup' ids'.newId order').channels.get? c = some x' →
      ∃ x, lineup'.channels.get? c = some x ∧ x'.channelNumber = x.channelNumber ∧
        x'.channelGroupId = x.channelGroupId ∧ x'.streams.Perm x.streams := by
    intro c x' hx'
    rw [RunSetup.channels_run] at hx'
    obtain ⟨key, channel, stored, rfl, hget, hleft, hnumber, hgroup, hperm⟩ :=
      of_get?_listedAfter hinjective hx'
    cases (hstored hget).symm.trans hleft
    obtain ⟨id, x, rfl, hx, hgroup', hstreams, hnumber'⟩ := get?_passTwo_again ids' hrenamed hget
    exact ⟨x, hx, hnumber.trans hnumber', hgroup.trans hgroup', hstreams ▸ hperm⟩
  refine ⟨fun c => ⟨fun hc => ?_, fun hc => ?_⟩, fun c x x' hx hx' => ?_⟩
  · obtain ⟨x', hx'⟩ := Dict.exists_get? hc
    obtain ⟨x, hx, _⟩ := hlisted c x' hx'
    exact Dict.mem_of_get? hx
  · obtain ⟨x, hx⟩ := Dict.exists_get? hc
    have hstart : .existing c ∈ (setup.startState lineup').channels :=
      Dict.mem_of_get? ((get?_startState setup lineup' _ _).mpr ⟨c, x, rfl, hx, rfl⟩)
    obtain ⟨channel, hget⟩ := Dict.exists_get? ((hrenamed.mem_iff _).mpr hstart)
    have hafter : (setup.run lineup' ids'.newId order').channels.get?
        ((ChannelKey.existing c).id ids'.newId) =
          some (listedChannel ids'.newId order' (.existing c) channel
            (storedChannel lineup' (.existing c) channel)) := by
      rw [RunSetup.channels_run]
      exact get?_listedAfter hinjective hget (hstored hget)
    exact Dict.mem_of_get? hafter
  · obtain ⟨y, hy, hsame⟩ := hlisted c x' hx'
    cases hx.symm.trans hy
    exact hsame

instance decidableFoundAgain {σ : Type} (services : Services σ) :
    ∀ (s : σ) (executed : List Executed), Decidable (FoundAgain services s executed)
  | _, [] => isTrue trivial
  | s, e :: executed =>
    have := decidableFoundAgain services (services.perform e.rule e.stream s).2 executed
    inferInstanceAs (Decidable (_ ∧ _))

namespace Rerun

/-- Names in lower case without an engine; the number of a channel is put in front of its name if there
is a separator. -/
def numbering (separator : Option String) : Config where
  naming := ⟨id, fun name => [name], id, fun name => ("", name), id⟩
  normalizer := none
  numberInName := fun ticks name => match separator with
    | none => name
    | some separator => s!"{ticks / 10} {separator} {name}"
  score := fun _ _ _ _ _ => none
  accountOf := fun _ => none
  managed := []

/-- A rule that merges every stream into the channel of its name and sorts its channels from 5 on. -/
def everyStream : CreateRule where
  id := 1
  m3uAccountId := none
  conditions := fun _ _ => true
  stopOnFirstMatch := true
  sortBy := none
  skipStruckStreams := false
  params := ⟨Stream.streamName, some 3, .merge, .auto⟩
  mergesOrSkips := .inl rfl
  options := ⟨some 3, [], false, none, false, false⟩
  reconciled := ⟨"every stream", none, .delete, some "name", some 5⟩
  standard := rfl

def streamNamed (id : ℤ) (name : String) : Stream := ⟨id, name, none, none, none, none⟩

def twoStreams (separator : Option String) : RunSetup where
  cfg := numbering separator
  rules := [everyStream]
  nodup_rules := by decide
  catalog := Dict.ofList [(5, [streamNamed 1 "news", streamNamed 2 "sport"])]
  m3uAccountIds := []
  excluded := fun _ => false
  inTimezone := fun _ => true
  struck := []
  channelCap := 0

def noChannels : Lineup := ⟨∅, ∅⟩

/-- Ids from a number on. -/
def idsFrom (lineup : Lineup) (start : ℤ) (hlisted : ∀ n : ℕ, start + n ∉ lineup.channels)
    (hmanaged : ∀ (n : ℕ) ruleId, start + n ∉ ledger lineup.managed ruleId) : NewIds lineup :=
  ⟨fun n => start + n, fun _ _ h => by simpa using h, hlisted, hmanaged⟩

def firstIds : NewIds noChannels :=
  idsFrom noChannels 100 (fun _ => List.not_mem_nil) fun _ _ => List.not_mem_nil

def unordered : StreamOrder := ⟨fun _ streams => streams, fun _ _ => List.Perm.refl _⟩

/-- What the first run leaves. -/
def afterOne (separator : Option String) : Lineup :=
  (twoStreams separator).run noChannels firstIds.newId unordered

theorem keys_afterOne : (afterOne none).channels.keys = [100, 101] ∧
    (afterOne (some "-")).channels.keys = [100, 101] := by
  decide +kernel

theorem managed_afterOne : (afterOne none).managed.items = [(1, [100, 101])] ∧
    (afterOne (some "-")).managed.items = [(1, [100, 101])] := by
  decide +kernel

/-- New ids after a run that has left the channels 100 and 101 to the rule. -/
def secondIds (lineup : Lineup) (hkeys : lineup.channels.keys = [100, 101])
    (hmanaged : lineup.managed.items = [(1, [100, 101])]) : NewIds lineup := by
  refine idsFrom lineup 200 (fun n hn => ?_) fun n ruleId hn => ?_
  · rw [Dict.mem_def, hkeys] at hn
    simp only [List.mem_cons, List.not_mem_nil, or_false] at hn
    omega
  · rw [ledger, Dict.get?, hmanaged, findEntry, findEntry] at hn
    split_ifs at hn with hrule
    · simp only [Option.getD_some, List.mem_cons, List.not_mem_nil, or_false] at hn
      omega
    · cases hn

/-- Without numbers in the names the second run has nothing to do. -/
theorem idle_without_numbers : Idle (afterOne none).channels
    ((twoStreams none).run (afterOne none)
      (secondIds _ keys_afterOne.1 managed_afterOne.1).newId unordered).channels :=
  run_again (twoStreams none) firstIds unordered rfl (fun _ _ _ h => (List.not_mem_nil h).elim)
    ⟨fun _ => rfl, rfl⟩ (fun _ _ => rfl) _ unordered (by decide +kernel)

/-- With a dash between number and name the second run finds none of the channels, creates them again
and deletes those of the first run. -/
theorem again_with_dash :
    (twoStreams (some "-")).Uncapped noChannels firstIds.newId ∧
      ((twoStreams (some "-")).run (afterOne (some "-"))
        (secondIds _ keys_afterOne.2 managed_afterOne.2).newId unordered).channels.keys = [200, 201] ∧
      ¬Idle (afterOne (some "-")).channels
        ((twoStreams (some "-")).run (afterOne (some "-"))
          (secondIds _ keys_afterOne.2 managed_afterOne.2).newId unordered).channels := by
  have hkeys : ((twoStreams (some "-")).run (afterOne (some "-"))
      (secondIds _ keys_afterOne.2 managed_afterOne.2).newId unordered).channels.keys = [200, 201] := by
    decide +kernel
  refine ⟨rfl, hkeys, fun hidle => ?_⟩
  have hnew := (hidle.keys 200).mp (by rw [Dict.mem_def, hkeys]; decide)
  rw [Dict.mem_def, keys_afterOne.2] at hnew
  exact absurd hnew (by decide)

end Rerun

end ChannelManager.Pipeline
