import ChannelManager.Pipeline.WholeRun
import ChannelManager.Pipeline.NameIndices

/-!
# The second run

A run that is done again, on the lineup the first one left, has nothing to do when it finds every stream
on the channel the first run ended the stream on. The streams it would merge are there, the channels its
rules note are those of their ledgers, in the order of the first run, and they have their numbers.
-/

namespace ChannelManager.Pipeline

/-! ## One stream -/

/-- A channel but for its name. -/
def Channel.unnamed (channel : Channel) : Channel := { channel with name := "" }

/-- No channel differs in more than its name, and none was created. -/
structure Renamed (s s' : State) : Prop where
  channels : ∀ key, (s'.channels.get? key).map Channel.unnamed = (s.channels.get? key).map Channel.unnamed
  nextKey : s'.nextKey = s.nextKey

theorem Renamed.refl (s : State) : Renamed s s := ⟨fun _ => rfl, rfl⟩

theorem Renamed.trans {s s' s'' : State} (h : Renamed s s') (h' : Renamed s' s'') : Renamed s s'' :=
  ⟨fun key => (h'.channels key).trans (h.channels key), h'.nextKey.trans h.nextKey⟩

theorem Renamed.get? {s s' : State} (h : Renamed s s') {key : ChannelKey} {channel : Channel}
    (hget : s.channels.get? key = some channel) :
    ∃ channel', s'.channels.get? key = some channel' ∧ channel'.streams = channel.streams := by
  have hkey := h.channels key
  rw [hget, Option.map_some] at hkey
  obtain ⟨channel', hget', hunnamed⟩ := Option.map_eq_some_iff.mp hkey
  have hstreams : channel'.unnamed.streams = channel.unnamed.streams := congrArg Channel.streams hunnamed
  exact ⟨channel', hget', hstreams⟩

theorem Renamed.mem_iff {s s' : State} (h : Renamed s s') (key : ChannelKey) :
    key ∈ s'.channels ↔ key ∈ s.channels := by
  have hkey := congrArg Option.isSome (h.channels key)
  rw [Option.isSome_map, Option.isSome_map] at hkey
  rw [← Dict.isSome_get?, ← Dict.isSome_get?, hkey]

/-- What executing a `create_channel` action on a stream does: it ends on a channel that is there, or on
the next one created, which has the stream unless the action skipped. Nothing is taken away. -/
structure Placed (params : CreateParams) (stream : Stream) (s : State) (turn : Turn) : Prop where
  kept : ∀ key channel, s.channels.get? key = some channel →
    ∃ channel', turn.state.channels.get? key = some channel' ∧ channel.streams ⊆ channel'.streams
  placed : ∃ key channel, turn.ctx.currentChannel = some key ∧
    turn.state.channels.get? key = some channel ∧
    (params.ifExists = .merge → stream.streamId ∈ channel.streams) ∧
    ((key ∈ s.channels ∧ turn.ctx.createdChannels = [] ∧ turn.state.nextKey = s.nextKey ∧
        ∀ k, k ∈ turn.state.channels ↔ k ∈ s.channels) ∨
      (key = .created s.nextKey ∧ turn.ctx.createdChannels = [key] ∧
        turn.state.nextKey = s.nextKey + 1 ∧
        ∀ k, k ∈ turn.state.channels ↔ k = key ∨ k ∈ s.channels))

section Stream

variable (cfg : Config)

theorem renameExisting_renamed (opts : RuleOptions) {key : ChannelKey} {channel : Channel}
    (channelName : String) {s : State} (hget : s.channels.get? key = some channel) :
    Renamed s (renameExisting cfg noFailure false opts key channel channelName s) := by
  rw [renameExisting]
  cases renamedTo cfg opts channel channelName with
  | none => exact Renamed.refl s
  | some name =>
    refine ⟨?_, rfl⟩
    intro k
    have hchannels : ∀ k, (s.channels.set key { channel with name }).get? k =
        if key = k then some { channel with name } else s.channels.get? k :=
      fun k => Dict.get?_set _ _ _ _
    change ((s.channels.set key { channel with name }).get? k).map Channel.unnamed = _
    rw [hchannels]
    split
    · rename_i hk
      rw [← hk, hget]
      rfl
    · rfl

/-- A stream that is in the channel found, or that the action skips, changes no more than the name of the
channel. -/
theorem useExisting_renamed {params : CreateParams}
    (hmode : params.ifExists = .merge ∨ params.ifExists = .skip) (opts : RuleOptions) {key : ChannelKey}
    {channel : Channel} (channelName : String) {stream : Stream} (ctx : Context) {s : State}
    (hget : s.channels.get? key = some channel)
    (hheld : params.ifExists = .merge → stream.streamId ∈ channel.streams) :
    let turn := useExisting cfg noFailure false params opts key channel channelName stream ctx s
    turn.ctx = { ctx with currentChannel := some key } ∧ turn.result.created = false ∧
      Renamed s turn.state := by
  have hrenamed := renameExisting_renamed cfg opts channelName hget
  obtain ⟨channel', hget', hstreams⟩ := hrenamed.get? hget
  rw [useExisting]
  dsimp only
  rw [hget', Option.getD_some]
  cases hmode with
  | inl hmerge =>
    rw [hmerge]
    dsimp only
    rw [addStreamToChannel, if_pos (hstreams ▸ hheld hmerge)]
    exact ⟨rfl, rfl, hrenamed⟩
  | inr hskip =>
    rw [hskip]
    exact ⟨rfl, rfl, hrenamed⟩

theorem Renamed.placed {params : CreateParams} {stream : Stream} {s : State} {turn : Turn}
    (h : Renamed s turn.state) {key : ChannelKey} {channel : Channel}
    (hget : s.channels.get? key = some channel)
    (hheld : params.ifExists = .merge → stream.streamId ∈ channel.streams)
    (hctx : turn.ctx.currentChannel = some key ∧ turn.ctx.createdChannels = []) :
    Placed params stream s turn where
  kept k c hk := by
    obtain ⟨channel', hget', hstreams⟩ := h.get? hk
    exact ⟨channel', hget', hstreams ▸ List.Subset.refl _⟩
  placed := by
    obtain ⟨channel', hget', hstreams⟩ := h.get? hget
    exact ⟨key, channel', hctx.1, hget', fun hmerge => hstreams ▸ hheld hmerge,
      .inl ⟨Dict.mem_of_get? hget, hctx.2, h.nextKey, h.mem_iff⟩⟩

theorem Placed.of_renamed {params : CreateParams} {stream : Stream} {s s' : State} {turn : Turn}
    (h : Renamed s s') (h' : Placed params stream s' turn) : Placed params stream s turn where
  kept key channel hget := by
    obtain ⟨renamed, hrenamed, hstreams⟩ := h.get? hget
    obtain ⟨channel', hget', hsub⟩ := h'.kept key renamed hrenamed
    exact ⟨channel', hget', hstreams ▸ hsub⟩
  placed := by
    obtain ⟨key, channel, hcurrent, hget, hheld, hcases⟩ := h'.placed
    refine ⟨key, channel, hcurrent, hget, hheld, ?_⟩
    cases hcases with
    | inl hfound =>
      obtain ⟨hmem, hcreated, hnext, hkeys⟩ := hfound
      exact .inl ⟨(h.mem_iff key).mp hmem, hcreated, hnext.trans h.nextKey,
        fun k => (hkeys k).trans (h.mem_iff k)⟩
    | inr hnew =>
      obtain ⟨hkey, hcreated, hnext, hkeys⟩ := hnew
      exact .inr ⟨h.nextKey ▸ hkey, hcreated, h.nextKey ▸ hnext,
        fun k => (hkeys k).trans (or_congr_right (h.mem_iff k))⟩

theorem Placed.of_merge {params : CreateParams} {stream : Stream} {s : State} {turn : Turn}
    {key : ChannelKey} {channel : Channel} (hget : s.channels.get? key = some channel)
    (hchannels : turn.state.channels =
      s.channels.set key { channel with streams := channel.streams ++ [stream.streamId] })
    (hnext : turn.state.nextKey = s.nextKey)
    (hctx : turn.ctx.currentChannel = some key ∧ turn.ctx.createdChannels = []) :
    Placed params stream s turn where
  kept k c hk := by
    rw [hchannels]
    by_cases hkey : key = k
    · subst hkey
      cases hget.symm.trans hk
      exact ⟨_, Dict.get?_set_self _ _ _, List.subset_append_left _ _⟩
    · exact ⟨c, (Dict.get?_set_ne _ _ hkey).trans hk, List.Subset.refl _⟩
  placed := by
    rw [hchannels]
    refine ⟨key, _, hctx.1, Dict.get?_set_self _ _ _,
      fun _ => List.mem_append_right _ (List.mem_singleton.mpr rfl),
      .inl ⟨Dict.mem_of_get? hget, hctx.2, hnext, ?_⟩⟩
    intro k
    exact (Dict.mem_set _ _ _ _).trans (or_iff_right_of_imp fun hk => hk ▸ Dict.mem_of_get? hget)

/-- A stream that is merged into the channel found. -/
theorem addStreamToChannel_placed {params : CreateParams} {key : ChannelKey} {channel : Channel}
    {stream : Stream} {ctx : Context} (hctx : ctx.createdChannels = []) {s : State}
    (hget : s.channels.get? key = some channel) :
    Placed params stream s (addStreamToChannel noFailure false key channel stream ctx s) := by
  have htrack : ∀ (s : State) (account : Option ℤ),
      (s.trackM3uCount key account).channels = s.channels ∧
        (s.trackM3uCount key account).nextKey = s.nextKey := by
    intro s account
    cases account <;> exact ⟨rfl, rfl⟩
  rw [addStreamToChannel]
  by_cases hheld : stream.streamId ∈ channel.streams
  · rw [if_pos hheld]
    exact (Renamed.refl s).placed hget (fun _ => hheld) ⟨rfl, hctx⟩
  · rw [if_neg hheld, if_neg Bool.false_ne_true]
    exact .of_merge hget (htrack _ _).1 (htrack _ _).2 ⟨rfl, hctx⟩

theorem useExisting_placed {params : CreateParams}
    (hmode : params.ifExists = .merge ∨ params.ifExists = .skip) (opts : RuleOptions) {key : ChannelKey}
    {channel : Channel} (channelName : String) {stream : Stream} {ctx : Context}
    (hctx : ctx.createdChannels = []) {s : State} (hget : s.channels.get? key = some channel) :
    Placed params stream s
      (useExisting cfg noFailure false params opts key channel channelName stream ctx s) := by
  have hrenamed := renameExisting_renamed cfg opts channelName hget
  obtain ⟨channel', hget', _⟩ := hrenamed.get? hget
  rw [useExisting, hget', Option.getD_some]
  cases hmode with
  | inl hmerge =>
    rw [hmerge]
    exact (addStreamToChannel_placed hctx hget').of_renamed hrenamed
  | inr hskip =>
    rw [hskip]
    exact hrenamed.placed hget (fun hmerge => by rw [hskip] at hmerge; cases hmerge) ⟨rfl, hctx⟩

/-- A stream that a channel is created for. -/
theorem createNew_placed (params : CreateParams) (groupId : Option ℤ) (channelName : String)
    (stream : Stream) {ctx : Context} (hctx : ctx.createdChannels = []) (s : State)
    (hfresh : .created s.nextKey ∉ s.channels) :
    Placed params stream s
      (createNew cfg noFailure false params groupId channelName stream ctx s) := by
  let channel := newChannel (getNextChannelNumber s.used params.channelNumber)
    (cfg.numberInName (getNextChannelNumber s.used params.channelNumber) channelName) groupId stream
  have hchannels : (createNew cfg noFailure false params groupId channelName stream ctx s).state.channels =
      s.channels.set (.created s.nextKey) channel := rfl
  constructor
  · intro k c hk
    rw [hchannels]
    have hne : ChannelKey.created s.nextKey ≠ k := fun h => hfresh (h ▸ Dict.mem_of_get? hk)
    exact ⟨c, (Dict.get?_set_ne _ _ hne).trans hk, List.Subset.refl _⟩
  · rw [hchannels]
    refine ⟨.created s.nextKey, channel, rfl, Dict.get?_set_self _ _ _,
      fun _ => List.mem_singleton.mpr rfl, .inr ⟨rfl, ?_, rfl, fun k => Dict.mem_set _ _ _ _⟩⟩
    exact congrArg (ChannelKey.created s.nextKey :: ·) hctx

theorem findChannelByName_renamed (s : State) (name : String) (scope : Option ℤ) (blockManual fold : Bool) :
    Renamed s (findChannelByName cfg s name scope blockManual fold).2 := ⟨fun _ => rfl, rfl⟩

theorem executeCreateChannel_placed {params : CreateParams}
    (hmode : params.ifExists = .merge ∨ params.ifExists = .skip) (opts : RuleOptions) (stream : Stream)
    {ctx : Context} (hctx : ctx.createdChannels = []) (s : State)
    (hfresh : .created s.nextKey ∉ s.channels) :
    Placed params stream s (executeCreateChannel cfg noFailure false params opts stream ctx s) := by
  have hlookup := findChannelByName_renamed cfg s (channelNameFor cfg params opts stream)
    (createScope params opts) (!opts.allowManualChannelMerge) opts.foldMatchKey
  rw [executeCreateChannel]
  dsimp only
  cases hfind : findChannelByName cfg s (channelNameFor cfg params opts stream)
    (createScope params opts) (!opts.allowManualChannelMerge) opts.foldMatchKey with
  | mk found s' =>
  rw [hfind] at hlookup
  refine .of_renamed hlookup ?_
  dsimp only
  split
  · rename_i key channel hfound
    exact useExisting_placed cfg hmode opts _ hctx (get?_of_found hfound)
  · have hcreates : params.ifExists ≠ .mergeOnly := by
      intro h
      rw [h] at hmode
      cases hmode with
      | inl h => cases h
      | inr h => cases h
    rw [createUnlessMergeOnly, if_neg hcreates]
    refine createNew_placed cfg params _ _ stream hctx s' ?_
    rw [hlookup.nextKey, hlookup.mem_iff]
    exact hfresh

/-- A stream whose channel is found changes no more than the name of the channel. -/
theorem executeCreateChannel_renamed {params : CreateParams}
    (hmode : params.ifExists = .merge ∨ params.ifExists = .skip) (opts : RuleOptions) {stream : Stream}
    (ctx : Context) {s : State} {key : ChannelKey} {channel : Channel}
    (hfind : resolveAction cfg opts stream s (.createChannel params) = some key)
    (hget : s.channels.get? key = some channel)
    (hheld : params.ifExists = .merge → stream.streamId ∈ channel.streams) :
    let turn := executeCreateChannel cfg noFailure false params opts stream ctx s
    turn.ctx = { ctx with currentChannel := some key } ∧ turn.result.created = false ∧
      Renamed s turn.state := by
  have hlookup := findChannelByName_renamed cfg s (channelNameFor cfg params opts stream)
    (createScope params opts) (!opts.allowManualChannelMerge) opts.foldMatchKey
  have hchannels : (findChannelByName cfg s (channelNameFor cfg params opts stream)
    (createScope params opts) (!opts.allowManualChannelMerge) opts.foldMatchKey).2.channels =
      s.channels := rfl
  rw [resolveAction] at hfind
  rw [executeCreateChannel]
  cases hlooked : findChannelByName cfg s (channelNameFor cfg params opts stream)
    (createScope params opts) (!opts.allowManualChannelMerge) opts.foldMatchKey with
  | mk found s' =>
  rw [hlooked] at hlookup hchannels hfind
  have hget' : s'.channels.get? key = some channel := hchannels ▸ hget
  dsimp only at hfind ⊢
  rw [hfind, Option.bind_some, hget', Option.map_some]
  obtain ⟨hctx, hresult, hrenamed⟩ := useExisting_renamed cfg hmode opts
    (channelNameFor cfg params opts stream) ctx hget' hheld
  exact ⟨hctx, hresult, hlookup.trans hrenamed⟩

end Stream

/-! ## Pass 2 -/

section PassTwo

variable {σ : Type}

/-- What Pass 2 keeps over one stream it keeps over all. -/
theorem executeEntries_keeps (services : Services σ) (input : RunInput) {P : PassTwo σ → Prop}
    {entries : List (Stream × PipelineRule)}
    (hstep : ∀ e ∈ entries, ∀ pass : PassTwo σ, P pass →
      P { executor := (services.perform e.2 e.1 pass.executor).2
          order := trackChannel input e.2 (services.perform e.2 e.1 pass.executor).1 pass.order
          channelsCreated := pass.channelsCreated +
            (services.perform e.2 e.1 pass.executor).1.channelsCreated
          executed := pass.executed ++ [⟨e.2, e.1, (services.perform e.2 e.1 pass.executor).1⟩] })
    {pass : PassTwo σ} (h : P pass) : P (executeEntries services input entries pass) := by
  induction entries generalizing pass with
  | nil => exact h
  | cons e entries ih =>
    have hrest := fun e' he' => hstep e' (List.mem_cons_of_mem e he')
    obtain ⟨stream, rule⟩ := e
    rw [executeEntries]
    split
    · exact h
    · split
      · exact ih hrest h
      · exact ih hrest (hstep (stream, rule) List.mem_cons_self pass h)

/-- The channel an executed stream is noted with, under its rule. -/
def notedChannel (managed : Dict ℤ (List ℤ)) (e : Executed) : Option ℤ :=
  (e.turn.currentChannelId.filter (· ≠ 0)).filter fun c =>
    decide (c ∈ e.turn.createdChannelIds ∨ c ∈ ledger managed e.rule.id)

/-- The channels noted for a rule. -/
def noted (managed : Dict ℤ (List ℤ)) (executed : List Executed) (ruleId : ℤ) : List ℤ :=
  executed.filterMap fun e => if e.rule.id = ruleId then notedChannel managed e else none

theorem filterMap_concat {α β : Type} (f : α → Option β) (l : List α) (a : α) :
    (l ++ [a]).filterMap f = l.filterMap f ++ (f a).toList := by
  rw [List.filterMap_append]
  cases hf : f a <;> simp [hf]

theorem noted_concat (managed : Dict ℤ (List ℤ)) (executed : List Executed) (e : Executed) (ruleId : ℤ) :
    noted managed (executed ++ [e]) ruleId = noted managed executed ruleId ++
      (if e.rule.id = ruleId then notedChannel managed e else none).toList :=
  filterMap_concat _ _ _

theorem ledger_trackChannel (input : RunInput) (e : Executed) (order : Dict ℤ (List ℤ)) (ruleId : ℤ) :
    ledger (trackChannel input e.rule e.turn order) ruleId = ledger order ruleId ++
      (if e.rule.id = ruleId then notedChannel input.managed e else none).toList := by
  rw [trackChannel, notedChannel]
  cases hcurrent : e.turn.currentChannelId.filter (· ≠ 0) with
  | none => simp
  | some c =>
    dsimp only
    by_cases howned : c ∈ e.turn.createdChannelIds ∨ c ∈ ledger input.managed e.rule.id
    · rw [if_pos howned, ledger_set, Option.filter_some, decide_eq_true howned, if_pos rfl]
      by_cases hrule : e.rule.id = ruleId
      · rw [if_pos hrule, if_pos hrule, ← hrule]
        rfl
      · rw [if_neg hrule, if_neg hrule]
        simp
    · rw [if_neg howned, Option.filter_some, decide_eq_false howned, if_neg Bool.false_ne_true]
      simp

/-- `rule_channel_order` lists what the executed streams were noted with. -/
theorem executeEntries_order (services : Services σ) (input : RunInput)
    (entries : List (Stream × PipelineRule)) (s : σ) (ruleId : ℤ) :
    let pass := executeEntries services input entries ⟨s, ∅, 0, []⟩
    ledger pass.order ruleId = noted input.managed pass.executed ruleId := by
  refine executeEntries_keeps services input
    (P := fun pass => ledger pass.order ruleId = noted input.managed pass.executed ruleId) ?_ rfl
  intro e _ pass h
  dsimp only at h ⊢
  rw [noted_concat, ← h]
  exact ledger_trackChannel input ⟨e.2, e.1, _⟩ pass.order ruleId

end PassTwo

/-! ## The streams matched -/

section Matched

theorem mem_of_winningRule {rules : List PipelineRule} {stream : Stream} {rule : PipelineRule}
    (h : winningRule rules stream = some rule) : rule ∈ rules := by
  have hsub : ∀ rules : List PipelineRule, matchingRules stream rules ⊆ rules := by
    intro rules
    induction rules with
    | nil => exact List.Subset.refl _
    | cons rule rules ih =>
      rw [matchingRules]
      split
      · split
        · intro r hr
          cases List.mem_singleton.mp hr
          exact List.mem_cons_self
        · exact List.cons_subset_cons _ ih
      · exact List.subset_cons_of_subset _ ih
  exact hsub rules (List.mem_of_mem_head? h)

theorem mem_sortGroup {entries : List (Stream × PipelineRule)} {e : Stream × PipelineRule} :
    e ∈ sortGroup entries ↔ e ∈ entries := by
  rw [sortGroup]
  split
  · exact Iff.rfl
  · exact (List.mergeSort_perm _ _).mem_iff

theorem mem_of_sortedEntries {entries : List (Stream × PipelineRule)} {e : Stream × PipelineRule}
    (h : e ∈ sortedEntries entries) : e ∈ entries := by
  obtain ⟨id, _, he⟩ := List.mem_flatMap.mp h
  exact List.mem_of_mem_filter (mem_sortGroup.mp he)

/-- Every entry of a run is won by one of the rules, on the channels loaded. -/
theorem winner_of_entry {setup : RunSetup} {lineup : Lineup} {e : Stream × PipelineRule}
    (he : e ∈ setup.entries lineup) : ∃ rule ∈ setup.rules, e.2 = rule.on lineup.loaded := by
  have hmatched := List.mem_of_mem_filter (mem_of_sortedEntries he)
  obtain ⟨stream, _, hwinner⟩ := List.mem_filterMap.mp hmatched
  obtain ⟨rule, hrule, rfl⟩ := Option.map_eq_some_iff.mp hwinner
  obtain ⟨base, hbase, hon⟩ := List.mem_map.mp (mem_of_winningRule hrule)
  exact ⟨base, hbase, hon.symm⟩

/-- A rule but for its conditions. -/
def PipelineRule.unconditioned (rule : PipelineRule) : PipelineRule :=
  { rule with conditions := fun _ => true }

/-- An entry but for the conditions of its rule. -/
def unconditioned (e : Stream × PipelineRule) : Stream × PipelineRule := (e.1, e.2.unconditioned)

theorem sortGroup_unconditioned (entries : List (Stream × PipelineRule)) :
    (sortGroup entries).map unconditioned = sortGroup (entries.map unconditioned) := by
  have hsortBy : (entries.map unconditioned).head?.bind (fun e => e.2.sortBy) =
      entries.head?.bind fun e => e.2.sortBy := by
    cases entries <;> rfl
  rw [sortGroup, sortGroup, hsortBy]
  split
  · rfl
  · exact List.map_mergeSort fun _ _ _ _ => rfl

theorem sortedEntries_unconditioned (entries : List (Stream × PipelineRule)) :
    (sortedEntries entries).map unconditioned = sortedEntries (entries.map unconditioned) := by
  have hids : (entries.map unconditioned).map (fun e => e.2.id) = entries.map fun e => e.2.id := by
    rw [List.map_map]
    rfl
  rw [sortedEntries, sortedEntries, hids, List.map_flatMap]
  congr 1
  funext id
  rw [sortGroup_unconditioned, List.filter_map]
  rfl

/-- Every stream fetched is won by the same rule on either lineup. -/
def SameWinners (setup : RunSetup) (lineup lineup' : Lineup) : Prop :=
  ∀ stream ∈ (setup.input lineup).fetched,
    (winningRule (setup.input lineup').rules stream).map PipelineRule.id =
      (winningRule (setup.input lineup).rules stream).map PipelineRule.id

theorem fetched_eq (setup : RunSetup) (lineup lineup' : Lineup) :
    (setup.input lineup').fetched = (setup.input lineup).fetched := by
  have haccounts : (setup.input lineup').accountsToFetch = (setup.input lineup).accountsToFetch := by
    rw [RunInput.accountsToFetch, RunInput.accountsToFetch]
    dsimp only [RunSetup.input]
    rw [List.filterMap_map, List.filterMap_map]
    rfl
  have hrules : (setup.input lineup').rules = [] ↔ (setup.input lineup).rules = [] :=
    List.map_eq_nil_iff.trans List.map_eq_nil_iff.symm
  rw [RunInput.fetched, RunInput.fetched, haccounts]
  by_cases hnil : (setup.input lineup).rules = []
  · rw [if_pos hnil, if_pos (hrules.mpr hnil)]
  · rw [if_neg hnil, if_neg (mt hrules.mp hnil)]
    rfl

theorem winner_unconditioned {setup : RunSetup} {lineup lineup' : Lineup} {stream : Stream}
    (h : (winningRule (setup.input lineup').rules stream).map PipelineRule.id =
      (winningRule (setup.input lineup).rules stream).map PipelineRule.id) :
    (winningRule (setup.input lineup').rules stream).map PipelineRule.unconditioned =
      (winningRule (setup.input lineup).rules stream).map PipelineRule.unconditioned := by
  cases hwinner : winningRule (setup.input lineup).rules stream with
  | none =>
    rw [hwinner, Option.map_none, Option.map_eq_none_iff] at h
    rw [h]
  | some rule =>
    rw [hwinner, Option.map_some] at h
    obtain ⟨rule', hwinner', hid⟩ := Option.map_eq_some_iff.mp h
    obtain ⟨base, hbase, rfl⟩ := List.mem_map.mp (mem_of_winningRule hwinner)
    obtain ⟨base', hbase', rfl⟩ := List.mem_map.mp (mem_of_winningRule hwinner')
    have hsame : base' = base := List.inj_on_of_nodup_map setup.nodup_rules hbase' hbase hid
    rw [hwinner', hsame]
    rfl

/-- Runs in which every stream is won by the same rule execute the same entries. -/
theorem entries_unconditioned {setup : RunSetup} {lineup lineup' : Lineup}
    (h : SameWinners setup lineup lineup') :
    (setup.entries lineup').map unconditioned = (setup.entries lineup).map unconditioned := by
  have hmatched : ∀ l : Lineup, (matchedEntries (setup.input l)).map unconditioned =
      (((setup.input l).fetched.filter fun stream => !setup.excluded stream).filterMap fun stream =>
        ((winningRule (setup.input l).rules stream).map PipelineRule.unconditioned).map
          fun rule => (stream, rule)).filter fun e => setup.inTimezone e.1 := by
    intro l
    have hrule : ∀ stream : Stream, ((winningRule (setup.input l).rules stream).map
          PipelineRule.unconditioned).map (fun rule => (stream, rule)) =
        ((winningRule (setup.input l).rules stream).map fun rule => (stream, rule)).map unconditioned := by
      intro stream
      rw [Option.map_map, Option.map_map]
      rfl
    simp only [hrule]
    rw [matchedEntries, ← List.map_filterMap, List.filter_map]
    rfl
  rw [RunSetup.entries, RunSetup.entries, sortedEntries_unconditioned, sortedEntries_unconditioned,
    hmatched, hmatched, fetched_eq setup lineup lineup']
  congr 2
  apply List.filterMap_congr
  intro stream hstream
  rw [winner_unconditioned (h stream (List.mem_of_mem_filter hstream))]

end Matched

/-! ## The first run -/

section First

variable {lineup : Lineup} (ids : NewIds lineup)

/-- The channel is one listed, or one the run created. -/
def Lineup.Known (lineup : Lineup) : ChannelKey → Prop
  | .existing id => id ∈ lineup.channels
  | .created _ => True

theorem NewIds.id_injective {key key' : ChannelKey} (h : lineup.Known key) (h' : lineup.Known key')
    (heq : key.id ids.newId = key'.id ids.newId) : key = key' := by
  cases key with
  | existing id =>
    cases key' with
    | existing id' => exact congrArg ChannelKey.existing heq
    | created n =>
      have heq : id = ids.newId n := heq
      exact absurd (heq ▸ h : ids.newId n ∈ lineup.channels) (ids.not_listed n)
  | created n =>
    cases key' with
    | existing id' =>
      have heq : ids.newId n = id' := heq
      exact absurd (heq ▸ h' : ids.newId n ∈ lineup.channels) (ids.not_listed n)
    | created n' => exact congrArg ChannelKey.created (ids.injective heq)

/-- What Pass 2 of a run has come to: every stream executed is on a channel that is there, one that was
there when the stream came up or one created for it. -/
structure Traced (pass : PassTwo State) : Prop where
  known : ∀ key ∈ pass.executor.channels, lineup.Known key
  fresh : ∀ n, .created n ∈ pass.executor.channels → n < pass.executor.nextKey
  ended : ∀ e ∈ pass.executed, ∃ key channel, e.turn.currentChannelId = some (key.id ids.newId) ∧
    pass.executor.channels.get? key = some channel ∧
    ∀ params, e.rule.actions = [.createChannel params] → params.ifExists = .merge →
      e.stream.streamId ∈ channel.streams
  created : ∀ e ∈ pass.executed, ∀ c ∈ e.turn.createdChannelIds,
    e.turn.currentChannelId = some c ∧ ∃ n, c = ids.newId n
  later : pass.executed.Pairwise fun e e' =>
    ∀ c ∈ e'.turn.createdChannelIds, e.turn.currentChannelId ≠ some c

variable (cfg : Config)

theorem performActions_create (newId : ℕ → ℤ) {rule : PipelineRule} {params : CreateParams}
    (hactions : rule.actions = [.createChannel params]) (stream : Stream) (s : State) :
    let turn := executeCreateChannel cfg noFailure false params rule.options stream ⟨none, [], []⟩ s
    let done := performActions cfg noFailure newId rule stream s
    done.1.currentChannelId = turn.ctx.currentChannel.map (ChannelKey.id newId) ∧
      done.1.createdChannelIds = turn.ctx.createdChannels.map (ChannelKey.id newId) ∧
      done.1.channelsCreated = (turn.ctx.results ++ [turn.result]).countP (·.created) ∧
      done.2 = turn.state := by
  rw [performActions, hactions]
  exact ⟨rfl, rfl, rfl, rfl⟩

theorem Traced.step {pass : PassTwo State} (h : Traced ids pass) {rule : PipelineRule}
    {params : CreateParams} (hactions : rule.actions = [.createChannel params])
    (hmode : params.ifExists = .merge ∨ params.ifExists = .skip) (stream : Stream)
    (order : Dict ℤ (List ℤ)) (channelsCreated : ℕ) :
    let done := performActions cfg noFailure ids.newId rule stream pass.executor
    Traced ids ⟨done.2, order, channelsCreated, pass.executed ++ [⟨rule, stream, done.1⟩]⟩ := by
  have hfresh : .created pass.executor.nextKey ∉ pass.executor.channels :=
    fun hmem => Nat.lt_irrefl _ (h.fresh _ hmem)
  have hplaced := executeCreateChannel_placed cfg hmode rule.options stream
    (show (Context.mk none [] []).createdChannels = [] from rfl) pass.executor hfresh
  obtain ⟨hcurrent, hcreated, _, hstate⟩ :=
    performActions_create cfg ids.newId hactions stream pass.executor
  dsimp only at hcurrent hcreated hstate ⊢
  generalize performActions cfg noFailure ids.newId rule stream pass.executor = done at *
  obtain ⟨key, channel, hkey, hget, hheld, hcases⟩ := hplaced.placed
  rw [hkey, Option.map_some] at hcurrent
  have hkept : ∀ e ∈ pass.executed, ∃ key channel, e.turn.currentChannelId = some (key.id ids.newId) ∧
      done.2.channels.get? key = some channel ∧
      ∀ params, e.rule.actions = [.createChannel params] → params.ifExists = .merge →
        e.stream.streamId ∈ channel.streams := by
    intro e he
    obtain ⟨key, channel, hended, hget, hmerged⟩ := h.ended e he
    obtain ⟨channel', hget', hsub⟩ := hplaced.kept key channel hget
    exact ⟨key, channel', hended, hstate ▸ hget', fun params ha hm => hsub (hmerged params ha hm)⟩
  have hended : ∃ key channel, done.1.currentChannelId = some (key.id ids.newId) ∧
      done.2.channels.get? key = some channel ∧
      ∀ params, rule.actions = [.createChannel params] → params.ifExists = .merge →
        stream.streamId ∈ channel.streams := by
    refine ⟨key, channel, hcurrent, hstate ▸ hget, ?_⟩
    intro params' hactions'
    cases hactions.symm.trans hactions'
    exact hheld
  cases hcases with
  | inl hfound =>
    obtain ⟨hmem, hnone, hnext, hkeys⟩ := hfound
    rw [hnone, List.map_nil] at hcreated
    constructor
    · intro k hk
      rw [hstate] at hk
      exact h.known k ((hkeys k).mp hk)
    · intro n hn
      rw [hstate] at hn ⊢
      rw [hnext]
      exact h.fresh n ((hkeys _).mp hn)
    · intro e he
      cases List.mem_append.mp he with
      | inl he => exact hkept e he
      | inr he => cases List.mem_singleton.mp he; exact hended
    · intro e he c hc
      cases List.mem_append.mp he with
      | inl he => exact h.created e he c hc
      | inr he => cases List.mem_singleton.mp he; rw [hcreated] at hc; cases hc
    · refine List.pairwise_append.mpr ⟨h.later, List.pairwise_singleton _ _, ?_⟩
      intro e _ e' he' c hc
      cases List.mem_singleton.mp he'
      rw [hcreated] at hc
      cases hc
  | inr hnew =>
    obtain ⟨hkey', hone, hnext, hkeys⟩ := hnew
    rw [hone, List.map_singleton] at hcreated
    constructor
    · intro k hk
      rw [hstate] at hk
      cases (hkeys k).mp hk with
      | inl hk => rw [hk, hkey']; trivial
      | inr hk => exact h.known k hk
    · intro n hn
      rw [hstate] at hn ⊢
      rw [hnext]
      cases (hkeys _).mp hn with
      | inl hk =>
        rw [hkey'] at hk
        exact Nat.lt_succ_of_le (Nat.le_of_eq (ChannelKey.created.inj hk))
      | inr hk => exact Nat.lt_succ_of_lt (h.fresh n hk)
    · intro e he
      cases List.mem_append.mp he with
      | inl he => exact hkept e he
      | inr he => cases List.mem_singleton.mp he; exact hended
    · intro e he c hc
      cases List.mem_append.mp he with
      | inl he => exact h.created e he c hc
      | inr he =>
        cases List.mem_singleton.mp he
        rw [hcreated] at hc
        cases List.mem_singleton.mp hc
        exact ⟨hcurrent, _, by rw [hkey']; rfl⟩
    · refine List.pairwise_append.mpr ⟨h.later, List.pairwise_singleton _ _, ?_⟩
      intro e he e' he' c hc hsame
      cases List.mem_singleton.mp he'
      rw [hcreated] at hc
      cases List.mem_singleton.mp hc
      obtain ⟨k, _, hk, hkget, _⟩ := h.ended e he
      have hlive := Dict.mem_of_get? hkget
      have heq : k = key := by
        refine ids.id_injective (h.known k hlive) ?_ (Option.some.inj (hk.symm.trans hsame))
        rw [hkey']
        trivial
      rw [heq, hkey'] at hlive
      exact hfresh hlive

variable (setup : RunSetup)

theorem get?_startState (lineup : Lineup) (key : ChannelKey) (channel : Channel) :
    (setup.startState lineup).channels.get? key = some channel ↔
      ∃ id c, .existing id = key ∧ lineup.channels.get? id = some c ∧ c.loaded = channel := by
  have hstart : (setup.startState lineup).channels = Dict.ofList (lineup.loaded.items.map fun e =>
    (ChannelKey.existing e.1, e.2)) := rfl
  rw [hstart, Dict.get?_ofList_map lineup.loaded ChannelKey.existing (fun _ c => c)
    fun _ _ _ _ heq => ChannelKey.existing.inj heq]
  constructor
  · rintro ⟨id, loaded, hkey, hget, rfl⟩
    rw [Lineup.loaded, Dict.get?_mapValues] at hget
    obtain ⟨c, hc, hloaded⟩ := Option.map_eq_some_iff.mp hget
    exact ⟨id, c, hkey, hc, hloaded⟩
  · rintro ⟨id, c, hkey, hc, hloaded⟩
    refine ⟨id, channel, hkey, ?_, rfl⟩
    rw [Lineup.loaded, Dict.get?_mapValues, hc, Option.map_some, hloaded]

theorem traced_start : Traced ids ⟨setup.startState lineup, ∅, 0, []⟩ where
  known key hkey := by
    obtain ⟨channel, hget⟩ := Dict.exists_get? hkey
    obtain ⟨id, c, rfl, hc, _⟩ := (get?_startState setup lineup key channel).mp hget
    exact Dict.mem_of_get? hc
  fresh n hn := by
    obtain ⟨channel, hget⟩ := Dict.exists_get? hn
    obtain ⟨id, c, hkey, _⟩ := (get?_startState setup lineup _ channel).mp hget
    cases hkey
  ended e he := by cases he
  created e he := by cases he
  later := List.Pairwise.nil

theorem traced_passTwo : Traced ids (setup.passTwo lineup ids.newId) := by
  refine executeEntries_keeps _ _ (P := Traced ids) ?_ (traced_start ids setup)
  intro e he pass h
  obtain ⟨rule, _, hrule⟩ := winner_of_entry he
  have hactions : e.2.actions = [.createChannel rule.params] := by rw [hrule]; rfl
  exact h.step ids (setup.config lineup.managed) hactions rule.mergesOrSkips e.1 _ _

end First

/-! ## The second run -/

/-- The lookup of every stream finds the channel the stream had ended on before. -/
def FoundAgain {σ : Type} (services : Services σ) : σ → List Executed → Prop
  | _, [] => True
  | s, e :: executed => services.resolve e.rule e.stream s = e.turn.currentChannelId ∧
      FoundAgain services (services.perform e.rule e.stream s).2 executed

/-- A stream executed again: on the channel it was on, without one created for it. -/
structure Again (e e' : Executed) : Prop where
  rule : e'.rule.id = e.rule.id
  current : e'.turn.currentChannelId = e.turn.currentChannelId
  created : e'.turn.createdChannelIds = []

section Second

variable (cfg : Config) (newId : ℕ → ℤ)

theorem performActions_unconditioned {rule rule' : PipelineRule}
    (h : rule'.unconditioned = rule.unconditioned) (stream : Stream) (s : State) :
    performActions cfg noFailure newId rule' stream s =
      performActions cfg noFailure newId rule stream s := by
  have hread : ∀ r : PipelineRule, performActions cfg noFailure newId r stream s =
      performActions cfg noFailure newId r.unconditioned stream s := fun _ => rfl
  rw [hread rule', h, ← hread]

/-- One stream that is found again. -/
theorem performActions_again {start s : State} (hrenamed : Renamed start s)
    (hstart : ∀ key ∈ start.channels, ∃ id, key = .existing id) {e : Executed} {params : CreateParams}
    (hactions : e.rule.actions = [.createChannel params])
    (hmode : params.ifExists = .merge ∨ params.ifExists = .skip)
    {c : ℤ} (hcurrent : e.turn.currentChannelId = some c)
    (hheld : params.ifExists = .merge → ∀ channel, start.channels.get? (.existing c) = some channel →
      e.stream.streamId ∈ channel.streams)
    (hfound : (executorServices cfg noFailure newId).resolve e.rule e.stream s = e.turn.currentChannelId) :
    let done := performActions cfg noFailure newId e.rule e.stream s
    done.1.currentChannelId = e.turn.currentChannelId ∧ done.1.createdChannelIds = [] ∧
      done.1.channelsCreated = 0 ∧ Renamed start done.2 := by
  have hresolve : ∃ key, resolveAction cfg e.rule.options e.stream s (.createChannel params) = some key ∧
      key.id newId = c := by
    rw [hcurrent] at hfound
    obtain ⟨key, hkey, hid⟩ := Option.map_eq_some_iff.mp hfound
    rw [hactions] at hkey
    cases haction : resolveAction cfg e.rule.options e.stream s (.createChannel params) with
    | none =>
      rw [List.findSome?_cons, haction] at hkey
      cases hkey
    | some found =>
      rw [List.findSome?_cons, haction] at hkey
      cases hkey
      exact ⟨_, rfl, hid⟩
  obtain ⟨key, hkey, hid⟩ := hresolve
  obtain ⟨_, channel, hget, _⟩ := firstInScope_passes hkey
  obtain ⟨id, rfl⟩ := hstart key ((hrenamed.mem_iff key).mp (Dict.mem_of_get? hget))
  have hid : id = c := hid
  have hchannel : ∃ before, start.channels.get? (.existing id) = some before ∧
      channel.streams = before.streams := by
    have hsame := hrenamed.channels (.existing id)
    rw [hget, Option.map_some] at hsame
    obtain ⟨before, hbefore, hunnamed⟩ := Option.map_eq_some_iff.mp hsame.symm
    have hstreams : before.unnamed.streams = channel.unnamed.streams := congrArg Channel.streams hunnamed
    exact ⟨before, hbefore, hstreams.symm⟩
  obtain ⟨before, hbefore, hstreams⟩ := hchannel
  obtain ⟨hctx, hresult, hstep⟩ := executeCreateChannel_renamed cfg hmode e.rule.options ⟨none, [], []⟩
    hkey hget fun hmerge => hstreams ▸ hheld hmerge before (hid ▸ hbefore)
  obtain ⟨hdone, hcreated, hcount, hstate⟩ := performActions_create cfg newId hactions e.stream s
  dsimp only at hdone hcreated hcount hstate ⊢
  rw [hctx] at hdone hcreated hcount
  refine ⟨?_, hcreated, ?_, hstate ▸ hrenamed.trans hstep⟩
  · rw [hdone, hcurrent, ← hid]
    rfl
  · rw [hcount, List.nil_append, List.countP_singleton, hresult]
    rfl

/-- The entries that are not struck. -/
def unstruckOf (input : RunInput) (entries : List (Stream × PipelineRule)) :
    List (Stream × PipelineRule) :=
  entries.filter fun e => !(e.2.skipStruckStreams && decide (e.1.streamId ∈ input.struck))

/-- Pass 2 over entries that are all found again. -/
theorem executeEntries_again (input : RunInput) {start : State}
    (hstart : ∀ key ∈ start.channels, ∃ id, key = .existing id)
    {entries : List (Stream × PipelineRule)} {executed : List Executed}
    (hsame : (unstruckOf input entries).map unconditioned =
      executed.map fun e => unconditioned (e.stream, e.rule))
    (hheld : ∀ e ∈ executed, ∃ params, e.rule.actions = [.createChannel params] ∧
      (params.ifExists = .merge ∨ params.ifExists = .skip) ∧
      ∃ c, e.turn.currentChannelId = some c ∧ (params.ifExists = .merge → ∀ channel,
        start.channels.get? (.existing c) = some channel → e.stream.streamId ∈ channel.streams))
    (pass : PassTwo State) (hpass : Renamed start pass.executor) (hnone : pass.channelsCreated = 0)
    (hfound : FoundAgain (executorServices cfg noFailure newId) pass.executor executed) :
    let after := executeEntries (executorServices cfg noFailure newId) input entries pass
    Renamed start after.executor ∧ ∃ again, after.executed = pass.executed ++ again ∧
      List.Forall₂ Again executed again := by
  induction entries generalizing executed pass with
  | nil =>
    have hnil : executed = [] := List.map_eq_nil_iff.mp hsame.symm
    subst hnil
    exact ⟨hpass, [], (List.append_nil _).symm, .nil⟩
  | cons entry entries ih =>
    obtain ⟨stream, rule⟩ := entry
    dsimp only
    rw [executeEntries, if_neg (by rw [hnone]; omega)]
    by_cases hstruck : (rule.skipStruckStreams && decide (stream.streamId ∈ input.struck)) = true
    · rw [if_pos hstruck]
      rw [unstruckOf, List.filter_cons, hstruck, if_neg (by simp)] at hsame
      exact ih hsame hheld pass hpass hnone hfound
    · rw [if_neg hstruck]
      rw [unstruckOf, List.filter_cons, if_pos (by rw [Bool.eq_false_of_not_eq_true hstruck]; rfl)] at hsame
      cases executed with
      | nil => cases hsame
      | cons e executed =>
        rw [List.map_cons, List.map_cons] at hsame
        obtain ⟨hhead, htail⟩ := List.cons_eq_cons.mp hsame
        obtain ⟨hstream, hrule⟩ := Prod.mk.inj hhead
        have hstream : stream = e.stream := hstream
        subst hstream
        obtain ⟨hresolve, hrest⟩ := hfound
        obtain ⟨params, hactions, hmode, c, hcurrent, hmerged⟩ := hheld e List.mem_cons_self
        obtain ⟨hdone, hcreated, hcount, hstate⟩ := performActions_again cfg newId hpass hstart hactions
          hmode hcurrent hmerged hresolve
        have hperform : (executorServices cfg noFailure newId).perform rule e.stream pass.executor =
            performActions cfg noFailure newId e.rule e.stream pass.executor :=
          performActions_unconditioned cfg newId hrule e.stream pass.executor
        obtain ⟨hafter, again, hexecuted, hagain⟩ := ih htail
          (fun e' he' => hheld e' (List.mem_cons_of_mem e he'))
          { executor := (performActions cfg noFailure newId e.rule e.stream pass.executor).2
            order := trackChannel input rule
              (performActions cfg noFailure newId e.rule e.stream pass.executor).1 pass.order
            channelsCreated := pass.channelsCreated +
              (performActions cfg noFailure newId e.rule e.stream pass.executor).1.channelsCreated
            executed := pass.executed ++ [⟨rule, e.stream,
              (performActions cfg noFailure newId e.rule e.stream pass.executor).1⟩] }
          hstate (by rw [hnone, hcount]) hrest
        rw [hperform]
        refine ⟨hafter, _ :: again, hexecuted.trans (List.append_assoc _ _ _), .cons ?_ hagain⟩
        have hid : rule.unconditioned.id = e.rule.unconditioned.id := congrArg PipelineRule.id hrule
        exact ⟨hid, hdone, hcreated⟩

end Second

/-! ## What the second run notes -/

section Noted

variable {managed managed' : Dict ℤ (List ℤ)}

/-- The channel a stream executed again is noted with. -/
def notedAgain (managed' : Dict ℤ (List ℤ)) (ruleId : ℤ) (e : Executed) : Option ℤ :=
  if e.rule.id = ruleId then
    (e.turn.currentChannelId.filter (· ≠ 0)).filter fun c => decide (c ∈ ledger managed' ruleId)
  else none

theorem noted_again {executed again : List Executed} (h : List.Forall₂ Again executed again) (ruleId : ℤ) :
    noted managed' again ruleId = executed.filterMap (notedAgain managed' ruleId) := by
  induction h with
  | nil => rfl
  | @cons e e' executed again hagain _ ih =>
    have hsame : (if e'.rule.id = ruleId then notedChannel managed' e' else none) =
        notedAgain managed' ruleId e := by
      rw [notedAgain, notedChannel, hagain.rule, hagain.current, hagain.created]
      by_cases hrule : e.rule.id = ruleId
      · rw [if_pos hrule, if_pos hrule, hrule]
        simp only [List.not_mem_nil, false_or]
      · rw [if_neg hrule, if_neg hrule]
    rw [noted, List.filterMap_cons, List.filterMap_cons, hsame]
    rw [noted] at ih
    rw [ih]

theorem noted_eq_some {e : Executed} {ruleId c : ℤ} :
    (if e.rule.id = ruleId then notedChannel managed e else none) = some c ↔ e.rule.id = ruleId ∧
      e.turn.currentChannelId = some c ∧ c ≠ 0 ∧
      (c ∈ e.turn.createdChannelIds ∨ c ∈ ledger managed ruleId) := by
  by_cases hrule : e.rule.id = ruleId
  · rw [if_pos hrule, notedChannel, Option.filter_eq_some_iff, Option.filter_eq_some_iff, hrule,
      decide_eq_true_eq, decide_eq_true_eq]
    tauto
  · rw [if_neg hrule]
    exact ⟨nofun, fun h => absurd h.1 hrule⟩

theorem notedAgain_eq_some {e : Executed} {ruleId c : ℤ} :
    notedAgain managed' ruleId e = some c ↔ e.rule.id = ruleId ∧
      e.turn.currentChannelId = some c ∧ c ≠ 0 ∧ c ∈ ledger managed' ruleId := by
  rw [notedAgain]
  by_cases hrule : e.rule.id = ruleId
  · rw [if_pos hrule, Option.filter_eq_some_iff, Option.filter_eq_some_iff, decide_eq_true_eq,
      decide_eq_true_eq]
    tauto
  · rw [if_neg hrule]
    exact ⟨nofun, fun h => absurd h.1 hrule⟩

theorem mem_noted_iff {executed : List Executed} {ruleId c : ℤ} :
    c ∈ noted managed executed ruleId ↔ ∃ e ∈ executed, e.rule.id = ruleId ∧
      e.turn.currentChannelId = some c ∧ c ≠ 0 ∧
      (c ∈ e.turn.createdChannelIds ∨ c ∈ ledger managed ruleId) := by
  rw [noted, List.mem_filterMap]
  simp only [noted_eq_some]

/-- A rule notes its channels in the same order again: those its ledger had are noted wherever a stream
ends on them, and one it created was not met before. -/
theorem firsts_noted_again {executed : List Executed} {ruleId : ℤ}
    (hlater : executed.Pairwise fun e e' =>
      ∀ c ∈ e'.turn.createdChannelIds, e.turn.currentChannelId ≠ some c)
    (hkept : ∀ c ∈ noted managed executed ruleId, c ∈ ledger managed' ruleId)
    (honly : ∀ c ∈ ledger managed' ruleId,
      c ∈ noted managed executed ruleId ∨ c ∈ ledger managed ruleId) :
    firsts (executed.filterMap (notedAgain managed' ruleId)) = firsts (noted managed executed ruleId) := by
  have hprefix : ∀ before after, before ++ after = executed →
      firsts (before.filterMap (notedAgain managed' ruleId)) = firsts (noted managed before ruleId) := by
    intro before
    induction before using List.reverseRecOn with
    | nil => intro _ _; rfl
    | append_singleton before e ih =>
      intro after hsplit
      rw [List.append_assoc] at hsplit
      have ih := ih ([e] ++ after) hsplit
      have he : e ∈ executed := hsplit ▸ List.mem_append_right _ List.mem_cons_self
      have hmem : ∀ c, c ∈ before.filterMap (notedAgain managed' ruleId) ↔
          c ∈ noted managed before ruleId := by
        intro c
        rw [← mem_firsts, ih, mem_firsts]
      rw [noted_concat, filterMap_concat]
      cases hagain : notedAgain managed' ruleId e with
      | none =>
        cases hnoted : (if e.rule.id = ruleId then notedChannel managed e else none) with
        | none =>
          rw [Option.toList_none, List.append_nil, List.append_nil]
          exact ih
        | some c =>
          obtain ⟨hrule, hcurrent, hzero, howned⟩ := noted_eq_some.mp hnoted
          have hledger := hkept c (mem_noted_iff.mpr ⟨e, he, hrule, hcurrent, hzero, howned⟩)
          rw [notedAgain_eq_some.mpr ⟨hrule, hcurrent, hzero, hledger⟩] at hagain
          cases hagain
      | some c =>
        obtain ⟨hrule, hcurrent, hzero, hledger⟩ := notedAgain_eq_some.mp hagain
        rw [Option.toList_some, firsts_concat, ih, if_congr (hmem c) rfl rfl]
        cases hnoted : (if e.rule.id = ruleId then notedChannel managed e else none) with
        | some c' =>
          have hc' := (noted_eq_some.mp hnoted).2.1
          cases Option.some.inj (hcurrent.symm.trans hc')
          rw [Option.toList_some, firsts_concat]
        | none =>
          have hnew : c ∉ ledger managed ruleId := by
            intro hold
            rw [noted_eq_some.mpr ⟨hrule, hcurrent, hzero, .inr hold⟩] at hnoted
            cases hnoted
          have hbefore : c ∈ noted managed before ruleId := by
            obtain ⟨e', he', hrule', hcurrent', _, howned⟩ :=
              mem_noted_iff.mp ((honly c hledger).resolve_right hnew)
            have hcreated := howned.resolve_right hnew
            rw [← hsplit, List.pairwise_append] at hlater
            rw [← hsplit] at he'
            cases List.mem_append.mp he' with
            | inl hin => exact mem_noted_iff.mpr ⟨e', hin, hrule', hcurrent', hzero, .inl hcreated⟩
            | inr hin =>
              cases List.mem_cons.mp hin with
              | inl hsame =>
                rw [noted_eq_some.mpr ⟨hrule, hcurrent, hzero, .inl (hsame ▸ hcreated)⟩] at hnoted
                cases hnoted
              | inr hin =>
                exact absurd hcurrent ((List.pairwise_cons.mp hlater.2.1).1 e' hin c hcreated)
          rw [Option.toList_none, List.append_nil, if_pos hbefore]
  exact hprefix executed [] (List.append_nil _)

end Noted

/-! ## Pass 4 -/

section Cleanup

variable (answers : Answers) {order : Dict ℤ (List ℤ)}

/-- A rule without orphans leaves the channels as they are. -/
theorem reconcileRule_idle {w : World} {row : ℤ × ReconciledRule} (h : orphansOf order w row = []) :
    let after := reconcileRule answers false true order w row
    after.channels = w.channels ∧ after.known = w.known ∧
      ∀ id, id ≠ row.1 → after.managed.get? id = w.managed.get? id := by
  obtain ⟨ruleId, rule⟩ := row
  have hset : ∀ ids : List ℤ, (setManaged ruleId ids w).channels = w.channels ∧
      (setManaged ruleId ids w).known = w.known ∧
      ∀ id, id ≠ ruleId → (setManaged ruleId ids w).managed.get? id = w.managed.get? id := by
    intro ids
    refine ⟨rfl, rfl, ?_⟩
    intro id hid
    exact setManaged_others ruleId ids w hid
  have hkept : w.channels = w.channels ∧ w.known = w.known ∧
      ∀ id, id ≠ ruleId → w.managed.get? id = w.managed.get? id := ⟨rfl, rfl, fun _ _ => rfl⟩
  dsimp only
  rw [reconcileRule]
  dsimp only
  cases hscope : rule.scope with
  | none => exact hkept
  | some scope =>
    dsimp only
    by_cases haction : rule.orphanAction = .none
    · rw [if_pos haction]
      split
      · exact hset _
      · exact hkept
    · rw [if_neg haction]
      cases hprevious : w.managed.get? ruleId with
      | none =>
        dsimp only
        split
        · exact hset _
        · exact hkept
      | some previous =>
        have hnone : orphanIds w.known scope previous (currentIds order ruleId) = [] := by
          rw [orphansOf, hscope, hprevious] at h
          dsimp only at h
          rwa [if_neg haction] at h
        dsimp only
        rw [if_pos hnone]
        split
        · exact hset _
        · exact hkept

theorem reconcileRules_idle {rules : List (ℤ × ReconciledRule)} (hnodup : (rules.map Prod.fst).Nodup)
    {w : World} (h : ∀ row ∈ rules, orphansOf order w row = []) :
    (rules.foldl (reconcileRule answers false true order) w).channels = w.channels := by
  induction rules generalizing w with
  | nil => rfl
  | cons row rules ih =>
    obtain ⟨hchannels, hknown, hothers⟩ := reconcileRule_idle answers (h row List.mem_cons_self)
    rw [List.map_cons, List.nodup_cons] at hnodup
    rw [List.foldl_cons, ih hnodup.2, hchannels]
    intro row' hrow'
    have hne : row'.1 ≠ row.1 := fun heq => hnodup.1 (heq ▸ List.mem_map_of_mem hrow')
    rw [orphansOf, hothers _ hne, hknown]
    exact h row' (List.mem_cons_of_mem row hrow')

end Cleanup

/-! ## Numbers -/

section Numbers

variable {order : Dict ℤ (List ℤ)} {c : ℤ} {v : Option ℤ}

/-- The channel has the number, if it is there. -/
def Numbered (c : ℤ) (v : Option ℤ) (channels : Dict ℤ StoredChannel) : Prop :=
  ∀ stored, channels.get? c = some stored → stored.channelNumber = v

/-- The number a rule that sorts its channels gives one of them. -/
def sortedNumber (order : Dict ℤ (List ℤ)) (ruleId start c : ℤ) : Option ℤ :=
  some (10 * (start + (firsts (ledger order ruleId)).idxOf c))

theorem numbered_renumbered {start : ℤ} {ids : List ℤ} {channels : Dict ℤ StoredChannel}
    (h : c ∉ ids → Numbered c v channels) (hv : c ∈ ids → v = some (10 * (start + ids.idxOf c))) :
    Numbered c v (renumbered start ids channels) := by
  intro stored hget
  rw [renumbered, Dict.get?_mapValues] at hget
  obtain ⟨before, hbefore, rfl⟩ := Option.map_eq_some_iff.mp hget
  by_cases hc : c ∈ ids
  · rw [if_pos hc, hv hc]
  · rw [if_neg hc]
    exact h hc before hbefore

theorem send_numbered (answer : Answer) (id : ℤ)
    {change : Dict ℤ StoredChannel → Dict ℤ StoredChannel}
    (hchange : ∀ channels, Numbered c v channels → Numbered c v (change channels)) {w : World}
    (h : Numbered c v w.channels) : Numbered c v (send answer id change w).2.channels := by
  rw [send.eq_def]
  by_cases hmem : id ∈ w.channels
  · rw [if_pos hmem]
    cases answer with
    | done => exact hchange _ h
    | raised error landed =>
      cases landed with
      | true => exact hchange _ h
      | false => exact h
  · rw [if_neg hmem]
    exact h

theorem cleanUpOrphan_numbered (answers : Answers) (ruleId : ℤ) (rule : ReconciledRule) {w : World}
    (h : Numbered c v w.channels) (id : ℤ) :
    Numbered c v (cleanUpOrphan answers ruleId rule w id).channels := by
  have herase : ∀ channels, Numbered c v channels → Numbered c v (channels.erase id) := by
    intro channels h stored hget
    rw [Dict.get?_erase] at hget
    split at hget
    · cases hget
    · exact h stored hget
  have hmove : ∀ channels, Numbered c v channels → Numbered c v (uncategorize id channels) := by
    intro channels h stored hget
    rw [get?_uncategorize] at hget
    obtain ⟨before, hbefore, rfl⟩ := Option.map_eq_some_iff.mp hget
    split <;> exact h before hbefore
  rw [cleanUpOrphan]
  split
  · have hsent := send_numbered (answers.move ruleId id) id hmove h
    rw [moveChannelToUncategorized]
    dsimp only
    cases hanswer : send (answers.move ruleId id) id (uncategorize id) w with
    | mk outcome w' =>
      rw [hanswer] at hsent
      cases outcome <;> exact hsent
  · have hsent := send_numbered (answers.delete ruleId id) id herase h
    rw [removeChannel]
    dsimp only
    cases hanswer : send (answers.delete ruleId id) id (·.erase id) w with
    | mk outcome w' =>
      rw [hanswer] at hsent
      cases outcome <;> exact hsent

theorem cleanUpOrphans_numbered (answers : Answers) (ruleId : ℤ) (rule : ReconciledRule) (ids : List ℤ)
    {w : World} (h : Numbered c v w.channels) :
    Numbered c v (ids.foldl (cleanUpOrphan answers ruleId rule) w).channels := by
  induction ids generalizing w with
  | nil => exact h
  | cons id ids ih => exact ih (cleanUpOrphan_numbered answers ruleId rule h id)

/-- No channel noted for a rule is among its orphans. -/
theorem remaining_eq (order : Dict ℤ (List ℤ)) (known : Dict ℤ KnownChannel) (scope : Option ℤ)
    (previous : List ℤ) (ruleId : ℤ) :
    (firsts (ledger order ruleId)).filter
        (· ∉ orphanIds known scope previous (currentIds order ruleId)) = firsts (ledger order ruleId) := by
  rw [List.filter_eq_self]
  intro id hid
  rw [decide_eq_true_eq]
  intro horphan
  have hnot := (List.mem_filter.mp horphan).2
  rw [Bool.and_eq_true, Bool.and_eq_true, decide_eq_true_eq] at hnot
  exact hnot.1.1 (List.mem_dedup.mpr (mem_firsts.mp hid))

theorem renumberRemaining_numbered (answers : Answers) (ruleId : ℤ) {rule : ReconciledRule}
    {remaining : List ℤ} (orphans : List ℤ) {w : World} (h : Numbered c v w.channels)
    (hv : ∀ start, rule.startingNumber = some start → rule.sortField ≠ none → c ∈ remaining →
      v = some (10 * (start + remaining.idxOf c))) :
    Numbered c v (renumberRemaining answers false ruleId rule remaining orphans w).channels := by
  rw [renumberRemaining]
  cases hstart : rule.startingNumber with
  | none => exact h
  | some start =>
    dsimp only
    by_cases hskip : remaining = [] ∨ rule.sortField = none
    · rw [if_pos hskip]
      exact h
    · have hset := numbered_renumbered (fun _ => h)
        (hv start hstart fun hnone => hskip (.inr hnone))
      rw [if_neg hskip, if_neg Bool.false_ne_true]
      cases answers.renumber ruleId with
      | done => exact hset
      | raised error landed =>
        cases landed with
        | true => exact hset
        | false => exact h

theorem reconcileRule_numbered (answers : Answers) {w : World} {row : ℤ × ReconciledRule}
    (h : Numbered c v w.channels)
    (hv : ∀ start, row.2.startingNumber = some start → row.2.sortField ≠ none →
      c ∈ ledger order row.1 → v = sortedNumber order row.1 start c) :
    Numbered c v (reconcileRule answers false true order w row).channels := by
  obtain ⟨ruleId, rule⟩ := row
  have hset : ∀ (ids : List ℤ) (w' : World), Numbered c v w'.channels →
      Numbered c v (setManaged ruleId ids w').channels := fun _ _ h => h
  rw [reconcileRule]
  dsimp only
  cases rule.scope with
  | none => exact h
  | some scope =>
    dsimp only
    by_cases haction : rule.orphanAction = .none
    · rw [if_pos haction]
      split
      · exact hset _ _ h
      · exact h
    · rw [if_neg haction]
      cases w.managed.get? ruleId with
      | none =>
        dsimp only
        split
        · exact hset _ _ h
        · exact h
      | some previous =>
        dsimp only
        split
        · split
          · exact hset _ _ h
          · exact h
        · rw [if_neg Bool.false_ne_true, if_pos rfl]
          apply hset
          have hremaining := remaining_eq order w.known scope previous ruleId
          rw [ledger] at hremaining
          rw [hremaining]
          refine renumberRemaining_numbered answers ruleId _
            (cleanUpOrphans_numbered answers ruleId rule _ h) ?_
          intro start hstart hsort hmem
          exact hv start hstart hsort (mem_firsts.mp hmem)

theorem reconcileRules_numbered (answers : Answers) {rules : List (ℤ × ReconciledRule)} {w : World}
    (h : Numbered c v w.channels)
    (hv : ∀ row ∈ rules, ∀ start, row.2.startingNumber = some start → row.2.sortField ≠ none →
      c ∈ ledger order row.1 → v = sortedNumber order row.1 start c) :
    Numbered c v (rules.foldl (reconcileRule answers false true order) w).channels := by
  induction rules generalizing w with
  | nil => exact h
  | cons row rules ih =>
    exact ih (reconcileRule_numbered answers h (hv row List.mem_cons_self))
      fun row' hrow' => hv row' (List.mem_cons_of_mem row hrow')

theorem renumberSorted_numbered {channels : Dict ℤ StoredChannel} {rule : CreateRule}
    (h : Numbered c v channels)
    (hv : ∀ start, rule.reconciled.startingNumber = some start → rule.reconciled.sortField ≠ none →
      c ∈ ledger order rule.id → v = sortedNumber order rule.id start c) :
    Numbered c v (renumberSorted order channels rule) := by
  rw [renumberSorted]
  cases hstart : rule.reconciled.startingNumber with
  | none => exact h
  | some start =>
    dsimp only
    split
    · exact h
    · rename_i hskip
      exact numbered_renumbered (fun _ => h) fun hmem =>
        hv start hstart (fun hnone => hskip (.inl hnone)) (mem_firsts.mp hmem)

/-- What Pass 3 makes of the number of a channel that is noted for a rule that sorts. -/
theorem renumberSorted_sets {rules : List CreateRule} {channels : Dict ℤ StoredChannel} {rule : CreateRule}
    (hrule : rule ∈ rules) {start : ℤ} (hstart : rule.reconciled.startingNumber = some start)
    (hsort : rule.reconciled.sortField ≠ none) (hlength : 2 ≤ (firsts (ledger order rule.id)).length)
    (hc : c ∈ ledger order rule.id)
    (hv : ∀ rule' ∈ rules, ∀ start', rule'.reconciled.startingNumber = some start' →
      rule'.reconciled.sortField ≠ none → c ∈ ledger order rule'.id →
        sortedNumber order rule.id start c = sortedNumber order rule'.id start' c) :
    Numbered c (sortedNumber order rule.id start c)
      (rules.foldl (renumberSorted order) channels) := by
  have hfold : ∀ (rest : List CreateRule) (channels : Dict ℤ StoredChannel), rest ⊆ rules →
      Numbered c (sortedNumber order rule.id start c) channels →
      Numbered c (sortedNumber order rule.id start c) (rest.foldl (renumberSorted order) channels) := by
    intro rest
    induction rest with
    | nil => exact fun _ _ h => h
    | cons rule' rest ih =>
      intro channels hsub h
      rw [List.cons_subset] at hsub
      exact ih _ hsub.2 (renumberSorted_numbered h (hv rule' hsub.1))
  obtain ⟨before, after, hsplit⟩ := List.append_of_mem hrule
  rw [hsplit, List.foldl_append, List.foldl_cons]
  apply hfold after
  · intro rule' hrule'
    rw [hsplit]
    exact List.mem_append_right _ (List.mem_cons_of_mem _ hrule')
  · rw [renumberSorted]
    simp only [hstart]
    rw [if_neg (by rw [not_or]; exact ⟨hsort, by omega⟩)]
    exact numbered_renumbered (fun hnot => absurd (mem_firsts.mpr hc) hnot) fun _ => rfl

/-- Pass 3 over channels that have the numbers it gives. -/
theorem renumberSorted_idle {rules : List CreateRule} {channels : Dict ℤ StoredChannel}
    (h : ∀ rule ∈ rules, ∀ start, rule.reconciled.startingNumber = some start →
      rule.reconciled.sortField ≠ none → 2 ≤ (firsts (ledger order rule.id)).length →
      ∀ c ∈ ledger order rule.id, Numbered c (sortedNumber order rule.id start c) channels) :
    rules.foldl (renumberSorted order) channels = channels := by
  induction rules with
  | nil => rfl
  | cons rule rules ih =>
    have hrule : renumberSorted order channels rule = channels := by
      rw [renumberSorted]
      cases hstart : rule.reconciled.startingNumber with
      | none => rfl
      | some start =>
        dsimp only
        split
        · rfl
        · rename_i hskip
          rw [not_or] at hskip
          refine Dict.mapValues_eq_self _ ?_
          intro id stored hget
          by_cases hid : id ∈ firsts (ledger order rule.id)
          · have hnumber := h rule List.mem_cons_self start hstart hskip.1 (by omega) id
              (mem_firsts.mp hid) stored hget
            rw [if_pos hid, sortedNumber] at *
            rw [← hnumber]
          · rw [if_neg hid]
    rw [List.foldl_cons, hrule]
    exact ih fun rule' hrule' => h rule' (List.mem_cons_of_mem rule hrule')

end Numbers

end ChannelManager.Pipeline
