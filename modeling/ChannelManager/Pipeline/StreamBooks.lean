import ChannelManager.Pipeline.NumberRuns

/-!
# Books of streams

What the actions of a live run do to the stream lists of channels, as events on three books: the lists
the upstream has, the counters of streams by channel and provider, and the channels whose counters were
read from the upstream. The executor keeps its own copy of every list in step with the upstream, so that
each action is the events it stands for.
-/

namespace ChannelManager.Pipeline

/-- What an action does to streams: the counters of a channel are read, a stream is merged into a
channel and counted, a stream is removed, a channel is created with a stream. -/
inductive StreamEvent
  | consult (key : ChannelKey)
  | merge (key : ChannelKey) (id : ℤ) (account : Option ℤ)
  | remove (key : ChannelKey) (id : ℤ)
  | create (key : ChannelKey) (id : ℤ)
deriving DecidableEq

@[ext]
structure Books where
  streams : ChannelKey → List ℤ
  counts : ChannelKey × ℤ → ℕ
  seeded : ChannelKey → Bool

namespace Books

variable (accountOf : ℤ → Option ℤ)

/-- How many streams of a provider are on a channel. -/
def onChannel (b : Books) (key : ChannelKey) (account : ℤ) : ℕ :=
  (b.streams key).countP fun id => accountOf id = some account

def apply (b : Books) : StreamEvent → Books
  | .consult key =>
    if b.seeded key then b
    else { b with
      counts := fun k => b.counts k + if k.1 = key then b.onChannel accountOf key k.2 else 0
      seeded := Function.update b.seeded key true }
  | .merge key id account => { b with
      streams := Function.update b.streams key (b.streams key ++ [id])
      counts := match account with
        | none => b.counts
        | some account => Function.update b.counts (key, account) (b.counts (key, account) + 1) }
  | .remove key id =>
    { b with streams := Function.update b.streams key ((b.streams key).filter (· ≠ id)) }
  | .create key id => { b with streams := Function.update b.streams key [id] }

theorem streams_consult (b : Books) (key : ChannelKey) : (b.apply accountOf (.consult key)).streams = b.streams := by
  rw [apply]
  split_ifs <;> rfl

def run (b : Books) (events : List StreamEvent) : Books := events.foldl (apply accountOf) b

end Books

/-- The books of a state. -/
def State.books (s : State) : Books where
  streams := fun key => (s.upstream.get? key).getD []
  counts := fun k => (s.counts.get? k).getD 0
  seeded := fun key => decide (key ∈ s.seeded)

section Events

variable (cfg : Config)

/-- A stream merged into a channel, unless it is there. -/
def State.added (s : State) (key : ChannelKey) (stream : Stream) : List StreamEvent :=
  if stream.streamId ∈ s.books.streams key then []
  else [.merge key stream.streamId stream.m3uAccountId]

/-- The channel `create_channel` finds. -/
def createTarget (params : CreateParams) (opts : RuleOptions) (stream : Stream) (s : State) :
    Option (ChannelKey × Channel) :=
  (findChannelByName cfg s (channelNameFor cfg params opts stream) (createScope params opts)
    (!opts.allowManualChannelMerge) opts.foldMatchKey).1.bind fun key =>
      (s.channels.get? key).map fun channel => (key, channel)

/-- The channel `merge_streams` settles on. -/
def mergeTarget (params : MergeParams) (opts : RuleOptions) (stream : Stream) (s : State) :
    Option (ChannelKey × Channel) :=
  if params.target = .newChannel then none
  else
    let (found, blocked, s) := resolveMerge cfg params opts stream s
    (admitResolved cfg opts found blocked s).1.filter fun e => targetGroupAllowed params e.2

/-- The count a limited merge into a channel goes by. -/
def countUsed (s : State) (key : ChannelKey) (account : ℤ) : ℕ :=
  ((ensureChannelM3uCounts cfg noFailure s key).counts.get? (key, account)).getD 0

def createEvents (params : CreateParams) (opts : RuleOptions) (stream : Stream) (s : State) :
    List StreamEvent :=
  match createTarget cfg params opts stream s, params.ifExists with
  | some (key, _), .merge | some (key, _), .mergeOnly => s.added key stream
  | some _, _ | none, .mergeOnly => []
  | none, _ => [.create (.created s.nextKey) stream.streamId]

def mergeEvents (params : MergeParams) (opts : RuleOptions) (stream : Stream) (s : State) :
    List StreamEvent :=
  match mergeTarget cfg params opts stream s, limitedAccount params stream with
  | none, _ => []
  | some (key, _), none => s.added key stream
  | some (key, _), some account =>
    .consult key :: if params.maxStreamsPerChannel ≤ countUsed cfg s key account then []
      else s.added key stream

def removeEvents (stream : Stream) (s : State) : List StreamEvent :=
  match stream.channelId.filter (· ≠ 0) with
  | none => []
  | some id =>
    if stream.streamId ∈ s.books.streams (.existing id) then [.remove (.existing id) stream.streamId]
    else []

/-- The action is one of those that add and remove streams. -/
def Action.onStreams : Action → Bool
  | .createChannel _ | .mergeStreams _ | .removeFromChannel => true
  | _ => false

def eventsOf (call : ActionCall) (s : State) : List StreamEvent :=
  match call.action with
  | .createChannel params => createEvents cfg params call.opts call.stream s
  | .mergeStreams params => mergeEvents cfg params call.opts call.stream s
  | .removeFromChannel => removeEvents call.stream s
  | _ => []

/-- The state after an action of a live run, no call of which fails. -/
def after (call : ActionCall) (s : State) : State :=
  (execute cfg noFailure false call.action call.opts call.stream call.ctx s).state

/-- The states of a live run, one after the other. -/
def afterAll (calls : List ActionCall) (s : State) : State := calls.foldl (fun s call => after cfg call s) s

/-- The events of a live run. -/
def history : List ActionCall → State → List StreamEvent
  | [], _ => []
  | call :: calls, s => eventsOf cfg call s ++ history calls (after cfg call s)

end Events

/-! ## Actions as events -/

/-- The executor's copies of the stream lists are the upstream's, and the channels it has not created yet
are not there. -/
structure State.Steady (s : State) : Prop where
  inStep : ∀ key channel, s.channels.get? key = some channel → s.books.streams key = channel.streams
  fresh : ∀ n, s.nextKey ≤ n → s.channels.get? (.created n) = none ∧ s.books.seeded (.created n) = false

/-- A steady state comes to a steady state by some events. -/
structure Follows (cfg : Config) (s : State) (events : List StreamEvent) (s' : State) : Prop where
  books : s'.books = s.books.run cfg.accountOf events
  steady : s'.Steady

section Writes

variable {cfg : Config} {s : State} {key : ChannelKey} {channel : Channel}

theorem books_track (s : State) (key : ChannelKey) (account : Option ℤ) :
    (s.trackM3uCount key account).books = { s.books with
      counts := match account with
        | none => s.books.counts
        | some account => Function.update s.books.counts (key, account) (s.books.counts (key, account) + 1) } := by
  cases account with
  | none => rfl
  | some account =>
    refine Books.ext rfl (funext fun k => ?_) rfl
    simp only [State.books, State.trackM3uCount]
    rw [Dict.get?_set, Function.update_apply]
    split_ifs with hk hk' hk'
    · rfl
    · exact absurd hk.symm hk'
    · exact absurd hk'.symm hk
    · rfl

theorem books_writeStreams (s : State) (key : ChannelKey) (streams : List ℤ) :
    (s.writeStreams key streams).books =
      { s.books with streams := Function.update s.books.streams key streams } := by
  refine Books.ext (funext fun k => ?_) rfl rfl
  simp only [State.books, State.writeStreams]
  rw [Dict.get?_set, Function.update_apply]
  split_ifs with hk hk' hk'
  · rfl
  · exact absurd hk.symm hk'
  · exact absurd hk'.symm hk
  · rfl

theorem State.Steady.block (h : s.Steady) (blocked : Option ChannelKey) : (s.block blocked).Steady :=
  ⟨h.inStep, h.fresh⟩

/-- A channel the executor has is not one it has yet to create. -/
theorem State.Steady.ne_created (h : s.Steady) (hget : s.channels.get? key = some channel) {n : ℕ}
    (hn : s.nextKey ≤ n) : key ≠ .created n := by
  intro hkey
  rw [hkey, (h.fresh n hn).1] at hget
  cases hget

/-- A channel is written over with one of the same streams. -/
theorem State.Steady.setChannel (h : s.Steady) (hget : s.channels.get? key = some channel)
    (channel' : Channel) (hstreams : channel'.streams = channel.streams) :
    (s.setChannel key channel').Steady where
  inStep := by
    intro k c hc
    rw [State.setChannel, Dict.get?_set] at hc
    split_ifs at hc with hk
    · obtain rfl := Option.some.inj hc
      rw [← hk, hstreams]
      exact h.inStep key channel hget
    · exact h.inStep k c hc
  fresh := by
    intro n hn
    have hne := h.ne_created hget hn
    refine ⟨?_, (h.fresh n hn).2⟩
    rw [State.setChannel, Dict.get?_set_ne _ _ hne]
    exact (h.fresh n hn).1

/-- The upstream and the executor are given one new list for a channel. -/
theorem State.Steady.write (h : s.Steady) (hget : s.channels.get? key = some channel) (streams : List ℤ) :
    ((s.writeStreams key streams).setChannel key { channel with streams }).Steady where
  inStep := by
    intro k c hc
    change (s.writeStreams key streams).books.streams k = c.streams
    rw [books_writeStreams]
    change Function.update s.books.streams key streams k = c.streams
    rw [State.setChannel, Dict.get?_set] at hc
    split_ifs at hc with hk
    · obtain rfl := Option.some.inj hc
      rw [← hk, Function.update_self]
    · have hne : k ≠ key := fun heq => hk heq.symm
      rw [Function.update_of_ne hne]
      exact h.inStep k c hc
  fresh := by
    intro n hn
    have hne := h.ne_created hget hn
    refine ⟨?_, (h.fresh n hn).2⟩
    rw [State.setChannel, Dict.get?_set_ne _ _ hne]
    exact (h.fresh n hn).1

theorem State.Steady.track (h : s.Steady) (key : ChannelKey) (account : Option ℤ) :
    (s.trackM3uCount key account).Steady := by
  cases account with
  | none => exact h
  | some account => exact ⟨h.inStep, h.fresh⟩

theorem foldl_track_books (streams : List ℤ) (s : State) :
    (streams.foldl (fun s id => s.trackM3uCount key (cfg.accountOf id)) s).books = { s.books with
      counts := fun k => s.books.counts k +
        if k.1 = key then streams.countP fun id => cfg.accountOf id = some k.2 else 0 } := by
  induction streams generalizing s with
  | nil => simp
  | cons id streams ih =>
    rw [List.foldl_cons, ih, books_track]
    refine Books.ext rfl (funext fun k => ?_) rfl
    dsimp only
    rw [List.countP_cons]
    cases haccount : cfg.accountOf id with
    | none => simp
    | some account =>
      dsimp only
      rw [Function.update_apply]
      by_cases hk : k = (key, account)
      · subst hk
        simp
        omega
      · have hne : k.1 = key → account ≠ k.2 := fun h h' => hk (by rw [← h, h'])
        rw [if_neg hk]
        by_cases hkey : k.1 = key
        · simp [hkey, hne hkey]
        · simp [hkey]

/-- Reading the counters of a channel. -/
theorem books_ensure (s : State) (key : ChannelKey) : (ensureChannelM3uCounts cfg noFailure s key).books =
    s.books.apply cfg.accountOf (.consult key) := by
  have hseed : ∀ t : State, t.seeded = key :: s.seeded →
      t.books.seeded = Function.update s.books.seeded key true := by
    intro t ht
    funext k
    by_cases hk : k = key <;> simp [State.books, ht, hk, Function.update_apply]
  by_cases hseeded : key ∈ s.seeded
  · have hbook : s.books.seeded key = true := decide_eq_true hseeded
    rw [ensureChannelM3uCounts, if_pos hseeded, Books.apply, if_pos hbook]
  · have hbook : ¬ s.books.seeded key = true := by simpa [State.books] using hseeded
    rw [Books.apply, if_neg hbook]
    simp only [ensureChannelM3uCounts, if_neg hseeded, request_noFailure]
    cases hread : s.upstream.get? key with
    | none =>
      refine Books.ext rfl (funext fun k => ?_) (hseed _ rfl)
      simp [Books.onChannel, State.books, hread]
    | some streams =>
      dsimp only
      rw [foldl_track_books]
      refine Books.ext rfl (funext fun k => ?_) (hseed _ rfl)
      simp [Books.onChannel, State.books, hread]

theorem countUsed_eq (s : State) (key : ChannelKey) (account : ℤ) : countUsed cfg s key account =
    (s.books.apply cfg.accountOf (.consult key)).counts (key, account) := by
  rw [← books_ensure]
  rfl

theorem foldl_track_loaded (streams : List ℤ) (s : State) :
    (streams.foldl (fun s id => s.trackM3uCount key (cfg.accountOf id)) s).channels = s.channels ∧
      (streams.foldl (fun s id => s.trackM3uCount key (cfg.accountOf id)) s).nextKey = s.nextKey := by
  induction streams generalizing s with
  | nil => exact ⟨rfl, rfl⟩
  | cons id streams ih =>
    rw [List.foldl_cons, (ih _).1, (ih _).2]
    cases cfg.accountOf id <;> exact ⟨rfl, rfl⟩

theorem ensure_loaded (s : State) (key : ChannelKey) :
    (ensureChannelM3uCounts cfg noFailure s key).channels = s.channels ∧
      (ensureChannelM3uCounts cfg noFailure s key).nextKey = s.nextKey := by
  by_cases hseeded : key ∈ s.seeded
  · rw [ensureChannelM3uCounts, if_pos hseeded]
    exact ⟨rfl, rfl⟩
  · simp only [ensureChannelM3uCounts, if_neg hseeded, request_noFailure]
    cases s.upstream.get? key with
    | none => exact ⟨rfl, rfl⟩
    | some streams => exact foldl_track_loaded streams _

theorem State.Steady.ensure (h : s.Steady) (hget : s.channels.get? key = some channel) :
    (ensureChannelM3uCounts cfg noFailure s key).Steady where
  inStep := by
    intro k c hc
    rw [(ensure_loaded s key).1] at hc
    rw [books_ensure, Books.streams_consult]
    exact h.inStep k c hc
  fresh := by
    intro n hn
    rw [(ensure_loaded s key).2] at hn
    rw [(ensure_loaded s key).1, books_ensure]
    refine ⟨(h.fresh n hn).1, ?_⟩
    rw [Books.apply]
    split_ifs
    · exact (h.fresh n hn).2
    · change Function.update s.books.seeded key true (.created n) = false
      rw [Function.update_of_ne (h.ne_created hget hn).symm]
      exact (h.fresh n hn).2

end Writes

section Actions

variable (cfg : Config) {s : State} {key : ChannelKey} {channel : Channel}

theorem Follows.refl {cfg : Config} (h : s.Steady) : Follows cfg s [] s := ⟨rfl, h⟩

theorem Follows.trans {cfg : Config} {s' s'' : State} {es es' : List StreamEvent} (h : Follows cfg s es s')
    (h' : Follows cfg s' es' s'') : Follows cfg s (es ++ es') s'' := by
  refine ⟨?_, h'.steady⟩
  rw [h'.books, h.books, Books.run, Books.run, Books.run, List.foldl_append]

/-- A stream is merged into a channel, which the executor follows. -/
theorem addStreamToChannel_follows (h : s.Steady) (hget : s.channels.get? key = some channel)
    (stream : Stream) (ctx : Context) :
    Follows cfg s (s.added key stream)
      (addStreamToChannel noFailure false key channel stream ctx s).state := by
  have hstreams := h.inStep key channel hget
  by_cases hmem : stream.streamId ∈ channel.streams
  · simp only [addStreamToChannel, if_pos hmem, State.added, hstreams]
    exact .refl h
  · simp only [addStreamToChannel, if_neg hmem, State.added, hstreams, Bool.false_eq_true, if_false,
      request_noFailure]
    have hcalled : ({ s with calls := s.calls + 1 } : State).Steady := ⟨h.inStep, h.fresh⟩
    refine ⟨?_, (hcalled.write hget _).track key _⟩
    rw [books_track]
    change ({ ({ s with calls := s.calls + 1 } : State).writeStreams key
      (channel.streams ++ [stream.streamId]) |>.books with counts := _ } : Books) = _
    rw [books_writeStreams]
    simp only [Books.run, List.foldl_cons, List.foldl_nil, Books.apply, ← hstreams]
    rfl

/-- A channel found is renamed or not, with the streams it has. -/
theorem renameExisting_steady (h : s.Steady) (hget : s.channels.get? key = some channel)
    (opts : RuleOptions) (channelName : String) :
    let s' := renameExisting cfg noFailure false opts key channel channelName s
    s'.Steady ∧ s'.books = s.books ∧ ∃ channel', s'.channels.get? key = some channel' := by
  dsimp only [renameExisting]
  cases renamedTo cfg opts channel channelName with
  | none => exact ⟨h, rfl, channel, hget⟩
  | some name =>
    simp only [Bool.false_eq_true, if_false, request_noFailure]
    have hset := h.setChannel hget { channel with name } rfl
    refine ⟨⟨hset.inStep, hset.fresh⟩, rfl, { channel with name }, ?_⟩
    change (s.channels.set key { channel with name }).get? key = _
    rw [Dict.get?_set, if_pos rfl]

theorem updateChannel_follows (h : s.Steady) (hget : s.channels.get? key = some channel)
    (stream : Stream) (ctx : Context) :
    Follows cfg s [] (updateChannel noFailure false key channel stream ctx s).state := by
  simp only [updateChannel, Bool.false_eq_true, if_false, request_noFailure]
  split_ifs
  · exact .refl h
  · have hset := h.setChannel hget (updated channel stream) rfl
    exact ⟨rfl, hset.inStep, hset.fresh⟩

theorem useExisting_follows (h : s.Steady) (hget : s.channels.get? key = some channel)
    (params : CreateParams) (opts : RuleOptions) (channelName : String) (stream : Stream) (ctx : Context) :
    Follows cfg s (if params.ifExists = .merge ∨ params.ifExists = .mergeOnly then s.added key stream else [])
      (useExisting cfg noFailure false params opts key channel channelName stream ctx s).state := by
  obtain ⟨hsteady, hbooks, channel', hget'⟩ :=
    renameExisting_steady cfg h hget opts channelName
  have hadded : ∀ s' : State, s'.books = s.books → s'.added key stream = s.added key stream := by
    intro s' hs'
    rw [State.added, State.added, hs']
  simp only [useExisting, hget', Option.getD_some]
  cases params.ifExists with
  | skip => exact ⟨hbooks, hsteady⟩
  | update =>
    have hupdate := updateChannel_follows cfg hsteady hget' stream ctx
    exact ⟨hupdate.books.trans hbooks, hupdate.steady⟩
  | merge =>
    have hadd := addStreamToChannel_follows cfg hsteady hget' stream ctx
    rw [hadded _ hbooks] at hadd
    exact ⟨hadd.books.trans (by rw [hbooks]; rfl), hadd.steady⟩
  | mergeOnly =>
    have hadd := addStreamToChannel_follows cfg hsteady hget' stream ctx
    rw [hadded _ hbooks] at hadd
    exact ⟨hadd.books.trans (by rw [hbooks]; rfl), hadd.steady⟩

/-- A channel is created with one stream. -/
theorem createNew_follows (h : s.Steady) (params : CreateParams) (groupId : Option ℤ)
    (channelName : String) (stream : Stream) (ctx : Context) :
    Follows cfg s [.create (.created s.nextKey) stream.streamId]
      (createNew cfg noFailure false params groupId channelName stream ctx s).state := by
  simp only [createNew, Bool.false_eq_true, if_false, request_noFailure]
  constructor
  · change (State.writeStreams _ _ _).books = _
    rw [books_writeStreams]
    rfl
  · constructor
    · intro k c hc
      change (State.writeStreams _ _ _).books.streams k = c.streams
      rw [books_writeStreams]
      change Function.update s.books.streams (.created s.nextKey) [stream.streamId] k = c.streams
      change (s.channels.set (.created s.nextKey) _).get? k = some c at hc
      rw [Dict.get?_set] at hc
      split_ifs at hc with hk
      · obtain rfl := Option.some.inj hc
        rw [← hk, Function.update_self]
        rfl
      · have hne : k ≠ .created s.nextKey := fun heq => hk heq.symm
        rw [Function.update_of_ne hne]
        exact h.inStep k c hc
    · intro n hn
      have hlt : s.nextKey < n := hn
      refine ⟨?_, (h.fresh n hlt.le).2⟩
      change (s.channels.set (.created s.nextKey) _).get? (.created n) = none
      have hne : ChannelKey.created s.nextKey ≠ .created n := fun heq =>
        hlt.ne (ChannelKey.created.inj heq)
      rw [Dict.get?_set_ne _ _ hne]
      exact (h.fresh n hlt.le).1

theorem executeCreateChannel_eq (params : CreateParams) (opts : RuleOptions) (stream : Stream)
    (ctx : Context) (s : State) : executeCreateChannel cfg noFailure false params opts stream ctx s =
      let found := findChannelByName cfg s (channelNameFor cfg params opts stream) (createScope params opts)
        (!opts.allowManualChannelMerge) opts.foldMatchKey
      match found.1.bind fun key => (found.2.channels.get? key).map fun channel => (key, channel) with
      | some (key, channel) => useExisting cfg noFailure false params opts key channel
          (channelNameFor cfg params opts stream) stream ctx found.2
      | none => createUnlessMergeOnly cfg noFailure false params opts
          (channelNameFor cfg params opts stream) stream ctx found.2 := rfl

theorem executeCreateChannel_follows (h : s.Steady) (params : CreateParams) (opts : RuleOptions)
    (stream : Stream) (ctx : Context) :
    Follows cfg s (createEvents cfg params opts stream s)
      (executeCreateChannel cfg noFailure false params opts stream ctx s).state := by
  have hevents : createTarget cfg params opts stream s = (findChannelByName cfg s
      (channelNameFor cfg params opts stream) (createScope params opts) (!opts.allowManualChannelMerge)
      opts.foldMatchKey).1.bind fun key => (s.channels.get? key).map fun channel => (key, channel) := rfl
  rw [executeCreateChannel_eq]
  obtain ⟨blocked, hblocked⟩ : ∃ blocked, (findChannelByName cfg s (channelNameFor cfg params opts stream)
      (createScope params opts) (!opts.allowManualChannelMerge) opts.foldMatchKey).2 = s.block blocked := ⟨_, rfl⟩
  generalize findChannelByName cfg s (channelNameFor cfg params opts stream) (createScope params opts)
    (!opts.allowManualChannelMerge) opts.foldMatchKey = found at hevents hblocked ⊢
  have hsteady : found.2.Steady := hblocked ▸ h.block blocked
  have hbooks : found.2.books = s.books := by rw [hblocked]; rfl
  have hkey : found.2.nextKey = s.nextKey := by rw [hblocked]; rfl
  have hadded : ∀ key, found.2.added key stream = s.added key stream := by
    intro key
    rw [State.added, State.added, hbooks]
  have htarget : createTarget cfg params opts stream s = found.1.bind fun key =>
      (found.2.channels.get? key).map fun channel => (key, channel) := by rw [hevents, hblocked]; rfl
  have hmoved : ∀ {es s'}, Follows cfg found.2 es s' → Follows cfg s es s' := by
    intro es s' hfollows
    exact ⟨by rw [hfollows.books, hbooks], hfollows.steady⟩
  simp only [createEvents, htarget]
  cases hfound : found.1.bind fun key => (found.2.channels.get? key).map fun channel => (key, channel) with
  | some e =>
    obtain ⟨key, channel⟩ := e
    have hget : found.2.channels.get? key = some channel := get?_of_found hfound
    have huse := hmoved (useExisting_follows cfg hsteady hget params opts
      (channelNameFor cfg params opts stream) stream ctx)
    rw [hadded] at huse
    cases hexists : params.ifExists <;> simpa [hexists] using huse
  | none =>
    simp only [createUnlessMergeOnly]
    by_cases honly : params.ifExists = .mergeOnly
    · simp only [honly, if_true]
      exact hmoved (.refl hsteady)
    · have hnew := hmoved (createNew_follows cfg hsteady params (orId params.groupId opts.targetGroupId)
        (channelNameFor cfg params opts stream) stream ctx)
      rw [hkey] at hnew
      cases hexists : params.ifExists <;> simp_all

theorem mergeInto_follows (h : s.Steady) (hget : s.channels.get? key = some channel) (params : MergeParams)
    (stream : Stream) (ctx : Context) (hallowed : targetGroupAllowed params channel = true) :
    Follows cfg s
      (match limitedAccount params stream with
        | none => s.added key stream
        | some account => .consult key ::
          if params.maxStreamsPerChannel ≤ countUsed cfg s key account then [] else s.added key stream)
      (mergeInto cfg noFailure false params key channel stream ctx s).state := by
  simp only [mergeInto, hallowed, Bool.not_true, Bool.false_eq_true, if_false]
  cases limitedAccount params stream with
  | none => exact addStreamToChannel_follows cfg h hget stream ctx
  | some account =>
    have hensure : Follows cfg s [.consult key] (ensureChannelM3uCounts cfg noFailure s key) :=
      ⟨books_ensure s key, h.ensure hget⟩
    dsimp only
    rw [← countUsed]
    split_ifs
    · exact hensure
    · have hget' : (ensureChannelM3uCounts cfg noFailure s key).channels.get? key = some channel := by
        rw [(ensure_loaded s key).1, hget]
      have hadd := addStreamToChannel_follows cfg hensure.steady hget' stream ctx
      have hadded : (ensureChannelM3uCounts cfg noFailure s key).added key stream = s.added key stream := by
        rw [State.added, State.added, hensure.steady.inStep key channel hget', h.inStep key channel hget]
      rw [hadded] at hadd
      exact hensure.trans hadd

/-- What the rejects leave is a channel the executor has. -/
theorem get?_of_admitResolved {opts : RuleOptions} {found blocked : Option ChannelKey}
    {e : ChannelKey × Channel}
    (hresolved : (admitResolved cfg opts found blocked s).1 = some e) : s.channels.get? e.1 = some e.2 := by
  simp only [admitResolved] at hresolved
  split at hresolved
  · cases hresolved
  · rename_i key' channel' hfound
    split_ifs at hresolved
    obtain rfl := Option.some.inj hresolved
    exact get?_of_found hfound

theorem executeMergeStreams_follows (h : s.Steady) (params : MergeParams) (opts : RuleOptions)
    (stream : Stream) (ctx : Context) :
    Follows cfg s (mergeEvents cfg params opts stream s)
      (executeMergeStreams cfg noFailure false params opts stream ctx s).state := by
  by_cases hnew : params.target = .newChannel
  · simp only [executeMergeStreams, mergeEvents, mergeTarget, hnew, if_true]
    exact .refl h
  · simp only [executeMergeStreams, mergeEvents, mergeTarget, hnew, if_false]
    obtain ⟨blocked, hblocked⟩ := resolveMerge_notes cfg params opts stream s
    cases hresolve : resolveMerge cfg params opts stream s with
    | mk found rest =>
    obtain ⟨noted, s'⟩ := rest
    rw [hresolve] at hblocked
    dsimp only at hblocked
    subst hblocked
    have hsteady : (s.block blocked).Steady := h.block blocked
    dsimp only
    cases hresolved : admitResolved cfg opts found noted (s.block blocked) with
    | mk admitted noted' =>
    cases admitted with
    | none =>
      simp only [Option.filter_none, mergeNothing]
      split_ifs <;> exact ⟨rfl, hsteady⟩
    | some e =>
      obtain ⟨key, channel⟩ := e
      have hget : (s.block blocked).channels.get? key = some channel :=
        get?_of_admitResolved cfg (by rw [hresolved])
      dsimp only
      by_cases hallowed : targetGroupAllowed params channel = true
      · have hmerge := mergeInto_follows cfg hsteady hget params stream ctx hallowed
        have hadded : (s.block blocked).added key stream = s.added key stream := rfl
        have hcount : ∀ account, countUsed cfg (s.block blocked) key account = countUsed cfg s key account := by
          intro account
          rw [countUsed_eq, countUsed_eq]
          rfl
        simp only [hadded, hcount] at hmerge
        simp only [Option.filter, hallowed, if_true]
        refine ⟨hmerge.books.trans ?_, hmerge.steady⟩
        cases limitedAccount params stream <;> rfl
      · simp only [Option.filter, hallowed, mergeInto, Bool.not_eq_true] at hallowed ⊢
        simp only [Bool.not_false, Bool.false_eq_true, if_true, if_false]
        exact ⟨rfl, hsteady⟩

/-- A stream list is written, with the executor's copy if it has one. -/
theorem rewriteStreams_books (h : s.Steady) (actionType : String) (entity : Entity) (key : ChannelKey)
    (streams : List ℤ) (ctx : Context) :
    (rewriteStreams noFailure false actionType entity key streams ctx s).state.books =
        { s.books with streams := Function.update s.books.streams key streams } ∧
      (rewriteStreams noFailure false actionType entity key streams ctx s).state.Steady := by
  simp only [rewriteStreams, Bool.false_eq_true, if_false, request_noFailure, State.writeStreams]
  have hbooks : (State.writeStreams { s with calls := s.calls + 1 } key streams).books =
      { s.books with streams := Function.update s.books.streams key streams } := by
    rw [books_writeStreams]
    rfl
  cases hget : s.channels.get? key with
  | some channel =>
    have hcalled : ({ s with calls := s.calls + 1 } : State).Steady := ⟨h.inStep, h.fresh⟩
    have hwrite := hcalled.write hget streams
    exact ⟨hbooks, hwrite.inStep, hwrite.fresh⟩
  | none =>
    refine ⟨hbooks, fun k c hc => ?_, h.fresh⟩
    have hne : k ≠ key := by
      intro hk
      change s.channels.get? k = some c at hc
      rw [hk, hget] at hc
      cases hc
    change (State.books (State.writeStreams { s with calls := s.calls + 1 } _ _)).streams k = c.streams
    rw [hbooks]
    change Function.update s.books.streams key streams k = c.streams
    rw [Function.update_of_ne hne]
    exact h.inStep k c hc

theorem executeRemoveFromChannel_follows (h : s.Steady) (stream : Stream) (ctx : Context) :
    Follows cfg s (removeEvents stream s) (executeRemoveFromChannel noFailure false stream ctx s).state := by
  simp only [executeRemoveFromChannel, rearrange, removeEvents]
  cases stream.channelId.filter (· ≠ 0) with
  | none => exact .refl h
  | some id =>
    have hrewrite : ∀ s' : State, s'.Steady → s'.books = s.books →
        Follows cfg s
          (if stream.streamId ∈ s.books.streams (.existing id) then
            [.remove (.existing id) stream.streamId] else [])
          (if stream.streamId ∉ s.books.streams (.existing id) ∨
              (s.books.streams (.existing id)).filter (· ≠ stream.streamId) =
                s.books.streams (.existing id) then
            (⟨.skip "remove_from_channel" none none, ctx, s'⟩ : Turn)
          else rewriteStreams noFailure false "remove_from_channel" (.stream stream.streamId) (.existing id)
            ((s.books.streams (.existing id)).filter (· ≠ stream.streamId)) ctx s').state := by
      intro s' hsteady hbooks
      by_cases hmem : stream.streamId ∈ s.books.streams (.existing id)
      · have hchanged : (s.books.streams (.existing id)).filter (· ≠ stream.streamId) ≠
            s.books.streams (.existing id) := by
          intro heq
          rw [← heq, List.mem_filter] at hmem
          simp at hmem
        have hwritten := rewriteStreams_books hsteady "remove_from_channel" (.stream stream.streamId)
          (.existing id) ((s.books.streams (.existing id)).filter (· ≠ stream.streamId)) ctx
        rw [hbooks] at hwritten
        rw [if_pos hmem, if_neg (by simp only [not_or, not_not]; exact ⟨hmem, hchanged⟩)]
        exact ⟨hwritten.1, hwritten.2⟩
      · rw [if_neg hmem, if_pos (.inl hmem)]
        exact ⟨hbooks, hsteady⟩
    dsimp only [fetchStreams]
    cases hget : s.channels.get? (.existing id) with
    | some channel =>
      have hrewrite := hrewrite s h rfl
      rw [h.inStep _ channel hget] at hrewrite ⊢
      exact hrewrite
    | none =>
      have hrewrite := hrewrite { s with calls := s.calls + 1 } ⟨h.inStep, h.fresh⟩ rfl
      simp only [request_noFailure]
      cases hread : s.upstream.get? (.existing id) with
      | none =>
        have hempty : s.books.streams (.existing id) = [] := by simp only [State.books, hread, Option.getD_none]
        rw [hempty, if_neg List.not_mem_nil]
        exact ⟨rfl, h.inStep, h.fresh⟩
      | some streams =>
        have hstreams : s.books.streams (.existing id) = streams := by
          simp only [State.books, hread, Option.getD_some]
        rw [hstreams] at hrewrite ⊢
        exact hrewrite

/-- Every action on streams is its events. -/
theorem after_follows (h : s.Steady) (call : ActionCall) (hcall : call.action.onStreams = true) :
    Follows cfg s (eventsOf cfg call s) (after cfg call s) := by
  cases haction : call.action with
  | createChannel params =>
    simpa only [eventsOf, after, execute, haction] using
      executeCreateChannel_follows cfg h params call.opts call.stream call.ctx
  | mergeStreams params =>
    simpa only [eventsOf, after, execute, haction] using
      executeMergeStreams_follows cfg h params call.opts call.stream call.ctx
  | removeFromChannel =>
    simpa only [eventsOf, after, execute, haction] using
      executeRemoveFromChannel_follows cfg h call.stream call.ctx
  | setChannelNumber value => rw [haction] at hcall; cases hcall
  | setStreamPriority highest => rw [haction] at hcall; cases hcall

theorem afterAll_follows {calls : List ActionCall} (h : s.Steady)
    (hcalls : ∀ call ∈ calls, call.action.onStreams = true) :
    Follows cfg s (history cfg calls s) (afterAll cfg calls s) := by
  induction calls generalizing s with
  | nil => exact .refl h
  | cons call calls ih =>
    have hstep := after_follows cfg h call (hcalls call List.mem_cons_self)
    have hrest := ih hstep.steady fun c hc => hcalls c (List.mem_cons_of_mem call hc)
    exact hstep.trans hrest

end Actions

end ChannelManager.Pipeline
