import ChannelManager.Lib.Chain
import ChannelManager.Pipeline.StreamBooks

/-!
# The limit per provider

A limited merge goes by a counter that is read from the upstream the first time a limit is consulted on
the channel, and is raised by every merge, before that time and after it, but lowered by no removal. It
never falls behind the streams on the channel, and it is ahead of them once a stream was merged before
the counters were read or removed after.
-/

namespace ChannelManager.Pipeline

section Counters

variable (accountOf : ℤ → Option ℤ) (key : ChannelKey) (account : ℤ)

/-- The event puts the counter of a provider on a channel ahead, given the events before it. -/
def Spoils (earlier : List StreamEvent) : StreamEvent → Prop
  | .merge key' _ account' => key' = key ∧ account' = some account ∧ .consult key ∉ earlier
  | .remove key' id => key' = key ∧ accountOf id = some account ∧ .consult key ∈ earlier
  | _ => False

/-- No stream of the provider was merged into the channel before the counters were read, and none was
removed from it since. -/
def Clean (events : List StreamEvent) : Prop :=
  ∀ earlier event later, events = earlier ++ event :: later → ¬ Spoils accountOf key account earlier event

/-- What an event takes for granted: a merge knows the provider, a removed stream is there, a channel that
is created has no counters. -/
def Books.Allows (b : Books) : StreamEvent → Prop
  | .consult _ => True
  | .merge _ id account => accountOf id = account
  | .remove key id => id ∈ b.streams key
  | .create key _ => b.seeded key = false

/-- What the counter should show: the streams on the channel, once it was read. -/
def Books.due (b : Books) : ℕ := if b.seeded key then b.onChannel accountOf key account else 0

/-- The counter is not behind, and it is exact as long as no event has put it ahead. -/
structure Tallied (events : List StreamEvent) (b : Books) : Prop where
  seeded : b.seeded key = true ↔ .consult key ∈ events
  due_le : b.due accountOf key account ≤ b.counts (key, account)
  exact_iff : b.counts (key, account) = b.due accountOf key account ↔ Clean accountOf key account events

variable {accountOf key account}

theorem clean_concat (events : List StreamEvent) (event : StreamEvent) :
    Clean accountOf key account (events ++ [event]) ↔
      Clean accountOf key account events ∧ ¬ Spoils accountOf key account events event :=
  forall_split_concat

/-- What has to be seen of one event. -/
theorem Tallied.next {events : List StreamEvent} {b b' : Books} (h : Tallied accountOf key account events b)
    {event : StreamEvent} (hseeded : b'.seeded key = true ↔ b.seeded key = true ∨ event = .consult key)
    (hcounts : ∃ ahead, b'.counts (key, account) + b.due accountOf key account =
      b.counts (key, account) + b'.due accountOf key account + ahead ∧
        (ahead = 0 ↔ ¬ Spoils accountOf key account events event)) :
    Tallied accountOf key account (events ++ [event]) b' := by
  obtain ⟨ahead, heq, hahead⟩ := hcounts
  have hle := h.due_le
  refine ⟨?_, by omega, ?_⟩
  · rw [hseeded, h.seeded, List.mem_append, List.mem_singleton, eq_comm (a := event)]
  · rw [clean_concat, ← h.exact_iff, ← hahead]
    omega

theorem Tallied.consult {events : List StreamEvent} {b : Books}
    (h : Tallied accountOf key account events b) (key' : ChannelKey) :
    Tallied accountOf key account (events ++ [.consult key']) (b.apply accountOf (.consult key')) := by
  by_cases hseeded : b.seeded key' = true
  · rw [Books.apply, if_pos hseeded]
    refine h.next ?_ ⟨0, by omega, by simp [Spoils]⟩
    constructor
    · exact .inl
    · intro h
      obtain hkey | heq := h
      · exact hkey
      · rwa [← StreamEvent.consult.inj heq]
  · rw [Books.apply, if_neg hseeded]
    refine h.next ?_ ⟨0, ?_, by simp [Spoils]⟩
    · simp only [Function.update_apply, StreamEvent.consult.injEq, eq_comm (a := key)]
      split_ifs with hkey <;> simp [hkey]
    · by_cases hkey : key = key'
      · subst hkey
        simp [Books.due, hseeded, Function.update_self, Books.onChannel]
      · simp [Books.due, hkey, Books.onChannel]

theorem Tallied.merge {events : List StreamEvent} {b : Books} (h : Tallied accountOf key account events b)
    (key' : ChannelKey) (id : ℤ) :
    Tallied accountOf key account (events ++ [.merge key' id (accountOf id)])
      (b.apply accountOf (.merge key' id (accountOf id))) := by
  have hseeded := h.seeded
  refine h.next (by simp [Books.apply]) ?_
  by_cases hkey : key' = key
  · subst hkey
    by_cases haccount : accountOf id = some account
    · refine ⟨if b.seeded key' = true then 0 else 1, ?_, ?_⟩
      · simp only [Books.due, Books.onChannel, Books.apply, haccount, Function.update_self,
          List.countP_append, List.countP_singleton, decide_true, if_true]
        split_ifs <;> omega
      · simp only [Spoils, haccount, true_and, ← hseeded]
        split_ifs with hs <;> simp [hs]
    · refine ⟨0, ?_, by simp [Spoils, haccount]⟩
      have hcounts : (b.apply accountOf (.merge key' id (accountOf id))).counts (key', account) =
          b.counts (key', account) := by
        cases hother : accountOf id with
        | none => rfl
        | some other =>
          have hne : (key', account) ≠ (key', other) := fun heq =>
            haccount (by rw [hother, (Prod.mk.inj heq).2])
          exact Function.update_of_ne hne _ _
      rw [hcounts]
      simp [Books.due, Books.onChannel, Books.apply, haccount]
  · refine ⟨0, ?_, by simp [Spoils, hkey]⟩
    have hcounts : (b.apply accountOf (.merge key' id (accountOf id))).counts (key, account) =
        b.counts (key, account) := by
      cases accountOf id with
      | none => rfl
      | some other =>
        have hne : (key, account) ≠ (key', other) := fun heq => hkey (Prod.mk.inj heq).1.symm
        exact Function.update_of_ne hne _ _
    rw [hcounts]
    have hstreams : (b.apply accountOf (.merge key' id (accountOf id))).streams key = b.streams key :=
      Function.update_of_ne (Ne.symm hkey) _ _
    simp only [Books.due, Books.onChannel, hstreams]
    rfl

theorem Tallied.remove {events : List StreamEvent} {b : Books} (h : Tallied accountOf key account events b)
    {key' : ChannelKey} {id : ℤ} (hmem : id ∈ b.streams key') :
    Tallied accountOf key account (events ++ [.remove key' id]) (b.apply accountOf (.remove key' id)) := by
  have hseeded := h.seeded
  refine h.next (by simp [Books.apply]) ?_
  by_cases hkey : key' = key
  · subst hkey
    have hstreams : (b.apply accountOf (.remove key' id)).streams key' =
        (b.streams key').filter (· ≠ id) := Function.update_self _ _ _
    have hsplit : b.onChannel accountOf key' account =
        ((b.streams key').filter (· ≠ id)).countP (fun id => accountOf id = some account) +
          ((b.streams key').filter (· = id)).countP (fun id => accountOf id = some account) := by
      rw [Books.onChannel, List.countP_filter, List.countP_filter, List.countP_eq_countP_filter_add _ _ (· ≠ id)]
      simp [List.countP_filter]
    have hgone : ((b.streams key').filter (· = id)).countP (fun id => accountOf id = some account) = 0 ↔
        accountOf id ≠ some account := by
      rw [List.countP_eq_zero]
      constructor
      · intro hnone haccount
        exact hnone id (List.mem_filter.mpr ⟨hmem, by simp⟩) (by simp [haccount])
      · intro haccount id' hid'
        obtain rfl : id' = id := by simpa using (List.mem_filter.mp hid').2
        simpa using haccount
    refine ⟨if b.seeded key' = true then
      ((b.streams key').filter (· = id)).countP (fun id => accountOf id = some account) else 0, ?_, ?_⟩
    · have hcounts : (b.apply accountOf (.remove key' id)).counts = b.counts := rfl
      have hseeded' : (b.apply accountOf (.remove key' id)).seeded = b.seeded := rfl
      simp only [Books.due, hsplit, hcounts, hseeded']
      simp only [Books.onChannel, hstreams]
      split_ifs <;> omega
    · simp only [Spoils, true_and, ← hseeded]
      split_ifs with hs <;> simp [hs, hgone]
  · refine ⟨0, ?_, by simp [Spoils, hkey]⟩
    have hstreams : (b.apply accountOf (.remove key' id)).streams key = b.streams key :=
      Function.update_of_ne (Ne.symm hkey) _ _
    simp only [Books.due, Books.onChannel, hstreams]
    rfl

theorem Tallied.create {events : List StreamEvent} {b : Books} (h : Tallied accountOf key account events b)
    {key' : ChannelKey} (hunseeded : b.seeded key' = false) (id : ℤ) :
    Tallied accountOf key account (events ++ [.create key' id]) (b.apply accountOf (.create key' id)) := by
  refine h.next (by simp [Books.apply]) ⟨0, ?_, by simp [Spoils]⟩
  by_cases hkey : key' = key
  · subst hkey
    simp [Books.due, Books.apply, hunseeded]
  · have hstreams : (b.apply accountOf (.create key' id)).streams key = b.streams key :=
      Function.update_of_ne (Ne.symm hkey) _ _
    simp only [Books.due, Books.onChannel, hstreams]
    rfl

theorem Tallied.step {events : List StreamEvent} {b : Books} (h : Tallied accountOf key account events b)
    {event : StreamEvent} (hallows : b.Allows accountOf event) :
    Tallied accountOf key account (events ++ [event]) (b.apply accountOf event) := by
  cases event with
  | consult key' => exact h.consult key'
  | merge key' id account' =>
    obtain rfl : accountOf id = account' := hallows
    exact h.merge key' id
  | remove key' id => exact h.remove hallows
  | create key' id => exact h.create hallows id

/-- A run of events. -/
theorem Tallied.run {events : List StreamEvent} {b : Books} (h : Tallied accountOf key account events b)
    {more : List StreamEvent} (hchained : Chained (Books.apply accountOf) (Books.Allows accountOf) b more) :
    Tallied accountOf key account (events ++ more) (b.run accountOf more) := by
  induction more generalizing events b with
  | nil => rwa [List.append_nil]
  | cons event more ih =>
    have hrest := ih (h.step hchained.1) hchained.2
    rwa [List.append_assoc] at hrest

end Counters

section Run

variable (cfg : Config)

theorem start_steady (existing : Dict ℤ Channel) (elsewhere : Dict ℤ (List ℤ)) :
    (State.start cfg existing elsewhere).Steady where
  inStep := by
    intro key channel hget
    have hloaded : (State.start cfg existing elsewhere).channels =
        Dict.ofList (existing.items.map fun e => (ChannelKey.existing e.1, e.2)) := rfl
    have hinj : ∀ k ∈ existing, ∀ k' ∈ existing, ChannelKey.existing k = .existing k' → k = k' :=
      fun _ _ _ _ heq => ChannelKey.existing.inj heq
    rw [hloaded, Dict.get?_ofList_map existing ChannelKey.existing (fun _ c => c) hinj] at hget
    obtain ⟨id, c, rfl, hc, rfl⟩ := hget
    have hmem : ChannelKey.existing id ∈
        (existing.items.map fun e => (ChannelKey.existing e.1, e.2.streams)).map Prod.fst := by
      have hitem := (Dict.get?_eq_some existing id c).mp hc
      exact List.mem_map.mpr ⟨(.existing id, c.streams), List.mem_map.mpr ⟨(id, c), hitem, rfl⟩, rfl⟩
    have hupstream : (State.start cfg existing elsewhere).upstream.get? (.existing id) = some c.streams := by
      simp only [State.start, List.map_map]
      refine (Dict.get?_ofList_append_of_mem hmem).trans ?_
      rw [Dict.get?_ofList_map existing ChannelKey.existing (fun _ c => c.streams) hinj]
      exact ⟨id, c, rfl, hc, rfl⟩
    simp only [State.books, hupstream, Option.getD_some]
  fresh := by
    intro n _
    refine ⟨?_, rfl⟩
    by_contra hne
    obtain ⟨channel, hget⟩ := Option.ne_none_iff_exists'.mp hne
    have hmem := Dict.mem_of_get?_ofList hget
    obtain ⟨e, _, heq⟩ := List.mem_map.mp hmem
    cases (Prod.mk.inj heq).1

variable {cfg} {s : State}

theorem added_allowed {stream : Stream} (haccount : cfg.accountOf stream.streamId = stream.m3uAccountId)
    (b : Books) (key : ChannelKey) :
    Chained (Books.apply cfg.accountOf) (Books.Allows cfg.accountOf) b (s.added key stream) := by
  rw [State.added]
  split_ifs
  · trivial
  · exact ⟨haccount, trivial⟩

theorem eventsOf_allowed (h : s.Steady) {call : ActionCall}
    (haccount : cfg.accountOf call.stream.streamId = call.stream.m3uAccountId) :
    Chained (Books.apply cfg.accountOf) (Books.Allows cfg.accountOf) s.books (eventsOf cfg call s) := by
  rw [eventsOf]
  split
  · rw [createEvents]
    split
    · exact added_allowed haccount _ _
    · exact added_allowed haccount _ _
    · trivial
    · trivial
    · exact ⟨(h.fresh s.nextKey le_rfl).2, trivial⟩
  · rw [mergeEvents]
    split
    · trivial
    · exact added_allowed haccount _ _
    · refine ⟨trivial, ?_⟩
      split_ifs
      · trivial
      · exact added_allowed haccount _ _
  · rw [removeEvents]
    split
    · trivial
    · split_ifs with hmem
      · exact ⟨hmem, trivial⟩
      · trivial
  · trivial

/-- The call is of an action on streams, about a stream with the provider the upstream has for it. -/
def ActionCall.Sound (cfg : Config) (call : ActionCall) : Prop :=
  call.action.onStreams = true ∧ cfg.accountOf call.stream.streamId = call.stream.m3uAccountId

instance (cfg : Config) (call : ActionCall) : Decidable (call.Sound cfg) :=
  inferInstanceAs (Decidable (_ ∧ _))

theorem history_allowed (h : s.Steady) {calls : List ActionCall} (hcalls : ∀ call ∈ calls, call.Sound cfg) :
    Chained (Books.apply cfg.accountOf) (Books.Allows cfg.accountOf) s.books (history cfg calls s) := by
  induction calls generalizing s with
  | nil => trivial
  | cons call calls ih =>
    have hcall := hcalls call List.mem_cons_self
    have hstep := after_follows cfg h call hcall.1
    rw [history, chained_append]
    refine ⟨eventsOf_allowed h hcall.2, ?_⟩
    rw [← Books.run, ← hstep.books]
    exact ih hstep.steady fun c hc => hcalls c (List.mem_cons_of_mem call hc)

/-- A limited merge is decided exactly: the count is of the provider's streams on the channel, the merge
is refused at the limit only, and does not take the channel above it. -/
structure DecidedExactly (cfg : Config) (s s' : State) (key : ChannelKey) (account : ℤ) (limit : ℕ) : Prop where
  count : countUsed cfg s key account = s.books.onChannel cfg.accountOf key account
  refused : limit ≤ countUsed cfg s key account →
    limit ≤ s.books.onChannel cfg.accountOf key account ∧ s'.books.streams = s.books.streams
  merged : countUsed cfg s key account < limit → s'.books.onChannel cfg.accountOf key account ≤ limit

theorem tallied_start (cfg : Config) (existing : Dict ℤ Channel) (elsewhere : Dict ℤ (List ℤ)) (key : ChannelKey)
    (account : ℤ) : Tallied cfg.accountOf key account [] (State.start cfg existing elsewhere).books where
  seeded := by simp [State.books, State.start]
  due_le := by simp [Books.due, State.books, State.start]
  exact_iff := by
    refine iff_of_true (by simp [Books.due, State.books, State.start, Dict.get?_empty]) ?_
    intro earlier event later heq
    simp at heq

/-- After any run the counter a limited merge goes by is not behind, and is exact if the run is clean. -/
theorem countUsed_tallied (existing : Dict ℤ Channel) (elsewhere : Dict ℤ (List ℤ)) {calls : List ActionCall}
    (hcalls : ∀ call ∈ calls, call.Sound cfg) (key : ChannelKey) (account : ℤ) :
    let s := afterAll cfg calls (State.start cfg existing elsewhere)
    s.books.onChannel cfg.accountOf key account ≤ countUsed cfg s key account ∧
      (countUsed cfg s key account = s.books.onChannel cfg.accountOf key account ↔
        Clean cfg.accountOf key account (history cfg calls (State.start cfg existing elsewhere))) := by
  have hstart := start_steady cfg existing elsewhere
  have hfollows := afterAll_follows cfg hstart fun call hcall => (hcalls call hcall).1
  have htallied := ((tallied_start cfg existing elsewhere key account).run
    (history_allowed hstart hcalls)).consult key
  rw [List.nil_append, ← hfollows.books] at htallied
  have hdue : ((afterAll cfg calls (State.start cfg existing elsewhere)).books.apply cfg.accountOf
      (.consult key)).due cfg.accountOf key account =
        (afterAll cfg calls (State.start cfg existing elsewhere)).books.onChannel cfg.accountOf key account := by
    rw [Books.due, if_pos (htallied.seeded.mpr (by simp)), Books.apply]
    split_ifs <;> rfl
  have hclean := htallied.exact_iff
  rw [clean_concat, hdue, ← countUsed_eq] at hclean
  exact ⟨by rw [← hdue, countUsed_eq]; exact htallied.due_le, hclean.trans (by simp [Spoils])⟩

theorem onChannel_added_le (accountOf : ℤ → Option ℤ) (s : State) (b : Books) (key : ChannelKey) (account : ℤ)
    (stream : Stream) : (b.run accountOf (s.added key stream)).onChannel accountOf key account ≤
      b.onChannel accountOf key account + 1 := by
  rw [State.added]
  split_ifs
  · exact Nat.le_succ _
  · have hstreams : (b.run accountOf [.merge key stream.streamId stream.m3uAccountId]).streams key =
        b.streams key ++ [stream.streamId] := Function.update_self _ _ _
    rw [Books.onChannel, hstreams, List.countP_append]
    exact Nat.add_le_add_left (List.countP_le_length) _

end Run

/-- In any run a limited merge is decided exactly if and only if no stream of the provider was merged into
the channel before its counters were first read and none was removed from it after. -/
theorem decidedExactly_iff (cfg : Config) (existing : Dict ℤ Channel) (elsewhere : Dict ℤ (List ℤ))
    {calls : List ActionCall} (hcalls : ∀ call ∈ calls, call.Sound cfg) (call : ActionCall)
    {params : MergeParams} (haction : call.action = .mergeStreams params) (key : ChannelKey) (channel : Channel)
    (htarget : mergeTarget cfg params call.opts call.stream
      (afterAll cfg calls (State.start cfg existing elsewhere)) = some (key, channel))
    {account : ℤ} (hlimited : limitedAccount params call.stream = some account) :
    DecidedExactly cfg (afterAll cfg calls (State.start cfg existing elsewhere))
        (after cfg call (afterAll cfg calls (State.start cfg existing elsewhere))) key account
        params.maxStreamsPerChannel ↔
      Clean cfg.accountOf key account (history cfg calls (State.start cfg existing elsewhere)) := by
  obtain ⟨hle, hexact⟩ := countUsed_tallied existing elsewhere hcalls key account
  have hfollows := afterAll_follows cfg (start_steady cfg existing elsewhere) fun call hcall =>
    (hcalls call hcall).1
  generalize hs : afterAll cfg calls (State.start cfg existing elsewhere) = s at *
  have hafter := (after_follows cfg hfollows.steady call (by rw [haction]; rfl)).books
  simp only [eventsOf, haction, mergeEvents, htarget, hlimited] at hafter
  rw [← hexact]
  constructor
  · exact DecidedExactly.count
  · intro hcount
    refine ⟨hcount, fun hrefused => ⟨hcount ▸ hrefused, ?_⟩, fun hmerged => ?_⟩
    · rw [hafter, if_pos hrefused]
      exact Books.streams_consult _ _ _
    · rw [hafter, if_neg (not_le.mpr hmerged)]
      have hadded := onChannel_added_le cfg.accountOf s (s.books.apply cfg.accountOf (.consult key)) key account
        call.stream
      have hconsult : (s.books.apply cfg.accountOf (.consult key)).onChannel cfg.accountOf key account =
          s.books.onChannel cfg.accountOf key account := by
        rw [Books.onChannel, Books.streams_consult, Books.onChannel]
      rw [hconsult, ← hcount] at hadded
      exact hadded.trans hmerged

section Sample

/-- All streams are of provider 5. -/
def oneProvider : Config := { plainConfig with accountOf := fun _ => some 5 }

/-- A merge into the channel of the stream's name, limited or not. -/
def mergeNews (id : ℤ) (limit : ℕ) : ActionCall where
  action := .mergeStreams ⟨.auto, none, limit, false, none, false, false, [], []⟩
  opts := plainOptions
  stream := ⟨id, "news", none, none, some 5, none⟩
  ctx := .start

theorem decidedExactly_limited :
    DecidedExactly oneProvider
      (afterAll oneProvider [mergeNews 2 3] (State.start oneProvider oneChannel ∅))
      (after oneProvider (mergeNews 3 3)
        (afterAll oneProvider [mergeNews 2 3] (State.start oneProvider oneChannel ∅)))
      (.existing 7) 5 3 := by
  have hhistory : history oneProvider [mergeNews 2 3] (State.start oneProvider oneChannel ∅) =
      [.consult (.existing 7), .merge (.existing 7) 2 (some 5)] := by decide +kernel
  refine (decidedExactly_iff oneProvider oneChannel ∅ (by decide +kernel) (mergeNews 3 3) rfl (.existing 7)
    ⟨"news", some 3, some 10, [1, 2], none, none, true⟩ (by decide +kernel) rfl).mpr ?_
  rw [hhistory]
  refine (clean_concat [.consult (.existing 7)] _).mpr ⟨(clean_concat [] _).mpr ⟨?_, ?_⟩, ?_⟩
  · intro earlier event later heq
    simp at heq
  · simp [Spoils]
  · simp [Spoils]

/-- One stream is merged without a limit; with two streams on the channel the next is refused under a limit
of three. -/
theorem refused_below_limit :
    let s := afterAll oneProvider [mergeNews 2 0] (State.start oneProvider oneChannel ∅)
    let s' := after oneProvider (mergeNews 3 3) s
    mergeTarget oneProvider ⟨.auto, none, 3, false, none, false, false, [], []⟩ plainOptions
        (mergeNews 3 3).stream s =
        some (.existing 7, ⟨"news", some 3, some 10, [1, 2], none, none, true⟩) ∧
      s.books.onChannel oneProvider.accountOf (.existing 7) 5 = 2 ∧
      countUsed oneProvider s (.existing 7) 5 = 3 ∧ s'.books.streams (.existing 7) = [1, 2] := by
  decide +kernel

end Sample

end ChannelManager.Pipeline
