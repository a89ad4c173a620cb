import ChannelManager.Pipeline.ProviderLimit

/-!
# Pruning merged channels

`merge_streams` notes every stream it has resolved to a channel, whether or not the limit then lets it in,
and pruning leaves a channel with what was noted for it. A channel all of whose streams of this run were
refused is left with nothing.
-/

namespace ChannelManager.Pipeline

/-- A `merge_streams` action on a stream. -/
structure MergeCall where
  params : MergeParams
  removeNonMatching : Bool
  opts : RuleOptions
  stream : Stream

/-- A run of merges: the executor with `_merge_streams_added_by_channel` and
`_merge_prune_enabled_channels`. -/
structure MergeRun where
  state : State
  added : Dict ChannelKey (List ℤ)
  pruneEnabled : List ChannelKey

/-- A stream resolved to a channel, and whether it is on it then. -/
structure Arrival where
  key : ChannelKey
  id : ℤ
  kept : Bool
deriving DecidableEq

section Merging

variable (cfg : Config)

def MergeCall.actionCall (call : MergeCall) : ActionCall :=
  ⟨.mergeStreams call.params, call.opts, call.stream, .start⟩

def MergeCall.target (call : MergeCall) (s : State) : Option (ChannelKey × Channel) :=
  mergeTarget cfg call.params call.opts call.stream s

/-- The limit lets a stream into a channel. -/
def MergeCall.admitted (call : MergeCall) (s : State) (key : ChannelKey) : Bool :=
  match limitedAccount call.params call.stream with
  | none => true
  | some account => countUsed cfg s key account < call.params.maxStreamsPerChannel

/-- The streams noted for a channel. -/
def MergeRun.desired (r : MergeRun) (key : ChannelKey) : List ℤ := (r.added.get? key).getD []

/-- `_execute_merge_streams` with its notes. -/
def MergeRun.step (r : MergeRun) (call : MergeCall) : MergeRun :=
  let state := after cfg call.actionCall r.state
  match call.target cfg r.state with
  | none => { r with state }
  | some (key, _) =>
    { state
      added := r.added.set key (call.stream.streamId :: r.desired key)
      pruneEnabled := if call.removeNonMatching then key :: r.pruneEnabled else r.pruneEnabled }

def MergeRun.start (existing : Dict ℤ Channel) (elsewhere : Dict ℤ (List ℤ)) : MergeRun :=
  ⟨State.start cfg existing elsewhere, ∅, []⟩

/-- One channel of `prune_merge_streams`. -/
def pruneChannel (desired : ChannelKey → List ℤ) (s : State) (key : ChannelKey) : State :=
  match fetchStreams noFailure key s with
  | (.error _, s) => s
  | (.ok streams, s) =>
    let pruned := streams.filter (· ∈ desired key)
    if pruned = streams then s
    else (rewriteStreams noFailure false "merge_streams_prune" (.channel key) key pruned .start s).state

/-- `prune_merge_streams`, the set of the channels gone through in some order. -/
def MergeRun.prune (r : MergeRun) (order : List ChannelKey) : State :=
  order.foldl (pruneChannel r.desired) r.state

/-- What a merge comes to. -/
def MergeCall.arrival (call : MergeCall) (s : State) : Option Arrival :=
  (call.target cfg s).map fun e => ⟨e.1, call.stream.streamId,
    call.admitted cfg s e.1 || decide (call.stream.streamId ∈ s.books.streams e.1)⟩

def arrivals : List MergeCall → State → List Arrival
  | [], _ => []
  | call :: calls, s => (call.arrival cfg s).toList ++ arrivals calls (after cfg call.actionCall s)

/-- The streams resolved to a channel in a run. -/
def landed (as : List Arrival) (key : ChannelKey) : List ℤ := (as.filter (·.key = key)).map Arrival.id

end Merging

section Step

variable {cfg : Config}

/-- Where something was counted there is a stream. -/
def Books.Counted (b : Books) : Prop := ∀ key account, b.counts (key, account) ≠ 0 → b.streams key ≠ []

theorem Books.Counted.consult {b : Books} (h : b.Counted) (accountOf : ℤ → Option ℤ) (key : ChannelKey) :
    (b.apply accountOf (.consult key)).Counted := by
  intro key' account hcount
  rw [Books.streams_consult]
  rw [Books.apply] at hcount
  split_ifs at hcount
  · exact h key' account hcount
  · by_cases hzero : b.counts (key', account) = 0
    · simp only [hzero, Nat.zero_add] at hcount
      split_ifs at hcount with hkey
      · intro hnil
        simp [Books.onChannel, ← hkey, hnil] at hcount
      · exact absurd rfl hcount
    · exact h key' account hzero

theorem Books.Counted.merge {b : Books} (h : b.Counted) (accountOf : ℤ → Option ℤ) (key : ChannelKey)
    (id : ℤ) (account' : Option ℤ) : (b.apply accountOf (.merge key id account')).Counted := by
  intro key' account hcount
  by_cases hkey : key' = key
  · subst hkey
    simp [Books.apply]
  · have hsame : (b.apply accountOf (.merge key id account')).counts (key', account) =
        b.counts (key', account) := by
      cases account' with
      | none => rfl
      | some other =>
        have hne : (key', account) ≠ (key, other) := fun heq => hkey (Prod.mk.inj heq).1
        exact Function.update_of_ne hne _ _
    rw [hsame] at hcount
    have hstreams : (b.apply accountOf (.merge key id account')).streams key' = b.streams key' :=
      Function.update_of_ne hkey _ _
    rw [hstreams]
    exact h key' account hcount

theorem Books.Counted.added {b : Books} (h : b.Counted) (accountOf : ℤ → Option ℤ) (s : State)
    (key : ChannelKey) (stream : Stream) : (b.run accountOf (s.added key stream)).Counted := by
  rw [State.added]
  split_ifs
  · exact h
  · exact h.merge accountOf key _ _

/-- What is known of a run by what has arrived. -/
structure Booked (as : List Arrival) (r : MergeRun) : Prop where
  steady : r.state.Steady
  noted : ∀ key id, id ∈ r.desired key ↔ id ∈ landed as key
  enabled : ∀ key ∈ r.pruneEnabled, ∃ a ∈ as, a.key = key
  kept : ∀ a ∈ as, a.kept = true → a.id ∈ r.state.books.streams a.key
  refused : ∀ key, (∀ a ∈ as, a.key = key → a.kept = false) →
    ∀ a ∈ as, a.key = key → a.id ∉ r.state.books.streams key
  counted : r.state.books.Counted
  filled : ∀ a ∈ as, r.state.books.streams a.key ≠ []

section Call

variable {s : State} {call : MergeCall} {key : ChannelKey} {channel : Channel}

theorem after_untargeted (h : s.Steady) (htarget : call.target cfg s = none) :
    (after cfg call.actionCall s).books = s.books := by
  have hbooks := (after_follows cfg h call.actionCall rfl).books
  have htarget : mergeTarget cfg call.params call.opts call.stream s = none := htarget
  simp only [MergeCall.actionCall, eventsOf, mergeEvents, htarget] at hbooks
  exact hbooks

/-- A merge that has a channel: the counters are read if there is a limit, and the stream is added if it
is let in. -/
theorem after_targeted (h : s.Steady) (htarget : call.target cfg s = some (key, channel)) :
    ∃ b : Books, b.streams = s.books.streams ∧ (s.books.Counted → b.Counted) ∧
      (after cfg call.actionCall s).books =
        if call.admitted cfg s key then b.run cfg.accountOf (s.added key call.stream) else b := by
  have hbooks := (after_follows cfg h call.actionCall rfl).books
  have htarget : mergeTarget cfg call.params call.opts call.stream s = some (key, channel) := htarget
  simp only [MergeCall.actionCall, eventsOf, mergeEvents, htarget] at hbooks
  cases hlimited : limitedAccount call.params call.stream with
  | none =>
    simp only [hlimited] at hbooks
    refine ⟨s.books, rfl, id, hbooks.trans ?_⟩
    simp only [MergeCall.admitted, hlimited, if_true]
  | some account =>
    refine ⟨s.books.apply cfg.accountOf (.consult key), Books.streams_consult _ _ _,
      fun hcounted => hcounted.consult _ _, ?_⟩
    simp only [hlimited] at hbooks
    refine hbooks.trans ?_
    simp only [MergeCall.admitted, hlimited, decide_eq_true_eq]
    by_cases hlimit : call.params.maxStreamsPerChannel ≤ countUsed cfg s key account
    · rw [if_pos hlimit, if_neg (not_lt.mpr hlimit)]
      rfl
    · rw [if_neg hlimit, if_pos (not_le.mp hlimit)]
      rfl

theorem streams_targeted (h : s.Steady) (htarget : call.target cfg s = some (key, channel)) :
    (after cfg call.actionCall s).books.streams =
      if call.admitted cfg s key ∧ call.stream.streamId ∉ s.books.streams key then
        Function.update s.books.streams key (s.books.streams key ++ [call.stream.streamId])
      else s.books.streams := by
  obtain ⟨b, hstreams, _, hbooks⟩ := after_targeted h htarget
  rw [hbooks]
  by_cases hadmitted : call.admitted cfg s key = true
  · by_cases hmem : call.stream.streamId ∈ s.books.streams key
    · simp only [State.added, hadmitted, hmem, if_true, not_true_eq_false, and_false, if_false]
      exact hstreams
    · simp only [State.added, hadmitted, hmem, if_true, not_false_eq_true, and_self, if_false]
      rw [← hstreams]
      rfl
  · simp only [hadmitted, Bool.false_eq_true, false_and, if_false]
    exact hstreams

theorem counted_targeted (h : s.Steady) (htarget : call.target cfg s = some (key, channel))
    (hcounted : s.books.Counted) : (after cfg call.actionCall s).books.Counted := by
  obtain ⟨b, _, hkept, hbooks⟩ := after_targeted h htarget
  rw [hbooks]
  split_ifs
  · exact (hkept hcounted).added _ _ _ _
  · exact hkept hcounted

/-- A limit that lets no stream in has one to count. -/
theorem streams_ne_nil_of_refused (hcounted : s.books.Counted)
    (hrefused : call.admitted cfg s key = false) : s.books.streams key ≠ [] := by
  rw [MergeCall.admitted] at hrefused
  split at hrefused
  · cases hrefused
  · rename_i account hlimited
    have hpos : 0 < call.params.maxStreamsPerChannel := by
      rw [limitedAccount] at hlimited
      split_ifs at hlimited with hpos
      exact hpos
    rw [decide_eq_false_iff_not, countUsed_eq] at hrefused
    have hcount := hcounted.consult cfg.accountOf key key account (by omega)
    rwa [Books.streams_consult] at hcount

end Call

theorem mem_landed {as : List Arrival} {key : ChannelKey} {id : ℤ} :
    id ∈ landed as key ↔ ∃ a ∈ as, a.key = key ∧ a.id = id := by
  simp [landed, and_assoc]

theorem Booked.start (cfg : Config) (existing : Dict ℤ Channel) (elsewhere : Dict ℤ (List ℤ)) :
    Booked [] (MergeRun.start cfg existing elsewhere) where
  steady := start_steady cfg existing elsewhere
  noted := by
    intro key id
    simp [MergeRun.desired, MergeRun.start, landed, Dict.get?_empty]
  enabled := by
    intro key hkey
    cases hkey
  kept := by simp
  refused := by simp
  counted := by
    intro key account hcount
    simp [MergeRun.start, State.books, State.start, Dict.get?_empty] at hcount
  filled := by simp

theorem desired_step {r : MergeRun} {call : MergeCall} {key : ChannelKey} {channel : Channel}
    (htarget : call.target cfg r.state = some (key, channel)) (key' : ChannelKey) :
    (r.step cfg call).desired key' =
      if key = key' then call.stream.streamId :: r.desired key else r.desired key' := by
  simp only [MergeRun.desired, MergeRun.step, htarget, Dict.get?_set]
  split_ifs <;> rfl

/-- One merge. -/
theorem Booked.step (cfg : Config) {as : List Arrival} {r : MergeRun} (h : Booked as r) (call : MergeCall) :
    Booked (as ++ (call.arrival cfg r.state).toList) (r.step cfg call) := by
  have hsteady := (after_follows cfg h.steady call.actionCall rfl).steady
  cases htarget : call.target cfg r.state with
  | none =>
    have hbooks := after_untargeted h.steady htarget
    have hstep : r.step cfg call = { r with state := after cfg call.actionCall r.state } := by
      simp only [MergeRun.step, htarget]
    simp only [MergeCall.arrival, htarget, Option.map_none, Option.toList_none, List.append_nil, hstep]
    refine ⟨hsteady, h.noted, h.enabled, ?_, ?_, ?_, ?_⟩
    · rw [hbooks]; exact h.kept
    · rw [hbooks]; exact h.refused
    · rw [hbooks]; exact h.counted
    · rw [hbooks]; exact h.filled
  | some e =>
    obtain ⟨key, channel⟩ := e
    have hstreams := streams_targeted h.steady htarget
    have hstate : (r.step cfg call).state = after cfg call.actionCall r.state := by
      simp only [MergeRun.step, htarget]
    let arrived : Arrival := ⟨key, call.stream.streamId,
      call.admitted cfg r.state key || decide (call.stream.streamId ∈ r.state.books.streams key)⟩
    have harrival : (call.arrival cfg r.state).toList = [arrived] := by
      simp only [MergeCall.arrival, htarget, Option.map_some, Option.toList_some, arrived]
    rw [harrival]
    -- lists only grow, and one that a kept stream arrives on has it
    have hgrows : ∀ key' id, id ∈ r.state.books.streams key' →
        id ∈ (r.step cfg call).state.books.streams key' := by
      intro key' id hid
      rw [hstate, hstreams]
      split_ifs
      · by_cases hkey : key' = key
        · subst hkey
          rw [Function.update_self]
          exact List.mem_append_left _ hid
        · rwa [Function.update_of_ne hkey]
      · exact hid
    have harrived : arrived.kept = true → arrived.id ∈ (r.step cfg call).state.books.streams key := by
      intro hkept
      rw [hstate, hstreams]
      split_ifs with hadded
      · rw [Function.update_self]
        exact List.mem_append_right _ (List.mem_singleton.mpr rfl)
      · by_contra hmem
        simp only [arrived, Bool.or_eq_true, decide_eq_true_eq] at hkept
        exact hadded ⟨hkept.resolve_right hmem, hmem⟩
    have hother : ∀ key', key' ≠ key ∨ arrived.kept = false →
        (r.step cfg call).state.books.streams key' = r.state.books.streams key' := by
      intro key' hcase
      rw [hstate, hstreams]
      split_ifs with hadded
      · obtain hkey | hunkept := hcase
        · exact Function.update_of_ne hkey _ _
        · simp only [arrived, hadded.1, Bool.true_or, Bool.true_eq_false] at hunkept
      · rfl
    refine ⟨hstate ▸ hsteady, ?_, ?_, ?_, ?_, ?_, ?_⟩
    · intro key' id
      have hnoted := h.noted key' id
      rw [desired_step htarget, landed, List.filter_append, List.map_append, List.mem_append, ← landed,
        ← hnoted]
      by_cases hkey : key = key'
      · subst hkey
        simp [arrived, or_comm]
      · simp [arrived, hkey]
    · intro key' hkey'
      simp only [MergeRun.step, htarget] at hkey'
      have hcase : key' = key ∨ key' ∈ r.pruneEnabled := by
        split_ifs at hkey'
        · exact List.mem_cons.mp hkey'
        · exact .inr hkey'
      obtain rfl | hearlier := hcase
      · exact ⟨arrived, List.mem_append_right _ (List.mem_singleton.mpr rfl), rfl⟩
      · obtain ⟨a, ha, hakey⟩ := h.enabled key' hearlier
        exact ⟨a, List.mem_append_left _ ha, hakey⟩
    · intro a ha hkept
      obtain ha | ha := List.mem_append.mp ha
      · exact hgrows _ _ (h.kept a ha hkept)
      · obtain rfl := List.mem_singleton.mp ha
        exact harrived hkept
    · intro key' hunkept a ha hakey
      have hsame : (r.step cfg call).state.books.streams key' = r.state.books.streams key' := by
        refine hother key' ?_
        by_cases hkey : key' = key
        · exact .inr (hunkept arrived (List.mem_append_right _ (List.mem_singleton.mpr rfl)) hkey.symm)
        · exact .inl hkey
      rw [hsame]
      obtain ha' | ha' := List.mem_append.mp ha
      · exact h.refused key' (fun a ha => hunkept a (List.mem_append_left _ ha)) a ha' hakey
      · obtain rfl := List.mem_singleton.mp ha'
        have hfalse := hunkept arrived ha hakey
        simp only [arrived, Bool.or_eq_false_iff, decide_eq_false_iff_not] at hfalse
        exact hakey ▸ hfalse.2
    · rw [hstate]
      exact counted_targeted h.steady htarget h.counted
    · intro a ha
      obtain ha | ha := List.mem_append.mp ha
      · obtain ⟨id, hid⟩ := List.exists_mem_of_ne_nil _ (h.filled a ha)
        exact List.ne_nil_of_mem (hgrows _ _ hid)
      · obtain rfl := List.mem_singleton.mp ha
        by_cases hkept : arrived.kept = true
        · exact List.ne_nil_of_mem (harrived hkept)
        · rw [Bool.not_eq_true] at hkept
          have hrefused : call.admitted cfg r.state key = false := (Bool.or_eq_false_iff.mp hkept).1
          rw [hother key (.inr hkept)]
          exact streams_ne_nil_of_refused h.counted hrefused

/-- A run of merges. -/
theorem Booked.run (cfg : Config) {as : List Arrival} {r : MergeRun} (h : Booked as r) (calls : List MergeCall) :
    Booked (as ++ arrivals cfg calls r.state) (calls.foldl (MergeRun.step cfg) r) := by
  induction calls generalizing as r with
  | nil =>
    rw [arrivals, List.append_nil]
    exact h
  | cons call calls ih =>
    have hstate : (r.step cfg call).state = after cfg call.actionCall r.state := by
      rw [MergeRun.step]
      split <;> rfl
    have hrest := ih (h.step cfg call)
    rwa [List.append_assoc, hstate] at hrest

end Step

section Prune

/-- Pruning a channel filters its list. -/
theorem pruneChannel_streams {s : State} (h : s.Steady) (desired : ChannelKey → List ℤ) (key : ChannelKey) :
    (pruneChannel desired s key).books.streams =
        Function.update s.books.streams key ((s.books.streams key).filter (· ∈ desired key)) ∧
      (pruneChannel desired s key).Steady := by
  have hprune : ∀ s' : State, s'.Steady → s'.books = s.books →
      let pruned := (s.books.streams key).filter (· ∈ desired key)
      let s'' := if pruned = s.books.streams key then s'
        else (rewriteStreams noFailure false "merge_streams_prune" (.channel key) key pruned .start s').state
      s''.books.streams = Function.update s.books.streams key pruned ∧ s''.Steady := by
    intro s' hsteady hbooks
    dsimp only
    split_ifs with hsame
    · rw [hsame, hbooks, Function.update_eq_self]
      exact ⟨rfl, hsteady⟩
    · have hwritten := rewriteStreams_books hsteady "merge_streams_prune" (.channel key) key
        ((s.books.streams key).filter (· ∈ desired key)) .start
      rw [hwritten.1, hbooks]
      exact ⟨rfl, hwritten.2⟩
  simp only [pruneChannel, fetchStreams]
  cases hget : s.channels.get? key with
  | some channel =>
    have hprune := hprune s h rfl
    rwa [h.inStep key channel hget] at hprune ⊢
  | none =>
    have hcalled : ({ s with calls := s.calls + 1 } : State).Steady := ⟨h.inStep, h.fresh⟩
    simp only [request_noFailure]
    cases hread : s.upstream.get? key with
    | none =>
      have hempty : s.books.streams key = [] := by simp only [State.books, hread, Option.getD_none]
      rw [hempty, List.filter_nil, ← hempty, Function.update_eq_self]
      exact ⟨rfl, hcalled⟩
    | some streams =>
      have hstreams : s.books.streams key = streams := by simp only [State.books, hread, Option.getD_some]
      have hprune := hprune _ hcalled rfl
      rwa [hstreams] at hprune ⊢

theorem prune_streams {s : State} (h : s.Steady) (desired : ChannelKey → List ℤ) (order : List ChannelKey)
    (key : ChannelKey) : (order.foldl (pruneChannel desired) s).books.streams key =
      if key ∈ order then (s.books.streams key).filter (· ∈ desired key) else s.books.streams key := by
  induction order generalizing s with
  | nil => rfl
  | cons key' order ih =>
    obtain ⟨hstreams, hsteady⟩ := pruneChannel_streams h desired key'
    rw [List.foldl_cons, ih hsteady, hstreams]
    by_cases hkey : key = key'
    · subst hkey
      simp [Function.update_self, List.filter_filter]
    · simp [hkey]

/-- After pruning a channel that streams were resolved to has one, and a pruned one has what was resolved
to it of what it had, in that order. -/
def PrunedWell (as : List Arrival) (r : MergeRun) (s : State) : Prop :=
  (∀ a ∈ as, s.books.streams a.key ≠ []) ∧
    ∀ key ∈ r.pruneEnabled, s.books.streams key =
      (r.state.books.streams key).filter (· ∈ landed as key)

end Prune

/-- Pruning empties no channel exactly if on every channel to be pruned some stream resolved to it was let
in or was there before. -/
theorem prunedWell_iff (cfg : Config) (existing : Dict ℤ Channel) (elsewhere : Dict ℤ (List ℤ))
    (calls : List MergeCall) (order : List ChannelKey)
    (horder : ∀ key, key ∈ order ↔
      key ∈ (calls.foldl (MergeRun.step cfg) (MergeRun.start cfg existing elsewhere)).pruneEnabled) :
    let r := calls.foldl (MergeRun.step cfg) (MergeRun.start cfg existing elsewhere)
    let as := arrivals cfg calls (State.start cfg existing elsewhere)
    PrunedWell as r (r.prune order) ↔ ∀ key ∈ r.pruneEnabled, ∃ a ∈ as, a.key = key ∧ a.kept = true := by
  have hbooked := (Booked.start cfg existing elsewhere).run cfg calls
  rw [List.nil_append] at hbooked
  change Booked (arrivals cfg calls (State.start cfg existing elsewhere)) _ at hbooked
  dsimp only
  generalize arrivals cfg calls (State.start cfg existing elsewhere) = as at *
  generalize calls.foldl (MergeRun.step cfg) (MergeRun.start cfg existing elsewhere) = r at *
  have hpruned : ∀ key, (r.prune order).books.streams key =
      if key ∈ order then (r.state.books.streams key).filter (· ∈ landed as key)
      else r.state.books.streams key := by
    intro key
    rw [MergeRun.prune, prune_streams hbooked.steady]
    simp only [hbooked.noted]
  constructor
  · intro ⟨hfilled, _⟩ key hkey
    by_contra hnone
    have hunkept : ∀ a ∈ as, a.key = key → a.kept = false := by
      intro a ha hakey
      by_contra hkept
      exact hnone ⟨a, ha, hakey, by simpa using hkept⟩
    obtain ⟨a, ha, rfl⟩ := hbooked.enabled key hkey
    have hne := hfilled a ha
    rw [hpruned, if_pos ((horder _).mpr hkey)] at hne
    obtain ⟨id, hid⟩ := List.exists_mem_of_ne_nil _ hne
    rw [List.mem_filter, decide_eq_true_eq, mem_landed] at hid
    obtain ⟨hmem, a', ha', hakey', rfl⟩ := hid
    exact hbooked.refused _ hunkept a' ha' hakey' hmem
  · intro h
    refine ⟨fun a ha => ?_, fun key hkey => ?_⟩
    · rw [hpruned]
      split_ifs with hmem
      · obtain ⟨a', ha', hakey', hkept⟩ := h a.key ((horder _).mp hmem)
        have hon := hbooked.kept a' ha' hkept
        rw [hakey'] at hon
        have hfilter : a'.id ∈ (r.state.books.streams a.key).filter (· ∈ landed as a.key) :=
          List.mem_filter.mpr ⟨hon, decide_eq_true (mem_landed.mpr ⟨a', ha', hakey', rfl⟩)⟩
        exact List.ne_nil_of_mem hfilter
      · exact hbooked.filled a ha
    · rw [hpruned, if_pos ((horder _).mpr hkey)]

section Sample

def mergeAndPrune (id : ℤ) (limit : ℕ) : MergeCall :=
  ⟨⟨.auto, none, limit, false, none, false, false, [], []⟩, true, plainOptions,
    ⟨id, "news", none, none, some 5, none⟩⟩

theorem prunedWell_unlimited :
    let r := [mergeAndPrune 2 0].foldl (MergeRun.step oneProvider) (MergeRun.start oneProvider oneChannel ∅)
    PrunedWell (arrivals oneProvider [mergeAndPrune 2 0] (State.start oneProvider oneChannel ∅)) r
      (r.prune [.existing 7]) := by
  have henabled : ([mergeAndPrune 2 0].foldl (MergeRun.step oneProvider)
      (MergeRun.start oneProvider oneChannel ∅)).pruneEnabled = [.existing 7] := by decide +kernel
  refine (prunedWell_iff oneProvider oneChannel ∅ [mergeAndPrune 2 0] [.existing 7] ?_).mpr ?_
  · simp only [henabled, implies_true]
  · rw [henabled]
    decide +kernel

/-- The one stream that matches is refused, for the limit is taken up by one that is then pruned. -/
theorem pruned_empty :
    let r := [mergeAndPrune 2 1].foldl (MergeRun.step oneProvider) (MergeRun.start oneProvider oneChannel ∅)
    r.pruneEnabled = [.existing 7] ∧ r.desired (.existing 7) = [2] ∧
      r.state.books.streams (.existing 7) = [1] ∧
      (r.prune [.existing 7]).books.streams (.existing 7) = [] := by
  decide +kernel

end Sample

end ChannelManager.Pipeline
