import ChannelManager.Lib.Distinct
import ChannelManager.Pipeline.FreshNumbers

/-!
# The numbers a live run leaves

The actions of a live run take free numbers only. The passes after them number lists of channels from a
start up and look at no other channel: Pass 3 those of a rule with a `sort_field`, Pass 3.6 those of a
group, Pass 4 those of a rule it removed orphans of. A run over a lineup without repeated numbers repeats
none as long as each of these lists finds its numbers free of the channels outside of it.
-/

namespace ChannelManager.Pipeline

/-- `int` of a text without a minus sign. -/
def intText (s : List Char) : Option ℤ :=
  let s := strip s
  let groups := (if s.head? = some '+' then s.drop 1 else s).splitOn '_'
  if groups.all fun digits => digits ≠ [] && digits.all Char.isDigit then
    some (spelledNumber groups.flatten)
  else none

/-- `_get_rule_starting_number`, on the `channel_number` of each `create_channel` of the rule. -/
def getRuleStartingNumber : List NumberValue → Option ℤ
  | [] => none
  | .null :: specs => getRuleStartingNumber specs
  | .bool _ :: _ | .nonFinite :: _ => none
  | .int n :: _ => some n
  | .float q :: _ => if q.den = 1 then some q.num else none
  | .text s :: _ =>
    if s = "auto".toList then none
    else if '-' ∈ s then intText (s.takeWhile (· ≠ '-'))
    else intText s

/-- A rule as the renumbering passes read it: whether it has a `sort_field`, and its number specs. -/
structure SortedRule where
  sortField : Bool
  specs : List NumberValue

/-- An action that is executed. -/
structure ActionCall where
  action : Action
  opts : RuleOptions
  stream : Stream
  ctx : Context

/-- A step of the passes after the actions: Pass 3 for a rule, Pass 3.6 for a group, and of Pass 4 the
deletion of an orphan and the numbering of what a rule has left. The channels noted for a rule may be
listed more than once. -/
inductive NumberStep
  | renumberRule (rule : SortedRule) (order : List ChannelKey)
  | sortGroup (groupId : ℤ) (sortChannels : List (ChannelKey × Channel) → List (ChannelKey × Channel))
      (startingNumber : Option ℤ)
  | removeChannel (key : ChannelKey)
  | renumberRemaining (rule : SortedRule) (order orphanIds : List ChannelKey)

/-- A live run: the executor, the numbers its channel dictionaries have and those Dispatcharr has, in
ticks. A number that is none is not kept. -/
structure NumberRun where
  state : State
  cached : Dict ChannelKey (Option ℤ)
  numbers : Dict ChannelKey (Option ℤ)

/-- The numbers of a lineup. -/
def lineupNumbers (lineup : Dict ℤ (NumberValue × Channel)) : Dict ChannelKey (Option ℤ) :=
  Dict.ofList (lineup.items.map fun e => (.existing e.1, channelNumberTicks e.2.1))

/-- `assign_channel_numbers`: from a start up in whole numbers. -/
def assignChannelNumbers (channelIds : List ChannelKey) (start : ℤ) (numbers : Dict ChannelKey (Option ℤ)) :
    Dict ChannelKey (Option ℤ) :=
  numbers.assign (channelIds.zipIdx.map fun e => (e.1, start + 10 * (e.2 : ℤ)))

/-- The lowest number among some channels, or 1. -/
def lowestNumber (cached : Dict ChannelKey (Option ℤ)) (channels : List (ChannelKey × Channel)) : ℤ :=
  ((channels.filterMap fun e => (cached.get? e.1).join).min?).getD 10

namespace NumberRun

def start (cfg : Config) (lineup : Dict ℤ (NumberValue × Channel)) : NumberRun where
  state := State.start cfg (loadedChannels lineup) ∅
  cached := lineupNumbers lineup
  numbers := lineupNumbers lineup

/-- What an action that gives a number does to a table of numbers. -/
def record (result : ActionResult) (numbers : Dict ChannelKey (Option ℤ)) : Dict ChannelKey (Option ℤ) :=
  match assignedNumber result, result.entity with
  | some number, some (.channel key) =>
    if result.created then numbers.set key (some (number : ℤ))
    else numbers.modify key fun _ => some (number : ℤ)
  | _, _ => numbers

/-- An action of a live run, no call of which fails. -/
def execute (cfg : Config) (r : NumberRun) (call : ActionCall) : NumberRun :=
  let turn := Pipeline.execute cfg noFailure false call.action call.opts call.stream call.ctx r.state
  ⟨turn.state, record turn.result r.cached, record turn.result r.numbers⟩

end NumberRun

/-- The channels a step numbers and the tick it starts from, if it numbers any. -/
def NumberStep.assigned (r : NumberRun) : NumberStep → Option (List ChannelKey × ℤ)
  | .renumberRule rule order =>
    let channelIds := firsts order
    if rule.sortField ∧ 2 ≤ channelIds.length then
      (getRuleStartingNumber rule.specs).map fun number => (channelIds, 10 * number)
    else none
  | .sortGroup groupId sortChannels startingNumber =>
    let channels := r.state.channels.items.filter fun e => e.2.channelGroupId = some groupId
    if channels.length < 2 then none
    else some ((sortChannels channels).map Prod.fst, startingNumber.getD (lowestNumber r.cached channels))
  | .removeChannel _ => none
  | .renumberRemaining rule order orphanIds =>
    let remaining := (firsts order).filter (· ∉ orphanIds)
    if remaining ≠ [] ∧ rule.sortField then
      (getRuleStartingNumber rule.specs).map fun number => (remaining, 10 * number)
    else none

namespace NumberRun

def step (r : NumberRun) (s : NumberStep) : NumberRun :=
  match s with
  | .removeChannel key => { r with numbers := r.numbers.erase key }
  | s =>
    match s.assigned r with
    | none => r
    | some (channelIds, start) => { r with numbers := assignChannelNumbers channelIds start r.numbers }

/-- The actions of a live run and the passes after them. -/
def run (cfg : Config) (r : NumberRun) (calls : List ActionCall) (steps : List NumberStep) : NumberRun :=
  steps.foldl step (calls.foldl (execute cfg) r)

end NumberRun

/-! ## Numbers given by the actions -/

section Actions

variable (cfg : Config) (fails : ℕ → Option String)

/-- A lookup changes the manual channel noted and nothing else. -/
def Notes (s s' : State) : Prop := ∃ blocked, s' = s.block blocked

theorem Notes.refl (s : State) : Notes s s := ⟨s.lastManualBlock, rfl⟩

theorem Notes.trans {s s' s'' : State} (h : Notes s s') (h' : Notes s' s'') : Notes s s'' := by
  obtain ⟨_, rfl⟩ := h
  obtain ⟨blocked, rfl⟩ := h'
  exact ⟨blocked, rfl⟩

theorem findCore_notes (s : State) (core : String) : Notes s (findCore cfg s core).2 := by
  rw [findCore]
  split
  · exact .refl s
  · exact ⟨_, rfl⟩

theorem findByCoreName_notes (s : State) (core : String) : Notes s (findByCoreName cfg core s).2 := by
  have hcore := findCore_notes cfg s core
  rw [findByCoreName]
  cases hfind : findCore cfg s core with
  | mk found s' =>
  rw [hfind] at hcore
  cases found with
  | some key => exact hcore
  | none =>
    have hdeparen := findCore_notes cfg s' (cfg.naming.deparen core)
    dsimp only
    split
    · exact hcore
    · cases hfind' : findCore cfg s' (cfg.naming.deparen core) with
      | mk found' s'' =>
      rw [hfind'] at hdeparen
      cases found' <;> exact hcore.trans hdeparen

theorem findFallback_notes (params : MergeParams) (opts : RuleOptions) (stream : Stream)
    (found : Option ChannelKey) (s : State) : Notes s (findFallback cfg params opts stream found s).2 := by
  rw [findFallback.eq_def]
  split
  · split
    · rw [findLoosely]
      dsimp only
      split
      · exact .refl s
      · exact findByCoreName_notes cfg s _
    · exact .refl s
  · exact .refl s

theorem findAuto_notes (params : MergeParams) (opts : RuleOptions) (stream : Stream) (s : State) :
    Notes s (findAuto cfg params opts stream s).2 := by
  rw [findAuto]
  split
  · exact ⟨_, rfl⟩
  · exact .refl s

theorem findExplicit_notes (params : MergeParams) (opts : RuleOptions) (stream : Stream) (s : State) :
    Notes s (findExplicit cfg params opts stream s).2.2 := by
  rw [findExplicit.eq_def]
  split
  · exact ⟨_, rfl⟩
  all_goals exact .refl s

theorem resolveMerge_notes (params : MergeParams) (opts : RuleOptions) (stream : Stream) (s : State) :
    Notes s (resolveMerge cfg params opts stream s).2.2 := by
  have hexplicit := findExplicit_notes cfg params opts stream s
  rw [resolveMerge]
  cases hfind : findExplicit cfg params opts stream s with
  | mk found rest =>
  obtain ⟨blocked, s'⟩ := rest
  rw [hfind] at hexplicit
  dsimp only
  split
  · exact hexplicit
  · exact hexplicit
  · exact hexplicit.trans ((findAuto_notes cfg params opts stream s').trans
      (findFallback_notes cfg params opts stream _ _))

theorem foldl_trackM3uCount_used (key : ChannelKey) (streams : List ℤ) (s : State) :
    (streams.foldl (fun s id => s.trackM3uCount key (cfg.accountOf id)) s).used = s.used := by
  induction streams generalizing s with
  | nil => rfl
  | cons id streams ih => exact (ih _).trans (trackM3uCount_used _ _ _)

theorem ensureChannelM3uCounts_used (s : State) (key : ChannelKey) :
    (ensureChannelM3uCounts cfg fails s key).used = s.used := by
  rw [ensureChannelM3uCounts]
  split
  · rfl
  · dsimp only [request]
    split
    · exact foldl_trackM3uCount_used cfg _ _ _
    · rfl

theorem Unnumbered.of_used {s s' : State} {turn : Turn} (hused : s'.used = s.used)
    (h : Unnumbered s' turn) : Unnumbered s turn := ⟨h.1.trans hused, h.2⟩

theorem mergeInto_unnumbered (params : MergeParams) (key : ChannelKey) (channel : Channel)
    (stream : Stream) (ctx : Context) (s : State) :
    Unnumbered s (mergeInto cfg fails false params key channel stream ctx s) := by
  rw [mergeInto]
  dsimp only
  split
  · exact ⟨rfl, rfl⟩
  · split
    · exact addStreamToChannel_unnumbered fails false _ _ _ _ _
    · have hcounts := ensureChannelM3uCounts_used cfg fails s key
      split
      · exact ⟨hcounts, rfl⟩
      · exact (addStreamToChannel_unnumbered fails false _ _ _ _ _).of_used hcounts

theorem executeMergeStreams_unnumbered (params : MergeParams) (opts : RuleOptions) (stream : Stream)
    (ctx : Context) (s : State) :
    Unnumbered s (executeMergeStreams cfg fails false params opts stream ctx s) := by
  have hresolve : (resolveMerge cfg params opts stream s).2.2.used = s.used := by
    obtain ⟨blocked, hblocked⟩ := resolveMerge_notes cfg params opts stream s
    rw [hblocked]
    rfl
  rw [executeMergeStreams]
  split
  · exact ⟨rfl, rfl⟩
  · dsimp only
    split
    · exact (mergeInto_unnumbered cfg fails params _ _ stream ctx _).of_used hresolve
    · rw [mergeNothing]
      split <;> exact ⟨hresolve, rfl⟩

theorem rewriteStreams_unnumbered (actionType : String) (entity : Entity) (key : ChannelKey)
    (streams : List ℤ) (ctx : Context) (s : State) :
    Unnumbered s (rewriteStreams fails false actionType entity key streams ctx s) := by
  rw [rewriteStreams]
  dsimp only [Bool.false_eq_true, if_false, request]
  cases fails s.calls with
  | some error => exact ⟨rfl, rfl⟩
  | none =>
    cases hget : s.channels.get? key with
    | none =>
      simp only [State.writeStreams, hget]
      exact ⟨rfl, rfl⟩
    | some channel =>
      simp only [State.writeStreams, hget]
      exact ⟨rfl, rfl⟩

theorem fetchStreams_used (key : ChannelKey) (s : State) : (fetchStreams fails key s).2.used = s.used := by
  rw [fetchStreams]
  split
  · rfl
  · dsimp only [request]
    cases fails s.calls with
    | some error => rfl
    | none =>
      dsimp only
      split <;> rfl

theorem rearrange_unnumbered (actionType : String) (entity : ChannelKey → Entity)
    (arrange : List ℤ → List ℤ) (stream : Stream) (ctx : Context) (s : State) :
    Unnumbered s (rearrange fails false actionType entity arrange stream ctx s) := by
  rw [rearrange]
  split
  · exact ⟨rfl, rfl⟩
  · rename_i channelId _
    have hfetch := fetchStreams_used fails (.existing channelId) s
    dsimp only
    cases hfound : fetchStreams fails (.existing channelId) s with
    | mk streams s' =>
    rw [hfound] at hfetch
    cases streams with
    | error error => exact ⟨hfetch, rfl⟩
    | ok streams =>
      dsimp only
      split
      · exact ⟨hfetch, rfl⟩
      · exact (rewriteStreams_unnumbered fails _ _ _ _ ctx _).of_used hfetch

/-- A live action gives no number, or a free one that it marks. -/
theorem execute_numbers (action : Action) (opts : RuleOptions) (stream : Stream) (ctx : Context)
    (s : State) :
    let turn := execute cfg fails false action opts stream ctx s
    Unnumbered s turn ∨ ∃ n, n ∉ s.used ∧ assignedNumber turn.result = some n ∧
      turn.state.used = n :: s.used := by
  have hgiven : ∀ (spec : NumberSpec) (turn : Turn), Numbers spec true s turn →
      ∃ n, n ∉ s.used ∧ assignedNumber turn.result = some n ∧ turn.state.used = n :: s.used :=
    fun spec turn h => ⟨_, getNextChannelNumber_not_mem s.used spec, h.1, h.2⟩
  cases action with
  | createChannel params =>
    exact (executeCreateChannel_numbers cfg fails false params opts stream ctx s).imp id (hgiven _ _)
  | mergeStreams params => exact .inl (executeMergeStreams_unnumbered cfg fails params opts stream ctx s)
  | setChannelNumber value =>
    exact (executeSetChannelNumber_numbers fails false value ctx s).imp id fun h => hgiven _ _ h.1
  | setStreamPriority highest => exact .inl (rearrange_unnumbered fails _ _ _ stream ctx s)
  | removeFromChannel => exact .inl (rearrange_unnumbered fails _ _ _ stream ctx s)

end Actions

/-! ## Numbers over a run -/

/-- No two channels share a number, and every number is marked. -/
structure Marked (r : NumberRun) : Prop where
  distinct : r.numbers.Distinct
  used : ∀ key (t : ℕ), r.numbers.get? key = some (some (t : ℤ)) → t ∈ r.state.used

theorem get?_lineupNumbers {lineup : Dict ℤ (NumberValue × Channel)} {key : ChannelKey} {o : Option ℤ}
    (h : (lineupNumbers lineup).get? key = some o) : ∃ e ∈ lineup.values, channelNumberTicks e.1 = o := by
  have hkeys : ((lineup.items.map fun e => (ChannelKey.existing e.1, channelNumberTicks e.2.1)).map
      Prod.fst).Nodup := by
    rw [List.map_map]
    have hnodup : (lineup.items.map Prod.fst).Nodup := lineup.nodup_keys
    have hinj : Function.Injective ChannelKey.existing := fun _ _ h => ChannelKey.existing.inj h
    have hmapped := hnodup.map hinj
    rwa [List.map_map] at hmapped
  rw [lineupNumbers, Dict.get?_eq_some, Dict.items_ofList _ hkeys] at h
  obtain ⟨e, he, hentry⟩ := List.mem_map.mp h
  exact ⟨e.2, List.mem_map_of_mem he, congrArg Prod.snd hentry⟩

theorem marked_start (cfg : Config) {lineup : Dict ℤ (NumberValue × Channel)}
    (h : (lineupNumbers lineup).Distinct) : Marked (.start cfg lineup) := by
  refine ⟨h, ?_⟩
  intro key t hget
  obtain ⟨e, he, hticks⟩ := get?_lineupNumbers hget
  by_contra hfree
  exact (not_mem_start_used_iff cfg lineup ∅ t).mp hfree e he hticks

theorem record_eq_self {result : ActionResult} (h : assignedNumber result = none)
    (numbers : Dict ChannelKey (Option ℤ)) : NumberRun.record result numbers = numbers := by
  rw [NumberRun.record, h]

/-- An action that gives a number gives it to one channel at most. -/
theorem get?_record {result : ActionResult} {n : ℕ} (numbers : Dict ChannelKey (Option ℤ))
    (h : assignedNumber result = some n) :
    ∃ key, ∀ key' v, (NumberRun.record result numbers).get? key' = some (some v) →
      (key' = key ∧ v = n) ∨ numbers.get? key' = some (some v) := by
  rw [NumberRun.record, h]
  cases hentity : result.entity with
  | none => exact ⟨.created 0, fun _ _ hget => .inr hget⟩
  | some entity =>
    cases entity with
    | stream id => exact ⟨.created 0, fun _ _ hget => .inr hget⟩
    | channel key =>
      refine ⟨key, ?_⟩
      intro key' v hget
      dsimp only at hget
      split at hget
      · rw [Dict.get?_set] at hget
        split at hget
        · rename_i hkey
          cases hget
          exact .inl ⟨hkey.symm, rfl⟩
        · exact .inr hget
      · rw [Dict.get?_modify] at hget
        split at hget
        · rename_i hkey
          obtain ⟨_, _, hv⟩ := Option.map_eq_some_iff.mp hget
          cases hv
          exact .inl ⟨hkey.symm, rfl⟩
        · exact .inr hget

theorem marked_execute (cfg : Config) {r : NumberRun} (h : Marked r) (call : ActionCall) :
    Marked (r.execute cfg call) := by
  cases execute_numbers cfg noFailure call.action call.opts call.stream call.ctx r.state with
  | inl hnone =>
    obtain ⟨hused, hnone⟩ := hnone
    have hsame : (r.execute cfg call).numbers = r.numbers := record_eq_self hnone _
    refine ⟨hsame ▸ h.distinct, ?_⟩
    intro key t hget
    rw [hsame] at hget
    exact hused ▸ h.used key t hget
  | inr hsome =>
    obtain ⟨n, hfree, hgiven, hused⟩ := hsome
    obtain ⟨key, hset⟩ := get?_record r.numbers hgiven
    have hunused : r.numbers.Free (n : ℤ) := fun key hget => hfree (h.used key n hget)
    refine ⟨h.distinct.of_fresh hunused hset, ?_⟩
    intro key' t hget
    rw [show (r.execute cfg call).state.used = n :: r.state.used from hused, List.mem_cons]
    cases hset key' t hget with
    | inl hnew => exact .inl (Int.ofNat.inj hnew.2)
    | inr hold => exact .inr (h.used key' t hold)

/-- The numbers given from a start up are free of the channels that are given none. -/
def RangeFree (numbers : Dict ChannelKey (Option ℤ)) (channelIds : List ChannelKey) (start : ℤ) : Prop :=
  ∀ key v, numbers.get? key = some (some v) → key ∉ channelIds →
    ∀ i < channelIds.length, v ≠ start + 10 * (i : ℤ)

/-- Every list of channels that a pass numbers finds its range free. -/
def RangesFree : NumberRun → List NumberStep → Prop
  | _, [] => True
  | r, s :: ss => (∀ channelIds start, s.assigned r = some (channelIds, start) →
      RangeFree r.numbers channelIds start) ∧ RangesFree (r.step s) ss

theorem distinct_assignChannelNumbers {numbers : Dict ChannelKey (Option ℤ)} (h : numbers.Distinct)
    {channelIds : List ChannelKey} {start : ℤ} (hfree : RangeFree numbers channelIds start) :
    (assignChannelNumbers channelIds start numbers).Distinct := by
  have hkeys : (channelIds.zipIdx.map fun e => (e.1, start + 10 * (e.2 : ℤ))).map Prod.fst =
      channelIds := by
    rw [List.map_map]
    exact List.zipIdx_map_fst 0 channelIds
  have hvalues : (channelIds.zipIdx.map fun e => (e.1, start + 10 * (e.2 : ℤ))).map Prod.snd =
      (List.range channelIds.length).map fun i : ℕ => start + 10 * (i : ℤ) := by
    rw [List.map_map, List.range_eq_range', ← List.zipIdx_map_snd 0 channelIds, List.map_map]
    rfl
  refine h.assign ?_ ?_
  · rw [hvalues]
    refine List.nodup_range.map ?_
    intro i j hij
    have hij : start + 10 * (i : ℤ) = start + 10 * (j : ℤ) := hij
    omega
  · intro key v hget hkey hmem
    rw [hkeys] at hkey
    rw [hvalues, List.mem_map] at hmem
    obtain ⟨i, hi, hv⟩ := hmem
    exact hfree key v hget hkey i (List.mem_range.mp hi) hv.symm

theorem distinct_step {r : NumberRun} (h : r.numbers.Distinct) {s : NumberStep}
    (hfree : ∀ channelIds start, s.assigned r = some (channelIds, start) →
      RangeFree r.numbers channelIds start) : (r.step s).numbers.Distinct := by
  rw [NumberRun.step.eq_def]
  split
  · exact h.erase _
  · cases hassigned : s.assigned r with
    | none => exact h
    | some e => exact distinct_assignChannelNumbers h (hfree e.1 e.2 hassigned)

theorem marked_calls (cfg : Config) {r : NumberRun} (h : Marked r) (calls : List ActionCall) :
    Marked (calls.foldl (NumberRun.execute cfg) r) := by
  induction calls generalizing r with
  | nil => exact h
  | cons call calls ih => exact ih (marked_execute cfg h call)

theorem distinct_steps {r : NumberRun} {steps : List NumberStep} (h : r.numbers.Distinct)
    (hfree : RangesFree r steps) : (steps.foldl NumberRun.step r).numbers.Distinct := by
  induction steps generalizing r with
  | nil => exact h
  | cons s steps ih =>
    obtain ⟨hstep, hrest⟩ := hfree
    exact ih (distinct_step h hstep) hrest

/-- No two channels share a number after a live run whose passes find their ranges free. -/
theorem run_numbers_distinct (cfg : Config) (lineup : Dict ℤ (NumberValue × Channel))
    (hlineup : (lineupNumbers lineup).Distinct) (calls : List ActionCall) (steps : List NumberStep)
    (hfree : RangesFree (calls.foldl (NumberRun.execute cfg) (.start cfg lineup)) steps) :
    (NumberRun.run cfg (.start cfg lineup) calls steps).numbers.Distinct := by
  have hmarked := marked_calls cfg (marked_start cfg hlineup) calls
  exact distinct_steps hmarked.distinct hfree

section Samples

/-- A channel made by hand, in a lineup of its own. -/
def handMade (number : ℤ) : Dict ℤ (NumberValue × Channel) :=
  Dict.ofList [(7, .int number, ⟨"film", some 3, none, [1], none, none, true⟩)]

/-- `create_channel` from number 100 on, for a stream of a name. -/
def createFrom100 (id : ℤ) (name : String) : ActionCall where
  action := .createChannel ⟨Stream.streamName, none, .merge, .literal 1000⟩
  opts := plainOptions
  stream := plainStream id name none
  ctx := .start

/-- Pass 3 for the rule of these actions. -/
def renumberFrom100 : NumberStep := .renumberRule ⟨true, [.int 100]⟩ [.created 0, .created 1]

theorem distinct_handMade (number : ℤ) : (lineupNumbers (handMade number)).Distinct := by
  intro key key' v hkey hkey'
  have hkeys : (lineupNumbers (handMade number)).items.map Prod.fst = [.existing 7] := rfl
  have honly : ∀ k, (lineupNumbers (handMade number)).get? k = some (some v) → k = .existing 7 := by
    intro k hget
    have hmem := List.mem_map_of_mem (f := Prod.fst) ((Dict.get?_eq_some _ _ _).mp hget)
    rw [hkeys] at hmem
    exact List.mem_singleton.mp hmem
  exact (honly key hkey).trans (honly key' hkey').symm

theorem run_numbers_distinct_sorted :
    (NumberRun.run plainConfig (.start plainConfig (handMade 7))
      [createFrom100 2 "sport", createFrom100 3 "news"] [renumberFrom100]).numbers.Distinct := by
  refine run_numbers_distinct plainConfig (handMade 7) (distinct_handMade 7) _ _ ⟨?_, trivial⟩
  have hassigned : renumberFrom100.assigned ([createFrom100 2 "sport", createFrom100 3 "news"].foldl
      (NumberRun.execute plainConfig) (.start plainConfig (handMade 7))) =
      some ([.created 0, .created 1], 1000) := rfl
  have hitems : ([createFrom100 2 "sport", createFrom100 3 "news"].foldl
      (NumberRun.execute plainConfig) (.start plainConfig (handMade 7))).numbers.items =
      [(.existing 7, some 70), (.created 0, some 1000), (.created 1, some 1010)] := by
    decide +kernel
  intro channelIds start h
  obtain ⟨rfl, rfl⟩ := Prod.mk.inj (Option.some.inj (hassigned.symm.trans h))
  intro key v hget hkey i hi
  rw [Dict.get?_eq_some, hitems] at hget
  simp only [List.mem_cons, Prod.mk.injEq, Option.some.injEq, List.not_mem_nil, or_false,
    not_or] at hget hkey
  obtain ⟨_, hv⟩ | ⟨hfirst, _⟩ | ⟨hsecond, _⟩ := hget
  · omega
  · exact absurd hfirst hkey.1
  · exact absurd hsecond hkey.2

/-- The rule's channels get 101 and 102, and Pass 3 gives the first of them the number of the channel
made by hand. -/
theorem run_numbers_repeat :
    ¬ ∀ (cfg : Config) (lineup : Dict ℤ (NumberValue × Channel)) (calls : List ActionCall)
      (steps : List NumberStep), (lineupNumbers lineup).Distinct →
      (NumberRun.run cfg (.start cfg lineup) calls steps).numbers.Distinct := by
  intro hclaim
  have hdistinct := hclaim plainConfig (handMade 100)
    [createFrom100 2 "sport", createFrom100 3 "news"] [renumberFrom100] (distinct_handMade 100)
  exact absurd (hdistinct (.existing 7) (.created 0) 1000 (by decide +kernel) (by decide +kernel))
    (by decide)

end Samples

end ChannelManager.Pipeline
