import ChannelManager.Pipeline.Passes

/-!
# The streams a rule is evaluated against

The accounts fetched are those the rules name, and all of them only if no rule names one: a rule that
names none gets the streams of the accounts that other rules name.
-/

namespace ChannelManager.Pipeline

/-- The account a rule is limited to; 0 is none. -/
def PipelineRule.scope (rule : PipelineRule) : Option ℤ := rule.m3uAccountId.filter (· ≠ 0)

/-- The rule's account filter. -/
def PipelineRule.accepts (rule : PipelineRule) (stream : Stream) : Bool :=
  rule.scope.all fun id => stream.m3uAccountId = some id

/-- The rules a stream is evaluated against: one that stops at the first match takes it from the rest. -/
def evaluatedRules (stream : Stream) : List PipelineRule → List PipelineRule
  | [] => []
  | rule :: rules =>
    if rule.accepts stream then
      rule :: if rule.conditions stream && rule.stopOnFirstMatch then [] else evaluatedRules stream rules
    else evaluatedRules stream rules

/-- Pass 1 keeps of the rules evaluated those whose conditions hold. -/
theorem matchingRules_eq (stream : Stream) (rules : List PipelineRule) :
    matchingRules stream rules = (evaluatedRules stream rules).filter (·.conditions stream) := by
  induction rules with
  | nil => rfl
  | cons rule rules ih =>
    have happlies : rule.applies stream = (rule.accepts stream && rule.conditions stream) := rfl
    rw [matchingRules, evaluatedRules, happlies, ih]
    cases haccepts : rule.accepts stream <;> cases hcond : rule.conditions stream <;>
      cases hstop : rule.stopOnFirstMatch <;> simp [hcond]

namespace RunInput

variable (input : RunInput)

/-- The run with this rule only. -/
def alone (rule : PipelineRule) : RunInput := { input with rules := [rule] }

/-- `from_dispatcharr_stream` gives a stream the account it is fetched for. -/
def Stamped : Prop :=
  ∀ accountId streams, input.catalog.get? accountId = some streams →
    ∀ stream ∈ streams, stream.m3uAccountId = some accountId

/-- The streams that the fetch and the account filter leave a rule. -/
def offered (rule : PipelineRule) : List Stream :=
  (input.fetched.filter fun stream => !input.excluded stream).filter rule.accepts

/-- The streams evaluated against a rule. -/
def evaluatedAgainst (rule : PipelineRule) : List Stream :=
  (input.fetched.filter fun stream => !input.excluded stream).filter fun stream =>
    decide (rule.id ∈ (evaluatedRules stream input.rules).map PipelineRule.id)

/-- A run with other rules fetches what the rule alone does. -/
def FetchesAll (rule : PipelineRule) : Prop :=
  ∀ stream ∈ (input.alone rule).fetched, stream ∈ input.fetched

/-- The accounts of the run are given, or the rule names one, or no rule does, or the rules together name
every account that has streams. -/
def Unhidden (rule : PipelineRule) : Prop :=
  input.m3uAccountIds ≠ [] ∨ rule.scope ≠ none ∨ (∀ r ∈ input.rules, r.scope = none) ∨
    ∀ accountId streams, input.catalog.get? accountId = some streams → streams ≠ [] →
      ∃ r ∈ input.rules, r.scope = some accountId

/-- No rule before this one takes a stream offered to it. -/
def Unstopped (before : List PipelineRule) (rule : PipelineRule) : Prop :=
  ∀ stream ∈ input.offered rule, ∀ r ∈ before, r.applies stream → r.stopOnFirstMatch = false

section Fetch

variable (hread : ∀ accountId, input.pagesRead accountId = none)
include hread

theorem mem_fetched {stream : Stream} :
    stream ∈ input.fetched ↔ input.rules ≠ [] ∧ ∃ accountId ∈ input.accountsToFetch, ∃ streams,
      input.catalog.get? accountId = some streams ∧ stream ∈ streams := by
  have hfetch : ∀ accountId, stream ∈ input.fetchAccount accountId ↔
      ∃ streams, input.catalog.get? accountId = some streams ∧ stream ∈ streams := by
    intro accountId
    rw [fetchAccount, hread accountId]
    cases input.catalog.get? accountId <;> simp
  rw [fetched]
  split
  · simp [*]
  · rename_i hrules
    simp only [List.mem_flatMap, hfetch, ne_eq, hrules, not_false_eq_true, true_and]

end Fetch

theorem accountsToFetch_of_given (h : input.m3uAccountIds ≠ []) :
    input.accountsToFetch = input.m3uAccountIds.dedup := by
  rw [accountsToFetch, if_pos h]

/-- No rule names an account: all are fetched. -/
theorem accountsToFetch_of_unscoped (hgiven : input.m3uAccountIds = [])
    (h : ∀ r ∈ input.rules, r.scope = none) : input.accountsToFetch = input.catalog.keys := by
  have hnone : input.rules.filterMap (fun rule => rule.m3uAccountId.filter (· ≠ 0)) = [] :=
    List.filterMap_eq_nil_iff.mpr h
  rw [accountsToFetch, if_neg (not_not_intro hgiven), hnone]

/-- Some rule names an account: those named are fetched. -/
theorem mem_accountsToFetch_of_scoped (hgiven : input.m3uAccountIds = []) {r : PipelineRule}
    (hr : r ∈ input.rules) (hscope : r.scope ≠ none) (accountId : ℤ) :
    accountId ∈ input.accountsToFetch ↔ ∃ r ∈ input.rules, r.scope = some accountId := by
  obtain ⟨id, hid⟩ := Option.ne_none_iff_exists'.mp hscope
  have hmem : ∀ accountId, accountId ∈ input.rules.filterMap (fun rule => rule.m3uAccountId.filter (· ≠ 0)) ↔
      ∃ r ∈ input.rules, r.scope = some accountId := fun accountId => List.mem_filterMap
  have hin := (hmem id).mpr ⟨r, hr, hid⟩
  rw [accountsToFetch, if_neg (not_not_intro hgiven), ← hmem accountId]
  cases hlist : input.rules.filterMap fun rule => rule.m3uAccountId.filter (· ≠ 0) with
  | nil =>
    rw [hlist] at hin
    exact absurd hin List.not_mem_nil
  | cons a as => exact List.mem_dedup

variable {input}

theorem mem_catalog_keys {accountId : ℤ} {streams : List Stream}
    (h : input.catalog.get? accountId = some streams) : accountId ∈ input.catalog.keys :=
  Dict.mem_of_get? h

section Scope

variable (hread : ∀ accountId, input.pagesRead accountId = none) (hstamped : input.Stamped)
  {rule : PipelineRule}
include hread hstamped

/-- What the account filter leaves a rule of a run with others the rule alone would fetch, too. -/
theorem fetched_alone_of_accepts {stream : Stream} (hmem : stream ∈ input.fetched)
    (haccepts : rule.accepts stream = true) : stream ∈ (input.alone rule).fetched := by
  obtain ⟨_, accountId, hid, streams, hget, hin⟩ := (mem_fetched input hread).mp hmem
  refine (mem_fetched (input.alone rule) hread).mpr ⟨by simp [alone], accountId, ?_, streams, hget, hin⟩
  by_cases hgiven : input.m3uAccountIds = []
  · cases hscope : rule.scope with
    | none =>
      rw [accountsToFetch_of_unscoped (input.alone rule) hgiven
        (by simpa [alone] using hscope)]
      exact mem_catalog_keys hget
    | some id =>
      have hsame : stream.m3uAccountId = some id := by
        simpa [PipelineRule.accepts, hscope] using haccepts
      have hid : accountId = id := Option.some_inj.mp ((hstamped _ _ hget _ hin).symm.trans hsame)
      rw [mem_accountsToFetch_of_scoped (input.alone rule) hgiven (List.mem_cons_self (a := rule))
        (by simp [hscope])]
      exact ⟨rule, by simp [alone], by rw [hscope, hid]⟩
  · rw [accountsToFetch_of_given (input.alone rule) hgiven]
    rwa [accountsToFetch_of_given input hgiven] at hid

/-- When a run with other rules fetches what the rule alone does. -/
theorem fetchesAll_iff (hrule : rule ∈ input.rules) : input.FetchesAll rule ↔ input.Unhidden rule := by
  have halone : (input.alone rule).rules ≠ [] := List.cons_ne_nil _ _
  have hrules : input.rules ≠ [] := List.ne_nil_of_mem hrule
  constructor
  · intro h
    by_contra hhidden
    simp only [Unhidden, not_or, not_not] at hhidden
    obtain ⟨hgiven, hunscoped, hscoped, hunnamed⟩ := hhidden
    push Not at hscoped hunnamed
    obtain ⟨r, hr, hscope⟩ := hscoped
    obtain ⟨accountId, streams, hget, hne, hnone⟩ := hunnamed
    obtain ⟨stream, hin⟩ := List.exists_mem_of_ne_nil _ hne
    -- alone, the rule gets every account
    have hfetched : stream ∈ (input.alone rule).fetched := by
      refine (mem_fetched (input.alone rule) hread).mpr ⟨halone, accountId, ?_, streams, hget, hin⟩
      rw [accountsToFetch_of_unscoped (input.alone rule) hgiven
        (fun r hr => List.mem_singleton.mp hr ▸ hunscoped)]
      exact mem_catalog_keys hget
    obtain ⟨_, id, hid, streams', hget', hin'⟩ := (mem_fetched input hread).mp (h stream hfetched)
    obtain ⟨r', hr', hscope'⟩ := (mem_accountsToFetch_of_scoped input hgiven hr hscope id).mp hid
    have hsame : id = accountId := Option.some_inj.mp
      ((hstamped id streams' hget' stream hin').symm.trans (hstamped accountId streams hget stream hin))
    exact hnone r' hr' (hsame ▸ hscope')
  · intro h stream hmem
    obtain ⟨_, accountId, hid, streams, hget, hin⟩ := (mem_fetched (input.alone rule) hread).mp hmem
    refine (mem_fetched input hread).mpr ⟨hrules, accountId, ?_, streams, hget, hin⟩
    by_cases hgiven : input.m3uAccountIds = []
    · by_cases hscoped : ∀ r ∈ input.rules, r.scope = none
      · rw [accountsToFetch_of_unscoped input hgiven hscoped]
        exact mem_catalog_keys hget
      · push Not at hscoped
        obtain ⟨r, hr, hscope⟩ := hscoped
        rw [mem_accountsToFetch_of_scoped input hgiven hr hscope]
        by_cases hrule' : rule.scope = none
        · have hnamed := (((h.resolve_left (not_not_intro hgiven)).resolve_left
            (not_not_intro hrule')).resolve_left fun hall => hscope (hall r hr))
          exact hnamed accountId streams hget (List.ne_nil_of_mem hin)
        · rw [mem_accountsToFetch_of_scoped (input.alone rule) hgiven List.mem_cons_self hrule'] at hid
          obtain ⟨r', hr', hscope'⟩ := hid
          exact ⟨rule, hrule, List.mem_singleton.mp hr' ▸ hscope'⟩
    · rw [accountsToFetch_of_given input hgiven]
      rwa [accountsToFetch_of_given (input.alone rule) hgiven] at hid

/-- The fetch decides what a rule is offered. -/
theorem mem_offered_iff (h : input.FetchesAll rule) (stream : Stream) :
    stream ∈ input.offered rule ↔ stream ∈ (input.alone rule).offered rule := by
  simp only [offered, List.mem_filter]
  constructor
  · rintro ⟨⟨hmem, hexcluded⟩, haccepts⟩
    exact ⟨⟨fetched_alone_of_accepts hread hstamped hmem haccepts, hexcluded⟩, haccepts⟩
  · rintro ⟨⟨hmem, hexcluded⟩, haccepts⟩
    exact ⟨⟨h stream hmem, hexcluded⟩, haccepts⟩

end Scope

theorem evaluatedRules_subset (stream : Stream) (rules : List PipelineRule) :
    evaluatedRules stream rules ⊆ rules := by
  induction rules with
  | nil => exact List.nil_subset _
  | cons rule rules ih =>
    have htail : evaluatedRules stream rules ⊆ rule :: rules := List.subset_cons_of_subset _ ih
    rw [evaluatedRules]
    split
    · refine List.cons_subset.mpr ⟨List.mem_cons_self, ?_⟩
      split
      · exact List.nil_subset _
      · exact htail
    · exact htail

/-- A stream is evaluated against a rule if its account filter lets it through and no rule before it
stops there. -/
theorem mem_evaluatedRules {before after : List PipelineRule} {rule : PipelineRule}
    (hnodup : ((before ++ rule :: after).map PipelineRule.id).Nodup) (stream : Stream) :
    rule.id ∈ (evaluatedRules stream (before ++ rule :: after)).map PipelineRule.id ↔
      rule.accepts stream = true ∧ ∀ r ∈ before, r.applies stream → r.stopOnFirstMatch = false := by
  induction before with
  | nil =>
    rw [List.nil_append, List.map_cons, List.nodup_cons] at hnodup
    rw [List.nil_append, evaluatedRules]
    by_cases haccepts : rule.accepts stream = true
    · simp [haccepts]
    · have hnot : rule.id ∉ (evaluatedRules stream after).map PipelineRule.id :=
        fun h => hnodup.1 (List.map_subset _ (evaluatedRules_subset stream after) h)
      simp [haccepts, hnot]
  | cons r before ih =>
    rw [List.cons_append, List.map_cons, List.nodup_cons] at hnodup
    have hne : rule.id ≠ r.id := fun h =>
      hnodup.1 (List.mem_map.mpr ⟨rule, List.mem_append_right _ List.mem_cons_self, h⟩)
    have happlies : r.applies stream = (r.accepts stream && r.conditions stream) := rfl
    have ih := ih hnodup.2
    rw [List.cons_append, evaluatedRules]
    simp only [List.forall_mem_cons, happlies]
    by_cases haccepts : r.accepts stream = true
    · by_cases hstop : (r.conditions stream && r.stopOnFirstMatch) = true
      · have hboth := Bool.and_eq_true_iff.mp hstop
        simp [haccepts, hboth.1, hboth.2, hne]
      · rw [if_pos haccepts, if_neg hstop, List.map_cons, List.mem_cons, ih]
        simp only [hne, false_or]
        refine and_congr_right fun _ => ⟨fun h => ⟨?_, h⟩, And.right⟩
        rw [haccepts, Bool.true_and]
        intro hcond
        rw [hcond, Bool.true_and] at hstop
        exact Bool.eq_false_of_not_eq_true hstop
    · rw [if_neg haccepts, ih]
      simp [haccepts]

theorem mem_evaluatedAgainst (input : RunInput) {before after : List PipelineRule} {rule : PipelineRule}
    (hrules : input.rules = before ++ rule :: after) (hnodup : (input.rules.map PipelineRule.id).Nodup)
    (stream : Stream) :
    stream ∈ input.evaluatedAgainst rule ↔ stream ∈ input.offered rule ∧
      ∀ r ∈ before, r.applies stream → r.stopOnFirstMatch = false := by
  rw [hrules] at hnodup
  rw [evaluatedAgainst, offered, List.mem_filter, List.mem_filter (p := rule.accepts), decide_eq_true_iff,
    hrules, mem_evaluatedRules hnodup, and_assoc]

/-- When a rule is offered, and evaluated against, the same streams whichever other rules run with it. -/
theorem streams_same_iff (hread : ∀ accountId, input.pagesRead accountId = none) (hstamped : input.Stamped)
    {before after : List PipelineRule} {rule : PipelineRule} (hrules : input.rules = before ++ rule :: after)
    (hnodup : (input.rules.map PipelineRule.id).Nodup) :
    (input.FetchesAll rule ∧
        (∀ stream, stream ∈ input.offered rule ↔ stream ∈ (input.alone rule).offered rule) ↔
      input.Unhidden rule) ∧
    (input.FetchesAll rule ∧
        (∀ stream, stream ∈ input.evaluatedAgainst rule ↔ stream ∈ (input.alone rule).evaluatedAgainst rule) ↔
      input.Unhidden rule ∧ input.Unstopped before rule) := by
  have hrule : rule ∈ input.rules := by
    rw [hrules]
    exact List.mem_append_right _ List.mem_cons_self
  have hfetches := fetchesAll_iff hread hstamped hrule
  have hoffered := fun h : input.FetchesAll rule => mem_offered_iff hread hstamped h
  -- alone, a rule is evaluated against what it is offered
  have halone : ∀ stream, stream ∈ (input.alone rule).evaluatedAgainst rule ↔
      stream ∈ (input.alone rule).offered rule := by
    intro stream
    have hrules : (input.alone rule).rules = [] ++ rule :: [] := rfl
    have hnodup : ((input.alone rule).rules.map PipelineRule.id).Nodup := List.nodup_singleton rule.id
    rw [mem_evaluatedAgainst (input.alone rule) hrules hnodup]
    exact and_iff_left fun r hr => absurd hr List.not_mem_nil
  have htogether := mem_evaluatedAgainst input hrules hnodup
  refine ⟨⟨fun h => hfetches.mp h.1, fun h => ⟨hfetches.mpr h, hoffered (hfetches.mpr h)⟩⟩, ?_, ?_⟩
  · rintro ⟨hall, hsame⟩
    refine ⟨hfetches.mp hall, fun stream hstream => ?_⟩
    have hstream' := (halone stream).mpr ((hoffered hall stream).mp hstream)
    exact ((htogether stream).mp ((hsame stream).mpr hstream')).2
  · rintro ⟨hunhidden, hunstopped⟩
    have hall := hfetches.mpr hunhidden
    refine ⟨hall, fun stream => ?_⟩
    rw [htogether, halone, ← hoffered hall]
    exact ⟨And.left, fun h => ⟨h, hunstopped stream h⟩⟩

end RunInput

section Sample

/-- A rule for every stream of the accounts it is for. -/
def wideRule (id : ℤ) (m3uAccountId : Option ℤ) : PipelineRule where
  id
  m3uAccountId
  conditions _ := true
  stopOnFirstMatch := false
  sortBy := none
  skipStruckStreams := false
  actions := []
  options := ⟨none, [], false, none, false, false⟩
  reconciled := ⟨"", none, .none, none, none⟩

/-- Two accounts with a stream each. -/
def twoAccounts (rules : List PipelineRule) : RunInput where
  rules
  eventSyncRules := ∅
  catalog := Dict.ofList [(1, [⟨10, "news", none, none, some 1, none⟩]),
    (2, [⟨20, "sport", none, none, some 2, none⟩])]
  m3uAccountIds := []
  pagesRead _ := none
  excluded _ := false
  inTimezone _ := true
  struck := []
  channelCap := 0
  managed := ∅

theorem catalog_twoAccounts {rules : List PipelineRule} {accountId : ℤ} {streams : List Stream}
    (h : (twoAccounts rules).catalog.get? accountId = some streams) :
    accountId = 1 ∧ streams = [⟨10, "news", none, none, some 1, none⟩] ∨
      accountId = 2 ∧ streams = [⟨20, "sport", none, none, some 2, none⟩] := by
  have hitems : (twoAccounts rules).catalog.items = [(1, [⟨10, "news", none, none, some 1, none⟩]),
    (2, [⟨20, "sport", none, none, some 2, none⟩])] := rfl
  rw [Dict.get?_eq_some, hitems] at h
  simpa using h

theorem stamped_twoAccounts (rules : List PipelineRule) : (twoAccounts rules).Stamped := by
  intro accountId streams hget stream hstream
  obtain ⟨rfl, rfl⟩ | ⟨rfl, rfl⟩ := catalog_twoAccounts hget <;> rw [List.mem_singleton.mp hstream]

/-- A rule for each account, and one for both. -/
def namedRun : RunInput := twoAccounts [wideRule 1 (some 1), wideRule 2 (some 2), wideRule 3 none]

theorem streams_same_iff_named :
    namedRun.FetchesAll (wideRule 3 none) ∧
      ∀ stream, stream ∈ namedRun.offered (wideRule 3 none) ↔
        stream ∈ (namedRun.alone (wideRule 3 none)).offered (wideRule 3 none) := by
  have hrules : namedRun.rules = [wideRule 1 (some 1), wideRule 2 (some 2)] ++ wideRule 3 none :: [] := rfl
  refine (RunInput.streams_same_iff (fun _ => rfl) (stamped_twoAccounts _) hrules (by decide)).1.mpr ?_
  refine .inr (.inr (.inr fun accountId streams hget _ => ?_))
  obtain ⟨rfl, _⟩ | ⟨rfl, _⟩ := catalog_twoAccounts hget
  · exact ⟨wideRule 1 (some 1), List.mem_cons_self, rfl⟩
  · exact ⟨wideRule 2 (some 2), List.mem_cons_of_mem _ List.mem_cons_self, rfl⟩

/-- A rule for the second account is added to one for all: the other account is not fetched any more. -/
theorem streams_hidden_by_scoped_rule :
    ¬ ∀ (input : RunInput) (rule : PipelineRule), rule ∈ input.rules →
      (∀ accountId, input.pagesRead accountId = none) → input.Stamped → input.FetchesAll rule ∧
        ∀ stream, stream ∈ input.offered rule ↔ stream ∈ (input.alone rule).offered rule := by
  intro hclaim
  have hall := (hclaim (twoAccounts [wideRule 1 none, wideRule 2 (some 2)]) (wideRule 1 none)
    List.mem_cons_self (fun _ => rfl) (stamped_twoAccounts _)).1
  exact absurd (hall ⟨10, "news", none, none, some 1, none⟩ (by decide)) (by decide)

end Sample

end ChannelManager.Pipeline
