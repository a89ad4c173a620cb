import ChannelManager.Pipeline.Conditions

/-!
# Rules without hope

The rule analyzer splits the conditions of a rule into OR-groups as the evaluator does, and reports a rule
all of whose groups have a `never`. It does not look at whether the `never` is negated.
-/

namespace ChannelManager.Pipeline.Conditions

/-- One turn of the loop that makes the OR-groups: an `or` closes the last group if it has a condition. -/
def orGroupStep (groups : List (List Condition)) (condition : Condition) : List (List Condition) :=
  let groups :=
    if condition.connector = .or ∧ groups.getLast?.any (!·.isEmpty) then groups ++ [[]] else groups
  groups.dropLast ++ [groups.getLastD [] ++ [condition]]

/-- `or_groups`. -/
def orGroups (conditions : List Condition) : List (List Condition) := conditions.foldl orGroupStep [[]]

section Evaluate

variable (ev : Evaluator) (ctx : StreamContext)

/-- `evaluate_conditions`. -/
def evaluateConditions (conditions : List Condition) : Bool :=
  if conditions = [] then true
  else (orGroups conditions).any fun group => group.all fun c => c.evaluate ev ctx

/-- Pass 1 evaluates every condition of every group, to log it. -/
def matchedInPassOne (conditions : List Condition) : Bool :=
  (orGroups conditions).foldl (fun matched group =>
    if group.foldl (fun groupMatched c => if c.evaluate ev ctx then groupMatched else false) true then true
    else matched) false

end Evaluate

/-- `split_or_groups`. -/
def splitOrGroups (conditions : List Condition) : List (List Condition) :=
  if conditions = [] then [] else (orGroups conditions).filter (!·.isEmpty)

/-- `_conditions_contain_only_never`. -/
def conditionsContainOnlyNever (group : List Condition) : Bool := group.any Condition.isNever

structure RuleFinding where
  ruleId : Option ℤ
  ruleName : String
  code : String
  severity : String
  field : String
  message : String
  suggestion : String
  orGroupCount : ℕ

/-- `_check_rule_has_no_hope_of_matching`. -/
def checkRuleHasNoHopeOfMatching (ruleId : Option ℤ) (ruleName : String) (conditions : List Condition) :
    List RuleFinding :=
  let groups := splitOrGroups conditions
  if groups = [] then []
  else if !groups.all conditionsContainOnlyNever then []
  else
    [{ ruleId
       ruleName
       code := "RULE_HAS_NO_HOPE_OF_MATCHING"
       severity := "warning"
       field := "conditions"
       message := "Every OR-group on this rule contains a ``never`` condition. The rule will not match " ++
         "any stream, ever. Either remove the ``never`` conditions or delete/disable the rule."
       suggestion := "Disable the rule, or remove the ``never`` conditions you no longer need."
       orGroupCount := groups.length }]

section Groups

theorem orGroupStep_concat (groups : List (List Condition)) (last : List Condition) (c : Condition) :
    orGroupStep (groups ++ [last]) c =
      if c.connector = .or ∧ last ≠ [] then groups ++ [last] ++ [[c]] else groups ++ [last ++ [c]] := by
  have hopen : (groups ++ [last]).getLast?.any (!·.isEmpty) = true ↔ last ≠ [] := by simp
  simp only [orGroupStep, hopen]
  split <;> simp

/-- What the loop has made of the conditions so far: groups that hold them in their order, none of them
empty but the one it starts with. -/
def Grouped (conditions : List Condition) (groups : List (List Condition)) : Prop :=
  ∃ closed last, groups = closed ++ [last] ∧ groups.flatten = conditions ∧ (∀ group ∈ closed, group ≠ []) ∧
    (last = [] → conditions = [])

theorem Grouped.step {conditions : List Condition} {groups : List (List Condition)}
    (h : Grouped conditions groups) (c : Condition) :
    Grouped (conditions ++ [c]) (orGroupStep groups c) := by
  obtain ⟨closed, last, rfl, hflatten, hclosed, hlast⟩ := h
  rw [orGroupStep_concat]
  split
  · rename_i hor
    refine ⟨closed ++ [last], [c], rfl, ?_, ?_, nofun⟩
    · rw [List.flatten_append, hflatten, List.flatten_singleton]
    · intro group hgroup
      cases List.mem_append.mp hgroup with
      | inl hmem => exact hclosed group hmem
      | inr hmem => exact List.mem_singleton.mp hmem ▸ hor.2
  · refine ⟨closed, last ++ [c], rfl, ?_, hclosed, fun hnil => ?_⟩
    · rw [← hflatten]
      simp
    · exact absurd (List.append_eq_nil_iff.mp hnil).2 (List.cons_ne_nil c [])

theorem grouped_orGroups (conditions : List Condition) : Grouped conditions (orGroups conditions) := by
  induction conditions using List.reverseRecOn with
  | nil => exact ⟨[], [], rfl, rfl, nofun, fun _ => rfl⟩
  | append_singleton conditions c ih =>
    rw [orGroups, List.foldl_concat]
    exact ih.step c

/-- The conditions stay in their order. -/
theorem flatten_orGroups (conditions : List Condition) : (orGroups conditions).flatten = conditions := by
  obtain ⟨_, _, _, hflatten, _⟩ := grouped_orGroups conditions
  exact hflatten

theorem ne_nil_of_mem_orGroups {conditions : List Condition} (h : conditions ≠ []) :
    ∀ group ∈ orGroups conditions, group ≠ [] := by
  obtain ⟨closed, last, hgroups, _, hclosed, hlast⟩ := grouped_orGroups conditions
  intro group hgroup
  rw [hgroups] at hgroup
  cases List.mem_append.mp hgroup with
  | inl hmem => exact hclosed group hmem
  | inr hmem => exact List.mem_singleton.mp hmem ▸ fun hnil => h (hlast hnil)

/-- The analyzer's groups are the evaluator's. -/
theorem splitOrGroups_eq {conditions : List Condition} (h : conditions ≠ []) :
    splitOrGroups conditions = orGroups conditions := by
  rw [splitOrGroups, if_neg h, List.filter_eq_self]
  intro group hgroup
  simpa using ne_nil_of_mem_orGroups h group hgroup

end Groups

section Match

variable (ev : Evaluator) (ctx : StreamContext)

theorem foldl_groupMatched (group : List Condition) (matched : Bool) :
    group.foldl (fun groupMatched c => if c.evaluate ev ctx then groupMatched else false) matched =
      (matched && group.all fun c => c.evaluate ev ctx) := by
  induction group generalizing matched with
  | nil => simp
  | cons c group ih =>
    rw [List.foldl_cons, ih, List.all_cons]
    cases c.evaluate ev ctx <;> simp

/-- Pass 1 comes to what `evaluate_conditions` does, also of no conditions. -/
theorem matchedInPassOne_eq (conditions : List Condition) :
    matchedInPassOne ev ctx conditions = evaluateConditions ev ctx conditions := by
  have hfold : ∀ (groups : List (List Condition)) (matched : Bool),
      groups.foldl (fun matched group =>
        if group.foldl (fun groupMatched c => if c.evaluate ev ctx then groupMatched else false) true then true
        else matched) matched = (matched || groups.any fun group => group.all fun c => c.evaluate ev ctx) := by
    intro groups
    induction groups with
    | nil => simp
    | cons group groups ih =>
      intro matched
      rw [List.foldl_cons, ih, List.any_cons, foldl_groupMatched, Bool.true_and]
      cases group.all fun c => c.evaluate ev ctx <;> simp
  rw [matchedInPassOne, hfold, Bool.false_or, evaluateConditions]
  split
  · rename_i hnil
    subst hnil
    rfl
  · rfl

variable {ev ctx}

theorem evaluate_never {c : Condition} (h : c.isNever = true) : c.evaluate ev ctx = c.negate := by
  cases c with
  | compound op conditions connector negate => cases h
  | simple test caseSensitive connector negate =>
    cases test with
    | never => simp [Condition.evaluate, Test.holds, Condition.negate]
    | _ => cases h

/-- A group with a `never` that is not negated fails. -/
theorem group_fails {group : List Condition} (h : conditionsContainOnlyNever group = true)
    (hplain : ∀ c ∈ group, c.isNever = true → c.negate = false) :
    (group.all fun c => c.evaluate ev ctx) = false := by
  obtain ⟨c, hc, hnever⟩ := List.any_eq_true.mp h
  rw [List.all_eq_false]
  exact ⟨c, hc, by simp [evaluate_never hnever, hplain c hc hnever]⟩

end Match

section Sample

/-- Texts compared as they are, and no channels. -/
def plainEvaluator : Evaluator where
  existingChannels := []
  lower := id
  stripNumberPrefix := id
  expandDates _ text := text
  compiles _ := true
  search pattern _ value := pattern = value
  normalize := none

def plainContext : StreamContext := ⟨"news", none, none, none, none, none, none, 1, none⟩

end Sample

end ChannelManager.Pipeline.Conditions
