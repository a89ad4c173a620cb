import ChannelManager.Plans.MutationPlanStore
import Mathlib.Data.List.Induction
import Mathlib.Tactic.Linarith

/-!
# Runs of the plan store

Plans are stored in the order of their creation, so what pruning evicts is a prefix. A claim that
finds the store full evicts like a create does, and that is the only way a promise of the store
is broken.
-/

namespace ChannelManager.Plans

open Eff

variable {Payload : Type} {encoding : Encoding Payload} {calls : List (Call Payload)}

/-- Evicting the plans of the first entries leaves the other entries. -/
theorem evict_items (n : Nat) (plans : Store Payload)
    (hkeyed : ∀ e ∈ plans.items, e.1 = e.2.planId) :
    ((plans.values.take n).foldl (fun plans plan => plans.erase plan.planId) plans).items =
      plans.items.drop n := by
  induction n generalizing plans with
  | zero => simp
  | succ n ih =>
    obtain ⟨items, hnodup⟩ := plans
    cases items with
    | nil => simp [Dict.values]
    | cons e es =>
      have hhead : e.2.planId = e.1 := (hkeyed e (by simp)).symm
      have hrest := Dict.items_erase_head e es hnodup
      simp only [Dict.values, List.map_cons, List.take_succ_cons, List.foldl_cons, hhead,
        List.drop_succ_cons]
      have hvalues : es.map Prod.snd = ((⟨e :: es, hnodup⟩ : Store Payload).erase e.1).values := by
        rw [Dict.values, hrest]
      rw [hvalues, ih _ (by rw [hrest]; exact fun e' he' => hkeyed e' (by simp [he'])), hrest]

/-- Entries keyed by the plan's own id, the oldest plan first. -/
structure Ordered (plans : Store Payload) : Prop where
  keyed : ∀ e ∈ plans.items, e.1 = e.2.planId
  oldestFirst : plans.items.Pairwise fun e e' => e.2.createdAt ≤ e'.2.createdAt

theorem Ordered.of_sublist {plans plans' : Store Payload} (h : Ordered plans)
    (hsub : plans'.items.Sublist plans.items) : Ordered plans' where
  keyed e he := h.keyed e (hsub.subset he)
  oldestFirst := h.oldestFirst.sublist hsub

theorem live_sublist (now : ℚ) (plans : Store Payload) :
    (live now plans).items.Sublist plans.items :=
  List.filter_sublist

/-- Of an ordered store the pruned entries are the first unexpired ones. -/
theorem prune_items (now : ℚ) {plans : Store Payload} (h : Ordered plans) :
    (prune now plans).items =
      (live now plans).items.drop ((live now plans).items.length + 1 - planMaxEntries) := by
  have hlive := h.of_sublist (live_sublist now plans)
  have hsorted : (live now plans).values.insertionSort (fun p q => p.createdAt ≤ q.createdAt) =
      (live now plans).values := by
    apply List.Pairwise.insertionSort_eq
    exact List.pairwise_map.mpr hlive.oldestFirst
  unfold prune
  dsimp only
  rw [hsorted]
  split
  case isTrue hfull =>
    have hcount : (live now plans).items.length - planMaxEntries + 1 =
        (live now plans).items.length + 1 - planMaxEntries := by omega
    rw [evict_items _ _ hlive.keyed, hcount]
  case isFalse hroom =>
    have hnone : (live now plans).items.length + 1 - planMaxEntries = 0 := by omega
    rw [hnone, List.drop_zero]

theorem prune_sublist (now : ℚ) {plans : Store Payload} (h : Ordered plans) :
    (prune now plans).items.Sublist plans.items := by
  rw [prune_items now h]
  exact (List.drop_sublist _ _).trans (live_sublist now plans)

theorem length_prune (now : ℚ) {plans : Store Payload} (h : Ordered plans) :
    (prune now plans).items.length + 1 ≤ planMaxEntries := by
  have hpositive : 0 < planMaxEntries := by decide
  rw [prune_items now h, List.length_drop]
  omega

/-- A store with room loses only its expired plans. -/
theorem prune_of_room (now : ℚ) (plans : Store Payload)
    (hroom : (live now plans).items.length < planMaxEntries) : prune now plans = live now plans := by
  unfold prune
  exact if_neg (by omega)

theorem get?_live (now : ℚ) (plans : Store Payload) (planId : String) :
    (live now plans).get? planId =
      (plans.get? planId).filter fun plan => now < plan.expiresAt :=
  Dict.get?_filter _ _ _

/-- Whatever survives a pruning was there and has not expired. -/
theorem get?_prune {now : ℚ} {plans : Store Payload} (h : Ordered plans) {planId : String}
    {plan : MutationPlan Payload} (hget : (prune now plans).get? planId = some plan) :
    plans.get? planId = some plan ∧ now < plan.expiresAt := by
  rw [Dict.get?_eq_some, prune_items now h] at hget
  have hmem := List.mem_of_mem_drop hget
  rw [← Dict.get?_eq_some, get?_live, Option.filter_eq_some_iff] at hmem
  simpa using hmem

theorem consume_eq (now : ℚ) (planId operation payloadHash principal : String)
    (plans : Store Payload) : consume now planId operation payloadHash principal plans =
      (match (prune now plans).get? planId with
        | none => throw "plan is expired, unknown, or already consumed"
        | some plan => do
          if plan.operation ≠ operation then throw "plan operation does not match"
          if plan.payloadHash ≠ payloadHash then throw "plan hash does not match"
          if plan.principal ≠ principal then throw "plan principal does not match"
          modify fun plans => plans.erase planId
          pure plan : Eff (Store Payload) (MutationPlan Payload)) (prune now plans) := rfl

/-- The two ends of a claim. -/
theorem consume_cases (now : ℚ) (planId operation payloadHash principal : String)
    (plans : Store Payload) :
    (∃ error, consume now planId operation payloadHash principal plans =
        (.error error, prune now plans) ∧
      ∀ plan, (prune now plans).get? planId = some plan →
        ¬(operation = plan.operation ∧ payloadHash = plan.payloadHash ∧
          principal = plan.principal)) ∨
    ∃ plan, consume now planId operation payloadHash principal plans =
        (.ok plan, (prune now plans).erase planId) ∧
      (prune now plans).get? planId = some plan ∧ operation = plan.operation ∧
        payloadHash = plan.payloadHash ∧ principal = plan.principal := by
  rw [consume_eq]
  cases hget : (prune now plans).get? planId with
  | none => exact .inl ⟨_, rfl, by simp⟩
  | some plan =>
    by_cases hoperation : plan.operation = operation
    case neg =>
      refine .inl ⟨"plan operation does not match", by simp [hoperation]; rfl, ?_⟩
      rintro _ ⟨⟩ ⟨h, -, -⟩
      exact hoperation h.symm
    by_cases hhash : plan.payloadHash = payloadHash
    case neg =>
      refine .inl ⟨"plan hash does not match", by simp [hoperation, hhash]; rfl, ?_⟩
      rintro _ ⟨⟩ ⟨-, h, -⟩
      exact hhash h.symm
    by_cases hprincipal : plan.principal = principal
    case neg =>
      refine .inl ⟨"plan principal does not match", by simp [hoperation, hhash, hprincipal]; rfl, ?_⟩
      rintro _ ⟨⟩ ⟨-, -, h⟩
      exact hprincipal h.symm
    refine .inr ⟨plan, ?_, rfl, hoperation.symm, hhash.symm, hprincipal.symm⟩
    simp [hoperation, hhash, hprincipal]
    rfl

theorem Ordered.prune {plans : Store Payload} (h : Ordered plans) (now : ℚ) :
    Ordered (prune now plans) :=
  h.of_sublist (prune_sublist now h)

theorem Ordered.planId_eq {plans : Store Payload} (h : Ordered plans) {planId : String}
    {plan : MutationPlan Payload} (hget : plans.get? planId = some plan) : planId = plan.planId :=
  h.keyed _ ((Dict.get?_eq_some _ _ _).mp hget)

/-- What a call can do: refuse an oversized payload, make a plan, fail a claim, or consume. -/
theorem run_cases (encoding : Encoding Payload) (call : Call Payload) {plans : Store Payload}
    (h : Ordered plans) :
    (call.isConsume = false ∧ call.makes encoding = false ∧
      ∃ error, call.run encoding plans = (.error error, plans)) ∨
    (call.isConsume = false ∧ call.makes encoding ∧ ∃ plan, call.drawn? = some plan.planId ∧
      plan.createdAt = call.now ∧
      call.run encoding plans = (.ok plan, (prune call.now plans).set plan.planId plan)) ∨
    (call.isConsume ∧ call.makes encoding = false ∧ call.drawn? = none ∧
      ((∃ error, call.run encoding plans = (.error error, prune call.now plans) ∧
          ∀ plan, (prune call.now plans).get? plan.planId = some plan → ¬call.claims plan) ∨
        ∃ plan, call.run encoding plans = (.ok plan, (prune call.now plans).erase plan.planId) ∧
          (prune call.now plans).get? plan.planId = some plan ∧ call.claims plan)) := by
  obtain ⟨now, request⟩ := call
  cases request with
  | create planId operation payload stateHash principal =>
    by_cases hsize : planMaxBytes < encoding.encodedSize payload
    · refine .inl ⟨rfl, by simpa [Call.makes] using hsize,
        s!"mutation plan exceeds {planMaxBytes} byte limit", ?_⟩
      simp only [Call.run, create, hsize, if_true]
      rfl
    · let plan : MutationPlan Payload := MutationPlan.mk planId operation payload
        (encoding.canonicalHash payload) stateHash principal now (now + planTtlSeconds)
      refine .inr (.inl ⟨rfl, by simpa [Call.makes] using hsize, plan, rfl, rfl, ?_⟩)
      simp only [Call.run, create, hsize, if_false]
      rfl
  | consume planId operation payloadHash principal =>
    refine .inr (.inr ⟨rfl, rfl, rfl, ?_⟩)
    rcases consume_cases now planId operation payloadHash principal plans with
      ⟨error, hrun, hfail⟩ | ⟨plan, hrun, hget, hclaim⟩
    · refine .inl ⟨error, hrun, ?_⟩
      rintro plan hget ⟨hid, hclaim⟩
      exact hfail plan (hid ▸ hget) hclaim
    · have hid := (h.prune now).planId_eq hget
      exact .inr ⟨plan, hid ▸ hrun, hid ▸ hget, hid, hclaim⟩

@[simp] theorem storeAfter_nil (encoding : Encoding Payload) : storeAfter encoding [] = ∅ := rfl

theorem storeAfter_concat (calls : List (Call Payload)) (call : Call Payload) :
    storeAfter encoding (calls ++ [call]) = (call.run encoding (storeAfter encoding calls)).2 := by
  simp [storeAfter]

theorem Clocked.left {later : List (Call Payload)} (h : Clocked (calls ++ later)) :
    Clocked calls where
  clock := (List.pairwise_append.mp h.clock).1
  fresh := by
    have hfresh := h.fresh
    rw [List.filterMap_append] at hfresh
    exact (List.nodup_append.mp hfresh).1

/-- What every run keeps: an ordered, bounded store of plans that calls of the run created. -/
structure Tidy (encoding : Encoding Payload) (calls : List (Call Payload)) : Prop where
  ordered : Ordered (storeAfter encoding calls)
  bounded : (storeAfter encoding calls).items.length ≤ planMaxEntries
  drawn : ∀ e ∈ (storeAfter encoding calls).items, e.1 ∈ calls.filterMap Call.drawn?
  past : ∀ e ∈ (storeAfter encoding calls).items, ∃ call ∈ calls, e.2.createdAt = call.now
  created : ∀ e ∈ (storeAfter encoding calls).items, ∃ older made newer,
    calls = older ++ made :: newer ∧ Creates encoding older made e.2

/-- A call that only removes plans keeps the store tidy. -/
theorem Tidy.of_sublist {call : Call Payload} (h : Tidy encoding calls)
    (hsub : (storeAfter encoding (calls ++ [call])).items.Sublist
      (storeAfter encoding calls).items) : Tidy encoding (calls ++ [call]) where
  ordered := h.ordered.of_sublist hsub
  bounded := hsub.length_le.trans h.bounded
  drawn e he := by
    rw [List.filterMap_append]
    exact List.mem_append_left _ (h.drawn e (hsub.subset he))
  past e he := by
    obtain ⟨c, hc, hnow⟩ := h.past e (hsub.subset he)
    exact ⟨c, List.mem_append_left _ hc, hnow⟩
  created e he := by
    obtain ⟨older, made, newer, rfl, hmade⟩ := h.created e (hsub.subset he)
    exact ⟨older, made, newer ++ [call], by simp, hmade⟩

/-- A create appends its plan to what pruning left. -/
theorem Tidy.create {call : Call Payload} {plan : MutationPlan Payload} (h : Tidy encoding calls)
    (hclocked : Clocked (calls ++ [call])) (hcall : call.isConsume = false)
    (hdrawn : call.drawn? = some plan.planId) (hnow : plan.createdAt = call.now)
    (hrun : call.run encoding (storeAfter encoding calls) =
      (.ok plan, (prune call.now (storeAfter encoding calls)).set plan.planId plan)) :
    (storeAfter encoding (calls ++ [call])).items =
        (prune call.now (storeAfter encoding calls)).items ++ [(plan.planId, plan)] ∧
      Tidy encoding (calls ++ [call]) := by
  have hsub := prune_sublist call.now h.ordered
  have hfresh : plan.planId ∉ calls.filterMap Call.drawn? := by
    intro hmem
    have hnodup := hclocked.fresh
    rw [List.filterMap_append, List.nodup_append] at hnodup
    exact hnodup.2.2 _ hmem plan.planId (by simp [hdrawn]) rfl
  have hnew : plan.planId ∉ prune call.now (storeAfter encoding calls) := by
    intro hmem
    obtain ⟨e, he, heq⟩ := List.mem_map.mp hmem
    exact hfresh (heq ▸ h.drawn e (hsub.subset he))
  have hitems : (storeAfter encoding (calls ++ [call])).items =
      (prune call.now (storeAfter encoding calls)).items ++ [(plan.planId, plan)] := by
    rw [storeAfter_concat, hrun]
    exact Dict.items_set_of_not_mem _ plan hnew
  refine ⟨hitems, ?_⟩
  constructor
  case ordered =>
    constructor
    · intro e he
      rw [hitems, List.mem_append, List.mem_singleton] at he
      rcases he with he | rfl
      · exact h.ordered.keyed e (hsub.subset he)
      · rfl
    · rw [hitems, List.pairwise_append]
      refine ⟨(h.ordered.prune call.now).oldestFirst, List.pairwise_singleton _ _, ?_⟩
      intro e he e' he'
      obtain rfl := List.mem_singleton.mp he'
      obtain ⟨c, hc, hpast⟩ := h.past e (hsub.subset he)
      have hclock := (List.pairwise_append.mp hclocked.clock).2.2 c hc call (by simp)
      rw [hpast, hnow]
      exact hclock
  case bounded =>
    rw [hitems, List.length_append, List.length_singleton]
    exact length_prune call.now h.ordered
  case drawn =>
    intro e he
    rw [hitems, List.mem_append, List.mem_singleton] at he
    rw [List.filterMap_append, List.mem_append]
    rcases he with he | rfl
    · exact .inl (h.drawn e (hsub.subset he))
    · exact .inr (by simp [hdrawn])
  case past =>
    intro e he
    rw [hitems, List.mem_append, List.mem_singleton] at he
    rcases he with he | rfl
    · obtain ⟨c, hc, hpast⟩ := h.past e (hsub.subset he)
      exact ⟨c, List.mem_append_left _ hc, hpast⟩
    · exact ⟨call, by simp, hnow⟩
  case created =>
    intro e he
    rw [hitems, List.mem_append, List.mem_singleton] at he
    rcases he with he | rfl
    · obtain ⟨older, made, newer, rfl, hmade⟩ := h.created e (hsub.subset he)
      exact ⟨older, made, newer ++ [call], by simp, hmade⟩
    · exact ⟨calls, call, [], rfl, hcall, by rw [answer, hrun]⟩

theorem erase_sublist (plans : Store Payload) (planId : String) :
    (plans.erase planId).items.Sublist plans.items :=
  List.filter_sublist

/-- Every run leaves a tidy store. -/
theorem tidy_of_clocked (h : Clocked calls) : Tidy encoding calls := by
  induction calls using List.reverseRecOn with
  | nil => constructor <;> first | exact ⟨by simp, by simp⟩ | simp
  | append_singleton calls call ih =>
    have htidy := ih h.left
    rcases run_cases encoding call htidy.ordered with
      ⟨-, -, error, hrun⟩ | ⟨hcall, -, plan, hdrawn, hnow, hrun⟩ |
      ⟨-, -, -, ⟨error, hrun, -⟩ | ⟨plan, hrun, -⟩⟩
    · apply htidy.of_sublist
      rw [storeAfter_concat, hrun]
    · exact (htidy.create h hcall hdrawn hnow hrun).2
    · apply htidy.of_sublist
      rw [storeAfter_concat, hrun]
      exact prune_sublist call.now htidy.ordered
    · apply htidy.of_sublist
      rw [storeAfter_concat, hrun]
      exact (erase_sublist _ _).trans (prune_sublist call.now htidy.ordered)

/-- What a claim that succeeds found and left. -/
theorem Consumes.spec {call : Call Payload} {plan : MutationPlan Payload}
    (h : Ordered (storeAfter encoding calls)) (hconsumes : Consumes encoding calls call plan) :
    (prune call.now (storeAfter encoding calls)).get? plan.planId = some plan ∧
      call.claims plan ∧ storeAfter encoding (calls ++ [call]) =
        (prune call.now (storeAfter encoding calls)).erase plan.planId := by
  obtain ⟨hclaim, hanswer⟩ := hconsumes
  rw [storeAfter_concat]
  rcases run_cases encoding call h with
    ⟨hcall, -⟩ | ⟨hcall, -⟩ | ⟨-, -, -, ⟨error, hrun, -⟩ | ⟨plan', hrun, hget, hclaims⟩⟩
  · rw [hcall] at hclaim
    contradiction
  · rw [hcall] at hclaim
    contradiction
  · rw [answer, hrun] at hanswer
    cases hanswer
  · rw [answer, hrun] at hanswer
    obtain rfl : plan' = plan := by simpa using hanswer
    exact ⟨hget, hclaims, by rw [hrun]⟩

/-- A claim that fails only prunes. -/
theorem storeAfter_of_fails {call : Call Payload} {error : String}
    (h : Ordered (storeAfter encoding calls)) (hclaim : call.isConsume)
    (hfails : answer encoding calls call = .error error) :
    storeAfter encoding (calls ++ [call]) = prune call.now (storeAfter encoding calls) := by
  rw [storeAfter_concat]
  rcases run_cases encoding call h with
    ⟨hcall, -⟩ | ⟨hcall, -⟩ | ⟨-, -, -, ⟨error', hrun, -⟩ | ⟨plan, hrun, -⟩⟩
  · rw [hcall] at hclaim
    contradiction
  · rw [hcall] at hclaim
    contradiction
  · rw [hrun]
  · rw [answer, hrun] at hfails
    cases hfails

/-- A plan id that was drawn and is no longer stored never comes back. -/
theorem not_mem_of_gone {later : List (Call Payload)} (h : Clocked (calls ++ later))
    {planId : String} (hdrawn : planId ∈ calls.filterMap Call.drawn?)
    (hgone : planId ∉ storeAfter encoding calls) :
    planId ∉ storeAfter encoding (calls ++ later) := by
  induction later using List.reverseRecOn with
  | nil => simpa using hgone
  | append_singleton later call ih =>
    rw [← List.append_assoc] at h ⊢
    have hbefore := ih h.left
    have htidy : Tidy encoding (calls ++ later) := tidy_of_clocked h.left
    have hkeys : ∀ plans : Store Payload,
        plans.items.Sublist (storeAfter encoding (calls ++ later)).items → planId ∉ plans :=
      fun plans hsub hmem => hbefore ((hsub.map Prod.fst).subset hmem)
    rcases run_cases encoding call htidy.ordered with
      ⟨-, -, error, hrun⟩ | ⟨hcall, -, plan, hid, hnow, hrun⟩ |
      ⟨-, -, -, ⟨error, hrun, -⟩ | ⟨plan, hrun, -⟩⟩
    · rw [storeAfter_concat, hrun]
      exact hbefore
    · have hne : planId ≠ plan.planId := by
        intro heq
        have hfresh := h.fresh
        rw [List.filterMap_append, List.nodup_append] at hfresh
        refine hfresh.2.2 planId ?_ plan.planId (by simp [hid]) heq
        rw [List.filterMap_append]
        exact List.mem_append_left _ hdrawn
      rw [storeAfter_concat, hrun, Dict.mem_set]
      rintro (heq | hmem)
      · exact hne heq
      · exact hkeys _ (prune_sublist call.now htidy.ordered) hmem
    · rw [storeAfter_concat, hrun]
      exact hkeys _ (prune_sublist call.now htidy.ordered)
    · rw [storeAfter_concat, hrun]
      exact hkeys _ ((erase_sublist _ _).trans (prune_sublist call.now htidy.ordered))

/-- The plan is stored and at most `n` plans are newer. -/
def Kept (plan : MutationPlan Payload) (n : Nat) (plans : Store Payload) : Prop :=
  ∃ older newer, plans.items = older ++ (plan.planId, plan) :: newer ∧ newer.length ≤ n

theorem Kept.get? {plan : MutationPlan Payload} {n : Nat} {plans : Store Payload}
    (h : Kept plan n plans) : plans.get? plan.planId = some plan := by
  obtain ⟨older, newer, hitems, -⟩ := h
  rw [Dict.get?_eq_some, hitems]
  simp

theorem Kept.live {plan : MutationPlan Payload} {n : Nat} {plans : Store Payload} {now : ℚ}
    (h : Kept plan n plans) (hnow : now < plan.expiresAt) : Kept plan n (live now plans) := by
  obtain ⟨older, newer, hitems, hn⟩ := h
  refine ⟨older.filter fun e => now < e.2.expiresAt, newer.filter fun e => now < e.2.expiresAt,
    ?_, (List.length_filter_le _ _).trans hn⟩
  simp [Plans.live, Dict.filter, hitems, hnow]

/-- Pruning for one more plan keeps a plan that less than a storeful is newer than. -/
theorem Kept.prune {plan : MutationPlan Payload} {n : Nat} {plans : Store Payload} {now : ℚ}
    (h : Kept plan n plans) (hordered : Ordered plans) (hnow : now < plan.expiresAt)
    (hn : n + 1 < planMaxEntries) : Kept plan n (prune now plans) := by
  obtain ⟨older, newer, hitems, hnewer⟩ := h.live hnow
  have hlength : (Plans.live now plans).items.length = older.length + (newer.length + 1) := by
    rw [hitems, List.length_append, List.length_cons]
  refine ⟨older.drop ((Plans.live now plans).items.length + 1 - planMaxEntries), newer, ?_, hnewer⟩
  rw [prune_items now hordered]
  nth_rewrite 2 [hitems]
  rw [List.drop_append_of_le_length (by omega)]

/-- Erasing another plan keeps the plan. -/
theorem Kept.erase {plan : MutationPlan Payload} {n : Nat} {plans : Store Payload}
    (h : Kept plan n plans) {planId : String} (hne : plan.planId ≠ planId) :
    Kept plan n (plans.erase planId) := by
  obtain ⟨older, newer, hitems, hn⟩ := h
  refine ⟨older.filter fun e => e.1 ≠ planId, newer.filter fun e => e.1 ≠ planId, ?_,
    (List.length_filter_le _ _).trans hn⟩
  simp [Dict.erase, Dict.filter, hitems, hne]

/-- Every claim of the run finds room in the store. -/
def Roomy (encoding : Encoding Payload) (calls : List (Call Payload)) : Prop :=
  ∀ earlier claim rest, calls = earlier ++ claim :: rest → claim.isConsume →
    RoomFor encoding earlier claim

theorem Roomy.left {later : List (Call Payload)} (h : Roomy encoding (calls ++ later)) :
    Roomy encoding calls := by
  rintro earlier claim rest rfl hclaim
  exact h earlier claim (rest ++ later) (by simp) hclaim

/-- A plan made in a roomy run stays in the store while it is neither expired, nor consumed, nor
superseded by a storeful of other plans. -/
theorem kept_after {earlier middle : List (Call Payload)} {made : Call Payload}
    {plan : MutationPlan Payload} (h : Clocked (earlier ++ made :: middle))
    (hroomy : Roomy encoding (earlier ++ made :: middle)) (hmade : Creates encoding earlier made plan)
    (hfew : middle.countP (Call.makes encoding) < planMaxEntries)
    (hfree : ∀ older taken newer, middle = older ++ taken :: newer →
      ¬Consumes encoding (earlier ++ made :: older) taken plan)
    (htime : ∀ call ∈ middle, call.now < plan.expiresAt) :
    Kept plan (middle.countP (Call.makes encoding))
      (storeAfter encoding (earlier ++ made :: middle)) := by
  induction middle using List.reverseRecOn with
  | nil =>
    have htidy : Tidy encoding earlier := tidy_of_clocked h.left
    obtain ⟨hcall, hanswer⟩ := hmade
    rcases run_cases encoding made htidy.ordered with
      ⟨-, -, error, hrun⟩ | ⟨hcall, -, plan', hid, hnow, hrun⟩ | ⟨hclaim, -⟩
    · rw [answer, hrun] at hanswer
      cases hanswer
    · rw [answer, hrun] at hanswer
      obtain rfl : plan' = plan := by simpa using hanswer
      have hitems := (htidy.create h hcall hid hnow hrun).1
      exact ⟨_, [], hitems, le_rfl⟩
    · rw [hcall] at hclaim
      contradiction
  | append_singleton middle call ih =>
    have hsplit : earlier ++ made :: (middle ++ [call]) = (earlier ++ made :: middle) ++ [call] := by
      simp
    rw [hsplit] at h hroomy
    rw [hsplit, List.countP_append]
    rw [List.countP_append] at hfew
    have hkept := ih h.left hroomy.left (by omega)
      (fun older taken newer heq => hfree older taken (newer ++ [call]) (by simp [heq]))
      (fun c hc => htime c (by simp [hc]))
    have htidy : Tidy encoding (earlier ++ made :: middle) := tidy_of_clocked h.left
    have hnow : call.now < plan.expiresAt := htime call (by simp)
    rcases run_cases encoding call htidy.ordered with
      ⟨-, hmakes, error, hrun⟩ | ⟨hcall, hmakes, plan', hid, hnew, hrun⟩ |
      ⟨hclaim, hmakes, -, hrun⟩
    · rw [storeAfter_concat, hrun]
      simpa [hmakes] using hkept
    · have hone : [call].countP (Call.makes encoding) = 1 := by simp [hmakes]
      rw [hone] at hfew ⊢
      have hitems := (htidy.create h hcall hid hnew hrun).1
      obtain ⟨older, newer, hprune, hnewer⟩ := hkept.prune htidy.ordered hnow hfew
      refine ⟨older, newer ++ [(plan'.planId, plan')], ?_, ?_⟩
      · rw [hitems, hprune]
        simp
      · rw [List.length_append, List.length_singleton]
        omega
    · have hroom := hroomy _ call [] rfl hclaim
      have hlive := hkept.live hnow
      have hzero : [call].countP (Call.makes encoding) = 0 := by simp [hmakes]
      rw [storeAfter_concat, hzero, Nat.add_zero]
      rcases hrun with ⟨error, hrun, -⟩ | ⟨plan', hrun, hget, hclaims⟩
      · rw [hrun, prune_of_room _ _ hroom]
        exact hlive
      · rw [hrun, prune_of_room _ _ hroom]
        apply hlive.erase
        intro heq
        rw [prune_of_room _ _ hroom, ← heq, hlive.get?] at hget
        obtain rfl : plan = plan' := by simpa using hget
        exact hfree middle call [] rfl ⟨hclaim, by rw [answer, hrun]⟩

/-- A claim that fails costs no unexpired plan exactly when it finds room. -/
theorem fails_intact_iff (h : Clocked calls) {claim : Call Payload} {error : String}
    (hclaim : claim.isConsume) (hfails : answer encoding calls claim = .error error) :
    (∀ planId plan, (storeAfter encoding calls).get? planId = some plan →
      claim.now < plan.expiresAt →
      (storeAfter encoding (calls ++ [claim])).get? planId = some plan) ↔
      RoomFor encoding calls claim := by
  have htidy : Tidy encoding calls := tidy_of_clocked h
  rw [storeAfter_of_fails htidy.ordered hclaim hfails]
  constructor
  · intro hintact
    by_contra hfull
    unfold RoomFor at hfull
    have hpositive : 0 < planMaxEntries := by decide
    have hitems := prune_items claim.now htidy.ordered
    cases hlive : (live claim.now (storeAfter encoding calls)).items with
    | nil =>
      rw [hlive, List.length_nil] at hfull
      exact hfull hpositive
    | cons e es =>
      -- The oldest unexpired plan is the first one evicted.
      have hunexpired : (live claim.now (storeAfter encoding calls)).get? e.1 = some e.2 := by
        rw [Dict.get?_eq_some, hlive]
        simp
      rw [get?_live, Option.filter_eq_some_iff] at hunexpired
      have hstill := hintact e.1 e.2 hunexpired.1 (by simpa using hunexpired.2)
      have hnodup := (live claim.now (storeAfter encoding calls)).nodup_keys
      rw [Dict.get?_eq_some, hitems, hlive] at hstill
      rw [hlive, List.length_cons] at hfull
      rw [List.length_cons, show es.length + 1 + 1 - planMaxEntries =
        es.length + 1 - planMaxEntries + 1 by omega, List.drop_succ_cons] at hstill
      rw [hlive] at hnodup
      exact (List.nodup_cons.mp hnodup).1 (List.mem_map_of_mem (List.mem_of_mem_drop hstill))
  · intro hroom planId plan hget hnow
    rw [prune_of_room _ _ hroom, get?_live, hget]
    simp [hnow]

/-- A claim takes the plan from a store that holds it unexpired. -/
theorem Consumes.taken {call : Call Payload} {plan : MutationPlan Payload}
    (h : Ordered (storeAfter encoding calls)) (hconsumes : Consumes encoding calls call plan) :
    (storeAfter encoding calls).get? plan.planId = some plan ∧ call.now < plan.expiresAt ∧
      plan.planId ∉ storeAfter encoding (calls ++ [call]) := by
  obtain ⟨hget, -, hafter⟩ := hconsumes.spec h
  obtain ⟨hstored, hnow⟩ := get?_prune h hget
  refine ⟨hstored, hnow, ?_⟩
  rw [← Dict.get?_eq_none, hafter, Dict.get?_erase, if_pos rfl]

theorem consumed_once (h : Clocked calls) {earlier middle rest : List (Call Payload)}
    {claim claim' : Call Payload} {plan plan' : MutationPlan Payload}
    (hcalls : calls = earlier ++ claim :: (middle ++ claim' :: rest))
    (hfirst : Consumes encoding earlier claim plan)
    (hsecond : Consumes encoding (earlier ++ claim :: middle) claim' plan') :
    plan.planId ≠ plan'.planId := by
  have hrun : calls = (earlier ++ [claim]) ++ middle ++ (claim' :: rest) := by simp [hcalls]
  rw [hrun] at h
  have hmiddle : earlier ++ claim :: middle = (earlier ++ [claim]) ++ middle := by simp
  rw [hmiddle] at hsecond
  have hearlier : Tidy encoding earlier := tidy_of_clocked h.left.left.left
  have hlater : Tidy encoding (earlier ++ [claim] ++ middle) := tidy_of_clocked h.left
  obtain ⟨hstored, -, hgone⟩ := hfirst.taken hearlier.ordered
  have hdrawn : plan.planId ∈ (earlier ++ [claim]).filterMap Call.drawn? := by
    rw [List.filterMap_append]
    exact List.mem_append_left _ (hearlier.drawn _ ((Dict.get?_eq_some _ _ _).mp hstored))
  have hnever := not_mem_of_gone h.left hdrawn hgone
  intro heq
  apply hnever
  rw [heq, ← Dict.isSome_get?, (hsecond.taken hlater.ordered).1]
  rfl

/-- In a roomy run the owner's claim on a live plan succeeds. -/
theorem claim_succeeds (h : Clocked calls) (hroomy : Roomy encoding calls)
    {earlier middle rest : List (Call Payload)} {made claim : Call Payload}
    {plan : MutationPlan Payload}
    (hcalls : calls = earlier ++ made :: (middle ++ claim :: rest))
    (hmade : Creates encoding earlier made plan)
    (hfew : middle.countP (Call.makes encoding) < planMaxEntries)
    (hfree : ∀ older taken newer, middle = older ++ taken :: newer →
      ¬Consumes encoding (earlier ++ made :: older) taken plan)
    (hclaims : claim.claims plan) (hnow : claim.now < plan.expiresAt) :
    Consumes encoding (earlier ++ made :: middle) claim plan := by
  have hrun : calls = (earlier ++ made :: middle) ++ claim :: rest := by simp [hcalls]
  rw [hrun] at h hroomy
  have htime : ∀ call ∈ middle, call.now < plan.expiresAt := by
    intro call hcall
    have hclock := (List.pairwise_append.mp h.clock).2.2 call (by simp [hcall]) claim (by simp)
    exact hclock.trans_lt hnow
  have hkept := (kept_after h.left hroomy.left hmade hfew hfree htime).live hnow
  have hclaim : claim.isConsume := by
    obtain ⟨now, request⟩ := claim
    cases request with
    | create => exact hclaims.elim
    | consume => rfl
  have hroom := hroomy _ claim rest rfl hclaim
  have htidy : Tidy encoding (earlier ++ made :: middle) := tidy_of_clocked h.left
  refine ⟨hclaim, ?_⟩
  rcases run_cases encoding claim htidy.ordered with
    ⟨hcall, -⟩ | ⟨hcall, -⟩ | ⟨-, -, -, ⟨error, -, hfail⟩ | ⟨plan', hrun', hget, hclaims'⟩⟩
  · rw [hcall] at hclaim
    contradiction
  · rw [hcall] at hclaim
    contradiction
  · rw [prune_of_room _ _ hroom] at hfail
    exact (hfail plan hkept.get? hclaims).elim
  · have hid : plan'.planId = plan.planId := by
      obtain ⟨now, request⟩ := claim
      cases request with
      | create => exact hclaims.elim
      | consume => exact hclaims'.1.symm.trans hclaims.1
    rw [prune_of_room _ _ hroom, hid, hkept.get?] at hget
    obtain rfl : plan = plan' := by simpa using hget
    rw [answer, hrun']

/-- The store keeps its promises in every run whose claims find room; and where it keeps them,
the claims that failed did find room. -/
theorem serves_of_roomy (h : Clocked calls) :
    (Roomy encoding calls → Serves encoding calls) ∧
      (Serves encoding calls → ∀ earlier claim rest error, calls = earlier ++ claim :: rest →
        claim.isConsume → answer encoding earlier claim = .error error →
        RoomFor encoding earlier claim) := by
  constructor
  · intro hroomy
    constructor
    case once =>
      intro earlier claim middle claim' rest plan plan' hcalls hfirst hsecond
      exact consumed_once h hcalls hfirst hsecond
    case owned =>
      rintro earlier claim rest plan rfl hconsumes
      have htidy : Tidy encoding earlier := tidy_of_clocked h.left
      obtain ⟨hstored, hnow, -⟩ := hconsumes.taken htidy.ordered
      exact ⟨(hconsumes.spec htidy.ordered).2.1, hnow,
        htidy.created _ ((Dict.get?_eq_some _ _ _).mp hstored)⟩
    case bounded =>
      rintro earlier rest rfl
      exact (tidy_of_clocked h.left).bounded
    case intact =>
      rintro earlier claim rest error rfl hclaim hfails
      exact (fails_intact_iff h.left hclaim hfails).mpr (hroomy earlier claim rest rfl hclaim)
    case claimable =>
      intro earlier made middle claim rest plan hcalls hmade hfew hfree hclaims hnow
      exact claim_succeeds h hroomy hcalls hmade hfew hfree hclaims hnow
  · rintro hserves earlier claim rest error rfl hclaim hfails
    exact (fails_intact_iff h.left hclaim hfails).mp
      (hserves.intact earlier claim rest error rfl hclaim hfails)

/-- Payloads of text, their own encoding. -/
def plainText : Encoding String where
  encodedSize := String.utf8ByteSize
  canonicalHash := id

/-- A client makes the `n`-th of a series of plans. -/
def makeNth (n : Nat) : Call String :=
  { now := 0, request := .create (toString n) "logos" "payload" "state" "api" }

/-- A storeful of plans, all made at one moment. -/
def storeful : List (Call String) := (List.range planMaxEntries).map makeNth

/-- The owner claims the first plan of the series, one second later. -/
def ownerClaim : Call String := { now := 1, request := .consume "0" "logos" "payload" "api" }

theorem clocked_storeful : Clocked (storeful ++ [ownerClaim]) where
  clock := by
    have hnow : ∀ call ∈ storeful, call.now = 0 := by
      intro call hcall
      obtain ⟨n, -, rfl⟩ := List.mem_map.mp hcall
      rfl
    rw [List.pairwise_append]
    refine ⟨List.pairwise_of_forall_mem_list ?_, List.pairwise_singleton _ _, ?_⟩
    · intro c hc d hd
      rw [hnow c hc, hnow d hd]
    · intro c hc d hd
      rw [hnow c hc, List.mem_singleton.mp hd]
      decide
  fresh := by
    have hspelled : Function.Injective (toString : Nat → String) := by
      intro m n h
      have hdigits : m.repr.toList = n.repr.toList := congrArg String.toList h
      rw [Nat.toList_repr, Nat.toList_repr] at hdigits
      rw [← Nat.ofDigitChars_ten_toDigits (n := m), hdigits, Nat.ofDigitChars_ten_toDigits]
    have hdrawn : (storeful ++ [ownerClaim]).filterMap Call.drawn? =
        (List.range planMaxEntries).map toString := by
      rw [List.filterMap_append, storeful, List.filterMap_map, ← List.filterMap_eq_map]
      exact List.append_nil _
    rw [hdrawn]
    exact List.nodup_range.map hspelled

theorem serves_of_roomy_three :
    Serves plainText [makeNth 0, makeNth 1, ownerClaim] := by
  have hclocked : Clocked [makeNth 0, makeNth 1, ownerClaim] :=
    ⟨by decide +kernel, by decide +kernel⟩
  apply (serves_of_roomy hclocked).1
  rintro earlier claim rest hcalls hclaim
  have hinitial : earlier ++ claim :: rest = [makeNth 0, makeNth 1, ownerClaim] := hcalls.symm
  rcases earlier with _ | ⟨c, _ | ⟨d, _ | ⟨e, earlier⟩⟩⟩
  · obtain ⟨rfl, -⟩ : claim = makeNth 0 ∧ rest = [makeNth 1, ownerClaim] := by
      simpa using hinitial
    contradiction
  · obtain ⟨rfl, rfl, -⟩ : c = makeNth 0 ∧ claim = makeNth 1 ∧ rest = [ownerClaim] := by
      simpa using hinitial
    contradiction
  · obtain ⟨rfl, rfl, rfl, -⟩ : c = makeNth 0 ∧ d = makeNth 1 ∧ claim = ownerClaim ∧ rest = [] := by
      simpa using hinitial
    unfold RoomFor
    decide +kernel
  · simp at hinitial

/-- The owner of the oldest plan of a full store comes in time and is turned away: the claim
itself evicts the plan. -/
theorem full_store_evicts_claimed :
    Clocked (storeful ++ [ownerClaim]) ∧ ¬Serves plainText (storeful ++ [ownerClaim]) := by
  constructor
  · exact clocked_storeful
  · intro hserves
    -- the three in one, so that the store is filled once
    have hstore : ((storeAfter plainText storeful).get? "0").any
          (fun plan : MutationPlan String => decide (ownerClaim.now < plan.expiresAt)) = true ∧
        answer plainText storeful ownerClaim =
          .error "plan is expired, unknown, or already consumed" ∧
        (ownerClaim.run plainText (storeAfter plainText storeful)).2.get? "0" = none := by
      decide +kernel
    obtain ⟨hheld, hfails, hgone⟩ := hstore
    obtain ⟨plan, hfind, hplan⟩ := (Option.any_eq_true _ _).mp hheld
    have hstill := hserves.intact storeful ownerClaim [] _ rfl rfl hfails "0" plan hfind
      (of_decide_eq_true hplan)
    rw [storeAfter_concat] at hstill
    rw [hgone] at hstill
    cases hstill

end ChannelManager.Plans
