import ChannelManager.EditMode.NumberPlan
import ChannelManager.Bulk.NumberPlan
import ChannelManager.Numbering.Preflight

/-!
# Browser and server preflights agree

Both halves materialise the same placements from the same operations: a simulation of the two
folds, step by step. Both then run the same check on them, so they raise the same issues.
-/

namespace ChannelManager.EditMode

/-! ## On the tenths grid the two roundings are one -/

theorem mathRound_intCast (n : ℤ) : mathRound n = n := by
  rw [mathRound, Int.floor_eq_iff]
  constructor <;> norm_num

theorem slotKey_eq_of_isTenths {q : ℚ} (h : IsTenths q) : slotKey q = ChannelManager.slotKey q := by
  obtain ⟨k, hk⟩ := h
  have hticks : q * channelNumberTicksPerUnit = k := hk
  rw [slotKey, ChannelManager.slotKey, hticks, mathRound_intCast, roundHalfEven_intCast]

theorem isValidChannelNumber_eq_of_isTenths {q : ℚ} (h : IsTenths q) :
    isValidChannelNumber q = ChannelManager.isValidChannelNumber q := by
  obtain ⟨k, hk⟩ := h
  have hticks : q * channelNumberTicksPerUnit = k := hk
  rw [isValidChannelNumber, ChannelManager.isValidChannelNumber, hticks, mathRound_intCast,
    roundHalfEven_intCast]

theorem isTenths_add_natCast {q : ℚ} (h : IsTenths q) (n : ℕ) : IsTenths (q + n) := by
  obtain ⟨k, hk⟩ := h
  refine ⟨k + 10 * n, ?_⟩
  push_cast
  rw [← hk]
  ring

theorem isTenths_one : IsTenths 1 := ⟨10, by norm_num⟩

/-! ## The browser's check is the preflight -/

def browserReader : PlacementReader NumberPlacement where
  channelId := NumberPlacement.channelId
  number := NumberPlacement.number
  slot p := p.number.map slotKey
  placed := NumberPlacement.placed
  arrival := NumberPlacement.placedAtIndex
  consents s p c := match p.acknowledgement with
    | none => false
    | some a => decide (a.slot = s) && decide (c ∈ a.occupantIds)
  valid p := p.number.elim true isValidChannelNumber
  operations := NumberPlacement.placedByOperationIds

def NumberingPlanIssue.view (issue : NumberingPlanIssue) : IssueView where
  type := issue.type
  slot := some (slotKey issue.channelNumber)
  channelIds := issue.channelIds.toFinset
  operations := issue.operationIds.toFinset

theorem view_invalidPlacementIssue (p : NumberPlacement) :
    (invalidPlacementIssue p).map NumberingPlanIssue.view = browserReader.invalidView p := by
  cases hn : p.number with
  | none => simp [invalidPlacementIssue, hn, PlacementReader.invalidView, PlacementReader.refused,
      browserReader]
  | some n =>
    by_cases hp : p.placed
    · by_cases hv : isValidChannelNumber n
      · simp [invalidPlacementIssue, hn, hp, hv, PlacementReader.invalidView,
          PlacementReader.refused, browserReader]
      · simp [invalidPlacementIssue, hn, hp, hv, PlacementReader.invalidView,
          PlacementReader.refused, browserReader, NumberingPlanIssue.view]
    · simp [invalidPlacementIssue, hn, hp, PlacementReader.invalidView, PlacementReader.refused,
        browserReader]

theorem isNone_invalidPlacementIssue (p : NumberPlacement) :
    (invalidPlacementIssue p).isNone = !browserReader.refused p := by
  have h := congrArg Option.isNone (view_invalidPlacementIssue p)
  rw [Option.isNone_map] at h
  rw [h, PlacementReader.invalidView]
  cases browserReader.refused p <;> rfl

theorem planConsented_eq_all (slot : SlotKey) (standing : List ℤ) (p : NumberPlacement) :
    planConsented slot standing p = standing.all (browserReader.consents slot p) := by
  cases standing with
  | nil => rfl
  | cons c cs =>
    cases hack : p.acknowledgement with
    | none => simp [planConsented, browserReader, hack]
    | some a =>
      by_cases hs : a.slot = slot
      · simp [planConsented, browserReader, hack, hs]
      · simp [planConsented, browserReader, hack, hs]

theorem accidentalPlacements_eq_accidental (slot : SlotKey) (standing : List ℤ)
    (ps : List NumberPlacement) :
    accidentalPlacements slot standing ps = browserReader.accidental slot standing ps := by
  induction ps generalizing standing with
  | nil => rfl
  | cons p ps ih =>
    simp only [accidentalPlacements, PlacementReader.accidental, ih, planConsented_eq_all]
    rfl

theorem view_duplicatePlacementIssue (slot : SlotKey) (occupants : List NumberPlacement)
    (hslot : ∀ p ∈ occupants, p.number.map slotKey = some slot) :
    (duplicatePlacementIssue slot occupants).map NumberingPlanIssue.view =
      browserReader.duplicateView slot occupants := by
  have hacc : accidentalPlacements slot ((occupants.filter fun p => !p.placed).map (·.channelId))
      ((occupants.filter (·.placed)).insertionSort
        fun p q => p.placedAtIndex ≤ q.placedAtIndex) = browserReader.accidentalOn slot occupants :=
    accidentalPlacements_eq_accidental _ _ _
  unfold duplicatePlacementIssue PlacementReader.duplicateView
  split
  · rfl
  · simp only [hacc]
    cases hcase : browserReader.accidentalOn slot occupants with
    | nil => rfl
    | cons first rest =>
      have hmem := (mem_of_mem_accidentalOn (hcase ▸ List.mem_cons_self)).1
      obtain ⟨n, hn, hkey⟩ := Option.map_eq_some_iff.mp (hslot first hmem)
      simp only [Option.map_some, NumberingPlanIssue.view, hn, Option.getD_some, hkey]
      congr 2
      ext i
      simp only [List.mem_toFinset, List.mem_eraseDups]
      rfl

theorem view_validateFinalNumberingPlan (ps : List NumberPlacement) :
    (validateFinalNumberingPlan ps).map NumberingPlanIssue.view = browserReader.verdict ps := by
  have hbucket : bucketPlacement = bucketOf browserReader.slot := by
    funext bySlot p
    cases hn : p.number <;> simp [bucketPlacement, bucketOf, browserReader, hn]
  have hfilter : (ps.filter fun p => (invalidPlacementIssue p).isNone) =
      ps.filter fun p => !browserReader.refused p := by
    apply List.filter_congr
    intro p _
    rw [isNone_invalidPlacementIssue]
  simp only [validateFinalNumberingPlan, PlacementReader.verdict, List.map_append,
    List.map_filterMap, view_invalidPlacementIssue, hbucket, hfilter]
  congr 1
  apply List.filterMap_congr
  intro e he
  apply view_duplicatePlacementIssue
  intro p hp
  exact slot_of_mem_bucketOf _ _ he hp

/-! ## The two materialisers -/

def isNumberingCall : ApiCallSpec → Bool
  | .updateChannel _ | .createChannel _ | .deleteChannel _ | .bulkAssignChannelNumbers _ => true
  | _ => false

/-- Every channel number a call carries. -/
def callNumbers : ApiCallSpec → List ℚ
  | .updateChannel call =>
    (call.data.channelNumber.getD none).toList ++ (call.acknowledgedDuplicate.map (·.number)).toList
  | .createChannel call =>
    call.channelNumber.toList ++ (call.acknowledgedDuplicate.map (·.number)).toList
  | .bulkAssignChannelNumbers call => call.startingNumber.toList
  | _ => []

/-- A queue of numbering operations as Edit Mode stages it: every create under its own temporary
id, every number on the tenths grid. -/
structure NumberingQueue (operations : List StagedOperation) : Prop where
  kinds : ∀ op ∈ operations, isNumberingCall op.apiCall
  tempIds : ∀ op ∈ operations, ∀ call, op.apiCall = .createChannel call →
    ∃ t < 0, op.snapshotId? = some t
  unique : (operations.filterMap (·.createdId?)).Nodup
  tenths : ∀ op ∈ operations, ∀ n ∈ callNumbers op.apiCall, IsTenths n

theorem NumberingQueue.of_concat {operations : List StagedOperation} {op : StagedOperation}
    (h : NumberingQueue (operations ++ [op])) : NumberingQueue operations where
  kinds := fun o ho => h.kinds o (by simp [ho])
  tempIds := fun o ho => h.tempIds o (by simp [ho])
  unique := by
    have := h.unique
    rw [List.filterMap_append] at this
    exact this.of_append_left
  tenths := fun o ho => h.tenths o (by simp [ho])

section Simulation

variable (f : String → String) (opId : ℕ → String)
variable (stagedGroups : Dict ℤ String) (baselineNumbers : Dict ℤ (Option ℚ))

/-- What the two mutable placements have in common; `f` is how names are compared. -/
structure PlacementCore where
  channelId : ℤ
  name : String
  number : Option ℚ
  baseNumber : Option (Option ℚ)
  touched : List String
  index : ℤ
  acknowledgement : Option Acknowledgement

def MutablePlacement.core (q : MutablePlacement) : PlacementCore where
  channelId := q.channelId
  name := f q.name
  number := q.number
  baseNumber := q.baseNumber
  touched := q.touchedBy
  index := q.placedAtIndex
  acknowledgement := q.acknowledgement

def placementCore (p : Placement) : PlacementCore where
  channelId := p.channelId
  name := f p.name
  number := p.number
  baseNumber := if p.isNew then none else some p.baseNumber
  touched := p.touchedBy.map opId
  index := p.touchedBy.getLast?.elim (-1) fun i => (i : ℤ)
  acknowledgement := p.acknowledgement

theorem core_setNumber {q : MutablePlacement} {p : Placement} (h : q.core f = placementCore f opId p)
    (value : Option ℚ) {index : ℕ} {operation : StagedOperation} {op : BulkOperation}
    (hid : opId index = operation.id)
    (hack : placementAcknowledgementOf operation.apiCall = acknowledgementOf op) :
    (q.setNumber value operation index).core f =
      placementCore f opId (p.setNumber value index op) := by
  simp only [MutablePlacement.core, placementCore, PlacementCore.mk.injEq] at h
  obtain ⟨hc, hname, -, hbase, htouched, -, -⟩ := h
  simp only [MutablePlacement.setNumber, MutablePlacement.core, placementCore, Placement.setNumber,
    hc, hname, hbase, htouched, hack, List.map_append, List.map_cons, List.map_nil, hid,
    List.getLast?_append, List.getLast?_singleton, Option.some_or, Option.elim_some]
  rfl

/-- On the tenths grid the wire carries the same consent the browser compares. -/
theorem acknowledgement_wireOperation {operation : StagedOperation} {op : BulkOperation}
    (hwire : wireOperation stagedGroups baselineNumbers operation = some op)
    (htenths : ∀ n ∈ callNumbers operation.apiCall, IsTenths n) :
    placementAcknowledgementOf operation.apiCall = acknowledgementOf op := by
  have hslots : ∀ ack : Option AcknowledgedDuplicate, (∀ a ∈ ack, IsTenths a.number) →
      (ack.map fun a => (⟨slotKey a.number, a.occupantChannelIds⟩ : Acknowledgement)) =
        ack.map fun a => ⟨ChannelManager.slotKey a.number, a.occupantChannelIds⟩ := by
    intro ack hack
    cases ack with
    | none => rfl
    | some a => simp [slotKey_eq_of_isTenths (hack a rfl)]
  cases hcall : operation.apiCall with
  | updateChannel call =>
    simp only [wireOperation, hcall, Option.some.injEq] at hwire
    subst hwire
    apply hslots
    intro a ha
    apply htenths
    simp only [hcall, callNumbers, List.mem_append, Option.mem_toList,
      Option.map_eq_some_iff]
    exact .inr ⟨a, ha, rfl⟩
  | createChannel call =>
    simp only [wireOperation, hcall] at hwire
    split at hwire
    next =>
      obtain rfl := Option.some.inj hwire
      apply hslots
      intro a ha
      apply htenths
      simp only [hcall, callNumbers, List.mem_append, Option.mem_toList,
        Option.map_eq_some_iff]
      exact .inr ⟨a, ha, rfl⟩
    next => simp at hwire
  | _ =>
    simp only [wireOperation, hcall, Option.some.injEq, reduceCtorEq] at hwire
    try subst hwire
    try rfl

/-- What the reading of a placement needs of it. -/
structure GoodPlacement (p : Placement) : Prop where
  number : ∀ n, p.number = some n → IsTenths n
  base : ∀ n, p.baseNumber = some n → IsTenths n
  untouched : p.touchedBy = [] → p.acknowledgement = none

theorem goodPlacement_setNumber {p : Placement} (h : GoodPlacement p) {value : Option ℚ}
    (hvalue : ∀ n, value = some n → IsTenths n) (index : ℕ) (op : BulkOperation) :
    GoodPlacement (p.setNumber value index op) :=
  ⟨hvalue, h.base, by simp [Placement.setNumber]⟩

theorem placementMoved_eq_moved {q : MutablePlacement} {p : Placement}
    (h : q.core f = placementCore f opId p) (hgood : GoodPlacement p) :
    placementMoved q.baseNumber q.number = p.moved := by
  simp only [MutablePlacement.core, placementCore, PlacementCore.mk.injEq] at h
  obtain ⟨-, -, hnumber, hbase, -⟩ := h
  rw [hnumber, hbase]
  cases hnew : p.isNew with
  | true => simp [placementMoved, Placement.moved, hnew]
  | false =>
    cases hb : p.baseNumber with
    | none => cases hn : p.number <;> simp [placementMoved, Placement.moved, hnew, hb, hn, numberMoves]
    | some b =>
      cases hn : p.number with
      | none => simp [placementMoved, Placement.moved, hnew, hb, hn, numberMoves]
      | some n =>
        have hbt := hgood.base b hb
        have hnt := hgood.number n hn
        simp [placementMoved, Placement.moved, hnew, hb, hn, numberMoves, sameChannelNumber,
          slotKey_eq_of_isTenths hbt, slotKey_eq_of_isTenths hnt]

/-- The browser reads off its settled placement what the server reads off its own. -/
theorem view_settle {q : MutablePlacement} {p : Placement} (h : q.core f = placementCore f opId p)
    (hgood : GoodPlacement p) :
    browserReader.view q.settle = (serverReader opId).view p := by
  have hmoved := placementMoved_eq_moved f opId h hgood
  simp only [MutablePlacement.core, placementCore, PlacementCore.mk.injEq] at h
  obtain ⟨hid, -, hnumber, -, htouched, hindex, hack⟩ := h
  rw [hnumber] at hmoved
  have hslot : p.number.map slotKey = p.number.map ChannelManager.slotKey := by
    cases hn : p.number with
    | none => rfl
    | some n => simp [slotKey_eq_of_isTenths (hgood.number n hn)]
  have hvalid : p.number.elim true isValidChannelNumber =
      p.number.elim true ChannelManager.isValidChannelNumber := by
    cases hn : p.number with
    | none => rfl
    | some n => simp [isValidChannelNumber_eq_of_isTenths (hgood.number n hn)]
  simp only [PlacementReader.view, browserReader, serverReader, MutablePlacement.settle,
    NumberPlacement.placed, hid, hnumber, hslot, hvalid, hmoved, htouched, hindex, hack,
    Placement.placed, Placement.arrival]
  by_cases hm : p.moved
  · cases ht : p.touchedBy.getLast? with
    | none =>
      have hnil : p.touchedBy = [] := List.getLast?_eq_none_iff.mp ht
      simp [hm, hnil, hgood.untouched hnil]
    | some i =>
      have hfull : p.touchedBy.isEmpty = false := by
        cases hnil : p.touchedBy <;> simp [hnil] at ht ⊢
      cases hgiven : p.acknowledgement with
      | none => simp [hm, hfull, List.getLastD_eq_getLast?, ht]
      | some given => simp [hm, hfull, List.getLastD_eq_getLast?, ht]
  · simp [hm]

theorem get?_planPosition (operation : StagedOperation) (index : ℕ)
    (byId : Dict ℤ MutablePlacement) (e : ℤ × ℚ) (c : ℤ) :
    (planPosition operation index byId e).get? c =
      (byId.get? c).map fun q => if e.1 = c then q.setNumber (some e.2) operation index else q := by
  unfold planPosition
  cases hget : byId.get? e.1 with
  | none =>
    by_cases he : e.1 = c
    · simp [← he, hget]
    · simp [he]
  | some q =>
    by_cases he : e.1 = c
    · simp [← he, hget]
    · simp [he, Dict.get?_set_ne]

/-- The two folds hold the same channels, with the same core. -/
structure SameEntries (byId : Dict ℤ Placement) (byId' : Dict ℤ MutablePlacement) : Prop where
  core : ∀ c, (byId'.get? c).map (·.core f) = (byId.get? c).map (placementCore f opId)
  good : ∀ c p, byId.get? c = some p → GoodPlacement p

variable {f opId}

theorem SameEntries.mem_iff {byId : Dict ℤ Placement} {byId' : Dict ℤ MutablePlacement}
    (h : SameEntries f opId byId byId') (c : ℤ) : c ∈ byId' ↔ c ∈ byId := by
  have hc := congrArg Option.isSome (h.core c)
  rw [Option.isSome_map, Option.isSome_map] at hc
  rw [← Dict.isSome_get?, ← Dict.isSome_get?, hc]

/-- Replacing a channel's entry on both sides by two with the same core. -/
theorem SameEntries.set {byId : Dict ℤ Placement} {byId' : Dict ℤ MutablePlacement}
    (h : SameEntries f opId byId byId') {c : ℤ} {p : Placement} {q : MutablePlacement}
    (hcore : q.core f = placementCore f opId p) (hgood : GoodPlacement p) :
    SameEntries f opId (byId.set c p) (byId'.set c q) where
  core := by
    intro c'
    rw [Dict.get?_set, Dict.get?_set]
    split
    · simp [hcore]
    · exact h.core c'
  good := by
    intro c' p' hp'
    rw [Dict.get?_set] at hp'
    split at hp'
    · exact Option.some.inj hp' ▸ hgood
    · exact h.good c' p' hp'

theorem SameEntries.position {byId : Dict ℤ Placement} {byId' : Dict ℤ MutablePlacement}
    (h : SameEntries f opId byId byId') {index : ℕ} {operation : StagedOperation}
    {op : BulkOperation} (hid : opId index = operation.id)
    (hack : placementAcknowledgementOf operation.apiCall = acknowledgementOf op) {e : ℤ × ℚ}
    (he : IsTenths e.2) :
    SameEntries f opId (assignPosition index op byId e) (planPosition operation index byId' e) where
  core := by
    intro c
    rw [get?_planPosition, get?_assignPosition]
    have hc := h.core c
    cases hq : byId'.get? c with
    | none => cases hp : byId.get? c <;> simp_all
    | some q =>
      cases hp : byId.get? c with
      | none => simp [hq, hp] at hc
      | some p =>
        rw [hq, hp] at hc
        have hcore := Option.some.inj hc
        simp only [Option.map_some, Option.some.injEq]
        split
        · exact core_setNumber f opId hcore (some e.2) hid hack
        · exact hcore
  good := by
    intro c p hp
    rw [get?_assignPosition, Option.map_eq_some_iff] at hp
    obtain ⟨p', hp', rfl⟩ := hp
    split
    · refine goodPlacement_setNumber (h.good c p' hp') ?_ index op
      intro n hn
      exact Option.some.inj hn ▸ he
    · exact h.good c p' hp'

theorem SameEntries.positions {byId : Dict ℤ Placement} {byId' : Dict ℤ MutablePlacement}
    (h : SameEntries f opId byId byId') {index : ℕ} {operation : StagedOperation}
    {op : BulkOperation} (hid : opId index = operation.id)
    (hack : placementAcknowledgementOf operation.apiCall = acknowledgementOf op)
    (es : List (ℤ × ℚ)) (hes : ∀ e ∈ es, IsTenths e.2) :
    SameEntries f opId (es.foldl (assignPosition index op) byId)
      (es.foldl (planPosition operation index) byId') := by
  induction es generalizing byId byId' with
  | nil => exact h
  | cons e es ih =>
    rw [List.foldl_cons, List.foldl_cons]
    exact ih (h.position hid hack (hes e (by simp))) fun e' he' => hes e' (by simp [he'])

variable (f opId)

/-- The simulation: what holds of the two states after the same operations. -/
structure Simulates (base : Lineup) (operations : List StagedOperation) (st : NumberingState)
    (st' : PlanState) : Prop where
  entries : SameEntries f opId st.byId st'.byId
  order : st.order = st'.order.filter (· ∈ st'.byId)
  known : ∀ c ∈ st'.order, c ∈ base.ids ∨ c ∈ operations.filterMap (·.createdId?)


variable {f opId}

/-- Entering the lineup: the browser keeps an empty name, the server falls back to the id. -/
theorem simulates_base (base : Lineup)
    (hnames : ∀ ch ∈ base.channels, f (displayName ch.name ch.id) = f ch.name)
    (htenths : ∀ ch ∈ base.channels, ∀ n, ch.channelNumber = some n → IsTenths n) :
    Simulates f opId base [] (initialNumberingState base.channels) (initialPlanState base.channels) := by
  have hinduct : ∀ channels : List Channel,
      (∀ ch ∈ channels, f (displayName ch.name ch.id) = f ch.name) →
      (∀ ch ∈ channels, ∀ n, ch.channelNumber = some n → IsTenths n) →
      SameEntries f opId (initialNumberingState channels).byId
          (channels.foldl registerBase {}).byId ∧
        (channels.foldl registerBase {}).order = channels.map (·.id) ∧
        (initialNumberingState channels).order = channels.map (·.id) ∧
        ∀ ch ∈ channels, ch.id ∈ (channels.foldl registerBase {}).byId := by
    intro channels
    induction channels using List.reverseRecOn with
    | nil =>
      intro _ _
      exact ⟨⟨fun _ => rfl, by simp [initialNumberingState]⟩, rfl, rfl, by simp⟩
    | append_singleton channels ch ih =>
      intro hn ht
      obtain ⟨hsame, horder, horder', hmem⟩ := ih (fun x hx => hn x (by simp [hx]))
        (fun x hx => ht x (by simp [hx]))
      simp only [initialNumberingState, List.foldl_append, List.foldl_cons, List.foldl_nil,
        registerExisting, registerBase, PlanState.register, List.map_append, List.map_cons,
        List.map_nil] at hsame horder horder' hmem ⊢
      refine ⟨hsame.set ?_ ?_, by rw [horder], by rw [horder'], ?_⟩
      · simp [MutablePlacement.core, placementCore, hn ch (by simp)]
      · exact ⟨ht ch (by simp), ht ch (by simp), fun _ => rfl⟩
      · intro x hx
        rw [Dict.mem_set]
        rcases List.mem_append.mp hx with hx | hx
        · exact .inr (hmem x hx)
        · exact .inl (by rw [List.mem_singleton.mp hx])
  obtain ⟨hsame, horder, horder', hmem⟩ := hinduct base.channels hnames htenths
  refine ⟨hsame, ?_, ?_⟩
  · rw [horder', initialPlanState, horder]
    refine (List.filter_eq_self.mpr ?_).symm
    intro c hc
    obtain ⟨ch, hch, rfl⟩ := List.mem_map.mp hc
    simpa using hmem ch hch
  · intro c hc
    rw [initialPlanState, horder] at hc
    exact .inl hc

private theorem filter_mem_congr {κ ν : Type} [DecidableEq κ] {d d' : Dict κ ν} (l : List κ)
    (h : ∀ c ∈ l, c ∈ d' ↔ c ∈ d) : l.filter (· ∈ d') = l.filter (· ∈ d) := by
  apply List.filter_congr
  intro c hc
  simp only [h c hc]

theorem Simulates.update {base : Lineup} {operations : List StagedOperation} {st : NumberingState}
    {st' : PlanState} (h : Simulates f opId base operations st st') {operation : StagedOperation}
    {call : UpdateChannelCall} (hcall : operation.apiCall = .updateChannel call)
    {u : BulkUpdateChannelOp} (hchannel : u.channelId = call.channelId) (hdata : u.data = call.data)
    {index : ℕ} (hid : opId index = operation.id)
    (hack : placementAcknowledgementOf operation.apiCall = acknowledgementOf (.updateChannel u))
    (htenths : ∀ n, call.data.channelNumber = some (some n) → IsTenths n) :
    Simulates f opId base (operations ++ [operation]) (applyNumbering st index (.updateChannel u))
      (planOperation st' index operation) := by
  have hknown : ∀ c ∈ st'.order,
      c ∈ base.ids ∨ c ∈ (operations ++ [operation]).filterMap (·.createdId?) := by
    intro c hc
    rw [List.filterMap_append, List.mem_append]
    exact (h.known c hc).imp_right .inl
  have hc := h.entries.core call.channelId
  simp only [applyNumbering, planOperation, hcall, hchannel, hdata]
  cases hq : st'.byId.get? call.channelId with
  | none =>
    cases hp : st.byId.get? call.channelId with
    | none => exact ⟨h.entries, h.order, hknown⟩
    | some p => simp [hq, hp] at hc
  | some q =>
    cases hp : st.byId.get? call.channelId with
    | none => simp [hq, hp] at hc
    | some p =>
      rw [hq, hp] at hc
      have hcore := Option.some.inj hc
      have hgood := h.entries.good _ p hp
      have hrenamed : ({ q with name := call.data.name.getD q.name } : MutablePlacement).core f =
          placementCore f opId { p with name := call.data.name.getD p.name } := by
        simp only [MutablePlacement.core, placementCore, PlacementCore.mk.injEq] at hcore ⊢
        obtain ⟨h1, h2, h3⟩ := hcore
        refine ⟨h1, ?_, h3⟩
        cases call.data.name with
        | none => exact h2
        | some n => rfl
      have hgood' : GoodPlacement { p with name := call.data.name.getD p.name } :=
        ⟨hgood.number, hgood.base, hgood.untouched⟩
      have hmem : ∀ (v : MutablePlacement), ∀ c ∈ st'.order,
          c ∈ st'.byId.set call.channelId v ↔ c ∈ st'.byId := by
        intro v c _
        rw [Dict.mem_set]
        refine ⟨?_, .inr⟩
        rintro (rfl | hmem)
        · rw [← Dict.isSome_get?, hq]
          rfl
        · exact hmem
      refine ⟨?_, ?_, hknown⟩
      · cases hn : call.data.channelNumber with
        | none => exact h.entries.set hrenamed hgood'
        | some value =>
          refine h.entries.set (core_setNumber f opId hrenamed value hid hack)
            (goodPlacement_setNumber hgood' ?_ index _)
          rintro n rfl
          exact htenths n hn
      · rw [filter_mem_congr _ (hmem _)]
        exact h.order

theorem Simulates.create {base : Lineup} {operations : List StagedOperation} {st : NumberingState}
    {st' : PlanState} (h : Simulates f opId base operations st st') {operation : StagedOperation}
    {call : CreateChannelCall} (hcall : operation.apiCall = .createChannel call)
    {k : BulkCreateChannelOp} (htemp : operation.snapshotId? = some k.tempId)
    (hname : k.name = call.name) (hnumber : k.channelNumber = call.channelNumber)
    (hf : f (displayName call.name k.tempId) = f call.name)
    (hfresh : k.tempId ∉ operations.filterMap (·.createdId?))
    {index : ℕ} (hid : opId index = operation.id)
    (hack : placementAcknowledgementOf operation.apiCall = acknowledgementOf (.createChannel k))
    (htenths : ∀ n, call.channelNumber = some n → IsTenths n) :
    Simulates f opId base (operations ++ [operation]) (applyNumbering st index (.createChannel k))
      (planOperation st' index operation) := by
  have hcreated : createdChannelId st' operation = k.tempId := by
    simp [createdChannelId, htemp, k.tempId_neg]
  have hnew : k.tempId ∉ st'.order := by
    intro hmem
    rcases h.known _ hmem with hbase | hops
    · have := Lineup.nonneg_of_mem_ids hbase
      have := k.tempId_neg
      omega
    · exact hfresh hops
  have hcore := core_setNumber f opId
    (q := { channelId := k.tempId, name := call.name, baseName := none, number := none,
            baseNumber := none })
    (p := { channelId := k.tempId, name := displayName call.name k.tempId, number := none,
            baseNumber := none, isNew := true })
    (by simp [MutablePlacement.core, placementCore, hf]) call.channelNumber hid hack
  have hgood : GoodPlacement
      (({ channelId := k.tempId, name := displayName call.name k.tempId, number := none,
          baseNumber := none, isNew := true } : Placement).setNumber call.channelNumber index
        (.createChannel k)) :=
    goodPlacement_setNumber ⟨by simp, by simp, fun _ => rfl⟩ htenths index _
  simp only [applyNumbering, planOperation, hcall, hcreated, hname, hnumber, PlanState.register]
  refine ⟨h.entries.set hcore hgood, ?_, ?_⟩
  · have hrest : ∀ (v : MutablePlacement), ∀ c ∈ st'.order,
        c ∈ st'.byId.set k.tempId v ↔ c ∈ st'.byId := by
      intro v c hc
      rw [Dict.mem_set]
      refine ⟨?_, .inr⟩
      rintro (rfl | hmem)
      · exact absurd hc hnew
      · exact hmem
    have horder : ∀ v : MutablePlacement, st.order ++ [k.tempId] =
        (st'.order ++ [k.tempId]).filter (· ∈ st'.byId.set k.tempId v) := by
      intro v
      rw [List.filter_append, filter_mem_congr _ (hrest v), ← h.order]
      simp
    exact horder _
  · intro c hc
    rw [List.filterMap_append, List.mem_append]
    rcases List.mem_append.mp hc with hc | hc
    · exact (h.known c hc).imp_right .inl
    · obtain rfl := List.mem_singleton.mp hc
      exact .inr (.inr (by simp [StagedOperation.createdId?, hcall, htemp, MutablePlacement.setNumber]))

theorem Simulates.delete {base : Lineup} {operations : List StagedOperation} {st : NumberingState}
    {st' : PlanState} (h : Simulates f opId base operations st st') {operation : StagedOperation}
    {d : ℤ} (hcall : operation.apiCall = .deleteChannel d) (index : ℕ) :
    Simulates f opId base (operations ++ [operation]) (applyNumbering st index (.deleteChannel d))
      (planOperation st' index operation) := by
  have hget : ∀ c, (applyNumbering st index (.deleteChannel d)).byId.get? c =
      if d = c then none else st.byId.get? c := by
    intro c
    by_cases hd : d ∈ st.byId
    · simp only [applyNumbering, hd, if_true, Dict.get?_erase]
    · simp only [applyNumbering, hd, if_false]
      split
      next hc => exact hc ▸ (st.byId.get?_eq_none d).mpr hd
      next => rfl
  have hmem : ∀ c, c ∈ st'.byId.erase d ↔ c ≠ d ∧ c ∈ st'.byId := by
    intro c
    rw [← Dict.isSome_get?, Dict.get?_erase, ← Dict.isSome_get?]
    by_cases hc : d = c
    · simp [hc]
    · simp [hc, Ne.symm hc]
  simp only [planOperation, hcall]
  refine ⟨⟨?_, ?_⟩, ?_, ?_⟩
  · intro c
    rw [hget, Dict.get?_erase]
    split
    · rfl
    · exact h.entries.core c
  · intro c p hp
    rw [hget] at hp
    split at hp
    · simp at hp
    · exact h.entries.good c p hp
  · have hfilter : st'.order.filter (· ∈ st'.byId.erase d) = st.order.filter (· ≠ d) := by
      rw [h.order, List.filter_filter]
      apply List.filter_congr
      intro c _
      simp [hmem]
    rw [hfilter]
    by_cases hd : d ∈ st.byId
    · simp [applyNumbering, hd]
    · have hnot : d ∉ st.order := by
        rw [h.order, List.mem_filter]
        rintro ⟨-, hin⟩
        exact hd ((h.entries.mem_iff d).mp (by simpa using hin))
      simp only [applyNumbering, hd, if_false]
      refine (List.filter_eq_self.mpr ?_).symm
      intro c hc
      simpa using fun heq : c = d => hnot (heq ▸ hc)
  · intro c hc
    rw [List.filterMap_append, List.mem_append]
    exact (h.known c hc).imp_right .inl

theorem Simulates.assign {base : Lineup} {operations : List StagedOperation} {st : NumberingState}
    {st' : PlanState} (h : Simulates f opId base operations st st') {operation : StagedOperation}
    {call : BulkAssignCall} (hcall : operation.apiCall = .bulkAssignChannelNumbers call)
    {index : ℕ} (hid : opId index = operation.id)
    (htenths : ∀ n, call.startingNumber = some n → IsTenths n) :
    Simulates f opId base (operations ++ [operation])
      (applyNumbering st index (.bulkAssignChannelNumbers
        { channelIds := call.channelIds, startingNumber := call.startingNumber }))
      (planOperation st' index operation) := by
  have hassignments : BulkAssignNumbersOp.assignments
      { channelIds := call.channelIds, startingNumber := call.startingNumber } =
        call.assignments := rfl
  have hnumbers : ∀ e ∈ call.assignments, IsTenths e.2 := by
    intro e he
    obtain ⟨x, -, rfl⟩ := List.mem_map.mp he
    apply isTenths_add_natCast
    cases hs : call.startingNumber with
    | none => exact isTenths_one
    | some n => exact htenths n hs
  have hack : placementAcknowledgementOf operation.apiCall =
      acknowledgementOf (.bulkAssignChannelNumbers
        { channelIds := call.channelIds, startingNumber := call.startingNumber }) := by
    rw [hcall]
    rfl
  have hentries := h.entries.positions hid hack call.assignments hnumbers
  simp only [applyNumbering, planOperation, hcall, hassignments]
  refine ⟨hentries, ?_, ?_⟩
  · have hmem : ∀ c, c ∈ call.assignments.foldl (planPosition operation index) st'.byId ↔
        c ∈ st'.byId := by
      intro c
      induction call.assignments using List.reverseRecOn with
      | nil => rfl
      | append_singleton es e ih =>
        rw [List.foldl_append, List.foldl_cons, List.foldl_nil, ← Dict.isSome_get?,
          get?_planPosition, Option.isSome_map, Dict.isSome_get?, ih]
    rw [filter_mem_congr _ fun c _ => hmem c]
    exact h.order
  · intro c hc
    rw [List.filterMap_append, List.mem_append]
    exact (h.known c hc).imp_right .inl

/-- One staged operation, sent over the wire, keeps the two folds together. -/
theorem Simulates.step {base : Lineup} {operations : List StagedOperation} {st : NumberingState}
    {st' : PlanState} (h : Simulates f opId base operations st st') {operation : StagedOperation}
    (hq : NumberingQueue (operations ++ [operation]))
    (hf : ∀ call t, operation.apiCall = .createChannel call →
      f (displayName call.name t) = f call.name)
    (hid : opId operations.length = operation.id) :
    ∃ op, wireOperation stagedGroups baselineNumbers operation = some op ∧
      Simulates f opId base (operations ++ [operation])
        (applyNumbering st operations.length op)
        (planOperation st' operations.length operation) := by
  have hmem : operation ∈ operations ++ [operation] := by simp
  have htenths := hq.tenths operation hmem
  cases hcall : operation.apiCall with
  | updateChannel call =>
    have hwire : wireOperation stagedGroups baselineNumbers operation = some (.updateChannel
        { channelId := call.channelId
          data := call.data
          acknowledgedDuplicate := call.acknowledgedDuplicate
          expectedNumber :=
            if call.data.channelNumber.isSome ∧ 0 ≤ call.channelId then
              some ⟨expectedServerNumber operation call.channelId
                ((baselineNumbers.get? call.channelId).getD none)⟩
            else none }) := by
      simp only [wireOperation, hcall]
    refine ⟨_, hwire, h.update hcall rfl rfl hid ?_ ?_⟩
    · exact acknowledgement_wireOperation stagedGroups baselineNumbers hwire htenths
    · intro n hn
      apply htenths
      simp [hcall, callNumbers, hn]
  | createChannel call =>
    obtain ⟨t, ht, hsnap⟩ := hq.tempIds operation hmem call hcall
    have hfresh : t ∉ operations.filterMap (·.createdId?) := by
      have hnodup := hq.unique
      rw [List.filterMap_append] at hnodup
      intro hmem
      exact List.disjoint_of_nodup_append hnodup hmem
        (by simp [StagedOperation.createdId?, hcall, hsnap])
    obtain ⟨k, hwire, hk⟩ : ∃ k : BulkCreateChannelOp,
        wireOperation stagedGroups baselineNumbers operation = some (.createChannel k) ∧
        k.tempId = t ∧ k.name = call.name ∧ k.channelNumber = call.channelNumber := by
      simp only [wireOperation, hcall, hsnap, Option.getD_some, ht, dif_pos]
      exact ⟨_, rfl, rfl, rfl, rfl⟩
    obtain ⟨rfl, hname, hnumber⟩ := hk
    refine ⟨_, hwire, h.create hcall hsnap hname hnumber (hf call k.tempId hcall) hfresh hid ?_ ?_⟩
    · exact acknowledgement_wireOperation stagedGroups baselineNumbers hwire htenths
    · intro n hn
      apply htenths
      simp [hcall, callNumbers, hn]
  | deleteChannel d => exact ⟨_, by simp only [wireOperation, hcall], h.delete hcall _⟩
  | bulkAssignChannelNumbers call =>
    refine ⟨_, by simp only [wireOperation, hcall], h.assign hcall hid ?_⟩
    intro n hn
    apply htenths
    simp [hcall, callNumbers, hn]
  | _ =>
    have := hq.kinds operation hmem
    simp [hcall, isNumberingCall] at this

theorem simulates_run (base : Lineup) {operations : List StagedOperation}
    (hq : NumberingQueue operations)
    (htenths : ∀ ch ∈ base.channels, ∀ n, ch.channelNumber = some n → IsTenths n)
    (hbase : ∀ ch ∈ base.channels, f (displayName ch.name ch.id) = f ch.name)
    (hf : ∀ op ∈ operations, ∀ call t, op.apiCall = .createChannel call →
      f (displayName call.name t) = f call.name)
    (hid : ∀ i op, operations[i]? = some op → opId i = op.id) :
    (operations.filterMap (wireOperation stagedGroups baselineNumbers)).length =
        operations.length ∧
      Simulates f opId base operations
        (finalNumberingState base.channels
          (operations.filterMap (wireOperation stagedGroups baselineNumbers)))
        (finalPlanState base.channels operations) := by
  induction operations using List.reverseRecOn with
  | nil => exact ⟨rfl, simulates_base base hbase htenths⟩
  | append_singleton operations operation ih =>
    obtain ⟨hlen, hsim⟩ := ih hq.of_concat (fun op hop => hf op (by simp [hop])) (by
      intro i op hi
      have hlt := (List.getElem?_eq_some_iff.mp hi).1
      exact hid i op (by rw [List.getElem?_append_left hlt, hi]))
    obtain ⟨op, hwire, hstep⟩ := hsim.step stagedGroups baselineNumbers hq
      (hf operation (by simp)) (hid _ operation (by simp))
    have hwires : (operations ++ [operation]).filterMap
        (wireOperation stagedGroups baselineNumbers) =
          operations.filterMap (wireOperation stagedGroups baselineNumbers) ++ [op] := by
      simp [List.filterMap_append, hwire]
    rw [hwires]
    refine ⟨by simp [hlen], ?_⟩
    rw [finalNumberingState, finalPlanState] at hstep ⊢
    rw [List.zipIdx_append, List.foldl_append, List.zipIdx_append, List.foldl_append]
    simpa [hlen] using hstep

/-- The placements the simulation leaves, read off by any two functions that agree on entries with
the same core. -/
theorem Simulates.placements {γ : Type} {base : Lineup} {operations : List StagedOperation}
    {st : NumberingState} {st' : PlanState} (h : Simulates f opId base operations st st')
    (read : NumberPlacement → γ) (read' : Placement → γ)
    (hread : ∀ (q : MutablePlacement) (p : Placement), q.core f = placementCore f opId p →
      GoodPlacement p → read q.settle = read' p) :
    (st'.order.filterMap fun c => (st'.byId.get? c).map (·.settle)).map read =
      (st.order.filterMap st.byId.get?).map read' := by
  rw [List.map_filterMap, List.map_filterMap, h.order, List.filterMap_filter]
  apply List.filterMap_congr
  intro c _
  have hc := h.entries.core c
  cases hq : st'.byId.get? c with
  | none =>
    have hnot : c ∉ st'.byId := (Dict.get?_eq_none _ _).mp hq
    simp [hnot]
  | some q =>
    have hin : c ∈ st'.byId := by
      rw [← Dict.isSome_get?, hq]
      rfl
    cases hp : st.byId.get? c with
    | none => simp [hq, hp] at hc
    | some p =>
      rw [hq, hp] at hc
      simp [hin, hread q p (Option.some.inj hc) (h.entries.good c p hp)]

end Simulation

/-- The operation at a position of the queue, by its id. -/
def operationIdAt (operations : List StagedOperation) (i : ℕ) : String :=
  (operations[i]?.map (·.id)).getD ""

/-- The browser and the server place every channel alike and raise the same issues, over every
queue of numbering operations on the tenths grid; the names agree too when none is empty. -/
theorem preflights_agree (base : Lineup) (operations : List StagedOperation)
    (stagedGroups : Dict ℤ String) (baselineNumbers : Dict ℤ (Option ℚ))
    (htenths : ∀ ch ∈ base.channels, ∀ n, ch.channelNumber = some n → IsTenths n)
    (hq : NumberingQueue operations) :
    let wire := operations.filterMap (wireOperation stagedGroups baselineNumbers)
    let opId := operationIdAt operations
    (buildFinalNumberingPlan base.channels operations).map browserReader.view =
        (buildFinalNumberingState base.channels wire).map (serverReader opId).view ∧
      ((∀ ch ∈ base.channels, ch.name ≠ "") →
        (∀ op ∈ operations, ∀ call, op.apiCall = .createChannel call → call.name ≠ "") →
        (buildFinalNumberingPlan base.channels operations).map (·.name) =
          (buildFinalNumberingState base.channels wire).map (·.name)) ∧
      (validateFinalNumberingPlan (buildFinalNumberingPlan base.channels operations)).map
          NumberingPlanIssue.view =
        (evaluateFinalNumbering base.channels wire).map (NumberingIssue.view opId) := by
  intro wire opId
  have hid : ∀ i op, operations[i]? = some op → opId i = op.id := by
    intro i op hi
    simp [opId, operationIdAt, hi]
  have hplacements : (buildFinalNumberingPlan base.channels operations).map browserReader.view =
      (buildFinalNumberingState base.channels wire).map (serverReader opId).view := by
    have hsim := (simulates_run (f := fun _ => "") stagedGroups baselineNumbers base hq htenths
      (fun _ _ => rfl) (fun _ _ _ _ _ => rfl) hid).2
    exact hsim.placements _ _ fun q p => view_settle (fun _ => "") opId
  refine ⟨hplacements, ?_, ?_⟩
  · intro hbase hcreate
    have hshow : ∀ name c, name ≠ "" → displayName name c = name := fun name c hne => if_neg hne
    have hsim := (simulates_run (f := id) stagedGroups baselineNumbers base hq htenths
      (fun ch hch => hshow _ _ (hbase ch hch))
      (fun op hop call t hcall => hshow _ _ (hcreate op hop call hcall)) hid).2
    refine hsim.placements _ _ ?_
    intro q p hcore _
    exact congrArg PlacementCore.name hcore
  · rw [view_validateFinalNumberingPlan, evaluateFinalNumbering, view_issuesOfPlacements]
    exact verdict_eq_of_view hplacements

/-- A create on an occupied number, a move onto a third channel's number and a range. -/
theorem preflights_agree_example :
    let base : Lineup := ⟨[{ id := 1, name := "A", channelNumber := some 5 },
      { id := 2, name := "B", channelNumber := some (61 / 10) }], by decide, by decide⟩
    let operations : List StagedOperation :=
      [{ id := "op1", description := "", apiCall := .createChannel { name := "N", channelNumber := some 5 },
         afterSnapshot := [⟨-1, some 5, "N", none, []⟩] },
       { id := "op2", description := "", apiCall := .updateChannel
           { channelId := 1, data := { channelNumber := some (some (61 / 10)) } } },
       { id := "op3", description := "", apiCall := .bulkAssignChannelNumbers
           { channelIds := [2, -1], startingNumber := some 4 } }]
    let wire := operations.filterMap (wireOperation ∅ ∅)
    let opId := operationIdAt operations
    (buildFinalNumberingPlan base.channels operations).map browserReader.view =
        (buildFinalNumberingState base.channels wire).map (serverReader opId).view ∧
      ((∀ ch ∈ base.channels, ch.name ≠ "") →
        (∀ op ∈ operations, ∀ call, op.apiCall = .createChannel call → call.name ≠ "") →
        (buildFinalNumberingPlan base.channels operations).map (·.name) =
          (buildFinalNumberingState base.channels wire).map (·.name)) ∧
      (validateFinalNumberingPlan (buildFinalNumberingPlan base.channels operations)).map
          NumberingPlanIssue.view =
        (evaluateFinalNumbering base.channels wire).map (NumberingIssue.view opId) := by
  refine preflights_agree _ _ ∅ ∅ ?_ ⟨?_, ?_, ?_, ?_⟩
  · simp only [List.mem_cons, List.not_mem_nil, or_false, forall_eq_or_imp, forall_eq,
      Option.some.injEq, forall_eq']
    exact ⟨⟨50, by norm_num⟩, ⟨61, by norm_num⟩⟩
  · decide
  · simp [StagedOperation.snapshotId?]
  · decide
  · simp only [List.mem_cons, List.not_mem_nil, or_false, forall_eq_or_imp, forall_eq, callNumbers,
      Option.getD_some, Option.toList_some, Option.map_none, Option.toList_none, List.append_nil]
    exact ⟨⟨50, by norm_num⟩, ⟨61, by norm_num⟩, ⟨40, by norm_num⟩⟩

end ChannelManager.EditMode
