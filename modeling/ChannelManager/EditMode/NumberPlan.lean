import ChannelManager.EditMode.StagedOperation
import ChannelManager.Numbering.Plan

/-!
# The browser's numbering plan

`channelNumberPlan.ts`: the final numbering the staged queue proposes, and what is wrong with it.
The browser rounds half up and names operations by id, where the server rounds half to even and
names them by position.
-/

namespace ChannelManager.EditMode

/-- JavaScript's `Math.round`: ties go up. -/
def mathRound (q : ℚ) : ℤ := ⌊q + 1 / 2⌋

def slotKey (value : ℚ) : SlotKey :=
  if exactIntegerFloor ≤ |value| then .exact value
  else .tick (mathRound (value * channelNumberTicksPerUnit))

def sameChannelNumber : Option ℚ → Option ℚ → Bool
  | some a, some b => slotKey a = slotKey b
  | _, _ => false

def isValidChannelNumber (value : ℚ) : Bool :=
  decide (0 ≤ value) &&
    (decide (exactIntegerFloor ≤ value) ||
      decide (|value * channelNumberTicksPerUnit -
        mathRound (value * channelNumberTicksPerUnit)| ≤ tenthTolerance))

/-- `placementAcknowledgementOf`. -/
def placementAcknowledgementOf : ApiCallSpec → Option Acknowledgement
  | .updateChannel call => call.acknowledgedDuplicate.map fun a =>
      ⟨slotKey a.number, a.occupantChannelIds⟩
  | .createChannel call => call.acknowledgedDuplicate.map fun a =>
      ⟨slotKey a.number, a.occupantChannelIds⟩
  | _ => none

/-- An absent base number is that of a channel created here. -/
def placementMoved : Option (Option ℚ) → Option ℚ → Bool
  | none, _ => true
  | some none, none => false
  | some none, some _ => true
  | some (some _), none => true
  | some (some base), some number => !sameChannelNumber (some base) (some number)

structure MutablePlacement where
  channelId : ℤ
  name : String
  baseName : Option String
  number : Option ℚ
  baseNumber : Option (Option ℚ)
  touchedBy : List String := []
  placedAtIndex : ℤ := -1
  acknowledgement : Option Acknowledgement := none

structure NumberPlacement where
  channelId : ℤ
  name : String
  baseName : Option String
  number : Option ℚ
  baseNumber : Option (Option ℚ)
  placedByOperationIds : List String
  placedAtIndex : ℤ
  acknowledgement : Option Acknowledgement
deriving DecidableEq

def MutablePlacement.setNumber (placement : MutablePlacement) (value : Option ℚ)
    (operation : StagedOperation) (index : ℕ) : MutablePlacement :=
  { placement with
    number := value
    touchedBy := placement.touchedBy ++ [operation.id]
    placedAtIndex := index
    acknowledgement := placementAcknowledgementOf operation.apiCall }

structure PlanState where
  byId : Dict ℤ MutablePlacement := ∅
  order : List ℤ := []
  nextSyntheticId : ℤ := -1

def PlanState.register (st : PlanState) (placement : MutablePlacement) : PlanState :=
  { st with
    byId := st.byId.set placement.channelId placement
    order := st.order ++ [placement.channelId] }

def registerBase (st : PlanState) (channel : Channel) : PlanState :=
  st.register
    { channelId := channel.id
      name := channel.name
      baseName := some channel.name
      number := channel.channelNumber
      baseNumber := some channel.channelNumber }

/-- The base lineup, with the synthetic ids starting below every id in play. -/
def initialPlanState (base : List Channel) : PlanState :=
  let st := base.foldl registerBase {}
  { st with nextSyntheticId := st.byId.keys.foldl (fun next id => min next (id - 1)) (-1) }

def planPosition (operation : StagedOperation) (index : ℕ) (byId : Dict ℤ MutablePlacement)
    (e : ℤ × ℚ) : Dict ℤ MutablePlacement :=
  match byId.get? e.1 with
  | none => byId
  | some placement => byId.set e.1 (placement.setNumber (some e.2) operation index)

/-- The id of a created channel: its own temporary one, else the next synthetic one. -/
def createdChannelId (st : PlanState) (operation : StagedOperation) : ℤ :=
  match operation.snapshotId? with
  | some id => if id < 0 then id else st.nextSyntheticId
  | none => st.nextSyntheticId

def BulkAssignCall.assignments (call : BulkAssignCall) : List (ℤ × ℚ) :=
  call.channelIds.zipIdx.map fun e => (e.1, call.startingNumber.getD 1 + e.2)

/-- One iteration of the loop of `buildFinalNumberingPlan`. -/
def planOperation (st : PlanState) (index : ℕ) (operation : StagedOperation) : PlanState :=
  match operation.apiCall with
  | .updateChannel call =>
    match st.byId.get? call.channelId with
    | none => st
    | some placement =>
      let renamed := { placement with name := call.data.name.getD placement.name }
      let final := match call.data.channelNumber with
        | none => renamed
        | some n => renamed.setNumber n operation index
      { st with byId := st.byId.set call.channelId final }
  | .createChannel call =>
    let channelId := createdChannelId st operation
    let placement : MutablePlacement :=
      { channelId := channelId
        name := call.name
        baseName := none
        number := none
        baseNumber := none }
    { st.register (placement.setNumber call.channelNumber operation index) with
      nextSyntheticId := min st.nextSyntheticId channelId - 1 }
  | .deleteChannel channelId => { st with byId := st.byId.erase channelId }
  | .bulkAssignChannelNumbers call =>
    { st with byId := call.assignments.foldl (planPosition operation index) st.byId }
  | _ => st

def finalPlanState (base : List Channel) (operations : List StagedOperation) : PlanState :=
  operations.zipIdx.foldl (fun st e => planOperation st e.2 e.1) (initialPlanState base)

/-- A channel that ends where it started was placed by nobody. -/
def MutablePlacement.settle (placement : MutablePlacement) : NumberPlacement :=
  let moved := placementMoved placement.baseNumber placement.number
  { channelId := placement.channelId
    name := placement.name
    baseName := placement.baseName
    number := placement.number
    baseNumber := placement.baseNumber
    placedByOperationIds := if moved then placement.touchedBy else []
    placedAtIndex := if moved then placement.placedAtIndex else -1
    acknowledgement := if moved then placement.acknowledgement else none }

/-- The placements of `buildFinalNumberingPlan`. -/
def buildFinalNumberingPlan (base : List Channel) (operations : List StagedOperation) :
    List NumberPlacement :=
  let st := finalPlanState base operations
  st.order.filterMap fun c => (st.byId.get? c).map (·.settle)

structure NumberingPlanIssue where
  type : NumberingIssueType
  channelNumber : ℚ
  channelIds : List ℤ
  operationIds : List String
  newcomers : List String
  others : List String := []
deriving DecidableEq

def NumberPlacement.placed (p : NumberPlacement) : Bool := !p.placedByOperationIds.isEmpty

def planConsented (slot : SlotKey) (standing : List ℤ) (p : NumberPlacement) : Bool :=
  standing.isEmpty ||
    match p.acknowledgement with
    | none => false
    | some a => decide (a.slot = slot) && standing.all (· ∈ a.occupantIds)

def accidentalPlacements (slot : SlotKey) : List ℤ → List NumberPlacement → List NumberPlacement
  | _, [] => []
  | standing, p :: ps =>
    let rest := accidentalPlacements slot (p.channelId :: standing) ps
    if planConsented slot standing p then rest else p :: rest

def invalidPlacementIssue (p : NumberPlacement) : Option NumberingPlanIssue :=
  match p.number with
  | none => none
  | some n =>
    if p.placed && !isValidChannelNumber n then
      some
        { type := .invalidChannelNumber
          channelNumber := n
          channelIds := [p.channelId]
          operationIds := p.placedByOperationIds
          newcomers := [p.name] }
    else none

def bucketPlacement (bySlot : Dict SlotKey (List NumberPlacement)) (p : NumberPlacement) :
    Dict SlotKey (List NumberPlacement) :=
  match p.number with
  | none => bySlot
  | some n => bySlot.set (slotKey n) ((bySlot.get? (slotKey n)).getD [] ++ [p])

def duplicatePlacementIssue (slot : SlotKey) (occupants : List NumberPlacement) :
    Option NumberingPlanIssue :=
  if occupants.length < 2 then none
  else
    let contributors := occupants.filter (·.placed)
    let standing := (occupants.filter fun p => !p.placed).map (·.channelId)
    let arrivals := contributors.insertionSort fun p q => p.placedAtIndex ≤ q.placedAtIndex
    match accidentalPlacements slot standing arrivals with
    | [] => none
    | first :: rest =>
      some
        { type := .duplicateChannelNumber
          channelNumber := first.number.getD 0
          channelIds := occupants.map (·.channelId)
          operationIds := ((first :: rest).flatMap (·.placedByOperationIds)).eraseDups
          newcomers := (first :: rest).map (·.name)
          others := (occupants.filter (· ∉ first :: rest)).map (·.name) }

/-- `validateFinalNumberingPlan`. -/
def validateFinalNumberingPlan (placements : List NumberPlacement) : List NumberingPlanIssue :=
  let slotted := placements.filter fun p => (invalidPlacementIssue p).isNone
  let bySlot := slotted.foldl bucketPlacement ∅
  placements.filterMap invalidPlacementIssue ++
    bySlot.items.filterMap fun e => duplicatePlacementIssue e.1 e.2

end ChannelManager.EditMode
