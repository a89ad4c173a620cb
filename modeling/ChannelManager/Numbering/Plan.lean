import ChannelManager.Bulk.Operation
import Mathlib.Data.List.Sort

/-!
# The final numbering a bulk commit proposes

`channel_number_plan.py`: materialise the lineup every operation together would leave behind,
and report each number this request puts a channel on that is out of contract or shared without
consent. Consent is to one collision, and is judged against who stood on the slot on arrival.
-/

namespace ChannelManager

/-- Consent carried by the operation that produced a channel's placement. -/
structure Acknowledgement where
  slot : SlotKey
  occupantIds : List ℤ
deriving DecidableEq

structure Placement where
  channelId : ℤ
  name : String
  number : Option ℚ
  baseNumber : Option ℚ
  isNew : Bool
  /-- Indexes of the operations that set this channel's number, in order. -/
  touchedBy : List ℕ := []
  acknowledgement : Option Acknowledgement := none
deriving DecidableEq

namespace Placement

/-- Did this request put the channel where it now is? Judged against the number it started on. -/
def moved (p : Placement) : Bool := p.isNew || numberMoves p.baseNumber p.number

/-- Moved, by an operation of this request. -/
def placed (p : Placement) : Bool := p.moved && !p.touchedBy.isEmpty

/-- Where in the request the final placement happened. -/
def arrival (p : Placement) : ℕ := p.touchedBy.getLastD 0

end Placement

/-- The acknowledgement an operation carries, reduced to what the plan compares against. -/
def acknowledgementOf : BulkOperation → Option Acknowledgement
  | .updateChannel op => op.acknowledgedDuplicate.map fun a =>
      ⟨slotKey a.number, a.occupantChannelIds⟩
  | .createChannel op => op.acknowledgedDuplicate.map fun a =>
      ⟨slotKey a.number, a.occupantChannelIds⟩
  | _ => none

/-- `set_number`: the acknowledgement is replaced, never accumulated. -/
def Placement.setNumber (p : Placement) (value : Option ℚ) (index : ℕ) (op : BulkOperation) :
    Placement :=
  { p with
    number := value
    touchedBy := p.touchedBy ++ [index]
    acknowledgement := acknowledgementOf op }

/-- The two collections `build_final_numbering_state` maintains. -/
structure NumberingState where
  byId : Dict ℤ Placement
  order : List ℤ

def displayName (name : String) (channelId : ℤ) : String :=
  if name = "" then s!"Channel {channelId}" else name

/-- Take one channel of the current lineup into the state. -/
def registerExisting (st : NumberingState) (channel : Channel) : NumberingState where
  byId := st.byId.set channel.id
    { channelId := channel.id
      name := displayName channel.name channel.id
      number := channel.channelNumber
      baseNumber := channel.channelNumber
      isNew := false }
  order := st.order ++ [channel.id]

def initialNumberingState (existingChannels : List Channel) : NumberingState :=
  existingChannels.foldl registerExisting ⟨∅, []⟩

/-- One position of a range: a channel that is not there is skipped. -/
def assignPosition (index : ℕ) (op : BulkOperation) (byId : Dict ℤ Placement) (e : ℤ × ℚ) :
    Dict ℤ Placement :=
  match byId.get? e.1 with
  | none => byId
  | some p => byId.set e.1 (p.setNumber (some e.2) index op)

/-- One iteration of the loop over the operations. -/
def applyNumbering (st : NumberingState) (index : ℕ) (op : BulkOperation) : NumberingState :=
  match op with
  | .updateChannel u =>
    match st.byId.get? u.channelId with
    | none => st
    | some p =>
      let renamed := { p with name := u.data.name.getD p.name }
      let final := match u.data.channelNumber with
        | none => renamed
        | some n => renamed.setNumber n index op
      { st with byId := st.byId.set u.channelId final }
  | .createChannel c =>
    let placement : Placement :=
      { channelId := c.tempId
        name := displayName c.name c.tempId
        number := none
        baseNumber := none
        isNew := true }
    { byId := st.byId.set c.tempId (placement.setNumber c.channelNumber index op)
      order := st.order ++ [c.tempId] }
  | .deleteChannel channelId =>
    if channelId ∈ st.byId then
      { byId := st.byId.erase channelId, order := st.order.filter (· ≠ channelId) }
    else st
  | .bulkAssignChannelNumbers r =>
    { st with byId := r.assignments.foldl (assignPosition index op) st.byId }
  | _ => st

def finalNumberingState (existingChannels : List Channel) (operations : List BulkOperation) :
    NumberingState :=
  operations.zipIdx.foldl (fun st e => applyNumbering st e.2 e.1)
    (initialNumberingState existingChannels)

/-- `build_final_numbering_state`: the placements, in lineup and then creation order. -/
def buildFinalNumberingState (existingChannels : List Channel)
    (operations : List BulkOperation) : List Placement :=
  let st := finalNumberingState existingChannels operations
  st.order.filterMap st.byId.get?

inductive NumberingIssueType where
  | duplicateChannelNumber
  | invalidChannelNumber
deriving DecidableEq

/-- One thing wrong with the proposed final state. -/
structure NumberingIssue where
  type : NumberingIssueType
  channelNumber : ℚ
  channelIds : List ℤ
  operationIndexes : List ℕ
  /-- The names the message lists: the accidental newcomers, then the rest. -/
  newcomers : List String
  others : List String := []
deriving DecidableEq

def channelNumberRuleMessage : String :=
  "Channel numbers must be 0 or greater and support one decimal place (for example 1.0 or 1.1)."

def quotedNames (names : List String) : String := ", ".intercalate (names.map fun n => "\"" ++ n ++ "\"")

/-- The operator-facing sentence, `format` being how a float prints. -/
def NumberingIssue.message (format : ℚ → String) (issue : NumberingIssue) : String :=
  match issue.type with
  | .invalidChannelNumber =>
    quotedNames issue.newcomers ++ " would end up on channel number " ++
      format issue.channelNumber ++ ", which is not a valid channel number. " ++
      channelNumberRuleMessage
  | .duplicateChannelNumber =>
    "Channel number " ++ format issue.channelNumber ++ " would be used by " ++
      toString issue.channelIds.length ++ " channels: " ++ quotedNames issue.newcomers ++
      " would join " ++ quotedNames issue.others ++
      ". Change one of them, or confirm the duplicate where it was staged."

/-- Does a placement's consent cover everyone standing on the slot? Landing on an empty slot
consents to nothing, because there was nothing to consent to. -/
def consented (slot : SlotKey) (standing : List ℤ) (p : Placement) : Bool :=
  standing.isEmpty ||
    match p.acknowledgement with
    | none => false
    | some a => decide (a.slot = slot) && standing.all (· ∈ a.occupantIds)

/-- The arrivals whose consent did not cover whom they landed on. -/
def accidentalArrivals (slot : SlotKey) : List ℤ → List Placement → List Placement
  | _, [] => []
  | standing, p :: ps =>
    let rest := accidentalArrivals slot (p.channelId :: standing) ps
    if consented slot standing p then rest else p :: rest

def sortedArrivals (contributors : List Placement) : List Placement :=
  contributors.insertionSort fun p q => p.arrival ≤ q.arrival

def invalidNumberIssue (p : Placement) : Option NumberingIssue :=
  match p.number with
  | none => none
  | some n =>
    if p.placed && !isValidChannelNumber n then
      some
        { type := .invalidChannelNumber
          channelNumber := n
          channelIds := [p.channelId]
          operationIndexes := p.touchedBy
          newcomers := [p.name] }
    else none

/-- `by_slot.setdefault(_slot_key(number), []).append(placement)`. -/
def addToSlot (bySlot : Dict SlotKey (List Placement)) (p : Placement) :
    Dict SlotKey (List Placement) :=
  match p.number with
  | none => bySlot
  | some n => bySlot.set (slotKey n) ((bySlot.get? (slotKey n)).getD [] ++ [p])

def duplicateNumberIssue (slot : SlotKey) (occupants : List Placement) :
    Option NumberingIssue :=
  if occupants.length < 2 then none
  else
    let contributors := occupants.filter (·.placed)
    let standing := (occupants.filter fun p => !p.placed).map (·.channelId)
    let accidental := accidentalArrivals slot standing (sortedArrivals contributors)
    match accidental with
    | [] => none
    | first :: _ =>
      some
        { type := .duplicateChannelNumber
          channelNumber := first.number.getD 0
          channelIds := occupants.map (·.channelId)
          operationIndexes := ((accidental.flatMap (·.touchedBy)).dedup).insertionSort (· ≤ ·)
          newcomers := accidental.map (·.name)
          others := (occupants.filter (· ∉ accidental)).map (·.name) }

def issuesOfPlacements (placements : List Placement) : List NumberingIssue :=
  let slotted := placements.filter fun p => (invalidNumberIssue p).isNone
  let bySlot := slotted.foldl addToSlot ∅
  placements.filterMap invalidNumberIssue ++
    bySlot.items.filterMap fun e => duplicateNumberIssue e.1 e.2

/-- `evaluate_final_numbering`. -/
def evaluateFinalNumbering (existingChannels : List Channel)
    (operations : List BulkOperation) : List NumberingIssue :=
  issuesOfPlacements (buildFinalNumberingState existingChannels operations)

end ChannelManager
