import ChannelManager.Numbering.Plan
import Mathlib.Data.List.SplitBy

/-!
# Consolidating redundant operations

`_consolidate_operations` groups the operations by kind: creates, deletes, stream and group
operations in submitted order, then one merged update per channel, then range assignments cut
into consecutive runs. The last submitted operation that sets a channel's number owns it; the
number is taken off every other operation that carries one.
-/

namespace ChannelManager

/-- The kind of operation that owns a channel's final number. -/
inductive NumberOwner where
  | createChannel
  | updateChannel
  | bulkAssignChannelNumbers
deriving DecidableEq

/-- The collections `_consolidate_operations` fills on its second pass. -/
structure Consolidation where
  finalUpdates : Dict ℤ ChannelPatch := ∅
  updateLast : Dict ℤ BulkUpdateChannelOp := ∅
  numberSource : Dict ℤ BulkUpdateChannelOp := ∅
  finalNumbers : Dict ℤ ℚ := ∅
  numberOwner : Dict ℤ NumberOwner := ∅
  orderedOps : List BulkOperation := []

def channelsToDelete (operations : List BulkOperation) : List ℤ :=
  operations.filterMap fun
    | .deleteChannel c => some c
    | _ => none

def channelsToCreate (operations : List BulkOperation) : List ℤ :=
  operations.filterMap (·.createdTempId?)

/-- One position of a range, unless the channel is to be deleted. -/
def consolidatePosition (toDelete : List ℤ) (acc : Consolidation) (e : ℤ × ℚ) : Consolidation :=
  if e.1 ∈ toDelete then acc
  else
    { acc with
      finalNumbers := acc.finalNumbers.set e.1 e.2
      numberOwner := acc.numberOwner.set e.1 .bulkAssignChannelNumbers }

def consolidateUpdate (acc : Consolidation) (u : BulkUpdateChannelOp) : Consolidation :=
  let merged := { acc with
    finalUpdates := acc.finalUpdates.set u.channelId
      (((acc.finalUpdates.get? u.channelId).getD {}).update u.data)
    updateLast := acc.updateLast.set u.channelId u }
  if u.data.channelNumber.isSome then
    { merged with
      numberSource := acc.numberSource.set u.channelId u
      numberOwner := acc.numberOwner.set u.channelId .updateChannel }
  else merged

def Consolidation.passThrough (acc : Consolidation) (op : BulkOperation) : Consolidation :=
  { acc with orderedOps := acc.orderedOps ++ [op] }

/-- One iteration of the second pass. -/
def consolidateStep (toDelete toCreate : List ℤ) (acc : Consolidation) (op : BulkOperation) :
    Consolidation :=
  match op with
  | .bulkAssignChannelNumbers r => r.assignments.foldl (consolidatePosition toDelete) acc
  | .updateChannel u => if u.channelId ∈ toDelete then acc else consolidateUpdate acc u
  | .addStreamToChannel c _ | .removeStreamFromChannel c _ | .reorderChannelStreams c _ =>
    -- a cancelled temporary channel takes its dependent stream operations with it
    if c < 0 ∧ c ∈ toCreate ∧ c ∈ toDelete then acc else acc.passThrough op
  | .createChannel k =>
    if k.tempId ∈ toDelete then acc
    else { acc.passThrough op with
      numberOwner := acc.numberOwner.set k.tempId .createChannel }
  | .deleteChannel c => if c < 0 ∧ c ∈ toCreate then acc else acc.passThrough op
  | _ => acc.passThrough op

def consolidation (operations : List BulkOperation) : Consolidation :=
  operations.foldl
    (consolidateStep (channelsToDelete operations) (channelsToCreate operations)) {}

/-- A create whose number a later operation owns is emitted without it and without the consent
that describes it. -/
def emitOrdered (owner : Dict ℤ NumberOwner) (op : BulkOperation) : BulkOperation :=
  match op with
  | .createChannel k =>
    if k.channelNumber.isSome ∧ owner.get? k.tempId ≠ some .createChannel then
      .createChannel { k with channelNumber := none, acknowledgedDuplicate := none }
    else op
  | _ => op

/-- A later operation of another kind places this channel. -/
def superseded (acc : Consolidation) (e : ℤ × ChannelPatch) : Bool :=
  e.2.channelNumber.isSome && acc.numberOwner.get? e.1 ≠ some .updateChannel

def mergedData (acc : Consolidation) (e : ℤ × ChannelPatch) : ChannelPatch :=
  if superseded acc e then { e.2 with channelNumber := none } else e.2

/-- The merged update of one channel, or nothing when no field is left to write. -/
def emitUpdate (acc : Consolidation) (e : ℤ × ChannelPatch) : Option BulkOperation :=
  if mergedData acc e = {} then none
  else
    ((acc.numberSource.get? e.1).or (acc.updateLast.get? e.1)).map fun template =>
      .updateChannel <|
        if superseded acc e then
          { template with
            data := mergedData acc e, acknowledgedDuplicate := none, expectedNumber := none }
        else { template with data := mergedData acc e }

/-- The channels a range owns, by number. -/
def rangeEntries (acc : Consolidation) : List (ℤ × ℚ) :=
  (acc.finalNumbers.filter fun c _ =>
    acc.numberOwner.get? c = some .bulkAssignChannelNumbers).items.insertionSort
      fun a b => a.2 ≤ b.2

/-- A run of consecutive numbers as one range. -/
def emitRange (run : List (ℤ × ℚ)) : BulkOperation :=
  .bulkAssignChannelNumbers
    { channelIds := run.map Prod.fst, startingNumber := run.head?.map Prod.snd }

def emitRanges (entries : List (ℤ × ℚ)) : List BulkOperation :=
  (entries.splitBy fun a b => b.2 = a.2 + 1).map emitRange

def Consolidation.emit (acc : Consolidation) : List BulkOperation :=
  acc.orderedOps.map (emitOrdered acc.numberOwner) ++
    acc.finalUpdates.items.filterMap (emitUpdate acc) ++
    emitRanges (rangeEntries acc)

/-- `_consolidate_operations`. -/
def consolidateOperations (operations : List BulkOperation) : List BulkOperation :=
  (consolidation operations).emit

end ChannelManager
