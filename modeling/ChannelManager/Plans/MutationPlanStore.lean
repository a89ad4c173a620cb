import ChannelManager.Lib.Dict
import ChannelManager.Lib.Effect
import Mathlib.Algebra.Order.Ring.Rat
import Mathlib.Data.List.Sort

/-!
# The store of mutation plans

A reviewed mutation is kept as a short-lived plan until the client that asked for it claims it.
Every call takes the store's lock, so a run of the store is a list of calls, each with the time
it read the clock. What a payload is, the size of its encoding and its hash are parameters.
-/

namespace ChannelManager.Plans

open Eff

/-- Seconds a plan stays claimable. -/
def planTtlSeconds : ℚ := 300

/-- Most plans held at a time. -/
def planMaxEntries : Nat := 128

/-- Largest encoded payload. -/
def planMaxBytes : Nat := 2 * 1024 * 1024

/-- A mutation bound to its payload, to the state it was computed from and to its owner. -/
structure MutationPlan (Payload : Type) where
  planId : String
  operation : String
  payload : Payload
  payloadHash : String
  stateHash : String
  principal : String
  createdAt : ℚ
  expiresAt : ℚ
deriving DecidableEq

/-- How a payload is encoded: the bytes it takes and the hash of them. -/
structure Encoding (Payload : Type) where
  encodedSize : Payload → Nat
  canonicalHash : Payload → String

variable {Payload : Type}

/-- `_plans`. -/
abbrev Store (Payload : Type) := Dict String (MutationPlan Payload)

/-- The plans that have not expired. -/
def live (now : ℚ) (plans : Store Payload) : Store Payload :=
  plans.filter fun _ plan => now < plan.expiresAt

/-- `_prune`: expired plans go, and of a store that is full the oldest ones, to make room for
one more. -/
def prune (now : ℚ) (plans : Store Payload) : Store Payload :=
  let plans := live now plans
  if planMaxEntries ≤ plans.items.length then
    let oldest := plans.values.insertionSort fun p q => p.createdAt ≤ q.createdAt
    (oldest.take (plans.items.length - planMaxEntries + 1)).foldl
      (fun plans plan => plans.erase plan.planId) plans
  else plans

/-- `create`, with the plan id it draws. -/
def create (encoding : Encoding Payload) (now : ℚ) (planId operation : String)
    (payload : Payload) (stateHash principal : String) :
    Eff (Store Payload) (MutationPlan Payload) := do
  if planMaxBytes < encoding.encodedSize payload then
    throw s!"mutation plan exceeds {planMaxBytes} byte limit"
  let plan : MutationPlan Payload :=
    { planId, operation, payload, payloadHash := encoding.canonicalHash payload, stateHash,
      principal, createdAt := now, expiresAt := now + planTtlSeconds }
  modify (prune now)
  modify fun plans => plans.set plan.planId plan
  pure plan

/-- `consume`. -/
def consume (now : ℚ) (planId operation payloadHash principal : String) :
    Eff (Store Payload) (MutationPlan Payload) := do
  modify (prune now)
  match (← get).get? planId with
  | none => throw "plan is expired, unknown, or already consumed"
  | some plan =>
    if plan.operation ≠ operation then throw "plan operation does not match"
    if plan.payloadHash ≠ payloadHash then throw "plan hash does not match"
    if plan.principal ≠ principal then throw "plan principal does not match"
    modify fun plans => plans.erase planId
    pure plan

/-- What a client asks of the store. -/
inductive Request (Payload : Type) where
  | create (planId operation : String) (payload : Payload) (stateHash principal : String)
  | consume (planId operation payloadHash principal : String)

/-- A request and the time its call read. -/
structure Call (Payload : Type) where
  now : ℚ
  request : Request Payload

namespace Call

/-- The call a request makes. -/
def run (encoding : Encoding Payload) (call : Call Payload) :
    Eff (Store Payload) (MutationPlan Payload) :=
  match call.request with
  | .create planId operation payload stateHash principal =>
    Plans.create encoding call.now planId operation payload stateHash principal
  | .consume planId operation payloadHash principal =>
    Plans.consume call.now planId operation payloadHash principal

/-- The plan id a create draws. -/
def drawn? (call : Call Payload) : Option String :=
  match call.request with
  | .create planId .. => some planId
  | .consume .. => none

/-- Whether the call makes a plan: its payload is not too large. -/
def makes (encoding : Encoding Payload) (call : Call Payload) : Bool :=
  match call.request with
  | .create _ _ payload _ _ => encoding.encodedSize payload ≤ planMaxBytes
  | .consume .. => false

/-- Whether the call is a claim. -/
def isConsume (call : Call Payload) : Bool :=
  match call.request with
  | .create .. => false
  | .consume .. => true

/-- A claim on a plan by its owner: its own id, operation, payload hash and principal. -/
def claims (call : Call Payload) (plan : MutationPlan Payload) : Prop :=
  match call.request with
  | .create .. => False
  | .consume planId operation payloadHash principal =>
    planId = plan.planId ∧ operation = plan.operation ∧ payloadHash = plan.payloadHash ∧
      principal = plan.principal

end Call

/-- The store after a run of calls from the empty one. -/
def storeAfter (encoding : Encoding Payload) (calls : List (Call Payload)) : Store Payload :=
  calls.foldl (fun plans call => (call.run encoding plans).2) ∅

/-- What a call answers after a run. -/
def answer (encoding : Encoding Payload) (calls : List (Call Payload)) (call : Call Payload) :
    Except String (MutationPlan Payload) :=
  (call.run encoding (storeAfter encoding calls)).1

/-- After the run the call consumes the plan. -/
def Consumes (encoding : Encoding Payload) (calls : List (Call Payload)) (call : Call Payload)
    (plan : MutationPlan Payload) : Prop :=
  call.isConsume ∧ answer encoding calls call = .ok plan

/-- After the run the call creates the plan. -/
def Creates (encoding : Encoding Payload) (calls : List (Call Payload)) (call : Call Payload)
    (plan : MutationPlan Payload) : Prop :=
  call.isConsume = false ∧ answer encoding calls call = .ok plan

/-- Calls of clients that share a clock which never goes back, each create with an id of its own. -/
structure Clocked (calls : List (Call Payload)) : Prop where
  clock : calls.Pairwise fun c d => c.now ≤ d.now
  fresh : (calls.filterMap Call.drawn?).Nodup

/-- The store has room when a claim comes: fewer unexpired plans than it may hold. -/
def RoomFor (encoding : Encoding Payload) (calls : List (Call Payload)) (call : Call Payload) :
    Prop :=
  (live call.now (storeAfter encoding calls)).items.length < planMaxEntries

/-- What the store promises over a run: a plan is consumed once and by its owner, in time; the
store is bounded; a claim that fails costs no unexpired plan; and a plan that is not superseded
by a storeful of others stays claimable. -/
structure Serves (encoding : Encoding Payload) (calls : List (Call Payload)) : Prop where
  once : ∀ earlier claim middle claim' rest plan plan',
    calls = earlier ++ claim :: (middle ++ claim' :: rest) →
    Consumes encoding earlier claim plan →
    Consumes encoding (earlier ++ claim :: middle) claim' plan' → plan.planId ≠ plan'.planId
  owned : ∀ earlier claim rest plan, calls = earlier ++ claim :: rest →
    Consumes encoding earlier claim plan → claim.claims plan ∧ claim.now < plan.expiresAt ∧
      ∃ older made newer, earlier = older ++ made :: newer ∧ Creates encoding older made plan
  bounded : ∀ earlier rest, calls = earlier ++ rest →
    (storeAfter encoding earlier).items.length ≤ planMaxEntries
  intact : ∀ earlier claim rest error, calls = earlier ++ claim :: rest → claim.isConsume →
    answer encoding earlier claim = .error error →
    ∀ planId plan, (storeAfter encoding earlier).get? planId = some plan →
      claim.now < plan.expiresAt →
      (storeAfter encoding (earlier ++ [claim])).get? planId = some plan
  claimable : ∀ earlier made middle claim rest plan,
    calls = earlier ++ made :: (middle ++ claim :: rest) → Creates encoding earlier made plan →
    middle.countP (Call.makes encoding) < planMaxEntries →
    (∀ older taken newer, middle = older ++ taken :: newer →
      ¬Consumes encoding (earlier ++ made :: older) taken plan) →
    claim.claims plan → claim.now < plan.expiresAt →
    Consumes encoding (earlier ++ made :: middle) claim plan

end ChannelManager.Plans
