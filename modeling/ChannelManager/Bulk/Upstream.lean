import ChannelManager.Bulk.Ledger
import ChannelManager.Bulk.Operation
import ChannelManager.Lib.Effect
import ChannelManager.Numbering.Apply

/-!
# What the executor talks to

The calls a bulk commit makes on Dispatcharr and on its own database, and the state of a run. A
paginated read is one call that may break off with what it had read.
-/

namespace ChannelManager

/-- A call: its answer, or the text of what it raised, and the state it leaves. -/
abbrev Call (σ α : Type) := σ → Except String α × σ

structure ChannelGroup where
  id : ℤ
  name : String
deriving DecidableEq

/-- The rows a paginated read got, and what ended it early. -/
structure PagedRead (α : Type) where
  rows : List α
  error : Option String := none

/-- The payload of `create_channel`. -/
structure NewChannel where
  name : String
  channelNumber : Option ℚ
  channelGroupId : Option ℤ
  logoId : Option ℤ
  tvgId : Option String
  tvcGuideStationid : Option String

/-- A catalog logo; a response body may carry no id. -/
structure Logo where
  id : Option ℤ
  url : String
deriving DecidableEq

/-- Every call of a run. `createChannel` answers nothing for a body without a usable id, and
`createChannelGroup` and `createLogo` likewise; `logEntry` says whether the row was written. -/
structure Upstream (σ : Type) where
  getChannels : Call σ (PagedRead Channel)
  getStreamsByIds : List ℤ → Call σ (List (ℤ × String))
  getChannelProfiles : Call σ (List ℤ)
  hiddenGroups : List ℤ → Call σ (List ℤ)
  getChannel : ℤ → Call σ Channel
  updateChannel : ℤ → ChannelPatch → Call σ Unit
  assignChannelNumbers : List ℤ → Option ℚ → Call σ Unit
  createChannel : NewChannel → Call σ (Option Channel)
  deleteChannel : ℤ → Call σ Unit
  getChannelGroups : Call σ (List ChannelGroup)
  createChannelGroup : String → Call σ (Option ℤ)
  updateChannelGroup : ℤ → String → Call σ Unit
  deleteChannelGroup : ℤ → Call σ Unit
  getLogos : Call σ (PagedRead Logo)
  createLogo : String → String → Call σ (Option ℤ)
  updateProfileChannel : ℤ → ℤ → Bool → Call σ Unit
  restoreHiddenGroup : ℤ → Call σ (Option String)
  clearStreamStats : List ℤ → Call σ ℕ
  normalize : String → Call σ String
  logEntries : List JournalRow → Call σ Bool
  logEntry : JournalRow → Call σ Bool

/-- What happened in a run, step by step. No code reads it. -/
inductive RunEvent where
  | groupCreated
  | setupFailed
  | opened
  | applied
  | appliedIncomplete
  | failed (sideEffectsLanded : Bool)
deriving DecidableEq

/-- The variables of a run. -/
structure Exec (σ : Type) where
  up : σ
  result : Envelope := {}
  ledger : OperationLedger
  compensator : NumberingCompensator := {}
  existingChannels : Dict ℤ Channel := ∅
  /-- The ids of the catalog logos by url, once the catalog has been read. -/
  logoIndex : Option (Dict String (Option ℤ)) := none
  numberingLanded : Bool := false
  executionStarted : Bool := false
  journalFlushed : Bool := false
  trace : List RunEvent := []
  /-- How many writes landed on Dispatcharr. No code reads it either. -/
  writes : ℕ := 0
  /-- The operations applied without an error entry, each with the channel numbers it set. The same
  goes for this one. -/
  log : List (BulkOperation × List (ℤ × Option ℚ)) := []

variable {σ α : Type}

/-- Make a call from within a run. -/
def request (call : Call σ α) : Eff (Exec σ) α := fun s =>
  ((call s.up).1, { s with up := (call s.up).2 })

/-- Make a call that writes to Dispatcharr: the write has landed when the call returns. -/
def write (call : Call σ α) : Eff (Exec σ) α := fun s =>
  match call s.up with
  | (.ok a, u) => (.ok a, { s with up := u, writes := s.writes + 1 })
  | (.error e, u) => (.error e, { s with up := u })

/-- Tell the ledger something; it may refuse. -/
def tellLedger (f : OperationLedger → Except String OperationLedger) : Eff (Exec σ) Unit := fun s =>
  match f s.ledger with
  | .ok ledger => (.ok (), { s with ledger := ledger })
  | .error e => (.error e, s)

def note (event : RunEvent) : Eff (Exec σ) Unit :=
  modify fun s => { s with trace := s.trace ++ [event] }

namespace Eff

variable {post : α → Exec σ → Prop} {fail : String → Exec σ → Prop} {s : Exec σ}

theorem wp_request (call : Call σ α) :
    wp (request call) post fail s ↔
      match call s.up with
      | (.ok a, u) => post a { s with up := u }
      | (.error e, u) => fail e { s with up := u } := by
  unfold wp request
  cases call s.up with
  | mk outcome u => cases outcome <;> exact Iff.rfl

theorem wp_write (call : Call σ α) :
    wp (write call) post fail s ↔
      match call s.up with
      | (.ok a, u) => post a { s with up := u, writes := s.writes + 1 }
      | (.error e, u) => fail e { s with up := u } := by
  unfold wp write
  cases call s.up with
  | mk outcome u => cases outcome <;> exact Iff.rfl

theorem wp_tellLedger {post : Unit → Exec σ → Prop}
    (f : OperationLedger → Except String OperationLedger) :
    wp (tellLedger f) post fail s ↔
      match f s.ledger with
      | .ok ledger => post () { s with ledger := ledger }
      | .error e => fail e s := by
  unfold wp tellLedger
  cases f s.ledger <;> exact Iff.rfl

@[simp] theorem wp_note {post : Unit → Exec σ → Prop} (event : RunEvent) :
    wp (note event) post fail s ↔ post () { s with trace := s.trace ++ [event] } := Iff.rfl

end Eff

end ChannelManager
