import ChannelManager.Lib.Dict
import ChannelManager.Lib.Effect
import Mathlib.Data.List.Infix

/-!
# Streams and the channels that hold them

What Dispatcharr holds of accounts, streams and channels, and the requests of the rebind to it.
Deleting a stream takes it off every channel, deleting an account takes its streams along. Every
delete issued is kept beside what the destination held then.
-/

namespace ChannelManager.Dbas

open Eff

/-- What the matcher and the rebind read of a stream. -/
structure StreamRecord where
  name : String
  url : Option String
  m3uAccount : Option ℤ
deriving DecidableEq

/-- A channel and the streams it plays, in order. -/
structure ChannelRecord where
  name : String
  streams : List ℤ
deriving DecidableEq

/-- Dispatcharr's accounts by name, its streams and its channels. A channel holds a stream once, and
only streams that exist. -/
structure Destination where
  accounts : Dict ℤ String
  streams : Dict ℤ StreamRecord
  channels : Dict ℤ ChannelRecord
  bound : ∀ c record, channels.get? c = some record →
    record.streams.Nodup ∧ ∀ s ∈ record.streams, s ∈ streams

namespace Destination

/-- The streams a channel holds. -/
def held (destination : Destination) (channelId : ℤ) : Option (List ℤ) :=
  (destination.channels.get? channelId).map ChannelRecord.streams

/-- The streams that are not `gone`. -/
def remaining (destination : Destination) (gone : ℤ → StreamRecord → Bool) : Dict ℤ StreamRecord :=
  destination.streams.filter fun s record => !gone s record

/-- Drop streams, and take them off the channels. -/
def dropStreams (destination : Destination) (gone : ℤ → StreamRecord → Bool) : Destination where
  accounts := destination.accounts
  streams := destination.remaining gone
  channels := destination.channels.mapValues fun _ record =>
    { record with streams := record.streams.filter (· ∈ destination.remaining gone) }
  bound := by
    intro c record h
    rw [Dict.get?_mapValues] at h
    obtain ⟨old, hold, rfl⟩ := Option.map_eq_some_iff.mp h
    refine ⟨(destination.bound c old hold).1.filter _, ?_⟩
    intro s hs
    exact of_decide_eq_true (List.mem_filter.mp hs).2

/-- Drop a stream. -/
def dropStream (destination : Destination) (streamId : ℤ) : Destination :=
  destination.dropStreams fun s _ => s = streamId

/-- Drop an account and its streams. -/
def dropAccount (destination : Destination) (accountId : ℤ) : Destination :=
  { destination.dropStreams fun _ record => record.m3uAccount = some accountId with
    accounts := destination.accounts.erase accountId }

/-- Give a channel other streams. -/
def bind (destination : Destination) (channelId : ℤ) (streams : List ℤ)
    (sound : streams.Nodup ∧ ∀ s ∈ streams, s ∈ destination.streams) : Destination :=
  { destination with
    channels := destination.channels.mapValues fun c record =>
      if c = channelId then { record with streams } else record
    bound := by
      intro c record h
      rw [Dict.get?_mapValues] at h
      obtain ⟨old, hold, rfl⟩ := Option.map_eq_some_iff.mp h
      split
      · exact sound
      · exact destination.bound c old hold }

end Destination

/-- A delete that was asked for. -/
inductive Removal where
  | stream (id : ℤ)
  | account (id : ℤ)
deriving DecidableEq

/-- The destination, the writes asked for so far, and each delete with what it found. -/
structure World where
  destination : Destination
  writes : ℕ
  issued : List (Removal × Destination)

/-- Before a pass. -/
def World.start (destination : Destination) : World := ⟨destination, 0, []⟩

/-- Which calls raise: the account listing, the pages of the stream listing (of all accounts or of
one) and of the channel listing, and the writes in the order they are made. -/
structure Upstream where
  accountListing : Bool
  streamPage : Option ℤ → ℕ → Bool
  channelPage : ℕ → Bool
  write : ℕ → Bool

/-- A write that raises, or is counted. -/
def request (upstream : Upstream) : Eff World Unit := do
  let world ← get
  set { world with writes := world.writes + 1 }
  if upstream.write world.writes then throw "upstream request failed" else pure ()

/-- `update_channel` on the streams. Dispatcharr refuses a stream twice and one that is gone. -/
def updateChannelStreams (upstream : Upstream) (channelId : ℤ) (streams : List ℤ) :
    Eff World Unit := do
  request upstream
  let world ← get
  if sound : streams.Nodup ∧ ∀ s ∈ streams, s ∈ world.destination.streams then
    set { world with destination := world.destination.bind channelId streams sound }
  else throw s!"channel {channelId} rejected the streams"

/-- `delete_stream`. -/
def deleteStream (upstream : Upstream) (streamId : ℤ) : Eff World Unit := do
  modify fun world =>
    { world with issued := world.issued ++ [(.stream streamId, world.destination)] }
  request upstream
  let world ← get
  if streamId ∈ world.destination.streams then
    set { world with destination := world.destination.dropStream streamId }
  else throw s!"stream {streamId} not found"

/-- `delete_m3u_account`. -/
def deleteM3uAccount (upstream : Upstream) (accountId : ℤ) : Eff World Unit := do
  modify fun world =>
    { world with issued := world.issued ++ [(.account accountId, world.destination)] }
  request upstream
  let world ← get
  if accountId ∈ world.destination.accounts then
    set { world with destination := world.destination.dropAccount accountId }
  else throw s!"M3U account {accountId} not found"

/-- The marker in place of a credential. -/
def redactionSentinel : String := "***REDACTED***"

/-- Whether an address carries the marker. -/
def hasSentinel (url : String) : Bool := decide (redactionSentinel.toList <:+: url.toList)

/-- `url_can_serve`. -/
def urlCanServe : Option String → Bool
  | some url => url ≠ "" && !hasSentinel url
  | none => false

/-- `url_is_redacted`. -/
def urlIsRedacted : Option String → Bool
  | some url => url ≠ "" && hasSentinel url
  | none => false

section Listings

variable {α : Type}

def streamPageSize : ℕ := 1000

def maxPages : ℕ := 200

/-- The rows on a page. -/
def pageRows (rows : List α) (page : ℕ) : List α :=
  (rows.drop ((page - 1) * streamPageSize)).take streamPageSize

/-- Walk the pages of a listing; a page that raises ends it with what was collected. -/
def fetchPages (raises : ℕ → Bool) (rows : List α) : ℕ → ℕ → List α → List α
  | 0, _, out => out
  | remaining + 1, page, out =>
    if raises page then out
    else if (pageRows rows page).length < streamPageSize then out ++ pageRows rows page
    else fetchPages raises rows remaining (page + 1) (out ++ pageRows rows page)

/-- `_fetch_all`. -/
def fetchAll (raises : ℕ → Bool) (rows : List α) : List α := fetchPages raises rows maxPages 1 []

/-- What is collected before a page is all that comes before it. -/
theorem fetchPages_prefix (raises : ℕ → Bool) (rows : List α) (remaining page : ℕ) (hp : 1 ≤ page) :
    fetchPages raises rows remaining page (rows.take ((page - 1) * streamPageSize)) <+: rows := by
  induction remaining generalizing page with
  | zero => exact List.take_prefix _ _
  | succ remaining ih =>
    have hnext : rows.take ((page - 1) * streamPageSize) ++ pageRows rows page =
        rows.take ((page + 1 - 1) * streamPageSize) := by
      have hsize : (page + 1 - 1) * streamPageSize =
          (page - 1) * streamPageSize + streamPageSize := by
        obtain ⟨k, rfl⟩ : ∃ k, page = k + 1 := ⟨page - 1, by omega⟩
        rw [Nat.add_sub_cancel, Nat.add_sub_cancel, Nat.succ_mul]
      rw [hsize, List.take_add]
      rfl
    rw [fetchPages, hnext]
    split
    · exact List.take_prefix _ _
    · split
      · exact List.take_prefix _ _
      · exact ih (page + 1) (by omega)

/-- A listing that broke off is the beginning of the whole. -/
theorem fetchAll_initial (raises : ℕ → Bool) (rows : List α) : fetchAll raises rows <+: rows := by
  have h := fetchPages_prefix raises rows maxPages 1 le_rfl
  rwa [Nat.sub_self, Nat.zero_mul, List.take_zero] at h

end Listings

/-- `get_streams` page after page, of one account or of all. -/
def listStreams (upstream : Upstream) (account : Option ℤ) (destination : Destination) :
    List (ℤ × StreamRecord) :=
  fetchAll (upstream.streamPage account) (destination.streams.items.filter fun row =>
    account.isNone || row.2.m3uAccount = account)

/-- `get_channels` page after page. -/
def listChannels (upstream : Upstream) (destination : Destination) : List (ℤ × ChannelRecord) :=
  fetchAll upstream.channelPage destination.channels.items

end ChannelManager.Dbas
