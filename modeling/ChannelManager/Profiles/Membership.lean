import ChannelManager.Lib.Effect
import ChannelManager.Plans.Json

/-!
# Channel profile memberships

What Dispatcharr holds of channels and profiles, and the requests of the reconcile to it. What the
reads answer is a parameter; a request that raises has no effect. Every membership the run passes
through and every listing it completed are kept beside the store.
-/

namespace ChannelManager.Profiles

open Eff

/-- Who is a member of which profile: by channel, then by profile. -/
abbrev Members := ℤ → ℤ → Bool

/-- A channel as Dispatcharr keeps it: the group it is in and its custom properties. -/
structure Hosted where
  group : ℤ
  customProperties : Json
deriving DecidableEq

/-- Dispatcharr's groups by name, its channels in listing order, and its profiles. A group name is
given once, and only profiles that exist have members. -/
structure Store where
  groups : Dict ℤ String
  channels : Dict ℤ Hosted
  profiles : List ℤ
  member : Members
  names_unique : ∀ g g' name, groups.get? g = some name → groups.get? g' = some name → g = g'
  members_live : ∀ c p, member c p → p ∈ profiles

/-- A channel in a listing; the id may be missing. -/
structure Row where
  id : Option ℤ
  customProperties : Json
deriving DecidableEq

/-- A page of a listing and whether it names a next one. -/
structure Page where
  results : List Row
  next : Bool

/-- What Dispatcharr holds is equal when its parts are. -/
theorem Store.ext {store store' : Store} (groups : store.groups = store'.groups)
    (channels : store.channels = store'.channels) (profiles : store.profiles = store'.profiles)
    (member : store.member = store'.member) : store = store' := by
  cases store
  cases store'
  cases groups
  cases channels
  cases profiles
  cases member
  rfl

/-- The settings rows by channel group. -/
abbrev Settings := Dict ℤ Record

/-- The store and what a run has done to it: the requests and the cancellation checks made so far,
the listings completed, and the memberships after each write. -/
structure World where
  store : Store
  calls : ℕ
  polls : ℕ
  snapshots : List (List Row)
  moments : List Members

/-- Before a run. -/
def World.start (store : Store) : World := ⟨store, 0, 0, [], []⟩

/-- What the requests of a run meet: which of them raise, when `cancel_check` fires, what reads
answer, and the custom properties another task writes before a listing begins. An answer that is no
page, and a profile without an id, is `none`. -/
structure Upstream where
  raises : ℕ → Bool
  cancels : ℕ → Bool
  stamps : ℕ → ℤ → Option Json
  channelPage : Store → ℕ → ℤ → ℕ → Option Page
  channelProfiles : Store → ℕ → List (Option ℤ)
  channelProperties : Store → ℕ → ℤ → Json
  groupSettings : Store → ℕ → Settings

namespace Store

/-- Rewrite the custom properties of the channels. -/
def mapProperties (store : Store) (f : ℤ → Json → Json) : Store :=
  { store with
    channels :=
      { items := store.channels.items.map fun e =>
          (e.1, { e.2 with customProperties := f e.1 e.2.customProperties })
        nodup_keys := by
          rw [List.map_map]
          exact store.channels.nodup_keys } }

/-- Write the custom properties of a channel. -/
def setProperties (store : Store) (channelId : ℤ) (properties : Json) : Store :=
  store.mapProperties fun c old => if c = channelId then properties else old

/-- Write the custom properties of every channel that has been given some. -/
def stamp (store : Store) (stamps : ℤ → Option Json) : Store :=
  store.mapProperties fun c old => (stamps c).getD old

/-- The memberships with the channels put in or taken out of a profile. -/
def enrolled (member : Members) (profileId : ℤ) (channelIds : List ℤ) (enabled : Bool) : Members :=
  fun c p => if p = profileId ∧ c ∈ channelIds then enabled else member c p

/-- Put channels in a profile that exists, or take them out. -/
def enroll (store : Store) (profileId : ℤ) (channelIds : List ℤ) (enabled : Bool)
    (live : profileId ∈ store.profiles) : Store :=
  { store with
    member := enrolled store.member profileId channelIds enabled
    members_live := by
      intro c p h
      unfold enrolled at h
      split at h
      next hp => exact hp.1 ▸ live
      next => exact store.members_live c p h }

end Store

/-- A request that raises, or is counted and answered from the store. -/
def request {α : Type} (upstream : Upstream) (answer : Store → ℕ → α) : Eff World α := do
  let world ← get
  set { world with calls := world.calls + 1 }
  if upstream.raises world.calls then throw "upstream request failed"
  else pure (answer world.store world.calls)

/-- `get_channels`; another task may have written before the first page is asked for. -/
def getChannels (upstream : Upstream) (groupId : ℤ) (page : ℕ) : Eff World (Option Page) := do
  modify fun world =>
    if page = 1 then
      { world with store := world.store.stamp (upstream.stamps world.snapshots.length) }
    else world
  request upstream fun store call => upstream.channelPage store call groupId page

/-- `get_channel_profiles`. -/
def getChannelProfiles (upstream : Upstream) : Eff World (List (Option ℤ)) :=
  request upstream upstream.channelProfiles

/-- The custom properties in `get_channel`. -/
def getChannelProperties (upstream : Upstream) (channelId : ℤ) : Eff World Json :=
  request upstream fun store call => upstream.channelProperties store call channelId

/-- `get_all_m3u_group_settings`. -/
def getAllM3uGroupSettings (upstream : Upstream) : Eff World Settings :=
  request upstream upstream.groupSettings

/-- `update_channel` on the custom properties. -/
def updateChannelProperties (upstream : Upstream) (channelId : ℤ) (properties : Json) :
    Eff World Unit := do
  request upstream fun _ _ => ()
  modify fun world => { world with store := world.store.setProperties channelId properties }

/-- `bulk_update_profile_channels`, which a profile that is gone refuses. -/
def bulkUpdateProfileChannels (upstream : Upstream) (profileId : ℤ) (channelIds : List ℤ)
    (enabled : Bool) : Eff World Unit := do
  request upstream fun _ _ => ()
  let world ← get
  if live : profileId ∈ world.store.profiles then
    let store := world.store.enroll profileId channelIds enabled live
    set { world with store, moments := world.moments ++ [store.member] }
  else throw s!"channel profile {profileId} not found"

/-- What `_check_cancel` raises when `cancel_check` fires. -/
def reconcileCancelled : String := "_ReconcileCancelled"

/-- `_check_cancel`. -/
def checkCancel (upstream : Upstream) : Eff World Unit := do
  let world ← get
  set { world with polls := world.polls + 1 }
  if upstream.cancels world.polls then throw reconcileCancelled else pure ()

end ChannelManager.Profiles
