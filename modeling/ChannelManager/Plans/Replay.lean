import ChannelManager.Plans.OwnWrites
import Mathlib.Tactic.Tauto

/-!
# Replay realises the plan

On a store equal to the one planned against, replay sends the recorded writes in order with the
temporary ids replaced, exactly when every channel it validates lists its streams, every negative
integer in a write is a temporary id handed out before, and no write addresses what an earlier one
deletes.
-/

namespace ChannelManager.Plans

open Eff

/-- A client that raises on no write of its own accord. -/
def neverFails : ℕ → Bool := fun _ => false

/-- The entities some writes create. -/
def creations (writes : List Write) : ℕ := writes.countP Write.isCreate

/-- The pairs of temporary and allocated id for the first `n` entities. -/
def remapItems (server : Server) (live : Live) (n : ℕ) : List (ℤ × ℤ) :=
  (List.range n).map fun k : ℕ => (-(k : ℤ) - 1, server.alloc (live.created + k))

/-- Replay goes through: the recorded writes are sent in order, their temporary ids replaced, and the
remap has one entry for each create. -/
def Realises (d : Digest) (server : Server) (live : Live) (plan : PipelineWritePlan) : Prop :=
  ∃ results remap exec,
    replayWritePlan d server neverFails plan false ⟨live, []⟩ = (.ok (.done results remap), exec) ∧
    exec.issued = plan.writes.map (Write.rename (realIdOf server live)) ∧
    remap.items = remapItems server live (creations plan.writes)

/-- What it takes for a plan to be replayed. -/
structure Replayable (live : Live) (plan : PipelineWritePlan) : Prop where
  listed : ∀ c ∈ plan.channelPreconditions, ∀ channel, live.channels.get? c = some channel →
    ∃ items, channel.read "streams" = .list items
  resolved : ∀ earlier w later, plan.writes = earlier ++ w :: later →
    ∀ n ∈ w.ints, n < 0 → -n ≤ (creations earlier : ℤ)
  undeleted : ∀ earlier w later, plan.writes = earlier ++ w :: later →
    (∀ c ∈ w.channelIds, .deleteChannel c ∉ earlier) ∧
      ∀ g, w = .deleteChannelGroup g → .deleteChannelGroup g ∉ earlier

theorem mapM_eq {f : ℤ → Except String ℤ} {ρ : ℤ → ℤ} {ids : List ℤ}
    (h : ∀ n ∈ ids, f n = .ok (ρ n)) : ids.mapM f = .ok (ids.map ρ) := by
  induction ids with
  | nil => rfl
  | cons n ids ih =>
    rw [List.mapM_cons, h n (by simp), ih fun m hm => h m (by simp [hm])]
    rfl

theorem found_of_mapM {f : ℤ → Except String ℤ} {ids ids' : List ℤ} (h : ids.mapM f = .ok ids') :
    ∀ n ∈ ids, ∃ m, f n = .ok m := by
  induction ids generalizing ids' with
  | nil => simp
  | cons n ids ih =>
    rw [List.mapM_cons] at h
    cases hn : f n with
    | error e =>
      rw [hn] at h
      cases h
    | ok m =>
      cases hrest : ids.mapM f with
      | error e =>
        rw [hn, hrest] at h
        cases h
      | ok rest =>
        intro n' hn'
        rcases List.mem_cons.mp hn' with rfl | hn'
        · exact ⟨m, hn⟩
        · exact ih hrest n' hn'

/-- A write whose integers are all found is the write renamed. -/
theorem Write.mapInts_eq {f : ℤ → Except String ℤ} {ρ : ℤ → ℤ} {w : Write}
    (h : ∀ n ∈ w.ints, f n = .ok (ρ n)) : w.mapInts f = .ok (w.rename ρ) := by
  cases w with
  | createChannel data => rw [mapInts, Record.mapInts_eq h]; rfl
  | createChannelGroup name => rfl
  | createLogo data => rw [mapInts, Record.mapInts_eq h]; rfl
  | updateChannel c data =>
    rw [mapInts, h c (by simp [ints]), Record.mapInts_eq fun n hn => h n (by simp [ints, hn])]
    rfl
  | deleteChannel c => rw [mapInts, h c (by simp [ints])]; rfl
  | deleteChannelGroup g => rw [mapInts, h g (by simp [ints])]; rfl
  | assignChannelNumbers ids startingNumber =>
    rw [mapInts, mapM_eq fun n hn => h n (by simp [ints, hn]),
      Json.mapInts_eq startingNumber fun n hn => h n (by simp [ints, hn])]
    rfl
  | updateProfileChannel p c data =>
    rw [mapInts, h p (by simp [ints]), h c (by simp [ints]),
      Record.mapInts_eq fun n hn => h n (by simp [ints, hn])]
    rfl

/-- Of a write that is mapped every integer was found. -/
theorem Write.found_of_mapInts {f : ℤ → Except String ℤ} {w w' : Write}
    (h : w.mapInts f = .ok w') : ∀ n ∈ w.ints, ∃ m, f n = .ok m := by
  have hdata : ∀ {data : Record}, (∃ data', data.mapInts f = .ok data') →
      ∀ n ∈ data.ints, ∃ m, f n = .ok m :=
    fun ⟨_, hdata⟩ => Record.found_of_mapInts hdata
  cases w with
  | createChannel data =>
    cases hs : data.mapInts f with
    | error e => rw [mapInts, hs] at h; cases h
    | ok data' => exact hdata ⟨data', hs⟩
  | createChannelGroup name => simp [ints]
  | createLogo data =>
    cases hs : data.mapInts f with
    | error e => rw [mapInts, hs] at h; cases h
    | ok data' => exact hdata ⟨data', hs⟩
  | updateChannel c data =>
    cases hc : f c with
    | error e => rw [mapInts, hc] at h; cases h
    | ok c' =>
      cases hs : data.mapInts f with
      | error e => rw [mapInts, hc, hs] at h; cases h
      | ok data' =>
        intro n hn
        rcases List.mem_cons.mp hn with rfl | hn
        · exact ⟨c', hc⟩
        · exact hdata ⟨data', hs⟩ n hn
  | deleteChannel c =>
    cases hc : f c with
    | error e => rw [mapInts, hc] at h; cases h
    | ok c' => simp [ints, hc]
  | deleteChannelGroup g =>
    cases hg : f g with
    | error e => rw [mapInts, hg] at h; cases h
    | ok g' => simp [ints, hg]
  | assignChannelNumbers ids startingNumber =>
    cases hids : ids.mapM f with
    | error e => rw [mapInts, hids] at h; cases h
    | ok ids' =>
      cases hs : startingNumber.mapInts f with
      | error e => rw [mapInts, hids, hs] at h; cases h
      | ok startingNumber' =>
        intro n hn
        rcases List.mem_append.mp hn with hn | hn
        · exact found_of_mapM hids n hn
        · exact Json.found_of_mapInts startingNumber _ hs n hn
  | updateProfileChannel p c data =>
    cases hp : f p with
    | error e => rw [mapInts, hp] at h; cases h
    | ok p' =>
      cases hc : f c with
      | error e => rw [mapInts, hp, hc] at h; cases h
      | ok c' =>
        cases hs : data.mapInts f with
        | error e => rw [mapInts, hp, hc, hs] at h; cases h
        | ok data' =>
          intro n hn
          rcases List.mem_cons.mp hn with rfl | hn
          · exact ⟨p', hp⟩
          rcases List.mem_cons.mp hn with rfl | hn
          · exact ⟨c', hc⟩
          · exact hdata ⟨data', hs⟩ n hn

/-- A mapped write is the write renamed along what was found. -/
theorem Write.renamed_of_mapInts {f : ℤ → Except String ℤ} {w w' : Write}
    (h : w.mapInts f = .ok w') : ∃ ρ, w' = w.rename ρ ∧ ∀ n ∈ w.ints, f n = .ok (ρ n) := by
  have hfound := Write.found_of_mapInts h
  let ρ : ℤ → ℤ := fun n =>
    match f n with
    | .ok m => m
    | .error _ => 0
  have hρ : ∀ n ∈ w.ints, f n = .ok (ρ n) := by
    intro n hn
    obtain ⟨m, hm⟩ := hfound n hn
    simp only [ρ, hm]
  rw [Write.mapInts_eq hρ] at h
  cases h
  exact ⟨ρ, rfl, hρ⟩

@[simp] theorem Write.isCreate_rename (ρ : ℤ → ℤ) (w : Write) :
    (w.rename ρ).isCreate = w.isCreate := by
  cases w <;> rfl

theorem Write.channelIds_rename (ρ : ℤ → ℤ) (w : Write) :
    (w.rename ρ).channelIds = w.channelIds.map ρ := by
  cases w <;> rfl

section Validation

variable {d : Digest} {live : Live}

/-- What is compared with the snapshot of a channel: the fields of the snapshot, then the id. -/
theorem items_actualOf_relevant (c : ℤ) (before channel : Record) (streams : List Json) :
    (actualOf c (Planner.relevant c before streams) channel).items =
      [("name", channel.read "name"), ("streams", channel.read "streams"),
        ("channel_group_id", channel.read "channel_group_id"), ("logo_id", channel.read "logo_id"),
        ("tvg_id", channel.read "tvg_id"), ("channel_number", channel.read "channel_number"),
        ("stream_profile_id", channel.read "stream_profile_id"),
        ("epg_data_id", channel.read "epg_data_id"), ("id", .int c)] := rfl

theorem items_relevant (c : ℤ) (channel : Record) (streams : List Json) :
    (Planner.relevant c channel streams).items =
      [("id", .int c), ("name", channel.read "name"), ("streams", .list streams),
        ("channel_group_id", channel.read "channel_group_id"), ("logo_id", channel.read "logo_id"),
        ("tvg_id", channel.read "tvg_id"), ("channel_number", channel.read "channel_number"),
        ("stream_profile_id", channel.read "stream_profile_id"),
        ("epg_data_id", channel.read "epg_data_id")] := rfl

/-- What is compared with the snapshot of a channel on the store it was taken from agrees with it
exactly when the channel lists its streams. -/
theorem hash_snapshot_iff (hdigest : Function.Injective d.digest) {c : ℤ} {channel : Record}
    {streams : List Json} (hstreams : (channel.read "streams").orEmpty.toList = .ok streams) :
    canonicalHash d (actualOf c (Planner.relevant c channel streams) channel) =
        canonicalHash d (Planner.relevant c channel streams) ↔
      ∃ items, channel.read "streams" = .list items := by
  have hfields : canonicalHash d (actualOf c (Planner.relevant c channel streams) channel) =
      canonicalHash d (Planner.relevant c channel streams) ↔
        (channel.read "streams").canonical = Json.canonical (.list streams) := by
    rw [canonicalHash, canonicalHash, hdigest.eq_iff, items_actualOf_relevant, items_relevant]
    simp [Json.canonical, Json.canonicalFields, List.orderedInsert]
  rw [hfields]
  constructor
  · intro heq
    cases hv : channel.read "streams" with
    | list items => exact ⟨items, rfl⟩
    | null => rw [hv] at heq; cases heq
    | bool b => rw [hv] at heq; cases heq
    | int n => rw [hv] at heq; cases heq
    | float q => rw [hv] at heq; cases heq
    | str text => rw [hv] at heq; cases heq
    | dict fields => rw [hv] at heq; cases heq
  · rintro ⟨items, hitems⟩
    have hlist : (Json.list items).orEmpty.toList = .ok items := by
      cases items <;> rfl
    rw [hitems, hlist] at hstreams
    cases hstreams
    rw [hitems]

theorem checkAll_ok {α : Type} (check : α → Except String Unit) (es : List α) :
    checkAll check es = .ok () ↔ ∀ e ∈ es, check e = .ok () := by
  induction es with
  | nil => simp [checkAll]
  | cons e es ih =>
    rw [checkAll]
    cases hcheck : check e with
    | error error => simp [hcheck]
    | ok u => simpa [hcheck] using ih

/-- What the preconditions of a plan recorded on a store say of it. -/
structure Recorded (live : Live) (plan : PipelineWritePlan) : Prop where
  channels : ∀ c before, plan.channelPreconditions.get? c = some before → SnapshotOf live c before
  groups : ∀ g name, plan.groupPreconditions.get? g = some name → live.groups.get? g = some name
  profiles : ∀ key member, plan.profilePreconditions.get? key = some member →
    member = decide (.int key.2 ∈ memberIds ((live.profiles.get? key.1).getD []))

/-- On the store planned against validation passes exactly when the channels it reads list their
streams. -/
theorem validate_iff (hdigest : Function.Injective d.digest) {plan : PipelineWritePlan}
    (h : Recorded live plan) :
    validateReadSet d live plan = .ok () ↔
      ∀ c ∈ plan.channelPreconditions, ∀ channel, live.channels.get? c = some channel →
        ∃ items, channel.read "streams" = .list items := by
  have hgroups : checkAll (checkGroup live) plan.groupPreconditions.items = .ok () := by
    rw [checkAll_ok]
    intro e he
    exact if_neg (by simpa using h.groups e.1 e.2 ((Dict.get?_eq_some _ _ _).mpr he))
  have hprofiles : checkAll (checkProfile live) plan.profilePreconditions.items = .ok () := by
    rw [checkAll_ok]
    intro e he
    have hmember := h.profiles e.1 e.2 ((Dict.get?_eq_some _ _ _).mpr he)
    exact if_neg (by simp [hmember])
  have hchannels : validateReadSet d live plan = .ok () ↔
      checkAll (checkChannel d live) plan.channelPreconditions.items = .ok () := by
    rw [validateReadSet, hgroups, hprofiles]
    cases checkAll (checkChannel d live) plan.channelPreconditions.items with
    | error e => exact Iff.rfl
    | ok u => exact Iff.rfl
  rw [hchannels, checkAll_ok]
  constructor
  · intro hall c hc channel hget
    obtain ⟨before, hbefore⟩ := Option.isSome_iff_exists.mp ((Dict.isSome_get? _ _).mpr hc)
    have hone := hall (c, before) ((Dict.get?_eq_some _ _ _).mp hbefore)
    obtain ⟨channel', streams, hget', hstreams, rfl⟩ := h.channels c before hbefore
    obtain rfl : channel = channel' := by rw [hget] at hget'; simpa using hget'
    have hsame : canonicalHash d (actualOf c (Planner.relevant c channel streams) channel) =
        canonicalHash d (Planner.relevant c channel streams) := by
      simpa [checkChannel, Live.getChannel, hget] using hone
    exact (hash_snapshot_iff hdigest hstreams).mp hsame
  · intro hall e he
    have hget := (Dict.get?_eq_some _ _ _).mpr he
    obtain ⟨channel, streams, hchannel, hstreams, hbefore⟩ := h.channels e.1 e.2 hget
    have hmem : e.1 ∈ plan.channelPreconditions := by
      rw [← Dict.isSome_get?, hget]
      rfl
    have hsame : canonicalHash d (actualOf e.1 (Planner.relevant e.1 channel streams) channel) =
        canonicalHash d (Planner.relevant e.1 channel streams) :=
      (hash_snapshot_iff hdigest hstreams).mpr (hall e.1 hmem channel hchannel)
    simp [checkChannel, Live.getChannel, hchannel, hbefore, hsame]

end Validation

/-- What the replay loop has done when it went through some writes. -/
structure Replayed (server : Server) (live : Live) (writes : List Write) (R : Replay) : Prop where
  issued : R.exec.issued = writes.map (Write.rename (realIdOf server live))
  remap : R.remap.items = remapItems server live (creations writes)
  nextTemp : R.nextTemp = -(creations writes : ℤ) - 1
  created : R.exec.live.created = live.created + creations writes
  free : ∀ k, R.exec.live.created ≤ k →
    server.alloc k ∉ R.exec.live.channels ∧ server.alloc k ∉ R.exec.live.groups
  kept : ∀ c ∈ live.channels, .deleteChannel c ∉ writes → c ∈ R.exec.live.channels
  keptGroups : ∀ g ∈ live.groups, .deleteChannelGroup g ∉ writes → g ∈ R.exec.live.groups
  keptProfiles : ∀ p ∈ live.profiles, p ∈ R.exec.live.profiles
  gone : ∀ c, .deleteChannel c ∈ writes → realIdOf server live c ∉ R.exec.live.channels ∧
    ∀ k, R.exec.live.created ≤ k → realIdOf server live c ≠ server.alloc k
  goneGroups : ∀ g, .deleteChannelGroup g ∈ writes →
    realIdOf server live g ∉ R.exec.live.groups ∧
    ∀ k, R.exec.live.created ≤ k → realIdOf server live g ≠ server.alloc k

section Loop

variable {server : Server} {live : Live} {writes : List Write} {R R' : Replay} {w : Write}

theorem mem_remapItems {n : ℕ} {i j : ℤ} :
    (i, j) ∈ remapItems server live n ↔
      ∃ k < n, i = -(k : ℤ) - 1 ∧ j = server.alloc (live.created + k) := by
  simp only [remapItems, List.mem_map, List.mem_range, Prod.mk.injEq]
  constructor
  · rintro ⟨k, hk, rfl, rfl⟩
    exact ⟨k, hk, rfl, rfl⟩
  · rintro ⟨k, hk, rfl, rfl⟩
    exact ⟨k, hk, rfl, rfl⟩

/-- A temporary id is found exactly when it was handed out, and then it is the allocated one. -/
theorem Replayed.mappedId (h : Replayed server live writes R) (n : ℤ) :
    (n < 0 → -n ≤ (creations writes : ℤ)) ↔ ∃ m, Replay.mappedId R.remap n = .ok m := by
  unfold Replay.mappedId
  by_cases hn : n < 0
  · rw [if_pos hn]
    constructor
    · intro hle
      have hitem : (n, server.alloc (live.created + (n.natAbs - 1))) ∈ R.remap.items := by
        rw [h.remap, mem_remapItems]
        have hle' := hle hn
        exact ⟨n.natAbs - 1, by omega, by omega, rfl⟩
      rw [(Dict.get?_eq_some _ _ _).mpr hitem]
      exact ⟨_, rfl⟩
    · rintro ⟨m, hm⟩ -
      cases hget : R.remap.get? n with
      | none =>
        rw [hget] at hm
        cases hm
      | some j =>
        rw [Dict.get?_eq_some, h.remap, mem_remapItems] at hget
        obtain ⟨k, hk, heq, -⟩ := hget
        omega
  · rw [if_neg hn]
    exact ⟨fun _ => ⟨n, rfl⟩, fun _ hneg => (hn hneg).elim⟩

theorem Replayed.mappedId_eq (h : Replayed server live writes R) {n m : ℤ}
    (hm : Replay.mappedId R.remap n = .ok m) : m = realIdOf server live n := by
  unfold Replay.mappedId at hm
  by_cases hn : n < 0
  · rw [if_pos hn] at hm
    cases hget : R.remap.get? n with
    | none =>
      rw [hget] at hm
      cases hm
    | some j =>
      rw [hget] at hm
      obtain rfl : j = m := by simpa using hm
      rw [Dict.get?_eq_some, h.remap, mem_remapItems] at hget
      obtain ⟨k, -, rfl, rfl⟩ := hget
      have hk : (-(k : ℤ) - 1).natAbs - 1 = k := by omega
      rw [realIdOf, if_pos hn, hk]
  · rw [if_neg hn] at hm
    obtain rfl : n = m := by simpa using hm
    rw [realIdOf, if_neg hn]

/-- A write is mapped exactly when its negative integers were handed out, and then to itself with
the allocated ids. -/
theorem Replayed.mapInts (h : Replayed server live writes R) (w : Write) :
    (∀ n ∈ w.ints, n < 0 → -n ≤ (creations writes : ℤ)) ↔
      w.mapInts (Replay.mappedId R.remap) = .ok (w.rename (realIdOf server live)) := by
  constructor
  · intro hresolved
    apply Write.mapInts_eq
    intro n hn
    obtain ⟨m, hm⟩ := (h.mappedId n).mp (hresolved n hn)
    rw [hm, h.mappedId_eq hm]
  · intro hmap n hn
    exact (h.mappedId n).mpr (Write.found_of_mapInts hmap n hn)

theorem Replayed.mapInts_eq (h : Replayed server live writes R) {args : Write}
    (hmap : w.mapInts (Replay.mappedId R.remap) = .ok args) :
    args = w.rename (realIdOf server live) := by
  have hresolved : ∀ n ∈ w.ints, n < 0 → -n ≤ (creations writes : ℤ) := fun n hn =>
    (h.mappedId n).mpr (Write.found_of_mapInts hmap n hn)
  rw [(h.mapInts w).mp hresolved] at hmap
  cases hmap
  rfl

/-- What a replayed create answers with: the id it allocated. -/
theorem perform_create {live' : Live} {result : Record} (hcreate : w.isCreate)
    (hperform : live.perform server w = .ok (result, live')) :
    result.read "id" = .int (server.alloc live.created) := by
  cases w with
  | createChannel data =>
    obtain rfl : Dict.set (server.defaults.update data) "id" (.int (server.alloc live.created)) =
        result := congrArg Prod.fst (Except.ok.inj hperform)
    rw [Record.read_set, if_pos rfl]
  | createChannelGroup name =>
    cases hperform
    rfl
  | createLogo data =>
    obtain rfl : Dict.set data "id" (.int (server.alloc live.created)) = result :=
      congrArg Prod.fst (Except.ok.inj hperform)
    rw [Record.read_set, if_pos rfl]
  | updateChannel => contradiction
  | deleteChannel => contradiction
  | deleteChannelGroup => contradiction
  | assignChannelNumbers => contradiction
  | updateProfileChannel => contradiction

/-- A round goes through exactly when the write is mapped, the client does not raise and the store
performs the write. -/
theorem replayOne_ok (fails : ℕ → Bool) (R R' : Replay) (w : Write) :
    Replay.replayOne server fails w R = (.ok (), R') ↔
      ∃ args result live', w.mapInts (Replay.mappedId R.remap) = .ok args ∧
        fails R.exec.issued.length = false ∧
        R.exec.live.perform server args = .ok (result, live') ∧
        R' = Replay.advance ⟨⟨live', R.exec.issued ++ [args]⟩, R.remap, R.nextTemp, R.results,
          R.completed⟩ w args result (if w.isCreate then server.alloc R.exec.live.created else 0) := by
  have hrun : Replay.replayOne server fails w R = (do
      let args ← Eff.ofExcept (w.mapInts (Replay.mappedId R.remap))
      let result ← Replay.call (send server fails args)
      let id ← if w.isCreate then Eff.ofExcept (Replay.realId w.method result) else pure 0
      modify fun replay => replay.advance w args result id : Eff Replay Unit) R := rfl
  rw [hrun, bind_apply]
  cases hmap : w.mapInts (Replay.mappedId R.remap) with
  | error e => simp [Eff.ofExcept]
  | ok args =>
    have hkind : args.isCreate = w.isCreate := by
      obtain ⟨ρ, rfl, -⟩ := Write.renamed_of_mapInts hmap
      exact Write.isCreate_rename ρ w
    dsimp only [Eff.ofExcept]
    rw [bind_apply]
    unfold Replay.call
    rw [send_eq]
    by_cases hfails : fails R.exec.issued.length
    · simp [hfails]
    · rw [if_neg hfails]
      cases hperform : R.exec.live.perform server args with
      | error e => simp [hperform]
      | ok answer =>
        obtain ⟨result, live'⟩ := answer
        cases hcreate : w.isCreate with
        | false =>
          simp only [Bool.false_eq_true, if_false]
          rw [bind_apply]
          dsimp only [pure]
          simp [hfails, hperform, modify_apply, eq_comm]
        | true =>
          have hid := perform_create (hkind.trans hcreate) hperform
          simp only [if_true]
          rw [bind_apply]
          simp [hfails, hperform, modify_apply, Eff.ofExcept, Replay.realId, hid, eq_comm]

/-- What a performed write does to the ids a store holds. -/
structure Performed (server : Server) (live : Live) (w : Write) (live' : Live) : Prop where
  created : live'.created = live.created + if w.isCreate then 1 else 0
  channels : ∀ c ∈ live.channels, c ∈ live'.channels ↔ w ≠ .deleteChannel c
  newChannels : ∀ c ∈ live'.channels, c ∈ live.channels ∨ w.isCreate ∧ c = server.alloc live.created
  groups : ∀ g ∈ live.groups, g ∈ live'.groups ↔ w ≠ .deleteChannelGroup g
  newGroups : ∀ g ∈ live'.groups, g ∈ live.groups ∨ w.isCreate ∧ g = server.alloc live.created
  profiles : ∀ p ∈ live.profiles, p ∈ live'.profiles
  born : ∀ data, w = .createChannel data → server.alloc live.created ∈ live'.channels
  addressed : ∀ c ∈ w.channelIds, c ∈ live.channels
  addressedGroup : ∀ g, w = .deleteChannelGroup g → g ∈ live.groups

theorem mem_erase {ν : Type} (d : Dict ℤ ν) (k k' : ℤ) : k' ∈ d.erase k ↔ k ≠ k' ∧ k' ∈ d := by
  rw [← Dict.isSome_get?, Dict.get?_erase, ← Dict.isSome_get?]
  split
  case isTrue heq => simp [heq]
  case isFalse hne => simp [hne]

theorem mem_setNumbers (numbers : List (ℤ × Json)) (channels : Dict ℤ Record) (c : ℤ) :
    c ∈ Live.setNumbers channels numbers ↔ c ∈ channels := by
  obtain ⟨renumber, hget, -⟩ := Live.get?_setNumbers numbers channels c
  rw [← Dict.isSome_get?, hget, Option.isSome_map, Dict.isSome_get?]

theorem performed {live' : Live} {result : Record}
    (hperform : live.perform server w = .ok (result, live')) : Performed server live w live' := by
  cases w with
  | createChannel data =>
    obtain rfl := congrArg Prod.snd (Except.ok.inj hperform)
    constructor <;> simp [Write.isCreate, Write.channelIds] <;> tauto
  | createChannelGroup name =>
    obtain rfl := congrArg Prod.snd (Except.ok.inj hperform)
    constructor <;> simp [Write.isCreate, Write.channelIds] <;> tauto
  | createLogo data =>
    obtain rfl := congrArg Prod.snd (Except.ok.inj hperform)
    constructor <;> simp [Write.isCreate, Write.channelIds] <;> tauto
  | updateChannel c data =>
    cases hget : live.channels.get? c with
    | none => simp [Live.perform, hget] at hperform
    | some channel =>
      have hmem : c ∈ live.channels := by
        rw [← Dict.isSome_get?, hget]
        rfl
      simp only [Live.perform, hget] at hperform
      obtain rfl := congrArg Prod.snd (Except.ok.inj hperform)
      constructor <;> simp [Write.isCreate, Write.channelIds, hmem]
      intro c' hc'
      exact .inr hc'
  | deleteChannel c =>
    by_cases hmem : c ∈ live.channels
    · simp only [Live.perform, hmem, if_true] at hperform
      obtain rfl := congrArg Prod.snd (Except.ok.inj hperform)
      constructor <;> simp [Write.isCreate, Write.channelIds, mem_erase, hmem]
      intro c' hc' _
      exact hc'
    · simp [Live.perform, hmem] at hperform
  | deleteChannelGroup g =>
    by_cases hmem : g ∈ live.groups
    · simp only [Live.perform, hmem, if_true] at hperform
      obtain rfl := congrArg Prod.snd (Except.ok.inj hperform)
      constructor <;> simp [Write.isCreate, Write.channelIds, mem_erase, hmem]
      intro g' hg' _
      exact hg'
    · simp [Live.perform, hmem] at hperform
  | assignChannelNumbers ids startingNumber =>
    by_cases hall : ∀ c ∈ ids, c ∈ live.channels
    · simp only [Live.perform, if_pos hall] at hperform
      obtain rfl := congrArg Prod.snd (Except.ok.inj hperform)
      constructor <;> simp [Write.isCreate, Write.channelIds, mem_setNumbers]
      exact hall
    · simp [Live.perform, hall] at hperform
  | updateProfileChannel p c data =>
    cases hprofile : live.profiles.get? p with
    | none => simp [Live.perform, hprofile] at hperform
    | some members =>
      by_cases hmem : c ∈ live.channels
      · simp only [Live.perform, hprofile, hmem, if_true] at hperform
        obtain rfl := congrArg Prod.snd (Except.ok.inj hperform)
        constructor <;> simp [Write.isCreate, Write.channelIds, hmem]
        intro p' hp'
        exact .inr hp'
      · simp [Live.perform, hprofile, hmem] at hperform

/-- The state in which the loop begins. -/
def Replay.start (live : Live) : Replay := ⟨⟨live, []⟩, ∅, -1, [], []⟩

theorem replayed_start (hosts : Hosts server live) : Replayed server live [] (Replay.start live) where
  issued := rfl
  remap := rfl
  nextTemp := rfl
  created := rfl
  free := hosts.free
  kept c hc _ := hc
  keptGroups g hg _ := hg
  keptProfiles p hp := hp
  gone c hc := by simp at hc
  goneGroups g hg := by simp at hg

theorem creations_concat (writes : List Write) (w : Write) :
    creations (writes ++ [w]) = creations writes + if w.isCreate then 1 else 0 := by
  rw [creations, List.countP_append, creations]
  cases h : w.isCreate <;> simp [h]

/-- A renamed delete addresses a live channel only when it names it. -/
theorem rename_deleteChannel (hosts : Hosts server live) {c : ℤ} (hc : c ∈ live.channels) :
    w.rename (realIdOf server live) = .deleteChannel c ↔ w = .deleteChannel c := by
  have hreal : realIdOf server live c = c :=
    realIdOf_of_nonneg server live (hosts.positive c hc).le
  cases w with
  | deleteChannel c' =>
    simp only [Write.rename, Write.deleteChannel.injEq]
    constructor
    · intro heq
      by_cases hneg : c' < 0
      · rw [realIdOf, if_pos hneg] at heq
        exact ((hosts.free _ (by omega)).1 (heq ▸ hc)).elim
      · rwa [realIdOf_of_nonneg server live (by omega)] at heq
    · rintro rfl
      exact hreal
  | _ => simp [Write.rename]

theorem rename_deleteChannelGroup (hosts : Hosts server live) {g : ℤ} (hg : g ∈ live.groups) :
    w.rename (realIdOf server live) = .deleteChannelGroup g ↔ w = .deleteChannelGroup g := by
  have hreal : realIdOf server live g = g :=
    realIdOf_of_nonneg server live (hosts.groups g hg).le
  cases w with
  | deleteChannelGroup g' =>
    simp only [Write.rename, Write.deleteChannelGroup.injEq]
    constructor
    · intro heq
      by_cases hneg : g' < 0
      · rw [realIdOf, if_pos hneg] at heq
        exact ((hosts.free _ (by omega)).2 (heq ▸ hg)).elim
      · rwa [realIdOf_of_nonneg server live (by omega)] at heq
    · rintro rfl
      exact hreal
  | _ => simp [Write.rename]

/-- A round that goes through keeps what the loop has done. -/
theorem Replayed.step {fails : ℕ → Bool} (h : Replayed server live writes R)
    (hosts : Hosts server live) (hok : Replay.replayOne server fails w R = (.ok (), R')) :
    Replayed server live (writes ++ [w]) R' := by
  obtain ⟨args, result, live', hmap, -, hperform, rfl⟩ := (replayOne_ok fails R R' w).mp hok
  obtain rfl := h.mapInts_eq hmap
  have hdone := performed hperform
  have hgrow : R.exec.live.created ≤ live'.created := by
    rw [hdone.created]
    omega
  constructor
  case issued =>
    show R.exec.issued ++ [_] = _
    rw [h.issued, List.map_append]
    rfl
  case remap =>
    show (if w.isCreate then _ else _ : Dict ℤ ℤ).items = _
    rw [creations_concat]
    cases hcreate : w.isCreate with
    | false => simpa using h.remap
    | true =>
      have hnew : R.nextTemp ∉ R.remap := by
        intro hmem
        obtain ⟨⟨i, j⟩, hitem, heq⟩ := List.mem_map.mp hmem
        rw [h.remap, mem_remapItems] at hitem
        obtain ⟨k, hk, hi, -⟩ := hitem
        have hnext := h.nextTemp
        dsimp only at heq
        omega
      simp only [if_true]
      rw [Dict.items_set_of_not_mem _ _ hnew, h.remap, remapItems, remapItems, List.range_succ,
        List.map_append, h.nextTemp, h.created]
      rfl
  case nextTemp =>
    show (if w.isCreate then _ else _ : ℤ) = _
    rw [creations_concat, h.nextTemp]
    cases w.isCreate <;> simp only [if_true, Bool.false_eq_true, if_false, Nat.cast_zero,
      Nat.cast_add, Nat.cast_one] <;> omega
  case created =>
    show live'.created = _
    rw [hdone.created, h.created, creations_concat, Write.isCreate_rename, Nat.add_assoc]
  case free =>
    intro k hk
    have hk' : live'.created ≤ k := hk
    obtain ⟨hchannels, hgroups⟩ := h.free k (hgrow.trans hk')
    have hother : ∀ c, (w.rename (realIdOf server live)).isCreate ∧
        c = server.alloc R.exec.live.created → server.alloc k ≠ c := by
      rintro c ⟨hcreate, rfl⟩ heq
      have hsame := server.alloc_injective heq
      rw [hdone.created, if_pos hcreate] at hk'
      omega
    constructor
    · intro hmem
      rcases hdone.newChannels _ hmem with hold | hnew
      · exact hchannels hold
      · exact hother _ hnew rfl
    · intro hmem
      rcases hdone.newGroups _ hmem with hold | hnew
      · exact hgroups hold
      · exact hother _ hnew rfl
  case kept =>
    intro c hc hnot
    rw [List.mem_append, not_or, List.mem_singleton] at hnot
    have hbefore := h.kept c hc hnot.1
    refine (hdone.channels c hbefore).mpr ?_
    rw [ne_eq, rename_deleteChannel hosts hc]
    exact fun heq => hnot.2 heq.symm
  case keptGroups =>
    intro g hg hnot
    rw [List.mem_append, not_or, List.mem_singleton] at hnot
    have hbefore := h.keptGroups g hg hnot.1
    refine (hdone.groups g hbefore).mpr ?_
    rw [ne_eq, rename_deleteChannelGroup hosts hg]
    exact fun heq => hnot.2 heq.symm
  case keptProfiles => exact fun p hp => hdone.profiles p (h.keptProfiles p hp)
  case gone =>
    intro c hc
    rcases List.mem_append.mp hc with hc | hc
    · obtain ⟨hout, hnever⟩ := h.gone c hc
      refine ⟨?_, fun k hk => hnever k (hgrow.trans hk)⟩
      intro hmem
      rcases hdone.newChannels _ hmem with hold | ⟨-, hnew⟩
      · exact hout hold
      · exact hnever _ le_rfl hnew
    · obtain rfl := List.mem_singleton.mp hc
      have hbefore : realIdOf server live c ∈ R.exec.live.channels :=
        hdone.addressed _ (by simp [Write.rename, Write.channelIds])
      constructor
      · intro hmem
        exact (hdone.channels _ hbefore).mp hmem rfl
      · rintro k hk heq
        exact (h.free k (hgrow.trans hk)).1 (heq ▸ hbefore)
  case goneGroups =>
    intro g hg
    rcases List.mem_append.mp hg with hg | hg
    · obtain ⟨hout, hnever⟩ := h.goneGroups g hg
      refine ⟨?_, fun k hk => hnever k (hgrow.trans hk)⟩
      intro hmem
      rcases hdone.newGroups _ hmem with hold | ⟨-, hnew⟩
      · exact hout hold
      · exact hnever _ le_rfl hnew
    · obtain rfl := List.mem_singleton.mp hg
      have hbefore : realIdOf server live g ∈ R.exec.live.groups := hdone.addressedGroup _ rfl
      constructor
      · intro hmem
        exact (hdone.groups _ hbefore).mp hmem rfl
      · rintro k hk heq
        exact (h.free k (hgrow.trans hk)).2 (heq ▸ hbefore)

/-- Whatever writes the loop went through, it has done them. -/
theorem replayed_of_each {fails : ℕ → Bool} (hosts : Hosts server live)
    (hok : each (Replay.replayOne server fails) writes (Replay.start live) = (.ok (), R)) :
    Replayed server live writes R := by
  induction writes using List.reverseRecOn generalizing R with
  | nil =>
    obtain rfl : Replay.start live = R := congrArg Prod.snd hok
    exact replayed_start hosts
  | append_singleton writes w ih =>
    obtain ⟨R₀, hbefore, hlast⟩ := (each_concat_ok _ _ _ _ _).mp hok
    exact (ih hbefore).step hosts hlast

/-- A loop that went through went through each of its rounds. -/
theorem exists_round {fails : ℕ → Bool}
    (hok : each (Replay.replayOne server fails) writes (Replay.start live) = (.ok (), R))
    {earlier later : List Write} (hwrites : writes = earlier ++ w :: later) :
    ∃ R₀ R₁, each (Replay.replayOne server fails) earlier (Replay.start live) = (.ok (), R₀) ∧
      Replay.replayOne server fails w R₀ = (.ok (), R₁) := by
  have hcons : earlier ++ w :: later = (earlier ++ [w]) ++ later := by simp
  rw [hwrites, hcons, each_append] at hok
  cases hinitial : each (Replay.replayOne server fails) (earlier ++ [w]) (Replay.start live) with
  | mk outcome R₁ =>
    rw [hinitial] at hok
    cases outcome with
    | error e => simp at hok
    | ok u =>
      obtain ⟨R₀, hbefore, hround⟩ := (each_concat_ok _ _ _ _ _).mp hinitial
      exact ⟨R₀, R₁, hbefore, hround⟩

/-- A round goes through when its integers were handed out and what it addresses exists. -/
theorem Replayed.progress (h : Replayed server live writes R)
    (hresolved : ∀ n ∈ w.ints, n < 0 → -n ≤ (creations writes : ℤ))
    (hchannels : ∀ c ∈ w.channelIds, realIdOf server live c ∈ R.exec.live.channels)
    (hgroup : ∀ g, w = .deleteChannelGroup g → realIdOf server live g ∈ R.exec.live.groups)
    (hprofile : ∀ p c data, w = .updateProfileChannel p c data →
      realIdOf server live p ∈ R.exec.live.profiles) :
    ∃ R', Replay.replayOne server neverFails w R = (.ok (), R') := by
  have hmap := (h.mapInts w).mp hresolved
  obtain ⟨result, live', hperform⟩ : ∃ result live',
      R.exec.live.perform server (w.rename (realIdOf server live)) = .ok (result, live') := by
    cases w with
    | createChannel data => exact ⟨_, _, rfl⟩
    | createChannelGroup name => exact ⟨_, _, rfl⟩
    | createLogo data => exact ⟨_, _, rfl⟩
    | updateChannel c data =>
      have hmem := hchannels c (by simp [Write.channelIds])
      obtain ⟨channel, hget⟩ := Option.isSome_iff_exists.mp ((Dict.isSome_get? _ _).mpr hmem)
      simp only [Write.rename, Live.perform, hget]
      exact ⟨_, _, rfl⟩
    | deleteChannel c =>
      have hmem := hchannels c (by simp [Write.channelIds])
      simp only [Write.rename, Live.perform, hmem, if_true]
      exact ⟨_, _, rfl⟩
    | deleteChannelGroup g =>
      have hmem := hgroup g rfl
      simp only [Write.rename, Live.perform, hmem, if_true]
      exact ⟨_, _, rfl⟩
    | assignChannelNumbers ids startingNumber =>
      have hall : ∀ c ∈ ids.map (realIdOf server live), c ∈ R.exec.live.channels := by
        intro c hc
        obtain ⟨c', hc', rfl⟩ := List.mem_map.mp hc
        exact hchannels c' hc'
      simp only [Write.rename, Live.perform, if_pos hall]
      exact ⟨_, _, rfl⟩
    | updateProfileChannel p c data =>
      have hmem := hchannels c (by simp [Write.channelIds])
      obtain ⟨members, hget⟩ :=
        Option.isSome_iff_exists.mp ((Dict.isSome_get? _ _).mpr (hprofile p c data rfl))
      simp only [Write.rename, Live.perform, hget, hmem, if_true]
      exact ⟨_, _, rfl⟩
  exact ⟨_, (replayOne_ok neverFails R _ w).mpr ⟨_, result, live', hmap, rfl, hperform, rfl⟩⟩

end Loop

/-- What holds of a planning client that has run any calls against a store. -/
structure Tracks (live : Live) (P : Planner) : Prop where
  recorded : Recorded live P.plan
  nextTempId : P.nextTempId = -(creations P.plan.writes : ℤ) - 1
  handedOut : ∀ c ∈ P.shadowChannels, P.nextTempId < c
  shadowed : ∀ c ∈ P.shadowChannels, 0 ≤ c → c ∈ live.channels ∧ c ∈ P.plan.channelPreconditions
  addressed : ∀ w ∈ P.plan.writes, ∀ c ∈ w.channelIds, 0 ≤ c →
    c ∈ live.channels ∧ c ∈ P.plan.channelPreconditions
  parents : ∀ w ∈ P.plan.writes, w.parentExists live

section Planning

variable {server : Server} {live : Live} {P Q : Planner} {w : Write}

theorem tracks_start (live : Live) : Tracks live Planner.start := by
  constructor
  case recorded =>
    constructor
    · intro c before hget
      cases hget
    · intro g name hget
      cases hget
    · intro key member hget
      cases hget
  case nextTempId => rfl
  case handedOut => intro c hc; exact (List.not_mem_nil hc).elim
  case shadowed => intro c hc; exact (List.not_mem_nil hc).elim
  case addressed => intro w hw; exact (List.not_mem_nil hw).elim
  case parents => intro w hw; exact (List.not_mem_nil hw).elim

theorem Tracks.looked (h : Tracks live P) (hosts : Hosts server live) (hlook : Looked live P Q) :
    Tracks live Q where
  recorded := by
    constructor
    · intro c before hget
      rcases hlook.channels c with heq | ⟨-, before', hsnap, hset⟩
      · exact h.recorded.channels c before (heq ▸ hget)
      · rw [hset, Option.some.injEq] at hget
        exact hget ▸ hsnap
    · rw [hlook.groups]
      exact h.recorded.groups
    · rw [hlook.profiles]
      exact h.recorded.profiles
  nextTempId := by rw [hlook.nextTempId, hlook.writes, h.nextTempId]
  handedOut c hc := by
    rw [hlook.nextTempId]
    rcases hlook.shadow c with heq | ⟨-, -, before, hsnap, -⟩
    · rw [← Dict.isSome_get?, heq, Dict.isSome_get?] at hc
      exact h.handedOut c hc
    · have hpos := hosts.positive c hsnap.mem
      rw [h.nextTempId]
      omega
  shadowed c hc hnonneg := by
    rcases hlook.shadow c with heq | ⟨-, hmem, before, hsnap, -⟩
    · rw [← Dict.isSome_get?, heq, Dict.isSome_get?] at hc
      obtain ⟨hlive, hpre⟩ := h.shadowed c hc hnonneg
      exact ⟨hlive, hlook.mem_channels hpre⟩
    · exact ⟨hsnap.mem, hmem⟩
  addressed := by
    rw [hlook.writes]
    intro w hw c hc hnonneg
    obtain ⟨hlive, hpre⟩ := h.addressed w hw c hc hnonneg
    exact ⟨hlive, hlook.mem_channels hpre⟩
  parents := by
    rw [hlook.writes]
    exact h.parents

theorem accept_writes (live : Live) (Q : Planner) (w : Write) :
    (Q.accept live w).plan.writes = Q.plan.writes ++ [w] := by
  cases w <;> rfl

theorem accept_channels (live : Live) (Q : Planner) (w : Write) :
    (Q.accept live w).plan.channelPreconditions = Q.plan.channelPreconditions := by
  cases w <;> rfl

theorem accept_nextTempId (live : Live) (Q : Planner) (w : Write) :
    (Q.accept live w).nextTempId = if w.isCreate then Q.nextTempId - 1 else Q.nextTempId := by
  cases w <;> rfl

/-- The channels an accepted write leaves shadowed were so before, or it created one. -/
theorem mem_accept_shadow {c : ℤ} (hids : ∀ c ∈ w.channelIds, c ∈ Q.shadowChannels)
    (hc : c ∈ (Q.accept live w).shadowChannels) :
    c ∈ Q.shadowChannels ∧ w ≠ .deleteChannel c ∨
      c = Q.nextTempId ∧ ∃ data, w = .createChannel data := by
  cases w with
  | createChannel data =>
    rcases (Dict.mem_set _ _ _ _).mp hc with heq | hmem
    · exact .inr ⟨heq, data, rfl⟩
    · exact .inl ⟨hmem, by simp⟩
  | createChannelGroup name => exact .inl ⟨hc, by simp⟩
  | createLogo data => exact .inl ⟨hc, by simp⟩
  | updateChannel c' data =>
    rcases (Dict.mem_set _ _ _ _).mp hc with heq | hmem
    · exact .inl ⟨hids c (by simp [Write.channelIds, heq]), by simp⟩
    · exact .inl ⟨hmem, by simp⟩
  | deleteChannel c' =>
    obtain ⟨hne, hmem⟩ := (mem_erase _ _ _).mp hc
    exact .inl ⟨hmem, fun heq => hne (Write.deleteChannel.inj heq)⟩
  | deleteChannelGroup g => exact .inl ⟨hc, by simp⟩
  | assignChannelNumbers ids startingNumber => exact .inl ⟨hc, by simp⟩
  | updateProfileChannel p c' data => exact .inl ⟨hc, by simp⟩

/-- Accepting a write keeps what holds of a planning client. -/
theorem Tracks.accept (h : Tracks live Q) (hids : ∀ c ∈ w.channelIds, c ∈ Q.shadowChannels)
    (hparent : w.parentExists live) : Tracks live (Q.accept live w) := by
  have hneg : Q.nextTempId < 0 := by
    rw [h.nextTempId]
    omega
  constructor
  case recorded =>
    constructor
    · rw [accept_channels]
      exact h.recorded.channels
    · intro g name hget
      cases w with
      | deleteChannelGroup g' =>
        have hset : (Q.plan.groupPreconditions.set g' ((live.groups.get? g').getD .null)).get? g =
            some name := hget
        rw [Dict.get?_set] at hset
        by_cases heq : g' = g
        · subst heq
          obtain ⟨stored, hstored⟩ :=
            Option.isSome_iff_exists.mp ((Dict.isSome_get? _ _).mpr hparent)
          rw [if_pos rfl, hstored] at hset
          rw [hstored]
          exact hset
        · rw [if_neg heq] at hset
          exact h.recorded.groups g name hset
      | _ => exact h.recorded.groups g name hget
    · intro key member hget
      cases w with
      | updateProfileChannel p c data =>
        have hset : (Q.plan.profilePreconditions.set (p, c)
            (.int c ∈ memberIds ((live.profiles.get? p).getD []))).get? key = some member := hget
        rw [Dict.get?_set] at hset
        by_cases heq : (p, c) = key
        · subst heq
          rw [if_pos rfl, Option.some.injEq] at hset
          exact hset.symm
        · rw [if_neg heq] at hset
          exact h.recorded.profiles key member hset
      | _ => exact h.recorded.profiles key member hget
  case nextTempId =>
    rw [accept_nextTempId, accept_writes, creations_concat, h.nextTempId]
    cases w.isCreate <;> simp only [if_true, Bool.false_eq_true, if_false, Nat.cast_zero,
      Nat.cast_add, Nat.cast_one] <;> omega
  case handedOut =>
    intro c hc
    rw [accept_nextTempId]
    rcases mem_accept_shadow hids hc with ⟨hmem, -⟩ | ⟨rfl, data, rfl⟩
    · have hout := h.handedOut c hmem
      split <;> omega
    · show Q.nextTempId - 1 < Q.nextTempId
      omega
  case shadowed =>
    intro c hc hnonneg
    rw [accept_channels]
    rcases mem_accept_shadow hids hc with ⟨hmem, -⟩ | ⟨rfl, -⟩
    · exact h.shadowed c hmem hnonneg
    · omega
  case addressed =>
    rw [accept_writes, accept_channels]
    intro w' hw' c hc hnonneg
    rcases List.mem_append.mp hw' with hw' | hw'
    · exact h.addressed w' hw' c hc hnonneg
    · obtain rfl := List.mem_singleton.mp hw'
      exact h.shadowed c (hids c hc) hnonneg
  case parents =>
    rw [accept_writes]
    intro w' hw'
    rcases List.mem_append.mp hw' with hw' | hw'
    · exact h.parents w' hw'
    · obtain rfl := List.mem_singleton.mp hw'
      exact hparent

/-- What a call leaves: a look, or a look and an accepted write. -/
theorem run_tracks (call : Planner.Call) (P : Planner) :
    ∃ Q, Looked live P Q ∧ ((call.run live P).2 = Q ∨
      ∃ w, call = .write w ∧ (call.run live P).2 = Q.accept live w ∧
        (∀ c ∈ w.channelIds, c ∈ Q.shadowChannels) ∧ w.parentExists live) := by
  cases call with
  | getChannel c =>
    refine ⟨P, Looked.refl live P, .inl ?_⟩
    show (Planner.getChannel live c P).2 = P
    rw [Planner.getChannel, bind_apply]
    dsimp only [get, getThe, MonadStateOf.get]
    cases P.shadowChannels.get? c <;> rfl
  | write w =>
    obtain ⟨Q, hlook, ⟨result, hrun, hids, hparent⟩ | ⟨⟨error, hrun⟩, -⟩⟩ := write_cases live w P
    · exact ⟨Q, hlook, .inr ⟨w, rfl, congrArg Prod.snd hrun, hids, hparent⟩⟩
    · exact ⟨Q, hlook, .inl (congrArg Prod.snd hrun)⟩

theorem tracks_planned (hosts : Hosts server live) (calls : List Planner.Call) :
    Tracks live (planned live calls) := by
  induction calls using List.reverseRecOn with
  | nil => exact tracks_start live
  | append_singleton calls call ih =>
    rw [planned_concat]
    obtain ⟨Q, hlook, hrun | ⟨w, -, hrun, hids, hparent⟩⟩ := run_tracks call (planned live calls)
    · rw [hrun]
      exact ih.looked hosts hlook
    · rw [hrun]
      exact (ih.looked hosts hlook).accept hids hparent

/-- The writes of a plan can all be replayed in a store equal to the one planned against, where
every temporary channel that planning still shadows then exists. -/
theorem exists_replayed (hosts : Hosts server live) (calls : List Planner.Call)
    (hresolved : ∀ earlier w later, (planned live calls).plan.writes = earlier ++ w :: later →
      ∀ n ∈ w.ints, n < 0 → -n ≤ (creations earlier : ℤ))
    (hundeleted : ∀ earlier w later, (planned live calls).plan.writes = earlier ++ w :: later →
      (∀ c ∈ w.channelIds, .deleteChannel c ∉ earlier) ∧
        ∀ g, w = .deleteChannelGroup g → .deleteChannelGroup g ∉ earlier) :
    ∃ R, each (Replay.replayOne server neverFails) (planned live calls).plan.writes
        (Replay.start live) = (.ok (), R) ∧
      ∀ c ∈ (planned live calls).shadowChannels, c < 0 →
        realIdOf server live c ∈ R.exec.live.channels := by
  induction calls using List.reverseRecOn with
  | nil => exact ⟨Replay.start live, rfl, fun c hc => (List.not_mem_nil hc).elim⟩
  | append_singleton calls call ih =>
    rw [planned_concat] at hresolved hundeleted ⊢
    have htracks := tracks_planned hosts calls
    obtain ⟨Q, hlook, hrun | ⟨w, -, hrun, hids, hparent⟩⟩ := run_tracks call (planned live calls)
    · rw [hrun, hlook.writes] at hresolved hundeleted
      obtain ⟨R, hloop, htemp⟩ := ih hresolved hundeleted
      rw [hrun, hlook.writes]
      refine ⟨R, hloop, ?_⟩
      intro c hc hneg
      rcases hlook.shadow c with heq | ⟨-, -, before, hsnap, -⟩
      · rw [← Dict.isSome_get?, heq, Dict.isSome_get?] at hc
        exact htemp c hc hneg
      · have hpos := hosts.positive c hsnap.mem
        omega
    · have hwrites : (call.run live (planned live calls)).2.plan.writes =
          (planned live calls).plan.writes ++ [w] := by
        rw [hrun, accept_writes, hlook.writes]
      rw [hwrites] at hresolved hundeleted ⊢
      obtain ⟨R, hloop, htemp⟩ := ih
        (fun earlier w' later heq => hresolved earlier w' (later ++ [w]) (by simp [heq]))
        (fun earlier w' later heq => hundeleted earlier w' (later ++ [w]) (by simp [heq]))
      have hdone := replayed_of_each hosts hloop
      have hshadow : ∀ c ∈ Q.shadowChannels, c < 0 →
          realIdOf server live c ∈ R.exec.live.channels := by
        intro c hc hneg
        rcases hlook.shadow c with heq | ⟨-, -, before, hsnap, -⟩
        · rw [← Dict.isSome_get?, heq, Dict.isSome_get?] at hc
          exact htemp c hc hneg
        · have hpos := hosts.positive c hsnap.mem
          omega
      have hlast := hundeleted (planned live calls).plan.writes w [] rfl
      obtain ⟨R', hround⟩ : ∃ R', Replay.replayOne server neverFails w R = (.ok (), R') := by
        apply hdone.progress (hresolved _ w [] rfl)
        · intro c hc
          by_cases hneg : c < 0
          · exact hshadow c (hids c hc) hneg
          · have hlive := ((htracks.looked hosts hlook).shadowed c (hids c hc) (by omega)).1
            rw [realIdOf_of_nonneg server live (by omega)]
            exact hdone.kept c hlive (hlast.1 c hc)
        · rintro g rfl
          rw [realIdOf_of_nonneg server live (hosts.groups g hparent).le]
          exact hdone.keptGroups g hparent (hlast.2 g rfl)
        · rintro p c data rfl
          rw [realIdOf_of_nonneg server live (hosts.profiles p hparent).le]
          exact hdone.keptProfiles p hparent
      refine ⟨R', (each_concat_ok _ _ _ _ _).mpr ⟨R, hloop, hround⟩, ?_⟩
      obtain ⟨args, result, live', hmap, -, hperform, rfl⟩ :=
        (replayOne_ok neverFails R R' w).mp hround
      obtain rfl := hdone.mapInts_eq hmap
      have heffect := performed hperform
      intro c hc hneg
      rw [hrun] at hc
      show realIdOf server live c ∈ live'.channels
      rcases mem_accept_shadow hids hc with ⟨hmem, hne⟩ | ⟨rfl, data, rfl⟩
      · refine (heffect.channels _ (hshadow c hmem hneg)).mpr ?_
        intro heq
        cases w with
        | deleteChannel c' =>
          have hreal := Write.deleteChannel.inj heq
          have hc' : NotLater server live c' := by
            by_cases hneg' : c' < 0
            · exact notLater_of_neg server live hneg'
            · have hlive := (htracks.looked hosts hlook).shadowed c'
                (hids c' (by simp [Write.channelIds])) (by omega)
              exact notLater_of_live hosts hlive.1
          have hsame := realIdOf_inj hc' (notLater_of_neg server live hneg) hreal
          exact hne (by rw [hsame])
        | _ => cases heq
      · have hborn := heffect.born _ rfl
        have hnext : Q.nextTempId = -(creations (planned live calls).plan.writes : ℤ) - 1 := by
          rw [hlook.nextTempId, htracks.nextTempId]
        have habs : Q.nextTempId.natAbs - 1 = creations (planned live calls).plan.writes := by
          omega
        rw [realIdOf, if_pos hneg, habs, ← hdone.created]
        exact hborn

/-- Replay realises a recorded plan exactly when it can be replayed. -/
theorem replay_realises_iff (d : Digest) (hdigest : Function.Injective d.digest)
    (hosts : Hosts server live) (calls : List Planner.Call) :
    Realises d server live (planned live calls).plan ↔
      Replayable live (planned live calls).plan := by
  have htracks := tracks_planned hosts calls
  have hvalidate := validate_iff hdigest htracks.recorded
  constructor
  · rintro ⟨results, remap, exec, hrun, -, -⟩
    unfold replayWritePlan at hrun
    cases hvalid : validateReadSet d live (planned live calls).plan with
    | error e =>
      simp [hvalid] at hrun
    | ok u =>
      simp only [Bool.false_eq_true, if_false, hvalid] at hrun
      cases hloop : each (Replay.replayOne server neverFails) (planned live calls).plan.writes
          (Replay.start live) with
      | mk outcome R =>
        have hstart : (⟨⟨live, []⟩, ∅, -1, [], []⟩ : Replay) = Replay.start live := rfl
        rw [hstart, hloop] at hrun
        cases outcome with
        | error e =>
          dsimp only at hrun
          cases hundo : Replay.compensate server neverFails (planned live calls).plan
              R.completed.reverse R.exec with
          | mk errors exec' =>
            rw [hundo] at hrun
            cases errors <;> simp [Except.map] at hrun
        | ok u' =>
          have hsplit : ∀ earlier w later, (planned live calls).plan.writes =
              earlier ++ w :: later → ∃ R₀ R₁, Replayed server live earlier R₀ ∧
                Replay.replayOne server neverFails w R₀ = (.ok (), R₁) := by
            intro earlier w later hwrites
            obtain ⟨R₀, R₁, hbefore, hround⟩ := exists_round hloop hwrites
            exact ⟨R₀, R₁, replayed_of_each hosts hbefore, hround⟩
          constructor
          case listed => exact hvalidate.mp hvalid
          case resolved =>
            intro earlier w later hwrites
            obtain ⟨R₀, R₁, hdone, hround⟩ := hsplit earlier w later hwrites
            obtain ⟨args, result, live', hmap, -⟩ := (replayOne_ok _ _ _ _).mp hround
            obtain rfl := hdone.mapInts_eq hmap
            exact (hdone.mapInts w).mpr hmap
          case undeleted =>
            intro earlier w later hwrites
            obtain ⟨R₀, R₁, hdone, hround⟩ := hsplit earlier w later hwrites
            obtain ⟨args, result, live', hmap, -, hperform, -⟩ := (replayOne_ok _ _ _ _).mp hround
            obtain rfl := hdone.mapInts_eq hmap
            have heffect := performed hperform
            constructor
            · intro c hc hdeleted
              apply (hdone.gone c hdeleted).1
              apply heffect.addressed
              rw [Write.channelIds_rename]
              exact List.mem_map_of_mem hc
            · rintro g rfl hdeleted
              exact (hdone.goneGroups g hdeleted).1 (heffect.addressedGroup _ rfl)
  · intro hplan
    obtain ⟨R, hloop, -⟩ := exists_replayed hosts calls hplan.resolved hplan.undeleted
    have hdone := replayed_of_each hosts hloop
    refine ⟨R.results, R.remap, R.exec, ?_, hdone.issued, hdone.remap⟩
    have hstart : (⟨⟨live, []⟩, ∅, -1, [], []⟩ : Replay) = Replay.start live := rfl
    unfold replayWritePlan
    simp only [Bool.false_eq_true, if_false, hvalidate.mpr hplan.listed, hstart, hloop]

end Planning

/-- A digest that keeps the canonical value. -/
def plainDigest : Digest where
  Hash := Json
  decEq := inferInstance
  digest := id

/-- Planning creates a channel, names it and renames the live one. -/
def createAndRename : List Planner.Call :=
  [.write (.createChannel (Dict.ofList [("name", .str "New")])),
    .write (.updateChannel (-1) (Dict.ofList [("streams", .list [.int 7])])),
    .write (.updateChannel 1 (Dict.ofList [("name", .str "Sport")]))]

theorem replay_realises_createAndRename :
    Realises plainDigest plainServer oneChannel (planned oneChannel createAndRename).plan := by
  apply (replay_realises_iff plainDigest Function.injective_id hosts_oneChannel createAndRename).mpr
  have hwrites : (planned oneChannel createAndRename).plan.writes =
      [.createChannel (Dict.ofList [("name", .str "New")]),
        .updateChannel (-1) (Dict.ofList [("streams", .list [.int 7])]),
        .updateChannel 1 (Dict.ofList [("name", .str "Sport")])] := rfl
  constructor
  case listed => exact fun c _ channel hget => listed_oneChannel c channel hget
  case resolved =>
    intro earlier w later hsplit
    rw [hwrites] at hsplit
    rcases earlier with _ | ⟨a, _ | ⟨b, _ | ⟨c, earlier⟩⟩⟩
    · obtain ⟨rfl, -⟩ := List.cons.inj hsplit
      decide
    · obtain ⟨rfl, hrest⟩ := List.cons.inj hsplit
      obtain ⟨rfl, -⟩ := List.cons.inj hrest
      decide
    · obtain ⟨rfl, hrest⟩ := List.cons.inj hsplit
      obtain ⟨rfl, hlast⟩ := List.cons.inj hrest
      obtain ⟨rfl, -⟩ := List.cons.inj hlast
      decide
    · simp at hsplit
  case undeleted =>
    intro earlier w later hsplit
    have hno : ∀ w' ∈ earlier, (∀ c, w' ≠ .deleteChannel c) ∧ ∀ g, w' ≠ .deleteChannelGroup g := by
      intro w' hw'
      have hmem : w' ∈ (planned oneChannel createAndRename).plan.writes := by
        rw [hsplit]
        exact List.mem_append_left _ hw'
      rw [hwrites] at hmem
      simp only [List.mem_cons, List.not_mem_nil, or_false] at hmem
      rcases hmem with rfl | rfl | rfl <;> exact ⟨by simp, by simp⟩
    exact ⟨fun c _ hmem => (hno _ hmem).1 c rfl, fun g _ hmem => (hno _ hmem).2 g rfl⟩

/-- A store whose one channel has no list of streams. -/
def streamless : Live :=
  { oneChannel with
    channels := Dict.ofList [(1, Dict.ofList [("id", .int 1), ("streams", .null)])] }

/-- Whether a replay went through. -/
def wentThrough : Except String ReplayEnd → Bool
  | .ok (.done ..) => true
  | _ => false

/-- A rename drifts where planning read no streams as an empty list; a channel that is updated after
its delete is recorded and cannot be replayed. -/
theorem replay_breaks_off :
    ¬Realises plainDigest plainServer streamless (planned streamless
        [.write (.updateChannel 1 (Dict.ofList [("name", .str "Sport")]))]).plan ∧
      ¬Realises plainDigest plainServer oneChannel (planned oneChannel
        [.write (.deleteChannel 1),
          .write (.updateChannel 1 (Dict.ofList [("name", .str "Sport")]))]).plan := by
  constructor
  · rintro ⟨results, remap, exec, hrun, -⟩
    have hends : wentThrough (replayWritePlan plainDigest plainServer neverFails
        (planned streamless [.write (.updateChannel 1 (Dict.ofList [("name", .str "Sport")]))]).plan
        false ⟨streamless, []⟩).1 = false := by decide +kernel
    rw [hrun] at hends
    cases hends
  · rintro ⟨results, remap, exec, hrun, -⟩
    have hends : wentThrough (replayWritePlan plainDigest plainServer neverFails
        (planned oneChannel [.write (.deleteChannel 1),
          .write (.updateChannel 1 (Dict.ofList [("name", .str "Sport")]))]).plan
        false ⟨oneChannel, []⟩).1 = false := by decide +kernel
    rw [hrun] at hends
    cases hends

end ChannelManager.Plans
