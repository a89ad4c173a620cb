import ChannelManager.Plans.Planning
import Mathlib.Data.List.Induction

/-!
# Planning reads its own writes

The planning client is compared with the live one running the same calls, temporary ids standing
for the ids Dispatcharr allocates. A read agrees on every field that the planning client knows: one
that a write set, or that no write touched.
-/

namespace ChannelManager.Plans

open Eff

/-- The id that a temporary id stands for when the calls start at a store. -/
def realIdOf (server : Server) (live : Live) (n : ℤ) : ℤ :=
  if n < 0 then server.alloc (live.created + (n.natAbs - 1)) else n

/-- The live client runs a call. A call that raises changes nothing. -/
def executedCall (server : Server) (ρ : ℤ → ℤ) (live : Live) : Planner.Call → Live
  | .getChannel _ => live
  | .write w =>
    match live.perform server (w.rename ρ) with
    | .ok (_, live') => live'
    | .error _ => live

/-- The store after the live client has run the calls. -/
def executed (server : Server) (live : Live) (calls : List Planner.Call) : Live :=
  calls.foldl (executedCall server (realIdOf server live)) live

namespace Planner.Call

/-- Whether the call creates an entity. -/
def creates : Planner.Call → Bool
  | .getChannel _ => false
  | .write w => w.isCreate

/-- The channels the call addresses by id. -/
def channelIds : Planner.Call → List ℤ
  | .getChannel c => [c]
  | .write w => w.channelIds

end Planner.Call

/-- The temporary id of the next entity after some calls. -/
def tempIdAfter (calls : List Planner.Call) : ℤ := -(calls.countP Planner.Call.creates : ℤ) - 1

/-- The field of the channel is known to the planning client after some calls, the latest first: it
was set by a write since, or by none at all; a number that Dispatcharr assigned is not known, and
neither is what Dispatcharr fills in for a field that a create leaves out. -/
def Known (server : Server) (field : String) (c : ℤ) : List Planner.Call → Prop
  | [] => True
  | .write (.updateChannel c' data) :: past => c' = c ∧ field ∈ data ∨ Known server field c past
  | .write (.assignChannelNumbers ids _) :: past =>
    ¬(field = "channel_number" ∧ c ∈ ids) ∧ Known server field c past
  | .write (.createChannel data) :: past =>
    if c = tempIdAfter past then field ∈ data ∨ server.defaults.read field = .null
    else Known server field c past
  | _ :: past => Known server field c past

/-- The value planning reads, or that value with its temporary ids replaced. -/
def SameUpTo (ρ : ℤ → ℤ) (v w : Json) : Prop := w = v ∨ w = v.rename ρ

/-- A read of the planning client and one of the live client agree: on the tracked fields, or in
that there is no such channel. -/
def ReadsAlike (ρ : ℤ → ℤ) : Except String Record → Except String Record → Prop
  | .ok channel, .ok channel' =>
    ∀ field ∈ trackedFields, SameUpTo ρ (channel.read field) (channel'.read field)
  | .error _, .error _ => True
  | _, _ => False

/-- Every live channel lists its streams. -/
def Listed (live : Live) : Prop :=
  ∀ c channel, live.channels.get? c = some channel →
    ∃ items, channel.read "streams" = .list items

/-- Ids are positive, and those Dispatcharr is still to allocate are free. -/
structure Hosts (server : Server) (live : Live) : Prop where
  positive : ∀ c ∈ live.channels, 0 < c
  groups : ∀ g ∈ live.groups, 0 < g
  profiles : ∀ p ∈ live.profiles, 0 < p
  free : ∀ k, live.created ≤ k →
    server.alloc k ∉ live.channels ∧ server.alloc k ∉ live.groups

/-- Not an id that Dispatcharr is still to allocate. -/
def NotLater (server : Server) (live : Live) (c : ℤ) : Prop :=
  ∀ k, live.created ≤ k → c ≠ server.alloc k

/-- A read that planning answers as the live client would: every live channel lists its streams, no
call names an id that Dispatcharr allocates only later, no earlier call deletes the channel, which
is a live one, and planning knows its tracked fields. -/
structure Readable (server : Server) (live : Live) (calls : List Planner.Call) (c : ℤ) : Prop where
  listed : Listed live
  named : ∀ call ∈ calls, ∀ c' ∈ call.channelIds, NotLater server live c'
  target : NotLater server live c
  kept : c ∈ live.channels → .write (.deleteChannel c) ∉ calls
  known : ∀ field ∈ trackedFields, Known server field c calls.reverse

section

variable {server : Server} {live : Live} {P Q : Planner} {L : Live} {calls : List Planner.Call}

theorem notLater_of_neg (server : Server) (live : Live) {c : ℤ} (h : c < 0) :
    NotLater server live c := by
  intro k _ heq
  have hpos := server.alloc_pos k
  omega

theorem realIdOf_of_nonneg (server : Server) (live : Live) {c : ℤ} (h : 0 ≤ c) :
    realIdOf server live c = c :=
  if_neg (by omega)

/-- Different channels stand for different ids. -/
theorem realIdOf_inj {c c' : ℤ} (hc : NotLater server live c) (hc' : NotLater server live c')
    (h : realIdOf server live c = realIdOf server live c') : c = c' := by
  unfold realIdOf at h
  split at h <;> split at h
  · have halloc := server.alloc_injective h
    omega
  · exact (hc' _ (by omega) h.symm).elim
  · exact (hc _ (by omega) h).elim
  · exact h

/-- The id of the next temporary entity is the next one Dispatcharr allocates. -/
theorem realIdOf_tempIdAfter (server : Server) (live : Live) (calls : List Planner.Call) :
    realIdOf server live (tempIdAfter calls) =
      server.alloc (live.created + calls.countP Planner.Call.creates) := by
  have hneg : tempIdAfter calls < 0 := by
    unfold tempIdAfter
    omega
  have habs : (tempIdAfter calls).natAbs - 1 = calls.countP Planner.Call.creates := by
    unfold tempIdAfter
    omega
  rw [realIdOf, if_pos hneg, habs]

/-- What planning reads of a channel. -/
def viewOf (live : Live) (P : Planner) (c : ℤ) : Option Record :=
  (P.shadowChannels.get? c).or (live.channels.get? c)

theorem getChannel_eq (live : Live) (P : Planner) (c : ℤ) :
    (Planner.getChannel live c P).1 =
      match viewOf live P c with
      | some channel => .ok channel
      | none => .error s!"channel {c} not found" := by
  rw [Planner.getChannel, bind_apply, viewOf]
  dsimp only [get, getThe, MonadStateOf.get]
  cases P.shadowChannels.get? c with
  | some channel => rfl
  | none =>
    rw [Option.none_or]
    show live.getChannel c = _
    unfold Live.getChannel
    cases live.channels.get? c <;> rfl

/-- The tracked fields of a snapshot are those of the channel. -/
theorem read_relevant (c : ℤ) (channel : Record) (streams : List Json) {field : String}
    (h : field ∈ trackedFields) :
    (Planner.relevant c channel streams).read field =
      if field = "streams" then .list streams else channel.read field := by
  simp only [trackedFields, List.mem_cons, List.not_mem_nil, or_false] at h
  rcases h with rfl | rfl | rfl | rfl | rfl | rfl | rfl | rfl <;> rfl

theorem read_snapshot (hlisted : Listed live) {c : ℤ} {before : Record}
    (hsnap : SnapshotOf live c before) :
    ∃ channel, live.channels.get? c = some channel ∧
      ∀ field ∈ trackedFields, before.read field = channel.read field := by
  obtain ⟨channel, streams, hget, hstreams, rfl⟩ := hsnap
  obtain ⟨items, hitems⟩ := hlisted c channel hget
  refine ⟨channel, hget, ?_⟩
  intro field hfield
  rw [read_relevant c channel streams hfield]
  split
  case isTrue heq =>
    subst heq
    have hlist : (Json.list items).orEmpty.toList = .ok items := by
      cases items <;> rfl
    rw [hitems, hlist] at hstreams
    cases hstreams
    exact hitems.symm
  case isFalse => rfl

/-- A channel that is live and lists its streams can be looked at. -/
theorem exists_snapshot (hlisted : Listed live) {c : ℤ} (hc : c ∈ live.channels) :
    ∃ before, SnapshotOf live c before := by
  obtain ⟨channel, hget⟩ := Option.isSome_iff_exists.mp ((Dict.isSome_get? _ _).mpr hc)
  obtain ⟨items, hitems⟩ := hlisted c channel hget
  have hlist : (Json.list items).orEmpty.toList = .ok items := by
    cases items <;> rfl
  exact ⟨_, channel, items, hget, by rw [hitems, hlist], rfl⟩

theorem SnapshotOf.mem {c : ℤ} {before : Record} (h : SnapshotOf live c before) :
    c ∈ live.channels := by
  obtain ⟨channel, -, hget, -⟩ := h
  rw [← Dict.isSome_get?, hget]
  rfl

/-- Looking changes no tracked field of what planning reads. -/
theorem Looked.view (h : Looked live P Q) (hlisted : Listed live) {c : ℤ} {channel : Record}
    (hview : viewOf live Q c = some channel) :
    ∃ old, viewOf live P c = some old ∧
      ∀ field ∈ trackedFields, channel.read field = old.read field := by
  rcases h.shadow c with heq | ⟨hnone, -, before, hsnap, hset⟩
  · rw [viewOf, heq] at hview
    exact ⟨channel, hview, fun _ _ => rfl⟩
  · obtain ⟨old, hget, hread⟩ := read_snapshot hlisted hsnap
    rw [viewOf, hset, Option.some_or, Option.some.injEq] at hview
    subst hview
    exact ⟨old, by rw [viewOf, hnone, Option.none_or, hget], hread⟩

/-- The planning client and the store that ran the same calls, seen from any channel. -/
structure Mirrors (server : Server) (live : Live) (calls : List Planner.Call) (P : Planner)
    (L : Live) : Prop where
  nextTempId : P.nextTempId = tempIdAfter calls
  created : L.created = live.created + calls.countP Planner.Call.creates
  unborn : ∀ k, L.created ≤ k → server.alloc k ∉ L.channels
  handedOut : ∀ c ∈ P.shadowChannels, P.nextTempId < c
  shadowed : ∀ c ∈ P.shadowChannels, 0 ≤ c → c ∈ live.channels
  temporary : ∀ c < 0, c ∈ P.shadowChannels ↔ realIdOf server live c ∈ L.channels
  remaining : ∀ c ∈ L.channels, 0 ≤ c → NotLater server live c → c ∈ live.channels
  kept : ∀ c ∈ live.channels, .write (.deleteChannel c) ∉ calls → c ∈ L.channels
  agree : ∀ c, NotLater server live c → ∀ channel channel', viewOf live P c = some channel →
    L.channels.get? (realIdOf server live c) = some channel' → ∀ field ∈ trackedFields,
      Known server field c calls.reverse →
      SameUpTo (realIdOf server live) (channel.read field) (channel'.read field)

theorem mirrors_start (hosts : Hosts server live) : Mirrors server live [] Planner.start live where
  nextTempId := rfl
  created := rfl
  unborn k hk := (hosts.free k hk).1
  handedOut c hc := by simp [Planner.start, Dict.mem_def] at hc
  shadowed c hc := by simp [Planner.start, Dict.mem_def] at hc
  temporary c hc := by
    have hout : realIdOf server live c ∉ live.channels := by
      rw [realIdOf, if_pos hc]
      exact (hosts.free _ (by omega)).1
    simp [Planner.start, Dict.mem_def] at hout ⊢
    exact hout
  remaining c hc _ _ := hc
  kept c hc _ := hc
  agree c hlater channel channel' hview hget field _ _ := by
    left
    have hlive : live.channels.get? c = some channel := by simpa [viewOf, Planner.start] using hview
    have hmem : c ∈ live.channels := by
      rw [← Dict.isSome_get?, hlive]
      rfl
    rw [realIdOf_of_nonneg _ _ (hosts.positive c hmem).le, hlive] at hget
    cases hget
    rfl

/-- Looking at channels keeps the correspondence. -/
theorem Mirrors.looked (h : Mirrors server live calls P L) (hosts : Hosts server live)
    (hlisted : Listed live) (hlook : Looked live P Q) : Mirrors server live calls Q L where
  nextTempId := hlook.nextTempId.trans h.nextTempId
  created := h.created
  unborn := h.unborn
  handedOut c hc := by
    rw [hlook.nextTempId]
    rcases hlook.shadow c with heq | ⟨-, -, before, hsnap, -⟩
    · rw [← Dict.isSome_get?, heq, Dict.isSome_get?] at hc
      exact h.handedOut c hc
    · have hpos := hosts.positive c hsnap.mem
      rw [h.nextTempId, tempIdAfter]
      omega
  shadowed c hc hnonneg := by
    rcases hlook.shadow c with heq | ⟨-, -, before, hsnap, -⟩
    · rw [← Dict.isSome_get?, heq, Dict.isSome_get?] at hc
      exact h.shadowed c hc hnonneg
    · exact hsnap.mem
  temporary c hc := by
    rw [← h.temporary c hc, ← Dict.isSome_get?, ← Dict.isSome_get?]
    rcases hlook.shadow c with heq | ⟨-, -, before, hsnap, -⟩
    · rw [heq]
    · have hpos := hosts.positive c hsnap.mem
      omega
  remaining := h.remaining
  kept := h.kept
  agree c hlater channel channel' hview hget field hfield hknown := by
    obtain ⟨old, hold, hread⟩ := hlook.view hlisted hview
    rw [hread field hfield]
    exact h.agree c hlater old channel' hold hget field hfield hknown

/-- A channel that planning finds neither shadowed nor readable is not in the store either. -/
theorem Mirrors.not_mem (h : Mirrors server live calls P L) (hlisted : Listed live) {c : ℤ}
    (hlater : NotLater server live c) (hshadow : c ∉ P.shadowChannels)
    (hnone : ∀ before, ¬SnapshotOf live c before) : realIdOf server live c ∉ L.channels := by
  intro hmem
  by_cases hc : c < 0
  · exact hshadow ((h.temporary c hc).mpr hmem)
  · rw [realIdOf_of_nonneg server live (by omega)] at hmem
    obtain ⟨before, hsnap⟩ := exists_snapshot hlisted (h.remaining c hmem (by omega) hlater)
    exact hnone before hsnap

/-- A call that changes no shadow, and of the store no channel in a field still known after it, keeps
the correspondence. -/
theorem Mirrors.append {L' : Live} {call : Planner.Call} (h : Mirrors server live calls P L)
    (hcreates : call.creates = false) (hshadow : Q.shadowChannels = P.shadowChannels)
    (hnext : Q.nextTempId = P.nextTempId) (hcreated : L'.created = L.created)
    (hids : ∀ id, id ∈ L'.channels ↔ id ∈ L.channels)
    (hfields : ∀ c channel', NotLater server live c →
      L'.channels.get? (realIdOf server live c) = some channel' →
      ∃ channel, L.channels.get? (realIdOf server live c) = some channel ∧
        ∀ field, Known server field c (call :: calls.reverse) →
          Known server field c calls.reverse ∧ channel'.read field = channel.read field) :
    Mirrors server live (calls ++ [call]) Q L' := by
  have hcount : (calls ++ [call]).countP Planner.Call.creates =
      calls.countP Planner.Call.creates := by
    simp [List.countP_append, hcreates]
  constructor
  case nextTempId => rw [hnext, h.nextTempId, tempIdAfter, tempIdAfter, hcount]
  case created => rw [hcreated, h.created, hcount]
  case unborn =>
    intro k hk
    rw [hids]
    exact h.unborn k (hcreated ▸ hk)
  case handedOut => rw [hshadow, hnext]; exact h.handedOut
  case shadowed => rw [hshadow]; exact h.shadowed
  case temporary => intro c hc; rw [hshadow, hids]; exact h.temporary c hc
  case remaining => intro c hc; exact h.remaining c ((hids c).mp hc)
  case kept =>
    intro c hc hnot
    rw [hids]
    exact h.kept c hc fun hmem => hnot (List.mem_append_left _ hmem)
  case agree =>
    intro c hlater channel channel' hview hget field hfield hknown
    rw [viewOf, hshadow] at hview
    rw [List.reverse_append] at hknown
    obtain ⟨old, hold, hsame⟩ := hfields c channel' hlater hget
    obtain ⟨hbefore, hread⟩ := hsame field hknown
    rw [hread]
    exact h.agree c hlater channel old hview hold field hfield hbefore

theorem ne_id_of_tracked {field : String} (h : field ∈ trackedFields) : field ≠ "id" := by
  rintro rfl
  revert h
  decide

/-- The tracked fields of an updated record. -/
theorem read_updated (channel data : Record) (id : Json) {field : String}
    (h : field ∈ trackedFields) :
    Record.read (Dict.set (channel.update data) "id" id) field =
      if field ∈ data then data.read field else channel.read field := by
  rw [Record.read_set, if_neg (ne_id_of_tracked h).symm, Record.read_update]

theorem mem_rename (ρ : ℤ → ℤ) (data : Record) (field : String) :
    field ∈ data.rename ρ ↔ field ∈ data := by
  rw [← Dict.isSome_get?, ← Dict.isSome_get?, Record.get?_rename, Option.isSome_map]

/-- An update of a channel that planning has looked at. -/
theorem Mirrors.update {c : ℤ} {data : Record} (h : Mirrors server live calls Q L)
    (hlater : NotLater server live c) (hshadow : c ∈ Q.shadowChannels) :
    Mirrors server live (calls ++ [.write (.updateChannel c data)])
      (Q.accept live (.updateChannel c data))
      (executedCall server (realIdOf server live) L (.write (.updateChannel c data))) := by
  obtain ⟨current, hcurrent⟩ := Option.isSome_iff_exists.mp ((Dict.isSome_get? _ _).mpr hshadow)
  have hcount : (calls ++ [Planner.Call.write (.updateChannel c data)]).countP Planner.Call.creates =
      calls.countP Planner.Call.creates := by
    simp [List.countP_append, Planner.Call.creates, Write.isCreate]
  have hkeys : ∀ c', c' ∈ (Q.accept live (.updateChannel c data)).shadowChannels ↔
      c' ∈ Q.shadowChannels := by
    intro c'
    rw [Planner.accept, Dict.mem_set]
    constructor
    · rintro (rfl | hmem)
      · exact hshadow
      · exact hmem
    · exact .inr
  -- Either the store still has the channel and updates it, or it refuses.
  obtain ⟨L', hrun, hcreated, hids, hget⟩ : ∃ L',
      executedCall server (realIdOf server live) L (.write (.updateChannel c data)) = L' ∧
      L'.created = L.created ∧ (∀ id, id ∈ L'.channels ↔ id ∈ L.channels) ∧
      ∀ id channel', L'.channels.get? id = some channel' →
        (id ≠ realIdOf server live c ∧ L.channels.get? id = some channel') ∨
        ∃ channel, id = realIdOf server live c ∧ L.channels.get? id = some channel ∧
          channel' = Dict.set (channel.update (data.rename (realIdOf server live))) "id"
            (.int (realIdOf server live c)) := by
    cases hchannel : L.channels.get? (realIdOf server live c) with
    | none =>
      have hrun : executedCall server (realIdOf server live) L (.write (.updateChannel c data)) =
          L := by
        simp only [executedCall, Write.rename, Live.perform, hchannel]
      refine ⟨L, hrun, rfl, fun _ => Iff.rfl, ?_⟩
      intro id channel' hget
      refine .inl ⟨?_, hget⟩
      rintro rfl
      rw [hchannel] at hget
      cases hget
    | some channel =>
      let updated : Record := Dict.set (channel.update (data.rename (realIdOf server live))) "id"
        (.int (realIdOf server live c))
      have hrun : executedCall server (realIdOf server live) L (.write (.updateChannel c data)) =
          { L with channels := L.channels.set (realIdOf server live c) updated } := by
        simp only [executedCall, Write.rename, Live.perform, hchannel, updated]
      refine ⟨_, hrun, rfl, ?_, ?_⟩
      · intro id
        rw [Dict.mem_set]
        constructor
        · rintro (rfl | hmem)
          · rw [← Dict.isSome_get?, hchannel]
            rfl
          · exact hmem
        · exact .inr
      · intro id channel' hget
        rw [Dict.get?_set] at hget
        by_cases hid : realIdOf server live c = id
        · rw [if_pos hid, Option.some.injEq] at hget
          exact .inr ⟨channel, hid.symm, by rw [← hid, hchannel], hget.symm⟩
        · rw [if_neg hid] at hget
          exact .inl ⟨Ne.symm hid, hget⟩
  rw [hrun]
  constructor
  case nextTempId => rw [Planner.accept, tempIdAfter, hcount]; exact h.nextTempId
  case created => rw [hcreated, h.created, hcount]
  case unborn =>
    intro k hk
    rw [hids]
    exact h.unborn k (hcreated ▸ hk)
  case handedOut => intro c' hc'; exact h.handedOut c' ((hkeys c').mp hc')
  case shadowed => intro c' hc'; exact h.shadowed c' ((hkeys c').mp hc')
  case temporary => intro c' hc'; rw [hkeys, hids]; exact h.temporary c' hc'
  case remaining => intro c' hc'; exact h.remaining c' ((hids c').mp hc')
  case kept =>
    intro c' hc' hnot
    rw [hids]
    exact h.kept c' hc' fun hmem => hnot (List.mem_append_left _ hmem)
  case agree =>
    intro c' hlater' channel channel' hview hget' field hfield hknown
    rw [List.reverse_append] at hknown
    rcases hget _ _ hget' with ⟨hne, hold⟩ | ⟨old, heq, hold, rfl⟩
    · have hcc : c ≠ c' := fun heq => hne (by rw [heq])
      rw [viewOf, Planner.accept, Dict.get?_set_ne _ _ hcc] at hview
      rcases hknown with ⟨heq, -⟩ | hknown
      · exact (hcc heq).elim
      · exact h.agree c' hlater' channel channel' hview hold field hfield hknown
    · obtain rfl := realIdOf_inj hlater' hlater heq
      rw [viewOf, Planner.accept, Dict.get?_set_self, Option.some_or, Option.some.injEq] at hview
      subst hview
      rw [hcurrent, Option.getD_some, Record.read_update, read_updated _ _ _ hfield]
      simp only [mem_rename]
      by_cases hset : field ∈ data
      · rw [if_pos hset, if_pos hset, Record.read_rename]
        exact .inr rfl
      · rw [if_neg hset, if_neg hset]
        rcases hknown with ⟨-, hmem⟩ | hknown
        · exact (hset hmem).elim
        · exact h.agree c' hlater' current old (by rw [viewOf, hcurrent, Option.some_or]) hold field
            hfield hknown

theorem notLater_of_live (hosts : Hosts server live) {c : ℤ} (hc : c ∈ live.channels) :
    NotLater server live c := by
  rintro k hk rfl
  exact (hosts.free k hk).1 hc

/-- A delete of a channel that planning has looked at. -/
theorem Mirrors.delete {c : ℤ} (h : Mirrors server live calls Q L) (hosts : Hosts server live)
    (hlater : NotLater server live c) :
    Mirrors server live (calls ++ [.write (.deleteChannel c)])
      (Q.accept live (.deleteChannel c))
      (executedCall server (realIdOf server live) L (.write (.deleteChannel c))) := by
  have hcount : (calls ++ [Planner.Call.write (.deleteChannel c)]).countP Planner.Call.creates =
      calls.countP Planner.Call.creates := by
    simp [List.countP_append, Planner.Call.creates, Write.isCreate]
  obtain ⟨L', hrun, hcreated, hget⟩ : ∃ L',
      executedCall server (realIdOf server live) L (.write (.deleteChannel c)) = L' ∧
      L'.created = L.created ∧ ∀ id, L'.channels.get? id =
        if realIdOf server live c = id then none else L.channels.get? id := by
    by_cases hmem : realIdOf server live c ∈ L.channels
    · have hrun : executedCall server (realIdOf server live) L (.write (.deleteChannel c)) =
          { L with channels := L.channels.erase (realIdOf server live c) } := by
        simp only [executedCall, Write.rename, Live.perform, hmem, if_true]
      exact ⟨_, hrun, rfl, fun id => Dict.get?_erase _ _ id⟩
    · have hrun : executedCall server (realIdOf server live) L (.write (.deleteChannel c)) = L := by
        simp only [executedCall, Write.rename, Live.perform, hmem, if_false]
      refine ⟨_, hrun, rfl, ?_⟩
      intro id
      split
      case isTrue heq => exact (Dict.get?_eq_none _ _).mpr (heq ▸ hmem)
      case isFalse => rfl
  have hids : ∀ id, id ∈ L'.channels ↔ realIdOf server live c ≠ id ∧ id ∈ L.channels := by
    intro id
    rw [← Dict.isSome_get?, hget, ← Dict.isSome_get?]
    split
    case isTrue heq => simp [heq]
    case isFalse hne => simp [hne]
  have hkeys : ∀ c', c' ∈ (Q.accept live (.deleteChannel c)).shadowChannels ↔
      c ≠ c' ∧ c' ∈ Q.shadowChannels := by
    intro c'
    rw [← Dict.isSome_get?, Planner.accept, Dict.get?_erase, ← Dict.isSome_get?]
    split
    case isTrue heq => simp [heq]
    case isFalse hne => simp [hne]
  rw [hrun]
  constructor
  case nextTempId => rw [Planner.accept, tempIdAfter, hcount]; exact h.nextTempId
  case created => rw [hcreated, h.created, hcount]
  case unborn =>
    intro k hk hmem
    exact h.unborn k (hcreated ▸ hk) ((hids _).mp hmem).2
  case handedOut => intro c' hc'; exact h.handedOut c' ((hkeys c').mp hc').2
  case shadowed => intro c' hc'; exact h.shadowed c' ((hkeys c').mp hc').2
  case temporary =>
    intro c' hc'
    rw [hkeys, hids, h.temporary c' hc']
    have hinj : c = c' ↔ realIdOf server live c = realIdOf server live c' :=
      ⟨fun heq => heq ▸ rfl, realIdOf_inj hlater (notLater_of_neg server live hc')⟩
    rw [ne_eq, ne_eq, hinj]
  case remaining => intro c' hc'; exact h.remaining c' ((hids c').mp hc').2
  case kept =>
    intro c' hc' hnot
    rw [hids]
    constructor
    · intro heq
      rw [← realIdOf_of_nonneg server live (hosts.positive c' hc').le] at heq
      have hsame := realIdOf_inj hlater (notLater_of_live hosts hc') heq
      exact hnot (by simp [hsame])
    · exact h.kept c' hc' fun hmem => hnot (List.mem_append_left _ hmem)
  case agree =>
    intro c' hlater' channel channel' hview hget' field hfield hknown
    rw [List.reverse_append] at hknown
    rw [hget] at hget'
    by_cases heq : realIdOf server live c = realIdOf server live c'
    · rw [if_pos heq] at hget'
      cases hget'
    · have hne : c ≠ c' := fun hcc => heq (hcc ▸ rfl)
      rw [if_neg heq] at hget'
      rw [viewOf, Planner.accept, Dict.get?_erase, if_neg hne] at hview
      exact h.agree c' hlater' channel channel' hview hget' field hfield hknown

theorem tempIdAfter_reverse (calls : List Planner.Call) :
    tempIdAfter calls.reverse = tempIdAfter calls := by
  rw [tempIdAfter, List.countP_reverse, tempIdAfter]

/-- A create of a channel. -/
theorem Mirrors.create {data : Record} (h : Mirrors server live calls Q L) :
    Mirrors server live (calls ++ [.write (.createChannel data)])
      (Q.accept live (.createChannel data))
      (executedCall server (realIdOf server live) L (.write (.createChannel data))) := by
  have hcount : (calls ++ [Planner.Call.write (.createChannel data)]).countP
      Planner.Call.creates = calls.countP Planner.Call.creates + 1 := by
    simp [List.countP_append, Planner.Call.creates, Write.isCreate]
  have hneg : Q.nextTempId < 0 := by
    rw [h.nextTempId, tempIdAfter]
    omega
  have hreal : realIdOf server live Q.nextTempId = server.alloc L.created := by
    rw [h.nextTempId, realIdOf_tempIdAfter, h.created]
  let channel : Record := Dict.set
    (server.defaults.update (data.rename (realIdOf server live))) "id"
    (.int (server.alloc L.created))
  have hrun : executedCall server (realIdOf server live) L (.write (.createChannel data)) =
      Live.mk (L.channels.set (server.alloc L.created) channel) L.groups L.logos L.profiles
        (L.created + 1) := rfl
  rw [hrun]
  constructor
  case nextTempId =>
    show Q.nextTempId - 1 = _
    rw [h.nextTempId, tempIdAfter, tempIdAfter, hcount]
    omega
  case created =>
    show L.created + 1 = _
    rw [h.created, hcount]
    omega
  case unborn =>
    intro k hk
    have hk' : L.created + 1 ≤ k := hk
    rw [Dict.mem_set]
    rintro (heq | hmem)
    · have hsame := server.alloc_injective heq
      omega
    · exact h.unborn k (by omega) hmem
  case handedOut =>
    intro c hc
    show Q.nextTempId - 1 < c
    rcases (Dict.mem_set _ _ _ _).mp hc with rfl | hc
    · omega
    · have hout := h.handedOut c hc
      omega
  case shadowed =>
    intro c hc hnonneg
    rcases (Dict.mem_set _ _ _ _).mp hc with rfl | hc
    · omega
    · exact h.shadowed c hc hnonneg
  case temporary =>
    intro c hc
    have hinj : c = Q.nextTempId ↔ realIdOf server live c = server.alloc L.created := by
      rw [← hreal]
      exact ⟨fun heq => heq ▸ rfl,
        realIdOf_inj (notLater_of_neg server live hc) (notLater_of_neg server live hneg)⟩
    rw [Planner.accept, Dict.mem_set, Dict.mem_set, hinj, h.temporary c hc]
  case remaining =>
    intro c hc hnonneg hlater
    rcases (Dict.mem_set _ _ _ _).mp hc with heq | hc
    · exact (hlater L.created (by rw [h.created]; omega) heq).elim
    · exact h.remaining c hc hnonneg hlater
  case kept =>
    intro c hc hnot
    rw [Dict.mem_set]
    exact .inr (h.kept c hc fun hmem => hnot (List.mem_append_left _ hmem))
  case agree =>
    intro c hlater old channel' hview hget field hfield hknown
    rw [List.reverse_append] at hknown
    have hknown' : if c = tempIdAfter calls.reverse then
        field ∈ data ∨ server.defaults.read field = .null
        else Known server field c calls.reverse := hknown
    rw [tempIdAfter_reverse, ← h.nextTempId] at hknown'
    by_cases hc : c = Q.nextTempId
    · subst hc
      rw [if_pos rfl] at hknown'
      rw [hreal, Dict.get?_set_self, Option.some.injEq] at hget
      rw [viewOf, Planner.accept, Dict.get?_set_self, Option.some_or, Option.some.injEq] at hview
      subst hview hget
      rw [Record.read_update, read_updated _ _ _ hfield]
      simp only [mem_rename]
      by_cases hset : field ∈ data
      · rw [if_pos hset, if_pos hset, Record.read_rename]
        exact .inr rfl
      · rw [if_neg hset, if_neg hset]
        have hnull : Record.read (Dict.ofList [("id", .int Q.nextTempId)]) field = .null := by
          show Record.read (Dict.set ∅ "id" (.int Q.nextTempId)) field = .null
          rw [Record.read_set, if_neg (ne_id_of_tracked hfield).symm]
          rfl
        rw [hnull]
        rcases hknown' with hmem | hdefault
        · exact (hset hmem).elim
        · exact .inl hdefault
    · rw [if_neg hc] at hknown'
      have hne : server.alloc L.created ≠ realIdOf server live c := by
        rw [← hreal]
        exact fun heq => hc (realIdOf_inj (notLater_of_neg server live hneg) hlater heq).symm
      rw [Dict.get?_set_ne _ _ hne] at hget
      rw [viewOf, Planner.accept, Dict.get?_set_ne _ _ (Ne.symm hc)] at hview
      exact h.agree c hlater old channel' hview hget field hfield hknown'

/-- A create of a group or a logo takes a temporary id and an allocated one. -/
theorem Mirrors.createOther {w : Write} {L' : Live} (h : Mirrors server live calls P L)
    (hcreates : w.isCreate) (hother : ∀ data, w ≠ .createChannel data)
    (hshadow : Q.shadowChannels = P.shadowChannels) (hnext : Q.nextTempId = P.nextTempId - 1)
    (hchannels : L'.channels = L.channels) (hcreated : L'.created = L.created + 1) :
    Mirrors server live (calls ++ [.write w]) Q L' := by
  have hcount : (calls ++ [Planner.Call.write w]).countP Planner.Call.creates =
      calls.countP Planner.Call.creates + 1 := by
    simp [List.countP_append, Planner.Call.creates, hcreates]
  constructor
  case nextTempId =>
    rw [hnext, h.nextTempId, tempIdAfter, tempIdAfter, hcount]
    omega
  case created =>
    rw [hcreated, h.created, hcount]
    omega
  case unborn =>
    intro k hk
    rw [hchannels]
    exact h.unborn k (by omega)
  case handedOut =>
    intro c hc
    rw [hshadow] at hc
    have hout := h.handedOut c hc
    omega
  case shadowed => rw [hshadow]; exact h.shadowed
  case temporary => rw [hshadow, hchannels]; exact h.temporary
  case remaining => rw [hchannels]; exact h.remaining
  case kept =>
    intro c hc hnot
    rw [hchannels]
    exact h.kept c hc fun hmem => hnot (List.mem_append_left _ hmem)
  case agree =>
    intro c hlater channel channel' hview hget field hfield hknown
    rw [viewOf, hshadow] at hview
    rw [hchannels] at hget
    rw [List.reverse_append] at hknown
    apply h.agree c hlater channel channel' hview hget field hfield
    cases w with
    | createChannel data => exact (hother data rfl).elim
    | createChannelGroup name => exact hknown
    | createLogo data => exact hknown
    | updateChannel => contradiction
    | deleteChannel => contradiction
    | deleteChannelGroup => contradiction
    | assignChannelNumbers => contradiction
    | updateProfileChannel => contradiction

/-- A call that raises and one whose effects no channel shows keep the correspondence. -/
theorem Mirrors.untouched {call : Planner.Call} {L' : Live} (h : Mirrors server live calls P L)
    (hcreates : call.creates = false) (hshadow : Q.shadowChannels = P.shadowChannels)
    (hnext : Q.nextTempId = P.nextTempId) (hchannels : L'.channels = L.channels)
    (hcreated : L'.created = L.created)
    (hknown : ∀ c field, realIdOf server live c ∈ L.channels →
      Known server field c (call :: calls.reverse) → Known server field c calls.reverse) :
    Mirrors server live (calls ++ [call]) Q L' := by
  apply h.append hcreates hshadow hnext hcreated (fun id => by rw [hchannels])
  intro c channel _ hget
  rw [hchannels] at hget
  refine ⟨channel, hget, ?_⟩
  intro field hfield
  have hmem : realIdOf server live c ∈ L.channels := by
    rw [← Dict.isSome_get?, hget]
    rfl
  exact ⟨hknown c field hmem hfield, rfl⟩

/-- An assignment that planning accepts. -/
theorem Mirrors.assign {ids : List ℤ} {startingNumber : Json} (h : Mirrors server live calls Q L)
    (hlater : ∀ c ∈ ids, NotLater server live c) :
    Mirrors server live (calls ++ [.write (.assignChannelNumbers ids startingNumber)])
      (Q.accept live (.assignChannelNumbers ids startingNumber))
      (executedCall server (realIdOf server live) L
        (.write (.assignChannelNumbers ids startingNumber))) := by
  let ρ := realIdOf server live
  let numbers := (ids.map ρ).zipIdx.map fun e =>
    (e.1, L.numberAt server (ids.map ρ) (startingNumber.rename ρ) e.2)
  have hnamed : numbers.map Prod.fst = ids.map ρ := by
    simp [numbers, Function.comp_def]
  by_cases hall : ∀ c ∈ ids.map ρ, c ∈ L.channels
  · have hrun : executedCall server ρ L (.write (.assignChannelNumbers ids startingNumber)) =
        { L with channels := Live.setNumbers L.channels numbers } := by
      simp only [executedCall, Write.rename, Live.perform, if_pos hall, numbers]
    rw [hrun]
    refine h.append ?_ ?_ ?_ ?_ ?_ ?_
    · rfl
    · rfl
    · rfl
    · rfl
    · intro id
      obtain ⟨renumber, hget, -⟩ := Live.get?_setNumbers numbers L.channels id
      rw [← Dict.isSome_get?, hget, Option.isSome_map, Dict.isSome_get?]
    · intro c channel' hc hget
      obtain ⟨renumber, hset, hread⟩ := Live.get?_setNumbers numbers L.channels (ρ c)
      rw [hset, Option.map_eq_some_iff] at hget
      obtain ⟨channel, hold, rfl⟩ := hget
      refine ⟨channel, hold, ?_⟩
      rintro field ⟨hnot, hknown⟩
      refine ⟨hknown, hread channel field ?_⟩
      by_cases hfield : field = "channel_number"
      · right
        rw [hnamed, List.mem_map]
        rintro ⟨c', hc', heq⟩
        obtain rfl := realIdOf_inj (hlater c' hc') hc heq
        exact hnot ⟨hfield, hc'⟩
      · exact .inl hfield
  · have hrun : executedCall server ρ L (.write (.assignChannelNumbers ids startingNumber)) = L := by
      simp only [executedCall, Write.rename, Live.perform, if_neg hall]
    rw [hrun]
    exact h.untouched rfl rfl rfl rfl rfl fun c field _ hknown => hknown.2

/-- A write that a missing channel makes the store refuse. -/
theorem executedCall_of_missing {ρ : ℤ → ℤ} {w : Write} {c : ℤ} (hc : c ∈ w.channelIds)
    (hmissing : ρ c ∉ L.channels) : executedCall server ρ L (.write w) = L := by
  have hnone : L.channels.get? (ρ c) = none := (Dict.get?_eq_none _ _).mpr hmissing
  cases w with
  | createChannel data => simp [Write.channelIds] at hc
  | createChannelGroup name => simp [Write.channelIds] at hc
  | createLogo data => simp [Write.channelIds] at hc
  | deleteChannelGroup g => simp [Write.channelIds] at hc
  | updateChannel c' data =>
    obtain rfl : c = c' := by simpa [Write.channelIds] using hc
    simp only [executedCall, Write.rename, Live.perform, hnone]
  | deleteChannel c' =>
    obtain rfl : c = c' := by simpa [Write.channelIds] using hc
    simp only [executedCall, Write.rename, Live.perform, hmissing, if_false]
  | assignChannelNumbers ids startingNumber =>
    have hnot : ¬∀ id ∈ ids.map ρ, id ∈ L.channels := fun h =>
      hmissing (h _ (List.mem_map_of_mem hc))
    simp only [executedCall, Write.rename, Live.perform, if_neg hnot]
  | updateProfileChannel p c' data =>
    obtain rfl : c = c' := by simpa [Write.channelIds] using hc
    simp only [executedCall, Write.rename, Live.perform]
    cases L.profiles.get? (ρ p) <;> simp [hmissing]

theorem executedCall_group {ρ : ℤ → ℤ} {g : ℤ} :
    (executedCall server ρ L (.write (.deleteChannelGroup g))).channels = L.channels ∧
      (executedCall server ρ L (.write (.deleteChannelGroup g))).created = L.created := by
  by_cases hg : ρ g ∈ L.groups <;> simp [executedCall, Write.rename, Live.perform, hg]

theorem executedCall_profile {ρ : ℤ → ℤ} {p c : ℤ} {data : Record} :
    (executedCall server ρ L (.write (.updateProfileChannel p c data))).channels = L.channels ∧
      (executedCall server ρ L (.write (.updateProfileChannel p c data))).created = L.created := by
  cases hp : L.profiles.get? (ρ p) with
  | none => simp [executedCall, Write.rename, Live.perform, hp]
  | some members =>
    by_cases hc : ρ c ∈ L.channels <;> simp [executedCall, Write.rename, Live.perform, hp, hc]

/-- Every call keeps the correspondence. -/
theorem Mirrors.step {call : Planner.Call} (h : Mirrors server live calls P L)
    (hosts : Hosts server live) (hlisted : Listed live)
    (hlater : ∀ c ∈ call.channelIds, NotLater server live c) :
    Mirrors server live (calls ++ [call]) (call.run live P).2
      (executedCall server (realIdOf server live) L call) := by
  cases call with
  | getChannel c =>
    have hsame : (Planner.getChannel live c P).2 = P := by
      rw [Planner.getChannel, bind_apply]
      dsimp only [get, getThe, MonadStateOf.get]
      cases P.shadowChannels.get? c <;> rfl
    show Mirrors server live _ (Planner.getChannel live c P).2 L
    rw [hsame]
    exact h.untouched rfl rfl rfl rfl rfl fun _ _ _ hknown => hknown
  | write w =>
    obtain ⟨Q, hlook, ⟨result, hrun, hshadow, -⟩ | ⟨⟨error, hrun⟩, hwhy⟩⟩ := write_cases live w P
    · have hQ := h.looked hosts hlisted hlook
      show Mirrors server live _ (Planner.write live w P).2 _
      rw [hrun]
      cases w with
      | createChannel data => exact hQ.create
      | createChannelGroup name => exact hQ.createOther rfl (by simp) rfl rfl rfl rfl
      | createLogo data => exact hQ.createOther rfl (by simp) rfl rfl rfl rfl
      | updateChannel c data =>
        exact hQ.update (hlater c (by simp [Planner.Call.channelIds, Write.channelIds]))
          (hshadow c (by simp [Write.channelIds]))
      | deleteChannel c =>
        exact hQ.delete hosts (hlater c (by simp [Planner.Call.channelIds, Write.channelIds]))
      | deleteChannelGroup g =>
        exact hQ.untouched rfl rfl rfl executedCall_group.1 executedCall_group.2
          fun _ _ _ hknown => hknown
      | assignChannelNumbers ids startingNumber => exact hQ.assign hlater
      | updateProfileChannel p c data =>
        exact hQ.untouched rfl rfl rfl executedCall_profile.1 executedCall_profile.2
          fun _ _ _ hknown => hknown
    · have hQ := h.looked hosts hlisted hlook
      show Mirrors server live _ (Planner.write live w P).2 _
      rw [hrun]
      rcases hwhy with ⟨c, hc, hnot, hnone⟩ | hparent
      · have hmissing := h.not_mem hlisted (hlater c hc) hnot hnone
        rw [executedCall_of_missing hc hmissing]
        cases w with
        | createChannel data => simp [Write.channelIds] at hc
        | createChannelGroup name => simp [Write.channelIds] at hc
        | createLogo data => simp [Write.channelIds] at hc
        | deleteChannelGroup g => simp [Write.channelIds] at hc
        | updateChannel c' data =>
          obtain rfl : c = c' := by simpa [Write.channelIds] using hc
          refine hQ.untouched rfl rfl rfl rfl rfl ?_
          rintro c'' field hmem (⟨rfl, -⟩ | hknown)
          · exact (hmissing hmem).elim
          · exact hknown
        | deleteChannel c' => exact hQ.untouched rfl rfl rfl rfl rfl fun _ _ _ hknown => hknown
        | assignChannelNumbers ids startingNumber =>
          exact hQ.untouched rfl rfl rfl rfl rfl fun _ _ _ hknown => hknown.2
        | updateProfileChannel p c' data =>
          exact hQ.untouched rfl rfl rfl rfl rfl fun _ _ _ hknown => hknown
      · cases w with
        | createChannel data => exact (hparent trivial).elim
        | createChannelGroup name => exact (hparent trivial).elim
        | createLogo data => exact (hparent trivial).elim
        | updateChannel c data => exact (hparent trivial).elim
        | deleteChannel c => exact (hparent trivial).elim
        | assignChannelNumbers ids startingNumber => exact (hparent trivial).elim
        | deleteChannelGroup g =>
          exact hQ.untouched rfl rfl rfl executedCall_group.1 executedCall_group.2
            fun _ _ _ hknown => hknown
        | updateProfileChannel p c data =>
          exact hQ.untouched rfl rfl rfl executedCall_profile.1 executedCall_profile.2
            fun _ _ _ hknown => hknown

/-- After any calls that name no later id, the planning client and the live one correspond. -/
theorem mirrors_planned (hosts : Hosts server live) (hlisted : Listed live)
    (hlater : ∀ call ∈ calls, ∀ c ∈ call.channelIds, NotLater server live c) :
    Mirrors server live calls (planned live calls) (executed server live calls) := by
  induction calls using List.reverseRecOn with
  | nil => exact mirrors_start hosts
  | append_singleton calls call ih =>
    have hrun : executed server live (calls ++ [call]) =
        executedCall server (realIdOf server live) (executed server live calls) call := by
      simp [executed]
    rw [planned_concat, hrun]
    exact (ih fun c hc => hlater c (by simp [hc])).step hosts hlisted (hlater call (by simp))

/-- In a run whose reads all meet their condition, every read is answered as the live client would
answer it. -/
theorem reads_own_writes (hosts : Hosts server live)
    (hreads : ∀ earlier c later, calls = earlier ++ .getChannel c :: later →
      Readable server live earlier c) :
    ∀ earlier c later, calls = earlier ++ .getChannel c :: later →
      ReadsAlike (realIdOf server live) (Planner.getChannel live c (planned live earlier)).1
        ((executed server live earlier).getChannel (realIdOf server live c)) := by
  intro earlier c later hcalls
  have hreadable := hreads earlier c later hcalls
  have h := mirrors_planned hosts hreadable.listed hreadable.named
  rw [getChannel_eq, Live.getChannel]
  by_cases hmem : realIdOf server live c ∈ (executed server live earlier).channels
  · obtain ⟨channel', hget⟩ := Option.isSome_iff_exists.mp ((Dict.isSome_get? _ _).mpr hmem)
    have hview : (viewOf live (planned live earlier) c).isSome := by
      rw [viewOf, Option.isSome_or, Bool.or_eq_true, Dict.isSome_get?, Dict.isSome_get?]
      by_cases hneg : c < 0
      · exact .inl ((h.temporary c hneg).mpr hmem)
      · rw [realIdOf_of_nonneg server live (by omega)] at hmem
        exact .inr (h.remaining c hmem (by omega) hreadable.target)
    obtain ⟨channel, hchannel⟩ := Option.isSome_iff_exists.mp hview
    rw [hchannel, hget]
    intro field hfield
    exact h.agree c hreadable.target channel channel' hchannel hget field hfield
      (hreadable.known field hfield)
  · have hview : viewOf live (planned live earlier) c = none := by
      have hshadow : c ∉ (planned live earlier).shadowChannels := by
        intro hshadow
        by_cases hneg : c < 0
        · exact hmem ((h.temporary c hneg).mp hshadow)
        · have hlive := h.shadowed c hshadow (by omega)
          rw [realIdOf_of_nonneg server live (by omega)] at hmem
          exact hmem (h.kept c hlive (hreadable.kept hlive))
      have hlive : c ∉ live.channels := by
        intro hlive
        rw [realIdOf_of_nonneg server live (hosts.positive c hlive).le] at hmem
        exact hmem (h.kept c hlive (hreadable.kept hlive))
      rw [viewOf, (Dict.get?_eq_none _ _).mpr hshadow, (Dict.get?_eq_none _ _).mpr hlive]
      rfl
    rw [hview, (Dict.get?_eq_none _ _).mpr hmem]
    trivial

end

/-- Ids are handed out from one hundred on, and a new channel starts empty. -/
def plainServer : Server where
  alloc k := 100 + k
  alloc_injective := by
    intro k l h
    simpa using h
  alloc_pos k := by omega
  defaults := ∅
  auto _ _ _ := .null

/-- A store of one channel, number five, with one stream. -/
def oneChannel : Live where
  channels := Dict.ofList [(1, Dict.ofList [("id", .int 1), ("name", .str "News"),
    ("streams", .list [.int 7]), ("channel_number", .int 5)])]
  groups := ∅
  logos := ∅
  profiles := ∅
  created := 0

theorem hosts_oneChannel : Hosts plainServer oneChannel where
  positive := by decide
  groups := by decide
  profiles := by decide
  free k _ := by
    constructor
    · intro hmem
      have hkey : (100 : ℤ) + k ∈ [(1 : ℤ)] := hmem
      rw [List.mem_singleton] at hkey
      omega
    · intro hmem
      exact List.not_mem_nil hmem

theorem listed_oneChannel : Listed oneChannel := by
  intro c channel hget
  rw [Dict.get?_eq_some] at hget
  have hmem : (c, channel) ∈ [((1 : ℤ), (Dict.ofList [("id", .int 1), ("name", .str "News"),
      ("streams", .list [.int 7]), ("channel_number", .int 5)] : Record))] := hget
  rw [List.mem_singleton, Prod.mk.injEq] at hmem
  obtain ⟨-, rfl⟩ := hmem
  exact ⟨[.int 7], rfl⟩

/-- A rename and a read of it. -/
theorem reads_own_writes_rename :
    ReadsAlike (realIdOf plainServer oneChannel)
      (Planner.getChannel oneChannel 1 (planned oneChannel
        [.write (.updateChannel 1 (Dict.ofList [("name", .str "Sport")]))])).1
      ((executed plainServer oneChannel
        [.write (.updateChannel 1 (Dict.ofList [("name", .str "Sport")]))]).getChannel
        (realIdOf plainServer oneChannel 1)) := by
  have hlater : NotLater plainServer oneChannel 1 := by
    intro k _ heq
    have hid : (1 : ℤ) = 100 + k := heq
    omega
  refine @reads_own_writes plainServer oneChannel
    [.write (.updateChannel 1 (Dict.ofList [("name", .str "Sport")])), .getChannel 1]
    hosts_oneChannel ?_ [.write (.updateChannel 1 (Dict.ofList [("name", .str "Sport")]))] 1 [] rfl
  intro earlier c later hcalls
  rcases earlier with _ | ⟨first, _ | ⟨second, rest⟩⟩
  · simp at hcalls
  · obtain ⟨rfl, rfl, -⟩ : first = .write (.updateChannel 1 (Dict.ofList [("name", .str "Sport")])) ∧
        c = 1 ∧ later = [] := by
      simpa [eq_comm] using hcalls
    constructor
    case listed => exact listed_oneChannel
    case named =>
      intro call hcall c' hc'
      rw [List.mem_singleton] at hcall
      subst hcall
      obtain rfl : c' = 1 := by simpa [Planner.Call.channelIds, Write.channelIds] using hc'
      exact hlater
    case target => exact hlater
    case kept => intro _ hmem; simp at hmem
    case known => intro field _; exact .inr trivial
  · simp at hcalls

/-- After an assignment the planning client still reads the old number, and after a delete it still
reads the channel. -/
theorem stale_after_assign_and_delete :
    ¬ReadsAlike (realIdOf plainServer oneChannel)
        (Planner.getChannel oneChannel 1 (planned oneChannel
          [.write (.assignChannelNumbers [1] (.int 9))])).1
        ((executed plainServer oneChannel
          [.write (.assignChannelNumbers [1] (.int 9))]).getChannel 1) ∧
      ¬ReadsAlike (realIdOf plainServer oneChannel)
        (Planner.getChannel oneChannel 1 (planned oneChannel [.write (.deleteChannel 1)])).1
        ((executed plainServer oneChannel [.write (.deleteChannel 1)]).getChannel 1) := by
  constructor
  · intro halike
    have hnumber := halike "channel_number" (by decide)
    rcases hnumber with hsame | hsame
    · exact absurd hsame (by decide +kernel)
    · exact absurd hsame (by decide +kernel)
  · intro halike
    exact halike

end ChannelManager.Plans
