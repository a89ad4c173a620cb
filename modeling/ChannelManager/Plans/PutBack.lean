import ChannelManager.Plans.Replay

/-!
# A failed replay puts channels back

When a replay breaks off, the completed writes are undone from the last one back: created channels
and groups are deleted and updated channels are set to their preconditions. A channel that an
assignment renumbered and no update wrote is not among them.
-/

namespace ChannelManager.Plans

open Eff

/-- The writes that replay can undo, and assignments. -/
def Write.reversible : Write → Bool
  | .createChannel _ | .createChannelGroup _ | .updateChannel .. | .assignChannelNumbers .. => true
  | _ => false

/-- The store holds what it held before: every channel with its tracked fields, and no channel or
group besides. -/
structure PutBack (live final : Live) : Prop where
  channels : ∀ c channel, live.channels.get? c = some channel →
    ∃ channel', final.channels.get? c = some channel' ∧
      ∀ field ∈ trackedFields, channel'.read field = channel.read field
  noChannel : ∀ c ∈ final.channels, c ∈ live.channels
  noGroup : ∀ g ∈ final.groups, g ∈ live.groups

/-- Every channel that the writes leave with another number is also written by one of their
updates. -/
def Covered (server : Server) (live : Live) (writes : List Write) : Prop :=
  ∀ c channel, live.channels.get? c = some channel →
    (∃ data, .updateChannel c data ∈ writes) ∨
      ∀ channel', (executed server live (writes.map .write)).channels.get? c = some channel' →
        channel'.read "channel_number" = channel.read "channel_number"

/-- What the loop knows of the writes it completed. -/
structure Landed (server : Server) (live : Live) (writes : List Write) (R : Replay) : Prop where
  store : R.exec.live = executed server live (writes.map .write)
  completed : R.completed.map Prod.fst = writes
  args : ∀ item ∈ R.completed, item.2.1 = item.1.rename (realIdOf server live)
  born : ∀ item ∈ R.completed, item.1.isCreate →
    ∃ k, live.created ≤ k ∧ item.2.2.read "id" = .int (server.alloc k)
  channelsBy : ∀ c ∈ R.exec.live.channels, c ∈ live.channels ∨
    ∃ item ∈ R.completed, (∃ data, item.1 = .createChannel data) ∧ item.2.2.read "id" = .int c
  groupsBy : ∀ g ∈ R.exec.live.groups, g ∈ live.groups ∨
    ∃ item ∈ R.completed, (∃ name, item.1 = .createChannelGroup name) ∧
      item.2.2.read "id" = .int g
  kept : ∀ c channel, live.channels.get? c = some channel →
    ∃ channel', R.exec.live.channels.get? c = some channel' ∧
      ((∀ data, .updateChannel c data ∉ writes) →
        ∀ field ∈ trackedFields, field ≠ "channel_number" →
          channel'.read field = channel.read field)

section

variable {server : Server} {live : Live} {writes : List Write} {R R' : Replay} {w : Write}
  {fails : ℕ → Bool}

theorem landed_start (live : Live) : Landed server live [] (Replay.start live) where
  store := rfl
  completed := rfl
  args _ hitem := (List.not_mem_nil hitem).elim
  born _ hitem := (List.not_mem_nil hitem).elim
  channelsBy _ hc := .inl hc
  groupsBy _ hg := .inl hg
  kept _ channel hget := ⟨channel, hget, fun _ _ _ _ => rfl⟩

/-- What a performed reversible write leaves of a channel of the store: itself, or itself with other
values, which an update of it set or an assignment of numbers. -/
theorem performed_channel {live' : Live} {result : Record} (hreversible : w.reversible)
    (hperform : live.perform server w = .ok (result, live')) {c : ℤ} {channel : Record}
    (hget : live.channels.get? c = some channel) (hfree : server.alloc live.created ≠ c) :
    ∃ channel', live'.channels.get? c = some channel' ∧
      ((∀ data, w ≠ .updateChannel c data) → ∀ field, field ≠ "channel_number" →
        channel'.read field = channel.read field) := by
  cases w with
  | createChannel data =>
    obtain rfl := congrArg Prod.snd (Except.ok.inj hperform)
    exact ⟨channel, (Dict.get?_set_ne _ _ hfree).trans hget, fun _ _ _ => rfl⟩
  | createChannelGroup name =>
    obtain rfl := congrArg Prod.snd (Except.ok.inj hperform)
    exact ⟨channel, hget, fun _ _ _ => rfl⟩
  | updateChannel c' data =>
    cases hold : live.channels.get? c' with
    | none => simp [Live.perform, hold] at hperform
    | some old =>
      simp only [Live.perform, hold] at hperform
      obtain rfl := congrArg Prod.snd (Except.ok.inj hperform)
      by_cases hc : c' = c
      · subst hc
        exact ⟨_, Dict.get?_set_self _ _ _, fun hno => (hno data rfl).elim⟩
      · exact ⟨channel, (Dict.get?_set_ne _ _ hc).trans hget, fun _ _ _ => rfl⟩
  | assignChannelNumbers ids startingNumber =>
    by_cases hall : ∀ c ∈ ids, c ∈ live.channels
    · simp only [Live.perform, if_pos hall] at hperform
      obtain rfl := congrArg Prod.snd (Except.ok.inj hperform)
      obtain ⟨renumber, hset, hread⟩ := Live.get?_setNumbers (ids.zipIdx.map fun e =>
        (e.1, live.numberAt server ids startingNumber e.2)) live.channels c
      rw [hget, Option.map_some] at hset
      exact ⟨renumber channel, hset, fun _ field hfield => hread channel field (.inl hfield)⟩
    · simp [Live.perform, hall] at hperform
  | createLogo => contradiction
  | deleteChannel => contradiction
  | deleteChannelGroup => contradiction
  | updateProfileChannel => contradiction

theorem rename_updateChannel (hosts : Hosts server live) {c : ℤ} (hc : c ∈ live.channels)
    {data : Record} (h : w.rename (realIdOf server live) = .updateChannel c data) :
    ∃ data', w = .updateChannel c data' := by
  cases w with
  | updateChannel c' data' =>
    obtain ⟨heq, -⟩ := Write.updateChannel.inj h
    by_cases hneg : c' < 0
    · rw [realIdOf, if_pos hneg] at heq
      exact ((hosts.free _ (by omega)).1 (heq ▸ hc)).elim
    · rw [realIdOf_of_nonneg server live (by omega)] at heq
      exact ⟨data', by rw [heq]⟩
  | _ => cases h

/-- A round that goes through with a reversible write keeps what the loop knows. -/
theorem Landed.step (h : Landed server live writes R) (hdone : Replayed server live writes R)
    (hosts : Hosts server live) (hreversible : w.reversible)
    (hok : Replay.replayOne server fails w R = (.ok (), R')) :
    Landed server live (writes ++ [w]) R' := by
  obtain ⟨args, result, live', hmap, -, hperform, rfl⟩ := (replayOne_ok fails R R' w).mp hok
  obtain rfl := hdone.mapInts_eq hmap
  have heffect := performed hperform
  have hlater : live.created ≤ R.exec.live.created := by
    rw [hdone.created]
    omega
  have hkind : (w.rename (realIdOf server live)).reversible := by
    cases w <;> first | rfl | contradiction
  have hbornOf : w.isCreate → result.read "id" = .int (server.alloc R.exec.live.created) :=
    fun hcreate => perform_create ((Write.isCreate_rename _ w).trans hcreate) hperform
  constructor
  case store =>
    show live' = _
    rw [List.map_append, executed, List.foldl_append]
    show live' = executedCall server (realIdOf server live)
      (executed server live (writes.map .write)) (.write w)
    rw [← h.store]
    simp only [executedCall, hperform]
  case completed =>
    show (R.completed ++ [_]).map Prod.fst = _
    rw [List.map_append, h.completed]
    rfl
  case args =>
    intro item hitem
    rcases List.mem_append.mp hitem with hitem | hitem
    · exact h.args item hitem
    · obtain rfl := List.mem_singleton.mp hitem
      rfl
  case born =>
    intro item hitem hcreate
    rcases List.mem_append.mp hitem with hitem | hitem
    · exact h.born item hitem hcreate
    · obtain rfl := List.mem_singleton.mp hitem
      exact ⟨R.exec.live.created, hlater, hbornOf hcreate⟩
  case channelsBy =>
    intro c hc
    rcases heffect.newChannels c hc with hold | ⟨hcreate, rfl⟩
    · rcases h.channelsBy c hold with hlive | ⟨item, hitem, hby⟩
      · exact .inl hlive
      · exact .inr ⟨item, List.mem_append_left _ hitem, hby⟩
    · cases w with
      | createChannel data =>
        exact .inr ⟨_, List.mem_append_right _ (List.mem_singleton_self _), ⟨data, rfl⟩, hbornOf rfl⟩
      | createChannelGroup name =>
        obtain rfl := congrArg Prod.snd (Except.ok.inj hperform)
        exact ((hdone.free _ le_rfl).1 hc).elim
      | _ => contradiction
  case groupsBy =>
    intro g hg
    rcases heffect.newGroups g hg with hold | ⟨hcreate, rfl⟩
    · rcases h.groupsBy g hold with hlive | ⟨item, hitem, hby⟩
      · exact .inl hlive
      · exact .inr ⟨item, List.mem_append_left _ hitem, hby⟩
    · cases w with
      | createChannelGroup name =>
        exact .inr ⟨_, List.mem_append_right _ (List.mem_singleton_self _), ⟨name, rfl⟩, hbornOf rfl⟩
      | createChannel data =>
        obtain rfl := congrArg Prod.snd (Except.ok.inj hperform)
        exact ((hdone.free _ le_rfl).2 hg).elim
      | _ => contradiction
  case kept =>
    intro c channel hget
    have hmem : c ∈ live.channels := by
      rw [← Dict.isSome_get?, hget]
      rfl
    obtain ⟨old, hold, hsame⟩ := h.kept c channel hget
    have hfree : server.alloc R.exec.live.created ≠ c := by
      rintro rfl
      exact (hosts.free _ hlater).1 hmem
    obtain ⟨channel', hget', hsame'⟩ := performed_channel hkind hperform hold hfree
    refine ⟨channel', hget', ?_⟩
    intro hno field hfield hnumber
    rw [hsame' ?_ field hnumber]
    · exact hsame (fun data hdata => hno data (List.mem_append_left _ hdata)) field hfield hnumber
    · intro data heq
      obtain ⟨data', rfl⟩ := rename_updateChannel hosts hmem heq
      exact hno data' (List.mem_append_right _ (List.mem_singleton_self _))

theorem landed_of_each (hosts : Hosts server live) (hreversible : ∀ w ∈ writes, w.reversible)
    (hok : each (Replay.replayOne server fails) writes (Replay.start live) = (.ok (), R)) :
    Landed server live writes R := by
  induction writes using List.reverseRecOn generalizing R with
  | nil =>
    obtain rfl : Replay.start live = R := congrArg Prod.snd hok
    exact landed_start live
  | append_singleton writes w ih =>
    obtain ⟨R₀, hbefore, hlast⟩ := (each_concat_ok _ _ _ _ _).mp hok
    exact (ih (fun w' hw' => hreversible w' (by simp [hw'])) hbefore).step
      (replayed_of_each hosts hbefore) hosts (hreversible w (by simp)) hlast

/-- A round that raises leaves the store and the completed writes. -/
theorem replayOne_error {e : String} (hraises : Replay.replayOne server fails w R = (.error e, R')) :
    R'.exec.live = R.exec.live ∧ R'.completed = R.completed := by
  have hrun : Replay.replayOne server fails w R = (do
      let args ← Eff.ofExcept (w.mapInts (Replay.mappedId R.remap))
      let result ← Replay.call (send server fails args)
      let id ← if w.isCreate then Eff.ofExcept (Replay.realId w.method result) else pure 0
      modify fun replay => replay.advance w args result id : Eff Replay Unit) R := rfl
  rw [hrun, bind_apply] at hraises
  cases hmap : w.mapInts (Replay.mappedId R.remap) with
  | error e' =>
    rw [hmap] at hraises
    cases hraises
    exact ⟨rfl, rfl⟩
  | ok args =>
    rw [hmap] at hraises
    dsimp only [Eff.ofExcept] at hraises
    rw [bind_apply] at hraises
    unfold Replay.call at hraises
    rw [send_eq] at hraises
    by_cases hfails : fails R.exec.issued.length
    · rw [if_pos hfails] at hraises
      cases hraises
      exact ⟨rfl, rfl⟩
    · rw [if_neg hfails] at hraises
      cases hperform : R.exec.live.perform server args with
      | error e' =>
        rw [hperform] at hraises
        cases hraises
        exact ⟨rfl, rfl⟩
      | ok answer =>
        exfalso
        obtain ⟨result, live'⟩ := answer
        have hround := (replayOne_ok fails R _ w).mpr
          ⟨args, result, live', hmap, by simpa using hfails, hperform, rfl⟩
        rw [hrun, bind_apply, hmap] at hround
        dsimp only [Eff.ofExcept] at hround
        rw [bind_apply] at hround
        unfold Replay.call at hround
        rw [send_eq, if_neg hfails] at hround
        rw [hraises] at hround
        cases hround

theorem send_ok {exec exec' : Exec} {result : Record}
    (h : send server fails w exec = (.ok result, exec')) :
    exec.live.perform server w = .ok (result, exec'.live) := by
  rw [send_eq] at h
  by_cases hfails : fails exec.issued.length
  · rw [if_pos hfails] at h
    cases h
  · rw [if_neg hfails] at h
    cases hperform : exec.live.perform server w with
    | error e =>
      rw [hperform] at h
      cases h
    | ok answer =>
      rw [hperform] at h
      cases h
      rfl

/-- What undoing items does to the store: a live channel that an item updated has its old values, any
other live channel is left alone, and what the items created is gone. -/
structure Undone (live : Live) (items : List (Write × Write × Record)) (L L' : Live) : Prop where
  restored : ∀ c channel, live.channels.get? c = some channel → c ∈ L.channels →
    (∃ item ∈ items, ∃ data, item.1 = .updateChannel c data) →
    ∃ channel', L'.channels.get? c = some channel' ∧
      ∀ field ∈ trackedFields, channel'.read field = channel.read field
  others : ∀ c ∈ live.channels, (∀ item ∈ items, ∀ data, item.1 ≠ .updateChannel c data) →
    L'.channels.get? c = L.channels.get? c
  channels : ∀ c ∈ L'.channels, c ∈ L.channels ∧
    ∀ item ∈ items, (∃ data, item.1 = .createChannel data) → item.2.2.read "id" ≠ .int c
  groups : ∀ g ∈ L'.groups, g ∈ L.groups ∧
    ∀ item ∈ items, (∃ name, item.1 = .createChannelGroup name) → item.2.2.read "id" ≠ .int g

/-- Undoing an item that neither created nor updated anything in the store does nothing. -/
theorem undone_same {L : Live} {item : Write × Write × Record}
    (hupdate : ∀ c ∈ live.channels, ∀ data, item.1 ≠ .updateChannel c data)
    (hcreate : item.1.isCreate = false) : Undone live [item] L L := by
  constructor
  case restored =>
    rintro c channel hget _ ⟨item', hitem, data, heq⟩
    obtain rfl := List.mem_singleton.mp hitem
    have hmem : c ∈ live.channels := by
      rw [← Dict.isSome_get?, hget]
      rfl
    exact (hupdate c hmem data heq).elim
  case others => exact fun _ _ _ => rfl
  case channels =>
    refine fun c hc => ⟨hc, ?_⟩
    rintro item' hitem ⟨data, heq⟩
    obtain rfl := List.mem_singleton.mp hitem
    rw [heq] at hcreate
    cases hcreate
  case groups =>
    refine fun g hg => ⟨hg, ?_⟩
    rintro item' hitem ⟨name, heq⟩
    obtain rfl := List.mem_singleton.mp hitem
    rw [heq] at hcreate
    cases hcreate

theorem Undone.trans {item : Write × Write × Record} {items : List (Write × Write × Record)}
    {L L₁ L₂ : Live} (h : Undone live [item] L L₁) (h' : Undone live items L₁ L₂) :
    Undone live (item :: items) L L₂ := by
  constructor
  case restored =>
    rintro c channel hget hc ⟨item', hitem, data, heq⟩
    have hlive : c ∈ live.channels := by
      rw [← Dict.isSome_get?, hget]
      rfl
    by_cases hlater : ∃ item ∈ items, ∃ data, item.1 = .updateChannel c data
    · apply h'.restored c channel hget _ hlater
      by_cases hfirst : ∃ data, item.1 = .updateChannel c data
      · obtain ⟨channel₁, hget₁, -⟩ := h.restored c channel hget hc
          ⟨item, List.mem_singleton_self _, hfirst⟩
        rw [← Dict.isSome_get?, hget₁]
        rfl
      · rw [← Dict.isSome_get?, h.others c hlive, Dict.isSome_get?]
        · exact hc
        · rintro item'' hitem'' data' heq'
          obtain rfl := List.mem_singleton.mp hitem''
          exact hfirst ⟨data', heq'⟩
    · have hnone : ∀ item ∈ items, ∀ data, item.1 ≠ .updateChannel c data :=
        fun item hitem data heq => hlater ⟨item, hitem, data, heq⟩
      rcases List.mem_cons.mp hitem with rfl | hitem
      · obtain ⟨channel₁, hget₁, hread⟩ := h.restored c channel hget hc
          ⟨item', List.mem_singleton_self _, data, heq⟩
        exact ⟨channel₁, (h'.others c hlive hnone).trans hget₁, hread⟩
      · exact (hnone item' hitem data heq).elim
  case others =>
    intro c hc hnone
    rw [h'.others c hc fun item hitem => hnone item (List.mem_cons_of_mem _ hitem)]
    apply h.others c hc
    intro item' hitem
    obtain rfl := List.mem_singleton.mp hitem
    exact hnone item' (List.mem_cons_self ..)
  case channels =>
    intro c hc
    obtain ⟨hc₁, hrest⟩ := h'.channels c hc
    obtain ⟨hc₀, hfirst⟩ := h.channels c hc₁
    refine ⟨hc₀, ?_⟩
    intro item' hitem
    rcases List.mem_cons.mp hitem with rfl | hitem
    · exact hfirst item' (List.mem_singleton_self _)
    · exact hrest item' hitem
  case groups =>
    intro g hg
    obtain ⟨hg₁, hrest⟩ := h'.groups g hg
    obtain ⟨hg₀, hfirst⟩ := h.groups g hg₁
    refine ⟨hg₀, ?_⟩
    intro item' hitem
    rcases List.mem_cons.mp hitem with rfl | hitem
    · exact hfirst item' (List.mem_singleton_self _)
    · exact hrest item' hitem

/-- A completed item as the replay loop leaves it: sent renamed, a create answered with an id that
was free, an update of a live channel with a snapshot among the preconditions. -/
structure Completed (server : Server) (live : Live) (plan : PipelineWritePlan)
    (item : Write × Write × Record) : Prop where
  args : item.2.1 = item.1.rename (realIdOf server live)
  born : item.1.isCreate → ∃ k, live.created ≤ k ∧ item.2.2.read "id" = .int (server.alloc k)
  snapshot : ∀ c data, item.1 = .updateChannel c data → 0 ≤ c →
    ∃ before channel, plan.channelPreconditions.get? c = some before ∧ before.items ≠ [] ∧
      live.channels.get? c = some channel ∧ ∀ field ∈ trackedFields, field ∈ before ∧
        before.read field = channel.read field

theorem mem_snapshot {c : ℤ} {before : Record} (hsnap : SnapshotOf live c before) :
    before.items ≠ [] ∧ ∀ field ∈ trackedFields, field ∈ before := by
  obtain ⟨channel, streams, -, -, rfl⟩ := hsnap
  have hkeys : (Planner.relevant c channel streams).keys = "id" :: trackedFields := rfl
  constructor
  · intro hempty
    rw [Dict.keys, hempty] at hkeys
    cases hkeys
  · intro field hfield
    rw [Dict.mem_def, hkeys]
    exact List.mem_cons_of_mem _ hfield

/-- Undoing one completed item. -/
theorem undone_of_undo (hosts : Hosts server live) {plan : PipelineWritePlan}
    (hplan : ∀ c ∈ plan.channelPreconditions, c ∈ live.channels)
    {item : Write × Write × Record} (hitem : Completed server live plan item) {exec exec' : Exec}
    (hok : Replay.undo server fails plan item exec = (.ok (), exec')) :
    Undone live [item] exec.live exec'.live := by
  obtain ⟨w, args, result⟩ := item
  have hargs : args = w.rename (realIdOf server live) := hitem.args
  subst hargs
  cases w with
  | createChannel data =>
    obtain ⟨k, hk, hid⟩ := hitem.born rfl
    have hrun : Replay.undo server fails plan (.createChannel data,
        Write.rename (realIdOf server live) (.createChannel data), result) exec =
        (do
          let _ ← send server fails (.deleteChannel (server.alloc k)) : Eff Exec Unit) exec := by
      rw [Replay.undo, bind_apply, Replay.realId, hid]
      rfl
    rw [hrun, bind_apply] at hok
    cases hsend : send server fails (.deleteChannel (server.alloc k)) exec with
    | mk outcome exec₁ =>
      rw [hsend] at hok
      cases outcome with
      | error e => cases hok
      | ok answer =>
        cases hok
        have hperform := send_ok hsend
        by_cases hmem : server.alloc k ∈ exec.live.channels
        · simp only [Live.perform, hmem, if_true] at hperform
          have hlive := congrArg Prod.snd (Except.ok.inj hperform)
          dsimp only at hlive
          have hne : ∀ c ∈ live.channels, server.alloc k ≠ c := by
            rintro c hc rfl
            exact (hosts.free k hk).1 hc
          constructor
          case restored =>
            rintro c channel _ _ ⟨item', hitem', data', heq⟩
            obtain rfl := List.mem_singleton.mp hitem'
            cases heq
          case others =>
            intro c hc _
            rw [← hlive]
            exact (Dict.get?_erase _ _ _).trans (if_neg (hne c hc))
          case channels =>
            intro c hc
            rw [← hlive] at hc
            obtain ⟨hne', hc'⟩ := (mem_erase _ _ _).mp hc
            refine ⟨hc', ?_⟩
            rintro item' hitem' -
            obtain rfl := List.mem_singleton.mp hitem'
            rw [hid]
            exact fun heq => hne' (Json.int.inj heq)
          case groups =>
            intro g hg
            rw [← hlive] at hg
            refine ⟨hg, ?_⟩
            rintro item' hitem' ⟨name, heq⟩
            obtain rfl := List.mem_singleton.mp hitem'
            cases heq
        · simp [Live.perform, hmem] at hperform
  | createChannelGroup name =>
    obtain ⟨k, hk, hid⟩ := hitem.born rfl
    have hrun : Replay.undo server fails plan (.createChannelGroup name,
        Write.rename (realIdOf server live) (.createChannelGroup name), result) exec =
        (do
          let _ ← send server fails (.deleteChannelGroup (server.alloc k)) : Eff Exec Unit) exec := by
      rw [Replay.undo, bind_apply, Replay.realId, hid]
      rfl
    rw [hrun, bind_apply] at hok
    cases hsend : send server fails (.deleteChannelGroup (server.alloc k)) exec with
    | mk outcome exec₁ =>
      rw [hsend] at hok
      cases outcome with
      | error e => cases hok
      | ok answer =>
        cases hok
        have hperform := send_ok hsend
        by_cases hmem : server.alloc k ∈ exec.live.groups
        · simp only [Live.perform, hmem, if_true] at hperform
          have hlive := congrArg Prod.snd (Except.ok.inj hperform)
          dsimp only at hlive
          constructor
          case restored =>
            rintro c channel _ _ ⟨item', hitem', data', heq⟩
            obtain rfl := List.mem_singleton.mp hitem'
            cases heq
          case others =>
            intro c _ _
            rw [← hlive]
          case channels =>
            intro c hc
            rw [← hlive] at hc
            refine ⟨hc, ?_⟩
            rintro item' hitem' ⟨data, heq⟩
            obtain rfl := List.mem_singleton.mp hitem'
            cases heq
          case groups =>
            intro g hg
            rw [← hlive] at hg
            obtain ⟨hne', hg'⟩ := (mem_erase _ _ _).mp hg
            refine ⟨hg', ?_⟩
            rintro item' hitem' -
            obtain rfl := List.mem_singleton.mp hitem'
            rw [hid]
            exact fun heq => hne' (Json.int.inj heq)
        · simp [Live.perform, hmem] at hperform
  | updateChannel c data =>
    by_cases hneg : c < 0
    · -- An update of a created channel has no precondition to restore.
      have hreal : realIdOf server live c = server.alloc (live.created + (c.natAbs - 1)) := by
        rw [realIdOf, if_pos hneg]
      have hnone : plan.channelPreconditions.get? (realIdOf server live c) = none := by
        rw [Dict.get?_eq_none, hreal]
        exact fun hmem => (hosts.free _ (by omega)).1 (hplan _ hmem)
      have hsame : Replay.undo server fails plan (.updateChannel c data,
          Write.rename (realIdOf server live) (.updateChannel c data), result) exec =
          (.ok (), exec) := by
        simp only [Replay.undo, Write.rename, hnone]
        split <;> rfl
      rw [hsame] at hok
      cases hok
      apply undone_same _ rfl
      rintro c' hc' data' heq
      obtain ⟨rfl, -⟩ := Write.updateChannel.inj heq
      have hpos := hosts.positive c hc'
      omega
    · obtain ⟨before, channel, hpre, hitems, hchannel, htracked⟩ :=
        hitem.snapshot c data rfl (by omega)
      have hlive : c ∈ live.channels := by
        rw [← Dict.isSome_get?, hchannel]
        rfl
      have hrun : Replay.undo server fails plan (.updateChannel c data,
          Write.rename (realIdOf server live) (.updateChannel c data), result) exec =
          (do
            let _ ← send server fails (.updateChannel c (before.erase "id")) : Eff Exec Unit)
            exec := by
        simp only [Replay.undo, Write.rename, realIdOf_of_nonneg server live (show 0 ≤ c by omega),
          hosts.positive c hlive, if_true, hpre, hitems, if_false]
      rw [hrun, bind_apply] at hok
      cases hsend : send server fails (.updateChannel c (before.erase "id")) exec with
      | mk outcome exec₁ =>
        rw [hsend] at hok
        cases outcome with
        | error e => cases hok
        | ok answer =>
          cases hok
          have hperform := send_ok hsend
          cases hold : exec.live.channels.get? c with
          | none => simp [Live.perform, hold] at hperform
          | some old =>
            simp only [Live.perform, hold] at hperform
            have hlive' := congrArg Prod.snd (Except.ok.inj hperform)
            dsimp only at hlive'
            constructor
            case restored =>
              rintro c' channel' hget' _ ⟨item', hitem', data', heq⟩
              obtain rfl := List.mem_singleton.mp hitem'
              obtain ⟨rfl, -⟩ := Write.updateChannel.inj heq
              obtain rfl : channel = channel' := by rw [hchannel] at hget'; simpa using hget'
              rw [← hlive']
              refine ⟨_, Dict.get?_set_self _ _ _, ?_⟩
              intro field hfield
              obtain ⟨hmem, hread⟩ := htracked field hfield
              have hkept : (before.erase "id").get? field = before.get? field := by
                rw [Dict.get?_erase, if_neg (ne_id_of_tracked hfield).symm]
              have hmem' : field ∈ before.erase "id" := by
                rw [← Dict.isSome_get?, hkept, Dict.isSome_get?]
                exact hmem
              rw [read_updated _ _ _ hfield, if_pos hmem', Record.read, hkept]
              exact hread
            case others =>
              intro c' _ hno
              have hne : c ≠ c' := by
                rintro rfl
                exact hno _ (List.mem_singleton_self _) data rfl
              rw [← hlive']
              exact Dict.get?_set_ne _ _ hne
            case channels =>
              intro c' hc'
              rw [← hlive'] at hc'
              constructor
              · rcases (Dict.mem_set _ _ _ _).mp hc' with rfl | hc'
                · rw [← Dict.isSome_get?, hold]
                  rfl
                · exact hc'
              · rintro item' hitem' ⟨data', heq⟩
                obtain rfl := List.mem_singleton.mp hitem'
                cases heq
            case groups =>
              intro g hg
              rw [← hlive'] at hg
              refine ⟨hg, ?_⟩
              rintro item' hitem' ⟨name, heq⟩
              obtain rfl := List.mem_singleton.mp hitem'
              cases heq
  | assignChannelNumbers ids startingNumber =>
    cases hok
    exact undone_same (by simp) rfl
  | createLogo data =>
    cases hok
    constructor
    case restored =>
      rintro c channel _ _ ⟨item', hitem', data', heq⟩
      obtain rfl := List.mem_singleton.mp hitem'
      cases heq
    case others => exact fun _ _ _ => rfl
    case channels =>
      refine fun c hc => ⟨hc, ?_⟩
      rintro item' hitem' ⟨data', heq⟩
      obtain rfl := List.mem_singleton.mp hitem'
      cases heq
    case groups =>
      refine fun g hg => ⟨hg, ?_⟩
      rintro item' hitem' ⟨name, heq⟩
      obtain rfl := List.mem_singleton.mp hitem'
      cases heq
  | deleteChannel c =>
    cases hok
    exact undone_same (by simp) rfl
  | deleteChannelGroup g =>
    cases hok
    exact undone_same (by simp) rfl
  | updateProfileChannel p c data =>
    cases hok
    exact undone_same (by simp) rfl

/-- Undoing items goes on from what undoing the first one leaves. -/
theorem compensate_cons {plan : PipelineWritePlan} {item : Write × Write × Record}
    {items : List (Write × Write × Record)} {exec exec' : Exec} {errors : List String}
    (hok : Replay.compensate server fails plan (item :: items) exec = (.ok errors, exec')) :
    ∃ failed rest exec₁, errors = failed ++ rest ∧
      Replay.compensate server fails plan items exec₁ = (.ok rest, exec') ∧
      (failed = [] → Replay.undo server fails plan item exec = (.ok (), exec₁)) := by
  cases hundo : Replay.undo server fails plan item exec with
  | mk outcome exec₁ =>
    obtain ⟨failed, hattempt, hnil⟩ : ∃ failed,
        (tryCatch (do Replay.undo server fails plan item; pure [])
          fun e => pure [s!"{item.1.method}: {e}"] : Eff Exec (List String)) exec =
          (.ok failed, exec₁) ∧ (failed = [] → outcome = .ok ()) := by
      rw [tryCatch_apply, bind_apply, hundo]
      cases outcome with
      | error e => exact ⟨_, rfl, nofun⟩
      | ok u => exact ⟨[], rfl, fun _ => rfl⟩
    rw [Replay.compensate, bind_apply, hattempt] at hok
    have hrest : (do
        let errors ← Replay.compensate server fails plan items
        pure (failed ++ errors) : Eff Exec (List String)) exec₁ = (.ok errors, exec') := hok
    rw [bind_apply] at hrest
    cases hlater : Replay.compensate server fails plan items exec₁ with
    | mk outcome' exec₂ =>
      rw [hlater] at hrest
      cases outcome' with
      | error e => cases hrest
      | ok rest =>
        cases hrest
        refine ⟨failed, rest, exec₁, rfl, hlater, ?_⟩
        intro hempty
        rw [hnil hempty]

/-- Undoing completed items without an error. -/
theorem undone_of_compensate (hosts : Hosts server live) {plan : PipelineWritePlan}
    (hplan : ∀ c ∈ plan.channelPreconditions, c ∈ live.channels)
    {items : List (Write × Write × Record)}
    (hitems : ∀ item ∈ items, Completed server live plan item) {exec exec' : Exec}
    (hok : Replay.compensate server fails plan items exec = (.ok [], exec')) :
    Undone live items exec.live exec'.live := by
  induction items generalizing exec with
  | nil =>
    cases hok
    constructor
    case restored =>
      rintro c channel _ _ ⟨item, hitem, -⟩
      exact (List.not_mem_nil hitem).elim
    case others => exact fun _ _ _ => rfl
    case channels => exact fun c hc => ⟨hc, fun item hitem => (List.not_mem_nil hitem).elim⟩
    case groups => exact fun g hg => ⟨hg, fun item hitem => (List.not_mem_nil hitem).elim⟩
  | cons item items ih =>
    obtain ⟨failed, rest, exec₁, herrors, hlater, hundo⟩ := compensate_cons hok
    obtain ⟨rfl, rfl⟩ := List.append_eq_nil_iff.mp herrors.symm
    have hfirst := undone_of_undo hosts hplan (hitems item (List.mem_cons_self ..)) (hundo rfl)
    exact hfirst.trans (ih (fun item' hitem' => hitems item' (List.mem_cons_of_mem _ hitem')) hlater)

/-- What the loop completed can be undone from the preconditions of the plan. -/
theorem Landed.completed_of (h : Landed server live writes R) {P : Planner}
    (htracks : Tracks live P) (hwrites : ∀ w ∈ writes, w ∈ P.plan.writes)
    (hlisted : ∀ c ∈ P.plan.channelPreconditions, ∀ channel,
      live.channels.get? c = some channel → ∃ items, channel.read "streams" = .list items) :
    ∀ item ∈ R.completed, Completed server live P.plan item := by
  intro item hitem
  constructor
  case args => exact h.args item hitem
  case born => exact h.born item hitem
  case snapshot =>
    intro c data heq hnonneg
    have hwrite : .updateChannel c data ∈ writes := by
      rw [← h.completed, ← heq]
      exact List.mem_map_of_mem hitem
    obtain ⟨hlive, hpre⟩ := htracks.addressed _ (hwrites _ hwrite) c
      (by simp [Write.channelIds]) hnonneg
    obtain ⟨before, hbefore⟩ := Option.isSome_iff_exists.mp ((Dict.isSome_get? _ _).mpr hpre)
    have hsnap := htracks.recorded.channels c before hbefore
    obtain ⟨hitems, hmem⟩ := mem_snapshot hsnap
    obtain ⟨channel, streams, hget, hstreams, rfl⟩ := hsnap
    obtain ⟨items, hlist⟩ := hlisted c hpre channel hget
    refine ⟨_, channel, hbefore, hitems, hget, ?_⟩
    intro field hfield
    refine ⟨hmem field hfield, ?_⟩
    rw [read_relevant c channel streams hfield]
    split
    case isTrue heq =>
      subst heq
      have hsame : (Json.list items).orEmpty.toList = .ok items := by
        cases items <;> rfl
      rw [hlist, hsame] at hstreams
      cases hstreams
      exact hlist.symm
    case isFalse => rfl

/-- The store after all completed writes were undone, against the one replay began with. -/
theorem putBack_iff_covered (h : Landed server live writes R) {final : Live}
    (hundone : Undone live R.completed.reverse R.exec.live final) :
    PutBack live final ↔ Covered server live writes := by
  have hitem : ∀ w, w ∈ writes ↔ ∃ item ∈ R.completed.reverse, item.1 = w := by
    intro w
    rw [← h.completed]
    simp
  have hupdated : ∀ c, (∃ data, .updateChannel c data ∈ writes) ↔
      ∃ item ∈ R.completed.reverse, ∃ data, item.1 = .updateChannel c data := by
    intro c
    constructor
    · rintro ⟨data, hdata⟩
      obtain ⟨item, hmem, heq⟩ := (hitem _).mp hdata
      exact ⟨item, hmem, data, heq⟩
    · rintro ⟨item, hmem, data, heq⟩
      exact ⟨data, (hitem _).mpr ⟨item, hmem, heq⟩⟩
  constructor
  · intro hback c channel hget
    by_cases hany : ∃ data, .updateChannel c data ∈ writes
    · exact .inl hany
    · right
      intro channel' hget'
      have hlive : c ∈ live.channels := by
        rw [← Dict.isSome_get?, hget]
        rfl
      have hsame : final.channels.get? c = some channel' := by
        rw [hundone.others c hlive, h.store, hget']
        intro item hmem data heq
        exact hany ((hupdated c).mpr ⟨item, hmem, data, heq⟩)
      obtain ⟨old, hold, hread⟩ := hback.channels c channel hget
      rw [hsame, Option.some.injEq] at hold
      subst hold
      exact hread _ (by decide)
  · intro hcovered
    constructor
    case channels =>
      intro c channel hget
      have hlive : c ∈ live.channels := by
        rw [← Dict.isSome_get?, hget]
        rfl
      obtain ⟨channel', hget', hkept⟩ := h.kept c channel hget
      by_cases hany : ∃ data, .updateChannel c data ∈ writes
      · apply hundone.restored c channel hget _ ((hupdated c).mp hany)
        rw [← Dict.isSome_get?, hget']
        rfl
      · have hno : ∀ data, .updateChannel c data ∉ writes := fun data hdata => hany ⟨data, hdata⟩
        refine ⟨channel', ?_, ?_⟩
        · rw [hundone.others c hlive, hget']
          intro item hmem data heq
          exact hany ((hupdated c).mpr ⟨item, hmem, data, heq⟩)
        · intro field hfield
          by_cases hnumber : field = "channel_number"
          · subst hnumber
            exact ((hcovered c channel hget).resolve_left hany) channel' (h.store ▸ hget')
          · exact hkept hno field hfield hnumber
    case noChannel =>
      intro c hc
      obtain ⟨hmem, hgone⟩ := hundone.channels c hc
      rcases h.channelsBy c hmem with hlive | ⟨item, hdone, hcreate, hid⟩
      · exact hlive
      · exact (hgone item (List.mem_reverse.mpr hdone) hcreate hid).elim
    case noGroup =>
      intro g hg
      obtain ⟨hmem, hgone⟩ := hundone.groups g hg
      rcases h.groupsBy g hmem with hlive | ⟨item, hdone, hcreate, hid⟩
      · exact hlive
      · exact (hgone item (List.mem_reverse.mpr hdone) hcreate hid).elim

/-- A replay of create, update and assignment writes that breaks off, and whose compensation raises
nothing, puts the store back exactly when every channel left with another number was updated too. -/
theorem put_back_iff (d : Digest) (hdigest : Function.Injective d.digest)
    (hosts : Hosts server live) (calls : List Planner.Call)
    (hreversible : ∀ w ∈ (planned live calls).plan.writes, w.reversible) (fails : ℕ → Bool)
    (readSetValidated : Bool)
    (hvalid : readSetValidated = true →
      validateReadSet d live (planned live calls).plan = .ok ())
    (failedIndex : ℕ) (completed : List (String × Write)) (exec : Exec)
    (hrun : replayWritePlan d server fails (planned live calls).plan readSetValidated ⟨live, []⟩ =
      (.ok (.partialReplay failedIndex completed []), exec)) :
    PutBack live exec.live ↔
      Covered server live ((planned live calls).plan.writes.take failedIndex) := by
  have htracks := tracks_planned hosts calls
  generalize planned live calls = P at *
  have hstart : (⟨⟨live, []⟩, ∅, -1, [], []⟩ : Replay) = Replay.start live := rfl
  unfold replayWritePlan at hrun
  have hpassed : validateReadSet d live P.plan = .ok () := by
    cases readSetValidated with
    | true => exact hvalid rfl
    | false =>
      cases hvalidate : validateReadSet d live P.plan with
      | error e => simp [hvalidate] at hrun
      | ok u => rfl
  have hlisted := (validate_iff hdigest htracks.recorded).mp hpassed
  simp only [hpassed, ite_self, hstart] at hrun
  cases hloop : each (Replay.replayOne server fails) P.plan.writes (Replay.start live) with
  | mk outcome R' =>
    rw [hloop] at hrun
    cases outcome with
    | ok u => simp at hrun
    | error e =>
      obtain ⟨before, w, after, R, hwrites, hbefore, hraises⟩ := each_error hloop
      obtain ⟨hstore, hdone⟩ := replayOne_error hraises
      have hmem : ∀ w' ∈ before, w' ∈ P.plan.writes := by
        intro w' hw'
        rw [hwrites]
        exact List.mem_append_left _ hw'
      have hlanded := landed_of_each hosts (fun w' hw' => hreversible w' (hmem w' hw')) hbefore
      cases hundo : Replay.compensate server fails P.plan R'.completed.reverse R'.exec with
      | mk outcome' exec' =>
        rw [hundo] at hrun
        cases outcome' with
        | error e' => simp [Except.map] at hrun
        | ok errors =>
          simp only [Except.map, Prod.mk.injEq, Except.ok.injEq, ReplayEnd.partialReplay.injEq]
            at hrun
          obtain ⟨⟨hindex, -, rfl⟩, rfl⟩ := hrun
          have htake : P.plan.writes.take failedIndex = before := by
            have hlength : failedIndex = before.length := by
              rw [← hindex, hdone, ← hlanded.completed, List.length_map]
            rw [hwrites, hlength, List.take_left]
          have hundone := undone_of_compensate hosts
            (fun c hc => by
              obtain ⟨snapshot, hsnapshot⟩ :=
                Option.isSome_iff_exists.mp ((Dict.isSome_get? _ _).mpr hc)
              exact (htracks.recorded.channels c snapshot hsnapshot).mem)
            (fun item hitem => hlanded.completed_of htracks hmem hlisted item
              (hdone ▸ List.mem_reverse.mp hitem)) hundo
          rw [hdone, hstore] at hundone
          rw [htake]
          exact putBack_iff_covered hlanded hundone

end

/-- Where a replay broke off and the errors of its compensation. -/
def brokeOffAt : Except String ReplayEnd → Option (ℕ × List String)
  | .ok (.partialReplay failedIndex _ errors) => some (failedIndex, errors)
  | _ => none

theorem brokeOffAt_eq_some {outcome : Except String ReplayEnd} {i : ℕ} {errors : List String} :
    brokeOffAt outcome = some (i, errors) ↔
      ∃ completed, outcome = .ok (.partialReplay i completed errors) := by
  cases outcome with
  | error e => simp [brokeOffAt]
  | ok ending => cases ending <;> simp [brokeOffAt]

/-- A channel is created, the live one renumbered, and a group created last. -/
def createAndAssign (rename : Bool) : List Planner.Call :=
  [.write (.createChannel (Dict.ofList [("name", .str "New")]))] ++
    (if rename then [.write (.updateChannel 1 (Dict.ofList [("name", .str "Sport")]))] else []) ++
    [.write (.assignChannelNumbers [1] (.int 9)), .write (.createChannelGroup "Late")]

/-- With the live channel renamed before it is renumbered, a raising last write leaves nothing. -/
theorem put_back_renamed :
    PutBack oneChannel (replayWritePlan plainDigest plainServer (· = 3)
      (planned oneChannel (createAndAssign true)).plan false ⟨oneChannel, []⟩).2.live := by
  have hbroke : brokeOffAt (replayWritePlan plainDigest plainServer (· = 3)
      (planned oneChannel (createAndAssign true)).plan false ⟨oneChannel, []⟩).1 =
      some (3, []) := by decide +kernel
  obtain ⟨completed, hend⟩ := brokeOffAt_eq_some.mp hbroke
  have hrun := (Prod.mk.eta (p := replayWritePlan plainDigest plainServer (· = 3)
    (planned oneChannel (createAndAssign true)).plan false ⟨oneChannel, []⟩)).symm
  rw [hend] at hrun
  refine (put_back_iff plainDigest Function.injective_id hosts_oneChannel (createAndAssign true)
    (by decide) (· = 3) false nofun 3 completed _ hrun).mpr ?_
  intro c channel hget
  have hmem : c ∈ oneChannel.channels := by
    rw [← Dict.isSome_get?, hget]
    rfl
  have hc : c ∈ [(1 : ℤ)] := hmem
  obtain rfl := List.mem_singleton.mp hc
  exact .inl ⟨Dict.ofList [("name", .str "Sport")], by decide⟩

/-- Without the rename the live channel keeps the number it was assigned, though the compensation
raised nothing. -/
theorem assigned_number_stays :
    (∀ w ∈ (planned oneChannel (createAndAssign false)).plan.writes, w.reversible) ∧
      brokeOffAt (replayWritePlan plainDigest plainServer (· = 2)
        (planned oneChannel (createAndAssign false)).plan false ⟨oneChannel, []⟩).1 =
        some (2, []) ∧
      ¬PutBack oneChannel (replayWritePlan plainDigest plainServer (· = 2)
        (planned oneChannel (createAndAssign false)).plan false ⟨oneChannel, []⟩).2.live := by
  refine ⟨by decide, by decide +kernel, ?_⟩
  intro hback
  obtain ⟨channel', hget, hread⟩ := hback.channels 1 _ rfl
  have hnumber : ((replayWritePlan plainDigest plainServer (· = 2)
      (planned oneChannel (createAndAssign false)).plan false ⟨oneChannel, []⟩).2.live.channels.get?
      1).map (fun channel => channel.read "channel_number") = some (.int 9) := by decide +kernel
  rw [hget, Option.map_some, Option.some.injEq, hread _ (by decide)] at hnumber
  revert hnumber
  decide

end ChannelManager.Plans
