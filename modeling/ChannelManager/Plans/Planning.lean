import ChannelManager.Plans.WritePlan

/-!
# What a planning call does

A call first looks at the channels it names, which only adds what the live client reads of them,
and then either raises or records its write.
-/

namespace ChannelManager.Plans

open Eff

/-- What planning keeps of a live channel that it reads. -/
def SnapshotOf (live : Live) (channelId : ℤ) (before : Record) : Prop :=
  ∃ channel streams, live.channels.get? channelId = some channel ∧
    (channel.read "streams").orEmpty.toList = .ok streams ∧
    before = Planner.relevant channelId channel streams

/-- Between the two states planning has only read. -/
structure Looked (live : Live) (P Q : Planner) : Prop where
  writes : Q.plan.writes = P.plan.writes
  groups : Q.plan.groupPreconditions = P.plan.groupPreconditions
  profiles : Q.plan.profilePreconditions = P.plan.profilePreconditions
  nextTempId : Q.nextTempId = P.nextTempId
  shadow : ∀ c, Q.shadowChannels.get? c = P.shadowChannels.get? c ∨
    P.shadowChannels.get? c = none ∧ c ∈ Q.plan.channelPreconditions ∧
      ∃ before, SnapshotOf live c before ∧ Q.shadowChannels.get? c = some before
  channels : ∀ c, Q.plan.channelPreconditions.get? c = P.plan.channelPreconditions.get? c ∨
    P.plan.channelPreconditions.get? c = none ∧
      ∃ before, SnapshotOf live c before ∧ Q.plan.channelPreconditions.get? c = some before

section Looked

variable {live : Live} {P Q R : Planner}

theorem Looked.mem_channels (h : Looked live P Q) {c : ℤ}
    (hc : c ∈ P.plan.channelPreconditions) : c ∈ Q.plan.channelPreconditions := by
  rw [← Dict.isSome_get?] at hc ⊢
  rcases h.channels c with heq | ⟨hnone, -⟩
  · rw [heq]
    exact hc
  · rw [hnone] at hc
    contradiction

theorem Looked.mem_shadow (h : Looked live P Q) {c : ℤ} (hc : c ∈ P.shadowChannels) :
    c ∈ Q.shadowChannels := by
  rw [← Dict.isSome_get?] at hc ⊢
  rcases h.shadow c with heq | ⟨hnone, -⟩
  · rw [heq]
    exact hc
  · rw [hnone] at hc
    contradiction

theorem Looked.refl (live : Live) (P : Planner) : Looked live P P where
  writes := rfl
  groups := rfl
  profiles := rfl
  nextTempId := rfl
  shadow _ := .inl rfl
  channels _ := .inl rfl

theorem Looked.trans (h : Looked live P Q) (h' : Looked live Q R) : Looked live P R where
  writes := h'.writes.trans h.writes
  groups := h'.groups.trans h.groups
  profiles := h'.profiles.trans h.profiles
  nextTempId := h'.nextTempId.trans h.nextTempId
  shadow c := by
    rcases h.shadow c with heq | ⟨hnone, hmem, before, hsnap, hset⟩
    · rw [← heq]
      exact h'.shadow c
    · refine .inr ⟨hnone, h'.mem_channels hmem, before, hsnap, ?_⟩
      rcases h'.shadow c with heq' | ⟨hnone', -⟩
      · rw [heq', hset]
      · rw [hset] at hnone'
        cases hnone'
  channels c := by
    rcases h.channels c with heq | ⟨hnone, before, hsnap, hset⟩
    · rw [← heq]
      exact h'.channels c
    · refine .inr ⟨hnone, before, hsnap, ?_⟩
      rcases h'.channels c with heq' | ⟨hnone', -⟩
      · rw [heq', hset]
      · rw [hset] at hnone'
        cases hnone'

instance : Std.Refl (Looked live) := ⟨Looked.refl live⟩

instance : IsTrans Planner (Looked live) := ⟨fun _ _ _ => Looked.trans⟩

theorem get?_setDefault {κ ν : Type} [DecidableEq κ] (d : Dict κ ν) (k k' : κ) (v : ν) :
    (Planner.setDefault d k v).get? k' =
      if k = k' then some ((d.get? k).getD v) else d.get? k' := by
  unfold Planner.setDefault
  split
  case isTrue hmem =>
    by_cases hk : k = k'
    · subst hk
      obtain ⟨w, hw⟩ := Option.isSome_iff_exists.mp ((Dict.isSome_get? d k).mpr hmem)
      simp [hw]
    · rw [if_neg hk]
  case isFalse hmem =>
    rw [Dict.get?_set, (Dict.get?_eq_none d k).mpr hmem]
    rfl

theorem keep_channels (c : ℤ) (before : Record) (P : Planner) :
    (P.keep c before).plan.channelPreconditions =
      Planner.setDefault P.plan.channelPreconditions c before := rfl

/-- Keeping what was read of a channel that had no shadow is only a look. -/
theorem looked_keep {c : ℤ} {before : Record} (hshadow : P.shadowChannels.get? c = none)
    (hsnap : SnapshotOf live c before) : Looked live P (P.keep c before) := by
  constructor
  case shadow =>
    intro c'
    by_cases hc : c = c'
    · subst hc
      refine .inr ⟨hshadow, ?_, before, hsnap, Dict.get?_set_self _ _ _⟩
      rw [← Dict.isSome_get?, keep_channels, get?_setDefault, if_pos rfl]
      rfl
    · exact .inl (Dict.get?_set_ne _ _ hc)
  case channels =>
    intro c'
    rw [keep_channels, get?_setDefault]
    by_cases hc : c = c'
    · subst hc
      rw [if_pos rfl]
      cases P.plan.channelPreconditions.get? c with
      | some kept => exact .inl rfl
      | none => exact .inr ⟨rfl, before, hsnap, rfl⟩
    · rw [if_neg hc]
      exact .inl rfl
  all_goals rfl

/-- The three ends of `_channel_before`. -/
theorem channelBefore_cases (live : Live) (c : ℤ) (P : Planner) :
    (∃ channel, P.shadowChannels.get? c = some channel ∧
        Planner.channelBefore live c P = (.ok channel, P)) ∨
      (P.shadowChannels.get? c = none ∧ (∀ before, ¬SnapshotOf live c before) ∧
        ∃ error, Planner.channelBefore live c P = (.error error, P)) ∨
      ∃ before, P.shadowChannels.get? c = none ∧ SnapshotOf live c before ∧
        Planner.channelBefore live c P = (.ok before, P.keep c before) := by
  cases hshadow : P.shadowChannels.get? c with
  | some channel =>
    refine .inl ⟨channel, rfl, ?_⟩
    unfold Planner.channelBefore
    rw [bind_apply]
    dsimp only [get, getThe, MonadStateOf.get]
    rw [hshadow]
    rfl
  | none =>
    have hrun : Planner.channelBefore live c P = (do
        let channel ← Eff.ofExcept (live.getChannel c)
        let streams ← Eff.ofExcept (channel.read "streams").orEmpty.toList
        let before := Planner.relevant c channel streams
        modify (Planner.keep c before)
        pure before : Eff Planner Record) P := by
      unfold Planner.channelBefore
      rw [bind_apply]
      dsimp only [get, getThe, MonadStateOf.get]
      rw [hshadow]
    right
    cases hget : live.channels.get? c with
    | none =>
      refine .inl ⟨rfl, ?_, s!"channel {c} not found", ?_⟩
      · rintro before ⟨channel, streams, hchannel, -⟩
        rw [hget] at hchannel
        cases hchannel
      · rw [hrun, Live.getChannel, hget]
        rfl
    | some channel =>
      cases hstreams : (channel.read "streams").orEmpty.toList with
      | error error =>
        refine .inl ⟨rfl, ?_, error, ?_⟩
        · rintro before ⟨channel', streams, hchannel, hlist, -⟩
          obtain rfl : channel = channel' := by rw [hget] at hchannel; simpa using hchannel
          rw [hstreams] at hlist
          cases hlist
        · rw [hrun, Live.getChannel, hget]
          simp only [bind_apply, Eff.ofExcept, hstreams]
      | ok streams =>
        refine .inr ⟨_, rfl, ⟨channel, streams, hget, hstreams, rfl⟩, ?_⟩
        rw [hrun, Live.getChannel, hget]
        simp only [bind_apply, Eff.ofExcept, hstreams, modify_apply]
        rfl

/-- Looking at one channel: it is found, or it is neither shadowed nor readable. -/
theorem channelBefore_looked (live : Live) (c : ℤ) (P : Planner) :
    ∃ Q, Looked live P Q ∧
      ((∃ current, Planner.channelBefore live c P = (.ok current, Q) ∧
          Q.shadowChannels.get? c = some current) ∨
        (c ∉ P.shadowChannels ∧ (∀ before, ¬SnapshotOf live c before) ∧
          ∃ error, Planner.channelBefore live c P = (.error error, Q))) := by
  rcases channelBefore_cases live c P with
    ⟨current, hshadow, hrun⟩ | ⟨hshadow, hnone, error, hrun⟩ | ⟨before, hshadow, hsnap, hrun⟩
  · exact ⟨P, Looked.refl live P, .inl ⟨current, hrun, hshadow⟩⟩
  · exact ⟨P, Looked.refl live P, .inr ⟨(Dict.get?_eq_none _ _).mp hshadow, hnone, error, hrun⟩⟩
  · exact ⟨P.keep c before, looked_keep hshadow hsnap, .inl ⟨before, hrun, Dict.get?_set_self _ _ _⟩⟩

/-- Looking at several channels: all are found, or one is neither shadowed nor readable. -/
theorem each_looked (live : Live) (ids : List ℤ) (P : Planner) :
    ∃ Q, Looked live P Q ∧
      ((each (fun c => do let _ ← Planner.channelBefore live c) ids P = (.ok (), Q) ∧
          ∀ c ∈ ids, c ∈ Q.shadowChannels) ∨
        ((∃ c ∈ ids, c ∉ P.shadowChannels ∧ ∀ before, ¬SnapshotOf live c before) ∧
          ∃ error, each (fun c => do let _ ← Planner.channelBefore live c) ids P =
            (.error error, Q))) := by
  induction ids generalizing P with
  | nil => exact ⟨P, Looked.refl live P, .inl ⟨rfl, by simp⟩⟩
  | cons c ids ih =>
    obtain ⟨Q, hlooked, hfirst⟩ := channelBefore_looked live c P
    rcases hfirst with ⟨current, hrun, hshadow⟩ | ⟨hshadow, hnone, error, hrun⟩
    · obtain ⟨R, hlooked', hrest⟩ := ih Q
      have hstep : each (fun c => do let _ ← Planner.channelBefore live c) (c :: ids) P =
          each (fun c => do let _ ← Planner.channelBefore live c) ids Q := by
        rw [each, bind_apply, bind_apply, hrun]
        rfl
      refine ⟨R, hlooked.trans hlooked', ?_⟩
      rcases hrest with ⟨hrest, hall⟩ | ⟨⟨c', hc', hnot, hnone⟩, hrest⟩
      · refine .inl ⟨hstep.trans hrest, ?_⟩
        intro c' hc'
        rcases List.mem_cons.mp hc' with rfl | hc'
        · apply hlooked'.mem_shadow
          rw [← Dict.isSome_get?, hshadow]
          rfl
        · exact hall c' hc'
      · refine .inr ⟨⟨c', List.mem_cons_of_mem _ hc', fun h => hnot (hlooked.mem_shadow h), hnone⟩,
          ?_⟩
        rw [hstep]
        exact hrest
    · refine ⟨Q, hlooked, .inr ⟨⟨c, by simp, hshadow, hnone⟩, error, ?_⟩⟩
      rw [each, bind_apply, bind_apply, hrun]

end Looked

/-- The state with one more write recorded. -/
def Planner.recorded (P : Planner) (w : Write) : Planner :=
  { P with plan := { P.plan with writes := P.plan.writes ++ [w] } }

/-- What an accepted write leaves of a state that has looked at the channels it names. -/
def Planner.accept (live : Live) (Q : Planner) (w : Write) : Planner :=
  match w with
  | .createChannel data =>
    { Q.recorded w with
      nextTempId := Q.nextTempId - 1
      shadowChannels := Q.shadowChannels.set Q.nextTempId
        (Dict.update (Dict.ofList [("id", .int Q.nextTempId)]) data) }
  | .createChannelGroup _ | .createLogo _ => { Q.recorded w with nextTempId := Q.nextTempId - 1 }
  | .updateChannel c data =>
    { Q.recorded w with
      shadowChannels := Q.shadowChannels.set c
        (((Q.shadowChannels.get? c).getD ∅).update data) }
  | .deleteChannel c => { Q.recorded w with shadowChannels := Q.shadowChannels.erase c }
  | .deleteChannelGroup g =>
    { Q with plan := { (Q.recorded w).plan with
        groupPreconditions :=
          Q.plan.groupPreconditions.set g ((live.groups.get? g).getD .null) } }
  | .assignChannelNumbers .. => Q.recorded w
  | .updateProfileChannel p c _ =>
    { Q with plan := { (Q.recorded w).plan with
        profilePreconditions := Q.plan.profilePreconditions.set (p, c)
          (.int c ∈ memberIds ((live.profiles.get? p).getD [])) } }

/-- What a write needs besides its channels: the group it deletes, the profile it changes. -/
def Write.parentExists (live : Live) : Write → Prop
  | .deleteChannelGroup g => g ∈ live.groups
  | .updateProfileChannel p .. => p ∈ live.profiles
  | _ => True

/-- What a planning call for a write does: it looks at the channels named, and then it records the
write, or raises because it found a channel or a parent missing. -/
theorem write_cases (live : Live) (w : Write) (P : Planner) :
    ∃ Q, Looked live P Q ∧
      ((∃ result, Planner.write live w P = (.ok result, Q.accept live w) ∧
          (∀ c ∈ w.channelIds, c ∈ Q.shadowChannels) ∧ w.parentExists live) ∨
        ((∃ error, Planner.write live w P = (.error error, Q)) ∧
          ((∃ c ∈ w.channelIds, c ∉ P.shadowChannels ∧ ∀ before, ¬SnapshotOf live c before) ∨
            ¬w.parentExists live))) := by
  cases w with
  | createChannel data => exact ⟨P, Looked.refl live P, .inl ⟨_, rfl, by simp [Write.channelIds], trivial⟩⟩
  | createChannelGroup name =>
    exact ⟨P, Looked.refl live P, .inl ⟨_, rfl, by simp [Write.channelIds], trivial⟩⟩
  | createLogo data => exact ⟨P, Looked.refl live P, .inl ⟨_, rfl, by simp [Write.channelIds], trivial⟩⟩
  | updateChannel c data =>
    obtain ⟨Q, hlooked, ⟨current, hrun, hshadow⟩ | ⟨hnot, hnone, error, hrun⟩⟩ :=
      channelBefore_looked live c P
    · have hmem : c ∈ Q.shadowChannels := by
        rw [← Dict.isSome_get?, hshadow]
        rfl
      refine ⟨Q, hlooked, .inl ⟨current.update data, ?_, by simpa [Write.channelIds] using hmem,
        trivial⟩⟩
      rw [Planner.write, Planner.updateChannel, bind_apply, hrun]
      simp only [Planner.accept, hshadow, Option.getD_some]
      rfl
    · refine ⟨Q, hlooked, .inr ⟨⟨error, ?_⟩, .inl ⟨c, by simp [Write.channelIds], hnot, hnone⟩⟩⟩
      rw [Planner.write, Planner.updateChannel, bind_apply, hrun]
  | deleteChannel c =>
    obtain ⟨Q, hlooked, ⟨current, hrun, hshadow⟩ | ⟨hnot, hnone, error, hrun⟩⟩ :=
      channelBefore_looked live c P
    · have hmem : c ∈ Q.shadowChannels := by
        rw [← Dict.isSome_get?, hshadow]
        rfl
      refine ⟨Q, hlooked, .inl ⟨∅, ?_, by simpa [Write.channelIds] using hmem, trivial⟩⟩
      rw [Planner.write, Planner.deleteChannel, bind_apply, hrun]
      rfl
    · refine ⟨Q, hlooked, .inr ⟨⟨error, ?_⟩, .inl ⟨c, by simp [Write.channelIds], hnot, hnone⟩⟩⟩
      rw [Planner.write, Planner.deleteChannel, bind_apply, hrun]
  | deleteChannelGroup g =>
    cases hgroup : live.groups.get? g with
    | none =>
      refine ⟨P, Looked.refl live P, .inr ⟨⟨s!"channel group {g} not found during planning", ?_⟩,
        .inr ((Dict.get?_eq_none _ _).mp hgroup)⟩⟩
      rw [Planner.write, Planner.deleteChannelGroup, hgroup]
      rfl
    | some name =>
      refine ⟨P, Looked.refl live P, .inl ⟨∅, ?_, by simp [Write.channelIds], ?_⟩⟩
      · rw [Planner.write, Planner.deleteChannelGroup, hgroup, Planner.accept, hgroup]
        rfl
      · rw [Write.parentExists, ← Dict.isSome_get?, hgroup]
        rfl
  | assignChannelNumbers ids startingNumber =>
    obtain ⟨Q, hlooked, ⟨hrun, hall⟩ | ⟨hmissing, error, hrun⟩⟩ := each_looked live ids P
    · refine ⟨Q, hlooked, .inl ⟨Dict.ofList [("status", .str "planned")], ?_, hall, trivial⟩⟩
      rw [Planner.write, Planner.assignChannelNumbers, bind_apply, hrun]
      rfl
    · refine ⟨Q, hlooked, .inr ⟨⟨error, ?_⟩, .inl hmissing⟩⟩
      rw [Planner.write, Planner.assignChannelNumbers, bind_apply, hrun]
  | updateProfileChannel p c data =>
    obtain ⟨Q, hlooked, ⟨current, hrun, hshadow⟩ | ⟨hnot, hnone, error, hrun⟩⟩ :=
      channelBefore_looked live c P
    · have hmem : c ∈ Q.shadowChannels := by
        rw [← Dict.isSome_get?, hshadow]
        rfl
      cases hprofile : live.profiles.get? p with
      | none =>
        refine ⟨Q, hlooked, .inr ⟨⟨s!"channel profile {p} not found during planning", ?_⟩,
          .inr ((Dict.get?_eq_none _ _).mp hprofile)⟩⟩
        rw [Planner.write, Planner.updateProfileChannel, hprofile, bind_apply, hrun]
        rfl
      | some members =>
        refine ⟨Q, hlooked, .inl ⟨data, ?_, by simpa [Write.channelIds] using hmem, ?_⟩⟩
        · rw [Planner.write, Planner.updateProfileChannel, hprofile, bind_apply, hrun,
            Planner.accept, hprofile]
          rfl
        · rw [Write.parentExists, ← Dict.isSome_get?, hprofile]
          rfl
    · refine ⟨Q, hlooked, .inr ⟨⟨error, ?_⟩, .inl ⟨c, by simp [Write.channelIds], hnot, hnone⟩⟩⟩
      rw [Planner.write, Planner.updateProfileChannel, bind_apply, hrun]

theorem planned_concat (live : Live) (calls : List Planner.Call) (call : Planner.Call) :
    planned live (calls ++ [call]) = (call.run live (planned live calls)).2 := by
  simp [planned]

/-- A read leaves the planning client as it is. -/
theorem planned_getChannel (live : Live) (calls : List Planner.Call) (c : ℤ) :
    planned live (calls ++ [.getChannel c]) = planned live calls := by
  rw [planned_concat]
  show (Planner.getChannel live c (planned live calls)).2 = planned live calls
  rw [Planner.getChannel, bind_apply]
  dsimp only [get, getThe, MonadStateOf.get]
  cases (planned live calls).shadowChannels.get? c <;> rfl

end ChannelManager.Plans
