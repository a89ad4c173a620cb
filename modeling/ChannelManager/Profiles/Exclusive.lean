import Mathlib.Data.Finset.Basic
import Mathlib.Data.Finset.Dedup
import Mathlib.Data.List.Infix
import ChannelManager.Profiles.Membership

/-!
# Exclusive profiles

`_apply_exclusive_profile_membership` makes a channel a member of the profiles selected for it and
of no other known one. With a map of the memberships it writes only what has to change; without one
it writes every profile. A write that raises is passed over and leaves the memberships alone.
-/

namespace ChannelManager.Profiles

/-- `ProfileMembershipResult`. -/
structure MembershipResult where
  enabledCount : ℕ
  disabledCount : ℕ
  failedProfileIds : List ℤ
deriving DecidableEq

/-- What the executor knows of profiles: `_all_profile_ids`, `_channel_profile_membership` and
`_run_start_channel_ids`. -/
structure Known where
  allProfileIds : Option (List ℤ)
  channelProfileMembership : Option (Dict ℤ (Finset ℤ))
  runStartChannelIds : Finset ℤ

namespace Known

variable (known : Known)

def universeIds : List ℤ := known.allProfileIds.getD []

/-- `_current_profile_membership`. -/
def currentProfileMembership (channelId : ℤ) : Finset ℤ :=
  match known.channelProfileMembership with
  | none => ∅
  | some membership =>
    match membership.get? channelId with
    | some profileIds => profileIds
    | none => if channelId ∈ known.runStartChannelIds then ∅ else known.universeIds.toFinset

/-- `_profile_flip_plan`: the profiles to enable and those to disable. -/
def profileFlipPlan (channelId : ℤ) (selectedIds : List ℤ) : List ℤ × List ℤ :=
  let orderedIds := firsts (known.universeIds ++ selectedIds)
  match known.channelProfileMembership with
  | none => (orderedIds.filter (· ∈ selectedIds), orderedIds.filter (· ∉ selectedIds))
  | some _ =>
    let current := known.currentProfileMembership channelId
    (orderedIds.filter fun pid => pid ∈ selectedIds ∧ pid ∉ current,
      orderedIds.filter fun pid => pid ∉ selectedIds ∧ pid ∈ current)

/-- Keep what a reconcile has left of a channel's memberships. -/
def remember (channelId : ℤ) (current : Finset ℤ) : Known :=
  match known.channelProfileMembership with
  | none => known
  | some membership =>
    { known with
      channelProfileMembership := some (membership.set channelId current)
      runStartChannelIds := insert channelId known.runStartChannelIds }

end Known

/-- A call of `_apply_exclusive_profile_membership`, with the profiles whose write raises. -/
structure ProfileCall where
  channelId : ℤ
  selectedIds : List ℤ
  fails : ℤ → Bool

/-- Where the loop over the writes stands, and the memberships after each of them. -/
structure Writing where
  member : Members
  current : Finset ℤ
  result : MembershipResult
  moments : List Members

/-- The executor's knowledge beside the memberships Dispatcharr holds. -/
structure Assigning where
  known : Known
  member : Members

namespace ProfileCall

variable (call : ProfileCall)

/-- One turn of the loop: `update_profile_channel` and what is noted of it. -/
def write (s : Writing) (flip : ℤ × Bool) : Writing :=
  if call.fails flip.1 then
    { s with
      result := { s.result with failedProfileIds := s.result.failedProfileIds ++ [flip.1] }
      moments := s.moments ++ [s.member] }
  else
    let member := Store.enrolled s.member flip.1 [call.channelId] flip.2
    if flip.2 then
      { member
        current := insert flip.1 s.current
        result := { s.result with enabledCount := s.result.enabledCount + 1 }
        moments := s.moments ++ [member] }
    else
      { member
        current := s.current.erase flip.1
        result := { s.result with disabledCount := s.result.disabledCount + 1 }
        moments := s.moments ++ [member] }

/-- The profiles enabled, each with its flag. -/
def enables (known : Known) : List (ℤ × Bool) :=
  (known.profileFlipPlan call.channelId call.selectedIds).1.map (·, true)

def disables (known : Known) : List (ℤ × Bool) :=
  (known.profileFlipPlan call.channelId call.selectedIds).2.map (·, false)

/-- The writes a call issues. -/
def writes (known : Known) : List (ℤ × Bool) := call.enables known ++ call.disables known

/-- The loop, before it has written. -/
def opening (s : Assigning) : Writing :=
  ⟨s.member, s.known.currentProfileMembership call.channelId, ⟨0, 0, []⟩, []⟩

def written (s : Assigning) : Writing := (call.writes s.known).foldl call.write (call.opening s)

end ProfileCall

/-- `_apply_exclusive_profile_membership`. -/
def applyExclusiveProfileMembership (s : Assigning) (call : ProfileCall) : Assigning :=
  ⟨s.known.remember call.channelId (call.written s).current, (call.written s).member⟩

namespace ProfileCall

variable (call : ProfileCall)

/-- A profile is written: it is known or selected, and there is no map of the memberships or the map
does not have it as selected. -/
def Due (known : Known) (p : ℤ) : Prop :=
  (p ∈ known.universeIds ∨ p ∈ call.selectedIds) ∧
    (known.channelProfileMembership = none ∨
      ¬(p ∈ call.selectedIds ↔ p ∈ known.currentProfileMembership call.channelId))

/-- A profile is written and the write goes through. -/
def Lands (known : Known) (p : ℤ) : Prop := call.Due known p ∧ call.fails p = false

instance (known : Known) (p : ℤ) : Decidable (call.Due known p) :=
  inferInstanceAs (Decidable (_ ∧ (_ ∨ _)))

instance (known : Known) (p : ℤ) : Decidable (call.Lands known p) :=
  inferInstanceAs (Decidable (_ ∧ _))

section Plan

variable {call} {known : Known} {p : ℤ} {enabled : Bool}

theorem mem_enables : (p, enabled) ∈ call.enables known ↔
    call.Due known p ∧ p ∈ call.selectedIds ∧ enabled = true := by
  simp only [enables, Known.profileFlipPlan, Due]
  cases known.channelProfileMembership with
  | none =>
    simp only [List.mem_map, List.mem_filter, mem_firsts, List.mem_append, Prod.mk.injEq]
    grind
  | some membership =>
    simp only [List.mem_map, List.mem_filter, mem_firsts, List.mem_append, Prod.mk.injEq]
    grind

theorem mem_disables : (p, enabled) ∈ call.disables known ↔
    call.Due known p ∧ p ∉ call.selectedIds ∧ enabled = false := by
  simp only [disables, Known.profileFlipPlan, Due]
  cases known.channelProfileMembership with
  | none =>
    simp only [List.mem_map, List.mem_filter, mem_firsts, List.mem_append, Prod.mk.injEq]
    grind
  | some membership =>
    simp only [List.mem_map, List.mem_filter, mem_firsts, List.mem_append, Prod.mk.injEq]
    grind

/-- A profile that is due is written once, as selected or not. -/
theorem mem_writes : (p, enabled) ∈ call.writes known ↔
    call.Due known p ∧ enabled = decide (p ∈ call.selectedIds) := by
  rw [writes, List.mem_append, mem_enables, mem_disables]
  by_cases hp : p ∈ call.selectedIds <;> simp [hp]

end Plan

section Loop

variable {call} {ws : List (ℤ × Bool)} {c p : ℤ}

theorem write_member (s : Writing) (flip : ℤ × Bool) :
    (call.write s flip).member c p =
      if c = call.channelId ∧ p = flip.1 ∧ call.fails p = false then flip.2 else s.member c p := by
  by_cases hfails : call.fails flip.1 = true
  · rw [write, if_pos hfails]
    exact (if_neg fun h => by rw [h.2.1, hfails] at h; exact Bool.noConfusion h.2.2).symm
  · have hmember : (call.write s flip).member =
        Store.enrolled s.member flip.1 [call.channelId] flip.2 := by
      rw [write, if_neg hfails]
      cases flip.2 <;> rfl
    rw [hmember, Store.enrolled]
    simp only [List.mem_singleton]
    refine if_congr ?_ rfl rfl
    constructor
    · intro ⟨hp, hc⟩
      exact ⟨hc, hp, by simpa [hp] using hfails⟩
    · intro ⟨hc, hp, _⟩
      exact ⟨hp, hc⟩

theorem mem_write_current (s : Writing) (flip : ℤ × Bool) :
    p ∈ (call.write s flip).current ↔
      if p = flip.1 ∧ call.fails p = false then flip.2 = true else p ∈ s.current := by
  by_cases hp : p = flip.1
  · subst hp
    cases hfails : call.fails flip.1 with
    | true => simp [write, hfails]
    | false => cases hflag : flip.2 <;> simp [write, hfails, hflag]
  · cases hfails : call.fails flip.1 with
    | true => simp [write, hfails, hp]
    | false => cases hflag : flip.2 <;> simp [write, hfails, hflag, hp]

theorem write_failed (s : Writing) (flip : ℤ × Bool) :
    (call.write s flip).result.failedProfileIds =
      s.result.failedProfileIds ++ if call.fails flip.1 then [flip.1] else [] := by
  cases hfails : call.fails flip.1 with
  | true => simp [write, hfails]
  | false => cases hflag : flip.2 <;> simp [write, hfails, hflag]

theorem write_moments (s : Writing) (flip : ℤ × Bool) :
    (call.write s flip).moments = s.moments ++ [(call.write s flip).member] := by
  rw [write]
  split_ifs <;> rfl

/-- A run of writes that each set a profile as selected sets the profiles whose write goes through. -/
theorem foldl_write_member (hws : ∀ w ∈ ws, w.2 = decide (w.1 ∈ call.selectedIds)) (s : Writing) :
    (ws.foldl call.write s).member c p =
      if c = call.channelId ∧ p ∈ ws.map Prod.fst ∧ call.fails p = false then
        decide (p ∈ call.selectedIds)
      else s.member c p := by
  induction ws generalizing s with
  | nil => simp
  | cons w ws ih =>
    rw [List.foldl_cons, ih fun w' hw' => hws w' (List.mem_cons_of_mem w hw'), write_member]
    have hw := hws w List.mem_cons_self
    grind

theorem mem_foldl_write_current (hws : ∀ w ∈ ws, w.2 = decide (w.1 ∈ call.selectedIds))
    (s : Writing) :
    p ∈ (ws.foldl call.write s).current ↔
      if p ∈ ws.map Prod.fst ∧ call.fails p = false then p ∈ call.selectedIds
      else p ∈ s.current := by
  induction ws generalizing s with
  | nil => simp
  | cons w ws ih =>
    rw [List.foldl_cons, ih fun w' hw' => hws w' (List.mem_cons_of_mem w hw'), mem_write_current]
    have hw := hws w List.mem_cons_self
    grind

theorem foldl_write_failed (s : Writing) :
    (ws.foldl call.write s).result.failedProfileIds =
      s.result.failedProfileIds ++ (ws.map Prod.fst).filter call.fails := by
  induction ws generalizing s with
  | nil => simp
  | cons w ws ih =>
    rw [List.foldl_cons, ih, write_failed, List.append_assoc, List.map_cons, List.filter_cons]
    split_ifs <;> rfl

/-- What a moment shows is what some of the writes have made of the memberships. -/
theorem mem_foldl_write_moments (s : Writing) {m : Members}
    (hm : m ∈ (ws.foldl call.write s).moments) :
    m ∈ s.moments ∨ ∃ done, done <+: ws ∧ m = (done.foldl call.write s).member := by
  induction ws generalizing s with
  | nil => exact .inl hm
  | cons w ws ih =>
    obtain hm | ⟨done, hdone, rfl⟩ := ih (call.write s w) hm
    · rw [write_moments, List.mem_append, List.mem_singleton] at hm
      obtain hm | rfl := hm
      · exact .inl hm
      · exact .inr ⟨[w], List.prefix_append [w] ws, rfl⟩
    · exact .inr ⟨w :: done, List.cons_prefix_cons.mpr ⟨rfl, hdone⟩, rfl⟩

/-- The last moment shows what all the writes have made of them. -/
theorem member_mem_moments (hws : ws ≠ []) (s : Writing) :
    (ws.foldl call.write s).member ∈ (ws.foldl call.write s).moments := by
  obtain ⟨done, last, rfl⟩ := (List.eq_nil_or_concat' ws).resolve_left hws
  rw [List.foldl_append, List.foldl_cons, List.foldl_nil, write_moments, List.mem_append]
  exact .inr (List.mem_singleton_self _)

end Loop

section Call

variable {call} {s : Assigning} {c p : ℤ}

theorem mem_map_writes {known : Known} : p ∈ (call.writes known).map Prod.fst ↔ call.Due known p := by
  rw [List.mem_map]
  constructor
  · rintro ⟨⟨p', enabled⟩, hw, rfl⟩
    exact (mem_writes.mp hw).1
  · intro hdue
    exact ⟨(p, decide (p ∈ call.selectedIds)), mem_writes.mpr ⟨hdue, rfl⟩, rfl⟩

theorem flag_of_mem_writes {known : Known} {w : ℤ × Bool} (hw : w ∈ call.writes known) :
    w.2 = decide (w.1 ∈ call.selectedIds) :=
  (mem_writes.mp hw).2

/-- A call sets the channel's profiles whose write lands as selected and leaves all else. -/
theorem member_written :
    (call.written s).member c p =
      if c = call.channelId ∧ call.Lands s.known p then decide (p ∈ call.selectedIds)
      else s.member c p := by
  rw [written, foldl_write_member fun w hw => flag_of_mem_writes hw]
  simp only [mem_map_writes]
  rfl

theorem member_apply :
    (applyExclusiveProfileMembership s call).member c p =
      if c = call.channelId ∧ call.Lands s.known p then decide (p ∈ call.selectedIds)
      else s.member c p :=
  member_written

theorem known_apply :
    (applyExclusiveProfileMembership s call).known =
      s.known.remember call.channelId (call.written s).current := rfl

theorem mem_current_written :
    p ∈ (call.written s).current ↔
      if call.Lands s.known p then p ∈ call.selectedIds
      else p ∈ s.known.currentProfileMembership call.channelId := by
  rw [written, mem_foldl_write_current fun w hw => flag_of_mem_writes hw]
  simp only [mem_map_writes]
  rfl

/-- A call names no failed profile when every write that is due goes through. -/
theorem failed_written_eq_nil :
    (call.written s).result.failedProfileIds = [] ↔
      ∀ p, call.Due s.known p → call.fails p = false := by
  rw [written, foldl_write_failed]
  change (List.filter call.fails _) = [] ↔ _
  rw [List.filter_eq_nil_iff]
  simp only [mem_map_writes, Bool.not_eq_true]

end Call

end ProfileCall

end ChannelManager.Profiles
