import ChannelManager.Profiles.Exclusive

/-!
# Writing only what changes

With the memberships of the run's start in hand, a sequence of exclusive assignments leaves behind
each of its calls what writing every profile would have left there, and the map the run keeps says
what Dispatcharr holds.
-/

namespace ChannelManager.Profiles

/-- The map of the memberships at the start is what Dispatcharr holds; a channel it does not list is
in no profile if it was there at the start and in the known ones if it is created in the run. -/
structure RunStart (known : Known) (membership : Dict ℤ (Finset ℤ)) (member : Members) : Prop where
  kept : known.channelProfileMembership = some membership
  listed : ∀ c profileIds, membership.get? c = some profileIds →
    ∀ p, member c p = true ↔ p ∈ profileIds
  unlisted : ∀ c, c ∉ membership → c ∈ known.runStartChannelIds → ∀ p, member c p = false
  created : ∀ c, c ∉ membership → c ∉ known.runStartChannelIds →
    ∀ p, member c p = true ↔ p ∈ known.universeIds

/-- The executor without a map of the memberships. -/
def Known.writeAll (known : Known) : Known := { known with channelProfileMembership := none }

/-- The map the executor keeps says what Dispatcharr holds. -/
structure Assigning.Mirrors (s : Assigning) : Prop where
  mapped : s.known.channelProfileMembership ≠ none
  same : ∀ c p, s.member c p = true ↔ p ∈ s.known.currentProfileMembership c

theorem RunStart.mirrors {known : Known} {membership : Dict ℤ (Finset ℤ)} {member : Members}
    (h : RunStart known membership member) : (Assigning.mk known member).Mirrors where
  mapped := by simp [h.kept]
  same := by
    intro c p
    simp only [Known.currentProfileMembership, h.kept]
    cases hget : membership.get? c with
    | some profileIds => exact h.listed c profileIds hget p
    | none =>
      have hc := (membership.get?_eq_none c).mp hget
      by_cases hstart : c ∈ known.runStartChannelIds
      · simp [hstart, h.unlisted c hc hstart p]
      · simp [hstart, h.created c hc hstart p]

section Remember

variable (known : Known) (c : ℤ) (current : Finset ℤ)

@[simp] theorem universeIds_remember : (known.remember c current).universeIds = known.universeIds := by
  rw [Known.remember]
  cases known.channelProfileMembership <;> rfl

theorem remember_eq_none :
    (known.remember c current).channelProfileMembership = none ↔
      known.channelProfileMembership = none := by
  rw [Known.remember]
  split <;> simp_all

/-- A reconciled channel has what is kept of it, every other channel what it had. -/
theorem currentProfileMembership_remember (h : known.channelProfileMembership ≠ none) (c' : ℤ) :
    (known.remember c current).currentProfileMembership c' =
      if c' = c then current else known.currentProfileMembership c' := by
  obtain ⟨membership, hmembership⟩ := Option.ne_none_iff_exists'.mp h
  simp only [Known.remember, Known.currentProfileMembership, hmembership, Known.universeIds,
    Dict.get?_set, Finset.mem_insert]
  by_cases hc : c' = c
  · simp [hc]
  · simp [hc, Ne.symm hc]

end Remember

section Step

variable {s : Assigning} (call : ProfileCall)

/-- A call keeps the map true of what Dispatcharr holds. -/
theorem Assigning.Mirrors.step (h : s.Mirrors) : (applyExclusiveProfileMembership s call).Mirrors where
  mapped := fun hnone => h.mapped ((remember_eq_none _ _ _).mp hnone)
  same := by
    intro c p
    rw [ProfileCall.known_apply, currentProfileMembership_remember _ _ _ h.mapped,
      ProfileCall.member_apply]
    by_cases hc : c = call.channelId
    · subst hc
      rw [if_pos rfl, ProfileCall.mem_current_written]
      by_cases hlands : call.Lands s.known p
      · simp [hlands]
      · simp [hlands, h.same]
    · simp [hc, h.same]

/-- A profile the map has as selected is so already, and a write would leave it. -/
theorem Assigning.Mirrors.settled (h : s.Mirrors) {p : ℤ}
    (hknown : p ∈ s.known.universeIds ∨ p ∈ call.selectedIds) (hdue : ¬call.Due s.known p) :
    s.member call.channelId p = decide (p ∈ call.selectedIds) := by
  have hsame : p ∈ call.selectedIds ↔ p ∈ s.known.currentProfileMembership call.channelId := by
    by_contra hdiffers
    exact hdue ⟨hknown, .inr hdiffers⟩
  rw [Bool.eq_iff_iff, decide_eq_true_eq, h.same, hsame]

/-- The memberships are the same after a call that writes what changes and one that writes all. -/
theorem Assigning.Mirrors.member_writeAll (h : s.Mirrors) {all : Known}
    (hall : all.channelProfileMembership = none) (huniverse : all.universeIds = s.known.universeIds) :
    (applyExclusiveProfileMembership s call).member =
      (applyExclusiveProfileMembership ⟨all, s.member⟩ call).member := by
  funext c p
  rw [ProfileCall.member_apply, ProfileCall.member_apply]
  by_cases hc : c = call.channelId
  · subst hc
    have hdueAll : call.Due all p ↔ p ∈ s.known.universeIds ∨ p ∈ call.selectedIds := by
      rw [ProfileCall.Due, huniverse, and_iff_left (.inl hall)]
    by_cases hdue : call.Due s.known p
    · simp only [ProfileCall.Lands, hdue, hdueAll, hdue.1]
    · by_cases hknown : p ∈ s.known.universeIds ∨ p ∈ call.selectedIds
      · simp only [ProfileCall.Lands, hdue, h.settled call hknown hdue, false_and, and_false,
          ite_self]
      · simp only [ProfileCall.Lands, hdue, hdueAll, hknown]
  · simp [hc]

/-- A call none of whose writes failed leaves the channel in its selected profiles, of all that are
known or selected. -/
theorem Assigning.Mirrors.exact (h : s.Mirrors) (hclean : (call.written s).result.failedProfileIds = [])
    {p : ℤ} (hknown : p ∈ s.known.universeIds ∨ p ∈ call.selectedIds) :
    (applyExclusiveProfileMembership s call).member call.channelId p = decide (p ∈ call.selectedIds) := by
  rw [ProfileCall.member_apply]
  by_cases hdue : call.Due s.known p
  · rw [if_pos ⟨rfl, hdue, ProfileCall.failed_written_eq_nil.mp hclean p hdue⟩]
  · rw [if_neg fun hlands => hdue hlands.2.1, h.settled call hknown hdue]

/-- The same assignment again has nothing to write. -/
theorem Assigning.Mirrors.again (h : s.Mirrors)
    (hclean : (call.written s).result.failedProfileIds = []) {again : ProfileCall}
    (hchannel : again.channelId = call.channelId) (hselected : again.selectedIds = call.selectedIds) :
    again.writes (applyExclusiveProfileMembership s call).known = [] := by
  refine List.eq_nil_iff_forall_not_mem.mpr ?_
  intro w hw
  have hdue : again.Due _ w.1 := (ProfileCall.mem_writes.mp hw).1
  have hstep := h.step call
  have hknown : w.1 ∈ s.known.universeIds ∨ w.1 ∈ call.selectedIds := by
    simpa [ProfileCall.known_apply, hselected] using hdue.1
  obtain hnone | hdiffers := hdue.2
  · exact hstep.mapped hnone
  · refine hdiffers ?_
    rw [hchannel, hselected, ← hstep.same, h.exact call hclean hknown, decide_eq_true_eq]

end Step

/-- A sequence of calls. -/
def assignAll (s : Assigning) (calls : List ProfileCall) : Assigning :=
  calls.foldl applyExclusiveProfileMembership s

section Run

variable {calls : List ProfileCall}

@[simp] theorem assignAll_cons (s : Assigning) (call : ProfileCall) :
    assignAll s (call :: calls) = assignAll (applyExclusiveProfileMembership s call) calls := rfl

theorem universeIds_assignAll (s : Assigning) (calls : List ProfileCall) :
    (assignAll s calls).known.universeIds = s.known.universeIds := by
  induction calls generalizing s with
  | nil => rfl
  | cons call calls ih => rw [assignAll_cons, ih, ProfileCall.known_apply, universeIds_remember]

theorem assignAll_mirrors {s : Assigning} (h : s.Mirrors) (calls : List ProfileCall) :
    (assignAll s calls).Mirrors := by
  induction calls generalizing s with
  | nil => exact h
  | cons call calls ih => exact ih (h.step call)

theorem assignAll_writeAll {s : Assigning} (h : s.Mirrors) {all : Known}
    (hall : all.channelProfileMembership = none) (huniverse : all.universeIds = s.known.universeIds) :
    (assignAll s calls).member = (assignAll ⟨all, s.member⟩ calls).member := by
  induction calls generalizing s all with
  | nil => rfl
  | cons call calls ih =>
    rw [assignAll_cons, assignAll_cons]
    have hmember := h.member_writeAll call hall huniverse
    have hnone : (applyExclusiveProfileMembership ⟨all, s.member⟩ call).known.channelProfileMembership
        = none := (remember_eq_none _ _ _).mpr hall
    have hsame : (applyExclusiveProfileMembership ⟨all, s.member⟩ call).known.universeIds =
        (applyExclusiveProfileMembership s call).known.universeIds := by
      simp [ProfileCall.known_apply, huniverse]
    rw [ih (h.step call) hnone hsame, hmember]

end Run

/-- Every sequence of calls leaves the same memberships whether it writes what changes or all, and
the map it keeps is what Dispatcharr holds; so after one more call without a failed write the channel
is in its selected profiles of all that are known, and the same call again writes nothing. A
sequence's beginnings are sequences, so this holds after every call. -/
theorem assignAll_diffOnly (known : Known) (membership : Dict ℤ (Finset ℤ)) (member : Members)
    (hstart : RunStart known membership member) (calls : List ProfileCall) :
    let s := assignAll ⟨known, member⟩ calls
    s.member = (assignAll ⟨known.writeAll, member⟩ calls).member ∧
      (∀ c p, p ∈ s.known.currentProfileMembership c ↔ s.member c p = true) ∧
      ∀ call, (call.written s).result.failedProfileIds = [] →
        (∀ p, p ∈ known.universeIds ∨ p ∈ call.selectedIds →
          ((applyExclusiveProfileMembership s call).member call.channelId p = true ↔
            p ∈ call.selectedIds)) ∧
        ∀ again : ProfileCall, again.channelId = call.channelId → again.selectedIds = call.selectedIds →
          again.writes (applyExclusiveProfileMembership s call).known = [] := by
  have hmirrors := assignAll_mirrors hstart.mirrors calls
  refine ⟨assignAll_writeAll hstart.mirrors rfl rfl, fun c p => (hmirrors.same c p).symm, ?_⟩
  intro call hclean
  refine ⟨fun p hknown => ?_, fun again => hmirrors.again call hclean⟩
  rw [← universeIds_assignAll ⟨known, member⟩ calls] at hknown
  rw [hmirrors.exact call hclean hknown, decide_eq_true_eq]

namespace Sample

/-- Profiles 1 and 2 are known, and channel 10 was there at the start, in profile 1. -/
def twoKnown : Known := ⟨some [1, 2], some (Dict.ofList [(10, {1})]), {10}⟩

def twoMembers : Members := fun c p => if c = 10 then p = 1 else p ∈ twoKnown.universeIds

theorem twoKnown_runStart : RunStart twoKnown (Dict.ofList [(10, {1})]) twoMembers where
  kept := rfl
  listed := by
    intro c profileIds hget p
    have hlisted := (Dict.get?_eq_some _ _ _).mp hget
    obtain ⟨rfl, rfl⟩ : c = 10 ∧ profileIds = {1} := by
      simpa [Dict.ofList, Dict.set, setEntry] using hlisted
    simp [twoMembers]
  unlisted := by
    intro c hc hstart
    exact (hc (by rw [Finset.mem_singleton.mp hstart]; decide)).elim
  created := by
    intro c _ hstart p
    have hc : c ≠ 10 := fun h => hstart (Finset.mem_singleton.mpr h)
    simp [twoMembers, hc]

/-- A profile that is not known yet is selected for a channel created in the run and refused once. -/
def refusedOnce : List ProfileCall := [⟨11, [2, 9], (· == 9)⟩, ⟨10, [2], fun _ => false⟩]

theorem assignAll_diffOnly_refused :
    let s := assignAll ⟨twoKnown, twoMembers⟩ refusedOnce
    s.member = (assignAll ⟨twoKnown.writeAll, twoMembers⟩ refusedOnce).member ∧
      (∀ c p, p ∈ s.known.currentProfileMembership c ↔ s.member c p = true) ∧
      (∀ p ∈ [(1 : ℤ), 2, 9],
        ((applyExclusiveProfileMembership s ⟨11, [2, 9], fun _ => false⟩).member 11 p = true ↔
          p ∈ [(2 : ℤ), 9])) ∧
      (⟨11, [2, 9], fun _ => false⟩ : ProfileCall).writes
        (applyExclusiveProfileMembership s ⟨11, [2, 9], fun _ => false⟩).known = [] := by
  obtain ⟨hsame, hmirrored, hclean⟩ :=
    assignAll_diffOnly twoKnown (Dict.ofList [(10, {1})]) twoMembers twoKnown_runStart refusedOnce
  have hknown : ∀ p ∈ [(1 : ℤ), 2, 9], p ∈ twoKnown.universeIds ∨ p ∈ [(2 : ℤ), 9] := by decide
  have hretry := hclean ⟨11, [2, 9], fun _ => false⟩ (by decide +kernel)
  exact ⟨hsame, hmirrored, fun p hp => hretry.1 p (hknown p hp), hretry.2 _ rfl rfl⟩

end Sample

end ChannelManager.Profiles
