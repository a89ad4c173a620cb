import ChannelManager.Profiles.Exclusive

/-!
# The last profile

A reconcile enables before it disables, but passes over the writes that fail: a channel can lose its
last profile when the profile it was to move to refuses it.
-/

namespace ChannelManager.Profiles

namespace ProfileCall

variable {call : ProfileCall} {s : Assigning}

/-- A profile has the channel when the call is done: one that is selected has it already or takes it,
one that is not has it and does not let it go. -/
def Shelters (call : ProfileCall) (s : Assigning) (p : ℤ) : Prop :=
  if p ∈ call.selectedIds then s.member call.channelId p = true ∨ call.Lands s.known p
  else s.member call.channelId p = true ∧ ¬call.Lands s.known p

instance (call : ProfileCall) (s : Assigning) (p : ℤ) : Decidable (call.Shelters s p) :=
  inferInstanceAs (Decidable (if p ∈ call.selectedIds then _ ∨ _ else _ ∧ ¬_))

theorem member_written_iff {p : ℤ} :
    (call.written s).member call.channelId p = true ↔ call.Shelters s p := by
  rw [member_written, Shelters]
  by_cases hp : p ∈ call.selectedIds <;> by_cases hlands : call.Lands s.known p <;> simp [hp, hlands]

/-- While a call enables, the channel leaves no profile. -/
theorem member_of_prefix_enables {done : List (ℤ × Bool)} (hdone : done <+: call.enables s.known) {p : ℤ}
    (hp : s.member call.channelId p = true) :
    (done.foldl call.write (call.opening s)).member call.channelId p = true := by
  have henables : ∀ w ∈ done, w.2 = decide (w.1 ∈ call.selectedIds) := by
    intro w hw
    obtain ⟨_, hselected, hflag⟩ := mem_enables.mp (hdone.subset hw)
    rw [hflag, decide_eq_true hselected]
  rw [foldl_write_member henables]
  split_ifs with hwritten
  · obtain ⟨w, hw, rfl⟩ := List.mem_map.mp hwritten.2.1
    exact decide_eq_true (mem_enables.mp (hdone.subset hw)).2.1
  · exact hp

/-- A profile that has the channel in the end has it from the last enable on. -/
theorem Shelters.member_of_prefix {p : ℤ} (h : call.Shelters s p) {disabled : List (ℤ × Bool)}
    (hdisabled : disabled <+: call.disables s.known) :
    ((call.enables s.known ++ disabled).foldl call.write (call.opening s)).member call.channelId p =
      true := by
  have hsubset : ∀ w ∈ call.enables s.known ++ disabled, w ∈ call.writes s.known := by
    intro w hw
    exact List.mem_append.mpr ((List.mem_append.mp hw).imp_right fun hw => hdisabled.subset hw)
  rw [foldl_write_member fun w hw => flag_of_mem_writes (hsubset w hw)]
  rw [Shelters] at h
  split_ifs with hwritten
  · obtain ⟨w, hw, rfl⟩ := List.mem_map.mp hwritten.2.1
    have hlands : call.Lands s.known w.1 := ⟨(mem_writes.mp (hsubset w hw)).1, hwritten.2.2⟩
    by_contra hp
    rw [if_neg (by simpa using hp)] at h
    exact h.2 hlands
  · by_cases hp : p ∈ call.selectedIds
    · rw [if_pos hp] at h
      refine h.resolve_right fun hlands => hwritten ⟨rfl, ?_, hlands.2⟩
      have hw := mem_enables.mpr ⟨hlands.1, hp, rfl⟩
      exact List.mem_map.mpr ⟨_, List.mem_append_left _ hw, rfl⟩
    · rw [if_neg hp] at h
      exact h.1

end ProfileCall

/-- A channel that was in a profile is in one after every write if and only if some profile has it in
the end: one selected for it that has it or takes it, or another it is not taken out of. -/
theorem moments_sheltered_iff (s : Assigning) (call : ProfileCall)
    (hmember : ∃ p, s.member call.channelId p = true) :
    (∀ m ∈ (call.written s).moments, ∃ p, m call.channelId p = true) ↔ ∃ p, call.Shelters s p := by
  constructor
  · intro hmoments
    by_cases hwrites : call.writes s.known = []
    · obtain ⟨p, hp⟩ := hmember
      refine ⟨p, ProfileCall.member_written_iff.mp ?_⟩
      rw [ProfileCall.written, hwrites]
      exact hp
    · obtain ⟨p, hp⟩ := hmoments _ (ProfileCall.member_mem_moments hwrites _)
      exact ⟨p, ProfileCall.member_written_iff.mp hp⟩
  · rintro ⟨p, hp⟩ m hm
    obtain hm | ⟨done, hdone, rfl⟩ := ProfileCall.mem_foldl_write_moments _ hm
    · exact (List.not_mem_nil hm).elim
    · obtain henabling | ⟨disabled, rfl⟩ := List.prefix_or_prefix_of_prefix hdone (List.prefix_append _ _)
      · obtain ⟨q, hq⟩ := hmember
        exact ⟨q, ProfileCall.member_of_prefix_enables henabling hq⟩
      · exact ⟨p, hp.member_of_prefix ((List.prefix_append_right_inj _).mp hdone)⟩

namespace Sample

/-- Channel 10 is in profile 1 of 1 and 2. -/
def inFirst : Assigning := ⟨⟨some [1, 2], some (Dict.ofList [(10, {1})]), {10}⟩, fun c p => c == 10 && p == 1⟩

theorem moments_sheltered_calm :
    inFirst.member 10 1 = true ∧
      ∀ m ∈ ((⟨10, [2], fun _ => false⟩ : ProfileCall).written inFirst).moments, ∃ p, m 10 p = true :=
  ⟨rfl, (moments_sheltered_iff inFirst ⟨10, [2], fun _ => false⟩ ⟨1, rfl⟩).mpr ⟨2, by decide +kernel⟩⟩

/-- Profile 2 refuses the channel, which is then taken out of profile 1. -/
theorem stranded_by_refusal :
    inFirst.member 10 1 = true ∧ 2 ∈ inFirst.known.universeIds ∧
      ∃ m ∈ ((⟨10, [2], (· == 2)⟩ : ProfileCall).written inFirst).moments, ∀ p, m 10 p = false := by
  refine ⟨rfl, by decide, _, ProfileCall.member_mem_moments (by decide +kernel) _, fun p => ?_⟩
  rw [← Bool.not_eq_true]
  intro hp
  have hshelters := ProfileCall.member_written_iff.mp hp
  have hlands : (⟨10, [2], (· == 2)⟩ : ProfileCall).Lands inFirst.known 1 := by decide +kernel
  rw [ProfileCall.Shelters] at hshelters
  split_ifs at hshelters with hselected
  · obtain rfl : p = 2 := by simpa using hselected
    exact absurd hshelters (by decide +kernel)
  · obtain rfl : p = 1 := by simpa [inFirst] using hshelters.1
    exact hshelters.2 hlands

end Sample

end ChannelManager.Profiles
