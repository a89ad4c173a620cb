import ChannelManager.Lib.Dict

/-!
# Tables without repeated values

A table gives a key a value, no value, or does not have it. Its values are distinct where no two keys have
one value: that survives a value no key has, the loss of a key, and a list of assignments to some keys
whose values differ among themselves and from those of the other keys.
-/

namespace ChannelManager.Dict

variable {κ ν : Type} [DecidableEq κ]

/-- No two keys have one value. -/
def Distinct (d : Dict κ (Option ν)) : Prop :=
  ∀ k k' v, d.get? k = some (some v) → d.get? k' = some (some v) → k = k'

/-- No key has the value. -/
def Free (d : Dict κ (Option ν)) (v : ν) : Prop := ∀ k, d.get? k ≠ some (some v)

theorem Distinct.of_get? {d d' : Dict κ (Option ν)} (h : d.Distinct)
    (hsub : ∀ k v, d'.get? k = some (some v) → d.get? k = some (some v)) : d'.Distinct :=
  fun k k' v hk hk' => h k k' v (hsub k v hk) (hsub k' v hk')

theorem Distinct.erase {d : Dict κ (Option ν)} (h : d.Distinct) (k : κ) : (d.erase k).Distinct := by
  refine h.of_get? ?_
  intro k' v hget
  rw [get?_erase] at hget
  split at hget
  · cases hget
  · exact hget

/-- A table that has one more value, a free one, at one key at most. -/
theorem Distinct.of_fresh {d d' : Dict κ (Option ν)} (h : d.Distinct) {k : κ} {v : ν} (hfree : d.Free v)
    (hset : ∀ k' v', d'.get? k' = some (some v') →
      (k' = k ∧ v' = v) ∨ d.get? k' = some (some v')) : d'.Distinct := by
  intro a b w ha hb
  obtain ⟨ha, hw⟩ | ha := hset a w ha
  · obtain ⟨hb, _⟩ | hb := hset b w hb
    · rw [ha, hb]
    · exact absurd (hw ▸ hb) (hfree b)
  · obtain ⟨_, hw⟩ | hb := hset b w hb
    · exact absurd (hw ▸ ha) (hfree a)
    · exact h a b w ha hb

/-- Values given to the keys there are, one after the other. -/
def assign (d : Dict κ (Option ν)) (es : List (κ × ν)) : Dict κ (Option ν) :=
  es.foldl (fun d e => d.modify e.1 fun _ => some e.2) d

/-- A key has a value it was given, or was given none and has what it had. -/
theorem get?_assign {d : Dict κ (Option ν)} {es : List (κ × ν)} {k : κ} {o : Option ν}
    (h : (d.assign es).get? k = some o) :
    (∃ v, (k, v) ∈ es ∧ o = some v) ∨ (k ∉ es.map Prod.fst ∧ d.get? k = some o) := by
  induction es generalizing d with
  | nil => exact .inr ⟨List.not_mem_nil, h⟩
  | cons e es ih =>
    obtain ⟨v, hmem, ho⟩ | ⟨hnot, hget⟩ := ih h
    · exact .inl ⟨v, List.mem_cons_of_mem _ hmem, ho⟩
    · rw [get?_modify] at hget
      split at hget
      · rename_i hkey
        obtain ⟨_, _, ho⟩ := Option.map_eq_some_iff.mp hget
        exact .inl ⟨e.2, by simp [← hkey], ho.symm⟩
      · rename_i hkey
        refine .inr ⟨?_, hget⟩
        rw [List.map_cons, List.mem_cons, not_or]
        exact ⟨Ne.symm hkey, hnot⟩

theorem Distinct.assign {d : Dict κ (Option ν)} (h : d.Distinct) {es : List (κ × ν)}
    (hvalues : (es.map Prod.snd).Nodup)
    (hothers : ∀ k v, d.get? k = some (some v) → k ∉ es.map Prod.fst → v ∉ es.map Prod.snd) :
    (d.assign es).Distinct := by
  intro a b v ha hb
  obtain ⟨va, hva, hv⟩ | ⟨hanot, ha⟩ := get?_assign ha
  · cases hv
    obtain ⟨vb, hvb, hv⟩ | ⟨hbnot, hb⟩ := get?_assign hb
    · cases hv
      exact congrArg Prod.fst (List.inj_on_of_nodup_map hvalues hva hvb rfl)
    · exact absurd (List.mem_map.mpr ⟨_, hva, rfl⟩) (hothers b _ hb hbnot)
  · obtain ⟨vb, hvb, hv⟩ | ⟨_, hb⟩ := get?_assign hb
    · cases hv
      exact absurd (List.mem_map.mpr ⟨_, hvb, rfl⟩) (hothers a _ ha hanot)
    · exact h a b v ha hb

end ChannelManager.Dict
