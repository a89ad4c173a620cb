import ChannelManager.Stats.RollupRuns
import Mathlib.Algebra.BigOperators.Group.List.Basic

/-!
# What the daily tables tell

The sums over the providers of a day are the sums over all its rows, also when these are long gone.
-/

namespace ChannelManager.Stats

theorem mem_pollsByKey {κ : Type} [DecidableEq κ] {key : SessionTelemetry → Option κ}
    {rows : List SessionTelemetry} {row : SessionTelemetry} {k : κ} (hrow : row ∈ rows)
    (hkey : key row = some k) : k ∈ pollsByKey key rows := by
  have hpoll : (k, row.observedAt) ∈ perPoll key rows :=
    mem_groupedBy.mpr ⟨row, hrow, by simp [hkey]⟩
  obtain ⟨group, hget⟩ := Dict.exists_get? hpoll
  exact mem_groupedBy.mpr ⟨_, (Dict.get?_eq_some _ _ _).mp hget, rfl⟩

/-- The counters of a provider's day, each with the column of the raw rows that it sums. -/
def summed : List ((ProviderDaily → ℤ) × (SessionTelemetry → ℤ)) :=
  [(ProviderDaily.bytesDeltaSum, SessionTelemetry.bytesDelta),
    (ProviderDaily.bufferEventCount, SessionTelemetry.bufferEventCount),
    (ProviderDaily.reconnectEventCount, SessionTelemetry.reconnectEventCount),
    (ProviderDaily.errorEventCount, SessionTelemetry.errorEventCount),
    (ProviderDaily.switchEventCount, SessionTelemetry.switchEventCount)]

variable {counter : (ProviderDaily → ℤ) × (SessionTelemetry → ℤ)}

theorem counter_get? (hcounter : counter ∈ summed) {rows : List SessionTelemetry}
    {k : String × String} {daily : ProviderDaily} (h : (providerDaily rows).get? k = some daily) :
    counter.1 daily = ((rows.filter fun row => providerKey row = some k).map counter.2).sum := by
  rw [providerDaily, Dict.get?_mapValues, Option.map_eq_some_iff] at h
  obtain ⟨polls, -, rfl⟩ := h
  simp only [summed, List.mem_cons, List.not_mem_nil, or_false] at hcounter
  rcases hcounter with rfl | rfl | rfl | rfl | rfl <;> rw [getD_groupedBy]

/-- No row of a day is left out of the sums of its providers, nor counted twice. -/
theorem sum_providerDaily (hcounter : counter ∈ summed) (rows : List SessionTelemetry) :
    ((providerDaily rows).items.map fun e => counter.1 e.2).sum = (rows.map counter.2).sum := by
  have hkeys : (providerDaily rows).items.map (fun e => counter.1 e.2) =
      (providerDaily rows).keys.map fun k =>
        ((rows.filter fun row => providerKey row = some k).map counter.2).sum := by
    rw [Dict.keys, List.map_map]
    apply List.map_congr_left
    intro e he
    exact counter_get? hcounter ((Dict.get?_eq_some _ _ _).mpr he)
  have hcover : ∀ row ∈ rows, ∃ k ∈ (providerDaily rows).keys, providerKey row = some k := by
    intro row hrow
    refine ⟨(providerBucket row, row.channelId), ?_, rfl⟩
    rw [← Dict.mem_def, ← Dict.isSome_get?, providerDaily, Dict.get?_mapValues, Option.isSome_map,
      Dict.isSome_get?]
    exact mem_pollsByKey hrow rfl
  have hperm := flatMap_filter_perm (providerDaily rows).nodup_keys hcover
  rw [hkeys, ← (hperm.map counter.2).sum_eq, List.map_flatMap, List.flatMap_def,
    List.sum_flatten, List.map_map]
  rfl

section Runs

variable {κ ν : Type} [DecidableEq κ]

/-- The entries of a day are those selected of it. -/
theorem HoldsDay.perm {table : Dict (κ × ℤ) ν} {day : ℤ} {selected : Dict κ ν}
    (h : HoldsDay table day selected) :
    ((table.items.filter fun e => e.1.2 = day).map fun e => (e.1.1, e.2)).Perm selected.items := by
  have htable : table.items.Nodup := .of_map _ table.nodup_keys
  have hentries : ((table.items.filter fun e => e.1.2 = day).map fun e => (e.1.1, e.2)).Nodup := by
    apply (htable.filter _).map_on
    intro e he e' he' heq
    simp only [List.mem_filter, decide_eq_true_eq] at he he'
    simp only [Prod.mk.injEq] at heq
    ext1
    · exact Prod.ext heq.1 (he.2.trans he'.2.symm)
    · exact heq.2
  apply (List.perm_ext_iff_of_nodup hentries (.of_map _ selected.nodup_keys)).mpr
  rintro ⟨k, v⟩
  rw [← Dict.get?_eq_some, ← h k, Dict.get?_eq_some]
  simp only [List.mem_map, List.mem_filter, decide_eq_true_eq, Prod.mk.injEq]
  constructor
  · rintro ⟨⟨⟨k, _⟩, v⟩, ⟨hmem, rfl⟩, rfl, rfl⟩
    exact hmem
  · exact fun hmem => ⟨_, ⟨hmem, rfl⟩, rfl, rfl⟩

/-- The totals of a day that the providers' marker has come to. -/
def History.Totals (h : History) : Prop :=
  ∀ day, h.since ≤ day → h.db.Passed .providerDaily day → ∀ counter ∈ summed,
    ((h.db.providerDaily.items.filter fun e => e.1.2 = day).map fun e => counter.1 e.2).sum =
      ((rowsOfDay day h.written).map counter.2).sum

theorem History.Faithful.totals {h : History} (hfaithful : h.Faithful) : h.Totals := by
  intro day hsince hpassed counter hcounter
  have hperm := HoldsDay.perm (hfaithful.rolled .providerDaily day hsince hpassed)
  rw [← sum_providerDaily hcounter, ← ((hperm.map fun e => counter.1 e.2).sum_eq), List.map_map]
  rfl

end Runs

end ChannelManager.Stats
