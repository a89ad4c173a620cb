import ChannelManager.Lib.Precedence
import ChannelManager.Numbering.Apply

/-!
# How early a numbering write goes out

The order `order_numbering_writes` chooses, against the waits-for relation of the plan: a write waits
for the ones that still have to leave the number it goes to. The writes that go out too early are the
breaks of the reported cycles, one for each, and a plan without a cycle has none.
-/

namespace ChannelManager

/-- The write at `p` goes to a number the one at `q` has to leave. -/
def WaitsFor (writes : List NumberingWrite) (p q : ℕ) : Prop :=
  q ≠ p ∧ ∃ write holder, writes[p]? = some write ∧ writes[q]? = some holder ∧
    blocksWrite holder write = true

/-- The positions of the plan in the order they go out, and the cycles of positions broken. -/
def positionOrder (writes : List NumberingWrite) : List ℕ × List (List ℕ) :=
  orderLoop writes writes.length (List.range writes.length)

/-- How a cycle is reported. -/
def reportedCycle (writes : List NumberingWrite) (cycle : List ℕ) : List ℤ :=
  (cycle.filterMap fun p => writes[p]?.map (·.channelId)).insertionSort (· ≤ ·)

theorem mem_blockersOf {pending : List NumberingWrite} {remaining : List ℕ} {p q : ℕ} :
    q ∈ blockersOf pending remaining p ↔ q ∈ remaining ∧ WaitsFor pending p q := by
  rw [blockersOf, List.mem_filter, WaitsFor]
  cases pending[p]? <;> cases pending[q]? <;> simp

instance (writes : List NumberingWrite) : DecidableRel (WaitsFor writes) := fun p q =>
  decidable_of_iff (q ∈ blockersOf writes [q] p) (by simp [mem_blockersOf])

theorem WaitsFor.irrefl (writes : List NumberingWrite) (p : ℕ) : ¬WaitsFor writes p p :=
  fun h => h.1 rfl

/-- Only positions of the plan wait and are waited for. -/
theorem WaitsFor.mem_range {writes : List NumberingWrite} {p q : ℕ} (h : WaitsFor writes p q) :
    p ∈ List.range writes.length ∧ q ∈ List.range writes.length := by
  obtain ⟨_, write, holder, hp, hq, _⟩ := h
  rw [List.mem_range, List.mem_range]
  exact ⟨(List.getElem?_eq_some_iff.mp hp).1, (List.getElem?_eq_some_iff.mp hq).1⟩

section Walk

variable {blockers : ℕ → List ℕ} {remaining : List ℕ} {waits : ℕ → ℕ → Prop}

/-- The walk goes along the relation, so what it comes back to closes a cycle. -/
theorem walkCycle_isCycle (hb : ∀ p, blockers p ⊆ remaining)
    (hnext : ∀ p ∈ remaining, waits p ((blockers p).min?.getD p)) {fuel : ℕ} {seen : List ℕ}
    {cursor : ℕ} (hn : seen.Nodup) (hs : seen ⊆ remaining) (hc : cursor ∈ remaining)
    (hchain : (seen ++ [cursor]).IsChain waits) {cycle : List ℕ}
    (h : walkCycle blockers fuel seen cursor = some cycle) : IsCycle waits cycle := by
  induction fuel generalizing seen cursor with
  | zero => cases h
  | succ fuel ih =>
    rw [walkCycle] at h
    by_cases hmem : cursor ∈ seen
    · rw [if_pos hmem, Option.some.injEq] at h
      subst h
      have hlt := List.idxOf_lt_length_iff.mpr hmem
      have hdrop : seen.drop (seen.idxOf cursor) =
          cursor :: seen.drop (seen.idxOf cursor + 1) := by
        rw [List.drop_eq_getElem_cons hlt, List.getElem_idxOf]
      have hsub := hchain.drop (seen.idxOf cursor)
      rw [List.drop_append_of_le_length hlt.le] at hsub
      have hne : seen.drop (seen.idxOf cursor) ≠ [] := by simp [hdrop]
      have hhead : (seen.drop (seen.idxOf cursor)).head hne = cursor := by simp [hdrop]
      refine ⟨hne, hn.sublist (List.drop_sublist _ _), (List.isChain_append.mp hsub).1, ?_⟩
      rw [hhead]
      exact (List.isChain_append.mp hsub).2.2 _ (List.getLast_mem_getLast? hne) cursor rfl
    · rw [if_neg hmem] at h
      apply ih _ _ (next_mem hb hc) _ h
      · rw [List.nodup_append_comm]
        exact List.nodup_cons.mpr ⟨hmem, hn⟩
      · intro p hp
        cases List.mem_append.mp hp with
        | inl hp => exact hs hp
        | inr hp => rwa [List.mem_singleton.mp hp]
      · rw [List.isChain_append]
        refine ⟨hchain, List.isChain_singleton _, ?_⟩
        intro a ha b hb
        rw [List.getLast?_concat] at ha
        cases ha
        cases hb
        exact hnext cursor hc

end Walk

/-- What one pass puts out: writes that wait for nothing, or the first member of a cycle where every
write waits. -/
theorem releasedNow_cases (pending : List NumberingWrite) {remaining : List ℕ}
    (hne : remaining ≠ []) :
    (∃ ready, releasedNow pending remaining = (ready, []) ∧
      ∀ p ∈ ready, ∀ q ∈ remaining, ¬WaitsFor pending p q) ∨
    ∃ cycle m, releasedNow pending remaining = ([m], [cycle]) ∧ cycle ⊆ remaining ∧
      cycle.min? = some m ∧ IsCycle (WaitsFor pending) cycle := by
  unfold releasedNow
  by_cases hready : remaining.filter (fun p => blockersOf pending remaining p = []) = []
  · right
    cases remaining with
    | nil => exact absurd rfl hne
    | cons start rest =>
      have hb := blockersOf_subset pending (start :: rest)
      have hstart : start ∈ start :: rest := List.mem_cons_self
      have hfuel : (start :: rest).length < (start :: rest).length + 1 + ([] : List ℕ).length :=
        Nat.lt_succ_self _
      have hsome := walkCycle_isSome hb List.nodup_nil (List.nil_subset _) hstart hfuel
      obtain ⟨cycle, hcycle⟩ := Option.isSome_iff_exists.mp hsome
      have hsub := walkCycle_subset hb (List.nil_subset _) hstart hcycle
      obtain ⟨m, hm⟩ := Option.isSome_iff_exists.mp (List.isSome_min?_of_ne_nil hsub.2)
      refine ⟨cycle, m, ?_, hsub.1, hm, ?_⟩
      · simp only [hready, ne_eq, not_true_eq_false, if_false, hcycle, hm, Option.toList_some]
      · apply walkCycle_isCycle hb _ List.nodup_nil (List.nil_subset _) hstart
          (List.isChain_singleton _) hcycle
        intro p hp
        have hblocked : blockersOf pending (start :: rest) p ≠ [] := by
          simpa using List.filter_eq_nil_iff.mp hready p hp
        obtain ⟨q, hq⟩ := Option.isSome_iff_exists.mp (List.isSome_min?_of_ne_nil hblocked)
        rw [hq]
        exact (mem_blockersOf.mp (List.min?_mem hq)).2
  · left
    refine ⟨_, by simp only [ne_eq, hready, not_false_eq_true, if_true]; rfl, ?_⟩
    intro p hp q hq hwaits
    have hnil : blockersOf pending remaining p = [] := by simpa using (List.mem_filter.mp hp).2
    have hmem := mem_blockersOf.mpr ⟨hq, hwaits⟩
    rw [hnil] at hmem
    cases hmem

/-- A pass leaves fewer writes than it found. -/
theorem length_kept_le (pending : List NumberingWrite) {remaining : List ℕ} {fuel : ℕ}
    (hn : remaining.Nodup) (hfuel : remaining.length ≤ fuel + 1) :
    (remaining.filter (· ∉ (releasedNow pending remaining).1)).length ≤ fuel := by
  by_cases hnil : remaining = []
  · simp [hnil]
  · have hspec := releasedNow_spec pending hn hnil
    obtain ⟨p, hp⟩ := List.exists_mem_of_ne_nil _ hspec.2.2
    have hlt : (remaining.filter (· ∉ (releasedNow pending remaining).1)).length <
        remaining.length :=
      List.length_filter_lt_length_iff_exists.mpr ⟨p, hspec.1 hp, by simpa using hp⟩
    exact Nat.le_of_lt_succ (hlt.trans_le hfuel)

/-- The early writes of what is put out are the breaks, and the cycles are cycles. -/
theorem orderLoop_early (pending : List NumberingWrite) {fuel : ℕ} {remaining : List ℕ}
    (hn : remaining.Nodup) (hfuel : remaining.length ≤ fuel) :
    (early (WaitsFor pending) (orderLoop pending fuel remaining).1).map some =
        (orderLoop pending fuel remaining).2.map List.min? ∧
      ∀ cycle ∈ (orderLoop pending fuel remaining).2, IsCycle (WaitsFor pending) cycle := by
  induction fuel generalizing remaining with
  | zero => simp [orderLoop, early]
  | succ fuel ih =>
    by_cases hnil : remaining = []
    · subst hnil
      have hrest := ih List.nodup_nil (Nat.zero_le _)
      simpa [orderLoop, releasedNow] using hrest
    · have hlen := length_kept_le pending hn hfuel
      have hn' := hn.filter fun p => decide (p ∉ (releasedNow pending remaining).1)
      have hperm := orderLoop_perm pending hn' hlen
      obtain ⟨hearly, hcycles⟩ := ih hn' hlen
      have hrest : ∀ q, q ∈ (orderLoop pending fuel
          (remaining.filter (· ∉ (releasedNow pending remaining).1))).1 ↔
          q ∈ remaining ∧ q ∉ (releasedNow pending remaining).1 := by
        intro q
        rw [hperm.mem_iff, List.mem_filter, decide_eq_true_eq]
      rw [orderLoop]
      dsimp only
      rcases releasedNow_cases pending hnil with ⟨ready, heq, hfree⟩ | ⟨cycle, m, heq, hsub, hm, hc⟩
      · rw [heq] at hrest hearly hcycles ⊢
        have hsub : ready ⊆ remaining := by simpa [heq] using (releasedNow_spec pending hn hnil).1
        have hnone : ∀ p ∈ ready, ∀ q ∈ ready ++ (orderLoop pending fuel
            (remaining.filter (· ∉ ready))).1, ¬WaitsFor pending p q := by
          intro p hp q hq
          apply hfree p hp q
          cases List.mem_append.mp hq with
          | inl hq => exact hsub hq
          | inr hq => exact ((hrest q).mp hq).1
        rw [early_append hnone]
        exact ⟨hearly, hcycles⟩
      · rw [heq] at hrest hearly hcycles ⊢
        obtain ⟨q, hq, hwaits⟩ := hc.exists_waits (List.min?_mem hm)
        have hlater : ∃ q ∈ (orderLoop pending fuel (remaining.filter (· ∉ [m]))).1,
            WaitsFor pending m q :=
          ⟨q, (hrest q).mpr ⟨hsub hq, by simpa using hwaits.1⟩, hwaits⟩
        rw [List.singleton_append, List.singleton_append, early, if_pos hlater, List.map_cons,
          List.map_cons, hm, hearly]
        exact ⟨rfl, List.forall_mem_cons.mpr ⟨hc, hcycles⟩⟩

/-- With a pass for every write, further passes find nothing left. -/
theorem orderLoop_add (pending : List NumberingWrite) {fuel : ℕ} {remaining : List ℕ}
    (hn : remaining.Nodup) (hfuel : remaining.length ≤ fuel) (extra : ℕ) :
    orderLoop pending (fuel + extra) remaining = orderLoop pending fuel remaining := by
  induction fuel generalizing remaining with
  | zero =>
    rw [List.length_eq_zero_iff.mp (Nat.le_zero.mp hfuel)]
    induction extra with
    | zero => rfl
    | succ extra ih =>
      rw [← Nat.add_assoc, orderLoop]
      simpa [releasedNow, orderLoop] using ih
  | succ fuel ih =>
    have hrest := ih (hn.filter fun p => decide (p ∉ (releasedNow pending remaining).1))
      (length_kept_le pending hn hfuel)
    rw [Nat.succ_add, orderLoop, orderLoop, hrest]

theorem positionOrder_perm (writes : List NumberingWrite) :
    (positionOrder writes).1.Perm (List.range writes.length) :=
  orderLoop_perm writes List.nodup_range (by simp)

/-- A plan is acyclic exactly when nothing in its order is early. -/
theorem acyclic_iff_early_eq_nil (writes : List NumberingWrite) :
    (∀ p, ¬Relation.TransGen (WaitsFor writes) p p) ↔
      early (WaitsFor writes) (positionOrder writes).1 = [] := by
  obtain ⟨hearly, hcycles⟩ := orderLoop_early writes List.nodup_range
    (show (List.range writes.length).length ≤ writes.length by simp)
  constructor
  · intro hacyclic
    cases hc : (positionOrder writes).2 with
    | nil =>
      rw [positionOrder] at hc
      rw [hc] at hearly
      exact List.map_eq_nil_iff.mp hearly
    | cons cycle cycles =>
      have hcycle := hcycles cycle (by rw [← positionOrder, hc]; exact List.mem_cons_self)
      exact absurd hcycle.transGen (hacyclic _)
  · intro hnil
    apply acyclic_of_schedule (early_eq_nil_iff.mp hnil) _ (WaitsFor.irrefl writes)
    intro p q hwaits
    rw [(positionOrder_perm writes).mem_iff, (positionOrder_perm writes).mem_iff]
    exact hwaits.mem_range

/-- The loop ends with every write out once; the writes that land on a number another one still has
to leave are the breaks of the cycles, one for each; the reported cycles are the ones broken, and
there are none exactly when the plan is acyclic. -/
theorem orderNumberingWrites_correct (writes : List NumberingWrite) :
    (∀ extra, orderLoop writes (writes.length + extra) (List.range writes.length) =
        positionOrder writes) ∧
      (positionOrder writes).1.Perm (List.range writes.length) ∧
      (orderNumberingWrites writes).writes = (positionOrder writes).1.filterMap (writes[·]?) ∧
      (orderNumberingWrites writes).writes.Perm writes ∧
      (orderNumberingWrites writes).cycles.Perm
        ((positionOrder writes).2.map (reportedCycle writes)) ∧
      (early (WaitsFor writes) (positionOrder writes).1).map some =
        (positionOrder writes).2.map List.min? ∧
      (∀ cycle ∈ (positionOrder writes).2, IsCycle (WaitsFor writes) cycle) ∧
      ((orderNumberingWrites writes).cycles = [] ↔
        ∀ p, ¬Relation.TransGen (WaitsFor writes) p p) := by
  have hlen : (List.range writes.length).length ≤ writes.length := by simp
  obtain ⟨hearly, hcycles⟩ := orderLoop_early writes List.nodup_range hlen
  have hreported : (orderNumberingWrites writes).cycles.Perm
      ((positionOrder writes).2.map (reportedCycle writes)) := List.perm_insertionSort _ _
  refine ⟨orderLoop_add writes List.nodup_range hlen, positionOrder_perm writes, rfl,
    orderNumberingWrites_perm writes, hreported, hearly, hcycles, ?_⟩
  rw [acyclic_iff_early_eq_nil, ← List.length_eq_zero_iff, ← List.length_eq_zero_iff,
    hreported.length_eq, List.length_map]
  have hcount := congrArg List.length hearly
  rw [List.length_map, List.length_map] at hcount
  rw [positionOrder, hcount]

end ChannelManager
