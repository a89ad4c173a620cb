import ChannelManager.Numbering.Plan

/-!
# When a proposed numbering is accepted

`evaluate_final_numbering` walks the arrivals on each slot. Here its verdict is put as a condition
on pairs of channels: whoever arrives on a slot has named everyone standing there.
-/

namespace ChannelManager

/-- The part of a placement the verdict depends on: names and superseded operations are gone. -/
structure Outcome where
  channelId : ℤ
  baseNumber : Option ℚ
  isNew : Bool
  number : Option ℚ
  arrival : Option ℕ
  acknowledgement : Option Acknowledgement
deriving DecidableEq

def Placement.outcome (p : Placement) : Outcome where
  channelId := p.channelId
  baseNumber := p.baseNumber
  isNew := p.isNew
  number := p.number
  arrival := p.touchedBy.getLast?
  acknowledgement := p.acknowledgement

namespace Outcome

def placed (o : Outcome) : Bool := (o.isNew || numberMoves o.baseNumber o.number) && o.arrival.isSome

def slot? (o : Outcome) : Option SlotKey := o.number.map slotKey

/-- The consent `o` carries covers channel `c` on `slot`. -/
def Names (slot : SlotKey) (o : Outcome) (c : ℤ) : Prop :=
  ∃ a, o.acknowledgement = some a ∧ a.slot = slot ∧ c ∈ a.occupantIds

/-- `q` was on its number before the request put `p` on its own. -/
def StandsBefore (q p : Outcome) : Prop := q.placed → q.arrival.getD 0 < p.arrival.getD 0

/-- `p` and `q` are not put on one slot by the same operation. -/
def Untied (p q : Outcome) : Prop :=
  p.placed → q.placed → ∀ slot, p.slot? = some slot → q.slot? = some slot → p.arrival ≠ q.arrival

theorem isSome_arrival {o : Outcome} (h : o.placed) : o.arrival.isSome := by
  simp only [placed, Bool.and_eq_true] at h
  exact h.2

end Outcome

/-- Every number the request puts a channel on is in contract, and every channel it puts on a
slot carries consent naming whoever stood there. -/
structure Acceptable (outcomes : List Outcome) : Prop where
  valid : ∀ o ∈ outcomes, o.placed → ∀ n, o.number = some n → isValidChannelNumber n
  consent : ∀ p ∈ outcomes, ∀ q ∈ outcomes, p ≠ q → p.placed → q.StandsBefore p →
    ∀ slot, p.slot? = some slot → q.slot? = some slot → p.Names slot q.channelId

section Verdict

variable (slot : SlotKey)

@[simp] theorem placed_outcome (p : Placement) : p.outcome.placed = p.placed := by
  cases h : p.touchedBy <;> simp [Outcome.placed, Placement.outcome, Placement.placed, Placement.moved, h]

theorem arrival_outcome (p : Placement) : p.outcome.arrival.getD 0 = p.arrival := by
  simp [Placement.outcome, Placement.arrival, List.getLastD_eq_getLast?]

theorem consented_iff (standing : List ℤ) (p : Placement) :
    consented slot standing p ↔ ∀ c ∈ standing, p.outcome.Names slot c := by
  cases standing with
  | nil => simp [consented]
  | cons c cs =>
    cases h : p.acknowledgement with
    | none =>
      simp only [consented, h, Outcome.Names, Placement.outcome]
      simpa using ⟨c, fun hne => absurd rfl hne⟩
    | some a =>
      simp only [consented, h, Outcome.Names, Placement.outcome, Option.some.injEq]
      simp
      grind

theorem accidentalArrivals_eq_nil (standing : List ℤ) (ps : List Placement) :
    accidentalArrivals slot standing ps = [] ↔
      (∀ p ∈ ps, ∀ c ∈ standing, p.outcome.Names slot c) ∧
        ps.Pairwise fun q p => p.outcome.Names slot q.channelId := by
  induction ps generalizing standing with
  | nil => simp [accidentalArrivals]
  | cons p ps ih =>
    have hstep : accidentalArrivals slot standing (p :: ps) = [] ↔
        consented slot standing p ∧ accidentalArrivals slot (p.channelId :: standing) ps = [] := by
      simp only [accidentalArrivals]
      split <;> simp_all
    rw [hstep, consented_iff, ih]
    simp only [List.mem_cons, List.pairwise_cons]
    constructor
    · rintro ⟨hp, hps, hpw⟩
      refine ⟨?_, fun q hq => hps q hq _ (.inl rfl), hpw⟩
      rintro q (rfl | hq) c hc
      · exact hp c hc
      · exact hps q hq c (.inr hc)
    · rintro ⟨hstand, hfirst, hpw⟩
      refine ⟨hstand p (.inl rfl), ?_, hpw⟩
      rintro q hq c (rfl | hc)
      · exact hfirst q hq
      · exact hstand q (.inr hq) c hc

/-- On a strictly increasing list, "earlier in the list" is "smaller". -/
private theorem pairwise_iff_of_increasing {α : Type} (f : α → ℕ) (R : α → α → Prop) (l : List α)
    (h : l.Pairwise fun a b => f a < f b) :
    l.Pairwise R ↔ ∀ a ∈ l, ∀ b ∈ l, f a < f b → R a b := by
  induction l with
  | nil => simp
  | cons x l ih =>
    obtain ⟨hx, hl⟩ := List.pairwise_cons.mp h
    rw [List.pairwise_cons, ih hl]
    constructor
    · rintro ⟨hxR, hlR⟩ a ha b hb hab
      rcases List.mem_cons.mp ha with ha | ha <;> rcases List.mem_cons.mp hb with hb | hb
      · subst ha hb
        omega
      · exact ha ▸ hxR b hb
      · have := hx a ha
        subst hb
        omega
      · exact hlR a ha b hb hab
    · intro hR
      exact ⟨fun b hb => hR x (by simp) b (by simp [hb]) (hx b hb),
        fun a ha b hb => hR a (by simp [ha]) b (by simp [hb])⟩

theorem sortedArrivals_increasing (ps : List Placement)
    (hties : ps.Pairwise fun p q => p.arrival ≠ q.arrival) :
    (sortedArrivals ps).Pairwise fun p q => p.arrival < q.arrival := by
  have hperm : (sortedArrivals ps).Perm ps := List.perm_insertionSort _ ps
  have hsorted : (sortedArrivals ps).Pairwise fun p q => p.arrival ≤ q.arrival :=
    List.pairwise_insertionSort _ ps
  have hne := (hperm.pairwise_iff fun h => h.symm).mpr hties
  exact (hsorted.and hne).imp fun h => lt_of_le_of_ne h.1 h.2

/-- The walk over the arrivals of one slot, as a condition on pairs of its occupants. -/
theorem duplicateNumberIssue_eq_none (occupants : List Placement)
    (hties : occupants.Pairwise fun p q => p.placed → q.placed → p.arrival ≠ q.arrival) :
    duplicateNumberIssue slot occupants = none ↔
      ∀ p ∈ occupants, ∀ q ∈ occupants, p.placed → (q.placed → q.arrival < p.arrival) →
        p.outcome.Names slot q.channelId := by
  set contributors := occupants.filter (·.placed) with hcontributors
  set standing := (occupants.filter fun p => !p.placed).map (·.channelId) with hstanding
  have hmem : ∀ p, p ∈ sortedArrivals contributors ↔ p ∈ occupants ∧ p.placed := by
    intro p
    have hperm : (sortedArrivals contributors).Perm contributors := List.perm_insertionSort _ _
    rw [hperm.mem_iff, hcontributors, List.mem_filter]
  have hinc : (sortedArrivals contributors).Pairwise fun p q => p.arrival < q.arrival := by
    apply sortedArrivals_increasing
    rw [hcontributors, List.pairwise_filter]
    exact hties
  have hpairs : accidentalArrivals slot standing (sortedArrivals contributors) = [] ↔
      ∀ p ∈ occupants, ∀ q ∈ occupants, p.placed → (q.placed → q.arrival < p.arrival) →
        p.outcome.Names slot q.channelId := by
    rw [accidentalArrivals_eq_nil, pairwise_iff_of_increasing _ _ _ hinc]
    simp only [hmem]
    constructor
    · rintro ⟨hstand, harr⟩ p hp q hq hpl hbefore
      by_cases hql : q.placed
      · exact harr q ⟨hq, hql⟩ p ⟨hp, hpl⟩ (hbefore hql)
      · apply hstand p ⟨hp, hpl⟩
        rw [hstanding]
        exact List.mem_map.mpr ⟨q, by simp [hq, hql], rfl⟩
    · intro h
      refine ⟨?_, fun q hq p hp hlt => h p hp.1 q hq.1 hp.2 fun _ => hlt⟩
      rintro p ⟨hp, hpl⟩ c hc
      rw [hstanding] at hc
      obtain ⟨q, hq, rfl⟩ := List.mem_map.mp hc
      obtain ⟨hq, hql⟩ := List.mem_filter.mp hq
      exact h p hp q hq hpl fun h' => by simp [h'] at hql
  rw [← hpairs]
  unfold duplicateNumberIssue
  split
  next hlen =>
    refine ⟨fun _ => hpairs.mpr ?_, fun _ => rfl⟩
    -- one occupant alone never stands before itself
    intro p hp q hq hpl hbefore
    obtain ⟨x, rfl⟩ : ∃ x, occupants = [x] := by
      rw [← List.length_eq_one_iff]
      have := List.length_pos_of_mem hp
      omega
    rw [List.mem_singleton] at hp hq
    subst hp hq
    exact absurd (hbefore hpl) (lt_irrefl _)
  next =>
    cases hacc : accidentalArrivals slot standing (sortedArrivals contributors) with
    | nil => simp [← hstanding, ← hcontributors, hacc]
    | cons p ps => simp [← hstanding, ← hcontributors, hacc]

end Verdict

theorem invalidNumberIssue_eq_none (p : Placement) :
    invalidNumberIssue p = none ↔ (p.placed → ∀ n, p.number = some n → isValidChannelNumber n) := by
  unfold invalidNumberIssue
  cases p.number <;> simp

/-- The occupants of one slot, in placement order. -/
def occupantsOf (slot : SlotKey) (ps : List Placement) : List Placement :=
  ps.filter fun p => p.outcome.slot? = some slot

theorem get?_foldl_addToSlot (slot : SlotKey) (ps : List Placement)
    (bySlot : Dict SlotKey (List Placement)) :
    (ps.foldl addToSlot bySlot).get? slot =
      if occupantsOf slot ps = [] then bySlot.get? slot
      else some ((bySlot.get? slot).getD [] ++ occupantsOf slot ps) := by
  induction ps generalizing bySlot with
  | nil => simp [occupantsOf]
  | cons p ps ih =>
    rw [List.foldl_cons, ih]
    cases hn : p.number with
    | none => simp [addToSlot, occupantsOf, Outcome.slot?, Placement.outcome, hn]
    | some n =>
      by_cases hs : slotKey n = slot
      · subst hs
        have hcons : occupantsOf (slotKey n) (p :: ps) = p :: occupantsOf (slotKey n) ps := by
          simp [occupantsOf, Outcome.slot?, Placement.outcome, hn]
        rw [hcons]
        by_cases hnil : occupantsOf (slotKey n) ps = []
        · simp [addToSlot, hn, hnil]
        · simp [addToSlot, hn, hnil]
      · simp [addToSlot, hn, occupantsOf, Outcome.slot?, Placement.outcome, hs, Dict.get?_set_ne]

/-- No slot holds a collision that somebody on it did not consent to. -/
theorem duplicates_eq_nil (ps : List Placement) :
    ((ps.foldl addToSlot ∅).items.filterMap fun e => duplicateNumberIssue e.1 e.2) = [] ↔
      ∀ slot, duplicateNumberIssue slot (occupantsOf slot ps) = none := by
  simp only [List.filterMap_eq_nil_iff, Prod.forall]
  constructor
  · intro h slot
    by_cases hnil : occupantsOf slot ps = []
    · simp [hnil, duplicateNumberIssue]
    · apply h
      rw [← Dict.get?_eq_some, get?_foldl_addToSlot, if_neg hnil]
      simp
  · intro h slot occupants hmem
    rw [← Dict.get?_eq_some, get?_foldl_addToSlot] at hmem
    split at hmem
    · simp at hmem
    · rw [← Option.some.inj hmem]
      simpa using h slot

theorem mem_occupantsOf {slot : SlotKey} {ps : List Placement} {p : Placement} :
    p ∈ occupantsOf slot ps ↔ p ∈ ps ∧ p.outcome.slot? = some slot := by
  simp [occupantsOf]

/-- The walk over one slot of a list of placements no two of which are tied. -/
theorem occupantsOf_consented (slot : SlotKey) (ps : List Placement)
    (hties : (ps.map Placement.outcome).Pairwise Outcome.Untied) :
    duplicateNumberIssue slot (occupantsOf slot ps) = none ↔
      ∀ p ∈ occupantsOf slot ps, ∀ q ∈ occupantsOf slot ps, p.placed →
        (q.placed → q.arrival < p.arrival) → p.outcome.Names slot q.channelId := by
  apply duplicateNumberIssue_eq_none
  refine (List.pairwise_filter.mpr ((List.pairwise_map.mp hties).imp ?_) :
    (List.filter _ ps).Pairwise _)
  intro p q hpq hp hq hpl hql
  rw [← placed_outcome] at hpl hql
  have hne := hpq hpl hql slot (of_decide_eq_true hp) (of_decide_eq_true hq)
  obtain ⟨i, hi⟩ := Option.isSome_iff_exists.mp (Outcome.isSome_arrival hpl)
  obtain ⟨j, hj⟩ := Option.isSome_iff_exists.mp (Outcome.isSome_arrival hql)
  rw [← arrival_outcome, ← arrival_outcome, hi, hj]
  rw [hi, hj] at hne
  exact fun h => hne (congrArg some h)

/-- `evaluate_final_numbering` finds nothing exactly when the placements are acceptable. -/
theorem issuesOfPlacements_eq_nil (ps : List Placement)
    (hties : (ps.map Placement.outcome).Pairwise Outcome.Untied) :
    issuesOfPlacements ps = [] ↔ Acceptable (ps.map Placement.outcome) := by
  by_cases hall : ∀ p ∈ ps, invalidNumberIssue p = none
  · have hslotted : (ps.filter fun p => (invalidNumberIssue p).isNone) = ps :=
      List.filter_eq_self.mpr fun p hp => by simp [hall p hp]
    have hslots : issuesOfPlacements ps = [] ↔
        ∀ slot, duplicateNumberIssue slot (occupantsOf slot ps) = none := by
      rw [← duplicates_eq_nil, issuesOfPlacements, hslotted, List.append_eq_nil_iff,
        List.filterMap_eq_nil_iff.mpr hall]
      simp
    rw [hslots]
    simp only [fun slot => occupantsOf_consented slot ps hties, mem_occupantsOf]
    constructor
    · intro h
      refine ⟨?_, ?_⟩
      · intro o ho hpl
        obtain ⟨p, hp, rfl⟩ := List.mem_map.mp ho
        exact (invalidNumberIssue_eq_none p).mp (hall p hp) (by simpa using hpl)
      · intro o ho o' ho' _ hpl hstands slot hs hs'
        obtain ⟨p, hp, rfl⟩ := List.mem_map.mp ho
        obtain ⟨q, hq, rfl⟩ := List.mem_map.mp ho'
        apply h slot p ⟨hp, hs⟩ q ⟨hq, hs'⟩ (by simpa using hpl)
        intro hql
        simpa only [arrival_outcome] using hstands (by simpa using hql)
    · rintro ⟨_, hconsent⟩ slot p ⟨hp, hs⟩ q ⟨hq, hs'⟩ hpl hbefore
      have hne : p.outcome ≠ q.outcome := by
        intro heq
        have hql : q.placed := by rw [← placed_outcome, ← heq, placed_outcome, hpl]
        have hlt := hbefore hql
        rw [← arrival_outcome, ← arrival_outcome, heq] at hlt
        exact lt_irrefl _ hlt
      apply hconsent p.outcome (List.mem_map_of_mem hp) q.outcome (List.mem_map_of_mem hq) hne
        (by simpa using hpl) _ slot hs hs'
      intro hql
      simpa only [arrival_outcome] using hbefore (by simpa using hql)
  · have hnot : issuesOfPlacements ps ≠ [] := by
      intro h
      exact hall (List.filterMap_eq_nil_iff.mp (List.append_eq_nil_iff.mp h).1)
    refine ⟨fun h => absurd h hnot, fun h => absurd ?_ hall⟩
    intro p hp
    rw [invalidNumberIssue_eq_none]
    intro hpl n hn
    exact h.valid p.outcome (List.mem_map_of_mem hp) (by simpa using hpl) n hn

end ChannelManager
