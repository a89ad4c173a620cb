import ChannelManager.Numbering.Plan
import Mathlib.Data.Finset.Image

/-!
# The preflight both halves implement

The check of a proposed numbering, over any type of placements: a reader says what the check looks
at, and an issue is what it concludes. The server's and the browser's checks are two instances.
-/

namespace ChannelManager

variable {α β : Type}

/-- What the preflight reads off a placement. -/
structure PlacementReader (α : Type) where
  channelId : α → ℤ
  number : α → Option ℚ
  slot : α → Option SlotKey
  placed : α → Bool
  arrival : α → ℤ
  consents : SlotKey → α → ℤ → Bool
  valid : α → Bool
  operations : α → List String

/-- What an issue says: its kind, its slot, who sits there and which operations are responsible. -/
structure IssueView where
  type : NumberingIssueType
  slot : Option SlotKey
  channelIds : Finset ℤ
  operations : Finset String
deriving DecidableEq

/-- Group by slot, in order of first occurrence. -/
def bucketOf (slot? : α → Option SlotKey) (bySlot : Dict SlotKey (List α)) (a : α) :
    Dict SlotKey (List α) :=
  match slot? a with
  | none => bySlot
  | some s => bySlot.set s ((bySlot.get? s).getD [] ++ [a])

namespace PlacementReader

/-- Read a placement through a translation of it. -/
def comap (r : PlacementReader β) (h : α → β) : PlacementReader α where
  channelId a := r.channelId (h a)
  number a := r.number (h a)
  slot a := r.slot (h a)
  placed a := r.placed (h a)
  arrival a := r.arrival (h a)
  consents s a c := r.consents s (h a) c
  valid a := r.valid (h a)
  operations a := r.operations (h a)

variable (r : PlacementReader α)

def refused (a : α) : Bool := (r.number a).isSome && r.placed a && !r.valid a

def invalidView (a : α) : Option IssueView :=
  if r.refused a then
    some ⟨.invalidChannelNumber, r.slot a, {r.channelId a}, (r.operations a).toFinset⟩
  else none

/-- The arrivals that did not consent to everyone standing on the slot. -/
def accidental (slot : SlotKey) : List ℤ → List α → List α
  | _, [] => []
  | standing, a :: as =>
    let rest := accidental slot (r.channelId a :: standing) as
    if standing.all (r.consents slot a) then rest else a :: rest

def arrivals (as : List α) : List α := as.insertionSort fun a b => r.arrival a ≤ r.arrival b

/-- The walk over one slot: those the request did not place stand there from the start. -/
def accidentalOn (slot : SlotKey) (occupants : List α) : List α :=
  r.accidental slot ((occupants.filter fun a => !r.placed a).map r.channelId)
    (r.arrivals (occupants.filter r.placed))

def duplicateView (slot : SlotKey) (occupants : List α) : Option IssueView :=
  if occupants.length < 2 then none
  else
    match r.accidentalOn slot occupants with
    | [] => none
    | first :: rest =>
      some ⟨.duplicateChannelNumber, slot, (occupants.map r.channelId).toFinset,
        ((first :: rest).flatMap r.operations).toFinset⟩

/-- The verdict on a list of placements: the invalid numbers, then the slots shared by accident. -/
def verdict (as : List α) : List IssueView :=
  as.filterMap r.invalidView ++
    ((as.filter fun a => !r.refused a).foldl (bucketOf r.slot) ∅).items.filterMap
      fun e => r.duplicateView e.1 e.2

end PlacementReader

theorem slot_of_mem_bucketOf (slot? : α → Option SlotKey) (as : List α) {s : SlotKey}
    {occupants : List α} (h : (s, occupants) ∈ (as.foldl (bucketOf slot?) ∅).items) {a : α}
    (ha : a ∈ occupants) : slot? a = some s := by
  have hinv : ∀ (as : List α) (d : Dict SlotKey (List α)),
      (∀ s l, d.get? s = some l → ∀ a ∈ l, slot? a = some s) →
      ∀ s l, (as.foldl (bucketOf slot?) d).get? s = some l → ∀ a ∈ l, slot? a = some s := by
    intro as
    induction as with
    | nil => exact fun d hd => hd
    | cons x as ih =>
      intro d hd
      apply ih
      intro s l hl a ha
      unfold bucketOf at hl
      split at hl
      next => exact hd s l hl a ha
      next s' hs' =>
        rw [Dict.get?_set] at hl
        split at hl
        next heq =>
          subst heq
          rw [← Option.some.inj hl, List.mem_append, List.mem_singleton] at ha
          rcases ha with ha | rfl
          · cases hget : d.get? s' with
            | none => simp [hget] at ha
            | some l' => exact hd s' l' hget a (by simpa [hget] using ha)
          · exact hs'
        next => exact hd s l hl a ha
  exact hinv as ∅ (by simp) s occupants ((Dict.get?_eq_some _ _ _).mpr h) a ha

private theorem setEntry_map {κ ν ν' : Type} [DecidableEq κ] (g : ν → ν') (k : κ) (v : ν)
    (es : List (κ × ν)) :
    (setEntry k v es).map (fun e => (e.1, g e.2)) =
      setEntry k (g v) (es.map fun e => (e.1, g e.2)) := by
  induction es with
  | nil => rfl
  | cons e es ih =>
    by_cases he : e.1 = k
    · simp [setEntry, he]
    · simp [setEntry, he, ih]

private theorem findEntry_map {κ ν ν' : Type} [DecidableEq κ] (g : ν → ν') (k : κ)
    (es : List (κ × ν)) :
    findEntry k (es.map fun e => (e.1, g e.2)) = (findEntry k es).map g := by
  induction es with
  | nil => rfl
  | cons e es ih =>
    by_cases he : e.1 = k <;> simp [findEntry, he, ih]

/-- Grouping translated placements translates the groups. -/
theorem items_bucketOf_map (h : α → β) (slot? : β → Option SlotKey) (as : List α) :
    ((as.map h).foldl (bucketOf slot?) ∅).items =
      (as.foldl (bucketOf fun a => slot? (h a)) ∅).items.map fun e => (e.1, e.2.map h) := by
  induction as using List.reverseRecOn with
  | nil => rfl
  | append_singleton as a ih =>
    rw [List.map_append, List.foldl_append, List.foldl_append]
    simp only [List.map_cons, List.map_nil, List.foldl_cons, List.foldl_nil]
    set d := (as.map h).foldl (bucketOf slot?) ∅ with hd
    set d' := as.foldl (bucketOf fun a => slot? (h a)) ∅ with hd'
    cases hs : slot? (h a) with
    | none => simpa only [bucketOf, hs] using ih
    | some s =>
      simp only [bucketOf, hs, Dict.set, Dict.get?]
      rw [setEntry_map, ih, findEntry_map]
      congr 1
      cases findEntry s d'.items <;> simp

namespace PlacementReader

variable (r : PlacementReader β) (h : α → β)

theorem accidental_map (slot : SlotKey) (standing : List ℤ) (as : List α) :
    r.accidental slot standing (as.map h) = ((r.comap h).accidental slot standing as).map h := by
  induction as generalizing standing with
  | nil => rfl
  | cons a as ih =>
    simp only [List.map_cons, accidental, ih]
    by_cases hok : standing.all (r.consents slot (h a))
    · simp [comap, hok]
    · simp [comap, hok]

theorem arrivals_map (as : List α) : r.arrivals (as.map h) = ((r.comap h).arrivals as).map h :=
  (List.map_insertionSort _ _ h as fun _ _ _ _ => Iff.rfl).symm

theorem accidentalOn_map (slot : SlotKey) (occupants : List α) :
    r.accidentalOn slot (occupants.map h) = ((r.comap h).accidentalOn slot occupants).map h := by
  have hplaced : (occupants.map h).filter r.placed =
      (occupants.filter (r.comap h).placed).map h := List.filter_map
  have hstanding : ((occupants.map h).filter fun b => !r.placed b).map r.channelId =
      (occupants.filter fun a => !(r.comap h).placed a).map (r.comap h).channelId := by
    rw [List.filter_map, List.map_map]
    rfl
  rw [accidentalOn, hplaced, hstanding, arrivals_map, accidental_map, accidentalOn]

theorem duplicateView_map (slot : SlotKey) (occupants : List α) :
    r.duplicateView slot (occupants.map h) = (r.comap h).duplicateView slot occupants := by
  have hids : (occupants.map h).map r.channelId = occupants.map (r.comap h).channelId := by
    rw [List.map_map]
    rfl
  unfold duplicateView
  rw [List.length_map, accidentalOn_map, hids]
  cases (r.comap h).accidentalOn slot occupants with
  | nil => rfl
  | cons first rest =>
    simp only [List.map_cons, List.flatMap_cons, List.flatMap_map]
    rfl

/-- The verdict sees nothing of a placement but what the reader reads. -/
theorem verdict_map (as : List α) : r.verdict (as.map h) = (r.comap h).verdict as := by
  unfold verdict
  rw [List.filterMap_map, List.filter_map, items_bucketOf_map, List.filterMap_map]
  congr 1
  apply List.filterMap_congr
  intro e _
  exact r.duplicateView_map h e.1 e.2

end PlacementReader

/-- Everything a reader reads, as data. -/
structure PlacementView where
  channelId : ℤ
  number : Option ℚ
  slot : Option SlotKey
  placed : Bool
  arrival : ℤ
  consents : SlotKey → ℤ → Bool
  valid : Bool
  operations : List String

def PlacementReader.view (r : PlacementReader α) (a : α) : PlacementView where
  channelId := r.channelId a
  number := r.number a
  slot := r.slot a
  placed := r.placed a
  arrival := r.arrival a
  consents := fun s c => r.consents s a c
  valid := r.valid a
  operations := r.operations a

private def viewReader : PlacementReader PlacementView where
  channelId := PlacementView.channelId
  number := PlacementView.number
  slot := PlacementView.slot
  placed := PlacementView.placed
  arrival := PlacementView.arrival
  consents s v c := v.consents s c
  valid := PlacementView.valid
  operations := PlacementView.operations

/-- Two readers that read the same data off two lists reach the same verdict. -/
theorem verdict_eq_of_view {r : PlacementReader α} {r' : PlacementReader β} {as : List α}
    {bs : List β} (h : as.map r.view = bs.map r'.view) : r.verdict as = r'.verdict bs := by
  have hr : viewReader.comap r.view = r := rfl
  have hr' : viewReader.comap r'.view = r' := rfl
  calc r.verdict as = viewReader.verdict (as.map r.view) := by
        rw [PlacementReader.verdict_map, hr]
    _ = viewReader.verdict (bs.map r'.view) := by rw [h]
    _ = r'.verdict bs := by rw [PlacementReader.verdict_map, hr']

/-! ## The server's preflight -/

section Server

variable (opId : ℕ → String)

/-- How `evaluate_final_numbering` reads a placement; `opId` names the operation at a position. -/
def serverReader : PlacementReader Placement where
  channelId := Placement.channelId
  number := Placement.number
  slot p := p.number.map slotKey
  placed := Placement.placed
  arrival p := if p.placed then p.arrival else -1
  consents s p c := p.placed && match p.acknowledgement with
    | none => false
    | some a => decide (a.slot = s) && decide (c ∈ a.occupantIds)
  valid p := p.number.elim true isValidChannelNumber
  operations p := if p.placed then p.touchedBy.map opId else []

def NumberingIssue.view (issue : NumberingIssue) : IssueView where
  type := issue.type
  slot := some (slotKey issue.channelNumber)
  channelIds := issue.channelIds.toFinset
  operations := (issue.operationIndexes.map opId).toFinset

theorem view_invalidNumberIssue (p : Placement) :
    (invalidNumberIssue p).map (NumberingIssue.view opId) = (serverReader opId).invalidView p := by
  cases hn : p.number with
  | none => simp [invalidNumberIssue, hn, PlacementReader.invalidView, PlacementReader.refused,
      serverReader]
  | some n =>
    by_cases hp : p.placed
    · by_cases hv : isValidChannelNumber n
      · simp [invalidNumberIssue, hn, hp, hv, PlacementReader.invalidView, PlacementReader.refused,
          serverReader]
      · simp [invalidNumberIssue, hn, hp, hv, PlacementReader.invalidView, PlacementReader.refused,
          serverReader, NumberingIssue.view]
    · simp [invalidNumberIssue, hn, hp, PlacementReader.invalidView, PlacementReader.refused,
        serverReader]

theorem isNone_invalidNumberIssue (p : Placement) :
    (invalidNumberIssue p).isNone = !(serverReader opId).refused p := by
  have h := congrArg Option.isNone (view_invalidNumberIssue opId p)
  rw [Option.isNone_map] at h
  rw [h, PlacementReader.invalidView]
  cases (serverReader opId).refused p <;> rfl

theorem consented_eq_all (slot : SlotKey) (standing : List ℤ) {p : Placement} (hp : p.placed) :
    consented slot standing p = standing.all ((serverReader opId).consents slot p) := by
  cases standing with
  | nil => rfl
  | cons c cs =>
    cases hack : p.acknowledgement with
    | none => simp [consented, serverReader, hack]
    | some a =>
      by_cases hs : a.slot = slot
      · simp [consented, serverReader, hack, hs, hp]
      · simp [consented, serverReader, hack, hs]

theorem accidentalArrivals_eq_accidental (slot : SlotKey) (standing : List ℤ) (ps : List Placement)
    (hps : ∀ p ∈ ps, p.placed) :
    accidentalArrivals slot standing ps = (serverReader opId).accidental slot standing ps := by
  induction ps generalizing standing with
  | nil => rfl
  | cons p ps ih =>
    have hp := hps p (by simp)
    have hrest := ih (p.channelId :: standing) fun q hq => hps q (by simp [hq])
    simp only [accidentalArrivals, PlacementReader.accidental, hrest,
      consented_eq_all opId slot standing hp]
    rfl

theorem sortedArrivals_eq_arrivals (ps : List Placement) (hps : ∀ p ∈ ps, p.placed) :
    sortedArrivals ps = (serverReader opId).arrivals ps := by
  have h := List.map_insertionSort (fun p q : Placement => p.arrival ≤ q.arrival)
    (fun p q => (serverReader opId).arrival p ≤ (serverReader opId).arrival q) id ps (by
      intro p hp q hq
      simp [serverReader, hps p hp, hps q hq])
  simpa [sortedArrivals, PlacementReader.arrivals] using h

theorem accidental_eq_accidentalOn (slot : SlotKey) (occupants : List Placement) :
    accidentalArrivals slot ((occupants.filter fun p => !p.placed).map (·.channelId))
        (sortedArrivals (occupants.filter (·.placed))) =
      (serverReader opId).accidentalOn slot occupants := by
  have hplaced : ∀ p ∈ occupants.filter (·.placed), p.placed := fun p hp =>
    (List.mem_filter.mp hp).2
  have hsorted := sortedArrivals_eq_arrivals opId _ hplaced
  have hmem : ∀ p ∈ (serverReader opId).arrivals (occupants.filter (·.placed)), p.placed := by
    intro p hp
    exact hplaced p ((List.mem_insertionSort _).mp hp)
  rw [hsorted, accidentalArrivals_eq_accidental opId slot _ _ hmem]
  rfl

theorem mem_of_mem_accidental {r : PlacementReader α} {slot : SlotKey} {standing : List ℤ}
    {as : List α} {a : α} (h : a ∈ r.accidental slot standing as) : a ∈ as := by
  induction as generalizing standing with
  | nil => simp [PlacementReader.accidental] at h
  | cons x as ih =>
    simp only [PlacementReader.accidental] at h
    split at h
    · exact List.mem_cons_of_mem _ (ih h)
    · rcases List.mem_cons.mp h with rfl | h
      · exact List.mem_cons_self
      · exact List.mem_cons_of_mem _ (ih h)

theorem mem_of_mem_accidentalOn {r : PlacementReader α} {slot : SlotKey} {occupants : List α}
    {a : α} (h : a ∈ r.accidentalOn slot occupants) : a ∈ occupants ∧ r.placed a := by
  have hmem := (List.mem_insertionSort _).mp (mem_of_mem_accidental h)
  exact List.mem_filter.mp hmem

theorem view_duplicateNumberIssue (slot : SlotKey) (occupants : List Placement)
    (hslot : ∀ p ∈ occupants, p.number.map slotKey = some slot) :
    (duplicateNumberIssue slot occupants).map (NumberingIssue.view opId) =
      (serverReader opId).duplicateView slot occupants := by
  unfold duplicateNumberIssue PlacementReader.duplicateView
  split
  · rfl
  · simp only [accidental_eq_accidentalOn opId]
    cases hacc : (serverReader opId).accidentalOn slot occupants with
    | nil => rfl
    | cons first rest =>
      have hmem : ∀ p ∈ first :: rest, p ∈ occupants ∧ p.placed := fun p hp =>
        mem_of_mem_accidentalOn (hacc ▸ hp)
      obtain ⟨n, hn, hkey⟩ := Option.map_eq_some_iff.mp (hslot first (hmem first (by simp)).1)
      have hops : (first :: rest).flatMap (serverReader opId).operations =
          ((first :: rest).flatMap (·.touchedBy)).map opId := by
        rw [List.map_flatMap]
        apply List.flatMap_congr
        intro p hp
        simp [serverReader, (hmem p hp).2]
      simp only [Option.map_some, NumberingIssue.view, hn, Option.getD_some, hkey, hops]
      congr 2
      ext i
      simp only [List.mem_toFinset, List.mem_map, List.mem_insertionSort, List.mem_dedup]

/-- `evaluate_final_numbering` is the preflight, read as the server reads. -/
theorem view_issuesOfPlacements (ps : List Placement) :
    (issuesOfPlacements ps).map (NumberingIssue.view opId) = (serverReader opId).verdict ps := by
  have hbucket : addToSlot = bucketOf (serverReader opId).slot := by
    funext bySlot p
    cases hn : p.number <;> simp [addToSlot, bucketOf, serverReader, hn]
  have hfilter : (ps.filter fun p => (invalidNumberIssue p).isNone) =
      ps.filter fun p => !(serverReader opId).refused p := by
    apply List.filter_congr
    intro p _
    rw [isNone_invalidNumberIssue opId]
  simp only [issuesOfPlacements, PlacementReader.verdict, List.map_append, List.map_filterMap,
    view_invalidNumberIssue, hbucket, hfilter]
  congr 1
  apply List.filterMap_congr
  intro e he
  apply view_duplicateNumberIssue
  intro p hp
  exact slot_of_mem_bucketOf _ _ he hp

end Server

end ChannelManager
