import ChannelManager.EditMode.NumberPlan
import ChannelManager.Lib.PushDown
import ChannelManager.Lib.SortOn

/-!
# Making room for channels

`channelNumberShift.ts`: inserting channels at a number moves those in the way, each by the same amount, and
no more of them than it must. Numbers are compared in ticks of a tenth.
-/

namespace ChannelManager.EditMode

/-- What the planner reads of a channel. -/
class ShiftableChannel (T : Type) where
  id : T → ℤ
  channelNumber : T → Option ℚ

def toTicks (value : ℚ) : ℤ := mathRound (value * channelNumberTicksPerUnit)

def fromTicks (ticks : ℤ) : ℚ := ticks / channelNumberTicksPerUnit

structure ShiftOptions (T : Type) where
  channels : List T
  startingNumber : ℚ
  count : ℚ
  step : ℚ := 1
  excludeIds : List ℤ := []

structure PlannedChannelShift (T : Type) where
  channel : T
  fromNumber : ℚ
  toNumber : ℚ

structure ChannelNumberShiftPlan (T : Type) where
  shifts : List (PlannedChannelShift T)
  shiftAmount : ℚ
  stopNumber : ℚ

namespace ShiftOptions

variable {T : Type} [ShiftableChannel T] (options : ShiftOptions T)

def stepTicks : ℤ := toTicks options.step

def claimCount : ℤ := ⌊options.count⌋

def shiftTicks : ℤ := options.stepTicks * options.claimCount

def startTick : ℤ := toTicks options.startingNumber

/-- The number a channel holds that does not vacate it, in ticks. -/
def tickOf (channel : T) : Option ℤ :=
  if ShiftableChannel.id channel ∈ options.excludeIds then none
  else (ShiftableChannel.channelNumber channel).map toTicks

/-- The channels from the insertion point up, in order of their ticks. -/
def occupants : List (T × ℤ) :=
  sortedOn Prod.snd (options.channels.filterMap fun channel =>
    ((options.tickOf channel).filter (options.startTick ≤ ·)).map fun tick => (channel, tick))

def occupiedTicks : List ℤ := options.occupants.map Prod.snd

/-- A new channel takes the tick. -/
def takenByNewChannel (tick : ℤ) : Prop :=
  (tick - options.startTick) % options.stepTicks = 0 ∧
    (tick - options.startTick) / options.stepTicks < options.claimCount

instance (tick : ℤ) : Decidable (options.takenByNewChannel tick) := inferInstanceAs (Decidable (_ ∧ _))

/-- A channel in the run up to this stop lands on the tick. -/
def landedOnByMovedChannel (stopTick tick : ℤ) : Prop :=
  options.startTick ≤ tick - options.shiftTicks ∧ tick - options.shiftTicks < stopTick ∧
    tick - options.shiftTicks ∈ options.occupiedTicks

instance (stopTick tick : ℤ) : Decidable (options.landedOnByMovedChannel stopTick tick) :=
  inferInstanceAs (Decidable (_ ∧ _))

/-- One turn of the walk: the stop and the tick before. -/
def walk (state : ℤ × Option ℤ) (tick : ℤ) : ℤ × Option ℤ :=
  if state.2 = some tick then state
  else if tick < state.1 then (state.1, some tick)
  else if options.takenByNewChannel tick ∨ options.landedOnByMovedChannel state.1 tick then
    (tick + 1, some tick)
  else (state.1, some tick)

/-- Where the run ends that moves. -/
def stopTick : ℤ := (options.occupiedTicks.foldl options.walk (options.startTick, none)).1

/-- `planChannelNumberShift`. -/
def planChannelNumberShift : ChannelNumberShiftPlan T :=
  if options.stepTicks ≤ 0 ∨ options.claimCount ≤ 0 then ⟨[], 0, options.startingNumber⟩
  else
    { shifts := (options.occupants.takeWhile (·.2 < options.stopTick)).map fun e =>
        ⟨e.1, (ShiftableChannel.channelNumber e.1).getD 0, fromTicks (e.2 + options.shiftTicks)⟩
      shiftAmount := fromTicks options.shiftTicks
      stopNumber := fromTicks (options.startTick +
        max 0 ⌈(options.stopTick - options.startTick : ℚ) / options.stepTicks⌉ * options.stepTicks) }

/-! ## The walk -/

/-- The numbers the new channels take. -/
def claimed (tick : ℤ) : Prop :=
  ∃ i : ℤ, 0 ≤ i ∧ i < options.claimCount ∧ tick = options.startTick + i * options.stepTicks

/-- Where a tick is after the plan. -/
def shifted (tick : ℤ) : ℤ := pushed options.startTick options.shiftTicks options.stopTick tick

/-- The ticks of the occupants, seen so far, and the stop. -/
abbrev Walked (seen : List ℤ) (stop : ℤ) : Prop :=
  Grown options.claimed options.startTick options.shiftTicks options.occupiedTicks seen stop

section Walk

variable {options} (hstep : 0 < options.stepTicks)

include hstep in
omit [ShiftableChannel T] in
theorem takenByNewChannel_iff {tick : ℤ} (hge : options.startTick ≤ tick) :
    options.takenByNewChannel tick ↔ options.claimed tick := by
  constructor
  · rintro ⟨hmod, hdiv⟩
    refine ⟨(tick - options.startTick) / options.stepTicks, Int.ediv_nonneg (by omega) hstep.le, hdiv, ?_⟩
    rw [Int.ediv_mul_cancel (Int.dvd_of_emod_eq_zero hmod)]
    omega
  · rintro ⟨i, _, hi, rfl⟩
    have hoffset : options.startTick + i * options.stepTicks - options.startTick = i * options.stepTicks := by
      omega
    rw [takenByNewChannel, hoffset, Int.mul_emod_left, Int.mul_ediv_cancel _ hstep.ne']
    exact ⟨rfl, hi⟩

omit [ShiftableChannel T] in
theorem claimed_bounds (hstep : 0 < options.stepTicks) (tick : ℤ) (h : options.claimed tick) :
    options.startTick ≤ tick ∧ tick < options.startTick + options.shiftTicks := by
  obtain ⟨i, hnonneg, hlt, rfl⟩ := h
  rw [shiftTicks]
  constructor <;> nlinarith

theorem mem_occupants {e : T × ℤ} :
    e ∈ options.occupants ↔ e.1 ∈ options.channels ∧ options.tickOf e.1 = some e.2 ∧ options.startTick ≤ e.2 := by
  rw [occupants, mem_sortedOn, List.mem_filterMap]
  constructor
  · rintro ⟨channel, hmem, hsome⟩
    obtain ⟨tick, htick, rfl⟩ := Option.map_eq_some_iff.mp hsome
    obtain ⟨htick, hge⟩ := Option.filter_eq_some_iff.mp htick
    exact ⟨hmem, htick, by simpa using hge⟩
  · rintro ⟨hmem, htick, hge⟩
    refine ⟨e.1, hmem, ?_⟩
    rw [htick, Option.filter_some, if_pos (by simpa using hge), Option.map_some]

theorem mem_occupiedTicks {tick : ℤ} :
    tick ∈ options.occupiedTicks ↔
      ∃ channel ∈ options.channels, options.tickOf channel = some tick ∧ options.startTick ≤ tick := by
  rw [occupiedTicks, List.mem_map]
  constructor
  · rintro ⟨e, he, rfl⟩
    exact ⟨e.1, mem_occupants.mp he⟩
  · rintro ⟨channel, h⟩
    exact ⟨(channel, tick), mem_occupants.mpr h, rfl⟩

/-- One turn of the walk, on a tick no lower than those seen. -/
theorem Walked.walk (hstep : 0 < options.stepTicks) {seen : List ℤ} {state : ℤ × Option ℤ} {tick : ℤ}
    (h : options.Walked seen state.1) (hlast : ∀ t, state.2 = some t → t ∈ seen)
    (hge : options.startTick ≤ tick) (hsorted : ∀ t ∈ seen, t ≤ tick) :
    options.Walked (seen ++ [tick]) (options.walk state tick).1 ∧
      ∀ t, (options.walk state tick).2 = some t → t ∈ seen ++ [tick] := by
  have hmem : tick ∈ seen ++ [tick] := List.mem_append_right _ (List.mem_singleton_self tick)
  have hway : options.takenByNewChannel tick ∨ options.landedOnByMovedChannel state.1 tick ↔
      InTheWay options.claimed options.startTick options.shiftTicks options.occupiedTicks state.1 tick :=
    or_congr_left (takenByNewChannel_iff hstep hge)
  rw [ShiftOptions.walk]
  split
  · rename_i hagain
    have hseen := hlast tick hagain
    exact ⟨h.keep (h.clear tick hseen), fun t ht => List.mem_append_left _ (hlast t ht)⟩
  · split
    · rename_i hlt
      exact ⟨h.keep fun hle => absurd hlt (not_lt.mpr hle), fun t ht => Option.some_inj.mp ht ▸ hmem⟩
    · rename_i hstop
      split
      · rename_i hin
        exact ⟨h.grow hsorted (not_lt.mp hstop) (hway.mp hin), fun t ht => Option.some_inj.mp ht ▸ hmem⟩
      · rename_i hin
        exact ⟨h.keep fun _ hway' => hin (hway.mpr hway'), fun t ht => Option.some_inj.mp ht ▸ hmem⟩

/-- The whole walk. -/
theorem walked_stopTick (hstep : 0 < options.stepTicks) :
    options.Walked options.occupiedTicks options.stopTick := by
  have hwalk : ∀ (ticks seen : List ℤ) (state : ℤ × Option ℤ),
      (seen ++ ticks).Pairwise (· ≤ ·) → (∀ t ∈ ticks, options.startTick ≤ t) →
        options.Walked seen state.1 → (∀ t, state.2 = some t → t ∈ seen) →
          options.Walked (seen ++ ticks) (ticks.foldl options.walk state).1 := by
    intro ticks
    induction ticks with
    | nil =>
      intro seen state _ _ h _
      rwa [List.append_nil]
    | cons tick ticks ih =>
      intro seen state hsorted hge h hlast
      have hle : ∀ t ∈ seen, t ≤ tick := fun t ht =>
        (List.pairwise_append.mp hsorted).2.2 t ht tick List.mem_cons_self
      obtain ⟨hnext, hlast'⟩ := Walked.walk hstep h hlast (hge tick List.mem_cons_self) hle
      rw [List.append_cons] at hsorted ⊢
      exact ih _ _ hsorted (fun t ht => hge t (List.mem_cons_of_mem _ ht)) hnext hlast'
  have hsorted : options.occupiedTicks.Pairwise (· ≤ ·) := by
    rw [occupiedTicks, List.pairwise_map]
    exact pairwise_sortedOn _ _
  exact hwalk options.occupiedTicks [] (options.startTick, none) hsorted
    (fun t ht => (mem_occupiedTicks.mp ht).choose_spec.2.2) grown_start nofun

end Walk

/-! ## The plan -/

/-- The channel is in the run that moves. -/
def inRun (channel : T) : Bool :=
  (options.tickOf channel).any fun tick => options.startTick ≤ tick ∧ tick < options.stopTick

/-- The plan moves the channels of the run and no others, and leaves the claimed numbers free; channels come
together only if they were together, a channel passes another one only if that one stays, and with a lesser
stop one that stays would be on a claimed number or on one that a channel lands on. -/
structure MakesRoom : Prop where
  moved : (options.planChannelNumberShift.shifts.map PlannedChannelShift.channel).Perm
    (options.channels.filter options.inRun)
  moved_by : ∀ shift ∈ options.planChannelNumberShift.shifts, ∃ tick,
    options.tickOf shift.channel = some tick ∧
      ShiftableChannel.channelNumber shift.channel = some shift.fromNumber ∧
        toTicks shift.toNumber = tick + options.shiftTicks
  freed : ∀ channel ∈ options.channels, ∀ tick, options.tickOf channel = some tick → ∀ i : ℤ,
    0 ≤ i → i < options.claimCount → options.shifted tick ≠ options.startTick + i * options.stepTicks
  shared : ∀ channel ∈ options.channels, ∀ channel' ∈ options.channels, ∀ tick tick',
    options.tickOf channel = some tick → options.tickOf channel' = some tick' →
      options.shifted tick = options.shifted tick' → tick = tick'
  ordered : ∀ channel ∈ options.channels, ∀ channel' ∈ options.channels, ∀ tick tick',
    options.tickOf channel = some tick → options.tickOf channel' = some tick' → tick < tick' →
      options.shifted tick < options.shifted tick' ∨
        (options.inRun channel = true ∧ options.inRun channel' = false ∧ tick' < tick + options.shiftTicks)
  least : ∀ stop, options.startTick ≤ stop → stop < options.stopTick →
    ∃ channel ∈ options.channels, ∃ tick, options.tickOf channel = some tick ∧ stop ≤ tick ∧
      ((∃ i : ℤ, 0 ≤ i ∧ i < options.claimCount ∧ tick = options.startTick + i * options.stepTicks) ∨
        ∃ mover ∈ options.channels, ∃ tick', options.tickOf mover = some tick' ∧
          options.startTick ≤ tick' ∧ tick' < stop ∧ tick' + options.shiftTicks = tick)

section Plan

variable {options}

theorem toTicks_fromTicks (ticks : ℤ) : toTicks (fromTicks ticks) = ticks := by
  have hscale : channelNumberTicksPerUnit ≠ 0 := by norm_num [channelNumberTicksPerUnit]
  rw [toTicks, fromTicks, mathRound, div_mul_cancel₀ _ hscale, Int.floor_eq_iff]
  constructor <;> linarith

theorem shifts_eq (hstep : 1 ≤ options.stepTicks) (hcount : 1 ≤ options.claimCount) :
    options.planChannelNumberShift.shifts =
      (options.occupants.filter (·.2 < options.stopTick)).map fun e =>
        ⟨e.1, (ShiftableChannel.channelNumber e.1).getD 0, fromTicks (e.2 + options.shiftTicks)⟩ := by
  rw [planChannelNumberShift, if_neg (by omega)]
  exact congrArg _ (takeWhile_lt_sorted (pairwise_sortedOn _ _) options.stopTick)

theorem moved_perm (hstep : 1 ≤ options.stepTicks) (hcount : 1 ≤ options.claimCount) :
    (options.planChannelNumberShift.shifts.map PlannedChannelShift.channel).Perm
      (options.channels.filter options.inRun) := by
  have hlist : ∀ channels : List T, ((channels.filterMap fun channel =>
      ((options.tickOf channel).filter (options.startTick ≤ ·)).map fun tick => (channel, tick)).filter
        (·.2 < options.stopTick)).map Prod.fst = channels.filter options.inRun := by
    intro channels
    induction channels with
    | nil => rfl
    | cons channel channels ih =>
      rw [List.filterMap_cons, List.filter_cons, ← ih, inRun]
      cases htick : options.tickOf channel with
      | none => simp
      | some tick =>
        by_cases hge : options.startTick ≤ tick
        · by_cases hlt : tick < options.stopTick <;> simp [hge, hlt, Option.filter]
        · simp [hge, Option.filter]
  rw [shifts_eq hstep hcount, List.map_map, ← hlist]
  exact ((sortedOn_perm _ _).filter _).map _

theorem inRun_iff {channel : T} {tick : ℤ} (h : options.tickOf channel = some tick) :
    options.inRun channel = true ↔ options.startTick ≤ tick ∧ tick < options.stopTick := by
  rw [inRun, h, Option.any_some, decide_eq_true_iff]

end Plan

end ShiftOptions

section Sample

/-- Channels by id and number. -/
instance : ShiftableChannel (ℤ × Option ℚ) := ⟨Prod.fst, Prod.snd⟩

/-- One channel is inserted at 300. -/
def insertAt300 : ShiftOptions (ℤ × Option ℚ) where
  channels := [(1, some 300), (2, some 300.5), (3, some 302), (4, none)]
  startingNumber := 300
  count := 1

end Sample

end ChannelManager.EditMode
