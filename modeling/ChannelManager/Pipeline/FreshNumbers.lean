import ChannelManager.Numbering.ChannelNumber
import ChannelManager.Pipeline.Foretold

/-!
# The numbers of a run

What Dispatcharr has in `channel_number` and what a rule has in a number spec are JSON values; both are
read onto the tenths grid. Over the actions of one executor every number given is free of the lineup
and of the numbers given before, as long as the executor marks what it gives; a dry
`set_channel_number` does not.
-/

namespace ChannelManager.Pipeline

/-- A JSON value in the place of a number. A float is exact or not finite, any other value a text. -/
inductive NumberValue
  | null
  | bool (b : Bool)
  | int (n : ℤ)
  | float (q : ℚ)
  | nonFinite
  | text (s : List Char)
deriving DecidableEq

/-- An integer from here up has no float. -/
def floatOverflow : ℚ := 2 ^ 1024 - 2 ^ 970

/-- `is_valid_channel_number`. -/
def NumberValue.isValid : NumberValue → Bool
  | int n => decide ((n : ℚ) < floatOverflow) && isValidChannelNumber n
  | float q => isValidChannelNumber q
  | _ => false

/-- `channel_number_ticks`; none where it raises. -/
def channelNumberTicks : NumberValue → Option ℤ
  | .int n => some (n * 10)
  | .float q =>
    if exactIntegerFloor ≤ |q| then some (⌊q⌋ * 10)
    else some (roundHalfEven (q * channelNumberTicksPerUnit))
  | _ => none

/-- `channel_number_from_ticks`. -/
def channelNumberFromTicks (ticks : ℕ) : NumberValue :=
  if ticks % 10 = 0 then .int (ticks / 10 : ℕ) else .float (ticks / 10)

section Text

def isSpace (c : Char) : Bool := c = ' ' || (9 ≤ c.toNat && c.toNat ≤ 13) || (28 ≤ c.toNat && c.toNat ≤ 31)

/-- `str.strip`. -/
def strip (s : List Char) : List Char :=
  ((s.dropWhile isSpace).reverse.dropWhile isSpace).reverse

/-- The number a row of digits spells. -/
def spelledNumber (digits : List Char) : ℕ := digits.foldl (fun n c => n * 10 + (c.toNat - 48)) 0

/-- `float` of digits that may have a point with digits after it. -/
def decimalText (s : List Char) : Option NumberValue :=
  let whole := s.takeWhile Char.isDigit
  let rest := s.dropWhile Char.isDigit
  let places := rest.drop 1
  if whole ≠ [] ∧ (rest = [] ∨ (rest.head? = some '.' ∧ places ≠ [] ∧ places.all Char.isDigit)) then
    let q : ℚ := spelledNumber (whole ++ places) / 10 ^ places.length
    some (if q < floatOverflow then .float q else .nonFinite)
  else none

/-- `parse_channel_number_text`, which has to find a number. -/
def parseChannelNumberText (s : List Char) : Option NumberValue :=
  (decimalText (strip s)).filter NumberValue.isValid

/-- The two ends of `_CHANNEL_NUMBER_RANGE_RE`. -/
def rangeText (s : List Char) : Option (ℕ × ℕ) :=
  let s := s.dropWhile isSpace
  let lo := s.takeWhile Char.isDigit
  let afterLo := (s.dropWhile Char.isDigit).dropWhile isSpace
  let high := (afterLo.drop 1).dropWhile isSpace
  let hi := high.takeWhile Char.isDigit
  if lo ≠ [] ∧ afterLo.head? = some '-' ∧ hi ≠ [] ∧ (high.dropWhile Char.isDigit).all isSpace then
    some (spelledNumber lo, spelledNumber hi)
  else none

end Text

/-- The start of `_channel_number_spec_ticks`. -/
def channelNumberSpecTicks (spec : NumberValue) : Option ℕ :=
  let number := match spec with
    | .text s => parseChannelNumberText s
    | .int _ | .float _ => some spec
    | _ => none
  ((number.filter NumberValue.isValid).bind channelNumberTicks).map Int.toNat

/-- What `_get_next_channel_number` takes a spec for. -/
def readSpec (spec : NumberValue) : NumberSpec :=
  match channelNumberSpecTicks spec, spec with
  | some ticks, _ => .literal ticks
  | none, .text s =>
    match rangeText (strip s) with
    | some (lo, hi) => .range lo hi
    | none => .auto
  | none, _ => .auto

/-- The slot a number in the lineup takes. A negative number takes none that is ever walked to. -/
def takenSlot (number : NumberValue) : Option ℕ := (channelNumberTicks number).bind Int.toNat?

/-- The channels an executor loads, each with the number Dispatcharr has for it. -/
def loadedChannels (lineup : Dict ℤ (NumberValue × Channel)) : Dict ℤ Channel :=
  lineup.mapValues fun _ e => { e.2 with channelNumber := takenSlot e.1 }

/-! ## Numbers on the grid -/

/-- A tick divides back to a channel number. -/
theorem isValid_channelNumberFromTicks {ticks : ℕ} (h : (ticks / 10 : ℚ) < floatOverflow) :
    (channelNumberFromTicks ticks).isValid = true := by
  have hgrid : isValidChannelNumber ((ticks : ℚ) / 10) = true := by
    have hscaled : (ticks : ℚ) / 10 * channelNumberTicksPerUnit = ((ticks : ℤ) : ℚ) := by
      rw [channelNumberTicksPerUnit, div_mul_cancel₀ _ (by norm_num), Int.cast_natCast]
    rw [isValidChannelNumber, hscaled, roundHalfEven_intCast, sub_self, abs_zero]
    have hpos : (0 : ℚ) ≤ ticks / 10 := by positivity
    have htolerance : (0 : ℚ) ≤ tenthTolerance := by norm_num [tenthTolerance]
    simp [hpos, htolerance]
  unfold channelNumberFromTicks
  split
  · have hwhole : (((ticks / 10 : ℕ) : ℤ) : ℚ) = (ticks : ℚ) / 10 := by
      obtain ⟨k, rfl⟩ := Nat.dvd_of_mod_eq_zero ‹_›
      rw [Nat.mul_div_cancel_left k (by norm_num), Int.cast_natCast, Nat.cast_mul, Nat.cast_ofNat,
        mul_div_cancel_left₀ _ (by norm_num)]
    rw [NumberValue.isValid, hwhole, hgrid, decide_eq_true h, Bool.and_self]
  · exact hgrid

theorem channelNumberTicks_fromTicks {ticks : ℕ} (h : (ticks : ℚ) / 10 < exactIntegerFloor) :
    channelNumberTicks (channelNumberFromTicks ticks) = some (ticks : ℤ) := by
  unfold channelNumberFromTicks
  split
  · simp only [channelNumberTicks, Option.some.injEq]
    omega
  · have hscaled : (ticks : ℚ) / 10 * channelNumberTicksPerUnit = ((ticks : ℤ) : ℚ) := by
      rw [channelNumberTicksPerUnit, div_mul_cancel₀ _ (by norm_num), Int.cast_natCast]
    have habs : |(ticks : ℚ) / 10| = ticks / 10 := abs_of_nonneg (by positivity)
    rw [channelNumberTicks, habs, if_neg (not_le.mpr h), hscaled, roundHalfEven_intCast]

theorem takenSlot_eq_some {number : NumberValue} {ticks : ℕ} :
    takenSlot number = some ticks ↔ channelNumberTicks number = some (ticks : ℤ) := by
  rw [takenSlot, Option.bind_eq_some_iff]
  constructor
  · rintro ⟨t, ht, hticks⟩
    rw [ht, Int.mem_toNat?.mp hticks]
  · exact fun h => ⟨_, h, Int.mem_toNat?.mpr rfl⟩

/-! ## Actions through one executor -/

/-- An action that gives a number, with its spec as the rule has it. -/
inductive NumberingAction
  | createChannel (params : CreateParams) (channelNumber : NumberValue)
  | setChannelNumber (value : NumberValue)

namespace NumberingAction

def spec : NumberingAction → NumberSpec
  | createChannel _ channelNumber => readSpec channelNumber
  | setChannelNumber value => readSpec value

def toAction : NumberingAction → Action
  | createChannel params channelNumber =>
    .createChannel { params with channelNumber := readSpec channelNumber }
  | setChannelNumber value => .setChannelNumber (readSpec value)

end NumberingAction

/-- A call of `execute`. -/
structure NumberingCall where
  dryRun : Bool
  action : NumberingAction
  opts : RuleOptions
  stream : Stream
  ctx : Context

section Run

variable (cfg : Config) (fails : ℕ → Option String)

def NumberingCall.run (call : NumberingCall) (s : State) : Turn :=
  execute cfg fails call.dryRun call.action.toAction call.opts call.stream call.ctx s

/-- The number an action has given a channel. -/
def assignedNumber (result : ActionResult) : Option ℕ :=
  if result.created || result.modified then result.channelNumber else none

/-- The executor does not mark the number of a dry `set_channel_number`; this is whether the call gives
one so. -/
def NumberingCall.unmarked (call : NumberingCall) (s : State) : Bool :=
  match call.action with
  | .createChannel _ _ => false
  | .setChannelNumber _ =>
    call.dryRun && (call.ctx.currentChannel.filter (· ≠ .existing 0)).any fun key =>
      s.assigned.get? key = none

/-- The specs of the calls that give numbers, with the numbers. -/
def assignments : List NumberingCall → State → List (NumberSpec × ℕ)
  | [], _ => []
  | call :: calls, s =>
    let turn := call.run cfg fails s
    ((assignedNumber turn.result).map fun n => (call.action.spec, n)).toList ++
      assignments calls turn.state

/-- No call of a run leaves its number unmarked. -/
def allMarked : List NumberingCall → State → Bool
  | [], _ => true
  | call :: calls, s => !call.unmarked s && allMarked calls (call.run cfg fails s).state

/-! ### What a call does with the numbers -/

/-- An action gives no number and marks none. -/
def Unnumbered (s : State) (turn : Turn) : Prop :=
  turn.state.used = s.used ∧ assignedNumber turn.result = none

/-- An action gives the next free number for a spec. -/
def Numbers (spec : NumberSpec) (marked : Bool) (s : State) (turn : Turn) : Prop :=
  let number := getNextChannelNumber s.used spec
  assignedNumber turn.result = some number ∧
    turn.state.used = if marked then number :: s.used else s.used

theorem renameExisting_used (dryRun : Bool) (opts : RuleOptions) (key : ChannelKey)
    (channel : Channel) (channelName : String) (s : State) :
    (renameExisting cfg fails dryRun opts key channel channelName s).used = s.used := by
  unfold renameExisting
  cases renamedTo cfg opts channel channelName with
  | none => rfl
  | some name =>
    cases dryRun with
    | true => rfl
    | false =>
      dsimp only [Bool.false_eq_true, if_false, request]
      cases fails s.calls <;> rfl

theorem addStreamToChannel_unnumbered (dryRun : Bool) (key : ChannelKey) (channel : Channel)
    (stream : Stream) (ctx : Context) (s : State) :
    Unnumbered s (addStreamToChannel fails dryRun key channel stream ctx s) := by
  unfold addStreamToChannel
  by_cases hmem : stream.streamId ∈ channel.streams
  · rw [if_pos hmem]
    exact ⟨rfl, rfl⟩
  · rw [if_neg hmem]
    cases dryRun with
    | true => exact ⟨trackM3uCount_used _ _ _, rfl⟩
    | false =>
      dsimp only [Bool.false_eq_true, if_false, request]
      cases fails s.calls with
      | some error => exact ⟨rfl, rfl⟩
      | none => exact ⟨trackM3uCount_used _ _ _, rfl⟩

theorem updateChannel_unnumbered (dryRun : Bool) (key : ChannelKey) (channel : Channel)
    (stream : Stream) (ctx : Context) (s : State) :
    Unnumbered s (updateChannel fails dryRun key channel stream ctx s) := by
  unfold updateChannel
  cases dryRun with
  | true => exact ⟨rfl, rfl⟩
  | false =>
    dsimp only [Bool.false_eq_true, if_false, request]
    by_cases heq : updated channel stream = channel
    · rw [if_pos heq]
      exact ⟨rfl, rfl⟩
    · rw [if_neg heq]
      cases fails s.calls <;> exact ⟨rfl, rfl⟩

theorem useExisting_unnumbered (dryRun : Bool) (params : CreateParams) (opts : RuleOptions)
    (key : ChannelKey) (channel : Channel) (channelName : String) (stream : Stream) (ctx : Context)
    (s : State) :
    Unnumbered s (useExisting cfg fails dryRun params opts key channel channelName stream ctx s) := by
  have hused := renameExisting_used cfg fails dryRun opts key channel channelName s
  have hafter : ∀ turn : Turn,
      Unnumbered (renameExisting cfg fails dryRun opts key channel channelName s) turn →
      Unnumbered s turn := fun turn h => ⟨h.1.trans hused, h.2⟩
  apply hafter
  unfold useExisting
  cases params.ifExists with
  | skip => exact ⟨rfl, rfl⟩
  | update => exact updateChannel_unnumbered fails dryRun _ _ _ _ _
  | merge => exact addStreamToChannel_unnumbered fails dryRun _ _ _ _ _
  | mergeOnly => exact addStreamToChannel_unnumbered fails dryRun _ _ _ _ _

theorem createNew_numbers (dryRun : Bool) (params : CreateParams) (groupId : Option ℤ)
    (channelName : String) (stream : Stream) (ctx : Context) (s : State) :
    let turn := createNew cfg fails dryRun params groupId channelName stream ctx s
    Unnumbered s turn ∨ Numbers params.channelNumber true s turn := by
  unfold createNew
  cases dryRun with
  | true => exact .inr ⟨rfl, rfl⟩
  | false =>
    dsimp only [Bool.false_eq_true, if_false, request]
    cases fails s.calls with
    | some error => exact .inl ⟨rfl, rfl⟩
    | none => exact .inr ⟨rfl, rfl⟩

theorem executeCreateChannel_numbers (dryRun : Bool) (params : CreateParams) (opts : RuleOptions)
    (stream : Stream) (ctx : Context) (s : State) :
    let turn := executeCreateChannel cfg fails dryRun params opts stream ctx s
    Unnumbered s turn ∨ Numbers params.channelNumber true s turn := by
  unfold executeCreateChannel
  dsimp only [findChannelByName]
  split
  · exact .inl (useExisting_unnumbered cfg fails dryRun params opts _ _ _ stream ctx _)
  · unfold createUnlessMergeOnly
    split
    · exact .inl ⟨rfl, rfl⟩
    · exact createNew_numbers cfg fails dryRun params _ _ stream ctx _

/-- A live `set_channel_number` marks the number it gives, a dry one does not. -/
theorem executeSetChannelNumber_numbers (dryRun : Bool) (value : NumberSpec) (ctx : Context)
    (s : State) :
    let turn := executeSetChannelNumber fails dryRun value ctx s
    Unnumbered s turn ∨ (Numbers value (!dryRun) s turn ∧
      ∃ key, ctx.currentChannel.filter (· ≠ .existing 0) = some key ∧ s.assigned.get? key = none) := by
  unfold executeSetChannelNumber
  cases hkey : ctx.currentChannel.filter (· ≠ .existing 0) with
  | none => exact .inl ⟨rfl, rfl⟩
  | some key =>
    dsimp only
    cases hassigned : s.assigned.get? key with
    | some number => exact .inl ⟨rfl, rfl⟩
    | none =>
      dsimp only
      cases dryRun with
      | true => exact .inr ⟨⟨rfl, setNumber_used _ _ _⟩, key, rfl, hassigned⟩
      | false =>
        dsimp only [Bool.false_eq_true, if_false, request]
        cases fails s.calls with
        | some error => exact .inl ⟨rfl, rfl⟩
        | none => exact .inr ⟨⟨rfl, rfl⟩, key, rfl, hassigned⟩

theorem call_numbers (call : NumberingCall) (s : State) :
    Unnumbered s (call.run cfg fails s) ∨
      Numbers call.action.spec (!call.unmarked s) s (call.run cfg fails s) := by
  obtain ⟨dryRun, action, opts, stream, ctx⟩ := call
  cases action with
  | createChannel params channelNumber =>
    exact executeCreateChannel_numbers cfg fails dryRun
      { params with channelNumber := readSpec channelNumber } opts stream ctx s
  | setChannelNumber value =>
    cases executeSetChannelNumber_numbers fails dryRun (readSpec value) ctx s with
    | inl hnone => exact .inl hnone
    | inr hsome =>
      obtain ⟨hnumbers, key, hkey, hassigned⟩ := hsome
      have hunmarked : NumberingCall.unmarked ⟨dryRun, .setChannelNumber value, opts, stream, ctx⟩ s = dryRun := by
        rw [NumberingCall.unmarked, hkey, Option.any_some, decide_eq_true hassigned, Bool.and_true]
      rw [hunmarked]
      exact .inr hnumbers

/-- In a run that marks what it gives, a number is the least one its spec admits that is neither used
at the start nor given before. -/
theorem assignments_fresh {calls : List NumberingCall} {s : State} (hmarked : allMarked cfg fails calls s = true)
    {before after : List (NumberSpec × ℕ)} {spec : NumberSpec} {n : ℕ}
    (hsplit : assignments cfg fails calls s = before ++ (spec, n) :: after) :
    ∃ used : List ℕ, (∀ t, t ∈ used ↔ t ∈ s.used ∨ t ∈ before.map Prod.snd) ∧
      n = getNextChannelNumber used spec := by
  induction calls generalizing s before with
  | nil => cases before <;> cases hsplit
  | cons call calls ih =>
    rw [allMarked, Bool.and_eq_true, Bool.not_eq_true'] at hmarked
    rw [assignments] at hsplit
    cases call_numbers cfg fails call s with
    | inl hnone =>
      rw [hnone.2] at hsplit
      obtain ⟨used, hused, hn⟩ := ih hmarked.2 hsplit
      exact ⟨used, fun t => (hused t).trans (by rw [hnone.1]), hn⟩
    | inr hsome =>
      obtain ⟨hnumber, hafter⟩ := hsome
      rw [hnumber] at hsplit
      rw [hmarked.1] at hafter
      cases before with
      | nil =>
        obtain ⟨hhead, _⟩ := List.cons_eq_cons.mp hsplit
        cases hhead
        exact ⟨s.used, fun t => by simp, rfl⟩
      | cons first before =>
        obtain ⟨rfl, hrest⟩ := List.cons_eq_cons.mp hsplit
        obtain ⟨used, hused, hn⟩ := ih hmarked.2 hrest
        refine ⟨used, fun t => (hused t).trans ?_, hn⟩
        rw [hafter]
        simp [or_assoc, or_comm]

end Run

/-! ## Fresh numbers -/

/-- No channel of the lineup has the number of a tick. -/
def FreeIn (lineup : Dict ℤ (NumberValue × Channel)) (ticks : ℕ) : Prop :=
  ∀ e ∈ lineup.values, channelNumberTicks e.1 ≠ some (ticks : ℤ)

theorem not_mem_start_used_iff (cfg : Config) (lineup : Dict ℤ (NumberValue × Channel))
    (elsewhere : Dict ℤ (List ℤ)) (ticks : ℕ) :
    ticks ∉ (State.start cfg (loadedChannels lineup) elsewhere).used ↔ FreeIn lineup ticks := by
  have hused : (State.start cfg (loadedChannels lineup) elsewhere).used =
      lineup.values.filterMap fun e => takenSlot e.1 := by
    rw [Dict.values, List.filterMap_map]
    exact List.filterMap_map
  rw [hused, List.mem_filterMap, FreeIn]
  simp only [not_exists, not_and, takenSlot_eq_some, ne_eq]

theorem below_exactIntegerFloor {n : ℕ} (h : (n : ℚ) / 10 < 2 ^ 49) :
    (n : ℚ) / 10 < exactIntegerFloor ∧ (n : ℚ) / 10 < floatOverflow := by
  have hfloor : (2 : ℚ) ^ 49 ≤ exactIntegerFloor := by norm_num [exactIntegerFloor]
  have hoverflow : (2 : ℚ) ^ 49 ≤ floatOverflow := by decide +kernel
  exact ⟨h.trans_le hfloor, h.trans_le hoverflow⟩

/-- When every call marks what it gives, each number given is a channel number that no channel of the
lineup has and that was not given before, the least such number its spec admits; and a range is left
only when all of it is taken. -/
theorem given_numbers_fresh (cfg : Config) (fails : ℕ → Option String)
    (lineup : Dict ℤ (NumberValue × Channel)) (elsewhere : Dict ℤ (List ℤ)) (calls : List NumberingCall)
    (hmarked : allMarked cfg fails calls (State.start cfg (loadedChannels lineup) elsewhere) = true)
    {before after : List (NumberSpec × ℕ)} {spec : NumberSpec} {n : ℕ}
    (hsplit : assignments cfg fails calls (State.start cfg (loadedChannels lineup) elsewhere) =
      before ++ (spec, n) :: after) (hbound : (n : ℚ) / 10 < 2 ^ 49) :
    let number := channelNumberFromTicks n
    let free := fun t => FreeIn lineup t ∧ t ∉ before.map Prod.snd
    number.isValid = true ∧
      (∀ e ∈ lineup.values, channelNumberTicks e.1 ≠ channelNumberTicks number) ∧
      n ∉ before.map Prod.snd ∧
      IsLeast {t | free t ∧ spec.Admits t} n ∧
      ∀ lo hi, spec = .range lo hi → ∀ m, lo ≤ m → m ≤ hi → free (10 * m) → n ≤ 10 * m := by
  intro number free
  obtain ⟨hfloor, hoverflow⟩ := below_exactIntegerFloor hbound
  obtain ⟨used, hused, hn⟩ := assignments_fresh cfg fails hmarked hsplit
  have hfree : ∀ t, t ∉ used ↔ free t := by
    intro t
    rw [hused, not_or, not_mem_start_used_iff]
  have hleast : IsLeast {t | free t ∧ spec.Admits t} n := by
    have hset : {t | free t ∧ spec.Admits t} = {t | t ∉ used ∧ spec.Admits t} := by
      ext t
      rw [Set.mem_ofPred_eq, Set.mem_ofPred_eq, hfree]
    rw [hset, hn]
    exact getNextChannelNumber_isLeast used spec
  refine ⟨isValid_channelNumberFromTicks hoverflow, ?_, hleast.1.1.2, hleast, ?_⟩
  · rw [channelNumberTicks_fromTicks hfloor]
    exact hleast.1.1.1
  · rintro lo hi rfl m hlo hhi hm
    rw [hn]
    exact getNextChannelNumber_range_le hlo hhi ((hfree _).mpr hm)

section Sample

/-- Channels 1, 1.1 and one whose number is no number. -/
def mixedLineup : Dict ℤ (NumberValue × Channel) :=
  Dict.ofList [(7, .int 1, ⟨"news", some 3, none, [1], none, none, true⟩),
    (8, .float (11 / 10), ⟨"sport", some 3, none, [2], none, none, true⟩),
    (9, .text "n/a".toList, ⟨"film", some 3, none, [3], none, none, true⟩)]

/-- `set_channel_number` on a channel of the lineup. -/
def numberCall (dryRun : Bool) (id : ℤ) (value : String) : NumberingCall :=
  ⟨dryRun, .setChannelNumber (.text value.toList), plainOptions, plainStream 1 "news" none,
    ⟨some (.existing id), [], []⟩⟩

theorem given_numbers_fresh_live :
    (channelNumberFromTicks 12).isValid = true ∧
      IsLeast {t | (FreeIn mixedLineup t ∧ t ∉ [20]) ∧ NumberSpec.Admits (.literal 11) t} 12 := by
  have hsplit : assignments plainConfig noFailure [numberCall false 7 "auto", numberCall false 8 "1.1"]
      (State.start plainConfig (loadedChannels mixedLineup) ∅) =
        [(.auto, 20)] ++ (.literal 11, 12) :: [] := by
    decide +kernel
  have hfresh := given_numbers_fresh plainConfig noFailure mixedLineup ∅
    [numberCall false 7 "auto", numberCall false 8 "1.1"] (by decide +kernel) hsplit (by norm_num)
  exact ⟨hfresh.1, hfresh.2.2.2.1⟩

/-- Two channels that a dry run numbers automatically get one number. -/
theorem given_numbers_repeat :
    ¬ ∀ (cfg : Config) (fails : ℕ → Option String) (lineup : Dict ℤ (NumberValue × Channel))
      (elsewhere : Dict ℤ (List ℤ)) (calls : List NumberingCall) (before after : List (NumberSpec × ℕ))
      (spec : NumberSpec) (n : ℕ),
      assignments cfg fails calls (State.start cfg (loadedChannels lineup) elsewhere) =
        before ++ (spec, n) :: after → n ∉ before.map Prod.snd := by
  intro hclaim
  have hsplit : assignments plainConfig noFailure [numberCall true 7 "auto", numberCall true 8 "auto"]
      (State.start plainConfig (loadedChannels mixedLineup) ∅) =
        [(.auto, 20)] ++ (.auto, 20) :: [] := by
    decide +kernel
  exact hclaim _ _ _ _ _ _ _ _ _ hsplit (by simp)

end Sample

end ChannelManager.Pipeline
