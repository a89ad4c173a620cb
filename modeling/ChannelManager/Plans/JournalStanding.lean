import ChannelManager.Plans.JournalRows
import ChannelManager.Plans.PutBack

/-!
# The shadow of the journal and the store

Each write does to the streams and the number of a channel in the journal's shadow what Dispatcharr
does to them in the store, but for what the write leaves to Dispatcharr.
-/

namespace ChannelManager.Plans

/-- The number that the last of some assignments gives a channel. -/
def numberFrom (c : ℤ) (numbers : List (ℤ × Json)) : Option Json :=
  (lastWrite (fun e => if e.1 = c then some e.2 else none) numbers).map Prod.snd

theorem numberFrom_concat (c : ℤ) (numbers : List (ℤ × Json)) (e : ℤ × Json) :
    numberFrom c (numbers ++ [e]) = if e.1 = c then some e.2 else numberFrom c numbers := by
  rw [numberFrom, lastWrite_concat]
  split <;> simp_all [numberFrom]

theorem numberFrom_eq_none {c : ℤ} {numbers : List (ℤ × Json)} :
    numberFrom c numbers = none ↔ c ∉ numbers.map Prod.fst := by
  rw [numberFrom, Option.map_eq_none_iff, lastWrite_eq_none]
  simp only [ite_eq_right_iff, reduceCtorEq, imp_false, List.mem_map, not_exists, not_and]

theorem mem_of_numberFrom {c : ℤ} {numbers : List (ℤ × Json)} {v : Json}
    (h : numberFrom c numbers = some v) : (c, v) ∈ numbers := by
  induction numbers using List.reverseRecOn with
  | nil => simp [numberFrom] at h
  | append_singleton numbers e ih =>
    rw [numberFrom_concat] at h
    split at h
    next he => simp [← he, ← Option.some.inj h]
    next => exact List.mem_append_left _ (ih h)

/-- A channel with the fields that an update or an assignment sets. -/
def Standing.restated (s : Standing) (data : Record) : Standing where
  streams := if "streams" ∈ data then streamSet (data.read "streams") else s.streams
  number := ((data.get? "channel_number").map Json.canonical).getD s.number

/-- What a write makes of a channel, where a new channel is filled in from `defaults` and the
assignments give `numbers`. -/
def standingAfter (remap : Dict ℤ ℤ) (nextTemp : ℤ) (defaults : Record)
    (numbers : List (ℤ × Json)) (c : ℤ) (s : Option Standing) : Write → Option Standing
  | .createChannel data =>
    if resolve remap nextTemp = c then some ((standingOf defaults).restated data) else s
  | .updateChannel c' data => if resolve remap c' = c then s.map (·.restated data) else s
  | .deleteChannel c' => if resolve remap c' = c then none else s
  | .assignChannelNumbers .. =>
    s.map fun s => { s with number := ((numberFrom c numbers).map Json.canonical).getD s.number }
  | _ => s

theorem standingOf_update (before data : Record) :
    standingOf (before.update data) = (standingOf before).restated data := by
  rw [Standing.ext_iff]
  exact ⟨streams_updated before data, (number_updated before data).symm⟩

theorem restated_empty (data : Record) : (standingOf ∅).restated data = standingOf data := by
  rw [Standing.ext_iff]
  simp only [Standing.restated, standingOf, Record.read]
  refine ⟨?_, ?_⟩
  · split
    case isTrue => rfl
    case isFalse h => rw [(Dict.get?_eq_none _ _).mpr h]; rfl
  · cases data.get? "channel_number" <;> rfl

theorem standingOf_set_id (channel : Record) (v : Json) :
    standingOf (channel.set "id" v) = standingOf channel := by
  simp [standingOf, Record.read_set]

theorem standingOf_set_number (channel : Record) (v : Json) :
    standingOf (channel.set "channel_number" v) =
      { standingOf channel with number := v.canonical } := by
  simp [standingOf, Record.read_set]

section Shadow

variable {remap : Dict ℤ ℤ} (executionId : ℤ) {plan : PipelineWritePlan} {journal : Journal}

/-- The numbers the journal says a write assigns. -/
def journalNumbers (remap : Dict ℤ ℤ) : Write → List (ℤ × Json)
  | .assignChannelNumbers channelIds startingNumber =>
    channelIds.zipIdx.map fun e => (resolve remap e.1, numberPlus startingNumber e.2)
  | _ => []

theorem mem_assigns_shadow (startingNumber : Json) (es : List (ℤ × ℕ)) {c : ℤ}
    (h : c ∈ journal.shadow) :
    c ∈ (es.foldl (Journal.assign remap executionId startingNumber) journal).shadow := by
  induction es generalizing journal with
  | nil => exact h
  | cons e es ih => exact ih (mem_assign_shadow executionId startingNumber e h)

theorem standing_assign (startingNumber : Json) (e : ℤ × ℕ)
    (hground : resolve remap e.1 ∈ journal.shadow) (c : ℤ) :
    (Journal.assign remap executionId startingNumber journal e).standing c =
      (journal.standing c).map fun s =>
        if resolve remap e.1 = c then
          { s with number := (numberPlus startingNumber e.2).canonical }
        else s := by
  obtain ⟨channel, hget, hstanding⟩ := standing_of_mem hground
  rw [Journal.assign, standing_set]
  split
  case isTrue heq =>
    rw [← heq, hstanding, hget, Option.getD_some, standingOf_set_number]
    rfl
  case isFalse => simp

theorem standing_assigns (startingNumber : Json) (es : List (ℤ × ℕ))
    (hground : ∀ e ∈ es, resolve remap e.1 ∈ journal.shadow) (c : ℤ) :
    (es.foldl (Journal.assign remap executionId startingNumber) journal).standing c =
      (journal.standing c).map fun s =>
        { s with number :=
          ((numberFrom c (es.map fun e => (resolve remap e.1, numberPlus startingNumber e.2))).map
            Json.canonical).getD s.number } := by
  induction es using List.reverseRecOn with
  | nil => simp [numberFrom]
  | append_singleton es e ih =>
    have hearlier : ∀ e' ∈ es, resolve remap e'.1 ∈ journal.shadow :=
      fun e' he' => hground e' (by simp [he'])
    have hmem : resolve remap e.1 ∈
        (es.foldl (Journal.assign remap executionId startingNumber) journal).shadow :=
      mem_assigns_shadow executionId startingNumber es (hground e (by simp))
    rw [List.foldl_append, List.foldl_cons, List.foldl_nil, standing_assign _ _ _ hmem,
      ih hearlier, List.map_append, List.map_cons, List.map_nil, numberFrom_concat]
    by_cases hc : resolve remap e.1 = c
    · simp [hc, Option.map_map, Function.comp_def]
    · simp only [hc, if_false, Option.map_id']

/-- What a write does to the shadow of a channel. -/
theorem standing_write (w : Write) (hground : Grounded remap journal w) (c : ℤ) :
    (journal.write remap executionId plan w).standing c =
      standingAfter remap journal.nextTemp ∅ (journalNumbers remap w) c (journal.standing c) w := by
  cases w with
  | createChannel data =>
    rw [Journal.write, standing_set, standingAfter, standingOf_update]
    rfl
  | assignChannelNumbers ids startingNumber =>
    exact standing_assigns executionId startingNumber ids.zipIdx
      (fun e he => hground e.1 (List.fst_mem_of_mem_zipIdx he)) c
  | updateChannel c' data =>
    obtain ⟨channel, hget, hstanding⟩ := standing_of_mem (hground c' (by simp [Write.channelIds]))
    rw [Journal.write, standing_set, standingAfter]
    split
    case isTrue heq =>
      rw [← heq, hstanding, Journal.beforeOf, hget, Option.getD_some, standingOf_update]
      rfl
    case isFalse => rfl
  | deleteChannel c' => rw [Journal.write, standing_erase, standingAfter]
  | _ => rfl

end Shadow

section Store

variable {server : Server} {live live' : Live} {remap : Dict ℤ ℤ} {ρ : ℤ → ℤ} {w : Write}

/-- The numbers Dispatcharr assigns on a write. -/
def liveNumbers (server : Server) (live : Live) (remap : Dict ℤ ℤ) : Write → List (ℤ × Json)
  | .assignChannelNumbers channelIds startingNumber =>
    (channelIds.map (resolve remap)).zipIdx.map fun e =>
      (e.1, live.numberAt server (channelIds.map (resolve remap)) startingNumber e.2)
  | _ => []

theorem standing_setNumber (channels : Dict ℤ Record) (id c : ℤ) (number : Json) :
    ((Live.setNumber channels id number).get? c).map standingOf =
      ((channels.get? c).map standingOf).map fun s =>
        if id = c then { s with number := number.canonical } else s := by
  rw [Live.get?_setNumber]
  by_cases hc : id = c
  · rw [if_pos hc, Option.map_map, Option.map_map]
    congr 1
    funext channel
    simp only [Function.comp_apply, hc, if_true]
    exact standingOf_set_number channel number
  · simp only [hc, if_false, Option.map_id']

theorem setNumbers_append (channels : Dict ℤ Record) (numbers numbers' : List (ℤ × Json)) :
    Live.setNumbers channels (numbers ++ numbers') =
      Live.setNumbers (Live.setNumbers channels numbers) numbers' := by
  induction numbers generalizing channels with
  | nil => rfl
  | cons e numbers ih => exact ih (Live.setNumber channels e.1 e.2)

theorem standing_setNumbers (channels : Dict ℤ Record) (numbers : List (ℤ × Json)) (c : ℤ) :
    ((Live.setNumbers channels numbers).get? c).map standingOf =
      ((channels.get? c).map standingOf).map fun s =>
        { s with number := ((numberFrom c numbers).map Json.canonical).getD s.number } := by
  induction numbers using List.reverseRecOn with
  | nil =>
    show _ = ((channels.get? c).map standingOf).map fun s => s
    rw [Option.map_id']
    rfl
  | append_singleton numbers e ih =>
    rw [setNumbers_append, numberFrom_concat]
    show ((Live.setNumber _ e.1 e.2).get? c).map standingOf = _
    rw [standing_setNumber, ih]
    by_cases hc : e.1 = c
    · simp [hc, Option.map_map, Function.comp_def]
    · simp only [hc, if_false, Option.map_id']

/-- What a performed write does to a channel of the store. -/
theorem standing_perform {nextTemp : ℤ} {result : Record}
    (hperform : live.perform server (w.rename ρ) = .ok (result, live'))
    (hreal : w.CarriesReal) (hρ : ∀ n, 0 ≤ n → ρ n = n)
    (haddressed : ∀ c ∈ w.channelIds, ρ c = resolve remap c)
    (hcreated : w.isCreate → resolve remap nextTemp = server.alloc live.created) (c : ℤ) :
    (live'.channels.get? c).map standingOf =
      standingAfter remap nextTemp server.defaults (liveNumbers server live remap w) c
        ((live.channels.get? c).map standingOf) w := by
  have hdata : ∀ {data : Record}, data.Real → data.rename ρ = data :=
    fun h => Record.rename_eq_self fun n hn => hρ n (h n hn)
  cases w with
  | createChannel data =>
    rw [Write.rename, hdata hreal] at hperform
    obtain rfl := congrArg Prod.snd (Except.ok.inj hperform)
    rw [Dict.get?_set, standingAfter, hcreated rfl]
    split
    case isTrue => rw [Option.map_some, standingOf_set_id, standingOf_update]
    case isFalse => rfl
  | createChannelGroup name =>
    obtain rfl := congrArg Prod.snd (Except.ok.inj hperform)
    rfl
  | createLogo data =>
    obtain rfl := congrArg Prod.snd (Except.ok.inj hperform)
    rfl
  | updateChannel c' data =>
    rw [Write.rename, hdata hreal, haddressed c' (by simp [Write.channelIds])] at hperform
    cases hget : live.channels.get? (resolve remap c') with
    | none => simp [Live.perform, hget] at hperform
    | some channel =>
      simp only [Live.perform, hget] at hperform
      obtain rfl := congrArg Prod.snd (Except.ok.inj hperform)
      rw [Dict.get?_set, standingAfter]
      split
      case isTrue heq =>
        rw [← heq, hget, Option.map_some, standingOf_set_id, standingOf_update]
        rfl
      case isFalse => rfl
  | deleteChannel c' =>
    rw [Write.rename, haddressed c' (by simp [Write.channelIds])] at hperform
    by_cases hmem : resolve remap c' ∈ live.channels
    · simp only [Live.perform, hmem, if_true] at hperform
      obtain rfl := congrArg Prod.snd (Except.ok.inj hperform)
      rw [Dict.get?_erase, standingAfter]
      split <;> rfl
    · simp [Live.perform, hmem] at hperform
  | deleteChannelGroup g =>
    by_cases hmem : ρ g ∈ live.groups
    · simp only [Write.rename, Live.perform, hmem, if_true] at hperform
      obtain rfl := congrArg Prod.snd (Except.ok.inj hperform)
      rfl
    · simp [Write.rename, Live.perform, hmem] at hperform
  | assignChannelNumbers ids startingNumber =>
    have hids : ids.map ρ = ids.map (resolve remap) := List.map_congr_left haddressed
    have hstart : ids = [] ∨ startingNumber.rename ρ = startingNumber :=
      hreal.imp_right fun h => Json.rename_eq_self _ fun n hn => hρ n (h n hn)
    have hnumbers : (ids.map ρ).zipIdx.map (fun e =>
          (e.1, live.numberAt server (ids.map ρ) (startingNumber.rename ρ) e.2)) =
        liveNumbers server live remap (.assignChannelNumbers ids startingNumber) := by
      rcases hstart with rfl | hstart
      · rfl
      · rw [hids, hstart, liveNumbers]
    by_cases hall : ∀ c ∈ ids.map ρ, c ∈ live.channels
    · simp only [Write.rename, Live.perform, if_pos hall] at hperform
      obtain rfl := congrArg Prod.snd (Except.ok.inj hperform)
      rw [hnumbers]
      exact standing_setNumbers _ _ c
    · rw [Write.rename, Live.perform, if_neg hall] at hperform
      cases hperform
  | updateProfileChannel p c' data =>
    cases hprofile : live.profiles.get? (ρ p) with
    | none => simp [Write.rename, Live.perform, hprofile] at hperform
    | some members =>
      by_cases hmem : ρ c' ∈ live.channels
      · simp only [Write.rename, Live.perform, hprofile, hmem, if_true] at hperform
        obtain rfl := congrArg Prod.snd (Except.ok.inj hperform)
        rfl
      · simp [Write.rename, Live.perform, hprofile, hmem] at hperform

end Store

end ChannelManager.Plans
