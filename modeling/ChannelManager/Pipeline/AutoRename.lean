import ChannelManager.Lib.Dict
import ChannelManager.Lib.Strip
import Mathlib

/-!
# Renaming after a renumber

Pass 3 gives the channels of a rule their numbers and then renames those whose name has the old number.
It reads the old number from the channels it has just numbered.
-/

namespace ChannelManager.Pipeline.Renumber

/-- A channel as Dispatcharr has it. -/
structure NumberedChannel where
  name : String
  channelNumber : Option ℚ
deriving DecidableEq

/-- What `str` makes of a float that is no whole number: it has a point or an exponent. -/
structure FloatText where
  text : ℚ → String
  marked : ∀ q, q.den ≠ 1 → '.' ∈ (text q).toList ∨ 'e' ∈ (text q).toList

/-- `str(int(n) if n == int(n) else n)`. -/
def FloatText.numberText (float : FloatText) (q : ℚ) : List Char :=
  if q.den = 1 then (toString q.num).toList else (float.text q).toList

section Pattern

variable (number : List Char)

/-- `number([^0-9]|$)` after what the first group took: the groups and what is left. -/
def matchAfter (group : List Char) (s : List Char) : Option (List Char × List Char × List Char) :=
  if number.isPrefixOf s then
    match s.drop number.length with
    | [] => some (group, [], [])
    | c :: rest => if c.isDigit then none else some (group, [c], rest)
  else none

/-- `(^|[^0-9])number([^0-9]|$)` at one place of a name. -/
def matchNumber (atStart : Bool) (s : List Char) : Option (List Char × List Char × List Char) :=
  (if atStart then matchAfter number [] s else none).or
    (match s with
    | [] => none
    | c :: rest => if c.isDigit then none else matchAfter number [c] rest)

/-- `pattern.search`. -/
def searchNumber : Bool → List Char → Bool
  | atStart, [] => (matchNumber number atStart []).isSome
  | atStart, c :: rest => (matchNumber number atStart (c :: rest)).isSome || searchNumber false rest

/-- `pattern.sub`; `skip` characters of the last match are still to be passed over. -/
def subNumber (newNumber : List Char) : Bool → ℕ → List Char → List Char
  | _, _, [] => []
  | _, skip + 1, _ :: rest => subNumber newNumber false skip rest
  | atStart, 0, c :: rest =>
    match matchNumber number atStart (c :: rest) with
    | some (before, after, left) =>
      before ++ newNumber ++ after ++ subNumber newNumber false (rest.length - left.length) rest
    | none => c :: subNumber newNumber false 0 rest

end Pattern

section Pass

variable (float : FloatText)

/-- Dispatcharr numbers the channels one after the other. -/
def assignChannelNumbers (channelIds : List ℤ) (startingNumber : ℤ) (channels : Dict ℤ NumberedChannel) :
    Dict ℤ NumberedChannel :=
  channels.mapValues fun c channel =>
    if c ∈ channelIds then { channel with channelNumber := some (startingNumber + channelIds.idxOf c) }
    else channel

/-- Rename a channel that is to have this number. -/
def autoRename (newNumber : ℚ) (channelId : ℤ) (acc : Dict ℤ NumberedChannel × ℕ) :
    Dict ℤ NumberedChannel × ℕ :=
  match acc.1.get? channelId with
  | none => acc
  | some channel =>
    match channel.channelNumber with
    | none => acc
    | some oldNumber =>
      if oldNumber = newNumber ∨ channel.name = "" then acc
      else
        let old := float.numberText oldNumber
        let name := channel.name.toList
        if searchNumber old true name then
          let newName := subNumber old (float.numberText newNumber) true 0 name
          if newName ≠ name then
            (acc.1.set channelId { channel with name := String.ofList newName }, acc.2 + 1)
          else acc
        else acc

/-- `_auto_rename_after_renumber`: the channels and how many were renamed. -/
def autoRenameAfterRenumber (enabled : Bool) (channelIds : List ℤ) (startingNumber : Option ℤ)
    (channels : Dict ℤ NumberedChannel) : Dict ℤ NumberedChannel × ℕ :=
  match startingNumber with
  | none => (channels, 0)
  | some start =>
    if enabled then
      channelIds.zipIdx.foldl (fun acc e => autoRename float (start + e.2) e.1 acc) (channels, 0)
    else (channels, 0)

/-- Pass 3 for the channels noted for a rule. -/
def renumberPass (enabled : Bool) (order : List ℤ) (startingNumber : ℤ)
    (channels : Dict ℤ NumberedChannel) : Dict ℤ NumberedChannel × ℕ :=
  let channelIds := firsts order
  autoRenameAfterRenumber float enabled channelIds (some startingNumber)
    (assignChannelNumbers channelIds startingNumber channels)

/-- The names go with the numbers: in the name of a channel moved the new number stands wherever the old
one stood by itself, the other names are kept, and the channels renamed are counted. -/
structure InStep (before after : Dict ℤ NumberedChannel) (renamed : ℕ) : Prop where
  moved : ∀ c channel channel' a b, before.get? c = some channel → after.get? c = some channel' →
    channel.channelNumber = some a → channel'.channelNumber = some b → a ≠ b →
      channel'.name.toList = replaceAlone Char.isDigit (float.numberText a) (float.numberText b) false 0
        channel.name.toList
  kept : ∀ c channel channel', before.get? c = some channel → after.get? c = some channel' →
    channel'.channelNumber = channel.channelNumber → channel'.name = channel.name
  counted : renamed = before.keys.countP fun c =>
    (after.get? c).map NumberedChannel.name ≠ (before.get? c).map NumberedChannel.name

variable {float}

theorem get?_assignChannelNumbers (channelIds : List ℤ) (start : ℤ) (channels : Dict ℤ NumberedChannel)
    (c : ℤ) :
    (assignChannelNumbers channelIds start channels).get? c = (channels.get? c).map fun channel =>
      if c ∈ channelIds then { channel with channelNumber := some (start + channelIds.idxOf c) }
      else channel :=
  Dict.get?_mapValues _ _ _

/-- A channel that has its number already is not renamed. -/
theorem autoRename_of_numbered {newNumber : ℚ} {channelId : ℤ} {acc : Dict ℤ NumberedChannel × ℕ}
    (h : ∀ channel, acc.1.get? channelId = some channel → channel.channelNumber = some newNumber) :
    autoRename float newNumber channelId acc = acc := by
  rw [autoRename]
  cases hget : acc.1.get? channelId with
  | none => rfl
  | some channel => simp [h channel hget]

/-- Pass 3 renames nothing. -/
theorem renumberPass_eq (enabled : Bool) (order : List ℤ) (start : ℤ) (channels : Dict ℤ NumberedChannel) :
    renumberPass float enabled order start channels =
      (assignChannelNumbers (firsts order) start channels, 0) := by
  have hstep : ∀ e ∈ (firsts order).zipIdx,
      autoRename float (start + e.2) e.1 (assignChannelNumbers (firsts order) start channels, 0) =
        (assignChannelNumbers (firsts order) start channels, 0) := by
    rintro ⟨c, idx⟩ he
    refine autoRename_of_numbered fun channel hchannel => ?_
    obtain ⟨hidx, hc⟩ := List.getElem?_eq_some_iff.mp (List.mk_mem_zipIdx_iff_getElem?.mp he)
    have hmem : c ∈ firsts order := hc ▸ List.getElem_mem hidx
    have hidxOf : (firsts order).idxOf c = idx := hc ▸ (nodup_firsts order).idxOf_getElem idx hidx
    dsimp only at hchannel ⊢
    rw [get?_assignChannelNumbers] at hchannel
    obtain ⟨_, _, rfl⟩ := Option.map_eq_some_iff.mp hchannel
    rw [if_pos hmem, hidxOf]
  rw [renumberPass, autoRenameAfterRenumber]
  split
  · exact List.foldlRecOn (motive := fun acc => acc = (assignChannelNumbers (firsts order) start channels, 0))
      _ _ rfl fun acc hacc e he => hacc ▸ hstep e he
  · rfl

/-! ## Texts of numbers -/

theorem toString_int_chars (n : ℤ) : ∀ c ∈ (toString n).toList, c.isDigit = true ∨ c = '-' := by
  intro c hc
  change c ∈ n.repr.toList at hc
  rw [Int.repr_eq_if] at hc
  split at hc
  · rw [Nat.toList_repr] at hc
    exact .inl (Nat.isDigit_of_mem_toDigits (by decide) (by decide) hc)
  · rw [String.toList_append, Nat.toList_repr, List.mem_append] at hc
    cases hc with
    | inl hminus => exact .inr (by simpa using hminus)
    | inr hdigit => exact .inl (Nat.isDigit_of_mem_toDigits (by decide) (by decide) hdigit)

theorem toString_int_ne_nil (n : ℤ) : (toString n).toList ≠ [] := by
  change n.repr.toList ≠ []
  rw [Int.repr_eq_if]
  split
  · rw [Nat.toList_repr]
    exact Nat.toDigits_ne_nil
  · simp

theorem numberText_ne_nil (a : ℚ) : float.numberText a ≠ [] := by
  rw [FloatText.numberText]
  split
  · exact toString_int_ne_nil a.num
  · rename_i hden
    intro hnil
    have hmarked := float.marked a hden
    rw [hnil] at hmarked
    simp at hmarked

/-- The text of a whole number is that of no other number. -/
theorem numberText_ne (float : FloatText) {a : ℚ} {n : ℤ} (h : a ≠ n) : float.numberText a ≠ float.numberText n := by
  have hwhole : float.numberText n = (toString n).toList := by simp [FloatText.numberText]
  rw [hwhole, FloatText.numberText]
  split
  · rename_i hden
    intro heq
    have hnum : a.num = n := Int.repr_injective (String.toList_injective heq)
    exact h (hnum ▸ (Rat.den_eq_one_iff a).mp hden).symm
  · rename_i hden
    intro heq
    have hchars := toString_int_chars n
    rw [← heq] at hchars
    cases float.marked a hden with
    | inl hpoint => exact absurd (hchars _ hpoint) (by decide)
    | inr hexponent => exact absurd (hchars _ hexponent) (by decide)

/-- When the names of a pass go with the numbers: no channel that is moved has its old number in its name. -/
theorem inStep_iff (order : List ℤ) (start : ℤ) (channels : Dict ℤ NumberedChannel) :
    let pass := renumberPass float true order start channels
    InStep float channels pass.1 pass.2 ↔
      ∀ c ∈ order, ∀ channel a, channels.get? c = some channel → channel.channelNumber = some a →
        a ≠ start + (firsts order).idxOf c →
          ¬ OccursAlone Char.isDigit (float.numberText a) false channel.name.toList := by
  dsimp only
  rw [renumberPass_eq]
  constructor
  · intro h c hc channel a hget hnumber hmoved
    have hafter := get?_assignChannelNumbers (firsts order) start channels c
    rw [hget, Option.map_some, if_pos (mem_firsts.mpr hc)] at hafter
    have hname := h.moved c channel _ a _ hget hafter hnumber rfl hmoved
    have hnumber : a ≠ (start + (firsts order).idxOf c : ℤ) := by exact_mod_cast hmoved
    have hne := numberText_ne float hnumber
    push_cast at hne
    exact (replaceAlone_eq_self_iff (numberText_ne_nil a) hne).mp hname.symm
  · intro h
    have hafter := get?_assignChannelNumbers (firsts order) start channels
    have hname : ∀ c channel channel', channels.get? c = some channel →
        (assignChannelNumbers (firsts order) start channels).get? c = some channel' →
          channel'.name = channel.name := by
      intro c channel channel' hget hget'
      rw [hafter, hget, Option.map_some, Option.some_inj] at hget'
      subst hget'
      split <;> rfl
    refine ⟨?_, fun c channel channel' hget hget' _ => hname c channel channel' hget hget', ?_⟩
    · intro c channel channel' a b hget hget' hnumber hnumber' hmoved
      rw [hname c channel channel' hget hget']
      rw [hafter, hget, Option.map_some, Option.some_inj] at hget'
      subst hget'
      split at hnumber'
      · rename_i hc
        cases hnumber'
        exact (replaceAlone_of_not_occurs (h c (mem_firsts.mp hc) channel a hget hnumber hmoved)).symm
      · exact absurd (Option.some_inj.mp (hnumber.symm.trans hnumber')) hmoved
    · refine (List.countP_eq_zero.mpr fun c _ => ?_).symm
      rw [decide_eq_true_iff, not_not, hafter]
      cases channels.get? c with
      | none => rfl
      | some channel =>
        rw [Option.map_some, Option.map_some, Option.map_some]
        split <;> rfl

end Pass

section Sample

/-- Floats on the grid of tenths. -/
def tenthsText : FloatText where
  text q := toString (q.num / q.den) ++ "." ++ toString (10 * (q.num % q.den) / q.den)
  marked q _ := .inl (by simp)

/-- Channel 5 is moved to 7 and keeps its name. -/
theorem rename_after_assign :
    ¬ ∀ (float : FloatText) (order : List ℤ) (start : ℤ) (channels : Dict ℤ NumberedChannel),
      let pass := renumberPass float true order start channels
      InStep float channels pass.1 pass.2 := by
  intro hclaim
  have hsample := (hclaim tenthsText [1] 7 (Dict.ofList [(1, ⟨"5 | news", some 5⟩)])).moved 1
    ⟨"5 | news", some 5⟩ ⟨"5 | news", some 7⟩ 5 7
  exact absurd (hsample (by decide +kernel) (by decide +kernel) rfl rfl (by norm_num)) (by decide +kernel)

end Sample

end ChannelManager.Pipeline.Renumber
