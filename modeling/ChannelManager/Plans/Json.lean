import ChannelManager.Lib.Dict
import Mathlib.Algebra.Order.Ring.Rat
import Mathlib.Data.List.Sort

/-!
# JSON values

The values that requests carry and Dispatcharr answers with, the integers in them and what it is
to rewrite these integers, everywhere and in nested lists and dicts too.
-/

namespace ChannelManager

/-- A decoded JSON value; a finite float is an exact rational. -/
inductive Json where
  | null
  | bool (b : Bool)
  | int (n : ℤ)
  | float (q : ℚ)
  | str (s : String)
  | list (items : List Json)
  | dict (fields : List (String × Json))

namespace Json

mutual

/-- Equality of values is decided along their structure. -/
def decEq : (v w : Json) → Decidable (v = w)
  | .null, w => match w with
    | .null => isTrue rfl
    | .bool _ | .int _ | .float _ | .str _ | .list _ | .dict _ => isFalse nofun
  | .bool b, w => match w with
    | .bool c => decidable_of_iff (b = c) (by simp)
    | .null | .int _ | .float _ | .str _ | .list _ | .dict _ => isFalse nofun
  | .int n, w => match w with
    | .int m => decidable_of_iff (n = m) (by simp)
    | .null | .bool _ | .float _ | .str _ | .list _ | .dict _ => isFalse nofun
  | .float p, w => match w with
    | .float q => decidable_of_iff (p = q) (by simp)
    | .null | .bool _ | .int _ | .str _ | .list _ | .dict _ => isFalse nofun
  | .str s, w => match w with
    | .str t => decidable_of_iff (s = t) (by simp)
    | .null | .bool _ | .int _ | .float _ | .list _ | .dict _ => isFalse nofun
  | .list vs, w => match w with
    | .list ws => have := decEqItems vs ws; decidable_of_iff (vs = ws) (by simp)
    | .null | .bool _ | .int _ | .float _ | .str _ | .dict _ => isFalse nofun
  | .dict es, w => match w with
    | .dict fs => have := decEqFields es fs; decidable_of_iff (es = fs) (by simp)
    | .null | .bool _ | .int _ | .float _ | .str _ | .list _ => isFalse nofun

def decEqItems : (vs ws : List Json) → Decidable (vs = ws)
  | [], [] => isTrue rfl
  | [], _ :: _ | _ :: _, [] => isFalse nofun
  | v :: vs, w :: ws =>
    have := decEq v w
    have := decEqItems vs ws
    decidable_of_iff (v = w ∧ vs = ws) (by simp)

def decEqFields : (es fs : List (String × Json)) → Decidable (es = fs)
  | [], [] => isTrue rfl
  | [], _ :: _ | _ :: _, [] => isFalse nofun
  | (k, v) :: es, (l, w) :: fs =>
    have := decEq v w
    have := decEqFields es fs
    decidable_of_iff (k = l ∧ v = w ∧ es = fs) (by simp [and_assoc])

end

instance : DecidableEq Json := decEq

mutual

/-- The integers in a value. -/
def ints : Json → List ℤ
  | .int n => [n]
  | .list items => intsOfItems items
  | .dict fields => intsOfFields fields
  | _ => []

def intsOfItems : List Json → List ℤ
  | [] => []
  | v :: vs => v.ints ++ intsOfItems vs

def intsOfFields : List (String × Json) → List ℤ
  | [] => []
  | (_, v) :: es => v.ints ++ intsOfFields es

end

mutual

/-- Every integer rewritten. -/
def rename (ρ : ℤ → ℤ) : Json → Json
  | .int n => .int (ρ n)
  | .list items => .list (renameItems ρ items)
  | .dict fields => .dict (renameFields ρ fields)
  | v => v

def renameItems (ρ : ℤ → ℤ) : List Json → List Json
  | [] => []
  | v :: vs => v.rename ρ :: renameItems ρ vs

def renameFields (ρ : ℤ → ℤ) : List (String × Json) → List (String × Json)
  | [] => []
  | (k, v) :: es => (k, v.rename ρ) :: renameFields ρ es

end

mutual

/-- Every integer looked up, which may fail. -/
def mapInts (f : ℤ → Except String ℤ) : Json → Except String Json
  | .int n => return .int (← f n)
  | .list items => return .list (← mapIntsItems f items)
  | .dict fields => return .dict (← mapIntsFields f fields)
  | v => return v

def mapIntsItems (f : ℤ → Except String ℤ) : List Json → Except String (List Json)
  | [] => return []
  | v :: vs => return (← v.mapInts f) :: (← mapIntsItems f vs)

def mapIntsFields (f : ℤ → Except String ℤ) :
    List (String × Json) → Except String (List (String × Json))
  | [] => return []
  | (k, v) :: es => return (k, ← v.mapInts f) :: (← mapIntsFields f es)

end

mutual

/-- The value with the fields of every dict in key order: what `json.dumps` writes with
`sort_keys`. -/
def canonical : Json → Json
  | .list items => .list (canonicalItems items)
  | .dict fields => .dict ((canonicalFields fields).insertionSort fun e e' => e.1 ≤ e'.1)
  | v => v

def canonicalItems : List Json → List Json
  | [] => []
  | v :: vs => v.canonical :: canonicalItems vs

def canonicalFields : List (String × Json) → List (String × Json)
  | [] => []
  | (k, v) :: es => (k, v.canonical) :: canonicalFields es

end

/-- Python's truth value. -/
def truthy : Json → Bool
  | .null => false
  | .bool b => b
  | .int n => n ≠ 0
  | .float q => q ≠ 0
  | .str s => s ≠ ""
  | .list items => items ≠ []
  | .dict fields => !fields.isEmpty

def int? : Json → Option ℤ
  | .int n => some n
  | _ => none

/-- A field of a value that is a dict. -/
def field? (v : Json) (key : String) : Option Json :=
  match v with
  | .dict fields => findEntry key fields
  | _ => none

/-- Python's `list(…)`. -/
def toList : Json → Except String (List Json)
  | .list items => .ok items
  | .str s => .ok (s.toList.map fun c => .str c.toString)
  | .dict fields => .ok (fields.map fun e => .str e.1)
  | _ => .error "object is not iterable"

/-- `value or []`. -/
def orEmpty (v : Json) : Json := if v.truthy then v else .list []

mutual

theorem mapInts_eq {f : ℤ → Except String ℤ} {ρ : ℤ → ℤ} :
    (v : Json) → (∀ n ∈ v.ints, f n = .ok (ρ n)) → v.mapInts f = .ok (v.rename ρ)
  | .null, _ | .bool _, _ | .float _, _ | .str _, _ => rfl
  | .int n, h => by
    rw [mapInts, h n (by simp [ints])]
    rfl
  | .list items, h => by
    rw [mapInts, mapIntsItems_eq items h]
    rfl
  | .dict fields, h => by
    rw [mapInts, mapIntsFields_eq fields h]
    rfl

theorem mapIntsItems_eq {f : ℤ → Except String ℤ} {ρ : ℤ → ℤ} :
    (vs : List Json) → (∀ n ∈ intsOfItems vs, f n = .ok (ρ n)) →
      mapIntsItems f vs = .ok (renameItems ρ vs)
  | [], _ => rfl
  | v :: vs, h => by
    rw [mapIntsItems, mapInts_eq v fun n hn => h n (by simp [intsOfItems, hn]),
      mapIntsItems_eq vs fun n hn => h n (by simp [intsOfItems, hn])]
    rfl

theorem mapIntsFields_eq {f : ℤ → Except String ℤ} {ρ : ℤ → ℤ} :
    (es : List (String × Json)) → (∀ n ∈ intsOfFields es, f n = .ok (ρ n)) →
      mapIntsFields f es = .ok (renameFields ρ es)
  | [], _ => rfl
  | (k, v) :: es, h => by
    rw [mapIntsFields, mapInts_eq v fun n hn => h n (by simp [intsOfFields, hn]),
      mapIntsFields_eq es fun n hn => h n (by simp [intsOfFields, hn])]
    rfl

end

mutual

theorem found_of_mapInts {f : ℤ → Except String ℤ} :
    (v w : Json) → v.mapInts f = .ok w → ∀ n ∈ v.ints, ∃ m, f n = .ok m
  | .null, _, _ | .bool _, _, _ | .float _, _, _ | .str _, _, _ => by simp [ints]
  | .int n, w, h => by
    cases hn : f n with
    | error e =>
      rw [mapInts, hn] at h
      cases h
    | ok m => simp [ints, hn]
  | .list items, w, h => by
    cases hs : mapIntsItems f items with
    | error e =>
      rw [mapInts, hs] at h
      cases h
    | ok ws => exact found_of_mapIntsItems items ws hs
  | .dict fields, w, h => by
    cases hs : mapIntsFields f fields with
    | error e =>
      rw [mapInts, hs] at h
      cases h
    | ok fs => exact found_of_mapIntsFields fields fs hs

theorem found_of_mapIntsItems {f : ℤ → Except String ℤ} :
    (vs ws : List Json) → mapIntsItems f vs = .ok ws → ∀ n ∈ intsOfItems vs, ∃ m, f n = .ok m
  | [], _, _ => by simp [intsOfItems]
  | v :: vs, ws, h => by
    cases hv : v.mapInts f with
    | error e =>
      rw [mapIntsItems, hv] at h
      cases h
    | ok w =>
      cases hs : mapIntsItems f vs with
      | error e =>
        rw [mapIntsItems, hv, hs] at h
        cases h
      | ok ws' =>
        intro n hn
        rcases List.mem_append.mp hn with hn | hn
        · exact found_of_mapInts v w hv n hn
        · exact found_of_mapIntsItems vs ws' hs n hn

theorem found_of_mapIntsFields {f : ℤ → Except String ℤ} :
    (es fs : List (String × Json)) → mapIntsFields f es = .ok fs →
      ∀ n ∈ intsOfFields es, ∃ m, f n = .ok m
  | [], _, _ => by simp [intsOfFields]
  | (k, v) :: es, fs, h => by
    cases hv : v.mapInts f with
    | error e =>
      rw [mapIntsFields, hv] at h
      cases h
    | ok w =>
      cases hs : mapIntsFields f es with
      | error e =>
        rw [mapIntsFields, hv, hs] at h
        cases h
      | ok fs' =>
        intro n hn
        rcases List.mem_append.mp hn with hn | hn
        · exact found_of_mapInts v w hv n hn
        · exact found_of_mapIntsFields es fs' hs n hn

end

mutual

theorem rename_eq_self {ρ : ℤ → ℤ} : (v : Json) → (∀ n ∈ v.ints, ρ n = n) → v.rename ρ = v
  | .null, _ | .bool _, _ | .float _, _ | .str _, _ => rfl
  | .int n, h => by rw [rename, h n (by simp [ints])]
  | .list items, h => by rw [rename, renameItems_eq_self items h]
  | .dict fields, h => by rw [rename, renameFields_eq_self fields h]

theorem renameItems_eq_self {ρ : ℤ → ℤ} :
    (vs : List Json) → (∀ n ∈ intsOfItems vs, ρ n = n) → renameItems ρ vs = vs
  | [], _ => rfl
  | v :: vs, h => by
    rw [renameItems, rename_eq_self v fun n hn => h n (by simp [intsOfItems, hn]),
      renameItems_eq_self vs fun n hn => h n (by simp [intsOfItems, hn])]

theorem renameFields_eq_self {ρ : ℤ → ℤ} :
    (es : List (String × Json)) → (∀ n ∈ intsOfFields es, ρ n = n) → renameFields ρ es = es
  | [], _ => rfl
  | (k, v) :: es, h => by
    rw [renameFields, rename_eq_self v fun n hn => h n (by simp [intsOfFields, hn]),
      renameFields_eq_self es fun n hn => h n (by simp [intsOfFields, hn])]

end

theorem intsOfItems_eq_flatMap (vs : List Json) : intsOfItems vs = vs.flatMap ints := by
  induction vs with
  | nil => rfl
  | cons v vs ih => rw [intsOfItems, ih, List.flatMap_cons]

theorem intsOfFields_eq_flatMap (es : List (String × Json)) :
    intsOfFields es = es.flatMap fun e => e.2.ints := by
  induction es with
  | nil => rfl
  | cons e es ih => rw [intsOfFields, ih, List.flatMap_cons]

/-- No integer in the value is negative, as temporary ids are. -/
def Real (v : Json) : Prop := ∀ n ∈ v.ints, 0 ≤ n

theorem real_null : Real .null := fun _ hn => absurd hn List.not_mem_nil

theorem renameFields_eq_map (ρ : ℤ → ℤ) (es : List (String × Json)) :
    renameFields ρ es = es.map fun e => (e.1, e.2.rename ρ) := by
  induction es with
  | nil => rfl
  | cons e es ih => rw [renameFields, ih, List.map_cons]

end Json

/-- A JSON object: what a channel, a group or a logo is, and what a write sends. -/
abbrev Record := Dict String Json

namespace Record

/-- `record.get(key)`. -/
def read (r : Record) (key : String) : Json := (r.get? key).getD .null

/-- The integers in the values. -/
def ints (r : Record) : List ℤ := Json.intsOfFields r.items

/-- Every integer of the values rewritten. -/
def rename (ρ : ℤ → ℤ) (r : Record) : Record where
  items := r.items.map fun e => (e.1, e.2.rename ρ)
  nodup_keys := by simpa [Function.comp_def] using r.nodup_keys

/-- Every integer of the values looked up. -/
def mapInts (f : ℤ → Except String ℤ) (r : Record) : Except String Record :=
  return Dict.ofList (← Json.mapIntsFields f r.items)

theorem mapInts_eq {f : ℤ → Except String ℤ} {ρ : ℤ → ℤ} {r : Record}
    (h : ∀ n ∈ r.ints, f n = .ok (ρ n)) : r.mapInts f = .ok (r.rename ρ) := by
  have hfields := Json.mapIntsFields_eq r.items h
  have hdict : Dict.ofList (Json.renameFields ρ r.items) = r.rename ρ := by
    have hitems := Dict.items_ofList (r.rename ρ).items (r.rename ρ).nodup_keys
    rw [Json.renameFields_eq_map]
    exact Dict.ext hitems
  rw [mapInts, hfields, ← hdict]
  rfl

theorem found_of_mapInts {f : ℤ → Except String ℤ} {r r' : Record} (h : r.mapInts f = .ok r') :
    ∀ n ∈ r.ints, ∃ m, f n = .ok m := by
  cases hs : Json.mapIntsFields f r.items with
  | error e =>
    rw [mapInts, hs] at h
    cases h
  | ok fs => exact Json.found_of_mapIntsFields r.items fs hs

theorem get?_rename (ρ : ℤ → ℤ) (r : Record) (key : String) :
    (r.rename ρ).get? key = (r.get? key).map (Json.rename ρ) := by
  have h : ∀ es : List (String × Json),
      findEntry key (es.map fun e => (e.1, e.2.rename ρ)) =
        (findEntry key es).map (Json.rename ρ) := by
    intro es
    induction es with
    | nil => rfl
    | cons e es ih =>
      rw [List.map_cons, findEntry, findEntry, ih]
      split <;> rfl
  exact h r.items

theorem read_rename (ρ : ℤ → ℤ) (r : Record) (key : String) :
    (r.rename ρ).read key = (r.read key).rename ρ := by
  rw [read, get?_rename, read]
  cases r.get? key <;> rfl

theorem read_set (r : Record) (key key' : String) (v : Json) :
    read (r.set key v) key' = if key = key' then v else r.read key' := by
  rw [read, Dict.get?_set]
  split <;> rfl

theorem mem_ints {r : Record} {n : ℤ} :
    n ∈ r.ints ↔ ∃ key v, r.get? key = some v ∧ n ∈ v.ints := by
  simp [ints, Json.intsOfFields_eq_flatMap, Dict.get?_eq_some]

/-- No integer in the values is negative. -/
def Real (r : Record) : Prop := ∀ n ∈ r.ints, 0 ≤ n

theorem real_iff {r : Record} : r.Real ↔ ∀ key v, r.get? key = some v → v.Real := by
  constructor
  · intro h key v hget n hn
    exact h n (mem_ints.mpr ⟨key, v, hget, hn⟩)
  · intro h n hn
    obtain ⟨key, v, hget, hn⟩ := mem_ints.mp hn
    exact h key v hget n hn

theorem real_dict {r : Record} : (Json.dict r.items).Real ↔ r.Real := Iff.rfl

theorem Real.read {r : Record} (h : r.Real) (key : String) : (r.read key).Real := by
  unfold Record.read
  cases hget : r.get? key with
  | none => exact Json.real_null
  | some v => exact real_iff.mp h key v hget

theorem Real.set {r : Record} (h : r.Real) {v : Json} (hv : v.Real) (key : String) :
    Real (r.set key v) := by
  rw [real_iff]
  intro key' v' hget
  rw [Dict.get?_set] at hget
  split at hget
  · exact (Option.some.inj hget) ▸ hv
  · exact real_iff.mp h key' v' hget

theorem Real.update {r data : Record} (h : r.Real) (hdata : data.Real) :
    Real (r.update data) := by
  rw [real_iff]
  intro key v hget
  rw [Dict.get?_update] at hget
  rcases Option.or_eq_some_iff.mp hget with hget | ⟨-, hget⟩
  · exact real_iff.mp hdata key v hget
  · exact real_iff.mp h key v hget

theorem Real.erase {r : Record} (h : r.Real) (key : String) : Real (r.erase key) := by
  rw [real_iff]
  intro key' v hget
  rw [Dict.get?_erase] at hget
  split at hget
  · simp at hget
  · exact real_iff.mp h key' v hget

theorem real_empty : Real ∅ := fun _ hn => absurd hn List.not_mem_nil

theorem rename_eq_self {ρ : ℤ → ℤ} {r : Record} (h : ∀ n ∈ r.ints, ρ n = n) : r.rename ρ = r := by
  apply Dict.ext
  exact (Json.renameFields_eq_map ρ r.items).symm.trans (Json.renameFields_eq_self r.items h)

theorem read_update (r data : Record) (key : String) :
    read (r.update data) key = if key ∈ data then data.read key else r.read key := by
  rw [read, Dict.get?_update]
  split
  case isTrue h =>
    obtain ⟨v, hv⟩ := Option.isSome_iff_exists.mp ((Dict.isSome_get? data key).mpr h)
    simp [read, hv]
  case isFalse h =>
    rw [(Dict.get?_eq_none data key).mpr h, Option.none_or]
    rfl

end Record

end ChannelManager
