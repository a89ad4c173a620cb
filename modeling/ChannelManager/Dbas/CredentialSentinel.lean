import ChannelManager.Dbas.StreamBindings
import ChannelManager.Plans.JsonPath
import ChannelManager.Templates.Segment

/-!
# Stripping the marker from a payload

The backup puts a marker where a credential was. A restore drops the keys that hold it and keeps
their dotted paths, by which it later reads what the destination has at the same place.
-/

namespace ChannelManager.Dbas.Credential

open Templates

abbrev sentinel : Json := .str redactionSentinel

def isRedactionSentinel (v : Json) : Bool := v = sentinel

/-- `f"{prefix}.{key}" if prefix else str(key)` -/
def keyPath (before : Text) (key : String) : Text :=
  if before = [] then key.toList else before ++ '.' :: key.toList

/-- `f"{prefix}[{index}]"` -/
def itemPath (before : Text) (index : ℕ) : Text := before ++ '[' :: (Nat.toDigits 10 index ++ [']'])

mutual

/-- `_strip`: the value without the keys that hold the marker, and the paths of these. A list keeps all
its items. -/
def strip (before : Text) : Json → Json × List Text
  | .dict fields => (.dict (stripFields before fields).1, (stripFields before fields).2)
  | .list items => (.list (stripItems before 0 items).1, (stripItems before 0 items).2)
  | v => (v, [])

def stripFields (before : Text) : List (String × Json) → List (String × Json) × List Text
  | [] => ([], [])
  | (key, value) :: fields =>
    let path := keyPath before key
    let rest := stripFields before fields
    if isRedactionSentinel value then (rest.1, path :: rest.2)
    else ((key, (strip path value).1) :: rest.1, (strip path value).2 ++ rest.2)

def stripItems (before : Text) (index : ℕ) : List Json → List Json × List Text
  | [] => ([], [])
  | item :: items =>
    let path := itemPath before index
    let rest := stripItems before (index + 1) items
    ((strip path item).1 :: rest.1, (strip path item).2 ++ rest.2)

end

/-- The characters `\d` matches and the values `int` gives them. -/
structure Digits where
  value : Char → Option ℕ
  ascii : ∀ c : Char, c.isDigit → value c = some (c.toNat - '0'.toNat)
  opening : value '[' = none
  closing : value ']' = none

/-- `_INDEX_PATTERN.findall`: the runs of digits that end at a `]`. `run` is the run up to here. -/
def findIndexes (digits : Digits) (run : Option ℕ) : Text → List ℕ
  | [] => []
  | c :: t =>
    match digits.value c with
    | some d => findIndexes digits (some (10 * run.getD 0 + d)) t
    | none => if c = ']' then run.toList ++ findIndexes digits none t else findIndexes digits none t

/-- One turn of the loop of `value_at_path`. -/
def valueAtSegment (digits : Digits) (node : Json) (segment : Text) : Option Json := do
  let (key, indexes) := cut '[' segment
  let node ← if key = [] then some node else node.step? (.key (String.ofList key))
  (findIndexes digits none (indexes.getD [])).foldlM (fun node i => node.step? (.index i)) node

/-- `value_at_path` -/
def valueAtPath (digits : Digits) (payload : Json) (path : Text) : Json :=
  ((path.splitOn '.').foldlM (valueAtSegment digits) payload).getD .null

/-! ### What is left of a value -/

/-- The value without the keys that hold the marker. -/
def cleaned (v : Json) : Json := (strip [] v).1

def held (fields : List (String × Json)) : List (String × Json) :=
  fields.filter fun e => !isRedactionSentinel e.2

theorem stripFields_eq (before : Text) (fields : List (String × Json)) :
    stripFields before fields =
      ((held fields).map fun e => (e.1, (strip (keyPath before e.1) e.2).1),
        fields.flatMap fun e => if isRedactionSentinel e.2 then [keyPath before e.1]
          else (strip (keyPath before e.1) e.2).2) := by
  induction fields with
  | nil => rfl
  | cons e fields ih =>
    rw [stripFields, ih]
    cases h : isRedactionSentinel e.2 with
    | false => simp [held, h]
    | true => simp [held, h]

theorem stripItems_eq (before : Text) (index : ℕ) (items : List Json) :
    stripItems before index items =
      ((items.zipIdx index).map fun e => (strip (itemPath before e.2) e.1).1,
        (items.zipIdx index).flatMap fun e => (strip (itemPath before e.2) e.1).2) := by
  induction items generalizing index with
  | nil => rfl
  | cons item items ih => rw [stripItems, ih, List.zipIdx_cons, List.map_cons, List.flatMap_cons]

theorem strip_scalar (before : Text) {v : Json} (h : v.scalar) : strip before v = (v, []) := by
  cases v with
  | list items => cases h
  | dict fields => cases h
  | _ => rfl

/-- What is left does not depend on the path so far. -/
theorem strip_fst (v : Json) : ∀ before, (strip before v).1 = cleaned v := by
  induction v using Json.structural with
  | scalar v h => simp [cleaned, strip_scalar _ h]
  | list items ih =>
    intro before
    simp only [cleaned, strip, stripItems_eq, Json.list.injEq]
    apply List.map_congr_left
    rintro ⟨item, i⟩ he
    have hitem := List.fst_mem_of_mem_zipIdx he
    rw [ih item hitem, ih item hitem]
  | dict fields ih =>
    intro before
    simp only [cleaned, strip, stripFields_eq, Json.dict.injEq]
    apply List.map_congr_left
    intro e he
    have hfield := List.mem_of_mem_filter he
    rw [ih e hfield, ih e hfield]

theorem cleaned_scalar {v : Json} (h : v.scalar) : cleaned v = v := by
  rw [cleaned, strip_scalar [] h]

theorem cleaned_list (items : List Json) : cleaned (.list items) = .list (items.map cleaned) := by
  have hitems : (items.zipIdx 0).map (fun e => cleaned e.1) = items.map cleaned :=
    (List.map_map.symm : _ = ((items.zipIdx 0).map Prod.fst).map cleaned).trans
      (by rw [List.zipIdx_map_fst])
  rw [cleaned, strip, stripItems_eq]
  simp only [strip_fst, hitems]

theorem cleaned_dict (fields : List (String × Json)) :
    cleaned (.dict fields) = .dict ((held fields).map fun e => (e.1, cleaned e.2)) := by
  rw [cleaned, strip, stripFields_eq]
  simp only [strip_fst]

theorem cleaned_eq_sentinel {v : Json} : cleaned v = sentinel ↔ v = sentinel := by
  cases v with
  | list items => simp [cleaned_list]
  | dict fields => simp [cleaned_dict]
  | _ => rw [cleaned_scalar rfl]

theorem cleaned_leaf {v : Json} (h : v.Leaf) : cleaned v = v := by
  cases v with
  | list items =>
    cases items with
    | nil => rfl
    | cons item items => cases h (.index 0)
  | dict fields =>
    cases fields with
    | nil => rfl
    | cons e fields =>
      have hfirst := h (.key e.1)
      simp [Json.step?, findEntry] at hfirst
  | _ => rfl

theorem nodup_held {fields : List (String × Json)} (h : (fields.map Prod.fst).Nodup) :
    (((held fields).map fun e => (e.1, cleaned e.2)).map Prod.fst).Nodup := by
  have hsub : ((held fields).map Prod.fst).Sublist (fields.map Prod.fst) :=
    List.filter_sublist.map Prod.fst
  simpa [Function.comp_def] using h.sublist hsub

theorem keyedOnce_cleaned (v : Json) : v.keyedOnce → (cleaned v).keyedOnce := by
  induction v using Json.structural with
  | scalar v h => simp [cleaned_scalar h]
  | list items ih =>
    simp only [cleaned_list, Json.keyedOnce_list, List.forall_mem_map]
    exact fun h item hitem => ih item hitem (h item hitem)
  | dict fields ih =>
    simp only [cleaned_dict, Json.keyedOnce_dict, List.forall_mem_map]
    intro h
    exact ⟨nodup_held h.1, fun e he =>
      have hfield := List.mem_of_mem_filter he
      ih e hfield (h.2 e hfield)⟩

/-- A decoded object. -/
structure Payload where
  fields : List (String × Json)
  keyedOnce : (Json.dict fields).keyedOnce

def Payload.json (payload : Payload) : Json := .dict payload.fields

/-- `strip_redaction_sentinels` -/
def stripRedactionSentinels (payload : Payload) : Payload × List Text :=
  (⟨(stripFields [] payload.fields).1, keyedOnce_cleaned _ payload.keyedOnce⟩,
    (stripFields [] payload.fields).2)

end ChannelManager.Dbas.Credential
