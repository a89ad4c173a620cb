import Mathlib.Data.List.Dedup
import Mathlib.Data.List.Induction
import Mathlib.Data.List.Nodup
import Mathlib.Data.List.Perm.Basic

/-!
# Insertion-ordered dictionaries

A finite map that is iterated in the order in which its keys were first set: setting a key
that is present replaces the value in place, setting a new one appends it.
-/

namespace ChannelManager

/-- Replace the value at `k`, or append the pair when `k` is new. -/
def setEntry {κ ν : Type} [DecidableEq κ] (k : κ) (v : ν) : List (κ × ν) → List (κ × ν)
  | [] => [(k, v)]
  | e :: es => if e.1 = k then (k, v) :: es else e :: setEntry k v es

/-- The value of the first pair with key `k`. -/
def findEntry {κ ν : Type} [DecidableEq κ] (k : κ) : List (κ × ν) → Option ν
  | [] => none
  | e :: es => if e.1 = k then some e.2 else findEntry k es

theorem keys_setEntry {κ ν : Type} [DecidableEq κ] (k : κ) (v : ν) (es : List (κ × ν)) :
    (setEntry k v es).map Prod.fst =
      if k ∈ es.map Prod.fst then es.map Prod.fst else es.map Prod.fst ++ [k] := by
  induction es with
  | nil => simp [setEntry]
  | cons e es ih =>
    by_cases he : e.1 = k
    · simp [setEntry, he]
    · have he' : k ≠ e.1 := fun h => he h.symm
      simp only [setEntry, he, if_false, List.map_cons, ih, List.mem_cons, he', false_or]
      split <;> simp

theorem setEntry_of_not_mem {κ ν : Type} [DecidableEq κ] (k : κ) (v : ν) (es : List (κ × ν))
    (h : k ∉ es.map Prod.fst) : setEntry k v es = es ++ [(k, v)] := by
  induction es with
  | nil => rfl
  | cons e es ih =>
    have hhead : e.1 ≠ k := fun he => h (by simp [he])
    have htail : k ∉ es.map Prod.fst := fun hk => h (List.mem_cons_of_mem _ hk)
    simp only [setEntry, hhead, if_false, ih htail, List.cons_append]

theorem findEntry_setEntry {κ ν : Type} [DecidableEq κ] (k k' : κ) (v : ν)
    (es : List (κ × ν)) :
    findEntry k' (setEntry k v es) = if k = k' then some v else findEntry k' es := by
  induction es with
  | nil => simp [setEntry, findEntry]
  | cons e es ih =>
    by_cases he : e.1 = k
    · by_cases hk : k = k'
      · simp [setEntry, findEntry, he, hk]
      · simp [setEntry, findEntry, he, hk]
    · by_cases hk : k = k'
      · subst hk
        simp [setEntry, findEntry, he, ih]
      · simp only [setEntry, he, if_false, findEntry, ih, hk]

theorem findEntry_eq_some {κ ν : Type} [DecidableEq κ] (k : κ) (v : ν) (es : List (κ × ν))
    (hn : (es.map Prod.fst).Nodup) : findEntry k es = some v ↔ (k, v) ∈ es := by
  induction es with
  | nil => simp [findEntry]
  | cons e es ih =>
    have hmem := (List.nodup_cons.mp hn).1
    have htail := (List.nodup_cons.mp hn).2
    by_cases he : e.1 = k
    · have hne : (k, v) ∉ es := fun h => hmem (he ▸ List.mem_map_of_mem h)
      simp only [findEntry, he, if_true, Option.some.injEq, List.mem_cons, hne, or_false]
      constructor
      · rintro rfl
        exact Prod.ext he.symm rfl
      · rintro rfl
        rfl
    · have hne : (k, v) ≠ e := fun h => he (h ▸ rfl)
      simp only [findEntry, he, if_false, ih htail, List.mem_cons, hne, false_or]

theorem findEntry_isSome {κ ν : Type} [DecidableEq κ] (k : κ) (es : List (κ × ν)) :
    (findEntry k es).isSome ↔ k ∈ es.map Prod.fst := by
  induction es with
  | nil => simp [findEntry]
  | cons e es ih =>
    by_cases he : e.1 = k
    · simp [findEntry, he]
    · have he' : k ≠ e.1 := fun h => he h.symm
      simp only [findEntry, he, if_false, ih, List.map_cons, List.mem_cons, he', false_or]

/-- An insertion-ordered dictionary: its pairs in order, no key twice. -/
structure Dict (κ ν : Type) where
  items : List (κ × ν)
  nodup_keys : (items.map Prod.fst).Nodup

namespace Dict

variable {κ ν : Type}

instance [DecidableEq κ] [DecidableEq ν] : DecidableEq (Dict κ ν) := fun a b =>
  decidable_of_iff (a.items = b.items) (by cases a; cases b; simp)

theorem ext {d d' : Dict κ ν} (h : d.items = d'.items) : d = d' := by
  cases d
  cases d'
  cases h
  rfl

/-- The dictionary with no key. -/
def empty : Dict κ ν := ⟨[], List.nodup_nil⟩

instance : EmptyCollection (Dict κ ν) := ⟨empty⟩

instance : Inhabited (Dict κ ν) := ⟨empty⟩

/-- The keys, in the order they were first set. -/
def keys (d : Dict κ ν) : List κ := d.items.map Prod.fst

/-- The values, in key order. -/
def values (d : Dict κ ν) : List ν := d.items.map Prod.snd

/-- The pairs whose key and value pass `p`, in order. -/
def filter (d : Dict κ ν) (p : κ → ν → Bool) : Dict κ ν where
  items := d.items.filter fun e => p e.1 e.2
  nodup_keys := d.nodup_keys.sublist ((List.filter_sublist).map Prod.fst)

/-- Rewrite every value. -/
def mapValues {μ : Type} (d : Dict κ ν) (f : κ → ν → μ) : Dict κ μ where
  items := d.items.map fun e => (e.1, f e.1 e.2)
  nodup_keys := by
    rw [List.map_map]
    exact d.nodup_keys

/-- Remove a key. -/
def erase [DecidableEq κ] (d : Dict κ ν) (k : κ) : Dict κ ν := d.filter fun k' _ => k' ≠ k

instance : Membership κ (Dict κ ν) := ⟨fun d k => k ∈ d.keys⟩

@[simp] theorem items_empty : (∅ : Dict κ ν).items = [] := rfl

@[simp] theorem keys_empty : (∅ : Dict κ ν).keys = [] := rfl

theorem mem_def (k : κ) (d : Dict κ ν) : k ∈ d ↔ k ∈ d.keys := Iff.rfl

variable [DecidableEq κ]

/-- Look a key up. -/
def get? (d : Dict κ ν) (k : κ) : Option ν := findEntry k d.items

/-- Set a key: in place when it is present, at the end when it is new. -/
def set (d : Dict κ ν) (k : κ) (v : ν) : Dict κ ν where
  items := setEntry k v d.items
  nodup_keys := by
    rw [keys_setEntry]
    split
    next => exact d.nodup_keys
    next h => simpa using d.nodup_keys.concat h

/-- The dictionary of a list of pairs; of two with one key the later value counts. -/
def ofList (es : List (κ × ν)) : Dict κ ν := es.foldl (fun d e => d.set e.1 e.2) ∅

/-- Set every pair of `d'` on `d`, in order. -/
def update (d d' : Dict κ ν) : Dict κ ν := d'.items.foldl (fun acc e => acc.set e.1 e.2) d

instance (k : κ) (d : Dict κ ν) : Decidable (k ∈ d) := inferInstanceAs (Decidable (k ∈ d.keys))

@[simp] theorem get?_empty (k : κ) : (∅ : Dict κ ν).get? k = none := rfl

theorem get?_set (d : Dict κ ν) (k k' : κ) (v : ν) :
    (d.set k v).get? k' = if k = k' then some v else d.get? k' :=
  findEntry_setEntry k k' v d.items

@[simp] theorem get?_set_self (d : Dict κ ν) (k : κ) (v : ν) :
    (d.set k v).get? k = some v := by
  simp [get?_set]

theorem get?_set_ne (d : Dict κ ν) {k k' : κ} (v : ν) (h : k ≠ k') :
    (d.set k v).get? k' = d.get? k' := by
  simp [get?_set, h]

theorem keys_set (d : Dict κ ν) (k : κ) (v : ν) :
    (d.set k v).keys = if k ∈ d then d.keys else d.keys ++ [k] :=
  keys_setEntry k v d.items

theorem items_set_of_not_mem (d : Dict κ ν) {k : κ} (v : ν) (h : k ∉ d) :
    (d.set k v).items = d.items ++ [(k, v)] :=
  setEntry_of_not_mem k v d.items h

theorem items_ofList (es : List (κ × ν)) (h : (es.map Prod.fst).Nodup) :
    (ofList es : Dict κ ν).items = es := by
  have hfold : ∀ (es : List (κ × ν)) (d : Dict κ ν), (d.keys ++ es.map Prod.fst).Nodup →
      (es.foldl (fun d e => d.set e.1 e.2) d).items = d.items ++ es := by
    intro es
    induction es with
    | nil => intro d _; simp
    | cons e es ih =>
      intro d hn
      have hnew : e.1 ∉ d := by
        intro hmem
        rw [List.nodup_append] at hn
        exact hn.2.2 e.1 hmem e.1 (by simp) rfl
      have hitems := items_set_of_not_mem d e.2 hnew
      rw [List.foldl_cons, ih _ (by simpa [keys, hitems] using hn), hitems]
      simp
  simpa [ofList] using hfold es ∅ (by simpa using h)

theorem items_erase_head (e : κ × ν) (es : List (κ × ν))
    (h : ((e :: es).map Prod.fst).Nodup) : ((⟨e :: es, h⟩ : Dict κ ν).erase e.1).items = es := by
  have hnot := (List.nodup_cons.mp h).1
  have hkept : es.filter (fun e' => decide (e'.1 ≠ e.1)) = es := by
    apply List.filter_eq_self.mpr
    intro e' he'
    simpa using fun heq : e'.1 = e.1 => hnot (heq ▸ List.mem_map_of_mem he')
  simpa [Dict.erase, Dict.filter, List.filter_cons] using hkept

theorem isSome_get? (d : Dict κ ν) (k : κ) : (d.get? k).isSome ↔ k ∈ d :=
  findEntry_isSome k d.items

theorem get?_eq_none (d : Dict κ ν) (k : κ) : d.get? k = none ↔ k ∉ d := by
  rw [← isSome_get?]
  cases d.get? k <;> simp

theorem get?_eq_some (d : Dict κ ν) (k : κ) (v : ν) : d.get? k = some v ↔ (k, v) ∈ d.items :=
  findEntry_eq_some k v d.items d.nodup_keys

@[simp] theorem mem_set (d : Dict κ ν) (k k' : κ) (v : ν) :
    k' ∈ d.set k v ↔ k' = k ∨ k' ∈ d := by
  rw [← isSome_get?, ← isSome_get?, get?_set]
  by_cases h : k = k'
  · simp [h]
  · simp [h, Ne.symm h]

theorem get?_filter (d : Dict κ ν) (p : κ → ν → Bool) (k : κ) :
    (d.filter p).get? k = (d.get? k).filter (p k) := by
  apply Option.ext
  intro v
  rw [get?_eq_some, Option.filter_eq_some_iff, get?_eq_some]
  simp [filter]

theorem mem_of_get? {d : Dict κ ν} {k : κ} {v : ν} (h : d.get? k = some v) : k ∈ d := by
  rw [← isSome_get?, h]
  rfl

theorem exists_get? {d : Dict κ ν} {k : κ} (h : k ∈ d) : ∃ v, d.get? k = some v :=
  Option.isSome_iff_exists.mp ((isSome_get? d k).mpr h)

theorem get?_mapValues {μ : Type} (d : Dict κ ν) (f : κ → ν → μ) (k : κ) :
    (d.mapValues f).get? k = (d.get? k).map (f k) := by
  have hfind : ∀ es : List (κ × ν), findEntry k (es.map fun e => (e.1, f e.1 e.2)) =
      (findEntry k es).map (f k) := by
    intro es
    induction es with
    | nil => rfl
    | cons e es ih =>
      by_cases he : e.1 = k
      · simp [findEntry, he]
      · simp [findEntry, he, ih]
  exact hfind d.items

theorem mapValues_set {μ : Type} (d : Dict κ ν) (f : κ → ν → μ) (k : κ) (v : ν) :
    (d.set k v).mapValues f = (d.mapValues f).set k (f k v) := by
  have hset : ∀ es : List (κ × ν), (setEntry k v es).map (fun e => (e.1, f e.1 e.2)) =
      setEntry k (f k v) (es.map fun e => (e.1, f e.1 e.2)) := by
    intro es
    induction es with
    | nil => rfl
    | cons e es ih =>
      by_cases he : e.1 = k
      · simp [setEntry, he]
      · simp [setEntry, he, ih]
  exact ext (hset d.items)

/-- Rewriting values to themselves changes nothing. -/
theorem mapValues_eq_self (d : Dict κ ν) {f : κ → ν → ν}
    (h : ∀ k v, d.get? k = some v → f k v = v) : d.mapValues f = d := by
  have hsame : ∀ e ∈ d.items, (e.1, f e.1 e.2) = id e := by
    intro e he
    rw [h e.1 e.2 ((get?_eq_some d e.1 e.2).mpr he)]
    rfl
  exact ext ((List.map_congr_left hsame).trans (List.map_id _))

/-- Setting a key to the value it has changes nothing. -/
theorem set_eq_self (d : Dict κ ν) {k : κ} {v : ν} (h : d.get? k = some v) : d.set k v = d := by
  have hset : ∀ es : List (κ × ν), findEntry k es = some v → setEntry k v es = es := by
    intro es
    induction es with
    | nil => intro hfind; simp [findEntry] at hfind
    | cons e es ih =>
      intro hfind
      by_cases he : e.1 = k
      · simp only [findEntry, he, if_true, Option.some.injEq] at hfind
        simp only [setEntry, he, if_true, ← hfind]
        rw [← he]
      · simp only [findEntry, he, if_false] at hfind
        simp only [setEntry, he, if_false, ih hfind]
  exact ext (hset d.items h)

theorem get?_erase (d : Dict κ ν) (k k' : κ) :
    (d.erase k).get? k' = if k = k' then none else d.get? k' := by
  rw [erase, get?_filter]
  by_cases h : k = k'
  · simp [h]
  · simp only [ne_eq, Ne.symm h, not_false_eq_true, decide_true, h, if_false]
    cases d.get? k' <;> rfl

theorem get?_foldl_erase (ks : List κ) (d : Dict κ ν) (k : κ) :
    (ks.foldl erase d).get? k = if k ∈ ks then none else d.get? k := by
  induction ks generalizing d with
  | nil => simp
  | cons k' ks ih =>
    rw [List.foldl_cons, ih, get?_erase]
    by_cases hk : k = k'
    · simp [hk]
    · simp [hk, Ne.symm hk]

/-- Change the value at a key, if there is one. -/
def modify (d : Dict κ ν) (k : κ) (f : ν → ν) : Dict κ ν :=
  match d.get? k with
  | none => d
  | some v => d.set k (f v)

theorem get?_modify (d : Dict κ ν) (k k' : κ) (f : ν → ν) :
    (d.modify k f).get? k' = if k = k' then (d.get? k').map f else d.get? k' := by
  unfold modify
  by_cases hk : k = k'
  · subst hk
    cases hget : d.get? k <;> simp [hget]
  · cases d.get? k <;> simp [hk, get?_set]

/-- Only what a key holds matters to a change of it. -/
theorem modify_eq_modify {d : Dict κ ν} {k : κ} {v : ν} {f g : ν → ν} (hget : d.get? k = some v)
    (h : f v = g v) : d.modify k f = d.modify k g := by
  simp only [modify, hget, h]

theorem modify_eq_self {d : Dict κ ν} {k : κ} {v : ν} {f : ν → ν} (hget : d.get? k = some v)
    (h : f v = v) : d.modify k f = d := by
  simp only [modify, hget, h]
  exact d.set_eq_self hget

/-- Changing every key of a list once changes the values at those keys. -/
theorem get?_foldl_modify (ks : List κ) (f : κ → ν → ν) (d : Dict κ ν) (k : κ) (h : ks.Nodup) :
    (ks.foldl (fun d k => d.modify k (f k)) d).get? k =
      (d.get? k).map fun v => if k ∈ ks then f k v else v := by
  induction ks generalizing d with
  | nil => simp
  | cons k' ks ih =>
    have hmem := (List.nodup_cons.mp h).1
    rw [List.foldl_cons, ih _ (List.nodup_cons.mp h).2, get?_modify]
    by_cases hk : k' = k
    · subst hk
      cases d.get? k' <;> simp [hmem]
    · cases d.get? k <;> simp [hk, Ne.symm hk]

theorem get?_update (d d' : Dict κ ν) (k : κ) :
    (d.update d').get? k = (d'.get? k).or (d.get? k) := by
  have h : ∀ (es : List (κ × ν)) (acc : Dict κ ν), (es.map Prod.fst).Nodup →
      (es.foldl (fun acc e => acc.set e.1 e.2) acc).get? k =
        (findEntry k es).or (acc.get? k) := by
    intro es
    induction es with
    | nil => intro acc _; simp [findEntry]
    | cons e es ih =>
      intro acc hn
      have hmem := (List.nodup_cons.mp hn).1
      rw [List.foldl_cons, ih _ (List.nodup_cons.mp hn).2, get?_set]
      by_cases he : e.1 = k
      · have hnone : findEntry k es = none := by
          rw [← Option.not_isSome_iff_eq_none, findEntry_isSome]
          exact he ▸ hmem
        simp [findEntry, he, hnone]
      · simp [findEntry, he]
  exact h d'.items d d'.nodup_keys

theorem set_set_comm (d : Dict κ ν) {k k' : κ} (v v' : ν) (hk : k ∈ d) (hne : k' ≠ k) :
    (d.set k' v').set k v = (d.set k v).set k' v' := by
  have hset : ∀ es : List (κ × ν), k ∈ es.map Prod.fst →
      setEntry k v (setEntry k' v' es) = setEntry k' v' (setEntry k v es) := by
    intro es
    induction es with
    | nil => intro h; cases h
    | cons e es ih =>
      intro hmem
      by_cases he : e.1 = k
      · simp [setEntry, he, hne.symm]
      · have hmem' : k ∈ es.map Prod.fst := by
          rw [List.map_cons, List.mem_cons] at hmem
          exact hmem.resolve_left (Ne.symm he)
        by_cases he' : e.1 = k'
        · simp [setEntry, he', hne]
        · simp [setEntry, he, he', ih hmem']
  exact ext (hset d.items hk)

theorem foldl_set_comm (es : List (κ × ν)) (d : Dict κ ν) {k : κ} (v : ν) (hk : k ∈ d)
    (hne : k ∉ es.map Prod.fst) :
    (es.foldl (fun acc e => acc.set e.1 e.2) d).set k v =
      es.foldl (fun acc e => acc.set e.1 e.2) (d.set k v) := by
  induction es generalizing d with
  | nil => rfl
  | cons e es ih =>
    rw [List.map_cons, List.mem_cons, not_or] at hne
    rw [List.foldl_cons, List.foldl_cons, ih _ ((mem_set ..).mpr (.inr hk)) hne.2,
      set_set_comm d v e.2 hk (Ne.symm hne.1)]

theorem update_set (d d' : Dict κ ν) (k : κ) (v : ν) : d.update (d'.set k v) = (d.update d').set k v := by
  have hfold : ∀ (es : List (κ × ν)) (d : Dict κ ν), (es.map Prod.fst).Nodup →
      (setEntry k v es).foldl (fun acc e => acc.set e.1 e.2) d =
        (es.foldl (fun acc e => acc.set e.1 e.2) d).set k v := by
    intro es
    induction es with
    | nil => intro d _; rfl
    | cons e es ih =>
      intro d hn
      obtain ⟨hnot, hn⟩ := List.nodup_cons.mp hn
      by_cases he : e.1 = k
      · subst he
        have hset : (d.set e.1 e.2).set e.1 v = d.set e.1 v := by
          have hsame : ∀ es : List (κ × ν), setEntry e.1 v (setEntry e.1 e.2 es) = setEntry e.1 v es := by
            intro es
            induction es with
            | nil => simp [setEntry]
            | cons e' es ih =>
              by_cases he' : e'.1 = e.1
              · simp [setEntry, he']
              · simp [setEntry, he', ih]
          exact ext (hsame d.items)
        rw [setEntry, if_pos rfl, List.foldl_cons, List.foldl_cons,
          foldl_set_comm es _ v ((mem_set ..).mpr (.inl rfl)) hnot, hset]
      · rw [setEntry, if_neg he, List.foldl_cons, List.foldl_cons, ih _ hn]
  exact hfold d'.items d d'.nodup_keys

/-- Two updates are one by the two taken together. -/
theorem update_update (d d' d'' : Dict κ ν) : (d.update d').update d'' = d.update (d'.update d'') := by
  have hfold : ∀ (es : List (κ × ν)) (d' : Dict κ ν),
      es.foldl (fun acc e => acc.set e.1 e.2) (d.update d') =
        d.update (es.foldl (fun acc e => acc.set e.1 e.2) d') := by
    intro es
    induction es with
    | nil => intro d'; rfl
    | cons e es ih =>
      intro d'
      rw [List.foldl_cons, List.foldl_cons, ← update_set, ih]
  exact hfold d''.items d'

theorem mem_values {d : Dict κ ν} {v : ν} : v ∈ d.values ↔ ∃ k, d.get? k = some v := by
  rw [values, List.mem_map]
  constructor
  · rintro ⟨e, he, rfl⟩
    exact ⟨e.1, (get?_eq_some d e.1 e.2).mpr he⟩
  · rintro ⟨k, hk⟩
    exact ⟨(k, v), (get?_eq_some d k v).mp hk, rfl⟩

section OfList

theorem get?_ofList_concat (es : List (κ × ν)) (e : κ × ν) (k : κ) :
    (ofList (es ++ [e])).get? k = if e.1 = k then some e.2 else (ofList es).get? k := by
  rw [ofList, List.foldl_concat, get?_set]
  rfl

/-- What is found is one of the entries. -/
theorem mem_of_get?_ofList {es : List (κ × ν)} {k : κ} {v : ν} (h : (ofList es).get? k = some v) :
    (k, v) ∈ es := by
  induction es using List.reverseRecOn with
  | nil => cases h
  | append_singleton es e ih =>
    rw [get?_ofList_concat] at h
    split at h
    · rename_i hkey
      cases h
      exact List.mem_append_right _ (by simp [← hkey])
    · exact List.mem_append_left _ (ih h)

/-- An entry is found under its key, or a later one is. -/
theorem exists_get?_ofList {es : List (κ × ν)} {k : κ} (h : k ∈ es.map Prod.fst) :
    ∃ v, (ofList es).get? k = some v := by
  induction es using List.reverseRecOn with
  | nil => cases h
  | append_singleton es e ih =>
    rw [get?_ofList_concat]
    split
    · exact ⟨e.2, rfl⟩
    · rename_i hkey
      rw [List.map_append, List.mem_append, List.map_singleton, List.mem_singleton] at h
      exact ih (h.resolve_right (Ne.symm hkey))

/-- Entries under other keys change nothing. -/
theorem get?_ofList_append {es es' : List (κ × ν)} {k : κ} (h : k ∉ es'.map Prod.fst) :
    (ofList (es ++ es')).get? k = (ofList es).get? k := by
  induction es' using List.reverseRecOn with
  | nil => rw [List.append_nil]
  | append_singleton es' e ih =>
    rw [List.map_append, List.mem_append, not_or] at h
    rw [← List.append_assoc, get?_ofList_concat, if_neg (fun hkey => h.2 (by simp [hkey])), ih h.1]

/-- A key that is given last is found there. -/
theorem get?_ofList_append_of_mem {es es' : List (κ × ν)} {k : κ} (h : k ∈ es'.map Prod.fst) :
    (ofList (es ++ es')).get? k = (ofList es').get? k := by
  induction es' using List.reverseRecOn with
  | nil => cases h
  | append_singleton es' e ih =>
    rw [← List.append_assoc, get?_ofList_concat, get?_ofList_concat]
    by_cases hkey : e.1 = k
    · rw [if_pos hkey, if_pos hkey]
    · rw [List.map_append, List.mem_append, List.map_singleton, List.mem_singleton] at h
      rw [if_neg hkey, if_neg hkey, ih (h.resolve_right (Ne.symm hkey))]

end OfList

section Rekey

variable {κ' μ : Type} [DecidableEq κ']

/-- A dictionary made of some entries of another, under other keys. -/
theorem get?_ofList_filterMap (d : Dict κ ν) (f : κ → κ') (g : κ → ν → Option μ)
    (hf : ∀ k ∈ d, ∀ k' ∈ d, f k = f k' → k = k') (j : κ') (v : μ) :
    (ofList (d.items.filterMap fun e => (g e.1 e.2).map fun v => (f e.1, v))).get? j = some v ↔
      ∃ k u, f k = j ∧ d.get? k = some u ∧ g k u = some v := by
  have hkeys : ((d.items.filterMap fun e => (g e.1 e.2).map fun v => (f e.1, v)).map Prod.fst).Nodup := by
    have hsub : ((d.items.filterMap fun e => (g e.1 e.2).map fun v => (f e.1, v)).map Prod.fst).Sublist
        (d.keys.map f) := by
      rw [keys, List.map_map]
      induction d.items with
      | nil => exact List.Sublist.slnil
      | cons e es ih =>
        cases hg : g e.1 e.2 with
        | none =>
          rw [List.filterMap_cons_none (by simp [hg])]
          exact ih.cons _
        | some v =>
          rw [List.filterMap_cons_some (b := (f e.1, v)) (by simp [hg])]
          exact ih.cons_cons _
    exact (List.Nodup.map_on (fun k hk k' hk' heq => hf k hk k' hk' heq) d.nodup_keys).sublist hsub
  rw [get?_eq_some, items_ofList _ hkeys, List.mem_filterMap]
  constructor
  · rintro ⟨e, he, hentry⟩
    obtain ⟨w, hg, hpair⟩ := Option.map_eq_some_iff.mp hentry
    obtain ⟨hj, rfl⟩ := Prod.mk.inj hpair
    exact ⟨e.1, e.2, hj, (get?_eq_some _ _ _).mpr he, hg⟩
  · rintro ⟨k, u, rfl, hget, hg⟩
    exact ⟨(k, u), (get?_eq_some _ _ _).mp hget, by rw [hg]; rfl⟩

/-- A dictionary made of the entries of another, under other keys. -/
theorem get?_ofList_map (d : Dict κ ν) (f : κ → κ') (g : κ → ν → μ)
    (hf : ∀ k ∈ d, ∀ k' ∈ d, f k = f k' → k = k') (j : κ') (v : μ) :
    (ofList (d.items.map fun e => (f e.1, g e.1 e.2))).get? j = some v ↔
      ∃ k u, f k = j ∧ d.get? k = some u ∧ g k u = v := by
  have hmap : (d.items.map fun e => (f e.1, g e.1 e.2)) =
      d.items.filterMap fun e => (some (g e.1 e.2)).map fun v => (f e.1, v) := by
    rw [← List.filterMap_eq_map]
    rfl
  rw [hmap, get?_ofList_filterMap d f (fun k u => some (g k u)) hf]
  simp only [Option.some.injEq]

end Rekey

end Dict

section Firsts

variable {α : Type} [DecidableEq α]

/-- Each entry where it is listed first, as the keys of a dictionary made of a list. -/
def firsts (l : List α) : List α := l.reverse.dedup.reverse

@[simp] theorem mem_firsts {l : List α} {a : α} : a ∈ firsts l ↔ a ∈ l := by simp [firsts]

theorem nodup_firsts (l : List α) : (firsts l).Nodup :=
  List.nodup_reverse.mpr (List.nodup_dedup _)

theorem firsts_concat (l : List α) (a : α) :
    firsts (l ++ [a]) = if a ∈ l then firsts l else firsts l ++ [a] := by
  rw [firsts, List.reverse_append, List.reverse_singleton, List.singleton_append]
  by_cases ha : a ∈ l
  · rw [if_pos ha, List.dedup_cons_of_mem (List.mem_reverse.mpr ha), firsts]
  · rw [if_neg ha, List.dedup_cons_of_notMem fun h => ha (List.mem_reverse.mp h), List.reverse_cons,
      firsts]

end Firsts

end ChannelManager
