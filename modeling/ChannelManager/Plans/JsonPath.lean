import ChannelManager.Plans.Json
import Mathlib.Data.List.Infix

/-!
# Paths into a JSON value

A path is the keys and the positions to go down by. The keys of every dict are distinct, as they are
in a decoded value.
-/

namespace ChannelManager.Json

inductive Step
  | key (k : String)
  | index (i : ℕ)
deriving DecidableEq

def step? : Json → Step → Option Json
  | .dict fields, .key k => findEntry k fields
  | .list items, .index i => items[i]?
  | _, _ => none

/-- The value a path leads to. -/
def at? (v : Json) (p : List Step) : Option Json := p.foldlM step? v

theorem at?_append (v : Json) (p q : List Step) : v.at? (p ++ q) = (v.at? p).bind (at? · q) :=
  List.foldlM_append

theorem at?_concat (v : Json) (p : List Step) (s : Step) :
    v.at? (p ++ [s]) = (v.at? p).bind (step? · s) := by
  rw [at?_append]
  congr 1
  funext w
  simp [at?]

theorem at?_cons (v : Json) (s : Step) (p : List Step) :
    v.at? (s :: p) = (v.step? s).bind (at? · p) := rfl

/-- A value without anything under it. -/
def Leaf (v : Json) : Prop := ∀ s, v.step? s = none

def scalar : Json → Bool
  | .list _ | .dict _ => false
  | _ => true

mutual

/-- Whether the keys of every dict are distinct. -/
def keyedOnce : Json → Bool
  | .list items => keyedOnceItems items
  | .dict fields => decide (fields.map Prod.fst).Nodup && keyedOnceFields fields
  | _ => true

def keyedOnceItems : List Json → Bool
  | [] => true
  | v :: vs => v.keyedOnce && keyedOnceItems vs

def keyedOnceFields : List (String × Json) → Bool
  | [] => true
  | (_, v) :: es => v.keyedOnce && keyedOnceFields es

end

theorem keyedOnceItems_iff (vs : List Json) : keyedOnceItems vs ↔ ∀ v ∈ vs, v.keyedOnce := by
  induction vs with
  | nil => simp [keyedOnceItems]
  | cons v vs ih => simp [keyedOnceItems, ih]

theorem keyedOnceFields_iff (es : List (String × Json)) :
    keyedOnceFields es ↔ ∀ e ∈ es, e.2.keyedOnce := by
  induction es with
  | nil => simp [keyedOnceFields]
  | cons e es ih => simp [keyedOnceFields, ih]

theorem keyedOnce_list (items : List Json) :
    (Json.list items).keyedOnce ↔ ∀ v ∈ items, v.keyedOnce := by
  rw [keyedOnce, keyedOnceItems_iff]

theorem keyedOnce_dict (fields : List (String × Json)) : (Json.dict fields).keyedOnce ↔
    (fields.map Prod.fst).Nodup ∧ ∀ e ∈ fields, e.2.keyedOnce := by
  rw [keyedOnce, Bool.and_eq_true, decide_eq_true_eq, keyedOnceFields_iff]

theorem keyedOnce_step? {v w : Json} {s : Step} (hv : v.keyedOnce) (h : v.step? s = some w) :
    w.keyedOnce := by
  unfold step? at h
  split at h
  next fields k =>
    obtain ⟨hkeys, hfields⟩ := (keyedOnce_dict fields).mp hv
    exact hfields _ ((findEntry_eq_some k w fields hkeys).mp h)
  next items i => exact (keyedOnce_list items).mp hv w (List.mem_of_getElem? h)
  next => cases h

theorem keyedOnce_at? {v w : Json} {p : List Step} (hv : v.keyedOnce) (h : v.at? p = some w) :
    w.keyedOnce := by
  induction p generalizing v with
  | nil => exact Option.some.inj h ▸ hv
  | cons s p ih =>
    rw [at?_cons] at h
    obtain ⟨u, hs, hp⟩ := Option.bind_eq_some_iff.mp h
    exact ih (keyedOnce_step? hv hs) hp

mutual

/-- Induction on a value: what holds of the items and of the fields holds of the whole. -/
theorem structural {motive : Json → Prop} (scalar : ∀ v : Json, v.scalar → motive v)
    (list : ∀ items, (∀ v ∈ items, motive v) → motive (.list items))
    (dict : ∀ fields, (∀ e ∈ fields, motive e.2) → motive (.dict fields)) : (v : Json) → motive v
  | .null => scalar .null rfl
  | .bool b => scalar (.bool b) rfl
  | .int n => scalar (.int n) rfl
  | .float q => scalar (.float q) rfl
  | .str s => scalar (.str s) rfl
  | .list items => list items (structuralItems scalar list dict items)
  | .dict fields => dict fields (structuralFields scalar list dict fields)

theorem structuralItems {motive : Json → Prop} (scalar : ∀ v : Json, v.scalar → motive v)
    (list : ∀ items, (∀ v ∈ items, motive v) → motive (.list items))
    (dict : ∀ fields, (∀ e ∈ fields, motive e.2) → motive (.dict fields)) :
    (items : List Json) → ∀ v ∈ items, motive v
  | [] => fun _ h => absurd h List.not_mem_nil
  | v :: items => List.forall_mem_cons.mpr
    ⟨structural scalar list dict v, structuralItems scalar list dict items⟩

theorem structuralFields {motive : Json → Prop} (scalar : ∀ v : Json, v.scalar → motive v)
    (list : ∀ items, (∀ v ∈ items, motive v) → motive (.list items))
    (dict : ∀ fields, (∀ e ∈ fields, motive e.2) → motive (.dict fields)) :
    (fields : List (String × Json)) → ∀ e ∈ fields, motive e.2
  | [] => fun _ h => absurd h List.not_mem_nil
  | (_, v) :: fields => List.forall_mem_cons.mpr
    ⟨structural scalar list dict v, structuralFields scalar list dict fields⟩

end

theorem mem_of_findEntry {k : String} {v : Json} {fields : List (String × Json)}
    (h : findEntry k fields = some v) : (k, v) ∈ fields := by
  induction fields with
  | nil => cases h
  | cons e fields ih =>
    rw [findEntry] at h
    split at h
    next he =>
      obtain rfl := Option.some.inj h
      subst he
      exact List.mem_cons_self
    next => exact List.mem_cons_of_mem e (ih h)

theorem step?_scalar {v : Json} (h : v.scalar) (s : Step) : v.step? s = none := by
  cases v with
  | list items => cases h
  | dict fields => cases h
  | _ => cases s <;> rfl

/-- Induction on a value: what holds of everything one step down holds of the whole. -/
theorem descend {motive : Json → Prop}
    (down : ∀ v : Json, (∀ s w, v.step? s = some w → motive w) → motive v) (v : Json) :
    motive v := by
  induction v using structural with
  | scalar v h =>
    refine down v fun s w hw => ?_
    rw [step?_scalar h] at hw
    cases hw
  | list items ih =>
    refine down _ fun s w hw => ?_
    cases s with
    | key k => cases hw
    | index i => exact ih w (List.mem_of_getElem? hw)
  | dict fields ih =>
    refine down _ fun s w hw => ?_
    cases s with
    | key k => exact ih _ (mem_of_findEntry hw)
    | index i => cases hw

end ChannelManager.Json
