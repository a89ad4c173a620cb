import Mathlib.Logic.Basic
import Mathlib.Order.Defs.Unbundled

/-!
# Computations that raise

A computation over a state that may raise: whatever it did to the state before it raised stays
done. `wp` is the weakest precondition of such a computation for a condition on its result and one
on the exception it ends with; every construct has one rule, and programs are verified by rewriting
with them.
-/

namespace ChannelManager

/-- A computation over `σ` that returns or raises a message. -/
def Eff (σ α : Type) : Type := σ → Except String α × σ

namespace Eff

variable {σ α β : Type}

instance : Monad (Eff σ) where
  pure a := fun s => (.ok a, s)
  bind x f := fun s =>
    match x s with
    | (.ok a, s') => f a s'
    | (.error e, s') => (.error e, s')

instance : MonadExceptOf String (Eff σ) where
  throw e := fun s => (.error e, s)
  tryCatch x handle := fun s =>
    match x s with
    | (.ok a, s') => (.ok a, s')
    | (.error e, s') => handle e s'

instance : MonadStateOf σ (Eff σ) where
  get := fun s => (.ok s, s)
  set s := fun _ => (.ok (), s)
  modifyGet f := fun s => (.ok (f s).1, (f s).2)

/-- Raise what a pure computation raised. -/
def ofExcept (x : Except String α) : Eff σ α := fun s => (x, s)

/-- Do something for every item, in order. -/
def each (body : α → Eff σ Unit) : List α → Eff σ Unit
  | [] => pure ()
  | a :: as => do
    body a
    each body as

/-- Do something for every item, in order, until it says to stop. -/
def eachUntil (body : α → Eff σ Bool) : List α → Eff σ Unit
  | [] => pure ()
  | a :: as => do
    if ← body a then eachUntil body as else pure ()

/-- Carry a value through every item, in order. -/
def fold (body : β → α → Eff σ β) (b : β) : List α → Eff σ β
  | [] => pure b
  | a :: as => do
    let b ← body b a
    fold body b as

/-- Whether a computation returned; what it raised is dropped. -/
def attempt (x : Eff σ Unit) : Eff σ Bool :=
  tryCatch (do x; pure true) fun _ => pure false

/-- What a computation returned or raised. -/
def caught (x : Eff σ α) : Eff σ (Except String α) :=
  tryCatch (do return .ok (← x)) fun e => pure (.error e)

/-- What must hold before for `post` to hold of what is returned and `fail` of what is raised. -/
def wp (x : Eff σ α) (post : α → σ → Prop) (fail : String → σ → Prop) (s : σ) : Prop :=
  match x s with
  | (.ok a, s') => post a s'
  | (.error e, s') => fail e s'

variable {post : α → σ → Prop} {fail : String → σ → Prop} {s : σ}

@[simp] theorem wp_pure (a : α) : wp (pure a : Eff σ α) post fail s ↔ post a s := Iff.rfl

@[simp] theorem wp_throw (e : String) : wp (throw e : Eff σ α) post fail s ↔ fail e s := Iff.rfl

@[simp] theorem wp_get {post : σ → σ → Prop} :
    wp (get : Eff σ σ) post fail s ↔ post s s := Iff.rfl

@[simp] theorem wp_set {post : Unit → σ → Prop} (t : σ) :
    wp (set t : Eff σ Unit) post fail s ↔ post () t := Iff.rfl

@[simp] theorem wp_modify {post : Unit → σ → Prop} (f : σ → σ) :
    wp (modify f : Eff σ Unit) post fail s ↔ post () (f s) := Iff.rfl

theorem modify_apply (f : σ → σ) (s : σ) : (modify f : Eff σ Unit) s = (.ok (), f s) := rfl

theorem bind_apply (x : Eff σ β) (f : β → Eff σ α) (s : σ) :
    (x >>= f) s = match x s with
      | (.ok b, s') => f b s'
      | (.error e, s') => (.error e, s') := rfl

/-- A sequence that returned went through both of its parts. -/
theorem bind_eq_ok {x : Eff σ β} {f : β → Eff σ α} {s t : σ} {a : α} :
    (x >>= f) s = (.ok a, t) ↔ ∃ b s', x s = (.ok b, s') ∧ f b s' = (.ok a, t) := by
  rw [bind_apply]
  cases hx : x s with
  | mk outcome s' =>
    cases outcome with
    | ok b =>
      constructor
      · exact fun h => ⟨b, s', rfl, h⟩
      · intro ⟨b', t', heq, h⟩
        cases heq
        exact h
    | error e => simp

theorem tryCatch_apply (x : Eff σ α) (handle : String → Eff σ α) (s : σ) :
    tryCatch x handle s = match x s with
      | (.ok a, s') => (.ok a, s')
      | (.error e, s') => handle e s' := rfl

theorem tryCatch_eq_ok {x : Eff σ α} (handle : String → Eff σ α) {s t : σ} {a : α}
    (h : x s = (.ok a, t)) : tryCatch x handle s = (.ok a, t) := by
  rw [tryCatch_apply, h]

@[simp] theorem wp_bind (x : Eff σ β) (f : β → Eff σ α) :
    wp (x >>= f) post fail s ↔ wp x (fun b => wp (f b) post fail) fail s := by
  unfold wp
  rw [bind_apply]
  cases x s with
  | mk outcome s' => cases outcome <;> exact Iff.rfl

@[simp] theorem wp_tryCatch (x : Eff σ α) (handle : String → Eff σ α) :
    wp (tryCatch x handle) post fail s ↔ wp x post (fun e => wp (handle e) post fail) s := by
  unfold wp
  rw [tryCatch_apply]
  cases x s with
  | mk outcome s' => cases outcome <;> exact Iff.rfl

@[simp] theorem wp_ofExcept (x : Except String α) :
    wp (ofExcept x : Eff σ α) post fail s ↔
      match x with
      | .ok a => post a s
      | .error e => fail e s := by
  cases x <;> exact Iff.rfl

theorem wp_attempt {post : Bool → σ → Prop} (x : Eff σ Unit) :
    wp (attempt x) post fail s ↔ wp x (fun _ => post true) (fun _ => post false) s := by
  rw [attempt, wp_tryCatch, wp_bind]
  exact Iff.rfl

theorem wp_caught {post : Except String α → σ → Prop} (x : Eff σ α) :
    wp (caught x) post fail s ↔ wp x (fun a => post (.ok a)) (fun e => post (.error e)) s := by
  rw [caught, wp_tryCatch, wp_bind]
  exact Iff.rfl

theorem wp_ite (c : Prop) [Decidable c] (x y : Eff σ α) :
    wp (if c then x else y) post fail s ↔ (c → wp x post fail s) ∧ (¬c → wp y post fail s) := by
  by_cases h : c <;> simp [h]

theorem wp_mono {post' : α → σ → Prop} {fail' : String → σ → Prop} {x : Eff σ α}
    (hx : wp x post fail s) (hpost : ∀ a s, post a s → post' a s)
    (hfail : ∀ e s, fail e s → fail' e s) : wp x post' fail' s := by
  unfold wp at hx ⊢
  cases h : x s with
  | mk outcome s' =>
    rw [h] at hx
    cases outcome with
    | ok a => exact hpost a s' hx
    | error e => exact hfail e s' hx

theorem wp_and {post' : α → σ → Prop} {fail' : String → σ → Prop} {x : Eff σ α}
    (hx : wp x post fail s) (hx' : wp x post' fail' s) :
    wp x (fun a s => post a s ∧ post' a s) (fun e s => fail e s ∧ fail' e s) s := by
  unfold wp at hx hx' ⊢
  cases h : x s with
  | mk outcome s' =>
    rw [h] at hx hx'
    cases outcome with
    | ok a => exact ⟨hx, hx'⟩
    | error e => exact ⟨hx, hx'⟩

/-- Whatever a computation returns or raises satisfies what `wp` says. -/
theorem wp_exec {x : Eff σ α} (h : wp x post fail s) {outcome : Except String α} {s' : σ}
    (hx : x s = (outcome, s')) :
    match outcome with
    | .ok a => post a s'
    | .error e => fail e s' := by
  unfold wp at h
  rw [hx] at h
  cases outcome <;> exact h

/-- What holds however a computation ends holds of the state it leaves. -/
theorem wp_state {inv : σ → Prop} {x : Eff σ α} (h : wp x (fun _ => inv) (fun _ => inv) s) :
    inv (x s).2 := by
  unfold wp at h
  cases hx : x s with
  | mk outcome s' =>
    rw [hx] at h
    cases outcome <;> exact h

/-- A computation that cannot raise returns. -/
theorem wp_returns {x : Eff σ α} (h : wp x post (fun _ _ => False) s) :
    ∃ a s', x s = (.ok a, s') ∧ post a s' := by
  unfold wp at h
  cases hx : x s with
  | mk outcome s' =>
    rw [hx] at h
    cases outcome with
    | ok a => exact ⟨a, s', rfl, h⟩
    | error e => exact h.elim

/-- An invariant of the body is one of the loop. -/
theorem wp_each {body : α → Eff σ Unit} {fail : String → σ → Prop} (inv : σ → Prop) (xs : List α)
    (h : ∀ x ∈ xs, ∀ s, inv s → wp (body x) (fun _ => inv) fail s) :
    ∀ s, inv s → wp (each body xs) (fun _ => inv) fail s := by
  induction xs with
  | nil => exact fun s hs => hs
  | cons x xs ih =>
    intro s hs
    rw [each, wp_bind]
    exact wp_mono (h x (by simp) s hs)
      (fun _ s' hs' => ih (fun y hy => h y (by simp [hy])) s' hs') (fun _ _ hf => hf)

/-- The loop that carries a value: `inv` speaks of the items still to come and the value. -/
theorem wp_fold {body : β → α → Eff σ β} {fail : String → σ → Prop}
    (inv : List α → β → σ → Prop) (xs : List α)
    (h : ∀ x rest b s, inv (x :: rest) b s → wp (body b x) (inv rest) fail s) :
    ∀ b s, inv xs b s → wp (fold body b xs) (inv []) fail s := by
  induction xs with
  | nil => exact fun b s hs => hs
  | cons x xs ih =>
    intro b s hs
    rw [fold, wp_bind]
    exact wp_mono (h x xs b s hs) ih fun _ _ hf => hf

/-- The loop that can stop early: `inv` speaks of the items still to come, `stopped` of a stop. -/
theorem wp_eachUntil {body : α → Eff σ Bool} {fail : String → σ → Prop}
    (inv : List α → σ → Prop) (stopped : σ → Prop) (xs : List α)
    (h : ∀ x rest s, inv (x :: rest) s →
      wp (body x) (fun goOn s' => if goOn then inv rest s' else stopped s') fail s) :
    ∀ s, inv xs s → wp (eachUntil body xs) (fun _ s' => inv [] s' ∨ stopped s') fail s := by
  induction xs with
  | nil => exact fun s hs => .inl hs
  | cons x xs ih =>
    intro s hs
    rw [eachUntil, wp_bind]
    apply wp_mono (h x xs s hs) _ (fun _ _ hf => hf)
    intro goOn s' hs'
    cases goOn with
    | false => exact .inr hs'
    | true => exact ih s' hs'

theorem each_append (body : α → Eff σ Unit) (xs ys : List α) (s : σ) :
    each body (xs ++ ys) s = match each body xs s with
      | (.ok (), s') => each body ys s'
      | (.error e, s') => (.error e, s') := by
  induction xs generalizing s with
  | nil => rfl
  | cons x xs ih =>
    rw [List.cons_append, each, each, bind_apply, bind_apply]
    cases body x s with
    | mk outcome s' =>
      cases outcome with
      | ok _ => exact ih s'
      | error e => rfl

/-- A loop went through exactly when it went through up to the last round, and through that one. -/
theorem each_concat_ok (body : α → Eff σ Unit) (xs : List α) (x : α) (s s'' : σ) :
    each body (xs ++ [x]) s = (.ok (), s'') ↔
      ∃ s', each body xs s = (.ok (), s') ∧ body x s' = (.ok (), s'') := by
  have hlast : ∀ s', each body [x] s' = body x s' := by
    intro s'
    rw [each, bind_apply]
    cases body x s' with
    | mk outcome t =>
      cases outcome with
      | ok u => rfl
      | error e => rfl
  rw [each_append]
  cases each body xs s with
  | mk outcome s' =>
    cases outcome with
    | ok u => simp [hlast]
    | error e => simp

/-- A loop that raised went through some rounds and raised in the next one. -/
theorem each_error {body : α → Eff σ Unit} {xs : List α} {s s'' : σ} {e : String}
    (h : each body xs s = (.error e, s'')) :
    ∃ before x after s', xs = before ++ x :: after ∧ each body before s = (.ok (), s') ∧
      body x s' = (.error e, s'') := by
  induction xs generalizing s with
  | nil => cases h
  | cons x xs ih =>
    rw [each, bind_apply] at h
    cases hx : body x s with
    | mk outcome s' =>
      rw [hx] at h
      cases outcome with
      | error e' =>
        cases h
        exact ⟨[], x, xs, s, rfl, rfl, hx⟩
      | ok u =>
        obtain ⟨before, y, after, t, rfl, hbefore, hy⟩ := ih h
        refine ⟨x :: before, y, after, t, rfl, ?_, hy⟩
        rw [each, bind_apply, hx]
        exact hbefore

/-- Whether it returns or raises, the computation moves the state along `rel`. -/
def Moves (rel : σ → σ → Prop) (x : Eff σ α) : Prop :=
  ∀ s, wp x (fun _ => rel s) (fun _ => rel s) s

section Moves

variable {rel : σ → σ → Prop}

theorem moves_pure [Std.Refl rel] (a : α) : Moves rel (pure a : Eff σ α) := fun s => Std.Refl.refl s

theorem moves_throw [Std.Refl rel] (e : String) : Moves rel (throw e : Eff σ α) := fun s =>
  Std.Refl.refl s

theorem moves_get [Std.Refl rel] : Moves rel (get : Eff σ σ) := fun s => Std.Refl.refl s

theorem moves_modify {f : σ → σ} (h : ∀ s, rel s (f s)) : Moves rel (modify f : Eff σ Unit) := h

theorem Moves.bind [IsTrans σ rel] {x : Eff σ β} {f : β → Eff σ α} (hx : Moves rel x)
    (hf : ∀ b, Moves rel (f b)) : Moves rel (x >>= f) := by
  intro s
  rw [wp_bind]
  apply wp_mono (hx s) _ (fun _ _ h => h)
  intro b s' h
  exact wp_mono (hf b s') (fun _ _ h' => IsTrans.trans _ _ _ h h')
    (fun _ _ h' => IsTrans.trans _ _ _ h h')

/-- Symbolic execution past a computation of which only the movement matters. -/
theorem Moves.wp_bind {x : Eff σ β} {f : β → Eff σ α} (hx : Moves rel x)
    (hf : ∀ b s', rel s s' → wp (f b) post fail s') (hfail : ∀ e s', rel s s' → fail e s') :
    wp (x >>= f) post fail s := by
  rw [Eff.wp_bind]
  exact wp_mono (hx s) hf hfail

theorem Moves.tryCatch [IsTrans σ rel] {x : Eff σ α} {handle : String → Eff σ α} (hx : Moves rel x)
    (hh : ∀ e, Moves rel (handle e)) : Moves rel (tryCatch x handle) := by
  intro s
  rw [wp_tryCatch]
  apply wp_mono (hx s) (fun _ _ h => h)
  intro e s' h
  exact wp_mono (hh e s') (fun _ _ h' => IsTrans.trans _ _ _ h h')
    (fun _ _ h' => IsTrans.trans _ _ _ h h')

theorem Moves.ite {c : Prop} [Decidable c] {x y : Eff σ α} (hx : Moves rel x) (hy : Moves rel y) :
    Moves rel (if c then x else y) := by
  split
  · exact hx
  · exact hy

theorem moves_each [Std.Refl rel] [IsTrans σ rel] {body : α → Eff σ Unit}
    (h : ∀ a, Moves rel (body a)) (xs : List α) : Moves rel (each body xs) := by
  induction xs with
  | nil => exact moves_pure ()
  | cons x xs ih =>
    rw [each]
    exact (h x).bind fun _ => ih

end Moves

end Eff

end ChannelManager
