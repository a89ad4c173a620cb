import ChannelManager.Lib.Effect

/-!
# Two runs side by side

Two computations started in related states, that answer the same and leave related states. Every
construct has one rule, so a program is coupled with itself when the states agree on what it reads.
-/

namespace ChannelManager

namespace Eff

variable {σ α β : Type} {rel : σ → σ → Prop} {s t : σ}

/-- From `s` and `t` the computations answer or raise the same and end in related states. -/
def Coupled (rel : σ → σ → Prop) (x y : Eff σ α) (s t : σ) : Prop :=
  (x s).1 = (y t).1 ∧ rel (x s).2 (y t).2

theorem coupled_pure (h : rel s t) (a : α) : Coupled rel (pure a) (pure a) s t := ⟨rfl, h⟩

theorem coupled_throw (h : rel s t) (e : String) :
    Coupled rel (throw e : Eff σ α) (throw e) s t := ⟨rfl, h⟩

theorem coupled_modify {f g : σ → σ} (h : rel (f s) (g t)) :
    Coupled rel (modify f) (modify g) s t := ⟨rfl, h⟩

theorem Coupled.bind {x y : Eff σ β} {f g : β → Eff σ α} (h : Coupled rel x y s t)
    (hf : ∀ b s' t', rel s' t' → Coupled rel (f b) (g b) s' t') :
    Coupled rel (x >>= f) (y >>= g) s t := by
  obtain ⟨hout, hrel⟩ := h
  rw [Coupled, bind_apply, bind_apply]
  cases hx : x s with
  | mk outcome s' =>
    cases hy : y t with
    | mk outcome' t' =>
      rw [hx, hy] at hout hrel
      cases hout
      cases outcome with
      | error e => exact ⟨rfl, hrel⟩
      | ok b => exact hf b s' t' hrel

/-- The two computations read their own states. -/
theorem coupled_get {f g : σ → Eff σ α} (h : Coupled rel (f s) (g t) s t) :
    Coupled rel (get >>= f) (get >>= g) s t := h

theorem Coupled.tryCatch {x y : Eff σ α} {handle handle' : String → Eff σ α}
    (h : Coupled rel x y s t)
    (hh : ∀ e s' t', rel s' t' → Coupled rel (handle e) (handle' e) s' t') :
    Coupled rel (tryCatch x handle) (tryCatch y handle') s t := by
  obtain ⟨hout, hrel⟩ := h
  rw [Coupled, tryCatch_apply, tryCatch_apply]
  cases hx : x s with
  | mk outcome s' =>
    cases hy : y t with
    | mk outcome' t' =>
      rw [hx, hy] at hout hrel
      cases hout
      cases outcome with
      | error e => exact hh e s' t' hrel
      | ok b => exact ⟨rfl, hrel⟩

theorem Coupled.ite {c : Prop} [Decidable c] {x y x' y' : Eff σ α} (h : Coupled rel x y s t)
    (h' : Coupled rel x' y' s t) :
    Coupled rel (if c then x else x') (if c then y else y') s t := by
  split
  · exact h
  · exact h'

theorem coupled_each {body body' : α → Eff σ Unit}
    (h : ∀ a s t, rel s t → Coupled rel (body a) (body' a) s t) (xs : List α) :
    ∀ s t, rel s t → Coupled rel (each body xs) (each body' xs) s t := by
  induction xs with
  | nil => exact fun s t hst => coupled_pure hst ()
  | cons x xs ih =>
    intro s t hst
    rw [each, each]
    exact (h x s t hst).bind fun _ s' t' h' => ih s' t' h'

end Eff

end ChannelManager
