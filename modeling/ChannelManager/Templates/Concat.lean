import ChannelManager.Templates.Segment

/-!
# Rendering one template after another

A template that renders leaves nothing open, so what follows it is scanned and rendered as it is on
its own.
-/

namespace ChannelManager.Templates

theorem cut_cons (c d : Char) (t : Text) :
    cut c (d :: t) = if d = c then ([], some t) else (d :: (cut c t).1, (cut c t).2) := by
  by_cases h : d = c
  · simp [cut, h]
  · simp [cut, h]

theorem cut_append_of_some {c : Char} {t before rest : Text} (h : cut c t = (before, some rest))
    (u : Text) : cut c (t ++ u) = (before, some (rest ++ u)) := by
  induction t generalizing before with
  | nil => cases h
  | cons d t ih =>
    rw [List.cons_append, cut_cons]
    rw [cut_cons] at h
    split at h
    next hd =>
      rw [if_pos hd]
      cases h
      rfl
    next hd =>
      obtain ⟨rfl, hrest⟩ := Prod.mk.inj h
      rw [if_neg hd, ih (Prod.ext rfl hrest)]

theorem cut_append_of_none {c : Char} {t before : Text} (h : cut c t = (before, none)) (u : Text) :
    before = t ∧ cut c (t ++ u) = (t ++ (cut c u).1, (cut c u).2) := by
  induction t generalizing before with
  | nil =>
    obtain ⟨rfl, -⟩ := Prod.mk.inj h
    exact ⟨rfl, rfl⟩
  | cons d t ih =>
    rw [List.cons_append, cut_cons]
    rw [cut_cons] at h
    split at h
    · cases h
    next hd =>
      obtain ⟨rfl, hrest⟩ := Prod.mk.inj h
      obtain ⟨hall, htogether⟩ := ih (Prod.ext rfl hrest)
      rw [if_neg hd, htogether]
      exact ⟨congrArg (d :: ·) hall, rfl⟩

theorem scan_append_of_directive {a literal directive rest : Text}
    (h : scan a = .directive literal directive rest) (b : Text) :
    scan (a ++ b) = .directive literal directive (rest ++ b) := by
  unfold scan at h ⊢
  split at h
  · cases h
  next hbrace =>
    rw [cut_append_of_some hbrace]
    dsimp only
    split at h
    · cases h
    next hclose =>
      rw [cut_append_of_some hclose]
      cases h
      rfl

/-- A literal in front of a template is in front of the first literal in it. -/
def Scan.after (literal : Text) : Scan → Scan
  | .text literal' => .text (literal ++ literal')
  | .unclosed literal' => .unclosed (literal ++ literal')
  | .directive literal' inside rest => .directive (literal ++ literal') inside rest

theorem scan_append_of_text {a literal : Text} (h : scan a = .text literal) (b : Text) :
    literal = a ∧ scan (a ++ b) = (scan b).after a := by
  unfold scan at h ⊢
  split at h
  next hbrace =>
    obtain ⟨hall, htogether⟩ := cut_append_of_none hbrace b
    rw [htogether]
    cases h
    refine ⟨hall, ?_⟩
    cases hb : cut '{' b with
    | mk before rest =>
      cases rest with
      | none => rfl
      | some rest =>
        dsimp only
        cases hclose : cut '}' rest with
        | mk directive after =>
          cases after with
          | none => rfl
          | some after => rfl
  next =>
    split at h
    · cases h
    · cases h

/-- The `{/if}` that matches stays the same with more text behind it. -/
theorem findMatchingEndif_append {fuel more depth : ℕ} {t body after : Text}
    (h : findMatchingEndif fuel depth t = some (body, after)) (hmore : fuel ≤ more) (b : Text) :
    findMatchingEndif more depth (t ++ b) = some (body, after ++ b) := by
  induction fuel generalizing more depth t body after with
  | zero => cases h
  | succ fuel ih =>
    obtain ⟨more, rfl⟩ : ∃ n, more = n + 1 := ⟨more - 1, by omega⟩
    rw [findMatchingEndif] at h ⊢
    split at h
    · cases h
    · cases h
    next literal directive rest hscan =>
      rw [scan_append_of_directive hscan]
      dsimp only at h ⊢
      split at h
      next hends =>
        rw [if_pos hends]
        cases h
        rfl
      next hopen =>
        rw [if_neg hopen]
        obtain ⟨⟨body', after'⟩, hfound, heq⟩ := Option.map_eq_some_iff.mp h
        rw [ih hfound (by omega)]
        cases heq
        rfl

section Render

variable {holds : Text → Bool} {placeholder : Text → Except TemplateError Text}

theorem bind_eq_ok {ε α β : Type} {x : Except ε α} {f : α → Except ε β} {b : β} :
    x.bind f = .ok b ↔ ∃ a, x = .ok a ∧ f a = .ok b := by
  cases x with
  | error e => exact ⟨nofun, fun ⟨_, h, _⟩ => nomatch h⟩
  | ok a => exact ⟨fun h => ⟨a, rfl, h⟩, fun ⟨_, h, hf⟩ => by cases h; exact hf⟩

theorem map_eq_ok {ε α β : Type} {x : Except ε α} {f : α → β} {b : β} :
    x.map f = .ok b ↔ ∃ a, x = .ok a ∧ f a = b := by
  cases x with
  | error e => exact ⟨nofun, fun ⟨_, h, _⟩ => nomatch h⟩
  | ok a => exact ⟨fun h => ⟨a, rfl, Except.ok.inj h⟩, fun ⟨_, h, hf⟩ => by cases h; exact congrArg _ hf⟩

theorem map_bind {ε α β γ : Type} (x : Except ε α) (f : α → Except ε β) (g : β → γ) :
    (x.bind f).map g = x.bind fun a => (f a).map g := by
  cases x <;> rfl

theorem map_map {ε α β γ : Type} (x : Except ε α) (f : α → β) (g : β → γ) :
    (x.map f).map g = x.map fun a => g (f a) := by
  cases x <;> rfl

theorem bind_map {ε α β γ : Type} (x : Except ε α) (f : α → β) (g : β → Except ε γ) :
    (x.map f).bind g = x.bind fun a => g (f a) := by
  cases x <;> rfl

/-- What a template renders to does not depend on where it stands. -/
theorem renderSegment_position {fuel position : ℕ} {t x : Text}
    (h : renderSegment holds placeholder fuel position t = .ok x) (position' : ℕ) :
    renderSegment holds placeholder fuel position' t = .ok x := by
  induction fuel generalizing position position' t x with
  | zero => exact h
  | succ fuel ih =>
    rw [renderSegment] at h ⊢
    cases hscan : scan t with
    | text literal =>
      rw [hscan] at h
      exact h
    | unclosed literal =>
      rw [hscan] at h
      cases h
    | directive literal directive rest =>
      rw [hscan] at h
      dsimp only at h ⊢
      split at h
      next hif =>
        rw [if_pos hif]
        split at h
        · cases h
        next body after hendif =>
          obtain ⟨shown, hshown, h⟩ := bind_eq_ok.mp h
          obtain ⟨tail, htail, h⟩ := map_eq_ok.mp h
          rw [hshown]
          show (renderSegment holds placeholder fuel _ after).map _ = _
          rw [ih htail, ← h]
          rfl
      next hif =>
        rw [if_neg hif]
        split at h
        · cases h
        next hendif =>
          obtain ⟨shown, hshown, h⟩ := bind_eq_ok.mp h
          obtain ⟨tail, htail, h⟩ := map_eq_ok.mp h
          rw [if_neg hendif, hshown]
          show (renderSegment holds placeholder fuel _ rest).map _ = _
          rw [ih htail, ← h]
          rfl

/-- A template that renders is followed by what stands behind it. -/
theorem renderSegment_append {fuel position : ℕ} {a b x : Text} (hfuel : (a ++ b).length ≤ fuel)
    (h : renderSegment holds placeholder fuel position a = .ok x) :
    renderSegment holds placeholder fuel position (a ++ b) =
      (renderSegment holds placeholder fuel (position + a.length) b).map (x ++ ·) := by
  induction fuel generalizing position a x with
  | zero =>
    cases h
    rfl
  | succ fuel ih =>
    -- What stands behind renders with less fuel too, as soon as a directive is done.
    have hless : ∀ {position : ℕ}, b.length ≤ fuel →
        renderSegment holds placeholder (fuel + 1) position b =
          renderSegment holds placeholder fuel position b :=
      fun hb => renderSegment_fuel hb (Nat.le_succ fuel)
    rw [List.length_append] at hfuel
    rw [renderSegment] at h
    cases hscan : scan a with
    | text literal =>
      obtain ⟨rfl, htogether⟩ := scan_append_of_text hscan b
      rw [hscan] at h
      cases h
      rw [renderSegment, renderSegment, htogether]
      cases scan b with
      | text literal' => rfl
      | unclosed literal' =>
        show Except.error _ = Except.error _
        rw [List.length_append, Nat.add_assoc]
      | directive literal' directive rest =>
        dsimp only [Scan.after]
        rw [List.length_append, ← Nat.add_assoc]
        split
        · cases findMatchingEndif rest.length 1 rest with
          | none => rfl
          | some found =>
            dsimp only
            rw [map_bind]
            refine congrArg (Except.bind _) (funext fun shown => ?_)
            rw [map_map]
            simp only [List.append_assoc]
        · split
          · rfl
          · rw [map_bind]
            refine congrArg (Except.bind _) (funext fun shown => ?_)
            rw [map_map]
            simp only [List.append_assoc]
    | unclosed literal =>
      rw [hscan] at h
      cases h
    | directive literal directive rest =>
      rw [hscan] at h
      have hlength := length_scan hscan
      rw [renderSegment, scan_append_of_directive hscan]
      dsimp only at h ⊢
      split at h
      next hif =>
        rw [if_pos hif]
        split at h
        · cases h
        next body after hendif =>
          have hfound := length_findMatchingEndif hendif
          obtain ⟨shown, hshown, h⟩ := bind_eq_ok.mp h
          obtain ⟨tail, htail, rfl⟩ := map_eq_ok.mp h
          have hnext := ih (a := after) (by rw [List.length_append]; omega) htail
          rw [findMatchingEndif_append hendif (by rw [List.length_append]; omega)]
          dsimp only
          rw [hshown]
          show (renderSegment holds placeholder fuel _ (after ++ b)).map _ = _
          rw [hnext, map_map, hless (by omega)]
          have hwhere : position + literal.length + directive.length + 2 + body.length + 5 +
              after.length = position + a.length := by
            omega
          rw [hwhere]
          simp only [List.append_assoc]
      next hif =>
        rw [if_neg hif]
        split at h
        · cases h
        next hendif =>
          obtain ⟨shown, hshown, h⟩ := bind_eq_ok.mp h
          obtain ⟨tail, htail, rfl⟩ := map_eq_ok.mp h
          have hnext := ih (a := rest) (by rw [List.length_append]; omega) htail
          rw [if_neg hendif, hshown]
          show (renderSegment holds placeholder fuel _ (rest ++ b)).map _ = _
          rw [hnext, map_map, hless (by omega)]
          have hwhere : position + literal.length + directive.length + 2 + rest.length =
              position + a.length := by
            omega
          rw [hwhere]
          simp only [List.append_assoc]

end Render

end ChannelManager.Templates
