import ChannelManager.Lib.Dict

/-!
# Rendering a template

The loop the two template engines share: literal text up to a brace, the directive up to the brace that
closes it, and for a conditional the body up to the `{/if}` that matches. What a condition means and
what a placeholder shows is left to the engine.
-/

namespace ChannelManager.Templates

abbrev Text := List Char

/-- Why a rendering stops; `host` is an error of the language's own. -/
inductive TemplateError
  | tooLong
  | unclosed (position : ℕ)
  | unmatchedEndif
  | missingEndif
  | unknownTransform (name : Text)
  | host
deriving DecidableEq

/-- `MAX_TEMPLATE_LEN`. -/
def maxTemplateLen : ℕ := 4096

/-- `MAX_INPUT_LEN`. -/
def maxInputLen : ℕ := 1024

def truncate (value : Text) : Text := value.take maxInputLen

/-- What stands before the first `c`, and what stands after it if there is one. -/
def cut (c : Char) (t : Text) : Text × Option Text :=
  (t.takeWhile (· ≠ c), match t.dropWhile (· ≠ c) with
    | [] => none
    | _ :: rest => some rest)

/-- What a template starts with. -/
inductive Scan
  | text (literal : Text)
  | unclosed (literal : Text)
  | directive (literal directive rest : Text)

def scan (template : Text) : Scan :=
  match cut '{' template with
  | (literal, none) => .text literal
  | (literal, some rest) =>
    match cut '}' rest with
    | (_, none) => .unclosed literal
    | (directive, some rest) => .directive literal directive rest

def isIf (directive : Text) : Bool := "if:".toList.isPrefixOf directive

def isEndif (directive : Text) : Bool := directive = "/if".toList

/-- `_find_matching_endif`: the body before the `{/if}` that matches and what stands after it. -/
def findMatchingEndif : ℕ → ℕ → Text → Option (Text × Text)
  | 0, _, _ => none
  | fuel + 1, depth, template =>
    match scan template with
    | .text _ => none
    | .unclosed _ => none
    | .directive literal directive rest =>
      if isEndif directive && depth = 1 then some (literal, rest)
      else
        let depth := if isIf directive then depth + 1 else if isEndif directive then depth - 1 else depth
        (findMatchingEndif fuel depth rest).map fun found =>
          (literal ++ '{' :: directive ++ '}' :: found.1, found.2)

section Render

variable (holds : Text → Bool) (placeholder : Text → Except TemplateError Text)

/-- `_render_segment`, `position` characters into the segment. Every turn takes a character at least, so
the length of the template is fuel enough. -/
def renderSegment : ℕ → ℕ → Text → Except TemplateError Text
  | 0, _, _ => .ok []
  | fuel + 1, position, template =>
    match scan template with
    | .text literal => .ok literal
    | .unclosed literal => .error (.unclosed (position + literal.length))
    | .directive literal directive rest =>
      let close := position + literal.length + directive.length + 2
      if isIf directive then
        match findMatchingEndif rest.length 1 rest with
        | none => .error .missingEndif
        | some (body, after) =>
          (if holds (directive.drop 3) then renderSegment fuel 0 body else .ok []).bind fun shown =>
            (renderSegment fuel (close + body.length + 5) after).map fun tail => literal ++ shown ++ tail
      else if isEndif directive then .error .unmatchedEndif
      else
        (placeholder directive).bind fun shown =>
          (renderSegment fuel close rest).map fun tail => literal ++ shown ++ tail

/-- A directive that a rendering evaluates. -/
inductive Visit
  | condition (condition : Text)
  | placeholder (body : Text)

/-- The directives a rendering evaluates, up to an error. -/
def visited : ℕ → Text → List Visit
  | 0, _ => []
  | fuel + 1, template =>
    match scan template with
    | .text _ => []
    | .unclosed _ => []
    | .directive _ directive rest =>
      if isIf directive then
        match findMatchingEndif rest.length 1 rest with
        | none => []
        | some (body, after) =>
          let taken := holds (directive.drop 3)
          Visit.condition (directive.drop 3) :: (if taken then visited fuel body else []) ++
            match if taken then renderSegment holds placeholder fuel 0 body else .ok [] with
            | .error _ => []
            | .ok _ => visited fuel after
      else if isEndif directive then []
      else
        Visit.placeholder directive ::
          match placeholder directive with
          | .error _ => []
          | .ok _ => visited fuel rest

end Render

/-! ## The fuel is enough -/

theorem length_cut {c : Char} {t before rest : Text} (h : cut c t = (before, some rest)) :
    before.length + 1 + rest.length = t.length := by
  obtain ⟨hbefore, hrest⟩ := Prod.mk.inj h
  split at hrest
  · cases hrest
  · rename_i d rest' hdrop
    cases hrest
    have hsplit := congrArg List.length (List.takeWhile_append_dropWhile (p := (· ≠ c)) (l := t))
    rw [hdrop, hbefore, List.length_append, List.length_cons] at hsplit
    omega

theorem length_scan {template literal directive rest : Text}
    (h : scan template = .directive literal directive rest) :
    literal.length + directive.length + 2 + rest.length = template.length := by
  unfold scan at h
  split at h
  · cases h
  · rename_i literal' rest' hbrace
    split at h
    · cases h
    · rename_i hclose
      cases h
      have := length_cut hbrace
      have := length_cut hclose
      omega

theorem length_findMatchingEndif {fuel depth : ℕ} {template body after : Text}
    (h : findMatchingEndif fuel depth template = some (body, after)) :
    body.length + 5 + after.length = template.length := by
  induction fuel generalizing depth template body after with
  | zero => cases h
  | succ fuel ih =>
    rw [findMatchingEndif] at h
    split at h
    · cases h
    · cases h
    · rename_i literal directive rest hscan
      have hlength := length_scan hscan
      split at h
      next hends =>
        have hdirective : directive = "/if".toList :=
          of_decide_eq_true (Bool.and_eq_true_iff.mp hends).1
        have hthree : directive.length = 3 := by rw [hdirective]; rfl
        cases h
        omega
      · obtain ⟨⟨body', after'⟩, hfound, heq⟩ := Option.map_eq_some_iff.mp h
        cases heq
        have hrest := ih hfound
        simp only [List.length_append, List.length_cons]
        omega

section Fuel

variable {holds : Text → Bool} {placeholder : Text → Except TemplateError Text}

/-- With more fuel than characters a rendering is the same. -/
theorem renderSegment_fuel {fuel more position : ℕ} {template : Text}
    (h : template.length ≤ fuel) (hmore : fuel ≤ more) :
    renderSegment holds placeholder more position template =
      renderSegment holds placeholder fuel position template := by
  induction fuel generalizing more position template with
  | zero =>
    cases List.length_eq_zero_iff.mp (Nat.le_zero.mp h)
    cases more <;> rfl
  | succ fuel ih =>
    obtain ⟨more, rfl⟩ : ∃ n, more = n + 1 := ⟨more - 1, by omega⟩
    have hmore' : fuel ≤ more := by omega
    rw [renderSegment, renderSegment]
    cases hscan : scan template with
    | text literal => rfl
    | unclosed literal => rfl
    | directive literal directive rest =>
      have hlength := length_scan hscan
      dsimp only
      cases hendif : findMatchingEndif rest.length 1 rest with
      | none => rw [ih (by omega) hmore']
      | some found =>
        have hfound := length_findMatchingEndif hendif
        dsimp only
        rw [ih (by omega) hmore', ih (by omega) hmore', ih (by omega) hmore']

end Fuel

/-! ## Two renderings of one template -/

/-- Both stop with an error, or both give the same. -/
def Agree {ε ε' α : Type} : Except ε α → Except ε' α → Prop
  | .error _, .error _ => True
  | .ok a, .ok b => a = b
  | _, _ => False

instance {ε ε' α : Type} [DecidableEq α] (x : Except ε α) (y : Except ε' α) : Decidable (Agree x y) :=
  match x, y with
  | .error _, .error _ => isTrue trivial
  | .ok a, .ok b => inferInstanceAs (Decidable (a = b))
  | .ok _, .error _ => isFalse id
  | .error _, .ok _ => isFalse id

section Agree

variable {ε ε' α β : Type} {x : Except ε α} {y : Except ε' α}

theorem Agree.bind {f : α → Except ε β} {g : α → Except ε' β} (h : Agree x y)
    (hf : ∀ a, x = .ok a → Agree (f a) (g a)) : Agree (x.bind f) (y.bind g) := by
  cases x with
  | error e =>
    cases y with
    | error e' => trivial
    | ok b => cases h
  | ok a =>
    cases y with
    | error e' => cases h
    | ok b =>
      cases h
      exact hf a rfl

theorem Agree.map (f : α → β) (h : Agree x y) : Agree (x.map f) (y.map f) := by
  cases x with
  | error e =>
    cases y with
    | error e' => trivial
    | ok b => cases h
  | ok a =>
    cases y with
    | error e' => cases h
    | ok b => exact congrArg f h

end Agree

section Pair

variable {holds holds' : Text → Bool} {placeholder placeholder' : Text → Except TemplateError Text}

/-- Two engines agree on a directive. -/
def AgreeOn (holds holds' : Text → Bool) (placeholder placeholder' : Text → Except TemplateError Text) :
    Visit → Prop
  | .condition condition => holds condition = holds' condition
  | .placeholder body => Agree (placeholder body) (placeholder' body)

/-- Engines that agree on the directives one of them evaluates agree on the template. -/
theorem renderSegment_agree {fuel position : ℕ} {template : Text}
    (h : ∀ v ∈ visited holds placeholder fuel template,
      AgreeOn holds holds' placeholder placeholder' v) :
    Agree (renderSegment holds placeholder fuel position template)
      (renderSegment holds' placeholder' fuel position template) := by
  induction fuel generalizing position template with
  | zero => exact rfl
  | succ fuel ih =>
    rw [visited] at h
    rw [renderSegment, renderSegment]
    cases hscan : scan template with
    | text literal => exact rfl
    | unclosed literal => trivial
    | directive literal directive rest =>
      rw [hscan] at h
      dsimp only at h ⊢
      by_cases hif : isIf directive = true
      · rw [if_pos hif] at h
        rw [if_pos hif, if_pos hif]
        cases hendif : findMatchingEndif rest.length 1 rest with
        | none => trivial
        | some found =>
          rw [hendif] at h
          dsimp only at h ⊢
          have hcondition : holds (directive.drop 3) = holds' (directive.drop 3) :=
            h (.condition _) (by simp)
          rw [← hcondition]
          have hbody : Agree (if holds (directive.drop 3) then
                renderSegment holds placeholder fuel 0 found.1 else .ok [])
              (if holds (directive.drop 3) then
                renderSegment holds' placeholder' fuel 0 found.1 else .ok []) := by
            split
            · rename_i htaken
              exact ih fun v hv => h v (by simp [htaken, hv])
            · exact rfl
          apply hbody.bind
          intro shown hshown
          apply Agree.map
          exact ih fun v hv => h v (by simp [hshown, hv])
      · rw [if_neg hif] at h
        rw [if_neg hif, if_neg hif]
        by_cases hendif : isEndif directive = true
        · rw [if_pos hendif, if_pos hendif]
          trivial
        · rw [if_neg hendif] at h
          rw [if_neg hendif, if_neg hendif]
          have hplaceholder : Agree (placeholder directive) (placeholder' directive) :=
            h (.placeholder directive) (by simp)
          apply hplaceholder.bind
          intro shown hshown
          apply Agree.map
          exact ih fun v hv => h v (by simp [hshown, hv])

end Pair

end ChannelManager.Templates
