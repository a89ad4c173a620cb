import ChannelManager.Templates.Concat
import ChannelManager.Templates.Trace

/-!
# What a trace shows

A rendering with a trace gives what the one without gives, and its trace shows just that. Templates
that render can be rendered one after the other.
-/

namespace ChannelManager.Templates

mutual

/-- What an entry adds to the output: a literal its text, a placeholder its final value, a conditional
what its body shows when it was taken. -/
def TraceEntry.shown : TraceEntry → Text
  | .literal text => text
  | .placeholder _ _ _ _ finalValue => finalValue
  | .conditional _ _ taken _ body => if taken then shownAll body else []

/-- What a trace shows, entry after entry. -/
def shownAll : List TraceEntry → Text
  | [] => []
  | entry :: rest => entry.shown ++ shownAll rest

end

theorem shownAll_append (trace trace' : List TraceEntry) :
    shownAll (trace ++ trace') = shownAll trace ++ shownAll trace' := by
  induction trace with
  | nil => rfl
  | cons entry trace ih => rw [List.cons_append, shownAll, shownAll, ih, List.append_assoc]

@[simp] theorem shownAll_literalEntry (literal : Text) : shownAll (literalEntry literal) = literal := by
  unfold literalEntry
  split
  next h => rw [h, shownAll]
  next => rw [shownAll, TraceEntry.shown, shownAll, List.append_nil]

/-- A rendering beside the same one into a trace: both raise the same or give the same, and the entries
added show it. -/
inductive Traced (trace : List TraceEntry) :
    Except TemplateError (Text × Option (List TraceEntry)) →
    Except TemplateError (Text × Option (List TraceEntry)) → Prop
  | error (e : TemplateError) : Traced trace (.error e) (.error e)
  | ok {output : Text} {trace' : List TraceEntry} (entries : List TraceEntry)
      (appended : trace' = trace ++ entries) (shown : shownAll entries = output) :
      Traced trace (.ok (output, none)) (.ok (output, some trace'))

section Traced

variable {trace : List TraceEntry}
  {plain traced : Except TemplateError (Text × Option (List TraceEntry))}

/-- Literal text, something rendered, and the rest of the template. -/
theorem Traced.andThen {literal : Text} (h : Traced (trace ++ literalEntry literal) plain traced)
    {next : Option (List TraceEntry) → Except TemplateError (Text × Option (List TraceEntry))}
    (hnext : ∀ trace', Traced trace' (next none) (next (some trace'))) :
    Traced trace
      (plain.bind fun shown =>
        (next shown.2).map fun tail => (literal ++ shown.1 ++ tail.1, tail.2))
      (traced.bind fun shown =>
        (next shown.2).map fun tail => (literal ++ shown.1 ++ tail.1, tail.2)) := by
  cases h with
  | error e => exact .error e
  | ok entries happended hshown =>
    rename_i output trace₁
    have hrest := hnext trace₁
    show Traced trace ((next none).map _) ((next (some trace₁)).map _)
    generalize next none = before at hrest ⊢
    generalize next (some trace₁) = after at hrest ⊢
    cases hrest with
    | error e => exact .error e
    | ok later hlater hshownLater =>
      refine .ok (literalEntry literal ++ entries ++ later) ?_ ?_
      · rw [hlater, happended]
        simp only [List.append_assoc]
      · rw [shownAll_append, shownAll_append, shownAll_literalEntry, hshown, hshownLater]

/-- The entry of a conditional stands for what its body showed. -/
theorem Traced.conditional (h : Traced [] plain traced) (trace : List TraceEntry) (condition : Text)
    (kindDetail : ConditionKind) (value : Text) :
    Traced trace (plain.map fun shown => (shown.1, none))
      (traced.map fun shown =>
        (shown.1, some (trace ++ [.conditional condition kindDetail true value (shown.2.getD [])]))) := by
  cases h with
  | error e => exact .error e
  | ok entries happended hshown =>
    refine .ok _ rfl ?_
    rw [shownAll, TraceEntry.shown, if_pos rfl, shownAll, List.append_nil, happended,
      List.nil_append]
    exact hshown

end Traced

section Render

variable (str : StrMethods) (search : Text → Text → Bool) (groups : Dict Text Text)

theorem renderPlaceholder_traced (body : Text) (trace : List TraceEntry) :
    Traced trace (renderPlaceholder str groups body none)
      (renderPlaceholder str groups body (some trace)) := by
  have hone : ∀ raw name initial pipes final,
      shownAll [.placeholder raw name initial pipes final] = final := by
    intro raw name initial pipes final
    rw [shownAll, TraceEntry.shown, shownAll, List.append_nil]
  unfold renderPlaceholder
  dsimp only
  split
  · exact .ok _ rfl (hone _ _ _ _ _)
  · cases applyPipes str (body.splitOn '|').tail
        (Python.group groups (str.strip ((body.splitOn '|').headD []))) with
    | error e => exact .error e
    | ok done => exact .ok _ rfl (hone _ _ _ _ _)

/-- A segment with a trace and without. -/
theorem renderInto_traced (fuel position : ℕ) (template : Text) (trace : List TraceEntry) :
    Traced trace (renderInto str search groups fuel position template none)
      (renderInto str search groups fuel position template (some trace)) := by
  induction fuel generalizing position template trace with
  | zero => exact .ok [] (List.append_nil trace).symm rfl
  | succ fuel ih =>
    rw [renderInto, renderInto]
    cases scan template with
    | text literal => exact .ok _ rfl (shownAll_literalEntry literal)
    | unclosed literal => exact .error _
    | directive literal directive rest =>
      dsimp only
      by_cases hif : isIf directive = true
      · rw [if_pos hif, if_pos hif]
        cases findMatchingEndif rest.length 1 rest with
        | none => exact .error _
        | some found =>
          obtain ⟨body, after⟩ := found
          dsimp only
          rcases evaluateCondition search groups (directive.drop 3) with ⟨taken, kindDetail, value⟩
          cases taken with
          | true =>
            have htaken := ((ih 0 body []).conditional (trace ++ literalEntry literal)
              (directive.drop 3) kindDetail value).andThen fun trace' =>
                ih (position + literal.length + directive.length + 2 + body.length + 5) after trace'
            rw [bind_map, bind_map] at htaken
            exact htaken
          | false =>
            have hskipped : Traced (trace ++ literalEntry literal) (.ok ([], none)) (.ok ([],
                some (trace ++ literalEntry literal ++
                  [.conditional (directive.drop 3) kindDetail false value []]))) := by
              refine .ok _ rfl ?_
              rw [shownAll, TraceEntry.shown, if_neg Bool.false_ne_true, shownAll, List.append_nil]
            exact hskipped.andThen fun trace' =>
              ih (position + literal.length + directive.length + 2 + body.length + 5) after trace'
      · rw [if_neg hif, if_neg hif]
        by_cases hendif : isEndif directive = true
        · rw [if_pos hendif, if_pos hendif]
          exact .error _
        · rw [if_neg hendif, if_neg hendif]
          exact (renderPlaceholder_traced str groups directive _).andThen fun trace' => ih _ rest trace'

/-- Every turn of the loop takes a character, so with a turn for every character it has ended. -/
theorem renderInto_fuel {fuel more position : ℕ} {template : Text} (h : template.length ≤ fuel)
    (hmore : fuel ≤ more) (traceOut : Option (List TraceEntry)) :
    renderInto str search groups more position template traceOut =
      renderInto str search groups fuel position template traceOut := by
  induction fuel generalizing more position template traceOut with
  | zero =>
    cases List.length_eq_zero_iff.mp (Nat.le_zero.mp h)
    cases more with
    | zero => rfl
    | succ more =>
      cases traceOut with
      | none => rfl
      | some trace => exact congrArg (fun t => Except.ok ([], some t)) (List.append_nil trace)
  | succ fuel ih =>
    obtain ⟨more, rfl⟩ : ∃ n, more = n + 1 := ⟨more - 1, by omega⟩
    have hmore' : fuel ≤ more := by omega
    rw [renderInto, renderInto]
    cases hscan : scan template with
    | text literal => rfl
    | unclosed literal => rfl
    | directive literal directive rest =>
      have hlength := length_scan hscan
      dsimp only
      simp only [ih (show rest.length ≤ fuel by omega) hmore']
      cases hendif : findMatchingEndif rest.length 1 rest with
      | none => rfl
      | some found =>
        have hfound := length_findMatchingEndif hendif
        dsimp only
        simp only [ih (show found.1.length ≤ fuel by omega) hmore',
          ih (show found.2.length ≤ fuel by omega) hmore']

/-- Whether the body of a condition is taken. -/
def taken (condition : Text) : Bool := (evaluateCondition search groups condition).1

/-- What a placeholder shows. -/
def placeholderText (body : Text) : Except TemplateError Text :=
  (renderPlaceholder str groups body none).map Prod.fst

theorem noteIn_none (entries : List TraceEntry) : noteIn none entries = none := rfl

theorem renderPlaceholder_none (body : Text) :
    renderPlaceholder str groups body none =
      (placeholderText str groups body).map fun output => (output, none) := by
  unfold placeholderText renderPlaceholder
  dsimp only
  split
  · rfl
  · rw [map_map, map_map]
    rfl

/-- Without a trace it is the rendering the two engines share. -/
theorem renderInto_none (fuel position : ℕ) (template : Text) :
    renderInto str search groups fuel position template none =
      (renderSegment (taken search groups) (placeholderText str groups) fuel position template).map
        fun output => (output, none) := by
  induction fuel generalizing position template with
  | zero => rfl
  | succ fuel ih =>
    rw [renderInto, renderSegment]
    cases scan template with
    | text literal => rfl
    | unclosed literal => rfl
    | directive literal directive rest =>
      dsimp only
      rw [noteIn_none]
      split
      · cases findMatchingEndif rest.length 1 rest with
        | none => rfl
        | some found =>
          obtain ⟨body, after⟩ := found
          have htaken : taken search groups (directive.drop 3) =
            (evaluateCondition search groups (directive.drop 3)).1 := rfl
          rw [htaken]
          rcases evaluateCondition search groups (directive.drop 3) with ⟨taken, kindDetail, value⟩
          simp only [noteIn_none, Option.map_none]
          cases taken with
          | true =>
            rw [if_pos rfl, if_pos rfl, ih 0 body, bind_map, map_bind]
            refine congrArg (Except.bind _) (funext fun shown => ?_)
            rw [ih, map_map, map_map]
          | false =>
            show Except.map _ (renderInto str search groups fuel _ after none) = Except.map _ (Except.map
              _ (renderSegment (taken search groups) (placeholderText str groups) fuel _ after))
            rw [ih, map_map, map_map]
      · split
        · rfl
        · rw [renderPlaceholder_none, bind_map, map_bind]
          refine congrArg (Except.bind _) (funext fun shown => ?_)
          rw [ih, map_map, map_map]

end Render

section Ascii

/-- The methods of strings on ASCII text. -/
def asciiMethods : StrMethods where
  upper value := value.map Char.toUpper
  lower value := value.map Char.toLower
  title := Python.title false
  strip := stripEnds Python.isSpace
  stripChars arg value := stripEnds (· ∈ arg) value
  replace := Python.replaceText

variable (search : Text → Text → Bool) (groups : Dict Text Text)

theorem transform_ascii (t : Transform) (value : Text) (arg : Option Text) :
    asciiMethods.transform t value arg = Python.transform t value arg := by
  cases t with
  | strip =>
    cases arg with
    | none => rfl
    | some arg => cases arg <;> rfl
  | replace => cases arg <;> rfl
  | uppercase | lowercase | titlecase | trim | normalize => rfl

theorem applyPipes_ascii (pipes : List Text) (value : Text) :
    (applyPipes asciiMethods pipes value).map Prod.fst = Python.applyPipes pipes value := by
  induction pipes generalizing value with
  | nil => rfl
  | cons pipe pipes ih =>
    rw [applyPipes, Python.applyPipes, Python.applyPipe]
    have hstrip : asciiMethods.strip pipe = stripEnds Python.isSpace pipe := rfl
    rw [hstrip]
    dsimp only
    split
    · exact ih value
    · cases Transform.named (cut ':' (stripEnds Python.isSpace pipe)).1 with
      | none => rfl
      | some t =>
        dsimp only
        rw [map_map, transform_ascii]
        exact ih _

theorem taken_eq : taken search groups = Python.evaluateCondition search groups := by
  funext condition
  unfold taken evaluateCondition Python.evaluateCondition
  dsimp only
  split
  · rfl
  · cases cut '~' condition with
    | mk name pattern => cases pattern <;> rfl

theorem placeholderText_ascii :
    placeholderText asciiMethods groups = Python.renderPlaceholder groups := by
  funext body
  unfold placeholderText renderPlaceholder Python.renderPlaceholder
  have hstrip : asciiMethods.strip = stripEnds Python.isSpace := rfl
  rw [hstrip]
  dsimp only
  split
  · rfl
  · rw [map_map, ← applyPipes_ascii, map_map]

/-- On ASCII text it is the rendering the preview is compared with. -/
theorem render_ascii (template : Text) :
    render asciiMethods search template groups = Python.render search template groups := by
  unfold render Python.render
  dsimp only
  split
  · rfl
  · rw [renderInto_none, map_map, taken_eq, placeholderText_ascii]
    cases renderSegment _ _ template.length 0 template <;> rfl

end Ascii

/-- Rendering with a trace gives or raises what rendering does and the trace shows what it gives;
templates that render, and are together not too long, render one after the other; and every rendering
ends within a turn for each character. -/
theorem render_faithful (str : StrMethods) (search : Text → Text → Bool) (groups : Dict Text Text) :
    (∀ template,
      (renderWithTrace str search template groups).map Prod.fst = render str search template groups ∧
      ∀ output trace, renderWithTrace str search template groups = .ok (output, trace) →
        output = shownAll trace) ∧
    (∀ a b x y, (a ++ b).length ≤ maxTemplateLen → render str search a groups = .ok x →
      render str search b groups = .ok y → render str search (a ++ b) groups = .ok (x ++ y)) ∧
    ∀ template fuel traceOut bounded, template.length ≤ fuel →
      renderInto str search bounded fuel 0 template traceOut =
        renderInto str search bounded template.length 0 template traceOut := by
  refine ⟨fun template => ?_, fun a b x y hlength ha hb => ?_, fun template fuel traceOut bounded h =>
    renderInto_fuel str search bounded le_rfl h traceOut⟩
  · unfold renderWithTrace render
    dsimp only
    split
    · exact ⟨rfl, nofun⟩
    · have htraced := renderInto_traced str search (groups.mapValues fun _ value => truncate value)
        template.length 0 template []
      generalize renderInto str search (groups.mapValues fun _ value => truncate value)
        template.length 0 template none = plain at htraced ⊢
      generalize renderInto str search (groups.mapValues fun _ value => truncate value)
        template.length 0 template (some []) = traced at htraced ⊢
      cases htraced with
      | error e => exact ⟨rfl, nofun⟩
      | ok entries happended hshown =>
        refine ⟨rfl, fun output trace hdone => ?_⟩
        obtain ⟨rfl, rfl⟩ := Prod.mk.inj (Except.ok.inj hdone)
        rw [Option.getD_some, happended, List.nil_append, hshown]
  · have hshort : ∀ {t : Text}, t.length ≤ (a ++ b).length → ¬maxTemplateLen < t.length := by
      intro t ht
      omega
    have ha' : a.length ≤ (a ++ b).length := by rw [List.length_append]; omega
    have hb' : b.length ≤ (a ++ b).length := by rw [List.length_append]; omega
    have hrender : ∀ t : Text, t.length ≤ (a ++ b).length → render str search t groups =
        renderSegment (taken search (groups.mapValues fun _ value => truncate value))
          (placeholderText str (groups.mapValues fun _ value => truncate value))
          (a ++ b).length 0 t := by
      intro t ht
      unfold render
      rw [if_neg (hshort ht)]
      dsimp only
      rw [renderInto_none, map_map, renderSegment_fuel le_rfl ht]
      cases renderSegment _ _ t.length 0 t with
      | error e => rfl
      | ok output => rfl
    rw [hrender a ha'] at ha
    rw [hrender b hb'] at hb
    rw [hrender (a ++ b) le_rfl, renderSegment_append le_rfl ha, renderSegment_position hb]
    rfl

end ChannelManager.Templates
