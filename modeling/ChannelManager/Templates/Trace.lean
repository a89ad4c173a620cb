import ChannelManager.Templates.Engines

/-!
# Rendering with a trace

The engine on the server renders with or without a trace of what it met. The methods of strings are
those of the host, for text of any characters.
-/

namespace ChannelManager.Templates

/-- The methods of strings a rendering calls. -/
structure StrMethods where
  upper : Text → Text
  lower : Text → Text
  title : Text → Text
  strip : Text → Text
  stripChars : Text → Text → Text
  replace : Text → Text → Text → Text

namespace StrMethods

variable (str : StrMethods)

/-- `_legacy_normalize`. -/
def legacyNormalize (value : Text) : Text :=
  (str.lower value).filter fun c => c.isLower || c.isDigit

/-- `_TRANSFORMS`. -/
def transform (t : Transform) (value : Text) (arg : Option Text) : Text :=
  match t, arg with
  | .uppercase, _ => str.upper value
  | .lowercase, _ => str.lower value
  | .titlecase, _ => str.title value
  | .trim, _ => str.strip value
  | .strip, none => str.strip value
  | .strip, some [] => str.strip value
  | .strip, some arg => str.stripChars arg value
  | .replace, none => value
  | .replace, some arg => str.replace (cut ':' arg).1 ((cut ':' arg).2.getD []) value
  | .normalize, _ => str.legacyNormalize value

end StrMethods

/-- How a condition is evaluated. -/
inductive ConditionKind
  | equality
  | regex
  | truthy
deriving DecidableEq

/-- A step of a placeholder; `source` notes where it came from when no pipe says so. -/
structure PipeStep where
  transform : Text
  arg : Option Text
  input : Text
  output : Text
  source : Option String
deriving DecidableEq

/-- An entry of a trace. -/
inductive TraceEntry
  | literal (text : Text)
  | placeholder (raw groupName initialValue : Text) (pipes : List PipeStep) (finalValue : Text)
  | conditional (condition : Text) (kindDetail : ConditionKind) (taken : Bool) (value : Text)
      (body : List TraceEntry)

section Render

variable (str : StrMethods) (search : Text → Text → Bool) (groups : Dict Text Text)

/-- `_evaluate_condition`: whether the body is taken, how that was evaluated and on what value. -/
def evaluateCondition (condition : Text) : Bool × ConditionKind × Text :=
  let (beforeEq, expected) := cut '=' condition
  if expected ≠ none ∧ '~' ∉ beforeEq then
    let value := Python.group groups beforeEq
    (some value = expected, .equality, value)
  else
    match cut '~' condition with
    | (name, some pattern) =>
      let value := Python.group groups name
      (search pattern value, .regex, value)
    | (_, none) =>
      let value := Python.group groups condition
      (value ≠ [], .truthy, value)

/-- The pipes of a placeholder and the steps taken. -/
def applyPipes : List Text → Text → Except TemplateError (Text × List PipeStep)
  | [], value => .ok (value, [])
  | pipe :: pipes, value =>
    let spec := str.strip pipe
    if spec = [] then applyPipes pipes value
    else
      let (name, arg) := cut ':' spec
      match Transform.named name with
      | none => .error (.unknownTransform name)
      | some t =>
        let output := str.transform t value arg
        (applyPipes pipes output).map fun done =>
          (done.1, ⟨name, arg, value, output, none⟩ :: done.2)

/-- Add to a trace, when one is kept. -/
def noteIn (traceOut : Option (List TraceEntry)) (entries : List TraceEntry) :
    Option (List TraceEntry) :=
  traceOut.map (· ++ entries)

/-- `_render_placeholder`. -/
def renderPlaceholder (body : Text) (traceOut : Option (List TraceEntry)) :
    Except TemplateError (Text × Option (List TraceEntry)) :=
  let parts := body.splitOn '|'
  let name := str.strip (parts.headD [])
  let raw := '{' :: body ++ ['}']
  if normalizeSuffix.isSuffixOf name ∧ name ∉ groups then
    let base := legacyBase name
    let initial := Python.group groups base
    let final := str.legacyNormalize initial
    let step := ⟨"normalize".toList, none, initial, final, some "legacy _normalize suffix"⟩
    .ok (final, noteIn traceOut [.placeholder raw base initial [step] final])
  else
    let initial := Python.group groups name
    (applyPipes str parts.tail initial).map fun done =>
      let final := truncate done.1
      (final, noteIn traceOut [.placeholder raw name initial done.2 final])

/-- The literal text before a directive, when there is some. -/
def literalEntry (literal : Text) : List TraceEntry :=
  if literal = [] then [] else [.literal literal]

/-- `_render_segment`, `position` characters into the segment, into a trace when one is kept. -/
def renderInto : ℕ → ℕ → Text → Option (List TraceEntry) →
    Except TemplateError (Text × Option (List TraceEntry))
  | 0, _, _, traceOut => .ok ([], traceOut)
  | fuel + 1, position, template, traceOut =>
    match scan template with
    | .text literal => .ok (literal, noteIn traceOut (literalEntry literal))
    | .unclosed literal => .error (.unclosed (position + literal.length))
    | .directive literal directive rest =>
      let traceOut := noteIn traceOut (literalEntry literal)
      let close := position + literal.length + directive.length + 2
      if isIf directive then
        match findMatchingEndif rest.length 1 rest with
        | none => .error .missingEndif
        | some (body, after) =>
          let condition := directive.drop 3
          let (taken, kindDetail, value) := evaluateCondition search groups condition
          let bodyTrace := traceOut.map fun _ => []
          (if taken then renderInto fuel 0 body bodyTrace else .ok ([], bodyTrace)).bind fun shown =>
            let traceOut := noteIn traceOut
              [.conditional condition kindDetail taken value (shown.2.getD [])]
            (renderInto fuel (close + body.length + 5) after traceOut).map fun tail =>
              (literal ++ shown.1 ++ tail.1, tail.2)
      else if isEndif directive then .error .unmatchedEndif
      else
        (renderPlaceholder str groups directive traceOut).bind fun shown =>
          (renderInto fuel close rest shown.2).map fun tail => (literal ++ shown.1 ++ tail.1, tail.2)

end Render

section Entry

variable (str : StrMethods) (search : Text → Text → Bool) (template : Text) (groups : Dict Text Text)

/-- `render`. -/
def render : Except TemplateError Text :=
  if maxTemplateLen < template.length then .error .tooLong
  else
    let bounded := groups.mapValues fun _ value => truncate value
    (renderInto str search bounded template.length 0 template none).map Prod.fst

/-- `render_with_trace`. -/
def renderWithTrace : Except TemplateError (Text × List TraceEntry) :=
  if maxTemplateLen < template.length then .error .tooLong
  else
    let bounded := groups.mapValues fun _ value => truncate value
    (renderInto str search bounded template.length 0 template (some [])).map fun done =>
      (done.1, done.2.getD [])

end Entry

end ChannelManager.Templates
