import ChannelManager.Lib.Strip
import ChannelManager.Templates.Segment

/-!
# The two template engines

`template_engine.py` renders on the server, `templateEngine.ts` renders the preview. Text is ASCII, and
a regular expression of a conditional is tested by the host. In TypeScript a name that a group map does
not have may be one that every object inherits; `Host` says what is found then.
-/

namespace ChannelManager.Templates

/-- The transforms both engines have. -/
inductive Transform
  | uppercase
  | lowercase
  | titlecase
  | trim
  | strip
  | replace
  | normalize
deriving DecidableEq

def Transform.named (name : Text) : Option Transform :=
  match String.ofList name with
  | "uppercase" => some .uppercase
  | "lowercase" => some .lowercase
  | "titlecase" => some .titlecase
  | "trim" => some .trim
  | "strip" => some .strip
  | "replace" => some .replace
  | "normalize" => some .normalize
  | _ => none

/-- `_legacy_normalize` and `legacyNormalize`. -/
def legacyNormalize (value : Text) : Text :=
  (value.map Char.toLower).filter fun c => c.isLower || c.isDigit

def normalizeSuffix : Text := "_normalize".toList

/-- The name before a `_normalize`. -/
def legacyBase (name : Text) : Text := name.take (name.length - normalizeSuffix.length)

namespace Python

/-- `str.isspace`. -/
def isSpace (c : Char) : Bool :=
  c = ' ' || (9 ≤ c.toNat && c.toNat ≤ 13) || (28 ≤ c.toNat && c.toNat ≤ 31)

/-- `str.title`, after a letter or not. -/
def title : Bool → Text → Text
  | _, [] => []
  | afterLetter, c :: rest =>
    (if afterLetter then c.toLower else c.toUpper) :: title c.isAlpha rest

/-- `str.replace`: an empty text is found around every character. -/
def replaceText (src dst value : Text) : Text :=
  if src = [] then dst ++ value.flatMap fun c => c :: dst else replaceFrom src dst 0 value

/-- `_TRANSFORMS`. -/
def transform (t : Transform) (value : Text) (arg : Option Text) : Text :=
  match t, arg with
  | .uppercase, _ => value.map Char.toUpper
  | .lowercase, _ => value.map Char.toLower
  | .titlecase, _ => title false value
  | .trim, _ => stripEnds isSpace value
  | .strip, none => stripEnds isSpace value
  | .strip, some [] => stripEnds isSpace value
  | .strip, some arg => stripEnds (· ∈ arg) value
  | .replace, none => value
  | .replace, some arg => replaceText (cut ':' arg).1 ((cut ':' arg).2.getD []) value
  | .normalize, _ => legacyNormalize value

section Render

variable (search : Text → Text → Bool) (groups : Dict Text Text)

def group (name : Text) : Text := (groups.get? name).getD []

/-- `_evaluate_condition`. -/
def evaluateCondition (condition : Text) : Bool :=
  let (beforeEq, expected) := cut '=' condition
  if expected ≠ none ∧ '~' ∉ beforeEq then some (group groups beforeEq) = expected
  else
    match cut '~' condition with
    | (name, some pattern) => search pattern (group groups name)
    | (_, none) => group groups condition ≠ []

/-- One pipe of a placeholder. -/
def applyPipe (value : Text) (pipe : Text) : Except TemplateError Text :=
  let spec := stripEnds isSpace pipe
  if spec = [] then .ok value
  else
    let (name, arg) := cut ':' spec
    match Transform.named name with
    | none => .error (.unknownTransform name)
    | some t => .ok (transform t value arg)

def applyPipes : List Text → Text → Except TemplateError Text
  | [], value => .ok value
  | pipe :: pipes, value => (applyPipe value pipe).bind (applyPipes pipes)

/-- `_render_placeholder`. -/
def renderPlaceholder (body : Text) : Except TemplateError Text :=
  let parts := body.splitOn '|'
  let name := stripEnds isSpace (parts.headD [])
  if normalizeSuffix.isSuffixOf name ∧ name ∉ groups then
    .ok (legacyNormalize (group groups (legacyBase name)))
  else (applyPipes parts.tail (group groups name)).map truncate

end Render

/-- `render`. -/
def render (search : Text → Text → Bool) (template : Text) (groups : Dict Text Text) :
    Except TemplateError Text :=
  if maxTemplateLen < template.length then .error .tooLong
  else
    let bounded := groups.mapValues fun _ value => truncate value
    renderSegment (evaluateCondition search bounded) (renderPlaceholder bounded) template.length 0
      template

end Python

namespace TypeScript

/-- A value of a group: a string, or what an inherited name gives, as it is shown. -/
inductive JsValue
  | text (t : Text)
  | member (shown : Text)
deriving DecidableEq

/-- What every object inherits: how a member shows, and what it gives when it is called as a
transform. -/
structure Host where
  member : Text → Option Text
  call : Text → Option (JsValue → Option Text → Except TemplateError JsValue)

/-- What `trim` takes off. -/
def isSpace (c : Char) : Bool := c = ' ' || (9 ≤ c.toNat && c.toNat ≤ 13)

/-- `\w`. -/
def isWord (c : Char) : Bool := c.isAlphanum || c = '_'

/-- The word characters that come after one replaced by `f`, or those that do not. -/
def replaceWord (f : Char → Char) (inner : Bool) : Bool → Text → Text
  | _, [] => []
  | afterWord, c :: rest =>
    (if isWord c && afterWord == inner then f c else c) :: replaceWord f inner (isWord c) rest

/-- `titlecase`: `/\b\w/g` in upper case, then `/\B\w/g` in lower case. -/
def titlecase (value : Text) : Text :=
  replaceWord Char.toLower true false (replaceWord Char.toUpper false false value)

/-- The ranges of a class written as some characters; a range that runs down is a syntax error. What is
special in a class is escaped, except for the `-` between two characters. -/
def classRanges : Text → Option (List (Char × Char))
  | [] => some []
  | a :: '-' :: b :: rest =>
    if a.toNat ≤ b.toNat then (classRanges rest).map ((a, b) :: ·) else none
  | a :: rest => (classRanges rest).map ((a, a) :: ·)

def inClass (ranges : List (Char × Char)) (c : Char) : Bool :=
  ranges.any fun r => r.1.toNat ≤ c.toNat && c.toNat ≤ r.2.toNat

/-- `stripChars`. -/
def stripChars (value : Text) (arg : Option Text) : Except TemplateError Text :=
  match arg with
  | none => .ok (stripEnds isSpace value)
  | some [] => .ok (stripEnds isSpace value)
  | some arg =>
    match classRanges arg with
    | none => .error .host
    | some ranges => .ok (stripEnds (inClass ranges) value)

/-- `value.split(src)`. -/
def splitText (src value : Text) : List Text :=
  if src = [] then value.map fun c => [c] else piecesFrom src 0 [] value

/-- `replaceArg` with an argument. -/
def replaceArg (value arg : Text) : Text :=
  ((cut ':' arg).2.getD []).intercalate (splitText (cut ':' arg).1 value)

/-- The transforms on a string. -/
def transformText (t : Transform) (value : Text) (arg : Option Text) : Except TemplateError Text :=
  match t, arg with
  | .uppercase, _ => .ok (value.map Char.toUpper)
  | .lowercase, _ => .ok (value.map Char.toLower)
  | .titlecase, _ => .ok (titlecase value)
  | .trim, _ => .ok (stripEnds isSpace value)
  | .strip, arg => stripChars value arg
  | .replace, none => .ok value
  | .replace, some arg => .ok (replaceArg value arg)
  | .normalize, _ => .ok (legacyNormalize value)

/-- `TRANSFORMS`. All but `replace` without an argument call a method that only a string has. -/
def transform (t : Transform) (value : JsValue) (arg : Option Text) : Except TemplateError JsValue :=
  match value with
  | .text value => (transformText t value arg).map .text
  | .member shown => if t = .replace ∧ arg = none then .ok (.member shown) else .error .host

section Render

variable (host : Host) (test : Text → Text → Bool) (groups : Dict Text Text)

/-- `groups[name] ?? ''`. -/
def group (name : Text) : JsValue :=
  match groups.get? name, host.member name with
  | some value, _ => .text value
  | none, some shown => .member shown
  | none, none => .text []

/-- The string a value shows as. -/
def JsValue.shown : JsValue → Text
  | text t => t
  | member shown => shown

/-- `truncate`: what is not a string is as long as its `length` says, which is never much. -/
def truncateValue : JsValue → JsValue
  | .text t => .text (truncate t)
  | .member shown => .member shown

/-- `evaluateCondition`. -/
def evaluateCondition (condition : Text) : Bool :=
  let eqIdx := condition.findIdx? (· = '=')
  let tildeIdx := condition.findIdx? (· = '~')
  match eqIdx, tildeIdx with
  | some eq, none =>
    group host groups (condition.take eq) = .text (condition.drop (eq + 1))
  | some eq, some tilde =>
    if eq < tilde then group host groups (condition.take eq) = .text (condition.drop (eq + 1))
    else test (condition.drop (tilde + 1)) (group host groups (condition.take tilde)).shown
  | none, some tilde =>
    test (condition.drop (tilde + 1)) (group host groups (condition.take tilde)).shown
  | none, none => group host groups condition ≠ .text []

/-- `legacyNormalize` of a value. -/
def normalizeValue : JsValue → Except TemplateError Text
  | .text t => .ok (legacyNormalize t)
  | .member _ => .error .host

/-- One pipe of a placeholder. -/
def applyPipe (value : JsValue) (pipe : Text) : Except TemplateError JsValue :=
  let spec := stripEnds isSpace pipe
  if spec = [] then .ok value
  else
    let (name, arg) := cut ':' spec
    match Transform.named name, host.call name with
    | some t, _ => transform t value arg
    | none, some f => f value arg
    | none, none => .error (.unknownTransform name)

def applyPipes : List Text → JsValue → Except TemplateError JsValue
  | [], value => .ok value
  | pipe :: pipes, value => (applyPipe host value pipe).bind (applyPipes pipes)

/-- `name in groups`. -/
def hasName (name : Text) : Bool := decide (name ∈ groups) || (host.member name).isSome

/-- `renderPlaceholder`, shown as `join` shows it. -/
def renderPlaceholder (body : Text) : Except TemplateError Text :=
  let parts := body.splitOn '|'
  let name := stripEnds isSpace (parts.headD [])
  if normalizeSuffix.isSuffixOf name ∧ hasName host groups name = false then
    normalizeValue (group host groups (legacyBase name))
  else
    (applyPipes host parts.tail (group host groups name)).map fun value =>
      (truncateValue value).shown

end Render

/-- A group of this name is not stored: the assignment would set the prototype. -/
def protoName : Text := "__proto__".toList

/-- `render`. -/
def render (host : Host) (test : Text → Text → Bool) (template : Text) (groups : Dict Text Text) :
    Except TemplateError Text :=
  if maxTemplateLen < template.length then .error .tooLong
  else
    let bounded := (groups.filter fun name _ => name ≠ protoName).mapValues fun _ value =>
      truncate value
    renderSegment (evaluateCondition host test bounded) (renderPlaceholder host bounded)
      template.length 0 template

end TypeScript

end ChannelManager.Templates
