import ChannelManager.Templates.Engines
import Mathlib

/-!
# Where the two engines agree

The engines share the loop, so they agree on a template when they agree on the directives it comes to.
What can part them is in the transforms, in what counts as white space at the ends of a name or of a
pipe, and in the names that every object of the one language has.
-/

namespace ChannelManager.Templates

open TypeScript (Host JsValue)

/-! ## Transforms -/

/-- The white space of both languages at the ends of a text is the same. -/
def EndsAlike (t : Text) : Prop := StripAlike Python.isSpace TypeScript.isSpace t

instance (t : Text) : Decidable (EndsAlike t) := inferInstanceAs (Decidable (StripAlike _ _ _))

/-- A word character that is no letter. -/
def isMark (c : Char) : Bool := c.isDigit || c = '_'

/-- `b` does not go in upper case after `a` on one side only. -/
def CasedAlike (a b : Char) : Prop := isMark a → ¬ b.isAlpha

instance (a b : Char) : Decidable (CasedAlike a b) := inferInstanceAs (Decidable (_ → _))

/-- The characters of an argument, written as a class, take off the same. -/
def ClassAlike (arg value : Text) : Prop :=
  match TypeScript.classRanges arg with
  | none => False
  | some ranges => StripAlike (· ∈ arg) (TypeScript.inClass ranges) value

instance (arg value : Text) : Decidable (ClassAlike arg value) :=
  match h : TypeScript.classRanges arg with
  | none => isFalse (by simp [ClassAlike, h])
  | some ranges =>
    decidable_of_iff (StripAlike (· ∈ arg) (TypeScript.inClass ranges) value) (by simp [ClassAlike, h])

/-- Where a transform is the same in both languages: no letter comes right after a digit or an
underscore, the ends of the text are white space in both or in none, the characters to strip are no
range that takes others, and nothing is put in the place of the empty text. -/
def TransformAlike : Transform → Text → Option Text → Prop
  | .titlecase, value, _ => value.IsChain CasedAlike
  | .trim, value, _ => EndsAlike value
  | .strip, value, none => EndsAlike value
  | .strip, value, some [] => EndsAlike value
  | .strip, value, some arg => ClassAlike arg value
  | .replace, _, some arg => (cut ':' arg).1 = [] → (cut ':' arg).2.getD [] = []
  | _, _, _ => True

instance (t : Transform) (value : Text) (arg : Option Text) : Decidable (TransformAlike t value arg) :=
  match t, arg with
  | .uppercase, _ => isTrue trivial
  | .lowercase, _ => isTrue trivial
  | .titlecase, _ => inferInstanceAs (Decidable (value.IsChain CasedAlike))
  | .trim, _ => inferInstanceAs (Decidable (EndsAlike value))
  | .strip, none => inferInstanceAs (Decidable (EndsAlike value))
  | .strip, some [] => inferInstanceAs (Decidable (EndsAlike value))
  | .strip, some (c :: arg) =>
    inferInstanceAs (Decidable (ClassAlike (c :: arg) value))
  | .replace, none => isTrue trivial
  | .replace, some arg => inferInstanceAs (Decidable ((cut ':' arg).1 = [] → (cut ':' arg).2.getD [] = []))
  | .normalize, _ => isTrue trivial

section Titlecase

theorem isAlpha_of_not_isWord {c : Char} (h : TypeScript.isWord c = false) : c.isAlpha = false := by
  simp only [TypeScript.isWord, Char.isAlphanum, Bool.or_eq_false_iff] at h
  exact h.1.1

theorem toUpper_of_not_isAlpha {c : Char} (h : c.isAlpha = false) : c.toUpper = c :=
  Char.toUpper_eq_of_not_isLower (by simp_all [Char.isAlpha])

theorem toLower_of_not_isAlpha {c : Char} (h : c.isAlpha = false) : c.toLower = c :=
  Char.toLower_eq_of_not_isUpper (by simp_all [Char.isAlpha])

theorem isWord_toUpper (c : Char) : TypeScript.isWord c.toUpper = TypeScript.isWord c := by
  cases halpha : c.isAlpha with
  | true => simp [TypeScript.isWord, Char.isAlphanum, halpha]
  | false => rw [toUpper_of_not_isAlpha halpha]

theorem toLower_ne_toUpper {c : Char} (h : c.isAlpha = true) : c.toLower ≠ c.toUpper := by
  intro heq
  have hupper : c.toUpper.isUpper = true := by rw [Char.isUpper_toUpper_eq_isAlpha, h]
  rw [← heq, Char.isUpper_toLower_eq_false] at hupper
  cases hupper

/-- The two replacements of `titlecase` in one pass. -/
theorem replaceWord_replaceWord (afterWord : Bool) (t : Text) :
    TypeScript.replaceWord Char.toLower true afterWord
        (TypeScript.replaceWord Char.toUpper false afterWord t) =
      match t with
      | [] => []
      | c :: rest => (if afterWord then c.toLower else c.toUpper) ::
          TypeScript.replaceWord Char.toLower true (TypeScript.isWord c)
            (TypeScript.replaceWord Char.toUpper false (TypeScript.isWord c) rest) := by
  cases t with
  | nil => rfl
  | cons c rest =>
    simp only [TypeScript.replaceWord]
    cases hword : TypeScript.isWord c with
    | false =>
      have halpha := isAlpha_of_not_isWord hword
      simp [hword, toUpper_of_not_isAlpha halpha, toLower_of_not_isAlpha halpha]
    | true =>
      cases afterWord with
      | true => simp [hword]
      | false => simp [isWord_toUpper, hword]

theorem isWord_eq (c : Char) : TypeScript.isWord c = (c.isAlpha || isMark c) := by
  rw [TypeScript.isWord, Char.isAlphanum, Bool.or_assoc, isMark]

theorem not_isMark_of_isAlpha {c : Char} (h : c.isAlpha = true) : isMark c = false := by
  have hne : c ≠ '_' := by
    rintro rfl
    exact absurd h (by decide)
  simp only [Char.isAlpha, Char.isUpper, Char.isLower, Bool.or_eq_true, Bool.and_eq_true,
    decide_eq_true_eq] at h
  simp only [isMark, Char.isDigit, hne, decide_false, Bool.or_false]
  grind

/-- After a character, the engines give the rest the same case exactly where no letter follows a digit
or an underscore. -/
theorem title_eq_iff (a : Char) (t : Text) :
    Python.title a.isAlpha t = TypeScript.replaceWord Char.toLower true (TypeScript.isWord a)
      (TypeScript.replaceWord Char.toUpper false (TypeScript.isWord a) t) ↔
      (a :: t).IsChain CasedAlike := by
  induction t generalizing a with
  | nil => simp [Python.title, TypeScript.replaceWord]
  | cons c rest ih =>
    rw [replaceWord_replaceWord, Python.title, List.cons.injEq, ih c, List.isChain_cons_cons]
    apply and_congr_left'
    rw [CasedAlike, isWord_eq]
    cases hc : c.isAlpha with
    | false => simp [toUpper_of_not_isAlpha hc, toLower_of_not_isAlpha hc]
    | true =>
      have hne := toLower_ne_toUpper hc
      cases ha : a.isAlpha with
      | true => simp [not_isMark_of_isAlpha ha]
      | false => cases hmark : isMark a <;> simp [hne.symm]

theorem titlecase_eq_iff (t : Text) :
    Python.title false t = TypeScript.titlecase t ↔ t.IsChain CasedAlike := by
  have hstart : (' ' :: t).IsChain CasedAlike ↔ t.IsChain CasedAlike := by
    cases t with
    | nil => simp
    | cons c rest =>
      rw [List.isChain_cons_cons]
      exact and_iff_right fun h => absurd h (by decide)
  rw [← hstart]
  exact title_eq_iff ' ' t

end Titlecase

section Replace

theorem replaceText_eq_iff (value src dst : Text) :
    dst.intercalate (TypeScript.splitText src value) = Python.replaceText src dst value ↔
      (src = [] → dst = []) := by
  rw [TypeScript.splitText, Python.replaceText]
  by_cases hsrc : src = []
  · rw [if_pos hsrc, if_pos hsrc]
    simp only [hsrc, forall_const]
    by_cases hvalue : value = []
    · subst hvalue
      simp [eq_comm]
    · rw [← intercalate_singletons dst hvalue]
      constructor
      · intro h
        have hlength := congrArg List.length h
        simp only [List.length_append] at hlength
        exact List.length_eq_zero_iff.mp (by omega)
      · rintro rfl
        simp
  · rw [if_neg hsrc, if_neg hsrc, intercalate_piecesFrom, List.nil_append]
    exact ⟨fun _ h => absurd h hsrc, fun _ => rfl⟩

end Replace

/-- A transform gives the same in both languages exactly where it is said to. -/
theorem transformText_eq_iff (t : Transform) (value : Text) (arg : Option Text) :
    TypeScript.transformText t value arg = .ok (Python.transform t value arg) ↔
      TransformAlike t value arg := by
  have hends : Except.ok (stripEnds TypeScript.isSpace value) =
      (.ok (stripEnds Python.isSpace value) : Except TemplateError Text) ↔ EndsAlike value := by
    rw [Except.ok.injEq, eq_comm, stripEnds_eq_iff]
    exact Iff.rfl
  cases t with
  | uppercase => exact ⟨fun _ => trivial, fun _ => rfl⟩
  | lowercase => exact ⟨fun _ => trivial, fun _ => rfl⟩
  | titlecase =>
    simp only [TypeScript.transformText, Python.transform, TransformAlike, Except.ok.injEq]
    rw [← titlecase_eq_iff, eq_comm]
  | trim => exact hends
  | strip =>
    cases arg with
    | none => exact hends
    | some arg =>
      cases arg with
      | nil => exact hends
      | cons c arg =>
        simp only [TypeScript.transformText, TypeScript.stripChars, Python.transform, TransformAlike,
          ClassAlike]
        cases TypeScript.classRanges (c :: arg) with
        | none => simp
        | some ranges =>
          simp only [Except.ok.injEq]
          rw [eq_comm, stripEnds_eq_iff]
  | replace =>
    cases arg with
    | none => exact ⟨fun _ => trivial, fun _ => rfl⟩
    | some arg =>
      simp only [TypeScript.transformText, Python.transform, TransformAlike, Except.ok.injEq,
        TypeScript.replaceArg]
      exact replaceText_eq_iff value _ _
  | normalize => exact ⟨fun _ => trivial, fun _ => rfl⟩

/-! ## Cutting a text -/

section Cut

variable {c d : Char} {t before rest : Text}

theorem cut_some (h : cut c t = (before, some rest)) : t = before ++ c :: rest ∧ c ∉ before := by
  obtain ⟨hbefore, hrest⟩ := Prod.mk.inj h
  split at hrest
  · cases hrest
  · rename_i d rest' hdrop
    cases hrest
    have hd : d = c := by
      have hhead := List.head?_dropWhile_not (· ≠ c) t
      rw [hdrop] at hhead
      simpa using hhead
    constructor
    · rw [← hbefore, ← hd, ← hdrop, hd, List.takeWhile_append_dropWhile]
    · rw [← hbefore]
      intro hmem
      simpa using List.mem_takeWhile_imp hmem

theorem cut_none (h : cut c t = (before, none)) : c ∉ t := by
  obtain ⟨_, hrest⟩ := Prod.mk.inj h
  split at hrest
  · rename_i hdrop
    intro hmem
    simpa using List.dropWhile_eq_nil_iff.mp hdrop c hmem
  · cases hrest

theorem findIdx?_of_not_mem (h : c ∉ t) : t.findIdx? (· = c) = none := by
  rw [List.findIdx?_eq_none_iff]
  intro a ha
  exact decide_eq_false fun heq => h (heq ▸ ha)

/-- The index of the first `c`, and what stands before and after it. -/
theorem findIdx?_of_cut (h : cut c t = (before, some rest)) :
    t.findIdx? (· = c) = some before.length ∧ t.take before.length = before ∧
      t.drop (before.length + 1) = rest := by
  obtain ⟨rfl, hnot⟩ := cut_some h
  refine ⟨?_, List.take_left, ?_⟩
  · rw [List.findIdx?_append, findIdx?_of_not_mem hnot, List.findIdx?_cons]
    simp
  · rw [← List.drop_drop, List.drop_left]
    rfl

/-- No `d` comes before the first `c`, by index. -/
theorem findIdx?_later (h : cut c t = (before, some rest)) (hne : c ≠ d) (hd : d ∉ before) :
    ∀ i, t.findIdx? (· = d) = some i → before.length < i := by
  obtain ⟨rfl, _⟩ := cut_some h
  intro i hi
  rw [List.findIdx?_append, findIdx?_of_not_mem hd, List.findIdx?_cons, Option.none_or] at hi
  rw [decide_eq_false hne] at hi
  obtain ⟨j, hj, rfl⟩ := Option.map_eq_some_iff.mp hi
  obtain ⟨k, _, rfl⟩ := Option.map_eq_some_iff.mp hj
  omega

end Cut

/-! ## Directives -/

section Directives

variable (host : Host) (groups : Dict Text Text)

/-- A name means the same in both languages: it is a group that can be stored, or nothing that every
object has. -/
def knownName (name : Text) : Bool :=
  if name ∈ groups then name ≠ TypeScript.protoName else (host.member name).isNone

/-- A condition that is no regular expression, on a name that means the same. -/
def conditionAlike (condition : Text) : Bool :=
  let (beforeEq, expected) := cut '=' condition
  if expected ≠ none ∧ '~' ∉ beforeEq then knownName host groups beforeEq
  else decide ('~' ∉ condition) && knownName host groups condition

/-- Pipes that give the same one after the other. -/
def pipesAlike : List Text → Text → Bool
  | [], _ => true
  | pipe :: pipes, value =>
    let spec := stripEnds Python.isSpace pipe
    decide (EndsAlike pipe) &&
      if spec = [] then pipesAlike pipes value
      else
        let (name, arg) := cut ':' spec
        match Transform.named name with
        | none => (host.call name).isNone
        | some t => decide (TransformAlike t value arg) &&
            pipesAlike pipes (Python.transform t value arg)

def placeholderAlike (body : Text) : Bool :=
  let parts := body.splitOn '|'
  let name := stripEnds Python.isSpace (parts.headD [])
  decide (EndsAlike (parts.headD [])) && knownName host groups name &&
    if normalizeSuffix.isSuffixOf name ∧ name ∉ groups then knownName host groups (legacyBase name)
    else pipesAlike host parts.tail (Python.group groups name)

/-- A directive on which the engines do not part. -/
def Visit.alike : Visit → Bool
  | .condition text => conditionAlike host groups text
  | .placeholder body => placeholderAlike host groups body

/-- The groups as TypeScript has them stored. -/
structure Stored (groups stored : Dict Text Text) : Prop where
  get? : ∀ name, name ≠ TypeScript.protoName → stored.get? name = groups.get? name
  proto : stored.get? TypeScript.protoName = none

variable {host groups} {stored : Dict Text Text} (hstored : Stored groups stored)

include hstored

theorem group_of_known {name : Text} (h : knownName host groups name = true) :
    TypeScript.group host stored name = .text (Python.group groups name) := by
  rw [knownName] at h
  rw [TypeScript.group, Python.group]
  by_cases hmem : name ∈ groups
  · rw [if_pos hmem, decide_eq_true_eq] at h
    obtain ⟨value, hvalue⟩ := Dict.exists_get? hmem
    rw [hstored.get? name h, hvalue]
    rfl
  · rw [if_neg hmem, Option.isNone_iff_eq_none] at h
    have hnone : groups.get? name = none := (Dict.get?_eq_none groups name).mpr hmem
    have hstored' : stored.get? name = none := by
      by_cases hproto : name = TypeScript.protoName
      · rw [hproto, hstored.proto]
      · rw [hstored.get? name hproto, hnone]
    rw [hstored', h, hnone]
    rfl

theorem hasName_of_known {name : Text} (h : knownName host groups name = true) :
    TypeScript.hasName host stored name = decide (name ∈ groups) := by
  rw [knownName] at h
  rw [TypeScript.hasName]
  by_cases hmem : name ∈ groups
  · rw [if_pos hmem, decide_eq_true_eq] at h
    have hmem' : name ∈ stored := by
      rw [← Dict.isSome_get?, hstored.get? name h, Dict.isSome_get?]
      exact hmem
    simp [hmem, hmem']
  · rw [if_neg hmem, Option.isNone_iff_eq_none] at h
    have hmem' : name ∉ stored := by
      rw [← Dict.get?_eq_none]
      by_cases hproto : name = TypeScript.protoName
      · rw [hproto, hstored.proto]
      · rw [hstored.get? name hproto, Dict.get?_eq_none]
        exact hmem
    simp [hmem, hmem', h]

theorem evaluateCondition_eq (search test : Text → Text → Bool) {condition : Text}
    (h : conditionAlike host groups condition = true) :
    Python.evaluateCondition search groups condition =
      TypeScript.evaluateCondition host test stored condition := by
  rw [conditionAlike] at h
  rw [Python.evaluateCondition, TypeScript.evaluateCondition]
  cases hcut : cut '=' condition with
  | mk beforeEq expected =>
    rw [hcut] at h
    dsimp only at h ⊢
    by_cases hequality : expected ≠ none ∧ '~' ∉ beforeEq
    · rw [if_pos hequality] at h
      rw [if_pos hequality]
      obtain ⟨hsome, htilde⟩ := hequality
      cases expected with
      | none => exact absurd rfl hsome
      | some expected =>
        obtain ⟨heq, htake, hdrop⟩ := findIdx?_of_cut hcut
        have hlater := findIdx?_later hcut (show '=' ≠ '~' by decide) htilde
        have hgroup := group_of_known hstored h
        rw [heq]
        cases hidx : condition.findIdx? (· = '~') with
        | none => simp [htake, hdrop, hgroup]
        | some i => simp [htake, hdrop, hgroup, hlater i hidx]
    · rw [if_neg hequality, Bool.and_eq_true, decide_eq_true_eq] at h
      rw [if_neg hequality]
      obtain ⟨htilde, hknown⟩ := h
      have hnone : expected = none := by
        by_contra hsome
        apply hequality
        refine ⟨hsome, fun hmem => htilde ?_⟩
        rw [show beforeEq = condition.takeWhile (· ≠ '=') from (congrArg Prod.fst hcut).symm] at hmem
        exact (List.takeWhile_sublist _).subset hmem
      subst hnone
      rw [findIdx?_of_not_mem (cut_none hcut), findIdx?_of_not_mem htilde, group_of_known hstored hknown]
      cases htildeCut : cut '~' condition with
      | mk name pattern =>
        cases pattern with
        | none => simp
        | some pattern =>
          obtain ⟨hsplit, _⟩ := cut_some htildeCut
          exact absurd (hsplit ▸ List.mem_append_right _ List.mem_cons_self) htilde

omit hstored in
theorem applyPipes_agree {pipes : List Text} {value : Text}
    (h : pipesAlike host pipes value = true) :
    Agree ((Python.applyPipes pipes value).map JsValue.text)
      (TypeScript.applyPipes host pipes (.text value)) := by
  induction pipes generalizing value with
  | nil => exact rfl
  | cons pipe pipes ih =>
    rw [pipesAlike, Bool.and_eq_true, decide_eq_true_eq] at h
    obtain ⟨hends, hrest⟩ := h
    have hspec : stripEnds TypeScript.isSpace pipe = stripEnds Python.isSpace pipe :=
      ((stripEnds_eq_iff _ _ _).mpr hends).symm
    rw [Python.applyPipes, TypeScript.applyPipes, Python.applyPipe, TypeScript.applyPipe, hspec]
    by_cases hnil : stripEnds Python.isSpace pipe = []
    · rw [if_pos hnil] at hrest
      rw [if_pos hnil, if_pos hnil]
      exact ih hrest
    · rw [if_neg hnil] at hrest
      rw [if_neg hnil, if_neg hnil]
      dsimp only at hrest ⊢
      cases hnamed : Transform.named (cut ':' (stripEnds Python.isSpace pipe)).1 with
      | none =>
        rw [hnamed, Option.isNone_iff_eq_none] at hrest
        rw [hrest]
        trivial
      | some t =>
        rw [hnamed, Bool.and_eq_true, decide_eq_true_eq] at hrest
        have htransform := (transformText_eq_iff t value _).mpr hrest.1
        dsimp only
        rw [TypeScript.transform, htransform]
        exact ih hrest.2

theorem renderPlaceholder_agree {body : Text} (h : placeholderAlike host groups body = true) :
    Agree (Python.renderPlaceholder groups body) (TypeScript.renderPlaceholder host stored body) := by
  rw [placeholderAlike, Bool.and_eq_true, Bool.and_eq_true, decide_eq_true_eq] at h
  obtain ⟨⟨hends, hknown⟩, hrest⟩ := h
  have hname : stripEnds TypeScript.isSpace ((body.splitOn '|').headD []) =
      stripEnds Python.isSpace ((body.splitOn '|').headD []) := ((stripEnds_eq_iff _ _ _).mpr hends).symm
  rw [Python.renderPlaceholder, TypeScript.renderPlaceholder, hname]
  have hhas := hasName_of_known hstored hknown
  by_cases hlegacy : normalizeSuffix.isSuffixOf (stripEnds Python.isSpace
      ((body.splitOn '|').headD [])) ∧ stripEnds Python.isSpace ((body.splitOn '|').headD []) ∉ groups
  · rw [if_pos hlegacy] at hrest
    rw [if_pos hlegacy, if_pos ⟨hlegacy.1, hhas.trans (decide_eq_false hlegacy.2)⟩,
      group_of_known hstored hrest]
    exact rfl
  · have hlegacy' : ¬ (normalizeSuffix.isSuffixOf (stripEnds Python.isSpace
        ((body.splitOn '|').headD [])) ∧ TypeScript.hasName host stored (stripEnds Python.isSpace
          ((body.splitOn '|').headD [])) = false) := by
      rw [hhas, decide_eq_false_iff_not]
      exact hlegacy
    rw [if_neg hlegacy] at hrest
    rw [if_neg hlegacy, if_neg hlegacy', group_of_known hstored hknown]
    have hpipes := (applyPipes_agree hrest).map fun value => (TypeScript.truncateValue value).shown
    cases hrun : Python.applyPipes (body.splitOn '|').tail
      (Python.group groups (stripEnds Python.isSpace ((body.splitOn '|').headD []))) with
    | error e =>
      rw [hrun] at hpipes
      exact hpipes
    | ok value =>
      rw [hrun] at hpipes
      exact hpipes

end Directives

/-- The groups of a rendering, cut to the length an engine takes. -/
def bounded (groups : Dict Text Text) : Dict Text Text := groups.mapValues fun _ value => truncate value

theorem stored_bounded (groups : Dict Text Text) :
    Stored (bounded groups) ((groups.filter fun name _ => name ≠ TypeScript.protoName).mapValues
      fun _ value => truncate value) where
  get? name hname := by
    rw [bounded, Dict.get?_mapValues, Dict.get?_mapValues, Dict.get?_filter]
    cases groups.get? name with
    | none => rfl
    | some value => simp [hname]
  proto := by
    rw [Dict.get?_mapValues, Dict.get?_filter]
    cases groups.get? TypeScript.protoName with
    | none => rfl
    | some value => simp

/-- The engines agree on every template whose directives, as the server comes to them, are ones on which
they do not part; and for a transform on a text that condition is exact. -/
theorem engines_agree (host : Host) (search test : Text → Text → Bool) (template : Text)
    (groups : Dict Text Text)
    (h : template.length ≤ maxTemplateLen →
      (visited (Python.evaluateCondition search (bounded groups))
        (Python.renderPlaceholder (bounded groups)) template.length template).all
          (Visit.alike host (bounded groups)) = true) :
    Agree (Python.render search template groups) (TypeScript.render host test template groups) ∧
      ∀ t value arg, TypeScript.transformText t value arg = .ok (Python.transform t value arg) ↔
        TransformAlike t value arg := by
  refine ⟨?_, transformText_eq_iff⟩
  rw [Python.render, TypeScript.render]
  by_cases hlong : maxTemplateLen < template.length
  · rw [if_pos hlong, if_pos hlong]
    trivial
  · rw [if_neg hlong, if_neg hlong]
    have hstored := stored_bounded groups
    apply renderSegment_agree
    intro v hv
    have halike := List.all_eq_true.mp (h (not_lt.mp hlong)) v hv
    cases v with
    | condition condition => exact evaluateCondition_eq hstored search test halike
    | placeholder body => exact renderPlaceholder_agree hstored halike

section Sample

/-- Two of the names every object has. -/
def plainHost : Host where
  member name :=
    if name = "toString".toList then some "function toString() { [native code] }".toList
    else if name = TypeScript.protoName then some "[object Object]".toList
    else none
  call name :=
    if name = "toString".toList then some fun _ _ => .ok (.text "[object Undefined]".toList)
    else if name = TypeScript.protoName then some fun _ _ => .error .host
    else none

/-- Groups by name. -/
def groupsOf (groups : List (String × String)) : Dict Text Text :=
  Dict.ofList (groups.map fun e => (e.1.toList, e.2.toList))

def noRegex : Text → Text → Bool := fun _ _ => false

theorem engines_agree_on_programme :
    Agree (Python.render noRegex "{if:league=NHL}{ team | trim|titlecase|strip:-}{/if} {team_normalize}".toList
        (groupsOf [("league", "NHL"), ("team", " san jose- ")]))
      (TypeScript.render plainHost noRegex
        "{if:league=NHL}{ team | trim|titlecase|strip:-}{/if} {team_normalize}".toList
        (groupsOf [("league", "NHL"), ("team", " san jose- ")])) :=
  (engines_agree plainHost noRegex noRegex _ _ fun _ => by decide +kernel).1

/-- A letter after a digit, a range of characters to strip, and a text put in the place of the empty
one. -/
theorem engines_part :
    ¬ Agree (Python.render noRegex "{day|titlecase}".toList (groupsOf [("day", "2nd")]))
      (TypeScript.render plainHost noRegex "{day|titlecase}".toList (groupsOf [("day", "2nd")])) ∧
    ¬ Agree (Python.render noRegex "{team|strip:a-c}".toList (groupsOf [("team", "b")]))
      (TypeScript.render plainHost noRegex "{team|strip:a-c}".toList (groupsOf [("team", "b")])) ∧
    ¬ Agree (Python.render noRegex "{team|replace::.}".toList (groupsOf [("team", "nhl")]))
      (TypeScript.render plainHost noRegex "{team|replace::.}".toList (groupsOf [("team", "nhl")])) := by
  decide +kernel

end Sample

end ChannelManager.Templates
