import ChannelManager.Lib.Dict
import ChannelManager.Lib.RaisingSort
import ChannelManager.Lib.Runs
import ChannelManager.Templates.Segment
import Mathlib.Data.Char
import Mathlib.Data.Prod.Lex
import Mathlib.Data.Sum.Order

/-!
# The natural sort of stream names

A name is split around its runs of decimal digits, and whatever part of it consists of digits becomes a
number. There are digits that are not decimal digits: a part of these is no number to `int`, which raises.
-/

namespace ChannelManager.Pipeline

open Templates (Text)

/-! ## Digits -/

/-- The zeros of the scripts; the decimal digits are these and the nine characters after each. -/
def decimalZeros : List ℕ :=
  [0x30, 0x660, 0x6f0, 0x7c0, 0x966, 0x9e6, 0xa66, 0xae6, 0xb66, 0xbe6, 0xc66, 0xce6, 0xd66, 0xde6, 0xe50, 0xed0,
    0xf20, 0x1040, 0x1090, 0x17e0, 0x1810, 0x1946, 0x19d0, 0x1a80, 0x1a90, 0x1b50, 0x1bb0, 0x1c40, 0x1c50,
    0xa620, 0xa8d0, 0xa900, 0xa9d0, 0xa9f0, 0xaa50, 0xabf0, 0xff10, 0x104a0, 0x10d30, 0x11066, 0x110f0, 0x11136,
    0x111d0, 0x112f0, 0x11450, 0x114d0, 0x11650, 0x116c0, 0x11730, 0x118e0, 0x11950, 0x11c50, 0x11d50, 0x11da0,
    0x11f50, 0x16a60, 0x16ac0, 0x16b50, 0x1d7ce, 0x1d7d8, 0x1d7e2, 0x1d7ec, 0x1d7f6, 0x1e140, 0x1e2f0, 0x1e4f0,
    0x1e950, 0x1fbf0]

/-- The digits that are not decimal digits, such as superscripts and digits in circles. -/
def otherDigits : List (ℕ × ℕ) :=
  [(0xb2, 0xb3), (0xb9, 0xb9), (0x1369, 0x1371), (0x19da, 0x19da), (0x2070, 0x2070), (0x2074, 0x2079),
    (0x2080, 0x2089), (0x2460, 0x2468), (0x2474, 0x247c), (0x2488, 0x2490), (0x24ea, 0x24ea), (0x24f5, 0x24fd),
    (0x24ff, 0x24ff), (0x2776, 0x277e), (0x2780, 0x2788), (0x278a, 0x2792), (0x10a40, 0x10a43),
    (0x10e60, 0x10e68), (0x11052, 0x1105a), (0x1f100, 0x1f10a)]

def decimalValue (c : Char) : Option ℕ :=
  (decimalZeros.find? fun z => z ≤ c.toNat && c.toNat < z + 10).map (c.toNat - ·)

/-- What `\d` matches. -/
def isDecimalChar (c : Char) : Bool := (decimalValue c).isSome

/-- `str.isdigit` of one character. -/
def isDigitChar (c : Char) : Bool :=
  isDecimalChar c || otherDigits.any fun range => range.1 ≤ c.toNat && c.toNat ≤ range.2

def isDigit (t : Text) : Bool := t ≠ [] && t.all isDigitChar

/-- The number that some decimal digits spell. -/
def decimalNumber (digits : Text) : ℕ := digits.foldl (fun n c => 10 * n + (decimalValue c).getD 0) 0

/-- What a sort can raise. -/
inductive SortError
  | valueError
  | typeError

/-- How many digits `int` reads. -/
def maxStrDigits : ℕ := 4300

/-- `int` of a text of digits. -/
def int (t : Text) : Except SortError ℕ :=
  if t.all isDecimalChar && t.length ≤ maxStrDigits then .ok (decimalNumber t) else .error .valueError

/-! ## The keys -/

inductive KeyPart
  | text (t : Text)
  | number (n : ℕ)
deriving DecidableEq

section Key

variable (lower : Text → Text)

def keyPart (part : Text) : Except SortError KeyPart :=
  if isDigit part then (int part).map .number else .ok (.text (lower part))

/-- `_natural_sort_key`. -/
def naturalSortKey (s : Text) : Except SortError (List KeyPart) :=
  (splitRuns isDecimalChar s).mapM (keyPart lower)

/-- Texts are compared with texts, and numbers with numbers. -/
def partLess : KeyPart → KeyPart → Except SortError Bool
  | .text t, .text t' => .ok (t < t')
  | .number n, .number n' => .ok (n < n')
  | _, _ => .error .typeError

/-- Lists are compared by the first entries that are not equal. -/
def keyLess : List KeyPart → List KeyPart → Except SortError Bool
  | [], key => .ok !key.isEmpty
  | _ :: _, [] => .ok false
  | part :: key, part' :: key' => if part = part' then keyLess key key' else partLess part part'

/-- A key with the id of the stream. -/
def keyedLess (e e' : List KeyPart × ℤ) : Except SortError Bool :=
  if e.1 = e'.1 then .ok (e.2 < e'.2) else keyLess e.1 e'.1

/-! ## The sort -/

/-- `_stream_name_for_sort`, of a cache with the name in each row. -/
def streamNameForSort (statsCache : Dict ℤ (Option Text)) (sid : ℤ) : Text :=
  match (statsCache.get? sid).join with
  | some name => if name = [] then ("Stream " ++ toString sid).toList else name
  | none => ("Stream " ++ toString sid).toList

inductive SortOrder
  | asc
  | desc
deriving DecidableEq

/-- `_sort_streams_by_stream_name`. -/
def sortStreamsByStreamName (streamIds : List ℤ) (statsCache : Dict ℤ (Option Text)) (order : SortOrder)
    (natural : Bool) : Except SortError (List ℤ) := do
  let temp ← if natural then
      sortRaising keyedLess
        (fun sid => do return (← naturalSortKey lower (streamNameForSort statsCache sid), sid)) streamIds
    else
      .ok (sortedOn (fun sid => toLex (lower (streamNameForSort statsCache sid), sid)) streamIds)
  return if order = .desc then temp.reverse else temp

end Key

/-! ## The order of the keys -/

/-- The place of a part in an order of all parts, the numbers before the texts. -/
def KeyPart.rank : KeyPart → ℕ ⊕ₗ Text
  | .text t => Sum.inrₗ t
  | .number n => Sum.inlₗ n

theorem KeyPart.rank_injective : Function.Injective KeyPart.rank := by
  intro part part' h
  cases part <;> cases part' <;> simp_all [KeyPart.rank]

def keyRank (key : List KeyPart) : List (ℕ ⊕ₗ Text) := key.map KeyPart.rank

theorem keyRank_injective : Function.Injective keyRank := List.map_injective_iff.mpr KeyPart.rank_injective

/-- The keys of names: texts and numbers in turn, with a text at both ends. -/
inductive Alternating : List KeyPart → Prop
  | last (t : Text) : Alternating [.text t]
  | cons (t : Text) (n : ℕ) {key : List KeyPart} : Alternating key → Alternating (.text t :: .number n :: key)

theorem keyLess_cons {part part' : KeyPart} {key key' : List KeyPart}
    (hpart : partLess part part' = .ok (decide (part.rank < part'.rank)))
    (hkey : keyLess key key' = .ok (decide (keyRank key < keyRank key'))) :
    keyLess (part :: key) (part' :: key') = .ok (decide (keyRank (part :: key) < keyRank (part' :: key'))) := by
  have hcons : keyRank (part :: key) < keyRank (part' :: key') ↔
      part.rank < part'.rank ∨ part.rank = part'.rank ∧ keyRank key < keyRank key' := List.cons_lt_cons_iff
  rw [keyLess]
  by_cases hsame : part = part'
  · rw [if_pos hsame, hkey, Except.ok.injEq, decide_eq_decide, hcons]
    simp [hsame]
  · have hrank : part.rank ≠ part'.rank := KeyPart.rank_injective.ne hsame
    rw [if_neg hsame, hpart, Except.ok.injEq, decide_eq_decide, hcons]
    simp [hrank]

theorem partLess_text (t t' : Text) :
    partLess (.text t) (.text t') = .ok (decide ((KeyPart.text t).rank < (KeyPart.text t').rank)) := by
  simp [partLess, KeyPart.rank]

theorem partLess_number (n n' : ℕ) :
    partLess (.number n) (.number n') = .ok (decide ((KeyPart.number n).rank < (KeyPart.number n').rank)) := by
  simp [partLess, KeyPart.rank]

/-- No comparison of two keys meets a text and a number. -/
theorem keyLess_eq {key key' : List KeyPart} (h : Alternating key) (h' : Alternating key') :
    keyLess key key' = .ok (decide (keyRank key < keyRank key')) := by
  induction h generalizing key' with
  | last t =>
    cases h' with
    | last t' => exact keyLess_cons (partLess_text t t') (by simp [keyLess, keyRank])
    | cons t' n' h' => exact keyLess_cons (partLess_text t t') (by simp [keyLess, keyRank])
  | cons t n _ ih =>
    cases h' with
    | last t' => exact keyLess_cons (partLess_text t t') (by simp [keyLess, keyRank])
    | cons t' n' h' => exact keyLess_cons (partLess_text t t') (keyLess_cons (partLess_number n n') (ih h'))

/-! ## What the keys are made of -/

section Made

variable {lower : Text → Text} {before run after name : Text}

theorem isDigit_iff {t : Text} : isDigit t = true ↔ t ≠ [] ∧ ∀ c ∈ t, isDigitChar c = true := by
  simp [isDigit]

theorem isDigit_run (hne : run ≠ []) (hall : ∀ c ∈ run, isDecimalChar c = true) : isDigit run = true :=
  isDigit_iff.mpr ⟨hne, fun c hc => by simp [isDigitChar, hall c hc]⟩

theorem keyPart_run (hne : run ≠ []) (hall : ∀ c ∈ run, isDecimalChar c = true) : keyPart lower run =
    if run.length ≤ maxStrDigits then .ok (.number (decimalNumber run)) else .error .valueError := by
  rw [keyPart, if_pos (isDigit_run hne hall), int, List.all_eq_true.mpr hall, Bool.true_and]
  by_cases hlength : run.length ≤ maxStrDigits <;> simp [hlength, Except.map]

/-- Digits that are not decimal digits are no number. -/
theorem keyPart_plain (hall : ∀ c ∈ name, isDecimalChar c = false) : keyPart lower name =
    if isDigit name then .error .valueError else .ok (.text (lower name)) := by
  cases name with
  | nil => simp [keyPart, isDigit]
  | cons c name => simp [keyPart, int, hall c List.mem_cons_self, Except.map]

theorem naturalSortKey_plain (hall : ∀ c ∈ name, isDecimalChar c = false) :
    naturalSortKey lower name = (keyPart lower name).map fun part => [part] := by
  rw [naturalSortKey, splitRuns_plain hall, List.mapM_cons, List.mapM_nil]
  cases keyPart lower name <;> rfl

theorem naturalSortKey_append (h : IsRun isDecimalChar before run after) :
    naturalSortKey lower (before ++ run ++ after) = do
      let key ← naturalSortKey lower before
      let part ← keyPart lower run
      let key' ← naturalSortKey lower after
      return key ++ part :: key' := by
  rw [naturalSortKey, splitRuns_append h, List.mapM_append, List.mapM_cons]
  simp [naturalSortKey]

/-- What is before a run, the number of the run and what is after it. -/
theorem naturalSortKey_run {key : List KeyPart} (h : IsRun isDecimalChar before run after)
    (hkey : naturalSortKey lower (before ++ run ++ after) = .ok key) :
    ∃ first rest, naturalSortKey lower before = .ok first ∧ naturalSortKey lower after = .ok rest ∧
      key = first ++ .number (decimalNumber run) :: rest := by
  rw [naturalSortKey_append h, keyPart_run h.ne_nil h.all] at hkey
  cases hfirst : naturalSortKey lower before with
  | error e => rw [hfirst] at hkey; cases hkey
  | ok first =>
    by_cases hlength : run.length ≤ maxStrDigits
    · cases hrest : naturalSortKey lower after with
      | error e => rw [hfirst, if_pos hlength, hrest] at hkey; cases hkey
      | ok rest =>
        rw [hfirst, if_pos hlength, hrest] at hkey
        cases hkey
        exact ⟨first, rest, rfl, rfl, rfl⟩
    · rw [hfirst, if_neg hlength] at hkey
      cases hkey

theorem alternating_of_key {key : List KeyPart} (h : naturalSortKey lower name = .ok key) :
    Alternating key := by
  induction name using runs_induction (p := isDecimalChar) generalizing key with
  | plain name hall =>
    rw [naturalSortKey_plain hall, keyPart_plain hall] at h
    split at h
    · cases h
    · cases h
      exact .last _
  | run before run after hbefore hrun ih =>
    obtain ⟨first, rest, hfirst, hrest, rfl⟩ := naturalSortKey_run hrun h
    rw [naturalSortKey_plain hbefore, keyPart_plain hbefore] at hfirst
    split at hfirst
    · cases hfirst
    · cases hfirst
      exact .cons _ _ (ih hrest)

/-! ## Where a key raises -/

/-- No run of characters that are not decimal digits is all digits, and no run of decimal digits has more of
them than `int` reads. -/
structure Readable (name : Text) : Prop where
  texts : ∀ text, HasRun (!isDecimalChar ·) name text → ∃ c ∈ text, isDigitChar c = false
  numbers : ∀ run, HasRun isDecimalChar name run → run.length ≤ maxStrDigits

theorem keyed_iff : (∃ key, naturalSortKey lower name = .ok key) ↔ Readable name := by
  constructor
  · rintro ⟨key, hkey⟩
    have hparts := forall_of_mapM hkey
    constructor
    · intro text htext
      obtain ⟨k, hk⟩ := hparts text htext.between_mem_splitRuns
      obtain ⟨_, _, _, htext⟩ := htext
      rw [keyPart_plain (by simpa using htext.all)] at hk
      by_contra hplain
      simp only [not_exists, not_and, Bool.not_eq_false] at hplain
      rw [if_pos (isDigit_iff.mpr ⟨htext.ne_nil, hplain⟩)] at hk
      cases hk
    · intro run hrun
      obtain ⟨k, hk⟩ := hparts run hrun.mem_splitRuns
      obtain ⟨_, _, _, hrun⟩ := hrun
      rw [keyPart_run hrun.ne_nil hrun.all] at hk
      by_contra hlength
      rw [if_neg hlength] at hk
      cases hk
  · intro h
    have hparts : ∀ part ∈ splitRuns isDecimalChar name, keyPart lower part =
        .ok (if isDigit part then .number (decimalNumber part) else .text (lower part)) := by
      intro part hpart
      obtain rfl | hrun | htext := hasRun_of_mem_splitRuns hpart
      · simp [keyPart, isDigit]
      · have hlength := h.numbers part hrun
        obtain ⟨_, _, _, hrun⟩ := hrun
        rw [keyPart_run hrun.ne_nil hrun.all, if_pos hlength, if_pos (isDigit_run hrun.ne_nil hrun.all)]
      · obtain ⟨c, hc, hplain⟩ := h.texts part htext
        obtain ⟨_, _, _, htext⟩ := htext
        have hdigit : isDigit part ≠ true := fun hall => by simp [(isDigit_iff.mp hall).2 c hc] at hplain
        rw [keyPart_plain (by simpa using htext.all), if_neg hdigit, if_neg hdigit]
    exact ⟨_, mapM_eq_ok hparts⟩

end Made

/-! ## The sorts -/

/-- The names agree up to a run of decimal digits, which spells a smaller number in the first. -/
def SmallerNumber (name name' : Text) : Prop :=
  ∃ before run after run' after', name = before ++ run ++ after ∧ IsRun isDecimalChar before run after ∧
    name' = before ++ run' ++ after' ∧ IsRun isDecimalChar before run' after' ∧
    decimalNumber run < decimalNumber run'

section Sorts

variable {lower : Text → Text} {name name' : Text} {key key' : List KeyPart}

theorem keyRank_lt (hkey : naturalSortKey lower name = .ok key) (hkey' : naturalSortKey lower name' = .ok key')
    (h : SmallerNumber name name') : keyRank key < keyRank key' := by
  obtain ⟨before, run, after, run', after', rfl, hrun, rfl, hrun', hless⟩ := h
  obtain ⟨first, rest, hfirst, _, rfl⟩ := naturalSortKey_run hrun hkey
  obtain ⟨first', rest', hfirst', _, rfl⟩ := naturalSortKey_run hrun' hkey'
  cases hfirst.symm.trans hfirst'
  rw [keyRank, keyRank, List.map_append, List.map_append]
  refine List.append_left_lt (List.cons_lt_cons_iff.mpr (.inl ?_))
  simpa [KeyPart.rank] using hless

variable (lower) in
/-- The key of a name that has one. -/
def keyOf (name : Text) : List KeyPart := (naturalSortKey lower name).toOption.getD []

theorem key_eq (h : Readable name) : naturalSortKey lower name = .ok (keyOf lower name) := by
  obtain ⟨key, hkey⟩ := keyed_iff.mpr h
  rw [keyOf, hkey]
  rfl

theorem alternating_keyOf (h : Readable name) : Alternating (keyOf lower name) := alternating_of_key (key_eq h)

variable (lower) in
/-- Where the ranks of the keys do not decrease, no smaller number is behind a larger one. -/
theorem not_smallerNumber (h : Readable name) (h' : Readable name')
    (hle : keyRank (keyOf lower name) ≤ keyRank (keyOf lower name')) : ¬SmallerNumber name' name :=
  fun hsmaller => (keyRank_lt (key_eq h') (key_eq h) hsmaller).not_ge hle

theorem keyedLess_eq (hkey : Alternating key) (hkey' : Alternating key') (sid sid' : ℤ) :
    keyedLess (key, sid) (key', sid') =
      .ok (decide (toLex (keyRank key, sid) < toLex (keyRank key', sid'))) := by
  rw [keyedLess, keyLess_eq hkey hkey']
  by_cases hsame : key = key'
  · simp [hsame, Prod.Lex.toLex_lt_toLex]
  · simp [hsame, Prod.Lex.toLex_lt_toLex, keyRank_injective.ne hsame]

theorem sort_names {names : List Text} (h : ∀ name ∈ names, Readable name) :
    sortRaising keyLess (naturalSortKey lower) names =
      .ok (sortedOn (fun name => keyRank (keyOf lower name)) names) :=
  sortRaising_eq (keyOf lower) keyRank (fun _ hname => key_eq (h _ hname)) fun _ hname _ hname' =>
    (keyLess_eq (alternating_keyOf (h _ hname)) (alternating_keyOf (h _ hname'))).trans
      (congrArg Except.ok (decide_eq_decide.mpr Iff.rfl))

section Streams

variable {streamIds : List ℤ} {statsCache : Dict ℤ (Option Text)}

variable (lower statsCache) in
/-- What a stream is sorted by. -/
def streamRank (sid : ℤ) : List (ℕ ⊕ₗ Text) ×ₗ ℤ :=
  toLex (keyRank (keyOf lower (streamNameForSort statsCache sid)), sid)

theorem sort_streams (h : ∀ sid ∈ streamIds, Readable (streamNameForSort statsCache sid)) (order : SortOrder) :
    sortStreamsByStreamName lower streamIds statsCache order true =
      .ok (if order = .desc then (sortedOn (streamRank lower statsCache) streamIds).reverse
        else sortedOn (streamRank lower statsCache) streamIds) := by
  have hsorted : sortRaising keyedLess
      (fun sid => do return (← naturalSortKey lower (streamNameForSort statsCache sid), sid)) streamIds =
        .ok (sortedOn (streamRank lower statsCache) streamIds) := by
    refine sortRaising_eq (fun sid => (keyOf lower (streamNameForSort statsCache sid), sid))
      (fun e => toLex (keyRank e.1, e.2)) (fun sid hsid => ?_) fun sid hsid sid' hsid' => ?_
    · rw [key_eq (h sid hsid)]
      rfl
    · exact keyedLess_eq (alternating_keyOf (h sid hsid)) (alternating_keyOf (h sid' hsid')) sid sid'
  rw [sortStreamsByStreamName, if_pos rfl, hsorted]
  rfl

end Streams

variable (lower) in
/-- The keys of some names are there and can be compared, and names are sorted by them, with the smaller
number first; so are streams of these names. -/
structure NaturallySorted (names : List Text) : Prop where
  keyed : ∀ name ∈ names, ∃ key, naturalSortKey lower name = .ok key
  comparable : ∀ name ∈ names, ∀ name' ∈ names, ∀ key key', naturalSortKey lower name = .ok key →
    naturalSortKey lower name' = .ok key' → ∃ less, keyLess key key' = .ok less
  smaller : ∀ name ∈ names, ∀ name' ∈ names, ∀ key key', naturalSortKey lower name = .ok key →
    naturalSortKey lower name' = .ok key' → SmallerNumber name name' → keyLess key key' = .ok true
  sorted : ∃ sorted, sortRaising keyLess (naturalSortKey lower) names = .ok sorted ∧ sorted.Perm names ∧
    sorted.Pairwise fun name name' => ¬SmallerNumber name' name
  streams : ∀ streamIds statsCache order, (∀ sid ∈ streamIds, streamNameForSort statsCache sid ∈ names) →
    ∃ sorted, sortStreamsByStreamName lower streamIds statsCache order true = .ok sorted ∧
      sorted.Perm streamIds ∧ (if order = .desc then sorted.reverse else sorted).Pairwise fun sid sid' =>
        ¬SmallerNumber (streamNameForSort statsCache sid') (streamNameForSort statsCache sid)

/-- Names are sorted as they should be if and only if each of them is readable. -/
theorem naturallySorted_iff (lower : Text → Text) (names : List Text) :
    NaturallySorted lower names ↔ ∀ name ∈ names, Readable name := by
  constructor
  · exact fun h name hname => keyed_iff.mp (h.keyed name hname)
  · intro h
    constructor
    · exact fun name hname => keyed_iff.mpr (h name hname)
    · intro name _ name' _ key key' hkey hkey'
      exact ⟨_, keyLess_eq (alternating_of_key hkey) (alternating_of_key hkey')⟩
    · intro name _ name' _ key key' hkey hkey' hsmaller
      rw [keyLess_eq (alternating_of_key hkey) (alternating_of_key hkey'),
        decide_eq_true (keyRank_lt hkey hkey' hsmaller)]
    · refine ⟨_, sort_names h, sortedOn_perm _ _, ?_⟩
      refine (pairwise_sortedOn _ _).imp_of_mem fun hname hname' hle => ?_
      exact not_smallerNumber lower (h _ (mem_sortedOn.mp hname)) (h _ (mem_sortedOn.mp hname')) hle
    · intro streamIds statsCache order hnames
      have hreadable := fun sid hsid => h _ (hnames sid hsid)
      have hpairwise : (sortedOn (streamRank lower statsCache) streamIds).Pairwise fun sid sid' =>
          ¬SmallerNumber (streamNameForSort statsCache sid') (streamNameForSort statsCache sid) := by
        refine (pairwise_sortedOn _ _).imp_of_mem fun hsid hsid' hle => ?_
        refine not_smallerNumber lower (hreadable _ (mem_sortedOn.mp hsid))
          (hreadable _ (mem_sortedOn.mp hsid')) ?_
        obtain hlt | heq := Prod.Lex.toLex_le_toLex.mp hle
        · exact hlt.le
        · exact heq.1.le
      refine ⟨_, sort_streams hreadable order, ?_, ?_⟩
      · cases order with
        | asc => exact sortedOn_perm _ _
        | desc => exact (List.reverse_perm _).trans (sortedOn_perm _ _)
      · cases order with
        | asc => exact hpairwise
        | desc => simpa using hpairwise

/-- A superscript behind a number is a part of its own, and no number. -/
theorem raises_superscript : ¬∃ lower : Text → Text, ∀ names, NaturallySorted lower names := by
  rintro ⟨lower, h⟩
  have hreadable := keyed_iff.mp ((h ["5²".toList]).keyed _ List.mem_cons_self)
  have hfive : isDecimalChar '5' = true := by decide +kernel
  have hsuper : isDecimalChar '²' = false ∧ isDigitChar '²' = true := by decide +kernel
  have hrun : HasRun (!isDecimalChar ·) "5²".toList ['²'] :=
    ⟨['5'], [], rfl, by simp, by simp [hsuper], by simp [hfive], by simp⟩
  simpa [hsuper] using hreadable.texts _ hrun

end Sorts

end ChannelManager.Pipeline
