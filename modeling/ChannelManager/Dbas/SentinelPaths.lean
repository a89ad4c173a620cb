import ChannelManager.Dbas.CredentialSentinel
import ChannelManager.Templates.Concat

/-!
# Nothing written back, every path read back

A marker that is an item of a list stays in the payload. The path of a dropped key reads as the keys
on it break into: at their dots, and into an index at a bracket.
-/

namespace ChannelManager.Dbas.Credential

open Templates

/-! ### Along a path -/

/-- A path to a field of a dict. -/
def EndsInKey (p : List Json.Step) : Prop := ∃ q k, p = q ++ [.key k]

theorem not_endsInKey_nil : ¬ EndsInKey [] := by
  rintro ⟨q, k, h⟩
  simp at h

theorem endsInKey_concat (p : List Json.Step) (s : Json.Step) :
    EndsInKey (p ++ [s]) ↔ ∃ k, s = .key k := by
  constructor
  · rintro ⟨q, k, h⟩
    exact ⟨k, by simpa using (List.append_inj' h rfl).2⟩
  · rintro ⟨k, rfl⟩
    exact ⟨p, k, rfl⟩

theorem endsInKey_cons (s : Json.Step) (p : List Json.Step) :
    EndsInKey (s :: p) ↔ (p = [] ∧ ∃ k, s = .key k) ∨ EndsInKey p := by
  induction p using List.reverseRecOn with
  | nil =>
    simpa [not_endsInKey_nil] using endsInKey_concat [] s
  | append_singleton p t =>
    rw [← List.cons_append, endsInKey_concat, endsInKey_concat]
    simp

/-- One step into what is left. -/
theorem step?_cleaned {v : Json} (hv : v.keyedOnce) (s : Json.Step) (u : Json) :
    (cleaned v).step? s = some u ↔
      ∃ w, v.step? s = some w ∧ cleaned w = u ∧ ¬ (w = sentinel ∧ ∃ k, s = .key k) := by
  cases v with
  | list items =>
    rw [cleaned_list]
    cases s with
    | key k => simp [Json.step?]
    | index i => simp [Json.step?]
  | dict fields =>
    rw [cleaned_dict]
    cases s with
    | index i => simp [Json.step?]
    | key k =>
      have hkeys := ((Json.keyedOnce_dict fields).mp hv).1
      simp only [Json.step?, findEntry_eq_some _ _ _ (nodup_held hkeys),
        findEntry_eq_some _ _ _ hkeys]
      simp [held, isRedactionSentinel]
      grind
  | _ =>
    rw [cleaned_scalar rfl]
    cases s <;> simp [Json.step?]

/-- What stands at a path of what is left. -/
theorem at?_cleaned {v : Json} (hv : v.keyedOnce) (p : List Json.Step) (u : Json) :
    (cleaned v).at? p = some u ↔
      ∃ w, v.at? p = some w ∧ cleaned w = u ∧ ¬ (w = sentinel ∧ EndsInKey p) := by
  induction p using List.reverseRecOn generalizing u with
  | nil =>
    simp [Json.at?, not_endsInKey_nil]
  | append_singleton p s ih =>
    simp only [Json.at?_concat, Option.bind_eq_some_iff, endsInKey_concat]
    constructor
    · rintro ⟨u', hu', hs⟩
      obtain ⟨w', hw', rfl, -⟩ := (ih u').mp hu'
      obtain ⟨w, hw, hu, hkept⟩ := (step?_cleaned (Json.keyedOnce_at? hv hw') s u).mp hs
      exact ⟨w, ⟨w', hw', hw⟩, hu, hkept⟩
    · rintro ⟨w, ⟨w', hw', hw⟩, hu, hkept⟩
      have hinner : w' ≠ sentinel := by
        rintro rfl
        cases s <;> cases hw
      refine ⟨cleaned w', (ih _).mpr ⟨w', hw', rfl, fun h => hinner h.1⟩, ?_⟩
      exact (step?_cleaned (Json.keyedOnce_at? hv hw') s u).mpr ⟨w, hw, hu, hkept⟩

/-- The marker is left where it is an item of a list. -/
theorem at?_cleaned_eq_sentinel {v : Json} (hv : v.keyedOnce) (p : List Json.Step) :
    (cleaned v).at? p = some sentinel ↔ v.at? p = some sentinel ∧ ¬ EndsInKey p := by
  rw [at?_cleaned hv]
  constructor
  · rintro ⟨w, hw, hclean, hkept⟩
    obtain rfl := cleaned_eq_sentinel.mp hclean
    exact ⟨hw, fun hp => hkept ⟨rfl, hp⟩⟩
  · rintro ⟨hw, hp⟩
    exact ⟨sentinel, hw, rfl, fun h => hp h.2⟩

theorem at?_cleaned_leaf {v w : Json} (hv : v.keyedOnce) {p : List Json.Step}
    (h : v.at? p = some w) (hleaf : w.Leaf) (hw : w ≠ sentinel) :
    (cleaned v).at? p = some w :=
  (at?_cleaned hv p w).mpr ⟨w, h, cleaned_leaf hleaf, fun hs => hw hs.1⟩

/-- What is left is left as it is. -/
theorem strip_cleaned (v : Json) : ∀ before, strip before (cleaned v) = (cleaned v, []) := by
  induction v using Json.structural with
  | scalar v h =>
    intro before
    rw [cleaned_scalar h, strip_scalar before h]
  | list items ih =>
    intro before
    have hitems : ∀ e ∈ (items.map cleaned).zipIdx 0,
        strip (itemPath before e.2) e.1 = (e.1, []) := by
      intro e he
      obtain ⟨item, hitem, hclean⟩ := List.mem_map.mp (List.fst_mem_of_mem_zipIdx he)
      rw [← hclean]
      exact ih item hitem _
    have hvalues : ((items.map cleaned).zipIdx 0).map
        (fun e => (strip (itemPath before e.2) e.1).1) = items.map cleaned := by
      rw [List.map_congr_left fun e he => congrArg Prod.fst (hitems e he), List.zipIdx_map_fst]
    have hpaths : ((items.map cleaned).zipIdx 0).flatMap
        (fun e => (strip (itemPath before e.2) e.1).2) = [] :=
      List.flatMap_eq_nil_iff.mpr fun e he => congrArg Prod.snd (hitems e he)
    rw [cleaned_list, strip, stripItems_eq, hvalues, hpaths]
  | dict fields ih =>
    intro before
    have hheld : ∀ e ∈ (held fields).map fun e => (e.1, cleaned e.2),
        isRedactionSentinel e.2 = false ∧ strip (keyPath before e.1) e.2 = (e.2, []) := by
      intro e he
      obtain ⟨field, hfield, rfl⟩ := List.mem_map.mp he
      obtain ⟨hmem, hkept⟩ := List.mem_filter.mp hfield
      have hother : field.2 ≠ sentinel := by simpa [isRedactionSentinel] using hkept
      exact ⟨by simpa [isRedactionSentinel] using mt cleaned_eq_sentinel.mp hother,
        ih field hmem _⟩
    rw [cleaned_dict]
    generalize (held fields).map (fun e => (e.1, cleaned e.2)) = kept at hheld
    have hall : held kept = kept := List.filter_eq_self.mpr fun e he => by simp [(hheld e he).1]
    have hvalues : kept.map (fun e => (e.1, (strip (keyPath before e.1) e.2).1)) = kept := by
      calc kept.map (fun e => (e.1, (strip (keyPath before e.1) e.2).1))
          = kept.map id := List.map_congr_left fun e he => by rw [(hheld e he).2, id]
        _ = kept := List.map_id kept
    have hpaths : kept.flatMap (fun e => if isRedactionSentinel e.2 then [keyPath before e.1]
        else (strip (keyPath before e.1) e.2).2) = [] :=
      List.flatMap_eq_nil_iff.mpr fun e he => by simp [hheld e he]
    rw [strip, stripFields_eq, hall, hvalues, hpaths]

/-! ### The paths of the dropped keys -/

/-- The path `_strip` writes for a step. -/
def spellStep (before : Text) : Json.Step → Text
  | .key k => keyPath before k
  | .index i => itemPath before i

def spell (before : Text) (p : List Json.Step) : Text := p.foldl spellStep before

/-- The paths reported one step down. -/
theorem mem_strip {v : Json} (hv : v.keyedOnce) (before text : Text) :
    text ∈ (strip before v).2 ↔ ∃ s w, v.step? s = some w ∧
      ((w = sentinel ∧ (∃ k, s = .key k) ∧ spellStep before s = text) ∨
        text ∈ (strip (spellStep before s) w).2) := by
  cases v with
  | list items =>
    rw [strip, stripItems_eq]
    simp only [List.mem_flatMap]
    constructor
    · rintro ⟨⟨item, i⟩, he, hmem⟩
      exact ⟨.index i, item, List.mem_zipIdx_iff_getElem?.mp he, .inr hmem⟩
    · rintro ⟨s, w, hw, hmem⟩
      cases s with
      | key k => cases hw
      | index i =>
        rcases hmem with ⟨-, ⟨k, hk⟩, -⟩ | hmem
        · cases hk
        · exact ⟨(w, i), List.mem_zipIdx_iff_getElem?.mpr hw, hmem⟩
  | dict fields =>
    have hkeys := ((Json.keyedOnce_dict fields).mp hv).1
    rw [strip, stripFields_eq]
    simp only [List.mem_flatMap]
    constructor
    · rintro ⟨⟨k, w⟩, he, hmem⟩
      refine ⟨.key k, w, (findEntry_eq_some k w fields hkeys).mpr he, ?_⟩
      split at hmem
      next hw => exact .inl ⟨by simpa [isRedactionSentinel] using hw, ⟨k, rfl⟩,
          (List.mem_singleton.mp hmem).symm⟩
      next => exact .inr hmem
    · rintro ⟨s, w, hw, hmem⟩
      cases s with
      | index i => cases hw
      | key k =>
        refine ⟨(k, w), (findEntry_eq_some k w fields hkeys).mp hw, ?_⟩
        rcases hmem with ⟨rfl, -, rfl⟩ | hmem
        · simp [isRedactionSentinel, spellStep]
        · have hother : w ≠ sentinel := by
            rintro rfl
            cases hmem
          simpa [isRedactionSentinel, hother, spellStep] using hmem
  | _ =>
    constructor
    · intro hmem
      cases hmem
    · rintro ⟨s, w, hw, -⟩
      rw [Json.step?_scalar rfl] at hw
      cases hw

/-- The paths reported are those to a field that holds the marker. -/
theorem mem_removed {v : Json} (hv : v.keyedOnce) (before text : Text) :
    text ∈ (strip before v).2 ↔
      ∃ p, EndsInKey p ∧ v.at? p = some sentinel ∧ spell before p = text := by
  induction v using Json.descend generalizing before with
  | down v ih =>
    rw [mem_strip hv]
    constructor
    · rintro ⟨s, w, hw, ⟨rfl, hs, rfl⟩ | hmem⟩
      · exact ⟨[s], (endsInKey_cons s []).mpr (.inl ⟨rfl, hs⟩), by simp [Json.at?, hw], rfl⟩
      · obtain ⟨p, hp, hat, hspell⟩ := (ih s w hw (Json.keyedOnce_step? hv hw) _).mp hmem
        refine ⟨s :: p, (endsInKey_cons s p).mpr (.inr hp), ?_, hspell⟩
        rw [Json.at?_cons, hw]
        exact hat
    · rintro ⟨p, hp, hat, rfl⟩
      cases p with
      | nil => exact absurd hp not_endsInKey_nil
      | cons s p =>
        obtain ⟨w, hw, hat⟩ := Option.bind_eq_some_iff.mp hat
        refine ⟨s, w, hw, ?_⟩
        rcases (endsInKey_cons s p).mp hp with ⟨rfl, hs⟩ | hp
        · exact .inl ⟨Option.some.inj hat, hs, rfl⟩
        · exact .inr ((ih s w hw (Json.keyedOnce_step? hv hw) _).mpr ⟨p, hp, hat, rfl⟩)

/-! ### How a path is read -/

variable (digits : Digits)

/-- The steps of one dotted part. -/
def readSegment (segment : Text) : List Json.Step :=
  (if (cut '[' segment).1 = [] then [] else [.key (String.ofList (cut '[' segment).1)]) ++
    (findIndexes digits none ((cut '[' segment).2.getD [])).map .index

/-- The steps of a path. -/
def readPath (path : Text) : List Json.Step := (path.splitOn '.').flatMap (readSegment digits)

/-- The steps that the keys of a path break into. -/
def brokenUp (p : List Json.Step) : List Json.Step :=
  p.flatMap fun
    | .key k => readPath digits k.toList
    | .index i => [.index i]

/-- A key that stands in a path as it is. -/
def Plain (k : String) : Prop := k ≠ "" ∧ '.' ∉ k.toList ∧ '[' ∉ k.toList

theorem cut_of_notMem {c : Char} {t : Text} (h : c ∉ t) : cut c t = (t, none) := by
  induction t with
  | nil => rfl
  | cons d t ih =>
    obtain ⟨hd, ht⟩ := not_or.mp (mt List.mem_cons.mpr h)
    rw [cut_cons, if_neg (Ne.symm hd), ih ht]

theorem readPath_plain {k : String} (h : Plain k) : readPath digits k.toList = [.key k] := by
  obtain ⟨hk, hdot, hbracket⟩ := h
  have hne : k.toList ≠ [] := by simpa using hk
  rw [readPath, List.splitOn_eq_singleton hdot]
  simp [readSegment, cut_of_notMem hbracket, hne, findIndexes]

theorem brokenUp_plain {p : List Json.Step} (h : ∀ k, .key k ∈ p → Plain k) :
    brokenUp digits p = p := by
  induction p with
  | nil => rfl
  | cons s p ih =>
    have htail := ih fun k hk => h k (List.mem_cons_of_mem s hk)
    rw [brokenUp] at htail
    rw [brokenUp, List.flatMap_cons, htail]
    cases s with
    | key k => simp [readPath_plain digits (h k List.mem_cons_self)]
    | index i => rfl

theorem valueAtSegment_eq (node : Json) (segment : Text) :
    valueAtSegment digits node segment = node.at? (readSegment digits segment) := by
  have hindexes : ∀ (is : List ℕ) (w : Json),
      is.foldlM (fun node i => node.step? (.index i)) w = w.at? (is.map .index) := fun is w => by
    rw [Json.at?, List.foldlM_map]
  rw [valueAtSegment, readSegment, Json.at?_append]
  obtain ⟨key, indexes⟩ := cut '[' segment
  by_cases h : key = []
  · simp [h, hindexes, Json.at?]
  · simp [h, hindexes, Json.at?]

theorem valueAtPath_eq (payload : Json) (path : Text) :
    valueAtPath digits payload path = (payload.at? (readPath digits path)).getD .null := by
  have hsegments : ∀ (segments : List Text) (node : Json),
      segments.foldlM (valueAtSegment digits) node =
        node.at? (segments.flatMap (readSegment digits)) := by
    intro segments
    induction segments with
    | nil => intro node; rfl
    | cons segment segments ih =>
      intro node
      rw [List.foldlM_cons, List.flatMap_cons, Json.at?_append, valueAtSegment_eq]
      congr 1
      funext w
      exact ih w
  rw [valueAtPath, hsegments, readPath]

theorem findIndexes_append (run : Option ℕ) (t u : Text) :
    findIndexes digits run (t ++ '[' :: u) =
      findIndexes digits run t ++ findIndexes digits none u := by
  induction t generalizing run with
  | nil => simp [findIndexes, digits.opening]
  | cons c t ih =>
    rw [List.cons_append, findIndexes, findIndexes]
    split
    · exact ih _
    · split
      · rw [ih, List.append_assoc]
      · exact ih _

theorem findIndexes_run {ds : Text} (h : ∀ c ∈ ds, c.isDigit) (n : ℕ) :
    findIndexes digits (some n) (ds ++ [']']) = [Nat.ofDigitChars 10 ds n] := by
  induction ds generalizing n with
  | nil => simp [findIndexes, digits.closing]
  | cons c ds ih =>
    obtain ⟨hc, hds⟩ := List.forall_mem_cons.mp h
    rw [List.cons_append, findIndexes, digits.ascii c hc, Nat.ofDigitChars_cons]
    exact ih hds _

theorem findIndexes_toDigits (i : ℕ) :
    findIndexes digits none (Nat.toDigits 10 i ++ [']']) = [i] := by
  have hdigits : ∀ c ∈ Nat.toDigits 10 i, c.isDigit := fun c hc =>
    Nat.isDigit_of_mem_toDigits (by decide) (by decide) hc
  have hvalue : Nat.ofDigitChars 10 (Nat.toDigits 10 i) 0 = i := Nat.ofDigitChars_ten_toDigits
  cases hds : Nat.toDigits 10 i with
  | nil => exact absurd hds Nat.toDigits_ne_nil
  | cons c ds =>
    rw [hds] at hdigits hvalue
    obtain ⟨hc, htail⟩ := List.forall_mem_cons.mp hdigits
    rw [Nat.ofDigitChars_cons] at hvalue
    rw [List.cons_append, findIndexes, digits.ascii c hc]
    exact (findIndexes_run digits htail _).trans (congrArg (fun n => [n]) hvalue)

theorem readSegment_item (segment : Text) (i : ℕ) :
    readSegment digits (itemPath segment i) = readSegment digits segment ++ [.index i] := by
  obtain ⟨⟨key, rest⟩, hcut⟩ : ∃ parts, cut '[' segment = parts := ⟨_, rfl⟩
  cases rest with
  | some indexes =>
    have htogether := cut_append_of_some hcut ('[' :: (Nat.toDigits 10 i ++ [']']))
    simp [readSegment, itemPath, hcut, htogether, findIndexes_append, findIndexes_toDigits]
  | none =>
    obtain ⟨rfl, htogether⟩ := cut_append_of_none hcut ('[' :: (Nat.toDigits 10 i ++ [']']))
    simp [readSegment, itemPath, hcut, htogether, cut_cons, findIndexes_toDigits, findIndexes]

theorem splitOn_append_notMem (c : Char) (t u : Text) (hu : c ∉ u) :
    ∃ parts last, t.splitOn c = parts ++ [last] ∧ (t ++ u).splitOn c = parts ++ [last ++ u] := by
  induction t with
  | nil => exact ⟨[], [], by simp, by simpa using List.splitOn_eq_singleton hu⟩
  | cons d t ih =>
    obtain ⟨parts, last, ht, htogether⟩ := ih
    rw [List.cons_append, List.splitOn_cons_eq_if_modifyHead,
      List.splitOn_cons_eq_if_modifyHead, ht, htogether]
    split
    · exact ⟨[] :: parts, last, rfl, rfl⟩
    · cases parts with
      | nil => exact ⟨[], d :: last, rfl, rfl⟩
      | cons part parts => exact ⟨(d :: part) :: parts, last, rfl, rfl⟩

theorem readPath_itemPath (before : Text) (i : ℕ) :
    readPath digits (itemPath before i) = readPath digits before ++ [.index i] := by
  have hdot : '.' ∉ '[' :: (Nat.toDigits 10 i ++ [']']) := by
    have hdigits : '.' ∉ Nat.toDigits 10 i := fun h =>
      absurd (Nat.isDigit_of_mem_toDigits (by decide) (by decide) h) (by decide)
    simp [hdigits]
  obtain ⟨parts, last, hbefore, htogether⟩ := splitOn_append_notMem '.' before _ hdot
  have hlast := readSegment_item digits last i
  rw [itemPath] at hlast
  rw [readPath, readPath, itemPath, htogether, hbefore, List.flatMap_append, List.flatMap_append]
  simp [hlast]

theorem readPath_keyPath (before : Text) (k : String) :
    readPath digits (keyPath before k) = readPath digits before ++ readPath digits k.toList := by
  rw [keyPath]
  split
  next h =>
    subst h
    rfl
  next h => rw [readPath, List.splitOn_append_cons_self, List.flatMap_append, readPath, readPath]

/-- A path that is spelled and read again is broken up at its keys. -/
theorem readPath_spell (before : Text) (p : List Json.Step) :
    readPath digits (spell before p) = readPath digits before ++ brokenUp digits p := by
  induction p generalizing before with
  | nil => simp [spell, brokenUp]
  | cons s p ih =>
    rw [spell, List.foldl_cons, ← spell, ih, brokenUp, brokenUp, List.flatMap_cons,
      ← List.append_assoc]
    cases s with
    | key k => rw [spellStep, readPath_keyPath]
    | index i => rw [spellStep, readPath_itemPath]

theorem valueAtPath_spell (payload : Json) (p : List Json.Step) :
    valueAtPath digits payload (spell [] p) =
      (payload.at? (brokenUp digits p)).getD .null := by
  rw [valueAtPath_eq, readPath_spell]
  rfl

/-! ### A payload stripped -/

/-- What a payload is after the marker is stripped from it. -/
structure Unmarked (payload : Payload) : Prop where
  clear : ∀ p, (stripRedactionSentinels payload).1.json.at? p ≠ some sentinel
  kept : ∀ p w, payload.json.at? p = some w → w.Leaf → w ≠ sentinel →
    (stripRedactionSentinels payload).1.json.at? p = some w
  settled : stripRedactionSentinels (stripRedactionSentinels payload).1 =
    ((stripRedactionSentinels payload).1, [])
  readBack : ∀ path ∈ (stripRedactionSentinels payload).2,
    valueAtPath digits payload.json path = sentinel

/-- No list has the marker among its items. -/
def Unlisted (payload : Payload) : Prop :=
  ∀ p i, payload.json.at? (p ++ [.index i]) ≠ some sentinel

/-- A field that holds the marker is reached by plain keys, or there is another where its keys, broken
up, lead. -/
def Findable (payload : Payload) : Prop :=
  ∀ p k, payload.json.at? (p ++ [.key k]) = some sentinel →
    (∀ key, .key key ∈ p ++ [Json.Step.key k] → Plain key) ∨
      payload.json.at? (brokenUp digits (p ++ [.key k])) = some sentinel

theorem json_stripRedactionSentinels (payload : Payload) :
    (stripRedactionSentinels payload).1.json = cleaned payload.json := rfl

theorem clear_iff (payload : Payload) :
    (∀ p, (stripRedactionSentinels payload).1.json.at? p ≠ some sentinel) ↔ Unlisted payload := by
  have hleft := at?_cleaned_eq_sentinel payload.keyedOnce
  simp only [json_stripRedactionSentinels, ne_eq]
  constructor
  · intro hclear p i hat
    refine hclear _ ((hleft _).mpr ⟨hat, ?_⟩)
    simp [endsInKey_concat]
  · intro hunlisted p hat
    obtain ⟨hin, hp⟩ := (hleft p).mp hat
    induction p using List.reverseRecOn with
    | nil => cases hin
    | append_singleton p s =>
      cases s with
      | key k => exact hp ⟨p, k, rfl⟩
      | index i => exact hunlisted p i hin

theorem settled_stripRedactionSentinels (payload : Payload) :
    stripRedactionSentinels (stripRedactionSentinels payload).1 =
      ((stripRedactionSentinels payload).1, []) := by
  have h := strip_cleaned payload.json []
  obtain ⟨hvalue, hpaths⟩ := Prod.mk.inj h
  have hfields : (stripFields [] (stripRedactionSentinels payload).1.fields).1 =
      (stripRedactionSentinels payload).1.fields := Json.dict.inj hvalue
  exact Prod.ext (by simp only [stripRedactionSentinels] at hfields ⊢; simp [hfields]) hpaths

theorem readBack_iff (payload : Payload) :
    (∀ path ∈ (stripRedactionSentinels payload).2,
      valueAtPath digits payload.json path = sentinel) ↔ Findable digits payload := by
  have hremoved : ∀ path, path ∈ (stripRedactionSentinels payload).2 ↔
      ∃ p, EndsInKey p ∧ payload.json.at? p = some sentinel ∧ spell [] p = path :=
    mem_removed payload.keyedOnce []
  have hread : ∀ p, valueAtPath digits payload.json (spell [] p) = sentinel ↔
      payload.json.at? (brokenUp digits p) = some sentinel := by
    intro p
    rw [valueAtPath_spell]
    cases payload.json.at? (brokenUp digits p) <;> simp
  constructor
  · intro hback p k hat
    exact .inr ((hread _).mp (hback _ ((hremoved _).mpr ⟨_, ⟨p, k, rfl⟩, hat, rfl⟩)))
  · intro hfind path hpath
    obtain ⟨p, ⟨q, k, rfl⟩, hat, rfl⟩ := (hremoved path).mp hpath
    rw [hread]
    rcases hfind q k hat with hplain | hat'
    · rw [brokenUp_plain digits hplain]
      exact hat
    · exact hat'

/-- A payload is unmarked exactly when no list has the marker and every marked field is found again by
its path. -/
theorem unmarked_iff (payload : Payload) :
    Unmarked digits payload ↔ Unlisted payload ∧ Findable digits payload := by
  constructor
  · intro h
    exact ⟨(clear_iff payload).mp h.clear, (readBack_iff digits payload).mp h.readBack⟩
  · rintro ⟨hunlisted, hfind⟩
    exact {
      clear := (clear_iff payload).mpr hunlisted
      kept := fun p w hat hleaf hw => at?_cleaned_leaf payload.keyedOnce hat hleaf hw
      settled := settled_stripRedactionSentinels payload
      readBack := (readBack_iff digits payload).mpr hfind }

/-- The digits of ASCII. -/
def asciiDigits : Digits where
  value c := if c.isDigit then some (c.toNat - '0'.toNat) else none
  ascii _ h := if_pos h
  opening := rfl
  closing := rfl

/-- A marker among the items of a list is written back, and one under a key with a dot is not found
again. -/
theorem marker_missed :
    ¬ Unmarked asciiDigits ⟨[("tokens", .list [sentinel])], by decide⟩ ∧
      ¬ Unmarked asciiDigits ⟨[("auth.token", sentinel)], by decide⟩ := by
  constructor
  · intro h
    exact h.clear [.key "tokens", .index 0] (by decide +kernel)
  · intro h
    exact absurd (h.readBack "auth.token".toList (by decide +kernel)) (by decide +kernel)

end ChannelManager.Dbas.Credential
