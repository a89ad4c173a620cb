import Mathlib.Data.List.Basic
import Mathlib.Data.List.TakeWhile

/-!
# The runs of a list

A list is split around the runs of entries that have a property. A run is as long as it can be, and what
is between two runs is a run of the entries that do not have the property.
-/

namespace ChannelManager

section Runs

variable {α : Type} (p : α → Bool)

/-- An entry in front of a list that is split already. -/
def consAround (a : α) : List α × List (List α × List α) → List α × List (List α × List α)
  | ([], (run, text) :: rest) => if p a then ([], (a :: run, text) :: rest) else ([a], (run, text) :: rest)
  | ([], []) => if p a then ([], [([a], [])]) else ([a], [])
  | (b :: text, rest) => if p a then ([], ([a], b :: text) :: rest) else (a :: b :: text, rest)

/-- What is before the first run, and each run with what is behind it. -/
def aroundRuns : List α → List α × List (List α × List α)
  | [] => ([], [])
  | a :: l => consAround p a (aroundRuns l)

/-- The runs and what is around them, one after the other. -/
def splitRuns (l : List α) : List (List α) :=
  (aroundRuns p l).1 :: (aroundRuns p l).2.flatMap fun part => [part.1, part.2]

/-- The part between two others is a run. -/
structure IsRun (before run after : List α) : Prop where
  ne_nil : run ≠ []
  all : ∀ a ∈ run, p a = true
  left : ∀ a ∈ before.getLast?, p a = false
  right : ∀ a ∈ after.head?, p a = false

/-- A part of the list is a run. -/
def HasRun (l run : List α) : Prop := ∃ before after, l = before ++ run ++ after ∧ IsRun p before run after

variable {p} {l before run after : List α}

theorem consAround_plain {a : α} (ha : p a = false) (parts : List α × List (List α × List α)) :
    consAround p a parts = (a :: parts.1, parts.2) := by
  obtain ⟨text, rest⟩ := parts
  cases text <;> cases rest <;> simp [consAround, ha]

/-- In front of a run with nothing before it, an entry that has the property belongs to the run. -/
theorem consAround_run {a : α} (ha : p a = true) (text : List α) (rest : List (List α × List α)) :
    consAround p a ([], (run, text) :: rest) = ([], (a :: run, text) :: rest) := by
  simp [consAround, ha]

theorem aroundRuns_cons_ne (a : α) (l : List α) : aroundRuns p (a :: l) ≠ ([], []) := by
  rw [aroundRuns]
  obtain ⟨text, rest⟩ := aroundRuns p l
  cases hp : p a <;> cases text <;> cases rest <;> simp [consAround, hp]

theorem aroundRuns_plain (h : ∀ a ∈ l, p a = false) : aroundRuns p l = (l, []) := by
  induction l with
  | nil => rfl
  | cons a l ih =>
    rw [List.forall_mem_cons] at h
    rw [aroundRuns, consAround_plain h.1, ih h.2]

theorem splitRuns_plain (h : ∀ a ∈ l, p a = false) : splitRuns p l = [l] := by
  simp [splitRuns, aroundRuns_plain h]

/-- A list that starts with a run. -/
theorem aroundRuns_run (hne : run ≠ []) (hall : ∀ a ∈ run, p a = true)
    (hright : ∀ a ∈ after.head?, p a = false) :
    aroundRuns p (run ++ after) = ([], (run, (aroundRuns p after).1) :: (aroundRuns p after).2) := by
  induction run with
  | nil => exact absurd rfl hne
  | cons a run ih =>
    rw [List.forall_mem_cons] at hall
    rw [List.cons_append, aroundRuns]
    cases run with
    | nil =>
      cases after with
      | nil => simp [aroundRuns, consAround, hall.1]
      | cons b after =>
        have hb : p b = false := hright b rfl
        rw [List.nil_append, aroundRuns, consAround_plain hb]
        simp [consAround, hall.1]
    | cons b run => rw [ih (List.cons_ne_nil b run) hall.2, consAround_run hall.1]

theorem aroundRuns_append (h : IsRun p before run after) :
    aroundRuns p (before ++ (run ++ after)) =
      ((aroundRuns p before).1,
        (aroundRuns p before).2 ++ (run, (aroundRuns p after).1) :: (aroundRuns p after).2) := by
  obtain ⟨hne, hall, hleft, hright⟩ := h
  induction before with
  | nil => exact aroundRuns_run hne hall hright
  | cons a before ih =>
    rw [List.cons_append, aroundRuns, aroundRuns]
    cases before with
    | nil =>
      have ha : p a = false := hleft a rfl
      rw [List.nil_append, aroundRuns_run hne hall hright, consAround_plain ha, consAround_plain ha]
      rfl
    | cons b before =>
      rw [ih fun c hc => hleft c (by simpa using hc)]
      -- what the first entry finds in front of it is not empty, and the same without the run
      have hparts := aroundRuns_cons_ne (p := p) b before
      generalize aroundRuns p (b :: before) = parts at hparts
      obtain ⟨text, rest⟩ := parts
      cases hp : p a <;> cases text <;> cases rest <;> simp_all [consAround]

theorem splitRuns_append (h : IsRun p before run after) :
    splitRuns p (before ++ run ++ after) = splitRuns p before ++ run :: splitRuns p after := by
  simp [splitRuns, aroundRuns_append h]

/-- The run that a list starts with. -/
theorem isRun_takeWhile {b : α} (hb : p b = true) (hbefore : ∀ a ∈ before.getLast?, p a = false) (l : List α) :
    IsRun p before ((b :: l).takeWhile p) ((b :: l).dropWhile p) := by
  refine ⟨by simp [hb], fun a ha => List.mem_takeWhile_imp ha, hbefore, fun a ha => ?_⟩
  have hhead := List.head?_dropWhile_not p (b :: l)
  rw [ha] at hhead
  simpa using hhead

/-- A list is without a run, or goes to the end of its first run. -/
theorem runs_induction {motive : List α → Prop} (plain : ∀ l, (∀ a ∈ l, p a = false) → motive l)
    (run : ∀ before run after, (∀ a ∈ before, p a = false) → IsRun p before run after → motive after →
      motive (before ++ run ++ after)) (l : List α) : motive l := by
  induction hn : l.length using Nat.strongRecOn generalizing l with
  | ind n ih =>
    have hbefore : ∀ a ∈ l.takeWhile (!p ·), p a = false := fun a ha => by
      simpa using List.mem_takeWhile_imp ha
    have hl : l.takeWhile (!p ·) ++ l.dropWhile (!p ·) = l := List.takeWhile_append_dropWhile
    cases hrest : l.dropWhile (!p ·) with
    | nil =>
      rw [hrest, List.append_nil] at hl
      exact plain l (hl ▸ hbefore)
    | cons b rest =>
      have hb : p b = true := by
        have hhead := List.head?_dropWhile_not (!p ·) l
        rw [hrest] at hhead
        simpa using hhead
      have hsplit : (b :: rest).takeWhile p ++ (b :: rest).dropWhile p = b :: rest :=
        List.takeWhile_append_dropWhile
      rw [← hl, hrest, ← hsplit, ← List.append_assoc]
      refine run _ _ _ hbefore (isRun_takeWhile hb (fun a ha => hbefore a (List.mem_of_getLast? ha)) rest) ?_
      refine ih _ ?_ _ rfl
      have hlength := congrArg List.length hl
      have hsuffix : (rest.dropWhile p).length ≤ rest.length := (List.dropWhile_suffix p).length_le
      simp only [hrest, List.length_append, List.length_cons] at hlength
      rw [List.dropWhile_cons_of_pos hb]
      omega

theorem IsRun.prepend {front : List α} (h : IsRun p before run after)
    (hfront : before = [] → ∀ a ∈ front.getLast?, p a = false) : IsRun p (front ++ before) run after := by
  refine ⟨h.ne_nil, h.all, ?_, h.right⟩
  cases before with
  | nil => simpa using hfront rfl
  | cons b before => simpa [List.getLast?_append] using h.left

/-- What a list is split into is a run or what is between two, but for what is empty. -/
theorem hasRun_of_mem_splitRuns {part : List α} (h : part ∈ splitRuns p l) :
    part = [] ∨ HasRun p l part ∨ HasRun (!p ·) l part := by
  induction l using runs_induction (p := p) with
  | plain l hl =>
    rw [splitRuns_plain hl, List.mem_singleton] at h
    by_cases hne : l = []
    · exact .inl (h.trans hne)
    · exact .inr (.inr ⟨[], [], by simp [h], h ▸ hne, by simpa [h] using hl, by simp, by simp⟩)
  | run before run after hbefore hrun ih =>
    have hlast : ∀ a ∈ (before ++ run).getLast?, p a = true := by
      intro a ha
      rw [List.getLast?_append_of_ne_nil _ hrun.ne_nil] at ha
      exact hrun.all a (List.mem_of_getLast? ha)
    rw [splitRuns_append hrun, splitRuns_plain hbefore, List.singleton_append, List.mem_cons,
      List.mem_cons] at h
    obtain rfl | rfl | h := h
    · by_cases hne : part = []
      · exact .inl hne
      · refine .inr (.inr ⟨[], run ++ after, by simp, hne, by simpa using hbefore, by simp, ?_⟩)
        intro a ha
        rw [List.head?_append_of_ne_nil _ hrun.ne_nil] at ha
        simpa using hrun.all a (List.mem_of_head? ha)
    · exact .inr (.inl ⟨before, after, rfl, hrun⟩)
    · obtain rfl | ⟨earlier, later, rfl, hpart⟩ | ⟨earlier, later, rfl, hpart⟩ := ih h
      · exact .inl rfl
      · refine .inr (.inl ⟨before ++ run ++ earlier, later, by simp, hpart.prepend fun hnil => ?_⟩)
        -- the run before would go on in this one
        cases part with
        | nil => exact absurd rfl hpart.ne_nil
        | cons b part =>
          have hb : p b = true := hpart.all b List.mem_cons_self
          rw [hrun.right b (by simp [hnil])] at hb
          cases hb
      · refine .inr (.inr ⟨before ++ run ++ earlier, later, by simp, hpart.prepend fun _ a ha => ?_⟩)
        simpa using hlast a ha

theorem HasRun.mem_splitRuns (h : HasRun p l run) : run ∈ splitRuns p l := by
  obtain ⟨before, after, rfl, hrun⟩ := h
  rw [splitRuns_append hrun]
  simp

/-- A list that ends in a run. -/
theorem exists_last_run (hne : l ≠ []) (h : ∀ a ∈ l.getLast?, p a = true) :
    ∃ before run, l = before ++ run ∧ run ≠ [] ∧ (∀ a ∈ run, p a = true) ∧
      ∀ a ∈ before.getLast?, p a = false := by
  induction l with
  | nil => exact absurd rfl hne
  | cons a l ih =>
    cases l with
    | nil => exact ⟨[], [a], rfl, by simp, by simpa using h, by simp⟩
    | cons b l =>
      obtain ⟨before, run, hl, hrun, hall, hleft⟩ := ih (by simp) (by simpa using h)
      cases before with
      | nil =>
        cases hp : p a with
        | true => exact ⟨[], a :: run, by simpa using hl, by simp, by simpa [hp] using hall, by simp⟩
        | false => exact ⟨[a], run, by simpa using hl, hrun, hall, by simpa using hp⟩
      | cons c before => exact ⟨a :: c :: before, run, by simp [hl], hrun, hall, by simpa using hleft⟩

theorem HasRun.between_mem_splitRuns {text : List α} (h : HasRun (!p ·) l text) : text ∈ splitRuns p l := by
  obtain ⟨before, after, rfl, hne, hall, hleft, hright⟩ := h
  have hplain : ∀ a ∈ text, p a = false := by simpa using hall
  have hfirst : text ∈ splitRuns p (text ++ after) := by
    cases after with
    | nil => simp [splitRuns_plain hplain]
    | cons b after =>
      have hsplit : (b :: after).takeWhile p ++ (b :: after).dropWhile p = b :: after :=
        List.takeWhile_append_dropWhile
      have hb : p b = true := by simpa using hright
      have hrun := isRun_takeWhile hb (fun a ha => hplain a (List.mem_of_getLast? ha)) after
      rw [← hsplit, ← List.append_assoc, splitRuns_append hrun, splitRuns_plain hplain]
      simp
  by_cases hnil : before = []
  · simpa [hnil] using hfirst
  · obtain ⟨earlier, run, rfl, hrun, hruns, hearlier⟩ := exists_last_run hnil (p := p) (by simpa using hleft)
    have hlast : IsRun p earlier run (text ++ after) := by
      refine ⟨hrun, hruns, hearlier, fun a ha => ?_⟩
      rw [List.head?_append_of_ne_nil _ hne] at ha
      exact hplain a (List.mem_of_head? ha)
    rw [List.append_assoc (earlier ++ run), splitRuns_append hlast]
    simp [hfirst]

end Runs

end ChannelManager
