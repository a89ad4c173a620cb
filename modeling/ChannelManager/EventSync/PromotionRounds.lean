import ChannelManager.EventSync.Promotion
import ChannelManager.Templates.Engines

/-!
# Promoting round after round

A plan takes every row that can be promoted into one unit and names no channel twice. Planned again and
again on the channels it has created, it creates every name once and then has nothing left to create.
The one thing that can go wrong is a unit whose rows show different clocks.
-/

namespace ChannelManager.EventSync.Promote

open Templates (Text)

section Names

variable {text : PromotionText} {parsed parsed' : ParsedEvent} {start start' : LocalTime} {key : Text}

theorem promotedChannelName_eq (hkey : masterEventKey text parsed = some key)
    (hstart : parsed.start = some start) : promotedChannelName text parsed =
      some (text.title (key.takeWhile (· ≠ '|')) ++ " @ ".toList ++
        if parsed.dateless then start.clock12 else start.stamp) := by
  rw [promotedChannelName, hstart, hkey]

theorem exists_start (hkey : masterEventKey text parsed = some key) :
    ∃ start, parsed.start = some start := by
  obtain ⟨_, start, _, hstart, _⟩ := masterEventKey_eq_some.mp hkey
  exact ⟨start, hstart⟩

theorem exists_promotedChannelName (hkey : masterEventKey text parsed = some key) :
    ∃ name, promotedChannelName text parsed = some name := by
  obtain ⟨start, hstart⟩ := exists_start hkey
  exact ⟨_, promotedChannelName_eq hkey hstart⟩

/-- Streams without a date that share a key share their name. -/
theorem name_eq_of_dateless (hdateless : parsed.dateless = true)
    (hkey : masterEventKey text parsed = some key) (hkey' : masterEventKey text parsed' = some key) :
    promotedChannelName text parsed = promotedChannelName text parsed' := by
  have hdateless' := (dateless_eq_of_key hkey hkey').symm.trans hdateless
  obtain ⟨title, start, _, hstart, heq⟩ := masterEventKey_eq_some.mp hkey
  obtain ⟨title', start', _, hstart', heq'⟩ := masterEventKey_eq_some.mp hkey'
  rw [if_pos hdateless] at heq
  rw [if_pos hdateless', heq] at heq'
  have hclock := LocalTime.clock12_eq_of_token (List.append_inj' heq' rfl).2
  rw [promotedChannelName_eq hkey hstart, promotedChannelName_eq hkey' hstart', if_pos hdateless,
    if_pos hdateless', hclock]

/-- Streams with a date that share a key have one cleaned title and start at one instant. -/
theorem dated_key_eq (hdated : parsed.dateless = false) (hkey : masterEventKey text parsed = some key)
    (hkey' : masterEventKey text parsed' = some key) :
    ∃ title title' start start', parsed.title = some title ∧ parsed'.title = some title' ∧
      parsed.start = some start ∧ parsed'.start = some start' ∧
      cleanedTitle text title = cleanedTitle text title' ∧ start.instant = start'.instant := by
  have hdated' := (dateless_eq_of_key hkey hkey').symm.trans hdated
  obtain ⟨title, start, htitle, hstart, heq⟩ := masterEventKey_eq_some.mp hkey
  obtain ⟨title', start', htitle', hstart', heq'⟩ := masterEventKey_eq_some.mp hkey'
  rw [hdated, if_neg Bool.false_ne_true] at heq
  rw [hdated', if_neg Bool.false_ne_true, heq] at heq'
  have hlength : start.utcIsoformat.length = start'.utcIsoformat.length := by
    rw [LocalTime.length_utcIsoformat, LocalTime.length_utcIsoformat]
  obtain ⟨htitles, hinstants⟩ := List.append_inj' heq' hlength
  exact ⟨title, title', start, start', htitle, htitle', hstart, hstart',
    (List.append_inj' htitles rfl).1, LocalTime.instant_eq_of_utcIsoformat hinstants⟩

/-- Streams with a date that share a key share their name if and only if their clocks show the same. -/
theorem name_eq_iff_stamp (hdated : parsed.dateless = false) (hkey : masterEventKey text parsed = some key)
    (hkey' : masterEventKey text parsed' = some key) (hstart : parsed.start = some start)
    (hstart' : parsed'.start = some start') :
    promotedChannelName text parsed = promotedChannelName text parsed' ↔ start.stamp = start'.stamp := by
  have hdated' := (dateless_eq_of_key hkey hkey').symm.trans hdated
  rw [promotedChannelName_eq hkey hstart, promotedChannelName_eq hkey' hstart', hdated, hdated',
    if_neg Bool.false_ne_true, if_neg Bool.false_ne_true, Option.some.injEq]
  exact List.append_right_inj _

end Names

/-- Rows to be promoted that have a date, one cleaned title and one instant show one date and time. -/
def OneClock (text : PromotionText) (resolved : List ResolvedStream) : Prop :=
  ∀ row ∈ resolved, ∀ row' ∈ resolved,
    row.disposition ∈ promotableDispositions → row'.disposition ∈ promotableDispositions →
    row.parsed.dateless = false → row'.parsed.dateless = false →
    ∀ title title' start start', row.parsed.title = some title → row'.parsed.title = some title' →
      row.parsed.start = some start → row'.parsed.start = some start' →
      cleanedTitle text title = cleanedTitle text title' → start.instant = start'.instant →
      start.stamp = start'.stamp

section Drafts

variable {text : PromotionText} {resolved : List ResolvedStream} {row row' : ResolvedStream} {key : Text}

theorem promotableKey_eq_some : promotableKey text row = some key ↔
    row.disposition ∈ promotableDispositions ∧ masterEventKey text row.parsed = some key := by
  rw [promotableKey]
  split_ifs with h <;> simp [h]

/-- Rows of one event are named alike when their clocks agree. -/
theorem OneClock.name_eq (h : OneClock text resolved) (hrow : row ∈ resolved) (hrow' : row' ∈ resolved)
    (hkey : promotableKey text row = some key) (hkey' : promotableKey text row' = some key) :
    promotedChannelName text row.parsed = promotedChannelName text row'.parsed := by
  obtain ⟨hpromotable, hkey⟩ := promotableKey_eq_some.mp hkey
  obtain ⟨hpromotable', hkey'⟩ := promotableKey_eq_some.mp hkey'
  cases hdateless : row.parsed.dateless with
  | true => exact name_eq_of_dateless hdateless hkey hkey'
  | false =>
    obtain ⟨title, title', start, start', htitle, htitle', hstart, hstart', hcleaned, hinstant⟩ :=
      dated_key_eq hdateless hkey hkey'
    refine (name_eq_iff_stamp hdateless hkey hkey' hstart hstart').mpr ?_
    exact h row hrow row' hrow' hpromotable hpromotable' hdateless
      ((dateless_eq_of_key hkey hkey').symm.trans hdateless) title title' start start' htitle htitle'
      hstart hstart' hcleaned hinstant

/-- Clocks agree when rows of one event are named alike. -/
theorem oneClock_of_names (h : ∀ row ∈ resolved, ∀ row' ∈ resolved, ∀ key,
      promotableKey text row = some key → promotableKey text row' = some key →
      promotedChannelName text row.parsed = promotedChannelName text row'.parsed) :
    OneClock text resolved := by
  intro row hrow row' hrow' hpromotable hpromotable' hdated hdated' title title' start start' htitle htitle'
    hstart hstart' hcleaned hinstant
  have hkey : masterEventKey text row.parsed =
      some (cleanedTitle text title ++ "|".toList ++ start.utcIsoformat) :=
    masterEventKey_eq_some.mpr ⟨title, start, htitle, hstart, by rw [hdated, if_neg Bool.false_ne_true]⟩
  have hkey' : masterEventKey text row'.parsed =
      some (cleanedTitle text title ++ "|".toList ++ start.utcIsoformat) := by
    refine masterEventKey_eq_some.mpr ⟨title', start', htitle', hstart', ?_⟩
    rw [hdated', if_neg Bool.false_ne_true, hcleaned, LocalTime.utcIsoformat, LocalTime.utcIsoformat,
      hinstant]
  refine (name_eq_iff_stamp hdated hkey hkey' hstart hstart').mp ?_
  exact h row hrow row' hrow' _ (promotableKey_eq_some.mpr ⟨hpromotable, hkey⟩)
    (promotableKey_eq_some.mpr ⟨hpromotable', hkey'⟩)

/-- A draft has the rows of its key, and the name of one of them. -/
structure Drafted (text : PromotionText) (resolved : List ResolvedStream) (d : UnitDraft) : Prop where
  rows : d.rows = sortedOn rowSortKey (resolved.filter (promotableKey text · = some d.eventKey))
  name : ∃ row ∈ d.rows, promotedChannelName text row.parsed = some d.channelName

/-- Every key of a row has a draft. -/
theorem exists_draft (hkey : key ∈ byKey text resolved) :
    ∃ d, draft text resolved key = some d ∧ d.eventKey = key ∧ Drafted text resolved d := by
  obtain ⟨row, hrow, hrowkey⟩ := mem_groupedBy.mp hkey
  have hmem : row ∈ sortedOn rowSortKey (resolved.filter (promotableKey text · = some key)) :=
    mem_sortedOn.mpr (List.mem_filter.mpr ⟨hrow, decide_eq_true hrowkey⟩)
  rw [draft, byKey, getD_groupedBy]
  cases hsorted : sortedOn rowSortKey (resolved.filter (promotableKey text · = some key)) with
  | nil =>
    rw [hsorted] at hmem
    exact (List.not_mem_nil hmem).elim
  | cons first rest =>
    have hfirst : first ∈ resolved.filter (promotableKey text · = some key) :=
      mem_sortedOn.mp (hsorted ▸ List.mem_cons_self)
    have hfirstkey := of_decide_eq_true (List.mem_filter.mp hfirst).2
    obtain ⟨name, hname⟩ := exists_promotedChannelName (promotableKey_eq_some.mp hfirstkey).2
    refine ⟨⟨key, name, first.parsed.dateless, first :: rest⟩, by simp only [hname, Option.map_some], rfl, ?_⟩
    exact ⟨hsorted.symm, first, List.mem_cons_self, hname⟩

theorem draft_spec {d : UnitDraft} (hd : d ∈ drafts text resolved) : Drafted text resolved d := by
  obtain ⟨key, hkey, hdraft⟩ := List.mem_filterMap.mp hd
  obtain ⟨d', hdraft', _, hspec⟩ := exists_draft (mem_sortedOn.mp hkey)
  obtain rfl := Option.some.inj (hdraft.symm.trans hdraft')
  exact hspec

/-- The drafts stand for the keys, in order. -/
theorem map_eventKey_drafts :
    (drafts text resolved).map (·.eventKey) = sortedOn id (byKey text resolved).keys := by
  have hkeys : ∀ key ∈ sortedOn id (byKey text resolved).keys,
      (draft text resolved key).map (·.eventKey) = some key := by
    intro key hkey
    obtain ⟨d, hdraft, heventKey, _⟩ := exists_draft (mem_sortedOn.mp hkey)
    rw [hdraft, Option.map_some, heventKey]
  rw [drafts, List.map_filterMap]
  exact (List.filterMap_congr hkeys).trans (List.filterMap_some)

theorem nodup_eventKeys : ((drafts text resolved).map (·.eventKey)).Nodup := by
  rw [map_eventKey_drafts]
  exact ((sortedOn_perm id _).nodup_iff).mpr (byKey text resolved).nodup_keys

/-- The rows of the drafts are the rows to be promoted. -/
theorem flatMap_rows_perm : ((drafts text resolved).flatMap (·.rows)).Perm
    (resolved.filter fun row => (promotableKey text row).isSome) := by
  have hrows : ∀ key, resolved.filter (promotableKey text · = some key) =
      (resolved.filter fun row => (promotableKey text row).isSome).filter
        (promotableKey text · = some key) := by
    intro key
    rw [List.filter_filter]
    refine List.filter_congr fun row _ => ?_
    by_cases hkey : promotableKey text row = some key <;> simp [hkey]
  have hsorted : ∀ d ∈ drafts text resolved,
      d.rows.Perm (resolved.filter (promotableKey text · = some d.eventKey)) := by
    intro d hd
    rw [(draft_spec hd).rows]
    exact sortedOn_perm _ _
  have hkeys : ((drafts text resolved).flatMap fun d =>
        resolved.filter (promotableKey text · = some d.eventKey)) =
      ((drafts text resolved).map (·.eventKey)).flatMap fun key =>
        resolved.filter (promotableKey text · = some key) := by
    rw [List.flatMap_map]
  refine (List.Perm.flatMap_left _ hsorted).trans ?_
  rw [hkeys]
  simp only [hrows]
  refine flatMap_filter_perm nodup_eventKeys fun row hrow => ?_
  obtain ⟨hmem, hsome⟩ := List.mem_filter.mp hrow
  obtain ⟨key, hkey⟩ := Option.isSome_iff_exists.mp hsome
  refine ⟨key, ?_, hkey⟩
  rw [map_eventKey_drafts, mem_sortedOn]
  exact mem_groupedBy.mpr ⟨row, hmem, hkey⟩

end Drafts

def createdUnits (units : List PromotionUnit) : List PromotionUnit := units.filter (·.action = .create)

def createdNames (text : PromotionText) (units : List PromotionUnit) : List Text :=
  (createdUnits units).map fun u => lowerName text u.toUnitDraft

/-- The names no channel has, each once. -/
def missing (text : PromotionText) (names : Dict Text ℤ) (ds : List UnitDraft) : List Text :=
  firsts ((ds.map (lowerName text)).filter (· ∉ names))

section Loop

variable {text : PromotionText} {cap : ℕ} {names : Dict Text ℤ} {ds : List UnitDraft} {s : Planning}

/-- Where the planner stands after some drafts. -/
structure Reached (text : PromotionText) (cap : ℕ) (names : Dict Text ℤ) (ds : List UnitDraft)
    (s : Planning) : Prop where
  drafts : ((s.units ++ s.cappedUnits).map (·.toUnitDraft)).Perm ds
  created : createdNames text s.units = taken cap ((ds.map (lowerName text)).filter (· ∉ names))
  creates : s.creates = (createdNames text s.units).length
  planned : ∀ name, name ∈ s.plannedNames ↔ name ∈ createdNames text s.units
  capped : ∀ u ∈ s.cappedUnits, lowerName text u.toUnitDraft ∉ names

theorem createdNames_adopt (units : List PromotionUnit) (d : UnitDraft) (existingId : Option ℤ) :
    createdNames text (units ++ [⟨d, .attachExisting, existingId⟩]) = createdNames text units := by
  rw [createdNames, createdUnits, List.filter_append, List.filter_cons_of_neg (by simp), List.filter_nil,
    List.append_nil]
  rfl

theorem createdNames_create (units : List PromotionUnit) (d : UnitDraft) (existingId : Option ℤ) :
    createdNames text (units ++ [⟨d, .create, existingId⟩]) =
      createdNames text units ++ [lowerName text d] := by
  rw [createdNames, createdUnits, List.filter_append, List.filter_cons_of_pos (by simp), List.filter_nil,
    List.map_append]
  rfl

/-- One draft more. -/
theorem Reached.step (h : Reached text cap names ds s) (d : UnitDraft) :
    Reached text cap names (ds ++ [d]) (planUnit text cap names s d) := by
  have hlower : ((ds ++ [d]).map (lowerName text)).filter (· ∉ names) =
      (ds.map (lowerName text)).filter (· ∉ names) ++
        if lowerName text d ∈ names then [] else [lowerName text d] := by
    rw [List.map_append, List.map_singleton, List.filter_append]
    by_cases hname : lowerName text d ∈ names <;> simp [hname]
  have hperm : ∀ u : PromotionUnit, u.toUnitDraft = d →
      ((s.units ++ s.cappedUnits ++ [u]).map (·.toUnitDraft)).Perm (ds ++ [d]) := by
    rintro u rfl
    rw [List.map_append, List.map_singleton]
    exact h.drafts.append_right _
  have hunits : ∀ u : PromotionUnit, u.toUnitDraft = d →
      ((s.units ++ [u] ++ s.cappedUnits).map (·.toUnitDraft)).Perm (ds ++ [d]) := by
    intro u hu
    refine ((List.Perm.map _ ?_).trans (hperm u hu))
    rw [List.append_assoc, List.append_assoc]
    exact List.perm_append_comm.append_left _
  have hnames : (names.get? (lowerName text d)).isSome = true ↔ lowerName text d ∈ names :=
    names.isSome_get? _
  simp only [planUnit, hnames]
  split_ifs with hadopted hfull
  · refine ⟨hunits _ rfl, ?_, ?_, ?_, h.capped⟩
    · rw [createdNames_adopt, hlower]
      split_ifs with hname
      · rw [List.append_nil, h.created]
      · have hmade := (h.planned _).mp (hadopted.resolve_left hname)
        rw [taken_concat, ← h.created, if_pos (.inl hmade)]
    · rw [createdNames_adopt, h.creates]
    · rw [createdNames_adopt]
      exact h.planned
  · obtain ⟨hname, hplanned⟩ := not_or.mp hadopted
    refine ⟨?_, ?_, h.creates, h.planned, ?_⟩
    · rw [← List.append_assoc]
      exact hperm _ rfl
    · rw [hlower, if_neg hname, taken_concat, ← h.created, ← h.creates, if_pos (.inr hfull)]
    · intro u hu
      obtain hu | hu := List.mem_append.mp hu
      · exact h.capped u hu
      · rw [List.mem_singleton.mp hu]
        exact hname
  · obtain ⟨hname, hplanned⟩ := not_or.mp hadopted
    have hnew : ¬(lowerName text d ∈ createdNames text s.units ∨ cap ≠ 0 ∧ cap ≤ s.creates) :=
      not_or.mpr ⟨fun hmade => hplanned ((h.planned _).mpr hmade), hfull⟩
    refine ⟨hunits _ rfl, ?_, ?_, ?_, h.capped⟩
    · rw [createdNames_create, hlower, if_neg hname, taken_concat, ← h.created, ← h.creates, if_neg hnew]
    · rw [createdNames_create, List.length_append, h.creates, List.length_singleton]
    · intro name
      rw [Dict.mem_set, h.planned, createdNames_create, List.mem_append, List.mem_singleton]
      exact or_comm

/-- All the drafts. -/
theorem reached_planned : Reached text cap names ds (planned text cap names ds) := by
  induction ds using List.reverseRecOn with
  | nil =>
    refine ⟨List.Perm.refl [], ?_, rfl, ?_, ?_⟩
    · simp [createdNames, createdUnits, taken, firsts, limited, planned]
    · intro name
      simp [createdNames, createdUnits, planned, Dict.mem_def]
    · intro u hu
      exact (List.not_mem_nil hu).elim
  | append_singleton ds d ih =>
    rw [planned, List.foldl_append]
    exact ih.step d

end Loop

/-- Put the channels a plan creates among the channels. -/
def realise (text : PromotionText) (ids : Text → ℤ) (plan : PromotionPlan) (names : Dict Text ℤ) :
    Dict Text ℤ :=
  (createdNames text plan.units).foldl (fun names name => names.set name (ids name)) names

section Rounds

variable (text : PromotionText) (config : PromotionConfig) (resolved : List ResolvedStream)
  (names : Dict Text ℤ) (ids : ℕ → Text → ℤ)

/-- The names of the channels after some rounds of planning and realising. -/
def namesAfter : ℕ → Dict Text ℤ
  | 0 => names
  | round + 1 =>
    realise text (ids round) (buildPromotionPlan text config resolved (namesAfter round))
      (namesAfter round)

/-- The plan of a round. -/
def planOf (round : ℕ) : PromotionPlan :=
  buildPromotionPlan text config resolved (namesAfter text config resolved names ids round)

/-- What is left to create before a round. -/
def leftTo (round : ℕ) : List Text :=
  missing text (namesAfter text config resolved names ids round) (drafts text resolved)

end Rounds

section Rounds

variable {text : PromotionText} {config : PromotionConfig} {resolved : List ResolvedStream}
  {names : Dict Text ℤ} {ids : ℕ → Text → ℤ}

/-- A plan creates as many of the missing names as the cap allows. -/
theorem createdNames_plan (text : PromotionText) (config : PromotionConfig)
    (resolved : List ResolvedStream) (names : Dict Text ℤ) :
    createdNames text (buildPromotionPlan text config resolved names).units =
      limited (config.maxPromotePerRun.getD defaultMaxPromotePerRun)
        (missing text names (drafts text resolved)) :=
  reached_planned.created

theorem mem_foldl_set (f : Text → ℤ) (l : List Text) (d : Dict Text ℤ) (name : Text) :
    name ∈ l.foldl (fun d name => d.set name (f name)) d ↔ name ∈ d ∨ name ∈ l := by
  induction l generalizing d with
  | nil => simp
  | cons a l ih =>
    rw [List.foldl_cons, ih, Dict.mem_set, List.mem_cons]
    tauto

/-- A round takes the names it creates out of what is left. -/
theorem leftTo_succ (round : ℕ) : leftTo text config resolved names ids (round + 1) =
    (leftTo text config resolved names ids round).filter
      (· ∉ limited (config.maxPromotePerRun.getD defaultMaxPromotePerRun)
        (leftTo text config resolved names ids round)) := by
  have hnames : ∀ name, name ∈ namesAfter text config resolved names ids (round + 1) ↔
      name ∈ namesAfter text config resolved names ids round ∨
        name ∈ limited (config.maxPromotePerRun.getD defaultMaxPromotePerRun)
          (leftTo text config resolved names ids round) := by
    intro name
    rw [namesAfter, realise, mem_foldl_set, createdNames_plan]
    rfl
  generalize limited _ _ = made at *
  rw [leftTo, leftTo, missing, missing, ← firsts_filter, List.filter_filter]
  refine congrArg firsts (List.filter_congr fun name _ => ?_)
  simp only [hnames, not_or, Bool.decide_and, Bool.and_comm]

/-- Planned round after round, every missing name is created once, and then nothing is left. -/
theorem rounds_settle :
    ((List.range (missing text names (drafts text resolved)).length).flatMap fun round =>
        createdNames text (planOf text config resolved names ids round).units) =
      missing text names (drafts text resolved) ∧
    ∀ round, (missing text names (drafts text resolved)).length ≤ round →
      createdUnits (planOf text config resolved names ids round).units = [] ∧
        (planOf text config resolved names ids round).cappedUnits = [] := by
  obtain ⟨hall, hdone⟩ := rounds_drain (leftTo text config resolved names ids) (nodup_firsts _)
    leftTo_succ
  refine ⟨?_, fun round hround => ?_⟩
  · simp only [planOf, createdNames_plan]
    exact hall
  · have hnone : leftTo text config resolved names ids round = [] := hdone round hround
    have hreached : Reached text (config.maxPromotePerRun.getD defaultMaxPromotePerRun)
        (namesAfter text config resolved names ids round) (drafts text resolved) _ := reached_planned
    constructor
    · refine List.map_eq_nil_iff.mp (hreached.created.trans ?_)
      change limited _ (leftTo text config resolved names ids round) = []
      rw [hnone]
      exact List.sublist_nil.mp limited_sublist
    · refine List.eq_nil_iff_forall_not_mem.mpr fun u hu => hreached.capped u hu ?_
      by_contra hname
      have hd : u.toUnitDraft ∈ drafts text resolved :=
        hreached.drafts.subset (List.mem_map_of_mem (List.mem_append_right _ hu))
      have hmissing : lowerName text u.toUnitDraft ∈ leftTo text config resolved names ids round :=
        mem_firsts.mpr (List.mem_filter.mpr ⟨List.mem_map_of_mem hd, decide_eq_true hname⟩)
      rw [hnone] at hmissing
      exact List.not_mem_nil hmissing

end Rounds

/-- What a plan and the plans after it are to be. The channels it names are the lower-cased names of
the drafts. -/
structure Promotes (text : PromotionText) (config : PromotionConfig) (resolved : List ResolvedStream)
    (names : Dict Text ℤ) (ids : ℕ → Text → ℤ) (plan : PromotionPlan) : Prop where
  partition : ((plan.units ++ plan.cappedUnits).flatMap (·.rows)).Perm
    (resolved.filter fun row => (promotableKey text row).isSome)
  one : ∀ row ∈ resolved, (promotableKey text row).isSome = true →
    ∃! u, u ∈ plan.units ++ plan.cappedUnits ∧ row ∈ u.rows
  keyed : ∀ u ∈ plan.units ++ plan.cappedUnits, ∀ row ∈ u.rows, promotableKey text row = some u.eventKey
  named : ∀ u ∈ plan.units ++ plan.cappedUnits, ∀ row ∈ u.rows,
    promotedChannelName text row.parsed = some u.channelName
  capped : plan.cap ≠ 0 → (createdUnits plan.units).length ≤ plan.cap
  distinct : (createdNames text plan.units).Nodup
  new : ∀ name ∈ createdNames text plan.units, name ∉ names
  settles : ∃ rounds,
    ((List.range rounds).flatMap fun round =>
      createdNames text (planOf text config resolved names ids round).units) =
        missing text names (drafts text resolved) ∧
    ∀ round, rounds ≤ round →
      createdUnits (planOf text config resolved names ids round).units = [] ∧
        (planOf text config resolved names ids round).cappedUnits = []

section Plan

variable {text : PromotionText} {config : PromotionConfig} {resolved : List ResolvedStream}
  {names : Dict Text ℤ} {u u' : PromotionUnit} {row : ResolvedStream} {key : Text}

/-- The units of a plan, to be realised or not. -/
def PromotionPlan.all (plan : PromotionPlan) : List PromotionUnit := plan.units ++ plan.cappedUnits

theorem all_perm (text : PromotionText) (config : PromotionConfig) (resolved : List ResolvedStream)
    (names : Dict Text ℤ) : ((buildPromotionPlan text config resolved names).all.map (·.toUnitDraft)).Perm
    (drafts text resolved) :=
  reached_planned.drafts

theorem unit_spec (hu : u ∈ (buildPromotionPlan text config resolved names).all) :
    Drafted text resolved u.toUnitDraft :=
  draft_spec ((all_perm text config resolved names).subset (List.mem_map_of_mem hu))

/-- A unit has the rows of its key. -/
theorem mem_rows_iff (hu : u ∈ (buildPromotionPlan text config resolved names).all) :
    row ∈ u.rows ↔ row ∈ resolved ∧ promotableKey text row = some u.eventKey := by
  rw [(unit_spec hu).rows, mem_sortedOn, List.mem_filter, decide_eq_true_eq]

/-- A key has one unit. -/
theorem unit_eq_of_key (hu : u ∈ (buildPromotionPlan text config resolved names).all)
    (hu' : u' ∈ (buildPromotionPlan text config resolved names).all) (hkey : u.eventKey = u'.eventKey) :
    u = u' := by
  have hnodup : ((buildPromotionPlan text config resolved names).all.map (·.eventKey)).Nodup := by
    have hkeys := (all_perm text config resolved names).map (·.eventKey)
    rw [List.map_map] at hkeys
    exact hkeys.nodup_iff.mpr nodup_eventKeys
  exact List.inj_on_of_nodup_map hnodup hu hu' hkey

theorem exists_unit (config : PromotionConfig) (names : Dict Text ℤ) (hrow : row ∈ resolved)
    (hkey : promotableKey text row = some key) :
    ∃ u ∈ (buildPromotionPlan text config resolved names).all, u.eventKey = key ∧ row ∈ u.rows := by
  have hmem : key ∈ (drafts text resolved).map (·.eventKey) := by
    rw [map_eventKey_drafts, mem_sortedOn]
    exact mem_groupedBy.mpr ⟨row, hrow, hkey⟩
  obtain ⟨d, hd, rfl⟩ := List.mem_map.mp hmem
  obtain ⟨u, hu, rfl⟩ := List.mem_map.mp ((all_perm text config resolved names).symm.subset hd)
  exact ⟨u, hu, rfl, (mem_rows_iff hu).mpr ⟨hrow, hkey⟩⟩

end Plan

/-- A plan promotes as it is to if and only if the rows of one event show one clock. -/
theorem promotes_iff (text : PromotionText) (config : PromotionConfig) (resolved : List ResolvedStream)
    (names : Dict Text ℤ) (ids : ℕ → Text → ℤ) :
    Promotes text config resolved names ids (buildPromotionPlan text config resolved names) ↔
      OneClock text resolved := by
  constructor
  · intro h
    refine oneClock_of_names fun row hrow row' hrow' key hkey hkey' => ?_
    obtain ⟨u, hu, rfl, hmem⟩ := exists_unit config names hrow hkey
    have hmem' : row' ∈ u.rows := (mem_rows_iff hu).mpr ⟨hrow', hkey'⟩
    rw [h.named u hu row hmem, h.named u hu row' hmem']
  · intro h
    refine ⟨?_, ?_, ?_, ?_, ?_, ?_, ?_, ⟨_, rounds_settle⟩⟩
    · have hrows := (all_perm text config resolved names).flatMap_right (·.rows)
      rw [List.flatMap_map] at hrows
      exact hrows.trans flatMap_rows_perm
    · intro row hrow hsome
      obtain ⟨key, hkey⟩ := Option.isSome_iff_exists.mp hsome
      obtain ⟨u, hu, rfl, hmem⟩ := exists_unit config names hrow hkey
      refine ⟨u, ⟨hu, hmem⟩, fun u' ⟨hu', hmem'⟩ => unit_eq_of_key hu' hu ?_⟩
      exact Option.some.inj (((mem_rows_iff hu').mp hmem').2.symm.trans hkey)
    · intro u hu row hrow
      exact ((mem_rows_iff hu).mp hrow).2
    · intro u hu row hrow
      obtain ⟨row', hrow', hname⟩ := (unit_spec hu).name
      obtain ⟨hmem, hkey⟩ := (mem_rows_iff hu).mp hrow
      obtain ⟨hmem', hkey'⟩ := (mem_rows_iff hu).mp hrow'
      rw [h.name_eq hmem hmem' hkey hkey', hname]
    · intro hcap
      have hcreated := congrArg List.length (createdNames_plan text config resolved names)
      rw [createdNames, List.length_map] at hcreated
      exact hcreated.le.trans (length_limited_le hcap)
    · rw [createdNames_plan]
      exact (nodup_firsts _).sublist limited_sublist
    · intro name hname
      rw [createdNames_plan] at hname
      have hmissing := mem_firsts.mp (limited_sublist.subset hname)
      exact of_decide_eq_true (List.mem_filter.mp hmissing).2

namespace Sample

def plainText : PromotionText :=
  ⟨List.map Char.toLower, List.map Char.toLower, Templates.Python.title false, List.map Char.toLower⟩

/-- A stream of a fight on 8 March 2026 in New York. -/
def fight (streamId : ℤ) (start : LocalTime) : ResolvedStream :=
  ⟨⟨"Fury vs. Usyk", 7, some streamId, none, some 1, none⟩,
    ⟨some "Fury vs. Usyk".toList, some start, some "slot-title-month-first-date"⟩, .unmatched⟩

/-- Half past two, which the clocks skip that night. -/
def skipped : LocalTime := ⟨63908620200, -18000, 0, by decide⟩

/-- Half past three. -/
def advanced : LocalTime := ⟨63908623800, -14400, 3600, by decide⟩

/-- Half past two is the instant of half past three, and the unit has the name of one of them. -/
theorem skipped_hour :
    let plan := buildPromotionPlan plainText ⟨some 25, some 9⟩ [fight 1 skipped, fight 2 advanced] ∅
    (plan.units.map fun u =>
      (u.channelName, u.rows.map fun row => promotedChannelName plainText row.parsed)) =
        [("Fury Vs. Usyk @ Mar 08 02:30 AM".toList, [some "Fury Vs. Usyk @ Mar 08 02:30 AM".toList,
          some "Fury Vs. Usyk @ Mar 08 03:30 AM".toList])] ∧
    ¬Promotes plainText ⟨some 25, some 9⟩ [fight 1 skipped, fight 2 advanced] ∅ (fun _ _ => 0) plan := by
  refine ⟨by decide +kernel, fun h => ?_⟩
  have hnamed := List.all_eq_true.mpr fun u hu => List.all_eq_true.mpr fun row hrow =>
    beq_iff_eq.mpr (h.named u hu row hrow)
  exact absurd hnamed (by decide +kernel)

end Sample

end ChannelManager.EventSync.Promote
