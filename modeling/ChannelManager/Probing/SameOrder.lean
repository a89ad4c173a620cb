import ChannelManager.Probing.SmartSort

/-!
# One order of two sorts

The prober and the channel pipeline sort streams into one order but for the streams that were not
probed: there the pipeline does not look at the priority of their account. It sorts as the prober does
where such streams have an account without a priority.
-/

namespace ChannelManager.Probing

/-- The criteria that both sorts know. -/
def Criterion.known : Criterion → Bool
  | .other _ => false
  | _ => true

/-- A stream that is not deprioritized, of which no probe succeeded. -/
def unprobed (settings : Engine.SortSettings) (statsCache : Dict ℤ StreamStats) (sid : ℤ) : Bool :=
  match statsCache.get? sid with
  | none => !settings.deprioritizeFailedStreams
  | some stats =>
    !(settings.deprioritizeFailedStreams &&
      (isFailedStatus stats.probeStatus || stats.isBlackScreen || stats.isLowFps)) &&
      stats.probeStatus ≠ "success"

section Keys

variable {input : SortInput} {active : List Criterion} {settings : Engine.SortSettings}
  {stats : Dict ℤ StreamStats} {sid : ℤ}

/-- The prober computes the values of a stream that was probed as those of the others. -/
theorem probedValues_eq (input : SortInput) (active : List Criterion) (stats : StreamStats) (sid : ℤ) :
    active.filterMap (Prober.probedValue input stats sid) =
      computeCriteriaValues input active (some stats) sid := by
  refine List.filterMap_congr fun criterion _ => ?_
  cases criterion <;> rfl

theorem length_criteriaValues (input : SortInput) (sid : ℤ)
    (hknown : ∀ criterion ∈ active, criterion.known = true) (stats : Option StreamStats) :
    (computeCriteriaValues input active stats sid).length = active.length := by
  induction active with
  | nil => rfl
  | cons criterion active ih =>
    obtain ⟨hcriterion, hactive⟩ := List.forall_mem_cons.mp hknown
    have hsome : (criterionValue input stats sid criterion).isSome := by
      cases criterion <;> first | rfl | cases hcriterion
    obtain ⟨value, hvalue⟩ := Option.isSome_iff_exists.mp hsome
    rw [computeCriteriaValues, List.filterMap_cons_some hvalue, List.length_cons, List.length_cons]
    exact congrArg (· + 1) (ih hactive)

/-- A stream has a value for each criterion, after where it is and its rank there. -/
theorem length_sortValue (hknown : ∀ criterion ∈ active, criterion.known = true)
    (deprioritize : Prober.Deprioritize) (failedOrder : List String) :
    (Prober.sortValue input active stats deprioritize failedOrder sid).length = active.length + 2 := by
  unfold Prober.sortValue
  have hlength := fun stats => length_criteriaValues input sid hknown stats
  cases stats.get? sid with
  | none =>
    simp only
    split <;> simp [hlength]
  | some stat =>
    simp only [probedValues_eq]
    split_ifs <;> simp [hlength]

/-- What the pipeline sorts a stream by is what the prober does but for its id, where it has the same
account or an account without a priority. -/
theorem getSortValue_eq (streamM3uMap' : Dict ℤ ℤ)
    (hsame : unprobed settings stats sid = false →
      streamM3uMap'.get? sid = input.streamM3uMap.get? sid)
    (hzero : .m3uPriority ∈ activeCriteria settings.streamSortPriority settings.streamSortEnabled →
      unprobed settings stats sid = true →
        accountPriority input.m3uAccountPriorities streamM3uMap' sid = 0) :
    Engine.getSortValue input settings stats sid =
      Prober.sortValue { input with streamM3uMap := streamM3uMap' }
        (activeCriteria settings.streamSortPriority settings.streamSortEnabled) stats
        ⟨settings.deprioritizeFailedStreams, settings.deprioritizeFailedStreams,
          settings.deprioritizeFailedStreams⟩ settings.failedStreamSortOrder sid := by
  have hvalues : unprobed settings stats sid = false → ∀ stats' active,
      computeCriteriaValues { input with streamM3uMap := streamM3uMap' } active stats' sid =
        computeCriteriaValues input active stats' sid := by
    intro hprobed stats' active
    refine List.filterMap_congr fun criterion _ => ?_
    cases criterion <;> simp [criterionValue, accountPriority, hsame hprobed]
  have hunprobed : unprobed settings stats sid = true →
      (activeCriteria settings.streamSortPriority settings.streamSortEnabled).map
          (Prober.unprobedValue { input with streamM3uMap := streamM3uMap' } sid) =
        (activeCriteria settings.streamSortPriority settings.streamSortEnabled).map
          (Engine.unprobedValue input sid) := by
    intro h
    refine List.map_congr_left fun criterion hcriterion => ?_
    cases criterion with
    | m3uPriority => simp [Prober.unprobedValue, Engine.unprobedValue, hzero hcriterion h]
    | _ => rfl
  unfold unprobed at hvalues hunprobed
  unfold Engine.getSortValue Prober.sortValue
  cases hstats : stats.get? sid with
  | none =>
    simp only [hstats] at hvalues hunprobed
    cases hfailed : settings.deprioritizeFailedStreams with
    | true => simp [hvalues (by simp [hfailed])]
    | false => simp [hunprobed (by simp [hfailed])]
  | some stat =>
    simp only [hstats] at hvalues hunprobed
    simp only [Bool.and_self, probedValues_eq]
    cases hstatus : !(settings.deprioritizeFailedStreams &&
        (isFailedStatus stat.probeStatus || stat.isBlackScreen || stat.isLowFps)) &&
        decide (stat.probeStatus ≠ "success") with
    | false =>
      simp only [hvalues hstatus]
      split_ifs <;> first | rfl | simp_all
    | true =>
      simp only [hunprobed hstatus]
      split_ifs <;> first | rfl | simp_all

end Keys

/-- Both sorts give one order, where streams of which no probe succeeded, unless they are deprioritized,
have an account without a priority for the prober. -/
theorem smartSortStreams_eq (python : Python) (streamIds : List ℤ) (stats : Dict ℤ StreamStats)
    (streamM3uMap streamM3uMap' : Dict ℤ ℤ) (settings : Engine.SortSettings)
    (customStreamIds catchupStreamIds : Option (Finset ℤ)) (hids : streamIds.Pairwise (· < ·))
    (hknown : ∀ criterion ∈ activeCriteria settings.streamSortPriority settings.streamSortEnabled,
      criterion.known = true)
    (hsame : ∀ sid ∈ streamIds, unprobed settings stats sid = false →
      streamM3uMap'.get? sid = streamM3uMap.get? sid)
    (hzero : .m3uPriority ∈ activeCriteria settings.streamSortPriority settings.streamSortEnabled →
      ∀ sid ∈ streamIds, unprobed settings stats sid = true →
        accountPriority settings.m3uAccountPriorities streamM3uMap' sid = 0) :
    Engine.smartSortStreams python streamIds stats streamM3uMap (some settings) customStreamIds
        catchupStreamIds =
      Prober.smartSortStreams python streamIds stats (some streamM3uMap')
        (some settings.streamSortPriority) (some settings.streamSortEnabled)
        (some settings.m3uAccountPriorities)
        ⟨settings.deprioritizeFailedStreams, settings.deprioritizeFailedStreams,
          settings.deprioritizeFailedStreams⟩ (some settings.failedStreamSortOrder) customStreamIds
        catchupStreamIds := by
  refine sortedOn_eq_of_pairwise (hids.imp_of_mem fun {a b} ha hb hab => ?_)
  rw [getSortValue_eq streamM3uMap' (hsame a ha) fun hpriority => hzero hpriority a ha,
    getSortValue_eq streamM3uMap' (hsame b hb) fun hpriority => hzero hpriority b hb]
  refine (append_singleton_le_iff ?_ (by exact_mod_cast hab.le)).symm
  rw [length_sortValue hknown, length_sortValue hknown]

/-! ### Samples -/

section Samples

/-- Python where no text is a number. -/
def wordyPython : Python := ⟨fun _ => none, fun _ => none, id⟩

def probedStats : StreamStats := ⟨none, none, none, none, none, none, "success", false, false⟩

def prioritySettings (criterion : Criterion) : Engine.SortSettings :=
  ⟨[criterion], Dict.ofList [(criterion, true)], false, Dict.ofList [("8", 10)],
    defaultFailedOrder⟩

/-- The sort of the prober under the settings of the pipeline. -/
def proberSort (settings : Engine.SortSettings) (streamIds : List ℤ) (stats : Dict ℤ StreamStats)
    (streamM3uMap : Dict ℤ ℤ) : List ℤ :=
  Prober.smartSortStreams wordyPython streamIds stats (some streamM3uMap)
    (some settings.streamSortPriority) (some settings.streamSortEnabled)
    (some settings.m3uAccountPriorities)
    ⟨settings.deprioritizeFailedStreams, settings.deprioritizeFailedStreams,
      settings.deprioritizeFailedStreams⟩ (some settings.failedStreamSortOrder) none none

def engineSort (settings : Engine.SortSettings) (streamIds : List ℤ) (stats : Dict ℤ StreamStats)
    (streamM3uMap : Dict ℤ ℤ) : List ℤ :=
  Engine.smartSortStreams wordyPython streamIds stats streamM3uMap (some settings) none none

/-- The third stream was not probed, and its account has no priority. -/
def threeStats : Dict ℤ StreamStats := Dict.ofList [(1, probedStats), (2, probedStats)]

def threeAccounts : Dict ℤ ℤ := Dict.ofList [(1, 7), (2, 8), (3, 9)]

theorem smartSortStreams_eq_three :
    engineSort (prioritySettings .m3uPriority) [1, 2, 3] threeStats threeAccounts =
      proberSort (prioritySettings .m3uPriority) [1, 2, 3] threeStats threeAccounts :=
  smartSortStreams_eq wordyPython [1, 2, 3] threeStats threeAccounts threeAccounts
    (prioritySettings .m3uPriority) none none (by decide) (by decide) (fun _ _ _ => rfl)
    (by decide +kernel)

/-- Only the prober looks at the account of a stream that was not probed, and a criterion that neither
sort knows has a place only among the values of such a stream. -/
theorem unprobed_sorted_otherwise :
    (engineSort (prioritySettings .m3uPriority) [1, 2] (Dict.ofList [(1, probedStats)])
        (Dict.ofList [(1, 7), (2, 8)]) = [1, 2] ∧
      proberSort (prioritySettings .m3uPriority) [1, 2] (Dict.ofList [(1, probedStats)])
        (Dict.ofList [(1, 7), (2, 8)]) = [2, 1]) ∧
    engineSort (prioritySettings (.other "language")) [3, 5] (Dict.ofList [(5, probedStats)]) ∅ = [5, 3] ∧
      proberSort (prioritySettings (.other "language")) [3, 5] (Dict.ofList [(5, probedStats)]) ∅ =
        [3, 5] := by
  decide +kernel

end Samples

end ChannelManager.Probing
