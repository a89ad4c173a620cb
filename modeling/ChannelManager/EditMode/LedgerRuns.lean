import ChannelManager.EditMode.LedgerWhole

/-!
# The ledgers a session leaves behind

Which of them are restored whole: those of sessions that staged a group before they created channels
into it by name.
-/

namespace ChannelManager.EditMode

variable (generateId : ℕ → String)

/-- The staged groups of a session are named apart, below zero and from the next one up. -/
structure GroupRefs (s : Session) : Prop where
  names : GroupNames s.stagedGroupIdByNameRef s.stagedOperations
  drawn : ∀ name g, s.stagedGroupIdByNameRef.get? name = some g → s.nextTempGroupIdRef < g
  next_neg : s.nextTempGroupIdRef < 0

variable {generateId}

theorem stageLoop_apiCalls (s : Session) (entries : List OperationToStage) :
    (stageLoop generateId s entries).staged.map (·.apiCall) = entries.map (·.apiCall) := by
  have hfold : ∀ (entries : List (OperationToStage × ℕ)) (acc : StagingLoop),
      (entries.foldl (fun acc e => stageEntry generateId s.generated acc e.2 e.1) acc).staged.map
        (·.apiCall) = acc.staged.map (·.apiCall) ++ entries.map (·.1.apiCall) := by
    intro entries
    induction entries with
    | nil => simp
    | cons e entries ih =>
      intro acc
      rw [List.foldl_cons, ih]
      simp [stageEntry]
  rw [stageLoop, hfold]
  simp [← List.map_map, ← Function.comp_def (fun e : OperationToStage => e.apiCall)]

/-- A staging call adds its own calls to the queue and leaves the group names alone. -/
theorem GroupRefs.stageOperations {s : Session} (h : GroupRefs s) {entries : List OperationToStage}
    (hentries : ∀ e ∈ entries, Registered s.stagedGroupIdByNameRef e.apiCall)
    (undoDescription : Option String) :
    GroupRefs (EditMode.stageOperations generateId s entries undoDescription) := by
  unfold EditMode.stageOperations
  split
  · exact h
  · refine ⟨⟨fun op hop => ?_, h.names.negative, h.names.injective⟩, h.drawn, h.next_neg⟩
    rw [List.mem_append] at hop
    obtain hop | hop := hop
    · exact h.names.registered op hop
    · have hcall : op.apiCall ∈ entries.map (·.apiCall) := by
        rw [← stageLoop_apiCalls s entries]
        exact List.mem_map_of_mem hop
      obtain ⟨e, he, heq⟩ := List.mem_map.mp hcall
      rw [← heq]
      exact hentries e he

theorem GroupRefs.stageOperation {s : Session} (h : GroupRefs s) {apiCall : ApiCallSpec}
    (hcall : Registered s.stagedGroupIdByNameRef apiCall) (description : String) :
    GroupRefs (EditMode.stageOperation generateId s apiCall description) := by
  refine h.stageOperations ?_ none
  intro e he
  rw [List.mem_singleton] at he
  rw [he]
  exact hcall

/-- Drawing an id for a name keeps the names apart. -/
theorem GroupRefs.ensureStagedGroupId {s : Session} (h : GroupRefs s) (name : String) :
    GroupRefs (EditMode.ensureStagedGroupId s name).2 ∧
      (EditMode.ensureStagedGroupId s name).2.stagedGroupIdByNameRef.get? name =
        some (EditMode.ensureStagedGroupId s name).1 := by
  unfold EditMode.ensureStagedGroupId
  cases hget : s.stagedGroupIdByNameRef.get? name with
  | some g => exact ⟨h, hget⟩
  | none =>
    have hnext := h.next_neg
    have hkeep : ∀ n g, s.stagedGroupIdByNameRef.get? n = some g →
        (s.stagedGroupIdByNameRef.set name s.nextTempGroupIdRef).get? n = some g := by
      intro n g hn
      rw [Dict.get?_set_ne]
      · exact hn
      · rintro rfl
        rw [hget] at hn
        cases hn
    have hnew : ∀ n g, (s.stagedGroupIdByNameRef.set name s.nextTempGroupIdRef).get? n = some g →
        n = name ∧ g = s.nextTempGroupIdRef ∨
          n ≠ name ∧ s.stagedGroupIdByNameRef.get? n = some g := by
      intro n g hn
      rw [Dict.get?_set] at hn
      split at hn
      · rename_i heq
        exact .inl ⟨heq.symm, (Option.some.inj hn).symm⟩
      · rename_i hne
        exact .inr ⟨Ne.symm hne, hn⟩
    refine ⟨⟨⟨fun op hop => ?_, fun n g hn => ?_, fun n n' g hn hn' => ?_⟩, fun n g hn => ?_, ?_⟩,
      Dict.get?_set_self _ _ _⟩
    · have hop' := h.names.registered op hop
      refine ⟨fun n g hcall => hkeep n g (hop'.group n g hcall), fun call hcall n hn hne => ?_⟩
      obtain ⟨g, hg, hn'⟩ := hop'.channel call hcall n hn hne
      exact ⟨g, hg, hkeep n g hn'⟩
    · obtain ⟨-, rfl⟩ | ⟨-, hn⟩ := hnew n g hn
      · exact hnext
      · exact h.names.negative n g hn
    · obtain ⟨rfl, hg⟩ | ⟨-, hold⟩ := hnew n g hn
      · obtain ⟨rfl, -⟩ | ⟨-, hold'⟩ := hnew n' g hn'
        · rfl
        · exact absurd (h.drawn n' g hold') (by omega)
      · obtain ⟨-, hg'⟩ | ⟨-, hold'⟩ := hnew n' g hn'
        · exact absurd (h.drawn n g hold) (by omega)
        · exact h.names.injective n n' g hold hold'
    · show s.nextTempGroupIdRef - 1 < g
      obtain ⟨-, rfl⟩ | ⟨-, hn⟩ := hnew n g hn
      · omega
      · have := h.drawn n g hn
        omega
    · show s.nextTempGroupIdRef - 1 < 0
      omega

/-- The ids of a create are drawn under the name of its new group. -/
theorem GroupRefs.drawCreateIds {s : Session} (h : GroupRefs s) (args : CreateChannelArgs) :
    GroupRefs (EditMode.drawCreateIds s args).2.2 ∧
      ∀ expected, Registered (EditMode.drawCreateIds s args).2.2.stagedGroupIdByNameRef
        (.createChannel (createCall args (EditMode.drawCreateIds s args).2.1 expected)) := by
  have hdrawn : GroupRefs { s with nextTempIdRef := s.nextTempIdRef - 1 } :=
    ⟨h.names, h.drawn, h.next_neg⟩
  unfold EditMode.drawCreateIds
  cases hname : args.newGroupName with
  | none =>
    refine ⟨hdrawn, fun expected => ⟨by simp, fun call hcall n hn => ?_⟩⟩
    cases hcall
    simp [createCall, hname] at hn
  | some name =>
    dsimp only
    split
    · rename_i hempty
      refine ⟨hdrawn, fun expected => ⟨by simp, fun call hcall n hn hne => ?_⟩⟩
      cases hcall
      rw [createCall, hname, Option.some.injEq] at hn
      exact absurd (hn.symm.trans hempty) hne
    · obtain ⟨hrefs, hget⟩ := hdrawn.ensureStagedGroupId name
      refine ⟨hrefs, fun expected => ⟨by simp, fun call hcall n hn hne => ?_⟩⟩
      cases hcall
      rw [createCall, hname, Option.some.injEq] at hn
      subst hn
      exact ⟨_, rfl, hget⟩

/-- A call that is neither a create nor a `createGroup` has no group to register. -/
theorem registered_of_other {groupIdByName : Dict String ℤ} {apiCall : ApiCallSpec}
    (hgroup : ∀ name g, apiCall ≠ .createGroup name g)
    (hchannel : ∀ call, apiCall ≠ .createChannel call) : Registered groupIdByName apiCall where
  group := fun name g hcall => absurd hcall (hgroup name g)
  channel := fun call hcall => absurd hcall (hchannel call)

/-- The staging calls, undo and redo left out. -/
def Action.Staging : Action → Prop
  | .localUndo => False
  | .localRedo => False
  | _ => True

theorem GroupRefs.perform {s : Session} (h : GroupRefs s) {action : Action}
    (haction : action.Staging) : GroupRefs (EditMode.perform generateId s action) := by
  cases action
  case createChannel args =>
    obtain ⟨hrefs, hcall⟩ := h.drawCreateIds args
    simp only [EditMode.perform, stageCreateChannel]
    refine hrefs.stageOperations ?_ none
    intro e he
    rw [List.mem_singleton] at he
    rw [he]
    exact hcall none
  case createChannelWithStreams args xs =>
    simp only [EditMode.perform, stageCreateChannelWithStreams]
    split
    · exact h
    · obtain ⟨hrefs, hcall⟩ := h.drawCreateIds args
      refine hrefs.stageOperations ?_ _
      intro e he
      rw [List.mem_cons] at he
      obtain rfl | he := he
      · exact hcall _
      · obtain ⟨x, _, rfl⟩ := List.mem_map.mp he
        exact registered_of_other (by simp) (by simp)
  case createGroup name =>
    obtain ⟨hrefs, hget⟩ := h.ensureStagedGroupId name
    refine hrefs.stageOperation ⟨fun n g hcall => ?_, by simp⟩ _
    cases hcall
    exact hget
  case setProfileMembership p cs enabled description =>
    simp only [EditMode.perform, stageSetProfileMembership]
    induction cs generalizing s with
    | nil => exact h
    | cons c cs ih =>
      have hfirst : GroupRefs (EditMode.stageOperation generateId s
          (.setProfileMembership p c enabled) description) :=
        h.stageOperation (registered_of_other (by simp) (by simp)) description
      exact ih hfirst haction
  case startBatch description =>
    simp only [EditMode.perform, startBatch]
    split
    · exact h
    · exact ⟨h.names, h.drawn, h.next_neg⟩
  case endBatch =>
    simp only [EditMode.perform, endBatch]
    split
    · exact h
    · split
      · exact ⟨h.names, h.drawn, h.next_neg⟩
      · exact ⟨h.names, h.drawn, h.next_neg⟩
  case localUndo => exact haction.elim
  case localRedo => exact haction.elim
  all_goals exact h.stageOperation (registered_of_other (by simp) (by simp)) _

theorem groupRefs_run (channels : List Channel) {actions : List Action}
    (hactions : ∀ action ∈ actions, action.Staging) :
    GroupRefs (run generateId (enterEditMode channels) actions) := by
  induction actions using List.reverseRecOn with
  | nil =>
    refine ⟨⟨by simp [run, enterEditMode], ?_, ?_⟩, ?_, ?_⟩
    · intro name g hget
      cases hget
    · intro name name' g hget
      cases hget
    · intro name g hget
      cases hget
    · show (-1000 : ℤ) < 0
      decide
  | append_singleton actions action ih =>
    rw [run, List.foldl_append]
    have hbefore := ih fun a ha => hactions a (List.mem_append_left _ ha)
    exact hbefore.perform (hactions action (by simp))

theorem faithfulRun_of_staging (s : Session) {actions : List Action}
    (hactions : ∀ action ∈ actions, action.Staging) : FaithfulRun generateId s actions := by
  induction actions generalizing s with
  | nil => trivial
  | cons action actions ih =>
    refine ⟨?_, ih _ fun a ha => hactions a (List.mem_cons_of_mem _ ha)⟩
    have haction := hactions action List.mem_cons_self
    cases action
    case localUndo => exact haction.elim
    case localRedo => exact haction.elim
    all_goals trivial

/-- Calls that only bring new things into being are about nothing shown before. -/
theorem offeredQueue_of_new {context : LedgerRestoreContext} {operations : List StagedOperation}
    (h : ∀ apiCall ∈ operations.map (·.apiCall), (∃ name g, apiCall = .createGroup name g) ∨
      ∃ call, apiCall = .createChannel call ∧ call.newGroupName.any (· ≠ "") = true) :
    OfferedQueue context operations := by
  intro before op after heq
  obtain ⟨name, g, hcall⟩ | ⟨call, hcall, hnew⟩ := h op.apiCall (by simp [heq])
  · rw [hcall]
    constructor <;> simp [affectedChannelIdsOf, chosenGroupIds, namedGroupIds]
  · rw [hcall]
    have hchosen : chosenGroupIds (.createChannel call) = [] := if_pos hnew
    constructor <;> simp [affectedChannelIdsOf, hchosen]

/-- A ledger is restored whole exactly if every group that a create names was staged before it by a
call of its own, and it is safe to restore whatever the lists have become. -/
theorem ledger_restored_iff (hinj : Function.Injective generateId) (numberText : ℚ → String)
    (context : LedgerRestoreContext) (hlisted : context.Listed) (actions : List Action)
    (hactions : ∀ action ∈ actions, action.Staging) (s : Session)
    (hs : s = run generateId (enterEditMode context.channels) actions)
    (hoffered : OfferedQueue context s.stagedOperations) :
    (RestoresWhole numberText context s.stagedOperations ↔ GroupsStaged s.stagedOperations) ∧
      ∀ now : LedgerRestoreContext, (now.channels.map (·.id)).Nodup → ∀ hiddenGroupIds : List ℤ,
        (∀ op ∈ s.stagedOperations, ∀ g, op.apiCall = .restoreChannelGroup g →
          g ∈ now.channelGroupIds ∨ g ∈ hiddenGroupIds) →
        RestoresSafely numberText now hiddenGroupIds s.stagedOperations := by
  have hsound : Sound generateId s := by
    rw [hs]
    exact (sound_enterEditMode generateId hlisted.nodup hlisted.nonneg).run generateId hinj
      (faithfulRun_of_staging _ hactions)
  have hrefs : GroupRefs s := by
    rw [hs]
    exact groupRefs_run context.channels hactions
  have hchannels : s.channels = context.channels := by
    rw [hs, run_channels]
    rfl
  have hrec : Recorded context.channels s.stagedOperations := by
    rw [← hchannels]
    exact hsound.recorded.of_append
  have hids : (s.stagedOperations.map (·.id)).Nodup := by
    have htrail := hsound.ids_nodup
    rw [Session.trail, List.map_append, List.nodup_append] at htrail
    exact htrail.1
  refine ⟨hrefs.names.restoresWhole_iff hlisted hrec hoffered hids numberText, ?_⟩
  intro now hnow hiddenGroupIds hrestore
  exact restoresSafely hnow hids (hoffered.steady hlisted hrec) hrestore

theorem ledger_restored_news :
    let context : LedgerRestoreContext :=
      { channels := [{ id := 1, name := "A", channelNumber := some 5, streams := [7, 8] }]
        channelGroupIds := [3] }
    let s := run tallyId (enterEditMode context.channels)
      [.createGroup "News", .createChannel { name := "News 1", newGroupName := some "News" }]
    RestoresWhole (fun q => toString q.num) context s.stagedOperations ∧
      RestoresSafely (fun q => toString q.num) { channels := [], channelGroupIds := [] } []
        s.stagedOperations := by
  intro context s
  have hcalls : s.stagedOperations.map (·.apiCall) =
      [.createGroup "News" (-1000),
        .createChannel
          { name := "News 1"
            newGroupName := some "News"
            stagedGroupId := some (-1000) }] := by decide
  have hrestored := ledger_restored_iff tallyId_injective (fun q => toString q.num) context
    ⟨by decide, by decide, by decide, by decide⟩
    [.createGroup "News", .createChannel { name := "News 1", newGroupName := some "News" }]
    (by simp [Action.Staging]) s rfl (offeredQueue_of_new (by simp [hcalls]))
  refine ⟨hrestored.1.mpr ?_, hrestored.2 { channels := [], channelGroupIds := [] } (by simp) [] ?_⟩
  · intro before op after heq call hcall name hname hne
    have hplace := congrArg (List.map (·.apiCall)) heq
    rw [hcalls, List.map_append, List.map_cons, hcall] at hplace
    obtain _ | ⟨first, _ | ⟨second, rest⟩⟩ := before
    · simp at hplace
    · simp only [List.map_cons, List.map_nil, List.cons_append, List.nil_append, List.cons.injEq,
        ApiCallSpec.createChannel.injEq] at hplace
      obtain ⟨hfirst, rfl, -⟩ := hplace
      cases hname
      exact ⟨-1000, first, List.mem_singleton_self _, hfirst.symm⟩
    · simp at hplace
  · intro op hop g hcall
    have hmem := List.mem_map_of_mem hop (f := (·.apiCall))
    rw [hcalls, hcall] at hmem
    simp at hmem

/-- A channel and the group it names, both new, staged by one call: the ledger of it is dropped. -/
theorem new_group_dropped :
    let context : LedgerRestoreContext := { channels := [], channelGroupIds := [] }
    let s := run tallyId (enterEditMode context.channels)
      [.createChannel { name := "News 1", newGroupName := some "News" }]
    OfferedQueue context s.stagedOperations ∧
      (planLedgerRestore (fun q => toString q.num) s.stagedOperations context).dropped =
        [{ id := ""
           type := .createChannel
           description := "Create channel \"News 1\""
           reason := .dependsOnDropped
           detail := "It targets a group this session was going to create, which could not be " ++
             "restored." }] ∧
      ¬ RestoresWhole (fun q => toString q.num) context s.stagedOperations := by
  intro context s
  have hcalls : s.stagedOperations.map (·.apiCall) =
      [.createChannel
        { name := "News 1"
          newGroupName := some "News"
          stagedGroupId := some (-1000) }] := by decide
  exact ⟨offeredQueue_of_new (by simp [hcalls]), by decide, fun h => absurd h.keeps (by decide)⟩

end ChannelManager.EditMode
