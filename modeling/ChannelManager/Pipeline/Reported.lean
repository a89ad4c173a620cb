import ChannelManager.Pipeline.FailureReport

/-!
# Which failures a run reports

A call is loud when its failure ends up among the failed actions. What a phase leaves is told in one
relation between reports: of the calls made in between, some loud one failed exactly if something was
recorded or is still held back to be recorded. Every phase keeps the relation, so the failed actions
of a run are the loud failures, and a write whose failure is dropped leaves no trace.
-/

namespace ChannelManager.Pipeline

/-- A failed write from here is recorded. -/
def WriteSite.recorded : WriteSite → Bool
  | .action _ | .profileMembership | .renumber | .sortGroup | .refreshEpgSource => true
  | _ => false

/-- A failed read from here is recorded, itself or through the error of the action it ends. -/
def ReadSite.recorded : ReadSite → Bool
  | .fetchStreams | .reloadEpgData => true
  | _ => false

/-- The failure of the call is recorded. -/
def RunCall.loud : RunCall → Bool
  | .write site _ => site.recorded
  | .read site _ => site.recorded
  | .step _ | .refused => true

def RunCall.isWrite : RunCall → Bool
  | .write _ _ => true
  | _ => false

/-- The writes that failed and were not sent again with success. -/
def outstanding : List (RunCall × Bool) → List RunCall
  | [] => []
  | (c, ok) :: rest =>
    if !ok && c.isWrite && decide ((c, true) ∉ rest) then c :: outstanding rest
    else outstanding rest

/-- Some loud call failed. -/
def LoudFailure (history : List (RunCall × Bool)) : Prop :=
  ∃ e ∈ history, e.1.loud = true ∧ e.2 = false

theorem loudFailure_append (h h' : List (RunCall × Bool)) :
    LoudFailure (h ++ h') ↔ LoudFailure h ∨ LoudFailure h' := by
  simp only [LoudFailure, List.mem_append, or_and_right, exists_or]

section Telling

variable {α β : Type}

/-- What happened between two reports: more was tried, and something loud failed exactly if it was
recorded, or is held back to be. -/
def Told (r r' : RunReport) (held : Prop) : Prop :=
  ∃ h, r'.history = r.history ++ h ∧
    (r'.failedActions ≠ [] ∨ held ↔ r.failedActions ≠ [] ∨ LoudFailure h)

theorem Told.refl (r : RunReport) : Told r r False :=
  ⟨[], by simp, by simp [LoudFailure]⟩

theorem Told.trans {r r' r'' : RunReport} {held held' : Prop} (h : Told r r' held)
    (h' : Told r' r'' held') : Told r r'' (held ∨ held') := by
  obtain ⟨t, ht, hiff⟩ := h
  obtain ⟨t', ht', hiff'⟩ := h'
  refine ⟨t ++ t', by rw [ht', ht, List.append_assoc], ?_⟩
  rw [loudFailure_append]
  tauto

theorem Told.congr {r r' : RunReport} {held held' : Prop} (h : Told r r' held)
    (hiff : held ↔ held') : Told r r' held' := by
  obtain ⟨t, ht, hold⟩ := h
  exact ⟨t, ht, by rw [← hiff]; exact hold⟩

/-- What may be said when a computation raises: nothing, that it does not; or what it holds back. -/
def Raised : Option Bool → RunReport → RunReport → Prop
  | none, _, _ => False
  | some held, r, r' => Told r r' (held = true)

/-- However a computation ends, what it did is told; `raised` says how it may end. -/
def Tells (raised : Option Bool) (x : Eff RunReport α) : Prop :=
  ∀ r, Eff.wp x (fun _ r' => Told r r' False) (fun _ r' => Raised raised r r') r

/-- As `Tells`, where what is returned says what is held back. -/
def Returns (held : α → Prop) (x : Eff RunReport α) : Prop :=
  ∀ r, Eff.wp x (fun a r' => Told r r' (held a)) (fun _ _ => False) r

theorem Raised.after {raised : Option Bool} {r r' r'' : RunReport} (h : Told r r' False)
    (h' : Raised raised r' r'') : Raised raised r r'' := by
  cases raised with
  | none => exact h'
  | some held => exact (h.trans h').congr (by simp)

theorem tells_pure (raised : Option Bool) (a : α) : Tells raised (pure a : Eff RunReport α) :=
  fun r => Told.refl r

theorem Tells.bind {raised : Option Bool} {x : Eff RunReport β} {f : β → Eff RunReport α}
    (hx : Tells raised x) (hf : ∀ b, Tells raised (f b)) : Tells raised (x >>= f) := by
  intro r
  rw [Eff.wp_bind]
  apply Eff.wp_mono (hx r) _ fun _ _ h => h
  intro b r' h
  exact Eff.wp_mono (hf b r') (fun _ _ h' => (h.trans h').congr (by simp)) fun _ _ h' => h'.after h

theorem Tells.mono {raised : Option Bool} {x : Eff RunReport α} (hx : Tells none x) :
    Tells raised x :=
  fun r => Eff.wp_mono (hx r) (fun _ _ h => h) fun _ _ h => h.elim

theorem Tells.ite {raised : Option Bool} {c : Prop} [Decidable c] {x y : Eff RunReport α}
    (hx : Tells raised x) (hy : Tells raised y) : Tells raised (if c then x else y) := by
  split
  · exact hx
  · exact hy

theorem tells_each {raised : Option Bool} {body : β → Eff RunReport Unit}
    (h : ∀ b, Tells raised (body b)) (bs : List β) : Tells raised (Eff.each body bs) := by
  induction bs with
  | nil => exact tells_pure raised ()
  | cons b bs ih =>
    rw [Eff.each]
    exact (h b).bind fun _ => ih

/-- A computation that never raises and holds nothing back. -/
theorem Returns.tells {x : Eff RunReport α} (h : Returns (fun _ => False) x) : Tells none x := h

theorem returns_pure {held : α → Prop} {a : α} (h : ¬held a) :
    Returns held (pure a : Eff RunReport α) :=
  fun r => (Told.refl r).congr (by simp [h])

/-- What is held back is kept by what follows, or recorded there. -/
theorem Returns.bind {held : α → Prop} {held' : β → Prop} {x : Eff RunReport β}
    {f : β → Eff RunReport α} (hx : Returns held' x)
    (hf : ∀ b r r', Told r r' (held' b) → Eff.wp (f b) (fun a r'' => Told r r'' (held a))
      (fun _ _ => False) r') : Returns held (x >>= f) := by
  intro r
  rw [Eff.wp_bind]
  exact Eff.wp_mono (hx r) (fun b r' h => hf b r r' h) fun _ _ h => h

/-- What holds nothing back can come first. -/
theorem Tells.then {held : α → Prop} {x : Eff RunReport β} {f : β → Eff RunReport α}
    (hx : Tells none x) (hf : ∀ b, Returns held (f b)) : Returns held (x >>= f) := by
  intro r
  rw [Eff.wp_bind]
  apply Eff.wp_mono (hx r) _ fun _ _ h => h
  intro b r' h
  exact Eff.wp_mono (hf b r') (fun _ _ h' => (h.trans h').congr (by simp)) fun _ _ h' => h'

/-- What is returned may be held back under another name. -/
theorem Returns.map {held : α → Prop} {held' : β → Prop} {x : Eff RunReport β} (g : β → α)
    (hx : Returns held' x) (hiff : ∀ b, held' b ↔ held (g b)) :
    Returns held (do let b ← x; pure (g b)) :=
  hx.bind fun b _ _ h => h.congr (hiff b)

/-- A loop that carries what is held back, in one of its rounds, beside what else is. -/
def Carries (held : α → Prop) (body : α → β → Eff RunReport α) : Prop :=
  ∀ (other : Prop) a b r r', Told r r' (held a ∨ other) →
    Eff.wp (body a b) (fun a' r'' => Told r r'' (held a' ∨ other)) (fun _ _ => False) r'

theorem Carries.fold {held : α → Prop} {body : α → β → Eff RunReport α} (h : Carries held body)
    (bs : List β) {other : Prop} {a : α} {r r' : RunReport} (ha : Told r r' (held a ∨ other)) :
    Eff.wp (Eff.fold body a bs) (fun a' r'' => Told r r'' (held a' ∨ other)) (fun _ _ => False) r' :=
  Eff.wp_fold (fun _ a s => Told r s (held a ∨ other)) bs
    (fun b _ a s hs => h other a b r s hs) a r' ha

theorem Carries.returns {held : α → Prop} {body : α → β → Eff RunReport α} (h : Carries held body)
    (bs : List β) {a : α} (ha : ¬held a) : Returns held (Eff.fold body a bs) := by
  intro r
  have hnone : Told r r (held a ∨ False) := (Told.refl r).congr (by simp [ha])
  apply Eff.wp_mono (h.fold bs hnone) _ fun _ _ h => h
  exact fun _ _ h => h.congr (by simp)

theorem Tells.reported {x : Eff RunReport Unit} (hx : Tells (some true) x) :
    Returns (fun error => error.isSome = true) (report x) := by
  intro r
  rw [report, Eff.wp_tryCatch, Eff.wp_bind]
  exact Eff.wp_mono (hx r) (fun _ _ h => h.congr (by simp)) fun _ _ h => h.congr (by simp)

theorem Tells.reported_silent {x : Eff RunReport Unit} (hx : Tells (some false) x) :
    Tells none (report x) := by
  intro r
  rw [report, Eff.wp_tryCatch, Eff.wp_bind]
  exact Eff.wp_mono (hx r) (fun _ _ h => h) fun _ _ h => h.congr (by simp)

theorem Tells.attempted {x : Eff RunReport Unit} (hx : Tells (some true) x) :
    Returns (fun ok => ok = false) (Eff.attempt x) := by
  intro r
  rw [Eff.wp_attempt]
  exact Eff.wp_mono (hx r) (fun _ _ h => h.congr (by simp)) fun _ _ h => h.congr (by simp)

theorem Tells.attempted_silent {x : Eff RunReport Unit} (hx : Tells (some false) x) :
    Tells none (Eff.attempt x) := by
  intro r
  rw [Eff.wp_attempt]
  exact Eff.wp_mono (hx r) (fun _ _ h => h) fun _ _ h => h.congr (by simp)

/-- A part of what was held back is recorded. -/
theorem Told.record {r r' : RunReport} {held recorded : Prop} (h : Told r r' (recorded ∨ held))
    {entries : List FailedEntry} (hentries : recorded ↔ entries ≠ []) :
    Eff.wp (recordFailed entries) (fun _ r'' => Told r r'' held) (fun _ _ => False) r' := by
  obtain ⟨t, ht, hiff⟩ := h
  rw [recordFailed, Eff.wp_modify]
  refine ⟨t, ht, ?_⟩
  simp only [ne_eq, List.append_eq_nil_iff, not_and_or, or_assoc]
  rw [← ne_eq entries, ← hentries]
  exact hiff

theorem Told.record_all {r r' : RunReport} {held : Prop} (h : Told r r' held)
    {entries : List FailedEntry} (hentries : held ↔ entries ≠ []) :
    Eff.wp (recordFailed entries) (fun _ r'' => Told r r'' False) (fun _ _ => False) r' :=
  Told.record (h.congr (by simp)) hentries

end Telling

section Calls

variable (fails : ℕ → Option String)

theorem told_tried (r : RunReport) (c : RunCall) (ok : Bool) :
    Told r { r with calls := r.calls + 1, history := r.history ++ [(c, ok)] }
      (c.loud = true ∧ ok = false) :=
  ⟨[(c, ok)], rfl, by simp [LoudFailure]⟩

theorem attemptCall_tells (c : RunCall) : Tells (some c.loud) (attemptCall fails c) := by
  intro r
  rw [attemptCall, Eff.wp_bind, Eff.wp_get, Eff.wp_bind, Eff.wp_set]
  have h := told_tried r c (fails r.calls).isNone
  cases hf : fails r.calls with
  | none =>
    rw [hf] at h
    exact h.congr (by simp)
  | some error =>
    rw [hf] at h
    exact h.congr (by simp)

theorem refuseAction_told {r r' : RunReport} (h : Told r r' False) :
    Eff.wp refuseAction (fun _ r'' => Told r r'' True) (fun _ _ => False) r' := by
  rw [refuseAction, Eff.wp_modify]
  have htried : Told r' { r' with history := r'.history ++ [(.refused, false)] } True :=
    ⟨_, rfl, by simp [LoudFailure, RunCall.loud]⟩
  exact (h.trans htried).congr (by simp)

theorem refuse_returns (error : String) :
    Returns (fun error => error.isSome = true)
      (do refuseAction; pure (some error) : Eff RunReport (Option String)) := by
  intro r
  rw [Eff.wp_bind]
  exact Eff.wp_mono (refuseAction_told (Told.refl r)) (fun _ _ h => h.congr (by simp))
    fun _ _ h => h

theorem callIf_tells (needed : Bool) (c : RunCall) : Tells (some c.loud) (callIf fails needed c) :=
  Tells.ite (attemptCall_tells fails c) (tells_pure (some c.loud) ())

theorem attempt_silent (needed : Bool) {c : RunCall} (h : c.loud = false) :
    Tells none (Eff.attempt (callIf fails needed c)) :=
  Tells.attempted_silent (h ▸ callIf_tells fails needed c)

theorem report_loud {c : RunCall} (h : c.loud = true) :
    Returns (fun error => error.isSome = true) (report (attemptCall fails c)) :=
  Tells.reported (h ▸ attemptCall_tells fails c)

theorem resolveLogoId_tells (target : ℤ) (need : LogoNeed) :
    Tells none (resolveLogoId fails target need) := by
  cases need with
  | cached => exact tells_pure none true
  | unknown listed =>
    rw [resolveLogoId]
    apply Tells.bind (Tells.reported_silent (attemptCall_tells fails (.write .createLogo target)))
    intro error
    cases error with
    | none => exact tells_pure none true
    | some error =>
      dsimp only
      apply Tells.ite _ (tells_pure none false)
      exact (Tells.attempted_silent (attemptCall_tells fails (.read .findLogo target))).bind
        fun _ => tells_pure none _

theorem applyExclusiveProfileMembership_returns (profileIds : List ℤ) :
    Returns (fun failed => failed ≠ []) (applyExclusiveProfileMembership fails profileIds) := by
  apply Carries.returns _ profileIds (by simp)
  intro other failed profileId r r' h
  rw [Eff.wp_bind]
  apply Eff.wp_mono (Tells.attempted (attemptCall_tells fails (.write .profileMembership profileId)) r')
    _ fun _ _ h => h
  intro ok r'' h'
  apply (h.trans h').congr
  cases ok <;> simp

theorem performPatch_returns (run : PatchRun) :
    Returns (fun error => error.isSome = true) (performPatch fails run) := by
  cases run with
  | decided error =>
    cases error with
    | none => exact returns_pure (by simp)
    | some error => exact refuse_returns error
  | write site target => exact report_loud fails rfl

theorem markChannelProfileOwnership_tells (stamps : Bool) (target : ℤ) :
    Tells none (markChannelProfileOwnership fails stamps target) := by
  apply Tells.attempted_silent
  exact (callIf_tells fails stamps (.read .ownership target)).bind fun _ =>
    callIf_tells fails stamps (.write .ownershipMarker target)

theorem executeAssignChannelProfile_returns (run : ProfileRun) :
    Returns (fun error => error.isSome = true) (executeAssignChannelProfile fails run) := by
  unfold executeAssignChannelProfile
  apply Tells.then (attempt_silent fails run.readsSettings rfl)
  intro settings
  split
  · exact refuse_returns _
  · apply Tells.then (markChannelProfileOwnership_tells fails run.stamps run.target)
    intro _
    apply (applyExclusiveProfileMembership_returns fails run.profileIds).map
    intro failed
    by_cases hf : failed = [] <;> simp [hf]

/-- What an action holds back: its error, or the default profiles that were not updated. -/
def Held (result : Option String × List ℤ) : Prop := result.1.isSome = true ∨ result.2 ≠ []

theorem returns_error {x : Eff RunReport (Option String)}
    (hx : Returns (fun error => error.isSome = true) x) :
    Returns Held (do let error ← x; pure (error, [])) :=
  hx.map (fun error => (error, [])) fun _ => by simp [Held]

theorem performCreateChannel_returns (target : ℤ) (logo : LogoNeed) (defaultProfileIds : List ℤ) :
    Returns Held (performCreateChannel fails target logo defaultProfileIds) := by
  unfold performCreateChannel
  apply Tells.then (resolveLogoId_tells fails target logo)
  intro _
  apply (performPatch_returns fails (.write .createChannel target)).bind
  intro error r r' h
  cases error with
  | some error => exact h.congr (by simp [Held])
  | none =>
    dsimp only
    rw [Eff.wp_bind]
    apply Eff.wp_mono (applyExclusiveProfileMembership_returns fails defaultProfileIds r') _
      fun _ _ h => h
    exact fun failed r'' h' => (h.trans h').congr (by simp [Held])

theorem performAssignLogo_returns (target : ℤ) (need : LogoNeed) :
    Returns (fun error => error.isSome = true) (performAssignLogo fails target need) := by
  unfold performAssignLogo
  apply Tells.then (resolveLogoId_tells fails target need)
  intro found
  cases found with
  | true => exact performPatch_returns fails (.write .assignLogo target)
  | false => exact returns_pure (by simp)

theorem performAction_returns (run : ActionRun) : Returns Held (performAction fails run) := by
  cases run with
  | patch run => exact returns_error (performPatch_returns fails run)
  | useExisting target renames run =>
    apply Tells.then (attempt_silent fails renames rfl)
    exact fun _ => returns_error (performPatch_returns fails run)
  | createChannel target logo defaultProfileIds =>
    exact performCreateChannel_returns fails target logo defaultProfileIds
  | mergeStreams target seeds run =>
    apply Tells.then (attempt_silent fails seeds rfl)
    exact fun _ => returns_error (performPatch_returns fails run)
  | assignLogo target need => exact returns_error (performAssignLogo_returns fails target need)
  | rearrange site target fetches changes =>
    apply returns_error
    apply Tells.reported
    exact (callIf_tells fails fetches (.read .fetchStreams target)).bind fun _ =>
      callIf_tells fails changes (.write (.action site) target)
  | assignChannelProfile run => exact returns_error (executeAssignChannelProfile_returns fails run)

/-- The default profiles of one more channel are kept with those before. -/
theorem keep_ne_nil (entityId : Option ℤ) (pending : List (Option ℤ × List ℤ)) (failed : List ℤ) :
    (if failed = [] then pending else pending ++ [(entityId, failed)]) ≠ [] ↔
      pending ≠ [] ∨ failed ≠ [] := by
  by_cases hf : failed = [] <;> simp [hf]

theorem executeStep_carries : Carries (fun pending => pending ≠ []) (executeStep fails) := by
  intro other pending step r r' h
  unfold executeStep
  rw [Eff.wp_bind]
  apply Eff.wp_mono (performAction_returns fails step.run r') _ fun _ _ h => h
  intro (error, failed) r'' h'
  have hkeep := keep_ne_nil step.entityId pending failed
  cases error with
  | none => exact (h.trans h').congr (by simp only [hkeep, Held]; simp [or_right_comm])
  | some error =>
    have hheld : Told r r'' (True ∨
        (if failed = [] then pending else pending ++ [(step.entityId, failed)]) ≠ [] ∨ other) :=
      (h.trans h').congr (by simp [Held])
    dsimp only
    rw [Eff.wp_bind]
    exact hheld.record (by simp)

theorem executeStream_tells (steps : List ActionStep) : Tells none (executeStream fails steps) := by
  unfold executeStream
  apply ((executeStep_carries fails).returns steps (by simp)).bind
  exact fun pending r r' h => h.record_all (by simp)

theorem attach_carries : Carries (fun errors => 0 < errors) (attach fails) := by
  intro other errors run r r' h
  unfold attach
  rw [Eff.wp_bind]
  apply Eff.wp_mono (performPatch_returns fails run r') _ fun _ _ h => h
  intro error r'' h'
  apply (h.trans h').congr
  cases error <;> simp

theorem promote_carries :
    Carries (fun acc => 0 < acc.1 ∨ acc.2 ≠ []) (promote fails) := by
  intro other (errors, pending) (run, attaches) r r' h
  unfold promote
  rw [Eff.wp_bind]
  apply Eff.wp_mono (performAction_returns fails run r') _ fun _ _ h => h
  intro (error, failed) r'' h'
  dsimp only at h ⊢
  cases error with
  | some error => exact (h.trans h').congr (by simp [Held])
  | none =>
    have hheld : Told r r'' (0 < errors ∨ pending ≠ [] ∨ failed ≠ [] ∨ other) :=
      (h.trans h').congr (by simp only [Held]; tauto)
    dsimp only
    rw [Eff.wp_bind]
    apply Eff.wp_mono ((attach_carries fails).fold attaches hheld) _ fun _ _ h => h
    intro errors' s h''
    rw [Eff.wp_pure, keep_ne_nil]
    exact h''.congr (by tauto)

theorem syncProfile_tells (run : ProfileRun) : Tells none (syncProfile fails run) := by
  unfold syncProfile
  apply (executeAssignChannelProfile_returns fails run).bind
  intro error r r' h
  cases error with
  | none => exact h.congr (by simp)
  | some error => exact h.record_all (by simp)

theorem runEventSyncRule_tells (run : SyncRun) : Tells none (runEventSyncRule fails run) := by
  intro r
  unfold runEventSyncRule
  rw [Eff.wp_bind]
  apply Eff.wp_mono ((attach_carries fails).returns run.attaches (by simp) r) _ fun _ _ h => h
  intro attachErrors r₁ h₁
  rw [Eff.wp_bind]
  have hboth : Told r r₁ ((0 < attachErrors ∨ ([] : List (Option ℤ × List ℤ)) ≠ []) ∨ False) :=
    h₁.congr (by simp)
  apply Eff.wp_mono ((promote_carries fails).fold run.promotions hboth) _ fun _ _ h => h
  intro (errors, pending) r₂ h₂
  dsimp only at h₂ ⊢
  rw [Eff.wp_bind]
  apply Eff.wp_mono ((attach_carries fails).returns run.epg (by simp) r₂) _ fun _ _ h => h
  intro failed r₃ h₃
  rw [Eff.wp_bind]
  have hfailed : Told r r₃ (0 < failed ∨ 0 < errors ∨ pending ≠ []) :=
    (h₂.trans h₃).congr (by tauto)
  apply Eff.wp_mono (hfailed.record (by simp [Nat.pos_iff_ne_zero])) _ fun _ _ h => h
  intro _ r₄ h₄
  rw [Eff.wp_bind]
  apply Eff.wp_mono (tells_each (syncProfile_tells fails) run.profiles r₄) _ fun _ _ h => h
  intro _ r₅ h₅
  rw [Eff.wp_bind]
  have herrors : Told r r₅ (0 < errors ∨ pending ≠ []) := (h₄.trans h₅).congr (by simp)
  apply Eff.wp_mono (herrors.record (by simp [Nat.pos_iff_ne_zero])) _ fun _ _ h => h
  exact fun _ _ h => h.record_all (by simp)

theorem verifyEpgAssignment_tells (item : Overwrite) :
    Tells none (verifyEpgAssignment fails item) := by
  apply Tells.bind (Tells.attempted_silent _) fun _ => tells_pure none ()
  exact (attemptCall_tells fails (.read .verifyEpg item.target)).bind fun _ =>
    callIf_tells fails item.changes (.write .verifyEpg item.target)

theorem overwrite_tells {readSite : ReadSite} {writeSite : WriteSite}
    (hread : readSite.recorded = false) (hwrite : writeSite.recorded = false) (item : Overwrite) :
    Tells none (overwrite fails readSite writeSite item) := by
  have hr : (RunCall.read readSite item.target).loud = false := hread
  have hw : (RunCall.write writeSite item.target).loud = false := hwrite
  exact (attempt_silent fails (!item.known) hr).bind fun found =>
    (attempt_silent fails (found && item.changes) hw).bind fun _ => tells_pure none ()

/-- A call whose failure a handler records. -/
theorem tells_of_recorded {x : Eff RunReport Unit} (hx : Tells (some true) x)
    (entry : String → FailedEntry) :
    Tells none (tryCatch x fun error => recordFailed [entry error]) := by
  intro r
  rw [Eff.wp_tryCatch]
  apply Eff.wp_mono (hx r) (fun _ _ h => h)
  intro error r' h
  exact Told.record_all h (by simp)

theorem numberChannels_tells {site : WriteSite} (hsite : site.recorded = true) (phase : String)
    (numbering : Numbering) : Tells none (numberChannels fails site phase numbering) := by
  apply tells_of_recorded
  have hcall := attemptCall_tells fails (.write site numbering.target)
  rw [show (RunCall.write site numbering.target).loud = true from hsite] at hcall
  exact hcall.bind fun _ => (tells_each (overwrite_tells fails rfl rfl) numbering.renames).mono

theorem cleanUp_tells (moves : Bool) (c : ℤ) : Tells none (cleanUp fails moves c) := by
  apply Tells.bind (Tells.attempted_silent _) fun _ => tells_pure none ()
  cases moves with
  | true => exact attemptCall_tells fails (.write .moveOrphan c)
  | false => exact attemptCall_tells fails (.write .deleteOrphan c)

theorem deleteGroupIfEmpty_tells (group : ℤ × ℕ × Bool) :
    Tells none (deleteGroupIfEmpty fails group) := by
  apply Tells.bind (Tells.attempted_silent _) fun _ => tells_pure none ()
  exact (tells_each (fun _ => attemptCall_tells fails (.read .groupChannels group.1)) _).bind
    fun _ => callIf_tells fails group.2.2 (.write .deleteGroup group.1)

theorem reconcileOrphansOf_tells (run : Reconciliation) :
    Tells none (reconcileOrphansOf fails run) := by
  apply (tells_each (cleanUp_tells fails run.moves) run.orphans).bind
  intro _
  apply (tells_each (deleteGroupIfEmpty_tells fails) run.groups).bind
  intro _
  cases run.numbering with
  | none => exact tells_pure none ()
  | some numbering => exact numberChannels_tells fails rfl _ numbering

theorem refreshEpgSource_tells (sourceId : ℤ) : Tells none (refreshEpgSource fails sourceId) :=
  tells_of_recorded (attemptCall_tells fails (.write .refreshEpgSource sourceId)) _

theorem retryAssignEpg_tells (run : PatchRun) : Tells none (retryAssignEpg fails run) := by
  unfold retryAssignEpg
  apply (performPatch_returns fails run).bind
  intro error r r' h
  cases error with
  | none => exact h.congr (by simp)
  | some error => exact h.record_all (by simp)

theorem dummyEpgStep_tells {c : RunCall} (hc : c.loud = true) :
    Tells none (dummyEpgStep fails c) := by
  unfold dummyEpgStep
  apply (report_loud fails hc).bind
  intro error r r' h
  cases error with
  | none => exact h.congr (by simp)
  | some error =>
    dsimp only
    rw [Eff.wp_bind]
    exact h.record_all (by simp)

theorem refreshDummyEpgAndRetry_tells (run : DeferredRun) :
    Tells none (refreshDummyEpgAndRetry fails run) := by
  unfold refreshDummyEpgAndRetry
  apply (dummyEpgStep_tells fails rfl).bind
  intro _
  apply (dummyEpgStep_tells fails rfl).bind
  intro regenerated
  apply Tells.ite _ (tells_pure none ())
  apply (tells_each (refreshEpgSource_tells fails) run.sourceIds).bind
  intro _
  apply (dummyEpgStep_tells fails rfl).bind
  intro reloaded
  exact Tells.ite (tells_each (retryAssignEpg_tells fails) run.retries) (tells_pure none ())

theorem processStreams_tells (plan : RunPlan) : Tells none (processStreams fails plan) := by
  unfold processStreams
  apply (tells_each (executeStream_tells fails) plan.streams).bind
  intro _
  apply (tells_each (runEventSyncRule_tells fails) plan.sync).bind
  intro _
  apply (tells_each (verifyEpgAssignment_tells fails) plan.verifications).bind
  intro _
  apply (tells_each (overwrite_tells fails rfl rfl) plan.prunes).bind
  intro _
  apply (tells_each (numberChannels_tells fails rfl _) plan.renumbers).bind
  intro _
  apply (tells_each (overwrite_tells fails rfl rfl) plan.reorders).bind
  intro _
  apply (tells_each (numberChannels_tells fails rfl _) plan.sorts).bind
  intro _
  apply (tells_each (reconcileOrphansOf_tells fails) plan.reconciliations).bind
  intro _
  cases plan.deferred with
  | none => exact tells_pure none ()
  | some run => exact refreshDummyEpgAndRetry_tells fails run

/-- The failed actions of a run are its loud failures. -/
theorem failedActions_ne_nil_iff (plan : RunPlan) :
    (runPipeline fails plan).failedActions ≠ [] ↔ LoudFailure (runHistory fails plan) := by
  have htold : Told .empty (processStreams fails plan .empty).2 False :=
    Eff.wp_state (Eff.wp_mono (processStreams_tells fails plan .empty) (fun _ _ h => h)
      fun _ _ h => h.elim)
  obtain ⟨h, hh, hiff⟩ := htold
  rw [runHistory, hh]
  simpa [RunReport.empty, runPipeline, finishRun] using hiff

theorem finishRun_of_failed {capped : Bool} {r : RunReport} (h : r.failedActions ≠ []) :
    (finishRun capped r).success = false ∧
      ((finishRun capped r).status = .capped ∨
        (finishRun capped r).status = .completedWithErrors) := by
  cases capped <;> simp [finishRun, h]

theorem mem_outstanding {c : RunCall} {h : List (RunCall × Bool)} (hc : c ∈ outstanding h) :
    (c, false) ∈ h := by
  induction h with
  | nil => cases hc
  | cons e rest ih =>
    obtain ⟨c', ok⟩ := e
    rw [outstanding] at hc
    split at hc
    · rename_i hfailed
      cases List.mem_cons.mp hc with
      | inl heq => simp_all
      | inr hrest => exact List.mem_cons_of_mem _ (ih hrest)
    · exact List.mem_cons_of_mem _ (ih hc)

/-- No failed write is missing from a run's failures exactly when something recorded failed in every
run in which a write outside the record stays failed; and the failures of a run without any are
empty. -/
theorem failures_reported_iff (plan : RunPlan) :
    ((outstanding (runHistory fails plan) ≠ [] →
        (runPipeline fails plan).failedActions ≠ [] ∧
          (runPipeline fails plan).success = false ∧
          ((runPipeline fails plan).status = .capped ∨
            (runPipeline fails plan).status = .completedWithErrors)) ∧
      ((∀ e ∈ runHistory fails plan, e.2 = true) →
        (runPipeline fails plan).failedActions = [])) ↔
    ((∃ c ∈ outstanding (runHistory fails plan), c.loud = false) →
      LoudFailure (runHistory fails plan)) := by
  have hloud := failedActions_ne_nil_iff fails plan
  constructor
  · intro ⟨hreported, _⟩ ⟨c, hc, _⟩
    exact hloud.mp (hreported (List.ne_nil_of_mem hc)).1
  · intro hsilent
    constructor
    · intro hfailed
      obtain ⟨c, hc⟩ := List.exists_mem_of_ne_nil _ hfailed
      have hne : (runPipeline fails plan).failedActions ≠ [] := by
        rw [hloud]
        cases hcloud : c.loud with
        | true => exact ⟨(c, false), mem_outstanding hc, hcloud, rfl⟩
        | false => exact hsilent ⟨c, hc, hcloud⟩
      exact ⟨hne, finishRun_of_failed hne⟩
    · intro hall
      by_contra hne
      obtain ⟨e, he, _, hfalse⟩ := hloud.mp hne
      rw [hall e he] at hfalse
      cases hfalse

/-- A run whose one call is to put the streams of a channel in order. -/
def reorderPlan : RunPlan where
  streams := []
  sync := []
  verifications := []
  prunes := []
  renumbers := []
  reorders := [⟨1, true, true⟩]
  sorts := []
  reconciliations := []
  deferred := none
  capped := false

/-- The reorder of Pass 3.5 fails and the run is completed without a failure. -/
theorem failed_reorder_unreported :
    let fails : ℕ → Option String := fun _ => some "unreachable"
    outstanding (runHistory fails reorderPlan) = [.write .reorderStreams 1] ∧
      (runPipeline fails reorderPlan).failedActions = [] ∧
      (runPipeline fails reorderPlan).success = true ∧
      (runPipeline fails reorderPlan).status = .completed := by
  decide +kernel

end Calls

end ChannelManager.Pipeline
