import ChannelManager.Bulk.Tracking

/-!
# Putting channel numbers back

The numbers a run leaves in the store, against the numbers it found and the numbers the operations
it reports as applied asked for.
-/

namespace ChannelManager

open Eff

variable {c : ℤ} {ctx : BulkContext Dispatcharr} {fails : ℕ → Option String} {rowsRead : ℕ → ℕ}

/-- An operation that applied, and its entry in the log. -/
def Logged (c : ℤ) (op : BulkOperation) (s s' : Exec Dispatcharr) : Prop :=
  ∃ s₁, Handled c op s s₁ ∧ s'.up = s₁.up ∧ s'.existingChannels = s₁.existingChannels ∧
    s'.compensator = s₁.compensator ∧ s'.log = s₁.log ++ [(op, numbersSet s₁ op)]

theorem same_of_parts {s s' : Exec Dispatcharr} (hup : s'.up = s.up)
    (hcatalog : s'.existingChannels = s.existingChannels)
    (hcompensator : s'.compensator = s.compensator) (hlog : s'.log = s.log) : Same c s s' := by
  refine ⟨?_, ?_, ?_, ?_, hlog⟩
  · rw [hup]
    exact Dispatcharr.Calm.rfl
  · unfold Exec.catalogEntry
    rw [hcatalog]
  · rw [hcompensator]
  · rw [hcompensator]

theorem calm_note (event : RunEvent) : Moves (Same c) (note event) :=
  moves_modify fun _ => same_of_parts rfl rfl rfl rfl

theorem calm_addError (entry : ErrorEntry) :
    Moves (Same c) (modify (addError entry) : Eff (Exec Dispatcharr) Unit) :=
  moves_modify fun _ => same_of_parts rfl rfl rfl rfl

theorem calm_closeRaised (e : IndexedOp) (error : String) :
    Moves (Same c) (closeRaised ctx e error) := by
  unfold closeRaised
  refine Moves.bind (moves_modify fun s => ?_) fun _ => moves_get.bind fun s => ?_
  · unfold noteUnwrittenNumbers
    split
    · exact Std.Refl.refl s
    · refine ⟨Dispatcharr.Calm.rfl, rfl, ?_, ?_, rfl⟩
      · simp only [NumberingCompensator.lastLanded, landed_foldl_recordFailed]
      · generalize intendedNumbers s e.2 = intended
        suffices h : ∀ compensator : NumberingCompensator, (intended.foldl (fun compensator e =>
            compensator.recordFailed e.1 (s.channelNameOf e.1) e.2) compensator).firstBefore =
              compensator.firstBefore by
          rw [h]
        intro compensator
        induction intended generalizing compensator with
        | nil => rfl
        | cons e intended ih => exact ih _
  · refine Moves.ite ?_ ?_
    · exact (calm_tellLedger _).bind fun _ => (calm_note _).bind fun _ => calm_addError _
    · exact (calm_tellLedger _).bind fun _ => (calm_note _).bind fun _ => calm_addError _

theorem calm_handleFailure (e : IndexedOp) (error : String) :
    Moves (Same c) (handleFailure ctx e error) := by
  unfold handleFailure
  refine (calm_closeRaised e error).bind fun _ => Moves.ite (moves_pure true) ?_
  refine Moves.bind (moves_modify fun s => ?_) fun _ => moves_pure false
  exact same_of_parts rfl rfl rfl rfl

/-- One iteration of the loop leaves channel `c` alone, or is an operation that applied. -/
theorem attemptOperation_logged (hctx : ctx.up = dispatcharr fails rowsRead) (e : IndexedOp)
    {s : Exec Dispatcharr} (h : Balanced s.account)
    (hfresh : s.up.nextId ≤ c → s.up.number? c = none) :
    (attemptOperation ctx e).wp
      (fun _ s' => ∃ s₀, Same c s s₀ ∧ (Same c s₀ s' ∨ Logged c e.2 s₀ s')) (fun _ _ => True) s := by
  have hbegin : s.ledger.begin = .ok (openedOn s.account).ledger := by
    have hclosed : s.ledger.isOpen = false := h.closed
    simp only [OperationLedger.begin, hclosed, Bool.false_eq_true, if_false]
    rfl
  unfold attemptOperation
  rw [wp_bind, wp_modify, wp_bind, wp_tellLedger]
  rw [show ({ s with numberingLanded := false } : Exec Dispatcharr).ledger.begin = _ from hbegin]
  dsimp only
  rw [wp_bind, wp_note, wp_tryCatch, wp_bind]
  generalize hopened : ({ s with
    numberingLanded := false
    ledger := (openedOn s.account).ledger
    trace := s.trace ++ [RunEvent.opened] } : Exec Dispatcharr) = s₀
  have haccount : Unwritten (openedOn s.account) s₀.account := by
    rw [← hopened]
    exact unwritten_openedOn s.account
  have hsame : Same c s s₀ := by
    rw [← hopened]
    exact same_of_parts rfl rfl rfl rfl
  have hfresh₀ : s₀.up.nextId ≤ c → s₀.up.number? c = none := by
    rw [← hopened]
    exact hfresh
  have hbranch : Branch (openedOn s.account) (executeOperation ctx e.2) :=
    branch_executeOperation ctx e.2
  apply wp_mono (wp_and (hbranch s₀ haccount)
    (wp_executeOperation hctx e.2 s₀ hfresh₀))
  · intro _ s₁ hs₁
    have hledger := hs₁.1.recordApplied_eq hs₁.1.told false
    rw [wp_bind, wp_tellLedger, show s₁.ledger.recordApplied = _ from hledger]
    exact ⟨s₀, hsame, .inr ⟨s₁, hs₁.2, rfl, rfl, rfl, rfl⟩⟩
  · intro error s₁ hs₁
    apply wp_mono (calm_handleFailure (c := c) e error s₁) _ (fun _ _ _ => trivial)
    intro _ s₂ hs₂
    exact ⟨s₀, hsame, .inl (IsTrans.trans _ _ _ hs₁.2 hs₂)⟩

/-- What every step keeps, Phase 2 keeps. -/
theorem processOperations_keeps (hctx : ctx.up = dispatcharr fails rowsRead)
    (inv : Exec Dispatcharr → Prop)
    (hfresh : ∀ s, inv s → s.up.nextId ≤ c → s.up.number? c = none)
    (hsame : ∀ s s', inv s → Same c s s' → inv s')
    (hlogged : ∀ op s s', inv s → Logged c op s s' → inv s') (operations : List BulkOperation)
    {s : Exec Dispatcharr} (hb : Balanced s.account) (h : inv s) :
    (processOperations ctx operations).wp (fun _ s' => inv s') (fun _ _ => False) s := by
  unfold processOperations
  rw [wp_bind, wp_get]
  have hstep : ∀ e (rest : List (ℕ × BulkOperation)) s', Balanced s'.account ∧ inv s' →
      (attemptOperation ctx e).wp (fun goOn s'' =>
        if goOn then Balanced s''.account ∧ inv s'' else inv s'') (fun _ _ => False) s' := by
    intro e _ s₁ hs₁
    apply wp_mono (wp_and (wp_attemptOperation ctx e hs₁.1)
      (attemptOperation_logged hctx e hs₁.1 (hfresh s₁ hs₁.2))) _ (fun _ _ hf => hf.1.elim)
    intro goOn s₂ hs₂
    obtain ⟨s₀, h₀, hstep⟩ := hs₂.2
    have hkept : inv s₂ := by
      rcases hstep with hquiet | hlog
      · exact hsame _ _ (hsame _ _ hs₁.2 h₀) hquiet
      · exact hlogged _ _ _ (hsame _ _ hs₁.2 h₀) hlog
    cases goOn with
    | true => exact ⟨(show Attempted _ _ from hs₂.1).toBalanced, hkept⟩
    | false => exact hkept
  apply wp_mono (wp_eachUntil (fun _ s' => Balanced s'.account ∧ inv s') inv _ hstep s ⟨hb, h⟩) _
    (fun _ _ hf => hf)
  intro _ s₁ hs₁
  rcases hs₁ with hdone | hstopped
  · exact hdone.2
  · exact hstopped

/-- A store in which every id names one channel and new ids are new. -/
structure Dispatcharr.Stocked (d : Dispatcharr) : Prop where
  nodup : (d.channels.map (·.id)).Nodup
  fresh : ∀ ch ∈ d.channels, ch.id < d.nextId

theorem Dispatcharr.Stocked.channel?_of_mem {d : Dispatcharr} (h : d.Stocked) {ch : Channel}
    (hch : ch ∈ d.channels) : d.channel? ch.id = some ch := by
  have hn := h.nodup
  unfold channel?
  generalize d.channels = channels at hch hn
  induction channels with
  | nil => cases hch
  | cons x xs ih =>
    rw [List.map_cons, List.nodup_cons] at hn
    by_cases hx : x.id = ch.id
    · rcases List.mem_cons.mp hch with hsame | htail
      · rw [← hsame, List.find?_cons_of_pos (by simp)]
      · exact absurd (hx ▸ List.mem_map_of_mem htail) hn.1
    · rw [List.find?_cons_of_neg (by simpa using hx)]
      rcases List.mem_cons.mp hch with hsame | htail
      · exact absurd (congrArg (·.id) hsame.symm) hx
      · exact ih htail hn.2

theorem Dispatcharr.Stocked.number?_fresh {d : Dispatcharr} (h : d.Stocked) (hc : d.nextId ≤ c) :
    d.number? c = none := by
  unfold number? channel?
  rw [Option.map_eq_none_iff, List.find?_eq_none]
  intro ch hch
  have hlt := h.fresh ch hch
  simp only [decide_eq_true_eq]
  omega

theorem channelsById_get? (rows : List Channel) {ch : Channel}
    (h : (channelsById rows).get? c = some ch) : ch ∈ rows ∧ ch.id = c := by
  unfold channelsById at h
  induction rows using List.reverseRecOn with
  | nil => simp at h
  | append_singleton rows x ih =>
    rw [List.foldl_append, List.foldl_cons, List.foldl_nil, Dict.get?_set] at h
    split at h
    · rename_i hx
      rw [Option.some.injEq] at h
      subst h
      exact ⟨by simp, hx⟩
    · have hrest := ih h
      exact ⟨List.mem_append_left _ hrest.1, hrest.2⟩

variable (c fails rowsRead) in
/-- What Phase 0 reads about a channel is what the store holds. -/
theorem lookUp_reads (operations : List BulkOperation) {s : Exec Dispatcharr} (hs : s.up.Stocked) :
    (lookUp (dispatcharr fails rowsRead) operations).wp
      (fun l s' => Same c s s' ∧
        ∀ ch, l.existingChannels.get? c = some ch → s.up.channel? c = some ch)
      (fun _ _ => True) s := by
  unfold lookUp
  rw [wp_bind]
  have hchannels : ∀ needed, (readChannels (dispatcharr fails rowsRead) needed {}).wp
      (fun l s' => Same c s s' ∧
        ∀ ch, l.existingChannels.get? c = some ch → s.up.channel? c = some ch)
      (fun _ _ => True) s := by
    intro needed
    unfold readChannels
    split
    · rw [wp_bind, wp_tryCatch, wp_request]
      have hrows : ∀ rows : List Channel, rows ⊆ s.up.channels → ∀ ch,
          (channelsById rows).get? c = some ch → s.up.channel? c = some ch := by
        intro rows hrows ch hch
        have hfound := channelsById_get? rows hch
        rw [← hfound.2]
        exact hs.channel?_of_mem (hrows hfound.1)
      simp only [dispatcharr]
      unfold guardedRead
      cases fails s.up.calls with
      | some e => exact ⟨⟨⟨le_refl _, .inl rfl⟩, rfl, rfl, rfl, rfl⟩, hrows _ (List.take_subset _ _)⟩
      | none => exact ⟨⟨⟨le_refl _, .inl rfl⟩, rfl, rfl, rfl, rfl⟩, hrows _ (List.Subset.refl _)⟩
    · exact ⟨Std.Refl.refl s, by simp⟩
  apply wp_mono (hchannels _) _ (fun _ _ h => h)
  intro l₀ s₀ h₀
  have hread : ∀ {x : Eff (Exec Dispatcharr) Lookups} {l : Lookups} {s₁ : Exec Dispatcharr},
      (x.wp (fun l' s' => Same c s₁ s' ∧ l'.existingChannels = l.existingChannels)
        (fun _ _ => True) s₁) → Same c s s₁ → l.existingChannels = l₀.existingChannels →
      x.wp (fun l' s' => Same c s s' ∧ l'.existingChannels = l₀.existingChannels)
        (fun _ _ => True) s₁ :=
    fun hx hsame hl => wp_mono hx
      (fun _ _ h => ⟨IsTrans.trans _ _ _ hsame h.1, h.2.trans hl⟩) (fun _ _ _ => trivial)
  have htried : ∀ {α : Type} {call : Call Dispatcharr α} (l : Lookups) (f : α → Lookups)
      (s₁ : Exec Dispatcharr), (∀ d, Dispatcharr.Calm c d (call d).2) →
      (∀ a, (f a).existingChannels = l.existingChannels) →
      (tryCatch (do let a ← request call; pure (f a)) (fun _ => pure l) :
        Eff (Exec Dispatcharr) Lookups).wp
        (fun l' s' => Same c s₁ s' ∧ l'.existingChannels = l.existingChannels)
        (fun _ _ => True) s₁ := by
    intro α call l f s₁ hcall hf
    rw [wp_tryCatch, wp_bind]
    apply wp_mono (calm_request hcall s₁)
    · exact fun a _ h => ⟨h, hf a⟩
    · exact fun _ _ h => ⟨h, rfl⟩
  rw [wp_bind]
  refine wp_mono (hread (l := l₀) ?_ h₀.1 rfl) (fun l₁ s₁ h₁ => ?_) (fun _ _ h => h)
  · unfold readStreams
    split
    · exact ⟨Std.Refl.refl _, rfl⟩
    · exact htried l₀ _ _ (Dispatcharr.calm_elsewhere fun _ => ⟨rfl, rfl⟩) fun _ => rfl
  rw [wp_bind]
  refine wp_mono (hread (l := l₁) ?_ h₁.1 h₁.2) (fun l₂ s₂ h₂ => ?_) (fun _ _ h => h)
  · unfold readProfiles
    split
    · exact ⟨Std.Refl.refl _, rfl⟩
    · exact htried l₁ _ _ (Dispatcharr.calm_elsewhere fun _ => ⟨rfl, rfl⟩) fun _ => rfl
  refine wp_mono (hread (l := l₂) ?_ h₂.1 h₂.2) (fun l₃ s₃ h₃ => ⟨h₃.1, ?_⟩) (fun _ _ h => h)
  · unfold readHiddenGroups
    split
    · exact ⟨Std.Refl.refl _, rfl⟩
    · exact htried l₂ _ _ (Dispatcharr.calm_elsewhere fun _ => ⟨rfl, rfl⟩) fun _ => rfl
  · rw [h₃.2]
    exact h₀.2

/-- Phase 1 touches no channel. -/
theorem calm_createGroups (hctx : ctx.up = dispatcharr fails rowsRead)
    (names : List (Option String)) : Moves (Same c) (createGroups ctx names) := by
  have hsetup : ∀ entry abortedRun, Moves (Same c)
      (setupFailure entry abortedRun : Eff (Exec Dispatcharr) Unit) := by
    intro entry abortedRun
    unfold setupFailure
    refine (calm_addError entry).bind fun _ => Moves.bind (moves_modify fun s => ?_) fun _ =>
      calm_note _
    exact same_of_parts rfl rfl rfl rfl
  have hone : ∀ name, Moves (Same c) (createGroupUpFront ctx name) := by
    intro name
    unfold createGroupUpFront
    split
    · exact moves_pure true
    · rename_i name
      refine Moves.ite (moves_pure true) (Moves.tryCatch (Moves.bind ?_ fun created =>
        (calm_tellLedger _).bind fun _ => (calm_note _).bind fun _ => ?_) fun e => Moves.ite ?_ ?_)
      · rw [hctx]
        exact calm_write (Dispatcharr.calm_createChannelGroup name)
      · split
        · refine Moves.bind (moves_modify fun s => ?_) fun _ => moves_pure true
          exact same_of_parts rfl rfl rfl rfl
        · exact moves_throw _
      · refine Moves.bind ?_ fun _ => moves_pure true
        unfold findExistingGroup
        refine Moves.tryCatch (Moves.bind ?_ fun groups => ?_) fun _ => moves_pure ()
        · rw [hctx]
          exact calm_request (Dispatcharr.calm_elsewhere fun _ => ⟨rfl, rfl⟩)
        · split
          · exact moves_modify fun s => same_of_parts rfl rfl rfl rfl
          · exact moves_pure ()
      · exact (hsetup _ _).bind fun _ => moves_pure false
  induction names with
  | nil => exact moves_pure true
  | cons name names ih =>
    exact (hone name).bind fun goOn => Moves.ite ih (moves_pure false)

section Invariants

/-- The last applied operation that set the number of channel `c` is a renumbering. -/
def LastSetByRenumbering (c : ℤ) (log : List (BulkOperation × List (ℤ × Option ℚ))) : Prop :=
  ∃ before e after, log = before ++ e :: after ∧ e.1.renumbers = true ∧
    (lastNumber c e.2).isSome ∧ ∀ e' ∈ after, lastNumber c e'.2 = none

theorem LastSetByRenumbering.later {log : List (BulkOperation × List (ℤ × Option ℚ))}
    (h : LastSetByRenumbering c log) {e : BulkOperation × List (ℤ × Option ℚ)}
    (he : lastNumber c e.2 = none) : LastSetByRenumbering c (log ++ [e]) := by
  obtain ⟨before, x, after, rfl, hx, hset, hafter⟩ := h
  refine ⟨before, x, after ++ [e], by simp, hx, hset, fun y hy => ?_⟩
  rcases List.mem_append.mp hy with hy | hy
  · exact hafter y hy
  · rw [List.mem_singleton.mp hy, he]

theorem lastNumber_log (log : List (BulkOperation × List (ℤ × Option ℚ)))
    (e : BulkOperation × List (ℤ × Option ℚ)) :
    lastNumber c ((log ++ [e]).flatMap Prod.snd) =
      (lastNumber c e.2).or (lastNumber c (log.flatMap Prod.snd)) := by
  rw [List.flatMap_append, lastNumber_append]
  simp

/-- The last setting of a log is the one no later entry repeats. -/
theorem lastNumber_of_split {earlier later : List (BulkOperation × List (ℤ × Option ℚ))}
    {e : BulkOperation × List (ℤ × Option ℚ)} {n : Option ℚ} (hset : lastNumber c e.2 = some n)
    (hlater : ∀ e' ∈ later, lastNumber c e'.2 = none) :
    lastNumber c ((earlier ++ e :: later).flatMap Prod.snd) = some n := by
  have hnone : lastNumber c (later.flatMap Prod.snd) = none := by
    rw [lastNumber_eq_none]
    intro x hx
    obtain ⟨e', he', hxe⟩ := List.mem_flatMap.mp hx
    exact lastNumber_eq_none.mp (hlater e' he') x hxe
  rw [List.flatMap_append, List.flatMap_cons, lastNumber_append, lastNumber_append, hnone,
    Option.none_or, hset, Option.some_or]

/-- The log tells the number of channel `c`. -/
structure Followed (c : ℤ) (s : Exec Dispatcharr) : Prop where
  fresh : s.up.nextId ≤ c → s.up.number? c = none ∧ s.compensator.lastLanded c = none
  logged : ∀ cur n, s.up.number? c = some cur →
    lastNumber c (s.log.flatMap Prod.snd) = some n → cur = n
  renumbered : s.compensator.lastLanded c ≠ none → LastSetByRenumbering c s.log

theorem Followed.same {s s' : Exec Dispatcharr} (h : Followed c s) (hsame : Same c s s') :
    Followed c s' := by
  constructor
  · intro hfresh
    have hold := h.fresh (hsame.store.nextId.trans hfresh)
    refine ⟨?_, hsame.landed.trans hold.2⟩
    rcases hsame.store.number with hn | hn
    · rw [hn, hold.1]
    · exact hn
  · intro cur n hcur hlast
    rw [hsame.log] at hlast
    rcases hsame.store.number with hn | hn
    · exact h.logged cur n (hn ▸ hcur) hlast
    · rw [hn] at hcur
      cases hcur
  · rw [hsame.landed, hsame.log]
    exact h.renumbered

theorem Followed.logged_step {op : BulkOperation} {s s' : Exec Dispatcharr} (h : Followed c s)
    (hlogged : Logged c op s s') : Followed c s' := by
  obtain ⟨s₁, hhandled, hup, hcatalog, hcompensator, hlog⟩ := hlogged
  cases hhandled with
  | quiet same unset =>
    have hkept := h.same same
    constructor
    · rw [hup, hcompensator]
      exact hkept.fresh
    · intro cur n hcur hlast
      rw [hup] at hcur
      rw [hlog, lastNumber_log, unset, Option.none_or] at hlast
      exact hkept.logged cur n hcur hlast
    · rw [hcompensator, hlog]
      exact fun hlanded => (hkept.renumbered hlanded).later unset
  | created n fresh taken number set landed log =>
    constructor
    · rw [hup]
      intro hfresh
      exact absurd hfresh (Int.not_le.mpr taken)
    · intro cur m hcur hlast
      rw [hup, number, Option.some.injEq] at hcur
      rw [hlog, lastNumber_log, set, Option.some_or, Option.some.injEq] at hlast
      rw [← hcur, hlast]
    · rw [hcompensator, landed, (h.fresh fresh).2]
      exact fun hne => absurd rfl hne
  | numbered n renumbers set effect =>
    have hlive : ¬s.up.nextId ≤ c := fun hfresh => effect.existed (h.fresh hfresh).1
    constructor
    · rw [hup, effect.nextId]
      exact fun hfresh => absurd hfresh hlive
    · intro cur m hcur hlast
      rw [hup, effect.number, Option.some.injEq] at hcur
      rw [hlog, lastNumber_log, set, Option.some_or, Option.some.injEq] at hlast
      rw [← hcur, hlast]
    · intro _
      exact ⟨s₁.log, (op, numbersSet s₁ op), [], hlog, renumbers, by simp [set], by simp⟩

/-- What the compensator knows of channel `c`, which stood on `before` when the run began and which
Phase 0 read or not. -/
structure Tracked (c : ℤ) (before : Option ℚ) (read : Bool) (s : Exec Dispatcharr) : Prop where
  live : c < s.up.nextId
  known : (s.catalogEntry c).isSome = read
  untouched : s.compensator.lastLanded c = none →
    (∀ cur, s.up.number? c = some cur → cur = before) ∧
      s.catalogEntry c = (if read then some before else none)
  firstBefore : s.compensator.firstBefore.get? c =
    if (s.compensator.lastLanded c).isSome then some (if read then before else none) else none
  unread : read = false → ∀ after, s.compensator.lastLanded c = some after →
    ∀ cur, s.up.number? c = some cur → cur = after

variable {before : Option ℚ} {read : Bool}

theorem Tracked.same {s s' : Exec Dispatcharr} (h : Tracked c before read s)
    (hsame : Same c s s') : Tracked c before read s' := by
  have hnumber : ∀ cur, s'.up.number? c = some cur → s.up.number? c = some cur := by
    intro cur hcur
    rcases hsame.store.number with hn | hn
    · rw [← hn]
      exact hcur
    · rw [hn] at hcur
      cases hcur
  constructor
  · exact lt_of_lt_of_le h.live hsame.store.nextId
  · rw [hsame.catalog]
    exact h.known
  · rw [hsame.landed, hsame.catalog]
    intro hnone
    exact ⟨fun cur hcur => (h.untouched hnone).1 cur (hnumber cur hcur), (h.untouched hnone).2⟩
  · rw [hsame.landed, hsame.firstBefore]
    exact h.firstBefore
  · rw [hsame.landed]
    exact fun hread after hafter cur hcur => h.unread hread after hafter cur (hnumber cur hcur)

/-- A renumbering keeps what the compensator knows, whether or not it notes the landing. -/
theorem Tracked.numbered {n : Option ℚ} {s s' : Exec Dispatcharr} (h : Tracked c before read s)
    (heffect : Numbered c n s s') : Tracked c before read s' := by
  have hknown : (s'.catalogEntry c).isSome = read := heffect.known.trans h.known
  rcases heffect.noted with ⟨a, hlanded, hunread, hfirst⟩ | ⟨hlanded, hfirst, hcatalog, hentry⟩
  · constructor
    · rw [heffect.nextId]
      exact h.live
    · exact hknown
    · intro hnone
      rw [hlanded] at hnone
      cases hnone
    · rw [hfirst, h.firstBefore, hlanded]
      cases hold : s.compensator.lastLanded c with
      | some _ => rfl
      | none =>
        rw [s.catalogNumber_eq, (h.untouched hold).2]
        cases read <;> rfl
    · intro hread after hafter cur hcur
      have hnone : s.catalogEntry c = none := by
        have hisSome := h.known
        rw [hread] at hisSome
        exact Option.isSome_eq_false_iff.mp hisSome |> Option.isNone_iff_eq_none.mp
      rw [hlanded, Option.some.injEq] at hafter
      rw [heffect.number, Option.some.injEq] at hcur
      rw [← hcur, ← hafter, hunread hnone]
  · have hread : read = true := by
      rw [← h.known, hentry]
      rfl
    constructor
    · rw [heffect.nextId]
      exact h.live
    · exact hknown
    · intro hnone
      rw [hlanded] at hnone
      have hstood := (h.untouched hnone).2
      refine ⟨fun cur hcur => ?_, hcatalog.trans hstood⟩
      rw [heffect.number, Option.some.injEq] at hcur
      rw [hentry, hread, if_pos rfl, Option.some.injEq] at hstood
      rw [← hcur, hstood]
    · rw [hfirst, hlanded]
      exact h.firstBefore
    · intro hunread
      rw [hread] at hunread
      cases hunread

theorem Tracked.logged_step {op : BulkOperation} {s s' : Exec Dispatcharr}
    (h : Tracked c before read s) (hlogged : Logged c op s s') : Tracked c before read s' := by
  obtain ⟨s₁, hhandled, hup, hcatalog, hcompensator, -⟩ := hlogged
  have hkept : Tracked c before read s₁ := by
    cases hhandled with
    | quiet same _ => exact h.same same
    | created n fresh => exact absurd h.live (Int.not_lt.mpr fresh)
    | numbered n _ _ effect => exact h.numbered effect
  have hentry : s'.catalogEntry c = s₁.catalogEntry c := by
    unfold Exec.catalogEntry
    rw [hcatalog]
  constructor
  · rw [hup]
    exact hkept.live
  · rw [hentry]
    exact hkept.known
  · rw [hcompensator, hup, hentry]
    exact hkept.untouched
  · rw [hcompensator]
    exact hkept.firstBefore
  · rw [hcompensator, hup]
    exact hkept.unread

end Invariants

section PuttingBack

/-- The number Phase 2b writes to channel `c`, if it writes one. -/
def NumberingCompensator.restoredNumber (compensator : NumberingCompensator) (c : ℤ) :
    Option (Option ℚ) :=
  if compensator.halfApplied then
    (compensator.lastLanded c).bind fun after =>
      if numberMoves after ((compensator.firstBefore.get? c).getD none) then
        some ((compensator.firstBefore.get? c).getD none)
      else none
  else none

theorem stepsFrom_filter (compensator : NumberingCompensator) (writes : List NumberingWrite)
    (seen : List ℤ) :
    (compensator.stepsFrom seen writes).filter (·.channelId = c) =
      if c ∈ seen then []
      else ((writes.find? (·.channelId = c)).map compensator.restore).toList.filter (·.moves) := by
  induction writes generalizing seen with
  | nil => simp [NumberingCompensator.stepsFrom]
  | cons w writes ih =>
    have hid : (compensator.restore w).channelId = w.channelId := rfl
    rw [NumberingCompensator.stepsFrom]
    by_cases hw : w.channelId = c
    · subst hw
      by_cases hseen : w.channelId ∈ seen
      · rw [if_pos hseen, ih, if_pos hseen, if_pos hseen]
      · rw [if_neg hseen, List.find?_cons_of_pos (by simp)]
        split
        · rename_i hmoves
          rw [List.filter_cons_of_pos (by simp [hid]), ih, if_pos (by simp)]
          simp [hmoves]
        · rename_i hstays
          rw [ih, if_pos (by simp)]
          simp [hstays]
    · have hmem : c ∈ w.channelId :: seen ↔ c ∈ seen := by simp [Ne.symm hw]
      rw [List.find?_cons_of_neg (by simpa using hw)]
      split
      · exact ih seen
      · split
        · rw [List.filter_cons_of_neg (by simpa [hid] using hw), ih]
          simp only [hmem]
        · rw [ih]
          simp only [hmem]

theorem find?_landed_reverse (compensator : NumberingCompensator) :
    (compensator.landed.reverse.find? (·.channelId = c)).map (·.after) =
      compensator.lastLanded c := by
  unfold NumberingCompensator.lastLanded
  rw [← List.head?_filter, List.filter_reverse, List.head?_reverse]

/-- Phase 2b writes to a channel at most once, and then the number `restoredNumber` says. -/
theorem compensationSteps_filter (compensator : NumberingCompensator) :
    ((compensator.compensationSteps.filter (·.channelId = c)).map (·.after)) =
      (compensator.restoredNumber c).toList := by
  unfold NumberingCompensator.compensationSteps NumberingCompensator.restoredNumber
  split
  · rw [stepsFrom_filter, if_neg (by simp), ← find?_landed_reverse]
    cases hfind : compensator.landed.reverse.find? (·.channelId = c) with
    | none => rfl
    | some w =>
      have hw : w.channelId = c := by simpa using List.find?_some hfind
      subst hw
      have hrestore : (compensator.restore w).moves =
          numberMoves w.after ((compensator.firstBefore.get? w.channelId).getD none) := rfl
      simp only [Option.map_some, Option.toList_some, Option.bind_some]
      rw [← hrestore]
      by_cases hmoves : (compensator.restore w).moves = true
      · rw [List.filter_cons_of_pos hmoves, if_pos hmoves]
        rfl
      · rw [List.filter_cons_of_neg hmoves, if_neg hmoves]
        rfl
  · rfl

/-- What no step after Phase 2b touches. -/
def Left (s s' : Exec Dispatcharr) : Prop :=
  s'.up.channels = s.up.channels ∧ s'.log = s.log ∧
    s'.result.numberingRecovery = s.result.numberingRecovery

instance : Std.Refl Left := ⟨fun _ => ⟨rfl, rfl, rfl⟩⟩

instance : IsTrans (Exec Dispatcharr) Left :=
  ⟨fun _ _ _ h h' => ⟨h'.1.trans h.1, h'.2.1.trans h.2.1, h'.2.2.trans h.2.2⟩⟩

theorem left_setupFailure (entry : ErrorEntry) (abortedRun : Bool) :
    Moves Left (setupFailure entry abortedRun : Eff (Exec Dispatcharr) Unit) := by
  unfold setupFailure
  refine Moves.bind (moves_modify fun s => ⟨rfl, rfl, rfl⟩) fun _ =>
    Moves.bind (moves_modify fun s => ⟨rfl, rfl, rfl⟩) fun _ => moves_modify fun s => ⟨rfl, rfl, rfl⟩

theorem left_tried {work : Call Dispatcharr Bool} (h : ∀ d, (work d).2.channels = d.channels) :
    Moves Left (tryCatch (request (guarded fails work)) (fun _ => pure false) :
      Eff (Exec Dispatcharr) Bool) := by
  refine Moves.tryCatch (fun s => ?_) fun _ => moves_pure false
  rw [wp_request]
  cases hfails : fails s.up.calls with
  | some e =>
    rw [guarded_some hfails]
    exact ⟨rfl, rfl, rfl⟩
  | none =>
    have hkept := h { s.up with calls := s.up.calls + 1 }
    rw [guarded_none hfails]
    split <;> rename_i hanswer <;> rw [hanswer] at hkept <;> exact ⟨hkept, rfl, rfl⟩

theorem left_finish (hctx : ctx.up = dispatcharr fails rowsRead) : Moves Left (finish ctx) := by
  have hentry : ∀ row, Moves Left (tryCatch (request (ctx.up.logEntry row)) (fun _ => pure false) :
      Eff (Exec Dispatcharr) Bool) := by
    intro row
    rw [hctx]
    exact left_tried fun _ => rfl
  have hcount : ∀ rows, Moves Left (countUnwritten ctx rows) := by
    intro rows
    induction rows with
    | nil => exact moves_pure 0
    | cons row rows ih => exact (hentry row).bind fun _ => ih.bind fun _ => moves_pure _
  unfold finish
  refine Moves.bind ?_ fun _ => ?_
  · unfold flushJournal
    refine moves_get.bind fun s => Moves.ite (moves_pure ()) ?_
    refine Moves.bind (moves_modify fun s => ⟨rfl, rfl, rfl⟩) fun _ => Moves.bind ?_ fun unwritten =>
      (hentry _).bind fun summary => ?_
    · unfold writeJournalRows
      refine Moves.ite (moves_pure 0) (Moves.bind ?_ fun written =>
        Moves.ite (moves_pure 0) (hcount _))
      rw [hctx]
      exact left_tried fun _ => rfl
    · refine Moves.ite (moves_pure ()) (Moves.bind (moves_modify fun s => ⟨rfl, rfl, rfl⟩) fun _ => ?_)
      exact left_setupFailure _ _
  · unfold finalizeBulkCommitResult
    refine Moves.bind (moves_modify fun s => ⟨rfl, rfl, rfl⟩) fun _ => moves_get.bind fun s => ?_
    exact Moves.ite (moves_pure ()) (moves_throw _)

/-- The compensating writes: a channel none of them names keeps its number, and one that is named
gets the number it is to be put back on, unless its write failed. -/
theorem writeBack_number (hctx : ctx.up = dispatcharr fails rowsRead) (steps : List NumberingWrite) :
    ∀ s : Exec Dispatcharr, (writeBack ctx steps).wp
      (fun unrepaired s' => s'.log = s.log ∧
        s'.result.numberingRecovery = s.result.numberingRecovery ∧
        (steps.filter (·.channelId = c) = [] → s'.up.number? c = s.up.number? c) ∧
        ∀ step, steps.filter (·.channelId = c) = [step] → unrepaired = [] →
          s'.up.number? c = some step.after ∧ s.up.number? c ≠ none)
      (fun _ _ => False) s := by
  induction steps with
  | nil =>
    intro s
    refine ⟨rfl, rfl, fun _ => rfl, fun step hstep => ?_⟩
    cases hstep
  | cons w steps ih =>
    intro s
    rw [writeBack, wp_bind, wp_tryCatch, wp_bind, wp_write, hctx]
    rcases updateChannel_answer fails rowsRead w.channelId
      { channelNumber := some w.after } s.up with ⟨e, hanswer⟩ | ⟨hexists, hanswer⟩
    · rw [hanswer]
      dsimp only
      rw [wp_pure, wp_bind]
      refine wp_mono (ih _) (fun rest s' h => ?_) (fun _ _ hf => hf)
      refine ⟨h.1, h.2.1, fun hnone => ?_, fun step _ hall => by cases hall⟩
      refine h.2.2.1 ?_
      rw [List.filter_cons] at hnone
      split at hnone
      · cases hnone
      · exact hnone
    · rw [hanswer]
      dsimp only
      rw [wp_pure, wp_bind, wp_recordWrite (JournalRowSpec.stated_singleton _), wp_bind, wp_modify]
      refine wp_mono (ih _) (fun rest s' h => ⟨h.1, h.2.1, fun hnone => ?_, fun step hstep hall => ?_⟩)
        (fun _ _ hf => hf)
      · rw [List.filter_cons] at hnone
        split at hnone
        · cases hnone
        · rename_i hw
          rw [h.2.2.1 hnone]
          exact Dispatcharr.number?_mapChannel_ne _ _ (fun _ => rfl) (Ne.symm (by simpa using hw))
      · rw [List.filter_cons] at hstep
        split at hstep
        · rename_i hw
          have hc : w.channelId = c := of_decide_eq_true hw
          subst hc
          injection hstep with hw' hrest
          subst hw'
          obtain ⟨ch, hch⟩ := Option.isSome_iff_exists.mp hexists
          rw [h.2.2.1 hrest]
          exact ⟨Dispatcharr.number?_patch _ rfl hexists, by simp [Dispatcharr.number?, hch]⟩
        · rename_i hw
          have hne : c ≠ w.channelId := Ne.symm (by simpa using hw)
          have hlater := h.2.2.2 step hstep hall
          refine ⟨hlater.1, ?_⟩
          have hsame := Dispatcharr.number?_mapChannel_ne
            ({ s.up with calls := s.up.calls + 1 } : Dispatcharr)
            (·.patch { channelNumber := some w.after }) (fun _ => rfl) hne
          exact fun hgone => hlater.2 (hsame.trans hgone)

/-- Where the end of a run leaves channel `c`, when every compensating write landed. -/
theorem closeRun_number (hctx : ctx.up = dispatcharr fails rowsRead) {submitted : ℕ}
    {s : Exec Dispatcharr} (hbooks : Consistent submitted s.account) :
    (closeRun ctx s).2.log = s.log ∧ ((closeRun ctx s).2.result.numberingRecovery = [] →
      match s.compensator.restoredNumber c with
      | some n => (closeRun ctx s).2.up.number? c = some n ∧ s.up.number? c ≠ none
      | none => (closeRun ctx s).2.up.number? c = s.up.number? c) := by
  have hclose : (closeRun ctx).wp (fun _ s' => s'.log = s.log ∧
      (s'.result.numberingRecovery = [] →
        match s.compensator.restoredNumber c with
        | some n => s'.up.number? c = some n ∧ s.up.number? c ≠ none
        | none => s'.up.number? c = s.up.number? c)) (fun _ _ => True) s := by
    have hnumber : ∀ {d d' : Dispatcharr}, d'.channels = d.channels → d'.number? c = d.number? c := by
      intro d d' hsame
      unfold Dispatcharr.number? Dispatcharr.channel?
      rw [hsame]
    unfold closeRun
    rw [wp_bind]
    have hundone : (compensate ctx).wp (fun _ s' => s'.log = s.log ∧
        (s'.result.numberingRecovery = [] →
          match s.compensator.restoredNumber c with
          | some n => s'.up.number? c = some n ∧ s.up.number? c ≠ none
          | none => s'.up.number? c = s.up.number? c)) (fun _ _ => True) s := by
      unfold compensate
      rw [wp_bind, wp_get]
      split
      · rename_i hhalf
        rw [wp_bind]
        refine wp_mono (writeBack_number (c := c) hctx s.compensator.compensationSteps s)
          (fun unrepaired s' h => ?_) (fun _ _ hf => hf.elim)
        have hfilter := compensationSteps_filter (c := c) s.compensator
        split
        · rename_i hall
          refine ⟨h.1, fun _ => ?_⟩
          cases hrestored : s.compensator.restoredNumber c with
          | none =>
            rw [hrestored, Option.toList_none, List.map_eq_nil_iff] at hfilter
            exact h.2.2.1 hfilter
          | some n =>
            rw [hrestored, Option.toList_some, List.map_eq_singleton_iff] at hfilter
            obtain ⟨step, hstep, rfl⟩ := hfilter
            exact h.2.2.2 step hstep hall
        · rename_i hsome
          rw [wp_bind, wp_modify]
          refine wp_mono (left_setupFailure _ _ _) (fun _ s'' h' => ?_) (fun _ _ _ => trivial)
          refine ⟨h'.2.1.trans h.1, fun hnone => ?_⟩
          exact absurd (h'.2.2.symm.trans hnone) hsome
      · rename_i hwhole
        refine ⟨rfl, fun _ => ?_⟩
        unfold NumberingCompensator.restoredNumber
        rw [if_neg hwhole]
    refine wp_mono hundone (fun _ s' h => ?_) (fun _ _ h => h)
    refine wp_mono (left_finish hctx s') (fun _ s'' h' => ?_) (fun _ _ _ => trivial)
    refine ⟨h'.2.1.trans h.1, fun hnone => ?_⟩
    rw [hnumber h'.1]
    exact h.2 (h'.2.2.symm.trans hnone)
  obtain ⟨_, final, hfinal, -⟩ := wp_returns (wp_closeRun ctx hbooks)
  have hpost := wp_exec hclose hfinal
  rw [hfinal]
  exact hpost

end PuttingBack

section Runs

variable {format : Option ℚ → String} {request : BulkCommitRequest} {start : Dispatcharr}
  {s₂ final : Exec Dispatcharr}

theorem numbersAtRunStart_get? (up : Upstream Dispatcharr) (l : Lookups) :
    (contextOf up format request l).numbersAtRunStart.get? c =
      (l.existingChannels.get? c).map (·.channelNumber) := by
  have hfold : ∀ (items : List (ℤ × Channel)) (d : Dict ℤ (Option ℚ)), (items.map Prod.fst).Nodup →
      (items.foldl (fun (d : Dict ℤ (Option ℚ)) e => d.set e.1 e.2.channelNumber) d).get? c =
        ((findEntry c items).map (·.channelNumber)).or (d.get? c) := by
    intro items
    induction items with
    | nil => exact fun _ _ => rfl
    | cons e items ih =>
      intro d hn
      rw [List.map_cons, List.nodup_cons] at hn
      rw [List.foldl_cons, ih _ hn.2, Dict.get?_set, findEntry]
      by_cases hc : e.1 = c
      · subst hc
        have hnone : findEntry e.1 items = none := by
          rw [← Option.not_isSome_iff_eq_none, findEntry_isSome]
          exact hn.1
        simp [hnone]
      · simp [hc]
  have h := hfold l.existingChannels.items ∅ l.existingChannels.nodup_keys
  rw [Dict.get?_empty, Option.or_none] at h
  exact h

/-- Phase 2 of a run ends with the store's channels accounted for. -/
theorem invariants_of_endOfPhase2 (hstore : start.Stocked)
    (hend : endOfPhase2 (dispatcharr fails rowsRead) format request start = some (ctx, s₂)) :
    ctx.up = dispatcharr fails rowsRead ∧ Followed c s₂ ∧
      ∀ before, start.number? c = some before →
        Tracked c before (decide (c ∈ ctx.numbersAtRunStart)) s₂ := by
  obtain ⟨l, s₀, s₁, hlookup, hctx, hgroups, hbooks, hprocess, -⟩ := phases_of_endOfPhase2 hend
  have hup : ctx.up = dispatcharr fails rowsRead := by rw [hctx]; rfl
  have hread := wp_exec (lookUp_reads c fails rowsRead
    (effectiveRequest request).operations (s := { up := start, ledger := _ }) hstore) hlookup
  have hgrouped : Same c _ s₁ := wp_exec (calm_createGroups (c := c) hup _ _) hgroups
  -- the store and the compensator at the start of Phase 2 are those of the start of the run
  have hnextId : start.nextId ≤ s₁.up.nextId :=
    hread.1.store.nextId.trans hgrouped.store.nextId
  have hnumber : s₁.up.number? c = start.number? c ∨ s₁.up.number? c = none :=
    (hread.1.store.trans hgrouped.store).number
  have hlanded : s₁.compensator.lastLanded c = none := hgrouped.landed.trans hread.1.landed
  have hfirst : s₁.compensator.firstBefore.get? c = none :=
    hgrouped.firstBefore.trans hread.1.firstBefore
  have hlog : s₁.log = [] := hgrouped.log.trans hread.1.log
  have hentry : s₁.catalogEntry c = (l.existingChannels.get? c).map (·.channelNumber) :=
    hgrouped.catalog
  have hfollowed : Followed c s₁ := by
    constructor
    · intro hfresh
      have hnone := hstore.number?_fresh (hnextId.trans hfresh)
      refine ⟨?_, hlanded⟩
      rcases hnumber with hn | hn
      · rw [hn, hnone]
      · exact hn
    · intro cur n _ hlast
      rw [hlog] at hlast
      cases hlast
    · exact fun hne => absurd hlanded hne
  refine ⟨hup, ?_, fun before hbefore => ?_⟩
  · exact wp_exec (processOperations_keeps hup (Followed c) (fun _ h hc => (h.fresh hc).1)
      (fun _ _ h hsame => h.same hsame) (fun _ _ _ h hlogged => h.logged_step hlogged)
      _ hbooks.toBalanced hfollowed) hprocess
  · have hknown : ctx.numbersAtRunStart.get? c = s₁.catalogEntry c := by
      rw [hctx, numbersAtRunStart_get?, hentry]
    have hmem : decide (c ∈ ctx.numbersAtRunStart) = (s₁.catalogEntry c).isSome := by
      rw [← hknown, Bool.eq_iff_iff, decide_eq_true_iff, Dict.isSome_get?]
    have htracked : Tracked c before (decide (c ∈ ctx.numbersAtRunStart)) s₁ := by
      obtain ⟨ch, hch, hchNumber⟩ := Option.map_eq_some_iff.mp hbefore
      constructor
      · have hid : ch.id = c := Dispatcharr.id_of_channel? hch
        have hlt := hstore.fresh ch (List.mem_of_find?_eq_some hch)
        omega
      · exact hmem.symm
      · refine fun _ => ⟨fun cur hcur => ?_, ?_⟩
        · rcases hnumber with hn | hn
          · rw [hn, hbefore, Option.some.injEq] at hcur
            exact hcur.symm
          · rw [hn] at hcur
            cases hcur
        · rw [hmem]
          cases hl : l.existingChannels.get? c with
          | none =>
            rw [hentry, hl]
            rfl
          | some ch' =>
            have hsame := hread.2 ch' hl
            rw [show ({ up := start, ledger := _ } : Exec Dispatcharr).up.channel? c = start.channel? c
              from rfl, hch, Option.some.injEq] at hsame
            rw [hentry, hl, ← hsame]
            simp [hchNumber]
      · rw [hfirst, hlanded]
        rfl
      · intro _ after hafter
        rw [hlanded] at hafter
        cases hafter
    exact wp_exec (processOperations_keeps hup (Tracked c before _)
      (fun _ h hc => absurd h.live (Int.not_lt.mpr hc))
      (fun _ _ h hsame => h.same hsame) (fun _ _ _ h hlogged => h.logged_step hlogged)
      _ hbooks.toBalanced htracked) hprocess

/-- Where a run that got to the end of Phase 2 leaves channel `c`. -/
theorem final_number (hend : endOfPhase2 (dispatcharr fails rowsRead) format request start =
      some (ctx, s₂))
    (hrun : runBulkCommit (dispatcharr fails rowsRead) format request start = some final) :
    final.log = s₂.log ∧ (final.result.numberingRecovery = [] →
      match s₂.compensator.restoredNumber c with
      | some n => final.up.number? c = some n ∧ s₂.up.number? c ≠ none
      | none => final.up.number? c = s₂.up.number? c) := by
  obtain ⟨l, s₀, s₁, -, hctx, -, hbooks, hprocess, hclose⟩ := phases_of_endOfPhase2 hend
  have hup : ctx.up = dispatcharr fails rowsRead := by rw [hctx]; rfl
  have hconsistent := wp_exec (wp_processOperations ctx _ hbooks) hprocess
  rw [hrun, Option.some.injEq] at hclose
  rw [hclose]
  exact closeRun_number hup hconsistent

theorem numberMoves_none {after : Option ℚ} (h : numberMoves after none = false) : after = none := by
  cases after with
  | none => rfl
  | some q => cases h

/-- What putting channel `c` back on `before` takes: Phase 0 read it, or it had no number to read;
and if the last number that landed on it shares a slot with `before`, it is `before`. -/
structure Restorable (ctx : BulkContext Dispatcharr) (s : Exec Dispatcharr) (c : ℤ)
    (before : Option ℚ) : Prop where
  read : c ∈ ctx.numbersAtRunStart ∨ before = none
  slot : ∀ after, s.compensator.lastLanded c = some after → numberMoves after before = false →
    s.up.number? c = some before

/-- A numbering plan that stopped part way is put back, channel by channel, exactly when every
channel it moved can be: the compensating writes all landing, every channel the store still has is
on the number it had before the run if and only if every one that was renumbered is restorable. -/
theorem compensation_restores_iff (fails : ℕ → Option String) (rowsRead : ℕ → ℕ)
    (format : Option ℚ → String) (request : BulkCommitRequest) (start : Dispatcharr)
    (hstore : start.Stocked) (ctx : BulkContext Dispatcharr) (s₂ final : Exec Dispatcharr)
    (hend : endOfPhase2 (dispatcharr fails rowsRead) format request start = some (ctx, s₂))
    (hrun : runBulkCommit (dispatcharr fails rowsRead) format request start = some final)
    (hhalf : s₂.compensator.halfApplied = true) (hlanded : final.result.numberingRecovery = []) :
    (∀ c before cur, start.number? c = some before → final.up.number? c = some cur →
      cur = before) ↔
    ∀ c before, start.number? c = some before → s₂.up.number? c ≠ none →
      s₂.compensator.lastLanded c ≠ none → Restorable ctx s₂ c before := by
  have hrestored : ∀ c before, start.number? c = some before → ∀ after,
      s₂.compensator.lastLanded c = some after →
      s₂.compensator.restoredNumber c =
        if numberMoves after (if c ∈ ctx.numbersAtRunStart then before else none) then
          some (if c ∈ ctx.numbersAtRunStart then before else none)
        else none := by
    intro c before hbefore after hafter
    have htracked := (invariants_of_endOfPhase2 (c := c) hstore hend).2.2 before hbefore
    have hfirst := htracked.firstBefore
    rw [hafter, Option.isSome_some, if_pos rfl] at hfirst
    simp only [decide_eq_true_eq] at hfirst
    unfold NumberingCompensator.restoredNumber
    rw [if_pos hhalf, hafter, hfirst]
    rfl
  constructor
  · intro hkept c before hbefore hthere hmoved
    obtain ⟨after, hafter⟩ := Option.ne_none_iff_exists'.mp hmoved
    obtain ⟨cur, hcur⟩ := Option.ne_none_iff_exists'.mp hthere
    have htracked := (invariants_of_endOfPhase2 (c := c) hstore hend).2.2 before hbefore
    have hnumber := (final_number (c := c) hend hrun).2 hlanded
    rw [hrestored c before hbefore after hafter] at hnumber
    by_cases hread : c ∈ ctx.numbersAtRunStart
    · rw [if_pos hread] at hnumber
      refine ⟨.inl hread, fun after' hafter' hstays => ?_⟩
      rw [hafter, Option.some.injEq] at hafter'
      rw [hafter', hstays, if_neg Bool.false_ne_true] at hnumber
      rw [hcur, ← hkept c before cur hbefore (hnumber.trans hcur)]
    · rw [if_neg hread] at hnumber
      have hnone : before = none := by
        by_cases hmoves : numberMoves after none = true
        · rw [if_pos hmoves] at hnumber
          exact (hkept c before none hbefore hnumber.1).symm
        · rw [if_neg hmoves] at hnumber
          have hcleared := numberMoves_none (Bool.eq_false_iff.mpr hmoves)
          have hlast := htracked.unread (by simpa using hread) after hafter cur hcur
          rw [← hkept c before cur hbefore (hnumber.trans hcur), hlast, hcleared]
      refine ⟨.inr hnone, fun after' hafter' hstays => ?_⟩
      rw [hafter, Option.some.injEq] at hafter'
      rw [hnone] at hstays ⊢
      have hcleared := numberMoves_none hstays
      have hlast := htracked.unread (by simpa using hread) after hafter cur hcur
      rw [hcur, hlast, hafter', hcleared]
  · intro hrestorable c before cur hbefore hcur
    have htracked := (invariants_of_endOfPhase2 (c := c) hstore hend).2.2 before hbefore
    have hnumber := (final_number (c := c) hend hrun).2 hlanded
    cases hafter : s₂.compensator.lastLanded c with
    | none =>
      have hquiet : s₂.compensator.restoredNumber c = none := by
        unfold NumberingCompensator.restoredNumber
        rw [if_pos hhalf, hafter]
        rfl
      rw [hquiet] at hnumber
      exact (htracked.untouched hafter).1 cur (hnumber ▸ hcur)
    | some after =>
      rw [hrestored c before hbefore after hafter] at hnumber
      have hmoved : s₂.compensator.lastLanded c ≠ none := by
        rw [hafter]
        exact Option.some_ne_none _
      by_cases hmoves : numberMoves after (if c ∈ ctx.numbersAtRunStart then before else none) = true
      · rw [if_pos hmoves] at hnumber
        have hback := hrestorable c before hbefore hnumber.2 hmoved
        rw [hnumber.1, Option.some.injEq] at hcur
        rw [← hcur]
        rcases hback.read with hread | hnone
        · rw [if_pos hread]
        · rw [hnone]
          split <;> rfl
      · rw [if_neg hmoves] at hnumber
        have hthere : s₂.up.number? c ≠ none := by
          rw [← hnumber, hcur]
          exact Option.some_ne_none _
        have hback := hrestorable c before hbefore hthere hmoved
        have hknown : (if c ∈ ctx.numbersAtRunStart then before else none) = before := by
          rcases hback.read with hread | hnone
          · rw [if_pos hread]
          · rw [hnone]
            split <;> rfl
        rw [hknown] at hmoves
        have hstays := hback.slot after hafter (Bool.eq_false_iff.mpr hmoves)
        rw [hnumber, hstays, Option.some.injEq] at hcur
        exact hcur.symm

/-- Two channels, the first on 5 and the second on 6. -/
def twoChannels : Dispatcharr where
  channels := [{ id := 1, name := "A", channelNumber := some 5 },
    { id := 2, name := "B", channelNumber := some 6 }]
  nextId := 3

/-- Move the first to 7 and the second to 8, whatever happens. -/
def moveBoth : BulkCommitRequest where
  operations := [.updateChannel { channelId := 1, data := { channelNumber := some (some 7) } },
    .updateChannel { channelId := 2, data := { channelNumber := some (some 8) } }]
  continueOnError := true

theorem twoChannels_stocked : twoChannels.Stocked := ⟨by decide, by decide⟩

/-- The second write raises, and the first channel is put back. -/
theorem compensation_restores_example :
    ∃ ctx s₂ final,
      endOfPhase2 (dispatcharr (raisingAt 2)) (fun _ => "") moveBoth twoChannels = some (ctx, s₂) ∧
      runBulkCommit (dispatcharr (raisingAt 2)) (fun _ => "") moveBoth twoChannels = some final ∧
      s₂.up.number? 1 = some (some 7) ∧ final.up.number? 1 = some (some 5) ∧
      ((∀ c before cur, twoChannels.number? c = some before → final.up.number? c = some cur →
          cur = before) ↔
        ∀ c before, twoChannels.number? c = some before → s₂.up.number? c ≠ none →
          s₂.compensator.lastLanded c ≠ none → Restorable ctx s₂ c before) := by
  obtain ⟨⟨ctx, s₂⟩, hend, hseen⟩ := (Option.any_eq_true
    (fun p : BulkContext Dispatcharr × Exec Dispatcharr => p.2.compensator.halfApplied &&
      (p.2.up.number? 1 = some (some 7) : Bool))
    (endOfPhase2 (dispatcharr (raisingAt 2)) (fun _ => "") moveBoth twoChannels)).mp
    (by decide +kernel)
  obtain ⟨final, hrun, hfinal⟩ := (Option.any_eq_true
    (fun s : Exec Dispatcharr => s.result.numberingRecovery.isEmpty &&
      (s.up.number? 1 = some (some 5) : Bool))
    (runBulkCommit (dispatcharr (raisingAt 2)) (fun _ => "") moveBoth twoChannels)).mp
    (by decide +kernel)
  rw [Bool.and_eq_true, decide_eq_true_eq] at hseen
  rw [Bool.and_eq_true, decide_eq_true_eq, List.isEmpty_iff] at hfinal
  exact ⟨ctx, s₂, final, hend, hrun, hseen.2, hfinal.2, compensation_restores_iff _ _ _ _ _
    twoChannels_stocked ctx s₂ final hend hrun hseen.1 hfinal.1⟩

/-- With the lineup unread, putting the first channel back takes its number away. -/
theorem compensation_clears_unread_channel :
    ∃ ctx s₂ final,
      endOfPhase2 (dispatcharr fun n => if n = 0 ∨ n = 2 then some "500" else none) (fun _ => "")
        moveBoth twoChannels = some (ctx, s₂) ∧
      runBulkCommit (dispatcharr fun n => if n = 0 ∨ n = 2 then some "500" else none) (fun _ => "")
        moveBoth twoChannels = some final ∧
      s₂.compensator.halfApplied = true ∧ final.result.numberingRecovery = [] ∧
      twoChannels.number? 1 = some (some 5) ∧ final.up.number? 1 = some none := by
  obtain ⟨⟨ctx, s₂⟩, hend, hseen⟩ := (Option.any_eq_true
    (fun p : BulkContext Dispatcharr × Exec Dispatcharr => p.2.compensator.halfApplied)
    (endOfPhase2 (dispatcharr fun n => if n = 0 ∨ n = 2 then some "500" else none) (fun _ => "")
      moveBoth twoChannels)).mp (by decide +kernel)
  obtain ⟨final, hrun, hfinal⟩ := (Option.any_eq_true
    (fun s : Exec Dispatcharr => s.result.numberingRecovery.isEmpty &&
      (s.up.number? 1 = some none : Bool))
    (runBulkCommit (dispatcharr fun n => if n = 0 ∨ n = 2 then some "500" else none) (fun _ => "")
      moveBoth twoChannels)).mp (by decide +kernel)
  rw [Bool.and_eq_true, decide_eq_true_eq, List.isEmpty_iff] at hfinal
  exact ⟨ctx, s₂, final, hend, hrun, hseen, hfinal.1, by decide +kernel, hfinal.2⟩

/-- Every number an applied operation asked for, and no later applied operation changed, is the
number its channel is on, if the store still has the channel. -/
def AppliedNumbersHold (s : Exec Dispatcharr) : Prop :=
  ∀ earlier e later, s.log = earlier ++ e :: later → e.1.renumbers = true → ∀ c n cur,
    lastNumber c e.2 = some n → (∀ e' ∈ later, lastNumber c e'.2 = none) →
    s.up.number? c = some cur → cur = n

/-- The compensating writes all landing, the numbers of the operations counted as applied hold
exactly when Phase 2b puts no channel on another number than the one Phase 2 left it on. -/
theorem applied_numbers_hold_iff (fails : ℕ → Option String) (rowsRead : ℕ → ℕ)
    (format : Option ℚ → String) (request : BulkCommitRequest) (start : Dispatcharr)
    (hstore : start.Stocked) (ctx : BulkContext Dispatcharr) (s₂ final : Exec Dispatcharr)
    (hend : endOfPhase2 (dispatcharr fails rowsRead) format request start = some (ctx, s₂))
    (hrun : runBulkCommit (dispatcharr fails rowsRead) format request start = some final)
    (hlanded : final.result.numberingRecovery = []) :
    AppliedNumbersHold final ↔
      ∀ c n, s₂.compensator.restoredNumber c = some n → s₂.up.number? c = some n := by
  constructor
  · intro hhold c n hrestored
    have hfollowed := (invariants_of_endOfPhase2 (c := c) hstore hend).2.1
    have hnumber := final_number (c := c) hend hrun
    have hfinal := hnumber.2 hlanded
    rw [hrestored] at hfinal
    obtain ⟨cur, hcur⟩ := Option.ne_none_iff_exists'.mp hfinal.2
    have hmoved : s₂.compensator.lastLanded c ≠ none := by
      intro hnone
      unfold NumberingCompensator.restoredNumber at hrestored
      rw [hnone] at hrestored
      split at hrestored <;> cases hrestored
    obtain ⟨earlier, e, later, hlog, hrenumbers, hset, hlater⟩ := hfollowed.renumbered hmoved
    obtain ⟨m, hm⟩ := Option.isSome_iff_exists.mp hset
    have hasked := hhold earlier e later (hnumber.1.trans hlog) hrenumbers c m n hm hlater hfinal.1
    have hlast : lastNumber c (s₂.log.flatMap Prod.snd) = some m := by
      rw [hlog]
      exact lastNumber_of_split hm hlater
    rw [hcur, hfollowed.logged cur m hcur hlast, hasked]
  · intro hquiet earlier e later hlog _ c n cur hset hlater hcur
    have hfollowed := (invariants_of_endOfPhase2 (c := c) hstore hend).2.1
    have hnumber := final_number (c := c) hend hrun
    have hfinal := hnumber.2 hlanded
    have hsame : s₂.up.number? c = some cur := by
      cases hrestored : s₂.compensator.restoredNumber c with
      | none =>
        rw [hrestored] at hfinal
        rw [← hfinal, hcur]
      | some m =>
        rw [hrestored] at hfinal
        rw [hquiet c m hrestored, ← hcur, hfinal.1]
    have hlast : lastNumber c (s₂.log.flatMap Prod.snd) = some n := by
      rw [← hnumber.1, hlog]
      exact lastNumber_of_split hset hlater
    exact hfollowed.logged cur n hsame hlast

/-- Nothing raises, and both numbers hold. -/
theorem applied_numbers_hold_example :
    ∃ final, runBulkCommit (dispatcharr fun _ => none) (fun _ => "") moveBoth twoChannels =
        some final ∧ final.log.length = 2 ∧ AppliedNumbersHold final := by
  obtain ⟨⟨ctx, s₂⟩, hend, hseen⟩ := (Option.any_eq_true
    (fun p : BulkContext Dispatcharr × Exec Dispatcharr => !p.2.compensator.halfApplied)
    (endOfPhase2 (dispatcharr fun _ => none) (fun _ => "") moveBoth twoChannels)).mp
    (by decide +kernel)
  obtain ⟨final, hrun, hfinal⟩ := (Option.any_eq_true
    (fun s : Exec Dispatcharr => s.result.numberingRecovery.isEmpty && (s.log.length = 2 : Bool))
    (runBulkCommit (dispatcharr fun _ => none) (fun _ => "") moveBoth twoChannels)).mp
    (by decide +kernel)
  rw [Bool.and_eq_true, decide_eq_true_eq, List.isEmpty_iff] at hfinal
  refine ⟨final, hrun, hfinal.2, (applied_numbers_hold_iff _ _ _ _ _ twoChannels_stocked ctx s₂ final
    hend hrun hfinal.1).mpr fun c n hrestored => ?_⟩
  unfold NumberingCompensator.restoredNumber at hrestored
  rw [Bool.not_eq_true'] at hseen
  rw [hseen] at hrestored
  cases hrestored

/-- The second write raises; the first is counted as applied and put back. -/
theorem applied_number_put_back :
    ∃ final, runBulkCommit (dispatcharr (raisingAt 2)) (fun _ => "") moveBoth twoChannels =
        some final ∧ final.result.operationsApplied = 1 ∧
      final.result.errors.map (·.operationId) = ["op-1-updateChannel"] ∧
      final.result.numberingRecovery = [] ∧ ¬AppliedNumbersHold final := by
  obtain ⟨final, hrun, hfinal⟩ := (Option.any_eq_true
    (fun s : Exec Dispatcharr => (s.result.operationsApplied = 1 : Bool) &&
      (s.result.errors.map (·.operationId) = ["op-1-updateChannel"] : Bool) &&
      s.result.numberingRecovery.isEmpty &&
      (s.log = [(.updateChannel { channelId := 1, data := { channelNumber := some (some 7) } },
        [(1, some 7)])] : Bool) &&
      (s.up.number? 1 = some (some 5) : Bool))
    (runBulkCommit (dispatcharr (raisingAt 2)) (fun _ => "") moveBoth twoChannels)).mp
    (by decide +kernel)
  simp only [Bool.and_eq_true, decide_eq_true_eq, List.isEmpty_iff] at hfinal
  obtain ⟨⟨⟨⟨happlied, herrors⟩, hrecovery⟩, hlog⟩, hnumber⟩ := hfinal
  refine ⟨final, hrun, happlied, herrors, hrecovery, fun hhold => ?_⟩
  have hasked := hhold [] _ [] hlog rfl 1 (some 7) (some 5) rfl (by simp) hnumber
  exact absurd (Option.some.inj hasked) (by norm_num)

end Runs

end ChannelManager
