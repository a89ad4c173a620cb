import ChannelManager.Bulk.Accounting

/-!
# One channel through the operations of a bulk commit

What Phase 2 can do to the number of a single channel in the store, to the number the local catalog
has for it, and to what the compensator remembers about it. Only `updateChannel`,
`bulkAssignChannelNumbers` and `createChannel` set a number; everything else leaves the channel on
its number or deletes it.
-/

namespace ChannelManager

/-- The number the catalog has for a channel; nothing when the catalog does not know it. -/
def Exec.catalogEntry {σ : Type} (s : Exec σ) (c : ℤ) : Option (Option ℚ) :=
  (s.existingChannels.get? c).map (·.channelNumber)

/-- The last number the compensator knows to have landed on a channel. -/
def NumberingCompensator.lastLanded (compensator : NumberingCompensator) (c : ℤ) :
    Option (Option ℚ) :=
  ((compensator.landed.filter (·.channelId = c)).getLast?).map (·.after)

/-- The last number a list of settings puts a channel on. -/
def lastNumber (c : ℤ) (entries : List (ℤ × Option ℚ)) : Option (Option ℚ) :=
  ((entries.filter (·.1 = c)).getLast?).map Prod.snd

theorem Exec.catalogNumber_eq {σ : Type} (s : Exec σ) (c : ℤ) :
    s.catalogNumber c = (s.catalogEntry c).getD none := by
  unfold catalogNumber catalogEntry
  cases s.existingChannels.get? c <;> rfl

namespace Dispatcharr

/-- The store after a call that sets no number of channel `c`. -/
structure Calm (c : ℤ) (d d' : Dispatcharr) : Prop where
  nextId : d.nextId ≤ d'.nextId
  number : d'.number? c = d.number? c ∨ d'.number? c = none

variable {c : ℤ}

theorem Calm.rfl {d : Dispatcharr} : Calm c d d := ⟨le_refl _, .inl (Eq.refl _)⟩

theorem Calm.trans {d d' d'' : Dispatcharr} (h : Calm c d d') (h' : Calm c d' d'') :
    Calm c d d'' := by
  refine ⟨h.nextId.trans h'.nextId, ?_⟩
  rcases h'.number with hsame | hgone
  · rw [hsame]
    exact h.number
  · exact .inr hgone

/-- Calls are numbered, whatever they do. -/
theorem Calm.counted {d d' : Dispatcharr} {n : ℕ} (h : Calm c { d with calls := n } d') :
    Calm c d d' := ⟨h.nextId, h.number⟩

theorem channel?_mapChannel (d : Dispatcharr) (c c' : ℤ) (f : Channel → Channel)
    (hf : ∀ ch, (f ch).id = ch.id) :
    (d.mapChannel c f).channel? c' =
      (d.channel? c').map fun ch => if ch.id = c then f ch else ch := by
  have hid : ∀ ch : Channel, (if ch.id = c then f ch else ch).id = ch.id := by
    intro ch
    split
    · exact hf ch
    · rfl
  unfold channel? mapChannel
  rw [List.find?_map]
  simp only [Function.comp_def, hid]

theorem id_of_channel? {d : Dispatcharr} {c : ℤ} {ch : Channel} (h : d.channel? c = some ch) :
    ch.id = c := by
  have hfound := List.find?_some h
  exact of_decide_eq_true hfound

theorem number?_mapChannel_self (d : Dispatcharr) (c : ℤ) (f : Channel → Channel)
    (hf : ∀ ch, (f ch).id = ch.id) :
    (d.mapChannel c f).number? c = (d.channel? c).map fun ch => (f ch).channelNumber := by
  unfold number?
  rw [channel?_mapChannel d c c f hf, Option.map_map]
  cases h : d.channel? c with
  | none => rfl
  | some ch => simp [id_of_channel? h]

theorem number?_mapChannel_ne (d : Dispatcharr) {c c' : ℤ} (f : Channel → Channel)
    (hf : ∀ ch, (f ch).id = ch.id) (hne : c' ≠ c) : (d.mapChannel c f).number? c' = d.number? c' := by
  unfold number?
  rw [channel?_mapChannel d c c' f hf]
  cases h : d.channel? c' with
  | none => rfl
  | some ch => simp [id_of_channel? h, hne]

/-- A PATCH that carries no number leaves every number. -/
theorem number?_patch_without (d : Dispatcharr) (c c' : ℤ) {data : ChannelPatch}
    (hdata : data.channelNumber = none) : (d.mapChannel c (·.patch data)).number? c' = d.number? c' := by
  by_cases hc : c' = c
  · subst hc
    rw [number?_mapChannel_self d c' (·.patch data) (fun _ => Eq.refl _)]
    unfold number?
    cases d.channel? c' <;> simp [hdata]
  · exact number?_mapChannel_ne d _ (fun _ => Eq.refl _) hc

theorem number?_patch (d : Dispatcharr) {c : ℤ} {data : ChannelPatch} {n : Option ℚ}
    (hdata : data.channelNumber = some n) (hc : (d.channel? c).isSome) :
    (d.mapChannel c (·.patch data)).number? c = some n := by
  rw [number?_mapChannel_self d c (·.patch data) (fun _ => Eq.refl _)]
  obtain ⟨ch, hch⟩ := Option.isSome_iff_exists.mp hc
  simp [hch, hdata]

theorem number?_filter (d : Dispatcharr) (c c' : ℤ) :
    ({ d with channels := d.channels.filter (·.id ≠ c) } : Dispatcharr).number? c' =
      if c' = c then none else d.number? c' := by
  unfold number? channel?
  rw [List.find?_filter]
  split
  · rename_i hc
    rw [Option.map_eq_none_iff, List.find?_eq_none]
    intro ch _
    simp [hc]
  · rename_i hc
    congr 1
    congr 1
    funext ch
    by_cases hid : ch.id = c'
    · simp [hid, hc]
    · simp [hid]

theorem number?_concat (d : Dispatcharr) (ch : Channel) (n : ℤ) (c : ℤ) (hne : ch.id ≠ c) :
    ({ d with channels := d.channels ++ [ch], nextId := n } : Dispatcharr).number? c =
      d.number? c := by
  unfold number? channel?
  rw [List.find?_append, List.find?_cons_of_neg (by simpa using hne), List.find?_nil, Option.or_none]

section Calls

variable {fails : ℕ → Option String} {rowsRead : ℕ → ℕ} {α : Type}

theorem calm_guarded {work : Call Dispatcharr α} (h : ∀ d, Calm c d (work d).2) (d : Dispatcharr) :
    Calm c d (guarded fails work d).2 := by
  unfold guarded
  split
  · exact Calm.counted Calm.rfl
  · exact (h _).counted

theorem calm_guardedRead {rows : Dispatcharr → List α} (d : Dispatcharr) :
    Calm c d (guardedRead fails rowsRead rows d).2 := by
  unfold guardedRead
  split
  · exact Calm.counted Calm.rfl
  · exact Calm.counted Calm.rfl

theorem calm_getChannel (x : ℤ) (d : Dispatcharr) :
    Calm c d ((dispatcharr fails rowsRead).getChannel x d).2 := by
  refine calm_guarded (fun d => ?_) d
  split <;> exact Calm.rfl

theorem calm_updateChannel (x : ℤ) {data : ChannelPatch} (hdata : data.channelNumber = none)
    (d : Dispatcharr) : Calm c d ((dispatcharr fails rowsRead).updateChannel x data d).2 := by
  refine calm_guarded (fun d => ?_) d
  split
  · exact ⟨le_refl _, .inl (number?_patch_without d x c hdata)⟩
  · exact Calm.rfl

theorem calm_deleteChannel (x : ℤ) (d : Dispatcharr) :
    Calm c d ((dispatcharr fails rowsRead).deleteChannel x d).2 := by
  refine calm_guarded (fun d => ?_) d
  split
  · refine ⟨le_refl _, ?_⟩
    rw [number?_filter]
    split
    · exact .inr rfl
    · exact .inl rfl
  · exact Calm.rfl

theorem calm_createChannelGroup (name : String) (d : Dispatcharr) :
    Calm c d ((dispatcharr fails rowsRead).createChannelGroup name d).2 := by
  refine calm_guarded (fun d => ?_) d
  split
  · exact Calm.rfl
  · exact ⟨Int.le.intro 1 rfl, .inl rfl⟩

theorem calm_updateChannelGroup (g : ℤ) (name : String) (d : Dispatcharr) :
    Calm c d ((dispatcharr fails rowsRead).updateChannelGroup g name d).2 := by
  refine calm_guarded (fun d => ?_) d
  split <;> exact ⟨le_refl _, .inl rfl⟩

theorem calm_deleteChannelGroup (g : ℤ) (d : Dispatcharr) :
    Calm c d ((dispatcharr fails rowsRead).deleteChannelGroup g d).2 := by
  refine calm_guarded (fun d => ?_) d
  split <;> exact ⟨le_refl _, .inl rfl⟩

theorem calm_createLogo (name url : String) (d : Dispatcharr) :
    Calm c d ((dispatcharr fails rowsRead).createLogo name url d).2 :=
  calm_guarded (fun _ => ⟨Int.le.intro 1 rfl, .inl rfl⟩) d

/-- A call that touches neither the channels nor the ids. -/
theorem calm_elsewhere {work : Call Dispatcharr α}
    (h : ∀ d, (work d).2.channels = d.channels ∧ (work d).2.nextId = d.nextId) (d : Dispatcharr) :
    Calm c d (guarded fails work d).2 := by
  refine calm_guarded (fun d => ⟨(h d).2.ge, .inl ?_⟩) d
  unfold number? channel?
  rw [(h d).1]

end Calls

end Dispatcharr

/-- A step of the run that sets no number of channel `c` and notes none. -/
structure Same (c : ℤ) (s s' : Exec Dispatcharr) : Prop where
  store : Dispatcharr.Calm c s.up s'.up
  catalog : s'.catalogEntry c = s.catalogEntry c
  landed : s'.compensator.lastLanded c = s.compensator.lastLanded c
  firstBefore : s'.compensator.firstBefore.get? c = s.compensator.firstBefore.get? c
  log : s'.log = s.log

namespace Same

variable {c : ℤ}

instance : Std.Refl (Same c) := ⟨fun _ => ⟨Dispatcharr.Calm.rfl, rfl, rfl, rfl, rfl⟩⟩

instance : IsTrans (Exec Dispatcharr) (Same c) :=
  ⟨fun _ _ _ h h' => ⟨h.store.trans h'.store, h'.catalog.trans h.catalog, h'.landed.trans h.landed,
    h'.firstBefore.trans h.firstBefore, h'.log.trans h.log⟩⟩

end Same

section CalmSteps

open Eff

variable {c : ℤ} {α : Type}

theorem calm_request {call : Call Dispatcharr α} (h : ∀ d, Dispatcharr.Calm c d (call d).2) :
    Moves (Same c) (request call) := by
  intro s
  rw [wp_request]
  have hcall := h s.up
  split <;> rename_i hanswer <;> rw [hanswer] at hcall <;> exact ⟨hcall, rfl, rfl, rfl, rfl⟩

theorem calm_write {call : Call Dispatcharr α} (h : ∀ d, Dispatcharr.Calm c d (call d).2) :
    Moves (Same c) (write call) := by
  intro s
  rw [wp_write]
  have hcall := h s.up
  split <;> rename_i hanswer <;> rw [hanswer] at hcall <;> exact ⟨hcall, rfl, rfl, rfl, rfl⟩

theorem calm_tellLedger (f : OperationLedger → Except String OperationLedger) :
    Moves (Same c) (tellLedger f) := by
  intro s
  rw [wp_tellLedger]
  split
  · exact ⟨Dispatcharr.Calm.rfl, rfl, rfl, rfl, rfl⟩
  · exact Std.Refl.refl s

/-- A change of the envelope, the ledger or the bookkeeping of the run. -/
theorem calm_modify {f : Exec Dispatcharr → Exec Dispatcharr} (hup : ∀ s, (f s).up = s.up)
    (hcatalog : ∀ s, (f s).existingChannels = s.existingChannels)
    (hcompensator : ∀ s, (f s).compensator = s.compensator) (hlog : ∀ s, (f s).log = s.log) :
    Moves (Same c) (modify f) := by
  apply moves_modify
  intro s
  refine ⟨?_, ?_, ?_, ?_, hlog s⟩
  · rw [hup]
    exact Dispatcharr.Calm.rfl
  · unfold Exec.catalogEntry
    rw [hcatalog]
  · rw [hcompensator]
  · rw [hcompensator]

variable {ctx : BulkContext Dispatcharr} {fails : ℕ → Option String} {rowsRead : ℕ → ℕ}

theorem calm_rejectUnresolvedChannel (x : ℤ) (label : String) :
    Moves (Same c) (rejectUnresolvedChannel x label : Eff (Exec Dispatcharr) ℤ) :=
  Moves.ite (moves_throw _) (moves_pure x)

theorem moves_rejectUnresolvedGroup {rel : Exec Dispatcharr → Exec Dispatcharr → Prop}
    [Std.Refl rel] (g : Option ℤ) (label : String) :
    Moves rel (rejectUnresolvedGroup g label : Eff (Exec Dispatcharr) (Option ℤ)) := by
  cases g with
  | none => exact moves_pure none
  | some g => exact Moves.ite (moves_throw _) (moves_pure (some g))

theorem moves_checkExpectedNumber {rel : Exec Dispatcharr → Exec Dispatcharr → Prop}
    [Std.Refl rel] (op : BulkUpdateChannelOp) (x : ℤ) :
    Moves rel (checkExpectedNumber ctx op x) := by
  unfold checkExpectedNumber
  split
  · exact Moves.ite (Moves.ite (moves_pure ()) (moves_throw _)) (moves_throw _)
  · exact moves_pure ()

variable (hctx : ctx.up = dispatcharr fails rowsRead)

include hctx

theorem calm_writeStreams (channel : Channel) (x : ℤ) (streams : List ℤ) (actionType : String) :
    Moves (Same c) (writeStreams ctx channel x streams actionType) := by
  unfold writeStreams
  rw [hctx]
  exact moves_get.bind fun _ => (calm_write (Dispatcharr.calm_updateChannel x rfl)).bind fun _ =>
    calm_tellLedger _

theorem calm_addStream (x y : ℤ) : Moves (Same c) (executeAddStream ctx x y) := by
  unfold executeAddStream
  refine moves_get.bind fun _ => (calm_rejectUnresolvedChannel _ _).bind fun _ =>
    Moves.ite (moves_throw _) (Moves.bind ?_ fun channel =>
      Moves.ite (calm_tellLedger _) (calm_writeStreams hctx channel _ _ _))
  rw [hctx]
  exact calm_request (Dispatcharr.calm_getChannel _)

theorem calm_removeStream (x y : ℤ) : Moves (Same c) (executeRemoveStream ctx x y) := by
  unfold executeRemoveStream
  refine moves_get.bind fun _ => (calm_rejectUnresolvedChannel _ _).bind fun _ =>
    Moves.bind ?_ fun channel =>
      Moves.ite (calm_writeStreams hctx channel _ _ _) (calm_tellLedger _)
  rw [hctx]
  exact calm_request (Dispatcharr.calm_getChannel _)

theorem calm_reorderStreams (x : ℤ) (ys : List ℤ) :
    Moves (Same c) (executeReorderStreams ctx x ys) := by
  unfold executeReorderStreams
  refine moves_get.bind fun _ => (calm_rejectUnresolvedChannel _ _).bind fun _ =>
    Moves.bind ?_ fun channel => ?_
  · rw [hctx]
    exact calm_request (Dispatcharr.calm_getChannel _)
  · split
    · exact moves_throw _
    · exact calm_writeStreams hctx channel _ _ _

theorem calm_deleteChannel (x : ℤ) : Moves (Same c) (executeDeleteChannel ctx x) := by
  unfold executeDeleteChannel
  refine moves_get.bind fun _ => (calm_rejectUnresolvedChannel _ _).bind fun _ =>
    Moves.bind (Moves.tryCatch (Moves.bind ?_ fun _ => moves_pure _) fun _ =>
      Moves.ite (moves_pure _) (moves_throw _)) fun _ => calm_tellLedger _
  rw [hctx]
  exact calm_write (Dispatcharr.calm_deleteChannel _)

theorem calm_createGroup (name : String) : Moves (Same c) (executeCreateGroup ctx name) := by
  unfold executeCreateGroup
  refine moves_get.bind fun _ => Moves.ite (calm_tellLedger _) (Moves.bind ?_ fun created =>
    (calm_tellLedger _).bind fun _ => ?_)
  · rw [hctx]
    exact calm_write (Dispatcharr.calm_createChannelGroup name)
  · cases created with
    | some id => exact calm_modify (fun _ => rfl) (fun _ => rfl) (fun _ => rfl) (fun _ => rfl)
    | none => exact moves_throw _

theorem calm_moveMember (g : ℤ) (target : ChannelGroup) (member : Channel) :
    Moves (Same c) (moveMember ctx g target member) := by
  unfold moveMember stillBelongsToGroup
  rw [hctx]
  refine Moves.bind (Moves.tryCatch
    ((calm_request (Dispatcharr.calm_getChannel _)).bind fun _ => moves_pure _) fun _ =>
      moves_pure _) fun _ => Moves.ite ?_ (moves_pure ())
  exact (calm_write (Dispatcharr.calm_updateChannel _ rfl)).bind fun _ => calm_tellLedger _

theorem calm_reparentGroupChannels (g : ℤ) : Moves (Same c) (reparentGroupChannels ctx g) := by
  unfold reparentGroupChannels
  refine Moves.bind ?_ fun read => ?_
  · rw [hctx]
    exact calm_request Dispatcharr.calm_guardedRead
  split
  · exact moves_throw _
  · refine Moves.ite (moves_pure ()) (Moves.bind ?_ fun groups => ?_)
    · rw [hctx]
      exact calm_request (Dispatcharr.calm_elsewhere fun _ => ⟨rfl, rfl⟩)
    · split
      · exact moves_throw _
      · exact Moves.ite (moves_throw _) (moves_each (calm_moveMember hctx g _) _)

theorem calm_deleteChannelGroup (g : ℤ) : Moves (Same c) (executeDeleteChannelGroup ctx g) := by
  unfold executeDeleteChannelGroup
  refine (calm_reparentGroupChannels hctx g).bind fun _ => Moves.bind ?_ fun _ => calm_tellLedger _
  rw [hctx]
  exact calm_write (Dispatcharr.calm_deleteChannelGroup g)

theorem calm_renameChannelGroup (g : ℤ) (name : String) :
    Moves (Same c) (executeRenameChannelGroup ctx g name) := by
  unfold executeRenameChannelGroup
  refine Moves.bind ?_ fun _ => calm_tellLedger _
  rw [hctx]
  exact calm_write (Dispatcharr.calm_updateChannelGroup g name)

theorem calm_setProfileMembership (p x : ℤ) (enabled : Bool) :
    Moves (Same c) (executeSetProfileMembership ctx p x enabled) := by
  unfold executeSetProfileMembership
  refine moves_get.bind fun _ => (calm_rejectUnresolvedChannel _ _).bind fun _ =>
    Moves.bind ?_ fun _ => calm_tellLedger _
  rw [hctx]
  exact calm_write (Dispatcharr.calm_elsewhere fun _ => ⟨rfl, rfl⟩)

theorem calm_restoreChannelGroup (g : ℤ) : Moves (Same c) (executeRestoreChannelGroup ctx g) := by
  unfold executeRestoreChannelGroup
  refine Moves.bind ?_ fun _ => calm_tellLedger _
  rw [hctx]
  exact calm_request (Dispatcharr.calm_elsewhere fun _ => ⟨rfl, rfl⟩)

theorem calm_clearStreamStats (xs : List ℤ) : Moves (Same c) (executeClearStreamStats ctx xs) := by
  unfold executeClearStreamStats clearedStats
  refine Moves.bind (Moves.ite (moves_pure 0) ?_) fun _ => calm_tellLedger _
  rw [hctx]
  exact calm_request (Dispatcharr.calm_elsewhere fun _ => ⟨rfl, rfl⟩)

theorem calm_normalizedName (op : BulkCreateChannelOp) :
    Moves (Same c) (normalizedName ctx op) := by
  unfold normalizedName
  refine Moves.ite (Moves.tryCatch (Moves.bind ?_ fun _ => moves_pure _) fun _ => moves_pure _)
    (moves_pure _)
  rw [hctx]
  exact calm_request (Dispatcharr.calm_elsewhere fun _ => ⟨rfl, rfl⟩)

omit hctx in
theorem calm_logoBodyId (id : Option ℤ) :
    Moves (Same c) (logoBodyId id : Eff (Exec Dispatcharr) ℤ) := by
  cases id with
  | some id => exact moves_pure id
  | none => exact moves_throw _

theorem calm_resolveLogoId (url name : String) : Moves (Same c) (resolveLogoId ctx url name) := by
  unfold resolveLogoId
  refine Moves.bind ?_ fun _ => moves_get.bind fun s => ?_
  · unfold ensureLogoIndex
    refine moves_get.bind fun s => ?_
    split
    · exact moves_pure ()
    · refine Moves.bind ?_ fun read => Moves.bind ?_ fun _ => ?_
      · rw [hctx]
        exact calm_request Dispatcharr.calm_guardedRead
      · exact calm_modify (fun _ => rfl) (fun _ => rfl) (fun _ => rfl) (fun _ => rfl)
      · split
        · exact moves_throw _
        · exact moves_pure ()
  · split
    · exact calm_logoBodyId _
    · refine Moves.bind ?_ fun created => (calm_tellLedger _).bind fun _ => Moves.bind ?_ fun _ =>
        calm_logoBodyId created
      · rw [hctx]
        exact calm_write (Dispatcharr.calm_createLogo name url)
      · exact calm_modify (fun _ => rfl) (fun _ => rfl) (fun _ => rfl) (fun _ => rfl)

theorem calm_createLogoId (op : BulkCreateChannelOp) (name : String) :
    Moves (Same c) (createLogoId ctx op name) := by
  unfold createLogoId
  split
  · exact Moves.ite (Moves.tryCatch ((calm_resolveLogoId hctx _ name).bind fun _ => moves_pure _)
      fun _ => moves_pure _) (moves_pure _)
  · exact moves_pure _

end CalmSteps

/-- What an operation that set the number of channel `c` to `n` did. -/
structure Numbered (c : ℤ) (n : Option ℚ) (s s' : Exec Dispatcharr) : Prop where
  existed : s.up.number? c ≠ none
  number : s'.up.number? c = some n
  nextId : s'.up.nextId = s.up.nextId
  known : (s'.catalogEntry c).isSome = (s.catalogEntry c).isSome
  log : s'.log = s.log
  -- the landing is noted, unless the catalog already had the channel on that number
  noted :
    (∃ a, s'.compensator.lastLanded c = some a ∧ (s.catalogEntry c = none → a = n) ∧
      s'.compensator.firstBefore.get? c =
        (s.compensator.firstBefore.get? c).or (some (s.catalogNumber c))) ∨
    (s'.compensator.lastLanded c = s.compensator.lastLanded c ∧
      s'.compensator.firstBefore.get? c = s.compensator.firstBefore.get? c ∧
      s'.catalogEntry c = s.catalogEntry c ∧ s.catalogEntry c = some n)

/-- An operation whose outcome is the numbers it sets. -/
def BulkOperation.renumbers : BulkOperation → Bool
  | .updateChannel op => op.data.channelNumber.isSome
  | .bulkAssignChannelNumbers _ => true
  | _ => false

/-- What an operation that applied did to channel `c`. -/
inductive Handled (c : ℤ) (op : BulkOperation) (s s' : Exec Dispatcharr) : Prop
  | quiet (same : Same c s s') (unset : lastNumber c (numbersSet s' op) = none)
  | created (n : Option ℚ) (fresh : s.up.nextId ≤ c) (taken : c < s'.up.nextId)
      (number : s'.up.number? c = some n) (set : lastNumber c (numbersSet s' op) = some n)
      (landed : s'.compensator.lastLanded c = s.compensator.lastLanded c) (log : s'.log = s.log)
  | numbered (n : Option ℚ) (renumbers : op.renumbers = true)
      (set : lastNumber c (numbersSet s' op) = some n) (effect : Numbered c n s s')

section Setters

open Eff

variable {c : ℤ} {ctx : BulkContext Dispatcharr} {fails : ℕ → Option String} {rowsRead : ℕ → ℕ}

theorem wp_rejectUnresolvedChannel {σ : Type} {post : ℤ → Exec σ → Prop}
    {fail : String → Exec σ → Prop} {s : Exec σ} (x : ℤ) (label : String) (hpost : post x s)
    (hfail : ∀ e, fail e s) : (rejectUnresolvedChannel x label).wp post fail s := by
  unfold rejectUnresolvedChannel
  split
  · exact hfail _
  · exact hpost

theorem wp_resolveChannels {σ : Type} {fail : String → Exec σ → Prop} {s : Exec σ} (label : String)
    (hfail : ∀ e, fail e s) (xs : List ℤ) {post : List ℤ → Exec σ → Prop}
    (hpost : post (xs.map s.resolveId) s) : (resolveChannels label xs).wp post fail s := by
  induction xs generalizing post with
  | nil => exact hpost
  | cons x xs ih =>
    rw [resolveChannels, wp_bind, wp_get, wp_bind]
    apply wp_rejectUnresolvedChannel _ _ _ hfail
    rw [wp_bind]
    exact ih hpost

@[simp] theorem lastNumber_nil : lastNumber c [] = none := rfl

theorem lastNumber_singleton (x : ℤ) (n : Option ℚ) :
    lastNumber c [(x, n)] = if x = c then some n else none := by
  by_cases h : x = c <;> simp [lastNumber, h]

theorem lastNumber_append (l l' : List (ℤ × Option ℚ)) :
    lastNumber c (l ++ l') = (lastNumber c l').or (lastNumber c l) := by
  unfold lastNumber
  rw [List.filter_append, List.getLast?_append]
  cases (l'.filter (·.1 = c)).getLast? <;> rfl

theorem lastNumber_concat (l : List (ℤ × Option ℚ)) (e : ℤ × Option ℚ) :
    lastNumber c (l ++ [e]) = if e.1 = c then some e.2 else lastNumber c l := by
  rw [lastNumber_append, lastNumber_singleton]
  split <;> rfl

theorem lastNumber_eq_none {l : List (ℤ × Option ℚ)} :
    lastNumber c l = none ↔ ∀ e ∈ l, e.1 ≠ c := by
  simp [lastNumber]

theorem mem_of_lastNumber {l : List (ℤ × Option ℚ)} {n : Option ℚ} (h : lastNumber c l = some n) :
    (c, n) ∈ l := by
  unfold lastNumber at h
  rw [Option.map_eq_some_iff] at h
  obtain ⟨e, he, hn⟩ := h
  have hmem := List.mem_filter.mp (List.mem_of_getLast? he)
  have hc : e.1 = c := of_decide_eq_true hmem.2
  rw [← hc, ← hn]
  exact hmem.1

/-- A dictionary holds one entry per key, so its last number is the one it holds. -/
theorem lastNumber_items (d : Dict ℤ ℚ) :
    lastNumber c (d.items.map fun e => (e.1, some e.2)) = (d.get? c).map some := by
  cases hget : d.get? c with
  | none =>
    have hkeys : c ∉ d.keys := (Dict.get?_eq_none _ _).mp hget
    refine lastNumber_eq_none.mpr fun e he hc => ?_
    rw [List.mem_map] at he
    obtain ⟨x, hx, rfl⟩ := he
    exact hkeys (hc ▸ List.mem_map_of_mem hx)
  | some v =>
    have hmem := (Dict.get?_eq_some _ _ _).mp hget
    cases hlast : lastNumber c (d.items.map fun e => (e.1, some e.2)) with
    | none => exact absurd rfl (lastNumber_eq_none.mp hlast (c, some v)
        (List.mem_map.mpr ⟨(c, v), hmem, rfl⟩))
    | some n =>
      obtain ⟨x, hx, hxn⟩ := List.mem_map.mp (mem_of_lastNumber hlast)
      rw [Prod.mk.injEq] at hxn
      have hentry : (c, x.2) ∈ d.items := hxn.1 ▸ hx
      have hsame := (Dict.get?_eq_some _ _ _).mpr hentry
      rw [hget, Option.some.injEq] at hsame
      rw [← hxn.2, hsame]
      rfl

theorem lastLanded_recordLanded (compensator : NumberingCompensator) (x : ℤ) (name : String)
    (before after : Option ℚ) :
    (compensator.recordLanded x name before after).lastLanded c =
      if x = c then some after else compensator.lastLanded c := by
  unfold NumberingCompensator.lastLanded NumberingCompensator.recordLanded
  by_cases h : x = c <;> simp [h]

/-- The numbers a range hands out to resolved channels. -/
def handedOut (start : ℚ) (ids : List ℤ) : List (ℤ × Option ℚ) :=
  ids.zipIdx.map fun e => (e.1, some (start + (e.2 : ℚ)))

theorem nextId_foldl_setNumber (es : List (ℤ × ℚ)) (d : Dispatcharr) :
    (es.foldl Dispatcharr.setNumber d).nextId = d.nextId := by
  induction es generalizing d with
  | nil => rfl
  | cons e es ih => exact ih (d.setNumber e)

theorem number?_setNumber (d : Dispatcharr) (e : ℤ × ℚ) :
    (d.setNumber e).number? c =
      if e.1 = c then (d.number? c).map fun _ => some e.2 else d.number? c := by
  unfold Dispatcharr.setNumber
  split
  · rename_i hc
    subst hc
    have hself := Dispatcharr.number?_mapChannel_self d e.1
      (fun ch => { ch with channelNumber := some e.2 }) fun _ => rfl
    rw [hself]
    unfold Dispatcharr.number?
    rw [Option.map_map]
    rfl
  · rename_i hc
    exact Dispatcharr.number?_mapChannel_ne d _ (fun _ => rfl) (Ne.symm hc)

theorem number?_foldl_setNumber (es : List (ℤ × ℚ)) (d : Dispatcharr) :
    (es.foldl Dispatcharr.setNumber d).number? c =
      match lastNumber c (es.map fun e => (e.1, some e.2)) with
      | some n => (d.number? c).map fun _ => n
      | none => d.number? c := by
  induction es using List.reverseRecOn with
  | nil => rfl
  | append_singleton es e ih =>
    rw [List.foldl_append, List.foldl_cons, List.foldl_nil, number?_setNumber, ih, List.map_append,
      List.map_singleton, lastNumber_concat]
    split
    · split <;> simp [Option.map_map, Function.comp_def]
    · rfl

/-- What a range moves, against what it hands out: only a channel already there is left out. -/
theorem renumbered_get? (s : Exec Dispatcharr) (start : ℚ) (es : List (ℤ × ℕ)) :
    match (es.foldl (fun (renumbered : Dict ℤ ℚ) e =>
        if s.catalogNumber e.1 = some (start + e.2) then renumbered
        else renumbered.set e.1 (start + e.2)) ∅).get? c with
    | none => lastNumber c (es.map fun e => (e.1, some (start + (e.2 : ℚ)))) = none ∨
        ∃ q, lastNumber c (es.map fun e => (e.1, some (start + (e.2 : ℚ)))) = some (some q) ∧
          s.catalogNumber c = some q
    | some v => (lastNumber c (es.map fun e => (e.1, some (start + (e.2 : ℚ))))).isSome ∧
        (s.catalogNumber c = none →
          lastNumber c (es.map fun e => (e.1, some (start + (e.2 : ℚ)))) = some (some v)) := by
  induction es using List.reverseRecOn with
  | nil => exact .inl rfl
  | append_singleton es e ih =>
    rw [List.foldl_append, List.foldl_cons, List.foldl_nil, List.map_append, List.map_singleton,
      lastNumber_concat]
    by_cases hc : e.1 = c
    · rw [if_pos hc]
      split_ifs with hthere
      · -- already on this number: the range leaves the channel out
        rw [hc] at hthere
        split
        · exact .inr ⟨_, rfl, hthere⟩
        · refine ⟨rfl, fun hnone => ?_⟩
          rw [hnone] at hthere
          cases hthere
      · rw [hc, Dict.get?_set_self]
        exact ⟨rfl, fun _ => rfl⟩
    · rw [if_neg hc]
      split_ifs with hthere
      · exact ih
      · rw [Dict.get?_set_ne _ _ hc]
        exact ih

theorem renumberedBy_get? (s : Exec Dispatcharr) (ids : List ℤ) (start : ℚ) :
    match (renumberedBy s ids start).get? c with
    | none => lastNumber c (handedOut start ids) = none ∨
        ∃ q, lastNumber c (handedOut start ids) = some (some q) ∧ s.catalogNumber c = some q
    | some v => (lastNumber c (handedOut start ids)).isSome ∧
        (s.catalogNumber c = none → lastNumber c (handedOut start ids) = some (some v)) :=
  renumbered_get? s start ids.zipIdx

theorem number?_assigned (ids : List ℤ) (start : ℚ) (d : Dispatcharr) :
    ((ids.zipIdx.map fun e => (e.1, start + (e.2 : ℚ))).foldl Dispatcharr.setNumber d).number? c =
      match lastNumber c (handedOut start ids) with
      | some n => (d.number? c).map fun _ => n
      | none => d.number? c := by
  have h := number?_foldl_setNumber (c := c) (ids.zipIdx.map fun e => (e.1, start + (e.2 : ℚ))) d
  rw [List.map_map] at h
  exact h

theorem lastLanded_foldl_recordLanded (s : Exec Dispatcharr) (items : List (ℤ × ℚ))
    (compensator : NumberingCompensator) :
    (items.foldl (fun compensator e => compensator.recordLanded e.1 (s.channelNameOf e.1)
      (s.catalogNumber e.1) (some e.2)) compensator).lastLanded c =
      (lastNumber c (items.map fun e => (e.1, some e.2))).or (compensator.lastLanded c) := by
  induction items using List.reverseRecOn with
  | nil => rfl
  | append_singleton items e ih =>
    rw [List.foldl_append, List.foldl_cons, List.foldl_nil, lastLanded_recordLanded, ih,
      List.map_append, List.map_singleton, lastNumber_concat]
    split <;> rfl

theorem firstBefore_foldl_recordLanded (s : Exec Dispatcharr) (items : List (ℤ × ℚ))
    (compensator : NumberingCompensator) :
    (items.foldl (fun compensator e => compensator.recordLanded e.1 (s.channelNameOf e.1)
      (s.catalogNumber e.1) (some e.2)) compensator).firstBefore.get? c =
      if (lastNumber c (items.map fun e => (e.1, some e.2))).isSome then
        (compensator.firstBefore.get? c).or (some (s.catalogNumber c))
      else compensator.firstBefore.get? c := by
  induction items using List.reverseRecOn with
  | nil => rfl
  | append_singleton items e ih =>
    rw [List.foldl_append, List.foldl_cons, List.foldl_nil, firstBefore_recordLanded, ih,
      List.map_append, List.map_singleton, lastNumber_concat]
    by_cases hc : e.1 = c
    · subst hc
      simp only [if_true, Option.isSome_some]
      split
      · cases compensator.firstBefore.get? e.1 <;> rfl
      · rfl
    · rw [if_neg hc, if_neg hc]

/-- The catalog follows the numbers a range moved. -/
theorem catalog_foldl (items : List (ℤ × ℚ)) (existing : Dict ℤ Channel) :
    ((items.foldl (fun (existing : Dict ℤ Channel) e =>
      match existing.get? e.1 with
      | some ch => existing.set e.1 { ch with channelNumber := some e.2 }
      | none => existing) existing).get? c).map (·.channelNumber) =
      match lastNumber c (items.map fun e => (e.1, some e.2)) with
      | some n => ((existing.get? c).map (·.channelNumber)).map fun _ => n
      | none => (existing.get? c).map (·.channelNumber) := by
  induction items using List.reverseRecOn with
  | nil => rfl
  | append_singleton items e ih =>
    rw [List.foldl_append, List.foldl_cons, List.foldl_nil, List.map_append, List.map_singleton,
      lastNumber_concat]
    generalize items.foldl _ existing = now at ih
    by_cases hc : e.1 = c
    · subst hc
      rw [if_pos rfl]
      have hsome := congrArg Option.isSome ih
      cases hnow : now.get? e.1 with
      | none =>
        rw [hnow] at hsome
        cases hexisting : existing.get? e.1 with
        | none => simp [hnow]
        | some ch =>
          rw [hexisting] at hsome
          revert hsome
          split <;> simp
      | some ch =>
        rw [hnow] at hsome
        cases hexisting : existing.get? e.1 with
        | none =>
          rw [hexisting] at hsome
          revert hsome
          split <;> simp
        | some ch' => simp
    · rw [if_neg hc, ← ih]
      split
      · rw [Dict.get?_set_ne _ _ hc]
      · rfl

/-- The catalog after a PATCH. -/
def patchedCatalog (existing : Dict ℤ Channel) (x : ℤ) (data : ChannelPatch) : Dict ℤ Channel :=
  match existing.get? x with
  | some ch => existing.set x (ch.patch data)
  | none => existing

theorem get?_patchedCatalog (existing : Dict ℤ Channel) (x y : ℤ) (data : ChannelPatch) :
    (patchedCatalog existing x data).get? y =
      if x = y then (existing.get? y).map (·.patch data) else existing.get? y := by
  unfold patchedCatalog
  split
  · rename_i ch hch
    rw [Dict.get?_set]
    split
    · rename_i hxy
      subst hxy
      rw [hch]
      rfl
    · rfl
  · rename_i hnone
    split
    · rename_i hxy
      subst hxy
      rw [hnone]
      rfl
    · rfl

theorem isSome_catalogEntry_patch (existing : Dict ℤ Channel) (x y : ℤ) (data : ChannelPatch) :
    (((patchedCatalog existing x data).get? y).map (·.channelNumber)).isSome =
      ((existing.get? y).map (·.channelNumber)).isSome := by
  rw [get?_patchedCatalog]
  split <;> simp

theorem catalogEntry_patch_ne (existing : Dict ℤ Channel) {x y : ℤ} (data : ChannelPatch)
    (hne : x ≠ y) :
    ((patchedCatalog existing x data).get? y).map (·.channelNumber) =
      (existing.get? y).map (·.channelNumber) := by
  rw [get?_patchedCatalog, if_neg hne]

theorem catalogEntry_patch_without (existing : Dict ℤ Channel) (x y : ℤ) {data : ChannelPatch}
    (hdata : data.channelNumber = none) :
    ((patchedCatalog existing x data).get? y).map (·.channelNumber) =
      (existing.get? y).map (·.channelNumber) := by
  rw [get?_patchedCatalog]
  split
  · cases existing.get? y <;> simp [hdata]
  · rfl

theorem resolveId_congr {σ : Type} {s s' : Exec σ}
    (h : s'.result.tempIdMap = s.result.tempIdMap) (x : ℤ) : s'.resolveId x = s.resolveId x := by
  unfold Exec.resolveId
  rw [h]

theorem numbersSet_updateChannel {σ : Type} {s s' : Exec σ} {op : BulkUpdateChannelOp}
    (h : s'.result.tempIdMap = s.result.tempIdMap) {n : Option ℚ}
    (hn : op.data.channelNumber = some n) :
    numbersSet s' (.updateChannel op) = [(s.resolveId op.channelId, n)] := by
  simp only [numbersSet, intendedNumbers, hn, resolveId_congr h, Option.toList_some,
    List.map_cons, List.map_nil]

theorem guarded_some {α : Type} {work : Call Dispatcharr α} {d : Dispatcharr} {e : String}
    (h : fails d.calls = some e) :
    guarded fails work d = (.error e, { d with calls := d.calls + 1 }) := by
  unfold guarded
  rw [h]

theorem guarded_none {α : Type} {work : Call Dispatcharr α} {d : Dispatcharr}
    (h : fails d.calls = none) : guarded fails work d = work { d with calls := d.calls + 1 } := by
  unfold guarded
  rw [h]

variable (fails rowsRead) in
theorem updateChannel_answer (x : ℤ) (data : ChannelPatch) (d : Dispatcharr) :
    (∃ e, (dispatcharr fails rowsRead).updateChannel x data d =
        (.error e, { d with calls := d.calls + 1 })) ∨
      (d.channel? x).isSome ∧ (dispatcharr fails rowsRead).updateChannel x data d =
        (.ok (), ({ d with calls := d.calls + 1 } : Dispatcharr).mapChannel x (·.patch data)) := by
  simp only [dispatcharr]
  cases hfails : fails d.calls with
  | some e => exact .inl ⟨e, guarded_some hfails⟩
  | none =>
    rw [guarded_none hfails]
    have hcall : ({ d with calls := d.calls + 1 } : Dispatcharr).channel? x = d.channel? x := rfl
    rw [hcall]
    cases hch : d.channel? x with
    | none => exact .inl ⟨notFound, rfl⟩
    | some ch => exact .inr ⟨rfl, rfl⟩

variable (fails rowsRead) in
theorem assignChannelNumbers_answer (xs : List ℤ) (start : Option ℚ) (d : Dispatcharr) :
    (∃ e, (dispatcharr fails rowsRead).assignChannelNumbers xs start d =
        (.error e, { d with calls := d.calls + 1 })) ∨
      (∀ x ∈ xs, (d.channel? x).isSome) ∧
        (dispatcharr fails rowsRead).assignChannelNumbers xs start d =
          (.ok (), (xs.zipIdx.map fun e => (e.1, start.getD 1 + (e.2 : ℚ))).foldl
            Dispatcharr.setNumber { d with calls := d.calls + 1 }) := by
  simp only [dispatcharr]
  cases hfails : fails d.calls with
  | some e => exact .inl ⟨e, guarded_some hfails⟩
  | none =>
    rw [guarded_none hfails]
    by_cases hall : xs.all (fun x => (d.channel? x).isSome) = true
    · exact .inr ⟨List.all_eq_true.mp hall, if_pos hall⟩
    · exact .inl ⟨notFound, if_neg hall⟩

variable (fails rowsRead) in
theorem createChannel_answer (new : NewChannel) (d : Dispatcharr) :
    (∃ e, (dispatcharr fails rowsRead).createChannel new d =
        (.error e, { d with calls := d.calls + 1 })) ∨
      (dispatcharr fails rowsRead).createChannel new d =
        (.ok (some (d.newChannel new)), { d with
          calls := d.calls + 1
          channels := d.channels ++ [d.newChannel new]
          nextId := d.nextId + 1 }) := by
  simp only [dispatcharr]
  cases hfails : fails d.calls with
  | some e => exact .inl ⟨e, guarded_some hfails⟩
  | none => exact .inr (guarded_none hfails)

variable (hctx : ctx.up = dispatcharr fails rowsRead)

include hctx

/-- `updateChannel` sets the number its payload carries. -/
theorem wp_updateChannel (op : BulkUpdateChannelOp) (s : Exec Dispatcharr) :
    (executeUpdateChannel ctx op).wp (fun _ s' => Handled c (.updateChannel op) s s')
      (fun _ s' => Same c s s') s := by
  have hrefl : Same c s s := Std.Refl.refl s
  unfold executeUpdateChannel
  rw [wp_bind, wp_get, wp_bind]
  apply wp_rejectUnresolvedChannel _ _ _ (fun _ => hrefl)
  have hgroup : ∀ g label, Moves (· = ·)
      (rejectUnresolvedGroup g label : Eff (Exec Dispatcharr) (Option ℤ)) :=
    fun g label => moves_rejectUnresolvedGroup g label
  refine (hgroup _ _).wp_bind (fun _ s₁ hs₁ => ?_) (fun _ _ h => h ▸ hrefl)
  subst hs₁
  have hexpected : Moves (· = ·) (checkExpectedNumber ctx op (s.resolveId op.channelId)) :=
    moves_checkExpectedNumber op _
  refine hexpected.wp_bind (fun _ s₁ hs₁ => ?_) (fun _ _ h => h ▸ hrefl)
  subst hs₁
  rw [wp_bind, wp_write, hctx]
  generalize hx : s.resolveId op.channelId = x
  rcases updateChannel_answer fails rowsRead x op.data s.up with
    ⟨e, hanswer⟩ | ⟨hexists, hanswer⟩
  · rw [hanswer]
    exact ⟨⟨le_refl _, .inl rfl⟩, rfl, rfl, rfl, rfl⟩
  · rw [hanswer]
    dsimp only
    split
    · rename_i n hn
      rw [wp_bind, wp_modify, wp_bind, wp_recordPersisted (JournalRowSpec.stated_rowIf _ _), wp_modify]
      have hset : ∀ s' : Exec Dispatcharr, s'.result.tempIdMap = s.result.tempIdMap →
          lastNumber c (numbersSet s' (.updateChannel op)) = if x = c then some n else none := by
        intro s' hmap
        rw [numbersSet_updateChannel hmap hn, hx, lastNumber_singleton]
      by_cases hxc : x = c
      · subst hxc
        refine .numbered n (by simp [BulkOperation.renumbers, hn]) ?_ ?_
        · exact (hset _ rfl).trans (if_pos rfl)
        · exact
            { existed := by
                obtain ⟨ch, hch⟩ := Option.isSome_iff_exists.mp hexists
                simp [Dispatcharr.number?, hch]
              number := Dispatcharr.number?_patch _ hn hexists
              nextId := rfl
              known := (isSome_catalogEntry_patch s.existingChannels x x op.data)
              log := rfl
              noted := .inl ⟨n, by simp [lastLanded_recordLanded], fun _ => rfl, by
                rw [firstBefore_recordLanded, if_pos rfl]
                rfl⟩ }
      · refine .quiet ⟨⟨le_refl _, .inl ?_⟩, ?_, ?_, ?_, rfl⟩ ?_
        · exact Dispatcharr.number?_mapChannel_ne _ _ (fun _ => rfl) (Ne.symm hxc)
        · exact catalogEntry_patch_ne s.existingChannels op.data hxc
        · exact (lastLanded_recordLanded _ _ _ _ _).trans (if_neg hxc)
        · exact (firstBefore_recordLanded _ _ _ _ _ _).trans (if_neg hxc)
        · exact (hset _ rfl).trans (if_neg hxc)
    · rename_i hn
      rw [wp_bind, wp_recordPersisted (JournalRowSpec.stated_rowIf _ _), wp_modify]
      refine .quiet ⟨⟨le_refl _, .inl ?_⟩, ?_, rfl, rfl, rfl⟩ ?_
      · exact Dispatcharr.number?_patch_without _ x c hn
      · exact catalogEntry_patch_without s.existingChannels x c hn
      · simp [numbersSet, intendedNumbers, hn]

omit hctx in
theorem numbersSet_assignNumbers {σ : Type} {s s' : Exec σ} (op : BulkAssignNumbersOp)
    (h : s'.result.tempIdMap = s.result.tempIdMap) :
    numbersSet s' (.bulkAssignChannelNumbers op) =
      handedOut op.start (op.channelIds.map s.resolveId) := by
  simp only [numbersSet, intendedNumbers, handedOut, List.zipIdx_map, List.map_map, resolveId_congr h]
  rfl

/-- `bulkAssignChannelNumbers` sets the number each of its positions hands out. -/
theorem wp_assignNumbers (op : BulkAssignNumbersOp) (s : Exec Dispatcharr) :
    (executeAssignNumbers ctx op).wp (fun _ s' => Handled c (.bulkAssignChannelNumbers op) s s')
      (fun _ s' => Same c s s') s := by
  have hrefl : Same c s s := Std.Refl.refl s
  unfold executeAssignNumbers
  rw [wp_bind]
  refine wp_resolveChannels _ (fun _ => hrefl) _ ?_
  rw [wp_bind, wp_get, wp_bind, wp_write, hctx]
  have hset : ∀ s' : Exec Dispatcharr, s'.result.tempIdMap = s.result.tempIdMap →
      lastNumber c (numbersSet s' (.bulkAssignChannelNumbers op)) =
        lastNumber c (handedOut op.start (op.channelIds.map s.resolveId)) := by
    intro s' hmap
    rw [numbersSet_assignNumbers op hmap]
  generalize op.channelIds.map s.resolveId = ids at hset
  rcases assignChannelNumbers_answer fails rowsRead ids op.startingNumber
    s.up with ⟨e, hanswer⟩ | ⟨hexist, hanswer⟩
  · rw [hanswer]
    exact ⟨⟨le_refl _, .inl rfl⟩, rfl, rfl, rfl, rfl⟩
  · rw [hanswer]
    have hstated : (if assignedRows s ids op.start = [] then JournalRowSpec.nothingToJournal
        else .rows (assignedRows s ids op.start)).Stated := by
      split
      · intro h
        cases h
      · rename_i hne
        intro h
        injection h with hnil
        exact hne hnil
    dsimp only
    rw [wp_bind, wp_modify, wp_bind, wp_recordPersisted hstated, wp_modify]
    have hnumber := number?_assigned (c := c) ids op.start { s.up with calls := s.up.calls + 1 }
    have hspec := renumberedBy_get? (c := c) s ids op.start
    have hitems := lastNumber_items (c := c) (renumberedBy s ids op.start)
    have hlanded := lastLanded_foldl_recordLanded (c := c) s (renumberedBy s ids op.start).items
      s.compensator
    have hfirst := firstBefore_foldl_recordLanded (c := c) s (renumberedBy s ids op.start).items
      s.compensator
    have hcatalog := catalog_foldl (c := c) (renumberedBy s ids op.start).items s.existingChannels
    rw [hitems] at hlanded hfirst hcatalog
    cases hlast : lastNumber c (handedOut op.start ids) with
    | none =>
      -- the range does not name the channel
      have hnone : (renumberedBy s ids op.start).get? c = none := by
        cases hget : (renumberedBy s ids op.start).get? c with
        | none => rfl
        | some v =>
          rw [hget, hlast] at hspec
          cases hspec.1
      rw [hnone] at hlanded hfirst hcatalog
      rw [hlast] at hnumber
      refine .quiet ⟨⟨(nextId_foldl_setNumber _ _).ge, .inl hnumber⟩, hcatalog, hlanded, hfirst,
        rfl⟩ ?_
      exact (hset _ rfl).trans hlast
    | some n =>
      rw [hlast] at hnumber
      have hmem : c ∈ ids := by
        obtain ⟨e, he, hen⟩ := List.mem_map.mp (mem_of_lastNumber hlast)
        rw [Prod.mk.injEq] at hen
        rw [← hen.1]
        exact List.fst_mem_of_mem_zipIdx he
      obtain ⟨ch, hch⟩ := Option.isSome_iff_exists.mp (hexist c hmem)
      have hthere : s.up.number? c = some ch.channelNumber := by simp [Dispatcharr.number?, hch]
      have hthere' : ({ s.up with calls := s.up.calls + 1 } : Dispatcharr).number? c =
          some ch.channelNumber := hthere
      rw [hthere'] at hnumber
      refine .numbered n rfl ((hset _ rfl).trans hlast) ?_
      have hknown : ∀ x : Option (Option ℚ), (match x with
          | some n => (s.catalogEntry c).map fun _ => n
          | none => s.catalogEntry c).isSome = (s.catalogEntry c).isSome := by
        intro x
        cases x <;> simp
      refine
        { existed := by rw [hthere]; exact Option.some_ne_none _
          number := hnumber
          nextId := nextId_foldl_setNumber _ _
          known := (congrArg Option.isSome hcatalog).trans (hknown _)
          log := rfl
          noted := ?_ }
      cases hget : (renumberedBy s ids op.start).get? c with
      | none =>
        rw [hget] at hlanded hfirst hcatalog
        right
        have hskipped : s.catalogNumber c = n ∧ n.isSome := by
          rw [hget, hlast] at hspec
          rcases hspec with hno | ⟨q, hq, hthere⟩
          · cases hno
          · rw [Option.some.injEq] at hq
            exact ⟨hthere.trans hq.symm, by simp [hq]⟩
        refine ⟨hlanded, hfirst, hcatalog, ?_⟩
        have hentry := s.catalogNumber_eq c
        rw [hskipped.1] at hentry
        cases hcat : s.catalogEntry c with
        | none =>
          rw [hcat] at hentry
          rw [hentry] at hskipped
          cases hskipped.2
        | some m =>
          rw [hcat] at hentry
          rw [hentry]
          rfl
      | some v =>
        rw [hget] at hlanded hfirst
        left
        refine ⟨some v, hlanded, ?_, hfirst⟩
        intro hunknown
        have hnone : s.catalogNumber c = none := by
          rw [s.catalogNumber_eq, hunknown]
          rfl
        rw [hget, hlast] at hspec
        exact (Option.some.inj (hspec.2 hnone)).symm

/-- `createChannel` puts a new channel on its number. -/
theorem wp_createChannel (op : BulkCreateChannelOp) (s : Exec Dispatcharr)
    (hfresh : s.up.nextId ≤ c → s.up.number? c = none) :
    (executeCreateChannel ctx op).wp (fun _ s' => Handled c (.createChannel op) s s')
      (fun _ s' => Same c s s') s := by
  have htrans : ∀ {a b d : Exec Dispatcharr}, Same c a b → Same c b d → Same c a d :=
    fun h h' => IsTrans.trans _ _ _ h h'
  unfold executeCreateChannel
  rw [wp_bind, wp_get]
  have hgroup : ∀ g label, Moves (Same c)
      (rejectUnresolvedGroup g label : Eff (Exec Dispatcharr) (Option ℤ)) :=
    fun g label => moves_rejectUnresolvedGroup g label
  refine (hgroup _ _).wp_bind (fun g s₁ h₁ => ?_) (fun _ _ h => h)
  refine (calm_normalizedName hctx op).wp_bind (fun named s₂ h₂ => ?_) (fun _ _ h => htrans h₁ h)
  refine (calm_createLogoId hctx op named.1).wp_bind (fun logo s₃ h₃ => ?_)
    (fun _ _ h => htrans h₁ (htrans h₂ h))
  have hsame : Same c s s₃ := htrans h₁ (htrans h₂ h₃)
  rw [wp_bind, wp_write, hctx]
  generalize hnew : NewChannel.mk named.1 op.channelNumber g logo op.tvgId op.tvcGuideStationId = new
  have hnumberNew : new.channelNumber = op.channelNumber := by rw [← hnew]
  rcases createChannel_answer fails rowsRead new s₃.up with
    ⟨e, hanswer⟩ | hanswer
  · rw [hanswer]
    exact htrans hsame ⟨⟨le_refl _, .inl rfl⟩, rfl, rfl, rfl, rfl⟩
  · rw [hanswer]
    dsimp only
    rw [wp_bind, wp_recordPersisted (JournalRowSpec.stated_singleton _), wp_bind, wp_modify,
      wp_modify]
    have hset : ∀ s' : Exec Dispatcharr,
        s'.result.tempIdMap.get? op.tempId = some s₃.up.nextId →
        lastNumber c (numbersSet s' (.createChannel op)) =
          if s₃.up.nextId = c then some op.channelNumber else none := by
      intro s' hmap
      simp only [numbersSet, Exec.resolveId, hmap, Option.getD_some, lastNumber_singleton]
    by_cases hc : s₃.up.nextId = c
    · have hgone : s₃.up.number? c = none := by
        have hbefore := hfresh (hsame.store.nextId.trans hc.le)
        rcases hsame.store.number with hn | hn
        · rw [hn, hbefore]
        · exact hn
      refine .created op.channelNumber (hsame.store.nextId.trans hc.le) ?_ ?_ ?_ hsame.landed
        hsame.log
      · rw [← hc]
        exact Int.lt_succ _
      · have hfind : s₃.up.channel? c = none := Option.map_eq_none_iff.mp hgone
        unfold Dispatcharr.number? Dispatcharr.channel? at *
        simp [hfind, Dispatcharr.newChannel, hc, hnumberNew]
      · exact (hset _ (Dict.get?_set_self _ _ _)).trans (if_pos hc)
    · refine .quiet (htrans hsame ⟨⟨Int.le.intro 1 rfl, .inl ?_⟩, ?_, rfl, rfl, rfl⟩) ?_
      · exact Dispatcharr.number?_concat s₃.up (s₃.up.newChannel new) (s₃.up.nextId + 1) c hc
      · have hkept : (s₃.existingChannels.set s₃.up.nextId (s₃.up.newChannel new)).get? c =
            s₃.existingChannels.get? c := Dict.get?_set_ne _ _ hc
        exact congrArg (fun entry : Option Channel => entry.map fun ch => ch.channelNumber) hkept
      · exact (hset _ (Dict.get?_set_self _ _ _)).trans (if_neg hc)

/-- What executing an operation does to channel `c`; an operation that raises leaves its number. -/
theorem wp_executeOperation (op : BulkOperation) (s : Exec Dispatcharr)
    (hfresh : s.up.nextId ≤ c → s.up.number? c = none) :
    (executeOperation ctx op).wp (fun _ s' => Handled c op s s') (fun _ s' => Same c s s') s := by
  have hquiet : ∀ {x : Eff (Exec Dispatcharr) Unit}, Moves (Same c) x →
      (∀ s', lastNumber c (numbersSet s' op) = none) →
      x.wp (fun _ s' => Handled c op s s') (fun _ s' => Same c s s') s :=
    fun hx hset => wp_mono (hx s) (fun _ s' h => .quiet h (hset s')) (fun _ _ h => h)
  cases op with
  | updateChannel op => exact wp_updateChannel hctx op s
  | addStreamToChannel x y => exact hquiet (calm_addStream hctx x y) fun _ => rfl
  | removeStreamFromChannel x y => exact hquiet (calm_removeStream hctx x y) fun _ => rfl
  | reorderChannelStreams x ys => exact hquiet (calm_reorderStreams hctx x ys) fun _ => rfl
  | bulkAssignChannelNumbers op => exact wp_assignNumbers hctx op s
  | createChannel op => exact wp_createChannel hctx op s hfresh
  | deleteChannel x => exact hquiet (calm_deleteChannel hctx x) fun _ => rfl
  | createGroup name => exact hquiet (calm_createGroup hctx name) fun _ => rfl
  | deleteChannelGroup g => exact hquiet (calm_deleteChannelGroup hctx g) fun _ => rfl
  | renameChannelGroup g name => exact hquiet (calm_renameChannelGroup hctx g name) fun _ => rfl
  | setProfileMembership p x enabled =>
    exact hquiet (calm_setProfileMembership hctx p x enabled) fun _ => rfl
  | restoreChannelGroup g => exact hquiet (calm_restoreChannelGroup hctx g) fun _ => rfl
  | clearStreamStats xs => exact hquiet (calm_clearStreamStats hctx xs) fun _ => rfl

end Setters

end ChannelManager
