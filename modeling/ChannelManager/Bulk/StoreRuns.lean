import ChannelManager.Bulk.StoreBranches

/-!
# Phase 2, on the store

On a Dispatcharr whose every call goes through, the loop leaves what its operations come to in the
store, one after the other in the order they are executed, and its counters count those the store
admits and those it does not.
-/

namespace ChannelManager

/-- What a list of attempts comes to. -/
structure Tally where
  store : CommitStore
  applied : ℕ := 0
  failed : ℕ := 0

/-- The operations one after the other, each with the id the next group would get. One that is
refused ends the run, or is passed over. -/
def CommitStore.attemptAll (ctx : LandingContext) (continueOnError : Bool) :
    CommitStore → List (BulkOperation × ℤ) → Tally
  | s, [] => { store := s }
  | s, e :: es =>
    if s.Admits ctx e.1 then
      let rest := attemptAll ctx continueOnError ((s.reserve e.2).landed ctx e.1) es
      { rest with applied := rest.applied + 1 }
    else if continueOnError then
      let rest := attemptAll ctx continueOnError (s.raised e.1) es
      { rest with failed := rest.failed + 1 }
    else { store := s.raised e.1, failed := 1 }

open Eff

variable {floor : ℤ} {ctx : BulkContext Dispatcharr} {rowsRead : ℕ → ℕ} {s : CommitStore}
variable {x : Exec Dispatcharr}

/-- No check of the store looks at a logo. -/
theorem CommitStore.admits_landing (op : BulkOperation) (f f' : String → Option ℤ) :
    s.Admits (ctx.landing f) op ↔ s.Admits (ctx.landing f') op := by
  cases op <;> exact Iff.rfl

/-- An attempt that went through. -/
structure Succeeded (ctx : BulkContext Dispatcharr) (floor : ℤ) (s : CommitStore)
    (op : BulkOperation) (x x' : Exec Dispatcharr) : Prop extends Carried ctx floor s op x x' where
  applied : x'.ledger.applied = x.ledger.applied + 1
  failed : x'.ledger.failed = x.ledger.failed

/-- An attempt that was entered as failed. -/
structure Failed (ctx : BulkContext Dispatcharr) (floor : ℤ) (s : CommitStore)
    (op : BulkOperation) (x x' : Exec Dispatcharr) : Prop where
  refused : ¬s.Admits (ctx.landing fun _ => none) op
  grows : IndexGrows x.logoIndex x'.logoIndex
  stands : Stands floor x'.ground (s.raised op)
  applied : x'.ledger.applied = x.ledger.applied
  failed : x'.ledger.failed = x.ledger.failed + 1

theorem ground_noteUnwrittenNumbers (op : BulkOperation) (x : Exec Dispatcharr) :
    (noteUnwrittenNumbers op x).ground = x.ground ∧
      (noteUnwrittenNumbers op x).logoIndex = x.logoIndex ∧
      (noteUnwrittenNumbers op x).ledger = x.ledger := by
  unfold noteUnwrittenNumbers
  split <;> exact ⟨rfl, rfl, rfl⟩

/-- One iteration of the loop. -/
theorem attemptOperation_lands (hup : ctx.up = dispatcharr (fun _ => none) rowsRead)
    (hstart : ∀ c ∈ ctx.numbersAtRunStart, 0 ≤ c ∧ c < floor) {e : IndexedOp}
    (h : Stands floor x.ground s) (hbalanced : Balanced x.account) (hknown : e.2.Known floor s) :
    (attemptOperation ctx e).wp
      (fun goOn x' => (goOn = true ∧ Succeeded ctx floor s e.2 x x') ∨
        (goOn = ctx.continueOnError ∧ Failed ctx floor s e.2 x x'))
      (fun _ _ => False) x := by
  have hbegin : x.ledger.begin = .ok (openedOn x.account).ledger := by
    have hclosed : x.ledger.isOpen = false := hbalanced.closed
    simp only [OperationLedger.begin, hclosed, Bool.false_eq_true, if_false]
    rfl
  unfold attemptOperation
  rw [wp_bind, wp_modify, wp_bind, wp_tellLedger]
  rw [show ({ x with numberingLanded := false } : Exec Dispatcharr).ledger.begin = _ from hbegin]
  dsimp only
  rw [wp_bind, wp_note, wp_tryCatch, wp_bind]
  let opened : Exec Dispatcharr :=
    { x with
      numberingLanded := false
      ledger := (openedOn x.account).ledger
      trace := x.trace ++ [.opened] }
  have hbooks : (executeOperation ctx e.2).wp _ _ opened :=
    branch_executeOperation ctx e.2 opened (unwritten_openedOn x.account)
  have hstore := executeOperation_lands (x := opened) hup hstart h hknown rfl
  apply wp_mono (wp_and hbooks hstore)
  · rintro _ x₁ ⟨htold, hcarried⟩
    have hledger := htold.recordApplied_eq htold.told false
    rw [wp_bind, wp_tellLedger, show x₁.ledger.recordApplied = _ from hledger]
    exact .inl ⟨rfl, ⟨hcarried.admitted, hcarried.grows, hcarried.stands⟩, rfl, rfl⟩
  · rintro error x₁ ⟨hwithin, hrefused⟩
    obtain ⟨hground, hindex, hsame⟩ := ground_noteUnwrittenNumbers e.2 x₁
    have hledger := hwithin.recordFailed_eq
    have hpersisted : x₁.ledger.persisted = false := hrefused.untold
    unfold handleFailure closeRaised
    rw [wp_bind, wp_bind, wp_modify, wp_bind, wp_get, hsame, hpersisted, if_neg Bool.false_ne_true,
      wp_bind, wp_tellLedger, hsame, show x₁.ledger.recordFailed = _ from hledger]
    dsimp only
    rw [wp_bind, wp_note, wp_modify]
    cases hgo : ctx.continueOnError <;>
      exact .inr ⟨rfl, hrefused.refused, hindex ▸ hrefused.grows, hground ▸ hrefused.stands, rfl, rfl⟩

/-- The operations name channels by ids from before the run or by temporary ones, and make no two
under one temporary id. -/
structure KnownAll (floor : ℤ) (s : CommitStore) (ops : List BulkOperation) : Prop where
  named : ∀ op ∈ ops, ∀ c ∈ op.referencedChannelIds, c < floor
  fresh : ∀ t ∈ channelsToCreate ops, t ∉ s.created
  nodup : (channelsToCreate ops).Nodup

theorem channelsToCreate_cons (op : BulkOperation) (ops : List BulkOperation) :
    channelsToCreate (op :: ops) = op.createdTempId?.toList ++ channelsToCreate ops := by
  cases hop : op.createdTempId? <;> simp [channelsToCreate, hop]

theorem KnownAll.head {op : BulkOperation} {ops : List BulkOperation}
    (h : KnownAll floor s (op :: ops)) : op.Known floor s where
  named := h.named op (by simp)
  fresh t ht := h.fresh t (by simp [channelsToCreate_cons, Option.mem_def.mp ht])

theorem KnownAll.tail {op : BulkOperation} {ops : List BulkOperation} {t : CommitStore}
    (h : KnownAll floor s (op :: ops))
    (hcreated : ∀ c ∈ t.created, c ∈ s.created ∨ c ∈ op.createdTempId?) :
    KnownAll floor t ops where
  named op' hop' := h.named op' (List.mem_cons_of_mem op hop')
  fresh c hc hin := by
    have hnodup := h.nodup
    rw [channelsToCreate_cons, List.nodup_append] at hnodup
    rcases hcreated c hin with hold | hnew
    · exact h.fresh c (by simp [channelsToCreate_cons, hc]) hold
    · exact hnodup.2.2 c (by simpa using hnew) c hc rfl
  nodup := by
    have hnodup := h.nodup
    rw [channelsToCreate_cons, List.nodup_append] at hnodup
    exact hnodup.2.1

/-- What a stretch of the loop has come to. -/
structure Attempts (ctx : BulkContext Dispatcharr) (floor : ℤ) (s : CommitStore)
    (ops : List BulkOperation) (x x' : Exec Dispatcharr) (ids : List ℤ) : Prop where
  length : ids.length = ops.length
  grows : IndexGrows x.logoIndex x'.logoIndex
  tally : ∀ logoId, Indexes logoId x'.logoIndex →
    let tally := s.attemptAll (ctx.landing logoId) ctx.continueOnError (ops.zip ids)
    Stands floor x'.ground tally.store ∧ x'.ledger.applied = x.ledger.applied + tally.applied ∧
      x'.ledger.failed = x.ledger.failed + tally.failed

theorem created_raised (op : BulkOperation) : (s.raised op).created = s.created := by
  cases op with
  | deleteChannelGroup g =>
    simp only [CommitStore.raised]
    split <;> rfl
  | _ => rfl

/-- After an operation that landed. -/
theorem Attempts.landed {op : BulkOperation} {ops : List BulkOperation} {x₁ x₂ : Exec Dispatcharr}
    {t : CommitStore} {ids : List ℤ} (hdone : Succeeded ctx floor s op x x₁)
    (hall : ∀ logoId, Indexes logoId x₁.logoIndex →
      (s.reserve x.up.nextId).landed (ctx.landing logoId) op = t)
    (hrest : Attempts ctx floor t ops x₁ x₂ ids) :
    Attempts ctx floor s (op :: ops) x x₂ (x.up.nextId :: ids) where
  length := by simp [hrest.length]
  grows := hdone.grows.trans hrest.grows
  tally logoId hindexes := by
    have hadmits := (CommitStore.admits_landing op _ logoId).mp hdone.admitted
    have hrest := hrest.tally logoId hindexes
    rw [← hall logoId (hindexes.of_grows ‹Attempts ctx floor t ops x₁ x₂ ids›.grows)] at hrest
    rw [List.zip_cons_cons, CommitStore.attemptAll, if_pos hadmits]
    have happlied := hdone.applied
    have hfailed := hdone.failed
    dsimp only
    exact ⟨hrest.1, by omega, by omega⟩

/-- After an operation that was passed over. -/
theorem Attempts.passed {op : BulkOperation} {ops : List BulkOperation} {x₁ x₂ : Exec Dispatcharr}
    {ids : List ℤ} (hgo : ctx.continueOnError = true) (hfailed : Failed ctx floor s op x x₁)
    (hrest : Attempts ctx floor (s.raised op) ops x₁ x₂ ids) :
    Attempts ctx floor s (op :: ops) x x₂ (x.up.nextId :: ids) where
  length := by simp [hrest.length]
  grows := hfailed.grows.trans hrest.grows
  tally logoId hindexes := by
    have hrefused := mt (CommitStore.admits_landing op logoId _).mp hfailed.refused
    have hrest := hrest.tally logoId hindexes
    rw [List.zip_cons_cons, CommitStore.attemptAll, if_neg hrefused, if_pos hgo]
    have happlied := hfailed.applied
    have hcount := hfailed.failed
    dsimp only
    exact ⟨hrest.1, by omega, by omega⟩

/-- An operation that ended the run. -/
theorem Attempts.stopped {op : BulkOperation} {ops : List BulkOperation} {x₁ : Exec Dispatcharr}
    (hstop : ctx.continueOnError = false) (hfailed : Failed ctx floor s op x x₁) :
    Attempts ctx floor s (op :: ops) x x₁ (x.up.nextId :: ops.map fun _ => x.up.nextId) where
  length := by simp
  grows := hfailed.grows
  tally logoId _ := by
    have hrefused := mt (CommitStore.admits_landing op logoId _).mp hfailed.refused
    rw [List.zip_cons_cons, CommitStore.attemptAll, if_neg hrefused, hstop]
    exact ⟨hfailed.stands, hfailed.applied, hfailed.failed⟩

/-- The loop, over any list of known operations. -/
theorem eachUntil_lands (hup : ctx.up = dispatcharr (fun _ => none) rowsRead)
    (hstart : ∀ c ∈ ctx.numbersAtRunStart, 0 ≤ c ∧ c < floor) (es : List IndexedOp)
    (h : Stands floor x.ground s) (hbalanced : Balanced x.account)
    (hknown : KnownAll floor s (es.map Prod.snd)) :
    (eachUntil (attemptOperation ctx) es).wp
      (fun _ x' => ∃ ids, Attempts ctx floor s (es.map Prod.snd) x x' ids)
      (fun _ _ => False) x := by
  induction es generalizing x s with
  | nil => exact ⟨[], rfl, IndexGrows.refl _, fun _ _ => ⟨h, rfl, rfl⟩⟩
  | cons e es ih =>
    rw [eachUntil, wp_bind]
    have hstep := wp_and (wp_attemptOperation ctx e hbalanced)
      (attemptOperation_lands hup hstart h hbalanced hknown.head)
    apply wp_mono hstep _ fun _ _ h => h.1
    rintro goOn x₁ ⟨hbooks, hattempt⟩
    have hbalanced₁ : goOn = true → Balanced x₁.account := fun hgo => by
      rw [if_pos hgo] at hbooks
      exact hbooks.toBalanced
    rcases hattempt with ⟨rfl, hdone⟩ | ⟨hgo, hfailed⟩
    · obtain ⟨t, hstands, hall⟩ := hdone.stands
      have hcreated : t.created = s.created ++ e.2.createdTempId?.toList := by
        rw [← hall _ (indexes_indexedBy _)]
        rfl
      have hknown₁ : KnownAll floor t (es.map Prod.snd) := hknown.tail fun c hc => by
        rw [hcreated, List.mem_append, Option.mem_toList] at hc
        exact hc
      rw [if_pos rfl]
      apply wp_mono (ih hstands (hbalanced₁ rfl) hknown₁) _ fun _ _ h => h
      rintro _ x₂ ⟨ids, hrest⟩
      exact ⟨_, .landed hdone hall hrest⟩
    · cases hcont : ctx.continueOnError with
      | true =>
        rw [hcont] at hgo
        subst hgo
        have hknown₁ : KnownAll floor (s.raised e.2) (es.map Prod.snd) := hknown.tail fun c hc =>
          .inl (created_raised e.2 ▸ hc)
        rw [if_pos rfl]
        apply wp_mono (ih hfailed.stands (hbalanced₁ rfl) hknown₁) _ fun _ _ h => h
        rintro _ x₂ ⟨ids, hrest⟩
        exact ⟨_, .passed hcont hfailed hrest⟩
      | false =>
        rw [hcont] at hgo
        subst hgo
        exact ⟨_, .stopped hcont hfailed⟩

/-! ## From a state that Phase 2 starts in -/

/-- Dispatcharr under its own ids, before any channel has been made. -/
def Ground.store (g : Ground) : CommitStore where
  channels := channelsById g.up.channels
  around :=
    { groups := g.up.groups
      nextGroupId := g.up.nextId
      groupIdMap := g.groupIdMap
      memberships := g.up.memberships
      hiddenGroups := g.up.hiddenGroups
      streamStats := g.up.streamStats }

/-- The ids of channels lie between zero and the next one, and none has been made in the run. -/
structure Exec.Ready (x : Exec Dispatcharr) : Prop where
  stocked : x.up.Stocked
  positive : ∀ ch ∈ x.up.channels, 0 ≤ ch.id
  next : 0 ≤ x.up.nextId
  unmapped : x.result.tempIdMap = ∅
  members : ∀ k ∈ x.up.memberships, 0 ≤ k.2 ∧ k.2 < x.up.nextId

theorem get?_channelsById {d : Dispatcharr} (h : d.Stocked) (c : ℤ) :
    (channelsById d.channels).get? c = d.channel? c := by
  have hlist : channelsById d.channels = Dict.ofList (d.channels.map fun ch => (ch.id, ch)) := by
    rw [channelsById, Dict.ofList, List.foldl_map]
  have hitems : (channelsById d.channels).items = d.channels.map fun ch => (ch.id, ch) := by
    rw [hlist]
    apply Dict.items_ofList
    rw [List.map_map]
    exact h.nodup
  apply Option.ext
  intro ch
  rw [Dict.get?_eq_some, hitems, List.mem_map]
  constructor
  · rintro ⟨ch', hch', heq⟩
    obtain ⟨rfl, rfl⟩ := Prod.mk.inj heq
    exact h.channel?_of_mem hch'
  · intro hfound
    exact ⟨ch, List.mem_of_find?_eq_some hfound, by rw [Dispatcharr.id_of_channel? hfound]⟩

theorem Exec.Ready.stands (h : x.Ready) : Stands x.up.nextId x.ground x.ground.store := by
  have hresolve : ∀ c, x.ground.resolveId c = c := by
    intro c
    change (x.result.tempIdMap.get? c).getD c = c
    rw [h.unmapped]
    rfl
  have hbounds : ∀ ch ∈ x.up.channels, x.ground.store.Names x.up.nextId ch.id := fun ch hch =>
    .inl ⟨h.positive ch hch, h.stocked.fresh ch hch⟩
  exact {
    stocked := ⟨h.stocked.nodup, h.stocked.fresh⟩
    positive := h.positive
    floor_nonneg := h.next
    floor_le := le_rfl
    temporary := fun t ht => nomatch ht
    created := fun t => by
      change t ∈ [] ↔ t ∈ x.result.tempIdMap
      rw [h.unmapped]
      exact Iff.rfl
    made := fun t c ht => by
      change x.result.tempIdMap.get? t = some c at ht
      rw [h.unmapped] at ht
      cases ht
    distinct := fun t t' c ht => by
      change x.result.tempIdMap.get? t = some c at ht
      rw [h.unmapped] at ht
      cases ht
    channels := fun c _ => by
      rw [hresolve]
      change x.up.channel? c = (Dict.get? (channelsById x.up.channels) c).map _
      rw [get?_channelsById h.stocked]
      cases hch : x.up.channel? c with
      | none => rfl
      | some ch =>
        obtain rfl := Dispatcharr.id_of_channel? hch
        rfl
    named := fun ch hch => ⟨ch.id, hbounds ch hch, hresolve ch.id⟩
    keys := fun c hc => by
      rw [← Dict.isSome_get?] at hc
      change (Dict.get? (channelsById x.up.channels) c).isSome at hc
      rw [get?_channelsById h.stocked] at hc
      obtain ⟨ch, hch⟩ := Option.isSome_iff_exists.mp hc
      rw [← Dispatcharr.id_of_channel? hch]
      exact hbounds ch (List.mem_of_find?_eq_some hch)
    groups := rfl
    groupIds := rfl
    memberships := fun p c _ => by
      rw [hresolve]
      rfl
    noMembers := fun p c hc => by
      change x.up.nextId ≤ c at hc
      change x.up.memberships.get? (p, c) = none
      rw [Dict.get?_eq_none]
      intro hmem
      have hlt := (h.members _ hmem).2
      dsimp only at hlt
      omega
    noTempMembers := fun p t ht _ => by
      change x.up.memberships.get? (p, t) = none
      rw [Dict.get?_eq_none]
      intro hmem
      have hpos := (h.members _ hmem).1
      dsimp only at hpos
      omega
    hidden := rfl
    stats := rfl }

theorem KnownAll.perm {ops ops' : List BulkOperation} (h : KnownAll floor s ops)
    (hperm : ops'.Perm ops) : KnownAll floor s ops' where
  named op hop := h.named op (hperm.subset hop)
  fresh t ht := h.fresh t ((hperm.filterMap _).subset ht)
  nodup := (hperm.filterMap _).nodup_iff.mpr h.nodup

/-- The operations of a run in the order in which they are executed. -/
def executedOps (operations : List BulkOperation) (lineup : Dict ℤ Channel) : List BulkOperation :=
  (numberingExecutionOrder operations lineup).map Prod.snd

theorem executedOps_perm (operations : List BulkOperation) (lineup : Dict ℤ Channel) :
    (executedOps operations lineup).Perm operations := by
  have hperm := (numberingExecutionOrder_perm operations lineup).map Prod.snd
  rw [List.map_map] at hperm
  have hzip : operations.zipIdx.map (Prod.snd ∘ fun e => (e.2, e.1)) = operations :=
    List.zipIdx_map_fst 0 operations
  rwa [hzip] at hperm

/-- Phase 2 leaves Dispatcharr as its operations leave the store, and counts what the store admits
and what it refuses. -/
theorem processOperations_lands (hup : ctx.up = dispatcharr (fun _ => none) rowsRead)
    (hstart : ∀ c ∈ ctx.numbersAtRunStart, 0 ≤ c ∧ c < x.up.nextId) (hready : x.Ready)
    (hbalanced : Balanced x.account) {operations : List BulkOperation}
    (hknown : KnownAll x.up.nextId x.ground.store operations) :
    ∃ x' ids logoId, processOperations ctx operations x = (.ok (), x') ∧
      ids.length = operations.length ∧
      let tally := x.ground.store.attemptAll (ctx.landing logoId) ctx.continueOnError
        ((executedOps operations x.existingChannels).zip ids)
      Stands x.up.nextId x'.ground tally.store ∧
        x'.ledger.applied = x.ledger.applied + tally.applied ∧
        x'.ledger.failed = x.ledger.failed + tally.failed := by
  have hperm := executedOps_perm operations x.existingChannels
  have hloop := eachUntil_lands hup hstart (numberingExecutionOrder operations x.existingChannels)
    hready.stands hbalanced (hknown.perm hperm)
  obtain ⟨_, x', hrun, ids, hattempts⟩ := wp_returns hloop
  refine ⟨x', ids, indexedBy x'.logoIndex, hrun, ?_, hattempts.tally _ (indexes_indexedBy _)⟩
  rw [hattempts.length]
  exact hperm.length_eq

/-- One channel, in a group of its own beside the one members are moved to. -/
def oneChannel : Dispatcharr where
  channels := [{ id := 1, name := "News", channelGroupId := some 5, streams := [7] }]
  groups := [⟨5, "News"⟩, ⟨6, "Default Group"⟩]
  nextId := 10

def oneChannelContext : BulkContext Dispatcharr where
  up := dispatcharr fun _ => none
  continueOnError := true
  channelsResolved := true
  streamsResolved := false
  existingStreams := ∅
  tempChannelNames := ∅
  numbersAtRunStart := ∅
  formatChannelNumber := fun _ => ""

def oneChannelRun : Exec Dispatcharr where
  up := oneChannel
  ledger := { totalOperations := 4 }
  executionStarted := true

/-- A channel is made and given a stream, a missing one is renamed, and the old group deleted. -/
def makeSports : List BulkOperation :=
  [.createChannel { tempId := -1, name := "Sports", groupId := some 5 },
    .addStreamToChannel (-1) 8,
    .updateChannel { channelId := 3, data := { name := some "Movies" } },
    .deleteChannelGroup 5]

theorem oneChannelRun_ready : oneChannelRun.Ready where
  stocked := ⟨by decide, by decide⟩
  positive := by decide
  next := by decide
  unmapped := rfl
  members := fun k hk => absurd hk List.not_mem_nil

theorem oneChannelRun_balanced : Balanced oneChannelRun.account := by
  constructor <;> first | rfl | exact .nil | simp [oneChannelRun, Exec.account]

theorem makeSports_known : KnownAll oneChannelRun.up.nextId oneChannelRun.ground.store makeSports where
  named := by decide
  fresh := by decide
  nodup := by decide

theorem processOperations_lands_makeSports : ∃ x' ids logoId,
    processOperations oneChannelContext makeSports oneChannelRun = (.ok (), x') ∧
      ids.length = 4 ∧
      let tally := oneChannelRun.ground.store.attemptAll (oneChannelContext.landing logoId) true
        ((executedOps makeSports ∅).zip ids)
      Stands 10 x'.ground tally.store ∧ x'.ledger.applied = 0 + tally.applied ∧
        x'.ledger.failed = 0 + tally.failed :=
  processOperations_lands rfl (fun _ hc => absurd hc List.not_mem_nil) oneChannelRun_ready
    oneChannelRun_balanced makeSports_known

/-- The stream goes to the channel just made, and the rename of a missing one is passed over. -/
example :
    let x' := (processOperations oneChannelContext (makeSports.take 3) oneChannelRun).2
    (x'.ledger.applied, x'.ledger.failed) = (2, 1) ∧
      x'.up.channels.map (fun ch => (ch.id, ch.streams)) = [(1, [7]), (10, [8])] := by
  decide +kernel

end ChannelManager
