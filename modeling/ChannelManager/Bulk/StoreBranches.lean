import ChannelManager.Bulk.Stands

/-!
# The branches of the executor, on the store

On a Dispatcharr whose every call goes through, each branch raises exactly when the store of the
commit does not admit the operation, and leaves what `CommitStore.landed` says.
-/

namespace ChannelManager

/-- What the store's branches read of a run's context; the ids of logos are found out on the way. -/
def BulkContext.landing (ctx : BulkContext Dispatcharr) (logoId : String → Option ℤ) :
    LandingContext where
  streamIsMissing := ctx.streamIsMissing
  channelsResolved := ctx.channelsResolved
  numbersAtRunStart := ctx.numbersAtRunStart
  resolveLogoId := logoId

/-- The next group will get this id. -/
def CommitStore.reserve (s : CommitStore) (id : ℤ) : CommitStore :=
  { s with around := { s.around with nextGroupId := id } }

/-- What a branch that raised leaves: the members of a group that could not be deleted have been
moved all the same. -/
def CommitStore.raised (s : CommitStore) : BulkOperation → CommitStore
  | .deleteChannelGroup g =>
    if s.canEmpty g then
      { s with channels := s.channels.mapValues fun _ channel =>
        { channel with channelGroupId := s.around.regrouped g channel.channelGroupId } }
    else s
  | _ => s

/-- The operation names channels by ids from before the run or by temporary ones, and makes none
under a temporary id that is taken. -/
structure BulkOperation.Known (floor : ℤ) (s : CommitStore) (op : BulkOperation) : Prop where
  named : ∀ c ∈ op.referencedChannelIds, c < floor
  fresh : ∀ t ∈ op.createdTempId?, t ∉ s.created

/-- The ids a catalog index has for its urls. -/
def Indexes (logoId : String → Option ℤ) (index : Option (Dict String (Option ℤ))) : Prop :=
  ∀ read ∈ index, ∀ url id, read.get? url = some id → logoId url = id

/-- The ids of an index. -/
def indexedBy (index : Option (Dict String (Option ℤ))) (url : String) : Option ℤ :=
  ((index.getD ∅).get? url).getD none

theorem indexes_indexedBy (index : Option (Dict String (Option ℤ))) :
    Indexes (indexedBy index) index := by
  intro read hread url id hget
  rw [Option.mem_def] at hread
  simp [indexedBy, hread, hget]

/-- An index only grows. -/
def IndexGrows (before after : Option (Dict String (Option ℤ))) : Prop :=
  ∀ read ∈ before, ∃ read' ∈ after, ∀ url id, read.get? url = some id → read'.get? url = some id

theorem IndexGrows.refl (index : Option (Dict String (Option ℤ))) : IndexGrows index index :=
  fun read hread => ⟨read, hread, fun _ _ h => h⟩

theorem IndexGrows.trans {a b c : Option (Dict String (Option ℤ))} (h : IndexGrows a b)
    (h' : IndexGrows b c) : IndexGrows a c := by
  intro read hread
  obtain ⟨read', hread', hsub⟩ := h read hread
  obtain ⟨read'', hread'', hsub'⟩ := h' read' hread'
  exact ⟨read'', hread'', fun url id hget => hsub' url id (hsub url id hget)⟩

theorem Indexes.of_grows {logoId : String → Option ℤ} {before after : Option (Dict String (Option ℤ))}
    (h : Indexes logoId after) (hgrows : IndexGrows before after) : Indexes logoId before := by
  intro read hread url id hget
  obtain ⟨read', hread', hsub⟩ := hgrows read hread
  exact h read' hread' url id (hsub url id hget)

/-- The operation has landed. -/
structure Carried (ctx : BulkContext Dispatcharr) (floor : ℤ) (s : CommitStore)
    (op : BulkOperation) (x x' : Exec Dispatcharr) : Prop where
  admitted : s.Admits (ctx.landing fun _ => none) op
  grows : IndexGrows x.logoIndex x'.logoIndex
  stands : ∃ t, Stands floor x'.ground t ∧ ∀ logoId, Indexes logoId x'.logoIndex →
    (s.reserve x.up.nextId).landed (ctx.landing logoId) op = t

/-- The operation was refused. -/
structure Refused (ctx : BulkContext Dispatcharr) (floor : ℤ) (s : CommitStore)
    (op : BulkOperation) (x x' : Exec Dispatcharr) : Prop where
  refused : ¬s.Admits (ctx.landing fun _ => none) op
  untold : x'.ledger.persisted = x.ledger.persisted
  grows : IndexGrows x.logoIndex x'.logoIndex
  stands : Stands floor x'.ground (s.raised op)

/-- Run from a state, a branch raises exactly when the store does not admit the operation, and leaves
what the store says. -/
def Lands (ctx : BulkContext Dispatcharr) (floor : ℤ) (s : CommitStore) (op : BulkOperation)
    (x : Exec Dispatcharr) (branch : Eff (Exec Dispatcharr) Unit) : Prop :=
  branch.wp (fun _ x' => Carried ctx floor s op x x') (fun _ x' => Refused ctx floor s op x x') x

section Calls

open Eff

variable {α : Type} {rowsRead : ℕ → ℕ} {x : Exec Dispatcharr} {fail : String → Exec Dispatcharr → Prop}

/-- The state after a call that changed nothing. -/
def Exec.counted (x : Exec Dispatcharr) : Exec Dispatcharr :=
  { x with up := { x.up with calls := x.up.calls + 1 } }

/-- A call by id to an upstream on which nothing raises. -/
theorem guarded_calm (work : Call Dispatcharr α) :
    guarded (fun _ => none) work x.up = work x.counted.up := rfl

theorem channel?_counted (c : ℤ) : x.counted.up.channel? c = x.up.channel? c := rfl

theorem wp_calm_getChannel {post : Channel → Exec Dispatcharr → Prop} (c : ℤ)
    (hfound : ∀ ch, x.up.channel? c = some ch → post ch x.counted)
    (hmissing : x.up.channel? c = none → ∀ e, fail e x.counted) :
    (request ((dispatcharr (fun _ => none) rowsRead).getChannel c)).wp post fail x := by
  simp only [wp_request, dispatcharr, guarded_calm, channel?_counted]
  cases hch : x.up.channel? c with
  | none => exact hmissing hch _
  | some ch => exact hfound ch hch

theorem wp_calm_updateChannel {post : Unit → Exec Dispatcharr → Prop} (c : ℤ) (data : ChannelPatch)
    (hfound : (x.up.channel? c).isSome → post () { x.counted with
      up := x.counted.up.mapChannel c (·.patch data), writes := x.writes + 1 })
    (hmissing : x.up.channel? c = none → ∀ e, fail e x.counted) :
    (write ((dispatcharr (fun _ => none) rowsRead).updateChannel c data)).wp post fail x := by
  simp only [wp_write, dispatcharr, guarded_calm, channel?_counted]
  cases hch : x.up.channel? c with
  | none => exact hmissing hch _
  | some ch => exact hfound (by rw [hch]; rfl)

theorem wp_calm_getChannelGroups {post : List ChannelGroup → Exec Dispatcharr → Prop}
    (hpost : post x.up.groups x.counted) :
    (request (dispatcharr (fun _ => none) rowsRead).getChannelGroups).wp post fail x := by
  rw [wp_request]
  exact hpost

theorem wp_calm_assignChannelNumbers {post : Unit → Exec Dispatcharr → Prop} (ids : List ℤ)
    (start : Option ℚ)
    (hfound : (∀ c ∈ ids, (x.up.channel? c).isSome) → post () { x.counted with
      up := (ids.zipIdx.map fun e => (e.1, start.getD 1 + e.2)).foldl Dispatcharr.setNumber
        x.counted.up
      writes := x.writes + 1 })
    (hmissing : (¬∀ c ∈ ids, (x.up.channel? c).isSome) → ∀ e, fail e x.counted) :
    (write ((dispatcharr (fun _ => none) rowsRead).assignChannelNumbers ids start)).wp post fail x := by
  have hiff : (ids.all fun c => (x.counted.up.channel? c).isSome) = true ↔
      ∀ c ∈ ids, (x.up.channel? c).isSome := List.all_eq_true
  simp only [wp_write, dispatcharr, guarded_calm]
  by_cases hall : ∀ c ∈ ids, (x.up.channel? c).isSome
  · rw [if_pos (hiff.mpr hall)]
    exact hfound hall
  · rw [if_neg (mt hiff.mp hall)]
    exact hmissing hall _

end Calls

section Checks

open Eff

variable {floor : ℤ} {ctx : BulkContext Dispatcharr} {s : CommitStore} {x : Exec Dispatcharr}
variable {fail : String → Exec Dispatcharr → Prop}

theorem Stands.wp_rejectUnresolvedChannel (h : Stands floor x.ground s) (c : ℤ) (label : String)
    {post : ℤ → Exec Dispatcharr → Prop} (hpost : s.resolves c → post (x.ground.resolveId c) x)
    (hfail : ¬s.resolves c → ∀ e, fail e x) :
    (rejectUnresolvedChannel (x.resolveId c) label).wp post fail x := by
  have hiff := h.resolves_iff c
  unfold rejectUnresolvedChannel
  split
  · rename_i hneg
    exact hfail (fun hc => by
      have hpos : 0 ≤ x.resolveId c := hiff.mp hc
      omega) _
  · rename_i hpos
    exact hpost (hiff.mpr (show 0 ≤ x.resolveId c by omega))

theorem Stands.wp_resolveChannels (h : Stands floor x.ground s) (label : String) (cs : List ℤ)
    {post : List ℤ → Exec Dispatcharr → Prop}
    (hpost : (∀ c ∈ cs, s.resolves c) → post (cs.map x.ground.resolveId) x)
    (hfail : (¬∀ c ∈ cs, s.resolves c) → ∀ e, fail e x) :
    (resolveChannels label cs).wp post fail x := by
  induction cs generalizing post with
  | nil => exact hpost (by simp)
  | cons c cs ih =>
    rw [resolveChannels, wp_bind, wp_get, wp_bind]
    apply h.wp_rejectUnresolvedChannel
    · intro hc
      rw [wp_bind]
      apply ih
      · intro hcs
        exact hpost fun d hd => (List.mem_cons.mp hd).elim (fun heq => heq ▸ hc) (hcs d)
      · exact fun hne => hfail fun hall => hne fun d hd => hall d (List.mem_cons_of_mem c hd)
    · exact fun hne => hfail fun hall => hne (hall c (by simp))

theorem wp_rejectUnresolvedGroup' (group : Option ℤ) (label : String)
    {post : Option ℤ → Exec Dispatcharr → Prop} (hpost : groupResolved group → post group x)
    (hfail : ¬groupResolved group → ∀ e, fail e x) :
    (rejectUnresolvedGroup group label).wp post fail x := by
  cases group with
  | none => exact hpost (by simp [groupResolved])
  | some g =>
    dsimp only [rejectUnresolvedGroup]
    split
    · rename_i hneg
      exact hfail (by simp [groupResolved]; omega) _
    · rename_i hpos
      exact hpost (by simp [groupResolved]; omega)

/-- The guard on a number speaks of the lineup from before the run, which has no created channel. -/
theorem Stands.wp_checkExpectedNumber (h : Stands floor x.ground s)
    (hstart : ∀ c ∈ ctx.numbersAtRunStart, 0 ≤ c ∧ c < floor) (op : BulkUpdateChannelOp)
    (hop : s.Names floor op.channelId) {post : Unit → Exec Dispatcharr → Prop}
    (hpost : (ctx.landing fun _ => none).expectationHolds op → post () x)
    (hfail : ¬(ctx.landing fun _ => none).expectationHolds op → ∀ e, fail e x) :
    (checkExpectedNumber ctx op (x.ground.resolveId op.channelId)).wp post fail x := by
  have hsame : ctx.numbersAtRunStart.get? (x.ground.resolveId op.channelId) =
      ctx.numbersAtRunStart.get? op.channelId := by
    rcases hop with ⟨hpos, -⟩ | hmade
    · rw [h.resolveId_of_nonneg hpos]
    · obtain ⟨c, -, hc, hle, -⟩ := h.resolveId_of_created hmade
      have hneg := h.temporary _ hmade
      have hgone : ∀ d, d < 0 ∨ floor ≤ d → ctx.numbersAtRunStart.get? d = none := by
        intro d hd
        rw [Dict.get?_eq_none]
        intro hin
        have hbounds := hstart d hin
        omega
      rw [hgone _ (.inr (hc ▸ hle)), hgone _ (.inl hneg)]
  unfold checkExpectedNumber
  split
  · rename_i expected n hexpected hnumber
    rw [hsame]
    have hiff : (ctx.landing fun _ => none).expectationHolds op = true ↔
        ctx.channelsResolved = true ∧ sameChannelNumberOrBothUnset
          ((ctx.numbersAtRunStart.get? op.channelId).getD none) expected.number = true := by
      simp [LandingContext.expectationHolds, BulkContext.landing, hexpected, hnumber]
    split
    · rename_i hres
      dsimp only
      split
      · rename_i hheld
        exact hpost (hiff.mpr ⟨hres, hheld⟩)
      · rename_i hheld
        exact hfail (fun hboth => hheld (hiff.mp hboth).2) _
    · rename_i hres
      exact hfail (fun hboth => hres (hiff.mp hboth).1) _
  · rename_i hnone
    apply hpost
    unfold LandingContext.expectationHolds
    split
    · rename_i expected n hexpected hnumber
      exact (hnone expected n hexpected hnumber).elim
    · rfl

end Checks

theorem CommitStore.landed_of_not_create {s : CommitStore} {op : BulkOperation}
    (hnone : op.createdTempId? = none) (c c' : LandingContext) :
    s.landed c op =
      { channels := (s.landed c' op).channels, around := s.around.landed op, created := s.created } := by
  cases op <;> simp_all [CommitStore.landed, BulkOperation.createdTempId?]

theorem Stands.reserve {floor : ℤ} {g : Ground} {s : CommitStore} (h : Stands floor g s) (n : ℤ) :
    Stands floor g (s.reserve n) := { h with }

section Branches

open Eff

variable {floor : ℤ} {ctx : BulkContext Dispatcharr} {rowsRead : ℕ → ℕ} {s : CommitStore}
variable {x x' : Exec Dispatcharr} {op : BulkOperation}
variable (hup : ctx.up = dispatcharr (fun _ => none) rowsRead)

theorem Carried.of_stands (hnone : op.createdTempId? = none)
    (hadmits : s.Admits (ctx.landing fun _ => none) op) (hindex : x'.logoIndex = x.logoIndex)
    (hstands : Stands floor x'.ground
      { channels := ((s.reserve x.up.nextId).landed (ctx.landing fun _ => none) op).channels
        around := (s.reserve x.up.nextId).around.landed op
        created := s.created }) : Carried ctx floor s op x x' where
  admitted := hadmits
  grows := hindex ▸ IndexGrows.refl _
  stands := ⟨_, hstands, fun logoId _ =>
    CommitStore.landed_of_not_create hnone (ctx.landing logoId) (ctx.landing fun _ => none)⟩

/-- A branch that stopped at a check, of which the store has one too. -/
theorem Stands.refuses (h : Stands floor x.ground s) (hraised : s.raised op = s) {p : Prop} (hp : ¬p)
    (hcheck : s.Admits (ctx.landing fun _ => none) op → p) (hground : x'.ground = x.ground)
    (huntold : x'.ledger.persisted = x.ledger.persisted) (hindex : x'.logoIndex = x.logoIndex) :
    Refused ctx floor s op x x' where
  refused hadm := hp (hcheck hadm)
  untold := huntold
  grows := hindex ▸ IndexGrows.refl _
  stands := by rwa [hraised, hground]

/-- A branch that begins by looking up its channel. -/
theorem Stands.lands_on (h : Stands floor x.ground s) {c : ℤ} (hknown : c < floor) {label : String}
    {rest : Exec Dispatcharr → ℤ → Eff (Exec Dispatcharr) Unit} (hraised : s.raised op = s)
    (hcheck : s.Admits (ctx.landing fun _ => none) op → s.resolves c)
    (hrest : s.resolves c → s.Names floor c →
      Lands ctx floor s op x (rest x (x.ground.resolveId c))) :
    Lands ctx floor s op x (do
      let s ← get
      let channelId ← rejectUnresolvedChannel (s.resolveId c) label
      rest s channelId) := by
  unfold Lands
  rw [wp_bind, wp_get, wp_bind]
  apply h.wp_rejectUnresolvedChannel
  · exact fun hresolves => hrest hresolves (names_of_resolves hknown hresolves)
  · exact fun hne _ => h.refuses hraised hne hcheck rfl rfl rfl

/-- What an operation on the streams of a channel comes to in the store. -/
structure OnStreams (ctx : BulkContext Dispatcharr) (s : CommitStore) (op : BulkOperation) (c : ℤ)
    (f : Channel → Channel) : Prop where
  notCreated : op.createdTempId? = none
  channels : ∀ s' : CommitStore,
    (s'.landed (ctx.landing fun _ => none) op).channels = s'.channels.modify c f
  around : ∀ a : Surroundings, a.landed op = a
  admitted : s.Admits (ctx.landing fun _ => none) op

theorem OnStreams.carried {c : ℤ} {f g : Channel → Channel} {channel : Channel}
    (hop : OnStreams ctx s op c f) (hget : s.channels.get? c = some channel)
    (hsame : f channel = g channel) (hindex : x'.logoIndex = x.logoIndex)
    (hstands : Stands floor x'.ground { s with channels := s.channels.modify c g }) :
    Carried ctx floor s op x x' := by
  refine Carried.of_stands hop.notCreated hop.admitted hindex ?_
  rw [hop.channels, hop.around]
  dsimp only [CommitStore.reserve]
  rw [Dict.modify_eq_modify hget hsame]
  exact hstands.reserve x.up.nextId

/-- The list is what it is to be. -/
theorem OnStreams.wp_skip {c : ℤ} {f : Channel → Channel} {channel : Channel}
    (hop : OnStreams ctx s op c f) (h : Stands floor x.ground s)
    (hopen : x.ledger.isOpen = true) (hget : s.channels.get? c = some channel)
    (hsame : f channel = channel) :
    (tellLedger (·.sayAppliedWithoutWriting)).wp (fun _ x' => Carried ctx floor s op x x')
      (fun _ x' => Refused ctx floor s op x x') x.counted := by
  rw [wp_sayAppliedWithoutWriting (s := x.counted) hopen]
  have hstands : Stands floor x.ground { s with channels := s.channels.modify c id } := by
    rwa [Dict.modify_eq_self hget rfl]
  exact hop.carried hget hsame rfl hstands

theorem calls_foldl_setNumber (es : List (ℤ × ℚ)) (d : Dispatcharr) :
    { es.foldl Dispatcharr.setNumber d with calls := 0 } =
      es.foldl Dispatcharr.setNumber { d with calls := 0 } := by
  induction es generalizing d with
  | nil => rfl
  | cons e es ih => exact ih (d.setNumber e)

/-- Between two states the logos were looked at, and maybe one was made. -/
structure LogosRead (x x' : Exec Dispatcharr) : Prop where
  ground : x'.ground = { x.ground with
    up := { x.ground.up with logos := x'.up.logos, nextId := x'.up.nextId } }
  nextId : x.up.nextId ≤ x'.up.nextId
  grows : IndexGrows x.logoIndex x'.logoIndex

theorem LogosRead.refl (x : Exec Dispatcharr) : LogosRead x x where
  ground := rfl
  nextId := le_rfl
  grows := IndexGrows.refl _

theorem LogosRead.trans {x₁ x₂ x₃ : Exec Dispatcharr} (h : LogosRead x₁ x₂) (h' : LogosRead x₂ x₃) :
    LogosRead x₁ x₃ where
  ground := by
    rw [h'.ground, h.ground]
  nextId := h.nextId.trans h'.nextId
  grows := h.grows.trans h'.grows

theorem Stands.logosRead (h : Stands floor x.ground s) (hlogos : LogosRead x x') (n : ℤ) :
    Stands floor x'.ground (s.reserve n) := by
  have hstands := h.surroundings hlogos.nextId n x.up.groups x.ground.groupIdMap x.up.hiddenGroups
    x.up.streamStats x'.up.logos
  rw [hlogos.ground]
  exact {
    hstands with
    groups := h.groups
    groupIds := h.groupIds
    hidden := h.hidden
    stats := h.stats }

theorem saysNotFound_notFound : saysNotFound notFound = true := by decide +kernel

/-- The channels with these ids, moved to a group. -/
def movedTo (target : ChannelGroup) (ids : List ℤ) (ch : Channel) : Channel :=
  if ch.id ∈ ids then { ch with channelGroupId := some target.id } else ch

/-- Neither the logos nor the operation's own write were touched. -/
structure Aside (x x' : Exec Dispatcharr) : Prop where
  logoIndex : x'.logoIndex = x.logoIndex
  persisted : x'.ledger.persisted = x.ledger.persisted

include hup

theorem wp_updateChannel_branch (hstart : ∀ c ∈ ctx.numbersAtRunStart, 0 ≤ c ∧ c < floor)
    {u : BulkUpdateChannelOp} (h : Stands floor x.ground s) (hknown : u.channelId < floor) :
    Lands ctx floor s (.updateChannel u) x (executeUpdateChannel ctx u) := by
  unfold executeUpdateChannel
  refine h.lands_on hknown rfl (·.1) fun hresolves hnames => ?_
  unfold Lands
  rw [wp_bind]
  apply wp_rejectUnresolvedGroup'
  · intro hgroup
    rw [wp_bind]
    apply h.wp_checkExpectedNumber hstart u hnames
    · intro hexpected
      dsimp only
      rw [wp_bind, hup]
      apply wp_calm_updateChannel
      · intro hfound
        have hadm : s.Admits (ctx.landing fun _ => none) (.updateChannel u) :=
          ⟨hresolves, hgroup, hexpected, (h.channel?_isSome hnames).mp hfound⟩
        have hstands := (h.reserve x.up.nextId).modify hnames (f := (·.patch u.data)) fun _ _ => rfl
        cases u.data.channelNumber with
        | none =>
          dsimp only
          rw [wp_bind, wp_recordPersisted (JournalRowSpec.stated_rowIf _ _), wp_modify]
          exact Carried.of_stands rfl hadm rfl hstands
        | some n =>
          dsimp only
          rw [wp_bind, wp_modify, wp_bind, wp_recordPersisted (JournalRowSpec.stated_rowIf _ _),
            wp_modify]
          exact Carried.of_stands rfl hadm rfl hstands
      · exact fun hmissing _ => h.refuses rfl (h.not_mem_of_missing hnames hmissing) (·.2.2.2) rfl rfl rfl
    · exact fun hne _ => h.refuses rfl hne (·.2.2.1) rfl rfl rfl
  · exact fun hne _ => h.refuses rfl hne (·.2.1) rfl rfl rfl

/-! ### The streams of a channel -/

/-- A branch that reads its channel. -/
theorem Stands.lands_read (h : Stands floor x.ground s) {c : ℤ} (hnames : s.Names floor c)
    {rest : Channel → Eff (Exec Dispatcharr) Unit} (hraised : s.raised op = s)
    (hcheck : s.Admits (ctx.landing fun _ => none) op → c ∈ s.channels)
    (hrest : ∀ ch channel, s.channels.get? c = some channel → ch.streams = channel.streams →
      (rest ch).wp (fun _ x' => Carried ctx floor s op x x')
        (fun _ x' => Refused ctx floor s op x x') x.counted) :
    Lands ctx floor s op x (request (ctx.up.getChannel (x.ground.resolveId c)) >>= rest) := by
  unfold Lands
  rw [wp_bind, hup]
  apply wp_calm_getChannel
  · intro ch hch
    have hfound : x.ground.up.channel? (x.ground.resolveId c) = some ch := hch
    rw [h.channels c hnames, Option.map_eq_some_iff] at hfound
    obtain ⟨channel, hget, rfl⟩ := hfound
    exact hrest _ channel hget rfl
  · exact fun hgone _ => h.refuses hraised (h.not_mem_of_missing hnames hgone) hcheck rfl rfl rfl

/-- The list of a channel that is there is replaced. -/
theorem OnStreams.wp_writeStreams {c : ℤ} {f : Channel → Channel} {channel : Channel}
    (hop : OnStreams ctx s op c f) (h : Stands floor x.ground s) (hnames : s.Names floor c)
    (hget : s.channels.get? c = some channel) (read : Channel) (streams : List ℤ)
    (actionType : String) (hsame : f channel = { channel with streams := streams }) :
    (writeStreams ctx read (x.ground.resolveId c) streams actionType).wp
      (fun _ x' => Carried ctx floor s op x x') (fun _ x' => Refused ctx floor s op x x')
      x.counted := by
  have hstands := h.modify hnames (f := fun ch => { ch with streams := streams }) fun _ _ => rfl
  unfold writeStreams
  rw [wp_bind, wp_get, wp_bind, hup]
  apply wp_calm_updateChannel (x := x.counted)
  · intro _
    rw [wp_recordPersisted (JournalRowSpec.stated_singleton _)]
    exact hop.carried hget hsame rfl hstands
  · exact fun hmissing _ => absurd (Dict.mem_of_get? hget) (h.not_mem_of_missing hnames hmissing)

theorem wp_addStream_branch {c y : ℤ} (h : Stands floor x.ground s) (hknown : c < floor)
    (hopen : x.ledger.isOpen = true) :
    Lands ctx floor s (.addStreamToChannel c y) x (executeAddStream ctx c y) := by
  unfold executeAddStream
  refine h.lands_on hknown rfl (·.1) fun hresolves hnames => ?_
  unfold Lands
  rw [wp_ite]
  refine ⟨fun hmissing => h.refuses rfl (not_not.mpr hmissing) (·.2.1) rfl rfl rfl, fun hstream => ?_⟩
  refine h.lands_read hup hnames rfl (·.2.2) fun ch channel hget hstreams => ?_
  have hop : OnStreams ctx s (.addStreamToChannel c y) c
      fun channel => { channel with streams := withStream channel.streams y } :=
    ⟨rfl, fun _ => rfl, fun _ => rfl, hresolves, hstream, Dict.mem_of_get? hget⟩
  rw [wp_ite]
  constructor
  · intro hin
    exact hop.wp_skip h hopen hget (by rw [withStream, if_pos (hstreams ▸ hin)])
  · intro hout
    exact hop.wp_writeStreams hup h hnames hget ch _ _
      (by rw [withStream, ← hstreams, if_neg hout])

theorem wp_removeStream_branch {c y : ℤ} (h : Stands floor x.ground s) (hknown : c < floor)
    (hopen : x.ledger.isOpen = true) :
    Lands ctx floor s (.removeStreamFromChannel c y) x (executeRemoveStream ctx c y) := by
  unfold executeRemoveStream
  refine h.lands_on hknown rfl (·.1) fun hresolves hnames => ?_
  refine h.lands_read hup hnames rfl (·.2) fun ch channel hget hstreams => ?_
  have hop : OnStreams ctx s (.removeStreamFromChannel c y) c
      fun channel => { channel with streams := channel.streams.erase y } :=
    ⟨rfl, fun _ => rfl, fun _ => rfl, hresolves, Dict.mem_of_get? hget⟩
  rw [wp_ite]
  constructor
  · intro _
    exact hop.wp_writeStreams hup h hnames hget ch _ _ (by rw [hstreams])
  · intro hout
    exact hop.wp_skip h hopen hget (by rw [List.erase_of_not_mem (hstreams ▸ hout)])

theorem wp_reorderStreams_branch {c : ℤ} {ys : List ℤ} (h : Stands floor x.ground s)
    (hknown : c < floor) :
    Lands ctx floor s (.reorderChannelStreams c ys) x (executeReorderStreams ctx c ys) := by
  unfold executeReorderStreams
  refine h.lands_on hknown rfl (·.1) fun hresolves hnames => ?_
  refine h.lands_read hup hnames rfl (·.2.1) fun ch channel hget hstreams => ?_
  have hpermutes : s.permutes c ys ↔ validateStreamPermutation ch.streams ys = none := by
    simp [CommitStore.permutes, hget, hstreams]
  cases hvalid : validateStreamPermutation ch.streams ys with
  | some e =>
    have hne : ¬s.permutes c ys := by simp [hpermutes, hvalid]
    exact h.refuses rfl hne (·.2.2) rfl rfl rfl
  | none =>
    have hop : OnStreams ctx s (.reorderChannelStreams c ys) c
        fun channel => { channel with streams := ys } :=
      ⟨rfl, fun _ => rfl, fun _ => rfl, hresolves, Dict.mem_of_get? hget, hpermutes.mpr hvalid⟩
    exact hop.wp_writeStreams hup h hnames hget ch _ _ rfl

theorem wp_assignNumbers_branch {r : BulkAssignNumbersOp} (h : Stands floor x.ground s)
    (hknown : ∀ c ∈ r.channelIds, c < floor) :
    Lands ctx floor s (.bulkAssignChannelNumbers r) x (executeAssignNumbers ctx r) := by
  unfold Lands executeAssignNumbers
  rw [wp_bind]
  apply h.wp_resolveChannels
  · intro hresolves
    have hnames : ∀ c ∈ r.channelIds, s.Names floor c := fun c hc =>
      Stands.names_of_resolves (hknown c hc) (hresolves c hc)
    have hall : (∀ c ∈ r.channelIds.map x.ground.resolveId, (x.up.channel? c).isSome) ↔
        ∀ c ∈ r.channelIds, c ∈ s.channels := by
      rw [List.forall_mem_map]
      exact forall₂_congr fun c hc => h.channel?_isSome (hnames c hc)
    rw [wp_bind, wp_get]
    dsimp only
    rw [wp_bind, hup]
    apply wp_calm_assignChannelNumbers
    · intro hfound
      have hstands := (h.reserve x.up.nextId).setNumbers r.assignments fun e he => by
        obtain ⟨e', he', rfl⟩ := List.mem_map.mp he
        exact hnames e'.1 (List.fst_mem_of_mem_zipIdx he')
      have hlist : (r.channelIds.map x.ground.resolveId).zipIdx.map
          (fun e => (e.1, r.startingNumber.getD 1 + (e.2 : ℚ))) =
          r.assignments.map fun e => (x.ground.resolveId e.1, e.2) := by
        simp [BulkAssignNumbersOp.assignments, BulkAssignNumbersOp.start, List.zipIdx_map]
      rw [wp_bind, wp_modify, wp_bind, wp_recordPersisted, wp_modify]
      · refine Carried.of_stands rfl (fun c hc => ⟨hresolves c hc, hall.mp hfound c hc⟩) rfl ?_
        rw [hlist]
        have hcalls := calls_foldl_setNumber (r.assignments.map fun e => (x.ground.resolveId e.1, e.2))
          x.counted.up
        change Stands floor ⟨{ (_ : Dispatcharr) with calls := 0 }, _, _⟩ _
        rw [hcalls]
        exact hstands
      · split
        · exact JournalRowSpec.noConfusion
        · rename_i hne
          exact fun heq => hne (JournalRowSpec.rows.inj heq)
    · exact fun hne _ => h.refuses rfl (hne ∘ hall.mpr) (fun hadm c hc => (hadm c hc).2) rfl rfl rfl
  · exact fun hne _ => h.refuses rfl hne (fun hadm c hc => (hadm c hc).1) rfl rfl rfl

/-! ### The logo of a created channel -/

theorem wp_ensureLogoIndex :
    (ensureLogoIndex ctx).wp (fun _ x' => LogosRead x x' ∧ ∃ read, x'.logoIndex = some read)
      (fun _ _ => False) x := by
  unfold ensureLogoIndex
  rw [wp_bind, wp_get]
  cases hindex : x.logoIndex with
  | some read => exact ⟨.refl x, read, hindex⟩
  | none =>
    dsimp only
    rw [wp_bind, hup, wp_request]
    simp only [dispatcharr, guardedRead]
    rw [wp_bind, wp_modify]
    refine ⟨⟨rfl, le_rfl, ?_⟩, _, rfl⟩
    rw [hindex]
    intro read hread
    cases hread

theorem wp_resolveLogoId (url name : String) :
    (resolveLogoId ctx url name).wp
      (fun id x' => LogosRead x x' ∧ ∃ read, x'.logoIndex = some read ∧ read.get? url = some (some id))
      (fun _ x' => LogosRead x x' ∧ ∃ read, x'.logoIndex = some read ∧ read.get? url = some none) x := by
  unfold resolveLogoId
  rw [wp_bind]
  apply wp_mono (wp_ensureLogoIndex hup) _ fun _ _ h => h.elim
  rintro _ x₁ ⟨hlogos, read, hread⟩
  rw [wp_bind, wp_get, hread, Option.getD_some]
  cases hurl : read.get? url with
  | some existing =>
    cases existing with
    | some id => exact ⟨hlogos, read, hread, hurl⟩
    | none => exact ⟨hlogos, read, hread, hurl⟩
  | none =>
    dsimp only
    rw [wp_bind, hup, wp_write]
    simp only [dispatcharr, guarded_calm]
    rw [wp_bind, wp_recordWrite (JournalRowSpec.stated_singleton _), wp_bind, wp_modify]
    refine ⟨hlogos.trans ⟨rfl, ?_, ?_⟩, (read.set url (some x₁.up.nextId)), ?_,
      Dict.get?_set_self _ _ _⟩
    · change x₁.up.nextId ≤ x₁.up.nextId + 1
      omega
    · intro before hbefore
      rw [hread, Option.mem_some_iff] at hbefore
      subst hbefore
      refine ⟨read.set url (some x₁.up.nextId), ?_, fun url' id hget => ?_⟩
      · dsimp only
        rw [hread]
        rfl
      · have hne : url ≠ url' := fun heq => by simp [← heq, hurl] at hget
        rwa [Dict.get?_set_ne _ _ hne]
    · dsimp only
      rw [hread]
      rfl

/-- The logo a create goes out with is the one the catalog has, or gets, for the url. -/
theorem wp_createLogoId (k : BulkCreateChannelOp) (name : String) :
    (createLogoId ctx k name).wp
      (fun logo x' => LogosRead x x' ∧
        ∀ f, Indexes f x'.logoIndex → (ctx.landing f).createLogoId k = logo)
      (fun _ _ => False) x := by
  unfold createLogoId
  cases hurl : k.logoUrl with
  | none =>
    refine ⟨.refl x, fun f _ => ?_⟩
    simp [LandingContext.createLogoId, hurl]
  | some url =>
    dsimp only
    rw [wp_ite]
    constructor
    · intro hcond
      have hlanding : ∀ f, (ctx.landing f).createLogoId k = (f url).or k.logoId := fun f => by
        simp [LandingContext.createLogoId, BulkContext.landing, hurl, hcond]
      rw [wp_tryCatch, wp_bind]
      apply wp_mono (wp_resolveLogoId hup url name)
      all_goals
        rintro _ x₁ ⟨hlogos, read, hread, hget⟩
        refine ⟨hlogos, fun f hf => ?_⟩
        rw [hlanding, hf read hread url _ hget]
        rfl
    · intro hcond
      refine ⟨.refl x, fun f _ => ?_⟩
      simp [LandingContext.createLogoId, hurl, hcond]

theorem wp_normalizedName (k : BulkCreateChannelOp) :
    (normalizedName ctx k).wp (fun named x' => named = (k.name, none) ∧ LogosRead x x')
      (fun _ _ => False) x := by
  unfold normalizedName
  rw [wp_ite]
  refine ⟨fun _ => ?_, fun _ => ⟨rfl, .refl x⟩⟩
  rw [wp_tryCatch, wp_bind, hup, wp_request]
  exact ⟨rfl, rfl, le_rfl, IndexGrows.refl _⟩

theorem wp_createChannel_branch {k : BulkCreateChannelOp} (h : Stands floor x.ground s)
    (hfresh : k.tempId ∉ s.created) :
    Lands ctx floor s (.createChannel k) x (executeCreateChannel ctx k) := by
  have hgroup : x.resolveGroupId k.groupId k.newGroupName =
      s.around.resolveGroupId k.groupId k.newGroupName := by
    have hids : x.result.groupIdMap = s.around.groupIdMap := h.groupIds
    cases k.newGroupName with
    | none => rfl
    | some name => simp only [Exec.resolveGroupId, Surroundings.resolveGroupId, hids]
  unfold Lands executeCreateChannel
  rw [wp_bind, wp_get, wp_bind, hgroup]
  apply wp_rejectUnresolvedGroup'
  · intro hresolved
    rw [wp_bind]
    apply wp_mono (wp_normalizedName hup k) _ fun _ _ h => h.elim
    rintro _ x₁ ⟨rfl, hnamed⟩
    rw [wp_bind]
    apply wp_mono (wp_createLogoId hup k k.name) _ fun _ _ h => h.elim
    rintro logo x₂ ⟨hlogo, hfound⟩
    have hlogos := hnamed.trans hlogo
    rw [wp_bind, hup, wp_write]
    simp only [dispatcharr, guarded_calm]
    rw [wp_bind, wp_recordPersisted (JournalRowSpec.stated_singleton _), wp_bind, wp_modify,
      wp_modify]
    let channel : Channel :=
      { id := k.tempId
        name := k.name
        channelNumber := k.channelNumber
        channelGroupId := s.around.resolveGroupId k.groupId k.newGroupName
        logoId := logo
        tvgId := k.tvgId
        tvcGuideStationid := k.tvcGuideStationId }
    have hnew : ∀ f, Indexes f x₂.logoIndex →
        (ctx.landing f).newChannel (s.reserve x.up.nextId).around k = channel := by
      intro f hf
      have hname : (ctx.landing f).createdName k = k.name := by
        rw [LandingContext.createdName]
        exact ite_self _
      rw [LandingContext.newChannel, hname, hfound f hf]
      rfl
    refine ⟨hresolved, hlogos.grows, _,
      (h.logosRead hlogos x.up.nextId).create k.tempId_neg hfresh channel, fun f hf => ?_⟩
    rw [CommitStore.landed, hnew f hf]
    rfl
  · exact fun hne _ => h.refuses rfl hne id rfl rfl rfl

theorem wp_deleteChannel_branch {c : ℤ} (h : Stands floor x.ground s) (hknown : c < floor) :
    Lands ctx floor s (.deleteChannel c) x (executeDeleteChannel ctx c) := by
  unfold executeDeleteChannel
  refine h.lands_on hknown rfl id fun hresolves hnames => ?_
  have hstands := (h.reserve x.up.nextId).erase hnames
  unfold Lands
  rw [wp_bind, wp_tryCatch, wp_bind, hup, wp_write]
  simp only [dispatcharr, guarded_calm, channel?_counted]
  cases hch : x.up.channel? (x.ground.resolveId c) with
  | some ch =>
    dsimp only
    rw [wp_pure, wp_recordPersisted (JournalRowSpec.stated_rowIf _ _)]
    exact Carried.of_stands rfl hresolves rfl hstands
  | none =>
    dsimp only
    rw [if_pos saysNotFound_notFound, wp_pure, wp_recordPersisted (JournalRowSpec.stated_rowIf _ _)]
    refine Carried.of_stands rfl hresolves rfl ?_
    have hall : x.ground.up.channels.filter (·.id ≠ x.ground.resolveId c) = x.ground.up.channels := by
      rw [List.filter_eq_self]
      intro ch hin
      simpa using List.find?_eq_none.mp hch ch hin
    rwa [hall] at hstands

theorem wp_createGroup_branch {name : String}
    (h : Stands floor x.ground s) (hopen : x.ledger.isOpen = true) :
    Lands ctx floor s (.createGroup name) x (executeCreateGroup ctx name) := by
  have hids : x.result.groupIdMap = s.around.groupIdMap := h.groupIds
  have hgroups : x.up.groups = s.around.groups := h.groups
  unfold Lands executeCreateGroup
  rw [wp_bind, wp_get, wp_ite, hids]
  constructor
  · intro hmapped
    rw [wp_sayAppliedWithoutWriting hopen]
    refine Carried.of_stands rfl (.inl hmapped) rfl ?_
    rw [CommitStore.reserve, Surroundings.landed, if_pos hmapped]
    exact h.reserve x.up.nextId
  · intro hunmapped
    rw [wp_bind, hup, wp_write]
    simp only [dispatcharr, guarded_calm, show x.counted.up.groups = s.around.groups from hgroups]
    by_cases htaken : name ∈ s.around.groups.map (·.name)
    · rw [if_pos htaken]
      exact h.refuses rfl (not_or.mpr ⟨hunmapped, not_not.mpr htaken⟩) id rfl rfl rfl
    · rw [if_neg htaken]
      dsimp only
      rw [wp_bind, wp_recordPersisted (JournalRowSpec.stated_singleton _), wp_modify]
      refine Carried.of_stands rfl (.inr htaken) rfl ?_
      rw [CommitStore.reserve, Surroundings.landed, if_neg hunmapped]
      have hstands := h.surroundings (n := x.up.nextId + 1) (by
        change x.up.nextId ≤ x.up.nextId + 1
        omega) (x.up.nextId + 1) (s.around.groups ++ [⟨x.up.nextId, name⟩])
        (s.around.groupIdMap.set name x.up.nextId) s.around.hiddenGroups s.around.streamStats
        x.up.logos
      exact {
        hstands with
        stocked := ⟨hstands.stocked.nodup, hstands.stocked.fresh⟩
        groupIds := congrArg (Dict.set · name x.up.nextId) hids
        hidden := h.hidden
        stats := h.stats }

theorem wp_renameGroup_branch {group : ℤ} {name : String} (h : Stands floor x.ground s) :
    Lands ctx floor s (.renameChannelGroup group name) x
      (executeRenameChannelGroup ctx group name) := by
  have hgroups : x.up.groups = s.around.groups := h.groups
  unfold Lands executeRenameChannelGroup
  rw [wp_bind, hup, wp_write]
  simp only [dispatcharr, guarded_calm, show x.counted.up.groups = s.around.groups from hgroups]
  by_cases hin : group ∈ s.around.groups.map (·.id)
  · rw [if_pos hin]
    dsimp only
    rw [wp_recordPersisted (JournalRowSpec.stated_singleton _)]
    refine Carried.of_stands rfl hin rfl ?_
    exact { h.reserve x.up.nextId with stocked := ⟨h.stocked.nodup, h.stocked.fresh⟩, groups := rfl }
  · rw [if_neg hin]
    exact h.refuses rfl hin id rfl rfl rfl

theorem wp_setMembership_branch {p c : ℤ}
    {enabled : Bool} (h : Stands floor x.ground s) (hknown : c < floor) :
    Lands ctx floor s (.setProfileMembership p c enabled) x
      (executeSetProfileMembership ctx p c enabled) := by
  unfold executeSetProfileMembership
  refine h.lands_on hknown rfl id fun hresolves hnames => ?_
  unfold Lands
  rw [wp_bind, hup, wp_write]
  simp only [dispatcharr, guarded_calm]
  rw [wp_recordPersisted (JournalRowSpec.stated_singleton _)]
  exact Carried.of_stands rfl hresolves rfl ((h.reserve x.up.nextId).setMembership hnames p enabled)

theorem wp_restoreGroup_branch {group : ℤ} (h : Stands floor x.ground s) :
    Lands ctx floor s (.restoreChannelGroup group) x (executeRestoreChannelGroup ctx group) := by
  unfold Lands executeRestoreChannelGroup
  rw [wp_bind, hup, wp_request]
  simp only [dispatcharr, guarded_calm]
  rw [wp_recordPersisted (JournalRowSpec.stated_rowIf _ _)]
  refine Carried.of_stands rfl trivial rfl ?_
  exact { h.reserve x.up.nextId with
    stocked := ⟨h.stocked.nodup, h.stocked.fresh⟩
    hidden := congrArg (Dict.erase · group) h.hidden }

theorem wp_clearStreamStats_branch {ys : List ℤ} (h : Stands floor x.ground s) :
    Lands ctx floor s (.clearStreamStats ys) x (executeClearStreamStats ctx ys) := by
  unfold Lands executeClearStreamStats clearedStats
  rw [wp_bind, wp_ite]
  constructor
  · rintro rfl
    rw [wp_pure, wp_recordPersisted (JournalRowSpec.stated_rowIf _ _)]
    refine Carried.of_stands rfl trivial rfl ?_
    exact { h.reserve x.up.nextId with
      stats := by
        simp only [CommitStore.reserve, Surroundings.landed, List.not_mem_nil, not_false_eq_true,
          decide_true, List.filter_true]
        exact h.stats }
  · intro _
    rw [hup, wp_request]
    simp only [dispatcharr, guarded_calm]
    rw [wp_recordPersisted (JournalRowSpec.stated_rowIf _ _)]
    refine Carried.of_stands rfl trivial rfl ?_
    exact { h.reserve x.up.nextId with
      stocked := ⟨h.stocked.nodup, h.stocked.fresh⟩
      stats := congrArg (List.filter (· ∉ ys)) h.stats }

/-! ### Deleting a group -/

theorem wp_moveMember {group : ℤ}
    (target : ChannelGroup) {member ch : Channel} (hch : x.up.channel? member.id = some ch)
    (hgroup : ch.channelGroupId = some group) :
    (moveMember ctx group target member).wp
      (fun _ x' => Aside x x' ∧ x'.ground = { x.ground with
        up := x.ground.up.mapChannel member.id fun ch =>
          { ch with channelGroupId := some target.id } })
      (fun _ _ => False) x := by
  unfold moveMember stillBelongsToGroup
  rw [wp_bind, wp_tryCatch, wp_bind, hup]
  apply wp_calm_getChannel
  · intro found hfound
    obtain rfl : ch = found := Option.some.inj (hch.symm.trans hfound)
    rw [wp_pure, wp_ite]
    refine ⟨fun _ => ?_, fun hno => absurd (decide_eq_true hgroup) hno⟩
    rw [wp_bind]
    apply wp_calm_updateChannel (x := x.counted)
    · intro _
      rw [wp_recordWrite (JournalRowSpec.stated_singleton _)]
      exact ⟨⟨rfl, rfl⟩, rfl⟩
    · intro hmissing
      rw [show x.counted.up.channel? member.id = x.up.channel? member.id from rfl, hch] at hmissing
      cases hmissing
  · intro hmissing
    rw [hch] at hmissing
    cases hmissing

/-- Every member that is still in the group is moved, one at a time. -/
theorem wp_moveMembers {group : ℤ}
    (target : ChannelGroup) (members : List Channel) (hnodup : (members.map (·.id)).Nodup)
    (hthere : ∀ m ∈ members, ∃ ch, x.up.channel? m.id = some ch ∧ ch.channelGroupId = some group) :
    (Eff.each (moveMember ctx group target) members).wp
      (fun _ x' => Aside x x' ∧ x'.ground = { x.ground with
        up := { x.ground.up with
          channels := x.up.channels.map (movedTo target (members.map (·.id))) } })
      (fun _ _ => False) x := by
  induction members generalizing x with
  | nil =>
    refine ⟨⟨rfl, rfl⟩, ?_⟩
    have hid : x.up.channels.map (movedTo target []) = x.up.channels :=
      List.map_id'' (fun ch => if_neg List.not_mem_nil) _
    rw [List.map_nil, hid]
    rfl
  | cons m members ih =>
    rw [List.map_cons, List.nodup_cons] at hnodup
    obtain ⟨ch, hch, hgroup⟩ := hthere m (by simp)
    rw [each, wp_bind]
    apply wp_mono (wp_moveMember hup target hch hgroup) _ fun _ _ h => h
    rintro _ x₁ ⟨haside, hground⟩
    have hup₁ : x₁.ground.up = x.ground.up.mapChannel m.id fun ch =>
        { ch with channelGroupId := some target.id } := congrArg Ground.up hground
    have hrest : ∀ m' ∈ members, ∃ ch, x₁.up.channel? m'.id = some ch ∧
        ch.channelGroupId = some group := by
      intro m' hm'
      obtain ⟨ch', hch', hgroup'⟩ := hthere m' (List.mem_cons_of_mem m hm')
      have hne : m'.id ≠ m.id := fun heq => hnodup.1 (heq ▸ List.mem_map_of_mem hm')
      refine ⟨ch', ?_, hgroup'⟩
      change x₁.ground.up.channel? m'.id = some ch'
      rw [hup₁, Dispatcharr.channel?_mapChannel]
      · change (x.up.channel? m'.id).map _ = some ch'
        rw [hch', Option.map_some, Dispatcharr.id_of_channel? hch', if_neg hne]
      · exact fun _ => rfl
    apply wp_mono (ih hnodup.2 hrest) _ fun _ _ h => h
    rintro _ x₂ ⟨haside₂, hground₂⟩
    refine ⟨⟨haside₂.logoIndex.trans haside.logoIndex, haside₂.persisted.trans haside.persisted⟩,
      hground₂.trans ?_⟩
    have hchannels : x₁.up.channels.map (movedTo target (members.map (·.id))) =
        x.up.channels.map (movedTo target (m.id :: members.map (·.id))) := by
      have hmapped : x₁.up.channels = x.up.channels.map fun ch =>
          if ch.id = m.id then { ch with channelGroupId := some target.id } else ch :=
        congrArg Dispatcharr.channels hup₁
      rw [hmapped, List.map_map]
      apply List.map_congr_left
      intro ch _
      by_cases heq : ch.id = m.id
      · simp [movedTo, heq, hnodup.1]
      · simp [movedTo, heq]
    rw [hchannels, hground]
    rfl

/-- The members of a group go to the default one, if it can be emptied at all. -/
theorem wp_reparent {group : ℤ}
    (h : Stands floor x.ground s) :
    (reparentGroupChannels ctx group).wp
      (fun _ x' => s.canEmpty group ∧ Aside x x' ∧ x'.ground = { x.ground with
        up := { x.ground.up with
          channels := x.up.channels.map fun ch =>
            { ch with channelGroupId := s.around.regrouped group ch.channelGroupId } } })
      (fun _ x' => ¬s.canEmpty group ∧ Aside x x' ∧ x'.ground = x.ground) x := by
  have hgroups : x.up.groups = s.around.groups := h.groups
  have hread : (dispatcharr (fun _ => none) rowsRead).getChannels x.up =
      (.ok { rows := x.up.channels }, x.counted.up) := rfl
  have hmembers := h.membersOf_eq_nil group
  unfold reparentGroupChannels
  rw [wp_bind, hup, wp_request, hread]
  dsimp only
  rw [wp_ite]
  constructor
  · intro hnone
    refine ⟨.inl (hmembers.mpr hnone), ⟨rfl, rfl⟩, ?_⟩
    have hsame : x.up.channels.map (fun ch =>
        { ch with channelGroupId := s.around.regrouped group ch.channelGroupId }) = x.up.channels := by
      calc x.up.channels.map (fun ch =>
            { ch with channelGroupId := s.around.regrouped group ch.channelGroupId })
          = x.up.channels.map id := by
            apply List.map_congr_left
            intro ch hch
            have hother := List.filter_eq_nil_iff.mp hnone ch hch
            rw [s.around.regrouped_of_ne (by simpa using hother)]
            rfl
        _ = x.up.channels := List.map_id _
    rw [hsame]
    rfl
  · intro hsome
    have hnonempty : s.membersOf group ≠ [] := fun hnil => hsome (hmembers.mp hnil)
    rw [wp_bind]
    apply wp_calm_getChannelGroups (x := x.counted)
    rw [show x.counted.up.groups = s.around.groups from hgroups]
    cases htarget : s.around.target with
    | none =>
      have hfind : s.around.groups.find?
          (·.name.trimAscii.toString.toLower = ungroupedTargetGroupName.toLower) = none := htarget
      rw [hfind]
      exact ⟨by simp [CommitStore.canEmpty, hnonempty, htarget], ⟨rfl, rfl⟩, rfl⟩
    | some target =>
      have hfind : s.around.groups.find?
          (·.name.trimAscii.toString.toLower = ungroupedTargetGroupName.toLower) = some target :=
        htarget
      rw [hfind]
      dsimp only
      rw [wp_ite]
      constructor
      · intro hself
        exact ⟨by simp [CommitStore.canEmpty, hnonempty, htarget, hself], ⟨rfl, rfl⟩, rfl⟩
      · intro hother
        have hnodup : ((x.up.channels.filter (·.channelGroupId = some group)).map (·.id)).Nodup :=
          h.stocked.nodup.sublist (List.filter_sublist.map _)
        have hthere : ∀ m ∈ x.up.channels.filter (·.channelGroupId = some group),
            ∃ ch, x.up.channel? m.id = some ch ∧ ch.channelGroupId = some group := by
          intro m hm
          rw [List.mem_filter, decide_eq_true_eq] at hm
          exact ⟨m, h.stocked.channel?_of_mem hm.1, hm.2⟩
        apply wp_mono (wp_moveMembers (x := x.counted.counted) hup target _ hnodup hthere) _
          fun _ _ h => h.elim
        rintro _ x' ⟨haside, hground⟩
        refine ⟨.inr ⟨target, by simp [htarget], hother⟩, ⟨haside.logoIndex, haside.persisted⟩,
          hground.trans ?_⟩
        have hmoved : x.up.channels.map (movedTo target
            ((x.up.channels.filter (·.channelGroupId = some group)).map (·.id))) =
            x.up.channels.map fun ch =>
              { ch with channelGroupId := s.around.regrouped group ch.channelGroupId } := by
          apply List.map_congr_left
          intro ch hch
          have hin : ch.id ∈ (x.up.channels.filter (·.channelGroupId = some group)).map (·.id) ↔
              ch.channelGroupId = some group := by
            constructor
            · intro hmem
              obtain ⟨m, hm, hid⟩ := List.mem_map.mp hmem
              rw [List.mem_filter, decide_eq_true_eq] at hm
              have hfound := h.stocked.channel?_of_mem hm.1
              rw [hid, h.stocked.channel?_of_mem hch, Option.some.injEq] at hfound
              exact hfound ▸ hm.2
            · exact fun heq => List.mem_map_of_mem (List.mem_filter.mpr ⟨hch, by simpa using heq⟩)
          simp only [movedTo, hin, Surroundings.regrouped, htarget]
          split <;> rfl
        exact congrArg (fun channels => { x.ground with
          up := { x.ground.up with channels := channels } }) hmoved

theorem wp_deleteGroup_branch {group : ℤ}
    (h : Stands floor x.ground s) :
    Lands ctx floor s (.deleteChannelGroup group) x (executeDeleteChannelGroup ctx group) := by
  have hgroups : x.up.groups = s.around.groups := h.groups
  unfold Lands executeDeleteChannelGroup
  rw [wp_bind]
  apply wp_mono (wp_reparent hup h)
  · rintro _ x₁ ⟨hempty, haside, hground⟩
    have hstands : Stands floor x₁.ground { s with channels := s.channels.mapValues fun _ ch =>
        { ch with channelGroupId := s.around.regrouped group ch.channelGroupId } } := by
      rw [hground]
      exact h.mapChannels fun _ _ => rfl
    have hgroups₁ : x₁.up.groups = s.around.groups :=
      (congrArg (fun g => g.up.groups) hground).trans hgroups
    rw [wp_bind, hup, wp_write]
    simp only [dispatcharr, guarded_calm, show x₁.counted.up.groups = s.around.groups from hgroups₁]
    by_cases hin : group ∈ s.around.groups.map (·.id)
    · rw [if_pos hin]
      dsimp only
      rw [wp_recordPersisted (JournalRowSpec.stated_singleton _)]
      refine Carried.of_stands rfl ⟨hempty, hin⟩ haside.logoIndex ?_
      have hafter := hstands.reserve x.up.nextId
      exact { hafter with stocked := ⟨hafter.stocked.nodup, hafter.stocked.fresh⟩, groups := rfl }
    · rw [if_neg hin]
      refine ⟨fun hadm => hin hadm.2, haside.persisted, haside.logoIndex ▸ IndexGrows.refl _, ?_⟩
      rw [CommitStore.raised, if_pos hempty]
      exact hstands
  · rintro _ x₁ ⟨hfull, haside, hground⟩
    refine ⟨fun hadm => hfull hadm.1, haside.persisted, haside.logoIndex ▸ IndexGrows.refl _, ?_⟩
    rw [CommitStore.raised, if_neg hfull, hground]
    exact h

/-- Each branch raises exactly when the store does not admit the operation, and leaves what the
store says. -/
theorem executeOperation_lands
    (hstart : ∀ c ∈ ctx.numbersAtRunStart, 0 ≤ c ∧ c < floor) (h : Stands floor x.ground s)
    (hknown : op.Known floor s) (hopen : x.ledger.isOpen = true) :
    Lands ctx floor s op x (executeOperation ctx op) := by
  have hlt : ∀ c, (0 ≤ c → c ∈ op.referencedChannelIds) → c < floor := by
    intro c hc
    have hfloor := h.floor_nonneg
    rcases lt_or_ge c 0 with hneg | hpos
    · omega
    · exact hknown.named c (hc hpos)
  cases op with
  | updateChannel u => exact wp_updateChannel_branch hup hstart h (hlt u.channelId fun hpos => by
      simp [BulkOperation.referencedChannelIds, BulkOperation.channelId?, hpos])
  | addStreamToChannel c y => exact wp_addStream_branch hup h (hlt c fun hpos => by
      simp [BulkOperation.referencedChannelIds, BulkOperation.channelId?, hpos]) hopen
  | removeStreamFromChannel c y => exact wp_removeStream_branch hup h (hlt c fun hpos => by
      simp [BulkOperation.referencedChannelIds, BulkOperation.channelId?, hpos]) hopen
  | reorderChannelStreams c ys => exact wp_reorderStreams_branch hup h (hlt c fun hpos => by
      simp [BulkOperation.referencedChannelIds, BulkOperation.channelId?, hpos])
  | bulkAssignChannelNumbers r =>
    exact wp_assignNumbers_branch hup h fun c hc => hlt c fun hpos => by
      simp [BulkOperation.referencedChannelIds, hc, hpos]
  | createChannel k => exact wp_createChannel_branch hup h (hknown.fresh k.tempId rfl)
  | deleteChannel c => exact wp_deleteChannel_branch hup h (hlt c fun hpos => by
      simp [BulkOperation.referencedChannelIds, BulkOperation.channelId?, hpos])
  | createGroup name => exact wp_createGroup_branch hup h hopen
  | deleteChannelGroup group => exact wp_deleteGroup_branch hup h
  | renameChannelGroup group name => exact wp_renameGroup_branch hup h
  | setProfileMembership p c enabled => exact wp_setMembership_branch hup h (hlt c fun hpos => by
      simp [BulkOperation.referencedChannelIds, BulkOperation.channelId?, hpos])
  | restoreChannelGroup group => exact wp_restoreGroup_branch hup h
  | clearStreamStats ys => exact wp_clearStreamStats_branch hup h

end Branches

end ChannelManager
