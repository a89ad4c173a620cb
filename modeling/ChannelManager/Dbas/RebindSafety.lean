import ChannelManager.Dbas.PlaceholderRebind
import Mathlib.Data.List.Dedup

/-!
# What a rebind cuts

A pass decides what to delete from two listings that end where a page raises. It cuts no binding
when every binding its deletes could cut is among what it sees, and it sees the streams of the
accounts it empties.
-/

namespace ChannelManager.Dbas

open Eff

/-- A delete that cuts nothing: no channel holds the stream, no stream is under the account. -/
def Removal.Harmless : Removal → Destination → Prop
  | .stream s, destination => ∀ c streams, destination.held c = some streams → s ∉ streams
  | .account a, destination =>
    ∀ s record, destination.streams.get? s = some record → record.m3uAccount ≠ some a

/-- Every delete was harmless when it was issued, and no channel lost a stream. -/
structure Uncut (before : Destination) (w : World) : Prop where
  harmless : ∀ r destination, (r, destination) ∈ w.issued → r.Harmless destination
  bindings : ∀ c streams, before.held c = some streams →
    ∃ streams', w.destination.held c = some streams' ∧ streams.length ≤ streams'.length

/-- What a pass goes by: the streams and channels it lists, the placeholders it may move, the
streams it deletes as its own, the synthetic accounts, and for each channel the archived streams its
placeholders are matched by, once for every time the channel is gone over. -/
structure Sight where
  streams : List (ℤ × StreamRecord)
  current : Dict ℤ (List ℤ)
  placeholders : List ℤ
  owned : List ℤ
  syntheticIds : List ℤ
  plans : ℤ → List (ℤ → Option StreamRecord)

namespace Sight

variable (sight : Sight) (matcher : Matcher)

def candidates : List (ℤ × StreamRecord) := candidateStreams sight.placeholders sight.streams

/-- A channel the pass goes over. -/
def Covered (c : ℤ) : Prop := c ∈ sight.current ∧ sight.plans c ≠ []

/-- A listed channel whose slots leave the stream in place. -/
def Keeps (c s : ℤ) : Prop :=
  ∃ streams, sight.current.get? c = some streams ∧ s ∈ streams ∧ ∀ archivedFor ∈ sight.plans c,
    s ∈ (channelSlots matcher sight.placeholders archivedFor sight.candidates streams).orderedIds

/-- A listed stream that no delete of the pass is for. -/
def Stays (row : ℤ × StreamRecord) : Prop :=
  (row.1 ∈ sight.owned → ∃ c, sight.Covered c ∧ sight.Keeps matcher c row.1) ∧
    (urlCanServe row.2.url = true ∨ ∃ c, sight.Keeps matcher c row.1)

/-- The pass sees enough: a channel that holds a stream it deletes as its own is gone over, a
channel that holds one the sweep could take is listed, or else another such channel keeps the
stream; and the streams of a synthetic account are all listed, or one of those listed stays. -/
structure Covers (before : Destination) : Prop where
  owned : ∀ s ∈ sight.owned, ∀ c streams, before.held c = some streams → s ∈ streams →
    sight.Covered c ∨ ∃ d, sight.Covered d ∧ sight.Keeps matcher d s
  residue : ∀ row ∈ sight.streams, urlCanServe row.2.url = false →
    row.2.m3uAccount.any (· ∈ sight.syntheticIds) → ∀ c streams, before.held c = some streams →
      row.1 ∈ streams → c ∈ sight.current ∨ ∃ d, sight.Keeps matcher d row.1
  accounts : ∀ a ∈ sight.syntheticIds,
    (∀ s record, before.streams.get? s = some record → record.m3uAccount = some a →
      (s, record) ∈ sight.streams) ∨
    ∃ row ∈ sight.streams, row.2.m3uAccount = some a ∧ sight.Stays matcher row

end Sight

section Slots

variable (matcher : Matcher) (placeholderIds : List ℤ) (archivedFor : ℤ → Option StreamRecord)
  (candidates : List (ℤ × StreamRecord))

theorem claim_candidate {claimedIds : List ℤ} {boundId matchId : ℤ}
    (h : claim matcher archivedFor candidates claimedIds boundId = some matchId) :
    matchId ∈ candidates.map Prod.fst := by
  have hmatch := (Option.filter_eq_some_iff.mp h).1
  obtain ⟨archived, -, hfound⟩ := Option.bind_eq_some_iff.mp hmatch
  exact matcher.found archived candidates matchId hfound

theorem rebindSlots_length (claimedIds currentIds : List ℤ) :
    (rebindSlots matcher placeholderIds archivedFor candidates claimedIds
      currentIds).orderedIds.length = currentIds.length := by
  induction currentIds generalizing claimedIds with
  | nil => rfl
  | cons boundId rest ih =>
    rw [rebindSlots]
    split
    · split
      · simp [ih]
      · simp [ih]
    · simp [ih]

/-- A slot ends on a candidate or on what it held. -/
theorem mem_rebindSlots (claimedIds currentIds : List ℤ) {s : ℤ}
    (hs : s ∈ (rebindSlots matcher placeholderIds archivedFor candidates claimedIds
      currentIds).orderedIds) : s ∈ candidates.map Prod.fst ∨ s ∈ currentIds := by
  induction currentIds generalizing claimedIds with
  | nil => exact (List.not_mem_nil hs).elim
  | cons boundId rest ih =>
    rw [rebindSlots] at hs
    have htail : ∀ claimedIds', s ∈ (rebindSlots matcher placeholderIds archivedFor candidates
        claimedIds' rest).orderedIds → s ∈ candidates.map Prod.fst ∨ s ∈ boundId :: rest := by
      intro claimedIds' h
      exact (ih claimedIds' h).imp_right (List.mem_cons_of_mem _)
    split at hs
    · split at hs
      next matchId hclaim =>
        rcases List.mem_cons.mp hs with rfl | h
        · exact .inl (claim_candidate matcher archivedFor candidates hclaim)
        · exact htail _ h
      next =>
        rcases List.mem_cons.mp hs with rfl | h
        · exact .inr (List.mem_cons_self ..)
        · exact htail _ h
    · rcases List.mem_cons.mp hs with rfl | h
      · exact .inr (List.mem_cons_self ..)
      · exact htail _ h

/-- A placeholder still in a slot is retained. -/
theorem retained_rebindSlots (claimedIds currentIds : List ℤ) {s : ℤ}
    (hs : s ∈ (rebindSlots matcher placeholderIds archivedFor candidates claimedIds
      currentIds).orderedIds) (hp : s ∈ placeholderIds) :
    s ∈ candidates.map Prod.fst ∨ s ∈ (rebindSlots matcher placeholderIds archivedFor candidates
      claimedIds currentIds).retained := by
  induction currentIds generalizing claimedIds with
  | nil => exact (List.not_mem_nil hs).elim
  | cons boundId rest ih =>
    rw [rebindSlots] at hs ⊢
    split at hs
    next hbound =>
      rw [if_pos hbound]
      split at hs
      next matchId hclaim =>
        rcases List.mem_cons.mp hs with rfl | h
        · exact .inl (claim_candidate matcher archivedFor candidates hclaim)
        · exact ih _ h
      next hclaim =>
        rcases List.mem_cons.mp hs with rfl | h
        · exact .inr (List.mem_cons_self ..)
        · exact (ih _ h).imp_right (List.mem_cons_of_mem _)
    next hbound =>
      rw [if_neg hbound]
      rcases List.mem_cons.mp hs with rfl | h
      · exact (hbound hp).elim
      · exact ih _ h

/-- Without a rebound slot nothing is rewritten. -/
theorem orderedIds_of_rebound_zero (claimedIds currentIds : List ℤ)
    (h : (rebindSlots matcher placeholderIds archivedFor candidates claimedIds
      currentIds).rebound = 0) :
    (rebindSlots matcher placeholderIds archivedFor candidates claimedIds
      currentIds).orderedIds = currentIds := by
  induction currentIds generalizing claimedIds with
  | nil => rfl
  | cons boundId rest ih =>
    rw [rebindSlots] at h ⊢
    split at h
    next hbound =>
      rw [if_pos hbound]
      split at h
      next => exact (Nat.succ_ne_zero _ h).elim
      next hclaim =>
        exact congrArg (boundId :: ·) (ih _ h)
    next hbound =>
      rw [if_neg hbound]
      exact congrArg (boundId :: ·) (ih _ h)

end Slots

section Bindings

variable {destination : Destination}

theorem held_bind (channelId c : ℤ) (streams : List ℤ)
    (sound : streams.Nodup ∧ ∀ s ∈ streams, s ∈ destination.streams) :
    (destination.bind channelId streams sound).held c =
      if c = channelId then (destination.held c).map fun _ => streams else destination.held c := by
  unfold Destination.held Destination.bind
  rw [Dict.get?_mapValues]
  cases destination.channels.get? c with
  | none => split <;> rfl
  | some record => split <;> simp_all

theorem channels_dropStreams (gone : ℤ → StreamRecord → Bool) :
    (destination.dropStreams gone).channels = destination.channels.mapValues fun _ record =>
      { record with streams := record.streams.filter (· ∈ destination.remaining gone) } := rfl

/-- Dropping streams that no channel holds leaves the channels as they are. -/
theorem dropStreams_channels (gone : ℤ → StreamRecord → Bool)
    (h : ∀ c streams s record, destination.held c = some streams → s ∈ streams →
      destination.streams.get? s = some record → gone s record = false) :
    (destination.dropStreams gone).channels = destination.channels := by
  rw [channels_dropStreams]
  apply Dict.mapValues_eq_self
  intro c record hc
  have hheld : destination.held c = some record.streams := by rw [Destination.held, hc]; rfl
  have hkept : record.streams.filter (· ∈ destination.remaining gone) = record.streams := by
    apply List.filter_eq_self.mpr
    intro s hs
    obtain ⟨stream, hstream⟩ := Dict.exists_get? ((destination.bound c record hc).2 s hs)
    have hgone := h c record.streams s stream hheld hs hstream
    have hremains : (destination.remaining gone).get? s = some stream := by
      rw [Destination.remaining, Dict.get?_filter, hstream]
      simp [Option.filter, hgone]
    exact decide_eq_true (Dict.mem_of_get? hremains)
  rw [hkept]

theorem get?_dropStreams {gone : ℤ → StreamRecord → Bool} {s : ℤ} {record : StreamRecord}
    (h : (destination.dropStreams gone).streams.get? s = some record) :
    destination.streams.get? s = some record ∧ gone s record = false := by
  have hfilter : ((destination.streams.get? s).filter fun record => !gone s record) =
      some record := by
    rw [← Dict.get?_filter destination.streams fun s record => !gone s record]
    exact h
  obtain ⟨hget, hkept⟩ := Option.filter_eq_some_iff.mp hfilter
  exact ⟨hget, by simpa using hkept⟩

end Bindings

section Requests

variable (upstream : Upstream) {w : World}

theorem request_destination :
    wp (request upstream) (fun _ w' => w'.destination = w.destination ∧ w'.issued = w.issued)
      (fun _ w' => w'.destination = w.destination ∧ w'.issued = w.issued) w := by
  unfold request
  rw [wp_bind, wp_get, wp_bind]
  show wp _ _ _ { w with writes := w.writes + 1 }
  apply (wp_ite _ _ _).mpr
  exact ⟨fun _ => ⟨rfl, rfl⟩, fun _ => ⟨rfl, rfl⟩⟩

/-- What a PATCH of a channel's streams leaves as it was. -/
structure Patched (channelId : ℤ) (w w' : World) : Prop where
  issued : w'.issued = w.issued
  streams : w'.destination.streams = w.destination.streams
  accounts : w'.destination.accounts = w.destination.accounts
  others : ∀ c, c ≠ channelId → w'.destination.held c = w.destination.held c

theorem updateChannelStreams_spec (channelId : ℤ) (streams : List ℤ) :
    wp (updateChannelStreams upstream channelId streams)
      (fun _ w' => Patched channelId w w' ∧ w'.destination.held channelId =
        (w.destination.held channelId).map fun _ => streams)
      (fun _ w' => w'.destination = w.destination ∧ w'.issued = w.issued) w := by
  unfold updateChannelStreams
  rw [wp_bind]
  apply wp_mono (request_destination upstream)
  · rintro _ w' ⟨hdest, hissued⟩
    rw [wp_bind, wp_get]
    split
    next sound =>
      show Patched channelId w _ ∧ (w'.destination.bind channelId streams sound).held channelId = _
      refine ⟨⟨hissued, by rw [← hdest]; rfl, by rw [← hdest]; rfl, ?_⟩, ?_⟩
      · intro c hc
        show (w'.destination.bind channelId streams sound).held c = _
        rw [held_bind, if_neg hc, hdest]
      · rw [held_bind, if_pos rfl, hdest]
    next => exact ⟨hdest, hissued⟩
  · exact fun _ _ h => h

/-- A delete is kept with what it found; it takes away the stream and nothing a channel holds. -/
theorem deleteStream_spec (streamId : ℤ)
    (hfree : ∀ c streams, w.destination.held c = some streams → streamId ∉ streams) :
    wp (deleteStream upstream streamId)
      (fun _ w' => w'.issued = w.issued ++ [(.stream streamId, w.destination)] ∧
        w'.destination.channels = w.destination.channels ∧
        w'.destination.accounts = w.destination.accounts ∧
        ∀ s record, w'.destination.streams.get? s = some record →
          w.destination.streams.get? s = some record ∧ s ≠ streamId)
      (fun _ w' => w'.issued = w.issued ++ [(.stream streamId, w.destination)] ∧
        w'.destination = w.destination) w := by
  unfold deleteStream
  rw [wp_bind, wp_modify, wp_bind]
  apply wp_mono (request_destination upstream)
  · rintro _ w' ⟨hdest, hissued⟩
    rw [wp_bind, wp_get]
    apply (wp_ite _ _ _).mpr
    constructor
    · intro _
      have hdrop : (w.destination.dropStream streamId).channels = w.destination.channels := by
        apply dropStreams_channels
        intro c streams s record hheld hs _
        exact decide_eq_false fun heq => hfree c streams hheld (heq ▸ hs)
      refine ⟨hissued, ?_, ?_, ?_⟩
      · show (w'.destination.dropStream streamId).channels = _
        rw [hdest, hdrop]
      · show w'.destination.accounts = _
        rw [hdest]
      · intro s record hs
        have hs' : (w.destination.dropStream streamId).streams.get? s = some record := by
          rw [← hdest]
          exact hs
        obtain ⟨hget, hne⟩ := get?_dropStreams hs'
        exact ⟨hget, by simpa using hne⟩
    · exact fun _ => ⟨hissued, hdest⟩
  · rintro _ w' ⟨hdest, hissued⟩
    exact ⟨hissued, hdest⟩

/-- Deleting an account without streams takes nothing else away. -/
theorem deleteM3uAccount_spec (accountId : ℤ)
    (hempty : ∀ s record, w.destination.streams.get? s = some record →
      record.m3uAccount ≠ some accountId) :
    wp (deleteM3uAccount upstream accountId)
      (fun _ w' => w'.issued = w.issued ++ [(.account accountId, w.destination)] ∧
        w'.destination.channels = w.destination.channels ∧
        ∀ s record, w'.destination.streams.get? s = some record →
          w.destination.streams.get? s = some record)
      (fun _ w' => w'.issued = w.issued ++ [(.account accountId, w.destination)] ∧
        w'.destination = w.destination) w := by
  unfold deleteM3uAccount
  rw [wp_bind, wp_modify, wp_bind]
  apply wp_mono (request_destination upstream)
  · rintro _ w' ⟨hdest, hissued⟩
    rw [wp_bind, wp_get]
    apply (wp_ite _ _ _).mpr
    constructor
    · intro _
      have hdrop : (w.destination.dropAccount accountId).channels = w.destination.channels := by
        apply dropStreams_channels
        intro c streams s record _ _ hs
        exact decide_eq_false (hempty s record hs)
      refine ⟨hissued, ?_, ?_⟩
      · show (w'.destination.dropAccount accountId).channels = _
        rw [hdest, hdrop]
      · intro s record hs
        have hs' : (w.destination.dropAccount accountId).streams.get? s = some record := by
          rw [← hdest]
          exact hs
        exact (get?_dropStreams hs').1
    · exact fun _ => ⟨hissued, hdest⟩
  · rintro _ w' ⟨hdest, hissued⟩
    exact ⟨hissued, hdest⟩

end Requests

section Channels

variable (upstream : Upstream) {sight : Sight} {matcher : Matcher} {w w' : World}

theorem candidates_listed {s : ℤ} (hs : s ∈ sight.candidates.map Prod.fst) :
    s ∉ sight.placeholders ∧ ∃ record, (s, record) ∈ sight.streams ∧
      urlCanServe record.url = true := by
  obtain ⟨row, hrow, rfl⟩ := List.mem_map.mp hs
  obtain ⟨hmem, hpass⟩ := List.mem_filter.mp hrow
  obtain ⟨hfresh, hserves⟩ := Bool.and_eq_true_iff.mp hpass
  exact ⟨of_decide_eq_true hfresh, row.2, hmem, hserves⟩

/-- What going over one channel does: it writes that channel or leaves it, and its outcome tells what
the channel holds then. -/
structure Settles (sight : Sight) (matcher : Matcher) (archivedFor : ℤ → Option StreamRecord)
    (channelId : ℤ) (streams : List ℤ) (outcome : ChannelRebind) (w w' : World) : Prop where
  patched : Patched channelId w w'
  held : w'.destination.held channelId =
      (w.destination.held channelId).map (fun _ => outcome.finalIds) ∨
    outcome.finalIds = streams ∧ w'.destination.held channelId = w.destination.held channelId
  length : outcome.finalIds.length = streams.length
  slots : ∀ s ∈ outcome.finalIds, s ∈ sight.candidates.map Prod.fst ∨ s ∈ streams
  retained : ∀ s ∈ outcome.finalIds, s ∈ sight.placeholders →
    s ∈ outcome.retainedPlaceholders
  kept : ∀ s ∈ streams, s ∈ (channelSlots matcher sight.placeholders archivedFor sight.candidates
    streams).orderedIds → s ∈ outcome.finalIds

theorem rebindOneChannel_settles (sight : Sight) (archivedFor : ℤ → Option StreamRecord)
    (channelId : ℤ) (streams : List ℤ) :
    wp (rebindOneChannel matcher sight.placeholders archivedFor sight.candidates upstream channelId
        streams)
      (fun outcome w' => Settles sight matcher archivedFor channelId streams outcome w w')
      (fun _ _ => False) w := by
  have hlength := rebindSlots_length matcher sight.placeholders archivedFor sight.candidates
    (streams.filter (· ∉ sight.placeholders)) streams
  have hslots := fun s => mem_rebindSlots (s := s) matcher sight.placeholders archivedFor
    sight.candidates (streams.filter (· ∉ sight.placeholders)) streams
  have hretained : ∀ s ∈ (channelSlots matcher sight.placeholders archivedFor sight.candidates
      streams).orderedIds, s ∈ sight.placeholders → s ∈ (channelSlots matcher sight.placeholders
        archivedFor sight.candidates streams).retained := by
    intro s hs hp
    rcases retained_rebindSlots matcher sight.placeholders archivedFor sight.candidates _ _ hs hp
      with hcand | h
    · exact ((candidates_listed hcand).1 hp).elim
    · exact h
  unfold rebindOneChannel
  apply (wp_ite _ _ _).mpr
  constructor
  · intro hzero
    have hsame := orderedIds_of_rebound_zero matcher sight.placeholders archivedFor sight.candidates
      _ _ hzero
    exact ⟨⟨rfl, rfl, rfl, fun _ _ => rfl⟩, .inr ⟨hsame, rfl⟩, hlength, hslots, hretained,
      fun _ _ hs => hs⟩
  · intro _
    rw [wp_bind, wp_attempt]
    apply wp_mono (updateChannelStreams_spec upstream channelId _)
    · rintro _ w' ⟨hpatched, hheld⟩
      exact ⟨hpatched, .inl hheld, hlength, hslots, hretained, fun _ _ hs => hs⟩
    · rintro _ w' ⟨hdest, hissued⟩
      refine ⟨⟨hissued, by rw [hdest], by rw [hdest], fun _ _ => by rw [hdest]⟩,
        .inr ⟨rfl, by rw [hdest]⟩, rfl, fun _ hs => .inr hs, ?_, fun _ hs _ => hs⟩
      intro s hs hp
      exact List.mem_filter.mpr ⟨hs, decide_eq_true hp⟩

/-- The loop over the channels: what a channel gone over holds is a candidate or is among what the
pass believes it was left with, and a placeholder among it is noted as still referenced. -/
structure Rebound (sight : Sight) (matcher : Matcher) (before : Destination)
    (final : Dict ℤ (List ℤ)) (still : List ℤ) (w : World) : Prop where
  issued : w.issued = []
  streams : w.destination.streams = before.streams
  accounts : w.destination.accounts = before.accounts
  untouched : ∀ c, c ∉ final → w.destination.held c = before.held c
  touched : ∀ c left, final.get? c = some left → ∃ streams holds,
    sight.current.get? c = some streams ∧ w.destination.held c = some holds ∧
      holds.length = streams.length ∧ ∀ s ∈ holds, s ∈ sight.candidates.map Prod.fst ∨
        s ∈ streams ∧ s ∈ left ∧ (s ∈ sight.placeholders → s ∈ still)
  kept : ∀ c left s, final.get? c = some left → sight.Keeps matcher c s →
    s ∈ left ∧ (s ∈ sight.placeholders → s ∈ still)

theorem Rebound.start (before : Destination) :
    Rebound sight matcher before ∅ [] (World.start before) where
  issued := rfl
  streams := rfl
  accounts := rfl
  untouched _ _ := rfl
  touched c left h := by cases h
  kept c left s h := by cases h

/-- What a listed channel holds before or after it was gone over. -/
theorem Rebound.holds {before : Destination} {final : Dict ℤ (List ℤ)} {still : List ℤ}
    (h : Rebound sight matcher before final still w)
    (hsight : ∀ c streams, sight.current.get? c = some streams → before.held c = some streams)
    {c : ℤ} {streams : List ℤ} (hc : sight.current.get? c = some streams) :
    ∃ holds, w.destination.held c = some holds ∧ holds.length = streams.length ∧
      ∀ s ∈ holds, s ∈ sight.candidates.map Prod.fst ∨ s ∈ streams := by
  by_cases hfinal : c ∈ final
  · obtain ⟨left, hleft⟩ := Dict.exists_get? hfinal
    obtain ⟨streams', holds, hcurrent, hheld, hlength, hin⟩ := h.touched c left hleft
    obtain rfl := Option.some.inj (hcurrent.symm.trans hc)
    exact ⟨holds, hheld, hlength, fun s hs => (hin s hs).imp_right fun h => h.1⟩
  · exact ⟨streams, by rw [h.untouched c hfinal, hsight c streams hc], rfl, fun s hs => .inr hs⟩

theorem Rebound.step {before : Destination} {final : Dict ℤ (List ℤ)} {still : List ℤ}
    (h : Rebound sight matcher before final still w)
    (hsight : ∀ c streams, sight.current.get? c = some streams → before.held c = some streams)
    {archivedFor : ℤ → Option StreamRecord} {channelId : ℤ} {streams : List ℤ}
    {outcome : ChannelRebind} (hc : sight.current.get? channelId = some streams)
    (hplan : archivedFor ∈ sight.plans channelId)
    (hone : Settles sight matcher archivedFor channelId streams outcome w w') :
    Rebound sight matcher before (final.set channelId outcome.finalIds)
      (still ++ outcome.retainedPlaceholders) w' where
  issued := hone.patched.issued.trans h.issued
  streams := hone.patched.streams.trans h.streams
  accounts := hone.patched.accounts.trans h.accounts
  untouched := by
    intro c hfinal
    rw [Dict.mem_set, not_or] at hfinal
    rw [hone.patched.others c hfinal.1, h.untouched c hfinal.2]
  touched := by
    intro c left hleft
    rw [Dict.get?_set] at hleft
    split at hleft
    next heq =>
      subst heq
      obtain rfl := Option.some.inj hleft
      obtain ⟨holds, hheld, hlength, hin⟩ := h.holds hsight hc
      rcases hone.held with hnew | ⟨hsame, hold⟩
      · rw [hheld] at hnew
        refine ⟨streams, outcome.finalIds, hc, hnew, hone.length, ?_⟩
        intro s hs
        exact (hone.slots s hs).imp_right fun hmem =>
          ⟨hmem, hs, fun hp => List.mem_append_right _ (hone.retained s hs hp)⟩
      · refine ⟨streams, holds, hc, by rw [hold, hheld], hlength, ?_⟩
        intro s hs
        exact (hin s hs).imp_right fun hmem =>
          ⟨hmem, hsame ▸ hmem, fun hp =>
            List.mem_append_right _ (hone.retained s (hsame ▸ hmem) hp)⟩
    next hne =>
      obtain ⟨streams', holds, hcurrent, hheld, hlength, hin⟩ := h.touched c left hleft
      refine ⟨streams', holds, hcurrent,
        by rw [hone.patched.others c (Ne.symm hne), hheld], hlength, ?_⟩
      intro s hs
      exact (hin s hs).imp_right fun h =>
        ⟨h.1, h.2.1, fun hp => List.mem_append_left _ (h.2.2 hp)⟩
  kept := by
    intro c left s hleft hkeeps
    rw [Dict.get?_set] at hleft
    split at hleft
    next heq =>
      subst heq
      obtain rfl := Option.some.inj hleft
      obtain ⟨streams', hcurrent, hmem, hslots⟩ := hkeeps
      obtain rfl := Option.some.inj (hcurrent.symm.trans hc)
      have hfinal := hone.kept s hmem (hslots archivedFor hplan)
      exact ⟨hfinal, fun hp => List.mem_append_right _ (hone.retained s hfinal hp)⟩
    next =>
      obtain ⟨hin, hstill⟩ := h.kept c left s hleft hkeeps
      exact ⟨hin, fun hp => List.mem_append_left _ (hstill hp)⟩

end Channels

section Deletes

variable (upstream : Upstream) {base : Destination} {gone : List ℤ} {w : World}

/-- The deletes so far: the channels are as they were, streams only went, those noted as deleted
did, and no delete cut anything. -/
structure Cleaned (base : Destination) (gone : List ℤ) (w : World) : Prop where
  channels : w.destination.channels = base.channels
  streams : ∀ s record, w.destination.streams.get? s = some record →
    base.streams.get? s = some record ∧ s ∉ gone
  harmless : ∀ r destination, (r, destination) ∈ w.issued → r.Harmless destination

/-- A destination no delete was issued to yet. -/
theorem Cleaned.start (hissued : w.issued = []) : Cleaned w.destination [] w where
  channels := rfl
  streams _ _ h := ⟨h, List.not_mem_nil⟩
  harmless r destination h := by
    rw [hissued] at h
    exact (List.not_mem_nil h).elim

theorem Cleaned.held (h : Cleaned base gone w) (c : ℤ) :
    w.destination.held c = base.held c := by
  unfold Destination.held
  rw [h.channels]

/-- One more harmless delete was issued. -/
theorem Cleaned.issue (h : Cleaned base gone w) (removal : Removal) {w' : World}
    (hharmless : removal.Harmless w.destination)
    (hissued : w'.issued = w.issued ++ [(removal, w.destination)]) :
    ∀ r destination, (r, destination) ∈ w'.issued → r.Harmless destination := by
  intro r destination hr
  rw [hissued] at hr
  rcases List.mem_append.mp hr with hr | hr
  · exact h.harmless r destination hr
  · cases List.mem_singleton.mp hr
    exact hharmless

theorem deleteAndNote_cleaned {deletedIds : List ℤ} {streamId : ℤ}
    (h : Cleaned base (gone ++ deletedIds) w)
    (hfree : ∀ c streams, base.held c = some streams → streamId ∉ streams) :
    wp (deleteAndNote upstream deletedIds streamId)
      (fun deletedIds' w' => Cleaned base (gone ++ deletedIds') w' ∧
        w'.destination.accounts = w.destination.accounts ∧
        ∀ s ∈ deletedIds', s ∈ deletedIds ∨ s = streamId) (fun _ _ => False) w := by
  have hfree' : ∀ c streams, w.destination.held c = some streams → streamId ∉ streams := by
    intro c streams hc
    exact hfree c streams (by rw [← h.held c, hc])
  unfold deleteAndNote
  rw [wp_bind, wp_attempt]
  apply wp_mono (deleteStream_spec upstream streamId hfree')
  · rintro _ w' ⟨hissued, hchannels, haccounts, hstreams⟩
    refine ⟨⟨hchannels.trans h.channels, ?_, h.issue (.stream streamId) hfree' hissued⟩,
      haccounts, by simp⟩
    intro s record hs
    obtain ⟨hold, hne⟩ := hstreams s record hs
    obtain ⟨hbase, hgone⟩ := h.streams s record hold
    exact ⟨hbase, by simpa [hne] using hgone⟩
  · rintro _ w' ⟨hissued, hdest⟩
    exact ⟨⟨by rw [hdest, h.channels], by rw [hdest]; exact h.streams,
      h.issue (.stream streamId) hfree' hissued⟩, by rw [hdest], fun _ hs => .inl hs⟩

/-- The deletes of streams no channel holds. -/
theorem deletes_cleaned (xs : List ℤ) (h : Cleaned base gone w)
    (hfree : ∀ s ∈ xs, ∀ c streams, base.held c = some streams → s ∉ streams) :
    wp (fold (deleteAndNote upstream) [] xs)
      (fun deletedIds w' => Cleaned base (gone ++ deletedIds) w' ∧
        w'.destination.accounts = w.destination.accounts ∧ ∀ s ∈ deletedIds, s ∈ xs)
      (fun _ _ => False) w := by
  have hstep : ∀ streamId rest deletedIds w', (Cleaned base (gone ++ deletedIds) w' ∧
      w'.destination.accounts = w.destination.accounts) ∧ (∀ s ∈ deletedIds, s ∈ xs) ∧
      (∀ s ∈ streamId :: rest, s ∈ xs) →
      wp (deleteAndNote upstream deletedIds streamId) (fun deletedIds' w'' =>
        (Cleaned base (gone ++ deletedIds') w'' ∧
          w''.destination.accounts = w.destination.accounts) ∧ (∀ s ∈ deletedIds', s ∈ xs) ∧
          ∀ s ∈ rest, s ∈ xs) (fun _ _ => False) w' := by
    rintro streamId rest deletedIds w' ⟨⟨hclean, haccounts⟩, hin, hrest⟩
    have hmem : streamId ∈ xs := hrest streamId (List.mem_cons_self ..)
    apply wp_mono (deleteAndNote_cleaned upstream hclean (hfree streamId hmem)) _ fun _ _ h => h
    rintro deletedIds' w'' ⟨hclean', haccounts', hin'⟩
    refine ⟨⟨hclean', haccounts'.trans haccounts⟩, ?_,
      fun s hs => hrest s (List.mem_cons_of_mem _ hs)⟩
    intro s hs
    rcases hin' s hs with hs | rfl
    · exact hin s hs
    · exact hmem
  have hrun := wp_fold (fun rest deletedIds w' => (Cleaned base (gone ++ deletedIds) w' ∧
    w'.destination.accounts = w.destination.accounts) ∧ (∀ s ∈ deletedIds, s ∈ xs) ∧
      ∀ s ∈ rest, s ∈ xs) xs hstep
  apply wp_mono (hrun [] w ⟨⟨by rwa [List.append_nil], rfl⟩, by simp, fun _ hs => hs⟩)
  · exact fun _ _ h => ⟨h.1.1, h.1.2, h.2.1⟩
  · exact fun _ _ h => h

/-- The deletes of accounts without streams. -/
theorem dropEmptySyntheticAccount_cleaned (allStreams : List (ℤ × StreamRecord))
    (deletedIds syntheticIds : List ℤ) (h : Cleaned base gone w)
    (hempty : ∀ a ∈ syntheticIds, a ∉ occupiedAccounts allStreams deletedIds →
      ∀ s record, base.streams.get? s = some record → s ∉ gone → record.m3uAccount ≠ some a) :
    wp (dropEmptySyntheticAccount upstream allStreams deletedIds syntheticIds)
      (fun _ w' => Cleaned base gone w') (fun _ _ => False) w := by
  have hstep : ∀ accountId rest deletedAny w', Cleaned base gone w' ∧
      (∀ a ∈ accountId :: rest, a ∈ syntheticIds ∧ a ∉ occupiedAccounts allStreams deletedIds) →
      wp (do if ← attempt (deleteM3uAccount upstream accountId) then pure true else pure deletedAny)
        (fun _ w'' => Cleaned base gone w'' ∧
          ∀ a ∈ rest, a ∈ syntheticIds ∧ a ∉ occupiedAccounts allStreams deletedIds)
        (fun _ _ => False) w' := by
    rintro accountId rest deletedAny w' ⟨hclean, hrest⟩
    obtain ⟨hsynthetic, hfree⟩ := hrest accountId (List.mem_cons_self ..)
    have hrest' : ∀ a ∈ rest, a ∈ syntheticIds ∧ a ∉ occupiedAccounts allStreams deletedIds :=
      fun a ha => hrest a (List.mem_cons_of_mem _ ha)
    have hnone : ∀ s record, w'.destination.streams.get? s = some record →
        record.m3uAccount ≠ some accountId := by
      intro s record hs
      obtain ⟨hbase, hgone⟩ := hclean.streams s record hs
      exact hempty accountId hsynthetic hfree s record hbase hgone
    rw [wp_bind, wp_attempt]
    apply wp_mono (deleteM3uAccount_spec upstream accountId hnone)
    · rintro _ w'' ⟨hissued, hchannels, hstreams⟩
      exact ⟨⟨hchannels.trans hclean.channels,
        fun s record hs => hclean.streams s record (hstreams s record hs),
        hclean.issue (.account accountId) hnone hissued⟩, hrest'⟩
    · rintro _ w'' ⟨hissued, hdest⟩
      exact ⟨⟨by rw [hdest, hclean.channels], by rw [hdest]; exact hclean.streams,
        hclean.issue (.account accountId) hnone hissued⟩, hrest'⟩
  have hrun := wp_fold (fun rest _ w' => Cleaned base gone w' ∧ ∀ a ∈ rest, a ∈ syntheticIds ∧
    a ∉ occupiedAccounts allStreams deletedIds) ((syntheticIds.dedup.insertionSort (· ≤ ·)).filter
      (· ∉ occupiedAccounts allStreams deletedIds)) hstep
  unfold dropEmptySyntheticAccount
  apply wp_mono (hrun false w ⟨h, ?_⟩) (fun _ _ h => h.1) fun _ _ h => h
  intro a ha
  obtain ⟨hmem, hnot⟩ := List.mem_filter.mp ha
  exact ⟨List.mem_dedup.mp ((List.mem_insertionSort _).mp hmem), of_decide_eq_true hnot⟩

end Deletes

section Decisions

variable {sight : Sight} {matcher : Matcher} {before : Destination} {final : Dict ℤ (List ℤ)}
  {still : List ℤ} {w : World}

/-- What a pass lists is there. -/
structure Truthful (sight : Sight) (before : Destination) : Prop where
  current : ∀ c streams, sight.current.get? c = some streams → before.held c = some streams
  streams : ∀ row ∈ sight.streams, before.streams.get? row.1 = some row.2

theorem mem_referencedIds {c s : ℤ} {streams : List ℤ}
    (hc : sight.current.get? c = some streams) (hs : s ∈ (final.get? c).getD streams) :
    s ∈ referencedIds sight.current final :=
  List.mem_flatMap.mpr ⟨(c, streams), (Dict.get?_eq_some _ _ _).mp hc, hs⟩

/-- A stream that a listed channel keeps is referenced. -/
theorem Rebound.referenced (h : Rebound sight matcher before final still w) {c s : ℤ}
    (hkeeps : sight.Keeps matcher c s) : s ∈ referencedIds sight.current final := by
  obtain ⟨streams, hc, hs, hslots⟩ := hkeeps
  apply mem_referencedIds hc
  cases hfinal : final.get? c with
  | none => exact hs
  | some left => exact (h.kept c left s hfinal ⟨streams, hc, hs, hslots⟩).1

/-- No channel holds a stream the pass deletes as its own. -/
theorem Rebound.orphan_free (h : Rebound sight matcher before final still w)
    (hcovers : sight.Covers matcher before) (howned : ∀ s ∈ sight.owned, s ∈ sight.placeholders)
    (hdone : ∀ s ∈ sight.owned, ∀ c, sight.Covered c → c ∈ final)
    {s : ℤ} (hs : s ∈ sight.owned) (hstill : s ∉ still) :
    ∀ c streams, w.destination.held c = some streams → s ∉ streams := by
  intro c streams hheld hmem
  by_cases hc : c ∈ final
  · obtain ⟨left, hleft⟩ := Dict.exists_get? hc
    obtain ⟨_, holds, -, hholds, -, hin⟩ := h.touched c left hleft
    obtain rfl := Option.some.inj (hholds.symm.trans hheld)
    rcases hin s hmem with hcand | ⟨-, -, hnoted⟩
    · exact (candidates_listed hcand).1 (howned s hs)
    · exact hstill (hnoted (howned s hs))
  · rw [h.untouched c hc] at hheld
    rcases hcovers.owned s hs c streams hheld hmem with hcovered | ⟨d, hcovered, hkeeps⟩
    · exact hc (hdone s hs c hcovered)
    · obtain ⟨left, hleft⟩ := Dict.exists_get? (hdone s hs d hcovered)
      exact hstill ((h.kept d left s hleft hkeeps).2 (howned s hs))

/-- No channel holds a stream the sweep takes. -/
theorem Rebound.sweep_free (h : Rebound sight matcher before final still w)
    (hcovers : sight.Covers matcher before) (hsight : Truthful sight before)
    {row : ℤ × StreamRecord} (hrow : row ∈ sight.streams) {alreadyDeleted : List ℤ}
    (hsweep : sweepable (referencedIds sight.current final) alreadyDeleted sight.syntheticIds row) :
    ∀ c streams, w.destination.held c = some streams → row.1 ∉ streams := by
  intro c streams hheld hmem
  unfold sweepable at hsweep
  simp only [Bool.and_eq_true, decide_eq_true_eq, Bool.not_eq_true'] at hsweep
  obtain ⟨⟨⟨-, hdead⟩, hsynthetic⟩, hfree⟩ := hsweep
  by_cases hlisted : c ∈ sight.current
  · obtain ⟨listed, hc⟩ := Dict.exists_get? hlisted
    cases hfinal : final.get? c with
    | none =>
      have hnew : c ∉ final := (Dict.get?_eq_none _ _).mp hfinal
      rw [h.untouched c hnew, hsight.current c listed hc] at hheld
      obtain rfl := Option.some.inj hheld
      exact hfree (mem_referencedIds hc (by rwa [hfinal]))
    | some left =>
      obtain ⟨_, holds, -, hholds, -, hin⟩ := h.touched c left hfinal
      obtain rfl := Option.some.inj (hholds.symm.trans hheld)
      rcases hin row.1 hmem with hcand | ⟨-, hleft, -⟩
      · obtain ⟨-, record, hrecord, hserves⟩ := candidates_listed hcand
        have hsame := (hsight.streams _ hrecord).symm.trans (hsight.streams row hrow)
        obtain rfl : record = row.2 := Option.some.inj hsame
        rw [hdead] at hserves
        cases hserves
      · exact hfree (mem_referencedIds hc (by rwa [hfinal]))
  · have hnew : c ∉ final := by
      intro hc
      obtain ⟨left, hleft⟩ := Dict.exists_get? hc
      obtain ⟨_, _, hcurrent, -⟩ := h.touched c left hleft
      exact hlisted (Dict.mem_of_get? hcurrent)
    rw [h.untouched c hnew] at hheld
    rcases hcovers.residue row hrow hdead hsynthetic c streams hheld hmem with hc | ⟨d, hkeeps⟩
    · exact hlisted hc
    · exact hfree (h.referenced hkeeps)

/-- Why a stream was deleted: as the pass's own, or by the sweep. -/
def Condemned (sight : Sight) (final : Dict ℤ (List ℤ)) (still alreadyDeleted : List ℤ) (s : ℤ) :
    Prop :=
  s ∈ sight.owned ∧ s ∉ still ∨ ∃ row ∈ sight.streams, row.1 = s ∧
    sweepable (referencedIds sight.current final) alreadyDeleted sight.syntheticIds row

/-- An account that looks empty after the deletes is. -/
theorem Rebound.account_empty (h : Rebound sight matcher before final still w)
    (hcovers : sight.Covers matcher before) (hsight : Truthful sight before)
    (howned : ∀ s ∈ sight.owned, s ∈ sight.placeholders)
    (hdone : ∀ s ∈ sight.owned, ∀ c, sight.Covered c → c ∈ final) {removed alreadyDeleted : List ℤ}
    (hremoved : ∀ s ∈ removed, Condemned sight final still alreadyDeleted s) {a : ℤ}
    (ha : a ∈ sight.syntheticIds) (hfree : a ∉ occupiedAccounts sight.streams removed) (s : ℤ)
    (record : StreamRecord) (hs : before.streams.get? s = some record) (hgone : s ∉ removed) :
    record.m3uAccount ≠ some a := by
  intro haccount
  have hoccupied : ∀ row ∈ sight.streams, row.2.m3uAccount = some a → row.1 ∈ removed := by
    intro row hrow hrowAccount
    by_contra hkept
    apply hfree
    exact List.mem_filterMap.mpr
      ⟨row, List.mem_filter.mpr ⟨hrow, decide_eq_true hkept⟩, hrowAccount⟩
  rcases hcovers.accounts a ha with hall | ⟨row, hrow, hrowAccount, hkeepOwned, hkeepSwept⟩
  · exact hgone (hoccupied (s, record) (hall s record hs haccount) haccount)
  · rcases hremoved row.1 (hoccupied row hrow hrowAccount) with ⟨hown, hstill⟩ | hswept
    · obtain ⟨c, hcovered, hkeeps⟩ := hkeepOwned hown
      obtain ⟨left, hleft⟩ := Dict.exists_get? (hdone row.1 hown c hcovered)
      exact hstill ((h.kept c left row.1 hleft hkeeps).2 (howned row.1 hown))
    · obtain ⟨row', hrow', heq, hsweep⟩ := hswept
      have hrecord : row' = row := by
        have hsame := hsight.streams row' hrow'
        rw [heq, hsight.streams row hrow] at hsame
        exact Prod.ext heq (Option.some.inj hsame).symm
      subst hrecord
      unfold sweepable at hsweep
      simp only [Bool.and_eq_true, decide_eq_true_eq, Bool.not_eq_true'] at hsweep
      rcases hkeepSwept with hserves | ⟨c, hkeeps⟩
      · rw [hsweep.1.1.2] at hserves
        cases hserves
      · exact hsweep.2 (h.referenced hkeeps)

/-- Deletes that cut nothing after a loop that shortened no channel. -/
theorem Rebound.uncut (h : Rebound sight matcher before final still w)
    (hsight : Truthful sight before) {gone : List ℤ} {w' : World}
    (hclean : Cleaned w.destination gone w') : Uncut before w' where
  harmless := hclean.harmless
  bindings := by
    intro c streams hc
    rw [hclean.held]
    by_cases hfinal : c ∈ final
    · obtain ⟨left, hleft⟩ := Dict.exists_get? hfinal
      obtain ⟨listed, holds, hcurrent, hheld, hlength, -⟩ := h.touched c left hleft
      obtain rfl := Option.some.inj ((hsight.current c listed hcurrent).symm.trans hc)
      exact ⟨holds, hheld, hlength.ge⟩
    · exact ⟨streams, by rw [h.untouched c hfinal, hc], le_rfl⟩

end Decisions

section Listed

variable (upstream : Upstream) (before : Destination)

theorem current_listed {c : ℤ} {streams : List ℤ}
    (h : (currentByChannel (listChannels upstream before)).get? c = some streams) :
    before.held c = some streams := by
  have hinitial : listChannels upstream before <+: before.channels.items := fetchAll_initial _ _
  have hkeys : (((listChannels upstream before).map fun row => (row.1, row.2.streams)).map
      Prod.fst).Nodup := by
    rw [List.map_map]
    exact before.channels.nodup_keys.sublist (hinitial.sublist.map Prod.fst)
  rw [Dict.get?_eq_some, currentByChannel, Dict.items_ofList _ hkeys] at h
  obtain ⟨row, hrow, heq⟩ := List.mem_map.mp h
  cases heq
  rw [Destination.held, (Dict.get?_eq_some _ _ row.2).mpr (hinitial.subset hrow)]
  rfl

theorem mem_current {row : ℤ × ChannelRecord} (h : row ∈ listChannels upstream before) :
    (currentByChannel (listChannels upstream before)).get? row.1 = some row.2.streams := by
  have hinitial : listChannels upstream before <+: before.channels.items := fetchAll_initial _ _
  have hkeys : (((listChannels upstream before).map fun row => (row.1, row.2.streams)).map
      Prod.fst).Nodup := by
    rw [List.map_map]
    exact before.channels.nodup_keys.sublist (hinitial.sublist.map Prod.fst)
  rw [Dict.get?_eq_some, currentByChannel, Dict.items_ofList _ hkeys]
  exact List.mem_map.mpr ⟨row, h, rfl⟩

theorem streams_listed {row : ℤ × StreamRecord} (h : row ∈ listStreams upstream none before) :
    before.streams.get? row.1 = some row.2 := by
  have hmem := (fetchAll_initial _ _).subset h
  exact (Dict.get?_eq_some _ _ _).mpr (List.mem_of_mem_filter hmem)

end Listed

end ChannelManager.Dbas
