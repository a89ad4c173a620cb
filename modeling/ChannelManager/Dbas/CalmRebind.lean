import ChannelManager.Dbas.RebindRuns

/-!
# A rebind in which every call succeeds

Listings of up to two hundred thousand rows come back whole, every rewritten channel is accepted,
and the deletes take exactly the streams they are for.
-/

namespace ChannelManager.Dbas

open Eff

/-- The listings of the destination come back whole. -/
structure Fits (destination : Destination) : Prop where
  streams : destination.streams.items.length ≤ maxPages * streamPageSize
  channels : destination.channels.items.length ≤ maxPages * streamPageSize

/-- A walk on which no page raises collects as many rows as its pages hold. -/
theorem fetchPages_calm {α : Type} (rows : List α) (remaining page : ℕ) (hp : 1 ≤ page) :
    fetchPages (fun _ => false) rows remaining page (rows.take ((page - 1) * streamPageSize)) =
      rows.take ((page - 1 + remaining) * streamPageSize) := by
  induction remaining generalizing page with
  | zero => rfl
  | succ remaining ih =>
    have hsize : (page + 1 - 1) * streamPageSize = (page - 1) * streamPageSize + streamPageSize := by
      obtain ⟨k, rfl⟩ : ∃ k, page = k + 1 := ⟨page - 1, by omega⟩
      rw [Nat.add_sub_cancel, Nat.add_sub_cancel, Nat.succ_mul]
    have hnext : rows.take ((page - 1) * streamPageSize) ++ pageRows rows page =
        rows.take ((page + 1 - 1) * streamPageSize) := by
      rw [hsize, List.take_add]
      rfl
    rw [fetchPages, hnext, if_neg (by simp)]
    split
    next hshort =>
      have hend : rows.length ≤ (page + 1 - 1) * streamPageSize := by
        rw [hsize]
        rw [pageRows, List.length_take, List.length_drop] at hshort
        omega
      have hmore : (page + 1 - 1) * streamPageSize ≤ (page - 1 + (remaining + 1)) * streamPageSize :=
        Nat.mul_le_mul_right _ (by omega)
      rw [List.take_of_length_le hend, List.take_of_length_le (hend.trans hmore)]
    next =>
      rw [ih (page + 1) (by omega)]
      congr 2
      omega

theorem fetchAll_calm {α : Type} (rows : List α) :
    fetchAll (fun _ => false) rows = rows.take (maxPages * streamPageSize) := by
  have h := fetchPages_calm rows maxPages 1 le_rfl
  rwa [Nat.sub_self, Nat.zero_mul, List.take_zero, Nat.zero_add] at h

theorem listStreams_calm {destination : Destination} (h : Fits destination) :
    listStreams calmUpstream none destination = destination.streams.items := by
  unfold listStreams calmUpstream
  rw [fetchAll_calm]
  simp only [Option.isNone_none, Bool.true_or, List.filter_true]
  exact List.take_of_length_le h.streams

theorem listChannels_calm {destination : Destination} (h : Fits destination) :
    listChannels calmUpstream destination = destination.channels.items := by
  unfold listChannels calmUpstream
  rw [fetchAll_calm]
  exact List.take_of_length_le h.channels

theorem get?_current_calm {destination : Destination} (h : Fits destination) (c : ℤ) :
    (currentByChannel (listChannels calmUpstream destination)).get? c = destination.held c := by
  apply Option.ext
  intro streams
  constructor
  · exact current_listed calmUpstream destination
  · intro hheld
    obtain ⟨record, hrecord, rfl⟩ := Option.map_eq_some_iff.mp hheld
    have hitem : (c, record) ∈ listChannels calmUpstream destination := by
      rw [listChannels_calm h]
      exact (Dict.get?_eq_some _ _ _).mp hrecord
    exact mem_current calmUpstream destination hitem

section Slots

variable (matcher : Matcher) (placeholderIds : List ℤ) (archivedFor : ℤ → Option StreamRecord)
  (candidates : List (ℤ × StreamRecord))

/-- No stream is given to two slots: a match is neither claimed nor waiting in a later slot. -/
theorem rebindSlots_nodup (hfresh : ∀ s ∈ candidates.map Prod.fst, s ∉ placeholderIds)
    (claimedIds currentIds : List ℤ) (hn : currentIds.Nodup)
    (hclaimed : ∀ s ∈ currentIds, s ∉ placeholderIds → s ∈ claimedIds) :
    (rebindSlots matcher placeholderIds archivedFor candidates claimedIds
        currentIds).orderedIds.Nodup ∧
      ∀ s ∈ (rebindSlots matcher placeholderIds archivedFor candidates claimedIds
        currentIds).orderedIds, s ∈ currentIds ∨ s ∉ claimedIds := by
  induction currentIds generalizing claimedIds with
  | nil => exact ⟨List.nodup_nil, fun s hs => (List.not_mem_nil hs).elim⟩
  | cons boundId rest ih =>
    obtain ⟨hnot, hrest⟩ := List.nodup_cons.mp hn
    have hlater : ∀ s ∈ rest, s ∉ placeholderIds → s ∈ claimedIds :=
      fun s hs => hclaimed s (List.mem_cons_of_mem _ hs)
    -- What is claimed on the way only adds to what later slots may not take.
    have hadded : ∀ x, (rebindSlots matcher placeholderIds archivedFor candidates (x :: claimedIds)
        rest).orderedIds.Nodup ∧ ∀ s ∈ (rebindSlots matcher placeholderIds archivedFor candidates
          (x :: claimedIds) rest).orderedIds, s ∈ rest ∨ s ≠ x ∧ s ∉ claimedIds := by
      intro x
      obtain ⟨hnodup, hin⟩ := ih (x :: claimedIds) hrest
        fun s hs hp => List.mem_cons_of_mem _ (hlater s hs hp)
      refine ⟨hnodup, fun s hs => (hin s hs).imp_right ?_⟩
      exact fun h => ⟨fun heq => h (heq ▸ List.mem_cons_self ..),
        fun hmem => h (List.mem_cons_of_mem _ hmem)⟩
    rw [rebindSlots]
    split
    · split
      next matchId hclaim =>
        have hfreshMatch : matchId ∉ claimedIds :=
          of_decide_eq_true (Option.filter_eq_some_iff.mp hclaim).2
        have hcandidate := claim_candidate matcher archivedFor candidates hclaim
        obtain ⟨hnodup, hin⟩ := hadded matchId
        constructor
        · refine List.nodup_cons.mpr ⟨fun hmem => ?_, hnodup⟩
          rcases hin matchId hmem with hwaiting | ⟨hne, -⟩
          · exact hfreshMatch (hlater matchId hwaiting (hfresh matchId hcandidate))
          · exact hne rfl
        · intro s hs
          rcases List.mem_cons.mp hs with rfl | hs
          · exact .inr hfreshMatch
          · exact (hin s hs).imp (List.mem_cons_of_mem _) fun h => h.2
      next =>
        obtain ⟨hnodup, hin⟩ := hadded boundId
        constructor
        · refine List.nodup_cons.mpr ⟨fun hmem => ?_, hnodup⟩
          rcases hin boundId hmem with hwaiting | ⟨hne, -⟩
          · exact hnot hwaiting
          · exact hne rfl
        · intro s hs
          rcases List.mem_cons.mp hs with rfl | hs
          · exact .inl (List.mem_cons_self ..)
          · exact (hin s hs).imp (List.mem_cons_of_mem _) fun h => h.2
    next hreal =>
      obtain ⟨hnodup, hin⟩ := ih claimedIds hrest hlater
      constructor
      · refine List.nodup_cons.mpr ⟨fun hmem => ?_, hnodup⟩
        rcases hin boundId hmem with hwaiting | hfree
        · exact hnot hwaiting
        · exact hfree (hclaimed boundId (List.mem_cons_self ..) hreal)
      · intro s hs
        rcases List.mem_cons.mp hs with rfl | hs
        · exact .inl (List.mem_cons_self ..)
        · exact (hin s hs).imp_left (List.mem_cons_of_mem _)

/-- A channel without placeholders is left as it is. -/
theorem rebindSlots_real (claimedIds currentIds : List ℤ)
    (hreal : ∀ s ∈ currentIds, s ∉ placeholderIds) :
    rebindSlots matcher placeholderIds archivedFor candidates claimedIds currentIds =
      ⟨currentIds, 0, []⟩ := by
  induction currentIds with
  | nil => rfl
  | cons boundId rest ih =>
    rw [rebindSlots, if_neg (hreal boundId (List.mem_cons_self ..)),
      ih fun s hs => hreal s (List.mem_cons_of_mem _ hs)]

end Slots

section Requests

variable {w : World} {base : Destination}

theorem request_calm :
    wp (request calmUpstream) (fun _ w' => w'.destination = w.destination ∧ w'.issued = w.issued)
      (fun _ _ => False) w := by
  unfold request
  rw [wp_bind, wp_get, wp_bind, wp_set]
  apply (wp_ite _ _ _).mpr
  exact ⟨fun h => Bool.false_ne_true h, fun _ => ⟨rfl, rfl⟩⟩

theorem updateChannelStreams_calm (channelId : ℤ) (streams : List ℤ)
    (sound : streams.Nodup ∧ ∀ s ∈ streams, s ∈ w.destination.streams) :
    wp (updateChannelStreams calmUpstream channelId streams)
      (fun _ w' => Patched channelId w w' ∧ w'.destination.held channelId =
        (w.destination.held channelId).map fun _ => streams) (fun _ _ => False) w := by
  have hspec := updateChannelStreams_spec (w := w) calmUpstream channelId streams
  have hok : wp (updateChannelStreams calmUpstream channelId streams) (fun _ _ => True)
      (fun _ _ => False) w := by
    unfold updateChannelStreams
    rw [wp_bind]
    apply wp_mono request_calm _ fun _ _ h => h
    rintro _ w' ⟨hdest, -⟩
    rw [wp_bind, wp_get, dif_pos (hdest ▸ sound)]
    trivial
  exact wp_mono (wp_and hspec hok) (fun _ _ h => h.1) fun _ _ h => h.2

/-- The deletes so far took the streams they were for off the destination and off its channels. -/
structure Trimmed (base : Destination) (deletedIds : List ℤ) (w : World) : Prop where
  accounts : w.destination.accounts = base.accounts
  streams : w.destination.streams.items = base.streams.items.filter (·.1 ∉ deletedIds)
  held : ∀ c, w.destination.held c =
    (base.held c).map fun streams => streams.filter (· ∉ deletedIds)

theorem Trimmed.start : Trimmed w.destination [] w where
  accounts := rfl
  streams := by simp
  held c := by
    cases w.destination.held c with
    | none => rfl
    | some streams => simp

theorem Trimmed.get?_streams {deletedIds : List ℤ} (h : Trimmed base deletedIds w) (s : ℤ) :
    w.destination.streams.get? s = if s ∈ deletedIds then none else base.streams.get? s := by
  have hdict : w.destination.streams = base.streams.filter fun s _ => s ∉ deletedIds :=
    Dict.ext h.streams
  rw [hdict, Dict.get?_filter]
  cases base.streams.get? s with
  | none => simp
  | some record => by_cases hs : s ∈ deletedIds <;> simp [hs]

theorem mem_dropStream (destination : Destination) (streamId s : ℤ) :
    s ∈ destination.remaining (fun s _ => s = streamId) ↔ s ∈ destination.streams ∧ s ≠ streamId := by
  rw [← Dict.isSome_get?, Destination.remaining, Dict.get?_filter, ← Dict.isSome_get?]
  cases destination.streams.get? s with
  | none => simp
  | some record => by_cases hs : s = streamId <;> simp [hs]

theorem held_dropStream (destination : Destination) (streamId c : ℤ) :
    (destination.dropStream streamId).held c =
      (destination.held c).map fun streams => streams.filter (· ≠ streamId) := by
  unfold Destination.dropStream Destination.held
  rw [channels_dropStreams, Dict.get?_mapValues]
  cases hrecord : destination.channels.get? c with
  | none => rfl
  | some record =>
    refine congrArg some (List.filter_congr fun s hs => ?_)
    have hexists := (destination.bound c record hrecord).2 s hs
    exact decide_eq_decide.mpr (by rw [mem_dropStream]; exact and_iff_right hexists)

theorem deleteAndNote_calm {deletedIds : List ℤ} {streamId : ℤ} {prior : List ℤ}
    (h : Trimmed base (prior ++ deletedIds) w) :
    wp (deleteAndNote calmUpstream deletedIds streamId)
      (fun deletedIds' w' => Trimmed base (prior ++ deletedIds') w' ∧
        deletedIds' = deletedIds ++ (if streamId ∈ w.destination.streams then [streamId] else []))
      (fun _ _ => False) w := by
  unfold deleteAndNote
  rw [wp_bind, wp_attempt]
  unfold deleteStream
  rw [wp_bind, wp_modify, wp_bind]
  apply wp_mono request_calm _ fun _ _ h => h.elim
  rintro _ w' ⟨hdest, -⟩
  rw [wp_bind, wp_get]
  apply (wp_ite _ _ _).mpr
  constructor
  · intro hpresent
    have hpresent' : streamId ∈ w.destination.streams := by
      rw [hdest] at hpresent
      exact hpresent
    show Trimmed base (prior ++ (deletedIds ++ [streamId]))
      { w' with destination := w'.destination.dropStream streamId } ∧ _
    refine ⟨⟨?_, ?_, ?_⟩, by rw [if_pos hpresent']⟩
    · show w'.destination.accounts = _
      rw [hdest]
      exact h.accounts
    · show w'.destination.streams.items.filter _ = _
      rw [hdest]
      show w.destination.streams.items.filter _ = _
      rw [h.streams, List.filter_filter]
      apply List.filter_congr
      intro row _
      by_cases hrow : row.1 = streamId <;> simp [hrow]
    · intro c
      show (w'.destination.dropStream streamId).held c = _
      rw [held_dropStream, hdest]
      show (w.destination.held c).map _ = _
      rw [h.held]
      cases base.held c with
      | none => rfl
      | some streams =>
        simp only [Option.map_some, List.filter_filter]
        refine congrArg some (List.filter_congr fun s _ => ?_)
        by_cases hs : s = streamId <;> simp [hs]
  · intro habsent
    have habsent' : streamId ∉ w.destination.streams := by
      rw [hdest] at habsent
      exact habsent
    refine ⟨⟨?_, ?_, ?_⟩, by rw [if_neg habsent', List.append_nil]⟩
    · rw [hdest]
      exact h.accounts
    · rw [hdest]
      exact h.streams
    · rw [hdest]
      exact h.held

/-- Every stream there is among those to delete is deleted, and no other. -/
theorem deletes_calm {prior : List ℤ} (xs : List ℤ) (h : Trimmed base prior w) :
    wp (fold (deleteAndNote calmUpstream) [] xs)
      (fun deletedIds w' => Trimmed base (prior ++ deletedIds) w' ∧ (∀ s ∈ deletedIds, s ∈ xs) ∧
        ∀ s ∈ xs, s ∈ base.streams → s ∈ prior ++ deletedIds) (fun _ _ => False) w := by
  have hstep : ∀ streamId rest deletedIds w', Trimmed base (prior ++ deletedIds) w' ∧
      (∀ s ∈ deletedIds, s ∈ xs) ∧ (∀ s ∈ streamId :: rest, s ∈ xs) ∧
      (∀ s ∈ xs, s ∈ streamId :: rest ∨ (s ∈ base.streams → s ∈ prior ++ deletedIds)) →
      wp (deleteAndNote calmUpstream deletedIds streamId) (fun deletedIds' w'' =>
        Trimmed base (prior ++ deletedIds') w'' ∧ (∀ s ∈ deletedIds', s ∈ xs) ∧
        (∀ s ∈ rest, s ∈ xs) ∧
        ∀ s ∈ xs, s ∈ rest ∨ (s ∈ base.streams → s ∈ prior ++ deletedIds')) (fun _ _ => False)
        w' := by
    rintro streamId rest deletedIds w' ⟨htrim, hin, hrest, hall⟩
    apply wp_mono (deleteAndNote_calm htrim) _ fun _ _ h => h
    rintro deletedIds' w'' ⟨htrim', rfl⟩
    have hmem : streamId ∈ xs := hrest streamId (List.mem_cons_self ..)
    refine ⟨htrim', ?_, fun s hs => hrest s (List.mem_cons_of_mem _ hs), ?_⟩
    · intro s hs
      rcases List.mem_append.mp hs with hs | hs
      · exact hin s hs
      · split at hs
        · exact List.mem_singleton.mp hs ▸ hmem
        · exact (List.not_mem_nil hs).elim
    · intro s hs
      have hgone : ∀ s, s ∈ prior ++ deletedIds → s ∈ prior ++ (deletedIds ++
          if streamId ∈ w'.destination.streams then [streamId] else []) := by
        intro s hs
        rw [← List.append_assoc]
        exact List.mem_append_left _ hs
      rcases hall s hs with hwaiting | hdone
      · rcases List.mem_cons.mp hwaiting with rfl | hlater
        · right
          intro hbase
          by_cases hold : s ∈ prior ++ deletedIds
          · exact hgone s hold
          · have hpresent : s ∈ w'.destination.streams := by
              rw [← Dict.isSome_get?, htrim.get?_streams, if_neg hold, Dict.isSome_get?]
              exact hbase
            rw [if_pos hpresent, ← List.append_assoc]
            exact List.mem_append_right _ (List.mem_singleton.mpr rfl)
        · exact .inl hlater
      · exact .inr fun hbase => hgone s (hdone hbase)
  have hrun := wp_fold (fun rest deletedIds w' => Trimmed base (prior ++ deletedIds) w' ∧
    (∀ s ∈ deletedIds, s ∈ xs) ∧ (∀ s ∈ rest, s ∈ xs) ∧
      ∀ s ∈ xs, s ∈ rest ∨ (s ∈ base.streams → s ∈ prior ++ deletedIds)) xs hstep
  apply wp_mono (hrun [] w ⟨by rwa [List.append_nil], by simp, fun _ hs => hs,
    fun _ hs => .inl hs⟩)
  · rintro deletedIds w' ⟨htrim, hin, -, hall⟩
    exact ⟨htrim, hin, fun s hs => (hall s hs).resolve_left List.not_mem_nil⟩
  · exact fun _ _ h => h

/-- Streams and channels are as in `base`, and of its accounts some are gone. -/
structure Emptied (base : Destination) (dropped : List ℤ) (w : World) : Prop where
  streams : w.destination.streams = base.streams
  held : ∀ c, w.destination.held c = base.held c
  accounts : ∀ a name, w.destination.accounts.get? a = some name →
    base.accounts.get? a = some name ∧ a ∉ dropped

theorem deleteM3uAccount_calm {dropped : List ℤ} {accountId : ℤ} (h : Emptied base dropped w)
    (hempty : ∀ s record, base.streams.get? s = some record → record.m3uAccount ≠ some accountId) :
    wp (deleteM3uAccount calmUpstream accountId)
      (fun _ => Emptied base (dropped ++ [accountId])) (fun _ => Emptied base (dropped ++ [accountId]))
      w := by
  unfold deleteM3uAccount
  rw [wp_bind, wp_modify, wp_bind]
  apply wp_mono request_calm _ fun _ _ h => h.elim
  rintro _ w' ⟨hdest, -⟩
  rw [wp_bind, wp_get]
  apply (wp_ite _ _ _).mpr
  have hnone : ∀ s record, w.destination.streams.get? s = some record →
      record.m3uAccount ≠ some accountId := by
    rw [h.streams]
    exact hempty
  constructor
  · intro _
    show Emptied base (dropped ++ [accountId])
      { w' with destination := w'.destination.dropAccount accountId }
    refine ⟨?_, ?_, ?_⟩
    · apply Dict.ext
      show w'.destination.streams.items.filter _ = _
      rw [hdest]
      show w.destination.streams.items.filter _ = _
      rw [h.streams]
      apply List.filter_eq_self.mpr
      intro row hrow
      have hrecord := (Dict.get?_eq_some base.streams row.1 row.2).mpr hrow
      simpa using hempty row.1 row.2 hrecord
    · intro c
      have hdrop : (w.destination.dropAccount accountId).channels = w.destination.channels := by
        apply dropStreams_channels
        intro c streams s record _ _ hs
        exact decide_eq_false (hnone s record hs)
      rw [← h.held c]
      show (w'.destination.dropAccount accountId).held c = _
      rw [hdest]
      show ((w.destination.dropAccount accountId).channels.get? c).map _ = _
      rw [hdrop]
      rfl
    · intro a name ha
      have ha' : (w.destination.accounts.erase accountId).get? a = some name := by
        have hsame : w'.destination = w.destination := hdest
        rw [← hsame]
        exact ha
      rw [Dict.get?_erase] at ha'
      split at ha'
      next => cases ha'
      next hne =>
        obtain ⟨hbase, hkept⟩ := h.accounts a name ha'
        refine ⟨hbase, fun hmem => ?_⟩
        rcases List.mem_append.mp hmem with hmem | hmem
        · exact hkept hmem
        · exact hne (List.mem_singleton.mp hmem).symm
  · intro habsent
    have hsame : w'.destination = w.destination := hdest
    refine ⟨by rw [hsame, h.streams], fun c => by rw [hsame, h.held], ?_⟩
    intro a name ha
    rw [hsame] at ha habsent
    obtain ⟨hbase, hkept⟩ := h.accounts a name ha
    refine ⟨hbase, fun hmem => ?_⟩
    rcases List.mem_append.mp hmem with hmem | hmem
    · exact hkept hmem
    · rw [← List.mem_singleton.mp hmem] at habsent
      exact habsent (Dict.mem_of_get? ha)

/-- No synthetic account without streams is left. -/
theorem dropEmptySyntheticAccount_calm (allStreams : List (ℤ × StreamRecord))
    (deletedIds syntheticIds : List ℤ)
    (hempty : ∀ a ∈ syntheticIds, a ∉ occupiedAccounts allStreams deletedIds →
      ∀ s record, w.destination.streams.get? s = some record → record.m3uAccount ≠ some a) :
    wp (dropEmptySyntheticAccount calmUpstream allStreams deletedIds syntheticIds)
      (fun _ w' => ∃ dropped, Emptied w.destination dropped w' ∧ ∀ a ∈ syntheticIds,
        a ∉ occupiedAccounts allStreams deletedIds → a ∈ dropped) (fun _ _ => False) w := by
  have hstep : ∀ accountId rest deletedAny w', (∃ dropped, Emptied w.destination dropped w' ∧
      ∀ a ∈ syntheticIds, a ∉ occupiedAccounts allStreams deletedIds → a ∈ accountId :: rest ∨
        a ∈ dropped) ∧
      (∀ a ∈ accountId :: rest, a ∈ syntheticIds ∧ a ∉ occupiedAccounts allStreams deletedIds) →
      wp (do if ← attempt (deleteM3uAccount calmUpstream accountId) then pure true
              else pure deletedAny)
        (fun _ w'' => (∃ dropped, Emptied w.destination dropped w'' ∧ ∀ a ∈ syntheticIds,
          a ∉ occupiedAccounts allStreams deletedIds → a ∈ rest ∨ a ∈ dropped) ∧
          ∀ a ∈ rest, a ∈ syntheticIds ∧ a ∉ occupiedAccounts allStreams deletedIds)
        (fun _ _ => False) w' := by
    rintro accountId rest deletedAny w' ⟨⟨dropped, hdropped, hall⟩, hrest⟩
    obtain ⟨hsynthetic, hfree⟩ := hrest accountId (List.mem_cons_self ..)
    have hdone : ∀ a ∈ syntheticIds, a ∉ occupiedAccounts allStreams deletedIds →
        a ∈ rest ∨ a ∈ dropped ++ [accountId] := by
      intro a ha hunoccupied
      rcases hall a ha hunoccupied with hwaiting | hgone
      · rcases List.mem_cons.mp hwaiting with rfl | hlater
        · exact .inr (List.mem_append_right _ (List.mem_singleton.mpr rfl))
        · exact .inl hlater
      · exact .inr (List.mem_append_left _ hgone)
    have hrest' : ∀ a ∈ rest, a ∈ syntheticIds ∧ a ∉ occupiedAccounts allStreams deletedIds :=
      fun a ha => hrest a (List.mem_cons_of_mem _ ha)
    rw [wp_bind, wp_attempt]
    apply wp_mono (deleteM3uAccount_calm hdropped (hempty accountId hsynthetic hfree))
    · exact fun _ w'' h => ⟨⟨_, h, hdone⟩, hrest'⟩
    · exact fun _ w'' h => ⟨⟨_, h, hdone⟩, hrest'⟩
  have hrun := wp_fold (fun rest _ w' => (∃ dropped, Emptied w.destination dropped w' ∧
    ∀ a ∈ syntheticIds, a ∉ occupiedAccounts allStreams deletedIds → a ∈ rest ∨ a ∈ dropped) ∧
      ∀ a ∈ rest, a ∈ syntheticIds ∧ a ∉ occupiedAccounts allStreams deletedIds)
    ((syntheticIds.dedup.insertionSort (· ≤ ·)).filter
      (· ∉ occupiedAccounts allStreams deletedIds)) hstep
  have hstart : Emptied w.destination [] w :=
    ⟨rfl, fun _ => rfl, fun _ _ h => ⟨h, List.not_mem_nil⟩⟩
  have hfirst : ∀ a ∈ (syntheticIds.dedup.insertionSort (· ≤ ·)).filter
      (· ∉ occupiedAccounts allStreams deletedIds), a ∈ syntheticIds ∧
        a ∉ occupiedAccounts allStreams deletedIds := by
    intro a ha
    obtain ⟨hmem, hnot⟩ := List.mem_filter.mp ha
    exact ⟨List.mem_dedup.mp ((List.mem_insertionSort _).mp hmem), of_decide_eq_true hnot⟩
  unfold dropEmptySyntheticAccount
  apply wp_mono (hrun false w ⟨⟨[], hstart, fun a ha hfree => .inl (List.mem_filter.mpr
    ⟨(List.mem_insertionSort _).mpr (List.mem_dedup.mpr ha), decide_eq_true hfree⟩)⟩, hfirst⟩) _
    fun _ _ h => h
  rintro _ w' ⟨⟨dropped, hdropped, hall⟩, -⟩
  exact ⟨dropped, hdropped, fun a ha hfree => (hall a ha hfree).resolve_left List.not_mem_nil⟩

end Requests

end ChannelManager.Dbas
