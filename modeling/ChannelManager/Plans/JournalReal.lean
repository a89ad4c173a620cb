import ChannelManager.Plans.JournalRows

/-!
# Temporary ids in the journal

The ids a row is filed under are looked up in the remap, but the values of a row are written as
recorded. A row therefore names a temporary id exactly when a write carries one.
-/

namespace ChannelManager.Plans

/-- An update lists streams by id. -/
def Write.StreamsListed : Write → Prop
  | .updateChannel _ data =>
    ∀ v, data.get? "streams" = some v → ∃ ids : List ℤ, v = .list (ids.map .int)
  | _ => True

/-- A row names no temporary id. -/
def JournalRow.Real (row : JournalRow) : Prop :=
  0 ≤ row.entityId ∧ row.before.Real ∧ row.after.Real

/-- No channel of the shadow names a temporary id. -/
def Journal.ShadowReal (journal : Journal) : Prop :=
  ∀ c channel, journal.shadow.get? c = some channel → channel.Real

section Values

@[simp] theorem real_int (n : ℤ) : (Json.int n).Real ↔ 0 ≤ n := by
  simp [Json.Real, Json.ints]

theorem real_field (key : String) (v : Json) : (Json.dict [(key, v)]).Real ↔ v.Real := by
  simp [Json.Real, Json.ints, Json.intsOfFields]

theorem real_ids (ids : List ℤ) : (Json.list (ids.map .int)).Real ↔ ∀ n ∈ ids, 0 ≤ n := by
  simp [Json.Real, Json.ints, Json.intsOfItems_eq_flatMap]

theorem real_sortedIds (ids : Finset ℤ) : (sortedIds ids).Real ↔ ∀ n ∈ ids, 0 ≤ n := by
  rw [sortedIds, real_ids]
  simp

/-- The streams in a value are among its integers. -/
theorem mem_ints_of_mem_streamSet {v : Json} {n : ℤ} (h : n ∈ streamSet v) : n ∈ v.ints := by
  cases v with
  | list items =>
    rw [streamSet, List.mem_toFinset, List.mem_filterMap] at h
    obtain ⟨item, hitem, hn⟩ := h
    rw [Json.ints, Json.intsOfItems_eq_flatMap, List.mem_flatMap]
    refine ⟨item, hitem, ?_⟩
    cases item <;> simp [Json.int?] at hn
    simp [Json.ints, hn]
  | _ => simp [streamSet] at h

theorem real_numberPlus {v : Json} (h : v.Real) (index : ℕ) : (numberPlus v index).Real := by
  cases v with
  | int n =>
    rw [real_int] at h
    rw [numberPlus, real_int]
    omega
  | float q => simp [numberPlus, Json.Real, Json.ints]
  | _ => exact h

theorem real_of_numberPlus {v : Json} (h : (numberPlus v 0).Real) : v.Real := by
  cases v with
  | int n => simpa [numberPlus] using h
  | float q => simp [Json.Real, Json.ints]
  | _ => exact h

end Values

section Rows

variable {remap : Dict ℤ ℤ} (executionId : ℤ) {plan : PipelineWritePlan} {journal : Journal}

/-- The rows of an update name a temporary id exactly when it carries one. -/
theorem real_updateRows {id : ℤ} {before data : Record} (hid : 0 ≤ id) (hbefore : before.Real)
    (hlisted : ∀ v, data.get? "streams" = some v → ∃ ids : List ℤ, v = .list (ids.map .int)) :
    (∀ row ∈ Journal.updateRows executionId id before data, row.Real) ↔ data.Real := by
  by_cases hstreams : "streams" ∈ data
  · obtain ⟨v, hget⟩ := Dict.exists_get? hstreams
    obtain ⟨ids, rfl⟩ := hlisted v hget
    have hread : data.read "streams" = .list (ids.map .int) := by
      rw [Record.read, hget]
      rfl
    have hold : ∀ n ∈ streamSet (before.read "streams"), 0 ≤ n :=
      fun n hn => hbefore.read "streams" n (mem_ints_of_mem_streamSet hn)
    rw [Journal.updateRows, if_pos hstreams, hread, streamSet_ids]
    constructor
    · intro h
      rw [Record.real_iff]
      intro key v hkey
      by_cases hkind : key = "streams"
      · subst hkind
        rw [hget] at hkey
        rw [← Option.some.inj hkey, real_ids]
        intro n hn
        by_cases hwas : n ∈ streamSet (before.read "streams")
        · exact hold n hwas
        · have hrow := h (Journal.mergeRow executionId id (before.read "name")
            (streamSet (before.read "streams")) n) (List.mem_append_left _
              (List.mem_append_left _ (List.mem_map_of_mem (by simp [hn, hwas]))))
          exact (real_int n).mp ((real_field _ _).mp hrow.2.2)
      · have hrest : (data.erase "streams").get? key = some v := by
          rw [Dict.get?_erase, if_neg (Ne.symm hkind), hkey]
        have hmem : (data.erase "streams").items ≠ [] := by
          intro hnil
          rw [Dict.get?_eq_some, hnil] at hrest
          exact List.not_mem_nil hrest
        have hrow := h (Journal.updateRow executionId id before (data.erase "streams"))
          (by simp [hmem])
        exact Record.real_iff.mp hrow.2.2 key v hrest
    · intro hdata row hrow
      have hnew : ∀ n ∈ ids, 0 ≤ n := (real_ids ids).mp (Record.real_iff.mp hdata _ _ hget)
      rcases List.mem_append.mp hrow with hrow | hrow
      · rcases List.mem_append.mp hrow with hrow | hrow
        · obtain ⟨n, hn, rfl⟩ := List.mem_map.mp hrow
          rw [Finset.mem_sort, Finset.mem_sdiff, List.mem_toFinset] at hn
          exact ⟨hid, (real_field _ _).mpr ((real_sortedIds _).mpr hold),
            (real_field _ _).mpr ((real_int n).mpr (hnew n hn.1))⟩
        · obtain ⟨n, hn, rfl⟩ := List.mem_map.mp hrow
          rw [Finset.mem_sort, Finset.mem_sdiff] at hn
          exact ⟨hid, (real_field _ _).mpr ((real_int n).mpr (hold n hn.1)),
            (real_field _ _).mpr ((real_sortedIds _).mpr (by simpa using hnew))⟩
      · split at hrow
        · simp at hrow
        · rw [List.mem_singleton.mp hrow]
          exact ⟨hid, hbefore, hdata.erase "streams"⟩
  · rw [Journal.updateRows, if_neg hstreams]
    simp only [List.mem_singleton, forall_eq]
    exact ⟨fun h => h.2.2, fun h => ⟨hid, hbefore, h⟩⟩

/-- One channel of an assignment. -/
theorem real_assign {startingNumber : Json} {e : ℤ × ℕ} (hid : 0 ≤ resolve remap e.1)
    (hshadow : journal.ShadowReal) :
    ((∀ row ∈ (Journal.assign remap executionId startingNumber journal e).rows, row.Real) ↔
        (∀ row ∈ journal.rows, row.Real) ∧ (numberPlus startingNumber e.2).Real) ∧
      ((numberPlus startingNumber e.2).Real →
        (Journal.assign remap executionId startingNumber journal e).ShadowReal) := by
  have hbefore : ((journal.shadow.get? (resolve remap e.1)).getD ∅).Real := by
    cases hget : journal.shadow.get? (resolve remap e.1) with
    | none => exact Record.real_empty
    | some channel => exact hshadow _ _ hget
  refine ⟨?_, ?_⟩
  · simp only [Journal.assign, List.forall_mem_append, List.mem_singleton, forall_eq]
    refine and_congr_right fun _ => ?_
    constructor
    · exact fun h => (real_field _ _).mp h.2.2
    · exact fun h => ⟨hid, (real_field _ _).mpr (hbefore.read _), (real_field _ _).mpr h⟩
  · intro hnumber c channel hget
    rw [Journal.assign, Dict.get?_set] at hget
    split at hget
    · exact (Option.some.inj hget) ▸ hbefore.set hnumber _
    · exact hshadow c channel hget

/-- The rows of an assignment name a temporary id exactly when its numbers do. -/
theorem real_assigns (startingNumber : Json) (es : List (ℤ × ℕ))
    (hids : ∀ e ∈ es, 0 ≤ resolve remap e.1) (hshadow : journal.ShadowReal) :
    ((∀ row ∈ (es.foldl (Journal.assign remap executionId startingNumber) journal).rows,
          row.Real) ↔
        (∀ row ∈ journal.rows, row.Real) ∧ ∀ e ∈ es, (numberPlus startingNumber e.2).Real) ∧
      ((∀ e ∈ es, (numberPlus startingNumber e.2).Real) →
        (es.foldl (Journal.assign remap executionId startingNumber) journal).ShadowReal) := by
  induction es using List.reverseRecOn with
  | nil => exact ⟨by simp, fun _ => hshadow⟩
  | append_singleton es e ih =>
    obtain ⟨hrows, hreal⟩ := ih fun e' he' => hids e' (by simp [he'])
    simp only [List.foldl_append, List.foldl_cons, List.foldl_nil, List.forall_mem_append,
      List.mem_singleton, forall_eq]
    by_cases hnumbers : ∀ e ∈ es, (numberPlus startingNumber e.2).Real
    · obtain ⟨hrow, hnext⟩ := real_assign executionId (hids e (by simp)) (hreal hnumbers)
      rw [hrow, hrows, and_assoc]
      exact ⟨Iff.rfl, fun h => hnext h.2⟩
    · refine ⟨iff_of_false ?_ (fun h => hnumbers h.2.1), fun h => absurd h.1 hnumbers⟩
      intro h
      apply hnumbers
      apply (hrows.mp fun row hrow => h row ?_).2
      exact List.mem_append_left _ hrow

/-- The ids that the rows of a write are filed under have been replaced. -/
structure Filed (remap : Dict ℤ ℤ) (journal : Journal) (w : Write) : Prop where
  created : w.isCreate → 0 ≤ resolve remap journal.nextTemp
  addressed : ∀ c ∈ w.channelIds, 0 ≤ resolve remap c
  group : ∀ g, w = .deleteChannelGroup g → 0 ≤ resolve remap g

theorem real_beforeOf (remap : Dict ℤ ℤ) (hshadow : journal.ShadowReal)
    (hplan : ∀ c before, plan.channelPreconditions.get? c = some before → before.Real) (rawId : ℤ) :
    (Journal.beforeOf remap plan journal rawId).Real := by
  unfold Journal.beforeOf
  cases hget : journal.shadow.get? (resolve remap rawId) with
  | some channel => exact hshadow _ _ hget
  | none =>
    cases hread : plan.channelPreconditions.get? rawId with
    | some before => exact hplan _ _ hread
    | none => exact Record.real_empty

theorem shadowReal_set {id : ℤ} {channel : Record} (hshadow : journal.ShadowReal)
    (hchannel : channel.Real) (rows : List JournalRow) (nextTemp : ℤ) :
    Journal.ShadowReal ⟨rows, nextTemp, journal.shadow.set id channel⟩ := by
  intro c channel' hget
  rw [Dict.get?_set] at hget
  split at hget
  · exact (Option.some.inj hget) ▸ hchannel
  · exact hshadow c channel' hget

/-- The numbers of an assignment name a temporary id exactly when it starts from one. -/
theorem real_numbers_iff {ids : List ℤ} {startingNumber : Json} :
    (∀ e ∈ ids.zipIdx, (numberPlus startingNumber e.2).Real) ↔ ids = [] ∨ startingNumber.Real := by
  constructor
  · intro h
    cases ids with
    | nil => exact .inl rfl
    | cons c ids => exact .inr (real_of_numberPlus (h (c, 0) (by simp)))
  · rintro (rfl | hstart) e he
    · simp at he
    · exact real_numberPlus hstart e.2

/-- A write only adds rows. -/
theorem rows_write (w : Write) {row : JournalRow} (h : row ∈ journal.rows) :
    row ∈ (journal.write remap executionId plan w).rows := by
  have hassigns : ∀ (startingNumber : Json) (es : List (ℤ × ℕ)),
      row ∈ (es.foldl (Journal.assign remap executionId startingNumber) journal).rows := by
    intro startingNumber es
    induction es using List.reverseRecOn with
    | nil => exact h
    | append_singleton es e ih =>
      rw [List.foldl_append]
      exact List.mem_append_left _ ih
  cases w with
  | assignChannelNumbers ids startingNumber => exact hassigns startingNumber ids.zipIdx
  | _ => exact List.mem_append_left _ h

/-- The rows of a write name a temporary id exactly when it carries one. -/
theorem real_write {w : Write} (hshadow : journal.ShadowReal)
    (hplan : ∀ c before, plan.channelPreconditions.get? c = some before → before.Real)
    (hfiled : Filed remap journal w) (hlisted : w.StreamsListed) :
    ((∀ row ∈ (journal.write remap executionId plan w).rows, row.Real) ↔
        (∀ row ∈ journal.rows, row.Real) ∧ w.CarriesReal) ∧
      (w.CarriesReal → (journal.write remap executionId plan w).ShadowReal) := by
  cases w with
  | createChannel data =>
    refine ⟨?_, ?_⟩
    · simp only [Journal.write, Journal.create, List.forall_mem_append, List.mem_singleton,
        forall_eq]
      exact and_congr_right fun _ =>
        ⟨fun h => h.2.2, fun h => ⟨hfiled.created rfl, Json.real_null, h⟩⟩
    · intro hdata
      refine shadowReal_set hshadow (Record.Real.update ?_ hdata) _ _
      exact Record.real_dict.mp ((real_field _ _).mpr ((real_int _).mpr (hfiled.created rfl)))
  | createChannelGroup name =>
    refine ⟨?_, fun _ => hshadow⟩
    simp only [Journal.write, Journal.create, List.forall_mem_append, List.mem_singleton,
      forall_eq]
    exact and_congr_right fun _ => iff_of_true ⟨hfiled.created rfl, Json.real_null, by
      simp [Journal.row, Json.Real, Json.ints]⟩ trivial
  | createLogo data =>
    refine ⟨?_, fun _ => hshadow⟩
    simp only [Journal.write, Journal.create, List.forall_mem_append, List.mem_singleton,
      forall_eq]
    exact and_congr_right fun _ =>
      ⟨fun h => h.2.2, fun h => ⟨hfiled.created rfl, Json.real_null, h⟩⟩
  | assignChannelNumbers ids startingNumber =>
    obtain ⟨hrows, hnext⟩ := real_assigns executionId startingNumber ids.zipIdx
      (fun e he => hfiled.addressed e.1 (List.fst_mem_of_mem_zipIdx he)) hshadow
    rw [real_numbers_iff] at hrows hnext
    exact ⟨hrows, hnext⟩
  | updateProfileChannel p c data =>
    refine ⟨?_, fun _ => hshadow⟩
    simp only [Journal.write, List.forall_mem_append, List.mem_singleton, forall_eq]
    refine and_congr_right fun _ => ⟨fun h => ⟨?_, h.2.2⟩, fun h => ⟨?_, ?_, h.2⟩⟩
    · exact (real_int p).mp ((real_field _ _).mp h.2.1)
    · exact hfiled.addressed c (by simp [Write.channelIds])
    · exact (real_field _ _).mpr ((real_int p).mpr h.1)
  | updateChannel c data =>
    have hbefore := real_beforeOf remap hshadow hplan c
    refine ⟨?_, fun hdata => shadowReal_set hshadow (hbefore.update hdata) _ _⟩
    rw [Journal.write, List.forall_mem_append, real_updateRows executionId
      (hfiled.addressed c (by simp [Write.channelIds])) hbefore hlisted]
    rfl
  | deleteChannel c =>
    have hbefore := real_beforeOf remap hshadow hplan c
    refine ⟨?_, fun _ c' channel hget => ?_⟩
    · simp only [Journal.write, List.forall_mem_append, List.mem_singleton, forall_eq]
      exact and_congr_right fun _ => iff_of_true
        ⟨hfiled.addressed c (by simp [Write.channelIds]), hbefore, Json.real_null⟩ trivial
    · rw [Journal.write, Dict.get?_erase] at hget
      split at hget
      · simp at hget
      · exact hshadow c' channel hget
  | deleteChannelGroup g =>
    have hbefore := real_beforeOf remap hshadow hplan g
    refine ⟨?_, fun _ => hshadow⟩
    simp only [Journal.write, List.forall_mem_append, List.mem_singleton, forall_eq]
    exact and_congr_right fun _ =>
      iff_of_true ⟨hfiled.group g rfl, hbefore, Json.real_null⟩ trivial

end Rows

theorem journalOf_concat (plan : PipelineWritePlan) (remap : Dict ℤ ℤ) (executionId : ℤ)
    (writes : List Write) (w : Write) :
    journalOf plan remap executionId (writes ++ [w]) =
      (journalOf plan remap executionId writes).write remap executionId plan w := by
  simp [journalOf]

/-- The journal names a temporary id exactly when a write carries one. -/
theorem real_journalOf {plan : PipelineWritePlan} {remap : Dict ℤ ℤ} (executionId : ℤ)
    {writes : List Write}
    (hplan : ∀ c before, plan.channelPreconditions.get? c = some before → before.Real)
    (hfiled : ∀ earlier w later, writes = earlier ++ w :: later →
      Filed remap (journalOf plan remap executionId earlier) w)
    (hlisted : ∀ w ∈ writes, w.StreamsListed) :
    ((∀ row ∈ (journalOf plan remap executionId writes).rows, row.Real) ↔
        ∀ w ∈ writes, w.CarriesReal) ∧
      ((∀ w ∈ writes, w.CarriesReal) →
        (journalOf plan remap executionId writes).ShadowReal) := by
  induction writes using List.reverseRecOn with
  | nil => exact ⟨by simp [journalOf], fun _ => hplan⟩
  | append_singleton writes w ih =>
    obtain ⟨hrows, hreal⟩ := ih
      (fun earlier w' later heq => hfiled earlier w' (later ++ [w]) (by simp [heq]))
      fun w' hw' => hlisted w' (by simp [hw'])
    rw [journalOf_concat]
    simp only [List.forall_mem_append, List.mem_singleton, forall_eq]
    by_cases hcarries : ∀ w ∈ writes, w.CarriesReal
    · obtain ⟨hrow, hnext⟩ := real_write executionId (hreal hcarries) hplan
        (hfiled writes w [] rfl) (hlisted w (by simp))
      rw [hrow, hrows]
      exact ⟨Iff.rfl, fun h => hnext h.2⟩
    · refine ⟨iff_of_false ?_ (fun h => hcarries h.1), fun h => absurd h.1 hcarries⟩
      intro h
      exact hcarries (hrows.mp fun row hrow => h row (rows_write executionId w hrow))

end ChannelManager.Plans
