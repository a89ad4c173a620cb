import ChannelManager.Bulk.Compensation
import ChannelManager.Bulk.Landing
import ChannelManager.Bulk.Resequence

/-!
# A run and the store it stands for

Dispatcharr names a created channel by the id it gave it, the request by its temporary id. `Stands`
says that the store of a commit is Dispatcharr under the request's names, and each kind of change
that a branch makes keeps it.
-/

namespace ChannelManager

/-- What a run and Dispatcharr have of the store; the books of the run are not among it. -/
structure Ground where
  up : Dispatcharr
  tempIdMap : Dict ℤ ℤ
  groupIdMap : Dict String ℤ

/-- The numbering of the calls is left out. -/
def Exec.ground (x : Exec Dispatcharr) : Ground where
  up := { x.up with calls := 0 }
  tempIdMap := x.result.tempIdMap
  groupIdMap := x.result.groupIdMap

namespace Ground

def resolveId (g : Ground) (channelId : ℤ) : ℤ := (g.tempIdMap.get? channelId).getD channelId

end Ground

/-- The channel under another id. -/
def Channel.withId (channel : Channel) (id : ℤ) : Channel := { channel with id := id }

@[simp] theorem Channel.withId_id (channel : Channel) (i : ℤ) : (channel.withId i).id = i := rfl

/-- The id belongs to a channel the request can name: one that was there, or one the run made. -/
def CommitStore.Names (floor : ℤ) (s : CommitStore) (c : ℤ) : Prop :=
  (0 ≤ c ∧ c < floor) ∨ c ∈ s.created

/-- `floor` is the id the first channel of the run got: what the request names by an id of
Dispatcharr's lies below it. -/
structure Stands (floor : ℤ) (g : Ground) (s : CommitStore) : Prop where
  stocked : g.up.Stocked
  positive : ∀ ch ∈ g.up.channels, 0 ≤ ch.id
  floor_nonneg : 0 ≤ floor
  floor_le : floor ≤ g.up.nextId
  temporary : ∀ t ∈ s.created, t < 0
  created : ∀ t, t ∈ s.created ↔ t ∈ g.tempIdMap
  made : ∀ t c, g.tempIdMap.get? t = some c → floor ≤ c ∧ c < g.up.nextId
  distinct : ∀ t t' c, g.tempIdMap.get? t = some c → g.tempIdMap.get? t' = some c → t = t'
  channels : ∀ c, s.Names floor c →
    g.up.channel? (g.resolveId c) = (s.channels.get? c).map (·.withId (g.resolveId c))
  named : ∀ ch ∈ g.up.channels, ∃ c, s.Names floor c ∧ g.resolveId c = ch.id
  keys : ∀ c ∈ s.channels, s.Names floor c
  groups : g.up.groups = s.around.groups
  groupIds : g.groupIdMap = s.around.groupIdMap
  memberships : ∀ p c, s.Names floor c →
    g.up.memberships.get? (p, g.resolveId c) = s.around.memberships.get? (p, c)
  noMembers : ∀ p c, g.up.nextId ≤ c → g.up.memberships.get? (p, c) = none
  noTempMembers : ∀ p t, t < 0 → t ∉ s.created → s.around.memberships.get? (p, t) = none
  hidden : g.up.hiddenGroups = s.around.hiddenGroups
  stats : g.up.streamStats = s.around.streamStats

namespace Stands

variable {floor : ℤ} {g : Ground} {s : CommitStore}

theorem resolveId_of_nonneg (h : Stands floor g s) {c : ℤ} (hc : 0 ≤ c) : g.resolveId c = c := by
  have hnot : c ∉ g.tempIdMap := fun hmem => by
    have hneg := h.temporary c ((h.created c).mpr hmem)
    omega
  rw [Ground.resolveId, (Dict.get?_eq_none _ _).mpr hnot, Option.getD_none]

theorem resolveId_of_created (h : Stands floor g s) {t : ℤ} (ht : t ∈ s.created) :
    ∃ c, g.tempIdMap.get? t = some c ∧ g.resolveId t = c ∧ floor ≤ c ∧ c < g.up.nextId := by
  obtain ⟨c, hc⟩ := Dict.exists_get? ((h.created t).mp ht)
  exact ⟨c, hc, by rw [Ground.resolveId, hc, Option.getD_some], h.made t c hc⟩

/-- A temporary id nothing was created under stays what it is. -/
theorem resolveId_of_unresolved (h : Stands floor g s) {c : ℤ} (hc : c ∉ s.created) :
    g.resolveId c = c := by
  have hnot : c ∉ g.tempIdMap := fun hmem => hc ((h.created c).mpr hmem)
  rw [Ground.resolveId, (Dict.get?_eq_none _ _).mpr hnot, Option.getD_none]

/-- The executor's check of a channel id is the store's. -/
theorem resolves_iff (h : Stands floor g s) (c : ℤ) : s.resolves c ↔ 0 ≤ g.resolveId c := by
  by_cases hc : c ∈ s.created
  · obtain ⟨c', -, heq, hle, -⟩ := h.resolveId_of_created hc
    have hfloor := h.floor_nonneg
    exact ⟨fun _ => by omega, fun _ => .inr hc⟩
  · rw [h.resolveId_of_unresolved hc]
    simp [CommitStore.resolves, hc]

theorem names_of_resolves {c : ℤ} (hknown : c < floor) (hc : s.resolves c) : s.Names floor c :=
  hc.imp_left fun hnonneg => ⟨hnonneg, hknown⟩

theorem resolveId_lt (h : Stands floor g s) {c : ℤ} (hc : s.Names floor c) :
    g.resolveId c < g.up.nextId := by
  rcases hc with ⟨hnonneg, hlt⟩ | hmade
  · have hle := h.floor_le
    rw [h.resolveId_of_nonneg hnonneg]
    omega
  · obtain ⟨c', -, heq, -, hlt⟩ := h.resolveId_of_created hmade
    omega

/-- Two names of one channel are one name. -/
theorem resolveId_inj (h : Stands floor g s) {c d : ℤ} (hc : s.Names floor c)
    (hd : s.Names floor d) : g.resolveId c = g.resolveId d ↔ c = d := by
  constructor
  · intro heq
    rcases hc with ⟨hcpos, hclt⟩ | hcmade <;> rcases hd with ⟨hdpos, hdlt⟩ | hdmade
    · rwa [h.resolveId_of_nonneg hcpos, h.resolveId_of_nonneg hdpos] at heq
    · obtain ⟨d', -, hd', hle, -⟩ := h.resolveId_of_created hdmade
      rw [h.resolveId_of_nonneg hcpos] at heq
      omega
    · obtain ⟨c', -, hc', hle, -⟩ := h.resolveId_of_created hcmade
      rw [h.resolveId_of_nonneg hdpos] at heq
      omega
    · obtain ⟨c', hcget, hc', -, -⟩ := h.resolveId_of_created hcmade
      obtain ⟨d', hdget, hd', -, -⟩ := h.resolveId_of_created hdmade
      have hsame : c' = d' := by omega
      exact h.distinct c d c' hcget (hsame ▸ hdget)
  · exact congrArg g.resolveId

theorem channel?_isSome (h : Stands floor g s) {c : ℤ} (hc : s.Names floor c) :
    (g.up.channel? (g.resolveId c)).isSome ↔ c ∈ s.channels := by
  rw [h.channels c hc, Option.isSome_map]
  exact Dict.isSome_get? _ _

theorem not_mem_of_missing (h : Stands floor g s) {c : ℤ} (hc : s.Names floor c)
    (hmissing : g.up.channel? (g.resolveId c) = none) : c ∉ s.channels := by
  rw [← h.channel?_isSome hc, hmissing]
  simp

/-- Every channel of Dispatcharr is one of the store's, and the other way round. -/
theorem exists_named (h : Stands floor g s) {ch : Channel} (hch : ch ∈ g.up.channels) :
    ∃ c channel, s.Names floor c ∧ s.channels.get? c = some channel ∧
      ch = channel.withId (g.resolveId c) ∧ g.resolveId c = ch.id := by
  obtain ⟨c, hc, hid⟩ := h.named ch hch
  have hfound : g.up.channel? (g.resolveId c) = some ch := by
    rw [hid]
    exact h.stocked.channel?_of_mem hch
  rw [h.channels c hc, Option.map_eq_some_iff] at hfound
  obtain ⟨channel, hget, heq⟩ := hfound
  exact ⟨c, channel, hc, hget, heq.symm, hid⟩

theorem membersOf_eq_nil (h : Stands floor g s) (group : ℤ) :
    s.membersOf group = [] ↔ g.up.channels.filter (·.channelGroupId = some group) = [] := by
  simp only [CommitStore.membersOf, List.filter_eq_nil_iff, decide_eq_true_eq]
  constructor
  · intro hnone ch hch
    obtain ⟨c, channel, -, hget, rfl, -⟩ := h.exists_named hch
    exact hnone channel (Dict.mem_values.mpr ⟨c, hget⟩)
  · intro hnone channel hmem
    obtain ⟨c, hget⟩ := Dict.mem_values.mp hmem
    have hc := h.keys c (Dict.mem_of_get? hget)
    have hfound := h.channels c hc
    rw [hget, Option.map_some] at hfound
    have hthere : channel.withId (g.resolveId c) ∈ g.up.channels := List.mem_of_find?_eq_some hfound
    exact hnone (channel.withId (g.resolveId c)) hthere

/-! ## What the branches change -/

/-- Everything but the channels and their memberships. -/
theorem surroundings (h : Stands floor g s) {n : ℤ} (hn : g.up.nextId ≤ n) (k : ℤ)
    (groups : List ChannelGroup) (groupIdMap : Dict String ℤ) (hidden : Dict ℤ String)
    (stats : List ℤ) (logos : List Logo) :
    Stands floor
      { g with
        up := { g.up with
          groups := groups, hiddenGroups := hidden, streamStats := stats, logos := logos, nextId := n }
        groupIdMap := groupIdMap }
      { s with around := { s.around with
          groups := groups, nextGroupId := k, groupIdMap := groupIdMap, hiddenGroups := hidden
          streamStats := stats } } :=
  { h with
    stocked := ⟨h.stocked.nodup, fun ch hch => (h.stocked.fresh ch hch).trans_le hn⟩
    floor_le := h.floor_le.trans hn
    made := fun t c ht => ⟨(h.made t c ht).1, (h.made t c ht).2.trans_le hn⟩
    groups := rfl
    groupIds := rfl
    noMembers := fun p c hc => h.noMembers p c (hn.trans hc)
    hidden := rfl
    stats := rfl }

/-- Channels are changed the same way on both sides, and keep their ids. -/
theorem change (h : Stands floor g s) {f : Channel → Channel} {changed : Dict ℤ Channel}
    {k : ℤ → Channel → Channel} (hid : ∀ ch, (f ch).id = ch.id)
    (hget : ∀ c, changed.get? c = (s.channels.get? c).map (k c))
    (hsame : ∀ c, s.Names floor c → ∀ channel,
      f (channel.withId (g.resolveId c)) = (k c channel).withId (g.resolveId c)) :
    Stands floor { g with up := { g.up with channels := g.up.channels.map f } }
      { s with channels := changed } := by
  have hmem : ∀ ch ∈ g.up.channels.map f, ∃ ch' ∈ g.up.channels, ch'.id = ch.id := by
    intro ch hch
    obtain ⟨ch', hch', rfl⟩ := List.mem_map.mp hch
    exact ⟨ch', hch', (hid ch').symm⟩
  exact { h with
    stocked := by
      constructor
      · simpa only [List.map_map, Function.comp_def, hid] using h.stocked.nodup
      · intro ch hch
        obtain ⟨ch', hch', heq⟩ := hmem ch hch
        exact heq ▸ h.stocked.fresh ch' hch'
    positive := by
      intro ch hch
      obtain ⟨ch', hch', heq⟩ := hmem ch hch
      exact heq ▸ h.positive ch' hch'
    channels := by
      intro c hc
      have hfind : (g.up.channels.map f).find? (·.id = g.resolveId c) =
          (g.up.channel? (g.resolveId c)).map f := by
        simp only [List.find?_map, Function.comp_def, hid, Dispatcharr.channel?]
      refine hfind.trans ?_
      rw [h.channels c hc, hget, Option.map_map, Option.map_map]
      exact congrArg (Option.map · _) (funext (hsame c hc))
    named := by
      intro ch hch
      obtain ⟨ch', hch', heq⟩ := hmem ch hch
      obtain ⟨c, hc, hcid⟩ := h.named ch' hch'
      exact ⟨c, hc, hcid.trans heq⟩
    keys := by
      intro c hc
      rw [← Dict.isSome_get?, hget, Option.isSome_map, Dict.isSome_get?] at hc
      exact h.keys c hc }

theorem id_of_withId {f : Channel → Channel}
    (hf : ∀ channel i, f (channel.withId i) = (f channel).withId i) (ch : Channel) :
    (f ch).id = ch.id := by
  have hid := congrArg Channel.id (hf ch ch.id)
  exact hid

/-- A change of one channel that does not look at its id. -/
theorem modify (h : Stands floor g s) {d : ℤ} (hd : s.Names floor d) {f : Channel → Channel}
    (hf : ∀ channel i, f (channel.withId i) = (f channel).withId i) :
    Stands floor { g with up := g.up.mapChannel (g.resolveId d) f }
      { s with channels := s.channels.modify d f } := by
  apply h.change (k := fun c => if d = c then f else id)
  · intro ch
    split
    · exact id_of_withId hf ch
    · rfl
  · intro c
    rw [Dict.get?_modify]
    split <;> simp
  · intro c hc channel
    simp only [Channel.withId_id, h.resolveId_inj hc hd]
    by_cases hcd : c = d
    · simpa [hcd] using hf channel _
    · simp [hcd, Ne.symm hcd]

/-- Numbers handed out to channels, one after the other. -/
theorem setNumbers (es : List (ℤ × ℚ)) {g : Ground} {s : CommitStore} (h : Stands floor g s)
    (hes : ∀ e ∈ es, s.Names floor e.1) :
    Stands floor
      { g with up := (es.map fun e => (g.resolveId e.1, e.2)).foldl Dispatcharr.setNumber g.up }
      { s with channels := es.foldl CommitStore.setNumber s.channels } := by
  induction es generalizing g s with
  | nil => exact h
  | cons e es ih =>
    have hstep := h.modify (hes e (by simp))
      (f := fun channel => { channel with channelNumber := some e.2 }) fun _ _ => rfl
    exact ih hstep fun e' he' => hes e' (List.mem_cons_of_mem e he')

/-- A change of every channel that does not look at ids. -/
theorem mapChannels (h : Stands floor g s) {f : Channel → Channel}
    (hf : ∀ channel i, f (channel.withId i) = (f channel).withId i) :
    Stands floor { g with up := { g.up with channels := g.up.channels.map f } }
      { s with channels := s.channels.mapValues fun _ => f } :=
  h.change (id_of_withId hf) (fun c => Dict.get?_mapValues _ _ c) fun _ _ channel => hf channel _

theorem erase (h : Stands floor g s) {d : ℤ} (hd : s.Names floor d) :
    Stands floor
      { g with up := { g.up with channels := g.up.channels.filter (·.id ≠ g.resolveId d) } }
      { s with channels := s.channels.erase d } :=
  { h with
    stocked := ⟨h.stocked.nodup.sublist (List.filter_sublist.map _),
      fun ch hch => h.stocked.fresh ch (List.mem_of_mem_filter hch)⟩
    positive ch hch := h.positive ch (List.mem_of_mem_filter hch)
    channels := by
      intro c hc
      have hget := h.channels c hc
      have hsame := h.resolveId_inj hc hd
      rw [Dict.get?_erase]
      change (g.up.channels.filter (·.id ≠ g.resolveId d)).find? (·.id = g.resolveId c) = _
      by_cases hcd : c = d
      · subst hcd
        rw [if_pos rfl, Option.map_none, List.find?_eq_none]
        intro ch hch
        simpa using List.of_mem_filter hch
      · have hne : g.resolveId c ≠ g.resolveId d := fun heq => hcd (hsame.mp heq)
        rw [if_neg fun heq => hcd heq.symm, List.find?_filter]
        refine Eq.trans ?_ hget
        unfold Dispatcharr.channel?
        congr 1
        funext ch
        by_cases hch : ch.id = g.resolveId c
        · simp [hch, hne]
        · simp [hch]
    named ch hch := h.named ch (List.mem_of_mem_filter hch)
    keys := by
      intro c hc
      rw [← Dict.isSome_get?, Dict.get?_erase] at hc
      split at hc
      · simp at hc
      · exact h.keys c ((Dict.isSome_get? _ _).mp hc) }

theorem setMembership (h : Stands floor g s) {d : ℤ} (hd : s.Names floor d) (p : ℤ)
    (enabled : Bool) :
    Stands floor
      { g with
        up := { g.up with memberships := g.up.memberships.set (p, g.resolveId d) enabled } }
      { s with around := { s.around with
          memberships := s.around.memberships.set (p, d) enabled } } :=
  { h with
    stocked := ⟨h.stocked.nodup, h.stocked.fresh⟩
    memberships := by
      intro q c hc
      have hold := h.memberships q c hc
      have hsame := h.resolveId_inj hc hd
      change (g.up.memberships.set (p, g.resolveId d) enabled).get? (q, g.resolveId c) = _
      rw [Dict.get?_set, Dict.get?_set, hold]
      by_cases hcd : c = d
      · simp [hcd]
      · have hne : g.resolveId d ≠ g.resolveId c := fun heq => hcd (hsame.mp heq.symm)
        simp [hne, Ne.symm hcd]
    noMembers := by
      intro q c hc
      have hlt := h.resolveId_lt hd
      have hne : (p, g.resolveId d) ≠ (q, c) := fun heq => by
        have hsnd := congrArg Prod.snd heq
        dsimp only at hsnd hc
        omega
      rw [Dict.get?_set_ne _ _ hne]
      exact h.noMembers q c hc
    noTempMembers := by
      intro q t ht hmade
      have hne : (p, d) ≠ (q, t) := fun heq => by
        obtain rfl : d = t := congrArg Prod.snd heq
        rcases hd with ⟨hpos, -⟩ | hin
        · omega
        · exact hmade hin
      rw [Dict.get?_set_ne _ _ hne]
      exact h.noTempMembers q t ht hmade }

/-- A channel made under a temporary id of its own. -/
theorem create (h : Stands floor g s) {t : ℤ} (ht : t < 0) (hfresh : t ∉ s.created)
    (channel : Channel) :
    Stands floor
      { g with
        up := { g.up with
          channels := g.up.channels ++ [channel.withId g.up.nextId], nextId := g.up.nextId + 1 }
        tempIdMap := g.tempIdMap.set t g.up.nextId }
      { s with channels := s.channels.set t channel, created := s.created ++ [t] } := by
  have hself : ({ g with tempIdMap := g.tempIdMap.set t g.up.nextId } : Ground).resolveId t =
      g.up.nextId := by simp [Ground.resolveId]
  have hother : ∀ c, c ≠ t →
      ({ g with tempIdMap := g.tempIdMap.set t g.up.nextId } : Ground).resolveId c =
        g.resolveId c := by
    intro c hc
    simp only [Ground.resolveId]
    rw [Dict.get?_set_ne _ _ (Ne.symm hc)]
  have hnames : ∀ c, CommitStore.Names floor
      { s with channels := s.channels.set t channel, created := s.created ++ [t] } c ↔
        s.Names floor c ∨ c = t := by
    intro c
    simp [CommitStore.Names, or_assoc]
  have hnotnamed : ¬s.Names floor t := by
    rintro (⟨hpos, -⟩ | hin)
    · omega
    · exact hfresh hin
  have hne : ∀ c, s.Names floor c → c ≠ t := fun c hc heq => hnotnamed (heq ▸ hc)
  exact { h with
    stocked := by
      constructor
      · rw [List.map_append, List.nodup_append]
        refine ⟨h.stocked.nodup, List.nodup_singleton _, ?_⟩
        intro a ha b hb
        obtain ⟨ch, hch, rfl⟩ := List.mem_map.mp ha
        rw [List.map_singleton, List.mem_singleton, Channel.withId_id] at hb
        have hlt := h.stocked.fresh ch hch
        omega
      · intro ch hch
        rcases List.mem_append.mp hch with hold | hnew
        · have hlt := h.stocked.fresh ch hold
          dsimp only
          omega
        · rw [List.mem_singleton.mp hnew, Channel.withId_id]
          dsimp only
          omega
    positive := by
      intro ch hch
      rcases List.mem_append.mp hch with hold | hnew
      · exact h.positive ch hold
      · have hle := h.floor_le
        have hnonneg := h.floor_nonneg
        rw [List.mem_singleton.mp hnew, Channel.withId_id]
        omega
    floor_le := by
      have hle := h.floor_le
      dsimp only
      omega
    temporary := by
      intro u hu
      rcases List.mem_append.mp hu with hold | hnew
      · exact h.temporary u hold
      · rwa [List.mem_singleton.mp hnew]
    created := by
      intro u
      dsimp only
      rw [List.mem_append, Dict.mem_set, h.created, List.mem_singleton]
      tauto
    made := by
      intro u c hu
      dsimp only at hu ⊢
      rw [Dict.get?_set] at hu
      have hle := h.floor_le
      split at hu
      · cases hu
        omega
      · have hbounds := h.made u c hu
        omega
    distinct := by
      intro u u' c hu hu'
      dsimp only at hu hu'
      rw [Dict.get?_set] at hu hu'
      split at hu <;> split at hu'
      · rename_i h₁ h₂
        exact h₁.symm.trans h₂
      · cases hu
        have hlt := (h.made u' _ hu').2
        omega
      · cases hu'
        have hlt := (h.made u _ hu).2
        omega
      · exact h.distinct u u' c hu hu'
    channels := by
      intro c hc
      rcases (hnames c).mp hc with hold | rfl
      · have hcne := hne c hold
        have hget := h.channels c hold
        have hlt := h.resolveId_lt hold
        change Dispatcharr.channel? _ (Ground.resolveId
          { g with tempIdMap := g.tempIdMap.set t g.up.nextId } c) =
            (Dict.get? _ c).map fun ch : Channel => ch.withId
              (Ground.resolveId { g with tempIdMap := g.tempIdMap.set t g.up.nextId } c)
        rw [hother c hcne, Dict.get?_set_ne _ _ (Ne.symm hcne), ← hget]
        unfold Dispatcharr.channel?
        rw [List.find?_append, List.find?_cons_of_neg, List.find?_nil, Option.or_none]
        have hne : g.up.nextId ≠ g.resolveId c := by omega
        exact mt of_decide_eq_true hne
      · change Dispatcharr.channel? _ (Ground.resolveId
          { g with tempIdMap := g.tempIdMap.set c g.up.nextId } c) =
            (Dict.get? _ c).map fun ch : Channel => ch.withId
              (Ground.resolveId { g with tempIdMap := g.tempIdMap.set c g.up.nextId } c)
        rw [hself, Dict.get?_set_self, Option.map_some]
        unfold Dispatcharr.channel?
        have hnone : g.up.channels.find? (·.id = g.up.nextId) = none := by
          rw [List.find?_eq_none]
          intro ch hch
          have hlt := h.stocked.fresh ch hch
          simp only [decide_eq_true_eq]
          omega
        rw [List.find?_append, hnone, Option.none_or, List.find?_cons_of_pos]
        simp
    named := by
      intro ch hch
      rcases List.mem_append.mp hch with hold | hnew
      · obtain ⟨c, hc, hcid⟩ := h.named ch hold
        exact ⟨c, (hnames c).mpr (.inl hc), (hother c (hne c hc)).trans hcid⟩
      · rw [List.mem_singleton.mp hnew, Channel.withId_id]
        exact ⟨t, (hnames t).mpr (.inr rfl), hself⟩
    keys := by
      intro c hc
      rw [hnames]
      rcases (Dict.mem_set _ _ _ _).mp hc with rfl | hold
      · exact .inr rfl
      · exact .inl (h.keys c hold)
    memberships := by
      intro p c hc
      rcases (hnames c).mp hc with hold | rfl
      · have hget := h.memberships p c hold
        have hsame := hother c (hne c hold)
        change Dict.get? _ (p, Ground.resolveId _ c) = _
        rw [← hget, ← hsame]
        rfl
      · change Dict.get? _ (p, Ground.resolveId
          { g with tempIdMap := g.tempIdMap.set c g.up.nextId } c) = _
        rw [hself, h.noTempMembers p c ht hfresh]
        exact h.noMembers p _ le_rfl
    noMembers := by
      intro p c hc
      apply h.noMembers p c
      dsimp only at hc
      omega
    noTempMembers := by
      intro p u hu hmade
      apply h.noTempMembers p u hu
      exact fun hin => hmade (List.mem_append_left _ hin) }

end Stands

end ChannelManager
