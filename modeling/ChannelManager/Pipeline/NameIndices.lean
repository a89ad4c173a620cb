import ChannelManager.Pipeline.Executor

/-!
# Names and their indices

What is listed under a key goes by it, and every channel is listed under its own name: a lookup by name
finds a channel of that name, and finds one if there is any. Creating a channel keeps this, and so does
a rename that is made and leaves the channel listed nowhere under a name it no longer has.
-/

namespace ChannelManager.Pipeline

/-! ## Indices -/

namespace Index

variable {R R' : String → ChannelKey → Prop} {index : Index} {name name' : String} {key key' : ChannelKey}

/-- Whatever is under a key is as the key says. -/
structure Sound (R : String → ChannelKey → Prop) (index : Index) : Prop where
  slot : ∀ name key, index.slot.get? name = some key → R name key
  listed : ∀ name, ∀ key ∈ index.listed name, R name key

theorem sound_empty : Sound R empty := ⟨by simp [empty], by simp [empty, listed]⟩

theorem Sound.imp (h : Sound R index) (hR : ∀ name key, R name key → R' name key) : Sound R' index :=
  ⟨fun name key hslot => hR name key (h.slot name key hslot),
    fun name key hlisted => hR name key (h.listed name key hlisted)⟩

@[simp] theorem slot_addCandidate : (index.addCandidate name key).slot = index.slot := by
  rw [addCandidate]
  split <;> rfl

/-- A candidate is added to those under its name. -/
theorem mem_listed_addCandidate : key' ∈ (index.addCandidate name key).listed name' ↔
    key' ∈ index.listed name' ∨ name ≠ "" ∧ name = name' ∧ key' = key := by
  rw [addCandidate]
  by_cases hempty : name = ""
  · simp [hempty]
  · rw [if_neg hempty, listed, listed]
    dsimp only
    rw [Dict.get?_set]
    by_cases hname : name = name'
    · subst hname
      rw [if_pos rfl, Option.getD_some]
      by_cases hkey : key ∈ (index.candidates.get? name).getD []
      · rw [if_pos hkey]
        simp only [hempty, ne_eq, not_false_eq_true, true_and, iff_self_or]
        rintro rfl
        exact hkey
      · simp [hkey, hempty]
    · simp [hname]

theorem Sound.addCandidate (h : Sound R index) (hkey : R name key) : Sound R (index.addCandidate name key) := by
  constructor
  · rw [slot_addCandidate]
    exact h.slot
  · intro name' key' hlisted
    obtain hlisted | ⟨_, rfl, rfl⟩ := mem_listed_addCandidate.mp hlisted
    · exact h.listed name' key' hlisted
    · exact hkey

theorem Sound.take (h : Sound R index) (hkey : R name key) : Sound R (index.take name key) := by
  refine Sound.addCandidate ⟨fun name' key' hslot => ?_, h.listed⟩ hkey
  rw [Dict.get?_set] at hslot
  split_ifs at hslot with hname
  · subst hname
    cases hslot
    exact hkey
  · exact h.slot name' key' hslot

theorem Sound.setDefault (h : Sound R index) (hkey : R name key) : Sound R (index.setDefault name key) := by
  rw [Index.setDefault]
  split_ifs
  · exact h.addCandidate hkey
  · exact h.take hkey

/-- Every candidate is picked, behind the one in the slot. -/
theorem mem_pick_of_listed (h : key ∈ index.listed name) : key ∈ index.pick name := by
  rw [pick, List.mem_append, List.mem_filter, Option.mem_toList]
  by_cases hslot : index.slot.get? name = some key
  · exact .inl hslot
  · exact .inr ⟨h, by simpa using Ne.symm hslot⟩

theorem mem_listed_take : key' ∈ (index.take name key).listed name' ↔
    key' ∈ index.listed name' ∨ name ≠ "" ∧ name = name' ∧ key' = key :=
  mem_listed_addCandidate

/-- A channel leaves the place of a name, and the slot of the name is emptied. -/
def drop (index : Index) (name : String) (key : ChannelKey) : Index :=
  ⟨index.slot.erase name, match index.candidates.get? name with
    | none => index.candidates
    | some keys => index.candidates.set name (keys.filter (· ≠ key))⟩

theorem mem_listed_drop : key' ∈ (index.drop name key).listed name' ↔
    key' ∈ index.listed name' ∧ (name = name' → key' ≠ key) := by
  rw [drop, listed, listed]
  cases hname : index.candidates.get? name with
  | none =>
    by_cases heq : name = name'
    · subst heq
      simp [hname]
    · simp [heq]
  | some keys =>
    dsimp only
    rw [Dict.get?_set]
    by_cases heq : name = name'
    · subst heq
      simp [hname]
    · simp [heq]

theorem Sound.drop (h : Sound R index) (name : String) (key : ChannelKey) :
    Sound (fun name' key' => R name' key' ∧ (name = name' → key' ≠ key)) (index.drop name key) := by
  constructor
  · intro name' key' hslot
    rw [Index.drop, Dict.get?_erase] at hslot
    split_ifs at hslot with hname
    exact ⟨h.slot name' key' hslot, fun heq => absurd heq hname⟩
  · intro name' key' hlisted
    obtain ⟨hlisted, hkey⟩ := mem_listed_drop.mp hlisted
    exact ⟨h.listed name' key' hlisted, hkey⟩

end Index

/-! ## What a name is found under -/

/-- The dictionaries a name is looked up in. -/
inductive Stage
  | created
  | base
  | exact
  | normalized
  | core
  | fold
deriving DecidableEq

/-- The index of a stage; the channels created have a slot each and no candidates. -/
def State.index (s : State) : Stage → Index
  | .created => ⟨s.created, ∅⟩
  | .base => s.baseName
  | .exact => s.byName
  | .normalized => s.fixed.normalizedName
  | .core => s.fixed.coreName
  | .fold => s.foldKeys

section Under

variable (cfg : Config)

/-- What a channel of a name is called: that name, or what is left of it without the number in front, as
the executor takes one off or as a run has put one on. -/
def Called (name base : String) : Prop :=
  base = name ∨ base = (cfg.naming.splitNumber name).2 ∨ ∃ number, cfg.numberInName number base = name

/-- A key is the core of a text, with or without its parentheses. -/
def IsCore (text key : String) : Prop :=
  ∃ normalizer core, cfg.normalizer = some normalizer ∧ normalizer.extractCoreName text = some core ∧
    (key = cfg.naming.lower core ∨ key = cfg.naming.deparen (cfg.naming.lower core))

/-- A channel of a name belongs under a key of a stage. -/
def Under : Stage → String → String → Prop
  | .created, name, key => cfg.naming.lower name = key
  | .base, name, key => ∃ base, Called cfg name base ∧ cfg.naming.lower base = key
  | .exact, name, key => cfg.naming.lower name = key
  | .normalized, name, key => ∃ base normalizer, Called cfg name base ∧ cfg.normalizer = some normalizer ∧
      cfg.naming.lower (normalizer.normalize none base) = key
  | .core, name, key => ∃ base, Called cfg name base ∧ IsCore cfg base key
  | .fold, name, key => ∃ base, Called cfg name base ∧ cfg.naming.foldKey base = key

/-- The places a normalized search looks at. -/
def fallbackKeys (normalizer : Normalizer) (search : String) : List (Stage × String) :=
  let lowerName := cfg.naming.lower search
  let normalized := cfg.naming.lower (normalizer.normalize none search)
  let core := cfg.naming.lower ((normalizer.extractCoreName search).getD "")
  (if normalized = "" ∨ normalized = lowerName then []
    else [(.exact, normalized), (.base, normalized), (.normalized, normalized), (.core, normalized)]) ++
  (if core = "" ∨ core = lowerName then [] else [(.core, core)])

/-- The places a search looks at. -/
def searchKeys (search : String) (fold : Bool) : List (Stage × String) :=
  let lowerName := cfg.naming.lower search
  [(.created, lowerName), (.base, lowerName), (.exact, lowerName), (.normalized, lowerName)] ++
    (match cfg.normalizer with
      | none => []
      | some normalizer => fallbackKeys cfg normalizer search) ++
    if fold ∧ cfg.naming.foldKey search ≠ "" then [(.fold, cfg.naming.foldKey search)] else []

/-- A name is what is searched for, by the keys of the lookup. -/
def Matches (search : String) (fold : Bool) (name : String) : Prop :=
  ∃ e ∈ searchKeys cfg search fold, Under cfg e.1 name e.2

/-- The channel under a key belongs there by the name it has now. -/
def State.Bears (s : State) (stage : Stage) (name : String) (key : ChannelKey) : Prop :=
  ∃ channel, s.channels.get? key = some channel ∧ Under cfg stage channel.name name

/-- The indices go by the names the channels have; the fold keys need to if lookups use them. -/
structure Indexed (fold : Bool) (s : State) : Prop where
  sound : ∀ stage, (stage = .fold → fold = true) → (s.index stage).Sound (s.Bears cfg stage)
  complete : ∀ key channel, s.channels.get? key = some channel → cfg.naming.lower channel.name ≠ "" →
    key ∈ s.byName.listed (cfg.naming.lower channel.name)
  fresh : ∀ n, ChannelKey.created n ∈ s.channels → n < s.nextKey

/-- A channel passes the gates of a lookup. -/
def Passes (scopeGroupId : Option ℤ) (blockManual : Bool) (key : ChannelKey) (channel : Channel) : Prop :=
  (scopeGroupId = none ∨ channel.channelGroupId = scopeGroupId) ∧
    (blockManual = true → isManualChannel cfg key channel = false)

end Under

/-! ## The lookup -/

section Lookup

variable {cfg : Config} {s : State} {fold : Bool}

/-- Whatever a lookup tries is under one of its keys. -/
theorem nameOrder_under {search : String} {key : ChannelKey} (h : key ∈ nameOrder cfg s search fold) :
    ∃ e ∈ searchKeys cfg search fold,
      (s.index e.1).slot.get? e.2 = some key ∨ key ∈ (s.index e.1).listed e.2 := by
  have hpick : ∀ (index : Index) name, key ∈ index.pick name →
      index.slot.get? name = some key ∨ key ∈ index.listed name := by
    intro index name hkey
    rw [Index.pick, List.mem_append, List.mem_filter, Option.mem_toList] at hkey
    exact hkey.imp_right And.left
  simp only [nameOrder, List.mem_append] at h
  obtain ((((hcreated | hbase) | hexact) | hnormalized) | hfallback) | hfold := h
  · exact ⟨(.created, _), by simp [searchKeys], .inl (Option.mem_toList.mp hcreated)⟩
  · exact ⟨(.base, _), by simp [searchKeys], hpick _ _ hbase⟩
  · exact ⟨(.exact, _), by simp [searchKeys], hpick _ _ hexact⟩
  · exact ⟨(.normalized, _), by simp [searchKeys], hpick _ _ hnormalized⟩
  · cases hnormalizer : cfg.normalizer with
    | none => simp [hnormalizer] at hfallback
    | some normalizer =>
      rw [hnormalizer] at hfallback
      have hplace : ∃ e ∈ fallbackKeys cfg normalizer search,
          (s.index e.1).slot.get? e.2 = some key ∨ key ∈ (s.index e.1).listed e.2 := by
        simp only [fallbackOrder, fallbackKeys, List.mem_append] at hfallback ⊢
        obtain hnormal | hcore := hfallback
        · split_ifs at hnormal with hsame
          · exact (List.not_mem_nil hnormal).elim
          · rw [if_neg hsame]
            simp only [List.mem_append, List.mem_filter, Option.mem_toList, Option.or_eq_some_iff] at hnormal
            obtain (hslot | ⟨_, hslot | ⟨_, hslot | ⟨_, hslot⟩⟩⟩) |
              ⟨((hlisted | hlisted) | hlisted) | hlisted, _⟩ := hnormal
            · exact ⟨(.exact, _), by simp, .inl hslot⟩
            · exact ⟨(.base, _), by simp, .inl hslot⟩
            · exact ⟨(.normalized, _), by simp, .inl hslot⟩
            · exact ⟨(.core, _), by simp, .inl hslot⟩
            · exact ⟨(.exact, _), by simp, .inr hlisted⟩
            · exact ⟨(.base, _), by simp, .inr hlisted⟩
            · exact ⟨(.normalized, _), by simp, .inr hlisted⟩
            · exact ⟨(.core, _), by simp, .inr hlisted⟩
        · split_ifs at hcore with hsame
          · exact (List.not_mem_nil hcore).elim
          · rw [if_neg hsame]
            exact ⟨(.core, _), by simp, hpick _ _ hcore⟩
      obtain ⟨e, he, hplace⟩ := hplace
      exact ⟨e, by simp [searchKeys, hnormalizer, he], hplace⟩
  · split_ifs at hfold with hfolds
    · exact ⟨(.fold, _), by simp [searchKeys, hfolds], hpick _ _ hfold⟩
    · exact (List.not_mem_nil hfold).elim

/-- A lookup looks at the fold keys only if it is to. -/
theorem fold_of_searchKeys {search : String} {e : Stage × String} (h : e ∈ searchKeys cfg search fold)
    (he : e.1 = .fold) : fold = true := by
  simp only [searchKeys, List.mem_append] at h
  obtain (hexact | hfallback) | hfold := h
  · simp only [List.mem_cons, List.not_mem_nil, or_false] at hexact
    obtain rfl | rfl | rfl | rfl := hexact <;> cases he
  · cases hnormalizer : cfg.normalizer with
    | none => simp [hnormalizer] at hfallback
    | some normalizer =>
      simp only [hnormalizer, fallbackKeys, List.mem_append] at hfallback
      obtain hfallback | hfallback := hfallback <;> split_ifs at hfallback
      · exact (List.not_mem_nil hfallback).elim
      · simp only [List.mem_cons, List.not_mem_nil, or_false] at hfallback
        obtain rfl | rfl | rfl | rfl := hfallback <;> cases he
      · exact (List.not_mem_nil hfallback).elim
      · obtain rfl := List.mem_singleton.mp hfallback
        cases he
  · split_ifs at hfold with hfolds
    · exact hfolds.1
    · exact (List.not_mem_nil hfold).elim

variable {scopeGroupId : Option ℤ} {blockManual : Bool} {channels : Dict ChannelKey Channel}

/-- The walk ends on a channel that passes the gates. -/
theorem firstInScope_passes {keys : List ChannelKey} {blocked : Option ChannelKey} {key : ChannelKey}
    (h : (firstInScope cfg channels scopeGroupId blockManual keys blocked).1 = some key) :
    key ∈ keys ∧ ∃ channel, channels.get? key = some channel ∧
      Passes cfg scopeGroupId blockManual key channel := by
  induction keys generalizing blocked with
  | nil => cases h
  | cons k keys ih =>
    have hrest : ∀ blocked, (firstInScope cfg channels scopeGroupId blockManual keys blocked).1 = some key →
        key ∈ k :: keys ∧ ∃ channel, channels.get? key = some channel ∧
          Passes cfg scopeGroupId blockManual key channel :=
      fun blocked h => (ih h).imp_left (List.mem_cons_of_mem k)
    rw [firstInScope] at h
    cases hget : channels.get? k with
    | none =>
      rw [hget] at h
      exact hrest _ h
    | some channel =>
      rw [hget] at h
      dsimp only at h
      split_ifs at h with hscope hmanual
      · exact hrest _ h
      · exact hrest _ h
      · cases h
        refine ⟨List.mem_cons_self, channel, hget, ?_, fun hblock => ?_⟩
        · simpa [or_iff_not_imp_left] using hscope
        · simpa [hblock] using hmanual

/-- The walk ends on a channel if there is one that passes the gates. -/
theorem firstInScope_isSome {keys : List ChannelKey} {key : ChannelKey} {channel : Channel}
    (hmem : key ∈ keys) (hget : channels.get? key = some channel)
    (hpasses : Passes cfg scopeGroupId blockManual key channel) (blocked : Option ChannelKey) :
    ∃ found, (firstInScope cfg channels scopeGroupId blockManual keys blocked).1 = some found := by
  induction keys generalizing blocked with
  | nil => cases hmem
  | cons k keys ih =>
    rw [firstInScope]
    cases hmem with
    | head =>
      have hscope : ¬(scopeGroupId ≠ none ∧ channel.channelGroupId ≠ scopeGroupId) := by
        simpa [or_iff_not_imp_left] using hpasses.1
      have hmanual : (blockManual && isManualChannel cfg key channel) = false := by
        cases hblock : blockManual with
        | false => rfl
        | true => exact hpasses.2 hblock
      rw [hget]
      dsimp only
      rw [if_neg hscope, hmanual]
      exact ⟨key, rfl⟩
    | tail _ hmem =>
      split
      · exact ih hmem _
      · split_ifs
        · exact ih hmem _
        · exact ih hmem _
        · exact ⟨k, rfl⟩

/-- A lookup in indices that go by the names finds a channel by its name, and any that passes. -/
theorem Indexed.findChannelByName (h : Indexed cfg fold s) (search : String) (scopeGroupId : Option ℤ)
    (blockManual : Bool) :
    let found := (findChannelByName cfg s search scopeGroupId blockManual fold).1
    (∀ key, found = some key → ∃ channel, s.channels.get? key = some channel ∧
      Matches cfg search fold channel.name ∧ Passes cfg scopeGroupId blockManual key channel) ∧
    (cfg.naming.lower search ≠ "" →
      (∃ key channel, s.channels.get? key = some channel ∧
        cfg.naming.lower channel.name = cfg.naming.lower search ∧
        Passes cfg scopeGroupId blockManual key channel) → ∃ key, found = some key) := by
  constructor
  · intro key hfound
    obtain ⟨hmem, channel, hget, hpasses⟩ := firstInScope_passes hfound
    obtain ⟨e, he, hplace⟩ := nameOrder_under hmem
    have hsound := h.sound e.1 (fold_of_searchKeys he)
    obtain ⟨channel', hget', hunder⟩ : s.Bears cfg e.1 e.2 key :=
      hplace.elim (hsound.slot e.2 key) (hsound.listed e.2 key)
    cases hget.symm.trans hget'
    exact ⟨channel, hget, ⟨e, he, hunder⟩, hpasses⟩
  · rintro hname ⟨key, channel, hget, hlower, hpasses⟩
    have hlisted := h.complete key channel hget (hlower ▸ hname)
    rw [hlower] at hlisted
    refine firstInScope_isSome ?_ hget hpasses none
    simp only [nameOrder, List.mem_append]
    exact .inl (.inl (.inl (.inr (Index.mem_pick_of_listed hlisted))))

end Lookup

/-! ## The indices a run starts with -/

section Start

variable (cfg : Config) {channels : List (ChannelKey × Channel)}

/-- A channel of the list goes by a key. -/
def FoundIn (channels : List (ChannelKey × Channel)) (stage : Stage) (name : String) (key : ChannelKey) :
    Prop :=
  ∃ e ∈ channels, e.1 = key ∧ Under cfg stage e.2.name name

theorem sound_foldl {R : String → ChannelKey → Prop} (step : Index → ChannelKey × Channel → Index)
    (hstep : ∀ index, ∀ e ∈ channels, index.Sound R → (step index e).Sound R) :
    (channels.foldl step .empty).Sound R :=
  List.foldlRecOn channels step Index.sound_empty fun index h e he => hstep index e he h

theorem sound_byNameOf : (byNameOf cfg channels).Sound (FoundIn cfg channels .exact) :=
  sound_foldl _ fun _ e he h => h.take ⟨e, he, rfl, rfl⟩

theorem sound_baseNameOf : (baseNameOf cfg channels).Sound (FoundIn cfg channels .base) := by
  refine sound_foldl _ fun index e he h => ?_
  dsimp only
  split_ifs
  · exact h.setDefault ⟨e, he, rfl, _, .inr (.inl rfl), rfl⟩
  · exact h

theorem sound_foldKeysOf : (foldKeysOf cfg channels).Sound (FoundIn cfg channels .fold) := by
  refine sound_foldl _ fun index e he h => ?_
  have hname : (index.setDefault (cfg.naming.foldKey e.2.name) e.1).Sound (FoundIn cfg channels .fold) :=
    h.setDefault ⟨e, he, rfl, _, .inl rfl, rfl⟩
  dsimp only
  split_ifs
  · exact hname.setDefault ⟨e, he, rfl, _, .inr (.inl rfl), rfl⟩
  · exact hname

section Normalizer

variable {normalizer : Normalizer}

theorem sound_normalizedNameOf (hnormalizer : cfg.normalizer = some normalizer) :
    (normalizedNameOf cfg normalizer channels).Sound (FoundIn cfg channels .normalized) := by
  refine sound_foldl _ fun index e he h => ?_
  dsimp only
  split_ifs
  · exact h.setDefault ⟨e, he, rfl, _, normalizer, .inr (.inl rfl), hnormalizer, rfl⟩
  · exact h

variable (normalizer) in
/-- A channel of the list has a core in lower case. -/
def CoreIn (channels : List (ChannelKey × Channel)) (name : String) (key : ChannelKey) : Prop :=
  ∃ e ∈ channels, e.1 = key ∧ ∃ base core, Called cfg e.2.name base ∧
    normalizer.extractCoreName base = some core ∧ name = cfg.naming.lower core

theorem sound_withDeparens (hnormalizer : cfg.normalizer = some normalizer) {index : Index}
    (h : index.Sound (CoreIn cfg normalizer channels)) :
    (withDeparens cfg index).Sound (FoundIn cfg channels .core) := by
  have hcore : ∀ name key, CoreIn cfg normalizer channels name key →
      FoundIn cfg channels .core name key ∧ FoundIn cfg channels .core (cfg.naming.deparen name) key := by
    rintro name key ⟨e, he, rfl, base, core, hcalled, hextract, rfl⟩
    exact ⟨⟨e, he, rfl, base, hcalled, normalizer, core, hnormalizer, hextract, .inl rfl⟩,
      ⟨e, he, rfl, base, hcalled, normalizer, core, hnormalizer, hextract, .inr rfl⟩⟩
  rw [withDeparens]
  dsimp only
  refine List.foldlRecOn index.candidates.items _ ⟨?_, fun name key hlisted => ?_⟩ ?_
  · refine List.foldlRecOn (motive := fun slot : Dict String ChannelKey => ∀ name key,
      slot.get? name = some key → FoundIn cfg channels .core name key) index.slot.items _ ?_ ?_
    · exact fun name key hslot => (hcore name key (h.slot name key hslot)).1
    · intro slot hslots e he name key hslot
      split_ifs at hslot with hnew
      · rw [Dict.get?_set] at hslot
        split_ifs at hslot with hname
        · cases hslot
          have hmem := (Dict.get?_eq_some _ _ _).mpr he
          exact hname ▸ (hcore _ _ (h.slot _ _ hmem)).2
        · exact hslots name key hslot
      · exact hslots name key hslot
  · exact (hcore name key (h.listed name key hlisted)).1
  · intro acc hacc e he
    split_ifs
    · refine List.foldlRecOn e.2 _ hacc fun acc hacc key hkey => hacc.addCandidate ?_
      have hget := (Dict.get?_eq_some _ _ _).mpr he
      have hlisted : key ∈ index.listed e.1 := by
        rw [Index.listed, hget]
        exact hkey
      exact (hcore _ _ (h.listed _ _ hlisted)).2
    · exact hacc

theorem sound_coreNameOf (hnormalizer : cfg.normalizer = some normalizer) :
    (coreNameOf cfg normalizer channels).Sound (FoundIn cfg channels .core) := by
  refine sound_withDeparens cfg hnormalizer (sound_foldl _ fun index e he h => ?_)
  split
  next => exact h
  next core hextract =>
    split_ifs
    · exact h
    · exact h.setDefault ⟨e, he, rfl, _, core, .inr (.inl rfl), hextract, rfl⟩

end Normalizer

/-- Every channel is a candidate under its name. -/
theorem listed_byNameOf {e : ChannelKey × Channel} (he : e ∈ channels)
    (hname : cfg.naming.lower e.2.name ≠ "") :
    e.1 ∈ (byNameOf cfg channels).listed (cfg.naming.lower e.2.name) := by
  rw [byNameOf]
  induction channels using List.reverseRecOn with
  | nil => cases he
  | append_singleton channels last ih =>
    rw [List.foldl_append, List.foldl_cons, List.foldl_nil, Index.mem_listed_take]
    obtain he | he := List.mem_append.mp he
    · exact .inl (ih he)
    · obtain rfl := List.mem_singleton.mp he
      exact .inr ⟨hname, rfl, rfl⟩

theorem indexed_start (fold : Bool) (existing : Dict ℤ Channel) (elsewhere : Dict ℤ (List ℤ)) :
    Indexed cfg fold (State.start cfg existing elsewhere) := by
  let channels := existing.items.map fun e => (ChannelKey.existing e.1, e.2)
  have hnodup : (channels.map Prod.fst).Nodup := by
    have hinjective : Function.Injective ChannelKey.existing := fun _ _ h => ChannelKey.existing.inj h
    have hkeys : channels.map Prod.fst = existing.keys.map ChannelKey.existing := by
      rw [List.map_map, Dict.keys, List.map_map]
      rfl
    rw [hkeys]
    exact existing.nodup_keys.map hinjective
  have hget : ∀ key channel, (State.start cfg existing elsewhere).channels.get? key = some channel ↔
      (key, channel) ∈ channels := by
    intro key channel
    rw [Dict.get?_eq_some]
    exact iff_of_eq (congrArg _ (Dict.items_ofList channels hnodup))
  have hbears : ∀ stage name key, FoundIn cfg channels stage name key →
      (State.start cfg existing elsewhere).Bears cfg stage name key := by
    rintro stage name key ⟨e, he, rfl, hunder⟩
    exact ⟨e.2, (hget e.1 e.2).mpr he, hunder⟩
  constructor
  · intro stage _
    cases stage with
    | created => exact Index.sound_empty
    | base => exact (sound_baseNameOf cfg).imp (hbears .base)
    | exact => exact (sound_byNameOf cfg).imp (hbears .exact)
    | fold => exact (sound_foldKeysOf cfg).imp (hbears .fold)
    | normalized =>
      cases hnormalizer : cfg.normalizer with
      | none =>
        simp only [State.index, State.start, hnormalizer]
        exact Index.sound_empty
      | some normalizer =>
        simp only [State.index, State.start, hnormalizer]
        exact (sound_normalizedNameOf cfg hnormalizer).imp (hbears .normalized)
    | core =>
      cases hnormalizer : cfg.normalizer with
      | none =>
        simp only [State.index, State.start, hnormalizer]
        exact Index.sound_empty
      | some normalizer =>
        simp only [State.index, State.start, hnormalizer]
        exact (sound_coreNameOf cfg hnormalizer).imp (hbears .core)
  · intro key channel hchannel hname
    exact listed_byNameOf cfg ((hget key channel).mp hchannel) hname
  · intro n hn
    obtain ⟨channel, hchannel⟩ := Dict.exists_get? hn
    obtain ⟨_, _, hkey⟩ := List.mem_map.mp ((hget _ channel).mp hchannel)
    cases hkey

end Start

/-! ## Creating and renaming -/

/-- What a run does to the names: it creates a channel, or renames one it has found. -/
inductive NameEffect
  | create (params : CreateParams) (groupId : Option ℤ) (channelName : String) (stream : Stream)
      (ctx : Context)
  | rename (opts : RuleOptions) (key : ChannelKey) (channelName : String)

section Effects

variable (cfg : Config) (fails : ℕ → Option String) (dryRun : Bool)

def NameEffect.apply (s : State) : NameEffect → State
  | .create params groupId channelName stream ctx =>
    (createNew cfg fails dryRun params groupId channelName stream ctx s).state
  | .rename opts key channelName =>
    match s.channels.get? key with
    | none => s
    | some channel => renameExisting cfg fails dryRun opts key channel channelName s

/-- A rename the indices follow: it is not that of a dry run, and where the channel is listed but for its
name itself, it is listed under keys of its new name. -/
def NameEffect.Followed (fold : Bool) (s : State) : NameEffect → Prop
  | .create .. => True
  | .rename opts key channelName => ∀ channel name, s.channels.get? key = some channel →
      renamedTo cfg opts channel channelName = some name → (dryRun = false → fails s.calls = none) →
      dryRun = false ∧ ∀ stage k, stage ≠ .exact → (stage = .fold → fold = true) →
        (s.index stage).slot.get? k = some key ∨ key ∈ (s.index stage).listed k → Under cfg stage name k

variable {cfg fails dryRun} {fold : Bool} {s s' : State}

/-- Nothing that the indices are about has changed. -/
theorem Indexed.of_eq (h : Indexed cfg fold s) (hchannels : s'.channels = s.channels)
    (hindex : ∀ stage, s'.index stage = s.index stage) (hnextKey : s'.nextKey = s.nextKey) :
    Indexed cfg fold s' where
  sound := by
    intro stage hfold
    rw [hindex]
    refine (h.sound stage hfold).imp fun name key hbears => ?_
    rw [State.Bears, hchannels]
    exact hbears
  complete := by
    have hexact : s'.byName = s.byName := hindex .exact
    rw [hchannels, hexact]
    exact h.complete
  fresh := by
    rw [hchannels, hnextKey]
    exact h.fresh

/-- What goes by a name still does if no other channel has been put in its place. -/
theorem State.Bears.of_get? {stage : Stage} {name : String} {key : ChannelKey} (h : s.Bears cfg stage name key)
    (hget : s'.channels.get? key = s.channels.get? key) : s'.Bears cfg stage name key := by
  obtain ⟨channel, hchannel, hunder⟩ := h
  exact ⟨channel, hget.trans hchannel, hunder⟩

theorem Indexed.register (h : Indexed cfg fold s) (baseName : String) (channel : Channel) (number : ℕ)
    (hcalled : Called cfg channel.name baseName) :
    Indexed cfg fold (s.register cfg baseName channel number) := by
  have hnew : ChannelKey.created s.nextKey ∉ s.channels := fun hmem => (h.fresh _ hmem).false
  have hget : ∀ key, (s.register cfg baseName channel number).channels.get? key =
      if ChannelKey.created s.nextKey = key then some channel else s.channels.get? key :=
    fun key => Dict.get?_set _ _ _ _
  have hself : ∀ stage name, Under cfg stage channel.name name →
      (s.register cfg baseName channel number).Bears cfg stage name (.created s.nextKey) :=
    fun stage name hunder => ⟨channel, by rw [hget, if_pos rfl], hunder⟩
  have hold : ∀ stage name key, s.Bears cfg stage name key →
      (s.register cfg baseName channel number).Bears cfg stage name key := by
    intro stage name key hbears
    refine hbears.of_get? ?_
    rw [hget, if_neg]
    rintro rfl
    obtain ⟨_, hchannel, _⟩ := hbears
    exact hnew (Dict.mem_of_get? hchannel)
  constructor
  · intro stage hfold
    have hsound := (h.sound stage hfold).imp (hold stage)
    cases stage with
    | created =>
      refine ⟨fun name key hslot => ?_, fun name key hlisted => by simp [State.index, Index.listed] at hlisted⟩
      change (s.created.set _ _).get? name = some key at hslot
      rw [Dict.get?_set] at hslot
      split_ifs at hslot with hname
      · cases hslot
        exact hself .created name hname
      · exact hsound.slot name key hslot
    | base =>
      change (if _ then s.baseName.take _ _ else s.baseName).Sound _
      split_ifs
      · exact hsound.take (hself .base _ ⟨baseName, hcalled, rfl⟩)
      · exact hsound
    | exact => exact hsound.addCandidate (hself .exact _ rfl)
    | normalized => exact hsound
    | core => exact hsound
    | fold =>
      exact (hsound.setDefault (hself .fold _ ⟨_, .inl rfl, rfl⟩)).setDefault
        (hself .fold _ ⟨baseName, hcalled, rfl⟩)
  · intro key channel' hchannel' hname
    refine Index.mem_listed_addCandidate.mpr ?_
    rw [hget] at hchannel'
    split_ifs at hchannel' with hkey
    · cases hchannel'
      exact .inr ⟨hname, rfl, hkey.symm⟩
    · exact .inl (h.complete key channel' hchannel' hname)
  · intro n hn
    change n < s.nextKey + 1
    obtain hn | hn := (Dict.mem_set _ _ _ _).mp hn
    · exact Nat.lt_succ_of_le (ChannelKey.created.inj hn).le
    · exact Nat.lt_succ_of_lt (h.fresh n hn)

theorem Indexed.rename (h : Indexed cfg fold s) {key : ChannelKey} {channel : Channel}
    (hchannel : s.channels.get? key = some channel) {name : String}
    (hfollowed : ∀ stage k, stage ≠ .exact → (stage = .fold → fold = true) →
      (s.index stage).slot.get? k = some key ∨ key ∈ (s.index stage).listed k → Under cfg stage name k) :
    Indexed cfg fold (s.rename cfg key channel name) := by
  have hget : ∀ key', (s.rename cfg key channel name).channels.get? key' =
      if key = key' then some { channel with name } else s.channels.get? key' :=
    fun key' => Dict.get?_set _ _ _ _
  have hself : ∀ stage k, Under cfg stage name k → (s.rename cfg key channel name).Bears cfg stage k key :=
    fun stage k hunder => ⟨_, by rw [hget, if_pos rfl], hunder⟩
  have hother : ∀ stage k key', key' ≠ key → s.Bears cfg stage k key' →
      (s.rename cfg key channel name).Bears cfg stage k key' :=
    fun stage k key' hkey hbears => hbears.of_get? (by rw [hget, if_neg hkey.symm])
  have helsewhere : ∀ stage, stage ≠ .exact → (stage = .fold → fold = true) →
      (s.index stage).Sound ((s.rename cfg key channel name).Bears cfg stage) := by
    intro stage hexact hfold
    have hsound := h.sound stage hfold
    constructor
    · intro k key' hslot
      by_cases hkey : key' = key
      · subst hkey
        exact hself stage k (hfollowed stage k hexact hfold (.inl hslot))
      · exact hother stage k key' hkey (hsound.slot k key' hslot)
    · intro k key' hlisted
      by_cases hkey : key' = key
      · subst hkey
        exact hself stage k (hfollowed stage k hexact hfold (.inr hlisted))
      · exact hother stage k key' hkey (hsound.listed k key' hlisted)
  constructor
  · intro stage hfold
    cases stage with
    | exact =>
      -- the place of the old name was the only one the channel had in this index
      refine Index.Sound.take (((h.sound .exact hfold).drop _ key).imp ?_) (hself .exact _ rfl)
      rintro k key' ⟨hbears, hdropped⟩
      refine hother .exact k key' (fun hkey => ?_) hbears
      subst hkey
      obtain ⟨channel', hchannel', hunder⟩ := hbears
      cases hchannel.symm.trans hchannel'
      exact hdropped hunder rfl
    | fold => exact (helsewhere .fold (by decide) hfold).setDefault (hself .fold _ ⟨_, .inl rfl, rfl⟩)
    | created => exact helsewhere .created (by decide) hfold
    | base => exact helsewhere .base (by decide) hfold
    | normalized => exact helsewhere .normalized (by decide) hfold
    | core => exact helsewhere .core (by decide) hfold
  · intro key' channel' hchannel' hname
    rw [hget] at hchannel'
    refine Index.mem_listed_take.mpr ?_
    split_ifs at hchannel' with hkey
    · cases hchannel'
      exact .inr ⟨hname, rfl, hkey.symm⟩
    · exact .inl (Index.mem_listed_drop.mpr
        ⟨h.complete key' channel' hchannel' hname, fun _ => Ne.symm hkey⟩)
  · intro n hn
    obtain hn | hn := (Dict.mem_set _ _ _ _).mp hn
    · exact h.fresh n (hn ▸ Dict.mem_of_get? hchannel)
    · exact h.fresh n hn

theorem Indexed.createNew (h : Indexed cfg fold s) (params : CreateParams) (groupId : Option ℤ)
    (channelName : String) (stream : Stream) (ctx : Context) :
    Indexed cfg fold (createNew cfg fails dryRun params groupId channelName stream ctx s).state := by
  rw [Pipeline.createNew]
  dsimp only
  generalize getNextChannelNumber s.used params.channelNumber = number
  have hcalled : Called cfg (newChannel number (cfg.numberInName number channelName) groupId stream).name
      channelName := .inr (.inr ⟨number, rfl⟩)
  generalize newChannel number (cfg.numberInName number channelName) groupId stream = channel at *
  cases dryRun with
  | true => exact h.register channelName channel number hcalled
  | false =>
    have hcounted : Indexed cfg fold { s with calls := s.calls + 1 } := h.of_eq rfl (fun _ => rfl) rfl
    rw [if_neg Bool.false_ne_true, request]
    cases fails s.calls with
    | some error => exact hcounted
    | none => exact (hcounted.register channelName channel number hcalled).of_eq rfl (fun _ => rfl) rfl

theorem Indexed.renameExisting (h : Indexed cfg fold s) {opts : RuleOptions} {key : ChannelKey}
    {channel : Channel} {channelName : String} (hchannel : s.channels.get? key = some channel)
    (hfollowed : (NameEffect.rename opts key channelName).Followed cfg fails dryRun fold s) :
    Indexed cfg fold (renameExisting cfg fails dryRun opts key channel channelName s) := by
  rw [Pipeline.renameExisting]
  cases hname : renamedTo cfg opts channel channelName with
  | none => exact h
  | some name =>
    have hlive := hfollowed channel name hchannel hname
    dsimp only
    cases dryRun with
    | true => exact absurd (hlive fun hfalse => absurd hfalse (by decide)).1 (by decide)
    | false =>
      have hcounted : Indexed cfg fold { s with calls := s.calls + 1 } := h.of_eq rfl (fun _ => rfl) rfl
      rw [if_neg Bool.false_ne_true, request]
      cases hfails : fails s.calls with
      | some error => exact hcounted
      | none =>
        refine hcounted.rename hchannel fun stage k hexact hfold hplace => ?_
        refine (hlive fun _ => hfails).2 stage k hexact hfold ?_
        cases stage <;> exact hplace

/-- A step that the indices follow keeps them in step. -/
theorem Indexed.step (h : Indexed cfg fold s) {effect : NameEffect}
    (hfollowed : effect.Followed cfg fails dryRun fold s) :
    Indexed cfg fold (effect.apply cfg fails dryRun s) := by
  cases effect with
  | create params groupId channelName stream ctx => exact h.createNew params groupId channelName stream ctx
  | rename opts key channelName =>
    rw [NameEffect.apply]
    cases hchannel : s.channels.get? key with
    | none => exact h
    | some channel => exact h.renameExisting hchannel hfollowed

variable (cfg fails dryRun fold) in
/-- Every step of a run is one the indices follow. -/
def AllFollowed : State → List NameEffect → Prop
  | _, [] => True
  | s, effect :: effects => effect.Followed cfg fails dryRun fold s ∧
      AllFollowed (effect.apply cfg fails dryRun s) effects

theorem Indexed.run {effects : List NameEffect} (h : Indexed cfg fold s)
    (hfollowed : AllFollowed cfg fails dryRun fold s effects) :
    Indexed cfg fold (effects.foldl (NameEffect.apply cfg fails dryRun) s) := by
  induction effects generalizing s with
  | nil => exact h
  | cons effect effects ih => exact ih (h.step hfollowed.1) hfollowed.2

end Effects

/-- In a run whose renames the indices follow, a lookup returns no channel or one whose name is by now
what was searched for and which passes the gates; and it returns one if a channel that passes them has by
now the name searched for, unless that is empty. -/
theorem findChannelByName_of_followed (cfg : Config) (fails : ℕ → Option String) (dryRun fold : Bool)
    (existing : Dict ℤ Channel) (elsewhere : Dict ℤ (List ℤ)) (effects : List NameEffect)
    (hfollowed : AllFollowed cfg fails dryRun fold (State.start cfg existing elsewhere) effects)
    (search : String) (scopeGroupId : Option ℤ) (blockManual : Bool) :
    let s := effects.foldl (NameEffect.apply cfg fails dryRun) (State.start cfg existing elsewhere)
    let found := (findChannelByName cfg s search scopeGroupId blockManual fold).1
    (∀ key, found = some key → ∃ channel, s.channels.get? key = some channel ∧
      Matches cfg search fold channel.name ∧ Passes cfg scopeGroupId blockManual key channel) ∧
    (cfg.naming.lower search ≠ "" →
      (∃ key channel, s.channels.get? key = some channel ∧
        cfg.naming.lower channel.name = cfg.naming.lower search ∧
        Passes cfg scopeGroupId blockManual key channel) → ∃ key, found = some key) :=
  ((indexed_start cfg fold existing elsewhere).run hfollowed).findChannelByName search scopeGroupId
    blockManual

namespace Renames

/-- Names in lower case, and an engine that takes the quality off a name for its core. -/
def qualityConfig : Config where
  naming := {
    lower := id
    words := fun name => [name]
    foldKey := id
    splitNumber := fun name =>
      if name = "5 | news" then ("5 | ", "news")
      else if name = "5 | news hd" then ("5 | ", "news hd")
      else ("", name)
    deparen := id }
  normalizer := some {
    normalize := fun _ name => name
    extractCoreName := fun name => some
      (if name = "news hd" then "news" else if name = "5 | news hd" then "5 | news" else name)
    extractCallSign := fun _ => none }
  numberInName := fun _ name => name
  score := fun _ _ _ _ _ => none
  accountOf := fun _ => none
  managed := []

def normalizing : RuleOptions := ⟨some 3, [1], false, none, false, false⟩

/-- An automatic channel of a name. -/
def channelNamed (name : String) : Channel := ⟨name, some 3, some 50, [1], none, none, true⟩

/-- The runs of the samples: one channel, and the effects of a run on it. -/
def runFrom (dryRun : Bool) (name : String) (effects : List NameEffect) : State :=
  effects.foldl (NameEffect.apply qualityConfig (fun _ => none) dryRun)
    (State.start qualityConfig (Dict.ofList [(7, channelNamed name)]) ∅)

/-- The channel "news" is listed under its core, which stays that of "news hd". -/
theorem followed_quality : AllFollowed qualityConfig (fun _ => none) false false (runFrom false "news" [])
    [.rename normalizing (.existing 7) "news hd"] := by
  refine ⟨fun channel name hchannel hname _ => ⟨rfl, fun stage k hexact hfold => ?_⟩, trivial⟩
  obtain rfl : channelNamed "news" = channel := Option.some.inj hchannel
  obtain rfl : "news hd" = name := Option.some.inj hname
  have hcalled : Called qualityConfig "news hd" "news hd" := .inl rfl
  have hsound : ((runFrom false "news" []).index stage).Sound
      fun k _ => Under qualityConfig stage "news hd" k := by
    cases stage with
    | created => exact Index.sound_empty
    | base => exact Index.sound_empty
    | exact => exact absurd rfl hexact
    | normalized => exact Index.sound_empty
    | core =>
      have hcore : (runFrom false "news" []).index .core = Index.empty.setDefault "news" (.existing 7) := rfl
      rw [hcore]
      exact Index.sound_empty.setDefault ⟨_, hcalled, _, "news", rfl, rfl, .inl rfl⟩
    | fold => exact absurd (hfold rfl) (by decide)
  exact fun hplace => hplace.elim (hsound.slot k _) (hsound.listed k _)

/-- It is renamed and then found by its new name. -/
theorem found_by_new_name :
    ∃ key, (findChannelByName qualityConfig (runFrom false "news" [.rename normalizing (.existing 7) "news hd"])
      "news hd" none true false).1 = some key :=
  (findChannelByName_of_followed qualityConfig (fun _ => none) false false
    (Dict.ofList [(7, channelNamed "news")]) ∅ [.rename normalizing (.existing 7) "news hd"] followed_quality
    "news hd" none true).2 (by decide)
    ⟨.existing 7, channelNamed "news hd", by decide +kernel, rfl, .inl rfl, fun _ => rfl⟩

/-- The channel "5 | news", which a search for "news hd" finds, is renamed. -/
def renamedNews (dryRun : Bool) : State :=
  runFrom dryRun "5 | news" [.rename normalizing (.existing 7) "news hd"]

/-- In a live run the channel is still found as "news"; in a dry run it is not found under its name. -/
theorem lost_by_rename :
    (findChannelByName qualityConfig (runFrom false "5 | news" []) "news hd" none true false).1 =
        some (.existing 7) ∧
      ((findChannelByName qualityConfig (renamedNews false) "news" none true false).1 = some (.existing 7) ∧
        (renamedNews false).channels.get? (.existing 7) = some (channelNamed "5 | news hd") ∧
        ¬Matches qualityConfig "news" false "5 | news hd") ∧
      (renamedNews true).channels.get? (.existing 7) = some (channelNamed "5 | news hd") ∧
        Passes qualityConfig none true (.existing 7) (channelNamed "5 | news hd") ∧
        (findChannelByName qualityConfig (renamedNews true) "5 | news hd" none true false).1 = none := by
  refine ⟨by decide +kernel, ⟨by decide +kernel, by decide +kernel, ?_⟩, by decide +kernel,
    ⟨.inl rfl, fun _ => rfl⟩, by decide +kernel⟩
  rintro ⟨e, he, hunder⟩
  have hkeys : searchKeys qualityConfig "news" false =
      [(.created, "news"), (.base, "news"), (.exact, "news"), (.normalized, "news")] := by decide
  rw [hkeys] at he
  simp only [List.mem_cons, List.not_mem_nil, or_false] at he
  obtain rfl | rfl | rfl | rfl := he <;> simp [Under, Called, qualityConfig] at hunder

end Renames

end ChannelManager.Pipeline
