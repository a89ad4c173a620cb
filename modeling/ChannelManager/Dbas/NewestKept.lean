import ChannelManager.Dbas.Retention
import Mathlib.Data.List.Induction
import Mathlib.Tactic.NormNum
import Mathlib.Tactic.Ring

/-!
# What retention keeps

`select_prunable` splits the eligible names at the floor. A name that is listed more than once can be
in both parts, and its delete then takes a backup that was to be kept.
-/

namespace ChannelManager.Dbas

section Digits

theorem spelled_append (a b : List Char) :
    spelled (a ++ b) = spelled a * 10 ^ b.length + spelled b := by
  have hfold : ∀ (n : ℕ), b.foldl (fun n c => n * 10 + (c.toNat - 48)) n =
      n * 10 ^ b.length + spelled b := by
    induction b with
    | nil => simp [spelled]
    | cons c b ih =>
      intro n
      have hhead : spelled (c :: b) =
          (0 * 10 + (c.toNat - 48)) * 10 ^ b.length + spelled b := ih _
      rw [List.foldl_cons, ih, hhead, List.length_cons]
      ring
  rw [spelled, List.foldl_append, hfold]
  rfl

/-- Two digit strings of one length that spell one number are the same. -/
theorem spelled_inj {a b : List Char} (ha : ∀ c ∈ a, c.isDigit = true)
    (hb : ∀ c ∈ b, c.isDigit = true) (hlen : a.length = b.length) (h : spelled a = spelled b) :
    a = b := by
  induction a using List.reverseRecOn generalizing b with
  | nil => exact (List.length_eq_zero_iff.mp hlen.symm).symm
  | append_singleton a c ih =>
    induction b using List.reverseRecOn with
    | nil => simp at hlen
    | append_singleton b c' _ =>
      rw [spelled_append, spelled_append] at h
      have hc : c.isDigit = true := ha c (by simp)
      have hc' : c'.isDigit = true := hb c' (by simp)
      simp only [Char.isDigit, Bool.and_eq_true, decide_eq_true_eq] at hc hc'
      have hv : spelled [c] = c.toNat - 48 := by simp [spelled]
      have hv' : spelled [c'] = c'.toNat - 48 := by simp [spelled]
      have hrange : 48 ≤ c.toNat ∧ c.toNat ≤ 57 := hc
      have hrange' : 48 ≤ c'.toNat ∧ c'.toNat ≤ 57 := hc'
      rw [hv, hv', List.length_singleton, List.length_singleton] at h
      have hinit : spelled a = spelled b := by omega
      have hlast : c.toNat = c'.toNat := by omega
      rw [ih (fun x hx => ha x (by simp [hx])) (fun x hx => hb x (by simp [hx])) (by simpa using hlen)
        hinit, Char.toNat_inj.mp hlast]

theorem isDigit_of_mem_shapeDigits {shape name digits : List Char}
    (h : shapeDigits shape name = some digits) : ∀ c ∈ digits, c.isDigit = true := by
  induction shape generalizing name digits with
  | nil =>
    cases name with
    | nil => cases h; simp
    | cons c name => cases h
  | cons p shape ih =>
    cases name with
    | nil => cases h
    | cons c name =>
      rw [shapeDigits] at h
      split at h
      · split at h
        · obtain ⟨rest, hrest, rfl⟩ := Option.map_eq_some_iff.mp h
          simpa using ⟨‹_›, ih hrest⟩
        · cases h
      · split at h
        · exact ih h
        · cases h

theorem length_shapeDigits {shape name digits : List Char}
    (h : shapeDigits shape name = some digits) : digits.length = shape.count '#' := by
  induction shape generalizing name digits with
  | nil =>
    cases name with
    | nil => cases h; rfl
    | cons c name => cases h
  | cons p shape ih =>
    cases name with
    | nil => cases h
    | cons c name =>
      rw [shapeDigits] at h
      split at h
      · split at h
        · obtain ⟨rest, hrest, rfl⟩ := Option.map_eq_some_iff.mp h
          simp [ih hrest, *]
        · cases h
      · rename_i hp
        split at h
        · rw [ih h, List.count_cons_of_ne hp]
        · cases h

/-- A name of a shape is given by its digits. -/
theorem shapeDigits_inj {shape name name' digits : List Char}
    (h : shapeDigits shape name = some digits) (h' : shapeDigits shape name' = some digits) :
    name = name' := by
  induction shape generalizing name name' digits with
  | nil => cases name <;> cases name' <;> simp_all [shapeDigits]
  | cons p shape ih =>
    cases name with
    | nil => cases h
    | cons c name =>
      cases name' with
      | nil => cases h'
      | cons c' name' =>
        rw [shapeDigits] at h h'
        by_cases hp : p = '#'
        · rw [if_pos hp] at h h'
          obtain ⟨rest, hrest, rfl⟩ := Option.map_eq_some_iff.mp (Option.ite_none_right_eq_some.mp h).2
          obtain ⟨rest', hrest', heq⟩ :=
            Option.map_eq_some_iff.mp (Option.ite_none_right_eq_some.mp h').2
          cases heq
          rw [ih hrest hrest']
        · rw [if_neg hp] at h h'
          obtain ⟨rfl, hrest⟩ := Option.ite_none_right_eq_some.mp h
          obtain ⟨rfl, hrest'⟩ := Option.ite_none_right_eq_some.mp h'
          rw [ih hrest hrest']

end Digits

/-- The key of a time is the number its digits spell. -/
theorem key_spelledTime {digits : List Char} (h : digits.length = 14) :
    (spelledTime digits).key = spelled digits := by
  have hsplit : digits = digits.take 4 ++ ((digits.drop 4).take 2 ++ ((digits.drop 6).take 2 ++
      ((digits.drop 8).take 2 ++ ((digits.drop 10).take 2 ++ (digits.drop 12).take 2)))) := by
    have hpair : ∀ k, (digits.drop k).take 2 ++ digits.drop (k + 2) = digits.drop k := by
      intro k
      rw [← List.drop_drop, List.take_append_drop]
    have hlast : (digits.drop 12).take 2 = digits.drop 12 := List.take_of_length_le (by simp [h])
    rw [hlast, hpair 10, hpair 8, hpair 6, hpair 4, List.take_append_drop]
  conv_rhs => rw [hsplit]
  simp only [spelled_append, List.length_append, List.length_take, List.length_drop, h]
  unfold BackupTime.key spelledTime
  norm_num
  ring

/-- A name that can be pruned. -/
def isBackup (name : String) : Bool := (filenameTimestamp name).isSome

/-- Where a backup stands in time. -/
def backupKey (name : String) : ℕ := spelled ((backupDigits name).getD [])

theorem filenameTimestamp_eq_some {name : String} {ts : BackupTime}
    (h : filenameTimestamp name = some ts) :
    backupZipFilenameRe name = true ∧ ts.key = backupKey name := by
  obtain ⟨hmap, _⟩ := Option.filter_eq_some_iff.mp h
  obtain ⟨digits, hdigits, rfl⟩ := Option.map_eq_some_iff.mp hmap
  constructor
  · rw [backupZipFilenameRe, hdigits]
    rfl
  · rw [backupKey, hdigits, key_spelledTime (length_shapeDigits hdigits)]
    rfl

/-- Backups of one time have one name. -/
theorem backupKey_inj {name name' : String} (h : isBackup name = true) (h' : isBackup name' = true)
    (hkey : backupKey name = backupKey name') : name = name' := by
  obtain ⟨ts, hts⟩ := Option.isSome_iff_exists.mp h
  obtain ⟨ts', hts'⟩ := Option.isSome_iff_exists.mp h'
  obtain ⟨hmap, _⟩ := Option.filter_eq_some_iff.mp hts
  obtain ⟨hmap', _⟩ := Option.filter_eq_some_iff.mp hts'
  obtain ⟨digits, hdigits, _⟩ := Option.map_eq_some_iff.mp hmap
  obtain ⟨digits', hdigits', _⟩ := Option.map_eq_some_iff.mp hmap'
  rw [backupKey, backupKey, hdigits, hdigits', Option.getD_some, Option.getD_some] at hkey
  have hlen : digits.length = digits'.length :=
    (length_shapeDigits hdigits).trans (length_shapeDigits hdigits').symm
  have heq := spelled_inj (isDigit_of_mem_shapeDigits hdigits) (isDigit_of_mem_shapeDigits hdigits')
    hlen hkey
  rw [← heq] at hdigits'
  exact String.toList_inj.mp (shapeDigits_inj hdigits hdigits')

/-- The eligible names are the backups among those listed. -/
theorem map_eligibleBackups (filenames : List String) :
    (eligibleBackups filenames).map Prod.snd = filenames.filter isBackup := by
  induction filenames with
  | nil => rfl
  | cons name rest ih =>
    rw [eligibleBackups, List.filterMap_cons, ← eligibleBackups]
    cases hts : filenameTimestamp name with
    | none =>
      have hb : isBackup name = false := by rw [isBackup, hts]; rfl
      rw [List.filter_cons_of_neg (by simp [hb])]
      split
      · exact ih
      · simp_all
    | some ts =>
      have hb : isBackup name = true := by rw [isBackup, hts]; rfl
      rw [List.filter_cons_of_pos hb, if_pos (filenameTimestamp_eq_some hts).1]
      simp [ih]

theorem eligibleBackups_key {filenames : List String} {e : BackupTime × String}
    (h : e ∈ eligibleBackups filenames) : isBackup e.2 = true ∧ e.1.key = backupKey e.2 := by
  obtain ⟨name, _, hname⟩ := List.mem_filterMap.mp h
  obtain ⟨_, hmap⟩ := Option.ite_none_right_eq_some.mp hname
  obtain ⟨ts, hts, rfl⟩ := Option.map_eq_some_iff.mp hmap
  exact ⟨by rw [isBackup, hts]; rfl, (filenameTimestamp_eq_some hts).2⟩

/-- The backups listed, newest first. -/
def rankedBackups (filenames : List String) : List String :=
  (newestFirst (eligibleBackups filenames)).map Prod.snd

theorem rankedBackups_perm (filenames : List String) :
    (rankedBackups filenames).Perm (filenames.filter isBackup) := by
  rw [← map_eligibleBackups]
  exact (List.perm_insertionSort _ _).map Prod.snd

theorem isBackup_of_mem_ranked {filenames : List String} {name : String}
    (h : name ∈ rankedBackups filenames) : name ∈ filenames ∧ isBackup name = true :=
  List.mem_filter.mp ((rankedBackups_perm filenames).subset h)

theorem rankedBackups_sorted (filenames : List String) :
    (rankedBackups filenames).Pairwise fun a b => backupKey b ≤ backupKey a := by
  rw [rankedBackups, List.pairwise_map]
  have htotal : Std.Total fun a b : BackupTime × String => b.1.key ≤ a.1.key :=
    ⟨fun a b => le_total b.1.key a.1.key⟩
  have htrans : IsTrans (BackupTime × String) fun a b => b.1.key ≤ a.1.key :=
    ⟨fun _ _ _ hab hbc => hbc.trans hab⟩
  have hsorted : (newestFirst (eligibleBackups filenames)).Pairwise fun a b => b.1.key ≤ a.1.key :=
    List.pairwise_insertionSort _ _
  apply hsorted.imp_of_mem
  intro a b ha hb hle
  have hmem := List.perm_insertionSort (fun a b : BackupTime × String => b.1.key ≤ a.1.key)
    (eligibleBackups filenames)
  rw [← (eligibleBackups_key (hmem.subset ha)).2, ← (eligibleBackups_key (hmem.subset hb)).2]
  exact hle

theorem rankedBackups_inj {filenames : List String} :
    ∀ a ∈ rankedBackups filenames, ∀ b ∈ rankedBackups filenames,
      backupKey a = backupKey b → a = b :=
  fun _ ha _ hb => backupKey_inj (isBackup_of_mem_ranked ha).2 (isBackup_of_mem_ranked hb).2

/-- The number of backups kept for `last_n`. -/
def keptCount (lastN : ℤ) : ℕ := (max lastN 1).toNat

theorem keptCount_pos (lastN : ℤ) : 0 < keptCount lastN := by
  rw [keptCount]
  omega

/-- A loop that fills one list up to the floor and another one after it. -/
theorem foldl_split {α β : Type} (f : α → β) {γ : Type} (g : α → γ) (floor : ℕ) (items : List α)
    (k : ℕ) (acc : List β × List γ) :
    (items.zipIdx k).foldl
        (fun acc e => if e.2 < floor then (acc.1 ++ [f e.1], acc.2) else (acc.1, acc.2 ++ [g e.1]))
        acc =
      (acc.1 ++ (items.take (floor - k)).map f, acc.2 ++ (items.drop (floor - k)).map g) := by
  induction items generalizing k acc with
  | nil => simp
  | cons item items ih =>
    rw [List.zipIdx_cons, List.foldl_cons, ih]
    by_cases hk : k < floor
    · obtain ⟨n, hn⟩ : ∃ n, floor - k = n + 1 := ⟨floor - k - 1, by omega⟩
      have hn' : floor - (k + 1) = n := by omega
      simp [hk, hn, hn']
    · have hn : floor - k = 0 := by omega
      have hn' : floor - (k + 1) = 0 := by omega
      simp [hk, hn, hn']

/-- The loop of `select_prunable` splits at the floor. -/
theorem selectPrunable_eq (filenames : List String) (lastN maxAgeDays now : ℤ) :
    (selectPrunable filenames lastN maxAgeDays now).1 =
        (rankedBackups filenames).take (keptCount lastN) ∧
      (selectPrunable filenames lastN maxAgeDays now).2.map Prod.fst =
        (rankedBackups filenames).drop (keptCount lastN) := by
  unfold selectPrunable
  rw [foldl_split Prod.snd fun e : BackupTime × String =>
    (e.2, if maxAgeDays * 86400 < now - e.1.seconds then PruneReason.age else .lastN)]
  simp only [List.nil_append, Nat.sub_zero, List.map_map]
  rw [rankedBackups, ← List.map_take, ← List.map_drop]
  exact ⟨rfl, rfl⟩

/-- How many of the listed backups are newer, and how many are not older. -/
def newerCount (filenames : List String) (name : String) : ℕ :=
  (filenames.filter isBackup).countP fun other => backupKey name < backupKey other

def notOlderCount (filenames : List String) (name : String) : ℕ :=
  (filenames.filter isBackup).countP fun other => backupKey name ≤ backupKey other

section Split

variable (filenames : List String) (lastN maxAgeDays now : ℤ)

theorem mem_kept_iff {name : String} (h : name ∈ filenames.filter isBackup) :
    name ∈ (selectPrunable filenames lastN maxAgeDays now).1 ↔
      newerCount filenames name < keptCount lastN := by
  have hperm := rankedBackups_perm filenames
  rw [(selectPrunable_eq filenames lastN maxAgeDays now).1,
    mem_take_iff (rankedBackups_sorted filenames) rankedBackups_inj (hperm.symm.subset h),
    hperm.countP_eq]
  exact Iff.rfl

theorem mem_pruned_iff {name : String} (h : name ∈ filenames.filter isBackup) :
    name ∈ (selectPrunable filenames lastN maxAgeDays now).2.map Prod.fst ↔
      keptCount lastN < notOlderCount filenames name := by
  have hperm := rankedBackups_perm filenames
  rw [(selectPrunable_eq filenames lastN maxAgeDays now).2,
    mem_drop_iff (rankedBackups_sorted filenames) rankedBackups_inj (hperm.symm.subset h),
    hperm.countP_eq]
  exact Iff.rfl

/-- Only listed backups are pruned. -/
theorem isBackup_of_pruned {name : String}
    (h : name ∈ (selectPrunable filenames lastN maxAgeDays now).2.map Prod.fst) :
    name ∈ filenames.filter isBackup := by
  rw [(selectPrunable_eq filenames lastN maxAgeDays now).2] at h
  exact (rankedBackups_perm filenames).subset (List.drop_subset _ _ h)

/-- As many as can be are kept, none of them older than a pruned one. -/
theorem selectPrunable_split :
    let split := selectPrunable filenames lastN maxAgeDays now
    (split.1 ++ split.2.map Prod.fst).Perm (filenames.filter isBackup) ∧
      split.1.length = min (filenames.filter isBackup).length (keptCount lastN) ∧
      ∀ kept ∈ split.1, ∀ pruned ∈ split.2.map Prod.fst, backupKey pruned ≤ backupKey kept := by
  intro split
  obtain ⟨hkept, hpruned⟩ := selectPrunable_eq filenames lastN maxAgeDays now
  refine ⟨?_, ?_, ?_⟩
  · rw [hkept, hpruned, List.take_append_drop]
    exact rankedBackups_perm filenames
  · rw [hkept, List.length_take, (rankedBackups_perm filenames).length_eq, min_comm]
  · rw [hkept, hpruned]
    exact fun kept hk pruned hp => key_le_of_mem_take (rankedBackups_sorted filenames) hk hp

/-- No name is in both parts exactly when the copies of none are on both sides of the floor. -/
theorem selectPrunable_disjoint_iff :
    (∀ name ∈ (selectPrunable filenames lastN maxAgeDays now).1,
      name ∉ (selectPrunable filenames lastN maxAgeDays now).2.map Prod.fst) ↔
    ∀ name ∈ filenames.filter isBackup, newerCount filenames name < keptCount lastN →
      notOlderCount filenames name ≤ keptCount lastN := by
  constructor
  · intro h name hname hkept
    by_contra hlt
    exact h name ((mem_kept_iff filenames lastN maxAgeDays now hname).mpr hkept)
      ((mem_pruned_iff filenames lastN maxAgeDays now hname).mpr (not_le.mp hlt))
  · intro h name hkept hpruned
    have hname := isBackup_of_pruned filenames lastN maxAgeDays now hpruned
    have hle := h name hname ((mem_kept_iff filenames lastN maxAgeDays now hname).mp hkept)
    exact absurd ((mem_pruned_iff filenames lastN maxAgeDays now hname).mp hpruned) (not_lt.mpr hle)

end Split

end ChannelManager.Dbas
