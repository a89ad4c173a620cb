import ChannelManager.Dbas.NewestKept
import Mathlib.Order.Preorder.Finite

/-!
# Runs of retention

A place receives backups and is pruned, over and over. Only backups are ever deleted there, and the
newest one stays when no prune finds copies of it on both sides of the floor, which a directory never
shows.
-/

namespace ChannelManager.Dbas

inductive Place
  | localDir
  | cloud (remoteDir destName : String)

/-- A prune: what its caller passes, what the listing gives and which deletes work. -/
structure Prune where
  verifiedSuccess : Bool
  lastN : ℤ
  maxAgeDays : ℤ
  now : ℤ
  listing : Option (List String)
  ok : ℕ → Bool

namespace Place

/-- Where a backup is stored. -/
def path : Place → String → String
  | localDir => id
  | cloud remoteDir _ => remotePath remoteDir

def prune (place : Place) (p : Prune) (files : List String) : BackupStore × PruneSummary :=
  match place with
  | localDir => pruneLocalBackups p.verifiedSuccess p.lastN p.maxAgeDays p.now (p.listing.getD [])
      p.ok files
  | cloud remoteDir destName => pruneCloudDestination remoteDir destName p.verifiedSuccess p.lastN
      p.maxAgeDays p.now p.listing p.ok files

/-- The names a prune selects from. -/
def names (place : Place) (p : Prune) : List String :=
  match place with
  | localDir => p.listing.getD []
  | cloud _ _ => (p.listing.getD []).map leafName

/-- A directory lists what the glob finds there, a destination answers as it likes. -/
def Lists (place : Place) (files : List String) (p : Prune) : Prop :=
  match place with
  | localDir => ∃ candidates, p.listing = some candidates ∧
      candidates.Perm (files.filter globBackups)
  | cloud _ _ => True

/-- A new backup, in the place of one of the same name. -/
def store (place : Place) (filename : String) (files : List String) : List String :=
  if place.path filename ∈ files then files else files ++ [place.path filename]

/-- Backups arrive and prunes run, each prune as `good` says of it and of the files it meets. `ever`
has all paths that were there at some time. -/
inductive Run (place : Place) (good : List String → Prune → Prop) (start : List String) :
    List String → List String → Prop
  | start : Run place good start start start
  | backup {ever files : List String} (filename : String) (run : Run place good start ever files) :
      Run place good start (place.path filename :: ever) (place.store filename files)
  | prune {ever files : List String} (p : Prune) (run : Run place good start ever files)
      (lists : place.Lists files p) (hgood : good files p) :
      Run place good start ever (place.prune p files).1.files

/-- The newest backup among some paths. -/
structure IsNewest (place : Place) (paths : List String) (name : String) : Prop where
  backup : isBackup name = true
  held : place.path name ∈ paths
  newest : ∀ other, isBackup other = true → place.path other ∈ paths →
    backupKey other ≤ backupKey name

/-- A verified prune at a destination that lists the newest backup finds no copy of it, and nothing
that is newer, beyond the floor. -/
def NewestOnce (place : Place) (files : List String) (p : Prune) : Prop :=
  match place with
  | localDir => True
  | cloud _ _ => ∀ name, place.IsNewest files name → p.verifiedSuccess = true →
      name ∈ place.names p → notOlderCount (place.names p) name ≤ keptCount p.lastN

end Place

/-! ## What one prune deletes -/

section Deletes

variable (destination : String) (path : String → String) (ok : ℕ → Bool)

theorem files_deleteBackup (pruned : String × PruneReason) (works : Bool) (store : BackupStore) :
    let after := deleteBackup destination (path pruned.1) pruned works store
    after.files.Sublist store.files ∧
      ∀ p ∈ store.files, p ∉ after.files → p = path pruned.1 := by
  intro after
  have hsame : store.files.Sublist store.files ∧
      ∀ p ∈ store.files, p ∉ store.files → p = path pruned.1 :=
    ⟨List.Sublist.refl _, fun p h hn => absurd h hn⟩
  simp only [after, deleteBackup]
  split
  · split
    · refine ⟨List.filter_sublist, fun p h hn => ?_⟩
      by_contra hne
      exact hn (List.mem_filter.mpr ⟨h, decide_eq_true hne⟩)
    · exact hsame
  · exact hsame

/-- Deletes take only the paths of pruned names. -/
theorem files_deleteBackups (pruned : List (String × PruneReason)) (files : List String) :
    let after := deleteBackups destination path ok pruned files
    after.files.Sublist files ∧
      ∀ p ∈ files, p ∉ after.files → ∃ name ∈ pruned.map Prod.fst, p = path name := by
  have hfold : ∀ (k : ℕ) (store : BackupStore),
      let after := (pruned.zipIdx k).foldl
        (fun store e => deleteBackup destination (path e.1.1) e.1 (ok e.2) store) store
      after.files.Sublist store.files ∧
        ∀ p ∈ store.files, p ∉ after.files → ∃ name ∈ pruned.map Prod.fst, p = path name := by
    induction pruned with
    | nil => exact fun k store => ⟨List.Sublist.refl _, fun p h hn => absurd h hn⟩
    | cons entry pruned ih =>
      intro k store
      rw [List.zipIdx_cons, List.foldl_cons]
      obtain ⟨hsub, hgone⟩ := files_deleteBackup destination path entry (ok k) store
      obtain ⟨hsub', hgone'⟩ := ih (k + 1)
        (deleteBackup destination (path entry.1) entry (ok k) store)
      refine ⟨hsub'.trans hsub, fun p h hn => ?_⟩
      by_cases hmid : p ∈ (deleteBackup destination (path entry.1) entry (ok k) store).files
      · obtain ⟨name, hname, heq⟩ := hgone' p hmid hn
        exact ⟨name, List.mem_cons_of_mem _ hname, heq⟩
      · exact ⟨entry.1, List.mem_cons_self, hgone p h hmid⟩
  exact hfold 0 { files := files }

end Deletes

theorem remotePath_inj {remoteDir a b : String} (h : remotePath remoteDir a = remotePath remoteDir b) :
    a = b := by
  unfold remotePath at h
  dsimp only at h
  split at h
  · exact h
  · exact (String.append_right_inj _).mp h

namespace Place

variable {place : Place}

theorem path_inj {a b : String} (h : place.path a = place.path b) : a = b := by
  cases place with
  | localDir => exact h
  | cloud remoteDir destName => exact remotePath_inj h

/-- A prune deletes the paths of names that its selection puts among the pruned, and nothing when the
new backup is not verified. -/
theorem files_prune (p : Prune) (files : List String) :
    (place.prune p files).1.files.Sublist files ∧
      ∀ path ∈ files, path ∉ (place.prune p files).1.files →
        p.verifiedSuccess = true ∧ ∃ name ∈ (selectPrunable (place.names p) p.lastN p.maxAgeDays
          p.now).2.map Prod.fst, path = place.path name := by
  cases hv : p.verifiedSuccess with
  | false =>
    have hsame : (place.prune p files).1.files = files := by
      cases place with
      | localDir => simp [prune, pruneLocalBackups, hv]
      | cloud remoteDir destName => simp [prune, pruneCloudDestination, hv]
    rw [hsame]
    exact ⟨List.Sublist.refl _, fun path h hn => absurd h hn⟩
  | true =>
    cases place with
    | localDir =>
      obtain ⟨hsub, hgone⟩ := files_deleteBackups "local" id p.ok
        (selectPrunable (p.listing.getD []) p.lastN p.maxAgeDays p.now).2 files
      rw [prune, pruneLocalBackups, if_pos hv]
      exact ⟨hsub, fun path h hn => ⟨rfl, hgone path h hn⟩⟩
    | cloud remoteDir destName =>
      cases hl : p.listing with
      | none =>
        have hsame : ((cloud remoteDir destName).prune p files).1.files = files := by
          simp [prune, pruneCloudDestination, hl, hv]
        rw [hsame]
        exact ⟨List.Sublist.refl _, fun path h hn => absurd h hn⟩
      | some paths =>
        obtain ⟨hsub, hgone⟩ := files_deleteBackups destName (remotePath remoteDir) p.ok
          (selectPrunable (paths.map leafName) p.lastN p.maxAgeDays p.now).2 files
        have hrun : ((cloud remoteDir destName).prune p files).1 = deleteBackups destName
            (remotePath remoteDir) p.ok
            (selectPrunable (paths.map leafName) p.lastN p.maxAgeDays p.now).2 files := by
          simp [prune, pruneCloudDestination, hl, hv]
        rw [hrun, names, hl]
        exact ⟨hsub, fun path h hn => ⟨rfl, hgone path h hn⟩⟩

theorem mem_store_of_mem {filename path : String} {files : List String} (h : path ∈ files) :
    path ∈ place.store filename files := by
  unfold store
  split
  · exact h
  · exact List.mem_append_left _ h

theorem path_mem_store (filename : String) (files : List String) :
    place.path filename ∈ place.store filename files := by
  unfold store
  split
  · assumption
  · exact List.mem_append_right _ List.mem_cons_self

theorem mem_of_mem_store {filename path : String} {files : List String}
    (h : path ∈ place.store filename files) : path = place.path filename ∨ path ∈ files := by
  unfold store at h
  split at h
  · exact .inr h
  · cases List.mem_append.mp h with
    | inl h => exact .inr h
    | inr h => exact .inl (List.mem_singleton.mp h)

section Runs

variable {good : List String → Prune → Prop} {start ever files : List String}

theorem Run.subset (run : Run place good start ever files) : files ⊆ ever := by
  induction run with
  | start => exact fun _ h => h
  | backup filename run ih =>
    intro path h
    cases mem_of_mem_store h with
    | inl heq => exact heq ▸ List.mem_cons_self
    | inr hmem => exact List.mem_cons_of_mem _ (ih hmem)
  | prune p run lists hgood ih => exact fun path h => ih ((files_prune p _).1.subset h)

/-- Whatever vanishes from a place is a backup. -/
theorem Run.isBackup_of_gone (run : Run place good start ever files) {path : String}
    (hever : path ∈ ever) (hgone : path ∉ files) :
    ∃ name, isBackup name = true ∧ path = place.path name := by
  induction run with
  | start => exact absurd hever hgone
  | backup filename run ih =>
    cases List.mem_cons.mp hever with
    | inl heq => exact absurd (heq ▸ path_mem_store filename _) hgone
    | inr hmem => exact ih hmem fun h => hgone (mem_store_of_mem h)
  | @prune ever files p run lists hgood ih =>
    by_cases hmem : path ∈ files
    · obtain ⟨_, name, hname, heq⟩ := (files_prune p files).2 path hmem hgone
      have hlisted := isBackup_of_pruned _ _ _ _ hname
      exact ⟨name, (List.mem_filter.mp hlisted).2, heq⟩
    · exact ih hever hmem

/-- A directory holds one file of a name. -/
theorem Run.nodup (run : Run place good start ever files) (hstart : start.Nodup)
    (hlocal : place = localDir) : files.Nodup := by
  subst hlocal
  induction run with
  | start => exact hstart
  | backup filename run ih =>
    unfold store
    split
    · exact ih
    · rw [← List.concat_eq_append]
      exact List.Nodup.concat ‹_› ih
  | prune p run lists hgood ih => exact ih.sublist (files_prune p _).1

/-- A name is not beyond the floor of a directory that has nothing newer. -/
theorem localDir_newestOnce {p : Prune} (hnodup : files.Nodup) (hlists : localDir.Lists files p)
    {name : String} (hnewest : localDir.IsNewest files name) :
    notOlderCount (localDir.names p) name ≤ keptCount p.lastN := by
  obtain ⟨candidates, hlisting, hperm⟩ := hlists
  have hnames : localDir.names p = candidates := by rw [names, hlisting, Option.getD_some]
  have hcount : notOlderCount candidates name ≤ candidates.count name := by
    rw [notOlderCount, List.count, List.countP_filter]
    apply List.countP_mono_left
    intro other hother h
    obtain ⟨hle, hbackup⟩ := Bool.and_eq_true_iff.mp h
    have hheld : other ∈ files := (List.mem_filter.mp (hperm.subset hother)).1
    have hge := hnewest.newest other hbackup hheld
    exact beq_iff_eq.mpr (backupKey_inj hbackup hnewest.backup
      (le_antisymm hge (of_decide_eq_true hle)))
  have honce : candidates.count name ≤ 1 :=
    List.nodup_iff_count_le_one.mp (hperm.symm.nodup (hnodup.filter _)) name
  rw [hnames]
  exact (hcount.trans honce).trans (keptCount_pos p.lastN)

/-- A good prune leaves the newest backup. -/
theorem newest_mem_prune {p : Prune} {name : String} (hnewest : place.IsNewest files name)
    (hnodup : place = localDir → files.Nodup) (hlists : place.Lists files p)
    (honce : place.NewestOnce files p) : place.path name ∈ (place.prune p files).1.files := by
  by_contra hgone
  obtain ⟨hverified, other, hpruned, heq⟩ := (files_prune p files).2 _ hnewest.held hgone
  rw [← path_inj heq] at hpruned
  have hmem := isBackup_of_pruned _ _ _ _ hpruned
  have hover := (mem_pruned_iff _ _ _ _ hmem).mp hpruned
  have hle : notOlderCount (place.names p) name ≤ keptCount p.lastN := by
    cases place with
    | localDir => exact localDir_newestOnce (hnodup rfl) hlists hnewest
    | cloud remoteDir destName => exact honce name hnewest hverified (List.mem_filter.mp hmem).1
  exact absurd hover (not_lt.mpr hle)

/-- The newest backup that was ever in a place is still there. -/
theorem Run.newest_mem (run : Run place place.NewestOnce start ever files)
    (hstart : place = localDir → start.Nodup) {name : String}
    (hnewest : place.IsNewest ever name) : place.path name ∈ files := by
  induction run with
  | start => exact hnewest.held
  | @backup ever files filename run ih =>
    by_cases heq : place.path name = place.path filename
    · exact heq ▸ path_mem_store filename files
    · have hheld : place.path name ∈ ever := (List.mem_cons.mp hnewest.held).resolve_left heq
      exact mem_store_of_mem (ih ⟨hnewest.backup, hheld, fun other hb h =>
        hnewest.newest other hb (List.mem_cons_of_mem _ h)⟩)
  | @prune ever files p run lists hgood ih =>
    have hbefore : place.IsNewest files name := ⟨hnewest.backup, ih hnewest, fun other hb h =>
      hnewest.newest other hb (run.subset h)⟩
    exact newest_mem_prune hbefore (fun hlocal => run.nodup (hstart hlocal) hlocal) lists hgood

/-- Where a backup is, there is a newest one. -/
theorem exists_isNewest {paths : List String} {name : String} (h : isBackup name = true)
    (hheld : place.path name ∈ paths) : ∃ newest, place.IsNewest paths newest := by
  have hfinite : {other | isBackup other = true ∧ place.path other ∈ paths}.Finite := by
    have hpaths : {path | path ∈ paths}.Finite := List.finite_toSet paths
    exact (hpaths.preimage (fun _ _ _ _ => path_inj)).subset fun other hother => hother.2
  obtain ⟨newest, ⟨hb, hmem⟩, hmax⟩ := Set.Finite.exists_maximalFor backupKey _ hfinite ⟨name, h, hheld⟩
  refine ⟨newest, hb, hmem, fun other hother hin => ?_⟩
  exact (le_total _ _).elim id fun hle => hmax ⟨hother, hin⟩ hle

end Runs

end Place

/-- A selection keeps the newest backups, as many as it may, and no name both ways exactly when no
copies of one are on both sides of the floor. At a place only backups vanish, and the newest one ever
held stays as long as every prune meets its copies on one side. -/
theorem newest_backup_kept (place : Place) {start ever files : List String}
    (hstart : place = .localDir → start.Nodup) :
    (∀ (filenames : List String) (lastN maxAgeDays now : ℤ),
      let split := selectPrunable filenames lastN maxAgeDays now
      let kept := split.1
      let pruned := split.2.map Prod.fst
      (kept ++ pruned).Perm (filenames.filter isBackup) ∧
        kept.length = min (filenames.filter isBackup).length (max lastN 1).toNat ∧
        (∀ k ∈ kept, ∀ p ∈ pruned, backupKey p ≤ backupKey k) ∧
        ((∀ name ∈ kept, name ∉ pruned) ↔
          ∀ name ∈ filenames.filter isBackup, newerCount filenames name < (max lastN 1).toNat →
            notOlderCount filenames name ≤ (max lastN 1).toNat)) ∧
    (∀ good, Place.Run place good start ever files → ∀ path ∈ ever, path ∉ files →
      ∃ name, isBackup name = true ∧ path = place.path name) ∧
    (Place.Run place place.NewestOnce start ever files →
      ∀ name, isBackup name = true → place.path name ∈ ever →
        ∃ newest, place.IsNewest ever newest ∧ place.path newest ∈ files) := by
  refine ⟨fun filenames lastN maxAgeDays now => ?_, fun good run path hever hgone => ?_,
    fun run name hb hever => ?_⟩
  · obtain ⟨hperm, hlength, horder⟩ := selectPrunable_split filenames lastN maxAgeDays now
    exact ⟨hperm, hlength, horder, selectPrunable_disjoint_iff filenames lastN maxAgeDays now⟩
  · exact run.isBackup_of_gone hever hgone
  · obtain ⟨newest, hnewest⟩ := Place.exists_isNewest hb hever
    exact ⟨newest, hnewest, run.newest_mem hstart hnewest⟩

/-- Two nights of backups on disk, pruned to one. -/
theorem newest_backup_kept_on_disk :
    let old := "ecm-backup-2026-01-01_030000.zip"
    let new := "ecm-backup-2026-01-02_030000.zip"
    let store : List String := [new]
    (∃ name, isBackup name = true ∧ old = name) ∧
      ∃ newest, Place.IsNewest .localDir [new, old] newest ∧ newest ∈ store := by
  intro old new store
  have hstart : Place.localDir = Place.localDir → ([] : List String).Nodup := fun _ => List.nodup_nil
  have hrun : Place.Run .localDir Place.localDir.NewestOnce [] [new, old]
      ((Place.localDir.prune ⟨true, 1, 30, 63902995200, some [new, old], fun _ => true⟩
        [old, new]).1.files) := by
    apply Place.Run.prune
    · exact .backup new (.backup old .start)
    · exact ⟨[new, old], rfl, by decide +kernel⟩
    · trivial
  have hfiles : (Place.localDir.prune ⟨true, 1, 30, 63902995200, some [new, old], fun _ => true⟩
      [old, new]).1.files = store := by decide +kernel
  rw [hfiles] at hrun
  have hkept := @newest_backup_kept .localDir [] [new, old] store hstart
  exact ⟨hkept.2.1 _ hrun old (by simp) (by decide +kernel),
    hkept.2.2 hrun old (by decide +kernel) (by simp [Place.path])⟩

/-- A folder with two files of one name: the name is kept and pruned, and the prune empties the
folder. -/
theorem newest_backup_lost :
    let twice := ["ecm-backup-2026-01-01_030000.zip", "ecm-backup-2026-01-01_030000.zip"]
    (∃ name ∈ (selectPrunable twice 1 30 63902995200).1,
      name ∈ (selectPrunable twice 1 30 63902995200).2.map Prod.fst) ∧
    ¬ ∀ (place : Place) (start ever files : List String),
      (place = .localDir → start.Nodup) →
      Place.Run place (fun _ _ => True) start ever files →
      ∀ name, isBackup name = true → place.path name ∈ ever →
        ∃ newest, place.IsNewest ever newest ∧ place.path newest ∈ files := by
  intro twice
  refine ⟨⟨"ecm-backup-2026-01-01_030000.zip", by decide +kernel, by decide +kernel⟩, fun h => ?_⟩
  have hrun : Place.Run (.cloud "" "drive") (fun _ _ => True) twice twice
      ((Place.cloud "" "drive").prune ⟨true, 1, 30, 63902995200, some twice, fun _ => true⟩
        twice).1.files := .prune _ .start trivial trivial
  have hfiles : ((Place.cloud "" "drive").prune
      ⟨true, 1, 30, 63902995200, some twice, fun _ => true⟩ twice).1.files = [] := by decide +kernel
  rw [hfiles] at hrun
  obtain ⟨newest, _, hmem⟩ := h (.cloud "" "drive") twice twice [] (fun hlocal => nomatch hlocal) hrun
    "ecm-backup-2026-01-01_030000.zip" (by decide +kernel) (by decide +kernel)
  cases hmem

end ChannelManager.Dbas
