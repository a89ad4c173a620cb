import ChannelManager.Lib.Ranking
import Mathlib.Data.List.Sort
import Mathlib.Order.Defs.LinearOrder

/-!
# Backup retention

`dbas/retention.py`: which backup names to prune, and the deletes that follow on the backup directory
or at a cloud destination. Names are ordered by the timestamp they carry, a name without one is never
looked at, and the newest `last_n` (one at least) are kept.
-/

namespace ChannelManager

namespace Dbas

/-- A wall-clock time in UTC. -/
structure BackupTime where
  year : ℕ
  month : ℕ
  day : ℕ
  hour : ℕ
  minute : ℕ
  second : ℕ
deriving DecidableEq

namespace BackupTime

/-- The fields in order of weight, so that times compare as these numbers do. -/
def key (t : BackupTime) : ℕ :=
  ((((t.year * 100 + t.month) * 100 + t.day) * 100 + t.hour) * 100 + t.minute) * 100 + t.second

def isLeapYear (year : ℕ) : Bool := year % 4 = 0 && (year % 100 ≠ 0 || year % 400 = 0)

def daysInMonth (year month : ℕ) : ℕ :=
  if month = 2 then if isLeapYear year then 29 else 28
  else if month = 4 ∨ month = 6 ∨ month = 9 ∨ month = 11 then 30
  else 31

/-- What `datetime` takes. -/
def isValid (t : BackupTime) : Bool :=
  1 ≤ t.year && 1 ≤ t.month && t.month ≤ 12 && 1 ≤ t.day && t.day ≤ daysInMonth t.year t.month &&
    t.hour < 24 && t.minute < 60 && t.second < 60

/-- Days before the year, counted from the first of January of the year 1. -/
def daysBeforeYear (year : ℕ) : ℕ :=
  (year - 1) * 365 + (year - 1) / 4 - (year - 1) / 100 + (year - 1) / 400

/-- Seconds since the first of January of the year 1. -/
def seconds (t : BackupTime) : ℕ :=
  ((daysBeforeYear t.year + ((List.range (t.month - 1)).map fun m => daysInMonth t.year (m + 1)).sum +
    (t.day - 1)) * 24 + t.hour) * 3600 + t.minute * 60 + t.second

end BackupTime

/-- The digits of a name that has a shape of literal characters and of digits, written `#`. -/
def shapeDigits : List Char → List Char → Option (List Char)
  | [], [] => some []
  | p :: shape, c :: name =>
    if p = '#' then if c.isDigit then (shapeDigits shape name).map (c :: ·) else none
    else if p = c then shapeDigits shape name
    else none
  | _, _ => none

def backupDigits (name : String) : Option (List Char) :=
  shapeDigits "ecm-backup-####-##-##_######.zip".toList name.toList

/-- `_BACKUP_ZIP_FILENAME_RE`. -/
def backupZipFilenameRe (name : String) : Bool := (backupDigits name).isSome

/-- The number some digits spell. -/
def spelled (digits : List Char) : ℕ := digits.foldl (fun n c => n * 10 + (c.toNat - 48)) 0

/-- The fields of a timestamp, from its digits. -/
def spelledTime (digits : List Char) : BackupTime where
  year := spelled (digits.take 4)
  month := spelled ((digits.drop 4).take 2)
  day := spelled ((digits.drop 6).take 2)
  hour := spelled ((digits.drop 8).take 2)
  minute := spelled ((digits.drop 10).take 2)
  second := spelled ((digits.drop 12).take 2)

/-- `_filename_timestamp`. -/
def filenameTimestamp (name : String) : Option BackupTime :=
  ((backupDigits name).map spelledTime).filter (·.isValid)

inductive PruneReason
  | lastN
  | age
deriving DecidableEq

/-- The names that can be selected, with their times. -/
def eligibleBackups (filenames : List String) : List (BackupTime × String) :=
  filenames.filterMap fun name =>
    if backupZipFilenameRe name then (filenameTimestamp name).map fun ts => (ts, name) else none

/-- Newest first; names of one time stay in their order. -/
def newestFirst (eligible : List (BackupTime × String)) : List (BackupTime × String) :=
  eligible.insertionSort fun a b => b.1.key ≤ a.1.key

/-- `select_prunable`, at `now` seconds: what is kept, and what is pruned with its reason. -/
def selectPrunable (filenames : List String) (lastN maxAgeDays now : ℤ) :
    List String × List (String × PruneReason) :=
  let floor := (max lastN 1).toNat
  (newestFirst (eligibleBackups filenames)).zipIdx.foldl
    (fun acc e =>
      if e.2 < floor then (acc.1 ++ [e.1.2], acc.2)
      else
        let reason := if maxAgeDays * 86400 < now - e.1.1.seconds then .age else .lastN
        (acc.1, acc.2 ++ [(e.1.2, reason)]))
    ([], [])

/-- What a prune reports. -/
structure PruneSummary where
  deleted : ℕ
  failed : ℕ
  skippedReason : Option String
deriving DecidableEq

/-- A row of the journal about a pruned artifact. -/
structure PruneAudit where
  filename : String
  reason : PruneReason
  destination : String
deriving DecidableEq

/-- A place backups are in: the paths there, and what was said about it so far. -/
structure BackupStore where
  files : List String
  deleted : ℕ := 0
  failed : ℕ := 0
  audit : List PruneAudit := []

/-- One delete, which works or not. A path that was stored more than once goes as a whole. -/
def deleteBackup (destination path : String) (pruned : String × PruneReason) (ok : Bool)
    (store : BackupStore) : BackupStore :=
  if backupZipFilenameRe pruned.1 then
    if ok then
      { store with
        files := store.files.filter (· ≠ path)
        deleted := store.deleted + 1
        audit := store.audit ++ [⟨pruned.1, pruned.2, destination⟩] }
    else { store with failed := store.failed + 1 }
  else store

/-- The deletes in turn; `ok n` says whether the `n`-th works. -/
def deleteBackups (destination : String) (path : String → String) (ok : ℕ → Bool)
    (pruned : List (String × PruneReason)) (files : List String) : BackupStore :=
  pruned.zipIdx.foldl (fun store e => deleteBackup destination (path e.1.1) e.1 (ok e.2) store)
    { files := files }

def BackupStore.summary (store : BackupStore) : PruneSummary := ⟨store.deleted, store.failed, none⟩

/-- The glob of the local directory. -/
def globBackups (name : String) : Bool :=
  "ecm-backup-".toList.isPrefixOf name.toList && ".zip".toList.isSuffixOf name.toList

/-- `prune_local_backups`: the directory lists the names the glob matches in any order. -/
def pruneLocalBackups (verifiedSuccess : Bool) (lastN maxAgeDays now : ℤ) (candidates : List String)
    (ok : ℕ → Bool) (files : List String) : BackupStore × PruneSummary :=
  if verifiedSuccess then
    let store := deleteBackups "local" id ok (selectPrunable candidates lastN maxAgeDays now).2 files
    (store, store.summary)
  else ({ files := files }, ⟨0, 0, some "unverified"⟩)

/-- The last component of a path, `Path(path).name`. -/
def leafName (path : String) : String :=
  String.ofList (((path.toList.splitOn '/').filter fun c => c ≠ [] && c ≠ ['.']).getLastD [])

/-- Where an artifact of a destination is. -/
def remotePath (remoteDir filename : String) : String :=
  let dir := String.ofList
    ((remoteDir.toList.dropWhile (· = '/')).reverse.dropWhile (· = '/')).reverse
  if dir = "" then filename else dir ++ "/" ++ filename

/-- `prune_cloud_destination`: nothing when the listing raises. -/
def pruneCloudDestination (remoteDir destName : String) (verifiedSuccess : Bool)
    (lastN maxAgeDays now : ℤ) (listing : Option (List String)) (ok : ℕ → Bool)
    (files : List String) : BackupStore × PruneSummary :=
  if verifiedSuccess then
    match listing with
    | none => ({ files := files }, ⟨0, 0, some "list_failed"⟩)
    | some paths =>
      let store := deleteBackups destName (remotePath remoteDir) ok
        (selectPrunable (paths.map leafName) lastN maxAgeDays now).2 files
      (store, store.summary)
  else ({ files := files }, ⟨0, 0, some "unverified"⟩)

end Dbas

end ChannelManager
