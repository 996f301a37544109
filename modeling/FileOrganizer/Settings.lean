import FileOrganizer.Batch.Workspace
import FileOrganizer.Undo.Log

/-!
The settings of the program, as a JSON document in which everything may be left out.
-/

namespace FileOrganizer

open Decode

namespace RunOptions

def record : Record RunOptions RunOptions where
  fields := ["safe_mode", "dry_run", "skip_hidden", "fallback_to_category_sort_on_rule_failure"]
  draft := {}
  take := fun c k j =>
    if k = "safe_mode" then (bool j).map fun b => { c with safeMode := b }
    else if k = "dry_run" then (bool j).map fun b => { c with dryRun := b }
    else if k = "skip_hidden" then (bool j).map fun b => { c with skipHidden := b }
    else (bool j).map fun b => { c with fallback := b }
  close := .ok

def ofJson : Decoder RunOptions := record.decode

def toJson (c : RunOptions) : Json := .obj [
  ("safe_mode", .bool c.safeMode),
  ("dry_run", .bool c.dryRun),
  ("skip_hidden", .bool c.skipHidden),
  ("fallback_to_category_sort_on_rule_failure", .bool c.fallback)]

end RunOptions

/-- How a directory is watched: the length of the queue, and how often and at what interval a file is
looked at until it is stable. -/
structure WatchQueue where
  capacity : Nat := 256
  intervalMs : Nat := 1000
  attempts : Nat := 10
  deriving DecidableEq, Repr

namespace WatchQueue

def record : Record WatchQueue WatchQueue where
  fields := ["queue_capacity", "stability_interval_ms", "stability_attempts"]
  draft := {}
  take := fun w k j =>
    if k = "queue_capacity" then (nat 64 j).map fun n => { w with capacity := n }
    else if k = "stability_interval_ms" then (nat 64 j).map fun n => { w with intervalMs := n }
    else (nat 32 j).map fun n => { w with attempts := n }
  close := .ok

def toJson (w : WatchQueue) : Json := .obj [
  ("queue_capacity", .nat w.capacity),
  ("stability_interval_ms", .nat w.intervalMs),
  ("stability_attempts", .nat w.attempts)]

end WatchQueue

structure Settings where
  database : Option Path := none
  trash : Option Path := none
  profile : Option Path := none
  workers : Nat := 1
  mode : TransferKind := .move
  recursive : Bool := false
  run : RunOptions := {}
  watch : WatchQueue := {}
  deriving DecidableEq, Repr

namespace Settings

def record : Record Settings Settings where
  fields := ["database_path", "trash_dir", "profile_path", "workers", "transfer_mode",
    "include_subfolders", "run_defaults", "watch"]
  draft := {}
  take := fun s k j =>
    if k = "database_path" then (optional path j).map fun p => { s with database := p }
    else if k = "trash_dir" then (optional path j).map fun p => { s with trash := p }
    else if k = "profile_path" then (optional path j).map fun p => { s with profile := p }
    else if k = "workers" then (nat 64 j).map fun n => { s with workers := n }
    else if k = "transfer_mode" then (TransferKind.ofJson j).map fun m => { s with mode := m }
    else if k = "include_subfolders" then (bool j).map fun b => { s with recursive := b }
    else if k = "run_defaults" then (RunOptions.ofJson j).map fun c => { s with run := c }
    else (WatchQueue.record.decode j).map fun w => { s with watch := w }
  close := .ok

def ofJson : Decoder Settings := record.decode

def ofPath (p : Option Path) : Json := .ofOption (p.map (·.text))

def toJson (s : Settings) : Json := .obj [
  ("database_path", ofPath s.database),
  ("trash_dir", ofPath s.trash),
  ("profile_path", ofPath s.profile),
  ("workers", .nat s.workers),
  ("transfer_mode", .str s.mode.text),
  ("include_subfolders", .bool s.recursive),
  ("run_defaults", s.run.toJson),
  ("watch", s.watch.toJson)]

/-- The places in the home directory where things are kept if nothing else is said. -/
def defaultFile (home : Path) : Path := home.join ⟨".config/sortkeeper/config.json"⟩

def dataDir (home : Path) : Path := home.join ⟨".local/share/sortkeeper"⟩

def databaseFile (home : Path) (s : Settings) : Path := s.database.getD ((dataDir home).child "tags.db")

def trashDir (home : Path) (s : Settings) : Path := s.trash.getD ((dataDir home).child "trash")

/-- Without a file the defaults hold. -/
def load (who : Actor) (t : Tree) (file : Path) : Except Fault Settings :=
  if t.has who.cwd file then do
    let doc ← t.readText who.cwd file
    (document ofJson doc).mapError Fault.badJson
  else .ok {}

def save (who : Actor) (file : Path) (s : Settings) : Disk Unit := do
  if let some d := file.parent? then Disk.makeDirs who d
  Disk.change (Tree.writeFile who file s.toJson.pretty.toUTF8)

end Settings

end FileOrganizer
