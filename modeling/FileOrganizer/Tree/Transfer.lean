import FileOrganizer.File.Name
import FileOrganizer.Tree.Change

/-!
Files are moved and copied without writing over anything. What is done before a fault stays done.
-/

namespace FileOrganizer

abbrev Disk := ExceptT Fault (StateM Tree)

namespace Disk

variable {α : Type}

/-- A change of the tree, undone as a whole if it fails. -/
def change (f : Tree → Except OsError Tree) : Disk Unit := fun t =>
  match f t with
  | .ok t' => (.ok (), t')
  | .error e => (.error (.os e), t)

def ask (f : Tree → Except OsError α) : Disk α := fun t =>
  match f t with
  | .ok a => (.ok a, t)
  | .error e => (.error (.os e), t)

def stop (f : Fault) : Disk α := fun t => (.error f, t)

/-- What is told if the work stops is told in other words. -/
def explain (f : Fault → Fault) (work : Disk α) : Disk α := fun t =>
  match work t with
  | (.error e, t') => (.error (f e), t')
  | r => r

variable (who : Actor)

/-- Makes a directory and, as far as `fuel` reaches, those above it. -/
def makeDirsFrom : Nat → Path → Disk Unit
  | 0, p => change (Tree.makeDir who p)
  | fuel + 1, p => fun t =>
    if p.text = "" then (.ok (), t)
    else match Tree.makeDir who p t with
      | .ok t' => (.ok (), t')
      | .error .notFound =>
        match p.parent? with
        | none => (.error (.os .notFound), t)
        | some q =>
          match makeDirsFrom fuel q t with
          | (.error e, t') => (.error e, t')
          | (.ok (), t') =>
            match Tree.makeDir who p t' with
            | .ok t'' => (.ok (), t'')
            | .error e => (if t'.isDir who.cwd p then .ok () else .error (.os e), t')
      | .error e => (if t.isDir who.cwd p then .ok () else .error (.os e), t)

def makeDirs (p : Path) : Disk Unit := makeDirsFrom who (p.parts.length + 1) p

/-- Makes the directories above a path. -/
def makeParents (p : Path) : Disk Unit := fun t =>
  match p.parent? with
  | none => (.ok (), t)
  | some d => makeDirs who d t

/-- Makes the directories above a target at which nothing may stand. -/
def clear (target : Path) : Disk Unit := do
  makeParents who target
  if (← get).has who.cwd target then stop (.occupied target)

/-- Writes the content of a file to another place, with its write protection and its time. -/
def duplicate (source target : Path) : Disk Unit := do
  match ← ask (·.stat who.cwd source) with
  | (_, .file bytes attrs) =>
    change (Tree.writeFile who target bytes)
    change (Tree.setAttrs who target fun _ => attrs)
  | _ => stop .notRegularFile

def copyFile (source target : Path) : Disk Unit := do
  clear who target
  duplicate who source target

/-- A file that cannot be renamed is copied and removed. -/
def moveFile (source target : Path) : Disk Unit := do
  clear who target
  let t ← get
  match Tree.rename who source target t with
  | .ok t' => set t'
  | .error e =>
    if t.has who.cwd source then
      explain (Fault.notMoved e) (copyFile who source target)
      change (Tree.removeFile who source)
    else stop (.sourceMissing source e)

/-- Removes empty directories from `dir` upward, as long as they are inside `stop`. -/
def prune (stop : Path) : Nat → Path → Disk Unit
  | 0, _ => pure ()
  | fuel + 1, dir => fun t =>
    if dir.same stop || !dir.startsWith stop then (.ok (), t)
    else match Tree.removeDir who dir t with
      | .error _ => (.ok (), t)
      | .ok t' =>
        match dir.parent? with
        | none => (.ok (), t')
        | some d => prune stop fuel d t'

def pruneUpTo (dir stop : Path) : Disk Unit := prune who stop (dir.parts.length + 1) dir

end Disk

end FileOrganizer
