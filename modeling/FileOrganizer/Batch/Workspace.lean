import FileOrganizer.Rules.Profile

/-!
What a batch works on, and the names it has claimed for files to come.
-/

namespace FileOrganizer

/-- How a batch is run: safe mode forbids deletions, a dry run changes nothing. -/
structure RunOptions where
  safeMode : Bool := false
  dryRun : Bool := false
  skipHidden : Bool := true
  /-- Are files that no rule takes put into the directory of their category? -/
  fallback : Bool := true
  deriving DecidableEq, Repr

def RunOptions.dry (c : RunOptions) : RunOptions := { c with dryRun := true }

structure Setting where
  host : Host
  root : Path
  trash : Path
  config : RunOptions

structure Workspace where
  tree : Tree
  store : TagStore
  claims : List Path
  pending : Pending

/-- A name for a new file, and whether another had to be taken than the one asked for. -/
structure Claim where
  path : Path
  collided : Bool
  deriving DecidableEq, Repr

namespace Workspace

variable (s : Setting) (w : Workspace)

/-- A dry run sees what it would have changed. -/
def view : View := ⟨w.store, if s.config.dryRun then some w.pending else none⟩

def sight : Sight := ⟨s.host, w.tree, w.view s⟩

/-- Does the file exist, be it only under its old name? -/
def isThere (f : FileInfo) : Bool := w.tree.has s.host.cwd ((w.view s).origin s.host f.path)

def isClaimed (p : Path) : Bool := w.claims.any p.same

def isFree (cwd : Place) (p : Path) : Bool := !w.tree.has cwd p && !w.isClaimed p

/-- The first free variant of the name from number `n` on, if one of `fuel` is free. -/
def claimFrom (cwd : Place) (dir : Path) (name : String) : Nat → Nat → Claim
  | 0, n => ⟨dir.child (FileName.numbered name n), 0 < n⟩
  | fuel + 1, n =>
    let p := dir.child (FileName.numbered name n)
    if w.isFree cwd p then ⟨p, 0 < n⟩ else claimFrom cwd dir name fuel (n + 1)

/-- Finds a free name in a directory and claims it. -/
def claim (cwd : Place) (dir : Path) (name : String) : Claim × Workspace :=
  let c := w.claimFrom cwd dir name (w.claims.length + w.tree.entries.length + 2) 0
  (c, { w with claims := c.path :: w.claims })

/-- Works on the tree; what was changed before a fault stays changed. -/
def disk {α : Type} (work : Disk α) : Except Fault α × Workspace :=
  let (r, t) := work w.tree
  (r, { w with tree := t })

end Workspace

end FileOrganizer
