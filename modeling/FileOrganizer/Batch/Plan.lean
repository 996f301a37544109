import FileOrganizer.Batch.Effect
import FileOrganizer.Batch.Workspace

/-!
The plan for files that no rule has taken: each goes into the directory of its category, under a free
name, unless it is there already.
-/

namespace FileOrganizer

structure PlannedTransfer where
  source : Path
  target : Path
  category : String
  deriving DecidableEq, Repr

namespace PlannedTransfer

/-- Where a file is to go. In a plan for copies, a file that is in its category as a copy stays. -/
def of? (s : Setting) (c : Categories) (mode : TransferKind) (f : FileInfo) (w : Workspace) :
    Option PlannedTransfer × Workspace :=
  let category := c.resolve f s.host.now
  let dir := s.root.child category
  let hasCopy := mode = .copy && (Content.identical? s.host w.tree f.path dir f.name).isSome
  if f.isDir || (dir.child f.name).same f.path || hasCopy then (none, w)
  else
    let (claim, w) := w.claim s.host.cwd dir f.name
    (some ⟨f.path, claim.path, category⟩, w)

def plan (s : Setting) (c : Categories) (mode : TransferKind) :
    List FileInfo → Workspace → List PlannedTransfer × Workspace
  | [], w => ([], w)
  | f :: fs, w =>
    let (m, w) := of? s c mode f w
    let (ms, w) := plan s c mode fs w
    (m.toList ++ ms, w)

end PlannedTransfer

/-- How many files go, how many bytes they have, into how many directories. -/
structure PlanSize where
  operations : Nat
  size : Nat
  dirs : Nat
  deriving DecidableEq, Repr

namespace PlanSize

def distinct : List Path → List Path
  | [] => []
  | p :: ps => if ps.any p.same then distinct ps else p :: distinct ps

/-- Sizes are added up in 64 bits. -/
def total (sizes : List Nat) : Nat := sizes.foldl (fun n k => (n + k) % Nat.pow 2 64) 0

def ofPlan (moves : List PlannedTransfer) (files : List FileInfo) : PlanSize where
  operations := moves.length
  size := total (moves.filterMap fun m => (files.find? fun f => f.path.same m.source).map (·.size))
  dirs := (distinct (moves.filterMap (·.target.parent?))).length

/-- `n / d` with two places; a half goes to the even neighbour. -/
def hundredths (n d : Nat) : String :=
  let q := n * 100 / d
  let r := n * 100 % d
  let q := if 2 * r > d ∨ (2 * r = d ∧ q % 2 = 1) then q + 1 else q
  s!"{q / 100}.{padded 2 (q % 100)}"

/-- The number of 53 significant bits next to `n`; of two that are as near, the even one. -/
def roundedTo53 (n : Nat) : Nat :=
  let shift := n.log2 + 1 - 53
  let unit := Nat.pow 2 shift
  let q := n / unit
  let r := n % unit
  (if 2 * r > unit ∨ (2 * r = unit ∧ q % 2 = 1) then q + 1 else q) * unit

/-- The size in the largest unit that it fills. -/
def sizeText (s : PlanSize) : String :=
  let n := roundedTo53 s.size
  if n < 1024 then s!"{s.size} B"
  else if n < 1024 * 1024 then hundredths n 1024 ++ " KB"
  else if n < 1024 * 1024 * 1024 then hundredths n (1024 * 1024) ++ " MB"
  else hundredths n (1024 * 1024 * 1024) ++ " GB"

end PlanSize

end FileOrganizer
