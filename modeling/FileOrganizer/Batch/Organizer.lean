import FileOrganizer.Batch.Outcome
import FileOrganizer.Batch.Plan
import FileOrganizer.Undo.Log

/-!
A batch: every file goes through the rules, the files that no rule took are planned by category, and the
plan is carried out. A preview is the same batch as a dry run.
-/

namespace FileOrganizer

/-- What is to be organized, and how. -/
structure Job where
  host : Host
  trash : Path
  mode : TransferKind
  config : RunOptions
  profile : Profile

/-- A batch on its way: what it works on, the session that its records go to, and the lines that tell
what is done. -/
structure Batch where
  work : Workspace
  session : Option OpenSession
  activity : List String := []

/-- What a batch did with a file. -/
structure Report where
  file : FileInfo
  outcome : Outcome
  planned : Option PlannedTransfer
  fault : Option String

namespace Report

variable (r : Report)

def target? : Option Path :=
  match r.planned with
  | some m => some m.target
  | none => r.outcome.target?

def status (dryRun : Bool) : Status :=
  if r.outcome.handled then r.outcome.status
  else match r.planned, r.fault with
    | none, _ => .skipped
    | some _, some _ => .failed
    | some _, none => if dryRun then .wouldApply else .applied

def error? : Option String := r.fault <|> r.outcome.error?

def rule? : Option String := r.outcome.matched.head?

end Report

structure FileForecast where
  source : Path
  target : Option Path
  category : Option String
  rule : Option String
  status : Status
  log : List String
  deriving DecidableEq

structure FileResult where
  source : Path
  target : Option Path
  rule : Option String
  status : Status
  error : Option String
  deriving DecidableEq

namespace Batch

def say (b : Batch) (line : String) : Batch := { b with activity := b.activity ++ [line] }

/-- A log that cannot be written does not stop the batch. -/
def note (host : Host) (b : Batch) (r : UndoRecord) : Batch :=
  match b.session with
  | none => b
  | some s =>
    let (_, s, t) := s.append host r b.work.tree
    { b with session := some s, work := { b.work with tree := t } }

def runRules (s : Setting) (rules : List Rule) : List FileInfo → Batch → List Outcome × Batch
  | [], b => ([], b)
  | f :: fs, b =>
    let (o, w) := Rule.runAll s rules f b.work
    let b := o.log.foldl (fun b line => b.say s!"{f.name}: {line}") { b with work := w }
    let b := o.records.foldl (note s.host) b
    let (os, b) := runRules s rules fs b
    (o :: os, b)

def transferWork (host : Host) (mode : TransferKind) (m : PlannedTransfer) : Disk Unit :=
  match mode with
  | .move => Disk.moveFile host.toActor m.source m.target
  | .copy => Disk.copyFile host.toActor m.source m.target

/-- Carries out one planned move; tells what went wrong. -/
def transfer (host : Host) (mode : TransferKind) (m : PlannedTransfer) (b : Batch) : Option String × Batch :=
  match b.work.disk (transferWork host mode m) with
  | (.error e, w) =>
    let line := s!"{mode.verb} {m.source} 失败: {e.message}"
    (some line, { b with work := w }.say line)
  | (.ok (), w) =>
    let w := match mode with
      | .move => { w with store := w.store.rename (host.key m.source) (host.key m.target) }
      | .copy => w
    let b := { b with work := w }.say s!"已{mode.verb}: {m.source} -> {m.target}"
    (none, b.note host ⟨m.source, m.target, mode, host.now⟩)

def transferAll (host : Host) (mode : TransferKind) :
    List PlannedTransfer → Batch → List (PlannedTransfer × Option String) × Batch
  | [], b => ([], b)
  | m :: ms, b =>
    let (e, b) := transfer host mode m b
    let (es, b) := transferAll host mode ms b
    ((m, e) :: es, b)

/-- The last plan for a path counts, and it counts for the first file with the path. -/
def reports : List (FileInfo × Outcome) → List (PlannedTransfer × Option String) → List Report
  | [], _ => []
  | (f, o) :: rest, plan =>
    match plan.reverse.find? fun m => m.1.source.same f.path with
    | none => ⟨f, o, none, none⟩ :: reports rest plan
    | some (m, e) =>
      ⟨f, o, some m, e⟩ :: reports rest (plan.filter fun m => !m.1.source.same f.path)

def runPlan (s : Setting) (mode : TransferKind) (moves : List PlannedTransfer) (b : Batch) :
    List (PlannedTransfer × Option String) × Batch :=
  if s.config.dryRun then
    (moves.map fun m => (m, none),
      moves.foldl (fun b m => b.say s!"将{mode.verb}: {m.source} -> {m.target}") b)
  else transferAll s.host mode moves b

/-- The plan for the files that no rule took, if they are to go into their categories. -/
def planRest (s : Setting) (c : Categories) (mode : TransferKind) (files : List FileInfo)
    (outcomes : List Outcome) (w : Workspace) : List PlannedTransfer × Workspace :=
  let rest := ((files.zip outcomes).filter fun p => !p.2.handled).map (·.1)
  if s.config.fallback then PlannedTransfer.plan s c mode rest w else ([], w)

/-- The three stages of a batch, after its profile was found sound. -/
def run (s : Setting) (profile : Profile) (mode : TransferKind) (files : List FileInfo) (b : Batch) :
    List Report × Batch :=
  let files := files.filter fun f => !(s.config.skipHidden && f.hidden)
  let (outcomes, b) := runRules s profile.rules files b
  let (moves, w) := planRest s profile.categories mode files outcomes b.work
  let (results, b) := runPlan s mode moves { b with work := w }
  (reports (files.zip outcomes) results, b)

end Batch

namespace Job

variable (j : Job)

def setting (root : Path) : Setting := ⟨j.host, root, j.trash, j.config⟩

def absoluteRoot (root : Path) : Except ProfileFault Path :=
  match root.absolute? j.host.cwd with
  | none => .error (.unreadable .emptyPath)
  | some p => .ok p

/-- A batch claims names and notes changes of its own. -/
def start (tree : Tree) (store : TagStore) (session : Option OpenSession) : Batch :=
  { work := ⟨tree, store, [], .empty⟩, session }

/-- Only a fault in the profile, or a root without a place, stops a batch. -/
def run (root : Path) (files : List FileInfo) (b : Batch) : Except ProfileFault (List Report × Batch) :=
  match j.profile.validate with
  | .error e => .error e
  | .ok () =>
    match j.absoluteRoot root with
    | .error e => .error e
    | .ok root => .ok (b.run (j.setting root) j.profile j.mode files)

def forecast (r : Report) : FileForecast where
  source := r.file.path
  target := r.target?
  category := r.planned.map (·.category)
  rule := r.rule?
  status := r.status true
  log := r.outcome.log ++ match r.planned with
    | some m => [s!"按类别 {m.category} 整理: {m.source} -> {m.target}"]
    | none => if r.outcome.handled then [] else ["没有需要执行的操作"]

def resultOf (r : Report) : FileResult where
  source := r.file.path
  target := r.target?
  rule := r.rule?
  status := r.status j.config.dryRun
  error := r.error?

/-- What a batch would do. -/
def preview (root : Path) (files : List FileInfo) (tree : Tree) (store : TagStore) :
    Except ProfileFault (List FileForecast × Batch) :=
  let j := { j with config := j.config.dry }
  (j.run root files (start tree store none)).map fun (rs, b) => (rs.map forecast, b)

/-- Runs a batch, and records it in a session. -/
def applyIn (root : Path) (files : List FileInfo) (session : OpenSession) (tree : Tree) (store : TagStore) :
    Except ProfileFault (List FileResult × Batch) :=
  (j.run root files (start tree store (some session))).map fun (rs, b) => (rs.map j.resultOf, b)

/-- Runs a batch, and records it in a new session. -/
def apply (root : Path) (files : List FileInfo) (tree : Tree) (store : TagStore) :
    Except ProfileFault (List FileResult × Batch) :=
  match j.absoluteRoot root with
  | .error e => .error e
  | .ok root => j.applyIn root files { folder := root, mode := j.mode } tree store

end Job

/-- How many files came through, failed, or were left alone. -/
structure Summary where
  successful : Nat
  failed : Nat
  skipped : Nat
  deriving DecidableEq, Repr

namespace Summary

def ofStatuses (l : List Status) : Summary where
  successful := l.countP Status.counts
  failed := l.countP (· = .failed)
  skipped := l.countP fun s => s = .skipped || s = .blocked

def success (s : Summary) : Bool := s.failed = 0

def text (s : Summary) : String := s!"成功: {s.successful}, 失败: {s.failed}, 跳过: {s.skipped}"

end Summary

end FileOrganizer
