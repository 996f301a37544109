import FileOrganizer.CommandLine.Arguments
import FileOrganizer.Settings
import FileOrganizer.Tags.File
import FileOrganizer.Undo.Rollback
import FileOrganizer.Watch

/-!
What the program does with its arguments, and what it prints.
-/

namespace FileOrganizer

structure Output where
  code : Nat := 0
  out : String := ""
  err : String := ""
  deriving DecidableEq, Repr

def FileForecast.toJson (e : FileForecast) : Json := .obj [
  ("src", .str e.source.text),
  ("dst", .ofOption (e.target.map (·.text))),
  ("category", .ofOption e.category),
  ("rule_name", .ofOption e.rule),
  ("status", .str e.status.text),
  ("log", .arr (e.log.map .str))]

def FileResult.toJson (e : FileResult) : Json := .obj [
  ("src", .str e.source.text),
  ("dst", .ofOption (e.target.map (·.text))),
  ("rule_name", .ofOption e.rule),
  ("status", .str e.status.text),
  ("error", .ofOption e.error)]

namespace Program

def version : String := "sortkeeper 0.1.0"

def usage : String := "Usage: sortkeeper [OPTIONS] <COMMAND>"

def lines (ls : List String) : String := String.join (ls.map (· ++ "\n"))

def failed (message : String) : Output := { code := 1, err := s!"Error: {message}\n" }

def previewLine (e : FileForecast) : String :=
  let target := (e.target.map (·.text)).getD "-"
  let reason := (e.rule <|> e.category).getD ""
  s!"{e.status.text}\t{e.source} -> {target}\t{reason}"

/-- The files that go by category, told in one line if there are any. -/
def planLine (entries : List FileForecast) (files : List FileInfo) : List String :=
  let moves := entries.filterMap fun e => match e.target, e.category with
    | some target, some category => some (PlannedTransfer.mk e.source target category)
    | _, _ => none
  if moves.isEmpty then []
  else
    let stats := PlanSize.ofPlan moves files
    let size := stats.sizeText
    [s!"按类别整理: {stats.operations} 个文件, {size}, 涉及 {stats.dirs} 个目录"]

variable (host : Host) (settings : Settings)

def runOptions (args : FolderArgs) : RunOptions where
  safeMode := settings.run.safeMode || args.safeMode
  dryRun := settings.run.dryRun || args.dryRun
  skipHidden := settings.run.skipHidden && !args.includeHidden
  fallback := settings.run.fallback && !args.noFallback

def source (args : FolderArgs) : Profile.Source :=
  match args.profile <|> settings.profile with
  | some p => .file p
  | none => .given {}

def mode (args : FolderArgs) : TransferKind := if args.copy then .copy else settings.mode

def storeOf (t : Tree) : Except Output KeptStore × Tree :=
  let file := settings.databaseFile host.home
  match KeptStore.openFile host.toActor file t with
  | (.ok k, t) => (.ok k, t)
  | (.error e, t) => (.error (failed (Fault.storeUnreadable file e).headline), t)

def filesOf (args : FolderArgs) (profile : Profile) (t : Tree) : List FileInfo :=
  let scope := profile.scope host.toActor args.folder (settings.trashDir host.home)
    (args.recursive || settings.recursive) (runOptions settings args).skipHidden
  scope.scan host.toActor t

/-- Loads the profile, opens the store and finds the files, then goes on with `work`. -/
def withFiles (args : FolderArgs) (t : Tree)
    (work : Job → KeptStore → List FileInfo → Tree → Output × Tree) : Output × Tree :=
  match (source settings args).load host.toActor t with
  | .error e => (failed e.message, t)
  | .ok profile =>
    match storeOf host settings t with
    | (.error o, t) => (o, t)
    | (.ok k, t) =>
      let job : Job := ⟨host, settings.trashDir host.home, mode settings args, runOptions settings args, profile⟩
      work job k (filesOf host settings args profile t) t

def preview (args : FolderArgs) (t : Tree) : Output × Tree :=
  withFiles host settings args t fun job k files t =>
    match job.preview args.folder files t k.store with
    | .error e => (failed e.message, t)
    | .ok (entries, _) =>
      if args.json then ({ out := (Json.arr (entries.map FileForecast.toJson)).pretty ++ "\n" }, t)
      else
        let count := entries.length
        ({ out := lines (entries.map previewLine ++ [s!"共 {count} 个文件"] ++ planLine entries files) }, t)

def faultLine (e : FileResult) : Option String := e.error.map fun m => s!"失败: {e.source} ({m})"

def organize (args : FolderArgs) (t : Tree) : Output × Tree :=
  withFiles host settings args t fun job k files t =>
    match job.apply args.folder files t k.store with
    | .error e => (failed e.message, t)
    | .ok (entries, b) =>
      let t := { k with store := b.work.store }.save host.toActor b.work.tree
      if args.json then ({ out := (Json.arr (entries.map FileResult.toJson)).pretty ++ "\n" }, t)
      else
        let summary := Summary.ofStatuses (entries.map (·.status))
        ({ out := lines [summary.text], err := lines (entries.filterMap faultLine) }, t)

def undo (folder : Path) (t : Tree) : Output × Tree :=
  match storeOf host settings t with
  | (.error o, t) => (o, t)
  | (.ok k, t) =>
    match Rollback.run host.toActor folder t k.store with
    | (.error e, t, _) => (failed e.headline, t)
    | (.ok report, t, store) =>
      ({ out := lines [report.summary], err := lines report.errors },
        { k with store }.save host.toActor t)

/-- Each line of the input that is not blank names a file that has come. -/
def events (input : String) : List Path :=
  ((Text.split '\n' input.toList).map Text.trim).filter (· ≠ []) |>.map fun l => ⟨String.ofList l⟩

def watch (args : FolderArgs) (input : String) (t : Tree) : Output × Tree :=
  match storeOf host settings t with
  | (.error o, t) => (o, t)
  | (.ok k, t) =>
    let w : Watch := ⟨host, args.folder, settings.trashDir host.home, mode settings args,
      runOptions settings args, args.recursive || settings.recursive, source settings args⟩
    let p := w.run (events input) [] t k.store
    ({ out := lines [p.report.summary] }, { k with store := p.store }.save host.toActor p.tree)

def cleanupTags (t : Tree) : Output × Tree :=
  match storeOf host settings t with
  | (.error o, t) => (o, t)
  | (.ok k, t) =>
    let (n, store) := k.store.cleanup (t.has host.cwd)
    ({ out := lines [s!"已清理 {n} 条失效记录"] }, { k with store }.save host.toActor t)

def dispatch (input : String) (t : Tree) : Command → Output × Tree
  | .preview args => preview host settings args t
  | .organize args => organize host settings args t
  | .undo folder => undo host settings folder t
  | .watch args => watch host settings args input t
  | .cleanupTags => cleanupTags host settings t

/-- Runs the program. Arguments that are not understood end it with code 2. -/
def run (args : List String) (input : String) (t : Tree) : Output × Tree :=
  match Request.ofArgs? args with
  | none => ({ code := 2, err := usage ++ "\n" }, t)
  | some .help => ({ out := usage ++ "\n" }, t)
  | some .version => ({ out := version ++ "\n" }, t)
  | some (.run config command) =>
    let file := config.getD (Settings.defaultFile host.home)
    match Settings.load host.toActor t file with
    | .error e => (failed (Fault.configUnreadable file e).headline, t)
    | .ok settings => dispatch host settings input t command

end Program

end FileOrganizer
