import FileOrganizer.Batch.Task

/-!
One file goes through the rules: they are asked in their order, and the actions of each rule that matches
are run one after the other, until one fails or deletes the file, or a rule stops on its match.
-/

namespace FileOrganizer

/-- An action that was run, for which rule, and what became of it. -/
structure Step where
  rule : String
  action : Action
  effect : Effect
  deriving DecidableEq, Repr

namespace Step

def line (t : Step) : String := s!"[{t.rule}] {t.action.kind}: {t.effect.message}"

/-- Was the file taken away? -/
def takesAway (t : Step) : Bool := t.action.isDeletion && t.effect.status.counts

/-- No action follows one that failed or took the file away. -/
def isLast (t : Step) : Bool := t.effect.status = .failed || t.takesAway

end Step

/-- How a file has come through the rules so far: what it is by now, the rules that matched, the actions
that were run. -/
structure Outcome where
  origin : Path
  file : FileInfo
  matched : List String := []
  steps : List Step := []

namespace Outcome

variable (o : Outcome)

/-- A file that a rule matched is not put into the directory of its category. -/
def handled : Bool := !o.matched.isEmpty

def success : Bool := o.steps.all fun t => t.effect.status ≠ .failed

def deleted : Bool := o.steps.any fun t => t.action = .delete && t.takesAway

def log : List String := o.steps.map Step.line

def records : List UndoRecord := o.steps.flatMap fun t => t.effect.records

def changesAnything : Bool := o.steps.any fun t => t.effect.status.counts

/-- The newest copy that an action for copying made. -/
def copy? : Option Path :=
  (o.steps.filterMap fun t => match t.action with
    | .copy _ => t.effect.output
    | _ => none).getLast?

/-- Where the file is in the end, or the copy of it, if anything has changed. -/
def target? : Option Path :=
  if o.deleted then none
  else if o.file.path.same o.origin then o.copy?
  else some o.file.path

def error? : Option String :=
  (o.steps.find? fun t => t.effect.status = .failed).map (·.effect.message)

def status : Status :=
  if !o.success then .failed
  else match o.steps.find? fun t => t.effect.status.counts with
    | some t => t.effect.status
    | none => if o.steps.any fun t => t.effect.status = .blocked then .blocked else .skipped

variable (s : Setting)

/-- Each action sees the file as it is by now. In a dry run nothing has happened to it. -/
def refresh (w : Workspace) (f : FileInfo) : FileInfo :=
  if s.config.dryRun then f
  else match FileInfo.read s.host.toActor w.tree f.path with
    | .ok g => g
    | .error _ => f

def runAction (rule : String) (a : Action) (w : Workspace) : Outcome × Workspace :=
  let f := refresh s w o.file
  let (r, w) := a.run s f w
  let step : Step := ⟨rule, a, r⟩
  match r.newPath with
  | none => ({ o with file := f, steps := o.steps ++ [step] }, w)
  | some p =>
    ({ o with file := f.relocated p, steps := o.steps ++ [step] },
      if s.config.dryRun then
        { w with pending := w.pending.relocate (s.host.key f.path) (s.host.key p) }
      else w)

/-- Also tells whether it is over. -/
def runActions (rule : String) : List Action → Outcome → Workspace → Bool × Outcome × Workspace
  | [], o, w => (false, o, w)
  | a :: as, o, w =>
    let (o, w) := o.runAction s rule a w
    if (o.steps.getLast?.map Step.isLast).getD false then (true, o, w) else runActions rule as o w

def runRules : List Rule → Outcome → Workspace → Outcome × Workspace
  | [], o, w => (o, w)
  | r :: rs, o, w =>
    if r.matches? (w.sight s) o.file then
      let (ended, o, w) := runActions s r.name r.actions { o with matched := o.matched ++ [r.name] } w
      if ended || r.stopOnMatch then (o, w) else runRules rs o w
    else runRules rs o w

end Outcome

/-- What becomes of a file under the rules. -/
def Rule.runAll (s : Setting) (rules : List Rule) (f : FileInfo) (w : Workspace) : Outcome × Workspace :=
  Outcome.runRules s rules { origin := f.path, file := f } w

end FileOrganizer
