import FileOrganizer.Batch.Organizer
import FileOrganizer.Rules.Document
import FileOrganizer.Scan
import FileOrganizer.Settings

/-!
A directory is watched: each event names a file that has come, which is organized as a batch of its own.
All events of a watch share one session.
-/

namespace FileOrganizer

structure WatchReport where
  received : Nat := 0
  processed : Nat := 0
  /-- Files that are out of scope, or gone. -/
  ignored : Nat := 0
  unstable : Nat := 0
  failed : Nat := 0
  /-- Events that were still waiting at the end. -/
  declined : Nat := 0
  entries : List FileResult := []

namespace WatchReport

def summary (r : WatchReport) : String :=
  s!"收到: {r.received}, 处理: {r.processed}, 忽略: {r.ignored}, 不稳定: {r.unstable}, 失败: {r.failed}, 未处理: {r.declined}"

end WatchReport

/-- How a directory is watched. -/
structure Watch where
  host : Host
  root : Path
  trash : Path
  mode : TransferKind
  config : RunOptions
  recursive : Bool
  source : Profile.Source

namespace Watch

structure Progress where
  tree : Tree
  store : TagStore
  session : OpenSession
  report : WatchReport := {}
  activity : List String := []

/-- How the handling of an event ends. -/
inductive Exit
  | unstable
  | gone
  | noProfile
  | outOfScope
  | noFile
  | organized (entries : List FileResult)
  | refused
  | crashed

/-- What comes from outside while an event is handled: the sizes that the file has one time after another, the tree after
that, and what a task leaves behind that breaks down. -/
structure Course where
  sizes : Nat → Option Nat
  tree : Tree
  wreck : Option (Tree × TagStore × OpenSession) := none

/-- Are two sizes in a row the same, with so many left to be read from number `i` on? -/
def settles (sizes : Nat → Option Nat) : Nat → Nat → Option Nat → Bool
  | 0, _, _ => false
  | left + 1, i, last =>
    match sizes i with
    | none => false
    | some n => last = some n || settles sizes left (i + 1) (some n)

variable (w : Watch)

def absoluteRoot : Path := (w.root.absolute? w.host.cwd).getD w.root

def receive (p : Progress) : Progress := { p with report.received := p.report.received + 1 }

def giveUp (p : Progress) : Progress := { p with report.unstable := p.report.unstable + 1 }

def ignore (p : Progress) : Progress := { p with report.ignored := p.report.ignored + 1 }

def fail (p : Progress) : Progress := { p with report.failed := p.report.failed + 1 }

def organize (p : Progress) (profile : Profile) (f : FileInfo) : Exit × Progress :=
  let job : Job := ⟨w.host, w.trash, w.mode, w.config, profile⟩
  match job.applyIn w.absoluteRoot [f] p.session p.tree p.store with
  | .error _ => (.refused, fail p)
  | .ok (entries, b) =>
    let failed := entries.any (·.status = .failed)
    (.organized entries, {
      tree := b.work.tree, store := b.work.store, session := b.session.getD p.session
      activity := p.activity ++ b.activity
      report := { p.report with
        processed := p.report.processed + 1
        failed := p.report.failed + if failed then 1 else 0
        entries := p.report.entries ++ entries } })

/-- Handles an event that was received. The profile is loaded anew for each. -/
def attend (q : WatchQueue) (c : Course) (p : Progress) (event : Path) : Exit × Progress :=
  let p := { p with tree := c.tree }
  if !settles c.sizes (max q.attempts 2) 0 none then
    if p.tree.has w.host.cwd event then (.unstable, giveUp p) else (.gone, ignore p)
  else match w.source.load w.host.toActor p.tree with
    | .error _ => (.noProfile, fail p)
    | .ok profile =>
      let scope := profile.scope w.host.toActor w.absoluteRoot w.trash w.recursive w.config.skipHidden
      let path := (event.absolute? w.host.cwd).getD event
      if !scope.accepts path then (.outOfScope, ignore p)
      else match FileInfo.read w.host.toActor p.tree path with
        | .error _ => (.noFile, ignore p)
        | .ok f =>
          if f.isDir then (.noFile, ignore p)
          else match c.wreck with
            | some (tree, store, session) => (.crashed, fail { p with tree, store, session })
            | none => organize w p profile f

/-- Nobody else touches a file while it is looked at. -/
def still (t : Tree) (event : Path) : Course :=
  { sizes := fun _ => (t.stat w.host.cwd event).toOption.map (·.2.size), tree := t }

def handle (p : Progress) (event : Path) : Progress :=
  (attend w {} (still w p.tree event) (receive p) event).2

/-- Handles the events that come before the end of the watch, one after the other with nobody else at work; those after
it are declined. -/
def run (events late : List Path) (t : Tree) (store : TagStore) : Progress :=
  let p : Progress := { tree := t, store, session := { folder := w.absoluteRoot, mode := w.mode } }
  let p := events.foldl (handle w) p
  { p with report.declined := late.length }

end Watch

end FileOrganizer
