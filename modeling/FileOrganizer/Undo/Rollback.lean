import FileOrganizer.Undo.Log

/-!
Taking back the last session of a directory: its records are gone through from the last to the first,
files go back to where they came from, and what was made is removed.
-/

namespace FileOrganizer

structure RollbackReport where
  restored : Nat := 0
  copies : Nat := 0
  missing : Nat := 0
  kept : Nat := 0
  errors : List String := []
  nothing : Bool := false
  deriving DecidableEq, Repr

namespace RollbackReport

def success (r : RollbackReport) : Bool := r.errors.isEmpty

def summary (r : RollbackReport) : String :=
  if r.nothing then "没有可撤销的操作"
  else
    let errors := r.errors.length
    let kept := if r.kept = 0 then "" else s!", 保留目录: {r.kept}"
    s!"已恢复: {r.restored}, 删除副本: {r.copies}, 跳过: {r.missing}, 失败: {errors}{kept}"

end RollbackReport

namespace Rollback

/-- The tree, what is on record about files, and the report, as far as the rollback has come. -/
structure Progress where
  tree : Tree
  store : TagStore
  report : RollbackReport := {}

variable (who : Actor) (folder : Path)

/-- The directories that have become empty go as well. -/
def tidy (p : Progress) (target : Path) : Progress :=
  match target.parent? with
  | none => p
  | some d => { p with tree := (Disk.pruneUpTo who d folder p.tree).2 }

def wrong (p : Progress) (e : String) : Progress :=
  { p with report.errors := p.report.errors ++ [e] }

def goBack (p : Progress) (r : UndoRecord) : Progress :=
  if p.tree.has who.cwd r.source then wrong p s!"原位置已被占用: {r.source}"
  else match Disk.moveFile who r.target r.source p.tree with
    | (.error e, t) => wrong { p with tree := t } s!"回滚 {r.target} 失败: {e.message}"
    | (.ok (), t) =>
      tidy who folder
        { tree := t, store := p.store.rename (who.key r.target) (who.key r.source),
          report := { p.report with restored := p.report.restored + 1 } } r.target

/-- A directory that something else was put into is kept. -/
def dropDir (p : Progress) (r : UndoRecord) : Progress :=
  match Tree.removeDir who r.target p.tree with
  | .error _ => { p with report.kept := p.report.kept + 1 }
  | .ok t => tidy who folder { p with tree := t, report.copies := p.report.copies + 1 } r.target

def dropCopy (p : Progress) (r : UndoRecord) : Progress :=
  match Tree.removeFile who r.target p.tree with
  | .error e => wrong p s!"删除副本 {r.target} 失败: {e.message}"
  | .ok t => tidy who folder { p with tree := t, report.copies := p.report.copies + 1 } r.target

def step (p : Progress) (r : UndoRecord) : Progress :=
  if !p.tree.has who.cwd r.target then { p with report.missing := p.report.missing + 1 }
  else match r.mode with
    | .move => goBack who folder p r
    | .copy =>
      if p.tree.isDir who.cwd r.target then dropDir who folder p r else dropCopy who folder p r

def steps (records : List UndoRecord) (p : Progress) : Progress :=
  records.reverse.foldl (step who folder) p

/-- The log stays if anything went wrong, so that it can be tried again. -/
def run (t : Tree) (store : TagStore) : Except Fault RollbackReport × Tree × TagStore :=
  match UndoLog.load who t folder with
  | .error e => (.error e, t, store)
  | .ok none => (.ok { nothing := true }, t, store)
  | .ok (some log) =>
    if !log.canUndo then (.ok { nothing := true }, t, store)
    else
      let p := steps who folder log.records { tree := t, store }
      if p.report.success then
        match UndoLog.remove who folder p.tree with
        | (.error e, t) => (.error e, t, p.store)
        | (.ok (), t) => (.ok p.report, t, p.store)
      else (.ok p.report, p.tree, p.store)

end Rollback

end FileOrganizer
