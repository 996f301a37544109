import FileOrganizer.Batch.Archive
import FileOrganizer.Batch.Effect
import FileOrganizer.Batch.Workspace
import FileOrganizer.File.Template

/-!
Actions in three steps: an action is judged against what there is, which settles it or leaves a task;
the task is tried in a dry run, or performed. Only performing changes the tree and the tag store, and
safe mode stops deletions at the judgement.
-/

namespace FileOrganizer

/-- What is left to do when nothing stands against an action. -/
inductive Task
  | rename (newName : String) (template : Option String)
  | transfer (mode : TransferKind) (dir : Path)
  | delete
  | discard
  | launch (program : String) (args : List String) (timeout : Nat)
  | archive (dir : Path) (name : String)
  | extract (dir : Path) (name : String)
  | makeDirs (dir : Path)
  | addTag (tag : String)
  | removeTag (tag : String)
  | setColor (color : String)
  /-- Puts the content on record, and tags the file if it has the content of another one. -/
  | mark (tag : String) (twin : Option Path)
  deriving DecidableEq, Repr

/-- The field that holds the template by which a file was renamed. -/
def renamedBy : String := "renamed_by"

def TransferKind.verb : TransferKind → String
  | move => "移动"
  | copy => "复制"

def Action.defaultTag : String := "duplicate"

namespace Action

variable (s : Setting) (w : Workspace) (f : FileInfo)

open Effect

def missing : Effect := failed s!"源文件不存在: {f.path}"

def judgeRename (newName : String) (template : Option String) : Except Effect Task :=
  if newName = "" || newName.toList.any (fun c => c = '/' || c = '\\') then
    .error (failed s!"无效的新文件名: \"{newName}\"")
  else if f.name = newName then .error (skipped s!"文件名已是 {newName}")
  else if template.isSome && (w.view s).field s.host f.path renamedBy = template then
    .error (skipped s!"{f.name} 已按模板改过名")
  else if !w.isThere s f then .error (missing f)
  else .ok (.rename newName template)

def judgeTransfer (mode : TransferKind) (destination : String) : Except Effect Task :=
  let dir := Template.directory destination f s.root
  let twin := match mode with
    | .move => none
    | .copy => Content.identical? s.host w.tree ((w.view s).origin s.host f.path) dir f.name
  if f.isDir then .error (failed s!"不支持移动/复制目录: {f.path}")
  else if f.parent.same dir then .error (skipped s!"{f.name} 已在目标目录 {dir}")
  else match twin with
    | some p => .error (skipped s!"目标已有相同文件: {p}")
    | none => if !w.isThere s f then .error (missing f) else .ok (.transfer mode dir)

def judgeDelete : Except Effect Task :=
  if !w.isThere s f then .error (skipped s!"{f.name} 已不存在")
  else if s.config.safeMode then .error (blocked s!"安全模式下禁止删除: {f.name}")
  else if f.isDir then .error (failed s!"不支持删除目录: {f.path}")
  else .ok .delete

def judgeDiscard : Except Effect Task :=
  if !w.isThere s f then .error (skipped s!"{f.name} 已不存在")
  else if s.config.safeMode then .error (blocked s!"安全模式下禁止移入回收站: {f.name}")
  else .ok .discard

/-- The directory that an archive is put into. -/
def archiveDir (destination : Option String) : Path :=
  match destination with
  | some d => Template.directory d f s.root
  | none => f.parent

def judgeArchive (destination : Option String) : Except Effect Task :=
  let dir := archiveDir s f destination
  let name := f.stem ++ ".zip"
  let there := dir.child name
  if f.isDir then .error (failed s!"不支持压缩目录: {f.path}")
  else if f.ext = ".zip" then .error (skipped s!"{f.name} 已是压缩包")
  else if Archive.contains s.host w.tree there f.name f.size then
    .error (skipped s!"压缩包 {there} 已包含 {f.name}")
  else if !w.isThere s f then .error (missing f)
  else .ok (.archive dir name)

/-- By its extension, or by its first bytes. -/
def isArchive : Bool :=
  f.ext = ".zip" || FileKind.ofPath? s.host w.tree ((w.view s).origin s.host f.path) = some .zip

/-- The directory in which an archive is unpacked, and the name of the directory that is made there. -/
def extractTo (destination : Option String) : Path × String :=
  match destination with
  | none => (f.parent, f.stem)
  | some d =>
    let target := Template.directory d f s.root
    (target.parent?.getD s.root, target.fileName?.getD f.stem)

def judgeExtract (destination : Option String) : Except Effect Task :=
  let (dir, name) := extractTo s f destination
  let there := dir.child name
  let source := (w.view s).origin s.host f.path
  if f.isDir || !isArchive s w f then .error (skipped s!"{f.name} 不是 zip 压缩包")
  else if w.tree.has s.host.cwd source then
    match Archive.isExtracted s.host w.tree source there with
    | .ok true => .error (skipped s!"{f.name} 已解压到 {there}")
    | .ok false => .ok (.extract dir name)
    | .error e => .error (failed s!"读取压缩包 {f.name} 失败: {e.message}")
  else .ok (.extract dir name)

def judgeFolder (path : String) : Except Effect Task :=
  let dir := Template.directory path f s.root
  if w.tree.isDir s.host.cwd dir then .error (skipped s!"目录已存在: {dir}") else .ok (.makeDirs dir)

def judgeAddTag (tag : String) : Except Effect Task :=
  if ((w.view s).tags s.host f.path).contains tag then .error (skipped s!"{f.name} 已有标签 {tag}")
  else .ok (.addTag tag)

def judgeRemoveTag (tag : String) : Except Effect Task :=
  if ((w.view s).tags s.host f.path).contains tag then .ok (.removeTag tag)
  else .error (skipped s!"{f.name} 没有标签 {tag}")

def judgeColor (color : String) : Except Effect Task :=
  if (w.view s).color s.host f.path = some color then .error (skipped s!"{f.name} 颜色已是 {color}")
  else .ok (.setColor color)

/-- A file on record is never marked: others are marked because of it. -/
def judgeMark (tag : String) : Except Effect Task :=
  if f.isDir then .error (skipped s!"{f.name} 是目录")
  else if ((w.view s).tags s.host f.path).contains tag then .error (skipped s!"{f.name} 已标记为重复")
  else match (w.view s).isFiled s.host f.path w.tree with
    | .error e => .error (failed s!"读取内容指纹失败 {f.name}: {e.message}")
    | .ok true => .error (skipped s!"{f.name} 已登记，视为原件")
    | .ok false =>
      match (w.view s).twin? s.host f.path w.tree with
      | .error e => .error (failed s!"重复检测失败 {f.name}: {e.message}")
      | .ok twin => .ok (.mark tag twin)

/-- The result of an action that does nothing, or what it has to do. -/
def judge : Action → Except Effect Task
  | rename n => judgeRename s w f n none
  | tokenRename t => judgeRename s w f (Template.render t f) (some t)
  | move d => judgeTransfer s w f .move d
  | copy d => judgeTransfer s w f .copy d
  | delete => judgeDelete s w f
  | deleteToTrash => judgeDiscard s w f
  | runCommand p args n => .ok (.launch p (args.map (Template.render · f)) n)
  | archive d => judgeArchive s w f d
  | extract d => judgeExtract s w f d
  | createFolder p => judgeFolder s w f p
  | addTag t => judgeAddTag s w f t
  | removeTag t => judgeRemoveTag s w f t
  | colorLabel c => judgeColor s w f c
  | markAsDuplicate t => judgeMark s w f (t.getD defaultTag)

end Action

namespace Task

variable (s : Setting) (f : FileInfo)

open Effect

def commandLine (program : String) (args : List String) : String :=
  String.ofList (Text.trimRight (program ++ " " ++ String.intercalate " " args).toList)

def change (w : Workspace) (g : Pending → Pending) : Workspace := { w with pending := g w.pending }

/-- What the task would do: names are claimed and changes noted, nothing else. -/
def trial (w : Workspace) : Task → Effect × Workspace
  | rename newName template =>
    let (c, w) := w.claim s.host.cwd f.parent newName
    let w := match template with
      | some t => change w (·.setField (s.host.key f.path) renamedBy t)
      | none => w
    ((planned s!"将改名: {f.name} -> {c.path.fileName}").landing c.path, w)
  | transfer mode dir =>
    let (c, w) := w.claim s.host.cwd dir f.name
    let r := planned s!"将{mode.verb}: {f.path} -> {c.path}"
    (match mode with
      | .move => r.landing c.path
      | .copy => r.making c.path, w)
  | delete => (planned s!"将删除: {f.path}", w)
  | discard =>
    let (c, w) := w.claim s.host.cwd s.trash f.name
    ((planned s!"将移入回收站: {f.path}").landing c.path, w)
  | launch program args _ => (planned s!"将执行命令: {commandLine program args}", w)
  | archive dir name =>
    let (c, w) := w.claim s.host.cwd dir name
    ((planned s!"将压缩到: {c.path}").making c.path, w)
  | extract dir name =>
    let (c, w) := w.claim s.host.cwd dir name
    ((planned s!"将解压到: {c.path}").making c.path, w)
  | makeDirs dir => ((planned s!"将创建目录: {dir}").making dir, w)
  | addTag tag =>
    (planned s!"将添加标签 {tag}: {f.name}", change w (·.addTag (s.host.key f.path) tag))
  | removeTag tag =>
    (planned s!"将移除标签 {tag}: {f.name}", change w (·.removeTag (s.host.key f.path) tag))
  | setColor color =>
    (planned s!"将设置颜色 {color}: {f.name}", change w (·.setColor (s.host.key f.path) color))
  | mark _ none => (skipped s!"{f.name} 没有重复", change w (·.noteIndexed (s.host.key f.path)))
  | mark tag (some p) =>
    (planned s!"将标记为重复: {f.name}（与 {p} 相同）",
      change w fun q => (q.noteIndexed (s.host.key f.path)).addTag (s.host.key f.path) tag)

def record (target : Path) (mode : TransferKind) : UndoRecord := ⟨f.path, target, mode, s.host.now⟩

/-- What is on record about a file goes with it. -/
def follow (w : Workspace) (source target : Path) : Workspace :=
  { w with store := w.store.rename (s.host.key source) (s.host.key target) }

/-- Moves the file to a claimed path. The result says so in the words of `told`, or else why not. -/
def moveTo (w : Workspace) (target : Path) (told : String) (why : Fault → String) :
    Effect × Workspace :=
  match w.disk (Disk.moveFile s.host.toActor f.path target) with
  | (.error e, w) => (failed (why e), w)
  | (.ok (), w) =>
    (((applied told).landing target).noting [record s f target .move], follow s w f.path target)

def noteTemplate (w : Workspace) (r : Effect) : Option String → Workspace
  | none => w
  | some t =>
    match r.newPath with
    | none => w
    | some p => { w with store := w.store.setField (s.host.key p) renamedBy t }

def perform (w : Workspace) : Task → Effect × Workspace
  | rename newName template =>
    let (c, w) := w.claim s.host.cwd f.parent newName
    let (r, w) := moveTo s f w c.path s!"已改名: {f.name} -> {c.path.fileName}"
      fun e => s!"改名 {f.name} 失败: {e.message}"
    (r, noteTemplate s w r template)
  | transfer .move dir =>
    let (c, w) := w.claim s.host.cwd dir f.name
    moveTo s f w c.path s!"已移动: {f.path} -> {c.path}" fun e => s!"移动 {f.name} 失败: {e.message}"
  | transfer .copy dir =>
    let (c, w) := w.claim s.host.cwd dir f.name
    match w.disk (Disk.copyFile s.host.toActor f.path c.path) with
    | (.error e, w) => (failed s!"复制 {f.name} 失败: {e.message}", w)
    | (.ok (), w) =>
      (((applied s!"已复制: {f.path} -> {c.path}").noting [record s f c.path .copy]).making c.path, w)
  | delete =>
    match w.disk (Disk.change (Tree.removeFile s.host.toActor f.path)) with
    | (.error e, w) => (failed s!"删除 {f.name} 失败: {e.message}", w)
    | (.ok (), w) => (applied s!"已删除: {f.path}", w)
  | discard =>
    let (c, w) := w.claim s.host.cwd s.trash f.name
    moveTo s f w c.path s!"已移入回收站: {f.path} -> {c.path}"
      fun e => s!"移入回收站失败 {f.name}: {e.message}"
  | launch program args timeout =>
    let line := commandLine program args
    match s.host.launch program args timeout w.tree with
    | (.error e, t) => (failed s!"执行命令失败 {line}: {e.message}", { w with tree := t })
    | (.ok code, t) =>
      (if code = 0 then applied s!"已执行命令: {line}" else failed s!"命令退出码 {code}: {line}",
        { w with tree := t })
  | archive dir name =>
    let (c, w) := w.claim s.host.cwd dir name
    match w.disk (Archive.write s.host f.path f.name c.path) with
    | (.error e, w) =>
      let (_, w) := w.disk (Disk.change (Tree.removeFile s.host.toActor c.path))
      (failed s!"压缩 {f.name} 失败: {e.message}", w)
    | (.ok (), w) =>
      (((applied s!"已压缩: {f.name} -> {c.path}").noting [record s f c.path .copy]).making c.path, w)
  | extract dir name =>
    let (c, w) := w.claim s.host.cwd dir name
    let ((r, made), t) := Archive.extract s.host f.path c.path w.tree
    let records := made.map fun p => record s f p .copy
    (match r with
      | .error e => (failed s!"解压 {f.name} 失败: {e.message}").noting records
      | .ok () => ((applied s!"已解压 {made.length} 个文件: {f.name} -> {c.path}").noting records).making
          c.path, { w with tree := t })
  | makeDirs dir =>
    match w.disk (Disk.makeDirs s.host.toActor dir) with
    | (.error e, w) => (failed s!"创建目录 {dir} 失败: {e.message}", w)
    | (.ok (), w) =>
      (((applied s!"已创建目录: {dir}").noting [record s f dir .copy]).making dir, w)
  | addTag tag =>
    let (isNew, store) := w.store.addTag (s.host.key f.path) tag
    (if isNew then applied s!"已添加标签 {tag}: {f.name}" else skipped s!"{f.name} 已有标签 {tag}",
      { w with store })
  | removeTag tag =>
    let (was, store) := w.store.removeTag (s.host.key f.path) tag
    (if was then applied s!"已移除标签 {tag}: {f.name}" else skipped s!"{f.name} 没有标签 {tag}",
      { w with store })
  | setColor color =>
    let (_, store) := w.store.setColor (s.host.key f.path) (some color)
    (applied s!"已设置颜色 {color}: {f.name}", { w with store })
  | mark tag twin =>
    match w.store.index s.host w.tree f.path with
    | (.error e, store) => (failed s!"登记内容指纹失败 {f.name}: {e.message}", { w with store })
    | (.ok _, store) =>
      match twin with
      | none => (skipped s!"{f.name} 没有重复", { w with store })
      | some p =>
        let (_, store) := store.addTag (s.host.key f.path) tag
        (applied s!"已标记为重复: {f.name}（与 {p} 相同）", { w with store })

end Task

/-- Runs an action on a file. -/
def Action.run (s : Setting) (f : FileInfo) (a : Action) (w : Workspace) : Effect × Workspace :=
  match a.judge s w f with
  | .error r => (r, w)
  | .ok task => if s.config.dryRun then task.trial s f w else task.perform s f w

end FileOrganizer
