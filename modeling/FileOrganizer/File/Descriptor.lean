import FileOrganizer.File.Name
import FileOrganizer.Text.Case
import FileOrganizer.Tree.Basic

/-!
What the rules see of a file: its path and names, size, time and marks, at one moment.
-/

namespace FileOrganizer

/-- The extension is in small letters, with its dot; a directory has none. -/
structure FileNames where
  name : String
  stem : String
  ext : String
  deriving DecidableEq, Repr

def FileNames.of (p : Path) (isDir : Bool) : FileNames :=
  let name := p.fileName
  if isDir then ⟨name, name, ""⟩
  else match p.fileName? with
    | none => ⟨"", "", ""⟩
    | some n =>
      match FileName.cut n with
      | (stem, none) => ⟨n, stem, ""⟩
      | (stem, some e) => ⟨n, stem, "." ++ Text.lower e⟩

structure FileInfo extends FileNames where
  path : Path
  size : Nat
  modified : Instant
  hidden : Bool
  readOnly : Bool
  isDir : Bool
  deriving DecidableEq, Repr

namespace FileInfo

def startsWithDot (name : String) : Bool := name.toList.head? == some '.'

/-- A file that is only told about. -/
def described (path : Path) (size : Nat) (modified : Instant) (isDir : Bool) : FileInfo :=
  let names := FileNames.of path isDir
  { names with path, size, modified, isDir, hidden := startsWithDot names.name, readOnly := false }

def parent (f : FileInfo) : Path := f.path.parent

/-- The same file somewhere else. A hidden file stays hidden. -/
def relocated (f : FileInfo) (p : Path) : FileInfo :=
  let names := FileNames.of p f.isDir
  { f with toFileNames := names, path := p, hidden := f.hidden || startsWithDot names.name }

/-- The file that stands in the tree at a path, through symbolic links. -/
def read (who : Actor) (t : Tree) (p : Path) : Except Fault FileInfo :=
  match p.absolute? who.cwd with
  | none => .error .emptyPath
  | some full =>
    match t.stat who.cwd full with
    | .error e => .error (.os e)
    | .ok (_, entry) =>
      let (size, attrs, isDir) := match entry with
        | .file b a => (b.size, a, false)
        | .dir a => (0, a, true)
        | .link _ => (0, default, false)
      let names := FileNames.of full isDir
      .ok { names with
        path := full, size, modified := attrs.mtime, isDir,
        hidden := startsWithDot names.name, readOnly := attrs.readOnly }

end FileInfo

end FileOrganizer
