import FileOrganizer.File.Descriptor
import FileOrganizer.Undo.Log

/-!
The files below a directory that are to be organized: in a fixed order, without the log, the directories
of categories and what is excluded.
-/

namespace FileOrganizer

structure Scope where
  root : Path
  recursive : Bool := false
  skipHidden : Bool := true
  /-- Names of directories right below the root, in small letters. -/
  excludedNames : List String := []
  excludedPaths : List Path := []

namespace Scope

variable (who : Actor) (s : Scope)

/-- The root as a path from the top. -/
def ofRoot (root : Path) : Scope := { root := (root.absolute? who.cwd).getD root }

def excludesName (name : String) : Bool := s.excludedNames.contains (Text.lower name)

def excludesPath (p : Path) : Bool := s.excludedPaths.any p.startsWith

/-- The parts of a path below the root. -/
def below? (p : Path) : Option (List Part) :=
  if p.startsWith s.root then some (p.parts.drop s.root.parts.length) else none

def firstName : List Part → String
  | .name n :: _ => n
  | .up :: _ => ".."
  | .here :: _ => "."
  | .root :: _ => "/"
  | [] => ""

/-- Is a path among those that are to be organized? -/
def accepts (p : Path) : Bool :=
  p.fileName ≠ UndoLog.fileName &&
  !(s.skipHidden && FileInfo.startsWithDot p.fileName) &&
  !s.excludesPath p &&
  match s.below? p with
  | none | some [] => false
  | some [_] => true
  | some ps => s.recursive && !s.excludesName (firstName ps)

/-- Is a directory at that depth below the root gone into? -/
def enters (p : Path) (name : String) (depth : Nat) : Bool :=
  !(s.skipHidden && FileInfo.startsWithDot name) && !s.excludesPath p &&
    !(depth = 1 && s.excludesName name)

def pick (t : Tree) (p : Path) : List FileInfo :=
  if s.accepts p then
    match FileInfo.read who t p with
    | .ok f => if s.skipHidden && f.hidden then [] else [f]
    | .error _ => []
  else []

/-- The files in a directory and, `fuel` levels down, in the directories in it. Links are not followed. -/
def scanDir (t : Tree) : Nat → Nat → Place → Path → List FileInfo
  | 0, _, _, _ => []
  | fuel + 1, depth, place, dir =>
    (t.names place).flatMap fun n =>
      match t.at? (place ++ [n]) with
      | some (.file ..) => s.pick who t (dir.child n)
      | some (.dir _) =>
        if s.recursive && s.enters (dir.child n) n depth then
          scanDir t fuel (depth + 1) (place ++ [n]) (dir.child n)
        else []
      | _ => []

def scan (t : Tree) : List FileInfo :=
  match t.stat who.cwd s.root with
  | .ok (place, .dir _) => s.scanDir who t (t.entries.length + 1) 1 place s.root
  | _ => []

end Scope

/-- The scope of a profile: what is in the directory of a category has been organized. -/
def Profile.scope (who : Actor) (p : Profile) (root trash : Path) (recursive skipHidden : Bool) : Scope :=
  { Scope.ofRoot who root with
    recursive, skipHidden
    excludedNames := p.categories.known.map Text.lower
    excludedPaths := [trash] }

end FileOrganizer
