import FileOrganizer.Fault
import FileOrganizer.Table
import FileOrganizer.Text.Utf8
import FileOrganizer.Time.Instant

/-!
The tree of files, directories and symbolic links, and how a path leads to a place in it.
-/

namespace FileOrganizer

structure Attrs where
  mtime : Instant
  readOnly : Bool := false
  deriving DecidableEq, Inhabited

inductive Entry
  | file (bytes : ByteArray) (attrs : Attrs)
  | dir (attrs : Attrs)
  | link (target : String)
  deriving Inhabited

def Entry.isDir : Entry → Bool
  | .dir _ => true
  | _ => false

/-- Is it the same thing, with the same content? -/
def Entry.agrees : Entry → Entry → Bool
  | .file b a, .file b' a' => b.data == b'.data && a = a'
  | .dir a, .dir a' => a = a'
  | .link t, .link t' => t = t'
  | _, _ => false

/-- The size that is told of a directory. -/
def Entry.dirSize : Nat := 4096

def Entry.size : Entry → Nat
  | .file b _ => b.size
  | _ => dirSize

structure Tree where
  entries : Table Place Entry

/-- Whoever reads and changes the tree is in a directory, at a time. -/
structure Actor where
  cwd : Place
  now : Instant

namespace Tree

def empty : Tree := ⟨[]⟩

/-- The top is a directory, whatever else there is. -/
def at? (t : Tree) : Place → Option Entry
  | [] => some (.dir default)
  | p => t.entries.get? p

def put (t : Tree) (p : Place) (e : Entry) : Tree := ⟨t.entries.put p e⟩

def erase (t : Tree) (p : Place) : Tree := ⟨t.entries.erase p⟩

def isDirAt (t : Tree) (p : Place) : Bool := t.at? p matches some (.dir _)

/-- The places right below `d`. -/
def childPlaces (t : Tree) (d : Place) : List Place :=
  (t.entries.map (·.1)).filter fun p => p ≠ [] && p.dropLast = d

/-- The names in a directory, in the order of their bytes. -/
def names (t : Tree) (d : Place) : List String :=
  ((t.childPlaces d).filterMap (·.getLast?)).mergeSort (fun a b => a ≤ b)

/-- A directory whose entries changed takes the time of the change. -/
def touch (t : Tree) (d : Place) (now : Instant) : Tree :=
  match d, t.at? d with
  | _ :: _, some (.dir a) => t.put d (.dir { a with mtime := now })
  | _, _ => t

/-- The names on a path that is spelled out. -/
def segments (p : List Char) : List String := ((Text.split '/' p).filter (· ≠ [])).map String.ofList

/-- The steps to take along a path; a slash at its end stands for a dot behind it. -/
def steps (p : List Char) : List String :=
  if p.getLast? = some '/' then segments p ++ ["."] else segments p

/-- A place, and what is there. If nothing is there, the place is in a directory. -/
structure Spot where
  place : Place
  entry : Option Entry

inductive Walk
  | arrived (s : Spot)
  /-- A symbolic link leads on from another place. -/
  | jump (start : Place) (rest : List String)
  | lost (e : OsError)

def maxName : Nat := 255

/-- Goes on from the directory `here`. A link at the end is left alone unless `follow` is set. -/
def walk (t : Tree) (follow : Bool) (here : Place) : List String → Walk
  | [] => .arrived ⟨here, t.at? here⟩
  | n :: rest =>
    if n = "." then walk t follow here rest
    else if n = ".." then walk t follow here.dropLast rest
    else if n.utf8ByteSize > maxName then .lost .nameTooLong
    else match t.at? (here ++ [n]) with
      | none => if rest.isEmpty then .arrived ⟨here ++ [n], none⟩ else .lost .notFound
      | some (.dir _) => walk t follow (here ++ [n]) rest
      | some (.file b a) =>
        if rest.isEmpty then .arrived ⟨here ++ [n], some (.file b a)⟩ else .lost .notDirectory
      | some (.link target) =>
        if rest.isEmpty && !follow then .arrived ⟨here ++ [n], some (.link target)⟩
        else .jump (if target.toList.head? = some '/' then [] else here) (steps target.toList ++ rest)

/-- At most so many links are followed. -/
def walkLinks (t : Tree) (follow : Bool) : Nat → Place → List String → Except OsError Spot
  | 0, _, _ => .error .tooManyLinks
  | n + 1, here, rest =>
    match walk t follow here rest with
    | .arrived s => .ok s
    | .lost e => .error e
    | .jump start rest => walkLinks t follow n start rest

def maxLinks : Nat := 40

def maxPath : Nat := 4096

/-- From a directory that is gone nothing is reached. -/
def resolve (t : Tree) (follow : Bool) (d : Place) (names : List String) : Except OsError Spot :=
  if t.isDirAt d then walkLinks t follow (maxLinks + 1) d names else .error .notFound

def start (cwd : Place) (p : Path) : Place := if p.isAbsolute then [] else cwd

/-- Paths that no system call takes. -/
def refused (p : Path) : Option OsError :=
  if p.chars.contains '\x00' then some .nulInPath
  else if p.text = "" then some .notFound
  else if p.text.utf8ByteSize ≥ maxPath then some .nameTooLong
  else none

def locate (t : Tree) (cwd : Place) (follow : Bool) (p : Path) : Except OsError Spot :=
  match refused p with
  | some e => .error e
  | none => t.resolve follow (start cwd p) (steps p.chars)

/-- What a path leads to in the end. -/
def stat (t : Tree) (cwd : Place) (p : Path) : Except OsError (Place × Entry) :=
  match t.locate cwd true p with
  | .error e => .error e
  | .ok ⟨_, none⟩ => .error .notFound
  | .ok ⟨l, some e⟩ => .ok (l, e)

def has (t : Tree) (cwd : Place) (p : Path) : Bool := (t.stat cwd p).isOk

def isDir (t : Tree) (cwd : Place) (p : Path) : Bool :=
  t.stat cwd p matches .ok (_, .dir _)

/-- The last step of a path, apart from the way to it. -/
inductive LastStep
  | name (n : String)
  | dot
  | dots
  | top

/-- The directory in which the last step of a path is taken. -/
def parentOf (t : Tree) (cwd : Place) (p : Path) : Except OsError (Place × LastStep) :=
  match refused p with
  | some e => .error e
  | none =>
    let names := segments p.chars
    match names.getLast? with
    | none => .ok ([], .top)
    | some n =>
      match t.resolve true (start cwd p) (names.dropLast ++ ["."]) with
      | .error e => .error e
      | .ok ⟨d, _⟩ =>
        if n = "." then .ok (d, .dot)
        else if n = ".." then .ok (d, .dots)
        else if n.utf8ByteSize > maxName then .error .nameTooLong
        else .ok (d, .name n)

/-- The bytes of a file. -/
def read (t : Tree) (cwd : Place) (p : Path) : Except OsError ByteArray :=
  match t.stat cwd p with
  | .error e => .error e
  | .ok (_, .file b _) => .ok b
  | .ok _ => .error .isDirectory

/-- The text of a file, which is in UTF-8. -/
def readText (t : Tree) (cwd : Place) (p : Path) : Except Fault String :=
  match t.read cwd p with
  | .error e => .error (.os e)
  | .ok b =>
    match Utf8.decode? b with
    | none => .error .notText
    | some s => .ok s

end Tree

end FileOrganizer
