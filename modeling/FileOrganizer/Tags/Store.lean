import FileOrganizer.File.Content
import FileOrganizer.Ordered
import FileOrganizer.Path.Raw
import FileOrganizer.Table

/-!
The tag store: what is kept about files apart from the files, by the one spelling of their paths. It has
three tables: files with their colour and fingerprint, tags, and named values. A tag or a value comes
with a row for its file.
-/

namespace FileOrganizer

/-- The path under which a file is filed: its own, resolved by its bytes and read as a text. -/
@[irreducible]
def Actor.key (who : Actor) (p : Path) : Path := ⟨(RawPath.ofText p).key (who.cwd.map RawPath.utf8)⟩

structure FileRow where
  color : Option String := none
  print : Option Fingerprint := none
  deriving DecidableEq, Inhabited

structure TagStore where
  files : Table Path FileRow := []
  tags : List (Path × String) := []
  fields : Table (Path × String) String := []
  deriving DecidableEq, Inhabited

/-- All that is kept about one file. -/
structure FileRecord where
  color : Option String
  print : Option Fingerprint
  tags : List String
  fields : Table String String
  deriving DecidableEq

namespace TagStore

variable (s : TagStore) (key : Path)

def empty : TagStore := {}

def row : FileRow := (s.files.get? key).getD {}

def color : Option String := (s.row key).color

def print : Option Fingerprint := (s.row key).print

/-- The tags of a file, in order. -/
def tagsOf : List String :=
  (s.tags.filterMap fun e => if e.1 = key then some e.2 else none).foldr insertText []

def field (name : String) : Option String := s.fields.get? (key, name)

def fieldsOf : Table String String :=
  s.fields.filterMap fun e => if e.1.1 = key then some (e.1.2, e.2) else none

def record? : Option FileRecord :=
  (s.files.get? key).map fun r => ⟨r.color, r.print, s.tagsOf key, s.fieldsOf key⟩

/-- Whatever is written about a file, the file has a row first. -/
def ensure : TagStore := if s.files.has key then s else { s with files := s.files.put key {} }

/-- Also tells whether the tag is new. -/
def addTag (tag : String) : Bool × TagStore :=
  let s := s.ensure key
  if s.tags.contains (key, tag) then (false, s) else (true, { s with tags := (key, tag) :: s.tags })

/-- Also tells whether the tag was there. -/
def removeTag (tag : String) : Bool × TagStore :=
  (s.tags.contains (key, tag), { s with tags := s.tags.filter (· ≠ (key, tag)) })

/-- Also tells whether the colour was another one. -/
def setColor (color : Option String) : Bool × TagStore :=
  let s := s.ensure key
  (s.color key ≠ color, { s with files := s.files.adjust key fun r => { r with color } })

/-- Sizes beyond this are not kept. -/
def maxSize : Nat := Nat.pow 2 63 - 1

def setPrint (p : Fingerprint) : Except Fault Unit × TagStore :=
  let s := s.ensure key
  if p.size ≤ maxSize then
    (.ok (), { s with files := s.files.adjust key fun r => { r with print := some p } })
  else (.error .badDatabase, s)

def setField (name value : String) : TagStore :=
  let s := s.ensure key
  { s with fields := s.fields.put (key, name) value }

/-- Is this the fingerprint of a content of that size and beginning? -/
def agrees (size : Nat) (quick : String) (r : FileRow) : Bool :=
  match r.print with
  | some p => p.size = size && p.quick = quick
  | none => false

/-- The other files with this size and quick digest, in the order of their paths. -/
def alike (size : Nat) (quick : String) : Except Fault (List Path) :=
  if size ≤ maxSize then
    .ok (((s.files.filter fun e => e.1 ≠ key && agrees size quick e.2).map (·.1)).mergeSort
      (fun p q => p.text ≤ q.text))
  else .error .badDatabase

def redirect (source target p : Path) : Path := if p = source then target else p

/-- All that is kept about a file goes with it to its new path, and what was kept there before is gone. -/
def rename (source target : Path) : TagStore where
  files := (s.files.erase target).carry source target
  tags := (s.tags.filter (·.1 ≠ target)).map fun e => (redirect source target e.1, e.2)
  fields := (s.fields.filter (·.1.1 ≠ target)).map fun e => ((redirect source target e.1.1, e.1.2), e.2)

/-- Drops all that is kept about files that are gone; also tells how many these are. -/
def cleanup (there : Path → Bool) : Nat × TagStore :=
  let gone := (s.files.map (·.1)).filter fun p => !there p
  (gone.length, {
    files := s.files.filter fun e => !gone.contains e.1
    tags := s.tags.filter fun e => !gone.contains e.1
    fields := s.fields.filter fun e => !gone.contains e.1.1 })

end TagStore

end FileOrganizer
