import FileOrganizer.Text.Basic

/-!
Paths as they are spelled, and the parts they are made of. Two spellings with the same parts are the
same path: doubled slashes, a dot inside and a slash at the end do not count, but `..` does.
-/

namespace FileOrganizer

structure Path where
  text : String
  deriving DecidableEq, Inhabited, Repr

instance : ToString Path := ⟨Path.text⟩

/-- One part of a path: the leading slash, a leading dot, two dots, or a name. -/
inductive Part
  | root
  | here
  | up
  | name (n : String)
  deriving DecidableEq, Repr

def Part.text : Part → String
  | root => "/"
  | here => "."
  | up => ".."
  | name n => n

/-- A place in the tree, as the names on the way from the top. -/
abbrev Place := List String

namespace Path

def chars (p : Path) : List Char := p.text.toList

def pieces (p : Path) : List (List Char) := Text.split '/' p.chars

def isAbsolute (p : Path) : Bool := p.chars.head? == some '/'

def endsInSlash (p : Path) : Bool := p.chars.getLast? == some '/'

/-- A piece between slashes as a part; the empty piece and the dot are none. -/
def part? (piece : List Char) : Option Part :=
  if piece = [] ∨ piece = ['.'] then none
  else if piece = ['.', '.'] then some .up
  else some (.name (String.ofList piece))

/-- What a path begins with before its ordinary parts, and the pieces of the rest. -/
def lead (p : Path) : Option Part × List (List Char) :=
  if p.isAbsolute then (some .root, p.pieces.tail)
  else match p.pieces with
    | ['.'] :: ps => (some .here, ps)
    | ps => (none, ps)

def parts (p : Path) : List Part :=
  let (first, body) := p.lead
  first.toList ++ body.filterMap part?

/-- The same path, perhaps spelled in another way. -/
def same (p q : Path) : Bool := p.parts == q.parts

def startsWith (p base : Path) : Bool := base.parts.isPrefixOf p.parts

/-- An absolute `q` stands alone; else it is put after `p`, with a slash between if `p` has none. -/
def join (p q : Path) : Path :=
  if q.isAbsolute then q
  else if p.text = "" || p.endsInSlash then ⟨p.text ++ q.text⟩
  else ⟨p.text ++ "/" ++ q.text⟩

def child (p : Path) (name : String) : Path := p.join ⟨name⟩

/-- The pieces without those at the end that are no parts. -/
def trimPieces (ps : List (List Char)) : List (List Char) :=
  (ps.reverse.dropWhile (fun p => (part? p).isNone)).reverse

/-- The path without its last part, otherwise as it is spelled; `none` if there is nothing before it. -/
def parent? (p : Path) : Option Path :=
  let (first, body) := p.lead
  match trimPieces body with
  | [] => match first with
    | some .here => some ⟨""⟩
    | _ => none
  | b :: bs =>
    let rest := trimPieces (b :: bs).dropLast
    let body := String.ofList (Text.join ['/'] rest)
    match first with
    | some .root => some ⟨"/" ++ body⟩
    | some .here => some ⟨if rest.isEmpty then "." else "./" ++ body⟩
    | _ => some ⟨body⟩

def parent (p : Path) : Path := p.parent?.getD p

/-- The last part, if it is a name. -/
def fileName? (p : Path) : Option String :=
  match p.parts.getLast? with
  | some (.name n) => some n
  | _ => none

def fileName (p : Path) : String := p.fileName?.getD ""

def ofParts (ps : List Part) : Path := ps.foldl (fun p c => p.join ⟨c.text⟩) ⟨""⟩

def ofPlace (l : Place) : Path :=
  ⟨"/" ++ String.ofList (Text.join ['/'] (l.map String.toList))⟩

/-- How many slashes the path begins with. -/
def slashes (p : Path) : Nat := (p.chars.takeWhile (· == '/')).length

/-- The path from the top, with `..` kept and a slash at the end kept. The empty path has none. -/
def absolute? (cwd : Place) (p : Path) : Option Path :=
  if p.text = "" then none
  else
    let inner := p.parts.filter (· ≠ .here)
    let full :=
      if p.isAbsolute then
        if p.slashes = 2 then
          (inner.drop 1).foldl (fun q c => q.join (ofParts [c])) ⟨"//"⟩
        else ofParts inner
      else inner.foldl (fun q c => q.join (ofParts [c])) (ofPlace cwd)
    some (if p.endsInSlash then full.join ⟨""⟩ else full)

/-- The names that are left when each `..` takes back the name before it, the last name first. -/
def reduce : Place → List Part → Place
  | stack, [] => stack
  | stack, .up :: ps => reduce stack.tail ps
  | stack, .name n :: ps => reduce (n :: stack) ps
  | stack, _ :: ps => reduce stack ps

/-- The place that an absolute spelling denotes when no part of it is a symbolic link. -/
def lexical (p : Path) : Place := (reduce [] p.parts).reverse

/-- The one spelling under which a path is filed: absolute, without dots. -/
def normalize (cwd : Place) (p : Path) : Path :=
  match p.absolute? cwd with
  | none => p
  | some q => ofPlace q.lexical

def Part.rank : Part → Nat
  | .root => 0 | .here => 1 | .up => 2 | .name _ => 3

/-- Whether the first path comes before the second when they are compared part by part. -/
def beforeParts : List Part → List Part → Bool
  | [], [] => false
  | [], _ :: _ => true
  | _ :: _, [] => false
  | .name m :: ps, .name n :: qs => m < n || (m == n && beforeParts ps qs)
  | p :: ps, q :: qs => Part.rank p < Part.rank q || (Part.rank p == Part.rank q && beforeParts ps qs)

def before (p q : Path) : Bool := beforeParts p.parts q.parts

example : (parent? ⟨"/a//b/./c/"⟩).map (·.text) = some "/a//b" := by decide

example : parts ⟨"./a/./../b//"⟩ = [.here, .name "a", .up, .name "b"] := by decide

example : (normalize ["tmp", "w"] ⟨"../w2/./a"⟩).text = "/tmp/w2/a" := by decide

end Path

end FileOrganizer
