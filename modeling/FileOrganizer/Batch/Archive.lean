import FileOrganizer.Host
import FileOrganizer.Tree.Transfer

/-!
Archives in the tree: making one from a file, and taking the members out of one. A member whose name
leads out of the archive is passed over.
-/

namespace FileOrganizer.Archive

variable (host : Host)

def members (t : Tree) (p : Path) : Except Fault (List Member) :=
  match t.read host.cwd p with
  | .error e => .error (.os e)
  | .ok b =>
    match host.unpack b with
    | none => .error .badArchive
    | some ms => .ok ms

def isReadable (m : Member) : Bool :=
  match m.content with
  | .unreadable => false
  | _ => true

/-- Is there an archive with a member of that name and size? -/
def contains (t : Tree) (archive : Path) (name : String) (size : Nat) : Bool :=
  match members host t archive with
  | .error _ => false
  | .ok ms =>
    match ms.find? (·.name = name) with
    | none => false
    | some m => isReadable m && m.size = size

/-- A new archive with a copy of the file. -/
def write (source : Path) (name : String) (target : Path) : Disk Unit := do
  Disk.makeParents host.toActor target
  Disk.change (Tree.createFile host.toActor target .empty)
  let bytes ← Disk.ask (·.read host.cwd source)
  Disk.change (Tree.writeFile host.toActor target (host.pack name bytes))

/-- How far below the start a path gets; none if it is at some point above the start. -/
def depth? : Nat → List Part → Option Nat
  | n, [] => some n
  | _, .root :: _ => none
  | 0, .up :: _ => none
  | n + 1, .up :: ps => depth? n ps
  | n, .name _ :: ps => depth? (n + 1) ps
  | n, .here :: ps => depth? n ps

/-- The way to a member, unless it leads out of the archive. -/
def inside? (m : Member) : Option Path :=
  let p : Path := ⟨m.name⟩
  if p.chars.contains '\x00' then none else (depth? 0 p.parts).map fun _ => p

def isDir (m : Member) : Bool :=
  match m.name.toList.getLast? with
  | some c => c = '/' || c = '\\'
  | none => false

/-- Is the member in the directory, with its size? -/
def isOut (t : Tree) (dir : Path) (m : Member) (p : Path) : Bool :=
  if isDir m then t.isDir host.cwd (dir.join p)
  else match t.stat host.cwd (dir.join p) with
    | .ok (_, e) => e.size = m.size
    | .error _ => false

def allOut (t : Tree) (dir : Path) : List Member → Except Fault Bool
  | [] => .ok true
  | m :: ms =>
    if !isReadable m then .error .badArchive
    else match inside? m with
      | none => allOut t dir ms
      | some p => if isOut host t dir m p then allOut t dir ms else .ok false

/-- Are all members in the directory already? -/
def isExtracted (t : Tree) (archive dir : Path) : Except Fault Bool :=
  if t.isDir host.cwd dir then
    match members host t archive with
    | .error e => .error e
    | .ok ms => allOut host t dir ms
  else .ok false

/-- Takes one member out; also tells of the file that came into being. -/
def extractMember (dir : Path) (m : Member) : Tree → (Except Fault Unit × List Path) × Tree := fun t =>
  match m.content, inside? m with
  | .unreadable, _ => ((.error .badArchive, []), t)
  | _, none => ((.ok (), []), t)
  | c, some p =>
    let path := dir.join p
    if isDir m then
      let (r, t) := Disk.makeDirs host.toActor path t
      ((r, []), t)
    else
      let (bytes, fault) := match c with
        | .intact b => (b, Except.ok ())
        | .broken b => (b, .error .badArchive)
        | .unreadable => (.empty, .error .badArchive)
      let make : Disk Unit := do
        Disk.makeParents host.toActor path
        Disk.change (Tree.createFile host.toActor path bytes)
      match make t with
      | (.error e, t) => ((.error e, []), t)
      | (.ok (), t) => ((fault, [path]), t)

def extractAll (dir : Path) : List Member → Tree → (Except Fault Unit × List Path) × Tree
  | [], t => ((.ok (), []), t)
  | m :: ms, t =>
    match extractMember host dir m t with
    | ((.error e, made), t) => ((.error e, made), t)
    | ((.ok (), made), t) =>
      let ((r, more), t) := extractAll dir ms t
      ((r, made ++ more), t)

/-- Takes the members of an archive out, in their order and until one fails. Tells of the files that came
into being. -/
def extract (archive dir : Path) : Tree → (Except Fault Unit × List Path) × Tree := fun t =>
  match members host t archive with
  | .error e => ((.error e, []), t)
  | .ok ms =>
    match Disk.makeDirs host.toActor dir t with
    | (.error e, t) => ((.error e, []), t)
    | (.ok (), t) => extractAll host dir ms t

end FileOrganizer.Archive
