import FileOrganizer.Tree.Basic

/-!
Single changes of the tree. A change that fails leaves the tree as it was.
-/

namespace FileOrganizer.Tree

/-- In a directory that is protected nothing comes into being and nothing goes. -/
def isLocked (t : Tree) (d : Place) : Bool :=
  match t.at? d with
  | some (.dir a) => a.readOnly
  | _ => false

variable (who : Actor)

def addFile (t : Tree) (l : Place) (bytes : ByteArray) : Except OsError Tree :=
  if t.isLocked l.dropLast then .error .denied
  else .ok ((t.put l (.file bytes ⟨who.now, false⟩)).touch l.dropLast who.now)

/-- A symbolic link, where nothing stands. -/
def makeLink (p : Path) (target : String) (t : Tree) : Except OsError Tree :=
  match t.locate who.cwd false p with
  | .error e => .error e
  | .ok ⟨_, some _⟩ => .error .occupied
  | .ok ⟨l, none⟩ =>
    if t.isLocked l.dropLast then .error .denied
    else .ok ((t.put l (.link target)).touch l.dropLast who.now)

def makeDir (p : Path) (t : Tree) : Except OsError Tree :=
  match t.parentOf who.cwd p with
  | .error e => .error e
  | .ok (d, .name n) =>
    if (t.at? (d ++ [n])).isSome then .error .occupied
    else if t.isLocked d then .error .denied
    else .ok ((t.put (d ++ [n]) (.dir ⟨who.now, false⟩)).touch d who.now)
  | .ok _ => .error .occupied

/-- Writes over a file or makes a new one, through symbolic links. -/
def writeFile (p : Path) (bytes : ByteArray) (t : Tree) : Except OsError Tree :=
  if p.endsInSlash then .error .isDirectory
  else match t.locate who.cwd true p with
    | .error e => .error e
    | .ok ⟨l, some (.file _ a)⟩ =>
      if a.readOnly then .error .denied else .ok (t.put l (.file bytes { a with mtime := who.now }))
    | .ok ⟨_, some _⟩ => .error .isDirectory
    | .ok ⟨l, none⟩ => t.addFile who l bytes

/-- Makes a new file where nothing stands, not even a link. -/
def createFile (p : Path) (bytes : ByteArray) (t : Tree) : Except OsError Tree :=
  if p.endsInSlash then .error .isDirectory
  else match t.locate who.cwd false p with
    | .error e => .error e
    | .ok ⟨_, some _⟩ => .error .occupied
    | .ok ⟨l, none⟩ => t.addFile who l bytes

/-- Time and write protection of what a path leads to. -/
def setAttrs (p : Path) (f : Attrs → Attrs) (t : Tree) : Except OsError Tree :=
  match t.stat who.cwd p with
  | .error e => .error e
  | .ok (l, .file b a) => .ok (t.put l (.file b (f a)))
  | .ok (l, .dir a) => .ok (t.put l (.dir (f a)))
  | .ok (_, .link _) => .ok t

def removeFile (p : Path) (t : Tree) : Except OsError Tree :=
  match t.parentOf who.cwd p with
  | .error e => .error e
  | .ok (d, .name n) =>
    match t.at? (d ++ [n]) with
    | none => .error .notFound
    | some e =>
      if t.isLocked d then .error .denied
      else if e.isDir then .error .isDirectory
      else if p.endsInSlash then .error .notDirectory
      else .ok ((t.erase (d ++ [n])).touch d who.now)
  | .ok _ => .error .isDirectory

/-- Only an empty directory is removed. -/
def removeDir (p : Path) (t : Tree) : Except OsError Tree :=
  match t.parentOf who.cwd p with
  | .error e => .error e
  | .ok (d, .name n) =>
    match t.at? (d ++ [n]) with
    | none => .error .notFound
    | some (.dir _) =>
      if t.isLocked d then .error .denied
      else if (t.childPlaces (d ++ [n])).isEmpty then .ok ((t.erase (d ++ [n])).touch d who.now)
      else .error .notEmpty
    | some _ => .error .notDirectory
  | .ok (_, .dot) => .error .invalid
  | .ok (_, .dots) => .error .notEmpty
  | .ok (_, .top) => .error .busy

/-- A thing goes with all that is below it; a link goes itself. -/
def removeAll (p : Path) (t : Tree) : Except OsError Tree :=
  match t.locate who.cwd false p with
  | .error e => .error e
  | .ok ⟨_, none⟩ => .error .notFound
  | .ok ⟨l, some _⟩ =>
    .ok (touch ⟨t.entries.filter fun e => !l.isPrefixOf e.1⟩ l.dropLast who.now)

/-- Everything at or below `src` goes to the same way below `dst`, where nothing may be left. -/
def relocate (src dst : Place) (t : Tree) : Tree :=
  ⟨(t.entries.filter (fun e => !dst.isPrefixOf e.1)).map fun (p, e) =>
    if src.isPrefixOf p then (dst ++ p.drop src.length, e) else (p, e)⟩

/-- What may stand at the target of a renaming: nothing, or a thing of the same kind that is lost by
it, a directory only if it is empty. -/
def replaceable (t : Tree) (source : Entry) (target : Place) : Except OsError Unit :=
  match source, t.at? target with
  | _, none => .ok ()
  | .dir _, some (.dir _) => if (t.childPlaces target).isEmpty then .ok () else .error .notEmpty
  | .dir _, some _ => .error .notDirectory
  | _, some (.dir _) => .error .isDirectory
  | _, some _ => .ok ()

/-- Renames the thing `l` in the directory `d` to `l'` in `d'`; `asDir` if a path asks for a directory. -/
def renameAt (asDir : Bool) (d l d' l' : Place) (t : Tree) : Except OsError Tree :=
  match t.at? l with
  | none => .error .notFound
  | some e =>
    if !e.isDir && asDir then .error .notDirectory
    else if l = l' then .ok t
    else if e.isDir && l.isPrefixOf l' then .error .invalid
    else if l'.isPrefixOf l then .error .notEmpty
    else if t.isLocked d || t.isLocked d' then .error .denied
    else match t.replaceable e l' with
      | .error e => .error e
      | .ok () => .ok (((t.relocate l l').touch d who.now).touch d' who.now)

def rename (src dst : Path) (t : Tree) : Except OsError Tree :=
  match t.parentOf who.cwd src with
  | .error e => .error e
  | .ok (d, s) =>
    match t.parentOf who.cwd dst with
    | .error e => .error e
    | .ok (d', s') =>
      match s, s' with
      | .name n, .name n' =>
        renameAt who (src.endsInSlash || dst.endsInSlash) d (d ++ [n]) d' (d' ++ [n']) t
      | _, _ => .error .busy

end FileOrganizer.Tree
