import FileOrganizer.Json.Decode
import FileOrganizer.Json.Writer
import FileOrganizer.Tags.Store

/-!
A tag store in a file.
-/

namespace FileOrganizer

open Decode

namespace Fingerprint

def toJson (f : Fingerprint) : Json :=
  .obj [("size", .nat f.size), ("quick_hash", .str f.quick), ("full_hash", .ofOption f.full)]

def record : Record (Option Nat × Option String × Option String) Fingerprint where
  fields := ["size", "quick_hash", "full_hash"]
  draft := (none, none, none)
  take := fun (n, q, f) k j =>
    if k = "size" then (nat 64 j).map fun x => (some x, q, f)
    else if k = "quick_hash" then (text j).map fun x => (n, some x, f)
    else (optional text j).map fun x => (n, q, x)
  close := fun (n, q, f) => do pure ⟨← required "size" n, ← required "quick_hash" q, f⟩

end Fingerprint

namespace TagStore

def fileJson (key : Path) (r : FileRow) : Json := .obj [
  ("path", .str key.text),
  ("color", .ofOption r.color),
  ("print", (r.print.map Fingerprint.toJson).getD .null)]

def toJson (s : TagStore) : Json := .obj [
  ("files", .arr (s.files.map fun (k, r) => fileJson k r)),
  ("tags", .arr (s.tags.map fun (k, t) => .arr [.str k.text, .str t])),
  ("fields", .arr (s.fields.map fun ((k, n), v) => .arr [.str k.text, .str n, .str v]))]

def fileRecord : Record (Option Path × FileRow) (Path × FileRow) where
  fields := ["path", "color", "print"]
  draft := (none, {})
  take := fun (p, r) k j =>
    if k = "path" then (text j).map fun x => (some ⟨x⟩, r)
    else if k = "color" then (optional text j).map fun x => (p, { r with color := x })
    else (optional Fingerprint.record.decode j).map fun x => (p, { r with print := x })
  close := fun (p, r) => (required "path" p).map (·, r)

def tagOf : Decoder (Path × String)
  | .arr [.str k, .str t] => .ok (⟨k⟩, t)
  | _ => .error .malformed

def fieldOf : Decoder ((Path × String) × String)
  | .arr [.str k, .str n, .str v] => .ok ((⟨k⟩, n), v)
  | _ => .error .malformed

def record : Record TagStore TagStore where
  fields := ["files", "tags", "fields"]
  draft := {}
  take := fun s k j =>
    if k = "files" then (list fileRecord.decode j).map fun x => { s with files := x }
    else if k = "tags" then (list tagOf j).map fun x => { s with tags := x }
    else (list fieldOf j).map fun x => { s with fields := x }
  close := .ok

/-- By these characters the file of a tag store is known. -/
def mark : List Char := "tag store 1\n".toList

def encode (s : TagStore) : ByteArray := (String.ofList mark ++ s.toJson.compact).toUTF8

/-- An empty file is an empty store. -/
def decode? (b : ByteArray) : Option TagStore :=
  if b.isEmpty then some empty
  else do
    let cs := (← Utf8.decode? b).toList
    if mark.isPrefixOf cs then (document record.decode (String.ofList (cs.drop mark.length))).toOption
    else none

end TagStore

/-- A tag store, and the file that keeps it, if one does. -/
structure KeptStore where
  store : TagStore := {}
  file : Option Path := none

namespace KeptStore

variable (who : Actor)

/-- These names stand for a store that no file keeps. -/
def isTransient (p : Path) : Bool := p.text = "" || p.text = ":memory:"

def find (t : Tree) (p : Path) : Except Fault TagStore :=
  match t.stat who.cwd p with
  | .ok (_, .file b _) =>
    match TagStore.decode? b with
    | some s => .ok s
    | none => .error .badDatabase
  | .ok _ => .error .badDatabase
  | .error .notFound => .ok .empty
  | .error _ => .error .badDatabase

/-- Opens the store in a file, which is made if there is none. -/
def openFile (p : Path) : Disk KeptStore := do
  if let some d := p.parent? then Disk.makeDirs who d
  if isTransient p then pure {}
  else match find who (← get) p with
    | .error e => Disk.stop e
    | .ok s =>
      Disk.explain (fun _ => .badDatabase) (Disk.change (Tree.writeFile who p s.encode))
      pure ⟨s, some p⟩

/-- What others have put into the file in the meantime counts. -/
def refresh (t : Tree) (k : KeptStore) : KeptStore :=
  match k.file with
  | none => k
  | some p =>
    match t.stat who.cwd p, find who t p with
    | .ok _, .ok s => { k with store := s }
    | _, _ => k

/-- Puts the store into its file, if the file is still there. -/
def save (k : KeptStore) (t : Tree) : Tree :=
  match k.file with
  | none => t
  | some p =>
    match t.stat who.cwd p with
    | .ok (l, .file _ a) => t.put l (.file k.store.encode a)
    | _ => t

end KeptStore

end FileOrganizer
