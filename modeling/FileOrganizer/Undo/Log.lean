import FileOrganizer.Batch.Workspace
import FileOrganizer.Batch.Effect
import FileOrganizer.Json.Decode
import FileOrganizer.Json.Writer
import FileOrganizer.Time.Reader

/-!
The log of a session: what was moved or made, in order, kept in a file in the directory that was
organized. A session with a record in it can be undone if it was begun for moving or anything was moved.
-/

namespace FileOrganizer

/-- The mode is copy only as long as nothing was moved. -/
structure UndoLog where
  sessionId : String
  folder : Path
  mode : TransferKind
  created : Instant
  records : List UndoRecord
  deriving DecidableEq, Repr

def Decode.path : Decoder Path := fun j => (text j).map Path.mk

def Decode.moment : Decoder Instant := fun j => do
  let t ← text j
  match Instant.ofLenient? t with
  | some d => .ok d
  | none => .error .malformed

namespace TransferKind

def ofName? (s : String) : Option TransferKind :=
  if s = "move" then some move else if s = "copy" then some copy else none

def ofJson : Decoder TransferKind := Decode.variant ofName?

end TransferKind

open Decode

namespace UndoRecord

def record : Record (Option Path × Option Path × Option TransferKind × Option Instant) UndoRecord where
  fields := ["src", "dst", "mode", "timestamp"]
  draft := (none, none, none, none)
  take := fun (s, d, m, t) k j =>
    if k = "src" then (path j).map fun p => (some p, d, m, t)
    else if k = "dst" then (path j).map fun p => (s, some p, m, t)
    else if k = "mode" then (TransferKind.ofJson j).map fun x => (s, d, some x, t)
    else (moment j).map fun x => (s, d, m, some x)
  close := fun (s, d, m, t) => do
    pure ⟨← required "src" s, ← required "dst" d, ← required "mode" m, ← required "timestamp" t⟩

def toJson (r : UndoRecord) : Json := .obj [
  ("src", .str r.source.text),
  ("dst", .str r.target.text),
  ("mode", .str r.mode.text),
  ("timestamp", .str (r.time.text "Z"))]

end UndoRecord

namespace UndoLog

def fileName : String := ".sortkeeper-undo.json"

def file (folder : Path) : Path := folder.child fileName

structure Draft where
  sessionId : Option String := none
  folder : Option Path := none
  mode : Option TransferKind := none
  created : Option Instant := none
  records : Option (List UndoRecord) := none

def record : Record Draft UndoLog where
  fields := ["session_id", "folder", "mode", "created_at", "records"]
  draft := {}
  take := fun d k j =>
    if k = "session_id" then (text j).map fun x => { d with sessionId := some x }
    else if k = "folder" then (path j).map fun x => { d with folder := some x }
    else if k = "mode" then (TransferKind.ofJson j).map fun x => { d with mode := some x }
    else if k = "created_at" then (moment j).map fun x => { d with created := some x }
    else (list UndoRecord.record.decode j).map fun x => { d with records := some x }
  close := fun d => do
    pure ⟨← required "session_id" d.sessionId, ← required "folder" d.folder, ← required "mode" d.mode,
      ← required "created_at" d.created, ← required "records" d.records⟩

def toJson (l : UndoLog) : Json := .obj [
  ("session_id", .str l.sessionId),
  ("folder", .str l.folder.text),
  ("mode", .str l.mode.text),
  ("created_at", .str (l.created.text "Z")),
  ("records", .arr (l.records.map UndoRecord.toJson))]

def canUndo (l : UndoLog) : Bool := l.mode = .move && !l.records.isEmpty

/-- The log of a directory, if there is one. -/
def load (who : Actor) (t : Tree) (folder : Path) : Except Fault (Option UndoLog) :=
  if t.has who.cwd (file folder) then do
    let doc ← t.readText who.cwd (file folder)
    let log ← (document record.decode doc).mapError Fault.badJson
    pure (some log)
  else .ok none

def save (who : Actor) (l : UndoLog) : Disk Unit := do
  Disk.makeDirs who l.folder
  Disk.change (Tree.writeFile who (file l.folder) l.toJson.pretty.toUTF8)

def remove (who : Actor) (folder : Path) : Disk Unit := do
  if (← get).has who.cwd (file folder) then Disk.change (Tree.removeFile who (file folder))

end UndoLog

/-- A session in progress. Its log comes into being with the first record, and takes the place of the
log before it only then. -/
structure OpenSession where
  folder : Path
  mode : TransferKind
  log : Option UndoLog := none

namespace OpenSession

variable (s : OpenSession)

def records : List UndoRecord := (s.log.map (·.records)).getD []

/-- With a move in it, the session is one that can be undone. -/
def add (host : Host) (r : UndoRecord) : UndoLog :=
  let l := s.log.getD ⟨host.sessionId, s.folder, s.mode, host.now, []⟩
  { l with mode := if r.mode = .move then .move else l.mode, records := l.records ++ [r] }

/-- The record counts, whether the log can be written or not. -/
def append (host : Host) (r : UndoRecord) : Tree → Except Fault Unit × OpenSession × Tree := fun t =>
  let l := s.add host r
  let (res, t) := l.save host.toActor t
  (res, { s with log := some l }, t)

end OpenSession

end FileOrganizer
