import FileOrganizer.CommandLine.Program
import FileOrganizer.Machine
import Std.Time.DateTime.Timestamp

/-!
The program at the command line: what it may need of the disk is read into a tree, the program runs on
the tree, and what it changed there is changed on the disk.
-/

namespace FileOrganizer.Main

def attrs (m : IO.FS.Metadata) : Attrs := ⟨⟨m.modified.sec, m.modified.nsec.toNat⟩, false⟩

/-- Reads what is at a place and, in a directory, all that is below it. -/
partial def readBelow (place : Place) (t : Tree) : IO Tree := do
  let file := (← IO.currentDir) / (Path.ofPlace place).text
  unless ← file.pathExists do return t
  let m ← file.metadata
  match m.type with
  | .dir =>
    let mut t := t.put place (.dir (attrs m))
    for e in ← file.readDir do t ← readBelow (place ++ [e.fileName]) t
    return t
  | .file => return t.put place (.file (← IO.FS.readBinFile file) (attrs m))
  | _ => return t

/-- The directories on the way to a place. -/
def putWay (place : Place) (t : Tree) : Tree :=
  (List.range place.length).foldl (fun t n => t.put (place.take n) (.dir default)) t

def readAll (places : List Place) : IO Tree := do
  let mut t := Tree.empty
  for p in places do
    let file := (← IO.currentDir) / (Path.ofPlace p.dropLast).text
    if ← file.pathExists then t ← readBelow p (putWay p t)
  return t

/-- A file of the old tree that is gone, with the same content and time. -/
def movedFrom? (old new : Tree) (e : Entry) : Option Place :=
  (old.entries.find? fun (p, e') => e'.agrees e && (new.at? p).isNone).map (·.1)

def text (p : Place) : String := (Path.ofPlace p).text

def writeEntry (old new : Tree) (p : Place) (e : Entry) : IO Unit := do
  let file := (← IO.currentDir) / text p
  match e with
  | .dir _ => IO.FS.createDirAll file
  | .link _ => pure ()
  | .file bytes _ =>
    if (old.at? p).isNone then
      if ← file.pathExists then throw (IO.userError s!"{file} is in the way")
    match movedFrom? old new e with
    | some q => IO.FS.rename (text q) file
    | none => IO.FS.writeBinFile file bytes

def remove (old : Tree) (p : Place) : IO Unit := do
  let file := (← IO.currentDir) / text p
  if ← file.pathExists then
    if old.isDirAt p then IO.FS.removeDirAll file else IO.FS.removeFile file

/-- Directories come before what is in them, and go after it. -/
def writeChanges (old new : Tree) : IO Unit := do
  let changed := new.entries.filter fun (p, e) => !((old.at? p).map e.agrees).getD false
  for (p, e) in changed.mergeSort fun a b => a.1.length ≤ b.1.length do writeEntry old new p e
  let gone := (old.entries.map (·.1)).filter fun p => (new.at? p).isNone
  for p in gone.mergeSort fun a b => b.length ≤ a.length do remove old p

/-- A name that no other session has. -/
def sessionId : IO String := do pure (Sha256.hex (← IO.getRandomBytes 16))

end FileOrganizer.Main

open FileOrganizer in
/-- Runs the program on the files that its arguments name and the files in the home directory that it
keeps. -/
def main (args : List String) : IO UInt32 := do
  let cwd := Path.lexical ⟨(← IO.currentDir).toString⟩
  let home : Path := ⟨(← IO.getEnv "HOME").getD "/"⟩
  let now := (← Std.Time.Timestamp.now).toNanosecondsSinceUnixEpoch.val
  let actor : Actor := ⟨cwd, ⟨now / 1000000000, (now % 1000000000).toNat⟩⟩
  let named := args.map fun a => (Path.normalize cwd ⟨a⟩).lexical
  let kept := [(Settings.defaultFile home).lexical, (Settings.dataDir home).lexical]
  let tree ← Main.readAll (kept ++ named)
  let input ← if args.contains "watch" then (← IO.getStdin).readToEnd else pure ""
  let (output, after) := Program.run (Host.machine actor home (← Main.sessionId)) args input tree
  Main.writeChanges tree after
  IO.print output.out
  IO.eprint output.err
  return output.code.toUInt32
