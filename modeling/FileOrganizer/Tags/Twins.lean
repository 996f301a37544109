import FileOrganizer.Tags.Store

/-!
Files whose content is on record, and files that have the same content as one of them.
-/

namespace FileOrganizer.TagStore

variable (host : Host) (t : Tree) (s : TagStore)

/-- Puts the fingerprint of a file on record. -/
def index (p : Path) : Except Fault Fingerprint × TagStore :=
  match Content.fingerprint host t p with
  | .error e => (.error (.os e), s)
  | .ok f =>
    match s.setPrint (host.key p) f with
    | (.ok (), s) => (.ok f, s)
    | (.error e, s) => (.error e, s)

def isOk (a : String) : Except OsError String → Bool
  | .ok b => a == b
  | .error _ => false

/-- A file on record, other than `p` and still there, with the same content. -/
def twin? (p : Path) : Except Fault (Option Path) := do
  let n ← (Content.size host t p).mapError Fault.os
  let q ← (Content.quick host t p).mapError Fault.os
  let others ← s.alike (host.key p) n q
  let own ← (Content.full host t p).mapError Fault.os
  pure (others.find? fun o => t.has host.cwd o && isOk own (Content.full host t o))

/-- Does the fingerprint on record still describe the file? -/
def isFiled (p : Path) : Except Fault Bool :=
  match s.print (host.key p) with
  | none => .ok false
  | some f => do
    let n ← (Content.size host t p).mapError Fault.os
    if f.size ≠ n then pure false
    else
      let q ← (Content.quick host t p).mapError Fault.os
      pure (f.quick == q)

end FileOrganizer.TagStore
