import FileOrganizer.Host
import FileOrganizer.Text.Utf8
import FileOrganizer.Tree.Transfer

/-!
The content of files: fingerprints, what a content is taken for, text at its beginning, and copies of the
same content.
-/

namespace FileOrganizer

/-- What is known of a content: its size, the digest of its beginning, and the digest of all of it. -/
structure Fingerprint where
  size : Nat
  quick : String
  full : Option String
  deriving DecidableEq, Repr

namespace Content

/-- So many bytes count for the quick digest. -/
def quickLength : Nat := 64 * 1024

def beginning (n : Nat) (b : ByteArray) : ByteArray := b.extract 0 n

variable (host : Host) (t : Tree)

def size (p : Path) : Except OsError Nat := (t.stat host.cwd p).map (·.2.size)

def quick (p : Path) : Except OsError String :=
  (t.read host.cwd p).map fun b => host.digest (beginning quickLength b)

def full (p : Path) : Except OsError String := (t.read host.cwd p).map host.digest

def fingerprint (p : Path) : Except OsError Fingerprint := do
  let n ← size host t p
  let q ← quick host t p
  let f ← full host t p
  pure ⟨n, q, some f⟩

/-- Contents of different sizes are not read. -/
def same (p q : Path) : Except OsError Bool := do
  let m ← size host t p
  let n ← size host t q
  if m ≠ n then pure false
  else
    let a ← full host t p
    let b ← full host t q
    pure (a == b)

/-- Another file with the content of `p` among the first `fuel` variants of the name from number `n` on,
up to the first that is not taken. -/
def identicalFrom (p dir : Path) (name : String) : Nat → Nat → Option Path
  | 0, _ => none
  | fuel + 1, n =>
    let q := dir.child (FileName.numbered name n)
    if !t.has host.cwd q then none
    else if !q.same p && same host t p q matches .ok true then some q
    else identicalFrom p dir name fuel (n + 1)

def identical? (p dir : Path) (name : String) : Option Path :=
  identicalFrom host t p dir name (t.entries.length + 2) 0

/-- The text that the first `limit` bytes hold; what is not UTF-8 is marked. Where no byte is asked for
none is read, and a directory will do. -/
def text (limit : Nat) (p : Path) : Except OsError String :=
  if limit = 0 then (t.stat host.cwd p).map fun _ => ""
  else (t.read host.cwd p).map fun b => String.ofList (Utf8.decodeLossy (beginning limit b).data.toList)

end Content

/-- What the content of a file is taken for. -/
def FileKind.ofPath? (host : Host) (t : Tree) (p : Path) : Option FileKind :=
  match t.read host.cwd p with
  | .ok b => host.kindOf b
  | .error _ => none

end FileOrganizer
