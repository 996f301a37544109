import FileOrganizer.Path
import FileOrganizer.Text.Utf8

/-!
Paths as the machine has them, which need not be texts. Of all bytes only the slash and the dot mean something in a
path, so that it is taken apart like a text with a letter for each byte.
-/

namespace FileOrganizer

structure RawPath where
  bytes : List UInt8
  deriving DecidableEq, Repr

namespace RawPath

/-- Each byte as the character of its number. -/
def letters (bytes : List UInt8) : String := String.ofList (bytes.map Char.ofUInt8)

def path (p : RawPath) : Path := ⟨letters p.bytes⟩

def ofPath (p : Path) : RawPath := ⟨p.chars.map fun c => UInt8.ofNat c.toNat⟩

/-- The bytes of a text. -/
def utf8 (s : String) : List UInt8 := s.toUTF8.data.toList

def ofText (p : Path) : RawPath := ⟨utf8 p.text⟩

def normalize (cwd : List (List UInt8)) (p : RawPath) : RawPath := ofPath (p.path.normalize (cwd.map letters))

/-- The key of a path is a text, whatever its bytes are. -/
def key (cwd : List (List UInt8)) (p : RawPath) : String :=
  String.ofList (Utf8.decodeLossy (p.normalize cwd).bytes)

end RawPath

end FileOrganizer
