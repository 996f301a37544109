import FileOrganizer.Bytes.Kind
import FileOrganizer.Bytes.Zip
import FileOrganizer.Tree.Basic

/-!
What the organizer is given by the machine it runs on, apart from the tree of files.
-/

namespace FileOrganizer

/-- The home directory, an identifier for a session, the fingerprint of a content, the kind that a content is
taken for, the archive format, and the programs that can be launched: with arguments and at most so many
seconds, each ends with an exit code. -/
structure Host extends Actor where
  home : Path
  sessionId : String
  digest : ByteArray → String
  kindOf : ByteArray → Option FileKind
  pack : String → ByteArray → ByteArray
  unpack : ByteArray → Option (List Member)
  launch : String → List String → Nat → Tree → Except Fault Int × Tree

end FileOrganizer
