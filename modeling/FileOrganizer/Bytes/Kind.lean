/-!
The kinds of files that are told by their first bytes.
-/

namespace FileOrganizer

/-- A kind of file, by its media type. -/
structure FileKind where
  mime : String
  deriving DecidableEq, Repr

namespace FileKind

def zip : FileKind := ⟨"application/zip"⟩

/-- Some kinds that are often met. A Zip archive begins with a member, or with its end if it is empty, or in the middle
of a split one. -/
def ofBytes? (b : ByteArray) : Option FileKind :=
  match (b.extract 0 4).data.toList.map UInt8.toNat with
  | 0x89 :: 0x50 :: 0x4E :: 0x47 :: _ => some ⟨"image/png"⟩
  | 0xFF :: 0xD8 :: 0xFF :: _ => some ⟨"image/jpeg"⟩
  | 0x47 :: 0x49 :: 0x46 :: _ => some ⟨"image/gif"⟩
  | 0x25 :: 0x50 :: 0x44 :: 0x46 :: _ => some ⟨"application/pdf"⟩
  | 0x1F :: 0x8B :: 0x08 :: _ => some ⟨"application/gzip"⟩
  | 0x50 :: 0x4B :: a :: b :: _ =>
    if [3, 5, 7].contains a && [4, 6, 8].contains b then some zip else none
  | 0x23 :: 0x21 :: _ :: _ => some ⟨"text/x-shellscript"⟩
  | _ => none

end FileKind

end FileOrganizer
