import FileOrganizer.Bytes.Crc32
import FileOrganizer.Bytes.Inflate

/-!
Zip archives: the list of members from the directory at the end, the content of a member, and archives
of one member.
-/

namespace FileOrganizer

/-- A member of an archive: its name, the size that the directory tells, and its content. A member whose
data cannot be read to the end gives what could be read; one that cannot be opened gives nothing. -/
inductive Content
  | intact (bytes : ByteArray)
  | broken (bytes : ByteArray)
  | unreadable

structure Member where
  name : String
  size : Nat
  content : Content

namespace Zip

def le (data : ByteArray) (i : Nat) : Nat → Nat
  | 0 => 0
  | n + 1 => (data[i]?.getD 0).toNat + 256 * le data (i + 1) n

def signature (data : ByteArray) (i : Nat) (a b : UInt8) : Bool :=
  data[i]? == some 0x50 && data[i + 1]? == some 0x4B && data[i + 2]? == some a && data[i + 3]? == some b

/-- The last place at which the closing record may begin. -/
def closing? (data : ByteArray) : Nat → Option Nat
  | 0 => if signature data 0 5 6 ∧ 22 ≤ data.size then some 0 else none
  | i + 1 => if signature data (i + 1) 5 6 then some (i + 1) else closing? data i

/-- The characters above ASCII in names that are not marked as UTF-8. -/
def oemChars : Array Char :=
  ("ÇüéâäàåçêëèïîìÄÅÉæÆôöòûùÿÖÜ¢£¥₧ƒáíóúñÑªº¿⌐¬½¼¡«»░▒▓│┤╡╢╖╕╣║╗╝╜╛┐└┴┬├─┼╞╟╚╔╩╦╠═╬╧╨╤╥╙╘╒╓╫╪┘┌█▄▌▐▀αßΓπΣσµτΦΘΩδ∞φε∩≡±≥≤⌠⌡÷≈°∙·√ⁿ²■\u00A0").toList.toArray

def oemChar (b : UInt8) : Char :=
  if b < 128 then Char.ofNat b.toNat else oemChars[b.toNat - 128]?.getD '?'

def nameOf (utf8 : Bool) (raw : ByteArray) : String :=
  match if utf8 then String.fromUTF8? raw else none with
  | some s => s
  | none => String.ofList (raw.data.toList.map oemChar)

/-- The data of a member, which stands behind a header of its own. -/
def contentAt (data : ByteArray) (offset flags method crc packed : Nat) : Content :=
  if flags % 2 = 1 ∨ !signature data offset 3 4 ∨ (method ≠ 0 ∧ method ≠ 8) then .unreadable
  else
    let start := offset + 30 + le data (offset + 26) 2 + le data (offset + 28) 2
    let raw := data.extract start (start + packed)
    match if method = 0 then some raw else Inflate.decode? raw with
    | none => .broken .empty
    | some bytes => if (Crc32.checksum bytes).toNat = crc then .intact bytes else .broken bytes

/-- The members from the directory record at `i` on. -/
def directory (data : ByteArray) (shift : Nat) : Nat → Nat → Option (List Member)
  | 0, _ => some []
  | n + 1, i =>
    if !signature data i 1 2 ∨ data.size < i + 46 then none
    else
      let flags := le data (i + 8) 2
      let nameLength := le data (i + 28) 2
      let next := i + 46 + nameLength + le data (i + 30) 2 + le data (i + 32) 2
      let name := nameOf (flags / 2048 % 2 = 1) (data.extract (i + 46) (i + 46 + nameLength))
      let m : Member := {
        name
        size := le data (i + 24) 4
        content := contentAt data (le data (i + 42) 4 + shift) flags (le data (i + 10) 2)
          (le data (i + 16) 4) (le data (i + 20) 4) }
      (directory data shift n next).map (m :: ·)

/-- A name that comes again stands at its first place with its last member. -/
def merge : List Member → List Member → List Member
  | done, [] => done
  | done, m :: ms =>
    if done.any (·.name = m.name) then merge (done.map fun d => if d.name = m.name then m else d) ms
    else merge (done ++ [m]) ms

def members? (data : ByteArray) : Option (List Member) :=
  if data.size < 22 then none
  else do
    let e ← closing? data (data.size - 22)
    let count := le data (e + 10) 2
    let size := le data (e + 12) 4
    let offset := le data (e + 16) 4
    if offset + size > e then none
    else
      let shift := e - (offset + size)
      let ms ← directory data shift count (offset + shift)
      pure (merge [] ms)

def leBytes (n : Nat) : Nat → ByteArray → ByteArray
  | 0, out => out
  | k + 1, out => leBytes (n / 256) k (out.push (n % 256).toUInt8)

/-- A number of so many bytes for each pair, lowest byte first. -/
def record (fields : List (Nat × Nat)) : ByteArray :=
  fields.foldl (fun out (n, width) => leBytes n width out) .empty

/-- An archive with one member, kept as it is. -/
def pack (name : String) (bytes : ByteArray) : ByteArray :=
  let raw := name.toUTF8
  let flags := if name.toList.all (·.toNat < 128) then 0 else 2048
  let crc := (Crc32.checksum bytes).toNat
  let common := [(20, 2), (flags, 2), (0, 2), (0, 2), (33, 2), (crc, 4), (bytes.size, 4), (bytes.size, 4),
    (raw.size, 2), (0, 2)]
  let header := record ((0x04034b50, 4) :: common) ++ raw
  let entry := record ((0x02014b50, 4) :: (0x0314, 2) :: common ++
    [(0, 2), (0, 2), (0, 2), (0o100644 * 65536, 4), (0, 4)]) ++ raw
  let closing := record [(0x06054b50, 4), (0, 2), (0, 2), (1, 2), (1, 2), (entry.size, 4),
    (header.size + bytes.size, 4), (0, 2)]
  header ++ bytes ++ entry ++ closing

end Zip

end FileOrganizer
