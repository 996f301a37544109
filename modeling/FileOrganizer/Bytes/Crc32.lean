/-!
The checksum of archive members: CRC-32 with the reversed polynomial EDB88320.
-/

namespace FileOrganizer.Crc32

def entry (n : Nat) : UInt32 :=
  Nat.fold 8 (fun _ _ c => if c &&& 1 = 1 then (c >>> 1) ^^^ 0xEDB88320 else c >>> 1) n.toUInt32

def table : Array UInt32 := ((List.range 256).map entry).toArray

def feed (c : UInt32) (b : UInt8) : UInt32 :=
  table[((c ^^^ b.toUInt32) &&& 0xFF).toNat]! ^^^ (c >>> 8)

def checksum (m : ByteArray) : UInt32 := m.foldl feed 0xFFFFFFFF ^^^ 0xFFFFFFFF

end FileOrganizer.Crc32
