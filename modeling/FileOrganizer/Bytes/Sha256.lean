/-!
SHA-256, written in hexadecimal.
-/

namespace FileOrganizer.Sha256

def roundConstants : Array UInt32 := #[
  0x428a2f98, 0x71374491, 0xb5c0fbcf, 0xe9b5dba5, 0x3956c25b, 0x59f111f1, 0x923f82a4, 0xab1c5ed5,
  0xd807aa98, 0x12835b01, 0x243185be, 0x550c7dc3, 0x72be5d74, 0x80deb1fe, 0x9bdc06a7, 0xc19bf174,
  0xe49b69c1, 0xefbe4786, 0x0fc19dc6, 0x240ca1cc, 0x2de92c6f, 0x4a7484aa, 0x5cb0a9dc, 0x76f988da,
  0x983e5152, 0xa831c66d, 0xb00327c8, 0xbf597fc7, 0xc6e00bf3, 0xd5a79147, 0x06ca6351, 0x14292967,
  0x27b70a85, 0x2e1b2138, 0x4d2c6dfc, 0x53380d13, 0x650a7354, 0x766a0abb, 0x81c2c92e, 0x92722c85,
  0xa2bfe8a1, 0xa81a664b, 0xc24b8b70, 0xc76c51a3, 0xd192e819, 0xd6990624, 0xf40e3585, 0x106aa070,
  0x19a4c116, 0x1e376c08, 0x2748774c, 0x34b0bcb5, 0x391c0cb3, 0x4ed8aa4a, 0x5b9cca4f, 0x682e6ff3,
  0x748f82ee, 0x78a5636f, 0x84c87814, 0x8cc70208, 0x90befffa, 0xa4506ceb, 0xbef9a3f7, 0xc67178f2]

structure State where
  a : UInt32
  b : UInt32
  c : UInt32
  d : UInt32
  e : UInt32
  f : UInt32
  g : UInt32
  h : UInt32

def start : State :=
  ⟨0x6a09e667, 0xbb67ae85, 0x3c6ef372, 0xa54ff53a, 0x510e527f, 0x9b05688c, 0x1f83d9ab, 0x5be0cd19⟩

def rotr (x : UInt32) (n : UInt32) : UInt32 := (x >>> n) ||| (x <<< (32 - n))

def round (s : State) (k w : UInt32) : State :=
  let s1 := rotr s.e 6 ^^^ rotr s.e 11 ^^^ rotr s.e 25
  let ch := (s.e &&& s.f) ^^^ (~~~s.e &&& s.g)
  let t1 := s.h + s1 + ch + k + w
  let s0 := rotr s.a 2 ^^^ rotr s.a 13 ^^^ rotr s.a 22
  let maj := (s.a &&& s.b) ^^^ (s.a &&& s.c) ^^^ (s.b &&& s.c)
  ⟨t1 + s0 + maj, s.a, s.b, s.c, s.d + t1, s.e, s.f, s.g⟩

def add (s t : State) : State :=
  ⟨s.a + t.a, s.b + t.b, s.c + t.c, s.d + t.d, s.e + t.e, s.f + t.f, s.g + t.g, s.h + t.h⟩

def word (m : ByteArray) (i : Nat) : UInt32 :=
  (m[i]!.toUInt32 <<< 24) ||| (m[i + 1]!.toUInt32 <<< 16) ||| (m[i + 2]!.toUInt32 <<< 8) |||
    m[i + 3]!.toUInt32

/-- The 64 words of a block: sixteen from the message, the others from those before them. -/
def schedule (m : ByteArray) (block : Nat) : Array UInt32 :=
  let first := Nat.fold 16 (fun i _ w => w.push (word m (block * 64 + i * 4))) (Array.emptyWithCapacity 64)
  Nat.fold 48 (fun i _ w =>
    let x := w[i + 1]!
    let y := w[i + 14]!
    let s0 := rotr x 7 ^^^ rotr x 18 ^^^ (x >>> 3)
    let s1 := rotr y 17 ^^^ rotr y 19 ^^^ (y >>> 10)
    w.push (w[i]! + s0 + w[i + 9]! + s1)) first

def block (m : ByteArray) (s : State) (i : Nat) : State :=
  let w := schedule m i
  add s (Nat.fold 64 (fun j _ t => round t roundConstants[j]! w[j]!) s)

/-- The message, a one bit, zeros, and its length in bits, in whole blocks. -/
def pad (m : ByteArray) : ByteArray :=
  let zeros := (55 + 64 - m.size % 64) % 64
  let bits := m.size * 8
  let m := Nat.fold zeros (fun _ _ m => m.push 0) (m.push 0x80)
  Nat.fold 8 (fun i _ m => m.push (bits >>> (8 * (7 - i))).toUInt8) m

def hexDigit (n : Nat) : Char := if n < 10 then Char.ofNat (48 + n) else Char.ofNat (87 + n)

def hexWord (w : UInt32) : List Char :=
  (List.range 8).map fun i => hexDigit ((w.toNat >>> (4 * (7 - i))) % 16)

def hex (m : ByteArray) : String :=
  let p := pad m
  let s := Nat.fold (p.size / 64) (fun i _ s => block p s i) start
  String.ofList ([s.a, s.b, s.c, s.d, s.e, s.f, s.g, s.h].flatMap hexWord)

end FileOrganizer.Sha256
