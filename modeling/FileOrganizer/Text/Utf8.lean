/-!
Reading bytes as UTF-8 when they need not be UTF-8: each longest run of bytes that begins a
character but does not finish it gives one replacement character.
-/

namespace FileOrganizer.Utf8

/-- Between two bytes: nothing begun, or a character begun with the bits in `bits`, whose next byte
lies between `low` and `high` and is followed by `more` further bytes. -/
inductive Partial
  | none
  | begun (bits : Nat) (low high : Nat) (more : Nat)

def replacement : Char := '\uFFFD'

/-- What a byte means at the start of a character. -/
def first (b : Nat) : List Char × Partial :=
  if b < 0x80 then ([Char.ofNat b], .none)
  else if 0xC2 ≤ b ∧ b ≤ 0xDF then ([], .begun (b - 0xC0) 0x80 0xBF 0)
  else if b = 0xE0 then ([], .begun 0 0xA0 0xBF 1)
  else if b = 0xED then ([], .begun 0xD 0x80 0x9F 1)
  else if 0xE1 ≤ b ∧ b ≤ 0xEF then ([], .begun (b - 0xE0) 0x80 0xBF 1)
  else if b = 0xF0 then ([], .begun 0 0x90 0xBF 2)
  else if 0xF1 ≤ b ∧ b ≤ 0xF3 then ([], .begun (b - 0xF0) 0x80 0xBF 2)
  else if b = 0xF4 then ([], .begun 4 0x80 0x8F 2)
  else ([replacement], .none)

/-- What a byte means after `s`. A byte that does not continue the character begun is read again as
a first byte. -/
def next (s : Partial) (b : Nat) : List Char × Partial :=
  match s with
  | .none => first b
  | .begun bits low high more =>
    if low ≤ b ∧ b ≤ high then
      let bits := bits * 64 + (b - 0x80)
      match more with
      | 0 => ([Char.ofNat bits], .none)
      | more + 1 => ([], .begun bits 0x80 0xBF more)
    else
      let (cs, s) := first b
      (replacement :: cs, s)

/-- The characters read so far, last one first, and what is begun. -/
def feed (acc : List Char × Partial) (b : UInt8) : List Char × Partial :=
  let (cs, s) := next acc.2 b.toNat
  (cs.reverseAux acc.1, s)

def decodeLossy (bytes : List UInt8) : List Char :=
  match bytes.foldl feed ([], .none) with
  | (cs, .none) => cs.reverse
  | (cs, .begun ..) => (replacement :: cs).reverse

def decode? (bytes : ByteArray) : Option String := String.fromUTF8? bytes

end FileOrganizer.Utf8
