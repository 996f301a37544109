/-!
Deflated data: blocks that are stored, or coded with fixed or with own prefix codes.
-/

namespace FileOrganizer.Inflate

structure Bits where
  data : ByteArray
  /-- Position of the next bit; each byte gives its lowest bit first. -/
  pos : Nat

abbrev Read := StateT Bits Option

def bit : Read Nat := fun b =>
  match b.data[b.pos / 8]? with
  | some x => some ((x.toNat >>> (b.pos % 8)) % 2, { b with pos := b.pos + 1 })
  | none => none

/-- A number of `n` bits, the lowest first. -/
def number : Nat → Read Nat
  | 0 => pure 0
  | n + 1 => do
    let low ← bit
    return low + 2 * (← number n)

/-- A prefix code in canonical order: how many codes have each length, and the symbols by code. -/
structure Code where
  counts : Array Nat
  symbols : Array Nat

def Code.ofLengths (lengths : List Nat) : Code :=
  let indexed := lengths.zipIdx
  { counts := ((List.range 16).map fun l => if l = 0 then 0 else lengths.count l).toArray
    symbols := ((List.range 16).flatMap fun l =>
      if l = 0 then [] else (indexed.filter (·.1 = l)).map (·.2)).toArray }

/-- Follows the code bit by bit: `first` is the first code of the present length, `index` the place of
its symbol. -/
def symbolFrom (c : Code) (length code first index : Nat) : Nat → Read Nat
  | 0 => failure
  | fuel + 1 => do
    let code := code + (← bit)
    let count := c.counts[length]?.getD 0
    if code < first + count then
      match c.symbols[index + (code - first)]? with
      | some s => pure s
      | none => failure
    else symbolFrom c (length + 1) (2 * code) (2 * (first + count)) (index + count) fuel

def symbol (c : Code) : Read Nat := symbolFrom c 1 0 0 0 15

def lengthBase : Array Nat :=
  #[3, 4, 5, 6, 7, 8, 9, 10, 11, 13, 15, 17, 19, 23, 27, 31, 35, 43, 51, 59, 67, 83, 99, 115, 131, 163,
    195, 227, 258]
def lengthExtra : Array Nat :=
  #[0, 0, 0, 0, 0, 0, 0, 0, 1, 1, 1, 1, 2, 2, 2, 2, 3, 3, 3, 3, 4, 4, 4, 4, 5, 5, 5, 5, 0]
def distBase : Array Nat :=
  #[1, 2, 3, 4, 5, 7, 9, 13, 17, 25, 33, 49, 65, 97, 129, 193, 257, 385, 513, 769, 1025, 1537, 2049, 3073,
    4097, 6145, 8193, 12289, 16385, 24577]
def distExtra : Array Nat :=
  #[0, 0, 0, 0, 1, 1, 2, 2, 3, 3, 4, 4, 5, 5, 6, 6, 7, 7, 8, 8, 9, 9, 10, 10, 11, 11, 12, 12, 13, 13]

/-- Takes up `n` bytes again that stand `dist` bytes back. -/
def copy (dist : Nat) : Nat → ByteArray → ByteArray
  | 0, out => out
  | n + 1, out => copy dist n (out.push (out[out.size - dist]?.getD 0))

/-- Symbols up to the end of a block. -/
def coded (lits dists : Code) : Nat → ByteArray → Read ByteArray
  | 0, _ => failure
  | fuel + 1, out => do
    let s ← symbol lits
    if s < 256 then coded lits dists fuel (out.push s.toUInt8)
    else if s = 256 then pure out
    else
      match lengthBase[s - 257]?, lengthExtra[s - 257]? with
      | some base, some extra =>
        let n := base + (← number extra)
        let d ← symbol dists
        match distBase[d]?, distExtra[d]? with
        | some base, some extra =>
          let dist := base + (← number extra)
          if dist > out.size then failure
          else coded lits dists fuel (copy dist n out)
        | _, _ => failure
      | _, _ => failure

def fixedLits : Code := .ofLengths
  (List.replicate 144 8 ++ List.replicate 112 9 ++ List.replicate 24 7 ++ List.replicate 8 8)

def fixedDists : Code := .ofLengths (List.replicate 30 5)

def lengthOrder : List Nat := [16, 17, 18, 0, 8, 7, 9, 6, 10, 5, 11, 4, 12, 3, 13, 2, 14, 1, 15]

def numbers (bits : Nat) : Nat → Read (List Nat)
  | 0 => pure []
  | n + 1 => do
    let x ← number bits
    return x :: (← numbers bits n)

/-- The code lengths of a block's own codes, themselves coded with repetitions; last one first. -/
def ownLengths (c : Code) (total : Nat) : Nat → List Nat → Read (List Nat)
  | 0, _ => failure
  | fuel + 1, acc =>
    if acc.length ≥ total then pure acc
    else do
      let s ← symbol c
      if s < 16 then ownLengths c total fuel (s :: acc)
      else if s = 16 then
        match acc with
        | [] => failure
        | l :: _ =>
          let n := 3 + (← number 2)
          ownLengths c total fuel (List.replicate n l ++ acc)
      else if s = 17 then
        let n := 3 + (← number 3)
        ownLengths c total fuel (List.replicate n 0 ++ acc)
      else
        let n := 11 + (← number 7)
        ownLengths c total fuel (List.replicate n 0 ++ acc)

def ownCodes : Read (Code × Code) := do
  let lits := 257 + (← number 5)
  let dists := 1 + (← number 5)
  let n := 4 + (← number 4)
  let ls ← numbers 3 n
  let given := lengthOrder.zip ls
  let c := Code.ofLengths ((List.range 19).map fun i =>
    ((given.find? (·.1 = i)).map (·.2)).getD 0)
  let all ← ownLengths c (lits + dists) (lits + dists + 1) []
  let all := all.reverse
  if all.length > lits + dists then failure
  pure (.ofLengths (all.take lits), .ofLengths (all.drop lits))

def stored (out : ByteArray) : Read ByteArray := fun b =>
  let i := (b.pos + 7) / 8
  match b.data[i]?, b.data[i + 1]? with
  | some lo, some hi =>
    let n := lo.toNat + 256 * hi.toNat
    if i + 4 + n ≤ b.data.size then
      some (out ++ b.data.extract (i + 4) (i + 4 + n), { b with pos := (i + 4 + n) * 8 })
    else none
  | _, _ => none

def blocks : Nat → ByteArray → Read ByteArray
  | 0, _ => failure
  | fuel + 1, out => do
    let last ← bit
    let kind ← number 2
    let room := (← get).data.size * 8 + 1
    let out ← if kind = 0 then stored out
      else if kind = 1 then coded fixedLits fixedDists room out
      else if kind = 2 then do
        let (lits, dists) ← ownCodes
        coded lits dists room out
      else failure
    if last = 1 then pure out else blocks fuel out

def decode? (data : ByteArray) : Option ByteArray :=
  (blocks (data.size * 8 + 1) .empty ⟨data, 0⟩).map (·.1)

end FileOrganizer.Inflate
