/-!
Days of the Gregorian calendar, counted from 1 January 1970. The year may be zero or negative.
-/

namespace FileOrganizer

structure Date where
  year : Int
  month : Nat
  day : Nat
  deriving DecidableEq, Repr

namespace Date

def isLeap (y : Int) : Bool := y % 4 = 0 && (y % 100 ≠ 0 || y % 400 = 0)

def monthLength (y : Int) (m : Nat) : Nat :=
  if m = 2 then (if isLeap y then 29 else 28)
  else if m = 4 ∨ m = 6 ∨ m = 9 ∨ m = 11 then 30
  else 31

/-- The years that a date may lie in. -/
def minYear : Int := -262143
def maxYear : Int := 262142

def ofParts? (year : Int) (month day : Nat) : Option Date :=
  if minYear ≤ year ∧ year ≤ maxYear ∧ 1 ≤ month ∧ month ≤ 12 ∧ 1 ≤ day ∧ day ≤ monthLength year month
  then some ⟨year, month, day⟩ else none

/-- Years are counted from March here, so that the leap day is the last day of a year. -/
def toDays (d : Date) : Int :=
  let y := if d.month ≤ 2 then d.year - 1 else d.year
  let era := y / 400
  let yearOfEra := y - era * 400
  let month := if d.month ≤ 2 then d.month + 9 else d.month - 3
  let dayOfYear : Int := (153 * month + 2) / 5 + d.day - 1
  let dayOfEra := yearOfEra * 365 + yearOfEra / 4 - yearOfEra / 100 + dayOfYear
  era * 146097 + dayOfEra - 719468

def ofDays (n : Int) : Date :=
  let z := n + 719468
  let era := z / 146097
  let dayOfEra := z - era * 146097
  let yearOfEra := (dayOfEra - dayOfEra / 1460 + dayOfEra / 36524 - dayOfEra / 146096) / 365
  let dayOfYear := (dayOfEra - (365 * yearOfEra + yearOfEra / 4 - yearOfEra / 100)).toNat
  let month := (5 * dayOfYear + 2) / 153
  let day := dayOfYear - (153 * month + 2) / 5 + 1
  let y := yearOfEra + era * 400
  if month < 10 then ⟨y, month + 3, day⟩ else ⟨y + 1, month - 9, day⟩

end Date

/-- The decimal digits of `n`, with zeros in front up to `width` digits. -/
def padded (width n : Nat) : String :=
  let ds := Nat.toDigits 10 n
  String.ofList (List.replicate (width - ds.length) '0' ++ ds)

namespace Date

/-- Four digits for the years 0 to 9999; beyond them a sign and at least four digits. -/
def yearText (y : Int) : String :=
  if 0 ≤ y ∧ y ≤ 9999 then padded 4 y.toNat
  else if y < 0 then "-" ++ padded 4 y.natAbs
  else "+" ++ padded 4 y.natAbs

def text (d : Date) : String :=
  yearText d.year ++ "-" ++ padded 2 d.month ++ "-" ++ padded 2 d.day

example : ofDays (toDays ⟨2024, 2, 29⟩) = ⟨2024, 2, 29⟩ ∧ toDays ⟨1970, 1, 1⟩ = 0 := by decide

end Date

end FileOrganizer
