import FileOrganizer.Text.Basic
import FileOrganizer.Time.Instant

/-!
Reading moments: the strict form `2021-01-31T10:20:30.5+01:00`, the same with blanks allowed between
the parts, and the date alone.
-/

namespace FileOrganizer

/-- Takes characters from the front, or fails. -/
abbrev Scan := StateT (List Char) Option

namespace Scan

def char (ok : Char → Bool) : Scan Char := do
  match ← get with
  | c :: cs => if ok c then set cs; pure c else failure
  | [] => failure

def literal (c : Char) : Scan Unit := discard (char (· == c))

def isDigit (c : Char) : Bool := '0' ≤ c && c ≤ '9'

/-- The longest run of digits, but no more than `most`; at least `least`. -/
def number (least most : Nat) : Scan Nat := fun cs =>
  let ds := (cs.take most).takeWhile isDigit
  if ds.length < least then none
  else some (ds.foldl (fun n d => n * 10 + (d.toNat - '0'.toNat)) 0, cs.drop ds.length)

def blanks : Scan Unit := modify Text.trimLeft

def ending : Scan Unit := do if (← get).isEmpty then pure () else failure

def within (low high : Nat) (p : Scan Nat) : Scan Nat := do
  let n ← p
  if low ≤ n ∧ n ≤ high then pure n else failure

/-- A point and digits after it, of which nine count; without a point nothing is taken. -/
def nanos : Scan Nat := do
  match ← get with
  | '.' :: cs =>
    set cs
    let ds := (cs.take 9).takeWhile isDigit
    let n ← number 1 9
    modify (·.dropWhile isDigit)
    pure (n * Nat.pow 10 (9 - ds.length))
  | _ => pure 0

/-- Seconds east of Greenwich: `Z`, or a sign, two digits, what `between` takes, two digits. -/
def offset (between : Scan Unit) : Scan Int := do
  let c ← char (fun _ => true)
  if c = 'Z' ∨ c = 'z' then return 0
  let sign : Int ← if c = '+' then pure 1 else if c = '-' ∨ c = '−' then pure (-1) else failure
  let h ← number 2 2
  between
  let m ← within 0 59 (number 2 2)
  pure (sign * (h * 3600 + m * 60 : Nat))

/-- A year with a sign may have any number of digits, one without has at most four. -/
def signedYear : Scan Int := do
  blanks
  match ← get with
  | '-' :: cs => set cs; pure (-(← number 1 cs.length : Nat))
  | '+' :: cs => set cs; pure (← number 1 cs.length : Nat)
  | _ => pure (← number 1 4 : Nat)

def ymd (y : Int) (m d : Nat) : Scan Date := fun cs => (Date.ofParts? y m d).map (·, cs)

def shift (d : Date) (h mi s ns : Nat) (off : Int) : Instant :=
  let (s, ns) := if s = 60 then (59, ns + 1000000000) else (s, ns)
  let t := Instant.ofParts d h mi s ns
  { t with secs := t.secs - off }

def strict : Scan Instant := do
  let y ← number 4 4
  literal '-'
  let m ← number 2 2
  literal '-'
  let d ← ymd y m (← number 2 2)
  discard (char (fun c => c = 't' || c = 'T' || c = ' '))
  let h ← within 0 23 (number 2 2)
  literal ':'
  let mi ← within 0 59 (number 2 2)
  literal ':'
  let s ← within 0 60 (number 2 2)
  let ns ← nanos
  let off ← offset (literal ':')
  if off.natAbs > 86340 then failure
  ending
  pure (shift d h mi s ns off)

def blankNumber : Scan Nat := do
  blanks
  number 1 2

def lenient : Scan Instant := do
  let y ← signedYear
  blanks; literal '-'
  let m ← blankNumber
  blanks; literal '-'
  let d ← ymd y m (← blankNumber)
  discard (char (fun c => c = 't' || c = 'T' || c = ' '))
  let h ← within 0 23 blankNumber
  blanks; literal ':'
  let mi ← within 0 59 blankNumber
  blanks; literal ':'
  let s ← within 0 60 blankNumber
  let ns ← nanos
  blanks
  let off ← match ← get with
    | a :: b :: c :: cs =>
      if [a, b, c].map Char.toLower = ['u', 't', 'c'] then set cs; pure (0 : Int)
      else offset (modify (·.dropWhile (fun c => c = ':' || Text.isBlank c)))
    | _ => offset (modify (·.dropWhile (fun c => c = ':' || Text.isBlank c)))
  if off.natAbs ≥ 86400 then failure
  blanks
  ending
  pure (shift d h mi s ns off)

def dateOnly : Scan Date := do
  let y ← signedYear
  literal '-'
  let m ← blankNumber
  literal '-'
  let d ← ymd y m (← blankNumber)
  ending
  pure d

def run? {α : Type} (p : Scan α) (text : String) : Option α := (p text.toList).map (·.1)

end Scan

/-- A moment in the strict form, or the first second of a date. -/
def Instant.ofBound? (text : String) : Option Instant :=
  Scan.strict.run? text <|> (Scan.dateOnly.run? text).map (Instant.ofParts · 0 0 0 0)

def Instant.ofLenient? (text : String) : Option Instant := Scan.lenient.run? text

example : (Instant.ofBound? "2021-01-01T00:00:00+05:30").map (·.text "Z") = some "2020-12-31T18:30:00Z" := by
  decide +kernel

end FileOrganizer
