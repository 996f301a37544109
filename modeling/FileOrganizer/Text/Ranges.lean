import FileOrganizer.Text.Basic

/-!
Sets of characters written as text: hexadecimal numbers and ranges of them, parted by spaces.
-/

namespace FileOrganizer

/-- Closed ranges of character numbers. -/
abbrev Ranges := List (Nat × Nat)

namespace Ranges

def hexDigit (c : Char) : Nat :=
  if '0' ≤ c ∧ c ≤ '9' then c.toNat - '0'.toNat
  else if 'A' ≤ c ∧ c ≤ 'F' then c.toNat - 'A'.toNat + 10
  else if 'a' ≤ c ∧ c ≤ 'f' then c.toNat - 'a'.toNat + 10
  else 0

def hex (cs : List Char) : Nat := cs.foldl (fun n c => n * 16 + hexDigit c) 0

def ofText (text : String) : Ranges :=
  (Text.split ' ' text.toList).filterMap fun piece =>
    match Text.split '-' piece with
    | [[]] => none
    | [lo] => some (hex lo, hex lo)
    | [lo, hi] => some (hex lo, hex hi)
    | _ => none

def ofLines (lines : List String) : Ranges := lines.flatMap ofText

def has (r : Ranges) (c : Char) : Bool := r.any fun (lo, hi) => lo ≤ c.toNat && c.toNat ≤ hi

example : ofText "41-5A AA" = [(0x41, 0x5A), (0xAA, 0xAA)] := by decide

end Ranges

end FileOrganizer
