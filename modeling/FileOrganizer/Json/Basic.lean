/-!
JSON values. A text that stops being JSON somewhere is read as far as it goes: there the value is
`torn`, and nothing stands behind it.
-/

namespace FileOrganizer

/-- Numbers are told apart only as far as integers of 64 bits need it. -/
inductive Number
  | nat (n : Nat)
  | neg (n : Nat)
  /-- Any other number; `huge` beyond the range of floating point. -/
  | real (huge : Bool)
  deriving DecidableEq, Repr

inductive Json
  | null
  | bool (b : Bool)
  | num (n : Number)
  | str (s : String)
  | arr (items : List Json)
  | obj (members : List (String × Json))
  /-- A string with one half of a pair of surrogates in it: it can be skipped, but not read. -/
  | halved
  | torn
  deriving Repr, Inhabited

namespace Json

def nat (n : Nat) : Json := num (.nat n)

def ofOption : Option String → Json
  | none => null
  | some s => str s

mutual

/-- Was the value read to its end? -/
def whole : Json → Bool
  | torn => false
  | arr xs => wholeAll xs
  | obj ms => wholeMembers ms
  | _ => true

def wholeAll : List Json → Bool
  | [] => true
  | x :: xs => x.whole && wholeAll xs

def wholeMembers : List (String × Json) → Bool
  | [] => true
  | (_, v) :: ms => v.whole && wholeMembers ms

end

mutual

/-- How deep values stand within values. -/
def depth : Json → Nat
  | arr xs => depthAll xs + 1
  | obj ms => depthMembers ms + 1
  | _ => 0

def depthAll : List Json → Nat
  | [] => 0
  | x :: xs => max x.depth (depthAll xs)

def depthMembers : List (String × Json) → Nat
  | [] => 0
  | (_, v) :: ms => max v.depth (depthMembers ms)

end

mutual

/-- Can every number and string in the value be kept? -/
def inRange : Json → Bool
  | num (.real huge) => !huge
  | halved => false
  | arr xs => inRangeAll xs
  | obj ms => inRangeMembers ms
  | _ => true

def inRangeAll : List Json → Bool
  | [] => true
  | x :: xs => x.inRange && inRangeAll xs

def inRangeMembers : List (String × Json) → Bool
  | [] => true
  | (_, v) :: ms => v.inRange && inRangeMembers ms

end

def get? (j : Json) (key : String) : Option Json :=
  match j with
  | obj ms => (ms.find? (·.1 = key)).map (·.2)
  | _ => none

end Json

end FileOrganizer
