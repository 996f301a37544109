import FileOrganizer.Json.Basic
import FileOrganizer.Text.Ranges

/-!
Reading JSON. Every reader returns what it read and the text behind it, or no text behind it where
the text stops being JSON.
-/

namespace FileOrganizer.Json

def isSpace (c : Char) : Bool := c == ' ' || c == '\n' || c == '\t' || c == '\r'

def skipSpace (cs : List Char) : List Char := cs.dropWhile isSpace

def isHex (c : Char) : Bool :=
  ('0' ≤ c && c ≤ '9') || ('a' ≤ c && c ≤ 'f') || ('A' ≤ c && c ≤ 'F')

/-- Four hexadecimal digits. -/
def hex4? : List Char → Option (Nat × List Char)
  | a :: b :: c :: d :: cs =>
    if isHex a && isHex b && isHex c && isHex d then some (Ranges.hex [a, b, c, d], cs) else none
  | _ => none

def simpleEscape? : Char → Option Char
  | '"' => some '"'
  | '\\' => some '\\'
  | '/' => some '/'
  | 'b' => some '\x08'
  | 'f' => some '\x0c'
  | 'n' => some '\n'
  | 'r' => some '\r'
  | 't' => some '\t'
  | _ => none

/-- The escape with a number: a character above U+FFFF is written as a pair. Half of a pair is no
character. -/
def numberEscape? (cs : List Char) : Option (Option Char × List Char) :=
  match hex4? cs with
  | none => none
  | some (n, cs) =>
    if 0xD800 ≤ n ∧ n ≤ 0xDBFF then
      match cs with
      | '\\' :: 'u' :: rest =>
        match hex4? rest with
        | some (m, rest) =>
          if 0xDC00 ≤ m ∧ m ≤ 0xDFFF then
            some (some (Char.ofNat (0x10000 + (n - 0xD800) * 1024 + (m - 0xDC00))), rest)
          else some (none, cs)
        | none => some (none, cs)
      | _ => some (none, cs)
    else if 0xDC00 ≤ n ∧ n ≤ 0xDFFF then some (none, cs)
    else some (some (Char.ofNat n), cs)

/-- The rest of a string after its opening quote, if it has an end; `acc` holds what was read, last
character first, unless there is half of a pair in it. -/
def string? : Nat → Option (List Char) → List Char → Option (Option String × List Char)
  | 0, _, _ => none
  | fuel + 1, acc, cs =>
    match cs with
    | [] => none
    | '"' :: cs => some (acc.map fun acc => String.ofList acc.reverse, cs)
    | '\\' :: 'u' :: cs =>
      match numberEscape? cs with
      | some (some c, cs) => string? fuel (acc.map (c :: ·)) cs
      | some (none, cs) => string? fuel none cs
      | none => none
    | '\\' :: c :: cs =>
      match simpleEscape? c with
      | some c => string? fuel (acc.map (c :: ·)) cs
      | none => none
    | c :: cs => if c.toNat < 32 ∨ c = '\\' then none else string? fuel (acc.map (c :: ·)) cs

def isDigit (c : Char) : Bool := '0' ≤ c && c ≤ '9'

def natOf (ds : List Char) : Nat := ds.foldl (fun n d => n * 10 + (d.toNat - 48)) 0

/-- The first number that floating point rounds to infinity. -/
def floatEnd : Nat := Nat.pow 2 1024 - Nat.pow 2 970

/-- Is `m · 10^e` beyond the range of floating point? -/
def beyondFloat (m : Nat) (e : Int) : Bool :=
  if m = 0 then false
  else
    let size : Int := (Nat.toDigits 10 m).length
    if size + e > 310 then true
    else if size + e < 300 then false
    else if e ≥ 0 then m * Nat.pow 10 e.toNat ≥ floatEnd
    else m ≥ floatEnd * Nat.pow 10 (-e).toNat

def classify (negative : Bool) (whole : List Char) (frac : Option (List Char)) (exponent : Option Int) :
    Number :=
  match frac, exponent with
  | none, none =>
    let n := natOf whole
    if negative then
      if n = 0 ∨ n > Nat.pow 2 63 then .real (beyondFloat n 0) else .neg n
    else if n < Nat.pow 2 64 then .nat n
    else .real (beyondFloat n 0)
  | frac, exponent =>
    let f := frac.getD []
    .real (beyondFloat (natOf (whole ++ f)) (exponent.getD 0 - f.length))

/-- Digits behind a point, and an exponent. -/
def number? (cs : List Char) : Option (Number × List Char) :=
  let (negative, cs) := match cs with
    | '-' :: cs => (true, cs)
    | cs => (false, cs)
  let whole := cs.takeWhile isDigit
  let cs := cs.dropWhile isDigit
  if whole = [] ∨ (whole.length > 1 ∧ whole.head? = some '0') then none
  else
    let frac? : Option (Option (List Char) × List Char) := match cs with
      | '.' :: cs =>
        let f := cs.takeWhile isDigit
        if f.isEmpty then none else some (some f, cs.dropWhile isDigit)
      | cs => some (none, cs)
    frac?.bind fun (frac, cs) =>
      match cs with
      | c :: cs' =>
        if c = 'e' ∨ c = 'E' then
          let (minus, cs') := match cs' with
            | '-' :: cs => (true, cs)
            | '+' :: cs => (false, cs)
            | cs => (false, cs)
          let ds := cs'.takeWhile isDigit
          if ds.isEmpty then none
          else
            let e : Int := natOf ds
            some (classify negative whole frac (some (if minus then -e else e)), cs'.dropWhile isDigit)
        else some (classify negative whole frac none, cs)
      | [] => some (classify negative whole frac none, [])

def keyword? (cs : List Char) : Option (Json × List Char) :=
  match cs with
  | 'n' :: 'u' :: 'l' :: 'l' :: cs => some (null, cs)
  | 't' :: 'r' :: 'u' :: 'e' :: cs => some (bool true, cs)
  | 'f' :: 'a' :: 'l' :: 's' :: 'e' :: cs => some (bool false, cs)
  | _ => none

abbrev Behind := Option (List Char)

mutual

def value : Nat → List Char → Json × Behind
  | 0, _ => (torn, none)
  | fuel + 1, cs =>
    match skipSpace cs with
    | '"' :: cs =>
      match string? (cs.length + 1) (some []) cs with
      | some (some s, cs) => (str s, some cs)
      | some (none, cs) => (halved, some cs)
      | none => (torn, none)
    | '[' :: cs =>
      match skipSpace cs with
      | ']' :: cs => (arr [], some cs)
      | cs =>
        let (xs, b) := items fuel cs
        (arr xs, b)
    | '\x7b' :: cs =>
      match skipSpace cs with
      | '\x7d' :: cs => (obj [], some cs)
      | cs =>
        let (ms, b) := members fuel cs
        (obj ms, b)
    | cs =>
      match keyword? cs with
      | some (j, cs) => (j, some cs)
      | none =>
        match number? cs with
        | some (n, cs) => (num n, some cs)
        | none => (torn, none)

def items : Nat → List Char → List Json × Behind
  | 0, _ => ([torn], none)
  | fuel + 1, cs =>
    match value fuel cs with
    | (x, none) => ([x], none)
    | (x, some cs) =>
      match skipSpace cs with
      | ',' :: cs =>
        let (xs, b) := items fuel cs
        (x :: xs, b)
      | ']' :: cs => ([x], some cs)
      | _ => ([x, torn], none)

def members : Nat → List Char → List (String × Json) × Behind
  | 0, _ => ([("", torn)], none)
  | fuel + 1, cs =>
    match skipSpace cs with
    | '"' :: cs =>
      match string? (cs.length + 1) (some []) cs with
      | none | some (none, _) => ([("", torn)], none)
      | some (some k, cs) =>
        match skipSpace cs with
        | ':' :: cs =>
          match value fuel cs with
          | (v, none) => ([(k, v)], none)
          | (v, some cs) =>
            match skipSpace cs with
            | ',' :: cs =>
              let (ms, b) := members fuel cs
              ((k, v) :: ms, b)
            | '\x7d' :: cs => ([(k, v)], some cs)
            | _ => ([(k, v), ("", torn)], none)
        | _ => ([(k, torn)], none)
    | _ => ([("", torn)], none)

end

/-- The value a text begins with, and whether nothing but blanks follows it. -/
def ofText (text : String) : Json × Bool :=
  let cs := text.toList
  match value (cs.length + 1) cs with
  | (j, none) => (j, false)
  | (j, some cs) => (j, (skipSpace cs).isEmpty)

example : (ofText "[1, \"a\\u00e9\" x").1.depth = 1 ∧ (ofText "[1, \"a\\u00e9\" x").1.whole = false := by
  decide +kernel

end FileOrganizer.Json
