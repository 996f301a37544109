import FileOrganizer.Json.Basic
import FileOrganizer.Text.Ranges

/-!
Writing JSON, on one line or with one member a line.
-/

namespace FileOrganizer.Json

def hexDigits (n : Nat) : List Char :=
  let ds := Nat.toDigits 16 n
  List.replicate (4 - ds.length) '0' ++ ds

/-- Only quotes, backslashes and control characters are escaped. -/
def escape (c : Char) : List Char :=
  match c with
  | '"' => ['\\', '"']
  | '\\' => ['\\', '\\']
  | '\n' => ['\\', 'n']
  | '\r' => ['\\', 'r']
  | '\t' => ['\\', 't']
  | '\x08' => ['\\', 'b']
  | '\x0c' => ['\\', 'f']
  | c => if c.toNat < 32 then '\\' :: 'u' :: hexDigits c.toNat else [c]

def quote (s : String) : String :=
  "\"" ++ String.ofList (s.toList.flatMap escape) ++ "\""

def Number.text : Number → String
  | .nat n => toString n
  | .neg n => "-" ++ toString n
  | .real _ => "0.0"

mutual

def compact : Json → String
  | null | halved | torn => "null"
  | bool b => if b then "true" else "false"
  | num n => Number.text n
  | str s => quote s
  | arr xs => "[" ++ compactAll xs ++ "]"
  | obj ms => "\x7b" ++ compactMembers ms ++ "\x7d"

def compactAll : List Json → String
  | [] => ""
  | [x] => x.compact
  | x :: xs => x.compact ++ "," ++ compactAll xs

def compactMembers : List (String × Json) → String
  | [] => ""
  | [(k, v)] => quote k ++ ":" ++ v.compact
  | (k, v) :: ms => quote k ++ ":" ++ v.compact ++ "," ++ compactMembers ms

end

def margin (n : Nat) : String := "\n" ++ String.ofList (List.replicate (2 * n) ' ')

mutual

/-- Members and items stand on lines of their own, two blanks further in for each level. -/
def spread (level : Nat) : Json → String
  | arr [] => "[]"
  | obj [] => "\x7b\x7d"
  | arr xs => "[" ++ spreadAll (level + 1) xs ++ margin level ++ "]"
  | obj ms => "\x7b" ++ spreadMembers (level + 1) ms ++ margin level ++ "\x7d"
  | null | halved | torn => "null"
  | bool b => if b then "true" else "false"
  | num n => Number.text n
  | str s => quote s

def spreadAll (level : Nat) : List Json → String
  | [] => ""
  | [x] => margin level ++ spread level x
  | x :: xs => margin level ++ spread level x ++ "," ++ spreadAll level xs

def spreadMembers (level : Nat) : List (String × Json) → String
  | [] => ""
  | [(k, v)] => margin level ++ quote k ++ ": " ++ spread level v
  | (k, v) :: ms => margin level ++ quote k ++ ": " ++ spread level v ++ "," ++ spreadMembers level ms

end

def pretty (j : Json) : String := spread 0 j

end FileOrganizer.Json
