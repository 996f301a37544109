import FileOrganizer.Text.Fold
import FileOrganizer.Text.Property

/-!
Regular expressions over characters, and whether one matches somewhere in a text. A set of positions
in the text is a number: bit `i` stands for the position before character `i`. Each expression maps
the positions where a match may begin to those where it may end.
-/

namespace FileOrganizer

inductive CharSet
  | ranges (r : Ranges)
  | union (a b : CharSet)
  | inter (a b : CharSet)
  | diff (a b : CharSet)
  | compl (a : CharSet)
  /-- With every character also those that differ from it in case. -/
  | fold (a : CharSet)
  /-- The same for the letters A to Z alone. -/
  | foldLetters (a : CharSet)

namespace CharSet

def has : CharSet → Char → Bool
  | ranges r, c => r.has c
  | union a b, c => a.has c || b.has c
  | inter a b, c => a.has c && b.has c
  | diff a b, c => a.has c && !b.has c
  | compl a, c => !a.has c
  | fold a, c => a.has c || (Text.variants c).any a.has
  | foldLetters a, c => a.has c || a.has c.toLower || a.has c.toUpper

def empty : CharSet := ranges []

def one (c : Char) : CharSet := ranges [(c.toNat, c.toNat)]

def symDiff (a b : CharSet) : CharSet := union (diff a b) (diff b a)

/-- About how many ranges of bytes it takes to tell the set. Beyond ASCII a character is several bytes,
and a complement always goes there. -/
def weight : CharSet → Nat
  | ranges r => r.foldl (fun n e => n + if e.2 < 128 then 1 else 4) 0
  | union a b | inter a b | diff a b => a.weight + b.weight
  | compl a => a.weight + 40
  | fold a | foldLetters a => a.weight + 1

end CharSet

/-- A condition on the position between two characters. -/
inductive Look
  | textStart
  | textEnd
  | lineStart (crlf : Bool)
  | lineEnd (crlf : Bool)
  | wordEdge (unicode : Bool)
  | noWordEdge (unicode : Bool)
  | wordStart (unicode : Bool)
  | wordEnd (unicode : Bool)
  | wordStartHalf (unicode : Bool)
  | wordEndHalf (unicode : Bool)

namespace Look

def isWord (unicode : Bool) (c : Char) : Bool :=
  if unicode then Text.isWord c else c.isAlphanum || c == '_'

def holds (before after : Option Char) : Look → Bool
  | textStart => before.isNone
  | textEnd => after.isNone
  | lineStart false => before.isNone || before == some '\n'
  | lineEnd false => after.isNone || after == some '\n'
  | lineStart true =>
    before.isNone || before == some '\n' || (before == some '\r' && after != some '\n')
  | lineEnd true =>
    after.isNone || after == some '\r' || (after == some '\n' && before != some '\r')
  | wordEdge u => before.any (isWord u) != after.any (isWord u)
  | noWordEdge u => before.any (isWord u) == after.any (isWord u)
  | wordStart u => !before.any (isWord u) && after.any (isWord u)
  | wordEnd u => before.any (isWord u) && !after.any (isWord u)
  | wordStartHalf u => !before.any (isWord u)
  | wordEndHalf u => !after.any (isWord u)

end Look

inductive Regex
  | empty
  | set (s : CharSet)
  | look (l : Look)
  | seq (a b : Regex)
  | alt (a b : Regex)
  | rep (r : Regex) (least : Nat) (most : Option Nat)

namespace Regex

/-- The number whose bits say where `f` holds. -/
def bits (f : Nat → Bool) : Nat → Nat
  | 0 => 0
  | n + 1 => (if f n then 1 <<< n else 0) ||| bits f n

/-- `f` applied `k` times, or until nothing changes. -/
def times (f : Nat → Nat) : Nat → Nat → Nat
  | 0, s => s
  | k + 1, s => if f s = s then s else times f k (f s)

/-- Where matches that begin at a position of `s` end. A text of `n` characters has `n + 1` positions,
so that adding positions over and over ends after `n + 1` rounds. -/
def reach (text : Array Char) : Regex → Nat → Nat
  | empty, s => s
  | set c, s => (s &&& bits (fun i => text[i]?.any c.has) text.size) <<< 1
  | look l, s =>
    s &&& bits (fun i => l.holds (if i = 0 then none else text[i - 1]?) text[i]?) (text.size + 1)
  | seq a b, s => reach text b (reach text a s)
  | alt a b, s => reach text a s ||| reach text b s
  | rep r least most, s =>
    let start := times (reach text r) least s
    let rounds := match most with
      | none => text.size + 1
      | some m => min (m - least) (text.size + 1)
    times (fun t => t ||| reach text r t) rounds start

def matches? (r : Regex) (text : String) : Bool :=
  let cs := text.toList.toArray
  r.reach cs (bits (fun _ => true) (cs.size + 1)) ≠ 0

/-- About how many bytes a machine for the expression takes. -/
def weight : Regex → Nat
  | empty => 0
  | set s => 16 + 16 * s.weight
  | look _ => 16
  | seq a b | alt a b => a.weight + b.weight
  | rep r least most => r.weight * (most.getD (least + 1))

end Regex

end FileOrganizer
