import FileOrganizer.Pattern.Regex
import FileOrganizer.Text.GeneralCategory
import FileOrganizer.Text.Script

/-!
Reading regular expressions. Groups may be named and may set flags; there are no back references and
nothing looks ahead. Every reader takes characters from the front and fails on what is no expression.
-/

namespace FileOrganizer.Pattern

structure Flags where
  ignoreCase : Bool := false
  multiLine : Bool := false
  dotAll : Bool := false
  unicode : Bool := true
  spaced : Bool := false
  crlf : Bool := false

structure Input where
  rest : List Char
  flags : Flags := {}
  names : List String := []

abbrev Read := StateT Input Option

namespace Read

def peek : Read (Option Char) := do return (← get).rest.head?

def peek2 : Read (List Char) := do return (← get).rest.take 2

def bump : Read Unit := modify fun i => { i with rest := i.rest.drop 1 }

def flags : Read Flags := do return (← get).flags

/-- With the flag for spacing, blanks and comments mean nothing. -/
def dropSpace : Nat → List Char → List Char
  | 0, cs => cs
  | n + 1, c :: cs =>
    if Text.isBlank c then dropSpace n cs
    else if c = '#' then dropSpace n ((cs.dropWhile (· ≠ '\n')).drop 1)
    else c :: cs
  | _, [] => []

def space : Read Unit := modify fun i =>
  if i.flags.spaced then { i with rest := dropSpace i.rest.length i.rest } else i

def bumpSpace : Read Unit := do bump; space

/-- The next character, which must be there; it is not taken. -/
def look : Read Char := do
  match ← peek with
  | some c => pure c
  | none => failure

def take : Read Char := do
  let c ← look
  bump
  pure c

def takeText (text : String) : Read Bool := do
  let i ← get
  if text.toList.isPrefixOf i.rest then
    set { i with rest := i.rest.drop text.length }
    pure true
  else pure false

/-- Takes characters while `ok` holds. -/
def takeWhile (ok : Char → Bool) : Read (List Char) := do
  let i ← get
  set { i with rest := i.rest.dropWhile ok }
  pure (i.rest.takeWhile ok)

end Read

open Read

/-- What one escape or plain character stands for, before it is known whether it stands in a class.
`byte` tells the form with two hexadecimal digits. -/
inductive Prim
  | char (c : Char) (byte : Bool)
  | chars (s : CharSet) (ascii : Bool)
  | look (l : Look)
  | dot

def isMeta (c : Char) : Bool := "\\.+*?()|[]\x7b\x7d^$#&-~".toList.contains c

def isHex (c : Char) : Bool :=
  ('0' ≤ c && c ≤ '9') || ('a' ≤ c && c ≤ 'f') || ('A' ≤ c && c ≤ 'F')

def charOf (n : Nat) : Read Char :=
  if n < 0xD800 ∨ (0xDFFF < n ∧ n ≤ 0x10FFFF) then pure (Char.ofNat n) else failure

/-- A fixed number of hexadecimal digits. -/
def hexDigits : Nat → Read (List Char)
  | 0 => pure []
  | n + 1 => do
    let c ← look
    if !isHex c then failure
    bumpSpace
    return c :: (← hexDigits n)

def hexChar (digits : Nat) : Read Prim := do
  bumpSpace
  if (← look) = '\x7b' then
    bumpSpace
    let i ← get
    let ds := (i.rest.takeWhile (· ≠ '\x7d')).filter (fun c => !(i.flags.spaced && Text.isBlank c))
    if ds.isEmpty ∨ ds.length > 16 ∨ ds.any (fun c => !isHex c) then failure
    set { i with rest := i.rest.dropWhile (· ≠ '\x7d') }
    discard take
    return .char (← charOf (Ranges.hex ds)) false
  else
    let ds ← hexDigits digits
    return .char (← charOf (Ranges.hex ds)) (digits == 2)

/-- A name of a property in small letters without blanks, lines and the word "is" in front. -/
def plainName (cs : List Char) : String :=
  let cs := (cs.filter (fun c => c ≠ ' ' ∧ c ≠ '_' ∧ c ≠ '-' ∧ c.toNat < 128)).map Char.toLower
  let cs := if ['i', 's'].isPrefixOf cs ∧ cs ≠ ['i', 's', 'c'] then cs.drop 2 else cs
  String.ofList cs

def named? (name : String) : Option Ranges :=
  (if ["cf", "sc", "lc"].contains name then none else Text.property? name) <|>
    Text.generalCategory? name <|> Text.script? name

def valued? (property value : String) : Option Ranges :=
  if ["gc", "generalcategory"].contains property then Text.generalCategory? value
  else if ["sc", "script", "scx", "scriptextensions"].contains property then Text.script? value
  else none

/-- The body of a property between braces: a name, or a property with a value. -/
def property (body : List Char) : Option CharSet :=
  let cut (cs : List Char) (at? : List Char → Option (List Char)) : Option (List Char × List Char) :=
    (List.range cs.length).findSome? fun i => (at? (cs.drop i)).map (cs.take i, ·)
  match cut body (fun | '!' :: '=' :: cs => some cs | _ => none) with
  | some (p, v) => (valued? (plainName p) (plainName v)).map (.compl ∘ .ranges)
  | none =>
    match cut body (fun | ':' :: cs => some cs | _ => none) <|>
        cut body (fun | '=' :: cs => some cs | _ => none) with
    | some (p, v) => (valued? (plainName p) (plainName v)).map .ranges
    | none => (named? (plainName body)).map .ranges

def withCase (f : Flags) (s : CharSet) : CharSet :=
  if f.ignoreCase then (if f.unicode then .fold s else .foldLetters s) else s

def unicodeClass (negated : Bool) : Read Prim := do
  let f ← flags
  if !f.unicode then failure
  bumpSpace
  let c ← look
  let s? ← if c = '\x7b' then do
      bumpSpace
      let i ← get
      let body := (i.rest.takeWhile (· ≠ '\x7d')).filter (fun c => !(i.flags.spaced && Text.isBlank c))
      set { i with rest := i.rest.dropWhile (· ≠ '\x7d') }
      discard look
      bump
      pure (property body)
    else if c = '\\' then failure
    else do
      bumpSpace
      pure ((named? (plainName [c])).map CharSet.ranges)
  match s? with
  | none => failure
  | some s =>
    let s := withCase f s
    return .chars (if negated then .compl s else s) false

def asciiDigit : CharSet := .ranges [(0x30, 0x39)]
def asciiWord : CharSet := .ranges [(0x30, 0x39), (0x41, 0x5A), (0x5F, 0x5F), (0x61, 0x7A)]
def asciiBlank : CharSet := .ranges [(9, 13), (32, 32)]
def digits : CharSet := .ranges ((Text.generalCategory? "nd").getD [])
def words : CharSet := .ranges ((0x30, 0x39) :: (0x41, 0x5A) :: (0x5F, 0x5F) :: (0x61, 0x7A) :: Text.wordChars)
def blanks : CharSet := .ranges ((Text.property? "whitespace").getD [])

def shortClass (c : Char) : Read Prim := do
  let u := (← flags).unicode
  let s := match c.toLower with
    | 'd' => if u then digits else asciiDigit
    | 's' => if u then blanks else asciiBlank
    | _ => if u then words else asciiWord
  if c.isUpper then
    if !u then failure
    return .chars (.compl s) false
  return .chars s !u

def specialEdges : List (String × (Bool → Look)) :=
  [("start", .wordStart), ("end", .wordEnd), ("start-half", .wordStartHalf), ("end-half", .wordEndHalf)]

/-- After a word edge a kind of edge may stand between braces; anything that does not begin with a
letter there is a repetition. -/
def edge : Read Look := do
  let u := (← flags).unicode
  if (← peek) ≠ some '\x7b' then return .wordEdge u
  let saved ← get
  bumpSpace
  let isName (c : Char) : Bool := c.isAlpha || c == '-'
  if !isName (← look) then
    set saved
    return .wordEdge u
  let name ← takeWhile isName
  if (← take) ≠ '\x7d' then failure
  match specialEdges.find? (·.1 = String.ofList name) with
  | some (_, l) => return l u
  | none => failure

/-- The escape after a backslash that has been taken. -/
def escape : Read Prim := do
  let c ← look
  if '0' ≤ c ∧ c ≤ '9' then failure
  else if c = 'x' then hexChar 2
  else if c = 'u' then hexChar 4
  else if c = 'U' then hexChar 8
  else if c = 'p' ∨ c = 'P' then unicodeClass (c = 'P')
  else if ['d', 's', 'w', 'D', 'S', 'W'].contains c then
    bump
    shortClass c
  else
    bump
    let u := (← flags).unicode
    if isMeta c then return .char c false
    match c with
    | '<' => return .look (.wordStart u)
    | '>' => return .look (.wordEnd u)
    | 'a' => return .char '\x07' false
    | 'f' => return .char '\x0c' false
    | 't' => return .char '\t' false
    | 'n' => return .char '\n' false
    | 'r' => return .char '\r' false
    | 'v' => return .char '\x0b' false
    | 'A' => return .look .textStart
    | 'z' => return .look .textEnd
    | 'b' => return .look (← edge)
    | 'B' => return .look (.noWordEdge u)
    | _ => if c.toNat < 128 ∧ !c.isAlphanum then return .char c false else failure

/-- The character that a part of a class stands for. Where characters are bytes, only those of ASCII
keep the text well formed. -/
def classChar (p : Prim) : Read Char := do
  match p with
  | .char c _ => if (← flags).unicode ∨ c.toNat < 128 then pure c else failure
  | _ => failure

def classItem (p : Prim) : Read CharSet := do
  match p with
  | .char .. => return .one (← classChar p)
  | .chars s _ => return s
  | _ => failure

def classPrim : Read Prim := do
  if (← look) = '\\' then
    bump
    escape
  else
    return .char (← take) false

/-- One character, one escape or one range. -/
def classRange : Read CharSet := do
  let p ← classPrim
  space
  discard look
  let i ← get
  let after := (if i.flags.spaced then dropSpace i.rest.length (i.rest.drop 1) else i.rest.drop 1).head?
  if i.rest.head? ≠ some '-' ∨ after = some ']' ∨ after = some '-' then classItem p
  else
    bumpSpace
    let q ← classPrim
    let lo ← classChar p
    let hi ← classChar q
    if hi < lo then failure
    return .ranges [(lo.toNat, hi.toNat)]

def posixClasses : List (String × Ranges) := [
  ("alnum", [(0x30, 0x39), (0x41, 0x5A), (0x61, 0x7A)]), ("alpha", [(0x41, 0x5A), (0x61, 0x7A)]),
  ("ascii", [(0, 0x7F)]), ("blank", [(9, 9), (32, 32)]), ("cntrl", [(0, 0x1F), (0x7F, 0x7F)]),
  ("digit", [(0x30, 0x39)]), ("graph", [(0x21, 0x7E)]), ("lower", [(0x61, 0x7A)]),
  ("print", [(0x20, 0x7E)]), ("punct", [(0x21, 0x2F), (0x3A, 0x40), (0x5B, 0x60), (0x7B, 0x7E)]),
  ("space", [(9, 13), (32, 32)]), ("upper", [(0x41, 0x5A)]),
  ("word", [(0x30, 0x39), (0x41, 0x5A), (0x5F, 0x5F), (0x61, 0x7A)]),
  ("xdigit", [(0x30, 0x39), (0x41, 0x46), (0x61, 0x66)])]

/-- A class such as `[:alpha:]`; nothing is taken if there is none. -/
def posixClass : Read (Option CharSet) := do
  let i ← get
  match i.rest with
  | '[' :: ':' :: cs =>
    let (negated, cs) := match cs with
      | '^' :: cs => (true, cs)
      | cs => (false, cs)
    let name := cs.takeWhile (· ≠ ':')
    match cs.drop name.length, posixClasses.find? (·.1 = String.ofList name) with
    | ':' :: ']' :: rest, some (_, r) =>
      if negated ∧ !i.flags.unicode then failure
      set { i with rest := rest }
      let s := withCase i.flags (.ranges r)
      return some (if negated then .compl s else s)
    | _, _ => return none
  | _ => return none

inductive SetOp | inter | diff | symDiff

/-- What stands before a set operation, and the operation. -/
abbrev Pending := Option (SetOp × CharSet)

def combine (f : Flags) (p : Pending) (s : CharSet) : CharSet :=
  match p with
  | none => s
  | some (.inter, a) => .inter (withCase f a) (withCase f s)
  | some (.diff, a) => .diff (withCase f a) (withCase f s)
  | some (.symDiff, a) => .symDiff (withCase f a) (withCase f s)

/-- Dashes at the front of a class stand for themselves. -/
def leadingDashes : Nat → CharSet → Read CharSet
  | 0, s => pure s
  | n + 1, s => do
    if (← look) = '-' then
      bumpSpace
      leadingDashes n (.union s (.one '-'))
    else pure s

mutual

/-- A class between brackets, the opening one included. -/
def charClass : Nat → Read CharSet
  | 0 => failure
  | fuel + 1 => do
    bumpSpace
    let negated ← if (← look) = '^' then do bumpSpace; pure true else pure false
    let i ← get
    let s ← leadingDashes i.rest.length .empty
    let dashes := (← get).rest.length < i.rest.length
    let s ← if !dashes ∧ (← look) = ']' then do
        bumpSpace
        pure (CharSet.union s (.one ']'))
      else pure s
    let s ← classBody fuel none s
    let f ← flags
    let s := withCase f s
    if negated then
      if !f.unicode then failure
      return .compl s
    return s

/-- The inside of a class up to the closing bracket: `s` holds what stands since the last operation. -/
def classBody : Nat → Pending → CharSet → Read CharSet
  | 0, _, _ => failure
  | fuel + 1, p, s => do
    space
    let c ← look
    let f ← flags
    if c = '[' then
      match ← posixClass with
      | some t => classBody fuel p (.union s t)
      | none => do
        let t ← charClass fuel
        classBody fuel p (.union s t)
    else if c = ']' then
      bump
      return combine f p s
    else
      let two ← peek2
      if two = ['&', '&'] then
        bump; bump
        classBody fuel (some (.inter, combine f p s)) .empty
      else if two = ['-', '-'] then
        bump; bump
        classBody fuel (some (.diff, combine f p s)) .empty
      else if two = ['~', '~'] then
        bump; bump
        classBody fuel (some (.symDiff, combine f p s)) .empty
      else
        let t ← classRange
        classBody fuel p (.union s t)

end

def anyChar : CharSet := .ranges [(0, 0x10FFFF)]

/-- A part outside a class as an expression. -/
def primRegex (p : Prim) : Read Regex := do
  let f ← flags
  match p with
  | .char c byte =>
    if byte ∧ !f.unicode ∧ c.toNat ≥ 128 then failure
    return .set (withCase f (.one c))
  | .chars s _ => return .set s
  | .look l => return .look l
  | .dot =>
    if !f.unicode then failure
    if f.dotAll then return .set anyChar
    else if f.crlf then return .set (.compl (.ranges [(10, 10), (13, 13)]))
    else return .set (.compl (.ranges [(10, 10)]))

def prim : Read Regex := do
  let f ← flags
  let c ← take
  match c with
  | '\\' =>
    if f.spaced ∧ (← peek) = some ' ' then
      bump
      primRegex (.char ' ' false)
    else primRegex (← escape)
  | '.' => primRegex .dot
  | '^' => return .look (if f.multiLine then .lineStart f.crlf else .textStart)
  | '$' => return .look (if f.multiLine then .lineEnd f.crlf else .textEnd)
  | c => primRegex (.char c false)

/-- A count in a repetition, below 2³². -/
def count : Read Nat := do
  discard (takeWhile Text.isBlank)
  let ds ← takeWhile (fun c => '0' ≤ c && c ≤ '9')
  discard (takeWhile Text.isBlank)
  space
  if ds.isEmpty then failure
  let n := ds.foldl (fun n d => n * 10 + (d.toNat - 48)) 0
  if n ≥ Nat.pow 2 32 then failure
  pure n

/-- The repetition mark at the front: how often at least and at most. -/
def repetition : Read (Nat × Option Nat) := do
  let c ← look
  let r ← if c = '*' then do bump; pure (0, none)
    else if c = '+' then do bump; pure (1, none)
    else if c = '?' then do bump; pure (0, some 1)
    else do
      bumpSpace
      discard look
      let n ← count
      let r ← if (← look) = ',' then do
          bumpSpace
          if (← look) = '\x7d' then pure (n, none)
          else do
            let m ← count
            if m < n then failure
            pure (n, some m)
        else pure (n, some n)
      if (← look) ≠ '\x7d' then failure
      bumpSpace
      pure r
  if (← peek) = some '?' then bump
  pure r

def applyFlag (f : Flags) (on : Bool) : Char → Option Flags
  | 'i' => some { f with ignoreCase := on }
  | 'm' => some { f with multiLine := on }
  | 's' => some { f with dotAll := on }
  | 'u' => some { f with unicode := on }
  | 'x' => some { f with spaced := on }
  | 'R' => some { f with crlf := on }
  | 'U' => some f
  | _ => none

/-- The flags up to a colon or a closing bracket; each at most once, and one after a dash. -/
def flagList (f : Flags) : List Char → Option Flags
  | cs =>
    let (on, off) := (cs.takeWhile (· ≠ '-'), cs.dropWhile (· ≠ '-'))
    let off? := match off with
      | [] => some []
      | [_] => none
      | _ :: off => if off.contains '-' then none else some off
    off?.bind fun off =>
      if (on ++ off).eraseDups.length = (on ++ off).length then do
        let f ← on.foldlM (fun f c => applyFlag f true c) f
        off.foldlM (fun f c => applyFlag f false c) f
      else none

def isNameChar (first : Bool) (c : Char) : Bool :=
  let letter := c.isAlpha || ((Text.property? "alphabetic").getD []).has c
  if first then c == '_' || letter
  else c == '_' || c == '.' || c == '[' || c == ']' || letter ||
    ((Text.generalCategory? "n").getD []).has c

def groupName : Read Unit := do
  let name ← takeWhile (· ≠ '>')
  if (← take) ≠ '>' then failure
  match name with
  | [] => failure
  | c :: cs =>
    if !isNameChar true c ∨ cs.any (fun c => !isNameChar false c) then failure
    let i ← get
    let n := String.ofList name
    if i.names.contains n then failure
    set { i with names := n :: i.names }

/-- An expression and how deep parts stand within parts in it. -/
abbrev Deep := Regex × Nat

/-- Several parts joined one to the other, all of them one level down. -/
def joinAll (join : Regex → Regex → Regex) : List Deep → Deep
  | [] => (.empty, 0)
  | [r] => r
  | r :: rs => (rs.foldl (fun a b => join a b.1) r.1, 1 + ((r :: rs).map (·.2)).foldl max 0)

mutual

/-- Branches parted by bars, up to a closing bracket or the end. `items` is the branch begun, its last
part first; a part that is `none` cannot be repeated. -/
def branches : Nat → List (Option Deep) → Read (List Deep)
  | 0, _ => failure
  | fuel + 1, items => do
    space
    let done := joinAll .seq ((items.filterMap id).reverse)
    match ← peek with
    | none => return [done]
    | some ')' => return [done]
    | some '|' =>
      bump
      return done :: (← branches fuel [])
    | some '(' =>
      let g ← group fuel
      branches fuel (g :: items)
    | some '[' =>
      let s ← charClass (← get).rest.length
      branches fuel (some (.set s, 1) :: items)
    | some c =>
      if c = '*' ∨ c = '+' ∨ c = '?' ∨ c = '\x7b' then
        match items with
        | some (r, d) :: items => do
          let (least, most) ← repetition
          branches fuel (some (.rep r least most, d + 1) :: items)
        | _ => failure
      else
        let r ← prim
        branches fuel (some (r, 0) :: items)

/-- A group, or flags for what follows, which are no part of the expression. -/
def group : Nat → Read (Option Deep)
  | 0 => failure
  | fuel + 1 => do
    bump
    space
    let outer ← flags
    let two ← peek2
    let three := (← get).rest.take 3
    if two = ['?', '='] ∨ two = ['?', '!'] ∨ three = ['?', '<', '='] ∨ three = ['?', '<', '!'] then
      failure
    let inner ← if (← takeText "?P<") then do groupName; pure outer
      else if (← takeText "?<") then do groupName; pure outer
      else if (← takeText "?") then do
        let cs ← takeWhile (fun c => c ≠ ':' ∧ c ≠ ')')
        let c ← take
        match flagList outer cs with
        | none => failure
        | some f =>
          if c = ')' then
            if cs.isEmpty then failure
            modify fun i => { i with flags := f }
            return none
          pure f
      else pure outer
    modify fun i => { i with flags := inner }
    let (r, d) := joinAll .alt (← branches fuel [])
    if (← take) ≠ ')' then failure
    modify fun i => { i with flags := outer }
    return some (r, d + 1)

end

/-- Parts may stand at most this deep within each other. -/
def maxDepth : Nat := 250

/-- What a machine for an expression may take. -/
def maxWeight : Nat := 10 * 1024 * 1024

def read? (text : String) : Option Regex :=
  let cs := text.toList
  match branches (cs.length * 2 + 2) [] { rest := cs } with
  | some (bs, i) =>
    let (r, d) := joinAll .alt bs
    if i.rest.isEmpty ∧ d ≤ maxDepth ∧ r.weight ≤ maxWeight then some r else none
  | none => none

end FileOrganizer.Pattern

namespace FileOrganizer

/-- A regular expression with the text it was written as. -/
structure Pattern where
  text : String
  regex : Regex
  read : Pattern.read? text = some regex

namespace Pattern

def ofText? (text : String) : Option Pattern :=
  match h : read? text with
  | some r => some ⟨text, r, h⟩
  | none => none

def matches? (p : Pattern) (text : String) : Bool := p.regex.matches? text

theorem eq_of_text {p q : Pattern} (h : p.text = q.text) : p = q := by
  obtain ⟨t, r, hr⟩ := p
  obtain ⟨u, s, hs⟩ := q
  obtain rfl : t = u := h
  obtain rfl : r = s := Option.some.inj (hr.symm.trans hs)
  rfl

/-- A pattern is given by its text. -/
instance : DecidableEq Pattern := fun p q =>
  if h : p.text = q.text then .isTrue (eq_of_text h) else .isFalse fun e => h (e ▸ rfl)

theorem ofText?_text (p : Pattern) : ofText? p.text = some p := by
  obtain ⟨t, r, h⟩ := p
  unfold ofText?
  split
  · next s hs => exact congrArg some (eq_of_text rfl)
  · next hs => simp [h] at hs

end Pattern

end FileOrganizer
