import FileOrganizer.Json.Reader

/-!
Values of the library from JSON. Faults are reported in the order of the text: the first one counts,
and a missing field is noticed at the end of its object.
-/

namespace FileOrganizer

inductive DecodeError
  /-- The text is no JSON, or a value is not of the kind wanted. -/
  | malformed
  | missing (field : String)
  | duplicate (field : String)
  | unknownVariant (name : String)
  | badPattern (text : String)
  | badDate (text : String)
  deriving DecidableEq, Repr

abbrev Decoder (α : Type) := Json → Except DecodeError α

namespace Decode

def text : Decoder String
  | .str s => .ok s
  | _ => .error .malformed

def bool : Decoder Bool
  | .bool b => .ok b
  | _ => .error .malformed

/-- An integer from 0 to `2^bits - 1`. -/
def nat (bits : Nat) : Decoder Nat
  | .num (.nat n) => if n < Nat.pow 2 bits then .ok n else .error .malformed
  | _ => .error .malformed

def optional {α : Type} (d : Decoder α) : Decoder (Option α)
  | .null => .ok none
  | j => (d j).map some

def all {α : Type} (d : Decoder α) : List Json → Except DecodeError (List α)
  | [] => .ok []
  | x :: xs =>
    match d x with
    | .error e => .error e
    | .ok a => (all d xs).map (a :: ·)

def list {α : Type} (d : Decoder α) : Decoder (List α)
  | .arr xs => all d xs
  | _ => .error .malformed

/-- A value that is skipped must still be JSON. -/
def skip : Decoder Unit := fun j => if j.whole then .ok () else .error .malformed

/-- How a structure is put together from its fields: a draft takes them one by one, and is closed when
all are there. -/
structure Record (δ α : Type) where
  fields : List String
  draft : δ
  take : δ → String → Json → Except DecodeError δ
  close : δ → Except DecodeError α

namespace Record

variable {δ α : Type}

/-- Unknown keys are skipped, a key that comes again is a fault before its value is read. -/
def takeMembers (r : Record δ α) : List String → δ → List (String × Json) → Except DecodeError δ
  | _, d, [] => .ok d
  | seen, d, (k, v) :: ms =>
    if r.fields.contains k then
      if seen.contains k then .error (.duplicate k)
      else match r.take d k v with
        | .error e => .error e
        | .ok d => takeMembers r (k :: seen) d ms
    else match skip v with
      | .error e => .error e
      | .ok _ => takeMembers r seen d ms

/-- Values without keys are taken in the order of the fields. -/
def takeItems (r : Record δ α) : List String → δ → List Json → Except DecodeError δ
  | _, d, [] => .ok d
  | [], _, _ :: _ => .error .malformed
  | k :: ks, d, x :: xs =>
    match r.take d k x with
    | .error e => .error e
    | .ok d => takeItems r ks d xs

def ofMembers (r : Record δ α) (ms : List (String × Json)) : Except DecodeError α :=
  (r.takeMembers [] r.draft ms).bind r.close

def decode (r : Record δ α) : Decoder α
  | .obj ms => r.ofMembers ms
  | .arr xs =>
    match r.takeItems r.fields r.draft xs with
    | .error e => .error e
    | .ok d => match r.close d with
      | .ok a => .ok a
      | .error _ => .error .malformed
  | _ => .error .malformed

end Record

def required {α : Type} (field : String) : Option α → Except DecodeError α
  | some a => .ok a
  | none => .error (.missing field)

/-- The name of a variant: a string, or an object with that one key and the value null. -/
def variant {α : Type} (find : String → Option α) : Decoder α
  | .str s => required' s (find s)
  | .obj ((s, v) :: ms) =>
    match find s with
    | none => match v with
      | .torn => .error .malformed
      | _ => .error (.unknownVariant s)
    | some a => match v, ms with
      | .null, [] => .ok a
      | _, _ => .error .malformed
  | _ => .error .malformed
where
  required' (s : String) : Option α → Except DecodeError α
    | some a => .ok a
    | none => .error (.unknownVariant s)

/-- A variant by what its arguments are. -/
inductive Shape (α : Type)
  | unit (a : α)
  | fields (d : List (String × Json) → Except DecodeError α)

namespace Shape

variable {α : Type}

/-- Arguments come as an object; a variant without arguments takes null. -/
def decode : Shape α → Decoder α
  | unit a, .null => .ok a
  | fields d, .obj ms => d ms
  | _, _ => .error .malformed

def absent : Shape α → Except DecodeError α
  | unit a => .ok a
  | fields _ => .error (.missing "args")

end Shape

/-- Arguments that stand in front of their type are put aside first, if they are not nested deeper
than this. -/
def maxAside : Nat := 122

def aside : Decoder Json := fun j =>
  if j.whole && j.inRange && j.depth ≤ maxAside then .ok j else .error .malformed

/-- The next member that is a type (`true`) or arguments, and those behind it. -/
def nextTagged : List (String × Json) → Except DecodeError (Option (Bool × Json) × List (String × Json))
  | [] => .ok (none, [])
  | (k, v) :: ms =>
    if k = "type" then .ok (some (true, v), ms)
    else if k = "args" then .ok (some (false, v), ms)
    else match skip v with
      | .error e => .error e
      | .ok _ => nextTagged ms

/-- Neither key may come a second time. -/
def noMore {α : Type} (a : α) (ms : List (String × Json)) : Except DecodeError α :=
  match nextTagged ms with
  | .error e => .error e
  | .ok (none, _) => .ok a
  | .ok (some (true, _), _) => .error (.duplicate "type")
  | .ok (some (false, _), _) => .error (.duplicate "args")

/-- One of several variants: an object with the keys `type` and `args` in either order, or an array of
the two. -/
def tagged {α : Type} (find : String → Option (Shape α)) : Decoder α
  | .obj ms =>
    match nextTagged ms with
    | .error e => .error e
    | .ok (none, _) => .error (.missing "type")
    | .ok (some (true, t), ms) => do
      let s ← variant find t
      match ← nextTagged ms with
      | (none, _) => s.absent
      | (some (true, _), _) => .error (.duplicate "type")
      | (some (false, v), ms) =>
        let a ← s.decode v
        noMore a ms
    | .ok (some (false, v), ms) => do
      let v ← aside v
      match ← nextTagged ms with
      | (none, _) => .error (.missing "type")
      | (some (false, _), _) => .error (.duplicate "args")
      | (some (true, t), ms) =>
        let s ← variant find t
        let a ← s.decode v
        noMore a ms
  | .arr (t :: v :: rest) => do
    let s ← variant find t
    let a ← s.decode v
    if rest.isEmpty then .ok a else .error .malformed
  | .arr [t] => do
    let _ ← variant find t
    .error .malformed
  | _ => .error .malformed

/-- A whole document: nothing may follow the value. -/
def document {α : Type} (d : Decoder α) (text : String) : Except DecodeError α :=
  match Json.ofText text with
  | (j, closed) =>
    match d j with
    | .error e => .error e
    | .ok a => if closed then .ok a else .error .malformed

end Decode

namespace DecodeError

/-- What is told about the fault; nothing where only the place in the text could be told. -/
def message? : DecodeError → Option String
  | malformed => none
  | missing f => some ("missing field `" ++ f ++ "`")
  | duplicate f => some ("duplicate field `" ++ f ++ "`")
  | unknownVariant n => some ("unknown variant `" ++ n ++ "`")
  | badPattern _ => some "无效的正则表达式"
  | badDate t => some ("无效的日期: " ++ t)

end DecodeError

end FileOrganizer
