import FileOrganizer.Json.Decode
import FileOrganizer.Rules.Profile
import FileOrganizer.Time.Reader

/-!
Profiles as JSON documents.
-/

namespace FileOrganizer

open Decode

/-- The arguments of a variant that has one, by name. -/
def Decode.single {α β : Type} (name : String) (d : Decoder α) (make : α → β) :
    List (String × Json) → Except DecodeError β :=
  Record.ofMembers {
    fields := [name], draft := none
    take := fun _ _ j => (d j).map some
    close := fun a => (required name a).map make }

/-- The same, where the argument may be left out. -/
def Decode.perhaps {α β : Type} (name : String) (d : Decoder α) (make : Option α → β) :
    List (String × Json) → Except DecodeError β :=
  Record.ofMembers {
    fields := [name], draft := none
    take := fun _ _ j => optional d j
    close := fun a => .ok (make a) }

namespace Condition

def pattern : Decoder Pattern := fun j => do
  let t ← text j
  match Pattern.ofText? t with
  | some p => .ok p
  | none => .error (.badPattern t)

def date : Decoder Instant := fun j => do
  let t ← text j
  match Instant.ofBound? t with
  | some d => .ok d
  | none => .error (.badDate t)

def fieldValue : List (String × Json) → Except DecodeError Condition :=
  Record.ofMembers {
    fields := ["field", "value"], draft := ((none, none) : Option String × Option String)
    take := fun (f, v) k j => do
      let t ← text j
      pure (if k = "field" then (some t, v) else (f, some t))
    close := fun (f, v) => do
      pure (.fieldEquals (← required "field" f) (← required "value" v)) }

def shapes : Table String (Shape Condition) := [
    ("NameContains", .fields (single "text" text nameContains)),
    ("NameStartsWith", .fields (single "text" text nameStartsWith)),
    ("NameEndsWith", .fields (single "text" text nameEndsWith)),
    ("NameEquals", .fields (single "text" text nameEquals)),
    ("RegexMatch", .fields (single "pattern" pattern regexMatch)),
    ("ExtensionIs", .fields (single "extensions" (list text) extensionIs)),
    ("FileSizeGreaterThan", .fields (single "bytes" (nat 64) sizeGreaterThan)),
    ("FileAgeGreaterThan", .fields (single "days" (nat 64) ageGreaterThan)),
    ("LastModifiedBefore", .fields (single "date" date modifiedBefore)),
    ("IsHidden", .unit isHidden),
    ("IsReadOnly", .unit isReadOnly),
    ("IsDirectory", .unit isDirectory),
    ("ParentFolderContains", .fields (single "text" text parentContains)),
    ("ContentContains", .fields (single "text" text contentContains)),
    ("ColorIs", .fields (single "color" text colorIs)),
    ("HasTag", .fields (single "tag" text hasTag)),
    ("MetadataFieldEquals", .fields fieldValue),
    ("IsDuplicate", .unit isDuplicate)]

def ofJson : Decoder Condition := tagged shapes.get?

def args : Condition → List (String × Json)
  | nameContains t | nameStartsWith t | nameEndsWith t | nameEquals t | parentContains t
  | contentContains t => [("text", .str t)]
  | regexMatch p => [("pattern", .str p.text)]
  | extensionIs es => [("extensions", .arr (es.map .str))]
  | sizeGreaterThan n => [("bytes", .nat n)]
  | ageGreaterThan n => [("days", .nat n)]
  | modifiedBefore t => [("date", .str (t.text "+00:00"))]
  | colorIs c => [("color", .str c)]
  | hasTag t => [("tag", .str t)]
  | fieldEquals f v => [("field", .str f), ("value", .str v)]
  | isHidden | isReadOnly | isDirectory | isDuplicate => []

end Condition

/-- A variant as its type, with its arguments if it has any. -/
def Json.ofVariant (kind : String) (args : List (String × Json)) : Json :=
  .obj (("type", .str kind) :: if args.isEmpty then [] else [("args", .obj args)])

def Condition.toJson (c : Condition) : Json := .ofVariant c.kind c.args

namespace Action

def defaultTimeout : Nat := 60

def command : List (String × Json) → Except DecodeError Action :=
  Record.ofMembers {
    fields := ["program", "args", "timeout_secs"]
    draft := ((none, [], defaultTimeout) : Option String × List String × Nat)
    take := fun (p, a, n) k j =>
      if k = "program" then (text j).map fun p => (some p, a, n)
      else if k = "args" then (list text j).map fun a => (p, a, n)
      else (nat 64 j).map fun n => (p, a, n)
    close := fun (p, a, n) => (required "program" p).map fun p => .runCommand p a n }

def shapes : Table String (Shape Action) := [
    ("Rename", .fields (single "new_name" text rename)),
    ("TokenRename", .fields (single "template" text tokenRename)),
    ("Move", .fields (single "destination" text move)),
    ("Copy", .fields (single "destination" text copy)),
    ("Delete", .unit delete),
    ("DeleteToTrash", .unit deleteToTrash),
    ("RunCommand", .fields command),
    ("Archive", .fields (perhaps "destination" text archive)),
    ("Extract", .fields (perhaps "destination" text extract)),
    ("CreateFolder", .fields (single "path" text createFolder)),
    ("AddTag", .fields (single "tag" text addTag)),
    ("RemoveTag", .fields (single "tag" text removeTag)),
    ("ColorLabel", .fields (single "color" text colorLabel)),
    ("MarkAsDuplicate", .fields (perhaps "tag" text markAsDuplicate))]

def ofJson : Decoder Action := tagged shapes.get?

def args : Action → List (String × Json)
  | rename n => [("new_name", .str n)]
  | tokenRename t => [("template", .str t)]
  | move d | copy d => [("destination", .str d)]
  | delete | deleteToTrash => []
  | runCommand p a n => [("program", .str p), ("args", .arr (a.map .str)), ("timeout_secs", .nat n)]
  | archive d | extract d => [("destination", Json.ofOption d)]
  | createFolder p => [("path", .str p)]
  | addTag t | removeTag t => [("tag", .str t)]
  | colorLabel c => [("color", .str c)]
  | markAsDuplicate t => [("tag", Json.ofOption t)]

def toJson (a : Action) : Json := .ofVariant a.kind a.args

end Action

namespace MatchMode

/-- Either in small or in capital letters. -/
def ofName? (s : String) : Option MatchMode :=
  if s = "all" ∨ s = "ALL" then some all
  else if s = "any" ∨ s = "ANY" then some any
  else none

def text : MatchMode → String
  | all => "all"
  | any => "any"

end MatchMode

namespace Rule

def record : Record (Option String × Rule) Rule where
  fields := ["name", "match_mode", "stop_on_match", "conditions", "actions"]
  draft := (none, { name := "" })
  take := fun (n, r) k j =>
    if k = "name" then (text j).map fun s => (some s, r)
    else if k = "match_mode" then (variant MatchMode.ofName? j).map fun m => (n, { r with mode := m })
    else if k = "stop_on_match" then (bool j).map fun b => (n, { r with stopOnMatch := b })
    else if k = "conditions" then (list Condition.ofJson j).map fun c => (n, { r with conditions := c })
    else (list Action.ofJson j).map fun a => (n, { r with actions := a })
  close := fun (n, r) => (required "name" n).map fun n => { r with name := n }

def ofJson : Decoder Rule := record.decode

def toJson (r : Rule) : Json := .obj [
  ("name", .str r.name),
  ("match_mode", .str r.mode.text),
  ("stop_on_match", .bool r.stopOnMatch),
  ("conditions", .arr (r.conditions.map Condition.toJson)),
  ("actions", .arr (r.actions.map Action.toJson))]

end Rule

namespace UserCategory

def record : Record (Option String × UserCategory) UserCategory where
  fields := ["name", "extensions", "enabled"]
  draft := (none, { name := "" })
  take := fun (n, c) k j =>
    if k = "name" then (text j).map fun s => (some s, c)
    else if k = "extensions" then (list text j).map fun e => (n, { c with extensions := e })
    else (bool j).map fun b => (n, { c with enabled := b })
  close := fun (n, c) => (required "name" n).map fun n => { c with name := n }

def toJson (c : UserCategory) : Json := .obj [
  ("name", .str c.name),
  ("extensions", .arr (c.extensions.map .str)),
  ("enabled", .bool c.enabled)]

end UserCategory

namespace CategoryRule

def record : Record (Option String × CategoryRule) CategoryRule where
  fields := ["keywords", "min_age_days", "category"]
  draft := (none, { category := "" })
  take := fun (n, r) k j =>
    if k = "keywords" then (list text j).map fun ks => (n, { r with keywords := ks })
    else if k = "min_age_days" then (optional (nat 64) j).map fun d => (n, { r with minAgeDays := d })
    else (text j).map fun s => (some s, r)
  close := fun (n, r) => (required "category" n).map fun n => { r with category := n }

def toJson (r : CategoryRule) : Json := .obj [
  ("keywords", .arr (r.keywords.map .str)),
  ("min_age_days", (r.minAgeDays.map Json.nat).getD .null),
  ("category", .str r.category)]

end CategoryRule

namespace Profile

/-- Every field may be left out. -/
def record : Record Profile Profile where
  fields := ["name", "rules", "custom_categories", "smart_rules", "disabled_categories"]
  draft := {}
  take := fun p k j =>
    if k = "name" then (text j).map fun s => { p with name := s }
    else if k = "rules" then (list Rule.ofJson j).map fun rs => { p with rules := rs }
    else if k = "custom_categories" then
      (list UserCategory.record.decode j).map fun c => { p with categories.custom := c }
    else if k = "smart_rules" then
      (list CategoryRule.record.decode j).map fun r => { p with categories.smart := r }
    else (list text j).map fun d => { p with categories.disabled := d }
  close := .ok

def ofJson : Decoder Profile := record.decode

def toJson (p : Profile) : Json := .obj [
  ("name", .str p.name),
  ("rules", .arr (p.rules.map Rule.toJson)),
  ("custom_categories", .arr (p.categories.custom.map UserCategory.toJson)),
  ("smart_rules", .arr (p.categories.smart.map CategoryRule.toJson)),
  ("disabled_categories", .arr (p.categories.disabled.map .str))]

/-- Reads a document and checks the rules in it. -/
def ofText (doc : String) : Except ProfileFault Profile :=
  match document ofJson doc with
  | .error e => .error (.invalid e)
  | .ok p => p.validate.map fun _ => p

/-- Where the rules of a batch come from: they are given, or read from a file each time. -/
inductive Source
  | given (p : Profile)
  | file (path : Path)

def Source.load (who : Actor) (t : Tree) : Source → Except ProfileFault Profile
  | given p => p.validate.map fun _ => p
  | file path =>
    match t.readText who.cwd path with
    | .error e => .error (.unreadable e)
    | .ok doc => ofText doc

end Profile

end FileOrganizer
