import FileOrganizer.Pattern.Reader
import FileOrganizer.Rules.Category
import FileOrganizer.Tags.Pending

/-!
Conditions on files, and when a file satisfies one. What cannot be read does not satisfy anything.
-/

namespace FileOrganizer

inductive Condition
  | nameContains (text : String)
  | nameStartsWith (text : String)
  | nameEndsWith (text : String)
  | nameEquals (text : String)
  | regexMatch (pattern : Pattern)
  | extensionIs (extensions : List String)
  | sizeGreaterThan (bytes : Nat)
  | ageGreaterThan (days : Nat)
  | modifiedBefore (date : Instant)
  | isHidden
  | isReadOnly
  | isDirectory
  | parentContains (text : String)
  | contentContains (text : String)
  | colorIs (color : String)
  | hasTag (tag : String)
  | fieldEquals (field value : String)
  | isDuplicate
  deriving DecidableEq

/-- What a condition looks at besides the file: the tree and the tag store. -/
structure Sight where
  host : Host
  tree : Tree
  view : View

namespace Condition

/-- So many bytes of a content are searched. -/
def contentLimit : Nat := 1024 * 1024

/-- Facts about a file that stand in for fields that nobody set. -/
def builtInField (s : Sight) (f : FileInfo) (name : String) : Option String :=
  if name = "name" then some f.name
  else if name = "stem" then some f.stem
  else if name = "extension" then some f.ext
  else if name = "size" then some (toString f.size)
  else if name = "mime" then
    (FileKind.ofPath? s.host s.tree (s.view.origin s.host f.path)).map FileKind.mime
  else if name = "color" then s.view.color s.host f.path
  else none

def field (s : Sight) (f : FileInfo) (name : String) : Option String :=
  s.view.field s.host f.path name <|> builtInField s f name

def trimmed (s : String) : String := String.ofList (Text.trim s.toList)

def lowerList (s : String) : List Char := (Text.lower s).toList

/-- Names are compared in small letters. -/
def holds (s : Sight) (f : FileInfo) : Condition → Bool
  | nameContains text => occursLower text f.stem
  | nameStartsWith text => (lowerList text).isPrefixOf (lowerList f.stem)
  | nameEndsWith text => (lowerList text).isSuffixOf (lowerList f.stem)
  | nameEquals text => Text.lower f.stem == Text.lower text
  | regexMatch p => p.matches? f.name
  | extensionIs es => f.ext ≠ "" && es.any fun e => Category.normalExt e == f.ext
  | sizeGreaterThan n => n < f.size
  | ageGreaterThan d => signed64 d < f.modified.daysUntil s.host.now
  | modifiedBefore t => f.modified.before t
  | isHidden => f.hidden
  | isReadOnly => f.readOnly
  | isDirectory => f.isDir
  | parentContains text =>
    match f.parent.fileName? with
    | some n => occursLower text n
    | none => false
  | contentContains text =>
    !f.isDir && match Content.text s.host s.tree contentLimit (s.view.origin s.host f.path) with
      | .ok content => occursLower text content
      | .error _ => false
  | colorIs c =>
    match s.view.color s.host f.path with
    | some now => Text.sameLetters now c
    | none => false
  | hasTag t => (s.view.tags s.host f.path).contains t
  | fieldEquals name value =>
    match field s f name with
    | some actual => Text.sameLetters (trimmed actual) (trimmed value)
    | none => false
  | isDuplicate => !f.isDir && s.view.twin? s.host f.path s.tree matches .ok (some _)

def kind : Condition → String
  | nameContains _ => "NameContains"
  | nameStartsWith _ => "NameStartsWith"
  | nameEndsWith _ => "NameEndsWith"
  | nameEquals _ => "NameEquals"
  | regexMatch _ => "RegexMatch"
  | extensionIs _ => "ExtensionIs"
  | sizeGreaterThan _ => "FileSizeGreaterThan"
  | ageGreaterThan _ => "FileAgeGreaterThan"
  | modifiedBefore _ => "LastModifiedBefore"
  | isHidden => "IsHidden"
  | isReadOnly => "IsReadOnly"
  | isDirectory => "IsDirectory"
  | parentContains _ => "ParentFolderContains"
  | contentContains _ => "ContentContains"
  | colorIs _ => "ColorIs"
  | hasTag _ => "HasTag"
  | fieldEquals .. => "MetadataFieldEquals"
  | isDuplicate => "IsDuplicate"

end Condition

end FileOrganizer
