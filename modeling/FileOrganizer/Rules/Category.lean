import FileOrganizer.File.Descriptor
import FileOrganizer.Ordered

/-!
Categories of files: the categories a user makes, the rules on keywords and age, and the built-in
table of extensions.
-/

namespace FileOrganizer

structure UserCategory where
  name : String
  extensions : List String := []
  enabled : Bool := true
  deriving DecidableEq, Repr

/-- Files with one of the keywords in their stem and at least this age belong to the category. -/
structure CategoryRule where
  keywords : List String := []
  minAgeDays : Option Nat := none
  category : String
  deriving DecidableEq, Repr

/-- What a user says about categories. -/
structure Categories where
  custom : List UserCategory := []
  smart : List CategoryRule := []
  disabled : List String := []
  deriving DecidableEq, Repr

/-- A count of days, or any 64 bits, as a signed number. -/
def signed64 (n : Nat) : Int := Int.bmod n (Nat.pow 2 64)

/-- Is `needle` somewhere in `text`, in any case? -/
def occursLower (needle text : String) : Bool :=
  Text.occurs (Text.lower needle).toList (Text.lower text).toList

namespace CategoryRule

/-- A rule that asks for nothing matches nothing. -/
def matches? (r : CategoryRule) (f : FileInfo) (now : Instant) : Bool :=
  (!r.keywords.isEmpty || r.minAgeDays.isSome) &&
  (r.keywords.isEmpty || r.keywords.any fun k => occursLower k f.stem) &&
  (r.minAgeDays.map fun d => decide (signed64 d ≤ f.modified.daysUntil now)).getD true

end CategoryRule

namespace Category

/-- Small letters, with a dot in front if there is anything. -/
def normalExt (ext : String) : String :=
  let e := Text.lower (String.ofList (Text.trim ext.toList))
  if e = "" ∨ e.toList.head? = some '.' then e else "." ++ e

def fallback : String := "Other"

def builtIn : List (String × List String) := [
  ("PDF", [".pdf"]),
  ("Images", [".jpg", ".jpeg", ".png", ".gif", ".bmp", ".webp", ".svg", ".ico", ".heic", ".heif",
    ".tif", ".tiff", ".raw"]),
  ("Videos", [".mp4", ".avi", ".mkv", ".mov", ".wmv", ".flv", ".webm", ".m4v"]),
  ("Music", [".mp3", ".wav", ".flac", ".aac", ".ogg", ".wma", ".m4a"]),
  ("Documents", [".doc", ".docx", ".txt", ".md", ".rtf", ".odt", ".pages", ".epub"]),
  ("Spreadsheets", [".xls", ".xlsx", ".csv", ".ods", ".numbers"]),
  ("Presentations", [".ppt", ".pptx", ".odp", ".key"]),
  ("Archives", [".zip", ".rar", ".7z", ".tar", ".gz", ".bz2", ".xz"]),
  ("Code", [".rs", ".py", ".js", ".ts", ".java", ".c", ".cpp", ".h", ".go", ".rb", ".sh", ".json",
    ".yaml", ".yml", ".toml", ".html", ".css"]),
  ("Executables", [".exe", ".msi", ".dmg", ".pkg", ".deb", ".rpm", ".appimage"]),
  ("Fonts", [".ttf", ".otf", ".woff", ".woff2"])]

def builtInFor? (ext : String) : Option String :=
  (builtIn.find? fun c => c.2.contains (normalExt ext)).map (·.1)

end Category

namespace Categories

variable (c : Categories)

/-- Names are compared in any case of the letters A to Z. -/
def custom? (name : String) : Option UserCategory :=
  c.custom.find? fun x => Text.sameLetters x.name name

def isDisabled (name : String) : Bool := c.disabled.any fun d => Text.sameLetters d name

/-- A category that the user makes says itself whether it is enabled. -/
def isEnabled (name : String) : Bool :=
  match c.custom? name with
  | some x => x.enabled
  | none => !c.isDisabled name

def byExtension? (ext : String) : Option String :=
  if ext = "" then none
  else (c.custom.find? fun x => x.enabled && x.extensions.any fun e => Category.normalExt e == ext).map
    (·.name)

def bySmartRule? (f : FileInfo) (now : Instant) : Option String :=
  (c.smart.find? fun r => r.matches? f now && c.isEnabled r.category).map (·.category)

/-- A category that the user makes takes the place of the built-in one of its name. -/
def builtIn? (ext : String) : Option String :=
  (Category.builtInFor? ext).filter fun n => (c.custom? n).isNone && !c.isDisabled n

/-- The category of a file: the user's own categories come first, then the rules, then the table. -/
def resolve (f : FileInfo) (now : Instant) : String :=
  (c.byExtension? f.ext <|> c.bySmartRule? f now <|> c.builtIn? f.ext).getD Category.fallback

/-- Every name that a file's category may have, in order. -/
def known : List String :=
  (Category.fallback :: Category.builtIn.map (·.1) ++ c.custom.map (·.name) ++
    c.smart.map (·.category)).foldr insertText []

end Categories

end FileOrganizer
