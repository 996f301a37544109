import FileOrganizer.Path

/-!
The arguments of the program.
-/

namespace FileOrganizer

structure FolderArgs where
  folder : Path
  profile : Option Path := none
  recursive : Bool := false
  dryRun : Bool := false
  safeMode : Bool := false
  copy : Bool := false
  includeHidden : Bool := false
  noFallback : Bool := false
  workers : Option Nat := none
  json : Bool := false
  deriving DecidableEq, Repr

inductive Command
  | preview (args : FolderArgs)
  | organize (args : FolderArgs)
  | undo (folder : Path)
  | watch (args : FolderArgs)
  | cleanupTags
  deriving DecidableEq, Repr

inductive Request
  | help
  | version
  | run (config : Option Path) (command : Command)
  deriving DecidableEq, Repr

namespace Request

/-- Why reading the arguments ends before their end. -/
inductive Stop | usage | help | version

/-- What may stand in a row of arguments: options alone, options with a value, and so many others. -/
structure Form where
  flags : List String
  options : List String
  positionals : Nat
  hasVersion : Bool := false

structure Found where
  flags : List String := []
  options : List (String × String) := []
  positionals : List String := []

/-- A number of 64 bits, perhaps with a plus sign. -/
def number? (s : String) : Option Nat :=
  let digits := match s.toList with
    | '+' :: ds => ds
    | ds => ds
  if digits ≠ [] && digits.all (fun c => '0' ≤ c && c ≤ '9') then
    let n := digits.foldl (fun n d => n * 10 + (d.toNat - '0'.toNat)) 0
    if n < Nat.pow 2 64 then some n else none
  else none

def isValue (name value : String) : Bool :=
  if name = "--workers" then (number? value).isSome else value ≠ ""

def addOption (f : Found) (name value : String) : Except Stop Found :=
  if f.options.any (·.1 = name) || !isValue name value then .error .usage
  else .ok { f with options := f.options ++ [(name, value)] }

def addPositional (form : Form) (f : Found) (value : String) : Except Stop Found :=
  if f.positionals.length < form.positionals && value ≠ "" then
    .ok { f with positionals := f.positionals ++ [value] }
  else .error .usage

/-- An option's value may be joined to it by an equals sign. -/
def cutOption (arg : String) : String × Option String :=
  match arg.toList.span (· ≠ '=') with
  | (name, _ :: value) => (String.ofList name, some (String.ofList value))
  | (_, []) => (arg, none)

def looksLikeOption (arg : String) : Bool := arg.toList.head? = some '-' && arg ≠ "-"

/-- Reads the arguments of one level; `waiting` is an option whose value comes next. At the level above
the commands the first argument that is no option is left, with all behind it. -/
def scan (form : Form) (nested : Bool) :
    Option String → Found → List String → Except Stop (Found × List String)
  | none, f, [] => .ok (f, [])
  | some _, _, [] => .error .usage
  | some name, f, v :: rest =>
    if looksLikeOption v then .error .usage
    else match addOption f name v with
      | .error e => .error e
      | .ok f => scan form nested none f rest
  | none, f, arg :: rest =>
    if arg = "--" then (rest.foldlM (addPositional form) f).map (·, [])
    else if looksLikeOption arg then
      match cutOption arg with
      | ("--help", none) => .error .help
      | ("--version", none) => .error (if form.hasVersion then .version else .usage)
      | (name, value) =>
        if form.flags.contains name then
          if value.isSome || f.flags.contains name then .error .usage
          else scan form nested none { f with flags := name :: f.flags } rest
        else if form.options.contains name then
          match value with
          | none => scan form nested (some name) f rest
          | some v =>
            match addOption f name v with
            | .error e => .error e
            | .ok f => scan form nested none f rest
        else match arg.toList with
          | '-' :: 'h' :: _ => .error .help
          | '-' :: 'V' :: _ => .error (if form.hasVersion then .version else .usage)
          | _ => .error .usage
    else if nested then
      match addPositional form f arg with
      | .error e => .error e
      | .ok f => scan form nested none f rest
    else .ok (f, arg :: rest)

def option? (f : Found) (name : String) : Option String :=
  (f.options.find? (·.1 = name)).map (·.2)

def topForm : Form := { flags := [], options := ["--config"], positionals := 0, hasVersion := true }

def runForm : Form where
  flags := ["--recursive", "--dry-run", "--safe-mode", "--copy", "--include-hidden", "--no-fallback", "--json"]
  options := ["--config", "--profile", "--workers"]
  positionals := 1

def folderForm : Form := { flags := [], options := ["--config"], positionals := 1 }

def bareForm : Form := { flags := [], options := ["--config"], positionals := 0 }

def folderArgs (f : Found) (folder : String) : FolderArgs where
  folder := ⟨folder⟩
  profile := (option? f "--profile").map Path.mk
  recursive := f.flags.contains "--recursive"
  dryRun := f.flags.contains "--dry-run"
  safeMode := f.flags.contains "--safe-mode"
  copy := f.flags.contains "--copy"
  includeHidden := f.flags.contains "--include-hidden"
  noFallback := f.flags.contains "--no-fallback"
  workers := (option? f "--workers").bind number?
  json := f.flags.contains "--json"

def onFolder (make : Found → String → Command) (f : Found) : Except Stop Command :=
  match f.positionals with
  | [folder] => .ok (make f folder)
  | _ => .error .usage

/-- The commands, what may stand behind them, and what is made of it. -/
def commands : List (String × Form × (Found → Except Stop Command)) := [
  ("preview", runForm, onFolder fun f d => .preview (folderArgs f d)),
  ("organize", runForm, onFolder fun f d => .organize (folderArgs f d)),
  ("undo", folderForm, onFolder fun _ d => .undo ⟨d⟩),
  ("watch", runForm, onFolder fun f d => .watch (folderArgs f d)),
  ("cleanup-tags", bareForm, fun _ => .ok .cleanupTags)]

def parse (args : List String) : Except Stop Request := do
  let (top, rest) ← scan topForm false none {} args
  match rest with
  | [] => .error .usage
  | "help" :: names =>
    if names.all fun n => n = "help" || commands.any (·.1 = n) then .error .help else .error .usage
  | name :: rest =>
    match commands.find? (·.1 = name) with
    | none => .error .usage
    | some (_, form, make) =>
      let (f, _) ← scan form true none {} rest
      let command ← make f
      let config := option? f "--config" <|> option? top "--config"
      .ok (.run (config.map Path.mk) command)

/-- None for arguments that are not understood. -/
def ofArgs? (args : List String) : Option Request :=
  match parse args with
  | .ok r => some r
  | .error .help => some .help
  | .error .version => some .version
  | .error .usage => none

end Request

end FileOrganizer
