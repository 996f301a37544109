import FileOrganizer.Host
import FileOrganizer.Text.Utf8
import FileOrganizer.Tree.Transfer

/-!
The programs that actions may launch: small file tools, and scripts made of them, which may stand in
files. Scripts know quotes, `;`, `&&`, `||` and output into files.
-/

namespace FileOrganizer.Shell

inductive Token
  | word (s : String)
  | output (append : Bool)
  | next
  | andThen
  | orElse
  deriving DecidableEq, Repr

inductive Quote | none | single | double

def flush : Option (List Char) → List Token
  | some cs => [.word (String.ofList cs.reverse)]
  | none => []

def grow (w : Option (List Char)) (c : Char) : Option (List Char) := some (c :: w.getD [])

/-- The tokens of a script; none if a quote is left open, or for signs that are not known. -/
def lex : Quote → Option (List Char) → List Char → Option (List Token)
  | .none, w, [] => some (flush w)
  | .single, _, [] => none
  | .double, _, [] => none
  | .single, w, c :: cs => if c = '\'' then lex .none (some (w.getD [])) cs else lex .single (grow w c) cs
  | .double, w, '\\' :: c :: cs =>
    if c = '"' ∨ c = '\\' ∨ c = '$' then lex .double (grow w c) cs
    else lex .double (grow (grow w '\\') c) cs
  | .double, w, c :: cs => if c = '"' then lex .none (some (w.getD [])) cs else lex .double (grow w c) cs
  | .none, w, '&' :: '&' :: cs => (lex .none none cs).map (flush w ++ Token.andThen :: ·)
  | .none, w, '|' :: '|' :: cs => (lex .none none cs).map (flush w ++ Token.orElse :: ·)
  | .none, w, '>' :: '>' :: cs => (lex .none none cs).map (flush w ++ Token.output true :: ·)
  | .none, w, '\\' :: c :: cs => lex .none (grow w c) cs
  | .none, w, c :: cs =>
    if c = '\'' then lex .single (some (w.getD [])) cs
    else if c = '"' then lex .double (some (w.getD [])) cs
    else if c = ' ' ∨ c = '\t' then (lex .none none cs).map (flush w ++ ·)
    else if c = ';' ∨ c = '\n' then (lex .none none cs).map (flush w ++ Token.next :: ·)
    else if c = '>' then (lex .none none cs).map (flush w ++ Token.output false :: ·)
    else if c = '&' ∨ c = '|' then none
    else lex .none (grow w c) cs

/-- When a command of a script is run: always, or if the one before it succeeded or failed. -/
inductive When | always | success | failure

structure Simple where
  when : When := .always
  words : List String := []
  outputs : List (Bool × String) := []

def commands (c : Simple) : List Token → Option (List Simple)
  | [] => some [c]
  | .word s :: ts => commands { c with words := c.words ++ [s] } ts
  | .output a :: .word s :: ts => commands { c with outputs := c.outputs ++ [(a, s)] } ts
  | .output _ :: _ => none
  | .next :: ts => (commands {} ts).map (c :: ·)
  | .andThen :: ts => (commands { when := .success } ts).map (c :: ·)
  | .orElse :: ts => (commands { when := .failure } ts).map (c :: ·)

/-- How a command ends: with a code, with the end of the whole script, by a signal, or too late. -/
inductive Ending
  | code (n : Nat)
  | exit (n : Nat)
  | signal
  | late

structure Run where
  tree : Tree
  sleptMs : Nat := 0

variable (who : Actor)

def ofChange (r : Run) (f : Tree → Except OsError Tree) : Ending × Run :=
  match f r.tree with
  | .ok t => (.code 0, { r with tree := t })
  | .error _ => (.code 1, r)

/-- Runs a tool on each of its operands; the code is the last that is not zero. -/
def each (f : String → Run → Ending × Run) : List String → Nat → Run → Ending × Run
  | [], n, r => (.code n, r)
  | x :: xs, n, r =>
    match f x r with
    | (.code 0, r) => each f xs n r
    | (.code m, r) => each f xs m r
    | e => e

def options (args : List String) : List Char :=
  ((args.filter fun a => a.toList.head? = some '-').map fun a => a.toList.drop 1).flatten

def operands (args : List String) : List String := args.filter fun a => a.toList.head? ≠ some '-'

def removeOne (args : List String) (x : String) (r : Run) : Ending × Run :=
  let flags := options args
  if flags.contains 'f' && !(r.tree.locate who.cwd false ⟨x⟩ matches .ok ⟨_, some _⟩) then (.code 0, r)
  else if flags.contains 'r' || flags.contains 'R' then ofChange r (Tree.removeAll who ⟨x⟩)
  else ofChange r (Tree.removeFile who ⟨x⟩)

/-- A directory as the target stands for the file of the same name in it. -/
def into (t : Tree) (source : String) (target : Path) : Path :=
  if t.isDir who.cwd target then target.child (Path.fileName ⟨source⟩) else target

def copyOne (target : Path) (x : String) (r : Run) : Ending × Run :=
  let p := into who r.tree x target
  match r.tree.stat who.cwd ⟨x⟩ with
  | .ok (_, .file b a) =>
    match Tree.writeFile who p b r.tree with
    | .error _ => (.code 1, r)
    | .ok t =>
      if r.tree.has who.cwd p then (.code 0, { r with tree := t })
      else ofChange { r with tree := t } (Tree.setAttrs who p fun now => { now with readOnly := a.readOnly })
  | _ => (.code 1, r)

def moveOne (target : Path) (x : String) (r : Run) : Ending × Run :=
  ofChange r (Tree.rename who ⟨x⟩ (into who r.tree x target))

def transfer (f : Path → String → Run → Ending × Run) (args : List String) (r : Run) : Ending × Run :=
  match (operands args).getLast?, (operands args).dropLast with
  | some target, x :: xs => each (f ⟨target⟩) (x :: xs) 0 r
  | _, _ => (.code 1, r)

def touchOne (x : String) (r : Run) : Ending × Run :=
  if r.tree.has who.cwd ⟨x⟩ then
    ofChange r (Tree.setAttrs who ⟨x⟩ fun a => { a with mtime := who.now })
  else ofChange r (Tree.writeFile who ⟨x⟩ .empty)

def makeDir (args : List String) (x : String) (r : Run) : Ending × Run :=
  if (options args).contains 'p' then
    match Disk.makeDirs who ⟨x⟩ r.tree with
    | (.ok (), t) => (.code 0, { r with tree := t })
    | (.error _, t) => (.code 1, { r with tree := t })
  else ofChange r (Tree.makeDir who ⟨x⟩)

/-- Milliseconds in a number of seconds that may have a fraction. -/
def milliseconds? (s : String) : Option Nat :=
  match Text.split '.' s.toList with
  | [w] => (String.ofList w).toNat?.map (· * 1000)
  | [w, f] => do
    let w ← if w = [] then some 0 else (String.ofList w).toNat?
    let f ← (String.ofList ((f ++ ['0', '0', '0']).take 3)).toNat?
    some (w * 1000 + f)
  | _ => none

def sleep (limitMs : Nat) (args : List String) (r : Run) : Ending × Run :=
  match args.mapM milliseconds? with
  | none => (.code 1, r)
  | some ns =>
    let total := ns.foldl (· + ·) r.sleptMs
    if 0 < total ∧ limitMs ≤ total then (.late, { r with sleptMs := total })
    else (.code 0, { r with sleptMs := total })

def test (args : List String) (r : Run) : Bool :=
  match args with
  | ["-e", p] => r.tree.has who.cwd ⟨p⟩
  | ["-f", p] => (r.tree.stat who.cwd ⟨p⟩ matches .ok (_, .file ..) : Bool)
  | ["-d", p] => r.tree.isDir who.cwd ⟨p⟩
  | ["-z", s] => s = ""
  | ["-n", s] => s ≠ ""
  | [a, "=", b] => a = b
  | [a, "!=", b] => a ≠ b
  | [s] => s ≠ ""
  | _ => false

def concat (args : List String) (r : Run) : Nat × ByteArray :=
  args.foldl (fun (n, out) a => match r.tree.read who.cwd ⟨a⟩ with
    | .ok b => (n, out ++ b)
    | .error _ => (1, out)) (0, .empty)

/-- The tools, apart from scripts. Also gives what a tool prints. -/
def tool? (limitMs : Nat) (name : String) (args : List String) (r : Run) :
    Option (ByteArray × Ending × Run) :=
  let silent (e : Ending × Run) : Option (ByteArray × Ending × Run) := some (.empty, e)
  match name with
  | "true" | ":" => silent (.code 0, r)
  | "false" => silent (.code 1, r)
  | "echo" =>
    match args with
    | "-n" :: rest => some ((String.intercalate " " rest).toUTF8, .code 0, r)
    | _ => some ((String.intercalate " " args ++ "\n").toUTF8, .code 0, r)
  | "cat" =>
    let (n, out) := concat who args r
    some (out, .code n, r)
  | "rm" => silent (each (removeOne who args) (operands args) 0 r)
  | "rmdir" => silent (each (fun x r => ofChange r (Tree.removeDir who ⟨x⟩)) (operands args) 0 r)
  | "mkdir" => silent (each (makeDir who args) (operands args) 0 r)
  | "touch" => silent (each (touchOne who) (operands args) 0 r)
  | "cp" => silent (transfer (copyOne who) args r)
  | "mv" => silent (transfer (moveOne who) args r)
  | "sleep" => silent (sleep limitMs args r)
  | "test" => silent (.code (if test who args r then 0 else 1), r)
  | _ => none

/-- What only a script can do: end itself. -/
def builtIn? (name : String) (args : List String) (last : Nat) (r : Run) : Option (Ending × Run) :=
  match name, args with
  | "exit", [n] => some (.exit ((n.toNat?.getD 2) % 256), r)
  | "exit", _ => some (.exit last, r)
  | "kill", args => if args.getLast? = some "$$" then some (.signal, r) else some (.code 1, r)
  | "[", args =>
    if args.getLast? = some "]" then some (.code (if test who args.dropLast r then 0 else 1), r)
    else some (.code 2, r)
  | _, _ => none

def write (append : Bool) (file : Path) (out : ByteArray) (t : Tree) : Except OsError Tree :=
  if file.text = "/dev/null" then .ok t
  else if append then
    match t.read who.cwd file with
    | .ok b => Tree.writeFile who file (b ++ out) t
    | .error .notFound => Tree.writeFile who file out t
    | .error e => .error e
  else Tree.writeFile who file out t

/-- All files for output are made; the last one takes it. -/
def writeAll : List (Bool × String) → ByteArray → Run → Bool × Run
  | [], _, r => (true, r)
  | (a, p) :: rest, out, r =>
    match write who a ⟨p⟩ (if rest.isEmpty then out else .empty) r.tree with
    | .error _ => (false, r)
    | .ok t => writeAll rest out { r with tree := t }

def isScript (name : String) : Bool := name = "sh" || name = "bash"

def baseName (program : String) : String :=
  if program.startsWith "/bin/" then (program.drop 5).toString
  else if program.startsWith "/usr/bin/" then (program.drop 9).toString
  else program

/-- The text of a script, which is given as it is or in a file. -/
def scriptText? (r : Run) : List String → Option (List Char)
  | "-c" :: text :: _ => some text.toList
  | [] | ["-c"] => none
  | file :: _ => (r.tree.read who.cwd ⟨file⟩).toOption.map fun b => Utf8.decodeLossy b.data.toList

mutual

def command (limitMs : Nat) : Nat → String → List String → Run → ByteArray × Ending × Run
  | 0, _, _, r => (.empty, .code 127, r)
  | fuel + 1, name, args, r =>
    if isScript name then
      match scriptText? who r args with
      | some text =>
        match (lex .none none text).bind (commands {}) with
        | none => (.empty, .code 2, r)
        | some cs =>
          match script limitMs fuel cs 0 r with
          | (out, .exit n, r) => (out, .code n, r)
          | res => res
      | none => (.empty, .code 127, r)
    else (tool? who limitMs name args r).getD (.empty, .code 127, r)

def script (limitMs : Nat) : Nat → List Simple → Nat → Run → ByteArray × Ending × Run
  | 0, _, last, r => (.empty, .code last, r)
  | _, [], last, r => (.empty, .code last, r)
  | fuel + 1, c :: cs, last, r =>
    let due := match c.when with
      | .always => true
      | .success => last == 0
      | .failure => last != 0
    if !due then script limitMs fuel cs last r
    else
      let (out, ending, r) : ByteArray × Ending × Run := match c.words with
        | [] => (.empty, .code (if c.outputs.isEmpty then last else 0), r)
        | name :: args =>
          match builtIn? who name args last r with
          | some (e, r) => (.empty, e, r)
          | none => command limitMs fuel (baseName name) args r
      let (written, r) := writeAll who c.outputs out r
      let out := if c.outputs.isEmpty then out else .empty
      match ending with
      | .code n =>
        let (more, e, r) := script limitMs fuel cs (if written then n else 2) r
        (out ++ more, e, r)
      | e => (out, e, r)

end

def known : List String := ["true", "false", "echo", "cat", "rm", "rmdir", "mkdir", "touch", "cp", "mv",
  "sleep", "test", "sh", "bash"]

/-- Why a program cannot be started, if it cannot. -/
def refusal? (program : String) (t : Tree) : Option OsError :=
  if known.contains (baseName program) then none
  else if program.toList.contains '/' then
    match t.stat who.cwd ⟨program⟩ with
    | .error e => some e
    | .ok _ => some .denied
  else some .notFound

/-- Runs a program for at most so many seconds. A program that is killed has code -1. -/
def launch (program : String) (args : List String) (timeout : Nat) (t : Tree) : Except Fault Int × Tree :=
  match refusal? who program t with
  | some e => (.error (.cannotStart program e), t)
  | none =>
    -- No script has more commands than letters.
    let size := t.entries.foldl (fun n e => n + e.2.size) (args.foldl (fun n a => n + a.length) 0)
    match command who (timeout * 1000) (size + 8) (baseName program) args { tree := t } with
    | (_, .code n, r) => (.ok n, r.tree)
    | (_, .exit n, r) => (.ok n, r.tree)
    | (_, .signal, r) => (.ok (-1), r.tree)
    | (_, .late, r) => (.error (.timeout timeout), r.tree)

end FileOrganizer.Shell
