import FileOrganizer.Text.Basic

/-!
File names: stem and extension, and the numbered variants of a name.
-/

namespace FileOrganizer.FileName

/-- The text before the last dot and after it. A dot at the front makes no extension. -/
def cut (name : String) : String × Option String :=
  if name = ".." then (name, none)
  else match Text.splitLast '.' name.toList with
    | none => (name, none)
    | some ([], _) => (name, none)
    | some (stem, ext) => (String.ofList stem, some (String.ofList ext))

/-- The name with a number before its last dot, unless the dot is at the front; number 0 is the name
itself. -/
def numbered (name : String) (n : Nat) : String :=
  if n = 0 then name
  else match Text.splitLast '.' name.toList with
    | some (c :: cs, ext) => String.ofList (c :: cs) ++ "_" ++ toString n ++ "." ++ String.ofList ext
    | _ => name ++ "_" ++ toString n

example : numbered "archive.tar.gz" 1 = "archive.tar_1.gz" ∧ numbered ".bashrc" 2 = ".bashrc_2" := by
  decide

end FileOrganizer.FileName
