import FileOrganizer.File.Descriptor

/-!
Templates of names and paths, with variables in braces that stand for facts about a file.
-/

namespace FileOrganizer.Template

def withoutDots (ext : String) : String := String.ofList (ext.toList.dropWhile (· == '.'))

/-- The variables with their values, in the order in which they are filled in. -/
def values (f : FileInfo) : List (String × String) :=
  let d := f.modified.date
  [("\x7bname\x7d", f.stem),
   ("\x7bextension\x7d", withoutDots f.ext),
   ("\x7bext\x7d", f.ext),
   ("\x7byear\x7d", Date.yearText d.year),
   ("\x7bmonth\x7d", padded 2 d.month),
   ("\x7bday\x7d", padded 2 d.day),
   ("\x7bdate\x7d", d.text),
   ("\x7bparent\x7d", f.parent.fileName),
   ("\x7bpath\x7d", f.path.text)]

/-- One variable after the other is filled in, so a value may bring in variables that come later. -/
def render (template : String) (f : FileInfo) : String :=
  (values f).foldl (fun s (var, value) => Text.replace var value s) template

/-- The directory that a template names; a relative one is inside `root`. -/
def directory (template : String) (f : FileInfo) (root : Path) : Path :=
  root.join ⟨render template f⟩

end FileOrganizer.Template
