/-!
Text as lists of characters: search, replacement, trimming and the comparison that ignores the case
of the Latin letters.
-/

namespace FileOrganizer.Text

/-- Does `needle` stand somewhere in the text? -/
def occurs (needle : List Char) : List Char → Bool
  | [] => needle.isEmpty
  | c :: cs => needle.isPrefixOf (c :: cs) || occurs needle cs

/-- The text with each occurrence of `old` replaced, found from left to right and without overlap;
`skip` characters more belong to the occurrence just replaced. -/
def replaceFrom (old new : List Char) : Nat → List Char → List Char
  | _, [] => []
  | skip + 1, _ :: cs => replaceFrom old new skip cs
  | 0, c :: cs =>
    if old.isPrefixOf (c :: cs) then new ++ replaceFrom old new (old.length - 1) cs
    else c :: replaceFrom old new 0 cs

def replace (old new : String) (text : String) : String :=
  String.ofList (replaceFrom old.toList new.toList 0 text.toList)

/-- The characters with the Unicode property White_Space. -/
def isBlank (c : Char) : Bool :=
  let n := c.toNat
  (9 ≤ n && n ≤ 13) || n == 0x20 || n == 0x85 || n == 0xA0 || n == 0x1680 ||
  (0x2000 ≤ n && n ≤ 0x200A) || n == 0x2028 || n == 0x2029 || n == 0x202F || n == 0x205F ||
  n == 0x3000

def trimLeft (cs : List Char) : List Char := cs.dropWhile isBlank

def trimRight (cs : List Char) : List Char := (cs.reverse.dropWhile isBlank).reverse

def trim (cs : List Char) : List Char := trimRight (trimLeft cs)

/-- Equality up to the case of the letters A to Z. -/
def sameLetters (a b : String) : Bool :=
  a.toList.map Char.toLower == b.toList.map Char.toLower

/-- The pieces of the text between the separators, one more than there are separators. -/
def split (sep : Char) : List Char → List (List Char)
  | [] => [[]]
  | c :: cs =>
    if c = sep then [] :: split sep cs
    else match split sep cs with
      | [] => [[c]]
      | p :: ps => (c :: p) :: ps

/-- The text before and after the last `sep`; `none` if there is none. -/
def splitLast (sep : Char) (cs : List Char) : Option (List Char × List Char) :=
  match cs.reverse.span (· ≠ sep) with
  | (_, []) => none
  | (after, _ :: before) => some (before.reverse, after.reverse)

def join (sep : List Char) : List (List Char) → List Char
  | [] => []
  | [p] => p
  | p :: ps => p ++ sep ++ join sep ps

theorem split_ne_nil (sep : Char) (cs : List Char) : split sep cs ≠ [] := by
  cases cs with
  | nil => simp [split]
  | cons c cs =>
    by_cases h : c = sep
    · simp [split, h]
    · cases hs : split sep cs <;> simp [split, h, hs]

/-- Nothing is lost: the pieces with their separators are the text. -/
theorem join_split (sep : Char) (cs : List Char) : join [sep] (split sep cs) = cs := by
  induction cs with
  | nil => rfl
  | cons c cs ih =>
    cases hs : split sep cs with
    | nil => exact absurd hs (split_ne_nil sep cs)
    | cons p ps =>
      rw [hs] at ih
      by_cases h : c = sep
      · subst h
        simp [split, hs, join, ih]
      · cases ps with
        | nil => simpa [split, h, hs, join] using ih
        | cons q qs => simpa [split, h, hs, join] using ih

theorem mem_split {sep : Char} {cs p : List Char} (h : p ∈ split sep cs) : sep ∉ p := by
  induction cs generalizing p with
  | nil => simp_all [split]
  | cons c cs ih =>
    cases hs : split sep cs with
    | nil => exact absurd hs (split_ne_nil sep cs)
    | cons q qs =>
      by_cases hc : c = sep
      · rcases (by simpa [split, hs, hc] using h : p = [] ∨ p = q ∨ p ∈ qs) with rfl | hp | hp
        · simp
        · exact ih (by simp [hs, hp])
        · exact ih (by simp [hs, hp])
      · rcases (by simpa [split, hs, hc] using h : p = c :: q ∨ p ∈ qs) with rfl | hp
        · simpa [Ne.symm hc] using ih (p := q) (by simp [hs])
        · exact ih (by simp [hs, hp])

end FileOrganizer.Text
