import FileOrganizer.Path
import Mathlib.Data.List.Basic
import Mathlib.Tactic.Lemma
import Mathlib.Tactic.Push
import Mathlib.Tactic.SplitIfs

/-! The parts of a path: how they come from its pieces, and what joining paths does to them. -/

namespace FileOrganizer

namespace Text

variable {sep : Char} {cs ds : List Char}

lemma split_of_not_mem (h : sep ∉ cs) : split sep cs = [cs] := by
  induction cs with
  | nil => rfl
  | cons c cs ih =>
    have hc : c ≠ sep := fun hc => h (by simp [hc])
    have hcs : sep ∉ cs := fun hcs => h (by simp [hcs])
    simp [split, hc, ih hcs]

/-- What comes before the first separator is put before the first piece. -/
lemma split_cons_of_not_mem {x : List Char} {xs : List (List Char)} (h : sep ∉ cs) (hsplit : split sep ds = x :: xs) :
    split sep (cs ++ ds) = (cs ++ x) :: xs := by
  induction cs with
  | nil => exact hsplit
  | cons c cs ih =>
    rw [List.mem_cons, not_or] at h
    rw [List.cons_append, split, if_neg (Ne.symm h.1), ih h.2]
    rfl

lemma split_append : split sep (cs ++ sep :: ds) = split sep cs ++ split sep ds := by
  induction cs with
  | nil => simp [split]
  | cons c cs ih =>
    by_cases hc : c = sep
    · simp [split, hc, ih]
    · cases hs : split sep cs with
      | nil => exact absurd hs (split_ne_nil sep cs)
      | cons p ps => simp [split, hc, ih, hs]

/-- Pieces without a separator in them are found again. -/
lemma split_join {ps : List (List Char)} (hne : ps ≠ []) (h : ∀ p ∈ ps, sep ∉ p) :
    split sep (join [sep] ps) = ps := by
  induction ps with
  | nil => exact absurd rfl hne
  | cons p ps ih =>
    have hp : split sep p = [p] := split_of_not_mem (h p (by simp))
    cases ps with
    | nil => simpa [join] using hp
    | cons q qs =>
      have hrest := ih (by simp) fun r hr => h r (List.mem_cons_of_mem _ hr)
      have hj : join [sep] (p :: q :: qs) = p ++ sep :: join [sep] (q :: qs) := by simp [join]
      rw [hj, split_append, hp, hrest]
      rfl

lemma split_eq_single_nil : split sep cs = [[]] ↔ cs = [] := by
  cases cs with
  | nil => simp [split]
  | cons c cs =>
    by_cases hc : c = sep
    · simp [split, hc, split_ne_nil]
    · cases hs : split sep cs <;> simp [split, hc, hs]

end Text

/-- A name that can stand in a directory. -/
def Proper (n : String) : Prop := n ≠ "" ∧ n ≠ "." ∧ n ≠ ".." ∧ '/' ∉ n.toList

instance {n : String} : Decidable (Proper n) := inferInstanceAs (Decidable (_ ∧ _ ∧ _ ∧ _))

namespace Path

variable {p q : Path} {n : String}

lemma chars_eq_nil : p.chars = [] ↔ p.text = "" := by
  simp [chars]

lemma pieces_ne_nil : p.pieces ≠ [] := Text.split_ne_nil _ _

lemma pieces_eq_single_nil : p.pieces = [[]] ↔ p.text = "" := by
  rw [pieces, Text.split_eq_single_nil, chars_eq_nil]

lemma isAbsolute_iff : p.isAbsolute = true ↔ ∃ q qs, p.pieces = [] :: q :: qs := by
  unfold isAbsolute pieces
  cases hc : p.chars with
  | nil => simp [Text.split]
  | cons c cs =>
    by_cases h : c = '/'
    · cases hs : Text.split '/' cs with
      | nil => exact absurd hs (Text.split_ne_nil _ _)
      | cons q qs => simp [Text.split, h, hs]
    · cases hs : Text.split '/' cs <;> simp [Text.split, h, hs]

/-- What the pieces of a path begin with, besides its ordinary parts. -/
def leadPart : List (List Char) → Option Part
  | [] => none
  | x :: xs => if x = [] ∧ xs ≠ [] then some .root else if x = ['.'] then some .here else none

/-- The ordinary parts of a path. -/
def body (p : Path) : List Part := p.pieces.filterMap part?

/-- A leading piece that is empty or a dot is no ordinary part. -/
lemma parts_eq : p.parts = (leadPart p.pieces).toList ++ p.body := by
  unfold parts lead body
  by_cases ha : p.isAbsolute
  · obtain ⟨q, qs, hp⟩ := isAbsolute_iff.1 ha
    simp [ha, hp, leadPart, part?]
  · have hnot : ∀ q qs, p.pieces ≠ [] :: q :: qs := fun q qs h => ha (isAbsolute_iff.2 ⟨q, qs, h⟩)
    rw [if_neg ha]
    cases hp : p.pieces with
    | nil => simp [leadPart]
    | cons x xs =>
      have hroot : ¬(x = [] ∧ xs ≠ []) := by
        rintro ⟨rfl, hxs⟩
        obtain ⟨y, ys, rfl⟩ := List.exists_cons_of_ne_nil hxs
        exact hnot y ys hp
      by_cases hx : x = ['.']
      · subst hx
        simp [leadPart, part?]
      · simp only [leadPart, hroot, hx, if_false]
        split
        · next ps h =>
          cases h
          exact absurd rfl hx
        · rfl

lemma leadPart_append {xs ys : List (List Char)} (hx : xs ≠ []) (hx' : xs ≠ [[]]) :
    leadPart (xs ++ ys) = leadPart xs := by
  cases xs with
  | nil => exact absurd rfl hx
  | cons x xs =>
    by_cases hxs : xs = []
    · subst hxs
      have hx0 : x ≠ [] := fun h => hx' (by rw [h])
      simp [leadPart, hx0]
    · simp [leadPart, hxs]

lemma leadPart_append_congr {xs ys zs : List (List Char)} (hx : xs ≠ []) (hy : ys ≠ []) (hz : zs ≠ []) :
    leadPart (xs ++ ys) = leadPart (xs ++ zs) := by
  cases xs with
  | nil => exact absurd rfl hx
  | cons x xs => simp [leadPart, hy, hz]

lemma endsInSlash_iff : p.endsInSlash = true ↔ ∃ cs, p.chars = cs ++ ['/'] := by
  simp [endsInSlash, List.getLast?_eq_some_iff]

lemma pieces_of_endsInSlash (h : p.endsInSlash = true) : ∃ xs, xs ≠ [] ∧ p.pieces = xs ++ [[]] := by
  obtain ⟨cs, hcs⟩ := endsInSlash_iff.1 h
  refine ⟨Text.split '/' cs, Text.split_ne_nil _ _, ?_⟩
  rw [pieces, hcs, Text.split_append]
  rfl

lemma chars_join (hp : p.text ≠ "") (hq : q.isAbsolute = false) :
    (p.join q).chars = if p.endsInSlash then p.chars ++ q.chars else p.chars ++ '/' :: q.chars := by
  unfold join
  rw [hq]
  by_cases he : p.endsInSlash <;> simp [he, hp, chars]

/-- The pieces of what is joined on come after those of the path, but for the empty piece behind a slash
at its end. -/
lemma pieces_join (hp : p.text ≠ "") (hq : q.isAbsolute = false) :
    (p.join q).pieces = (if p.endsInSlash then p.pieces.dropLast else p.pieces) ++ q.pieces := by
  unfold pieces
  rw [chars_join hp hq]
  by_cases he : p.endsInSlash
  · obtain ⟨cs, hcs⟩ := endsInSlash_iff.1 he
    have hsplit : Text.split '/' (cs ++ '/' :: []) = Text.split '/' cs ++ [[]] := Text.split_append
    simp [he, hcs, Text.split_append, hsplit]
  · simp [he, Text.split_append]

lemma body_join (hp : p.text ≠ "") (hq : q.isAbsolute = false) : (p.join q).body = p.body ++ q.body := by
  rw [body, body, body, pieces_join hp hq]
  by_cases he : p.endsInSlash
  · obtain ⟨xs, -, hpieces⟩ := pieces_of_endsInSlash he
    simp [he, hpieces, part?]
  · rw [if_neg he, List.filterMap_append]

lemma parts_join (hp : p.text ≠ "") (hq : q.isAbsolute = false) :
    (p.join q).parts = p.parts ++ q.body := by
  have hlead : leadPart (p.join q).pieces = leadPart p.pieces := by
    rw [pieces_join hp hq]
    by_cases he : p.endsInSlash
    · obtain ⟨xs, hxs, hpieces⟩ := pieces_of_endsInSlash he
      simpa [he, hpieces] using leadPart_append_congr hxs (pieces_ne_nil (p := q)) (List.cons_ne_nil [] [])
    · rw [if_neg he, leadPart_append pieces_ne_nil fun h => hp (pieces_eq_single_nil.1 h)]
  rw [parts_eq, parts_eq, hlead, body_join hp hq, List.append_assoc]

lemma join_text_ne (hp : p.text ≠ "") : (p.join q).text ≠ "" := by
  intro h
  have hc : (p.join q).chars = [] := chars_eq_nil.2 h
  have hpc : p.chars ≠ [] := fun h => hp (chars_eq_nil.1 h)
  by_cases hq : q.isAbsolute
  · simp only [join, hq, if_true] at hc
    simp [isAbsolute, hc] at hq
  · rw [chars_join hp (by simpa using hq)] at hc
    split at hc <;> simp [hpc] at hc

lemma isAbsolute_join (hp : p.text ≠ "") : (p.join q).isAbsolute = (p.isAbsolute || q.isAbsolute) := by
  by_cases hq : q.isAbsolute
  · simp [join, hq]
  · have hpc : p.chars ≠ [] := fun h => hp (chars_eq_nil.1 h)
    obtain ⟨c, cs, hcs⟩ := List.exists_cons_of_ne_nil hpc
    have hq' : q.isAbsolute = false := by simpa using hq
    simp only [isAbsolute] at hq' ⊢
    rw [chars_join hp (by simpa [isAbsolute] using hq'), hcs]
    split <;> simp [hq']

lemma pieces_of_proper (h : Proper n) : (⟨n⟩ : Path).pieces = [n.toList] ∧ (⟨n⟩ : Path).isAbsolute = false ∧
    part? n.toList = some (.name n) := by
  obtain ⟨h0, h1, h2, h3⟩ := h
  have hne : n.toList ≠ [] := by simpa using h0
  have hdot : n.toList ≠ ['.'] := fun h => h1 (String.toList_inj.1 h)
  have hdots : n.toList ≠ ['.', '.'] := fun h => h2 (String.toList_inj.1 h)
  refine ⟨Text.split_of_not_mem h3, ?_, ?_⟩
  · obtain ⟨c, cs, hcs⟩ := List.exists_cons_of_ne_nil hne
    have hc : c ≠ '/' := fun h => h3 (by simp [hcs, h])
    simp [isAbsolute, Path.chars, hcs, hc]
  · simp [part?, hne, hdot, hdots]

lemma pieces_child (hn : Proper n) : (p.child n).isAbsolute = p.isAbsolute ∧
    (p.child n).pieces = (if p.text = "" ∨ p.endsInSlash then p.pieces.dropLast else p.pieces) ++ [n.toList] := by
  obtain ⟨hpieces, habs, -⟩ := pieces_of_proper hn
  by_cases hp : p.text = ""
  · have hchild : p.child n = ⟨n⟩ := by simp [child, join, habs, hp]
    have hnone : p.isAbsolute = false := by simp [isAbsolute, chars_eq_nil.2 hp]
    rw [hchild, habs, hpieces, hnone, if_pos (Or.inl hp), pieces_eq_single_nil.2 hp]
    exact ⟨rfl, rfl⟩
  · rw [child, isAbsolute_join hp, habs, Bool.or_false, pieces_join hp habs, hpieces]
    simp [hp]

lemma isAbsolute_child (hn : Proper n) : (p.child n).isAbsolute = p.isAbsolute := (pieces_child hn).1

lemma pieces_initial (h : p.text = "" ∨ p.endsInSlash) : ∃ xs, p.pieces = xs ++ [[]] := by
  rcases h with h | h
  · exact ⟨[], pieces_eq_single_nil.2 h⟩
  · obtain ⟨xs, -, hxs⟩ := pieces_of_endsInSlash h
    exact ⟨xs, hxs⟩

lemma body_child (hn : Proper n) : (p.child n).body = p.body ++ [.name n] := by
  have hlast : [n.toList].filterMap part? = [.name n] := by simp [(pieces_of_proper hn).2.2]
  rw [body, body, (pieces_child hn).2, List.filterMap_append, hlast]
  split
  · next h =>
    obtain ⟨xs, hxs⟩ := pieces_initial h
    simp [hxs, part?]
  · rfl

lemma parts_child (hn : Proper n) : (p.child n).parts = p.parts ++ [.name n] := by
  obtain ⟨hpieces, habs, -⟩ := pieces_of_proper hn
  by_cases hp : p.text = ""
  · have hchild : p.child n = ⟨n⟩ := by simp [child, join, habs, hp]
    have hdot : n.toList ≠ ['.'] := fun h => hn.2.1 (String.toList_inj.1 h)
    have hbody : (⟨n⟩ : Path).body = p.body ++ [.name n] := hchild ▸ body_child hn
    rw [parts_eq, parts_eq, hchild, hbody, hpieces, pieces_eq_single_nil.2 hp]
    simp [leadPart, hdot]
  · have hbody : (⟨n⟩ : Path).body = [.name n] := by simp [body, hpieces, (pieces_of_proper hn).2.2]
    rw [child, parts_join hp habs, hbody]

lemma endsInSlash_child (hn : Proper n) : (p.child n).endsInSlash ≠ true := by
  intro hslash
  obtain ⟨xs, -, hxs⟩ := pieces_of_endsInSlash hslash
  have hlast := (List.append_inj' ((pieces_child hn).2.symm.trans hxs) rfl).2
  exact hn.1 (by simpa using hlast)

/-- Two dots, or a name that can stand in a directory. -/
def Ordinary : Part → Prop
  | .up => True
  | .name n => Proper n
  | _ => False

lemma ordinary_of_part? {x : List Char} {c : Part} (hx : '/' ∉ x) (hc : part? x = some c) : Ordinary c := by
  unfold part? at hc
  split_ifs at hc with h0 h2
  · cases hc
    trivial
  · cases hc
    push Not at h0
    refine ⟨?_, ?_, ?_, by simpa using hx⟩
    · intro h
      exact h0.1 (String.ofList_eq_empty_iff.1 h)
    · intro h
      exact h0.2 (by simpa using congrArg String.toList h)
    · intro h
      exact h2 (by simpa using congrArg String.toList h)

lemma ordinary_of_mem_body {c : Part} (h : c ∈ p.body) : Ordinary c := by
  obtain ⟨x, hx, hc⟩ := List.mem_filterMap.1 h
  exact ordinary_of_part? (Text.mem_split hx) hc

lemma parts_of_absolute (h : p.isAbsolute = true) : p.parts = .root :: p.body := by
  obtain ⟨q, qs, hp⟩ := isAbsolute_iff.1 h
  rw [parts_eq, body, hp]
  simp [leadPart]

lemma parts_of_relative (h : p.isAbsolute = false) : p.parts = p.body ∨ p.parts = .here :: p.body := by
  rw [parts_eq, body]
  cases hp : p.pieces with
  | nil => exact absurd hp pieces_ne_nil
  | cons x xs =>
    have hroot : ¬(x = [] ∧ xs ≠ []) := by
      rintro ⟨rfl, hxs⟩
      obtain ⟨y, ys, rfl⟩ := List.exists_cons_of_ne_nil hxs
      simp [isAbsolute_iff.2 ⟨y, ys, hp⟩] at h
    rw [leadPart, if_neg hroot]
    split
    · exact Or.inr rfl
    · exact Or.inl rfl

lemma filter_body : p.body.filter (· ≠ .here) = p.body := by
  rw [List.filter_eq_self]
  intro c hc
  have hord := ordinary_of_mem_body hc
  cases c with
  | here => exact hord.elim
  | _ => rfl

lemma filter_parts : p.parts.filter (· ≠ .here) = (if p.isAbsolute then [.root] else []) ++ p.body := by
  cases h : p.isAbsolute with
  | true =>
    rw [parts_of_absolute h, List.filter_cons, filter_body]
    rfl
  | false =>
    rcases parts_of_relative h with hp | hp
    · rw [hp, filter_body]
      rfl
    · rw [hp, List.filter_cons, filter_body]
      rfl

lemma filter_root_parts : (p.parts.filter (· ≠ .here)).filter (· ≠ .root) = p.body := by
  have hbody : p.body.filter (· ≠ .root) = p.body := by
    rw [List.filter_eq_self]
    intro c hc
    have hord := ordinary_of_mem_body hc
    cases c with
    | root => exact hord.elim
    | _ => rfl
  rw [filter_parts, List.filter_append, hbody]
  split <;> rfl

/-- Paths that are the same have the same ordinary parts. -/
lemma body_of_parts (h : p.parts = q.parts) : p.body = q.body := by
  rw [← filter_root_parts, h, filter_root_parts]

/-- The names among the parts of a path can stand in a directory. -/
lemma proper_of_mem_parts (h : .name n ∈ p.parts) : Proper n := by
  have hmem : Part.name n ∈ p.parts.filter (· ≠ .here) := by simpa using h
  rw [filter_parts, List.mem_append] at hmem
  rcases hmem with h | h
  · split at h <;> simp at h
  · exact ordinary_of_mem_body h

lemma proper_fileName (h : p.fileName? = some n) : Proper n := by
  unfold fileName? at h
  split at h
  · next hlast =>
    cases h
    exact proper_of_mem_parts (List.mem_of_getLast? hlast)
  · cases h

lemma fileName_cases (p : Path) : p.fileName = "" ∨ Proper p.fileName := by
  unfold fileName
  cases h : p.fileName? with
  | none => exact Or.inl rfl
  | some n => exact Or.inr (proper_fileName h)

end Path

end FileOrganizer
