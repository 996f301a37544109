import FileOrganizer.Proofs.Path.Places

/-! A path is taken apart alike in every code for its letters in which the slash and the dot stand for themselves. -/

namespace FileOrganizer

/-- The slash and the dot stay as they are, no other letter becomes one of them, and none vanishes. -/
structure Recoding (f : Char → List Char) : Prop where
  slash : f '/' = ['/']
  dot : f '.' = ['.']
  other : ∀ c, c ≠ '/' → c ≠ '.' → f c ≠ [] ∧ '/' ∉ f c ∧ '.' ∉ f c

/-- The text with each letter written as `f` says. -/
def recoded (f : Char → List Char) (s : String) : String := String.ofList (s.toList.flatMap f)

def Path.recode (f : Char → List Char) (p : Path) : Path := ⟨recoded f p.text⟩

def Part.recode (f : Char → List Char) : Part → Part
  | name n => name (recoded f n)
  | c => c

lemma toList_recoded (f : Char → List Char) (s : String) : (recoded f s).toList = s.toList.flatMap f :=
  String.toList_ofList

namespace Recoding

variable {f : Char → List Char} {c : Char} {cs ds : List Char} {n : String} {p : Path} {cwd : Place}

section

variable (hf : Recoding f)

include hf

lemma ne_nil (c : Char) : f c ≠ [] := by
  by_cases hslash : c = '/'
  · rw [hslash, hf.slash]
    exact List.cons_ne_nil _ _
  by_cases hdot : c = '.'
  · rw [hdot, hf.dot]
    exact List.cons_ne_nil _ _
  exact (hf.other c hslash hdot).1

lemma slash_not_mem (h : c ≠ '/') : '/' ∉ f c := by
  by_cases hdot : c = '.'
  · rw [hdot, hf.dot]
    decide
  · exact (hf.other c h hdot).2.1

lemma flatMap_eq_nil : cs.flatMap f = [] ↔ cs = [] := by
  rw [List.flatMap_eq_nil_iff]
  constructor
  · intro h
    exact List.eq_nil_iff_forall_not_mem.2 fun c hc => hf.ne_nil c (h c hc)
  · rintro rfl
    simp

/-- A code begins with a dot only if it is that of a dot. -/
lemma flatMap_eq_dot : cs.flatMap f = '.' :: ds ↔ ∃ es, cs = '.' :: es ∧ es.flatMap f = ds := by
  cases cs with
  | nil => simp
  | cons c cs =>
    rw [List.flatMap_cons]
    by_cases hdot : c = '.'
    · rw [hdot, hf.dot]
      simp
    · have hhead : '.' ∉ f c := by
        by_cases hslash : c = '/'
        · rw [hslash, hf.slash]
          decide
        · exact (hf.other c hslash hdot).2.2
      obtain ⟨d, es, hd⟩ := List.exists_cons_of_ne_nil (hf.ne_nil c)
      rw [hd] at hhead ⊢
      constructor
      · intro h
        exact absurd (List.cons.inj h).1 fun h => hhead (h ▸ List.mem_cons_self)
      · rintro ⟨es, hes, -⟩
        exact absurd (List.cons.inj hes).1 hdot

lemma flatMap_dot : cs.flatMap f = ['.'] ↔ cs = ['.'] := by
  rw [hf.flatMap_eq_dot]
  simp [hf.flatMap_eq_nil]

lemma flatMap_dots : cs.flatMap f = ['.', '.'] ↔ cs = ['.', '.'] := by
  rw [hf.flatMap_eq_dot]
  simp [hf.flatMap_dot]

lemma split_flatMap (cs : List Char) :
    Text.split '/' (cs.flatMap f) = (Text.split '/' cs).map fun x => x.flatMap f := by
  induction cs with
  | nil => rfl
  | cons c cs ih =>
    rw [List.flatMap_cons, Text.split]
    by_cases hslash : c = '/'
    · rw [hslash, hf.slash, if_pos rfl, List.singleton_append, Text.split, if_pos rfl, ih]
      rfl
    · obtain ⟨x, xs, hx⟩ := List.exists_cons_of_ne_nil (Text.split_ne_nil '/' cs)
      rw [if_neg hslash, hx]
      rw [hx] at ih
      exact Text.split_cons_of_not_mem (hf.slash_not_mem hslash) ih

lemma pieces_recode : (p.recode f).pieces = p.pieces.map fun x => x.flatMap f := by
  rw [Path.pieces, Path.chars, Path.recode, toList_recoded]
  exact hf.split_flatMap _

lemma isAbsolute_recode : (p.recode f).isAbsolute = p.isAbsolute := by
  have hmap : (∃ q qs, (p.recode f).pieces = [] :: q :: qs) ↔ ∃ q qs, p.pieces = [] :: q :: qs := by
    rw [hf.pieces_recode]
    rcases p.pieces with _ | ⟨x, _ | ⟨y, ys⟩⟩ <;> simp [hf.flatMap_eq_nil]
  rw [Bool.eq_iff_iff, Path.isAbsolute_iff, Path.isAbsolute_iff, hmap]

lemma part?_flatMap (x : List Char) : Path.part? (x.flatMap f) = (Path.part? x).map (Part.recode f) := by
  unfold Path.part?
  simp only [hf.flatMap_eq_nil, hf.flatMap_dot, hf.flatMap_dots]
  split_ifs
  · rfl
  · rfl
  · simp [Part.recode, recoded]

lemma body_recode : (p.recode f).body = p.body.map (Part.recode f) := by
  rw [Path.body, hf.pieces_recode, List.filterMap_map, Path.body, List.map_filterMap]
  exact congrArg (List.filterMap · p.pieces) (funext hf.part?_flatMap)

end

lemma reduce_recode (ps : List Part) (stack : Place) :
    Path.reduce (stack.map (recoded f)) (ps.map (Part.recode f)) = (Path.reduce stack ps).map (recoded f) := by
  induction ps generalizing stack with
  | nil => rfl
  | cons c ps ih =>
    cases c with
    | root => exact ih stack
    | here => exact ih stack
    | up =>
      have htail : (stack.map (recoded f)).tail = stack.tail.map (recoded f) := List.map_tail.symm
      have hup : Path.reduce (stack.map (recoded f)) ((Part.up :: ps).map (Part.recode f)) =
          Path.reduce (stack.map (recoded f)).tail (ps.map (Part.recode f)) := rfl
      rw [hup, htail]
      exact ih stack.tail
    | name n => exact ih (n :: stack)

lemma flatMap_join (f : Char → List Char) (sep : List Char) (xs : List (List Char)) :
    (Text.join sep xs).flatMap f = Text.join (sep.flatMap f) (xs.map fun x => x.flatMap f) := by
  induction xs with
  | nil => rfl
  | cons x xs ih =>
    cases xs with
    | nil => rfl
    | cons y ys =>
      rw [Text.join, List.flatMap_append, List.flatMap_append, ih]
      · rfl
      · simp

variable (hf : Recoding f)

include hf

lemma ofPlace_recode (l : Place) : (Path.ofPlace l).recode f = Path.ofPlace (l.map (recoded f)) := by
  have hchars : ((Path.ofPlace l).recode f).chars = (Path.ofPlace (l.map (recoded f))).chars := by
    rw [Path.chars, Path.recode, toList_recoded, ← Path.chars, Path.chars_ofPlace, Path.chars_ofPlace,
      List.flatMap_cons, hf.slash, flatMap_join, List.flatMap_singleton, hf.slash, List.map_map, List.map_map]
    simp [Function.comp_def, toList_recoded]
  exact congrArg Path.mk (String.toList_inj.1 hchars)

lemma place_recode : (p.recode f).place (cwd.map (recoded f)) = (p.place cwd).map (recoded f) := by
  rw [Path.place_eq, Path.place_eq, hf.body_recode, Tree.start, Tree.start, hf.isAbsolute_recode, List.map_reverse,
    ← reduce_recode, List.map_reverse]
  split_ifs <;> rfl

lemma proper (h : Proper n) : Proper (recoded f n) := by
  obtain ⟨hne, hdot, hdots, hslash⟩ := h
  rw [Proper, ← String.toList_inj.ne, ← String.toList_inj.ne, ← String.toList_inj.ne, toList_recoded]
  rw [← String.toList_inj.ne] at hne hdot hdots
  refine ⟨mt hf.flatMap_eq_nil.1 hne, mt hf.flatMap_dot.1 hdot, mt hf.flatMap_dots.1 hdots, ?_⟩
  rw [List.mem_flatMap]
  rintro ⟨c, hc, hmem⟩
  exact hf.slash_not_mem (fun h => hslash (h ▸ hc)) hmem

lemma text_recode (h : p.text ≠ "") : (p.recode f).text ≠ "" := by
  rw [← String.toList_inj.ne] at h ⊢
  rw [Path.recode, toList_recoded]
  exact mt hf.flatMap_eq_nil.1 h

theorem normalize_recode (hcwd : ∀ n ∈ cwd, Proper n) (hp : p.text ≠ "") :
    (p.recode f).normalize (cwd.map (recoded f)) = (p.normalize cwd).recode f := by
  have hcwd' : ∀ n ∈ cwd.map (recoded f), Proper n := by
    intro n hn
    obtain ⟨m, hm, rfl⟩ := List.mem_map.1 hn
    exact hf.proper (hcwd m hm)
  rw [Path.normalize_eq hcwd' (hf.text_recode hp), Path.normalize_eq hcwd hp, hf.place_recode, hf.ofPlace_recode]

end Recoding

end FileOrganizer
