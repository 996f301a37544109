import FileOrganizer.Proofs.Path.Parts
import FileOrganizer.Tree.Basic

/-! The place that a path spells where there are no links, and the one path under which it is filed. -/

namespace FileOrganizer

namespace Path

variable {p q : Path} {cwd : Place} {c : Part} {ps : List Part}

lemma parts_join_part (hp : p.text ≠ "") (hc : Ordinary c) : (p.join ⟨c.text⟩).parts = p.parts ++ [c] := by
  cases c with
  | root => exact hc.elim
  | here => exact hc.elim
  | up => exact parts_join hp rfl
  | name n => exact parts_child hc

lemma parts_foldl (hp : p.text ≠ "") (hps : ∀ c ∈ ps, Ordinary c) :
    (ps.foldl (fun p c => p.join ⟨c.text⟩) p).parts = p.parts ++ ps ∧
      (ps.foldl (fun p c => p.join ⟨c.text⟩) p).text ≠ "" := by
  induction ps generalizing p with
  | nil => simpa using hp
  | cons c ps ih =>
    obtain ⟨hparts, htext⟩ := ih (join_text_ne hp (q := ⟨c.text⟩)) fun d hd => hps d (by simp [hd])
    refine ⟨?_, htext⟩
    rw [List.foldl_cons, hparts, parts_join_part hp (hps c (by simp))]
    simp

lemma ofParts_single : ofParts [c] = ⟨c.text⟩ := by
  cases c <;> simp [ofParts, join]

lemma parts_slash : (⟨"/"⟩ : Path).parts = [.root] := by decide

lemma parts_slashes : (⟨"//"⟩ : Path).parts = [.root] := by decide

lemma ofParts_root : ofParts (.root :: ps) = ps.foldl (fun p c => p.join ⟨c.text⟩) ⟨"/"⟩ := by
  have hroot : (⟨""⟩ : Path).join ⟨Part.root.text⟩ = ⟨"/"⟩ := by decide
  rw [ofParts, List.foldl_cons, hroot]

lemma parts_join_empty (hp : p.text ≠ "") : (p.join ⟨""⟩).parts = p.parts := by
  rw [parts_join hp rfl]
  simp [body, pieces, chars, Text.split, part?]

lemma chars_ofPlace (l : Place) : (ofPlace l).chars = '/' :: Text.join ['/'] (l.map String.toList) := by
  simp [ofPlace, chars]

lemma pieces_ofPlace {l : Place} (hl : ∀ n ∈ l, Proper n) (hne : l ≠ []) :
    (ofPlace l).pieces = [] :: l.map String.toList := by
  have hsep : ∀ x ∈ l.map String.toList, '/' ∉ x := by
    intro x hx
    obtain ⟨n, hn, rfl⟩ := List.mem_map.1 hx
    exact (hl n hn).2.2.2
  rw [pieces, chars_ofPlace]
  simp [Text.split, Text.split_join (by simpa using hne) hsep]

lemma filterMap_part_map {l : Place} (hl : ∀ n ∈ l, Proper n) :
    (l.map String.toList).filterMap part? = l.map Part.name := by
  induction l with
  | nil => rfl
  | cons n l ih =>
    have hn := (pieces_of_proper (hl n (by simp))).2.2
    simp [hn, ih fun m hm => hl m (by simp [hm])]

lemma parts_ofPlace {l : Place} (hl : ∀ n ∈ l, Proper n) : (ofPlace l).parts = .root :: l.map Part.name := by
  by_cases hne : l = []
  · subst hne
    exact parts_slash
  · rw [parts_eq, body, pieces_ofPlace hl hne, List.filterMap_cons, filterMap_part_map hl]
    simp [leadPart, hne, part?]

lemma ofPlace_text (l : Place) : (ofPlace l).text ≠ "" := by
  intro h
  have hc := chars_eq_nil.2 h
  rw [chars_ofPlace] at hc
  cases hc

/-- The parts of a path that is made absolute: where it begins, and its own. -/
lemma parts_absolute? (hcwd : ∀ n ∈ cwd, Proper n) (h : p.absolute? cwd = some q) :
    q.parts = .root :: ((if p.isAbsolute then [] else cwd.map .name) ++ p.body) := by
  unfold absolute? at h
  split at h
  · cases h
  · next hp =>
    have hord : ∀ c ∈ p.body, Ordinary c := fun c => ordinary_of_mem_body
    -- The path before a slash is put at its end.
    have hfull : ∀ full : Path, full.text ≠ "" →
        (if p.endsInSlash then full.join ⟨""⟩ else full).parts = full.parts := by
      intro full hfull
      split
      · exact parts_join_empty hfull
      · rfl
    simp only [Option.some.injEq, ofParts_single, filter_parts] at h
    rw [← h]
    cases ha : p.isAbsolute with
    | true =>
      simp only [if_true, List.singleton_append, List.nil_append, List.drop_succ_cons, List.drop_zero,
        ofParts_root]
      by_cases hsl : p.slashes = 2
      · obtain ⟨hparts, htext⟩ := parts_foldl (p := ⟨"//"⟩) (by decide) hord
        rw [if_pos hsl, hfull _ htext, hparts, parts_slashes]
        rfl
      · obtain ⟨hparts, htext⟩ := parts_foldl (p := ⟨"/"⟩) (by decide) hord
        rw [if_neg hsl, hfull _ htext, hparts, parts_slash]
        rfl
    | false =>
      simp only [Bool.false_eq_true, if_false, List.nil_append]
      obtain ⟨hparts, htext⟩ := parts_foldl (ofPlace_text cwd) hord
      rw [hfull _ htext, hparts, parts_ofPlace hcwd, List.cons_append]

/-- Where one step of a path leads if there are no links. -/
def step (l : Place) (n : String) : Place :=
  if n = "." then l else if n = ".." then l.dropLast else l ++ [n]

/-- Where a path leads if there are no links. -/
def place (cwd : Place) (p : Path) : Place := (Tree.segments p.chars).foldl step (Tree.start cwd p)

lemma foldl_step (xs : List (List Char)) (l : Place) :
    ((xs.filter (· ≠ [])).map String.ofList).foldl step l = (reduce l.reverse (xs.filterMap part?)).reverse := by
  induction xs generalizing l with
  | nil => simp [reduce]
  | cons x xs ih =>
    by_cases h0 : x = []
    · simpa [h0, part?] using ih l
    · by_cases h1 : x = ['.']
      · have hstep : step l "." = l := rfl
        have hdot : String.ofList ['.'] = "." := rfl
        simpa [h1, part?, hdot, hstep] using ih l
      · by_cases h2 : x = ['.', '.']
        · have hstep : step l ".." = l.dropLast := rfl
          have hdots : String.ofList ['.', '.'] = ".." := rfl
          simpa [h2, part?, hdots, hstep, reduce] using ih l.dropLast
        · have hn1 : String.ofList x ≠ "." := fun h => h1 (by simpa using congrArg String.toList h)
          have hn2 : String.ofList x ≠ ".." := fun h => h2 (by simpa using congrArg String.toList h)
          simpa [h0, h1, h2, part?, step, hn1, hn2, reduce] using ih (l ++ [String.ofList x])

lemma foldl_step_filter (xs : List String) (l : Place) : xs.foldl step l = (xs.filter (· ≠ ".")).foldl step l := by
  induction xs generalizing l with
  | nil => rfl
  | cons x xs ih =>
    by_cases hx : x = "."
    · subst hx
      have hdot : step l "." = l := rfl
      rw [List.foldl_cons, hdot, ih]
      simp
    · rw [List.filter_cons_of_pos (by simpa using hx), List.foldl_cons, List.foldl_cons, ih]

lemma foldl_step_text (hps : ∀ c ∈ ps, Ordinary c) (l : Place) :
    (ps.map Part.text).foldl step l = (reduce l.reverse ps).reverse := by
  induction ps generalizing l with
  | nil => simp [reduce]
  | cons c ps ih =>
    have hrest : ∀ d ∈ ps, Ordinary d := fun d hd => hps d (List.mem_cons_of_mem c hd)
    have hc := hps c List.mem_cons_self
    rw [List.map_cons, List.foldl_cons, ih hrest]
    cases c with
    | root => exact hc.elim
    | here => exact hc.elim
    | up =>
      have hup : step l Part.up.text = l.dropLast := rfl
      rw [hup, reduce, List.tail_reverse]
    | name n =>
      have hname : step l (Part.name n).text = l ++ [n] := by simp [step, Part.text, hc.2.1, hc.2.2.1]
      rw [hname, reduce, List.reverse_append]
      rfl

lemma place_eq : p.place cwd = (reduce (Tree.start cwd p).reverse p.body).reverse := foldl_step _ _

lemma reduce_append (stack : Place) (ps qs : List Part) :
    reduce stack (ps ++ qs) = reduce (reduce stack ps) qs := by
  induction ps generalizing stack with
  | nil => rfl
  | cons c ps ih => cases c <;> simpa [reduce] using ih _

lemma reduce_names (stack : Place) (l : Place) : reduce stack (l.map Part.name) = l.reverse ++ stack := by
  induction l generalizing stack with
  | nil => rfl
  | cons n l ih => simp [reduce, ih]

/-- A relative path leads on from the place of the path that it is joined to. -/
lemma place_join (hq : q.isAbsolute = false) (p : Path) :
    (p.join q).place cwd = (reduce (p.place cwd).reverse q.body).reverse := by
  by_cases hp : p.text = ""
  · have hjoin : p.join q = q := by simp [join, hq, hp]
    have hplace : p.place cwd = cwd := by
      obtain ⟨text⟩ := p
      subst hp
      rfl
    rw [hjoin, hplace, place_eq, Tree.start, hq]
    rfl
  · rw [place_eq, body_join hp hq, reduce_append, place_eq (p := p), List.reverse_reverse, Tree.start, Tree.start,
      isAbsolute_join hp, hq, Bool.or_false]

lemma absolute?_isSome (hp : p.text ≠ "") : ∃ q, p.absolute? cwd = some q := by
  unfold absolute?
  rw [if_neg hp]
  exact ⟨_, rfl⟩

/-- A file is filed under the place that its path spells. -/
lemma normalize_eq (hcwd : ∀ n ∈ cwd, Proper n) (hp : p.text ≠ "") :
    p.normalize cwd = ofPlace (p.place cwd) := by
  obtain ⟨q, hq⟩ : ∃ q, p.absolute? cwd = some q := absolute?_isSome hp
  rw [normalize, hq]
  dsimp only
  rw [lexical, parts_absolute? hcwd hq, place_eq, Tree.start]
  cases p.isAbsolute with
  | true => simp [reduce]
  | false => simp [reduce, reduce_append, reduce_names]

lemma proper_reduce {stack : Place} (hs : ∀ n ∈ stack, Proper n) (hps : ∀ c ∈ ps, Ordinary c) :
    ∀ n ∈ reduce stack ps, Proper n := by
  induction ps generalizing stack with
  | nil => exact hs
  | cons c ps ih =>
    have hrest : ∀ d ∈ ps, Ordinary d := fun d hd => hps d (by simp [hd])
    cases c with
    | root => exact ih hs hrest
    | here => exact ih hs hrest
    | up => exact ih (fun n hn => hs n (List.mem_of_mem_tail hn)) hrest
    | name m =>
      refine ih ?_ hrest
      intro n hn
      rcases List.mem_cons.1 hn with rfl | hn
      · exact hps (.name n) (by simp)
      · exact hs n hn

lemma mem_start {n : String} (h : n ∈ Tree.start cwd p) : n ∈ cwd := by
  unfold Tree.start at h
  split at h
  · cases h
  · exact h

lemma proper_place (hcwd : ∀ n ∈ cwd, Proper n) : ∀ n ∈ p.place cwd, Proper n := by
  rw [place_eq]
  intro n hn
  refine proper_reduce ?_ (fun c => ordinary_of_mem_body) n (List.mem_reverse.1 hn)
  exact fun m hm => hcwd m (mem_start (List.mem_reverse.1 hm))

lemma isAbsolute_ofPlace (l : Place) : (ofPlace l).isAbsolute = true := by
  simp [isAbsolute, chars_ofPlace]

lemma segments_ofPlace {l : Place} (hl : ∀ n ∈ l, Proper n) : Tree.segments (ofPlace l).chars = l := by
  by_cases hne : l = []
  · subst hne
    decide
  · have hpieces := pieces_ofPlace hl hne
    rw [pieces] at hpieces
    have hfilter : (l.map String.toList).filter (· ≠ []) = l.map String.toList := by
      rw [List.filter_eq_self]
      intro x hx
      obtain ⟨n, hn, rfl⟩ := List.mem_map.1 hx
      simpa using (hl n hn).1
    rw [Tree.segments, hpieces, List.filter_cons, hfilter]
    simp

/-- Names that can stand in a directory lead one below the other. -/
lemma foldl_step_names {l m : Place} (hm : ∀ n ∈ m, Proper n) : m.foldl step l = l ++ m := by
  induction m generalizing l with
  | nil => simp
  | cons n m ih =>
    have hn := hm n (by simp)
    rw [List.foldl_cons, ih fun k hk => hm k (by simp [hk])]
    simp [step, hn.2.1, hn.2.2.1]

lemma place_ofPlace {l : Place} (hl : ∀ n ∈ l, Proper n) : (ofPlace l).place cwd = l := by
  rw [place, segments_ofPlace hl, Tree.start, isAbsolute_ofPlace, if_pos rfl, foldl_step_names hl]
  rfl

lemma normalize_ofPlace (hcwd : ∀ n ∈ cwd, Proper n) {l : Place} (hl : ∀ n ∈ l, Proper n) :
    (ofPlace l).normalize cwd = ofPlace l := by
  rw [normalize_eq hcwd (ofPlace_text l), place_ofPlace hl]

lemma place_normalize (hcwd : ∀ n ∈ cwd, Proper n) (hp : p.text ≠ "") :
    (p.normalize cwd).place cwd = p.place cwd := by
  rw [normalize_eq hcwd hp, place_ofPlace (proper_place hcwd)]

lemma isAbsolute_iff_head : p.isAbsolute = true ↔ p.parts.head? = some .root := by
  constructor
  · intro ha
    simp [parts_of_absolute ha]
  · intro h
    by_contra ha
    rcases parts_of_relative (by simpa using ha) with hp | hp
    · rw [hp] at h
      exact ordinary_of_mem_body (List.mem_of_mem_head? h)
    · simp [hp] at h

lemma reduce_parts (stack : Place) : reduce stack p.parts = reduce stack p.body := by
  cases ha : p.isAbsolute with
  | true => simp [parts_of_absolute ha, reduce]
  | false => rcases parts_of_relative ha with hp | hp <;> simp [hp, reduce]

/-- Two spellings of one path lead to one place. -/
lemma place_of_parts (h : p.parts = q.parts) : p.place cwd = q.place cwd := by
  have ha : p.isAbsolute = q.isAbsolute := by
    rw [Bool.eq_iff_iff, isAbsolute_iff_head, isAbsolute_iff_head, h]
  rw [place_eq, place_eq, ← reduce_parts, ← reduce_parts, h, Tree.start, Tree.start, ha]

lemma place_of_same (h : p.same q = true) : p.place cwd = q.place cwd := place_of_parts (by simpa [same] using h)

lemma isAbsolute_of_absolute? (hcwd : ∀ n ∈ cwd, Proper n) (h : p.absolute? cwd = some q) : q.isAbsolute = true := by
  rw [isAbsolute_iff_head, parts_absolute? hcwd h]
  rfl

lemma place_absolute? (hcwd : ∀ n ∈ cwd, Proper n) (h : p.absolute? cwd = some q) : q.place cwd = p.place cwd := by
  rw [place_eq, place_eq, ← reduce_parts, parts_absolute? hcwd h, Tree.start, isAbsolute_of_absolute? hcwd h, Tree.start]
  cases p.isAbsolute with
  | true => simp [reduce]
  | false => simp [reduce, reduce_append, reduce_names]

/-- Paths are filed under one path just if they spell one place. -/
lemma normalize_inj (hcwd : ∀ n ∈ cwd, Proper n) (hp : p.text ≠ "") (hq : q.text ≠ "") :
    p.normalize cwd = q.normalize cwd ↔ p.place cwd = q.place cwd := by
  constructor
  · intro h
    rw [← place_normalize hcwd hp, h, place_normalize hcwd hq]
  · intro h
    rw [normalize_eq hcwd hp, normalize_eq hcwd hq, h]

end Path

end FileOrganizer
