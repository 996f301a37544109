import FileOrganizer.Proofs.Path.Parent
import FileOrganizer.Proofs.Tree.Moved

/-! Paths without `..`, which lead down from where they start: the directory of their last step, and the
directories on their way. -/

namespace FileOrganizer

namespace Path

variable {p : Path} {cwd : Place} {l : List String}

/-- The names on a path but for the dots are its parts after the first slash. -/
lemma segments_text {xs : List (List Char)} :
    ((xs.filter (· ≠ [])).map String.ofList).filter (· ≠ ".") = (xs.filterMap part?).map Part.text := by
  induction xs with
  | nil => rfl
  | cons x xs ih =>
    by_cases h0 : x = []
    · simpa [h0, part?] using ih
    · by_cases h1 : x = ['.']
      · have hdot : String.ofList ['.'] = "." := rfl
        simpa [h1, hdot, part?] using ih
      · have hdot : String.ofList x ≠ "." := fun hx => h1 (by simpa using congrArg String.toList hx)
        have hsome : ∃ c, part? x = some c ∧ c.text = String.ofList x := by
          by_cases h2 : x = ['.', '.']
          · exact ⟨.up, by simp [part?, h2], by rw [h2]; rfl⟩
          · exact ⟨.name (String.ofList x), by simp [part?, h0, h1, h2], rfl⟩
        obtain ⟨c, hc, htext⟩ := hsome
        simp only [ne_eq, decide_not] at ih
        simp [h0, hdot, hc, htext, ih]

lemma filter_segments {xs : List (List Char)} (h : xs.filterMap part? = l.map Part.name) :
    ((xs.filter (· ≠ [])).map String.ofList).filter (· ≠ ".") = l := by
  rw [segments_text, h, List.map_map]
  exact List.map_id l

lemma place_of_body (h : p.body = l.map Part.name) : p.place cwd = Tree.start cwd p ++ l := by
  rw [place_eq, h, reduce_names]
  simp

/-- Without `..` there are only names. -/
lemma names_of_body (h : Part.up ∉ p.body) : ∃ l : List String, p.body = l.map Part.name := by
  have hmem : ∀ c ∈ p.body, ∃ n, c = Part.name n := by
    intro c hc
    have hord := ordinary_of_mem_body hc
    cases c with
    | root => exact hord.elim
    | here => exact hord.elim
    | up => exact absurd hc h
    | name n => exact ⟨n, rfl⟩
  generalize p.body = ps at hmem
  induction ps with
  | nil => exact ⟨[], rfl⟩
  | cons c ps ih =>
    obtain ⟨n, rfl⟩ := hmem c (by simp)
    obtain ⟨l, rfl⟩ := ih fun d hd => hmem d (by simp [hd])
    exact ⟨n :: l, by simp⟩

lemma body_of_level (h : Part.up ∉ p.parts) : ∃ l : List String, p.body = l.map Part.name := by
  rw [parts_eq] at h
  exact names_of_body fun hmem => h (List.mem_append_right _ hmem)

/-- Absolute paths without `..` that lead to one place have the same parts. -/
lemma same_of_place {a b : Path} (ha : a.isAbsolute = true) (hb : b.isAbsolute = true) (hup : Part.up ∉ a.parts)
    (hup' : Part.up ∉ b.parts) (h : a.place cwd = b.place cwd) : a.same b = true := by
  obtain ⟨l, hl⟩ := body_of_level hup
  obtain ⟨l', hl'⟩ := body_of_level hup'
  rw [place_of_body hl, place_of_body hl', Tree.start, Tree.start, if_pos ha, if_pos hb, List.nil_append,
    List.nil_append] at h
  rw [same, parts_of_absolute ha, parts_of_absolute hb, hl, hl', h, beq_self_eq_true]

lemma getLast?_parts {n : String} {xs : List (List Char)} (h : ((xs.filter (· ≠ [])).map String.ofList).getLast? = some n)
    (hdot : n ≠ ".") (hdots : n ≠ "..") : (xs.filterMap part?).getLast? = some (.name n) := by
  induction xs using List.reverseRecOn with
  | nil => cases h
  | append_singleton xs x ih =>
    by_cases hx : x = []
    · subst hx
      simpa [part?] using ih (by simpa using h)
    · obtain rfl : String.ofList x = n := by simpa [hx] using h
      have hpart : part? x = some (.name (String.ofList x)) := by
        unfold part?
        rw [if_neg, if_neg]
        · rintro rfl
          exact hdots rfl
        · rintro (hnil | rfl)
          · exact hx hnil
          · exact hdot rfl
      simp [List.filterMap_append, hpart]

/-- The name at the end of a path is the last step of it. -/
lemma getLast?_body {t : Tree} {d : Place} {n : String} (h : t.parentOf cwd p = .ok (d, .name n)) :
    p.body.getLast? = some (.name n) := by
  rcases Tree.parentOf_ok h with ⟨hc, -⟩ | ⟨m, k, hlast, -, hc | hc | ⟨hm, hdot, hdots, -⟩, -⟩
  · cases hc
  · cases hc.1
  · cases hc.1
  · obtain rfl := Tree.LastStep.name.inj hm
    exact getLast?_parts hlast hdot hdots

lemma fileName?_of_parentOf {t : Tree} {d : Place} {n : String} (h : t.parentOf cwd p = .ok (d, .name n)) :
    p.fileName? = some n := by
  rw [fileName?, parts_eq, List.getLast?_append, getLast?_body h]
  rfl

end Path

namespace Tree

variable {t t' u : Tree} {cwd here d q : Place} {p : Path} {l ms ns : List String} {n : String}
  {follow : Bool}

lemma filter_steps (cs : List Char) : (steps cs).filter (· ≠ ".") = (segments cs).filter (· ≠ ".") := by
  unfold steps
  split <;> simp

/-- A path that the system takes, without `..`, and the names that it leads down along. -/
structure Descent (p : Path) (l : List String) : Prop where
  body : p.body = l.map Part.name
  short : ∀ n ∈ l, n.utf8ByteSize ≤ maxName
  taken : refused p = none
  last : (segments p.chars).getLast? ≠ some "."

lemma Descent.place (h : Descent p l) (cwd : Place) : p.place cwd = start cwd p ++ l := Path.place_of_body h.body

lemma Descent.place_absolute (h : Descent p l) (ha : p.isAbsolute = true) (cwd : Place) : p.place cwd = l := by
  rw [h.place, start, if_pos ha, List.nil_append]

lemma Descent.proper (h : Descent p l) : ∀ n ∈ l, Proper n := by
  intro n hn
  have hmem : Part.name n ∈ p.body := by simpa [h.body] using hn
  exact Path.ordinary_of_mem_body hmem

/-- A name that can be looked up. -/
def Lookable (n : String) : Prop := n ≠ "." ∧ n ≠ ".." ∧ n.utf8ByteSize ≤ maxName

lemma Descent.lookable (h : Descent p l) : ∀ n ∈ l, Lookable n := fun n hn =>
  ⟨(h.proper n hn).2.1, (h.proper n hn).2.2.1, h.short n hn⟩

lemma segments_child (hn : Proper n) : segments (p.child n).chars = segments p.chars ++ [n] := by
  have hne : n.toList ≠ [] := by simpa using hn.1
  unfold segments
  rw [← Path.pieces, (Path.pieces_child hn).2, ← Path.pieces]
  split
  · next h =>
    obtain ⟨xs, hxs⟩ := Path.pieces_initial h
    simp [hxs, hne]
  · simp [hne]

lemma place_child (hn : Proper n) : (p.child n).place cwd = p.place cwd ++ [n] := by
  unfold Path.place start
  rw [segments_child hn, Path.isAbsolute_child hn, List.foldl_append]
  simp [Path.step, hn.2.1, hn.2.2.1]

lemma Descent.child (hn : Proper n) (hbody : p.body = l.map Part.name)
    (hshort : ∀ m ∈ l ++ [n], m.utf8ByteSize ≤ maxName) (h : refused (p.child n) = none) :
    Descent (p.child n) (l ++ [n]) where
  body := by simp [Path.body_child hn, hbody]
  short := hshort
  taken := h
  last := by
    rw [segments_child hn]
    simpa using hn.2.1

lemma Descent.segments_concat (h : Descent p (l ++ [n])) :
    ∃ ns, segments p.chars = ns ++ [n] ∧ ns.filter (· ≠ ".") = l := by
  have hfilter := Path.filter_segments h.body
  change (Tree.segments p.chars).filter (· ≠ ".") = l ++ [n] at hfilter
  rcases List.eq_nil_or_concat (Tree.segments p.chars) with hnil | ⟨ns, m, hns⟩
  · rw [hnil] at hfilter
    simp at hfilter
  · have hm : m ≠ "." := by
      rintro rfl
      exact h.last (by simp [hns])
    rw [hns] at hfilter
    simp only [List.concat_eq_append, List.filter_append] at hfilter
    have hlast : [m].filter (· ≠ ".") = [m] := by simp [hm]
    rw [hlast] at hfilter
    obtain ⟨hinit, hmn⟩ := List.append_inj' hfilter rfl
    obtain rfl := List.singleton_inj.1 hmn
    exact ⟨ns, by simpa using hns, hinit⟩

lemma walk_filter (hp : t.Plain) :
    walk t follow here (ns ++ ["."]) = walk t follow here (ns.filter (· ≠ ".") ++ ["."]) := by
  induction ns generalizing here with
  | nil => rfl
  | cons n ns ih =>
    rcases step_cases n with rfl | rfl | ⟨h1, h2, h3⟩ | ⟨h1, h2, h3⟩
    · simpa [walk_dot] using ih
    · simpa [walk_dots] using ih
    · have hmore : ∀ xs : List String, (xs ++ ["."]).isEmpty = false := by simp
      rw [List.filter_cons_of_pos (by simpa using h1), List.cons_append, List.cons_append,
        walk_name h1 h2 h3, walk_name h1 h2 h3, hmore, hmore]
      split
      · rfl
      · exact ih
      · rfl
      · next x hx => exact absurd (at?_link.1 hx) (hp _ _)
    · simp [h1, walk_long h1 h2 h3]

lemma walk_down (hs : t.Sound) (hl : ∀ n ∈ l, Lookable n) (hd : t.isDirAt (here ++ l) = true) :
    walk t true here (l ++ ["."]) = .arrived ⟨here ++ l, t.at? (here ++ l)⟩ := by
  induction l generalizing here with
  | nil => simp [walk_dot, walk_nil]
  | cons n l ih =>
    obtain ⟨h1, h2, h3⟩ := hl n (by simp)
    have hdir : t.isDirAt (here ++ [n]) = true := by
      rw [List.append_cons] at hd
      exact hs.isDirAt_of_below hd
    obtain ⟨a, ha⟩ := at?_of_isDirAt hdir
    rw [List.cons_append, walk_name h1 h2 h3, ha]
    dsimp only
    rw [ih (fun m hm => hl m (by simp [hm])) (by simpa using hd)]
    simp

/-- On a way of directories that breaks off, nothing is found. -/
lemma walk_missing (hl : ∀ n ∈ l, Lookable n)
    (hway : ∀ m, m <+: l → t.node? (here ++ m) = none ∨ t.isDirAt (here ++ m) = true)
    (hd : t.isDirAt here = true) (hno : t.isDirAt (here ++ l) ≠ true) :
    walk t true here (l ++ ["."]) = .lost .notFound := by
  induction l generalizing here with
  | nil => exact absurd (by simpa using hd) hno
  | cons n l ih =>
    obtain ⟨h1, h2, h3⟩ := hl n (by simp)
    rw [List.cons_append, walk_name h1 h2 h3]
    rcases hway [n] ⟨l, rfl⟩ with hnone | hdir
    · simp [at?_eq_none.2 hnone]
    · obtain ⟨a, ha⟩ := at?_of_isDirAt hdir
      rw [ha]
      refine ih (fun m hm => hl m (by simp [hm])) (fun m hm => ?_) hdir (by simpa using hno)
      simpa using hway (n :: m) ((List.prefix_cons_inj n).2 hm)

lemma parentOf_eq (t : Tree) (cwd : Place) (h : Descent p (l ++ [n])) : ∃ ns, ns.filter (· ≠ ".") = l ∧
    t.parentOf cwd p = match t.resolve true (start cwd p) (ns ++ ["."]) with
      | .error e => .error e
      | .ok s => .ok (s.place, .name n) := by
  obtain ⟨ns, hns, hfilter⟩ := h.segments_concat
  obtain ⟨h1, h2, h3⟩ := h.lookable n (by simp)
  have hlen : ¬n.utf8ByteSize > maxName := by omega
  refine ⟨ns, hfilter, ?_⟩
  unfold parentOf
  simp only [h.taken, hns, List.getLast?_append, List.getLast?_singleton, Option.some_or,
    List.dropLast_concat, h1, h2, hlen, if_false]
  cases t.resolve true (start cwd p) (ns ++ ["."]) <;> rfl

/-- The last step of the path is taken in the directory that is left when its name is taken away. -/
lemma parentOf_descent (cwd : Place) (hs : t.Sound) (hp : t.Plain) (h : Descent p (l ++ [n]))
    (hd : t.isDirAt (start cwd p ++ l) = true) : t.parentOf cwd p = .ok (start cwd p ++ l, .name n) := by
  obtain ⟨ns, hns, hparent⟩ := parentOf_eq t cwd h
  have hstart : t.isDirAt (start cwd p) = true := hs.isDirAt_of_below hd
  have hlook : ∀ m ∈ l, Lookable m := fun m hm => h.lookable m (by simp [hm])
  have hres : t.resolve true (start cwd p) (ns ++ ["."]) =
      .ok ⟨start cwd p ++ l, t.at? (start cwd p ++ l)⟩ := by
    rw [resolve, if_pos hstart, walkLinks_eq_ok hp, walk_filter hp, hns]
    exact walk_down hs hlook hd
  rw [hparent, hres]

lemma parentOf_missing (hp : t.Plain) (h : Descent p (l ++ [n])) (hstart : t.isDirAt (start cwd p) = true)
    (hway : ∀ m, m <+: l → t.node? (start cwd p ++ m) = none ∨ t.isDirAt (start cwd p ++ m) = true)
    (hno : t.isDirAt (start cwd p ++ l) ≠ true) : t.parentOf cwd p = .error .notFound := by
  obtain ⟨ns, hns, hparent⟩ := parentOf_eq t cwd h
  have hlook : ∀ m ∈ l, Lookable m := fun m hm => h.lookable m (by simp [hm])
  have hres : t.resolve true (start cwd p) (ns ++ ["."]) = .error .notFound := by
    rw [resolve, if_pos hstart, walkLinks, walk_filter hp, hns, walk_missing hlook hway hstart hno]
  rw [hparent, hres]

/-- A path without `..` that has led somewhere leads down. -/
lemma descent_of_parentOf (hp : t.Plain) (hup : Part.up ∉ p.parts) (h : t.parentOf cwd p = .ok (d, .name n)) :
    ∃ l, Descent p (l ++ [n]) ∧ d = start cwd p ++ l := by
  obtain ⟨l', hbody⟩ := Path.body_of_level hup
  have hfilter := Path.filter_segments hbody
  change (Tree.segments p.chars).filter (· ≠ ".") = l' at hfilter
  have hplace := (parentOf_place hp h).symm.trans (Path.place_of_body hbody)
  rcases parentOf_ok h with ⟨hc, -⟩ | ⟨m, k, hm, htaken, hc | hc | ⟨hn, h1, h2, h3⟩, -⟩
  · cases hc
  · cases hc.1
  · cases hc.1
  · cases hn
    have hsize : ∀ m ∈ (Tree.segments p.chars).dropLast, m ≠ "." → m ≠ ".." → m.utf8ByteSize ≤ maxName := by
      unfold parentOf at h
      simp only [htaken, hm] at h
      split at h
      · cases h
      · next d' e hres =>
        rw [resolve] at hres
        split at hres
        · intro k hk
          exact (walk_place hp ((walkLinks_eq_ok hp).1 hres)).2 k (by simp [hk])
        · cases hres
    have hseg : Tree.segments p.chars = (Tree.segments p.chars).dropLast ++ [n] := by
      obtain ⟨hne, hlast⟩ := List.mem_getLast?_eq_getLast hm
      rw [hlast]
      exact (List.dropLast_append_getLast hne).symm
    have hl' : l' = ((Tree.segments p.chars).dropLast).filter (· ≠ ".") ++ [n] := by
      rw [← hfilter]
      nth_rewrite 1 [hseg]
      simp [h1]
    refine ⟨_, ⟨hl' ▸ hbody, ?_, htaken, by simpa [hm] using h1⟩, ?_⟩
    · intro k hk
      have hmem : Part.name k ∈ p.body := by
        rw [hbody, hl']
        exact List.mem_map_of_mem hk
      have hord : Proper k := Path.ordinary_of_mem_body hmem
      rcases List.mem_append.1 hk with hk | hk
      · exact hsize k (List.mem_of_mem_filter hk) hord.2.1 hord.2.2.1
      · rwa [List.mem_singleton.1 hk]
    · rw [hl', ← List.append_assoc] at hplace
      exact (List.append_inj' hplace rfl).1

lemma resolve_filter (here : Place) (hp : t.Plain) (h : ms.filter (· ≠ ".") = ns.filter (· ≠ ".")) :
    t.resolve true here (ms ++ ["."]) = t.resolve true here (ns ++ ["."]) := by
  unfold resolve maxLinks
  rw [walkLinks, walkLinks, walk_filter hp, h, ← walk_filter hp]

/-- Another name in the directory in which the path takes its last step. -/
lemma parentOf_sibling (hp : t.Plain) {m : String} (hpar : t.parentOf cwd p = .ok (d, .name m)) (hn : Proper n)
    (hshort : n.utf8ByteSize ≤ maxName) (htaken : refused (p.parent.child n) = none) :
    t.parentOf cwd (p.parent.child n) = .ok (d, .name n) := by
  rcases parentOf_ok hpar with ⟨hc, -⟩ | ⟨x, k, hx, hrefused, hc | hc | ⟨hc, hdot, hdots, hlong⟩, -⟩
  · cases hc
  · cases hc.1
  · cases hc.1
  cases hc
  obtain ⟨ns, hns⟩ : ∃ ns, segments p.chars = ns ++ [m] := by
    obtain ⟨ns, hns⟩ := List.getLast?_eq_some_iff.1 hx
    exact ⟨ns, hns⟩
  have htext : (segments p.chars).filter (· ≠ ".") = p.body.map Part.text := Path.segments_text
  have hinit : ns.filter (· ≠ ".") = p.body.dropLast.map Part.text := by
    rw [hns, List.filter_append, List.filter_cons_of_pos (by simpa using hdot), List.filter_nil] at htext
    rw [List.map_dropLast, ← htext, List.dropLast_concat]
  have hbody : p.body ≠ [] := by
    intro hnil
    rw [hnil, hns] at htext
    simp [hdot] at htext
  obtain ⟨habs, hbody'⟩ := Path.parent_body hbody
  have htext' : (segments p.parent.chars).filter (· ≠ ".") = p.parent.body.map Part.text := Path.segments_text
  have hway := resolve_filter (start cwd p) hp (hinit.trans (by rw [← hbody', ← htext']))
  have hstart : start cwd (p.parent.child n) = start cwd p := by
    unfold start
    rw [Path.isAbsolute_child hn, habs]
  unfold parentOf at hpar ⊢
  rw [hrefused, hns] at hpar
  rw [htaken, hstart, segments_child hn]
  dsimp only at hpar ⊢
  rw [List.getLast?_concat, List.dropLast_concat] at hpar ⊢
  dsimp only at hpar ⊢
  rw [← hway]
  cases hres : t.resolve true (start cwd p) (ns ++ ["."]) with
  | error e =>
    rw [hres] at hpar
    cases hpar
  | ok s =>
    rw [hres] at hpar
    obtain ⟨d', e⟩ := s
    have hlen : ¬m.utf8ByteSize > maxName := by omega
    have hlen' : ¬n.utf8ByteSize > maxName := by omega
    simp only [hdot, hdots, hlen, if_false] at hpar
    cases hpar
    simp [hn.2.1, hn.2.2.1, hlen']

end Tree

end FileOrganizer
