import FileOrganizer.Proofs.Tree.Walk

/-! Where a path leads, and the directory in which its last step is taken. -/

namespace FileOrganizer.Tree

variable {t t' : Tree} {cwd d l : Place} {p : Path} {n : String} {follow follow' : Bool} {s : Spot}
  {e : OsError} {names : List String}

lemma resolve_ok (hs : t.Sound) (h : t.resolve follow d names = .ok s) :
    s.entry = t.at? s.place ∧ t.isDirAt s.place.dropLast = true := by
  rw [resolve] at h
  split at h
  · next hd => exact walkLinks_ok hs hd h
  · cases h

lemma locate_ok (hs : t.Sound) (h : t.locate cwd follow p = .ok s) :
    s.entry = t.at? s.place ∧ t.isDirAt s.place.dropLast = true := by
  rw [locate] at h
  split at h
  · cases h
  · exact resolve_ok hs h

/-- A place where nothing stands, or something other than a directory, is not the top. -/
lemma locate_place_ne_nil (hs : t.Sound) (h : t.locate cwd follow p = .ok s)
    (hd : ∀ a, s.entry ≠ some (.dir a)) : s.place ≠ [] := by
  rintro hp
  have he := (locate_ok hs h).1
  rw [hp] at he
  exact hd default he

lemma locate_inj {l' : Place} {e e' : Option Entry} (h : t.locate cwd follow p = .ok ⟨l, e⟩)
    (h' : t.locate cwd follow p = .ok ⟨l', e'⟩) : l = l' ∧ e = e' := by
  rw [h] at h'
  simpa using h'

lemma stat_eq_ok {e : Entry} : t.stat cwd p = .ok (l, e) ↔ t.locate cwd true p = .ok ⟨l, some e⟩ := by
  rw [stat]
  split <;> simp_all

lemma stat_ok (hs : t.Sound) {e : Entry} (h : t.stat cwd p = .ok (l, e)) :
    t.at? l = some e ∧ t.isDirAt l.dropLast = true := by
  obtain ⟨he, hd⟩ := locate_ok hs (stat_eq_ok.1 h)
  exact ⟨he.symm, hd⟩

lemma has_iff : t.has cwd p = true ↔ ∃ l e, t.stat cwd p = .ok (l, e) := by
  unfold has
  cases h : t.stat cwd p with
  | error e => simp [Except.isOk, Except.toBool]
  | ok x => simpa [Except.isOk, Except.toBool] using ⟨x.1, x.2, rfl⟩

lemma isDir_iff : t.isDir cwd p = true ↔ ∃ l a, t.stat cwd p = .ok (l, .dir a) := by
  unfold isDir
  cases h : t.stat cwd p with
  | error e => simp
  | ok x => rcases x with ⟨l, _ | _ | _⟩ <;> simp

/-- The last step of a path is taken by looking up a name, and once more if the path asks for a
directory. -/
def lastSteps (p : Path) (n : String) : List String := if p.endsInSlash then [n, "."] else [n]

lemma steps_eq (h : (segments p.chars).getLast? = some n) :
    steps p.chars = (segments p.chars).dropLast ++ lastSteps p n := by
  have hseg : segments p.chars = (segments p.chars).dropLast ++ [n] := by
    obtain ⟨hne, hn⟩ := List.mem_getLast?_eq_getLast h
    rw [hn]
    exact (List.dropLast_append_getLast hne).symm
  unfold steps lastSteps Path.endsInSlash
  by_cases hs : p.chars.getLast? = some '/'
  · rw [if_pos hs, if_pos (by simpa using hs)]
    nth_rewrite 1 [hseg]
    simp
  · rw [if_neg hs, if_neg (by simpa using hs)]
    exact hseg

/-- What the directory of the last step has to do with where the path leads. -/
lemma parentOf_ok {s : LastStep} (h : t.parentOf cwd p = .ok (d, s)) :
    (s = .top ∧ d = [] ∧ segments p.chars = []) ∨
      ∃ n k, (segments p.chars).getLast? = some n ∧ refused p = none ∧
        (s = .dot ∧ n = "." ∨ s = .dots ∧ n = ".." ∨
          s = .name n ∧ n ≠ "." ∧ n ≠ ".." ∧ n.utf8ByteSize ≤ maxName) ∧
        ∀ follow, t.locate cwd follow p = walkLinks t follow (k + 1) d (lastSteps p n) := by
  unfold parentOf at h
  split at h
  · cases h
  · next hr =>
    dsimp only at h
    split at h
    · next hn =>
      cases h
      exact Or.inl ⟨rfl, rfl, List.getLast?_eq_none_iff.1 hn⟩
    · next n hn =>
      right
      split at h
      · cases h
      · next d' e' hw =>
        have hlen : lastSteps p n ≠ [] := by unfold lastSteps; split <;> simp
        have hwalk : ∃ k, ∀ follow,
            t.locate cwd follow p = walkLinks t follow (k + 1) d' (lastSteps p n) := by
          unfold resolve at hw
          split at hw
          · next hd =>
            obtain ⟨k, hk⟩ := walkLinks_append_ok hw
            refine ⟨k, fun follow => ?_⟩
            rw [locate, hr, resolve, if_pos hd, steps_eq hn]
            exact hk follow _ hlen
          · cases hw
        obtain ⟨k, hk⟩ := hwalk
        split at h
        · next h1 =>
          cases h
          exact ⟨n, k, hn, hr, Or.inl ⟨rfl, h1⟩, hk⟩
        · next h1 =>
          split at h
          · next h2 =>
            cases h
            exact ⟨n, k, hn, hr, Or.inr (Or.inl ⟨rfl, h2⟩), hk⟩
          · next h2 =>
            split at h
            · cases h
            · next h3 =>
              cases h
              exact ⟨n, k, hn, hr, Or.inr (Or.inr ⟨rfl, h1, h2, by omega⟩), hk⟩

lemma parentOf_isDirAt (hs : t.Sound) {s : LastStep} (h : t.parentOf cwd p = .ok (d, s)) :
    t.isDirAt d = true := by
  unfold parentOf at h
  split at h
  · cases h
  · dsimp only at h
    split at h
    · cases h
      rfl
    · next n hn =>
      split at h
      · cases h
      · next d' e' hw =>
        have hd : t.isDirAt d' = true := by
          unfold resolve at hw
          split at hw
          · next hd0 => exact walkLinks_dot hs hd0 hw
          · cases hw
        split at h
        · cases h
          exact hd
        · split at h
          · cases h
            exact hd
          · split at h
            · cases h
            · cases h
              exact hd

/-- A path whose last step is a name, with the look-up of that name. -/
lemma locate_name (h : t.parentOf cwd p = .ok (d, .name n)) :
    ∃ k, (n ≠ "." ∧ n ≠ ".." ∧ n.utf8ByteSize ≤ maxName) ∧
      ∀ follow, t.locate cwd follow p = walkLinks t follow (k + 1) d (lastSteps p n) := by
  rcases parentOf_ok h with ⟨h, -⟩ | ⟨m, k, -, -, h | h | ⟨hm, hn⟩, hk⟩
  · cases h
  · cases h.1
  · cases h.1
  · cases hm
    exact ⟨k, hn, hk⟩

/-- The look-up of a name, which follows a link only if it is told to. -/
lemma walkLinks_name (hn : n ≠ "." ∧ n ≠ ".." ∧ n.utf8ByteSize ≤ maxName) {k : Nat}
    (h : follow = true → ∀ x, t.node? (d ++ [n]) ≠ some (.link x)) :
    walkLinks t follow (k + 1) d [n] = .ok ⟨d ++ [n], t.at? (d ++ [n])⟩ := by
  have hw : walk t follow d [n] = .arrived ⟨d ++ [n], t.at? (d ++ [n])⟩ := by
    rw [walk_name hn.1 hn.2.1 hn.2.2]
    split
    · next he => simp [he]
    · rfl
    · next he => simp [he]
    · next x he =>
      cases follow with
      | false => simp [he]
      | true => exact absurd (at?_link.1 he) (h rfl x)
  rw [walkLinks, hw]

/-- A path that names something, and does not ask for a directory, leads to it. -/
lemma locate_of_parentOf (h : t.parentOf cwd p = .ok (d, .name n)) (hp : p.endsInSlash ≠ true)
    (hl : follow = true → ∀ x, t.node? (d ++ [n]) ≠ some (.link x)) :
    t.locate cwd follow p = .ok ⟨d ++ [n], t.at? (d ++ [n])⟩ := by
  obtain ⟨k, hn, hk⟩ := locate_name h
  rw [hk, lastSteps, if_neg hp]
  exact walkLinks_name hn hl

lemma locate_eq_resolve (hr : refused p = none) :
    t.locate cwd follow p = t.resolve follow (start cwd p) (steps p.chars) := by
  rw [locate, hr]

lemma refused_of_locate_ok (h : t.locate cwd follow p = .ok s) : refused p = none := by
  cases hr : refused p with
  | none => rfl
  | some e =>
    rw [locate, hr] at h
    cases h

/-- A path that leads to something other than a directory, or to nothing, has a name for its last step. -/
lemma parentOf_of_locate {e : Option Entry} (hs : t.Sound) (hp : p.endsInSlash ≠ true)
    (h : t.locate cwd false p = .ok ⟨l, e⟩) (he : ∀ a, e ≠ some (.dir a)) :
    ∃ d n, t.parentOf cwd p = .ok (d, .name n) ∧ l = d ++ [n] := by
  have hr := refused_of_locate_ok h
  have hdir : ∀ k d, t.isDirAt d = true → walkLinks t false (k + 1) d [] ≠ .ok ⟨l, e⟩ := by
    intro k d hd h
    obtain ⟨a, ha⟩ : ∃ a, t.at? d = some (.dir a) := by
      unfold isDirAt at hd
      split at hd
      · next a ha => exact ⟨a, ha⟩
      · cases hd
    rw [walkLinks, walk_nil, ha] at h
    cases h
    exact he a rfl
  have hw := (locate_eq_resolve hr).symm.trans h
  rw [resolve] at hw
  split at hw
  · next hd =>
    cases hn : (segments p.chars).getLast? with
    | none =>
      have hsteps : steps p.chars = [] := by
        rw [steps, if_neg (by simpa [Path.endsInSlash] using hp), List.getLast?_eq_none_iff.1 hn]
      rw [hsteps] at hw
      exact absurd hw (hdir _ _ hd)
    | some n =>
      rw [steps_eq hn, lastSteps, if_neg hp] at hw
      cases hup : walkLinks t true (maxLinks + 1) (start cwd p) ((segments p.chars).dropLast ++ ["."]) with
      | error e =>
        rw [walkLinks_append_error hup (List.cons_ne_nil _ _)] at hw
        cases hw
      | ok s =>
        obtain ⟨k, hk⟩ := walkLinks_append_ok hup
        rw [hk false [n] (List.cons_ne_nil _ _)] at hw
        have hsd := walkLinks_dot hs hd hup
        rcases step_cases n with rfl | rfl | hname | ⟨h1, h2, h3⟩
        · rw [walkLinks, walk_dot, ← walkLinks] at hw
          exact absurd hw (hdir _ _ hsd)
        · rw [walkLinks, walk_dots, ← walkLinks] at hw
          exact absurd hw (hdir _ _ (hs.isDirAt_up hsd))
        · rw [walkLinks_name hname (by simp)] at hw
          simp only [Except.ok.injEq, Spot.mk.injEq] at hw
          refine ⟨s.place, n, ?_, hw.1.symm⟩
          have hlen : ¬n.utf8ByteSize > maxName := by omega
          simp [parentOf, hr, hn, resolve, hd, hup, hname.1, hname.2.1, hlen]
        · rw [walkLinks, walk_long h1 h2 h3] at hw
          cases hw
  · cases hw

/-- The way to a directory, with a dot behind it. -/
lemma way_of_stat {a : Attrs} (h : t.stat cwd p = .ok (l, .dir a)) : t.isDirAt (start cwd p) = true ∧
    walkLinks t true (maxLinks + 1) (start cwd p) (segments p.chars ++ ["."]) = .ok ⟨l, some (.dir a)⟩ := by
  have hloc := stat_eq_ok.1 h
  rw [locate_eq_resolve (refused_of_locate_ok hloc), resolve] at hloc
  split at hloc
  · next hd =>
    refine ⟨hd, ?_⟩
    unfold steps at hloc
    split at hloc
    · exact hloc
    · exact walkLinks_dot_of_dir hloc
  · cases hloc

/-- The way of a path whose last step is a name, without that name. -/
lemma way_of_parentOf (hs : t.Sound) (h : t.parentOf cwd p = .ok (d, .name n)) :
    ∃ ns, segments p.chars = ns ++ [n] ∧ refused p = none ∧ n ≠ "." ∧ n ≠ ".." ∧
      walkLinks t true (maxLinks + 1) (start cwd p) (ns ++ ["."]) = .ok ⟨d, t.at? d⟩ := by
  rcases parentOf_ok h with ⟨hc, -⟩ | ⟨x, k, hlast, hr, hc | hc | ⟨hc, hdot, hdots, hlen⟩, -⟩
  · cases hc
  · cases hc.1
  · cases hc.1
  cases hc
  obtain ⟨ns, hns⟩ := List.getLast?_eq_some_iff.1 hlast
  have hlen' : ¬n.utf8ByteSize > maxName := by omega
  refine ⟨ns, hns, hr, hdot, hdots, ?_⟩
  rw [parentOf, hr] at h
  simp only [hns, List.getLast?_concat, List.dropLast_concat, hdot, hdots, hlen', if_false] at h
  unfold resolve at h
  by_cases hd : t.isDirAt (start cwd p) = true
  · rw [if_pos hd] at h
    cases hres : walkLinks t true (maxLinks + 1) (start cwd p) (ns ++ ["."]) with
    | error e =>
      rw [hres] at h
      cases h
    | ok s =>
      rw [hres] at h
      cases h
      rw [← (walkLinks_ok hs hd hres).1]
  · rw [if_neg hd] at h
    cases h

/-- Paths that differ in one step lead through one directory up to it, and what exists on the way behind it has to
exist in that directory. -/
lemma at?_of_has (t : Tree) (here : Place) (S R : List String) : ∃ d : Place, ∀ cwd p n, start cwd p = here →
    segments p.chars = S ++ n :: R → n ≠ "." → n ≠ ".." → t.has cwd p = true → t.at? (d ++ [n]) ≠ none := by
  have hsteps : ∀ {p : Path} {n : String}, segments p.chars = S ++ n :: R → ∃ R', steps p.chars = S ++ n :: R' := by
    intro p n hseg
    rw [steps, hseg]
    split
    · exact ⟨R ++ ["."], by simp⟩
    · exact ⟨R, rfl⟩
  have hway : ∀ {cwd : Place} {p : Path} {n : String}, start cwd p = here → segments p.chars = S ++ n :: R →
      t.has cwd p = true → ∃ R' l e, walkLinks t true (maxLinks + 1) here (S ++ n :: R') = .ok ⟨l, some e⟩ := by
    intro cwd p n hstart hseg hhas
    obtain ⟨l, e, hstat⟩ := has_iff.1 hhas
    have hloc := stat_eq_ok.1 hstat
    obtain ⟨R', hR⟩ := hsteps hseg
    rw [locate_eq_resolve (refused_of_locate_ok hloc), resolve, hstart, hR] at hloc
    split at hloc
    · exact ⟨R', l, e, hloc⟩
    · cases hloc
  cases hup : walkLinks t true (maxLinks + 1) here (S ++ ["."]) with
  | error e =>
    refine ⟨[], fun cwd p n hstart hseg _ _ hhas => ?_⟩
    obtain ⟨R', l, e', hwalk⟩ := hway hstart hseg hhas
    rw [walkLinks_append_error hup (List.cons_ne_nil _ _)] at hwalk
    cases hwalk
  | ok s =>
    refine ⟨s.place, fun cwd p n hstart hseg hdot hdots hhas hnone => ?_⟩
    obtain ⟨R', l, e', hwalk⟩ := hway hstart hseg hhas
    obtain ⟨k, hk⟩ := walkLinks_append_ok hup
    rw [hk true _ (List.cons_ne_nil _ _), walkLinks] at hwalk
    by_cases hlen : n.utf8ByteSize ≤ maxName
    · rw [walk_name hdot hdots hlen, hnone] at hwalk
      cases R' <;> simp at hwalk
    · rw [walk_long hdot hdots hlen] at hwalk
      cases hwalk

end FileOrganizer.Tree
