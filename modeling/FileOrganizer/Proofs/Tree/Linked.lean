import FileOrganizer.Proofs.Tree.Descent
import FileOrganizer.Proofs.Tree.Steady

/-! Trees with symbolic links: where a path leads does not depend on how it is spelled, and the name at its end is that
of what it leads to, as far as no link has to do with the name. -/

namespace FileOrganizer

namespace Tree

variable {t t' t'' : Tree} {cwd here l start : Place} {follow : Bool} {names rest xs xs' ys : List String}
  {s : Spot} {p q dir : Path} {fuel : Nat} {m n : String} {X Y : Set Place} {e : Entry}

/-- Dots on the way make no difference, but to what is still to go when a link is followed. -/
lemma walk_dots_between (hys : ys ≠ []) :
    walk t follow here (xs ++ ys) = walk t follow here (xs.filter (· ≠ ".") ++ ys) ∨
      ∃ start zs zs', zs.filter (· ≠ ".") = zs'.filter (· ≠ ".") ∧
        walk t follow here (xs ++ ys) = .jump start (zs ++ ys) ∧
        walk t follow here (xs.filter (· ≠ ".") ++ ys) = .jump start (zs' ++ ys) := by
  induction xs generalizing here with
  | nil => exact Or.inl rfl
  | cons n xs ih =>
    have hmore : ∀ zs : List String, (zs ++ ys).isEmpty = false := by simp [hys]
    rcases step_cases n with rfl | rfl | ⟨h1, h2, h3⟩ | ⟨h1, h2, h3⟩
    · simpa [walk_dot] using ih
    · simpa [walk_dots] using ih
    · rw [List.filter_cons_of_pos (by simpa using h1), List.cons_append, List.cons_append, walk_name h1 h2 h3,
        walk_name h1 h2 h3, hmore, hmore]
      split
      · exact Or.inl rfl
      · exact ih
      · exact Or.inl rfl
      · next x hx =>
        simp only [Bool.false_and, Bool.false_eq_true, if_false]
        exact Or.inr ⟨_, steps x.toList ++ xs, steps x.toList ++ xs.filter (· ≠ "."), by simp [List.filter_filter],
          by rw [List.append_assoc], by rw [List.append_assoc]⟩
    · exact Or.inl (by simp [h1, walk_long h1 h2 h3])

lemma walkLinks_dots_between (hys : ys ≠ []) :
    walkLinks t follow fuel here (xs ++ ys) = walkLinks t follow fuel here (xs.filter (· ≠ ".") ++ ys) := by
  induction fuel generalizing here xs with
  | zero => rfl
  | succ fuel ih =>
    rw [walkLinks, walkLinks]
    rcases (walk_dots_between hys : walk t follow here (xs ++ ys) = _ ∨ _) with heq | ⟨start, zs, zs', hzs, h, h'⟩
    · rw [heq]
    · rw [h, h']
      dsimp only
      rw [ih, hzs, ← ih]

/-- The last step of the path is this name, and it does not ask for a directory. -/
def EndsIn (p : Path) (n : String) : Prop := (steps p.chars).getLast? = some n ∧ n ≠ "." ∧ n ≠ ".."

lemma EndsIn.steps (h : EndsIn p n) :
    Tree.steps p.chars = Tree.segments p.chars ∧ ∃ xs, Tree.segments p.chars = xs ++ [n] := by
  have hsteps : Tree.steps p.chars = Tree.segments p.chars := by
    have hlast := h.1
    unfold Tree.steps at hlast ⊢
    split
    · next hslash =>
      rw [if_pos hslash, List.getLast?_concat] at hlast
      exact absurd (Option.some.inj hlast).symm h.2.1
    · rfl
  exact ⟨hsteps, List.getLast?_eq_some_iff.1 (hsteps ▸ h.1)⟩

lemma EndsIn.slash (h : EndsIn p n) : p.endsInSlash ≠ true := by
  intro hslash
  have hlast := h.1
  rw [Tree.steps, if_pos (by simpa [Path.endsInSlash] using hslash), List.getLast?_concat] at hlast
  exact h.2.1 (Option.some.inj hlast).symm

lemma endsIn_child (hn : Proper n) : EndsIn (dir.child n) n := by
  refine ⟨?_, hn.2.1, hn.2.2.1⟩
  rw [Tree.steps, if_neg (by simpa [Path.endsInSlash] using Path.endsInSlash_child (p := dir) hn), segments_child hn,
    List.getLast?_concat]

/-- Spellings of one path lead to one place. -/
lemma locate_of_same (hsame : p.same q = true) (hp : refused p = none) (hq : refused q = none) (hpn : EndsIn p n)
    (hqm : EndsIn q m) : t.locate cwd follow p = t.locate cwd follow q := by
  have hparts : p.parts = q.parts := eq_of_beq hsame
  have habs : p.isAbsolute = q.isAbsolute := by
    rw [Bool.eq_iff_iff, Path.isAbsolute_iff_head, Path.isAbsolute_iff_head, hparts]
  have hstart : Tree.start cwd p = Tree.start cwd q := by rw [Tree.start, Tree.start, habs]
  have hfilter : (segments p.chars).filter (· ≠ ".") = (segments q.chars).filter (· ≠ ".") := by
    change ((p.pieces.filter _).map _).filter _ = ((q.pieces.filter _).map _).filter _
    rw [Path.segments_text, Path.segments_text]
    have hbodies := congrArg (List.filter (· ≠ Part.here)) hparts
    rw [Path.filter_parts, Path.filter_parts] at hbodies
    rw [habs] at hbodies
    exact congrArg (List.map Part.text) (List.append_cancel_left hbodies)
  obtain ⟨hsteps, xs, hxs⟩ := hpn.steps
  obtain ⟨hsteps', xs', hxs'⟩ := hqm.steps
  rw [hxs, hxs', List.filter_append, List.filter_append, List.filter_cons_of_pos (by simpa using hpn.2.1),
    List.filter_cons_of_pos (by simpa using hqm.2.1)] at hfilter
  obtain ⟨hinit, hlast⟩ := List.append_inj' hfilter rfl
  rw [locate_eq_resolve hp, locate_eq_resolve hq, resolve, resolve, hstart, hsteps, hsteps', hxs, hxs',
    walkLinks_dots_between (List.cons_ne_nil _ _), hinit, (List.cons.inj hlast).1,
    ← walkLinks_dots_between (List.cons_ne_nil _ _)]

/-- A path stands where another spelling of it does. -/
lemma has_of_same (hsame : p.same q = true) (hp : refused p = none) (hpn : EndsIn p n)
    (hqm : EndsIn q m) (hhas : t.has cwd q = true) : t.has cwd p = true := by
  obtain ⟨l, e, hstat⟩ := has_iff.1 hhas
  have hloc := stat_eq_ok.1 hstat
  rw [← locate_of_same hsame hp (refused_of_locate_ok hloc) hpn hqm] at hloc
  exact has_iff.2 ⟨l, e, stat_eq_ok.2 hloc⟩

/-- The way to a file ends with a name. -/
lemma walkLinks_ends (hs : t.Sound) (hd : t.isDirAt here = true) (h : walkLinks t true (fuel + 1) here names = .ok s)
    (hno : t.isDirAt s.place ≠ true) : ∃ n, names.getLast? = some n ∧ n ≠ "." ∧ n ≠ ".." := by
  rcases List.eq_nil_or_concat names with rfl | ⟨xs, n, rfl⟩
  · rw [walkLinks, walk_nil] at h
    cases h
    exact absurd hd hno
  · rw [List.concat_eq_append] at h ⊢
    refine ⟨n, List.getLast?_concat, ?_, ?_⟩
    · rintro rfl
      exact hno (walkLinks_dot hs hd h)
    · rintro rfl
      cases hup : walkLinks t true (fuel + 1) here (xs ++ ["."]) with
      | error e =>
        rw [walkLinks_append_error hup (List.cons_ne_nil _ _)] at h
        cases h
      | ok u =>
        obtain ⟨k, hk⟩ := walkLinks_append_ok hup
        rw [hk true _ (List.cons_ne_nil _ _), walkLinks, walk_dots, walk_nil] at h
        cases h
        exact hno (hs.isDirAt_up (walkLinks_dot hs hd hup))

lemma endsIn_of_stat {b : ByteArray} {a : Attrs} (hs : t.Sound) (h : t.stat cwd p = .ok (l, .file b a)) :
    ∃ n, EndsIn p n := by
  have hloc := stat_eq_ok.1 h
  rw [locate_eq_resolve (refused_of_locate_ok hloc), resolve] at hloc
  split at hloc
  · next hd => exact walkLinks_ends hs hd hloc (not_isDirAt_of_file (at?_file.1 (stat_ok hs h).1))
  · cases hloc

/-- No link has this name, or leads to a path that ends in it. -/
def Unlinked (m : String) (t : Tree) : Prop :=
  ∀ q x, t.node? q = some (.link x) → q.getLast? ≠ some m ∧ (steps x.toList).getLast? ≠ some m

/-- What a walk leads to, if it is no directory, has the name that the way ends in. -/
lemma walk_last (hs : t.Sound) (hd : t.isDirAt here = true) (h : walk t follow here names = .arrived s)
    (hno : t.isDirAt s.place ≠ true) : s.place.getLast? = names.getLast? := by
  induction names generalizing here with
  | nil =>
    cases h
    exact absurd hd hno
  | cons n rest ih =>
    have hgo : ∀ {d}, t.isDirAt d = true → walk t follow d rest = .arrived s →
        s.place.getLast? = (n :: rest).getLast? := by
      intro d hd' hwalk
      cases rest with
      | nil =>
        cases hwalk
        exact absurd hd' hno
      | cons k rest => rw [ih hd' hwalk, List.getLast?_cons_cons]
    have hend : rest.isEmpty = true → (here ++ [n]).getLast? = (n :: rest).getLast? := by
      intro hrest
      rw [List.isEmpty_iff.1 hrest, List.getLast?_concat]
      rfl
    rcases step_cases n with rfl | rfl | ⟨h1, h2, h3⟩ | ⟨h1, h2, h3⟩
    · rw [walk_dot] at h
      exact hgo hd h
    · rw [walk_dots] at h
      exact hgo (hs.isDirAt_up hd) h
    · rw [walk_name h1 h2 h3] at h
      split at h
      · split at h
        · next hrest =>
          cases h
          exact hend hrest
        · cases h
      · next he => exact hgo (at?_dir he) h
      · split at h
        · next hrest =>
          cases h
          exact hend hrest
        · cases h
      · split at h
        · next hrest =>
          cases h
          exact hend (Bool.and_eq_true _ _ ▸ hrest).1
        · cases h
    · rw [walk_long h1 h2 h3] at h
      cases h

/-- Following a link neither brings in the name nor takes it away. -/
lemma walk_jump_last (hm : t.Unlinked m) (h : walk t true here names = .jump start rest) :
    rest.getLast? = some m ↔ names.getLast? = some m := by
  induction names generalizing here with
  | nil => cases h
  | cons n names ih =>
    have hgo : ∀ {d}, walk t true d names = .jump start rest →
        (rest.getLast? = some m ↔ (n :: names).getLast? = some m) := by
      intro d hwalk
      cases names with
      | nil => cases hwalk
      | cons k names => rw [ih hwalk, List.getLast?_cons_cons]
    rcases step_cases n with rfl | rfl | ⟨h1, h2, h3⟩ | ⟨h1, h2, h3⟩
    · rw [walk_dot] at h
      exact hgo h
    · rw [walk_dots] at h
      exact hgo h
    · rw [walk_name h1 h2 h3] at h
      split at h
      · split at h <;> cases h
      · exact hgo h
      · split at h <;> cases h
      · next x hx =>
        simp only [Bool.not_true, Bool.and_false, Bool.false_eq_true, if_false] at h
        cases h
        obtain ⟨hname, htarget⟩ := hm _ x (at?_link.1 hx)
        cases names with
        | nil =>
          rw [List.getLast?_concat] at hname
          rw [List.append_nil]
          exact ⟨fun hl => absurd hl htarget, fun hl => absurd hl hname⟩
        | cons k names =>
          rw [List.getLast?_append_of_ne_nil _ (List.cons_ne_nil _ _), List.getLast?_cons_cons]
    · rw [walk_long h1 h2 h3] at h
      cases h

lemma walkLinks_last (hs : t.Sound) (hm : t.Unlinked m) (hd : t.isDirAt here = true)
    (h : walkLinks t true fuel here names = .ok s) (hno : t.isDirAt s.place ≠ true) :
    s.place.getLast? = some m ↔ names.getLast? = some m := by
  induction fuel generalizing here names with
  | zero => cases h
  | succ fuel ih =>
    rw [walkLinks] at h
    split at h
    · next hw =>
      cases h
      rw [walk_last hs hd hw hno]
    · cases h
    · next hw => rw [ih (walk_jump hs hd hw) h, walk_jump_last hm hw]

/-- What is no directory has the name if the path to it ends in that name, and not otherwise. -/
lemma locate_last (hs : t.Sound) (hm : t.Unlinked m) (h : t.locate cwd true p = .ok s) (hno : t.isDirAt s.place ≠ true) :
    s.place.getLast? = some m ↔ (steps p.chars).getLast? = some m := by
  rw [locate_eq_resolve (refused_of_locate_ok h), resolve] at h
  split at h
  · next hd => exact walkLinks_last hs hm hd h hno
  · cases h

/-- Nothing is taken away and no link is made, and outside of `X` what there was is as it was. -/
structure Persists (X : Set Place) (t t' : Tree) : Prop where
  sound : t'.Sound
  grows : t.Grows t'
  links : ∀ q x, t'.node? q = some (.link x) → t.node? q = some (.link x)
  keep : ∀ q, q ∉ X → t.node? q ≠ none → t'.node? q = t.node? q

namespace Persists

lemma of_adds (hs' : t'.Sound) (h : t.Adds t') : t.Persists X t' where
  sound := hs'
  grows := .of_node? fun _ => h.keep
  links q x hx := by
    rcases h q with hq | ⟨-, hq | ⟨b, a, hq⟩⟩
    · rwa [hq] at hx
    · rw [hq] at hx
      cases hx
    · rw [hq] at hx
      cases hx
  keep q _ := h.keep

lemma refl (hs : t.Sound) : t.Persists X t := .of_adds hs (.refl t)

lemma mono (h : t.Persists X t') (hX : X ⊆ Y) : t.Persists Y t' :=
  ⟨h.sound, h.grows, h.links, fun q hq => h.keep q fun hx => hq (hX hx)⟩

lemma trans (h : t.Persists X t') (h' : t'.Persists X t'') : t.Persists X t'' where
  sound := h'.sound
  grows q n hn := by
    obtain ⟨n', hn', ha⟩ := h.grows q n hn
    obtain ⟨n'', hn'', ha'⟩ := h'.grows q n' hn'
    refine ⟨n'', hn'', ?_⟩
    cases n <;> cases n' <;> cases n'' <;> simp_all [Node.Alike]
  links q x hx := h.links q x (h'.links q x hx)
  keep q hq hn := by
    have hkeep := h.keep q hq hn
    exact (h'.keep q hq (hkeep ▸ hn)).trans hkeep

/-- A file is written over, or written where nothing was. -/
lemma of_sets {b : ByteArray} {a : Attrs} (hs' : t'.Sound) (h : t.Sets t' l (some (.file b a))) (hl : l ∈ X)
    (hfile : t.node? l = none ∨ ∃ b a, t.node? l = some (.file b a)) : t.Persists X t' where
  sound := hs'
  grows q n hn := by
    by_cases hq : l = q
    · subst hq
      rcases hfile with hnone | ⟨b', a', hfile⟩
      · rw [hnone] at hn
        cases hn
      · obtain rfl := Option.some.inj (hfile.symm.trans hn)
        exact ⟨_, h.same, trivial⟩
    · exact ⟨n, (h.other hq).trans hn, n.alike_refl⟩
  links q x hx := by
    by_cases hq : l = q
    · subst hq
      rw [h.same] at hx
      cases hx
    · rwa [h.other hq] at hx
  keep q hq _ := h.other fun heq => hq (heq ▸ hl)

lemma unlinked (h : t.Persists X t') (hm : t.Unlinked m) : t'.Unlinked m := fun q x hx => hm q x (h.links q x hx)

lemma has (h : t.Persists X t') (hs : t.Sound) (hhas : t.has cwd p = true) : t'.has cwd p = true := by
  obtain ⟨l, e, hstat⟩ := has_iff.1 hhas
  obtain ⟨e', hstat', -⟩ := stat_grows hs h.grows hstat
  exact has_iff.2 ⟨l, e', hstat'⟩

lemma stat {b : ByteArray} {a : Attrs} (h : t.Persists X t') (hs : t.Sound) (hstat : t.stat cwd p = .ok (l, .file b a))
    (hl : l ∉ X) : t'.stat cwd p = .ok (l, .file b a) := by
  have hnode := at?_file.1 (stat_ok hs hstat).1
  obtain ⟨e, hstat', he⟩ := stat_grows hs h.grows hstat
  rw [at?_file.2 ((h.keep l hl (by simp [hnode])).trans hnode)] at he
  exact Option.some.inj he ▸ hstat'

end Persists

end Tree

open FileOrganizer.Tree FileOrganizer.Disk

/-- The file that a path leads to is copied to where another one leads. -/
lemma Disk.copyFile_stat {t t' : Tree} {who : Actor} {p q : Path} {l : Place} {c : ByteArray} {a : Attrs} (hs : t.Sound)
    (hstat : t.stat who.cwd p = .ok (l, .file c a)) (h : copyFile who p q t = (.ok (), t')) :
    t'.Sound ∧ t.Adds t' ∧ t'.stat who.cwd p = .ok (l, .file c a) ∧
      ∃ l' a', t'.stat who.cwd q = .ok (l', .file c a') := by
  obtain ⟨hs', hadd⟩ := copyFile_adds hs h
  have hsource : ∀ {u : Tree}, u.Sound → t.Adds u → u.stat who.cwd p = .ok (l, .file c a) := fun hu hgrown =>
    (Persists.of_adds hu hgrown).stat hs hstat (Set.notMem_empty l)
  refine ⟨hs', hadd, hsource hs' hadd, ?_⟩
  rcases (copyFile_cases hs h).2 with ⟨⟨e, he⟩, -⟩ | ⟨t₁, hs₁, hpaved, -, hcop⟩
  · cases he
  have hgrown := hcop.adds hs₁
  obtain ⟨ls, c', a₁, l', a', hst, hloc, -, hset⟩ := hcop
  rw [hsource hs₁ (hpaved.addsDirs hs).2.adds] at hst
  cases hst
  refine ⟨l', a', stat_eq_ok.2 ?_⟩
  rw [locate_grows (Persists.of_adds (X := ∅) hs' hgrown).grows id hloc fun _ x hx => by simp [hset.same] at hx,
    at?_file.2 hset.same]

end FileOrganizer
