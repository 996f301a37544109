import FileOrganizer.Proofs.Tree.Linked
import FileOrganizer.Proofs.Tree.Prune
import FileOrganizer.Proofs.Tree.Spared

/-! Empty directories that are removed from the inside out in any tree, symbolic links or not: which ones go, where it
ends, and what keeps them below the directory that stays. -/

namespace FileOrganizer

open FileOrganizer.Tree FileOrganizer.Disk

variable {who : Actor} {t t₀ t₁ t' : Tree} {cwd c d here l q S : Place} {p start stop : Path} {m n : String}
  {names xs : List String} {s : Spot} {fuel : Nat}

namespace Tree

lemma walk_undot (h : walk t true here (xs ++ ["."]) = .arrived s) :
    walk t true here xs = .arrived ⟨s.place, t.at? s.place⟩ := by
  have hwalk : walk t true here (xs ++ []) = walk t true s.place [] := walk_append_arrived h
  rwa [List.append_nil, walk_nil] at hwalk

lemma walk_undot_jump {rest : List String} {next : Place} (h : walk t true here (xs ++ ["."]) = .jump next rest) :
    ∃ zs, rest = zs ++ ["."] ∧ walk t true here xs = .jump next zs := by
  induction xs generalizing here with
  | nil =>
    rw [List.nil_append, walk_dot, walk_nil] at h
    cases h
  | cons n xs ih =>
    rcases step_cases n with rfl | rfl | ⟨h1, h2, h3⟩ | ⟨h1, h2, h3⟩
    · rw [List.cons_append, walk_dot] at h
      simpa only [walk_dot] using ih h
    · rw [List.cons_append, walk_dots] at h
      simpa only [walk_dots] using ih h
    · rw [List.cons_append, walk_name h1 h2 h3] at h
      rw [walk_name h1 h2 h3]
      split at h
      · simp at h
      · exact ih h
      · simp at h
      · simp only [Bool.not_true, Bool.and_false, Bool.false_eq_true, if_false, Walk.jump.injEq] at h ⊢
        obtain ⟨hnext, hrest⟩ := h
        exact ⟨_, by rw [← hrest, List.append_assoc], hnext, rfl⟩
    · rw [List.cons_append, walk_long h1 h2 h3] at h
      cases h

/-- What a dot behind it is taken in, the way itself leads to. -/
lemma walkLinks_undot (h : walkLinks t true fuel here (xs ++ ["."]) = .ok s) :
    walkLinks t true fuel here xs = .ok ⟨s.place, t.at? s.place⟩ := by
  induction fuel generalizing here xs with
  | zero => cases h
  | succ fuel ih =>
    rw [walkLinks] at h ⊢
    split at h
    · next hw =>
      cases h
      rw [walk_undot hw]
    · cases h
    · next hw =>
      obtain ⟨zs, rfl, hz⟩ := walk_undot_jump hw
      rw [hz]
      exact ih h

/-- The path before the last part of a path is taken if the path is. -/
lemma refused_parent (hr : refused p = none) (ha : p.isAbsolute = true) (hq : p.parent? = some start) :
    refused start = none := by
  rcases List.eq_nil_or_concat p.body with hnil | ⟨ps, x, hp⟩
  · rw [Path.parent?_root ha hnil] at hq
    cases hq
  · obtain ⟨rest, hrest, hpre, -⟩ := Path.parent?_absolute ha (by simpa using hp)
    obtain rfl : Path.above rest = start := Option.some.inj (hrest.symm.trans hq)
    refine refused_of_prefix hr ?_ fun h0 => ?_
    · rw [Path.chars_above, Path.chars_absolute ha, List.prefix_cons_inj]
      by_cases hnil : rest = []
      · simp [hnil, Text.join]
      · exact Text.join_prefix hpre hnil
    · have habs : (Path.above rest).isAbsolute = true := Path.isAbsolute_above
      simp [Path.isAbsolute, Path.chars, h0] at habs

/-- The path before the last part leads to where the last step is taken, through links or not. -/
lemma stat_parent (hs : t.Sound) (h : t.parentOf cwd p = .ok (d, .name n)) (ha : p.isAbsolute = true)
    (hq : p.parent? = some start) : ∃ a, t.stat cwd start = .ok (d, .dir a) := by
  obtain ⟨a, hd⟩ := at?_of_isDirAt (parentOf_isDirAt hs h)
  obtain ⟨habs, hbody⟩ := Path.parent?_body hq
  obtain ⟨ns, hns, hr, hdot, -, hway⟩ := way_of_parentOf hs h
  rw [start_absolute ha] at hway
  have hfilter : (segments start.chars).filter (· ≠ ".") = ns.filter (· ≠ ".") := by
    have htext : (segments p.chars).filter (· ≠ ".") = p.body.map Part.text := Path.segments_text
    have htext' : (segments start.chars).filter (· ≠ ".") = start.body.map Part.text := Path.segments_text
    rw [hns, List.filter_append, List.filter_cons_of_pos (by simpa using hdot), List.filter_nil] at htext
    rw [htext', hbody, List.map_dropLast, ← htext, List.dropLast_concat]
  rw [walkLinks_dots_between (List.cons_ne_nil _ _), ← hfilter, ← walkLinks_dots_between (List.cons_ne_nil _ _)] at hway
  have htop : t.isDirAt [] = true := rfl
  refine ⟨a, stat_eq_ok.2 ?_⟩
  rw [locate_eq_resolve (refused_parent hr ha hq), resolve, start_absolute (habs.trans ha), if_pos htop, ← hd, steps]
  split
  · exact hway
  · exact walkLinks_undot hway

lemma parent_of_parentOf (ha : p.isAbsolute = true) (h : t.parentOf cwd p = .ok (d, .name n)) :
    ∃ q, p.parent? = some q ∧ p.parts = q.parts ++ [.name n] ∧ q.body.length < p.body.length := by
  obtain ⟨ps, hps⟩ := List.getLast?_eq_some_iff.1 (Path.getLast?_body h)
  obtain ⟨q, hq⟩ := Path.parent?_isSome (p := p) (by simp [hps])
  obtain ⟨hqa, hqbody⟩ := Path.parent?_body hq
  rw [hps, List.dropLast_concat] at hqbody
  refine ⟨q, hq, ?_, by simp [hqbody, hps]⟩
  rw [Path.parts_of_absolute ha, Path.parts_of_absolute (hqa.trans ha), hqbody, hps, List.cons_append]

/-- Below `c` the directories along some names were removed, the last one first, each of them when it was empty. -/
inductive Cleared (c : Place) : List String → Tree → Tree → Prop
  | none {t : Tree} : Cleared c [] t t
  | up {names : List String} {n : String} {t t₁ t' : Tree} (dir : t.isDirAt (c ++ (names ++ [n])) = true)
      (empty : ∀ m, t.node? (c ++ (names ++ [n]) ++ [m]) = Option.none)
      (sets : t.Sets t₁ (c ++ (names ++ [n])) Option.none) (rest : Cleared c names t₁ t') :
      Cleared c (names ++ [n]) t t'

namespace Cleared

lemma other (h : Cleared c names t t') (hq : ∀ ms, ms ≠ [] → ms <+: names → q ≠ c ++ ms) : t'.node? q = t.node? q := by
  induction h with
  | none => rfl
  | up dir empty sets rest ih =>
    rw [ih fun ms hne hms => hq ms hne (hms.trans (List.prefix_append _ _))]
    exact sets.other fun heq => hq _ (by simp) List.prefix_rfl heq.symm

lemma gone (h : Cleared c names t t') {ms : List String} (hne : ms ≠ []) (hms : ms <+: names) :
    t'.node? (c ++ ms) = Option.none := by
  induction h with
  | none => exact absurd (List.prefix_nil.1 hms) hne
  | @up names n t t₁ t' dir empty sets rest ih =>
    rcases List.prefix_concat_iff.1 hms with rfl | hms
    · rw [rest.other fun ks _ hks heq => ?_, sets.same]
      have hlen := hks.length_le
      rw [← List.append_cancel_left heq, List.length_append, List.length_singleton] at hlen
      omega
    · exact ih hms

lemma nil (h : Cleared c [] t t') : t' = t := by
  generalize hnames : ([] : List String) = names at h
  cases h with
  | none => rfl
  | up => simp at hnames

/-- Only directories are removed. -/
lemma keeps (h : Cleared c names t t') (hq : ∀ k, t.node? q ≠ some (.dir k)) : t'.node? q = t.node? q := by
  induction h with
  | none => rfl
  | up dir empty sets rest ih =>
    obtain ⟨k, hk⟩ := isDirAt_iff.1 dir
    have hother := sets.other (q := q) fun heq => hq k (by rw [← heq, hk])
    rw [ih fun k => by rw [hother]; exact hq k, hother]

end Cleared

/-- The directory that a removal goes on with is spelled below `stop`, or is `stop`. -/
lemma startsWith_of_strict {x : Part} (hp : p.parts = start.parts ++ [x]) (hne : p.same stop = false)
    (hin : p.startsWith stop = true) : start.startsWith stop = true := by
  rw [Path.startsWith, List.isPrefixOf_iff_prefix] at hin ⊢
  rw [hp] at hin
  rcases List.prefix_concat_iff.1 hin with heq | hpre
  · rw [Path.same, hp, heq, BEq.rfl] at hne
    cases hne
  · exact hpre

/-- `p` ends with names, behind `stop` or behind a `..`, along which it leads down from a place in `S`. -/
def LeadsDown (cwd : Place) (stop p : Path) (S : Place) (t : Tree) : Prop :=
  ∃ (first : List Part) (names : List String) (l : Place) (a : Attrs),
    p.parts = first ++ names.map .name ∧ (first = stop.parts ∨ first.getLast? = some .up) ∧
      t.stat cwd p = .ok (l ++ names, .dir a) ∧ S <+: l

/-- Without links and without a `..` behind `stop` every path below `stop` leads down. -/
lemma leadsDown_of_plain {e : Entry} {a : Attrs} (hp : t.Plain) (ha : stop.isAbsolute = true)
    (hstop : t.stat cwd stop = .ok (S, e)) (hparts : start.parts = stop.parts ++ names.map .name)
    (hstart : t.stat cwd start = .ok (l, .dir a)) : LeadsDown cwd stop start S t := by
  have hsa : start.isAbsolute = true := by
    rw [Path.isAbsolute_iff_head, hparts, Path.parts_of_absolute ha]
    rfl
  have hbody : start.body = stop.body ++ names.map .name := by
    rw [Path.parts_of_absolute ha, Path.parts_of_absolute hsa, List.cons_append] at hparts
    exact (List.cons.inj hparts).2
  have hplace : l = S ++ names := by
    rw [stat_place hp hstart, stat_place hp hstop, Path.place_eq, Path.place_eq, start_absolute ha, start_absolute hsa,
      hbody, Path.reduce_append, Path.reduce_names]
    simp
  exact ⟨stop.parts, names, S, a, hparts, Or.inl rfl, hplace ▸ hstart, List.prefix_rfl⟩

end Tree

namespace Disk

lemma prune_next (hne : p.same stop = false) (hin : p.startsWith stop = true) (hrem : Tree.removeDir who p t = .ok t₁)
    (hq : p.parent? = some start) : prune who stop (fuel + 1) p t = prune who stop fuel start t₁ := by
  rw [prune]
  simp [hne, hin, hrem, hq]

/-- What was removed from `start` upward: `base` is where it ended, and led to `c` in the tree `t₀` of the outset. -/
structure Swept (who : Actor) (t₀ : Tree) (stop start : Path) (t t' : Tree) (base : Path) (c : Place)
    (names : List String) : Prop where
  run : ∀ fuel, start.parts.length < fuel → prune who stop fuel start t = (.ok (), t')
  cleared : Cleared c names t t'
  start_parts : start.parts = base.parts ++ names.map .name
  start_stat : ∃ a, t₀.stat who.cwd start = .ok (c ++ names, .dir a)
  base_stat : ∃ a, t₀.stat who.cwd base = .ok (c, .dir a)
  inside : base.startsWith stop = start.startsWith stop
  outside : start.startsWith stop = false → names = []
  ended : base.same stop = true ∨ base.startsWith stop = false ∨ ∃ e, Tree.removeDir who base t' = .error e

lemma swept_here {a : Attrs} (hstat : t₀.stat who.cwd start = .ok (l, .dir a))
    (hend : start.same stop = true ∨ start.startsWith stop = false ∨ ∃ e, Tree.removeDir who start t = .error e) :
    Swept who t₀ stop start t t start l [] where
  run fuel _ := by
    rcases hend with h | h | ⟨e, he⟩
    · exact prune_outside (Or.inl h)
    · exact prune_outside (Or.inr h)
    · exact prune_stuck he
  cleared := .none
  start_parts := by simp
  start_stat := ⟨a, by simpa using hstat⟩
  base_stat := ⟨a, hstat⟩
  inside := rfl
  outside _ := rfl
  ended := hend

/-- A directory that was removed is the last one below those that are removed after it. -/
lemma Swept.up {q base : Path} {a : Attrs} (hp : start.parts = q.parts ++ [.name n])
    (hstat : t₀.stat who.cwd start = .ok (d ++ [n], .dir a)) (hq : ∃ a, t₀.stat who.cwd q = .ok (d, .dir a))
    (hne : start.same stop = false) (hin : start.startsWith stop = true) (hparent : start.parent? = some q)
    (hrem : Tree.removeDir who start t = .ok t₁) (hdir : t.isDirAt (d ++ [n]) = true)
    (hempty : ∀ m, t.node? (d ++ [n] ++ [m]) = none) (hsets : t.Sets t₁ (d ++ [n]) none)
    (h : Swept who t₀ stop q t₁ t' base c names) : Swept who t₀ stop start t t' base c (names ++ [n]) := by
  have hplace : d = c ++ names := by
    obtain ⟨b, hb⟩ := hq
    obtain ⟨b', hb'⟩ := h.start_stat
    exact congrArg Prod.fst (Except.ok.inj (hb.symm.trans hb'))
  subst hplace
  have hqin := startsWith_of_strict hp hne hin
  exact {
    run fuel hfuel := by
      rw [hp, List.length_append, List.length_singleton] at hfuel
      obtain ⟨fuel, rfl⟩ : ∃ m, fuel = m + 1 := ⟨fuel - 1, by omega⟩
      rw [prune_next hne hin hrem hparent]
      exact h.run fuel (by omega)
    cleared := by
      rw [List.append_assoc] at hdir hempty hsets
      exact .up hdir hempty hsets h.cleared
    start_parts := by simp [hp, h.start_parts]
    start_stat := ⟨a, by simpa using hstat⟩
    base_stat := h.base_stat
    inside := by rw [h.inside, hqin, hin]
    outside hout := by simp [hin] at hout
    ended := h.ended }

lemma exists_swept (stop : Path) (hs₀ : t₀.Sound) (hs : t.Sound) (hg : t.Grows t₀) (ha : start.isAbsolute = true)
    {a : Attrs} (hstat : t₀.stat who.cwd start = .ok (l, .dir a)) :
    ∃ t' base c names, Swept who t₀ stop start t t' base c names := by
  induction hk : start.body.length using Nat.strong_induction_on generalizing start t l a with
  | _ k ih =>
    by_cases hend : start.same stop = true ∨ start.startsWith stop = false
    · exact ⟨t, start, l, [], swept_here hstat (hend.imp_right Or.inl)⟩
    push Not at hend
    cases hrem : Tree.removeDir who start t with
    | error e => exact ⟨t, start, l, [], swept_here hstat (Or.inr (Or.inr ⟨e, hrem⟩))⟩
    | ok t₁ =>
      obtain ⟨d, n, k', hpar, hnode, -, hempty, hsets⟩ := removeDir_ok hrem
      have hdir := isDirAt_iff.2 ⟨k', hnode⟩
      have hpar₀ := parentOf_grows hg hpar
      obtain ⟨q, hq, hparts, hshort⟩ := parent_of_parentOf ha hpar
      obtain ⟨b, hqstat⟩ := stat_parent hs₀ hpar₀ ha hq
      have hplace : l = d ++ [n] := by
        obtain ⟨b', hb'⟩ := stat_of_dir hpar₀ (hg.dir hdir)
        exact congrArg Prod.fst (Except.ok.inj (hstat.symm.trans hb'))
      subst hplace
      have hgrows : t₁.Grows t₀ := by
        intro r x hx
        by_cases hr : d ++ [n] = r
        · rw [← hr, hsets.same] at hx
          cases hx
        · exact hg r x ((hsets.other hr).symm.trans hx)
      obtain ⟨t', base, c, names, hswept⟩ := ih q.body.length (by omega) (sound_of_removeDir hs hrem) hgrows
        ((Path.parent?_body hq).1.trans ha) hqstat rfl
      exact ⟨t', base, c, names ++ [n], hswept.up hparts hstat ⟨b, hqstat⟩ (by simpa using hend.1)
        (by simpa using hend.2) hq hrem hdir hempty hsets⟩

/-- No more names are taken away from a path than it ends with behind `stop` or behind a `..`. -/
lemma length_le_of_parts {first base : List Part} {ms : List String}
    (h : first ++ ms.map .name = base ++ names.map .name) (hfirst : first <+: base ∨ first.getLast? = some .up) :
    names.length ≤ ms.length := by
  rcases List.append_eq_append_iff.1 h with ⟨as, -, hms⟩ | ⟨as, hbase, hnames⟩
  · have hlen := congrArg List.length hms
    simp only [List.length_append, List.length_map] at hlen
    omega
  · rcases List.eq_nil_or_concat as with rfl | ⟨as, x, rfl⟩
    · simpa using (congrArg List.length hnames).le
    · exfalso
      rw [List.concat_eq_append] at hbase hnames
      have hx : x ∈ names.map Part.name := by simp [hnames]
      rcases hfirst with hpre | hup
      · have hle := hpre.length_le
        rw [hbase, List.length_append, List.length_append, List.length_singleton] at hle
        omega
      · rw [hbase, ← List.append_assoc, List.getLast?_concat] at hup
        obtain ⟨m, -, hm⟩ := List.mem_map.1 hx
        rw [← hm] at hup
        cases hup

lemma Swept.untouched {base : Path} (h : Swept who t stop start t t' base c names)
    (hdown : LeadsDown who.cwd stop start S t) (hq : ¬(S <+: q ∧ q ≠ S)) : t'.node? q = t.node? q := by
  obtain ⟨first, ms, l, a, hparts, hfirst, hstat, hS⟩ := hdown
  obtain ⟨a', hstat'⟩ := h.start_stat
  have hplace : l ++ ms = c ++ names := congrArg Prod.fst (Except.ok.inj (hstat.symm.trans hstat'))
  refine h.cleared.other fun ks hne hks heq => hq ?_
  have hin : base.startsWith stop = true := by
    rw [h.inside]
    by_contra hout
    have hnil := h.outside (by simpa using hout)
    rw [hnil] at hks
    exact hne (List.prefix_nil.1 hks)
  have hle : names.length ≤ ms.length := by
    refine length_le_of_parts (hparts.symm.trans h.start_parts) (hfirst.imp_left fun heq => ?_)
    rw [heq]
    exact List.isPrefixOf_iff_prefix.1 hin
  have hlc : l <+: c := by
    refine List.prefix_of_prefix_length_le (List.prefix_append l ms) (hplace ▸ List.prefix_append c names) ?_
    have hlen := congrArg List.length hplace
    simp only [List.length_append] at hlen
    omega
  have hSc := hS.trans hlc
  refine ⟨heq ▸ hSc.trans (List.prefix_append c ks), fun hqS => ?_⟩
  have hlong := hSc.length_le
  rw [← hqS, heq, List.length_append] at hlong
  exact hne (List.length_eq_zero_iff.1 (by omega))

/-- The clean-up ends, and what it has removed are directories that were empty, from where `start` leads upward to below
where a path leads that is spelled below `stop`, be it inside of `stop` or not. Where `start` leads down, nothing is
changed but below `stop`. -/
theorem prune_clears (who : Actor) (stop : Path) (hs : t.Sound) (ha : start.isAbsolute = true) :
    ∃ (t' : Tree) (base : Path) (names : List String),
      (∀ fuel, start.parts.length < fuel → prune who stop fuel start t = (.ok (), t')) ∧
      start.parts = base.parts ++ names.map .name ∧
      (base.same stop = true ∨ base.startsWith stop = false ∨ ∃ e, Tree.removeDir who base t' = .error e) ∧
      (names = [] ∧ t' = t ∨ base.startsWith stop = true ∧ ∃ c a a', t.stat who.cwd start = .ok (c ++ names, .dir a) ∧
        t.stat who.cwd base = .ok (c, .dir a') ∧ Cleared c names t t') ∧
      (∀ q, (∀ k, t.node? q ≠ some (.dir k)) → t'.node? q = t.node? q) ∧
      ∀ S, LeadsDown who.cwd stop start S t → ∀ q, ¬(S <+: q ∧ q ≠ S) → t'.node? q = t.node? q := by
  by_cases hdir : ∃ l a, t.stat who.cwd start = .ok (l, .dir a)
  · obtain ⟨l, a, hstat⟩ := hdir
    obtain ⟨t', base, c, names, h⟩ := exists_swept stop hs hs (.of_node? fun _ _ => rfl) ha hstat
    refine ⟨t', base, names, h.run, h.start_parts, h.ended, ?_, fun q => h.cleared.keeps,
      fun S hdown q => h.untouched hdown⟩
    cases hin : start.startsWith stop with
    | false =>
      obtain rfl := h.outside hin
      exact Or.inl ⟨rfl, h.cleared.nil⟩
    | true =>
      obtain ⟨a, hstart⟩ := h.start_stat
      obtain ⟨a', hbase⟩ := h.base_stat
      exact Or.inr ⟨h.inside.trans hin, c, a, a', hstart, hbase, h.cleared⟩
  · have hstuck : ∃ e, Tree.removeDir who start t = .error e := by
      cases hrem : Tree.removeDir who start t with
      | error e => exact ⟨e, rfl⟩
      | ok t₁ =>
        obtain ⟨d, n, k, hpar, hnode, -⟩ := removeDir_ok hrem
        obtain ⟨a, hstat⟩ := stat_of_dir hpar (isDirAt_iff.2 ⟨k, hnode⟩)
        exact absurd ⟨_, a, hstat⟩ hdir
    obtain ⟨e, he⟩ := hstuck
    exact ⟨t, start, [], fun fuel _ => prune_stuck he, by simp, Or.inr (Or.inr ⟨e, he⟩), Or.inl ⟨rfl, rfl⟩,
      fun q _ => rfl, fun S _ q _ => rfl⟩

/-- Two empty directories, one in the other, and one beside the directory they are in. -/
def hollow : Tree :=
  ⟨[(["r"], .dir default), (["r", "a"], .dir default), (["r", "a", "b"], .dir default), (["o"], .dir default)]⟩

theorem prune_clears_hollow : hollow.Sound ∧ LeadsDown [] ⟨"/r"⟩ ⟨"/r/a/b"⟩ ["r"] hollow ∧
    ∃ t', pruneUpTo ⟨[], default⟩ ⟨"/r/a/b"⟩ ⟨"/r"⟩ hollow = (.ok (), t') ∧
      ∀ q, ¬(["r"] <+: q ∧ q ≠ ["r"]) → t'.node? q = hollow.node? q := by
  have hs : hollow.Sound := sound_of_entries (by decide)
  have hp : hollow.Plain := plain_of_entries (by decide)
  have hparts : (⟨"/r/a/b"⟩ : Path).parts = (⟨"/r"⟩ : Path).parts ++ ["a", "b"].map .name := by decide
  have hdown : LeadsDown [] ⟨"/r"⟩ ⟨"/r/a/b"⟩ ["r"] hollow := leadsDown_of_plain hp (by decide)
    (show hollow.stat [] ⟨"/r"⟩ = .ok (["r"], .dir default) from rfl) hparts
    (show hollow.stat [] ⟨"/r/a/b"⟩ = .ok (["r", "a", "b"], .dir default) from rfl)
  have habs : (⟨"/r/a/b"⟩ : Path).isAbsolute = true := by decide
  obtain ⟨t', base, names, hrun, -, -, -, -, hkeep⟩ := prune_clears ⟨[], default⟩ ⟨"/r"⟩ hs habs
  exact ⟨hs, hdown, t', hrun _ (Nat.lt_succ_self _), hkeep ["r"] hdown⟩

/-- A path that is spelled below the directory that stays can lead out of it, and what is removed is where it leads. -/
theorem prune_clears_fails : ¬∀ (who : Actor) (t : Tree) (start stop : Path) (S : Place) (e : Entry), t.Sound →
    t.Plain → start.isAbsolute = true → stop.isAbsolute = true → t.stat who.cwd stop = .ok (S, e) →
    ∀ q, ¬(S <+: q ∧ q ≠ S) → (pruneUpTo who start stop t).2.node? q = t.node? q := by
  intro hall
  have hgone := hall ⟨[], default⟩ hollow ⟨"/r/../o"⟩ ⟨"/r"⟩ ["r"] (.dir default) (sound_of_entries (by decide))
    (plain_of_entries (by decide)) (by decide) (by decide) rfl ["o"] (by decide)
  have hdirs : (pruneUpTo ⟨[], default⟩ ⟨"/r/../o"⟩ ⟨"/r"⟩ hollow).2.isDirAt ["o"] = false ∧
      hollow.isDirAt ["o"] = true := by
    decide +kernel
  rw [isDirAt_congr hgone, hdirs.2] at hdirs
  cases hdirs.1

end Disk

end FileOrganizer
