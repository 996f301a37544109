import FileOrganizer.Proofs.Tree.Linked

/-! What is done along paths that go on from a directory and do not come back above it changes nothing but what lies
below the directory, as long as no links lie there. The directory itself may be reached through links. -/

namespace FileOrganizer

open FileOrganizer.Tree FileOrganizer.Disk

variable {who : Actor} {cwd d q R : Place} {t t₁ t' : Tree} {root p p' source target : Path} {ps qs : List Part}
  {l ns xs ys zs : List String} {n : String} {r : Except Fault Unit} {fuel : Nat} {follow : Bool} {s : Spot}

namespace Path

/-- No first few of these parts lead above where they begin. -/
def Inner (ps : List Part) : Prop := ∀ base qs, qs <+: ps → base <+: (reduce base.reverse qs).reverse

lemma Inner.initial (h : Inner ps) (hqs : qs <+: ps) : Inner qs := fun base rs hrs => h base rs (hrs.trans hqs)

lemma Inner.append (h : Inner ps) (h' : Inner qs) : Inner (ps ++ qs) := by
  intro base rs hrs
  rcases List.prefix_or_prefix_of_prefix hrs (List.prefix_append ps qs) with hpre | ⟨rest, rfl⟩
  · exact h base rs hpre
  · have hrest := h' (reduce base.reverse ps).reverse rest ((List.prefix_append_right_inj _).1 hrs)
    rw [List.reverse_reverse, ← reduce_append] at hrest
    exact (h base ps List.prefix_rfl).trans hrest

lemma inner_names (l : List String) : Inner (l.map .name) := by
  intro base qs hqs
  obtain ⟨m, -, rfl⟩ := List.prefix_map_iff.1 hqs
  simp [reduce_names]

/-- The path goes on from the root and does not come back above it. -/
def Enters (root p : Path) : Prop := p.isAbsolute = root.isAbsolute ∧ ∃ ps, p.body = root.body ++ ps ∧ Inner ps

/-- The last step of such a path is one down to a name. -/
def Below (root p : Path) : Prop :=
  p.isAbsolute = root.isAbsolute ∧ ∃ ps n, p.body = root.body ++ (ps ++ [.name n]) ∧ Inner ps

lemma Below.enters (h : Below root p) : Enters root p ∧ p.body ≠ root.body := by
  obtain ⟨habs, ps, n, hps, hin⟩ := h
  exact ⟨⟨habs, _, hps, hin.append (inner_names [n])⟩, by simp [hps]⟩

lemma Enters.child (h : Enters root p) (hn : Proper n) : Below root (p.child n) := by
  obtain ⟨habs, ps, hps, hin⟩ := h
  exact ⟨(isAbsolute_child hn).trans habs, ps, n, by rw [body_child hn, hps, List.append_assoc], hin⟩

/-- A path above one that goes on from the root does so too, or it is above the root. -/
lemma Enters.above (h : Enters root p) (ha : p'.isAbsolute = p.isAbsolute) (hbody : p'.body <+: p.body) :
    Enters root p' ∨ p'.isAbsolute = root.isAbsolute ∧ p'.body <+: root.body := by
  obtain ⟨habs, ps, hps, hin⟩ := h
  rcases List.prefix_or_prefix_of_prefix (hps ▸ hbody) (List.prefix_append root.body ps) with hpre | ⟨qs, hqs⟩
  · exact Or.inr ⟨ha.trans habs, hpre⟩
  · rw [hps, ← hqs] at hbody
    exact Or.inl ⟨ha.trans habs, qs, hqs.symm, hin.initial ((List.prefix_append_right_inj _).1 hbody)⟩

end Path

namespace Tree

/-- The root leads to a directory, and there are no links below that. -/
structure Site (t : Tree) (cwd : Place) (root : Path) (R : Place) : Prop where
  sound : t.Sound
  leads : ∃ a, t.stat cwd root = .ok (R, .dir a)
  bare : ∀ q x, R <+: q → t.node? q ≠ some (.link x)

/-- Nothing has changed but what lies below the place. -/
def ChangesBelow (t t' : Tree) (R : Place) : Prop := ∀ q, ¬(R <+: q ∧ R ≠ q) → t'.node? q = t.node? q

lemma ChangesBelow.refl (t : Tree) (R : Place) : t.ChangesBelow t R := fun _ _ => rfl

lemma ChangesBelow.trans {t'' : Tree} (h : t.ChangesBelow t' R) (h' : t'.ChangesBelow t'' R) : t.ChangesBelow t'' R :=
  fun q hq => (h' q hq).trans (h q hq)

lemma Sets.changesBelow {x : Option Node} (h : t.Sets t' q x) (hq : R <+: q ∧ R ≠ q) : t.ChangesBelow t' R := by
  intro m hm
  exact h.other fun heq => hm (heq ▸ hq)

lemma filter_segments (p : Path) : (segments p.chars).filter (· ≠ ".") = p.body.map Part.text := Path.segments_text

namespace Site

lemma dir (h : t.Site cwd root R) : t.isDirAt R = true := by
  obtain ⟨a, ha⟩ := h.leads
  exact at?_dir (stat_ok h.sound ha).1

/-- Steps that come to the same as those along the root lead to the directory. -/
lemma way (h : t.Site cwd root R) (hxs : xs.filter (· ≠ ".") = root.body.map Part.text) :
    t.isDirAt (start cwd root) = true ∧ ∃ k, ∀ follow ys, ys ≠ [] →
      walkLinks t follow (maxLinks + 1) (start cwd root) (xs ++ ys) = walkLinks t follow (k + 1) R ys := by
  obtain ⟨a, ha⟩ := h.leads
  obtain ⟨hd, hway⟩ := way_of_stat ha
  rw [walkLinks_dots_between (List.cons_ne_nil _ _), filter_segments, ← hxs,
    ← walkLinks_dots_between (List.cons_ne_nil _ _)] at hway
  exact ⟨hd, walkLinks_append_ok hway⟩

/-- No step that goes on from the directory and does not come back above it leads to a link. -/
lemma straight (h : t.Site cwd root R) (hps : Path.Inner ps) (hord : ∀ c ∈ ps, Path.Ordinary c)
    (hys : ys.filter (· ≠ ".") = ps.map Part.text) : t.Straight R ys := by
  intro zs hzs x
  obtain ⟨qs, hqs, hfilter⟩ := List.prefix_map_iff.1 (hys ▸ hzs.filter _)
  rw [Path.foldl_step_filter, hfilter, Path.foldl_step_text fun c hc => hord c (hqs.subset hc)]
  exact h.bare _ x (hps R qs hqs)

section

variable (h : t.Site cwd root R) (habs : p.isAbsolute = root.isAbsolute) (hps : p.body = root.body ++ ps)
  (hin : Path.Inner ps) (hne : ps ≠ [])

include h habs hps hin hne

/-- The steps of a path that goes on from the root are those to the directory and those on from there. -/
lemma parted : start cwd p = start cwd root ∧ ∃ xs ys, segments p.chars = xs ++ ys ∧ ys ≠ [] ∧
    xs.filter (· ≠ ".") = root.body.map Part.text ∧ t.Straight R ys ∧
      ys.foldl Path.step R = (Path.reduce R.reverse ps).reverse := by
  have hord : ∀ c ∈ ps, Path.Ordinary c := fun c hc =>
    Path.ordinary_of_mem_body (p := p) (hps ▸ List.mem_append_right _ hc)
  have hsteps := filter_segments p
  rw [hps, List.map_append] at hsteps
  obtain ⟨xs, ys, hseg, hxs, hys⟩ := List.filter_eq_append_iff.1 hsteps
  refine ⟨by rw [start, start, habs], xs, ys, hseg, ?_, hxs, h.straight hin hord hys, ?_⟩
  · rintro rfl
    exact hne (by simpa using hys.symm)
  · rw [Path.foldl_step_filter, hys, Path.foldl_step_text hord]

lemma locate_place (hloc : t.locate cwd follow p = .ok s) : s.place = (Path.reduce R.reverse ps).reverse := by
  obtain ⟨hstart, xs, ys, hseg, hys, hxs, hst, hplace⟩ := h.parted habs hps hin hne
  obtain ⟨hd, k, hk⟩ := h.way hxs
  rw [locate_eq_resolve (refused_of_locate_ok hloc), resolve, hstart, if_pos hd, steps, hseg] at hloc
  rw [← hplace]
  split at hloc
  · rw [List.append_assoc, hk follow _ (by simp)] at hloc
    rw [(hst.dot.walk_place (hst.dot.walkLinks_eq_ok.1 hloc)).1, List.foldl_append]
    rfl
  · rw [hk follow _ hys] at hloc
    exact (hst.walk_place (hst.walkLinks_eq_ok.1 hloc)).1

lemma parentOf_place (hpar : t.parentOf cwd p = .ok (d, .name n)) : d ++ [n] = (Path.reduce R.reverse ps).reverse := by
  obtain ⟨hstart, xs, ys, hseg, hys, hxs, hst, hplace⟩ := h.parted habs hps hin hne
  obtain ⟨-, k, hk⟩ := h.way hxs
  obtain ⟨ns, hns, -, hdot, hdots, hway⟩ := way_of_parentOf h.sound hpar
  obtain ⟨zs, m, rfl⟩ := (List.eq_nil_or_concat ys).resolve_left hys
  rw [List.concat_eq_append] at hseg hst hplace
  rw [hns, ← List.append_assoc] at hseg
  obtain ⟨rfl, hm⟩ := List.append_inj' hseg rfl
  obtain rfl : n = m := (List.cons.inj hm).1
  have hst' : t.Straight R (zs ++ ["."]) := Straight.dot fun ws hws => hst ws (hws.trans (List.prefix_append _ _))
  rw [hstart, List.append_assoc, hk true _ (by simp)] at hway
  have hd := (hst'.walk_place (hst'.walkLinks_eq_ok.1 hway)).1
  rw [List.foldl_append] at hd
  have hd' : d = zs.foldl Path.step R := hd
  rw [← hplace, List.foldl_append, ← hd']
  simp [Path.step, hdot, hdots]

end

/-- What is made where nothing stands, along a path that goes on from the root, is made below. -/
lemma below_of_none (h : t.Site cwd root R) (hin : Path.Inner ps) (hq : q = (Path.reduce R.reverse ps).reverse)
    (hnone : t.isDirAt q ≠ true) : R <+: q ∧ R ≠ q :=
  ⟨hq ▸ hin R ps List.prefix_rfl, fun heq => hnone (heq ▸ h.dir)⟩

lemma locate_below (h : t.Site cwd root R) (hp : root.Enters p) (hne : p.body ≠ root.body)
    (hloc : t.locate cwd follow p = .ok ⟨q, none⟩) : R <+: q ∧ R ≠ q := by
  obtain ⟨habs, ps, hps, hin⟩ := hp
  have hps' : ps ≠ [] := fun hnil => hne (by rw [hps, hnil, List.append_nil])
  exact h.below_of_none hin (h.locate_place habs hps hin hps' hloc) (not_isDirAt_of_none (node?_of_locate h.sound hloc))

lemma parentOf_below (h : t.Site cwd root R) (hp : root.Below p) (hpar : t.parentOf cwd p = .ok (d, .name n)) :
    R <+: d ++ [n] ∧ R ≠ d ++ [n] := by
  obtain ⟨habs, ps, m, hps, hin⟩ := hp
  have hplace := h.parentOf_place habs hps (hin.append (Path.inner_names [m])) (by simp) hpar
  have hname : Path.reduce R.reverse (ps ++ [.name m]) = m :: Path.reduce R.reverse ps := by
    rw [Path.reduce_append]
    rfl
  have hbase := hin R ps List.prefix_rfl
  rw [hplace, hname, List.reverse_cons]
  refine ⟨hbase.trans (List.prefix_append _ _), fun heq => ?_⟩
  have hlen := congrArg List.length heq
  rw [List.length_append, List.length_singleton] at hlen
  have hle := hbase.length_le
  omega

/-- Above the root there is nothing to be made. -/
lemma makeDir_above (h : t.Site who.cwd root R) (habs : p.isAbsolute = root.isAbsolute) (hbody : p.body <+: root.body) :
    Tree.makeDir who p t ≠ .ok t' := by
  intro hmake
  obtain ⟨d, n, hpar, hnone, -⟩ := makeDir_ok hmake
  obtain ⟨ns, hns, -, hdot, hdots, hway⟩ := way_of_parentOf h.sound hpar
  obtain ⟨ps, hps⟩ := hbody
  have hfirst := filter_segments p
  have hrest : (ps.map Part.text).filter (· ≠ ".") = ps.map Part.text := by
    rw [List.filter_eq_self]
    intro x hx
    obtain ⟨c, hc, rfl⟩ := List.mem_map.1 hx
    have hord : Path.Ordinary c := Path.ordinary_of_mem_body (p := root) (hps ▸ List.mem_append_right _ hc)
    cases c with
    | root => exact hord.elim
    | here => exact hord.elim
    | up => simp [Part.text]
    | name m => exact decide_eq_true hord.2.1
  have hxs : (ns ++ [n] ++ ps.map Part.text).filter (· ≠ ".") = root.body.map Part.text := by
    rw [List.filter_append, ← hns, hfirst, hrest, ← hps, List.map_append]
  obtain ⟨-, k, hk⟩ := h.way hxs
  obtain ⟨k', hk'⟩ := walkLinks_append_ok hway
  -- the way goes on from where nothing stands
  have hlost := hk' true (n :: ps.map Part.text ++ ["."]) (by simp)
  have hstart : start who.cwd p = start who.cwd root := by rw [start, start, habs]
  have hthrough := hk true ["."] (by simp)
  simp only [List.append_assoc, List.cons_append, List.nil_append, hstart] at hlost hthrough
  rw [hthrough, walkLinks, walk_dot, walk_nil, walkLinks] at hlost
  by_cases hlen : n.utf8ByteSize ≤ maxName
  · rw [walk_name hdot hdots hlen, at?_eq_none.2 hnone] at hlost
    simp at hlost
  · rw [walk_long hdot hdots hlen] at hlost
    cases hlost

lemma of_adds (h : t.Site cwd root R) (hs' : t'.Sound) (hadd : t.Adds t') : t'.Site cwd root R where
  sound := hs'
  leads := by
    obtain ⟨a, ha⟩ := h.leads
    obtain ⟨e, he, hat⟩ := stat_grows h.sound (Grows.of_node? fun _ => hadd.keep) ha
    obtain ⟨a', ha'⟩ := at?_of_isDirAt (hadd.isDirAt h.dir)
    obtain rfl := Option.some.inj (hat.symm.trans ha')
    exact ⟨a', he⟩
  bare q x hq hlink := by
    rcases hadd q with heq | ⟨-, hdir | ⟨b, a, hfile⟩⟩
    · exact h.bare q x hq (heq ▸ hlink)
    · simp [hdir] at hlink
    · simp [hfile] at hlink

end Site

end Tree

namespace Disk

section

variable (hsite : t.Site who.cwd root R) (hp : root.Enters p)

include hsite hp

lemma makeDir_changesBelow (h : Tree.makeDir who p t = .ok t') : t.ChangesBelow t' R := by
  obtain ⟨d, n, hpar, hnone, -, hset⟩ := makeDir_ok h
  obtain ⟨habs, ps, hps, hin⟩ := hp
  by_cases hnil : ps = []
  · exact absurd h (hsite.makeDir_above habs (by rw [hps, hnil, List.append_nil]))
  · exact hset.changesBelow
      (hsite.below_of_none hin (hsite.parentOf_place habs hps hin hnil hpar) (not_isDirAt_of_none hnone))

lemma DirsMade.changesBelow (h : DirsMade who p t t') : t'.Site who.cwd root R ∧ t.ChangesBelow t' R := by
  induction h with
  | refl t => exact ⟨hsite, .refl t R⟩
  | step absolute above made rest ih =>
    obtain ⟨hs₁, hadd⟩ := makeDir_addsDirs hsite.sound made
    obtain ⟨hsite', hrest⟩ := ih (hsite.of_adds hs₁ hadd.adds)
    rcases hp.above absolute above with henters | ⟨habs, hbody⟩
    · exact ⟨hsite', (makeDir_changesBelow hsite henters made).trans hrest⟩
    · exact absurd made (hsite.makeDir_above habs hbody)

lemma Paved.changesBelow (h : Paved who p t t') : t'.Site who.cwd root R ∧ t.ChangesBelow t' R := by
  induction h with
  | refl t => exact ⟨hsite, .refl t R⟩
  | step made rest ih =>
    obtain ⟨hsite₁, hfirst⟩ := (DirsMade.of_makeParents made).changesBelow hsite hp
    obtain ⟨hsite', hrest⟩ := ih hsite₁
    exact ⟨hsite', hfirst.trans hrest⟩

lemma Copied.changesBelow (hne : p.body ≠ root.body) (h : Copied who.cwd source p t t') :
    t'.Site who.cwd root R ∧ t.ChangesBelow t' R := by
  have hsite' := hsite.of_adds (h.sound hsite.sound) (h.adds hsite.sound)
  obtain ⟨ls, b, a, l, a', -, hloc, -, hset⟩ := h
  exact ⟨hsite', hset.changesBelow (hsite.locate_below hp hne hloc)⟩

end

lemma removeFile_changesBelow (hsite : t.Site who.cwd root R) (hp : root.Below p) (h : Tree.removeFile who p t = .ok t') :
    t.ChangesBelow t' R := by
  obtain ⟨d, n, x, hpar, -, -, -, -, hset⟩ := removeFile_ok h
  exact hset.changesBelow (hsite.parentOf_below hp hpar)

lemma copyFile_changesBelow (hsite : t.Site who.cwd root R) (hp : root.Below target)
    (h : copyFile who source target t = (r, t')) : t.ChangesBelow t' R := by
  obtain ⟨henters, hne⟩ := hp.enters
  obtain ⟨-, ⟨-, hpaved⟩ | ⟨t₁, -, hpaved, -, hcop⟩⟩ := copyFile_cases hsite.sound h
  · exact (hpaved.changesBelow hsite henters).2
  · obtain ⟨hsite₁, hfirst⟩ := hpaved.changesBelow hsite henters
    exact hfirst.trans (hcop.changesBelow hsite₁ henters hne).2

/-- A file below the directory is moved to another place below it. -/
lemma moveFile_changesBelow (hsite : t.Site who.cwd root R) (hsrc : root.Below source) (hp : root.Below target)
    (h : moveFile who source target t = (r, t')) : t.ChangesBelow t' R := by
  obtain ⟨henters, hne⟩ := hp.enters
  obtain ⟨-, ⟨-, hpaved⟩ | ⟨t₁, hs₁, hpaved, -, hcase⟩⟩ := moveFile_cases hsite.sound h
  · exact (hpaved.changesBelow hsite henters).2
  · obtain ⟨hsite₁, hfirst⟩ := hpaved.changesBelow hsite henters
    refine hfirst.trans ?_
    rcases hcase with ⟨-, hren⟩ | ⟨-, hcop⟩ | ⟨-, t₂, hcop, hrem⟩
    · obtain ⟨d, n, d', n', x, hpar, hpar', -, -, ⟨-, rfl⟩ | ⟨-, -, -, -, -, hcar⟩⟩ := rename_ok hs₁ hren
      · exact .refl _ R
      · have hbelow : ∀ {m q : Place}, R <+: m ∧ R ≠ m → m <+: q → R <+: q ∧ R ≠ q := by
          rintro m q ⟨hm, hne⟩ hmq
          exact ⟨hm.trans hmq, fun heq => hne (hm.eq_of_length_le (heq ▸ hmq.length_le))⟩
        intro q hq
        exact hcar.other (fun hpre => hq (hbelow (hsite₁.parentOf_below hp hpar') hpre))
          fun hpre => hq (hbelow (hsite₁.parentOf_below hsrc hpar) hpre)
    · exact (hcop.changesBelow hsite₁ henters hne).2
    · obtain ⟨hsite₂, hsecond⟩ := hcop.changesBelow hsite₁ henters hne
      exact hsecond.trans (removeFile_changesBelow hsite₂ hsrc hrem)

end Disk

end FileOrganizer
