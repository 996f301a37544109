import FileOrganizer.Proofs.Path.Absolute
import FileOrganizer.Proofs.Scan

/-! A scan finds the files that the scope accepts one by one, wherever no directory on the way to them is hidden: the
one is asked of a path as it is spelled, the other goes down the tree. -/

namespace FileOrganizer

open FileOrganizer.Tree

variable {who : Actor} {t : Tree} {cwd here place : Place} {root p q : Path} {ds names xs : List String} {n : String}
  {follow : Bool}

namespace Tree

lemma segments_below (hn : ∀ n ∈ names, Proper n) :
    segments (root.below names).chars = segments root.chars ++ names := by
  induction names using List.reverseRecOn with
  | nil => exact (List.append_nil _).symm
  | append_singleton names n ih =>
    rw [← Path.below_concat, segments_child (hn n (by simp)), ih fun m hm => hn m (List.mem_append_left _ hm),
      List.append_assoc]

lemma isAbsolute_below (hn : ∀ n ∈ names, Proper n) : (root.below names).isAbsolute = root.isAbsolute := by
  induction names using List.reverseRecOn with
  | nil => rfl
  | append_singleton names n ih =>
    rw [← Path.below_concat, Path.isAbsolute_child (hn n (by simp)), ih fun m hm => hn m (List.mem_append_left _ hm)]

/-- From the directory that a path leads to, what is below is reached by its names. -/
lemma locate_below {a : Attrs} (hn : ∀ m ∈ ds ++ [n], Proper m) (hroot : t.stat cwd root = .ok (place, .dir a))
    (htaken : refused (root.below (ds ++ [n])) = none) :
    ∃ k, t.locate cwd true (root.below (ds ++ [n])) = walkLinks t true (k + 1) place (ds ++ [n]) := by
  obtain ⟨hd, hdot⟩ := way_of_stat hroot
  obtain ⟨k, hk⟩ := walkLinks_append_ok hdot
  have hslash : (root.below (ds ++ [n])).chars.getLast? ≠ some '/' := by
    rw [← Path.below_concat]
    simpa [Path.endsInSlash] using Path.endsInSlash_child (hn n (by simp))
  refine ⟨k, ?_⟩
  rw [locate_eq_resolve htaken, resolve, start, isAbsolute_below hn, ← start, if_pos hd, steps, if_neg hslash,
    segments_below hn]
  exact hk true (ds ++ [n]) (by simp)

/-- On a way of directories nothing is followed; only a name may be too long. -/
lemma walk_real (hs : t.Sound) (hn : ∀ m ∈ ds ++ [n], Proper m) {b : ByteArray} {a : Attrs}
    (hnode : t.node? (here ++ ds ++ [n]) = some (.file b a)) :
    walk t true here (ds ++ [n]) = .arrived ⟨here ++ ds ++ [n], some (.file b a)⟩ ∨
      walk t true here (ds ++ [n]) = .lost .nameTooLong := by
  induction ds generalizing here with
  | nil =>
    obtain ⟨-, h1, h2, -⟩ := hn n (by simp)
    rw [List.append_nil] at hnode ⊢
    by_cases h3 : n.utf8ByteSize ≤ maxName
    · left
      rw [List.nil_append, walk_name h1 h2 h3, at?_file.2 hnode]
      rfl
    · exact Or.inr (walk_long h1 h2 h3)
  | cons d ds ih =>
    obtain ⟨-, h1, h2, -⟩ := hn d (by simp)
    by_cases h3 : d.utf8ByteSize ≤ maxName
    · have hdir : t.isDirAt (here ++ [d]) = true :=
        hs.isDirAt_prefix (ds ++ [n]) (by simp) (by simpa using fun heq => by simp [heq] at hnode)
      obtain ⟨k, hk⟩ := at?_of_isDirAt hdir
      rw [List.cons_append, walk_name h1 h2 h3, hk]
      have hbelow : t.node? (here ++ [d] ++ ds ++ [n]) = some (.file b a) := by simpa using hnode
      simpa using ih (fun m hm => hn m (by simp at hm ⊢; tauto)) hbelow
    · exact Or.inr (walk_long h1 h2 h3)

/-- Which names there are can be seen from the entries. -/
lemma proper_of_entries (h : ∀ e ∈ t.entries, ∀ n ∈ e.1, Proper n) : ∀ q, t.node? q ≠ none → ∀ n ∈ q, Proper n := by
  intro q hq n hn
  have hkey : q ∈ t.entries.map (·.1) := by
    rwa [Table.mem_keys, ← at?_of_ne_nil (List.ne_nil_of_mem hn), Ne, at?_eq_none]
  obtain ⟨e, he, rfl⟩ := List.mem_map.1 hkey
  exact h e he n hn

/-- A path that leads on from a directory to a file on a way of directories leads to nothing else. -/
lemma stat_below (hs : t.Sound) (hn : ∀ m ∈ ds ++ [n], Proper m) {a c : Attrs} {b : ByteArray} {l : Place} {e : Entry}
    (hroot : t.stat cwd root = .ok (place, .dir a)) (hnode : t.node? (place ++ ds ++ [n]) = some (.file b c))
    (h : t.stat cwd (root.below (ds ++ [n])) = .ok (l, e)) : l = place ++ ds ++ [n] ∧ e = .file b c := by
  have hloc := stat_eq_ok.1 h
  obtain ⟨k, hk⟩ := locate_below hn hroot (refused_of_locate_ok hloc)
  rw [hk, walkLinks] at hloc
  rcases walk_real hs hn hnode with hw | hw <;> rw [hw] at hloc <;> cases hloc
  exact ⟨rfl, rfl⟩

end Tree

namespace Scope

variable {s : Scope} {f : FileInfo}

/-- A path to a regular file below the root of a scope, on a way of directories without links. -/
def Holds (s : Scope) (cwd : Place) (t : Tree) (ds : List String) (n : String) (p : Path) : Prop :=
  p.same (s.root.below (ds ++ [n])) = true ∧ ∃ place a b c, t.stat cwd s.root = .ok (place, .dir a) ∧
    t.stat cwd (s.root.below (ds ++ [n])) = .ok (place ++ ds ++ [n], .file b c)

/-- Only the parts of a path count. -/
lemma accepts_congr (h : p.parts = q.parts) : s.accepts p = s.accepts q := by
  have hname : p.fileName = q.fileName := by rw [Path.fileName, Path.fileName, Path.fileName?, Path.fileName?, h]
  have hbelow : s.below? p = s.below? q := by rw [below?, below?, Path.startsWith, Path.startsWith, h]
  have hexcl : s.excludesPath p = s.excludesPath q := by
    unfold excludesPath Path.startsWith
    rw [h]
  rw [accepts, accepts, hname, hbelow, hexcl]

lemma below?_below (hn : ∀ n ∈ names, Proper n) : s.below? (s.root.below names) = some (names.map Part.name) := by
  have hparts := Path.parts_below (p := s.root) hn
  have hstarts : (s.root.below names).startsWith s.root = true := by
    rw [Path.startsWith, hparts, List.isPrefixOf_iff_prefix]
    exact List.prefix_append _ _
  rw [below?, if_pos hstarts, hparts, List.drop_left]

lemma accepts_below (hn : ∀ m ∈ ds ++ [n], Proper m) : s.accepts (s.root.below (ds ++ [n])) = true ↔
    n ≠ UndoLog.fileName ∧ (s.skipHidden && FileInfo.startsWithDot n) = false ∧
      s.excludesPath (s.root.below (ds ++ [n])) = false ∧
        ∀ d ds', ds = d :: ds' → s.recursive = true ∧ s.excludesName d = false := by
  have hname : (s.root.below (ds ++ [n])).fileName = n := by
    rw [← Path.below_concat]
    exact Path.fileName_child (hn n (by simp))
  unfold accepts
  rw [hname, below?_below hn]
  generalize (s.skipHidden && FileInfo.startsWithDot n) = hidden
  cases ds with
  | nil => simp [and_assoc]
  | cons d ds => simp [firstName, and_assoc]

/-- What is below an excluded path is excluded. -/
lemma excludesPath_below (hn : ∀ m ∈ names, Proper m) (h : s.excludesPath (p.below names) = false) :
    s.excludesPath p = false := by
  unfold excludesPath Path.startsWith at h ⊢
  rw [List.any_eq_false] at h ⊢
  intro base hbase hpre
  refine h base hbase ?_
  rw [Path.parts_below hn, List.isPrefixOf_iff_prefix]
  exact (List.isPrefixOf_iff_prefix.1 hpre).trans (List.prefix_append _ _)

lemma not_hidden_of_enters {depth : Nat} (h : s.Enters depth p ds) :
    ∀ d ∈ ds, (s.skipHidden && FileInfo.startsWithDot d) = false := by
  induction ds generalizing depth p with
  | nil => simp
  | cons d ds ih =>
    have henter := h.1.2
    simp only [enters, Bool.and_eq_true, Bool.not_eq_true'] at henter
    exact List.forall_mem_cons.2 ⟨henter.1.1, ih h.2⟩

/-- The tree is gone down to whatever is accepted, but for what is hidden: of the names only the first counts, and an
excluded path keeps out all that is below it. -/
lemma enters_of_not_hidden {depth : Nat} (hdepth : 0 < depth) (hn : ∀ m ∈ ds ++ [n], Proper m)
    (hhidden : ∀ d ∈ ds, (s.skipHidden && FileInfo.startsWithDot d) = false)
    (hpath : s.excludesPath (p.below (ds ++ [n])) = false) (hrec : ds ≠ [] → s.recursive = true)
    (hfirst : depth = 1 → ∀ d ds', ds = d :: ds' → s.excludesName d = false) : s.Enters depth p ds := by
  induction ds generalizing depth p with
  | nil => trivial
  | cons d ds ih =>
    obtain ⟨hd, hds⟩ := List.forall_mem_cons.1 hhidden
    have hn' : ∀ m ∈ ds ++ [n], Proper m := fun m hm => hn m (List.mem_cons_of_mem d hm)
    have hbelow : s.excludesPath ((p.child d).below (ds ++ [n])) = false := hpath
    have hname : (decide (depth = 1) && s.excludesName d) = false := by
      rcases eq_or_ne depth 1 with h1 | h1
      · rw [hfirst h1 d ds rfl, Bool.and_false]
      · rw [decide_eq_false h1, Bool.false_and]
    refine ⟨⟨hrec (List.cons_ne_nil d ds), ?_⟩, ih (Nat.succ_pos depth) hn' hds hbelow
      (fun _ => hrec (List.cons_ne_nil d ds)) fun h => by omega⟩
    rw [enters, hd, excludesPath_below hn' hbelow, hname]
    rfl

section

variable (hs : t.Sound) (hnames : ∀ q, t.node? q ≠ none → ∀ n ∈ q, Proper n) (hcwd : ∀ n ∈ who.cwd, Proper n)
  (hroot : s.root = (ofRoot who root).root)

include hcwd hroot in
lemma absolute?_below (hn : ∀ m ∈ names, Proper m) (hdir : t.isDir who.cwd s.root = true) :
    (s.root.below names).absolute? who.cwd = some (s.root.below names) := by
  have habs : s.root.absolute? who.cwd = some s.root := by
    rw [hroot, ofRoot] at hdir ⊢
    dsimp only at hdir ⊢
    cases h : root.absolute? who.cwd with
    | some q => exact Path.absolute?_settled hcwd h
    | none =>
      rw [h] at hdir
      obtain ⟨l, a, hstat⟩ := isDir_iff.1 hdir
      have hne : root.text ≠ "" := fun htext => by
        have htaken := refused_of_locate_ok (stat_eq_ok.1 hstat)
        rw [refused, Option.getD_none, if_pos htext] at htaken
        split at htaken <;> cases htaken
      obtain ⟨q, hq⟩ : ∃ q, root.absolute? who.cwd = some q := Path.absolute?_isSome hne
      rw [h] at hq
      cases hq
  induction names using List.reverseRecOn with
  | nil => exact habs
  | append_singleton names n ih =>
    rw [← Path.below_concat]
    exact Path.absolute?_child hcwd (hn n (by simp)) (ih fun m hm => hn m (List.mem_append_left _ hm))

include hs hnames hcwd hroot in
/-- What is found is spelled from the root on, and the path leads to a file on a way of directories none of which is
hidden. -/
lemma path_of_mem_scan (hf : f ∈ s.scan who t) : s.accepts f.path = true ∧ ∃ ds n place a b c,
    f.path = s.root.below (ds ++ [n]) ∧ t.stat who.cwd s.root = .ok (place, .dir a) ∧
      t.stat who.cwd f.path = .ok (place ++ ds ++ [n], .file b c) ∧ (∀ m ∈ ds ++ [n], Proper m) ∧
      ∀ d ∈ ds, (s.skipHidden && FileInfo.startsWithDot d) = false := by
  unfold scan at hf
  split at hf
  · next place a hstat =>
    obtain ⟨ds, n, -, henters, ⟨b, c, hnode⟩, hpick⟩ := (mem_scanDir hs).1 hf
    have hn : ∀ m ∈ ds ++ [n], Proper m := fun m hm =>
      hnames _ (by rw [hnode]; simp) m (by rw [List.append_assoc]; exact List.mem_append_right _ hm)
    rw [Path.below_concat] at hpick
    obtain ⟨hacc, hread, -⟩ := mem_pick.1 hpick
    have hfull := absolute?_below hcwd hroot hn (isDir_iff.2 ⟨place, a, hstat⟩)
    unfold FileInfo.read at hread
    rw [hfull] at hread
    dsimp only at hread
    split at hread
    · cases hread
    · next l e hbelow =>
      obtain ⟨rfl, rfl⟩ := stat_below hs hn hstat hnode hbelow
      obtain rfl := Except.ok.inj hread
      exact ⟨hacc, ds, n, place, a, b, c, rfl, hstat, hbelow, hn, not_hidden_of_enters henters⟩
  · cases hf

include hs hnames hcwd hroot in
/-- What is found is accepted, and stands at the end of a way of directories none of which is hidden. -/
lemma of_mem_scan (hf : f ∈ s.scan who t) : s.accepts f.path = true ∧ ∃ ds n, s.Holds who.cwd t ds n f.path ∧
    (∀ m ∈ ds ++ [n], Proper m) ∧ ∀ d ∈ ds, (s.skipHidden && FileInfo.startsWithDot d) = false := by
  obtain ⟨hacc, ds, n, place, a, b, c, hpath, hstat, hbelow, hn, hopen⟩ := path_of_mem_scan hs hnames hcwd hroot hf
  exact ⟨hacc, ds, n, ⟨by simp [hpath, Path.same], place, a, b, c, hstat, hpath ▸ hbelow⟩, hn, hopen⟩

include hs hnames hcwd hroot in
/-- What is accepted and stands at the end of such a way is found. -/
lemma mem_scan_of_accepts (hacc : s.accepts p = true) (hholds : s.Holds who.cwd t ds n p)
    (hhidden : ∀ d ∈ ds, (s.skipHidden && FileInfo.startsWithDot d) = false) :
    ∃ f ∈ s.scan who t, f.path.same p = true := by
  obtain ⟨hsame, place, a, b, c, hstat, hbelow⟩ := hholds
  have hnode := at?_file.1 (stat_ok hs hbelow).1
  have hn : ∀ m ∈ ds ++ [n], Proper m := fun m hm =>
    hnames _ (by rw [hnode]; simp) m (by rw [List.append_assoc]; exact List.mem_append_right _ hm)
  have hparts : p.parts = (s.root.below (ds ++ [n])).parts := by simpa [Path.same] using hsame
  rw [accepts_congr hparts] at hacc
  obtain ⟨-, hdot, hpath, hway⟩ := (accepts_below hn).1 hacc
  have henters : s.Enters 1 s.root ds := by
    refine enters_of_not_hidden Nat.one_pos hn hhidden hpath (fun hne => ?_) fun _ d ds' heq => (hway d ds' heq).2
    obtain ⟨d, ds', heq⟩ := List.exists_cons_of_ne_nil hne
    exact (hway d ds' heq).1
  have hfull := absolute?_below hcwd hroot hn (isDir_iff.2 ⟨place, a, hstat⟩)
  have hlen : (ds ++ [n]).length ≤ t.entries.length :=
    length_le_entries hs (by rw [← List.append_assoc, hnode]; simp)
  rw [List.length_append, List.length_singleton] at hlen
  have hnamed : (FileInfo.ofFile (s.root.below (ds ++ [n])) b c).Named := rfl
  have hname : (s.root.below (ds ++ [n])).fileName = n := by
    rw [← Path.below_concat, Path.fileName_child (hn n (by simp))]
  have hdots : (FileInfo.ofFile (s.root.below (ds ++ [n])) b c).hidden = FileInfo.startsWithDot n :=
    congrArg FileInfo.startsWithDot (hnamed.name_eq.trans hname)
  refine ⟨.ofFile (s.root.below (ds ++ [n])) b c, ?_, by simpa [Path.same, FileInfo.ofFile] using hparts.symm⟩
  unfold scan
  rw [hstat]
  refine (mem_scanDir hs).2 ⟨ds, n, by omega, henters, ⟨b, c, hnode⟩, ?_⟩
  rw [Path.below_concat]
  exact mem_pick.2 ⟨hacc, FileInfo.read_of_stat hfull hbelow, hdots ▸ hdot⟩

include hs hnames hcwd hroot in
/-- What is found by going down the tree is what is accepted path by path, wherever no directory on the way is hidden. -/
theorem scan_iff_accepts (p : Path) : (∃ f ∈ s.scan who t, f.path.same p = true) ↔
    s.accepts p = true ∧ ∃ ds n, s.Holds who.cwd t ds n p ∧
      (s.skipHidden = true → ∀ d ∈ ds, FileInfo.startsWithDot d = false) := by
  have hhidden : ∀ ds : List String, (s.skipHidden = true → ∀ d ∈ ds, FileInfo.startsWithDot d = false) ↔
      ∀ d ∈ ds, (s.skipHidden && FileInfo.startsWithDot d) = false := fun ds => by cases s.skipHidden <;> simp
  constructor
  · rintro ⟨f, hf, hsame⟩
    obtain ⟨hacc, ds, n, hholds, -, hopen⟩ := of_mem_scan hs hnames hcwd hroot hf
    have hparts : f.path.parts = p.parts := by simpa [Path.same] using hsame
    refine ⟨accepts_congr hparts ▸ hacc, ds, n, ⟨?_, hholds.2⟩, (hhidden ds).2 hopen⟩
    rw [Path.same, ← hparts]
    exact hholds.1
  · rintro ⟨hacc, ds, n, hholds, hopen⟩
    exact mem_scan_of_accepts hs hnames hcwd hroot hacc hholds ((hhidden ds).1 hopen)

end

/-- A file in a hidden directory, one in another, and a link to each. -/
def cached : Tree := ⟨[
  (["r"], .dir ⟨⟨0, 0⟩, false⟩),
  (["r", ".cache"], .dir ⟨⟨0, 0⟩, false⟩),
  (["r", ".cache", "a.txt"], .file ⟨#[1]⟩ ⟨⟨0, 0⟩, false⟩),
  (["r", "sub"], .dir ⟨⟨0, 0⟩, false⟩),
  (["r", "sub", "a.txt"], .file ⟨#[1]⟩ ⟨⟨0, 0⟩, false⟩),
  (["r", "link"], .link "sub"),
  (["r", "sub", "link"], .link "a.txt")]⟩

lemma sound_cached : cached.Sound := sound_of_entries (by decide)

lemma proper_cached : ∀ q, cached.node? q ≠ none → ∀ n ∈ q, Proper n := proper_of_entries (by decide)

/-- The files below `/r`, hidden ones apart. -/
def deep : Scope := { root := ⟨"/r"⟩, recursive := true }

lemma root_deep : deep.root = (ofRoot ⟨[], ⟨0, 0⟩⟩ ⟨"/r"⟩).root := by decide

theorem scan_iff_accepts_sub : ∃ f ∈ deep.scan ⟨[], ⟨0, 0⟩⟩ cached, f.path.same ⟨"/r/./sub/a.txt"⟩ = true :=
  (scan_iff_accepts sound_cached proper_cached (by decide) root_deep ⟨"/r/./sub/a.txt"⟩).2
      ⟨by decide, ["sub"], "a.txt", ⟨by decide, ["r"], ⟨⟨0, 0⟩, false⟩, ⟨#[1]⟩, ⟨⟨0, 0⟩, false⟩,
        rfl, rfl⟩, by decide⟩

/-- A file in a hidden directory is accepted, but a scan does not find it. -/
theorem scan_iff_accepts_fails : ¬∀ (who : Actor) (t : Tree) (s : Scope) (root p : Path), t.Sound →
    (∀ q, t.node? q ≠ none → ∀ n ∈ q, Proper n) → (∀ n ∈ who.cwd, Proper n) → s.root = (ofRoot who root).root →
      ((∃ f ∈ s.scan who t, f.path.same p = true) ↔ s.accepts p = true ∧ ∃ ds n, s.Holds who.cwd t ds n p) := by
  intro h
  obtain ⟨f, hf, hsame⟩ := (h ⟨[], ⟨0, 0⟩⟩ cached deep ⟨"/r"⟩ ⟨"/r/.cache/a.txt"⟩ sound_cached proper_cached (by decide)
    root_deep).2 ⟨by decide, [".cache"], "a.txt", by decide, ["r"], ⟨⟨0, 0⟩, false⟩, ⟨#[1]⟩,
      ⟨⟨0, 0⟩, false⟩, rfl, rfl⟩
  obtain ⟨-, ds, n, ⟨hbelow, -⟩, hn, hopen⟩ := of_mem_scan sound_cached proper_cached (by decide) root_deep hf
  have hparts : deep.root.parts ++ [Part.name ".cache", .name "a.txt"] = deep.root.parts ++ (ds ++ [n]).map Part.name := by
    rw [← Path.parts_below hn]
    simp only [Path.same, beq_iff_eq] at hbelow hsame
    rw [← hbelow, hsame]
    decide
  have hnames : [".cache", "a.txt"] = ds ++ [n] :=
    List.map_injective_iff.2 Path.name_injective (List.append_cancel_left hparts)
  have hds : [".cache"] = ds := List.append_inj_left' (hnames : [".cache"] ++ ["a.txt"] = ds ++ [n]) rfl
  have hcache := hopen ".cache" (hds ▸ List.mem_singleton.2 rfl)
  revert hcache
  decide

end Scope

end FileOrganizer
