import FileOrganizer.Proofs.Batch.Plan
import FileOrganizer.Proofs.Table
import FileOrganizer.Scan

/-! The files that a scan finds: those below the root on a way of directories that are gone into, each once. Where they
are looked for again, no more of them are found as long as no files have come. -/

namespace FileOrganizer

open FileOrganizer.Tree FileOrganizer.Disk

variable {who : Actor} {t t' : Tree} {cwd d place q : Place} {p dir : Path} {n : String} {ns : List String}
  {f : FileInfo} {b c : ByteArray}

namespace Path

/-- The path that leads on along these names. -/
def below (p : Path) (ns : List String) : Path := ns.foldl child p

lemma parts_below (hns : ∀ n ∈ ns, Proper n) : (p.below ns).parts = p.parts ++ ns.map Part.name := by
  induction ns generalizing p with
  | nil => exact (List.append_nil _).symm
  | cons n ns ih =>
    have hn := hns n List.mem_cons_self
    rw [below, List.foldl_cons, ← below, ih fun m hm => hns m (List.mem_cons_of_mem n hm), parts_child hn,
      List.append_assoc, List.singleton_append, List.map_cons]

lemma place_below (hns : ∀ n ∈ ns, Proper n) : (p.below ns).place cwd = p.place cwd ++ ns := by
  induction ns generalizing p with
  | nil => exact (List.append_nil _).symm
  | cons n ns ih =>
    have hn := hns n List.mem_cons_self
    rw [below, List.foldl_cons, ← below, ih fun m hm => hns m (List.mem_cons_of_mem n hm), place_child hn,
      List.append_assoc, List.singleton_append]

lemma level_absolute? {q : Path} (hcwd : ∀ n ∈ cwd, Proper n) (hup : Part.up ∉ p.parts) (h : p.absolute? cwd = some q) :
    Part.up ∉ q.parts := by
  rw [parts_absolute? hcwd h]
  rw [parts_eq] at hup
  intro hmem
  rcases List.mem_cons.1 hmem with hroot | hmem
  · cases hroot
  · rcases List.mem_append.1 hmem with hbefore | hbody
    · split at hbefore
      · cases hbefore
      · obtain ⟨n, -, hn⟩ := List.mem_map.1 hbefore
        cases hn
    · exact hup (List.mem_append_right _ hbody)

lemma level_below (hup : Part.up ∉ p.parts) (hns : ∀ n ∈ ns, Proper n) : Part.up ∉ (p.below ns).parts := by
  rw [parts_below hns]
  intro hmem
  rcases List.mem_append.1 hmem with hmem | hmem
  · exact hup hmem
  · obtain ⟨n, -, hn⟩ := List.mem_map.1 hmem
    cases hn

lemma below_concat : (p.below ns).child n = p.below (ns ++ [n]) := by
  rw [below, below, List.foldl_append]
  rfl

lemma fileName_child (hn : Proper n) : (p.child n).fileName = n := by
  rw [fileName, fileName?, parts_child hn, List.getLast?_concat]
  rfl

end Path

namespace Tree

lemma mem_childPlaces : q ∈ t.childPlaces d ↔ ∃ n, q = d ++ [n] ∧ t.node? q ≠ none := by
  unfold childPlaces
  rw [List.mem_filter, Table.mem_keys, Bool.and_eq_true, decide_eq_true_eq, decide_eq_true_eq]
  constructor
  · rintro ⟨hq, hne, hd⟩
    refine ⟨q.getLast hne, ?_, ?_⟩
    · rw [← hd, List.dropLast_append_getLast hne]
    · rwa [Ne, ← at?_eq_none, at?_of_ne_nil hne]
  · rintro ⟨n, rfl, hq⟩
    have hne : d ++ [n] ≠ [] := by simp
    refine ⟨?_, hne, List.dropLast_concat⟩
    rwa [Ne, ← at?_eq_none, at?_of_ne_nil hne] at hq

lemma mem_names : n ∈ t.names d ↔ t.node? (d ++ [n]) ≠ none := by
  unfold names
  rw [List.mem_mergeSort, List.mem_filterMap]
  constructor
  · rintro ⟨q, hq, hlast⟩
    obtain ⟨m, rfl, hnode⟩ := mem_childPlaces.1 hq
    rw [List.getLast?_concat] at hlast
    exact Option.some.inj hlast ▸ hnode
  · exact fun hnode => ⟨d ++ [n], mem_childPlaces.2 ⟨n, rfl, hnode⟩, List.getLast?_concat⟩

lemma nodup_names (h : t.entries.Single) : (t.names d).Nodup := by
  unfold names
  rw [(List.mergeSort_perm _ _).nodup_iff, List.Nodup, List.pairwise_filterMap]
  refine (List.Nodup.filter _ h).imp_of_mem fun {q r} hq hr hne m hm k hk heq => hne ?_
  obtain ⟨x, rfl, -⟩ := mem_childPlaces.1 hq
  obtain ⟨y, rfl, -⟩ := mem_childPlaces.1 hr
  rw [List.getLast?_concat] at hm hk
  rw [Option.some.inj hm, Option.some.inj hk, heq]

/-- There are entries for all the directories on the way. -/
lemma length_le_entries (hs : t.Sound) (h : t.node? (d ++ ns) ≠ none) : ns.length ≤ t.entries.length := by
  let way := (List.range ns.length).map fun i => d ++ ns.take (i + 1)
  have hnodup : way.Nodup := by
    refine List.Nodup.map_on (fun i hi j hj hij => ?_) List.nodup_range
    have hlen := congrArg List.length hij
    simp only [List.length_append, List.length_take] at hlen
    rw [List.mem_range] at hi hj
    omega
  have hsub : way ⊆ t.entries.map (·.1) := by
    intro q hq
    obtain ⟨i, hi, rfl⟩ := List.mem_map.1 hq
    rw [List.mem_range] at hi
    have hthere : t.node? (d ++ ns.take (i + 1)) ≠ none := by
      rcases eq_or_ne (ns.drop (i + 1)) [] with hnil | hne
      · rwa [List.take_of_length_le (List.drop_eq_nil_iff.1 hnil)]
      · rw [← List.take_append_drop (i + 1) ns, ← List.append_assoc] at h
        obtain ⟨k, hk⟩ := isDirAt_iff.1 (hs.isDirAt_prefix _ hne h)
        simp [hk]
    have hne : d ++ ns.take (i + 1) ≠ [] := by
      intro heq
      have hlen := congrArg List.length heq
      rw [List.length_append, List.length_take, List.length_nil] at hlen
      omega
    rwa [Table.mem_keys, ← at?_of_ne_nil hne, Ne, at?_eq_none]
  have hlen := (List.subperm_of_subset hnodup hsub).length_le
  simpa [way] using hlen

/-- A tree as it is kept: no links, everything in a directory, under a proper name, and once. -/
structure Tidy (t : Tree) : Prop where
  sound : t.Sound
  plain : t.Plain
  single : t.entries.Single
  proper : ∀ q, t.node? q ≠ none → ∀ n ∈ q, Proper n

/-- That a tree is tidy can be seen from the entries. -/
lemma tidy_of_entries (hs : ∀ e ∈ t.entries, t.isDirAt e.1.dropLast = true)
    (hp : ∀ e ∈ t.entries, (e.2 matches .link _) = false) (hsingle : (t.entries.map (·.1)).Nodup)
    (hproper : ∀ e ∈ t.entries, ∀ n ∈ e.1, Proper n) : t.Tidy where
  sound := sound_of_entries hs
  plain := plain_of_entries hp
  single := hsingle
  proper q hq n hn := by
    have hkey : q ∈ t.entries.map (·.1) := by
      rwa [Table.mem_keys, ← at?_of_ne_nil (List.ne_nil_of_mem hn), Ne, at?_eq_none]
    obtain ⟨e, he, rfl⟩ := List.mem_map.1 hkey
    exact hproper e he n hn

/-- A path without `..` that leads to a file leads to the file at its place in any other tree. -/
lemma stat_of_level {a : Attrs} (hs : t.Sound) (hp : t.Plain) (hs' : t'.Sound) (hp' : t'.Plain)
    (hup : Part.up ∉ p.parts)
    (h : t'.read cwd p = .ok c) (hnode : t.node? (p.place cwd) = some (.file b a)) :
    t.stat cwd p = .ok (p.place cwd, .file b a) := by
  obtain ⟨d, n, hpar'⟩ := parentOf_of_read hs' hp' h
  obtain ⟨a', hstat'⟩ := stat_of_read hs' hp' h
  have hslash := slash_of_locate hs' hp' (stat_eq_ok.1 hstat') (not_isDirAt_of_file (at?_file.1 (stat_ok hs' hstat').1))
  have hplace := parentOf_place hp' hpar'
  obtain ⟨l, hdown, rfl⟩ := descent_of_parentOf hp' hup hpar'
  rw [hplace] at hnode ⊢
  have hpar := parentOf_descent cwd hs hp hdown (hs _ n (by rw [hnode]; simp))
  rw [stat_eq_ok, locate_of_parentOf hpar hslash (fun _ x => by rw [hnode]; simp), at?_file.2 hnode]

end Tree

namespace FileInfo

/-- What is read of a file. -/
def ofFile (p : Path) (b : ByteArray) (a : Attrs) : FileInfo :=
  { FileNames.of p false with
    path := p, size := b.size, modified := a.mtime, isDir := false,
    hidden := startsWithDot (FileNames.of p false).name, readOnly := a.readOnly }

/-- One file, seen at two times. -/
structure Twin (f g : FileInfo) : Prop where
  path : f.path = g.path
  names : f.toFileNames = g.toFileNames
  hidden : f.hidden = g.hidden
  isDir : f.isDir = g.isDir

variable {a : Attrs}

lemma read_ofFile (hs : t.Sound) (hp : t.Plain) (hcwd : ∀ n ∈ who.cwd, Proper n) (h : FileInfo.read who t p = .ok f)
    (hnode : t.node? (p.place who.cwd) = some (.file b a)) :
    ∃ full, p.absolute? who.cwd = some full ∧ t.stat who.cwd full = .ok (p.place who.cwd, .file b a) ∧
      f = ofFile full b a := by
  unfold FileInfo.read at h
  split at h
  · cases h
  · next full hfull =>
    split at h
    · cases h
    · next l e hstat =>
      obtain rfl : l = p.place who.cwd := (stat_place hp hstat).trans (Path.place_absolute? hcwd hfull)
      have hat := (stat_ok hs hstat).1
      rw [at?_file.2 hnode] at hat
      obtain rfl := Option.some.inj hat
      exact ⟨full, hfull, hstat, (Except.ok.inj h).symm⟩

lemma read_of_stat {full : Path} (hfull : p.absolute? who.cwd = some full) {l : Place}
    (hstat : t.stat who.cwd full = .ok (l, .file b a)) : FileInfo.read who t p = .ok (ofFile full b a) := by
  unfold FileInfo.read
  rw [hfull]
  dsimp only
  rw [hstat]
  rfl

lemma read_path (hcwd : ∀ n ∈ who.cwd, Proper n) (h : FileInfo.read who t p = .ok f) :
    f.path.place who.cwd = p.place who.cwd := by
  unfold FileInfo.read at h
  split at h
  · cases h
  · next full hfull =>
    split at h
    · cases h
    · obtain rfl := Except.ok.inj h
      exact Path.place_absolute? hcwd hfull

end FileInfo

namespace Scope

variable {s : Scope} {fuel depth : Nat}

/-- The directories with these names, one in the other, are gone into. -/
def Enters (s : Scope) (depth : Nat) (dir : Path) : List String → Prop
  | [] => True
  | n :: ns => (s.recursive = true ∧ s.enters (dir.child n) n depth = true) ∧ s.Enters (depth + 1) (dir.child n) ns

lemma mem_scanDir (hs : t.Sound) : f ∈ s.scanDir who t fuel depth place dir ↔
    ∃ ns n, ns.length < fuel ∧ s.Enters depth dir ns ∧ (∃ b a, t.node? (place ++ ns ++ [n]) = some (.file b a)) ∧
      f ∈ s.pick who t ((dir.below ns).child n) := by
  induction fuel generalizing depth place dir with
  | zero => exact ⟨fun h => (by cases h), fun ⟨_, _, hlt, _⟩ => absurd hlt (Nat.not_lt_zero _)⟩
  | succ fuel ih =>
    rw [scanDir, List.mem_flatMap]
    constructor
    · rintro ⟨x, -, hf⟩
      split at hf
      · next b a hat => exact ⟨[], x, Nat.succ_pos fuel, trivial, ⟨b, a, by simpa using at?_file.1 hat⟩, hf⟩
      · split at hf
        · next henter =>
          obtain ⟨ns, n, hlt, hopen, hnode, hpick⟩ := ih.1 hf
          rw [Bool.and_eq_true] at henter
          exact ⟨x :: ns, n, Nat.succ_lt_succ hlt, ⟨henter, hopen⟩, by simpa using hnode, hpick⟩
        · cases hf
      · cases hf
    · rintro ⟨ns, n, hlt, hopen, ⟨b, a, hnode⟩, hpick⟩
      cases ns with
      | nil =>
        rw [List.append_nil] at hnode
        refine ⟨n, mem_names.2 (by simp [hnode]), ?_⟩
        rw [at?_file.2 hnode]
        exact hpick
      | cons x ns =>
        have hdir : t.isDirAt (place ++ [x]) = true :=
          hs.isDirAt_prefix (ns ++ [n]) (by simp) (by simpa using fun heq => by simp [heq] at hnode)
        obtain ⟨k, hk⟩ := isDirAt_iff.1 hdir
        refine ⟨x, mem_names.2 (by simp [hk]), ?_⟩
        obtain ⟨e, hat⟩ := at?_of_isDirAt hdir
        rw [hat]
        dsimp only
        rw [if_pos (by rw [hopen.1.1, hopen.1.2]; rfl)]
        exact ih.2 ⟨ns, n, Nat.lt_of_succ_lt_succ hlt, hopen.2, ⟨b, a, by simpa using hnode⟩, hpick⟩

/-- The files that a scan may find at a place below the root. -/
def Covers (s : Scope) (cwd q : Place) : Prop := ∃ ns n, q = s.root.place cwd ++ ns ++ [n] ∧ s.Enters 1 s.root ns ∧
  s.accepts ((s.root.below ns).child n) = true

lemma mem_pick : f ∈ s.pick who t p ↔
    s.accepts p = true ∧ FileInfo.read who t p = .ok f ∧ (s.skipHidden && f.hidden) = false := by
  unfold pick
  cases hacc : s.accepts p with
  | false => simp
  | true =>
    cases hread : FileInfo.read who t p with
    | error e => simp
    | ok g =>
      cases hhid : (s.skipHidden && g.hidden) with
      | false =>
        simp only [if_true, hhid, Bool.false_eq_true, if_false, List.mem_singleton, true_and, Except.ok.injEq]
        constructor
        · rintro rfl
          exact ⟨rfl, hhid⟩
        · exact fun h => h.1.symm
      | true =>
        simp only [if_true, hhid, List.not_mem_nil, true_and, Except.ok.injEq, false_iff]
        rintro ⟨rfl, hno⟩
        rw [hhid] at hno
        cases hno

lemma not_covers_log : ¬s.Covers cwd (s.root.place cwd ++ [UndoLog.fileName]) := by
  rintro ⟨ns, n, heq, -, hacc⟩
  rw [List.append_assoc] at heq
  have hnames := List.append_cancel_left heq
  cases ns with
  | nil =>
    obtain rfl := List.singleton_inj.1 hnames
    have hname : ((s.root.below []).child UndoLog.fileName).fileName = UndoLog.fileName :=
      Path.fileName_child (by decide)
    simp [accepts, hname] at hacc
  | cons x ns => simp at hnames

/-- What is in the directory of a category has been organized. -/
lemma not_covers_sorted {category name : String} (h : s.excludesName category = true) :
    ¬s.Covers cwd (s.root.place cwd ++ [category, name]) := by
  rintro ⟨ns, n, heq, henters, -⟩
  rw [List.append_assoc] at heq
  have hnames := List.append_cancel_left heq
  cases ns with
  | nil => simp at hnames
  | cons x ns =>
    obtain rfl : category = x := (List.cons.inj hnames).1
    have hone := henters.1.2
    simp [enters, h] at hone

section

variable (hs : t.Sound) (hp : t.Plain)

include hs hp

lemma mem_scan : f ∈ s.scan who t ↔ t.isDir who.cwd s.root = true ∧ ∃ ns n, s.Enters 1 s.root ns ∧
    (∃ b a, t.node? (s.root.place who.cwd ++ ns ++ [n]) = some (.file b a)) ∧
      f ∈ s.pick who t ((s.root.below ns).child n) := by
  unfold scan isDir
  rcases hstat : t.stat who.cwd s.root with e | ⟨place, _ | a | _⟩
  case ok.dir =>
    obtain rfl := stat_place hp hstat
    dsimp only
    rw [mem_scanDir hs]
    constructor
    · rintro ⟨ns, n, -, hfound⟩
      exact ⟨rfl, ns, n, hfound⟩
    · rintro ⟨-, ns, n, henters, ⟨b, a, hnode⟩, hpick⟩
      refine ⟨ns, n, ?_, henters, ⟨b, a, hnode⟩, hpick⟩
      have hlen : (ns ++ [n]).length ≤ t.entries.length := length_le_entries hs (by
        rw [← List.append_assoc, hnode]
        simp)
      rw [List.length_append, List.length_singleton] at hlen
      omega
  all_goals simp

end

/-- A file that is found under a name in the directory that these names lead to. -/
structure Seen (s : Scope) (cwd : Place) (t : Tree) (ns : List String) (n : String) (f : FileInfo) : Prop where
  enters : s.Enters 1 s.root ns
  accepts : s.accepts ((s.root.below ns).child n) = true
  proper : ∀ m ∈ ns ++ [n], Proper m
  spelled : ((s.root.below ns).child n).absolute? cwd = some f.path
  file : ∃ b a, t.stat cwd f.path = .ok (s.root.place cwd ++ ns ++ [n], .file b a) ∧ f = .ofFile f.path b a
  shown : (s.skipHidden && f.hidden) = false

namespace Seen

variable (h : s.Seen cwd t ns n f)

include h

lemma read : ∃ c, t.read cwd f.path = .ok c := by
  obtain ⟨b, a, hstat, -⟩ := h.file
  exact ⟨b, by rw [Tree.read, hstat]⟩

lemma name_proper : Proper n := h.proper n (by simp)

lemma fileName (hcwd : ∀ n ∈ cwd, Proper n) : f.path.fileName? = some n := by
  rw [Path.fileName?, Path.parts_absolute? hcwd h.spelled, Path.body_child h.name_proper, ← List.append_assoc,
    ← List.cons_append, List.getLast?_concat]

lemma name (hcwd : ∀ n ∈ cwd, Proper n) : f.name = n := by
  obtain ⟨b, a, -, hfile⟩ := h.file
  have hnamed : f.Named := hfile ▸ rfl
  rw [hnamed.name_eq, Path.fileName, h.fileName hcwd, Option.getD_some]

lemma place_eq (hcwd : ∀ n ∈ cwd, Proper n) : f.path.place cwd = s.root.place cwd ++ ns ++ [n] := by
  rw [Path.place_absolute? hcwd h.spelled, place_child h.name_proper,
    Path.place_below fun m hm => h.proper m (List.mem_append_left _ hm)]

lemma covers (hcwd : ∀ n ∈ cwd, Proper n) : s.Covers cwd (f.path.place cwd) :=
  ⟨ns, n, h.place_eq hcwd, h.enters, h.accepts⟩

end Seen

lemma pick_place (hcwd : ∀ n ∈ who.cwd, Proper n) (hplace : dir.place who.cwd = place) (hn : Proper n)
    (hf : f ∈ s.pick who t (dir.child n)) : f.path.place who.cwd = place ++ [n] := by
  rw [FileInfo.read_path hcwd (mem_pick.1 hf).2.1, place_child hn, hplace]

/-- The files that are found under one name in a directory. -/
def under (s : Scope) (who : Actor) (t : Tree) (fuel depth : Nat) (place : Place) (dir : Path) (n : String) :
    List FileInfo :=
  match t.at? (place ++ [n]) with
  | some (.file ..) => s.pick who t (dir.child n)
  | some (.dir _) =>
    if s.recursive && s.enters (dir.child n) n depth then
      s.scanDir who t fuel (depth + 1) (place ++ [n]) (dir.child n)
    else []
  | _ => []

lemma scanDir_succ : s.scanDir who t (fuel + 1) depth place dir =
    (t.names place).flatMap (s.under who t fuel depth place dir) := rfl

section

variable (ht : t.Tidy) (hcwd : ∀ n ∈ who.cwd, Proper n)

include ht hcwd

lemma scanDir_place (hplace : dir.place who.cwd = place) (hf : f ∈ s.scanDir who t fuel depth place dir) :
    ∃ ns n, f.path.place who.cwd = place ++ ns ++ [n] := by
  obtain ⟨ns, n, -, -, ⟨b, a, hnode⟩, hpick⟩ := (mem_scanDir ht.sound).1 hf
  have hproper : ∀ m ∈ ns ++ [n], Proper m := fun m hm =>
    ht.proper _ (by rw [hnode]; simp) m (by rw [List.append_assoc]; exact List.mem_append_right _ hm)
  refine ⟨ns, n, (FileInfo.read_path hcwd (mem_pick.1 hpick).2.1).trans ?_⟩
  rw [Path.below_concat, Path.place_below hproper, hplace, List.append_assoc]

lemma under_place (hplace : dir.place who.cwd = place) (hn : Proper n) (hf : f ∈ s.under who t fuel depth place dir n) :
    ∃ r, f.path.place who.cwd = place ++ n :: r := by
  unfold under at hf
  split at hf
  · exact ⟨[], pick_place hcwd hplace hn hf⟩
  · split at hf
    · obtain ⟨ns, m, heq⟩ := scanDir_place ht hcwd (by rw [place_child hn, hplace]) hf
      exact ⟨ns ++ [m], by rw [heq]; simp⟩
    · cases hf
  · cases hf

/-- No place is found twice. -/
lemma nodup_scanDir (hplace : dir.place who.cwd = place) :
    (Batch.places who.cwd (s.scanDir who t fuel depth place dir)).Nodup := by
  induction fuel generalizing depth place dir with
  | zero => exact .nil
  | succ fuel ih =>
    rw [scanDir_succ, Batch.places, List.map_flatMap, List.nodup_flatMap]
    have hproper : ∀ n ∈ t.names place, Proper n := fun n hn => ht.proper _ (mem_names.1 hn) n (by simp)
    refine ⟨fun n hn => ?_, (nodup_names ht.single).imp_of_mem fun {m n} hm hn hne q hqm hqn => ?_⟩
    · unfold under
      split
      · unfold pick
        split
        · split
          · split <;> simp
          · exact .nil
        · exact .nil
      · split
        · exact ih (by rw [place_child (hproper n hn), hplace])
        · exact .nil
      · exact .nil
    · -- The place tells under which name of the directory it was found.
      obtain ⟨f, hf, rfl⟩ := List.mem_map.1 hqm
      obtain ⟨g, hg, hplaces⟩ := List.mem_map.1 hqn
      obtain ⟨r, hr⟩ := under_place ht hcwd hplace (hproper m hm) hf
      obtain ⟨r', hr'⟩ := under_place ht hcwd hplace (hproper n hn) hg
      rw [hr, hr'] at hplaces
      exact hne (List.cons.inj (List.append_cancel_left hplaces)).1.symm

lemma nodup_scan : (Batch.places who.cwd (s.scan who t)).Nodup := by
  unfold scan
  split
  · next hstat => exact nodup_scanDir ht hcwd (stat_place ht.plain hstat).symm
  · exact .nil

omit ht in
/-- A file that is found, as it is told of. -/
lemma scan_seen {who' : Actor} (hwho : who'.cwd = who.cwd) (hs' : t'.Sound) (hp' : t'.Plain)
    (hproper : ∀ q, s.Covers who.cwd q → t'.bytes? q ≠ none → ∀ n ∈ q, Proper n) (hf : f ∈ s.scan who' t') :
    ∃ ns n, s.Seen who.cwd t' ns n f := by
  obtain ⟨-, ns, n, henters, ⟨b, a, hnode⟩, hpick⟩ := (mem_scan hs' hp').1 hf
  obtain ⟨hacc, hread, hhid⟩ := mem_pick.1 hpick
  rw [hwho] at hnode
  have hall := hproper _ ⟨ns, n, rfl, henters, hacc⟩ (by rw [Ne, bytes?_eq_none]; exact fun h => h b a hnode)
  have hns : ∀ m ∈ ns ++ [n], Proper m := fun m hm =>
    hall m (by rw [List.append_assoc]; exact List.mem_append_right _ hm)
  have hplace : ((s.root.below ns).child n).place who.cwd = s.root.place who.cwd ++ ns ++ [n] := by
    rw [place_child (hns n (by simp)), Path.place_below fun m hm => hns m (List.mem_append_left _ hm)]
  obtain ⟨full, hfull, hstat, rfl⟩ :=
    FileInfo.read_ofFile hs' hp' (hwho ▸ hcwd) hread (by rw [hwho, hplace]; exact hnode)
  rw [hwho] at hfull hstat
  rw [hplace] at hstat
  exact ⟨ns, n, henters, hacc, hns, hfull, ⟨b, a, hstat, rfl⟩, hhid⟩

/-- A file that is found later, where there was a file before too, was found before. -/
lemma Seen.again (h : s.Seen who.cwd t' ns n f) (hs' : t'.Sound) (hp' : t'.Plain) (hup : Part.up ∉ s.root.parts)
    (hdir : t.isDir who.cwd s.root = true) (hthere : t.bytes? (f.path.place who.cwd) ≠ none) :
    ∃ g ∈ s.scan who t, f.Twin g := by
  obtain ⟨c, hc⟩ := Option.ne_none_iff_exists'.1 hthere
  obtain ⟨a', hnode'⟩ := bytes?_eq_some.1 hc
  obtain ⟨b, a, hstat, hfile⟩ := h.file
  have hread' : t'.read who.cwd f.path = .ok b := by rw [Tree.read, hstat]
  have hlevel : Part.up ∉ f.path.parts :=
    Path.level_absolute? hcwd (Path.below_concat ▸ Path.level_below hup h.proper) h.spelled
  have hstat' := stat_of_level ht.sound ht.plain hs' hp' hlevel hread' hnode'
  refine ⟨.ofFile f.path c a', (mem_scan ht.sound ht.plain).2 ⟨hdir, ns, n, h.enters, ⟨c, a', h.place_eq hcwd ▸ hnode'⟩, ?_⟩,
    hfile ▸ ⟨rfl, rfl, rfl, rfl⟩⟩
  exact mem_pick.2 ⟨h.accepts, FileInfo.read_of_stat h.spelled hstat', hfile ▸ h.shown⟩

/-- What is found later, where no files have come, was found before. -/
lemma scan_again {who' : Actor} (hwho : who'.cwd = who.cwd) (hs' : t'.Sound) (hp' : t'.Plain)
    (hup : Part.up ∉ s.root.parts) (hdir : t.isDir who.cwd s.root = true)
    (hback : ∀ q, s.Covers who.cwd q → t'.bytes? q ≠ none → t.bytes? q ≠ none) (hf : f ∈ s.scan who' t') :
    ∃ g ∈ s.scan who t, f.Twin g ∧ s.Covers who.cwd (f.path.place who.cwd) ∧ ∃ c, t'.read who.cwd f.path = .ok c := by
  obtain ⟨ns, n, hseen⟩ := scan_seen hcwd hwho hs' hp' (fun q hq hbytes => ht.proper q fun hnone =>
    hback q hq hbytes (by simp [Tree.bytes?, hnone])) hf
  obtain ⟨b, hread⟩ := hseen.read
  have hcov := hseen.covers hcwd
  obtain ⟨g, hg, htwin⟩ := hseen.again ht hcwd hs' hp' hup hdir (hback _ hcov (by simp [bytes?_of_read hs' hp' hread]))
  exact ⟨g, hg, htwin, hcov, b, hread⟩

end

end Scope

end FileOrganizer
