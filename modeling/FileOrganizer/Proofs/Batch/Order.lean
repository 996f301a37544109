import FileOrganizer.Proofs.Batch.Plan
import FileOrganizer.Proofs.Tree.Shift

/-! The moves of a plan in any order: as long as no file is on the way that another needs, and none goes there, the tree
that they lead to is the same, and so are those that succeed. -/

namespace FileOrganizer

open FileOrganizer.Tree FileOrganizer.Disk

variable {s : Setting} {host : Host} {t u : Tree} {cwd : Place} {c : Categories} {fs : List FileInfo} {w : Workspace}
  {m n : PlannedTransfer} {ms xs ys : List PlannedTransfer} {b : Batch} {X : Set (Place × Place)} {l : List String}

namespace Path

variable {p q : Path}

lemma isAbsolute_child_of {name : String} (h : p.isAbsolute = true) : (p.child name).isAbsolute = true := by
  rw [child, isAbsolute_join, h, Bool.true_or]
  rintro htext
  simp [isAbsolute, chars, htext] at h

end Path

namespace Tree

/-- Nothing stands at a place to which a path leads down in vain. -/
lemma Descent.node? {p : Path} (h : Descent p l) (ha : p.isAbsolute = true) (hbody : p.body ≠ []) (hs : t.Sound)
    (hp : t.Plain) (hslash : p.endsInSlash ≠ true) (hno : t.has cwd p = false) : t.node? (p.place cwd) = none := by
  by_contra hthere
  rcases l.eq_nil_or_concat with rfl | ⟨l, n, rfl⟩
  · exact hbody h.body
  · rw [List.concat_eq_append] at h
    have hup : t.isDirAt (start cwd p ++ l) = true := by
      rw [h.place_absolute ha cwd] at hthere
      simpa [start, ha] using hs l n hthere
    exact hthere (node?_of_free hp hno (parentOf_descent cwd hs hp h hup) hslash)

end Tree

namespace PlannedTransfer

/-- Where the file is, and where it goes. -/
def ends (cwd : Place) (m : PlannedTransfer) : Place × Place := (m.source.place cwd, m.target.place cwd)

/-- A file that has a free place to go to, straight down from the root. -/
structure Fits (t : Tree) (cwd : Place) (m : PlannedTransfer) : Prop where
  file : ∃ b, t.read cwd m.source = .ok b
  absolute : m.target.isAbsolute = true
  down : ∃ l, Descent m.target l
  level : m.target.endsInSlash ≠ true
  free : t.node? (m.target.place cwd) = none

/-- The two files are apart, and neither is, or goes, where the other needs a directory. -/
def Apart (cwd : Place) (m n : PlannedTransfer) : Prop :=
  Clears (m.ends cwd) (n.ends cwd) ∧ Clears (n.ends cwd) (m.ends cwd)

lemma Apart.symm (h : m.Apart cwd n) : n.Apart cwd m := And.symm h

lemma Fits.ready (h : m.Fits t cwd) (hs : t.Sound) (hp : t.Plain) : t.Ready (m.ends cwd) := by
  obtain ⟨b, hread⟩ := h.file
  obtain ⟨a, hnode⟩ := bytes?_eq_some.1 (bytes?_of_read hs hp hread)
  exact ⟨⟨b, a, hnode⟩, h.free⟩

/-- What is known when the transfer's turn comes: the files in `X` are moved, and none is in its way. -/
structure Due (t : Tree) (cwd : Place) (X : Set (Place × Place)) (m : PlannedTransfer) : Prop where
  fits : m.Fits t cwd
  clear : ∀ x ∈ X, t.Ready x ∧ Clears x (m.ends cwd) ∧ Clears (m.ends cwd) x

section

variable (hs : t.Sound) (hp : t.Plain) (hshift : t.Shifted X u) (hus : u.Sound) (hup : u.Plain) (hm : m.Due t cwd X)

include hs hp hshift hup hm

/-- The file is still there. -/
lemma Due.stat : ∃ b a, u.stat cwd m.source = .ok (m.source.place cwd, .file b a) := by
  obtain ⟨b, hread⟩ := hm.fits.file
  obtain ⟨a, hstat⟩ := stat_of_read hs hp hread
  have hat := at?_file.1 (stat_ok hs hstat).1
  have hstays : u.node? (m.source.place cwd) = t.node? (m.source.place cwd) :=
    hshift.source hm.clear (hm.fits.ready hs hp)
  refine ⟨b, a, stat_eq_ok.2 ?_⟩
  rw [locate_steady hp hup (fun _ => hshift.isDirAt fun x hx => (hm.clear x hx).1) (stat_eq_ok.1 hstat),
    at?_file.2 (hstays.trans hat)]

include hus

lemma Due.moveFile {who : Actor} {r : Except Fault Unit} {u' : Tree} (hwho : who.cwd = cwd)
    (h : moveFile who m.source m.target u = (r, u')) : u'.Sound ∧ u'.Plain ∧ t.Shifted (insert (m.ends cwd) X) u' ∧
      (r = .ok () ↔ t.Opens (m.target.place cwd) ∧ t.Frees (m.source.place cwd)) := by
  subst hwho
  obtain ⟨b, a, hstat⟩ := hm.stat hs hp hshift hup
  have hready := hm.fits.ready hs hp
  obtain ⟨l, hdown⟩ := hm.fits.down
  have hplace := hdown.place_absolute hm.fits.absolute who.cwd
  have hfree : u.node? (m.target.place who.cwd) = none := hshift.target hm.clear hready
  have hopens := hshift.opens_iff hm.clear
  have hfrees := hshift.frees_iff hm.clear hready hs
  rcases l.eq_nil_or_concat with rfl | ⟨l, n, rfl⟩
  · rw [hplace] at hfree
    cases hfree
  · rw [List.concat_eq_append] at hdown hplace
    rw [hplace] at hfree
    obtain ⟨hs', hp', hone, hr⟩ := moveFile_shifted hus hup hstat hm.fits.absolute hdown hm.fits.level hfree h
    rw [← hplace] at hone hr
    exact ⟨hs', hp', hshift.insert hm.clear hready hs hone, hr.trans (and_congr hopens hfrees)⟩

end

end PlannedTransfer

namespace Batch

open PlannedTransfer

/-- One more file is moved; whether it succeeds could be told before the first one was. -/
lemma transfer_shifted (hs : t.Sound) (hp : t.Plain) (hshift : t.Shifted X b.work.tree) (hus : b.work.tree.Sound)
    (hup : b.work.tree.Plain) (hm : m.Due t host.cwd X) (hsession : b.session = none) :
    (transfer host .move m b).2.work.tree.Sound ∧ (transfer host .move m b).2.work.tree.Plain ∧
      (transfer host .move m b).2.session = none ∧
      t.Shifted (insert (m.ends host.cwd) X) (transfer host .move m b).2.work.tree ∧
      ((transfer host .move m b).1 = none ↔ t.Opens (m.target.place host.cwd) ∧ t.Frees (m.source.place host.cwd)) := by
  rcases hwork : transferWork host .move m b.work.tree with ⟨r, u⟩
  obtain ⟨hs', hp', hshift', hr⟩ := hm.moveFile hs hp hshift hus hup rfl hwork
  rcases r with e | ⟨⟩
  · unfold transfer
    rw [Workspace.disk_eq, hwork]
    exact ⟨hs', hp', hsession, hshift', by simpa using hr⟩
  · obtain ⟨b', rfl, hsession', hdone⟩ := transfer_ok hwork
    rw [hdone, show b'.note host ⟨m.source, m.target, .move, host.now⟩ = b' by rw [note, hsession', hsession]]
    exact ⟨hs', hp', hsession'.trans hsession, hshift', by simpa using hr⟩

/-- All files are moved, whatever their order. -/
lemma transferAll_shifted (hs : t.Sound) (hp : t.Plain) (hshift : t.Shifted X b.work.tree) (hus : b.work.tree.Sound)
    (hup : b.work.tree.Plain) (hms : ∀ m ∈ ms, m.Due t host.cwd X) (hapart : ms.Pairwise (Apart host.cwd))
    (hsession : b.session = none) :
    t.Shifted (ends host.cwd '' {m | m ∈ ms} ∪ X) (transferAll host .move ms b).2.work.tree ∧
      ∀ x ∈ (transferAll host .move ms b).1,
        (x.2 = none ↔ t.Opens (x.1.target.place host.cwd) ∧ t.Frees (x.1.source.place host.cwd)) := by
  induction ms generalizing b X with
  | nil => exact ⟨by simpa [transferAll] using hshift, fun x hx => by cases hx⟩
  | cons m ms ih =>
    obtain ⟨hfirst, hrest⟩ := List.pairwise_cons.1 hapart
    have hm := hms m List.mem_cons_self
    obtain ⟨hs', hp', hsession', hshift', hr⟩ := transfer_shifted hs hp hshift hus hup hm hsession
    have hnext : ∀ n ∈ ms, n.Due t host.cwd (insert (m.ends host.cwd) X) := by
      intro n hn
      have hdue := hms n (List.mem_cons_of_mem m hn)
      refine ⟨hdue.fits, fun x hx => ?_⟩
      rcases hx with rfl | hx
      · exact ⟨hm.fits.ready hs hp, hfirst n hn⟩
      · exact hdue.clear x hx
    obtain ⟨hall, hres⟩ := ih hshift' hs' hp' hnext hrest hsession'
    rw [transferAll]
    dsimp only
    refine ⟨?_, fun x hx => ?_⟩
    · rwa [show {n | n ∈ m :: ms} = insert m {n | n ∈ ms} from Set.ext fun n => List.mem_cons, Set.image_insert_eq,
        Set.insert_union, ← Set.union_insert]
    · rcases List.mem_cons.1 hx with rfl | hx
      · exact hr
      · exact hres x hx

/-- Moves that keep out of each other's way have one outcome in every order. -/
theorem transferAll_perm (hs : b.work.tree.Sound) (hp : b.work.tree.Plain) (hsession : b.session = none)
    (hfits : ∀ m ∈ xs, m.Fits b.work.tree host.cwd) (hapart : xs.Pairwise (Apart host.cwd)) (hperm : xs.Perm ys) :
    (∀ q, (transferAll host .move xs b).2.work.tree.node? q = (transferAll host .move ys b).2.work.tree.node? q) ∧
      ((transferAll host .move xs b).1.map fun x => (x.1, x.2.isNone)).Perm
        ((transferAll host .move ys b).1.map fun x => (x.1, x.2.isNone)) := by
  have hdue : ∀ m ∈ xs, m.Due b.work.tree host.cwd ∅ := fun m hm => ⟨hfits m hm, fun x hx => hx.elim⟩
  obtain ⟨hx, hxs⟩ := transferAll_shifted hs hp (.empty _) hs hp hdue hapart hsession
  obtain ⟨hy, hys⟩ := transferAll_shifted hs hp (.empty _) hs hp (fun m hm => hdue m (hperm.mem_iff.2 hm))
    (hperm.pairwise hapart Apart.symm) hsession
  classical
  let fate : PlannedTransfer → PlannedTransfer × Bool := fun m =>
    (m, decide (b.work.tree.Opens (m.target.place host.cwd) ∧ b.work.tree.Frees (m.source.place host.cwd)))
  have htold : ∀ zs : List PlannedTransfer, (∀ x ∈ (transferAll host .move zs b).1, (x.2 = none ↔
      b.work.tree.Opens (x.1.target.place host.cwd) ∧ b.work.tree.Frees (x.1.source.place host.cwd))) →
      ((transferAll host .move zs b).1.map fun x => (x.1, x.2.isNone)) = zs.map fate := by
    intro zs hzs
    rw [← congrArg (List.map fate) (transferAll_moves host zs b), List.map_map]
    refine List.map_congr_left fun x hx => ?_
    exact Prod.ext rfl (Bool.eq_iff_iff.2 (Option.isNone_iff_eq_none.trans ((hzs x hx).trans decide_eq_true_iff.symm)))
  refine ⟨hx.unique ?_, ?_⟩
  · rwa [show {m | m ∈ xs} = {m | m ∈ ys} from Set.ext fun m => hperm.mem_iff]
  · rw [htold xs hxs, htold ys hys]
    exact hperm.map fate

end Batch

namespace PlannedTransfer

variable (hs : w.tree.Sound) (hp : w.tree.Plain) (hfs : ∀ f ∈ fs, f.Named ∧ ∃ b, w.tree.read s.host.cwd f.path = .ok b)

include hs hp hfs

lemma proper_names : ∀ f ∈ fs, Proper f.name := by
  intro f hf
  obtain ⟨hnamed, b, hread⟩ := hfs f hf
  exact hnamed.proper hs hp hread

variable (hroot : s.root.isAbsolute = true)

include hroot

/-- Everything that is planned can be judged by itself. -/
lemma plan_fits (hms : (plan s c .move fs w).1 = ms) (hdown : ∀ m ∈ ms, ∃ l, Descent m.target l) :
    ∀ m ∈ ms, m.Fits w.tree s.host.cwd := by
  intro m hm
  have hproper := proper_names hs hp hfs
  subst hms
  obtain ⟨hsends, -, -⟩ := plan_cases s c .move fs w
  obtain ⟨f, hf, hsource, -, hfree, k, hk, -⟩ := hsends m hm
  obtain ⟨-, b, hread⟩ := hfs f hf
  have hname := FileName.proper_variant (hproper f hf) k
  have habs : m.target.isAbsolute = true := by
    rw [hk]
    exact Path.isAbsolute_child_of (Path.isAbsolute_child_of hroot)
  have hslash : m.target.endsInSlash ≠ true := hk ▸ Path.endsInSlash_child hname
  obtain ⟨l, hl⟩ := hdown m hm
  have hno : w.tree.has s.host.cwd m.target = false := by
    rw [Workspace.isFree, Bool.and_eq_true, Bool.not_eq_true'] at hfree
    exact hfree.1
  have hbody : m.target.body ≠ [] := by
    rw [hk, Path.body_child hname]
    simp
  exact ⟨⟨b, hsource ▸ hread⟩, habs, hdown m hm, hslash, hl.node? habs hbody hs hp hslash hno⟩

/-- No two files are planned for one place. -/
lemma plan_targets (hms : (plan s c .move fs w).1 = ms) (hdown : ∀ m ∈ ms, ∃ l, Descent m.target l) :
    ms.Pairwise fun m n => m.target.place s.host.cwd ≠ n.target.place s.host.cwd := by
  have hfits := plan_fits hs hp hfs hroot hms hdown
  refine (hms ▸ (plan_cases s c .move fs w).2.2).imp_of_mem fun {m n} hm hn hdiff heq => ?_
  obtain ⟨l, hl⟩ := hdown m hm
  obtain ⟨k, hk⟩ := hdown n hn
  rw [hl.place_absolute (hfits m hm).absolute, hk.place_absolute (hfits n hn).absolute] at heq
  have hsame : n.target.same m.target = true := by
    rw [Path.same, Path.parts_of_absolute (hfits m hm).absolute, Path.parts_of_absolute (hfits n hn).absolute,
      hl.body, hk.body, heq, beq_self_eq_true]
  rw [hsame] at hdiff
  cases hdiff

end PlannedTransfer

/-- A file is not on the way that another needs, and does not go there. -/
def PlannedTransfer.OffWay (cwd : Place) (m n : PlannedTransfer) : Prop :=
  ¬m.source.place cwd <+: (n.target.place cwd).dropLast ∧ ¬m.target.place cwd <+: (n.target.place cwd).dropLast

namespace Batch

open PlannedTransfer

/-- The moves that are planned for distinct files may be made in any order, as long as no file is on the way of another:
the same of them succeed, and the tree is the same in the end. -/
theorem transferAll_plan_perm (hs : w.tree.Sound) (hp : w.tree.Plain) (hroot : s.root.isAbsolute = true)
    (hfs : ∀ f ∈ fs, f.Named ∧ ∃ b, w.tree.read s.host.cwd f.path = .ok b)
    (hdistinct : (fs.map (·.path.place s.host.cwd)).Nodup) (hms : (plan s c .move fs w).1 = ms)
    (hdown : ∀ m ∈ ms, ∃ l, Descent m.target l) (hway : ∀ m ∈ ms, ∀ n ∈ ms, m ≠ n → m.OffWay s.host.cwd n)
    (htree : b.work.tree = w.tree) (hsession : b.session = none) (hx : xs.Perm ms) (hy : ys.Perm ms) :
    (∀ q, (transferAll s.host .move xs b).2.work.tree.node? q =
        (transferAll s.host .move ys b).2.work.tree.node? q) ∧
      ((transferAll s.host .move xs b).1.map fun x => (x.1, x.2.isNone)).Perm
        ((transferAll s.host .move ys b).1.map fun x => (x.1, x.2.isNone)) := by
  have hfits : ∀ m ∈ ms, m.Fits b.work.tree s.host.cwd := by
    rw [htree]
    exact plan_fits hs hp hfs hroot hms hdown
  have hsources : ms.Pairwise fun m n => m.source.place s.host.cwd ≠ n.source.place s.host.cwd := by
    have hsub : (ms.map (·.source)).Sublist (fs.map (·.path)) := hms ▸ plan_sources c fs w
    have hplaces := hsub.map (Path.place s.host.cwd)
    rw [List.map_map, List.map_map] at hplaces
    exact List.pairwise_map.1 (hplaces.nodup hdistinct)
  have hapart : ms.Pairwise (Apart s.host.cwd) := by
    refine (hsources.and (plan_targets hs hp hfs hroot hms hdown)).imp_of_mem fun {m n} hm hn hne => ?_
    have hdiff : m ≠ n := fun heq => hne.1 (heq ▸ rfl)
    obtain ⟨hmn, hmn'⟩ := hway m hm n hn hdiff
    obtain ⟨hnm, hnm'⟩ := hway n hn m hm hdiff.symm
    exact ⟨⟨hne.1, hne.2, hmn, hmn'⟩, ⟨hne.1.symm, hne.2.symm, hnm, hnm'⟩⟩
  exact transferAll_perm (htree ▸ hs) (htree ▸ hp) hsession (fun m hm => hfits m (hx.mem_iff.1 hm))
    ((hx.pairwise_iff Apart.symm).2 hapart) (hx.trans hy.symm)

section

def sorting : Setting := (Job.plainJob []).setting ⟨"/r"⟩

/-- A file has the name of the directory that the other file is to go to. -/
def inTheWay : Tree := ⟨[
  (["r"], .dir ⟨⟨0, 0⟩, false⟩),
  (["r", "Documents"], .file ⟨#[1]⟩ ⟨⟨0, 0⟩, false⟩),
  (["r", "a.txt"], .file ⟨#[2]⟩ ⟨⟨0, 0⟩, false⟩)]⟩

def onto (t : Tree) : Batch := { work := ⟨t, .empty, [], .empty⟩, session := none }

def aside : PlannedTransfer := ⟨⟨"/r/Documents"⟩, ⟨"/r/Other/Documents"⟩, "Other"⟩

def inside : PlannedTransfer := ⟨⟨"/r/a.txt"⟩, ⟨"/r/Documents/a.txt"⟩, "Documents"⟩

end

/-- A document and an archive are moved. -/
theorem transferAll_plan_perm_two : ∃ m n,
    (plan sorting {} .move [Job.found "/r/a.txt", Job.found "/r/a.zip"] (onto Job.twoFiles).work).1 = [m, n] ∧
      ∀ q, (transferAll sorting.host .move [m, n] (onto Job.twoFiles)).2.work.tree.node? q =
        (transferAll sorting.host .move [n, m] (onto Job.twoFiles)).2.work.tree.node? q := by
  have hms : (plan sorting {} .move [Job.found "/r/a.txt", Job.found "/r/a.zip"] (onto Job.twoFiles).work).1 =
      [inside, ⟨⟨"/r/a.zip"⟩, ⟨"/r/Archives/a.zip"⟩, "Archives"⟩] := by decide +kernel
  refine ⟨_, _, hms, (transferAll_plan_perm (b := onto Job.twoFiles) Job.sound_twoFiles
    (plain_of_entries (by decide)) rfl ?_ (by decide +kernel) hms ?_ ?_ rfl rfl (.refl _) (.swap _ _ _)).1⟩
  · exact List.forall_mem_cons.2 ⟨⟨rfl, ⟨#[1]⟩, rfl⟩, List.forall_mem_singleton.2 ⟨rfl, ⟨#[2]⟩, rfl⟩⟩
  · refine List.forall_mem_cons.2 ⟨⟨["r", "Documents", "a.txt"], ?_⟩,
      List.forall_mem_singleton.2 ⟨["r", "Archives", "a.zip"], ?_⟩⟩
    · exact ⟨by decide +kernel, by decide +kernel, by decide +kernel, by decide +kernel⟩
    · exact ⟨by decide +kernel, by decide +kernel, by decide +kernel, by decide +kernel⟩
  · unfold OffWay
    decide +kernel

/-- A file that would have made room had its turn come first is in the way of the other one. -/
theorem transferAll_plan_perm_fails : ¬∀ (s : Setting) (c : Categories) (fs : List FileInfo) (b : Batch)
    (xs ys : List PlannedTransfer), b.work.tree.Sound → b.work.tree.Plain → s.root.isAbsolute = true →
    (∀ f ∈ fs, f.Named ∧ ∃ c, b.work.tree.read s.host.cwd f.path = .ok c) →
    (fs.map (·.path.place s.host.cwd)).Nodup → b.session = none → xs.Perm (plan s c .move fs b.work).1 →
    ys.Perm (plan s c .move fs b.work).1 → ∀ q, (transferAll s.host .move xs b).2.work.tree.node? q =
      (transferAll s.host .move ys b).2.work.tree.node? q := by
  intro h
  have hms : (plan sorting {} .move [Job.found "/r/Documents", Job.found "/r/a.txt"] (onto inTheWay).work).1 =
      [aside, inside] := by decide +kernel
  have hsame := h sorting {} [Job.found "/r/Documents", Job.found "/r/a.txt"]
    (onto inTheWay) [aside, inside] [inside, aside]
    (sound_of_entries (by decide)) (plain_of_entries (by decide)) rfl
    (List.forall_mem_cons.2 ⟨⟨rfl, ⟨#[1]⟩, rfl⟩, List.forall_mem_singleton.2 ⟨rfl, ⟨#[2]⟩, rfl⟩⟩)
    (by decide +kernel) rfl
    (by rw [hms]) (by rw [hms]; exact .swap _ _ _) ["r", "a.txt"]
  have hgone : ((transferAll sorting.host .move [aside, inside] (onto inTheWay)).2.work.tree.at?
      ["r", "a.txt"]).isSome = false := by decide +kernel
  have hstays : ((transferAll sorting.host .move [inside, aside] (onto inTheWay)).2.work.tree.at?
      ["r", "a.txt"]).isSome = true := by decide +kernel
  rw [at?_isSome] at hgone hstays
  rw [hsame, hstays] at hgone
  cases hgone

end Batch

end FileOrganizer
