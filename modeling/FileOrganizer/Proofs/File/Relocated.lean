import FileOrganizer.Proofs.Batch.Current
import FileOrganizer.Proofs.Batch.Plan
import FileOrganizer.Proofs.Path.Spelled
import FileOrganizer.Proofs.Tree.Spared

/-! A description that is carried along with the renamings of a file tells what is read of the file in the end, but for
the mark of a hidden file, which it does not lose with the dot of a name. -/

namespace FileOrganizer

open FileOrganizer.Tree FileOrganizer.Disk

variable {who : Actor} {cwd l l' : Place} {t t' t₁ : Tree} {p q full : Path} {n : String} {qs : List Path}
  {b : ByteArray} {a : Attrs} {d f g : FileInfo}

namespace Tree

/-- The path leads to a regular file by its own name, not by a link. -/
def IsFile (cwd : Place) (p : Path) (b : ByteArray) (a : Attrs) (t : Tree) : Prop :=
  ∃ l, t.locate cwd false p = .ok ⟨l, some (.file b a)⟩

lemma IsFile.stat (h : t.IsFile cwd p b a) (hs : t.Sound) : ∃ l, t.stat cwd p = .ok (l, .file b a) := by
  obtain ⟨l, hloc⟩ := h
  have hat := (locate_ok hs hloc).1
  have hnode := at?_file.1 hat.symm
  refine ⟨l, stat_eq_ok.2 ?_⟩
  rw [locate_grows (.of_node? fun _ _ => rfl) (by simp) hloc fun _ x => by simp [hnode], ← hat]

/-- Only a directory has something below it. -/
lemma eq_nil_of_below {r : Place} (hs : t.Sound) (hl : t.isDirAt l ≠ true) (hr : t.node? (l ++ r) ≠ none) : r = [] := by
  by_contra hne
  exact hr (hs.node?_below r hne hl)

/-- When a file is carried to a free place, every way to a directory stays. -/
lemma Carried.roads (hs : t.Sound) (hcar : t.Carried t' l l') (hl : t.isDirAt l ≠ true) (hl' : t.node? l' = none)
    (hlink : ∀ x, t.node? l ≠ some (.link x)) : t.Roads t' := by
  have hno : t.isDirAt l' ≠ true := by
    intro hd
    obtain ⟨k, hk⟩ := isDirAt_iff.1 hd
    rw [hl'] at hk
    cases hk
  have hsame : ∀ q, q ≠ l → t.node? q ≠ none → t'.node? q = t.node? q := by
    intro q hq hsome
    refine hcar.other ?_ ?_
    · rintro ⟨r, rfl⟩
      obtain rfl := eq_nil_of_below hs hno hsome
      exact hsome (by simpa using hl')
    · rintro ⟨r, rfl⟩
      obtain rfl := eq_nil_of_below hs hl hsome
      simp at hq
  refine ⟨fun q hd => ?_, fun q x hx => ?_⟩
  · obtain ⟨k, hk⟩ := isDirAt_iff.1 hd
    exact (isDirAt_congr (hsame q (by rintro rfl; exact hl hd) (by simp [hk]))).trans hd
  · exact (hsame q (by rintro rfl; exact hlink x hx) (by simp [hx])).trans hx

/-- The file at `p` has got another path, where nothing was. -/
lemma IsFile.renamed (h : t.IsFile who.cwd p b a) (hs : t.Sound)
    (hfree : ∀ l e, t.locate who.cwd false q ≠ .ok ⟨l, some e⟩) (hren : rename who p q t = .ok t') :
    t'.IsFile who.cwd q b a := by
  obtain ⟨d, n, d', n', x, hsrc, hdst, hx, hslash, hcase⟩ := rename_ok hs hren
  obtain ⟨l₀, hstat⟩ := h.stat hs
  obtain ⟨m, hends⟩ := endsIn_of_stat hs hstat
  obtain ⟨l, hloc⟩ := h
  obtain ⟨d₀, n₀, hpar, rfl⟩ := parentOf_of_locate hs hends.slash hloc (by simp)
  rw [hsrc] at hpar
  cases hpar
  have hnode := at?_file.1 (locate_ok hs hloc).1.symm
  obtain rfl := Option.some.inj (hx.symm.trans hnode)
  have hqslash := (hslash (by simp)).2
  have hnone : t.node? (d' ++ [n']) = none := by
    by_contra hsome
    obtain ⟨e, he⟩ := Option.ne_none_iff_exists'.1 fun hat => hsome (at?_eq_none.1 hat)
    exact hfree _ e ((locate_of_parentOf hdst hqslash (by simp)).trans (by rw [he]))
  rcases hcase with ⟨heq, -⟩ | ⟨-, -, -, -, -, hcar⟩
  · rw [← heq, hx] at hnone
    cases hnone
  · have hroads := hcar.roads hs (not_isDirAt_of_file hx) hnone (by simp [hx])
    refine ⟨d' ++ [n'], ?_⟩
    rw [locate_of_parentOf (parentOf_roads hroads hdst) hqslash (by simp), at?_file.2 (hcar.target.trans hx)]

/-- Made absolute, the path to a file leads to it as well. -/
lemma IsFile.absolute? (h : t.IsFile cwd p b a) (hs : t.Sound) (hcwd : ∀ m ∈ cwd, Proper m ∧ m.utf8ByteSize ≤ maxName)
    (hfull : p.absolute? cwd = some full) (htaken : refused full = none) :
    ∃ l, t.stat cwd full = .ok (l, .file b a) := by
  obtain ⟨l, hstat⟩ := h.stat hs
  obtain ⟨n, hends⟩ := endsIn_of_stat hs hstat
  have hloc := stat_eq_ok.1 hstat
  have htaken' := refused_of_locate_ok hloc
  have hd : t.isDirAt (start cwd p) = true := by
    by_contra hno
    rw [locate_eq_resolve htaken', resolve, if_neg hno] at hloc
    cases hloc
  exact ⟨l, stat_eq_ok.2 ((locate_absolute? hs hcwd hfull htaken' htaken hends hd).trans hloc)⟩

end Tree

namespace FileInfo

/-- What is read of a file by a path to it. -/
lemma read_file (hs : t.Sound) (hcwd : ∀ m ∈ who.cwd, Proper m ∧ m.utf8ByteSize ≤ maxName)
    (h : t.IsFile who.cwd p b a) (hread : FileInfo.read who t p = .ok d) :
    p.absolute? who.cwd = some d.path ∧ d.Named ∧ d.isDir = false ∧ d.size = b.size ∧ d.modified = a.mtime ∧
      d.readOnly = a.readOnly := by
  obtain ⟨hfull, l, e, hstat, hfacts⟩ := read_eq hread
  obtain ⟨l', hstat'⟩ := h.absolute? hs hcwd hfull (refused_of_locate_ok (stat_eq_ok.1 hstat))
  rw [hstat] at hstat'
  cases hstat'
  exact ⟨hfull, named_read hread, hfacts b a rfl⟩

lemma hidden_read (hread : FileInfo.read who t p = .ok d) : d.hidden = startsWithDot d.name := by
  unfold FileInfo.read at hread
  split at hread
  · cases hread
  · split at hread
    · cases hread
    · cases hread
      rfl

lemma exists_read (hs : t.Sound) (hcwd : ∀ m ∈ who.cwd, Proper m ∧ m.utf8ByteSize ≤ maxName) (ha : q.isAbsolute = true)
    (h : t.IsFile who.cwd q b a) : ∃ g, FileInfo.read who t q = .ok g := by
  obtain ⟨l, hstat⟩ := h.stat hs
  obtain ⟨n, hends⟩ := endsIn_of_stat hs hstat
  have hfull : q.absolute? who.cwd = some (q.top.spelled q.body) := by
    rw [Path.absolute?_eq ha, if_neg hends.slash]
  obtain ⟨l', hstat'⟩ := h.absolute? hs hcwd hfull (Path.refused_top ha (refused_of_locate_ok (stat_eq_ok.1 hstat)))
  unfold FileInfo.read
  rw [hfull]
  dsimp only
  rw [hstat']
  exact ⟨_, rfl⟩

/-- The file at the first path is renamed to one after the other, each of them absolute and free when its turn comes. -/
inductive Renamed (who : Actor) : Path → List Path → Tree → Tree → Prop
  | done {p : Path} {t : Tree} : Renamed who p [] t t
  | step {p q : Path} {qs : List Path} {t t₁ t' : Tree} (absolute : q.isAbsolute = true)
      (free : ∀ l e, t.locate who.cwd false q ≠ .ok ⟨l, some e⟩) (rename : t.rename who p q = .ok t₁)
      (rest : Renamed who q qs t₁ t') : Renamed who p (q :: qs) t t'

namespace Renamed

lemma isFile (h : Renamed who p qs t t') (hs : t.Sound) (hfile : t.IsFile who.cwd p b a) :
    t'.Sound ∧ t'.IsFile who.cwd (qs.getLast?.getD p) b a := by
  induction h with
  | done => exact ⟨hs, hfile⟩
  | step absolute free rename rest ih =>
    rw [List.getLast?_cons, Option.getD_some]
    exact ih (sound_of_rename hs rename) (hfile.renamed hs free rename)

lemma absolute (h : Renamed who p qs t t') : ∀ q ∈ qs, q.isAbsolute = true := by
  induction h with
  | done => simp
  | step absolute free rename rest ih => simpa [absolute] using ih

end Renamed

/-- All that a description tells when it is carried along, but whether the file is hidden. -/
lemma foldl_relocated (hd : d.Named) (qs : List Path) : (qs.foldl relocated d).path = qs.getLast?.getD d.path ∧
    (qs.foldl relocated d).Named ∧ (qs.foldl relocated d).isDir = d.isDir ∧ (qs.foldl relocated d).size = d.size ∧
    (qs.foldl relocated d).modified = d.modified ∧ (qs.foldl relocated d).readOnly = d.readOnly := by
  induction qs generalizing d with
  | nil => exact ⟨rfl, hd, rfl, rfl, rfl, rfl⟩
  | cons q qs ih =>
    rw [List.foldl_cons, List.getLast?_cons, Option.getD_some]
    exact ih (named_relocated d q)

lemma hidden_relocated (d : FileInfo) (q : Path) : (d.relocated q).hidden = (d.hidden || startsWithDot q.fileName) := by
  rw [← (show (d.relocated q).name = q.fileName from (named_relocated d q).name_eq)]
  rfl

lemma foldl_hidden (d : FileInfo) (qs : List Path) :
    (qs.foldl relocated d).hidden = (d.hidden || qs.any (startsWithDot ·.fileName)) := by
  induction qs generalizing d with
  | nil => simp
  | cons q qs ih => rw [List.foldl_cons, ih, hidden_relocated, List.any_cons, Bool.or_assoc]

/-- A file is hidden by its name. -/
lemma hidden_file (hs : t.Sound) (hcwd : ∀ m ∈ who.cwd, Proper m ∧ m.utf8ByteSize ≤ maxName)
    (h : t.IsFile who.cwd p b a) (hread : FileInfo.read who t p = .ok d) : d.hidden = startsWithDot p.fileName := by
  obtain ⟨hfull, hnamed, -⟩ := read_file hs hcwd h hread
  obtain ⟨l, hstat⟩ := h.stat hs
  obtain ⟨n, hends⟩ := endsIn_of_stat hs hstat
  obtain ⟨-, -, hends'⟩ := steps_absolute? (fun m hm => (hcwd m hm).1) hfull hends
  rw [hidden_read hread, hnamed.name_eq, hends.fileName, hends'.fileName]

/-- The mark that was carried along is that of the last name if the last name has it, or none has. -/
lemma mark_iff {last : Path} (hlast : last ∈ p :: qs) :
    startsWithDot last.fileName = (startsWithDot p.fileName || qs.any (startsWithDot ·.fileName)) ↔
      startsWithDot last.fileName = true ∨ ∀ q ∈ p :: qs, startsWithDot q.fileName = false := by
  rw [← List.any_cons (f := fun q : Path => startsWithDot q.fileName)]
  cases hdot : startsWithDot last.fileName with
  | true =>
    have hany : (p :: qs).any (startsWithDot ·.fileName) = true := List.any_eq_true.2 ⟨last, hlast, hdot⟩
    simp [hany]
  | false => simp [eq_comm (a := false)]

/-- What is read of a file in the end is what was told of it step by step, as far as it is not about hiding, and the mark
of a hidden file is right just if the last name begins with a dot or none did. -/
theorem read_renamed (hcwd : ∀ m ∈ who.cwd, Proper m ∧ m.utf8ByteSize ≤ maxName) (hs : t.Sound)
    (hfile : t.IsFile who.cwd p b a) (hread : FileInfo.read who t p = .ok d) (h : Renamed who p qs t t') :
    ∃ g, FileInfo.read who t' (qs.getLast?.getD p) = .ok g ∧ g.Alike (qs.foldl relocated d) ∧
      (g.hidden = (qs.foldl relocated d).hidden ↔
        startsWithDot (qs.getLast?.getD p).fileName = true ∨ ∀ q ∈ p :: qs, startsWithDot q.fileName = false) := by
  obtain ⟨hs', hfile'⟩ := h.isFile hs hfile
  have hlast : qs = [] ∧ t' = t ∨ (qs.getLast?.getD p) ∈ qs := by
    cases h with
    | done => exact Or.inl ⟨rfl, rfl⟩
    | step => exact Or.inr (List.mem_of_getLast? (by rw [List.getLast?_cons, Option.getD_some]))
  obtain ⟨g, hg⟩ : ∃ g, FileInfo.read who t' (qs.getLast?.getD p) = .ok g := by
    rcases hlast with ⟨rfl, rfl⟩ | hmem
    · exact ⟨d, hread⟩
    · exact exists_read hs' hcwd (h.absolute _ hmem) hfile'
  obtain ⟨hfull, hnamed, hdir, hsize, hmodified, hreadOnly⟩ := read_file hs hcwd hfile hread
  obtain ⟨hfull', hnamed', hdir', hsize', hmodified', hreadOnly'⟩ := read_file hs' hcwd hfile' hg
  obtain ⟨hpath, hrnamed, hrdir, hrsize, hrmodified, hrreadOnly⟩ := foldl_relocated hnamed qs
  have hparts : g.path.parts = (qs.foldl relocated d).path.parts := by
    rw [hpath]
    rcases hlast with ⟨rfl, rfl⟩ | hmem
    · rw [Option.some.inj (hfull'.symm.trans hfull)]
      rfl
    · have habs := h.absolute _ hmem
      obtain ⟨r, hr⟩ : ∃ r, qs.getLast? = some r := Option.isSome_iff_exists.1 (by
        simpa using List.ne_nil_of_mem hmem)
      rw [hr, Option.getD_some] at habs hfull' ⊢
      rw [Path.parts_absolute? (fun m hm => (hcwd m hm).1) hfull', if_pos habs, Path.parts_of_absolute habs]
      rfl
  have hnames : g.toFileNames = (qs.foldl relocated d).toFileNames := by
    rw [hnamed', hrnamed, hdir', hrdir, hdir, Path.fileNames_of_parts hparts]
  refine ⟨g, hg, ⟨hnames, hparts, hsize'.trans (hsize.symm.trans hrsize.symm),
    hmodified'.trans (hmodified.symm.trans hrmodified.symm), hreadOnly'.trans (hreadOnly.symm.trans hrreadOnly.symm),
    hdir'.trans (hdir.symm.trans hrdir.symm)⟩, ?_⟩
  rw [hidden_file hs' hcwd hfile' hg, foldl_hidden, hidden_file hs hcwd hfile hread]
  refine mark_iff ?_
  rcases hlast with ⟨rfl, -⟩ | hmem
  · exact List.mem_cons_self
  · exact List.mem_cons_of_mem p hmem

/-- A file whose name begins with a dot. -/
def dotted : Tree := ⟨[(["r"], .dir default), (["r", ".a.txt"], .file ⟨#[1]⟩ default)]⟩

lemma isFile_dotted : dotted.IsFile [] ⟨"/r/.a.txt"⟩ ⟨#[1]⟩ default := ⟨["r", ".a.txt"], rfl⟩

lemma free_of_locate (h : t.locate cwd false q = .ok ⟨l, none⟩) : ∀ l e, t.locate cwd false q ≠ .ok ⟨l, some e⟩ := by
  simp [h]

theorem read_renamed_dotted : ∃ t' d g, FileInfo.read ⟨[], default⟩ dotted ⟨"/r/.a.txt"⟩ = .ok d ∧
    Renamed ⟨[], default⟩ ⟨"/r/.a.txt"⟩ [⟨"/r/B.TXT"⟩, ⟨"/r/.c.tar.gz"⟩] dotted t' ∧
    FileInfo.read ⟨[], default⟩ t' ⟨"/r/.c.tar.gz"⟩ = .ok g ∧
    g.Alike ((d.relocated ⟨"/r/B.TXT"⟩).relocated ⟨"/r/.c.tar.gz"⟩) ∧
    g.hidden = ((d.relocated ⟨"/r/B.TXT"⟩).relocated ⟨"/r/.c.tar.gz"⟩).hidden := by
  obtain ⟨d, hd⟩ : ∃ d, FileInfo.read ⟨[], default⟩ dotted ⟨"/r/.a.txt"⟩ = .ok d := ⟨_, rfl⟩
  obtain ⟨t', h⟩ : ∃ t', Renamed ⟨[], default⟩ ⟨"/r/.a.txt"⟩ [⟨"/r/B.TXT"⟩, ⟨"/r/.c.tar.gz"⟩] dotted t' :=
    ⟨_, .step rfl (free_of_locate (l := ["r", "B.TXT"]) rfl) rfl
      (.step rfl (free_of_locate (l := ["r", ".c.tar.gz"]) rfl) rfl .done)⟩
  obtain ⟨g, hg, halike, hhidden⟩ := read_renamed (by simp) (sound_of_entries (by decide)) isFile_dotted hd h
  exact ⟨t', d, g, hd, h, hg, halike, hhidden.2 (Or.inl (by decide))⟩

/-- Without the dot of its name the file is not hidden, and it is told of as if it were. -/
theorem read_renamed_fails : ¬∀ (who : Actor) (t t' : Tree) (p : Path) (qs : List Path) (b : ByteArray) (a : Attrs)
    (d g : FileInfo), (∀ m ∈ who.cwd, Proper m ∧ m.utf8ByteSize ≤ maxName) → t.Sound → t.IsFile who.cwd p b a →
    FileInfo.read who t p = .ok d → Renamed who p qs t t' → FileInfo.read who t' (qs.getLast?.getD p) = .ok g →
    g.hidden = (qs.foldl relocated d).hidden := by
  intro hall
  have hmark := hall ⟨[], default⟩ dotted _ ⟨"/r/.a.txt"⟩ [⟨"/r/a.txt"⟩] _ _ _ _ (by simp) (sound_of_entries (by decide))
    isFile_dotted rfl (.step rfl (free_of_locate (l := ["r", "a.txt"]) rfl) rfl .done) rfl
  exact absurd hmark (by decide)

end FileInfo

end FileOrganizer
