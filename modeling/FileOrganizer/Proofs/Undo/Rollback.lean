import FileOrganizer.Proofs.Undo.Course
import FileOrganizer.Proofs.Undo.Kept

/-! A rollback: the log is read, what it tells of is taken back, and the log goes. -/

namespace FileOrganizer

open FileOrganizer.Tree FileOrganizer.Disk

variable {who : Actor} {root : Place} {folder : Path} {O : Leeway} {t t' u : Tree} {log : UndoLog} {a : Attrs}
  {store : TagStore}

namespace UndoLog

lemma proper_fileName : Proper fileName := by decide

lemma endsInSlash_file {folder : Path} : (file folder).endsInSlash ≠ true := Path.endsInSlash_child proper_fileName

/-- The path of the log can be used. -/
structure Reachable (folder : Path) (root : Place) : Prop where
  parts : folder.parts = .root :: root.map Part.name
  short : ∀ n ∈ root, n.utf8ByteSize ≤ maxName
  taken : refused (file folder) = none

namespace Reachable

variable (h : Reachable folder root)

include h

lemma isAbsolute : folder.isAbsolute = true := by
  rw [Path.isAbsolute_iff_head, h.parts]
  rfl

lemma file_absolute : (file folder).isAbsolute = true := by
  rw [file, Path.isAbsolute_child proper_fileName, h.isAbsolute]

lemma body : folder.body = root.map Part.name := by
  have hparts := Path.parts_of_absolute h.isAbsolute
  rw [h.parts] at hparts
  simpa using hparts.symm

lemma descent : Descent (file folder) (UndoLog.place root) := by
  refine Descent.child proper_fileName h.body (fun m hm => ?_) h.taken
  rcases List.mem_append.1 hm with hm | hm
  · exact h.short m hm
  · obtain rfl := List.mem_singleton.1 hm
    decide

lemma place (cwd : Place) : (file folder).place cwd = UndoLog.place root := by
  have hplace := h.descent.place cwd
  rwa [start_absolute h.file_absolute, List.nil_append] at hplace

/-- The log is read as it was written. -/
lemma load (who : Actor) (hs : t.Sound) (hp : t.Plain) (hlog : t.node? (UndoLog.place root) = some (.file log.bytes a))
    (hlegible : log.Legible) : UndoLog.load who t folder = .ok (some log) := by
  refine UndoLog.load_of_read hlegible ?_
  have hdesc : ∃ l n, Descent (file folder) (l ++ [n]) := ⟨_, _, h.descent⟩
  obtain ⟨-, hstat⟩ := Rollback.stat_descent who.cwd hs hp hdesc (h.place who.cwd ▸ at?_file.2 hlog)
    fun hslash => absurd hslash endsInSlash_file
  unfold Tree.read
  rw [hstat]

end Reachable

section

variable {b : ByteArray} (who : Actor) (hs : u.Sound) (hp : u.Plain) (hdesc : ∃ l n, Descent (file folder) (l ++ [n]))
  (hlog : u.node? ((file folder).place who.cwd) = some (.file b a))

include hs hp hdesc hlog

lemma parentOf_file : u.has who.cwd (file folder) = true ∧ ∃ d n,
    u.parentOf who.cwd (file folder) = .ok (d, .name n) ∧ (file folder).place who.cwd = d ++ [n] := by
  obtain ⟨hpar, hstat⟩ := Rollback.stat_descent who.cwd hs hp hdesc (at?_file.2 hlog)
    fun hslash => absurd hslash endsInSlash_file
  exact ⟨has_iff.2 ⟨_, _, hstat⟩, hpar⟩

/-- A log that can be reached and taken away goes. -/
lemma remove_goes (hlock : u.isLocked ((file folder).place who.cwd).dropLast ≠ true) :
    ∃ u', UndoLog.remove who folder u = (.ok (), u') ∧ u.Sets u' ((file folder).place who.cwd) none := by
  obtain ⟨hhas, d, n, hpar, hplace⟩ := parentOf_file who hs hp hdesc hlog
  rw [hplace] at hlog hlock ⊢
  rw [List.dropLast_concat] at hlock
  obtain ⟨u', hrem, hsets⟩ := removeFile_eq_ok hpar endsInSlash_file hlog (by simp) hlock
  refine ⟨u', ?_, hsets⟩
  unfold UndoLog.remove
  rw [run_bind, run_get]
  dsimp only
  rw [if_pos hhas, Disk.change, hrem]

/-- From a directory that is protected it is not taken away. -/
lemma remove_denied (hlock : u.isLocked ((file folder).place who.cwd).dropLast = true) :
    UndoLog.remove who folder u = (.error (.os .denied), u) := by
  obtain ⟨hhas, d, n, hpar, hplace⟩ := parentOf_file who hs hp hdesc hlog
  rw [hplace] at hlog hlock
  rw [List.dropLast_concat] at hlock
  unfold UndoLog.remove
  rw [run_bind, run_get]
  dsimp only
  rw [if_pos hhas, Disk.change, Tree.removeFile, hpar]
  simp [at?_file.2 hlog, hlock]

end

lemma remove_gone (who : Actor) (h : Reachable folder root) (hs : u.Sound) (hp : u.Plain) {b : ByteArray}
    (hlog : u.node? (UndoLog.place root) = some (.file b a)) (hlock : u.isLocked root ≠ true) :
    ∃ u', UndoLog.remove who folder u = (.ok (), u') ∧ u.Sets u' (UndoLog.place root) none := by
  have hplace := h.place who.cwd
  have hlock' : u.isLocked ((file folder).place who.cwd).dropLast ≠ true := by
    rwa [hplace, UndoLog.place, List.dropLast_concat]
  rw [← hplace] at hlog ⊢
  exact remove_goes who hs hp ⟨_, _, h.descent⟩ hlog hlock'

end UndoLog

namespace Rollback

/-- Where a directory may be left, or is taken for empty, there is no file before or after. -/
lemma Back.bytes? (hb : Back O root t u) {q : Place} (hq : q ≠ UndoLog.place root) : u.bytes? q = t.bytes? q := by
  rcases hb.agrees q hq with h | ⟨h, h'⟩ | ⟨h, h', -⟩ | ⟨h, h', -⟩
  · exact bytes?_congr h
  all_goals simp [Tree.bytes?, h, h']

/-- What is done when there is a log that can be undone. -/
lemma run_undo (hload : UndoLog.load who t folder = .ok (some log)) (hundo : log.canUndo = true) (store : TagStore) :
    run who folder t store =
      let p := steps who folder log.records { tree := t, store }
      if p.report.success then
        match UndoLog.remove who folder p.tree with
        | (.error e, t) => (.error e, t, p.store)
        | (.ok (), t) => (.ok p.report, t, p.store)
      else (.ok p.report, p.tree, p.store) := by
  unfold run
  rw [hload]
  exact if_neg (by simp [hundo])

/-- What is done when the log is in its place. -/
lemma run_eq (h : UndoLog.Reachable folder root) (hs : t.Sound) (hp : t.Plain)
    (hlog : t.node? (UndoLog.place root) = some (.file log.bytes a)) (hlegible : log.Legible) (hundo : log.canUndo = true)
    (store : TagStore) : run who folder t store =
      let p := steps who folder log.records { tree := t, store }
      if p.report.success then
        match UndoLog.remove who folder p.tree with
        | (.error e, t) => (.error e, t, p.store)
        | (.ok (), t) => (.ok p.report, t, p.store)
      else (.ok p.report, p.tree, p.store) := run_undo (h.load who hs hp hlog hlegible) hundo store

/-- What a log tells of is taken back, and then the log goes. -/
theorem run_back (hO : Rising O) (h : UndoLog.Reachable folder root) (hroot : t.isDirAt root = true)
    (hlock : t.isLocked root ≠ true) (hnolog : t.isDirAt (UndoLog.place root) ≠ true)
    (htell : UndoRecord.Tell who.cwd root t log.records t') (hapt : ∀ r ∈ log.records, Apt O who.cwd root folder r)
    (hs : t'.Sound) (hp : t'.Plain) (hlog : t'.node? (UndoLog.place root) = some (.file log.bytes a))
    (hlegible : log.Legible) (hundo : log.canUndo = true) :
    ∃ report v u store', run who folder t' store = (.ok report, u, store') ∧ report.errors = [] ∧
      Back O root t v ∧ v.Sets u (UndoLog.place root) none := by
  obtain ⟨hback, herrors⟩ := steps_back (p := { tree := t', store }) hO h.parts hroot hnolog htell hapt
    (.refl hs hp ⟨_, _, hlog⟩)
  obtain ⟨b, a', hkept⟩ := hback.log
  have hopen : (steps who folder log.records { tree := t', store }).tree.isLocked root ≠ true := fun hl =>
    hlock ((hback.agrees root UndoLog.ne_place).locked hl)
  obtain ⟨u, hrem, hsets⟩ := UndoLog.remove_gone who h hback.sound hback.plain hkept hopen
  refine ⟨(steps who folder log.records { tree := t', store }).report,
    (steps who folder log.records { tree := t', store }).tree, u,
    (steps who folder log.records { tree := t', store }).store, ?_, herrors, hback, hsets⟩
  have hok : (steps who folder log.records { tree := t', store }).report.success = true := by
    simp [RollbackReport.success, herrors]
  rw [run_eq h hs hp hlog hlegible hundo]
  dsimp only
  rw [if_pos hok, hrem]

end Rollback

end FileOrganizer
