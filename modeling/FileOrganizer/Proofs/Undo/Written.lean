import FileOrganizer.Proofs.Tree.Spared
import FileOrganizer.Proofs.Undo.Rollback

/-! The log of a session is written with every record, and nothing else is. -/

namespace FileOrganizer

open FileOrganizer.Tree FileOrganizer.Disk

variable {who : Actor} {host : Host} {root : Place} {folder : Path} {t t' : Tree} {l : UndoLog}
  {session : OpenSession} {r : UndoRecord}

namespace Tree

variable {cwd here : Place} {p : Path} {ns : List String}

/-- Dots aside, a walk along directories arrives. -/
lemma walk_level (hs : t.Sound) (hl : ∀ n ∈ ns, n ≠ "." → Lookable n)
    (hd : t.isDirAt (here ++ ns.filter (· ≠ ".")) = true) :
    walk t true here ns = .arrived ⟨here ++ ns.filter (· ≠ "."), t.at? (here ++ ns.filter (· ≠ "."))⟩ := by
  induction ns generalizing here with
  | nil => simp [walk_nil]
  | cons n ns ih =>
    have hrest : ∀ m ∈ ns, m ≠ "." → Lookable m := fun m hm => hl m (List.mem_cons_of_mem n hm)
    by_cases hdot : n = "."
    · subst hdot
      rw [walk_dot]
      simpa using ih hrest (by simpa using hd)
    · obtain ⟨h1, h2, h3⟩ := hl n List.mem_cons_self hdot
      rw [List.filter_cons_of_pos (by simpa using hdot)] at hd ⊢
      have hdir : t.isDirAt (here ++ [n]) = true := by
        rw [List.append_cons] at hd
        exact hs.isDirAt_of_below hd
      obtain ⟨a, ha⟩ := at?_of_isDirAt hdir
      rw [walk_name h1 h2 h3, ha]
      dsimp only
      rw [ih hrest (by simpa using hd)]
      simp

lemma isDir_level (hs : t.Sound) (hp : t.Plain) (hbody : p.body = ns.map Part.name)
    (hshort : ∀ n ∈ ns, n.utf8ByteSize ≤ maxName) (htaken : refused p = none)
    (hd : t.isDirAt (start cwd p ++ ns) = true) : t.isDir cwd p = true := by
  have hfilter : (steps p.chars).filter (· ≠ ".") = ns := by
    rw [filter_steps]
    exact Path.filter_segments hbody
  have hlook : ∀ n ∈ steps p.chars, n ≠ "." → Lookable n := by
    intro n hn hdot
    have hmem : n ∈ ns := by
      rw [← hfilter]
      exact List.mem_filter.2 ⟨hn, by simpa using hdot⟩
    have hprop : Proper n := Path.ordinary_of_mem_body (c := .name n) (by rw [hbody]; exact List.mem_map_of_mem hmem)
    exact ⟨hprop.2.1, hprop.2.2.1, hshort n hmem⟩
  obtain ⟨a, ha⟩ := at?_of_isDirAt hd
  rw [isDir_iff]
  refine ⟨start cwd p ++ ns, a, stat_eq_ok.2 ((locate_eq_ok hp).2 ⟨htaken, hs.isDirAt_of_below hd, ?_⟩)⟩
  rw [walk_level hs hlook (hfilter.symm ▸ hd), hfilter, ha]

end Tree

namespace Disk

/-- A directory that is there need not be made. -/
lemma makeDirs_there (hs : t.Sound) (hp : t.Plain) {p : Path} (htext : p.text ≠ "")
    (h : t.isDir who.cwd p = true) : makeDirs who p t = (.ok (), t) := by
  obtain ⟨l, a, hst⟩ := isDir_iff.1 h
  obtain ⟨x, hx⟩ := parentOf_of_has (has_iff.2 ⟨_, _, hst⟩)
  have hmake : Tree.makeDir who p t = .error .occupied := by
    obtain ⟨d, s⟩ := x
    cases s with
    | name n =>
      have hplace := (stat_place hp hst).trans (parentOf_place hp hx)
      refine makeDir_occupied hx ?_
      rw [← hplace, node?_of_at? (stat_ok hs hst).1]
      simp
    | _ =>
      unfold Tree.makeDir
      rw [hx]
  exact makeDirsFrom_there htext hmake h

end Disk

namespace UndoLog

/-- The log can be written: no other thing is in its place, and neither the log nor its directory is
protected. -/
structure Writable (root : Place) (t : Tree) : Prop where
  dir : t.isDirAt root = true
  unlocked : t.isLocked root ≠ true
  free : t.node? (place root) = none ∨ ∃ b a, t.node? (place root) = some (.file b a) ∧ a.readOnly = false

lemma Writable.of_node? (h : Writable root t) (hroot : t'.node? root = t.node? root)
    (hlog : t'.node? (place root) = t.node? (place root)) : Writable root t' where
  dir := by rw [isDirAt_congr hroot, h.dir]
  unlocked := by rw [Ne, isLocked_iff, hroot, ← isLocked_iff]; exact h.unlocked
  free := by rw [hlog]; exact h.free

lemma Writable.not_isDirAt (h : Writable root t) : t.isDirAt (place root) ≠ true := by
  rcases h.free with hnone | ⟨b, a, hfile, -⟩
  · exact not_isDirAt_of_none hnone
  · exact not_isDirAt_of_file hfile

namespace Reachable

variable (h : Reachable folder root)

include h

lemma isDir (hs : t.Sound) (hp : t.Plain) (hroot : t.isDirAt root = true) (cwd : Place) :
    t.isDir cwd folder = true := by
  have htext := text_of_absolute h.isAbsolute
  have htaken : refused folder = none := by
    refine refused_of_prefix h.taken ?_ htext
    rw [file, Path.child, Path.chars_join htext (Path.pieces_of_proper proper_fileName).2.1]
    split <;> exact List.prefix_append _ _
  refine isDir_level hs hp h.body h.short htaken ?_
  rwa [start_absolute h.isAbsolute]

lemma parentOf (hs : t.Sound) (hp : t.Plain) (hroot : t.isDirAt root = true) (cwd : Place) :
    t.parentOf cwd (file folder) = .ok (root, .name fileName) := by
  have hup : t.isDirAt (start cwd (file folder) ++ root) = true := by
    rwa [start_absolute h.file_absolute]
  simpa [start_absolute h.file_absolute] using parentOf_descent cwd hs hp h.descent hup

lemma locate (hs : t.Sound) (hp : t.Plain) (hroot : t.isDirAt root = true) (cwd : Place) :
    t.locate cwd true (file folder) = .ok ⟨UndoLog.place root, t.at? (UndoLog.place root)⟩ :=
  locate_of_parentOf (h.parentOf hs hp hroot cwd) endsInSlash_file fun _ x => hp _ x

/-- Where it can be written, the log is written, and nothing else is. -/
lemma save (who : Actor) (hl : l.folder = folder) (hs : t.Sound) (hp : t.Plain) (hw : Writable root t) :
    ∃ a t', l.save who t = (.ok (), t') ∧ a.readOnly = false ∧ t.Sets t' (UndoLog.place root) (some (.file l.bytes a)) := by
  have hdirs := makeDirs_there hs hp (text_of_absolute h.isAbsolute) (h.isDir hs hp hw.dir who.cwd)
  have hloc := h.locate hs hp hw.dir who.cwd
  have hne : UndoLog.place root ≠ [] := by simp [UndoLog.place]
  have hsave : ∀ t', Tree.writeFile who (file folder) l.bytes t = .ok t' → l.save who t = (.ok (), t') := by
    intro t' hwrite
    unfold UndoLog.save
    rw [run_bind, hl, hdirs]
    dsimp only [Disk.change]
    rw [show l.toJson.pretty.toUTF8 = l.bytes from rfl, hwrite]
  rcases hw.free with hnone | ⟨b, a, hfile, hro⟩
  · refine ⟨⟨who.now, false⟩, (t.put (UndoLog.place root) (.file l.bytes ⟨who.now, false⟩)).touch (UndoLog.place root).dropLast who.now,
      hsave _ ?_, rfl, sets_put hne⟩
    have hlock : t.isLocked (UndoLog.place root).dropLast ≠ true := by
      rw [UndoLog.place, List.dropLast_concat]
      exact hw.unlocked
    unfold Tree.writeFile
    rw [if_neg endsInSlash_file, hloc, at?_eq_none.2 hnone]
    dsimp only
    rw [addFile, if_neg hlock]
  · refine ⟨{ a with mtime := who.now }, t.put (UndoLog.place root) (.file l.bytes { a with mtime := who.now }), hsave _ ?_,
      hro, fun q => ?_⟩
    · unfold Tree.writeFile
      rw [if_neg endsInSlash_file, hloc, at?_file.2 hfile]
      dsimp only
      rw [if_neg (by simp [hro])]
    · rw [node?_put hne]
      rfl

end Reachable

end UndoLog

end FileOrganizer
