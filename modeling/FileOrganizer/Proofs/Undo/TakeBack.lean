import FileOrganizer.Proofs.Tree.Return
import FileOrganizer.Proofs.Undo.Deeds

/-! Taking back one record: the rollback comes back to the tree from before it, and nothing goes wrong. -/

namespace FileOrganizer

open FileOrganizer.Tree FileOrganizer.Disk

/-- What a record tells of has been done. -/
inductive UndoRecord.Did (cwd : Place) : UndoRecord → Tree → Tree → Prop
  | made {source target : Path} {time : Instant} {x : Node} {t t' : Tree}
      (kind : x = .dir false ∨ (∃ b a, x = .file b a) ∧ target.endsInSlash ≠ true)
      (arrived : Arrived cwd target x ∅ t t') : Did cwd ⟨source, target, .copy, time⟩ t t'
  | moved {source target : Path} {time : Instant} {l : Place} {n : String} {b : ByteArray} {a : Attrs}
      {t t' : Tree} (absolute : source.isAbsolute = true) (descent : Descent source (l ++ [n]))
      (slash : source.endsInSlash ≠ true ∧ target.endsInSlash ≠ true) (unlocked : t.isLocked l ≠ true)
      (same : ∃ a', t.node? (l ++ [n]) = some (.file b a'))
      (arrived : Arrived cwd target (.file b a) {l ++ [n]} t t') : Did cwd ⟨source, target, .move, time⟩ t t'

namespace Rollback

variable {who : Actor} {stop target : Path} {O : Leeway} {root : Place} {t t' : Tree} {p : Progress}
  {r : UndoRecord} {x : Node} {gone : Set Place}

/-- What is asked of a record: the log is not in its way, the directories on its way may go, and outside of
the root they may be left, but none is left where a file has to go back to. -/
structure Apt (O : Leeway) (cwd root : Place) (stop : Path) (r : UndoRecord) : Prop where
  log : ¬UndoLog.place root <+: r.target.place cwd
  outside : r.target.startsWith stop = false → ∀ q, q <+: r.target.place cwd → q ≠ r.target.place cwd → q ∈ O.left
  emptied : ∀ q, q <+: r.target.place cwd → q ≠ r.target.place cwd → q ∈ O.lost
  source : r.mode = .move → r.source.place cwd ≠ UndoLog.place root ∧ r.source.place cwd ∉ O.left

lemma startsWith_of_parent {d : Path} (hstop : stop.isAbsolute = true) (h : target.parent? = some d)
    (hd : d.startsWith stop = true) : target.startsWith stop = true := by
  obtain ⟨habs, hbody⟩ := Path.parent?_body h
  rw [Path.startsWith, List.isPrefixOf_iff_prefix, Path.parts_of_absolute hstop] at hd ⊢
  have hda : d.isAbsolute = true := by
    rw [Path.isAbsolute_iff_head]
    obtain ⟨rest, hrest⟩ := hd
    rw [← hrest]
    rfl
  rw [Path.parts_of_absolute hda, hbody] at hd
  rw [Path.parts_of_absolute (habs ▸ hda)]
  exact hd.trans ((List.prefix_cons_inj _).2 (List.dropLast_prefix _))

/-- When the target has gone, the directories that became empty go as well, and the tree has come back. -/
lemma tidy_back (hO : Rising O) (hstop : stop.parts = .root :: root.map Part.name)
    (h : Arrived who.cwd target x gone t t')
    (houtside : target.startsWith stop = false → ∀ q, q <+: target.place who.cwd →
      q ≠ target.place who.cwd → q ∈ O.left)
    (hlost : ∀ q, q <+: target.place who.cwd → q ≠ target.place who.cwd → q ∈ O.lost) (hroot : t.isDirAt root = true)
    (hn : Nearly O root t p.tree (target.place who.cwd).dropLast)
    (hd : p.tree.isDirAt (target.place who.cwd).dropLast = true)
    (hk : p.tree.isLocked (target.place who.cwd).dropLast ≠ true) :
    Back O root t (tidy who stop p target).tree ∧ (tidy who stop p target).report = p.report := by
  have hstopa : stop.isAbsolute = true := by
    rw [Path.isAbsolute_iff_head, hstop]
    rfl
  cases hin : target.startsWith stop with
  | false =>
    have hback : Back O root t p.tree := by
      refine hn.back_of_mem fun q hq => houtside hin q (hq.trans (List.dropLast_prefix _)) ?_
      rintro rfl
      have hle := hq.length_le
      have hpos := List.length_pos_of_ne_nil h.target_ne_nil
      rw [List.length_dropLast] at hle
      omega
    unfold tidy
    split
    · exact ⟨hback, rfl⟩
    · next d hpar =>
      have hout : d.startsWith stop = false := by
        by_contra hc
        rw [startsWith_of_parent hstopa hpar (by simpa using hc)] at hin
        cases hin
      rw [pruneUpTo_outside hout]
      exact ⟨hback, rfl⟩
  | true =>
    obtain ⟨l, n, hdesc⟩ := h.descent
    have ha : target.isAbsolute = true := by
      rw [Path.startsWith, List.isPrefixOf_iff_prefix, hstop] at hin
      obtain ⟨rest, hrest⟩ := hin
      rw [Path.isAbsolute_iff_head, ← hrest]
      rfl
    have hplace : target.place who.cwd = l ++ [n] := by
      simpa [start_absolute ha] using hdesc.place who.cwd
    rw [Path.startsWith_iff (Path.parts_of_names ha hdesc.body) hstop] at hin
    have hfree := h.free
    rw [hplace] at hn hd hk hfree
    rw [List.dropLast_concat] at hn hd hk
    have hne : root ≠ l ++ [n] := by
      rintro rfl
      exact not_isDirAt_of_none hfree hroot
    obtain ⟨d, hpar, hda, hdd⟩ := hdesc.parent ha
    obtain ⟨u', hrun, hpruned⟩ := pruneUpTo_pruned who hn.sound hn.plain hstop hda hdd hd
    unfold tidy
    rw [hpar]
    dsimp only
    rw [hrun]
    refine ⟨hn.prune hO h.sound hroot (prefix_dropLast hin hne) (fun q hq => hlost q ?_ ?_) hd hk hpruned, rfl⟩
    · rw [hplace]
      exact hq.trans (List.prefix_append l [n])
    · rintro rfl
      have hlen := hq.length_le
      rw [hplace, List.length_append, List.length_singleton] at hlen
      omega

lemma Back.file_at {u : Tree} (hb : Back O root t' u) {q : Place} (hq : q ≠ UndoLog.place root) {b : ByteArray}
    {a : Attrs} (h : t'.node? q = some (.file b a)) : ∃ a', u.node? q = some (.file b a') := by
  rcases hb.agrees q hq with h' | ⟨h₁, h₂⟩ | ⟨h₁, -⟩ | ⟨h₁, -⟩
  · exact ⟨a, h'.trans h⟩
  · rw [h₁] at h
    cases h
    exact ⟨_, h₂⟩
  · simp [h] at h₁
  · simp [h] at h₁

lemma Back.none_at {u : Tree} (hb : Back O root t' u) {q : Place} (hq : q ≠ UndoLog.place root) (hO : q ∉ O.left)
    (h : t'.node? q = none) : u.node? q = none := by
  by_contra hu
  exact hO ((hb.agrees q hq).mem_of_none h hu)

lemma Back.unlocked {u : Tree} (hb : Back O root t' u) {q : Place} (hq : ¬UndoLog.place root <+: q)
    (h : t'.isLocked q.dropLast ≠ true) : u.isLocked q.dropLast ≠ true := by
  intro hl
  have hne : q.dropLast ≠ UndoLog.place root := by
    intro heq
    exact hq (heq ▸ List.dropLast_prefix q)
  exact h ((hb.agrees _ hne).locked hl)

/-- Where the path of a record leads to when something is there. -/
lemma stat_descent {u : Tree} (cwd : Place) (hs : u.Sound) (hp : u.Plain) {e : Entry}
    (h : ∃ l n, Descent target (l ++ [n])) (he : u.at? (target.place cwd) = some e)
    (hslash : target.endsInSlash = true → e.isDir = true) :
    (∃ d n, u.parentOf cwd target = .ok (d, .name n) ∧ target.place cwd = d ++ [n]) ∧
      u.stat cwd target = .ok (target.place cwd, e) := by
  obtain ⟨l, n, hdesc⟩ := h
  have hplace : target.place cwd = Tree.start cwd target ++ l ++ [n] := by simpa using hdesc.place cwd
  rw [hplace] at he ⊢
  have hsome : u.node? (Tree.start cwd target ++ l ++ [n]) ≠ none := by rw [node?_of_at? he]; simp
  have hpar := parentOf_descent cwd hs hp hdesc (hs _ n hsome)
  exact ⟨⟨_, _, hpar, rfl⟩, stat_of_parentOf hp hpar he hslash⟩

lemma Apt.ne_log {cwd : Place} (h : Apt O cwd root stop r) : UndoLog.place root ≠ r.target.place cwd :=
  fun heq => h.log (heq ▸ List.prefix_rfl)

lemma isDirAt_up {u : Tree} (hs : u.Sound) {q : Place} (h : u.node? q ≠ none) : u.isDirAt q.dropLast = true :=
  hs.isDirAt_dropLast h

/-- The way back to where a file stood can be laid. -/
lemma passable_back {u : Tree} {k : Place} {n : String} {b b' : ByteArray} {a a' : Attrs}
    (hnolog : t.isDirAt (UndoLog.place root) ≠ true)
    (h : Arrived who.cwd target (.file b a) {k ++ [n]} t t') (hb : Back O root t' u)
    (hsrc : t.node? (k ++ [n]) = some (.file b' a')) : Passable u k ∧ (t.isLocked k ≠ true → u.isLocked k ≠ true) := by
  have hdirs : ∀ m, m <+: k → t.isDirAt m = true := by
    rintro m ⟨r, rfl⟩
    exact h.sound.isDirAt_prefix (r ++ [n]) (by simp) (by rw [← List.append_assoc, hsrc]; simp)
  have hlog : ∀ m, m <+: k → m ≠ UndoLog.place root := by
    rintro m hm rfl
    exact hnolog (hdirs _ hm)
  have hagree : ∀ m, m <+: k → u.node? m = t.node? m ∨
      t.node? m = some (.dir false) ∧ u.node? m = none ∧ t'.isLocked m.dropLast ≠ true := by
    intro m hm
    have hkeep := h.keep_dir (hdirs m hm)
    obtain ⟨c, hc⟩ := isDirAt_iff.1 (hdirs m hm)
    rcases hb.agrees m (hlog m hm) with h' | ⟨h₁, -⟩ | ⟨h₁, h₂, h₃⟩ | ⟨h₁, -⟩
    · exact Or.inl (h'.trans hkeep)
    · simp [hkeep, hc] at h₁
    · exact Or.inr ⟨hkeep.symm.trans h₁, h₂, h₃⟩
    · simp [hkeep, hc] at h₁
  have hunlocked : ∀ m, m <+: k → t.isLocked m ≠ true → u.isLocked m ≠ true := by
    intro m hm hl
    rcases hagree m hm with hsame | ⟨-, hnone, -⟩
    · rwa [Ne, isLocked_iff, hsame, ← isLocked_iff]
    · simp [isLocked_iff, hnone]
  refine ⟨⟨fun m hm => ?_, fun m c hm hnone => ?_⟩, hunlocked k List.prefix_rfl⟩
  · rcases hagree m hm with hsame | ⟨-, hnone, -⟩
    · exact Or.inr ((isDirAt_congr hsame).trans (hdirs m hm))
    · exact Or.inl hnone
  · have hup : m <+: k := (List.prefix_append m [c]).trans hm
    refine hunlocked m hup fun hl => ?_
    rcases hagree (m ++ [c]) hm with hsame | ⟨-, -, hopen⟩
    · obtain ⟨e, he⟩ := isDirAt_iff.1 (hdirs _ hm)
      rw [hnone, he] at hsame
      cases hsame
    · rw [List.dropLast_concat] at hopen
      rw [isLocked_iff] at hl
      rw [Ne, isLocked_iff] at hopen
      exact hopen ((h.keep_dir (hdirs m hup)).trans hl)

section

variable {source : Path} {time : Instant} (hO : Rising O) (hstop : stop.parts = .root :: root.map Part.name)
  (hroot : t.isDirAt root = true)

include hO hstop hroot

/-- What came into being goes again: it is taken away, and then the directories on its way. -/
lemma taken_back {u u' : Tree} {k : TransferKind} (ha : Apt O who.cwd root stop ⟨source, target, k, time⟩)
    (h : Arrived who.cwd target x gone t t') (hb : Back O root t' u) (hr : Reverted who.cwd target gone t u u')
    (hu : u.node? (target.place who.cwd) ≠ none) {q : Progress} (hq : q.tree = u') :
    Back O root t (tidy who stop q target).tree ∧ (tidy who stop q target).report = q.report := by
  have hn := hr.nearly h hb ha.ne_log
  have hup := isDirAt_up hb.sound hu
  obtain ⟨k, hk⟩ := isDirAt_iff.1 hup
  have hne : (target.place who.cwd).dropLast ≠ target.place who.cwd := by
    intro heq
    have hpos := List.length_pos_of_ne_nil h.target_ne_nil
    have hlen := congrArg List.length heq
    rw [List.length_dropLast] at hlen
    omega
  have hkeep := hr.keep (by simp [hk]) hne
  refine tidy_back hO hstop h ha.outside ha.emptied hroot (hq ▸ hn) (hq ▸ ?_) (hq ▸ ?_)
  · rwa [isDirAt_congr hkeep]
  · rw [Ne, isLocked_iff, hkeep, ← isLocked_iff]
    exact hb.unlocked ha.log h.unlocked

/-- A file that was made is removed. -/
lemma dropCopy_back (ha : Apt O who.cwd root stop ⟨source, target, .copy, time⟩) {b : ByteArray} {a : Attrs}
    (h : Arrived who.cwd target (.file b a) ∅ t t') (hslash : target.endsInSlash ≠ true)
    (hb : Back O root t' p.tree) :
    Back O root t (step who stop p ⟨source, target, .copy, time⟩).tree ∧
      (step who stop p ⟨source, target, .copy, time⟩).report.errors = p.report.errors := by
  obtain ⟨a', hf⟩ := hb.file_at ha.ne_log.symm h.here
  obtain ⟨⟨d, n, hpar, hplace⟩, hstat⟩ := stat_descent who.cwd hb.sound hb.plain h.descent (at?_file.2 hf)
    fun hs => absurd hs hslash
  have hhas : p.tree.has who.cwd target = true := has_iff.2 ⟨_, _, hstat⟩
  have hdir : p.tree.isDir who.cwd target = false := by
    unfold Tree.isDir
    rw [hstat]
  have hlock : p.tree.isLocked d ≠ true := by
    have hopen := hb.unlocked ha.log h.unlocked
    rwa [hplace, List.dropLast_concat] at hopen
  obtain ⟨u', hrem, hsets⟩ := removeFile_eq_ok hpar hslash (hplace ▸ hf) (by simp) hlock
  have hr : Reverted who.cwd target ∅ t p.tree u' := by
    refine ⟨sound_of_removeFile hb.sound hrem, hsets.plain hb.plain (by simp), hplace ▸ hsets.same,
      fun m => hb.sound.node?_below [m] (by simp) (not_isDirAt_of_file hf), by simp, fun q hq _ => Or.inl ?_⟩
    exact hsets.other (hplace ▸ Ne.symm hq)
  have hstep : step who stop p ⟨source, target, .copy, time⟩ =
      tidy who stop { p with tree := u', report.copies := p.report.copies + 1 } target := by
    unfold step dropCopy
    simp [hhas, hdir, hrem]
  rw [hstep]
  obtain ⟨hback, hreport⟩ := @taken_back who stop target O root t t' _ ∅ source time hO hstop hroot _ _ _ ha h hb hr
    (by simp [hf]) { p with tree := u', report.copies := p.report.copies + 1 } rfl
  exact ⟨hback, by rw [hreport]⟩

omit hO in
/-- Inside of the root, a directory on the way to the target is below the root if it was not there. -/
lemma inside_of_none {l : Place} {n : String} (hin : target.startsWith stop = true)
    (hdesc : Descent target (l ++ [n])) (hs : t.Sound) {q : Place} (hq : q <+: target.place who.cwd)
    (ht : t.node? q = none) : root <+: q ∧ root ≠ q := by
  have ha : target.isAbsolute = true := by
    rw [Path.startsWith, List.isPrefixOf_iff_prefix, hstop] at hin
    obtain ⟨rest, hrest⟩ := hin
    rw [Path.isAbsolute_iff_head, ← hrest]
    rfl
  have hplace : target.place who.cwd = l ++ [n] := by
    simpa [start_absolute ha] using hdesc.place who.cwd
  rw [Path.startsWith_iff (Path.parts_of_names ha hdesc.body) hstop, ← hplace] at hin
  refine ⟨?_, fun heq => not_isDirAt_of_none (heq ▸ ht) hroot⟩
  rcases comparable hin hq with hpre | hpre
  · exact hpre
  · exact absurd hroot (not_isDirAt_of_none (node?_none_below hs hpre ht))

/-- What is still there above a directory that has gone is there because directories were left below. -/
lemma mem_of_gone {u : Tree} (ha : Apt O who.cwd root stop ⟨source, target, .copy, time⟩)
    (h : Arrived who.cwd target x ∅ t t') (hb : Back O root t' u) (hu : u.node? (target.place who.cwd) = none)
    {q : Place} (hq : q <+: target.place who.cwd) (ht : t.node? q = none) (hqu : u.node? q ≠ none) : q ∈ O.left := by
  have hne : q ≠ target.place who.cwd := by
    rintro rfl
    exact hqu hu
  have hlog : q ≠ UndoLog.place root := by
    rintro rfl
    exact ha.log hq
  cases hin : target.startsWith stop with
  | false => exact ha.outside hin q hq hne
  | true =>
    obtain ⟨l, n, hdesc⟩ := h.descent
    obtain ⟨hrootq, hrootne⟩ := inside_of_none hstop hroot hin hdesc h.sound hq ht
    -- The induction goes up from the target: what is not empty has something left below it.
    generalize hk : (target.place who.cwd).length - q.length = k
    induction k using Nat.strong_induction_on generalizing q with
    | _ k ih =>
      rcases h.laid q hne (Set.notMem_empty q) with hsame | ⟨-, -, hnew, hlock⟩
      · exact (hb.agrees q hlog).mem_of_none (hsame.trans ht) hqu
      · have hd : u.isDirAt q = true := by
          rcases hb.agrees q hlog with h' | ⟨h₁, -⟩ | ⟨-, h₂, -⟩ | ⟨h₁, -⟩
          · exact isDirAt_iff.2 ⟨false, h'.trans hnew⟩
          · simp [hnew] at h₁
          · exact absurd h₂ hqu
          · simp [hnew] at h₁
        by_contra hqO
        obtain ⟨r, hr, hqr⟩ := append_of_prefix_of_not hq hne
        obtain ⟨c, r, rfl⟩ := List.exists_cons_of_ne_nil hr
        have hchild : t'.node? (q ++ [c]) ≠ none := by
          intro hnone
          have hbelow : q ++ [c] <+: target.place who.cwd := ⟨r, by simp [hqr]⟩
          have htarget := node?_none_below h.sound' hbelow hnone
          simp [h.here] at htarget
        have hopen := open_of_laid h hb hq hlock hd
        obtain ⟨m, hm⟩ : ∃ m, u.node? (q ++ [m]) ≠ none := by
          by_contra hempty
          push Not at hempty
          exact hchild (hb.bare q hrootq hrootne hqO hd hopen hempty c)
        have hm0 : t.node? (q ++ [m]) = none := h.sound.node?_below [m] (by simp) (not_isDirAt_of_none ht)
        have hmlog : q ++ [m] ≠ UndoLog.place root := by
          intro heq
          exact hrootne (List.append_inj' heq rfl).1.symm
        refine hqO (hO q m ?_)
        by_cases hmp : q ++ [m] <+: target.place who.cwd
        · have hmne : q ++ [m] ≠ target.place who.cwd := fun heq => hm (heq ▸ hu)
          have hmin := inside_of_none hstop hroot hin hdesc h.sound hmp hm0
          have hlen := hmp.length_le
          rw [List.length_append, List.length_singleton] at hlen
          refine ih _ ?_ hmp hm0 hm hmne hmlog hmin.1 hmin.2 rfl
          rw [← hk, List.length_append, List.length_singleton]
          omega
        · have hmne : q ++ [m] ≠ target.place who.cwd := fun heq => hmp (heq ▸ List.prefix_rfl)
          rcases h.laid _ hmne (Set.notMem_empty _) with hsame | ⟨hpre, -⟩
          · exact (hb.agrees _ hmlog).mem_of_none (hsame.trans hm0) hm
          · exact absurd hpre hmp

/-- A directory that was made is removed, unless it is gone already or something was left in it. -/
lemma dropDir_back (ha : Apt O who.cwd root stop ⟨source, target, .copy, time⟩)
    (h : Arrived who.cwd target (.dir false) ∅ t t') (hb : Back O root t' p.tree) :
    Back O root t (step who stop p ⟨source, target, .copy, time⟩).tree ∧
      (step who stop p ⟨source, target, .copy, time⟩).report.errors = p.report.errors := by
  have hcase : p.tree.node? (target.place who.cwd) = none ∨
      p.tree.node? (target.place who.cwd) = some (.dir false) := by
    rcases hb.agrees _ ha.ne_log.symm with h' | ⟨h₁, -⟩ | ⟨-, h₂, -⟩ | ⟨-, h₂, -⟩
    · exact Or.inr (h'.trans h.here)
    · simp [h.here] at h₁
    · exact Or.inl h₂
    · exact Or.inr h₂
  rcases hcase with hnone | hdir
  · have hhas : p.tree.has who.cwd target = false := has_eq_false hb.sound hb.plain hnone
    have hstep : step who stop p ⟨source, target, .copy, time⟩ =
        { p with report.missing := p.report.missing + 1 } := by
      unfold step
      simp [hhas]
    rw [hstep]
    exact ⟨hb.stays h fun q hq ht hqu => mem_of_gone hO hstop hroot ha h hb hnone hq ht hqu, rfl⟩
  · obtain ⟨a, hat⟩ := at?_of_isDirAt (isDirAt_iff.2 ⟨false, hdir⟩)
    obtain ⟨⟨d, n, hpar, hplace⟩, hstat⟩ := stat_descent who.cwd hb.sound hb.plain h.descent hat fun _ => rfl
    have hhas : p.tree.has who.cwd target = true := has_iff.2 ⟨_, _, hstat⟩
    have hisdir : p.tree.isDir who.cwd target = true := isDir_iff.2 ⟨_, _, hstat⟩
    have hopen : p.tree.isLocked d ≠ true := by
      have hopen := hb.unlocked ha.log h.unlocked
      rwa [hplace, List.dropLast_concat] at hopen
    rcases removeDir_cases who hpar (hplace ▸ at?_dir hat) with
      ⟨u', hrem, -, hempty, hsets⟩ | ⟨⟨e, hrem⟩, hlock | ⟨m, hm⟩⟩
    · have hr : Reverted who.cwd target ∅ t p.tree u' := by
        refine ⟨sound_of_removeDir hb.sound hrem, hsets.plain hb.plain (by simp), hplace ▸ hsets.same,
          hplace ▸ hempty, by simp, fun q hq _ => Or.inl ?_⟩
        exact hsets.other (hplace ▸ Ne.symm hq)
      have hstep : step who stop p ⟨source, target, .copy, time⟩ =
          tidy who stop { p with tree := u', report.copies := p.report.copies + 1 } target := by
        unfold step dropDir
        simp [hhas, hisdir, hrem]
      rw [hstep]
      obtain ⟨hback, hreport⟩ := @taken_back who stop target O root t t' _ ∅ source time hO hstop hroot _ _ _ ha h
        hb hr (by simp [hdir]) { p with tree := u', report.copies := p.report.copies + 1 } rfl
      exact ⟨hback, by rw [hreport]⟩
    · exact absurd hlock hopen
    · have hstep : step who stop p ⟨source, target, .copy, time⟩ =
          { p with report.kept := p.report.kept + 1 } := by
        unfold step dropDir
        simp [hhas, hisdir, hrem]
      rw [hstep]
      rw [← hplace] at hm
      -- What was put in and is still there is a directory that may be left, and so is what is above it.
      have hmem : target.place who.cwd ++ [m] ∈ O.left := by
        have hm0 : t.node? (target.place who.cwd ++ [m]) = none :=
          h.sound.node?_below [m] (by simp) (not_isDirAt_of_none h.free)
        have hmlog : target.place who.cwd ++ [m] ≠ UndoLog.place root := by
          intro heq
          obtain ⟨heq, -⟩ := List.append_inj' heq rfl
          exact not_isDirAt_of_none (heq ▸ h.free) hroot
        rcases h.laid (target.place who.cwd ++ [m]) (by simp) (Set.notMem_empty _) with hsame | ⟨hlong, -⟩
        · exact (hb.agrees _ hmlog).mem_of_none (hsame.trans hm0) hm
        · have hlen := hlong.length_le
          rw [List.length_append, List.length_singleton] at hlen
          omega
      exact ⟨hb.stays h fun q hq _ _ => hO.of_prefix hq (hO _ m hmem), rfl⟩

/-- A file that was moved goes back. -/
lemma goBack_back {k : Place} {n : String} {b : ByteArray} {a a' : Attrs}
    (hnolog : t.isDirAt (UndoLog.place root) ≠ true)
    (ha : Apt O who.cwd root stop ⟨source, target, .move, time⟩)
    (habs : source.isAbsolute = true) (hdesc : Descent source (k ++ [n]))
    (hslash : source.endsInSlash ≠ true ∧ target.endsInSlash ≠ true) (hlock : t.isLocked k ≠ true)
    (hsrc : t.node? (k ++ [n]) = some (.file b a'))
    (h : Arrived who.cwd target (.file b a) {k ++ [n]} t t') (hb : Back O root t' p.tree) :
    Back O root t (step who stop p ⟨source, target, .move, time⟩).tree ∧
      (step who stop p ⟨source, target, .move, time⟩).report.errors = p.report.errors := by
  have hplace : source.place who.cwd = k ++ [n] := by
    simpa [start_absolute habs] using hdesc.place who.cwd
  obtain ⟨hsrclog, hsrcO⟩ := ha.source rfl
  rw [hplace] at hsrclog hsrcO
  obtain ⟨a₁, hf⟩ := hb.file_at ha.ne_log.symm h.here
  have hfree : p.tree.node? (k ++ [n]) = none := hb.none_at hsrclog hsrcO (h.files _ rfl).2
  obtain ⟨-, hstat⟩ := stat_descent who.cwd hb.sound hb.plain h.descent (at?_file.2 hf) fun hs => absurd hs hslash.2
  have hhas : p.tree.has who.cwd target = true := has_iff.2 ⟨_, _, hstat⟩
  have hhas' : p.tree.has who.cwd source = false := has_eq_false hb.sound hb.plain (hplace ▸ hfree)
  obtain ⟨hpass, hopen⟩ := passable_back hnolog h hb hsrc
  obtain ⟨kt, nt, hdesct⟩ := h.descent
  obtain ⟨u', hmove, hs', hp', hback, hgone, hdir, hother⟩ := moveFile_succeeds who hb.sound hb.plain hdesct
    hslash.2 hf (hb.unlocked ha.log h.unlocked) habs hdesc hslash.1 hpass (hopen hlock) hfree
  have hr : Reverted who.cwd target {k ++ [n]} t p.tree u' := by
    refine ⟨hs', hp', hgone, fun m => hb.sound.node?_below [m] (by simp) (not_isDirAt_of_file hf), ?_, ?_⟩
    · rintro q rfl
      exact ⟨hfree, b, a', a₁, hsrc, hback⟩
    · intro q hq hq'
      rcases hother q hq hq' with hsame | ⟨hpre, hnone, hnew⟩
      · exact Or.inl hsame
      · obtain ⟨r, rfl⟩ := hpre
        obtain ⟨m, s, hms⟩ := List.exists_cons_of_ne_nil (l := r ++ [n]) (by simp)
        refine Or.inr ⟨hnone, hnew, h.sound.isDirAt_prefix (r ++ [n]) (by simp) ?_, m, ?_⟩
        · rw [← List.append_assoc, hsrc]
          simp
        · intro hnone'
          have hbelow : q ++ [m] <+: q ++ r ++ [n] := ⟨s, by simp [hms]⟩
          rw [node?_none_below hs' hbelow hnone'] at hback
          cases hback
  have hstep : step who stop p ⟨source, target, .move, time⟩ =
      tidy who stop
        { tree := u', store := p.store.rename (who.key target) (who.key source),
          report := { p.report with restored := p.report.restored + 1 } } target := by
    unfold step goBack
    simp [hhas, hhas', hmove]
  rw [hstep]
  obtain ⟨hres, hreport⟩ := @taken_back who stop target O root t t' _ _ source time hO hstop hroot _ _ _ ha h hb hr
    (by simp [hf])
    { tree := u', store := p.store.rename (who.key target) (who.key source),
      report := { p.report with restored := p.report.restored + 1 } } rfl
  exact ⟨hres, by rw [hreport]⟩

/-- What was done last is taken back. -/
theorem step_back (hnolog : t.isDirAt (UndoLog.place root) ≠ true) (hd : r.Did who.cwd t t')
    (ha : Apt O who.cwd root stop r) (hb : Back O root t' p.tree) :
    Back O root t (step who stop p r).tree ∧ (step who stop p r).report.errors = p.report.errors := by
  cases hd with
  | made kind arrived =>
    rcases kind with rfl | ⟨⟨b, a, rfl⟩, hslash⟩
    · exact dropDir_back hO hstop hroot ha arrived hb
    · exact dropCopy_back hO hstop hroot ha arrived hslash hb
  | moved absolute descent slash unlocked same arrived =>
    obtain ⟨a', hsame⟩ := same
    exact goBack_back hO hstop hroot hnolog ha absolute descent slash unlocked hsame arrived hb

end

end Rollback

end FileOrganizer
