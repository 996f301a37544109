import FileOrganizer.Proofs.Undo.Bystanders

/-! A directory can be spelled in several ways. A rollback does not depend on the spelling, as long as no
directory is cleared away that is inside of the one spelling and not of the other. -/

namespace FileOrganizer

open FileOrganizer.Tree FileOrganizer.Disk

variable {who : Actor} {cwd root l : Place} {t t' : Tree} {f g folder d target : Path} {store : TagStore}

namespace UndoLog

/-- From the current directory the path leads to the directory `root`, and to the log in it. -/
structure Leads (cwd : Place) (folder : Path) (root : Place) (t : Tree) : Prop where
  here : ∃ a, t.stat cwd folder = .ok (root, .dir a)
  taken : refused (file folder) = none
  noLink : ∀ x, t.node? (place root) ≠ some (.link x)

namespace Leads

variable (h : Leads cwd folder root t)

include h

lemma parentOf : t.parentOf cwd (file folder) = .ok (root, .name fileName) := by
  obtain ⟨a, hstat⟩ := h.here
  have hstart : start cwd (file folder) = start cwd folder := by
    unfold start
    rw [file, Path.isAbsolute_child proper_fileName]
  have hway : t.resolve true (start cwd folder) (segments folder.chars ++ ["."]) = .ok ⟨root, some (.dir a)⟩ := by
    obtain ⟨hd, hway⟩ := way_of_stat hstat
    rw [resolve, if_pos hd, hway]
  unfold Tree.parentOf
  rw [h.taken]
  dsimp only
  rw [hstart, file, segments_child proper_fileName, List.getLast?_concat, List.dropLast_concat, hway]
  dsimp only
  rw [if_neg (by decide), if_neg (by decide), if_neg (by decide)]

lemma locate : t.locate cwd true (file folder) = .ok ⟨place root, t.at? (place root)⟩ :=
  locate_of_parentOf h.parentOf endsInSlash_file fun _ => h.noLink

end Leads

/-- A path without `..` leads to its directory as long as the log is there, if no link is on the way. -/
lemma leads_of_plain (hp : t.Plain) (hup : Part.up ∉ folder.parts) (h : Leads cwd folder root t)
    (hs' : t'.Sound) (hp' : t'.Plain) (hlog : t'.node? (place root) ≠ none) : Leads cwd folder root t' := by
  obtain ⟨a, hstat⟩ := h.here
  obtain ⟨ns, hbody⟩ := Path.body_of_level hup
  obtain ⟨hrefused, -, hwalk⟩ := (locate_eq_ok hp).1 (stat_eq_ok.1 hstat)
  have hroot : root = start cwd folder ++ ns := (stat_place hp hstat).trans (Path.place_of_body hbody)
  have hshort : ∀ n ∈ ns, n.utf8ByteSize ≤ maxName := by
    intro n hn
    have hbelow : Part.name n ∈ folder.body := hbody ▸ List.mem_map_of_mem hn
    have hproper : Proper n := Path.ordinary_of_mem_body hbelow
    have hmem : n ∈ segments folder.chars := by
      have hnames : (segments folder.chars).filter (· ≠ ".") = ns := Path.filter_segments hbody
      exact List.mem_of_mem_filter (hnames ▸ hn)
    refine (walk_place hp hwalk).2 n ?_ hproper.2.1 hproper.2.2.1
    unfold steps
    split
    · exact List.mem_append_left _ hmem
    · exact hmem
  have hdir : t'.isDirAt (start cwd folder ++ ns) = true := by
    have hup : (place root).dropLast = root := List.dropLast_concat
    rw [← hroot, ← hup]
    exact hs'.isDirAt_dropLast hlog
  obtain ⟨l, a', hstat'⟩ := isDir_iff.1 (isDir_level hs' hp' hbody hshort hrefused hdir)
  have hl : l = root := (stat_place hp' hstat').trans (stat_place hp hstat).symm
  exact ⟨⟨a', hl ▸ hstat'⟩, h.taken, fun x => hp' _ x⟩

lemma load_congr (hf : Leads who.cwd f root t) (hg : Leads who.cwd g root t) : load who t f = load who t g := by
  have hstat : t.stat who.cwd (file f) = t.stat who.cwd (file g) := by
    unfold Tree.stat
    rw [hf.locate, hg.locate]
  unfold load Tree.has Tree.readText Tree.read
  rw [hstat]

lemma remove_congr (hf : Leads who.cwd f root t) (hg : Leads who.cwd g root t) :
    remove who f t = remove who g t := by
  have hhas : t.has who.cwd (file f) = t.has who.cwd (file g) := by
    unfold Tree.has Tree.stat
    rw [hf.locate, hg.locate]
  have hrem : Tree.removeFile who (file f) t = Tree.removeFile who (file g) t := by
    unfold Tree.removeFile
    rw [hf.parentOf, hg.parentOf, Bool.eq_false_iff.2 endsInSlash_file, Bool.eq_false_iff.2 endsInSlash_file]
  unfold remove
  rw [run_bind, run_bind, run_get]
  dsimp only
  rw [hhas]
  split
  · simp only [Disk.change, hrem]
  · rfl

end UndoLog

namespace Rollback

variable {records : List UndoRecord} {p : Progress} {r : UndoRecord}

/-- What is done for a record itself, and whether a place was left by it, so that directories may be cleared
away. -/
def takeBack (who : Actor) (p : Progress) (r : UndoRecord) : Progress × Bool :=
  if !p.tree.has who.cwd r.target then ({ p with report.missing := p.report.missing + 1 }, false)
  else match r.mode with
    | .move =>
      if p.tree.has who.cwd r.source then (wrong p s!"原位置已被占用: {r.source}", false)
      else match Disk.moveFile who r.target r.source p.tree with
        | (.error e, t) => (wrong { p with tree := t } s!"回滚 {r.target} 失败: {e.message}", false)
        | (.ok (), t) => (⟨t, p.store.rename (who.key r.target) (who.key r.source),
            { p.report with restored := p.report.restored + 1 }⟩, true)
    | .copy =>
      if p.tree.isDir who.cwd r.target then
        match Tree.removeDir who r.target p.tree with
        | .error _ => ({ p with report.kept := p.report.kept + 1 }, false)
        | .ok t => ({ p with tree := t, report.copies := p.report.copies + 1 }, true)
      else match Tree.removeFile who r.target p.tree with
        | .error e => (wrong p s!"删除副本 {r.target} 失败: {e.message}", false)
        | .ok t => ({ p with tree := t, report.copies := p.report.copies + 1 }, true)

lemma step_eq (who : Actor) (folder : Path) (p : Progress) (r : UndoRecord) :
    step who folder p r = if (takeBack who p r).2 then tidy who folder (takeBack who p r).1 r.target
      else (takeBack who p r).1 := by
  unfold step takeBack
  split
  · rfl
  · cases r.mode with
    | move =>
      dsimp only
      unfold goBack
      split
      · rfl
      · rcases moveFile who r.target r.source p.tree with ⟨e | a, t⟩ <;> rfl
    | copy =>
      dsimp only
      split
      · unfold dropDir
        cases Tree.removeDir who r.target p.tree <;> rfl
      · unfold dropCopy
        cases Tree.removeFile who r.target p.tree <;> rfl

/-- The directory around a target is cleared away up to the one directory just as up to the other: they are spelled
alike, or it is inside of neither, or it cannot be removed. -/
def Settled (who : Actor) (f g : Path) (t : Tree) (target : Path) : Prop :=
  ∀ d, target.parent? = some d → f.parts = g.parts ∨
    ((d.same f = true ∨ d.startsWith f = false) ∧ (d.same g = true ∨ d.startsWith g = false)) ∨
    ∃ e, Tree.removeDir who d t = .error e

lemma prune_congr (who : Actor) (h : f.parts = g.parts) (fuel : Nat) (d : Path) (t : Tree) :
    prune who f fuel d t = prune who g fuel d t := by
  induction fuel generalizing d t with
  | zero => rfl
  | succ fuel ih =>
    have hsame : d.same f = d.same g := by rw [Path.same, Path.same, h]
    have hstarts : d.startsWith f = d.startsWith g := by rw [Path.startsWith, Path.startsWith, h]
    unfold prune
    rw [hsame, hstarts]
    split
    · rfl
    · split
      · rfl
      · split
        · rfl
        · exact ih _ _

lemma tidy_congr (h : Settled who f g p.tree target) : tidy who f p target = tidy who g p target := by
  unfold tidy
  cases hd : target.parent? with
  | none => rfl
  | some d =>
    dsimp only [pruneUpTo]
    rcases h d hd with hparts | ⟨hf, hg⟩ | ⟨e, he⟩
    · rw [prune_congr who hparts]
    · rw [prune_outside hf, prune_outside hg]
    · rw [prune_stuck he, prune_stuck he]

/-- So it is at every record, when its turn comes. -/
def SettledAlong (who : Actor) (f g : Path) (records : List UndoRecord) (p : Progress) : Prop :=
  ∀ m ms, m :: ms <:+ records → (takeBack who (steps who g ms p) m).2 = true →
    Settled who f g (takeBack who (steps who g ms p) m).1.tree m.target

lemma step_congr (h : (takeBack who p r).2 = true → Settled who f g (takeBack who p r).1.tree r.target) :
    step who f p r = step who g p r := by
  rw [step_eq, step_eq]
  split
  · next htaken => rw [tidy_congr (h htaken)]
  · rfl

lemma steps_congr (h : SettledAlong who f g records p) : steps who f records p = steps who g records p := by
  induction records with
  | nil => rfl
  | cons m ms ih =>
    have hrest := ih fun m' ms' hsuffix => h m' ms' (hsuffix.trans (List.suffix_cons m ms))
    rw [steps_cons, steps_cons, hrest]
    exact step_congr (h m ms (List.suffix_refl _))

/-- A path without `..` still leads to its directory when the records are taken back, if none of them leads to the log and
no link is on the way. -/
lemma leads_steps (stop : Path) (hs : t.Sound) (hp : t.Plain) (hup : Part.up ∉ folder.parts)
    (h : UndoLog.Leads who.cwd folder root t) {b : ByteArray} (hlog : t.bytes? (UndoLog.place root) = some b)
    (hlead : ∀ m ∈ records, m.target.place who.cwd ≠ UndoLog.place root ∧
      (m.mode = .move → ¬m.target.place who.cwd <+: UndoLog.place root)) :
    UndoLog.Leads who.cwd folder root (steps who stop records { tree := t, store }).tree := by
  obtain ⟨hs', hp', hkept⟩ := steps_plain (p := { tree := t, store }) hs hp hlog hlead
  refine UndoLog.leads_of_plain hp hup h hs' hp' ?_
  obtain ⟨a, ha⟩ := bytes?_eq_some.1 hkept
  simp [ha]

/-- Two spellings of a directory make no difference to a rollback, neither to the tree and the tag store nor to what
is reported, if what is cleared away is the same and both still lead to the directory in the end. -/
theorem run_spelling (hf : UndoLog.Leads who.cwd f root t) (hg : UndoLog.Leads who.cwd g root t)
    (hsettled : ∀ log, UndoLog.load who t g = .ok (some log) → SettledAlong who f g log.records { tree := t, store })
    (hend : ∀ log, UndoLog.load who t g = .ok (some log) →
      UndoLog.Leads who.cwd f root (steps who g log.records { tree := t, store }).tree ∧
        UndoLog.Leads who.cwd g root (steps who g log.records { tree := t, store }).tree) :
    run who f t store = run who g t store := by
  unfold run
  rw [UndoLog.load_congr hf hg]
  cases hload : UndoLog.load who t g with
  | error e => rfl
  | ok found =>
    cases found with
    | none => rfl
    | some log =>
      obtain ⟨hf', hg'⟩ := hend log hload
      dsimp only
      rw [steps_congr (hsettled log hload), UndoLog.remove_congr hf' hg']

lemma run_tree {log : UndoLog} (hload : UndoLog.load who t folder = .ok (some log)) (hundo : log.canUndo = true) :
    (run who folder t store).2.1 =
      if (steps who folder log.records { tree := t, store }).report.success then
        (UndoLog.remove who folder (steps who folder log.records { tree := t, store }).tree).2
      else (steps who folder log.records { tree := t, store }).tree := by
  rw [run_undo hload hundo]
  dsimp only
  split
  · split
    · next heq => rw [heq]
    · next heq => rw [heq]
  · rfl

/-- What a machine's job with these actions has done to a file of the directory of the other examples. -/
def done (actions : List Action) : Standing :=
  Round.runAll [Round.plain actions "/r/a.txt"] (Round.outset ⟨"/r"⟩ Job.twoFiles .empty)

lemma account_done {actions : List Action} (hnoted : ∀ a ∈ actions, a.isNoted = true)
    (hfits : Round.AllFit [] ["r"] [Round.plain actions "/r/a.txt"] (Round.outset ⟨"/r"⟩ Job.twoFiles .empty))
    (hok : ∀ e ∈ (done actions).entries, e.status ≠ .failed)
    (hstraight : ∀ r ∈ (done actions).session.records, r.Straight [] ["r"]) :
    Account Job.plainHost.toActor.cwd ["r"] ⟨"/r"⟩ Job.twoFiles (done actions).session [] (done actions).tree :=
  Round.account_plain hnoted hfits hok hstraight

lemma leads_done {name : String} (hplace : (⟨name⟩ : Path).place [] = ["r"]) (htaken : refused (UndoLog.file ⟨name⟩) = none)
    (hp : t.Plain) (h : t.isDir [] ⟨name⟩ = true) : UndoLog.Leads [] ⟨name⟩ ["r"] t := by
  obtain ⟨l, a, hstat⟩ := isDir_iff.1 h
  obtain rfl : l = ["r"] := (stat_place hp hstat).trans hplace
  exact ⟨⟨a, hstat⟩, htaken, fun x => hp _ x⟩

set_option maxRecDepth 4000 in
/-- A renaming leaves no directory empty. -/
theorem run_spelling_rename : run Job.plainHost.toActor ⟨"r"⟩ (done [.rename "b.txt"]).tree .empty =
    run Job.plainHost.toActor ⟨"/r"⟩ (done [.rename "b.txt"]).tree .empty := by
  have hrecords : (done [.rename "b.txt"]).session.records = [Round.moved "/r/a.txt" "/r/b.txt"] := by decide +kernel
  obtain ⟨hfits, hok⟩ : Round.AllFit [] ["r"] [Round.plain [.rename "b.txt"] "/r/a.txt"]
      (Round.outset ⟨"/r"⟩ Job.twoFiles .empty) ∧ ∀ e ∈ (done [.rename "b.txt"]).entries, e.status ≠ .failed := by
    decide +kernel
  have hacc := account_done (by decide) hfits hok (by rw [hrecords]; decide)
  have hdir : (done [.rename "b.txt"]).tree.isDir [] ⟨"r"⟩ = true ∧ (done [.rename "b.txt"]).tree.isDir [] ⟨"/r"⟩ = true := by
    decide +kernel
  have hr := leads_done (by decide) (by decide) hacc.plain hdir.1
  have ha := leads_done (by decide) (by decide) hacc.plain hdir.2
  obtain ⟨log, a, hlog, hfile, hlegible, -⟩ := hacc.log_eq (by simp [hrecords])
  have hload := Round.reachable_plain.load Job.plainHost.toActor hacc.sound hacc.plain hfile hlegible
  rw [hrecords] at hlog
  refine run_spelling (f := ⟨"r"⟩) (g := ⟨"/r"⟩) hr ha (fun log' hload' => ?_) fun log' hload' => ?_
  all_goals
    rw [hload] at hload'
    cases hload'
    rw [hlog]
  · intro m ms hsuffix htaken d hd
    obtain rfl := List.mem_singleton.1 (hsuffix.subset List.mem_cons_self)
    have hparent : (Round.moved "/r/a.txt" "/r/b.txt").target.parent? = some ⟨"/r"⟩ := by decide
    obtain rfl := Option.some.inj (hd.symm.trans hparent)
    exact Or.inr (Or.inl (by decide))
  · have hlead : ∀ m ∈ [Round.moved "/r/a.txt" "/r/b.txt"], m.target.place Job.plainHost.toActor.cwd ≠ UndoLog.place ["r"] ∧
        (m.mode = .move → ¬m.target.place Job.plainHost.toActor.cwd <+: UndoLog.place ["r"]) := by decide
    have hb : (done [.rename "b.txt"]).tree.bytes? (UndoLog.place ["r"]) = some log.bytes := bytes?_eq_some.2 ⟨a, hfile⟩
    exact ⟨leads_steps ⟨"/r"⟩ hacc.sound hacc.plain (by decide) hr hb hlead,
      leads_steps ⟨"/r"⟩ hacc.sound hacc.plain (by decide) ha hb hlead⟩

/-- The tree once the move of a file into a new directory is taken back. -/
def filedBack (folder : Path) : Tree :=
  let p := steps Job.plainHost.toActor folder [Round.moved "/r/a.txt" "/r/docs/a.txt"]
    { tree := (done [.move "docs"]).tree, store := (done [.move "docs"]).store }
  if p.report.success then (UndoLog.remove Job.plainHost.toActor folder p.tree).2 else p.tree

/-- The directory that was made for a file is cleared away if the folder is given as an absolute path, and left if it is
not: it is not below the relative path, as far as the spelling goes. -/
theorem run_spelling_fails : ¬∀ (j : Job) (root' folder r a : Path) (root : Place) (files : List FileInfo) (t : Tree)
    (store : TagStore) (rs : List FileResult) (b : Batch), t.Sound → t.Plain → j.absoluteRoot root' = .ok folder →
    j.apply root' files t store = .ok (rs, b) → r.isAbsolute = false → a.isAbsolute = true →
    UndoLog.Leads j.host.cwd folder root b.work.tree → UndoLog.Leads j.host.cwd r root b.work.tree →
    UndoLog.Leads j.host.cwd a root b.work.tree →
    (run j.host.toActor r b.work.tree b.work.store).2 = (run j.host.toActor a b.work.tree b.work.store).2 := by
  intro hall
  have hrecords : (done [.move "docs"]).session.records = [Round.moved "/r/a.txt" "/r/docs/a.txt"] := by decide +kernel
  obtain ⟨hfits, hok⟩ : Round.AllFit [] ["r"] [Round.plain [.move "docs"] "/r/a.txt"]
      (Round.outset ⟨"/r"⟩ Job.twoFiles .empty) ∧ ∀ e ∈ (done [.move "docs"]).entries, e.status ≠ .failed := by
    decide +kernel
  have hacc := account_done (by decide) hfits hok (by rw [hrecords]; decide)
  have hdir : (done [.move "docs"]).tree.isDir [] ⟨"r"⟩ = true ∧ (done [.move "docs"]).tree.isDir [] ⟨"/r"⟩ = true := by
    decide +kernel
  have hr := leads_done (by decide) (by decide) hacc.plain hdir.1
  have ha := leads_done (by decide) (by decide) hacc.plain hdir.2
  have hsome : (((Job.plainJob [.move "docs"]).apply ⟨"/r"⟩ [Job.found "/r/a.txt"] Job.twoFiles .empty).toOption.bind
      (·.2.session)).isSome = true := by decide +kernel
  obtain ⟨session, hsession⟩ := Option.isSome_iff_exists.1 hsome
  obtain ⟨rs, b, hx, hsession⟩ := Job.apply_session hsession
  have hround : done [.move "docs"] = ⟨b.work.tree, b.work.store, session, rs⟩ := Job.apply_round rfl rfl hx hsession
  have htree : (done [.move "docs"]).tree = b.work.tree := congrArg Standing.tree hround
  have hsame := hall (Job.plainJob [.move "docs"]) ⟨"/r"⟩ ⟨"/r"⟩ ⟨"r"⟩ ⟨"/r"⟩ ["r"] [Job.found "/r/a.txt"] Job.twoFiles
    .empty rs b Job.sound_twoFiles Round.plain_twoFiles rfl hx (by decide) (by decide) (htree ▸ ha) (htree ▸ hr)
    (htree ▸ ha)
  have hstore : (done [.move "docs"]).store = b.work.store := congrArg Standing.store hround
  rw [← htree, ← hstore] at hsame
  obtain ⟨log, a, hlog, hfile, hlegible, hundo⟩ := hacc.log_eq (by simp [hrecords])
  have hload := Round.reachable_plain.load Job.plainHost.toActor hacc.sound hacc.plain hfile hlegible
  have hleft : ∀ f, UndoLog.load Job.plainHost.toActor (done [.move "docs"]).tree f = .ok (some log) →
      (run Job.plainHost.toActor f (done [.move "docs"]).tree (done [.move "docs"]).store).2.1 = filedBack f := by
    intro f hf
    rw [run_tree hf hundo, hlog, hrecords]
    rfl
  have htrees : filedBack ⟨"r"⟩ = filedBack ⟨"/r"⟩ := by
    rw [← hleft ⟨"r"⟩ ((UndoLog.load_congr hr ha).trans hload), ← hleft ⟨"/r"⟩ hload]
    exact congrArg Prod.fst hsame
  have hdocs : (filedBack ⟨"r"⟩).isDirAt ["r", "docs"] = true ∧ (filedBack ⟨"/r"⟩).isDirAt ["r", "docs"] = false := by
    decide +kernel
  rw [htrees, hdocs.2] at hdocs
  exact absurd hdocs.1 (by simp)

end Rollback

end FileOrganizer
