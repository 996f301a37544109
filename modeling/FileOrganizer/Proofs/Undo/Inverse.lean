import FileOrganizer.Proofs.Undo.Session

/-! Undoing a session brings back every file, and the directories that had files in them. -/

namespace FileOrganizer

open FileOrganizer.Tree FileOrganizer.Disk

variable {who : Actor} {cwd root : Place} {folder : Path} {t u v : Tree} {session : OpenSession}
  {records : List UndoRecord} {store : TagStore}

namespace Round

variable {rounds : List Round}

section

variable (hcwd : ∀ n ∈ who.cwd, Proper n) (hreach : UndoLog.Reachable folder root) (hs : t.Sound) (hp : t.Plain)
  (hw : UndoLog.Writable root t) (hnoted : ∀ r ∈ rounds, r.job.IsNoted who.cwd)
  (hfits : AllFit who.cwd root rounds (outset folder t store))
  (hok : ∀ e ∈ (runAll rounds (outset folder t store)).entries, e.status ≠ .failed)
  (hsome : (runAll rounds (outset folder t store)).session.records ≠ [])
  (hstraight : ∀ r ∈ (runAll rounds (outset folder t store)).session.records, r.Straight who.cwd root)
  (hclear : UndoRecord.Unblocked who.cwd folder (runAll rounds (outset folder t store)).session.records)

include hcwd hreach hs hp hw hnoted hfits hok hsome hstraight hclear

lemma undo_back : ∃ report v u store',
    Rollback.run who folder (runAll rounds (outset folder t store)).tree (runAll rounds (outset folder t store)).store =
      (.ok report, u, store') ∧ report.errors = [] ∧
    Rollback.Back (Rollback.leeway who.cwd folder (runAll rounds (outset folder t store)).session.records) root t v ∧
    v.Sets u (UndoLog.place root) none := by
  have hstart : (outset folder t store).Fair who.cwd root folder t := fun _ => .start hs hp hw
  exact (runAll_fair hcwd hreach rounds hnoted hfits hok hstart hstraight).run_back hreach hw hsome hstraight hclear _

/-- Undoing a session of batches, none of which had a failure, reports no error, brings back every file to
where it was with its bytes, and leaves no other file, nor the log. Each batch has found its files in the
tree, one at each place, and has not put anything where the log is; and outside of the folder no directory
had to be made where a file was moved away from. -/
theorem undo_restores_files : ∃ report u store',
    Rollback.run who folder (runAll rounds (outset folder t store)).tree (runAll rounds (outset folder t store)).store =
      (.ok report, u, store') ∧ report.errors = [] ∧ u.node? (UndoLog.place root) = none ∧
    ∀ q, q ≠ UndoLog.place root → u.bytes? q = t.bytes? q := by
  obtain ⟨report, v, u, store', hrun, herrors, hback, hset⟩ := undo_back hcwd hreach hs hp hw hnoted hfits hok hsome
    hstraight hclear
  exact ⟨report, u, store', hrun, herrors, hset.same, fun q hq => (hset.bytes? (Ne.symm hq)).trans (hback.bytes? hq)⟩

end

set_option maxRecDepth 4000 in
/-- A file is renamed and moved into a new directory, and a batch later another one follows it. -/
theorem undo_restores_files_later :
    let rounds := [plain [.rename "b.txt", .move "docs"] "/r/a.txt", plain [.move "docs"] "/r/a.zip"]
    let p := runAll rounds (outset ⟨"/r"⟩ Job.twoFiles .empty)
    ∃ report u store', Rollback.run Job.plainHost.toActor ⟨"/r"⟩ p.tree p.store = (.ok report, u, store') ∧
      report.errors = [] ∧ u.node? (UndoLog.place ["r"]) = none ∧
      ∀ q, q ≠ UndoLog.place ["r"] → u.bytes? q = Job.twoFiles.bytes? q := by
  intro rounds p
  obtain ⟨hfits, hok, hrecords⟩ : AllFit [] ["r"] rounds (outset ⟨"/r"⟩ Job.twoFiles .empty) ∧
      (∀ e ∈ p.entries, e.status ≠ .failed) ∧ p.session.records =
        [moved "/r/a.txt" "/r/b.txt", moved "/r/b.txt" "/r/docs/b.txt", moved "/r/a.zip" "/r/docs/a.zip"] := by
    decide +kernel
  obtain ⟨hsome, hstraight, hclear⟩ : p.session.records ≠ [] ∧ (∀ r ∈ p.session.records, r.Straight [] ["r"]) ∧
      UndoRecord.Unblocked [] ⟨"/r"⟩ p.session.records := by
    rw [hrecords]
    decide
  refine undo_restores_files (by simp [Job.plainHost]) reachable_plain Job.sound_twoFiles plain_twoFiles
    writable_twoFiles ?_ hfits hok hsome hstraight hclear
  simp only [rounds, List.forall_mem_cons, List.not_mem_nil]
  exact ⟨Job.plain_isNoted (by decide), Job.plain_isNoted (by decide), by simp⟩

set_option maxRecDepth 4000 in
/-- The second file is put into a directory that is made where the first one has passed outside of the folder.
The directory is left, and the first file cannot go back. -/
theorem undo_restores_files_fails : ¬∀ (who : Actor) (folder : Path) (root : Place) (t : Tree) (store : TagStore)
    (rounds : List Round), (∀ n ∈ who.cwd, Proper n) → UndoLog.Reachable folder root → t.Sound → t.Plain →
    UndoLog.Writable root t → (∀ r ∈ rounds, r.job.IsNoted who.cwd) →
    AllFit who.cwd root rounds (outset folder t store) →
    (∀ e ∈ (runAll rounds (outset folder t store)).entries, e.status ≠ .failed) →
    (runAll rounds (outset folder t store)).session.records ≠ [] →
    (∀ r ∈ (runAll rounds (outset folder t store)).session.records, r.Straight who.cwd root) →
    ∃ report u store', Rollback.run who folder (runAll rounds (outset folder t store)).tree
        (runAll rounds (outset folder t store)).store = (.ok report, u, store') ∧ report.errors = [] := by
  intro hall
  let rounds := [plain [.move "/w", .rename "kept.txt"] "/r/a.txt", plain [.move "/w/a.txt"] "/r/a.zip"]
  let p := runAll rounds (outset ⟨"/r"⟩ Job.twoFiles .empty)
  let records := [moved "/r/a.txt" "/w/a.txt", moved "/w/a.txt" "/w/kept.txt", moved "/r/a.zip" "/w/a.txt/a.zip"]
  obtain ⟨hfits, hok, hrecords, herrors⟩ : AllFit [] ["r"] rounds (outset ⟨"/r"⟩ Job.twoFiles .empty) ∧
      (∀ e ∈ p.entries, e.status ≠ .failed) ∧ p.session.records = records ∧
      (Rollback.steps Job.plainHost.toActor ⟨"/r"⟩ records { tree := p.tree, store := p.store }).report.success = false := by
    decide +kernel
  rw [← hrecords] at herrors
  have hsome : p.session.records ≠ [] := by simp [hrecords, records]
  have hstraight : ∀ r ∈ p.session.records, r.Straight [] ["r"] := by
    rw [hrecords]
    decide
  have hnoted : ∀ r ∈ rounds, r.job.IsNoted [] := by
    simp only [rounds, List.forall_mem_cons, List.not_mem_nil]
    exact ⟨Job.plain_isNoted (by decide), Job.plain_isNoted (by decide), by simp⟩
  have hacc := runAll_fair (by simp) reachable_plain rounds hnoted hfits hok
    (fun _ => .start Job.sound_twoFiles plain_twoFiles writable_twoFiles) hstraight
  obtain ⟨report, u, store', hrun, hnone⟩ := hall Job.plainHost.toActor ⟨"/r"⟩ ["r"] Job.twoFiles .empty rounds
    (by simp [Job.plainHost]) reachable_plain Job.sound_twoFiles plain_twoFiles writable_twoFiles hnoted hfits hok hsome
    hstraight
  rw [hacc.run_eq reachable_plain hsome hacc.sound hacc.plain rfl] at hrun
  dsimp only at hrun
  rw [if_neg (by simpa using herrors)] at hrun
  have hsuccess : report.success = false := by
    rw [← Except.ok.inj (Prod.mk.inj hrun).1]
    exact herrors
  rw [RollbackReport.success, hnone] at hsuccess
  cases hsuccess

end Round

namespace Rollback

variable {q : Place}

/-- Inside of the folder no directory is left. -/
lemma not_mem_left (hreach : UndoLog.Reachable folder root) (hstraight : ∀ r ∈ records, r.Straight cwd root)
    (habs : ∀ r ∈ records, r.target.isAbsolute = true) (hq : root <+: q) : q ∉ (leeway cwd folder records).left := by
  rintro ⟨r, hr, hout, hpre, -⟩
  obtain ⟨l, hbody⟩ := Path.body_of_level (hstraight r hr).level
  have hplace : r.target.place cwd = l := by
    rw [Path.place_of_body hbody, start_absolute (habs r hr), List.nil_append]
  rw [(Path.startsWith_iff (Path.parts_of_names (habs r hr) hbody) hreach.parts).2 (hplace ▸ hq.trans hpre)] at hout
  cases hout

/-- The directories are those that were there, if whatever was put into one of them was put beside a file. -/
lemma Back.dirs (hreach : UndoLog.Reachable folder root) (hnolog : t.isDirAt (UndoLog.place root) ≠ true)
    (hstraight : ∀ r ∈ records, r.Straight cwd root) (habs : ∀ r ∈ records, r.target.isAbsolute = true)
    (hb : Back (leeway cwd folder records) root t v) (hset : v.Sets u (UndoLog.place root) none) (hin : root <+: q)
    (hne : q ≠ root) (hfull : t.isDirAt q = true → (∃ r ∈ records, q <+: r.target.place cwd) →
      ∃ l, l ≠ [] ∧ t.bytes? (q ++ l) ≠ none) : u.isDirAt q = t.isDirAt q := by
  by_cases hq : q = UndoLog.place root
  · rw [Bool.eq_iff_iff, hq]
    exact iff_of_false (not_isDirAt_of_none hset.same) hnolog
  · rw [isDirAt_congr (hset.other (Ne.symm hq))]
    rcases hb.agrees q hq with h | ⟨h, h'⟩ | ⟨h, h', -, r, hr, hpre, -⟩ | ⟨-, -, hleft⟩
    · exact isDirAt_congr h
    · rw [Bool.eq_iff_iff]
      exact iff_of_false (not_isDirAt_of_file h') (not_isDirAt_of_file h)
    · -- A file that was in the directory is back, and so is the directory.
      obtain ⟨l, hl, hbytes⟩ := hfull (isDirAt_iff.2 ⟨_, h⟩) ⟨r, hr, hpre⟩
      have hql : q ++ l ≠ UndoLog.place root := by
        intro heq
        obtain ⟨k, rfl⟩ := hin
        rw [UndoLog.place, List.append_assoc, List.append_cancel_left_eq] at heq
        have hlen := congrArg List.length heq
        have hk : k ≠ [] := by
          rintro rfl
          exact hne (List.append_nil root)
        have hpos := List.length_pos_of_ne_nil hk
        have hpos' := List.length_pos_of_ne_nil hl
        rw [List.length_append, List.length_singleton] at hlen
        omega
      rw [← hb.bytes? hql, Tree.bytes?, hb.sound.node?_below l hl (not_isDirAt_of_none h')] at hbytes
      exact absurd rfl hbytes
    · exact absurd hleft (not_mem_left hreach hstraight habs hin)

end Rollback

namespace Job

variable {j : Job} {root' : Path} {files : List FileInfo} {rs : List FileResult} {b : Batch}

/-- Undoing a batch without a failure brings back the directories inside of the folder as they were: none is
left, and those are there that were there before, if whatever was put into one of them was put beside a
file. Nothing is said of a batch in which archives are unpacked: of what comes out of one only the files are
taken down, so that a directory that came out empty is left. -/
theorem undo_restores_dirs (hcwd : ∀ n ∈ who.cwd, Proper n) (hreach : UndoLog.Reachable folder root) (hs : t.Sound)
    (hp : t.Plain) (hw : UndoLog.Writable root t) (hfolder : j.absoluteRoot root' = .ok folder) (hmode : j.mode = .move)
    (hnoted : j.IsNoted who.cwd) (hfits : Round.Fits who.cwd root t ⟨j, folder, files⟩)
    (h : j.apply root' files t store = .ok (rs, b)) (hsession : b.session = some session)
    (hok : ∀ e ∈ rs, e.status ≠ .failed) (hsome : session.records ≠ [])
    (hstraight : ∀ r ∈ session.records, r.Straight who.cwd root)
    (hclear : UndoRecord.Unblocked who.cwd folder session.records)
    (habs : ∀ r ∈ session.records, r.target.isAbsolute = true)
    (hfull : ∀ q, t.isDirAt q = true → (∃ r ∈ session.records, q <+: r.target.place who.cwd) →
      ∃ l, l ≠ [] ∧ t.bytes? (q ++ l) ≠ none) :
    ∃ report u store', Rollback.run who folder b.work.tree b.work.store = (.ok report, u, store') ∧
      report.errors = [] ∧ ∀ q, root <+: q → q ≠ root → u.isDirAt q = t.isDirAt q := by
  have hround := apply_round hfolder hmode h hsession
  have hall : Round.AllFit who.cwd root [⟨j, folder, files⟩] (Round.outset folder t store) := ⟨hfits, trivial⟩
  obtain ⟨report, v, u, store', hrun, herrors, hback, hset⟩ := Round.undo_back hcwd hreach hs hp hw (by simpa using hnoted)
    hall (by rwa [hround]) (by rwa [hround]) (by rwa [hround]) (by rwa [hround])
  rw [hround] at hrun hback
  exact ⟨report, u, store', hrun, herrors, fun q hin hne =>
    hback.dirs hreach hw.not_isDirAt hstraight habs hset hin hne (hfull q)⟩

/-- A directory with a file in it, and one without. -/
def twoDirs : Tree := ⟨[
  (["r"], .dir ⟨⟨0, 0⟩, false⟩),
  (["r", "a.txt"], .file ⟨#[1]⟩ ⟨⟨0, 0⟩, false⟩),
  (["r", "docs"], .dir ⟨⟨0, 0⟩, false⟩),
  (["r", "docs", "b.txt"], .file ⟨#[2]⟩ ⟨⟨0, 0⟩, false⟩),
  (["r", "spare"], .dir ⟨⟨0, 0⟩, false⟩)]⟩

lemma sound_twoDirs : twoDirs.Sound := sound_of_entries (by decide)

lemma plain_twoDirs : twoDirs.Plain := plain_of_entries (by decide)

lemma writable_twoDirs : UndoLog.Writable ["r"] twoDirs := ⟨by decide, by decide, Or.inl (at?_eq_none.1 (by rfl))⟩

/-- A file is put beside another one. -/
def beside : Standing :=
  Round.runAll [Round.plain [.move "docs", .createFolder "new/er"] "/r/a.txt"] (Round.outset ⟨"/r"⟩ twoDirs .empty)

/-- A file is put where there was none. -/
def alone : Standing := Round.runAll [Round.plain [.move "spare"] "/r/a.txt"] (Round.outset ⟨"/r"⟩ twoDirs .empty)

set_option maxRecDepth 4000 in
/-- A file is put beside another one, and the directory without a file is left alone. -/
theorem undo_restores_dirs_beside : ∃ rs b report u store',
    (plainJob [.move "docs", .createFolder "new/er"]).apply ⟨"/r"⟩ [found "/r/a.txt"] twoDirs .empty = .ok (rs, b) ∧
    Rollback.run plainHost.toActor ⟨"/r"⟩ b.work.tree b.work.store = (.ok report, u, store') ∧ report.errors = [] ∧
    ∀ q, ["r"] <+: q → q ≠ ["r"] → u.isDirAt q = twoDirs.isDirAt q := by
  let j := plainJob [.move "docs", .createFolder "new/er"]
  have hopen : ((j.apply ⟨"/r"⟩ [found "/r/a.txt"] twoDirs .empty).toOption.bind (·.2.session)).isSome = true := by
    decide +kernel
  obtain ⟨session, hsession⟩ := Option.isSome_iff_exists.1 hopen
  obtain ⟨rs, b, h, hsession⟩ := apply_session hsession
  have hround : beside = ⟨b.work.tree, b.work.store, session, rs⟩ :=
    apply_round rfl rfl h hsession
  obtain ⟨hok, hrecords⟩ : (∀ e ∈ beside.entries, e.status ≠ .failed) ∧
      beside.session.records =
      [Round.moved "/r/a.txt" "/r/docs/a.txt", ⟨⟨"/r/docs/a.txt"⟩, ⟨"/r/new/er"⟩, .copy, ⟨0, 0⟩⟩] := by decide +kernel
  rw [hround] at hok hrecords
  dsimp only at hok hrecords
  obtain ⟨hgood, hclear, hplaces⟩ : (∀ r ∈ session.records, r.Straight [] ["r"] ∧ r.target.isAbsolute = true) ∧
      UndoRecord.Unblocked [] ⟨"/r"⟩ session.records ∧
      session.records.map (·.target.place []) = [["r", "docs", "a.txt"], ["r", "new", "er"]] := by
    rw [hrecords]
    decide
  have hbeside : ∀ l ∈ session.records.map (·.target.place []), ∀ q ∈ l.inits, twoDirs.isDirAt q = true →
      ∃ e ∈ twoDirs.entries, q <+: e.1 ∧ q ≠ e.1 ∧ twoDirs.bytes? e.1 ≠ none := by
    rw [hplaces]
    decide
  have hfull : ∀ q, twoDirs.isDirAt q = true → (∃ r ∈ session.records, q <+: r.target.place []) →
      ∃ l, l ≠ [] ∧ twoDirs.bytes? (q ++ l) ≠ none := by
    rintro q hd ⟨r, hr, hpre⟩
    obtain ⟨e, -, ⟨l, hl⟩, hne, hbytes⟩ := hbeside _ (List.mem_map_of_mem hr) q ((List.mem_inits _ _).2 hpre) hd
    refine ⟨l, ?_, hl ▸ hbytes⟩
    rintro rfl
    exact hne (by simpa using hl)
  have hnoted : j.IsNoted plainHost.cwd := plain_isNoted (by decide)
  obtain ⟨report, u, store', hrun, herrors, hdirs⟩ := undo_restores_dirs (by simp [plainHost]) Round.reachable_plain
    sound_twoDirs plain_twoDirs writable_twoDirs (show j.absoluteRoot ⟨"/r"⟩ = .ok ⟨"/r"⟩ by rfl) rfl hnoted
    (by decide) h hsession hok (by simp [hrecords]) (fun r hr => (hgood r hr).1) hclear
    (fun r hr => (hgood r hr).2) hfull
  exact ⟨rs, b, report, u, store', h, hrun, herrors, hdirs⟩

set_option maxRecDepth 4000 in
/-- A directory without a file goes when what was put into it has gone back. -/
theorem undo_restores_dirs_fails : ¬∀ (who : Actor) (folder root' : Path) (root : Place) (j : Job)
    (files : List FileInfo) (t : Tree) (store : TagStore) (rs : List FileResult) (b : Batch) (session : OpenSession),
    (∀ n ∈ who.cwd, Proper n) → UndoLog.Reachable folder root → t.Sound → t.Plain → UndoLog.Writable root t →
    j.absoluteRoot root' = .ok folder → j.mode = .move → j.IsNoted who.cwd → Round.Fits who.cwd root t ⟨j, folder, files⟩ →
    j.apply root' files t store = .ok (rs, b) → b.session = some session → (∀ e ∈ rs, e.status ≠ .failed) →
    session.records ≠ [] → (∀ r ∈ session.records, r.Straight who.cwd root) →
    UndoRecord.Unblocked who.cwd folder session.records → (∀ r ∈ session.records, r.target.isAbsolute = true) →
    ∃ report u store', Rollback.run who folder b.work.tree b.work.store = (.ok report, u, store') ∧
      ∀ q, root <+: q → q ≠ root → u.isDirAt q = t.isDirAt q := by
  intro hall
  let who := plainHost.toActor
  let j := plainJob [.move "spare"]
  have hopen : ((j.apply ⟨"/r"⟩ [found "/r/a.txt"] twoDirs .empty).toOption.bind (·.2.session)).isSome = true := by
    decide +kernel
  obtain ⟨session, hsession⟩ := Option.isSome_iff_exists.1 hopen
  obtain ⟨rs, b, h, hsession⟩ := apply_session hsession
  have hround : alone = ⟨b.work.tree, b.work.store, session, rs⟩ := apply_round rfl rfl h hsession
  let records := [Round.moved "/r/a.txt" "/r/spare/a.txt"]
  obtain ⟨hfits, hok, hrecords, hback, hgone⟩ : Round.Fits [] ["r"] twoDirs ⟨j, ⟨"/r"⟩, [found "/r/a.txt"]⟩ ∧
      (∀ e ∈ alone.entries, e.status ≠ .failed) ∧ alone.session.records = records ∧
      (Rollback.steps who ⟨"/r"⟩ records { tree := alone.tree, store := alone.store }).report.success = true ∧
      (UndoLog.remove who ⟨"/r"⟩ (Rollback.steps who ⟨"/r"⟩ records
        { tree := alone.tree, store := alone.store }).tree).2.isDirAt ["r", "spare"] = false := by
    decide +kernel
  have hsome : alone.session.records ≠ [] := by simp [hrecords, records]
  obtain ⟨hgood, hclear, habs⟩ : (∀ r ∈ alone.session.records, r.Straight [] ["r"]) ∧
      UndoRecord.Unblocked [] ⟨"/r"⟩ alone.session.records ∧
      ∀ r ∈ alone.session.records, r.target.isAbsolute = true := by
    rw [hrecords]
    decide
  have hnoted : j.IsNoted who.cwd := plain_isNoted (by decide)
  have hfair : alone.Fair who.cwd ["r"] ⟨"/r"⟩ twoDirs := Round.runAll_fair (by simp [who, plainHost])
    Round.reachable_plain _ (List.forall_mem_singleton.2 hnoted) ⟨hfits, trivial⟩ hok
    fun _ => .start sound_twoDirs plain_twoDirs writable_twoDirs
  have hacc := hfair hgood
  rw [← hrecords] at hback hgone
  rw [hround] at hok hsome hgood hclear habs hback hgone hacc
  have hrun := hacc.run_eq Round.reachable_plain hsome hacc.sound hacc.plain rfl b.work.store
  dsimp only at hrun
  rw [if_pos hback] at hrun
  obtain ⟨report, u, store', hundo, hdirs⟩ := hall who ⟨"/r"⟩ ⟨"/r"⟩ ["r"] j [found "/r/a.txt"] twoDirs .empty rs b session
    (by simp [who, plainHost]) Round.reachable_plain sound_twoDirs plain_twoDirs writable_twoDirs rfl rfl hnoted hfits h
    hsession hok hsome hgood hclear habs
  have hspare := hdirs ["r", "spare"] (by decide) (by decide)
  have hu : u = (UndoLog.remove who ⟨"/r"⟩ (Rollback.steps who ⟨"/r"⟩ session.records
      { tree := b.work.tree, store := b.work.store }).tree).2 := by
    rw [hrun] at hundo
    split at hundo
    · cases hundo
    · next heq =>
      rw [heq]
      exact (Prod.mk.inj (Prod.mk.inj hundo).2).1.symm
  rw [hu, hgone] at hspare
  exact absurd hspare (by decide)

end Job

end FileOrganizer
