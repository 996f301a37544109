import FileOrganizer.Proofs.Tree.Spared
import FileOrganizer.Proofs.Undo.Session

/-! What a rollback does to a file that is none of its business: nothing, as long as the path of no record
leads to it or above it. -/

namespace FileOrganizer

open FileOrganizer.Tree FileOrganizer.Disk

variable {who : Actor} {cwd q : Place} {t : Tree} {folder : Path} {b : ByteArray}

/-- The last step of the record's path does not lead to the place, nor, if a thing is to be moved from there,
above it. -/
def UndoRecord.Spares (cwd : Place) (t : Tree) (q : Place) (r : UndoRecord) : Prop :=
  ∀ d n, t.parentOf cwd r.target = .ok (d, .name n) →
    d ++ [n] ≠ q ∧ (r.mode = .move → ¬d ++ [n] <+: q)

namespace Rollback

variable {records : List UndoRecord} {store : TagStore}

lemma tidy_leaves (who : Actor) (folder target : Path) (p : Progress) (hs : p.tree.Sound) (q : Place) :
    (tidy who folder p target).tree.Sound ∧ (tidy who folder p target).tree.bytes? q = p.tree.bytes? q := by
  unfold tidy
  split
  · exact ⟨hs, rfl⟩
  · exact prune_leaves hs q

section

variable {p : Progress} {m : UndoRecord} (hs : p.tree.Sound) (hb : p.tree.bytes? q = some b)

include hs hb

lemma goBack_leaves (hthere : p.tree.has who.cwd m.target = true)
    (hq : ∀ d n, p.tree.parentOf who.cwd m.target = .ok (d, .name n) → ¬d ++ [n] <+: q) :
    (goBack who folder p m).tree.Sound ∧ (goBack who folder p m).tree.bytes? q = some b := by
  unfold goBack
  split
  · exact ⟨hs, hb⟩
  · rcases hm : moveFile who m.target m.source p.tree with ⟨e | a, t₁⟩
    · exact moveFile_leaves hs hthere hq hm hb
    · obtain ⟨hs₁, hb₁⟩ := moveFile_leaves hs hthere hq hm hb
      have htidy := tidy_leaves who folder m.target
        { tree := t₁, store := p.store.rename (who.key m.target) (who.key m.source),
          report := { p.report with restored := p.report.restored + 1 } } hs₁ q
      exact ⟨htidy.1, htidy.2.trans hb₁⟩

lemma dropDir_leaves : (dropDir who folder p m).tree.Sound ∧ (dropDir who folder p m).tree.bytes? q = some b := by
  unfold dropDir
  cases hrem : Tree.removeDir who m.target p.tree with
  | error e => exact ⟨hs, hb⟩
  | ok t₁ =>
    have htidy := tidy_leaves who folder m.target
      { p with tree := t₁, report.copies := p.report.copies + 1 } (sound_of_removeDir hs hrem) q
    exact ⟨htidy.1, (htidy.2.trans (removeDir_leaves hrem q)).trans hb⟩

lemma dropCopy_leaves (hq : ∀ d n, p.tree.parentOf who.cwd m.target = .ok (d, .name n) → d ++ [n] ≠ q) :
    (dropCopy who folder p m).tree.Sound ∧ (dropCopy who folder p m).tree.bytes? q = some b := by
  unfold dropCopy
  cases hrem : Tree.removeFile who m.target p.tree with
  | error e => exact ⟨hs, hb⟩
  | ok t₁ =>
    have htidy := tidy_leaves who folder m.target
      { p with tree := t₁, report.copies := p.report.copies + 1 } (sound_of_removeFile hs hrem) q
    exact ⟨htidy.1, (htidy.2.trans (removeFile_leaves hrem hq)).trans hb⟩

/-- A record is taken back, or not, without harm to a file that its path does not lead to. -/
lemma step_leaves (hq : m.Spares who.cwd p.tree q) :
    (step who folder p m).tree.Sound ∧ (step who folder p m).tree.bytes? q = some b := by
  unfold step
  split
  · exact ⟨hs, hb⟩
  · next hthere =>
    split
    · next hmode =>
      exact goBack_leaves hs hb (by simpa using hthere) fun d n hpar => (hq d n hpar).2 hmode
    · split
      · exact dropDir_leaves hs hb
      · exact dropCopy_leaves hs hb fun d n hpar => (hq d n hpar).1

/-- So are all records: each must spare the file when its turn comes, after those behind it in the log. -/
theorem steps_leaves
    (hq : ∀ m ms, m :: ms <:+ records → m.Spares who.cwd (steps who folder ms p).tree q) :
    (steps who folder records p).tree.Sound ∧ (steps who folder records p).tree.bytes? q = some b := by
  induction records with
  | nil => exact ⟨hs, hb⟩
  | cons m ms ih =>
    obtain ⟨hs', hb'⟩ := ih fun m' ms' h => hq m' ms' (h.trans (List.suffix_cons m ms))
    rw [steps_cons]
    exact step_leaves hs' hb' (hq m ms (List.suffix_refl _))

end

section

variable {p : Progress} {m : UndoRecord}

lemma tidy_plain (who : Actor) (folder target : Path) (p : Progress) (hp : p.tree.Plain) :
    (tidy who folder p target).tree.Plain := by
  unfold tidy
  split
  · exact hp
  · exact prune_plain hp

lemma step_plain (hs : p.tree.Sound) (hp : p.tree.Plain) : (step who folder p m).tree.Plain := by
  unfold step
  split
  · exact hp
  · split
    · unfold goBack
      split
      · exact hp
      · rcases hm : moveFile who m.target m.source p.tree with ⟨e | a, t₁⟩
        · exact plain_of_moveFile hs hp hm
        · exact tidy_plain _ _ _ _ (plain_of_moveFile hs hp hm)
    · split
      · unfold dropDir
        cases hrem : Tree.removeDir who m.target p.tree with
        | error e => exact hp
        | ok t₁ => exact tidy_plain _ _ _ _ (plain_of_removeDir hp hrem)
      · unfold dropCopy
        cases hrem : Tree.removeFile who m.target p.tree with
        | error e => exact hp
        | ok t₁ => exact tidy_plain _ _ _ _ (plain_of_removeFile hp hrem)

/-- In a tree without links a record spares all but the place that its path spells and, for a move, what is
below. -/
lemma spares_of_plain (hp : t.Plain) (hne : m.target.place cwd ≠ q)
    (hmove : m.mode = .move → ¬m.target.place cwd <+: q) : m.Spares cwd t q := by
  intro d n hpar
  rw [← parentOf_place hp hpar]
  exact ⟨hne, hmove⟩

lemma steps_plain (hs : p.tree.Sound) (hp : p.tree.Plain) (hb : p.tree.bytes? q = some b)
    (hq : ∀ m ∈ records, m.target.place who.cwd ≠ q ∧ (m.mode = .move → ¬m.target.place who.cwd <+: q)) :
    (steps who folder records p).tree.Sound ∧ (steps who folder records p).tree.Plain ∧
      (steps who folder records p).tree.bytes? q = some b := by
  induction records with
  | nil => exact ⟨hs, hp, hb⟩
  | cons m ms ih =>
    obtain ⟨hs', hp', hb'⟩ := ih fun m' hm' => hq m' (List.mem_cons_of_mem m hm')
    obtain ⟨hne, hmove⟩ := hq m List.mem_cons_self
    have hspare := spares_of_plain hp' hne hmove
    rw [steps_cons]
    exact ⟨(step_leaves hs' hb' hspare).1, step_plain hs' hp', (step_leaves hs' hb' hspare).2⟩

/-- A rollback spares the place: no record's path leads to it when its turn comes, or above it if something is to
be moved from there, and it is not that of the log. -/
def Spared (who : Actor) (folder : Path) (t : Tree) (store : TagStore) (q : Place) : Prop :=
  ∀ log, UndoLog.load who t folder = .ok (some log) →
    (∀ m ms, m :: ms <:+ log.records → m.Spares who.cwd (steps who folder ms { tree := t, store }).tree q) ∧
    ∀ d n, (steps who folder log.records { tree := t, store }).tree.parentOf who.cwd (UndoLog.file folder) =
      .ok (d, .name n) → d ++ [n] ≠ q

/-- In a tree without links it can be seen from the log which places are spared. -/
lemma spared_of_plain (hs : t.Sound) (hp : t.Plain) (hb : t.bytes? q = some b)
    (hlog : (UndoLog.file folder).place who.cwd ≠ q)
    (hq : ∀ log, UndoLog.load who t folder = .ok (some log) → ∀ m ∈ log.records,
      m.target.place who.cwd ≠ q ∧ (m.mode = .move → ¬m.target.place who.cwd <+: q)) : Spared who folder t store q := by
  refine fun log hload => ⟨fun m ms hsuffix => ?_, fun d n hpar => ?_⟩
  · have hp' : (steps who folder ms { tree := t, store }).tree.Plain :=
      (steps_plain hs hp hb fun m' hm' => hq log hload m' (hsuffix.subset (List.mem_cons_of_mem m hm'))).2.1
    obtain ⟨hne, hmove⟩ := hq log hload m (hsuffix.subset List.mem_cons_self)
    exact spares_of_plain hp' hne hmove
  · have hp' : (steps who folder log.records { tree := t, store }).tree.Plain :=
      (steps_plain hs hp hb (hq log hload)).2.1
    rwa [← parentOf_place hp' hpar]

end

/-- A file stays where it is, with its bytes, whether records can be taken back or not, if its place is spared. It
does not matter who put it there, and when. -/
theorem run_leaves (hs : t.Sound) (hb : t.bytes? q = some b) (hq : Spared who folder t store q) :
    (run who folder t store).2.1.bytes? q = some b := by
  unfold run
  split
  · exact hb
  · exact hb
  · next log hload =>
    obtain ⟨hspare, hlog⟩ := hq log hload
    obtain ⟨-, hb'⟩ := steps_leaves (p := { tree := t, store }) hs hb hspare
    split
    · exact hb
    · dsimp only
      split
      · have hremove : (UndoLog.remove who folder (steps who folder log.records { tree := t, store }).tree).2.bytes? q =
            some b := by
          unfold UndoLog.remove
          rw [run_bind, run_get]
          dsimp only
          split
          · unfold Disk.change
            cases hrem : Tree.removeFile who (UndoLog.file folder) (steps who folder log.records { tree := t, store }).tree with
            | error e => exact hb'
            | ok u => exact (removeFile_leaves hrem hlog).trans hb'
          · exact hb'
        split
        · next heq => rwa [heq] at hremove
        · next heq => rwa [heq] at hremove
      · exact hb'

/-- A file is renamed, and then moved. -/
def passing : Standing :=
  Round.runAll [Round.plain [.rename "b.txt", .move "docs"] "/r/a.txt"] (Round.outset ⟨"/r"⟩ Job.twoFiles .empty)

lemma records_passing : passing.session.records =
    [Round.moved "/r/a.txt" "/r/b.txt", Round.moved "/r/b.txt" "/r/docs/b.txt"] := by decide +kernel

lemma account_passing : Account Job.plainHost.toActor.cwd ["r"] ⟨"/r"⟩ Job.twoFiles passing.session [] passing.tree ∧
    passing.session.records ≠ [] := by
  obtain ⟨hfits, hok⟩ : Round.AllFit [] ["r"] [Round.plain [.rename "b.txt", .move "docs"] "/r/a.txt"]
      (Round.outset ⟨"/r"⟩ Job.twoFiles .empty) ∧ ∀ e ∈ passing.entries, e.status ≠ .failed := by decide +kernel
  have hstraight : ∀ r ∈ passing.session.records, r.Straight [] ["r"] := by
    rw [records_passing]
    decide
  exact ⟨Round.account_plain (by decide) hfits hok hstraight, by simp [records_passing]⟩

/-- Somebody puts a file into the directory. -/
def added (t : Tree) (n : String) : Tree := t.put ["r", n] (.file ⟨#[3]⟩ ⟨⟨0, 0⟩, false⟩)

lemma sets_added (t : Tree) (n : String) : t.Sets (added t n) ["r", n] (some (.file ⟨#[3]⟩ ⟨⟨0, 0⟩, false⟩)) :=
  fun _ => node?_put (by simp)

lemma added_passing {n : String} (hfree : passing.tree.node? ["r", n] = none) (hn : n ≠ UndoLog.fileName) :
    (added passing.tree n).Sound ∧ (added passing.tree n).Plain ∧
      (added passing.tree n).node? (UndoLog.place ["r"]) = passing.tree.node? (UndoLog.place ["r"]) := by
  obtain ⟨hacc, -⟩ := account_passing
  have hset := sets_added passing.tree n
  exact ⟨hset.sound_some hacc.sound hacc.kept.writable.dir (Or.inl (not_isDirAt_of_none hfree)),
    hset.plain hacc.plain (by simp), hset.other (by simpa [UndoLog.place] using hn)⟩

set_option maxRecDepth 4000 in
/-- Where no record leads to, a file is left alone. -/
theorem run_leaves_beside : Spared Job.plainHost.toActor ⟨"/r"⟩ (added passing.tree "c.txt") passing.store ["r", "c.txt"] ∧
    (run Job.plainHost.toActor ⟨"/r"⟩ (added passing.tree "c.txt") passing.store).2.1.bytes? ["r", "c.txt"] =
      some ⟨#[3]⟩ := by
  obtain ⟨hacc, hsome⟩ := account_passing
  have hfree : (passing.tree.at? ["r", "c.txt"]).isNone = true := by decide +kernel
  have hlead : ∀ m ∈ passing.session.records,
      m.target.place [] ≠ ["r", "c.txt"] ∧ (m.mode = .move → ¬m.target.place [] <+: ["r", "c.txt"]) := by
    rw [records_passing]
    decide
  obtain ⟨hs, hp, hlog⟩ := added_passing (at?_eq_none.1 (Option.isNone_iff_eq_none.1 hfree)) (by decide)
  have hb : (added passing.tree "c.txt").bytes? ["r", "c.txt"] = some ⟨#[3]⟩ :=
    bytes?_eq_some.2 ⟨_, (sets_added passing.tree "c.txt").same⟩
  obtain ⟨log, hrecords, hload⟩ := hacc.load Round.reachable_plain hsome hs hp hlog Job.plainHost.toActor
  have hspared : Spared Job.plainHost.toActor ⟨"/r"⟩ (added passing.tree "c.txt") passing.store ["r", "c.txt"] := by
    refine spared_of_plain hs hp hb (by decide) fun l hl => ?_
    rw [hload] at hl
    cases hl
    rwa [hrecords]
  exact ⟨hspared, run_leaves hs hb hspared⟩

set_option maxRecDepth 4000 in
/-- The second record cannot be taken back, since a file was put where the first one leads to. The first one is
taken back nevertheless, with that file. -/
theorem run_leaves_fails : ¬∀ (j : Job) (root' folder : Path) (files : List FileInfo) (t u : Tree) (store : TagStore)
    (rs : List FileResult) (b : Batch) (session : OpenSession) (q : Place) (bytes : ByteArray) (a : Attrs), t.Sound →
    j.absoluteRoot root' = .ok folder → j.apply root' files t store = .ok (rs, b) → b.session = some session →
    (∀ e ∈ rs, e.status ≠ .failed) → b.work.tree.node? q = none → b.work.tree.Sets u q (some (.file bytes a)) →
    (run j.host.toActor folder u b.work.store).2.1.bytes? q = some bytes := by
  intro hall
  let j := Job.plainJob [.rename "b.txt", .move "docs"]
  have hok : ((j.apply ⟨"/r"⟩ [Job.found "/r/a.txt"] Job.twoFiles .empty).toOption.bind (·.2.session)).isSome = true := by
    decide +kernel
  obtain ⟨session, hsession⟩ := Option.isSome_iff_exists.1 hok
  obtain ⟨rs, b, h, hsession⟩ := Job.apply_session hsession
  have hround : passing = ⟨b.work.tree, b.work.store, session, rs⟩ := Job.apply_round rfl rfl h hsession
  obtain ⟨hacc, hsome⟩ := account_passing
  let back := steps Job.plainHost.toActor ⟨"/r"⟩ passing.session.records
    { tree := added passing.tree "b.txt", store := passing.store }
  obtain ⟨hentries, hfree⟩ : (∀ e ∈ passing.entries, e.status ≠ .failed) ∧
      (passing.tree.at? ["r", "b.txt"]).isNone = true := by decide +kernel
  obtain ⟨hkept, hgone⟩ : back.report.success = false ∧ (back.tree.at? ["r", "b.txt"]).isNone = true := by
    simp only [back, records_passing]
    decide +kernel
  have hfree' := at?_eq_none.1 (Option.isNone_iff_eq_none.1 hfree)
  obtain ⟨hs, hp, hlog⟩ := added_passing hfree' (by decide)
  have hrun := hacc.run_eq Round.reachable_plain hsome hs hp hlog passing.store
  dsimp only at hrun
  rw [if_neg (by simpa using hkept)] at hrun
  have htree : b.work.tree = passing.tree := (congrArg Standing.tree hround).symm
  have hstore : b.work.store = passing.store := (congrArg Standing.store hround).symm
  have hrs : passing.entries = rs := congrArg Standing.entries hround
  have hleft := hall j ⟨"/r"⟩ ⟨"/r"⟩ [Job.found "/r/a.txt"] Job.twoFiles (added passing.tree "b.txt") .empty rs b session
    ["r", "b.txt"] ⟨#[3]⟩ ⟨⟨0, 0⟩, false⟩ Job.sound_twoFiles rfl h hsession (by rw [← hrs]; exact hentries)
    (by rw [htree]; exact hfree') (by rw [htree]; exact sets_added _ _)
  have hj : j.host.toActor = Job.plainHost.toActor := rfl
  rw [hstore, hj, hrun] at hleft
  dsimp only at hleft
  obtain ⟨a, ha⟩ := bytes?_eq_some.1 hleft
  rw [at?_eq_none.1 (Option.isNone_iff_eq_none.1 hgone)] at ha
  cases ha

end Rollback

end FileOrganizer
