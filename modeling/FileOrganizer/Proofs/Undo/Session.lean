import FileOrganizer.Proofs.Batch.Conservation
import FileOrganizer.Proofs.Batch.Rounds
import FileOrganizer.Proofs.Undo.Rollback

/-! What the account of a session gives to the rollback of it. -/

namespace FileOrganizer

open FileOrganizer.Tree FileOrganizer.Disk

variable {who : Actor} {cwd root : Place} {folder : Path} {t u v : Tree} {session : OpenSession}
  {records : List UndoRecord} {store : TagStore}

/-- No file was moved away from where, outside of the folder, a directory had to be for another target. -/
def UndoRecord.Unblocked (cwd : Place) (folder : Path) (records : List UndoRecord) : Prop :=
  ∀ r ∈ records, r.mode = .move → ∀ m ∈ records, m.target.startsWith folder = false →
    r.source.place cwd <+: m.target.place cwd → r.source.place cwd = m.target.place cwd

instance : Decidable (UndoRecord.Unblocked cwd folder records) :=
  inferInstanceAs (Decidable (∀ r ∈ records, r.mode = .move → ∀ m ∈ records, _ → _ → _))

namespace Rollback

/-- Outside of the folder, the directories on the way to a target may be left. Wherever a target was, those on
its way may go. -/
def leeway (cwd : Place) (folder : Path) (records : List UndoRecord) : Leeway where
  left := {q | ∃ r ∈ records, r.target.startsWith folder = false ∧ q <+: r.target.place cwd ∧ q ≠ r.target.place cwd}
  lost := {q | ∃ r ∈ records, q <+: r.target.place cwd ∧ q ≠ r.target.place cwd}

lemma rising_leeway (cwd : Place) (folder : Path) (records : List UndoRecord) : Rising (leeway cwd folder records) := by
  rintro q m ⟨r, hr, hout, hpre, -⟩
  refine ⟨r, hr, hout, (List.prefix_append q [m]).trans hpre, ?_⟩
  rintro rfl
  have hlen := hpre.length_le
  rw [List.length_append, List.length_singleton] at hlen
  omega

lemma apt_leeway (hstraight : ∀ r ∈ records, r.Straight cwd root) (hclear : UndoRecord.Unblocked cwd folder records)
    (hsource : ∀ r ∈ records, r.source.place cwd ≠ UndoLog.place root) :
    ∀ r ∈ records, Apt (leeway cwd folder records) cwd root folder r := fun r hr =>
  { log := (hstraight r hr).clear
    outside := fun hout _ hq hne => ⟨r, hr, hout, hq, hne⟩
    emptied := fun _ hq hne => ⟨r, hr, hq, hne⟩
    source := fun hmove => ⟨hsource r hr, fun ⟨m, hm, hout, hpre, hne⟩ => hne (hclear r hr hmove m hm hout hpre)⟩ }

end Rollback

namespace OpenSession

/-- The log of a session tells of its records. -/
lemma Kept.log_eq (h : session.Kept folder root u) (hsome : session.records ≠ []) :
    ∃ (log : UndoLog) (a : Attrs), log.records = session.records ∧ u.node? (UndoLog.place root) = some (.file log.bytes a) ∧
      log.Legible ∧ log.canUndo = true := by
  cases hlog : session.log with
  | none => exact absurd (by simp [OpenSession.records, hlog]) hsome
  | some log =>
    have hrecords : log.records = session.records := by simp [OpenSession.records, hlog]
    obtain ⟨-, hmode, hlegible, a, hfile⟩ := h.log log hlog
    refine ⟨log, a, hrecords, hfile, hlegible, ?_⟩
    rw [← hrecords] at hsome
    simpa [UndoLog.canUndo, hmode] using hsome

/-- What is done when the log is in its place, whatever else has become of the tree. -/
lemma Kept.run_eq (hreach : UndoLog.Reachable folder root) (h : session.Kept folder root u) (hsome : session.records ≠ [])
    (hs : v.Sound) (hp : v.Plain) (hlog : v.node? (UndoLog.place root) = u.node? (UndoLog.place root))
    (store : TagStore) :
    Rollback.run who folder v store =
      let p := Rollback.steps who folder session.records { tree := v, store }
      if p.report.success then
        match UndoLog.remove who folder p.tree with
        | (.error e, t) => (.error e, t, p.store)
        | (.ok (), t) => (.ok p.report, t, p.store)
      else (.ok p.report, p.tree, p.store) := by
  obtain ⟨log, a, hrecords, hfile, hlegible, hundo⟩ := h.log_eq hsome
  rw [← hrecords]
  exact Rollback.run_eq hreach hs hp (hlog.trans hfile) hlegible hundo store

/-- A step that fails is reported. -/
lemma Kept.run_errors (hreach : UndoLog.Reachable folder root) (h : session.Kept folder root u) (hsome : session.records ≠ [])
    (hs : u.Sound) (hp : u.Plain)
    (hfail : (Rollback.steps who folder session.records { tree := u, store }).report.success = false)
    {report : RollbackReport} {store' : TagStore} (hrun : Rollback.run who folder u store = (.ok report, v, store')) :
    report.errors ≠ [] := by
  rw [h.run_eq hreach hsome hs hp rfl] at hrun
  dsimp only at hrun
  rw [hfail, if_neg Bool.false_ne_true] at hrun
  obtain rfl := Except.ok.inj (Prod.mk.inj hrun).1
  intro hnone
  rw [RollbackReport.success, hnone] at hfail
  cases hfail

end OpenSession

namespace Account

lemma log_eq (h : Account cwd root folder t session [] u) (hsome : session.records ≠ []) :
    ∃ (log : UndoLog) (a : Attrs), log.records = session.records ∧ u.node? (UndoLog.place root) = some (.file log.bytes a) ∧
      log.Legible ∧ log.canUndo = true := h.kept.log_eq hsome

/-- What a session accounts for is taken back. -/
lemma run_back (hreach : UndoLog.Reachable folder root) (hw : UndoLog.Writable root t)
    (h : Account who.cwd root folder t session [] u) (hsome : session.records ≠ [])
    (hstraight : ∀ r ∈ session.records, r.Straight who.cwd root)
    (hclear : UndoRecord.Unblocked who.cwd folder session.records) (store : TagStore) :
    ∃ report v u' store', Rollback.run who folder u store = (.ok report, u', store') ∧ report.errors = [] ∧
      Rollback.Back (Rollback.leeway who.cwd folder session.records) root t v ∧
      v.Sets u' (UndoLog.place root) none := by
  obtain ⟨log, a, hrecords, hfile, hlegible, hundo⟩ := h.log_eq hsome
  have htell := h.told
  have hsource := h.sources
  rw [List.append_nil] at htell hsource
  have hapt := Rollback.apt_leeway hstraight hclear hsource
  rw [← hrecords] at htell hapt ⊢
  exact Rollback.run_back (Rollback.rising_leeway _ _ _) hreach hw.dir hw.unlocked hw.not_isDirAt htell hapt h.sound
    h.plain hfile hlegible hundo

lemma run_eq (hreach : UndoLog.Reachable folder root) (h : Account who.cwd root folder t session [] u)
    (hsome : session.records ≠ []) (hs : v.Sound) (hp : v.Plain)
    (hlog : v.node? (UndoLog.place root) = u.node? (UndoLog.place root)) (store : TagStore) :
    Rollback.run who folder v store =
      let p := Rollback.steps who folder session.records { tree := v, store }
      if p.report.success then
        match UndoLog.remove who folder p.tree with
        | (.error e, t) => (.error e, t, p.store)
        | (.ok (), t) => (.ok p.report, t, p.store)
      else (.ok p.report, p.tree, p.store) := h.kept.run_eq hreach hsome hs hp hlog store

lemma load (hreach : UndoLog.Reachable folder root) (h : Account cwd root folder t session [] u)
    (hsome : session.records ≠ []) (hs : v.Sound) (hp : v.Plain)
    (hlog : v.node? (UndoLog.place root) = u.node? (UndoLog.place root)) (who : Actor) :
    ∃ log : UndoLog, log.records = session.records ∧ UndoLog.load who v folder = .ok (some log) := by
  obtain ⟨log, a, hrecords, hfile, hlegible, -⟩ := h.log_eq hsome
  exact ⟨log, hrecords, hreach.load who hs hp (hlog.trans hfile) hlegible⟩

end Account

namespace Round

/-- The standing that a session begins with. -/
def outset (folder : Path) (t : Tree) (store : TagStore) : Standing := ⟨t, store, { folder := folder, mode := .move }, []⟩

/-- A machine's job with these actions and one file, in the directory of the other examples. -/
def plain (actions : List Action) (path : String) : Round := ⟨Job.plainJob actions, ⟨"/r"⟩, [Job.found path]⟩

/-- What that machine notes of a move. -/
def moved (source target : String) : UndoRecord := ⟨⟨source⟩, ⟨target⟩, .move, ⟨0, 0⟩⟩

lemma reachable_plain : UndoLog.Reachable ⟨"/r"⟩ ["r"] := ⟨by decide, by decide, by decide⟩

lemma plain_twoFiles : Job.twoFiles.Plain := plain_of_entries (by decide)

lemma writable_twoFiles : UndoLog.Writable ["r"] Job.twoFiles :=
  ⟨by decide, by decide, Or.inl (at?_eq_none.1 (by rfl))⟩

end Round

namespace Job

variable {j : Job} {root' : Path} {files : List FileInfo} {rs : List FileResult} {b : Batch}

/-- A batch that is applied is the first one of a session. -/
lemma apply_round (hfolder : j.absoluteRoot root' = .ok folder) (hmode : j.mode = .move)
    (h : j.apply root' files t store = .ok (rs, b)) (hsession : b.session = some session) :
    Round.runAll [⟨j, folder, files⟩] (Round.outset folder t store) = ⟨b.work.tree, b.work.store, session, rs⟩ := by
  unfold apply at h
  rw [hfolder, hmode] at h
  dsimp only at h
  rw [Round.runAll_cons, Round.runAll_nil, Round.run, Round.outset]
  dsimp only
  rw [h]
  simp [hsession]

lemma apply_session {x : Except ProfileFault (List FileResult × Batch)} {session : OpenSession}
    (h : x.toOption.bind (·.2.session) = some session) : ∃ rs b, x = .ok (rs, b) ∧ b.session = some session := by
  cases x with
  | error e => cases h
  | ok y => exact ⟨y.1, y.2, rfl, h⟩

lemma plain_isNoted {actions : List Action} (h : ∀ a ∈ actions, a.isNoted = true) :
    (plainJob actions).IsNoted plainHost.cwd where
  here := rfl
  now := show Instant.ofLenient? (plainHost.now.text "Z") = some plainHost.now by decide
  actions r hr := by
    obtain rfl := List.mem_singleton.1 hr
    exact h

end Job

lemma Round.account_plain {actions : List Action} (hnoted : ∀ a ∈ actions, a.isNoted = true)
    (hfits : AllFit [] ["r"] [plain actions "/r/a.txt"] (outset ⟨"/r"⟩ Job.twoFiles .empty))
    (hok : ∀ e ∈ (runAll [plain actions "/r/a.txt"] (outset ⟨"/r"⟩ Job.twoFiles .empty)).entries, e.status ≠ .failed)
    (hstraight : ∀ r ∈ (runAll [plain actions "/r/a.txt"] (outset ⟨"/r"⟩ Job.twoFiles .empty)).session.records,
      r.Straight [] ["r"]) :
    Account Job.plainHost.toActor.cwd ["r"] ⟨"/r"⟩ Job.twoFiles
      (runAll [plain actions "/r/a.txt"] (outset ⟨"/r"⟩ Job.twoFiles .empty)).session []
      (runAll [plain actions "/r/a.txt"] (outset ⟨"/r"⟩ Job.twoFiles .empty)).tree := by
  have hjobs : ∀ r ∈ [plain actions "/r/a.txt"], r.job.IsNoted Job.plainHost.toActor.cwd :=
    List.forall_mem_singleton.2 (Job.plain_isNoted hnoted)
  have hfair := runAll_fair (by simp [Job.plainHost]) reachable_plain _ hjobs hfits hok fun _ =>
    .start Job.sound_twoFiles plain_twoFiles writable_twoFiles
  exact hfair hstraight

end FileOrganizer
