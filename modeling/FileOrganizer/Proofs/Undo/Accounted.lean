import FileOrganizer.Proofs.Tree.AllOrNothing
import FileOrganizer.Proofs.Undo.Spelling

/-! What a rollback accounts for, whatever the log tells: every record is counted once, no file is overwritten, and files
that no target is at or above stay. The log goes in the end if nothing went wrong and its directory can be changed. -/

namespace FileOrganizer

open FileOrganizer.Tree FileOrganizer.Disk

variable {who : Actor} {cwd q : Place} {t t₁ t' : Tree} {folder source target : Path} {b : ByteArray} {r : UndoRecord}

/-- A move that comes off finds directories made on the way, and takes the whole thing. -/
lemma Disk.moveFile_moves (hs : t.Sound) (hp : t.Plain) (h : moveFile who source target t = (.ok (), t')) :
    ∃ t₁, t₁.Sound ∧ t.AddsDirs t₁ ∧ t₁.MovedWhole t' (source.place who.cwd) (target.place who.cwd) := by
  obtain ⟨_, t₁, hclear, h⟩ := Disk.bind_eq_ok h
  obtain ⟨hs₁, hpaved, hno⟩ := clear_cases hs hclear
  have hadd := (hpaved.addsDirs hs).2
  have hp₁ := hadd.plain hp
  rw [run_bind, run_get] at h
  dsimp only at h
  cases hren : Tree.rename who source target t₁ with
  | ok t₂ =>
    rw [hren] at h
    cases h
    exact ⟨t₁, hs₁, hadd, movedWhole_of_rename hs₁ hp₁ (hno rfl) hren⟩
  | error e =>
    rw [hren] at h
    dsimp only at h
    split at h
    · obtain ⟨_, t₂, hexplain, hremove⟩ := Disk.bind_eq_ok h
      have hcopy := explain_eq_ok hexplain
      obtain ⟨_, t₃, hclear', hduplicate⟩ := Disk.bind_eq_ok hcopy
      obtain ⟨hs₃, hpaved', hno'⟩ := clear_cases hs₁ hclear'
      have hadd' := (hpaved'.addsDirs hs₁).2
      have hp₃ := hadd'.plain hp₁
      have hwhole := copiedWhole_of_duplicate hs₃ hp₃ (hno' rfl) hduplicate
      exact ⟨t₃, hs₃, hadd.trans hadd',
        movedWhole_of_copy (copyFile_cases hs₁ hcopy).1 hp₃ hs₃ hwhole (change_eq_ok hremove)⟩
    · cases h

namespace UndoRecord

/-- A record takes files away only from its target downward, and puts none where another is. What a move takes away is
below the source then as it was below the target. -/
def Takes (cwd : Place) (r : UndoRecord) (t t' : Tree) : Prop :=
  ∀ q b, t.bytes? q = some b → t'.bytes? q = some b ∨ t'.bytes? q = none ∧
    ∃ z, q = r.target.place cwd ++ z ∧ (r.mode = .move → t'.bytes? (r.source.place cwd ++ z) = some b)

lemma takes_of_keeps (h : t.Keeps t') : r.Takes cwd t t' := fun q b hb => Or.inl (h q b hb)

lemma takes_of_moved (hs : t₁.Sound) (hadd : t.AddsDirs t₁)
    (h : t₁.MovedWhole t' (r.target.place cwd) (r.source.place cwd)) : r.Takes cwd t t' := by
  intro q b hb
  have hb₁ : t₁.bytes? q = some b := (hadd.bytes? q).trans hb
  by_cases hbelow : r.target.place cwd <+: q
  · obtain ⟨z, rfl⟩ := hbelow
    obtain ⟨a, ha⟩ := bytes?_eq_some.1 hb₁
    have harrived : t'.at? (r.source.place cwd ++ z) = some (.file b a) := (h.arrived z).trans (at?_file.2 ha)
    refine Or.inr ⟨bytes?_eq_none.2 fun b' a' hf => ?_, z, rfl, fun _ => bytes?_eq_some.2 ⟨a, at?_file.1 harrived⟩⟩
    rw [h.gone] at hf
    cases hf
  · have hvacant : ¬r.source.place cwd <+: q := by
      rintro ⟨z, rfl⟩
      obtain ⟨a, ha⟩ := bytes?_eq_some.1 hb₁
      rcases eq_or_ne z [] with rfl | hz
      · rw [List.append_nil, h.vacant] at ha
        cases ha
      · rw [hs.node?_below z hz (not_isDirAt_of_none h.vacant)] at ha
        cases ha
    rcases h.other q hbelow hvacant with hsame | ⟨-, hnone, -⟩
    · exact Or.inl ((bytes?_congr hsame).trans hb₁)
    · obtain ⟨a, ha⟩ := bytes?_eq_some.1 hb₁
      rw [hnone] at ha
      cases ha

lemma takes_of_removed (hmode : r.mode = .copy) (h : ∀ q, r.target.place cwd ≠ q → t'.bytes? q = t.bytes? q)
    (hnone : t'.bytes? (r.target.place cwd) = none) : r.Takes cwd t t' := by
  intro q b hb
  rcases eq_or_ne (r.target.place cwd) q with rfl | hne
  · exact Or.inr ⟨hnone, [], (List.append_nil _).symm, fun hmove => by simp [hmode] at hmove⟩
  · exact Or.inl ((h q hne).trans hb)

lemma Takes.congr (h : r.Takes cwd t t₁) (hsame : ∀ q, t'.bytes? q = t₁.bytes? q) : r.Takes cwd t t' := by
  intro q b hb
  simp only [hsame]
  exact h q b hb

lemma Takes.outside (h : r.Takes cwd t t') (hq : ¬r.target.place cwd <+: q) (hb : t.bytes? q = some b) :
    t'.bytes? q = some b := by
  rcases h q b hb with hkept | ⟨-, z, rfl, -⟩
  · exact hkept
  · exact absurd (List.prefix_append _ z) hq

end UndoRecord

/-- How many records were dealt with. -/
def RollbackReport.total (r : RollbackReport) : Nat := r.restored + r.copies + r.missing + r.kept + r.errors.length

namespace Rollback

variable {p : Progress} {records : List UndoRecord} {store : TagStore}

/-- A record has been dealt with: it counts once, and files went away only as it tells. -/
structure Dealt (cwd : Place) (r : UndoRecord) (p p' : Progress) : Prop where
  sound : p'.tree.Sound
  counted : p'.report.total = p.report.total + 1
  files : r.Takes cwd p.tree p'.tree

lemma total_wrong (p : Progress) (e : String) : (wrong p e).report.total = p.report.total + 1 := by
  simp only [wrong, RollbackReport.total, List.length_append, List.length_singleton]
  omega

lemma takeBack_dealt (who : Actor) (r : UndoRecord) (hs : p.tree.Sound) (hp : p.tree.Plain) :
    Dealt who.cwd r p (takeBack who p r).1 := by
  have hstays : r.Takes who.cwd p.tree p.tree := UndoRecord.takes_of_keeps (.refl _)
  unfold takeBack
  split
  · exact ⟨hs, by simp only [RollbackReport.total]; omega, hstays⟩
  cases hmode : r.mode with
  | move =>
    dsimp only
    split
    · exact ⟨hs, total_wrong _ _, hstays⟩
    rcases hmove : moveFile who r.target r.source p.tree with ⟨e | u, t₁⟩
    · obtain ⟨hs₁, hadds⟩ := moveFile_adds hs hmove
      exact ⟨hs₁, total_wrong _ _, UndoRecord.takes_of_keeps hadds.keeps⟩
    · obtain ⟨t₂, hs₂, hadd, hwhole⟩ := moveFile_moves hs hp hmove
      refine ⟨(moveFile_cases hs hmove).1, ?_, UndoRecord.takes_of_moved hs₂ hadd hwhole⟩
      simp only [RollbackReport.total]
      omega
  | copy =>
    dsimp only
    split
    · cases hremove : Tree.removeDir who r.target p.tree with
      | error e => exact ⟨hs, by simp only [RollbackReport.total]; omega, hstays⟩
      | ok t₁ =>
        refine ⟨sound_of_removeDir hs hremove, by simp only [RollbackReport.total]; omega, ?_⟩
        exact UndoRecord.takes_of_keeps fun q b hb => (removeDir_leaves hremove q).trans hb
    · cases hremove : Tree.removeFile who r.target p.tree with
      | error e => exact ⟨hs, total_wrong _ _, hstays⟩
      | ok t₁ =>
        refine ⟨sound_of_removeFile hs hremove, by simp only [RollbackReport.total]; omega, ?_⟩
        obtain ⟨d, n, x, hpar, -, -, -, -, hsets⟩ := removeFile_ok hremove
        rw [← parentOf_place hp hpar] at hsets
        exact UndoRecord.takes_of_removed hmode (fun q hq => bytes?_congr (hsets.other hq))
          (bytes?_eq_none.2 fun b a hf => by simp [hsets.same] at hf)

lemma report_tidy (who : Actor) (folder target : Path) (p : Progress) : (tidy who folder p target).report = p.report := by
  unfold tidy
  split <;> rfl

lemma step_dealt (who : Actor) (folder : Path) (r : UndoRecord) (hs : p.tree.Sound) (hp : p.tree.Plain) :
    Dealt who.cwd r p (step who folder p r) := by
  have htaken := takeBack_dealt who r hs hp
  rw [step_eq]
  split
  · have htidy := tidy_leaves who folder r.target (takeBack who p r).1 htaken.sound
    exact ⟨(htidy []).1, by rw [report_tidy]; exact htaken.counted, htaken.files.congr fun q => (htidy q).2⟩
  · exact htaken

/-- All records have been dealt with, and whatever is not at or below a target is where it was. -/
structure AllDealt (cwd : Place) (records : List UndoRecord) (p p' : Progress) : Prop where
  sound : p'.tree.Sound
  plain : p'.tree.Plain
  counted : p'.report.total = p.report.total + records.length
  others : ∀ q b, p.tree.bytes? q = some b → (∀ r ∈ records, ¬r.target.place cwd <+: q) → p'.tree.bytes? q = some b

lemma steps_dealt (who : Actor) (folder : Path) (hs : p.tree.Sound) (hp : p.tree.Plain) (records : List UndoRecord) :
    AllDealt who.cwd records p (steps who folder records p) := by
  induction records with
  | nil => exact ⟨hs, hp, rfl, fun q b hb _ => hb⟩
  | cons m ms ih =>
    have hstep := step_dealt who folder m ih.sound ih.plain
    rw [steps_cons]
    refine ⟨hstep.sound, step_plain ih.sound ih.plain, ?_, fun q b hb hq => ?_⟩
    · rw [hstep.counted, ih.counted, List.length_cons]
      omega
    · have hbefore := ih.others q b hb fun r hr => hq r (List.mem_cons_of_mem m hr)
      exact hstep.files.outside (hq m List.mem_cons_self) hbefore

end Rollback

namespace UndoLog

/-- The place that the path of the log spells. -/
abbrev seat (who : Actor) (folder : Path) : Place := (file folder).place who.cwd

lemma read_of_load {log : UndoLog} (h : load who t folder = .ok (some log)) :
    ∃ b, t.read who.cwd (file folder) = .ok b := by
  unfold load at h
  split at h
  · cases hread : t.read who.cwd (file folder) with
    | ok b => exact ⟨b, rfl⟩
    | error e =>
      have htext : t.readText who.cwd (file folder) = .error (.os e) := by rw [Tree.readText, hread]
      rw [htext] at h
      cases h
  · cases h

/-- A log that is read has been reached downward, if there is no `..` in the path. -/
lemma descent_of_read (hs : t.Sound) (hp : t.Plain) (hup : Part.up ∉ folder.parts)
    (h : t.read who.cwd (file folder) = .ok b) : ∃ l n, Descent (file folder) (l ++ [n]) := by
  obtain ⟨d, n, hpar⟩ := parentOf_of_read hs hp h
  have hup' : Part.up ∉ (file folder).parts := by
    rw [file, Path.parts_child proper_fileName]
    simpa using hup
  obtain ⟨l, hdesc, -⟩ := descent_of_parentOf hp hup' hpar
  exact ⟨l, n, hdesc⟩

end UndoLog

namespace Rollback

variable {records : List UndoRecord} {p : Progress} {store : TagStore}

/-- How far a rollback has come when these records, the last ones of the log, have been dealt with. -/
abbrev after (who : Actor) (folder : Path) (t : Tree) (store : TagStore) (records : List UndoRecord) : Progress :=
  steps who folder records { tree := t, store }

/-- How a rollback ends that has come so far. The log stays if something went wrong, and where it cannot be removed; that
it cannot is all that is told then. -/
inductive Ended (who : Actor) (folder : Path) (p : Progress) : Except Fault RollbackReport × Tree × TagStore → Prop
  | failed (errors : p.report.errors ≠ []) : Ended who folder p (.ok p.report, p.tree, p.store)
  | cleared {u : Tree} (errors : p.report.errors = [])
      (unlocked : p.tree.isLocked (UndoLog.seat who folder).dropLast ≠ true)
      (gone : p.tree.Sets u (UndoLog.seat who folder) none) : Ended who folder p (.ok p.report, u, p.store)
  | denied (errors : p.report.errors = []) (locked : p.tree.isLocked (UndoLog.seat who folder).dropLast = true) :
      Ended who folder p (.error (.os .denied), p.tree, p.store)

lemma Ended.other {x : Except Fault RollbackReport × Tree × TagStore} (h : Ended who folder p x)
    (hq : q ≠ UndoLog.seat who folder) : x.2.1.bytes? q = p.tree.bytes? q := by
  cases h with
  | failed errors => rfl
  | cleared errors unlocked gone => exact bytes?_congr (gone.other (Ne.symm hq))
  | denied errors locked => rfl

/-- Every record of the log counts once, no file is overwritten by any step, files that no record's target is at or above
stay, the log as well until the end, and then it goes if nothing went wrong. -/
structure Accounted (who : Actor) (folder : Path) (records : List UndoRecord) (t : Tree) (store : TagStore)
    (x : Except Fault RollbackReport × Tree × TagStore) : Prop where
  counted : (after who folder t store records).report.total = records.length
  files : ∀ m ms, m :: ms <:+ records →
    m.Takes who.cwd (after who folder t store ms).tree (after who folder t store (m :: ms)).tree
  others : ∀ q b, t.bytes? q = some b → (∀ r ∈ records, ¬r.target.place who.cwd <+: q) → q ≠ UndoLog.seat who folder →
    x.2.1.bytes? q = some b
  log : (after who folder t store records).tree.bytes? (UndoLog.seat who folder) = t.bytes? (UndoLog.seat who folder)
  ended : Ended who folder (after who folder t store records) x

lemma run_nothing {found : Option UndoLog} (hload : UndoLog.load who t folder = .ok found)
    (hidle : ∀ log ∈ found, log.canUndo = false) : run who folder t store = (.ok { nothing := true }, t, store) := by
  unfold run
  rw [hload]
  cases found with
  | none => rfl
  | some log =>
    dsimp only
    rw [if_pos (by simp [hidle log rfl])]

/-- A log that is there still is removed at the end, if it can be and nothing went wrong. -/
lemma run_ended {log : UndoLog} {b : ByteArray} (hload : UndoLog.load who t folder = .ok (some log))
    (hundo : log.canUndo = true) (hdesc : ∃ l n, Descent (UndoLog.file folder) (l ++ [n]))
    (hs : (after who folder t store log.records).tree.Sound) (hp : (after who folder t store log.records).tree.Plain)
    (hlog : (after who folder t store log.records).tree.bytes? (UndoLog.seat who folder) = some b) :
    Ended who folder (after who folder t store log.records) (run who folder t store) := by
  obtain ⟨a, ha⟩ := bytes?_eq_some.1 hlog
  have hrun := run_undo hload hundo store
  dsimp only at hrun
  by_cases herrors : (after who folder t store log.records).report.errors = []
  · have hsuccess : (after who folder t store log.records).report.success = true := by
      rw [RollbackReport.success, herrors]
      rfl
    rw [if_pos hsuccess] at hrun
    by_cases hlock : (after who folder t store log.records).tree.isLocked (UndoLog.seat who folder).dropLast = true
    · rw [UndoLog.remove_denied who hs hp hdesc ha hlock] at hrun
      exact hrun ▸ .denied herrors hlock
    · obtain ⟨u, hremove, hsets⟩ := UndoLog.remove_goes who hs hp hdesc ha hlock
      rw [hremove] at hrun
      exact hrun ▸ .cleared herrors hlock hsets
  · have hsuccess : ¬(after who folder t store log.records).report.success = true := by
      rwa [RollbackReport.success, List.isEmpty_iff]
    rw [if_neg hsuccess] at hrun
    exact hrun ▸ .failed herrors

/-- Without a log that can be undone nothing is done. With one, whatever it tells but of itself and the directories above
it, every record is accounted for. -/
theorem run_accounts (hs : t.Sound) (hp : t.Plain) (hup : Part.up ∉ folder.parts)
    (hlead : ∀ log, UndoLog.load who t folder = .ok (some log) →
      ∀ r ∈ log.records, ¬r.target.place who.cwd <+: UndoLog.seat who folder) :
    (∀ found, UndoLog.load who t folder = .ok found → (∀ log ∈ found, log.canUndo = false) →
      run who folder t store = (.ok { nothing := true }, t, store)) ∧
    ∀ log, UndoLog.load who t folder = .ok (some log) → log.canUndo = true →
      Accounted who folder log.records t store (run who folder t store) := by
  refine ⟨fun found => run_nothing, fun log hload hundo => ?_⟩
  obtain ⟨b, hread⟩ := UndoLog.read_of_load hload
  have hseat : t.bytes? (UndoLog.seat who folder) = some b := bytes?_of_read hs hp hread
  have hdealt := fun ms => steps_dealt who folder (p := { tree := t, store }) hs hp ms
  obtain ⟨hs', hp', hcounted, hothers⟩ := hdealt log.records
  have hstays := hothers _ _ hseat (hlead log hload)
  have hended := run_ended hload hundo (UndoLog.descent_of_read hs hp hup hread) hs' hp' hstays
  refine ⟨hcounted.trans (Nat.zero_add _), fun m ms _ => ?_, fun q b hb hq hne => ?_, hstays.trans hseat.symm, hended⟩
  · rw [after, after, steps_cons]
    exact (step_dealt who folder m (hdealt ms).sound (hdealt ms).plain).files
  · exact (hended.other hne).trans (hothers q b hb hq)

theorem run_accounts_passing : (passing.tree.Sound ∧ passing.tree.Plain ∧ Part.up ∉ (⟨"/r"⟩ : Path).parts) ∧
    ∃ log, UndoLog.load Job.plainHost.toActor passing.tree ⟨"/r"⟩ = .ok (some log) ∧
      (∀ r ∈ log.records, ¬r.target.place [] <+: UndoLog.seat Job.plainHost.toActor ⟨"/r"⟩) ∧
      Accounted Job.plainHost.toActor ⟨"/r"⟩ log.records passing.tree passing.store
        (run Job.plainHost.toActor ⟨"/r"⟩ passing.tree passing.store) := by
  obtain ⟨hacc, hsome⟩ := account_passing
  have hup : Part.up ∉ (⟨"/r"⟩ : Path).parts := by decide
  obtain ⟨log, a, hrecords, hfile, hlegible, hundo⟩ := hacc.log_eq hsome
  have hload := Round.reachable_plain.load Job.plainHost.toActor hacc.sound hacc.plain hfile hlegible
  have hlead : ∀ r ∈ log.records, ¬r.target.place [] <+: UndoLog.seat Job.plainHost.toActor ⟨"/r"⟩ := by
    rw [hrecords, records_passing]
    decide
  refine ⟨⟨hacc.sound, hacc.plain, hup⟩, log, hload, hlead, ?_⟩
  refine (run_accounts hacc.sound hacc.plain hup fun found hfound => ?_).2 log hload hundo
  obtain rfl : log = found := by simpa using hload.symm.trans hfound
  exact hlead

/-- A log of which the one record tells of a file that is gone. -/
def stale : UndoLog := ⟨"session", ⟨"/r"⟩, .move, ⟨0, 0⟩, [Round.moved "/r/a.txt" "/r/b.txt"]⟩

/-- It is kept in a directory that is protected. -/
def sealedIn : Tree := ⟨[
  (["r"], .dir ⟨⟨0, 0⟩, true⟩),
  (["r", UndoLog.fileName], .file stale.bytes ⟨⟨0, 0⟩, false⟩)]⟩

/-- Nothing goes wrong with the record, but then the log cannot be removed, and the report is lost. -/
theorem run_accounts_fails : ¬∀ (who : Actor) (folder : Path) (t : Tree) (store : TagStore) (log : UndoLog), t.Sound →
    t.Plain → Part.up ∉ folder.parts → UndoLog.load who t folder = .ok (some log) → log.canUndo = true →
    (∀ r ∈ log.records, Part.up ∉ r.source.parts ∧ Part.up ∉ r.target.parts ∧
      ¬r.source.place who.cwd <+: UndoLog.seat who folder ∧ ¬r.target.place who.cwd <+: UndoLog.seat who folder) →
    ∃ report t' store', run who folder t store = (.ok report, t', store') ∧ report.total = log.records.length ∧
      (t'.node? (UndoLog.seat who folder) = none ↔ report.errors = []) := by
  intro hall
  have hlegible : stale.Legible := ⟨show Instant.ofLenient? _ = _ by decide, List.forall_mem_singleton.2
    (show Instant.ofLenient? _ = _ by decide)⟩
  have hload : UndoLog.load Job.plainHost.toActor sealedIn ⟨"/r"⟩ = .ok (some stale) :=
    UndoLog.load_of_read hlegible (by rfl)
  obtain ⟨report, t', store', hrun, -, -⟩ := hall Job.plainHost.toActor ⟨"/r"⟩ sealedIn .empty stale
    (sound_of_entries (by decide)) (plain_of_entries (by decide)) (by decide) hload (by decide) (by decide)
  obtain ⟨hsuccess, hdenied⟩ : (after Job.plainHost.toActor ⟨"/r"⟩ sealedIn .empty stale.records).report.success = true ∧
      (UndoLog.remove Job.plainHost.toActor ⟨"/r"⟩
        (after Job.plainHost.toActor ⟨"/r"⟩ sealedIn .empty stale.records).tree).1.isOk = false := by decide +kernel
  rw [run_undo hload (by decide) .empty] at hrun
  dsimp only at hrun
  rw [if_pos hsuccess] at hrun
  rcases hremove : UndoLog.remove Job.plainHost.toActor ⟨"/r"⟩
      (after Job.plainHost.toActor ⟨"/r"⟩ sealedIn .empty stale.records).tree with ⟨e | u, t⟩
  · rw [hremove] at hrun
    cases hrun
  · rw [hremove] at hdenied
    cases hdenied

end Rollback

end FileOrganizer
