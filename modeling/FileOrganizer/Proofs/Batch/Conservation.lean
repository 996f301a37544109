import FileOrganizer.Proofs.Batch.Archive
import FileOrganizer.Proofs.Batch.Stages
import FileOrganizer.Proofs.Batch.Task
import FileOrganizer.Scan

/-!
No content is lost: after a batch every file but the log is still somewhere, with the same bytes, and no two
are at one place. Two slips are the exception. An archive that cannot be made is removed even if
something else stands there; and a file that is put where the log is to be is written over.
-/

namespace FileOrganizer

open FileOrganizer.Tree FileOrganizer.Disk

variable {s : Setting} {mode : TransferKind} {t t' t'' t₀ : Tree} {f : FileInfo} {w w' : Workspace}

namespace Task

/-- Nothing that stands where an archive is to go, by the time the directories above it are made, is a file. -/
def Spares (s : Setting) (w : Workspace) : Task → Prop
  | .archive dir name => Archive.Clear s.host w.tree (w.claim s.host.cwd dir name).1.path
  | _ => True

/-- What a task does to the tree loses no file, if it is none that deletes or launches a program. -/
lemma perform_transports (hs : w.tree.Sound) {task : Task} (hdel : task ≠ .delete)
    (hlaunch : ∀ p as n, task ≠ .launch p as n) (hspare : task.Spares s w) :
    (task.perform s f w).2.tree.Sound ∧ w.tree.Transports (task.perform s f w).2.tree := by
  rw [perform_tree]
  have hmove : ∀ p, (moveFile s.host.toActor f.path p w.tree).2.Sound ∧
      w.tree.Transports (moveFile s.host.toActor f.path p w.tree).2 := fun p =>
    ⟨(moveFile_cases hs rfl).1, transports_of_moveFile hs rfl⟩
  have hcopy : ∀ p, (copyFile s.host.toActor f.path p w.tree).2.Sound ∧
      w.tree.Transports (copyFile s.host.toActor f.path p w.tree).2 := fun p =>
    ⟨(copyFile_cases hs rfl).1, (keeps_of_copyFile hs rfl).transports⟩
  have hextract : ∀ p, (Archive.extract s.host f.path p w.tree).2.Sound ∧
      w.tree.Transports (Archive.extract s.host f.path p w.tree).2 := fun p =>
    ⟨(Archive.extract_adds hs rfl).1, (Archive.extract_adds hs rfl).2.keeps.transports⟩
  have hdirs : ∀ p, (Disk.makeDirs s.host.toActor p w.tree).2.Sound ∧
      w.tree.Transports (Disk.makeDirs s.host.toActor p w.tree).2 := fun p =>
    ⟨(makeDirs_addsDirs hs rfl).1, (makeDirs_addsDirs hs rfl).2.keeps.transports⟩
  have hsame : w.tree.Sound ∧ w.tree.Transports w.tree := ⟨hs, (Keeps.refl _).transports⟩
  unfold treeAfter
  cases task with
  | rename newName template => exact hmove _
  | transfer m dir =>
    cases m with
    | move => exact hmove _
    | copy => exact hcopy _
  | delete => exact absurd rfl hdel
  | discard => exact hmove _
  | launch p as n => exact absurd rfl (hlaunch p as n)
  | archive dir name =>
    dsimp only
    rcases hm : Archive.write s.host f.path f.name (w.claim s.host.cwd dir name).1.path w.tree with ⟨e | a, t⟩
    · obtain ⟨hs', hk⟩ := Archive.cleanUp_keeps hs hspare hm
      exact ⟨hs', hk.transports⟩
    · exact ⟨(Archive.write_cases hs hm).1, (Archive.keeps_of_write hs hm).transports⟩
  | extract dir name => exact hextract _
  | makeDirs dir => exact hdirs _
  | addTag tag => exact hsame
  | removeTag tag => exact hsame
  | setColor color => exact hsame
  | mark tag twin => exact hsame

lemma trial_tree (task : Task) : (task.trial s f w).2.tree = w.tree := by
  cases task with
  | rename newName template => cases template <;> rfl
  | mark tag twin => cases twin <;> rfl
  | _ => rfl

end Task

namespace UndoLog

variable {who : Actor} {folder : Path} {r : Except Fault Unit}

/-- The place of the file that the log of a directory is. -/
def places (who : Actor) (folder : Path) (t : Tree) : Set Place :=
  {l | ∃ b a, t.stat who.cwd (file folder) = .ok (l, .file b a)}

lemma bytes?_of_mem_places (hs : t.Sound) {l : Place} (h : l ∈ places who folder t) : t.bytes? l ≠ none := by
  obtain ⟨b, a, h⟩ := h
  simp [bytes?_eq_some.2 ⟨a, node?_of_at? (stat_ok hs h).1⟩]

lemma write_carries {l : Place} {b : ByteArray} {a : Attrs} (ht : t.Sets t' l (some (.file b a)))
    (hst : t'.stat who.cwd (file folder) = .ok (l, .file b a))
    (hl : t.bytes? l = none ∨ l ∈ places who folder t) :
    Carries (places who folder t) (places who folder t') t t' := by
  refine ⟨id, Set.injOn_id _, fun q c hc hq => ?_⟩
  have hne : l ≠ q := by
    rintro rfl
    rcases hl with hl | hl
    · simp [hl] at hc
    · exact hq hl
  refine ⟨(bytes?_congr (ht.other hne)).trans hc, ?_⟩
  rintro ⟨b', a', hst'⟩
  rw [hst] at hst'
  cases hst'
  exact hne rfl

/-- Writing the log changes no file but the log, as long as making its directory has not led it to another. -/
lemma save_carries (hs : t.Sound) (l : UndoLog) (hfolder : l.folder = folder)
    (hlog : ∀ q ∈ places who folder (makeDirs who folder t).2, q ∈ places who folder t ∨ t.bytes? q = none)
    (h : l.save who t = (r, t')) :
    t'.Sound ∧ Carries (places who folder t) (places who folder t') t t' := by
  subst hfolder
  unfold save at h
  rw [run_bind] at h
  rcases hmk : makeDirs who l.folder t with ⟨rm, t₁⟩
  obtain ⟨hs₁, hadd⟩ := makeDirs_addsDirs hs hmk
  rw [hmk] at hlog h
  have hdirs : Carries (places who l.folder t) (places who l.folder t₁) t t₁ :=
    hadd.keeps.carries hlog
  cases rm with
  | error e =>
    cases h
    exact ⟨hs₁, hdirs⟩
  | ok a =>
    dsimp only [change] at h
    cases hw : writeFile who (file l.folder) l.toJson.pretty.toUTF8 t₁ with
    | error e =>
      rw [hw] at h
      cases h
      exact ⟨hs₁, hdirs⟩
    | ok t₂ =>
      rw [hw] at h
      cases h
      refine ⟨sound_of_writeFile hs₁ hw, hdirs.trans ?_⟩
      rcases writeFile_ok hs₁ hw with ⟨p, b, a, hp, -, ht⟩ | ⟨p, hp, -, ht⟩
      · have hat := (stat_ok hs₁ hp).1
        have hg : t₁.Grows t' := ht.grows fun y hy => by
          rw [at?_file.1 hat] at hy
          obtain rfl := Option.some.inj hy
          trivial
        obtain ⟨e, he, hat'⟩ := stat_grows hs₁ hg hp
        rw [at?_file.2 ht.same] at hat'
        obtain rfl := Option.some.inj hat'
        exact write_carries ht he (Or.inr ⟨b, a, hp⟩)
      · exact write_carries ht (stat_of_made hs₁ hp ht)
          (Or.inl (by simp [Tree.bytes?, node?_of_locate hs₁ hp]))

end UndoLog

namespace Stage

/-- The tree before the log is written, or else after the stage. -/
def calm (s : Setting) (mode : TransferKind) (folder : Path) (st : Stage) : Tree :=
  match st.deed with
  | .note .. => (makeDirs s.host.toActor folder st.work.tree).2
  | _ => st.after s mode

/-- The stage runs into neither slip: no file is where an archive is to be made, and no file is put
where the log is to be. -/
structure Harmless (s : Setting) (mode : TransferKind) (folder : Path) (st : Stage) : Prop where
  archive : ∀ f a task, st.deed = .act f a → a.judge s st.work f = .ok task → task.Spares s st.work
  log : ∀ l ∈ UndoLog.places s.host.toActor folder (st.calm s mode folder),
    l ∈ UndoLog.places s.host.toActor folder st.work.tree ∨
      st.work.tree.bytes? l = none ∧ st.work.tree.Keeps (st.calm s mode folder)

/-- The log leads to no file to which it did not lead before, and no archive is made. -/
def isPlain (s : Setting) (mode : TransferKind) (folder : Path) (st : Stage) : Bool :=
  (match st.deed with
    | .act _ (.archive _) => false
    | _ => true) &&
  match (st.calm s mode folder).stat s.host.cwd (UndoLog.file folder) with
  | .ok (l, .file ..) =>
    match st.work.tree.stat s.host.cwd (UndoLog.file folder) with
    | .ok (l', .file ..) => l = l'
    | _ => false
  | _ => true

variable {folder : Path} {st : Stage}

lemma harmless_of_isPlain (h : st.isPlain s mode folder = true) : st.Harmless s mode folder := by
  unfold isPlain at h
  rw [Bool.and_eq_true] at h
  obtain ⟨harch, hlog⟩ := h
  constructor
  · intro f a task hdeed htask
    cases task with
    | archive dir name =>
      obtain ⟨d, rfl⟩ := Action.judge_archive htask
      simp [hdeed] at harch
    | _ => trivial
  · rintro l ⟨c, a, hst⟩
    rw [show s.host.toActor.cwd = s.host.cwd from rfl] at hst
    rw [hst] at hlog
    dsimp only at hlog
    split at hlog
    · next l' c' a' hst' =>
      obtain rfl : l = l' := by simpa using hlog
      exact Or.inl ⟨c', a', hst'⟩
    · cases hlog

lemma act_transports (hs : st.work.tree.Sound) {a : Action} (hdeed : st.deed = .act f a)
    (hcmd : ∀ p as n, a ≠ .runCommand p as n) (hdel : s.config.safeMode = true ∨ a ≠ .delete)
    (hspare : ∀ task, a.judge s st.work f = .ok task → task.Spares s st.work) :
    (st.after s mode).Sound ∧ st.work.tree.Transports (st.after s mode) := by
  have hsame : st.work.tree.Sound ∧ st.work.tree.Transports st.work.tree := ⟨hs, (Keeps.refl _).transports⟩
  rw [after, hdeed]
  dsimp only
  rw [Action.run]
  split
  · exact hsame
  · next task htask =>
    split
    · rw [Task.trial_tree]
      exact hsame
    · refine Task.perform_transports hs ?_ ?_ (hspare task htask)
      · rintro rfl
        obtain ⟨ha, hsafe⟩ := Action.judge_delete htask
        rcases hdel with hdel | hdel
        · simp [hsafe] at hdel
        · exact hdel ha
      · rintro p as n rfl
        obtain ⟨p, as, n, ha⟩ := Action.judge_launch htask
        exact hcmd p as n ha

lemma transfer_transports (hs : st.work.tree.Sound) {m : PlannedTransfer} (hdeed : st.deed = .transfer m) :
    (st.after s mode).Sound ∧ st.work.tree.Transports (st.after s mode) := by
  rw [after, hdeed]
  dsimp only
  rw [Workspace.disk_eq]
  cases mode with
  | move => exact ⟨(moveFile_cases hs rfl).1, transports_of_moveFile hs rfl⟩
  | copy => exact ⟨(copyFile_cases hs rfl).1, (keeps_of_copyFile hs rfl).transports⟩

lemma carries_of_transports (hs : st.work.tree.Sound)
    (h : (st.after s mode).Sound ∧ st.work.tree.Transports (st.after s mode))
    (hcalm : st.calm s mode folder = st.after s mode) (hst : st.Harmless s mode folder) :
    (st.after s mode).Sound ∧ Carries (UndoLog.places s.host.toActor folder st.work.tree)
      (UndoLog.places s.host.toActor folder (st.after s mode)) st.work.tree (st.after s mode) := by
  have hlog := hst.log
  rw [hcalm] at hlog
  refine ⟨h.1, ?_⟩
  by_cases hE : UndoLog.places s.host.toActor folder (st.after s mode) ⊆
      UndoLog.places s.host.toActor folder st.work.tree
  · exact h.2.carries hE fun q => UndoLog.bytes?_of_mem_places hs
  · obtain ⟨l, hl, hl'⟩ := Set.not_subset.1 hE
    have hkeep := ((hlog l hl).resolve_left hl').2
    exact hkeep.carries fun q hq => (hlog q hq).imp_right And.left

/-- One stage loses no file but the log. -/
lemma after_carries (hs : st.work.tree.Sound) (hst : st.Harmless s mode folder)
    (hdeed : (∃ f a, st.deed = .act f a ∧ (∀ p as n, a ≠ .runCommand p as n) ∧
        (s.config.safeMode = true ∨ a ≠ .delete)) ∨
      (∃ m, st.deed = .transfer m) ∨ ∃ session r, st.deed = .note session r ∧ session.IsIn folder) :
    (st.after s mode).Sound ∧ Carries (UndoLog.places s.host.toActor folder st.work.tree)
      (UndoLog.places s.host.toActor folder (st.after s mode)) st.work.tree (st.after s mode) := by
  rcases hdeed with ⟨f, a, hdeed, hcmd, hdel⟩ | ⟨m, hdeed⟩ | ⟨session, r, hdeed, hin⟩
  · refine carries_of_transports hs (act_transports hs hdeed hcmd hdel fun task => hst.archive f a task hdeed) ?_ hst
    rw [calm, hdeed]
  · refine carries_of_transports hs (transfer_transports hs hdeed) ?_ hst
    rw [calm, hdeed]
  · have hlog := hst.log
    rw [calm, hdeed] at hlog
    rw [after, hdeed]
    exact UndoLog.save_carries hs (session.add s.host r) (hin.add s.host r)
      (fun q hq => (hlog q hq).imp_right And.left) rfl

end Stage

namespace Job

/-- The stages of a batch that is applied to the directory `root`, with its log in `folder`. -/
def stages (j : Job) (folder root : Path) (files : List FileInfo) (tree : Tree) (store : TagStore) :
    List Stage :=
  Batch.stages (j.setting root) j.mode j.profile files
    (start tree store (some { folder := folder, mode := j.mode }))

variable {j : Job} {root folder root' : Path} {files : List FileInfo} {store : TagStore}
  {rs : List FileResult} {b : Batch}

lemma apply_chain (hfolder : j.absoluteRoot root = .ok folder) (hroot : j.absoluteRoot folder = .ok root')
    (h : j.apply root files t store = .ok (rs, b)) :
    Stage.Chain (j.setting root') j.mode t (j.stages folder root' files t store) b.work.tree := by
  unfold apply applyIn run at h
  rw [hfolder] at h
  dsimp only at h
  rw [hroot] at h
  cases hv : j.profile.validate with
  | error e =>
    rw [hv] at h
    cases h
  | ok a =>
    rw [hv] at h
    cases h
    exact Batch.stages_chain j.profile files (start t store (some { folder := folder, mode := j.mode }))

/-- A job with a sound profile, on a root that has a place, is a batch that starts from the tree and the store. -/
lemma apply_eq (files : List FileInfo) (t : Tree) (store : TagStore) (hfolder : j.absoluteRoot root = .ok folder)
    (hroot : j.absoluteRoot folder = .ok root') (hvalid : j.profile.validate = .ok ()) :
    j.apply root files t store =
      .ok (((start t store (some { folder := folder, mode := j.mode })).run (j.setting root') j.profile j.mode files).1.map
          j.resultOf,
        ((start t store (some { folder := folder, mode := j.mode })).run (j.setting root') j.profile j.mode files).2) := by
  unfold apply applyIn Job.run
  rw [hfolder]
  dsimp only
  rw [hvalid, hroot]
  rfl

lemma start_isIn (t : Tree) (store : TagStore) (folder : Path) (mode : TransferKind) :
    (start t store (some { folder := folder, mode := mode })).IsIn folder := by
  intro session hsession
  cases hsession
  exact ⟨rfl, by simp⟩

lemma apply_run (files : List FileInfo) (t : Tree) (store : TagStore) (hfolder : j.absoluteRoot root = .ok folder)
    (hroot : j.absoluteRoot folder = .ok root') (hvalid : j.profile.validate = .ok ()) :
    ∃ b₀ : Batch, b₀.work.tree = t ∧ b₀.work.store = store ∧ b₀.IsIn folder ∧
      j.stages folder root' files t store = Batch.stages (j.setting root') j.mode j.profile files b₀ ∧
      j.apply root files t store = .ok ((b₀.run (j.setting root') j.profile j.mode files).1.map j.resultOf,
        (b₀.run (j.setting root') j.profile j.mode files).2) :=
  ⟨start t store (some { folder := folder, mode := j.mode }), rfl, rfl, start_isIn t store folder j.mode, rfl,
    apply_eq files t store hfolder hroot hvalid⟩

/-- Every file but the log is at some place with the same bytes, and no two are at one place. -/
def Conserves (who : Actor) (folder : Path) (t t' : Tree) : Prop :=
  ∃ g : Place → Place, Set.InjOn g {q | t.bytes? q ≠ none ∧ q ∉ UndoLog.places who folder t} ∧
    ∀ q, t.bytes? q ≠ none → q ∉ UndoLog.places who folder t → t'.bytes? (g q) = t.bytes? q

/-- No content is lost in a batch, if no rule launches a program, deletions are forbidden or no rule
deletes, and no stage runs into one of the two slips. -/
theorem apply_conserves (hs : t.Sound) (hfolder : j.absoluteRoot root = .ok folder)
    (hroot : j.absoluteRoot folder = .ok root')
    (hcmd : ∀ r ∈ j.profile.rules, ∀ a ∈ r.actions, ∀ p as n, a ≠ .runCommand p as n)
    (hdel : j.config.safeMode = true ∨ ∀ r ∈ j.profile.rules, .delete ∉ r.actions)
    (hharm : ∀ st ∈ j.stages folder root' files t store, st.Harmless (j.setting root') j.mode folder)
    (h : j.apply root files t store = .ok (rs, b)) : Conserves j.host.toActor folder t b.work.tree := by
  have hin := start_isIn t store folder j.mode
  have hrun := (apply_chain hfolder hroot h).keeps
    (I := fun t' => t'.Sound ∧ Carries (UndoLog.places j.host.toActor folder t)
      (UndoLog.places j.host.toActor folder t') t t') ?_ ⟨hs, .refl _ _⟩
  · obtain ⟨-, g, hinj, hg⟩ := hrun
    refine ⟨g, hinj, fun q hq hE => ?_⟩
    obtain ⟨c, hc⟩ := Option.ne_none_iff_exists'.1 hq
    rw [hc]
    exact (hg q c hc hE).1
  · rintro st hst ⟨hs', hcar⟩
    have hdeed : (∃ f a, st.deed = .act f a ∧ (∀ p as n, a ≠ .runCommand p as n) ∧
        (j.config.safeMode = true ∨ a ≠ .delete)) ∨
        (∃ m, st.deed = .transfer m) ∨ ∃ session r, st.deed = .note session r ∧ session.IsIn folder := by
      rcases Batch.mem_stages hin hst with ⟨r, hr, f, a, ha, hdeed⟩ | hdeed | hdeed
      · refine Or.inl ⟨f, a, hdeed, hcmd r hr a ha, hdel.imp_right fun hdel => ?_⟩
        rintro rfl
        exact hdel r hr ha
      · exact Or.inr (Or.inl hdeed)
      · exact Or.inr (Or.inr hdeed)
    obtain ⟨hs'', hcar'⟩ := Stage.after_carries hs' (hharm st hst) hdeed
    exact ⟨hs'', hcar.trans hcar'⟩

section

/-- A machine on which no content is known, no archive can be read and no program does anything. -/
def plainHost : Host where
  cwd := []
  now := ⟨0, 0⟩
  home := ⟨"/"⟩
  sessionId := "session"
  digest b := toString b.data
  kindOf _ := none
  pack _ b := b
  unpack _ := none
  launch _ _ _ t := (.ok 0, t)

def plainJob (actions : List Action) : Job where
  host := plainHost
  trash := ⟨"/trash"⟩
  mode := .move
  config := { fallback := false }
  profile := { rules := [{ name := "rule", actions := actions }] }

def twoFiles : Tree := ⟨[
  (["r"], .dir ⟨⟨0, 0⟩, false⟩),
  (["r", "a.txt"], .file ⟨#[1]⟩ ⟨⟨0, 0⟩, false⟩),
  (["r", "a.zip"], .file ⟨#[2]⟩ ⟨⟨0, 0⟩, false⟩)]⟩

def found (p : String) : FileInfo := FileInfo.described ⟨p⟩ 1 ⟨0, 0⟩ false

end

lemma sound_twoFiles : twoFiles.Sound := sound_of_entries (by decide)

lemma scan_twoFiles : Scope.scan plainHost.toActor { root := ⟨"/r"⟩ } twoFiles =
    [found "/r/a.txt", found "/r/a.zip"] := by
  have hnames : twoFiles.names ["r"] = ["a.txt", "a.zip"] := by
    rw [names, List.mergeSort_of_pairwise (by decide)]
    rfl
  have hst : twoFiles.stat [] ⟨"/r"⟩ = .ok (["r"], .dir ⟨⟨0, 0⟩, false⟩) := rfl
  unfold Scope.scan
  rw [show plainHost.toActor.cwd = [] from rfl, hst]
  dsimp only
  unfold Scope.scanDir
  rw [hnames]
  decide

lemma isOk_iff {ε α : Type} {x : Except ε α} : x.isOk = true ↔ ∃ a, x = .ok a := by
  cases x <;> simp [Except.isOk, Except.toBool]

/-- A file that goes into a directory that is made for it. -/
theorem apply_conserves_move : ∃ rs b,
    (plainJob [.move "docs"]).apply ⟨"/r"⟩ [found "/r/a.txt", found "/r/a.zip"] twoFiles .empty = .ok (rs, b) ∧
      Conserves plainHost.toActor ⟨"/r"⟩ twoFiles b.work.tree := by
  have hok : ((plainJob [.move "docs"]).apply ⟨"/r"⟩ [found "/r/a.txt", found "/r/a.zip"] twoFiles .empty).isOk = true := by decide +kernel
  have hplain : ((plainJob [.move "docs"]).stages ⟨"/r"⟩ ⟨"/r"⟩ [found "/r/a.txt", found "/r/a.zip"] twoFiles .empty).all
      (Stage.isPlain ((plainJob [.move "docs"]).setting ⟨"/r"⟩) .move ⟨"/r"⟩) = true := by decide +kernel
  obtain ⟨⟨rs, b⟩, hx⟩ := isOk_iff.1 hok
  refine ⟨rs, b, hx, apply_conserves (j := plainJob [.move "docs"]) sound_twoFiles rfl rfl ?_ ?_ ?_ hx⟩
  · simp [plainJob]
  · simp [plainJob]
  · exact fun st hst => Stage.harmless_of_isPlain (List.all_eq_true.1 hplain st hst)

/-- Is it no file with these bytes? -/
def lacks (bytes : Array UInt8) : Entry → Bool
  | .file b _ => b.data ≠ bytes
  | _ => true

/-- What was beside the file under the name of its archive is lost: the archive cannot be made, since the
directory on the way to it comes into being too late for the choice of its name, and the clean-up
removes what it has not made. -/
theorem apply_conserves_fails : ¬∀ (j : Job) (root folder root' : Path) (files : List FileInfo) (t : Tree)
    (store : TagStore) (rs : List FileResult) (b : Batch), t.Sound →
    (∃ scope, files = Scope.scan j.host.toActor scope t) →
    j.absoluteRoot root = .ok folder → j.absoluteRoot folder = .ok root' →
    (∀ r ∈ j.profile.rules, ∀ a ∈ r.actions, ∀ p as n, a ≠ .runCommand p as n) →
    (j.config.safeMode = true ∨ ∀ r ∈ j.profile.rules, .delete ∉ r.actions) →
    j.apply root files t store = .ok (rs, b) → Conserves j.host.toActor folder t b.work.tree := by
  intro h
  let j := plainJob [.archive (some "new/..")]
  have hlost : (j.apply ⟨"/r"⟩ [found "/r/a.txt", found "/r/a.zip"] twoFiles .empty).toOption.map
      (fun x => x.2.work.tree.entries.all fun e => lacks #[2] e.2) = some true := by decide +kernel
  cases hx : j.apply ⟨"/r"⟩ [found "/r/a.txt", found "/r/a.zip"] twoFiles .empty with
  | error e =>
    rw [hx] at hlost
    cases hlost
  | ok x =>
    obtain ⟨rs, b⟩ := x
    rw [hx] at hlost
    have hfree : b.work.tree.entries.all (fun e => lacks #[2] e.2) = true := Option.some.inj hlost
    obtain ⟨g, -, hg⟩ := h j ⟨"/r"⟩ ⟨"/r"⟩ ⟨"/r"⟩ [found "/r/a.txt", found "/r/a.zip"] twoFiles .empty rs b sound_twoFiles
      ⟨_, scan_twoFiles.symm⟩ rfl rfl (by simp [j, plainJob]) (by simp [j, plainJob]) hx
    have hbytes : twoFiles.bytes? ["r", "a.zip"] = some ⟨#[2]⟩ := rfl
    have hlog : ["r", "a.zip"] ∉ UndoLog.places j.host.toActor ⟨"/r"⟩ twoFiles := by
      rintro ⟨c, a, hst⟩
      have hno : twoFiles.has j.host.cwd (UndoLog.file ⟨"/r"⟩) = false := by decide +kernel
      simp [has_iff.2 ⟨_, _, hst⟩] at hno
    have hkept := hg ["r", "a.zip"] (by simp [hbytes]) hlog
    rw [hbytes] at hkept
    obtain ⟨a, hmem⟩ := mem_of_bytes? hkept
    have := List.all_eq_true.1 hfree _ hmem
    simp [lacks] at this

end Job

end FileOrganizer
