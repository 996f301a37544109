import FileOrganizer.Proofs.Batch.Series
import FileOrganizer.Proofs.Batch.Stages
import FileOrganizer.Proofs.Undo.Account
import FileOrganizer.Proofs.Undo.Performed

/-! A batch without a failure keeps its account: every record tells of what was done, and all that was done
has its record. -/

namespace FileOrganizer

open FileOrganizer.Tree FileOrganizer.Disk

variable {s : Setting} {f : FileInfo} {w w' : Workspace} {t u u' : Tree} {r : Effect} {root : Place}

/-- Nothing was moved or made, or just what one record tells of. -/
def Effect.Tells (s : Setting) (f : FileInfo) (r : Effect) (t t' : Tree) : Prop :=
  r.Idle ∧ t' = t ∨
    ∃ m : UndoRecord, r.records = [m] ∧ m.source = f.path ∧ m.time = s.host.now ∧
      r.newPath = (if m.mode = .move then some m.target else none) ∧ m.Did s.host.cwd t t'

namespace Task

/-- Is what the task does taken down? -/
def isNoted : Task → Bool
  | delete | launch .. | extract .. => false
  | _ => true

section

variable (hs : w.tree.Sound) (hp : w.tree.Plain) (hup : Part.up ∉ f.path.parts)
  (hfile : w.tree.bytes? (f.path.place s.host.cwd) ≠ none)

include hs hp hup hfile

lemma moveTo_tells {target : Path} {told : String} {why : Fault → String}
    (hok : (moveTo s f w target told why).1.status ≠ .failed)
    (hgood : ∀ m ∈ (moveTo s f w target told why).1.records, m.Straight s.host.cwd root) :
    (moveTo s f w target told why).1.Tells s f w.tree (moveTo s f w target told why).2.tree := by
  obtain ⟨b, hb⟩ := Option.ne_none_iff_exists'.1 hfile
  obtain ⟨a, hnode⟩ := bytes?_eq_some.1 hb
  unfold moveTo at hok hgood ⊢
  rw [Workspace.disk_eq] at hok hgood ⊢
  rcases hmove : moveFile s.host.toActor f.path target w.tree with ⟨e | _, t'⟩
  · rw [hmove] at hok
    exact absurd rfl hok
  · rw [hmove] at hgood
    obtain hm := hgood (record s f target .move) (by simp [Effect.noting, Effect.landing, Effect.applied])
    exact Or.inr ⟨_, rfl, rfl, rfl, rfl, moveFile_did hs hp hnode (hm.absolute rfl) hup hm.level hmove s.host.now⟩

/-- A task that does not fail has done just what its record tells of. -/
lemma perform_tells {task : Task} (hnoted : task.isNoted = true)
    (hdir : ∀ dir, task = .makeDirs dir → dir.isAbsolute = true ∧ w.tree.isDir s.host.cwd dir = false)
    (hok : (task.perform s f w).1.status ≠ .failed)
    (hgood : ∀ m ∈ (task.perform s f w).1.records, m.Straight s.host.cwd root) :
    (task.perform s f w).1.Tells s f w.tree (task.perform s f w).2.tree := by
  cases task with
  | rename newName template =>
    unfold perform at hok hgood ⊢
    dsimp only at hok hgood ⊢
    rw [noteTemplate_tree]
    exact moveTo_tells (w := (w.claim s.host.cwd f.parent newName).2) hs hp hup hfile hok hgood
  | transfer mode dir =>
    cases mode with
    | move =>
      unfold perform at hok hgood ⊢
      dsimp only at hok hgood ⊢
      exact moveTo_tells (w := (w.claim s.host.cwd dir f.name).2) hs hp hup hfile hok hgood
    | copy =>
      unfold perform at hok hgood ⊢
      dsimp only at hok hgood ⊢
      rw [Workspace.disk_eq, Workspace.claim_tree] at hok hgood ⊢
      rcases hcopy : copyFile s.host.toActor f.path (w.claim s.host.cwd dir f.name).1.path w.tree with ⟨e | _, t'⟩
      · rw [hcopy] at hok
        exact absurd rfl hok
      · rw [hcopy] at hgood
        obtain hm := hgood (record s f (w.claim s.host.cwd dir f.name).1.path .copy)
          (by simp [Effect.noting, Effect.making, Effect.applied])
        exact Or.inr ⟨_, rfl, rfl, rfl, rfl, copyFile_did hs hp hm.level hcopy s.host.now⟩
  | delete => cases hnoted
  | discard =>
    unfold perform at hok hgood ⊢
    dsimp only at hok hgood ⊢
    exact moveTo_tells (w := (w.claim s.host.cwd s.trash f.name).2) hs hp hup hfile hok hgood
  | launch program args timeout => cases hnoted
  | archive dir name =>
    unfold perform at hok hgood ⊢
    dsimp only at hok hgood ⊢
    rw [Workspace.disk_eq, Workspace.claim_tree] at hok hgood ⊢
    rcases hwrite : Archive.write s.host f.path f.name (w.claim s.host.cwd dir name).1.path w.tree with ⟨e | _, t'⟩
    · rw [hwrite] at hok
      exact absurd rfl hok
    · rw [hwrite] at hgood
      obtain hm := hgood (record s f (w.claim s.host.cwd dir name).1.path .copy)
        (by simp [Effect.noting, Effect.making, Effect.applied])
      exact Or.inr ⟨_, rfl, rfl, rfl, rfl, Archive.write_did hs hp hm.level hwrite s.host.now⟩
  | extract dir name => cases hnoted
  | makeDirs dir =>
    obtain ⟨habs, hno⟩ := hdir dir rfl
    unfold perform at hok hgood ⊢
    dsimp only at hok hgood ⊢
    rw [Workspace.disk_eq] at hok hgood ⊢
    rcases hmake : Disk.makeDirs s.host.toActor dir w.tree with ⟨e | _, t'⟩
    · rw [hmake] at hok
      exact absurd rfl hok
    · rw [hmake] at hgood
      obtain hm := hgood (record s f dir .copy) (by simp [Effect.noting, Effect.making, Effect.applied])
      exact Or.inr ⟨_, rfl, rfl, rfl, rfl, makeDirs_did hs hp hm.level habs hno hmake f.path s.host.now⟩
  | addTag tag =>
    refine Or.inl ⟨?_, rfl⟩
    unfold perform
    dsimp only
    split <;> exact ⟨rfl, rfl⟩
  | removeTag tag =>
    refine Or.inl ⟨?_, rfl⟩
    unfold perform
    dsimp only
    split <;> exact ⟨rfl, rfl⟩
  | setColor color => exact Or.inl ⟨⟨rfl, rfl⟩, rfl⟩
  | mark tag twin =>
    unfold perform at hok ⊢
    dsimp only at hok ⊢
    rcases hindex : w.store.index s.host w.tree f.path with ⟨e | isNew, store⟩
    · rw [hindex] at hok
      exact absurd rfl hok
    · cases twin <;> exact Or.inl ⟨⟨rfl, rfl⟩, rfl⟩

end

end Task

namespace Action

/-- Is what the action does taken down? -/
def isNoted : Action → Bool
  | delete | runCommand .. | extract _ => false
  | _ => true

lemma isNoted_task {a : Action} {task : Task} (h : a.isNoted = true) (hj : a.judge s w f = .ok task) :
    task.isNoted = true := by
  have hl := leaves_of_judge hj
  cases task with
  | delete =>
    obtain ⟨rfl, -⟩ := judge_delete hj
    exact h
  | launch program args timeout =>
    obtain ⟨_, _, _, rfl⟩ := judge_launch hj
    exact h
  | extract dir name =>
    cases a <;> first | exact h | cases hl
  | _ => rfl

lemma judge_makeDirs {a : Action} {dir : Path} (hroot : s.root.isAbsolute = true)
    (h : a.judge s w f = .ok (.makeDirs dir)) : dir.isAbsolute = true ∧ w.tree.isDir s.host.cwd dir = false := by
  have hl := leaves_of_judge h
  cases a <;> try cases hl
  case createFolder path =>
    rw [judge] at h
    obtain ⟨heq, hno⟩ := judgeFolder_ok h
    rw [Task.makeDirs.inj heq]
    refine ⟨?_, hno⟩
    rw [Template.directory, Path.isAbsolute_join (text_of_absolute hroot), hroot, Bool.true_or]

lemma run_tells {a : Action} (hnoted : a.isNoted = true) (hdry : s.config.dryRun = false)
    (hroot : s.root.isAbsolute = true) (hs : w.tree.Sound) (hp : w.tree.Plain) (hup : Part.up ∉ f.path.parts)
    (hfile : w.tree.bytes? (f.path.place s.host.cwd) ≠ none) (hok : (a.run s f w).1.status ≠ .failed)
    (hgood : ∀ m ∈ (a.run s f w).1.records, m.Straight s.host.cwd root) :
    (a.run s f w).1.Tells s f w.tree (a.run s f w).2.tree := by
  cases hj : a.judge s w f with
  | error r =>
    have hrun : a.run s f w = (r, w) := by
      unfold run
      rw [hj]
    rw [hrun]
    exact Or.inl ⟨judge_idle hj, rfl⟩
  | ok task =>
    have hrun : a.run s f w = task.perform s f w := by
      unfold run
      rw [hj]
      exact if_neg (by simp [hdry])
    rw [hrun] at hok hgood ⊢
    exact Task.perform_tells hs hp hup hfile (isNoted_task hnoted hj)
      (fun dir hdir => judge_makeDirs hroot (hj.trans (congrArg _ hdir))) hok hgood

end Action

/-- At the path, and at the places in `K`, there are files other than the log, and the path has no `..`. -/
structure Stands (cwd root : Place) (u : Tree) (K : List Place) (p : Path) : Prop where
  level : Part.up ∉ p.parts
  there : u.bytes? (p.place cwd) ≠ none
  ne_log : p.place cwd ≠ UndoLog.place root
  apart : p.place cwd ∉ K
  rest : ∀ q ∈ K, u.bytes? q ≠ none

variable {cwd : Place} {K : List Place} {p : Path} {m : UndoRecord}

/-- Where nothing was, a file has come into being that a record tells of. -/
lemma UndoRecord.Did.free (h : m.Did cwd u u') : u.bytes? (m.target.place cwd) = none := by
  obtain ⟨x, gone, ha⟩ := h.arrived
  simp [Tree.bytes?, ha.free]

/-- Something was made from the file, which is where it was, or the file was moved to another path. -/
lemma Stands.did (h : Stands cwd root u K p) (hd : m.Did cwd u u') (hgood : m.Straight cwd root)
    (hsource : m.source = p) : Stands cwd root u' K (if m.mode = .move then m.target else p) := by
  have hrest : ∀ q ∈ K, u'.bytes? q ≠ none := by
    intro q hq
    rw [hd.bytes? (fun _ heq => h.apart (hsource ▸ heq ▸ hq)) (h.rest q hq)]
    exact h.rest q hq
  split
  · next hmode =>
    refine ⟨hgood.level, ?_, fun heq => hgood.clear (heq ▸ List.prefix_rfl), fun hin => h.rest _ hin hd.free, hrest⟩
    cases hd with
    | made kind arrived => cases hmode
    | moved absolute descent slash unlocked same arrived => simp [Tree.bytes?, arrived.here]
  · next hmode =>
    refine ⟨h.level, ?_, h.ne_log, h.apart, hrest⟩
    rw [hd.bytes? (fun heq => absurd heq hmode) h.there]
    exact h.there

namespace Outcome

lemma refresh_path (hcwd : ∀ n ∈ s.host.cwd, Proper n) (w : Workspace) (f : FileInfo) :
    (refresh s w f).path.place s.host.cwd = f.path.place s.host.cwd ∧
      (Part.up ∉ f.path.parts → Part.up ∉ (refresh s w f).path.parts) := by
  unfold refresh
  split
  · exact ⟨rfl, id⟩
  · split
    · next g hread =>
      unfold FileInfo.read at hread
      split at hread
      · cases hread
      · next full hfull =>
        split at hread
        · cases hread
        · cases hread
          refine ⟨Path.place_absolute? hcwd hfull, fun hup => ?_⟩
          have hbody : Part.up ∉ f.path.body := by
            rw [Path.parts_eq] at hup
            exact fun h => hup (List.mem_append_right _ h)
          dsimp only
          rw [Path.parts_absolute? hcwd hfull]
          split <;> simp [hbody]
    · exact ⟨rfl, id⟩

/-- As long as nothing has failed, the records of the file account for what was done with it. -/
def Fair (root : Place) (folder : Path) (t : Tree) (session : OpenSession) (K : List Place) (s : Setting)
    (o : Outcome) (w : Workspace) : Prop :=
  o.success = true → (∀ m ∈ o.records, m.Straight s.host.cwd root) →
    Account s.host.cwd root folder t session o.records w.tree ∧ Stands s.host.cwd root w.tree K o.file.path

lemma success_concat {o : Outcome} {x : Step} {g : FileInfo} :
    ({ o with file := g, steps := o.steps ++ [x] } : Outcome).success = true ↔
      o.success = true ∧ x.effect.status ≠ .failed := by
  simp [success]

lemma records_concat {o : Outcome} {x : Step} {g : FileInfo} :
    ({ o with file := g, steps := o.steps ++ [x] } : Outcome).records = o.records ++ x.effect.records := by
  simp [records]

/-- The file is known by its new path if it has gone anywhere, else by the one it was found under. -/
lemma runAction_eq (hdry : s.config.dryRun = false) (o : Outcome) (rule : String) (a : Action) (w : Workspace) :
    ∃ g : FileInfo, g.path = (a.run s (refresh s w o.file) w).1.newPath.getD (refresh s w o.file).path ∧
      o.runAction s rule a w =
        ({ o with file := g, steps := o.steps ++ [⟨rule, a, (a.run s (refresh s w o.file) w).1⟩] },
          (a.run s (refresh s w o.file) w).2) := by
  unfold Outcome.runAction
  dsimp only
  split
  · next hnone => exact ⟨_, by rw [hnone]; rfl, rfl⟩
  · next p hsome =>
    rw [if_neg (by simp [hdry])]
    exact ⟨_, by rw [hsome]; rfl, rfl⟩

section

variable {folder : Path} {session : OpenSession} {o : Outcome} (hcwd : ∀ n ∈ s.host.cwd, Proper n)
  (hdry : s.config.dryRun = false) (hroot : s.root.isAbsolute = true) (hnow : s.host.now.Legible)

include hcwd hdry hroot hnow

lemma Fair.runAction {a : Action} (hnoted : a.isNoted = true) (rule : String)
    (h : o.Fair root folder t session K s w) :
    (o.runAction s rule a w).1.Fair root folder t session K s (o.runAction s rule a w).2 := by
  obtain ⟨g, hg, hrun⟩ := runAction_eq hdry o rule a w
  rw [hrun]
  intro hsuccess hgood
  obtain ⟨hbefore, hok⟩ := success_concat.1 hsuccess
  rw [records_concat] at hgood ⊢
  obtain ⟨hacc, hstands⟩ := h hbefore fun m hm => hgood m (List.mem_append_left _ hm)
  obtain ⟨hplace, hup⟩ := refresh_path hcwd w o.file
  have hstands' : Stands s.host.cwd root w.tree K (refresh s w o.file).path :=
    ⟨hup hstands.level, hplace ▸ hstands.there, hplace ▸ hstands.ne_log, hplace ▸ hstands.apart, hstands.rest⟩
  have hgood' : ∀ m ∈ (a.run s (refresh s w o.file) w).1.records, m.Straight s.host.cwd root :=
    fun m hm => hgood m (List.mem_append_right _ hm)
  dsimp only
  rcases Action.run_tells hnoted hdry hroot hacc.sound hacc.plain hstands'.level hstands'.there hok hgood' with
    ⟨⟨hrecords, hpath⟩, htree⟩ | ⟨m, hrecords, hsource, htime, hpath, hdid⟩
  · rw [hg, hrecords, hpath, htree, List.append_nil]
    exact ⟨hacc, hstands'⟩
  · have hm := hgood' m (by rw [hrecords]; exact List.mem_singleton_self m)
    have hnext := hstands'.did hdid hm hsource
    rw [hg, hrecords, hpath]
    refine ⟨hacc.did hdid hm (hsource ▸ hstands'.ne_log) (htime ▸ hnow), ?_⟩
    cases hmode : m.mode <;> simpa [hmode] using hnext

lemma Fair.runRules {rules : List Rule} (hnoted : ∀ r ∈ rules, ∀ a ∈ r.actions, a.isNoted = true)
    (h : o.Fair root folder t session K s w) :
    (Outcome.runRules s rules o w).1.Fair root folder t session K s (Outcome.runRules s rules o w).2 :=
  runRules_keeps (I := fun o w => o.Fair root folder t session K s w) h (fun _ _ _ _ h => h)
    fun r hr a ha _ _ _ h => h.runAction hcwd hdry hroot hnow (hnoted r hr a ha) r.name

end

lemma runActions_matched (rule : String) (as : List Action) (o : Outcome) (w : Workspace) :
    (runActions s rule as o w).2.1.matched = o.matched := by
  have hone : ∀ (a : Action) (o : Outcome) (w : Workspace), (o.runAction s rule a w).1.matched = o.matched := by
    intro a o w
    unfold runAction
    dsimp only
    split <;> rfl
  induction as generalizing o w with
  | nil => rfl
  | cons a as ih =>
    rw [runActions]
    dsimp only
    split
    · exact hone a o w
    · rw [ih, hone]

lemma runRules_handled {rules : List Rule} {o : Outcome} (w : Workspace) (h : o.handled = true) :
    (runRules s rules o w).1.handled = true := by
  induction rules generalizing o w with
  | nil => exact h
  | cons r rs ih =>
    rw [runRules]
    split
    · have hmatch : (runActions s r.name r.actions { o with matched := o.matched ++ [r.name] } w).2.1.handled =
          true := by
        rw [handled, runActions_matched]
        simp
      dsimp only
      split
      · exact hmatch
      · exact ih _ hmatch
    · exact ih w h

/-- Nothing is done with a file that no rule has taken. -/
lemma runRules_unhandled {rules : List Rule} {o : Outcome} {w : Workspace}
    (h : (runRules s rules o w).1.handled = false) : runRules s rules o w = (o, w) := by
  induction rules with
  | nil => rfl
  | cons r rs ih =>
    rw [runRules] at h ⊢
    split at h
    · have hmatch : (runActions s r.name r.actions { o with matched := o.matched ++ [r.name] } w).2.1.handled =
          true := by
        rw [handled, runActions_matched]
        simp
      dsimp only at h
      split at h
      · rw [hmatch] at h
        cases h
      · rw [runRules_handled _ hmatch] at h
        cases h
    · next hno =>
      rw [if_neg hno]
      exact ih h

end Outcome

namespace Batch

variable {folder : Path} {due : List UndoRecord} {b : Batch} {mode : TransferKind} {fs : List FileInfo}

/-- The session accounts for all that was done, but for what is due, and at the places in `K` there are
files. -/
def Fair (cwd root : Place) (folder : Path) (t : Tree) (K : List Place) (due : List UndoRecord) (b : Batch) : Prop :=
  ∃ session, b.session = some session ∧
    ((∀ m ∈ session.records ++ due, m.Straight cwd root) →
      Account cwd root folder t session due b.work.tree ∧ ∀ q ∈ K, b.work.tree.bytes? q ≠ none)

lemma Fair.subset {K' : List Place} (h : b.Fair cwd root folder t K due) (hK : ∀ q ∈ K', q ∈ K) :
    b.Fair cwd root folder t K' due := by
  obtain ⟨session, hsession, hfair⟩ := h
  refine ⟨session, hsession, fun hgood => ?_⟩
  obtain ⟨hacc, hfiles⟩ := hfair hgood
  exact ⟨hacc, fun q hq => hfiles q (hK q hq)⟩

/-- What is told of it does not change what was done. -/
lemma Fair.told (h : b.Fair cwd root folder t K due) (b' : Batch) (htree : b'.work.tree = b.work.tree)
    (hsession : b'.session = b.session) : b'.Fair cwd root folder t K due := by
  unfold Fair
  rw [htree, hsession]
  exact h

lemma note_eq {session : OpenSession} (host : Host) (hsession : b.session = some session) (r : UndoRecord) :
    note host b r = { b with
      session := some (session.append host r b.work.tree).2.1
      work := { b.work with tree := (session.append host r b.work.tree).2.2 } } := by
  unfold note
  rw [hsession]

section

variable {host : Host} (hreach : UndoLog.Reachable folder root) (hnow : host.now.Legible)
  (hlog : UndoLog.place root ∉ K)

include hreach hnow hlog

lemma Fair.note (h : b.Fair cwd root folder t K (m :: due)) : (note host b m).Fair cwd root folder t K due := by
  obtain ⟨session, hsession, hfair⟩ := h
  rw [note_eq host hsession]
  refine ⟨_, rfl, fun hgood => ?_⟩
  rw [OpenSession.append_records, List.append_assoc, List.singleton_append] at hgood
  obtain ⟨hacc, hfiles⟩ := hfair hgood
  obtain ⟨hnext, hsame⟩ := hacc.note hreach hnow
  refine ⟨hnext, fun q hq => ?_⟩
  rw [bytes?_congr (hsame q fun heq => hlog (heq ▸ hq))]
  exact hfiles q hq

lemma Fair.notes (h : b.Fair cwd root folder t K due) :
    (due.foldl (Batch.note host) b).Fair cwd root folder t K [] := by
  induction due generalizing b with
  | nil => exact h
  | cons r rs ih => exact ih (h.note hreach hnow hlog)

end

/-- The places of files. -/
def places (cwd : Place) (fs : List FileInfo) : List Place := fs.map (·.path.place cwd)

/-- The files that no rule has taken. -/
def untaken (fs : List FileInfo) (os : List Outcome) : List FileInfo :=
  ((fs.zip os).filter fun p => !p.2.handled).map (·.1)

lemma untaken_cons (f : FileInfo) (fs : List FileInfo) (o : Outcome) (os : List Outcome) :
    untaken (f :: fs) (o :: os) = if o.handled then untaken fs os else f :: untaken fs os := by
  cases ho : o.handled <;> simp [untaken, ho]

section

variable (hcwd : ∀ n ∈ s.host.cwd, Proper n) (hdry : s.config.dryRun = false) (hroot : s.root.isAbsolute = true)
  (hreach : UndoLog.Reachable folder root) (hnow : s.host.now.Legible)

include hcwd hdry hroot hnow

/-- One file goes through the rules. If none takes it, it stays where it is. -/
lemma Fair.file {rules : List Rule} (hnoted : ∀ r ∈ rules, ∀ a ∈ r.actions, a.isNoted = true)
    (hlog : UndoLog.place root ∉ f.path.place s.host.cwd :: K) (hapart : f.path.place s.host.cwd ∉ K)
    (hup : Part.up ∉ f.path.parts) (h : b.Fair s.host.cwd root folder t (f.path.place s.host.cwd :: K) [])
    (hok : (Rule.runAll s rules f b.work).1.success = true) :
    ({ b with work := (Rule.runAll s rules f b.work).2 } : Batch).Fair s.host.cwd root folder t
      (if (Rule.runAll s rules f b.work).1.handled then K else f.path.place s.host.cwd :: K)
      (Rule.runAll s rules f b.work).1.records := by
  obtain ⟨session, hsession, hfair⟩ := h
  refine ⟨session, hsession, fun hgood => ?_⟩
  obtain ⟨hacc, hfiles⟩ := hfair (by simpa using fun m hm => hgood m (List.mem_append_left _ hm))
  have hstands : Stands s.host.cwd root b.work.tree K f.path :=
    ⟨hup, hfiles _ List.mem_cons_self, fun heq => hlog (heq ▸ List.mem_cons_self), hapart,
      fun q hq => hfiles q (List.mem_cons_of_mem _ hq)⟩
  have hstart : ({ origin := f.path, file := f } : Outcome).Fair root folder t session K s b.work :=
    fun _ _ => ⟨hacc, hstands⟩
  obtain ⟨hacc', hstands'⟩ := hstart.runRules hcwd hdry hroot hnow hnoted hok
    fun m hm => hgood m (List.mem_append_right _ hm)
  refine ⟨hacc', ?_⟩
  cases hhandled : (Rule.runAll s rules f b.work).1.handled with
  | true => exact hstands'.rest
  | false =>
    rw [show Rule.runAll s rules f b.work = ({ origin := f.path, file := f }, b.work) from
      Outcome.runRules_unhandled hhandled]
    exact hfiles

include hreach in
lemma Fair.runRules {rules : List Rule} (hnoted : ∀ r ∈ rules, ∀ a ∈ r.actions, a.isNoted = true)
    (hlog : UndoLog.place root ∉ K ++ places s.host.cwd fs) (hapart : (K ++ places s.host.cwd fs).Nodup)
    (hup : ∀ f ∈ fs, Part.up ∉ f.path.parts)
    (h : b.Fair s.host.cwd root folder t (K ++ places s.host.cwd fs) [])
    (hok : ∀ o ∈ (Batch.runRules s rules fs b).1, o.success = true) :
    (Batch.runRules s rules fs b).2.Fair s.host.cwd root folder t
      (K ++ places s.host.cwd (untaken fs (Batch.runRules s rules fs b).1)) [] := by
  induction fs generalizing b K with
  | nil => simpa [untaken, Batch.runRules] using h
  | cons f fs ih =>
    rw [Batch.runRules] at hok ⊢
    dsimp only at hok ⊢
    have hplaces : places s.host.cwd (f :: fs) = f.path.place s.host.cwd :: places s.host.cwd fs := rfl
    rw [hplaces] at hlog hapart h
    rw [List.nodup_middle] at hapart
    have hmem : ∀ q, q ∈ K ++ f.path.place s.host.cwd :: places s.host.cwd fs ↔
        q ∈ f.path.place s.host.cwd :: (K ++ places s.host.cwd fs) := by
      intro q
      simp [or_left_comm]
    rw [hmem] at hlog
    have hfile := (h.subset fun q hq => (hmem q).2 hq).file hcwd hdry hroot hnow hnoted hlog (List.nodup_cons.1 hapart).1
      (hup f List.mem_cons_self) (hok _ List.mem_cons_self)
    have htold := hfile.told ((Rule.runAll s rules f b.work).1.log.foldl (fun b line => b.say s!"{f.name}: {line}")
      { b with work := (Rule.runAll s rules f b.work).2 })
      (by rw [foldl_say fun line => s!"{f.name}: {line}"]) (foldl_say_session f _ _)
    have hnoted' := htold.notes hreach hnow (by split <;> simp_all)
    have hrest := fun o ho => hok o (List.mem_cons_of_mem _ ho)
    have hup' : ∀ g ∈ fs, Part.up ∉ g.path.parts := fun g hg => hup g (List.mem_cons_of_mem _ hg)
    rw [untaken_cons]
    cases hhandled : (Rule.runAll s rules f b.work).1.handled with
    | true =>
      rw [hhandled, if_pos rfl] at hnoted'
      rw [if_pos rfl]
      exact ih (fun hin => hlog (List.mem_cons_of_mem _ hin)) (List.nodup_cons.1 hapart).2 hup' hnoted' hrest
    | false =>
      rw [hhandled, if_neg (by simp)] at hnoted'
      rw [if_neg (by simp)]
      have hK : ∀ q, q ∈ K ++ [f.path.place s.host.cwd] ++ places s.host.cwd fs ↔
          q ∈ f.path.place s.host.cwd :: (K ++ places s.host.cwd fs) := by
        intro q
        simp [or_left_comm]
      have hnext := ih (K := K ++ [f.path.place s.host.cwd]) (by rwa [hK])
        (by rw [List.append_assoc]; exact List.nodup_middle.2 hapart) hup' (hnoted'.subset fun q hq => (hK q).1 hq) hrest
      rwa [List.append_assoc] at hnext

end

end Batch

end FileOrganizer
