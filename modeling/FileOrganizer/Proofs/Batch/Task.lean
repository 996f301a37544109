import FileOrganizer.Batch.Task
import Mathlib.Tactic.Lemma
import Mathlib.Tactic.SplitIfs

/-!
What is known of a judgement: if it settles the action, nothing is to be taken down; else the task that is
left, and what was checked. And what performing a task does to the tree.
-/

namespace FileOrganizer

variable {s : Setting} {w : Workspace} {f : FileInfo} {task : Task} {r : Effect}

/-- Nothing was taken down, and the file has not gone anywhere. -/
def Effect.Idle (r : Effect) : Prop := r.records = [] ∧ r.newPath = none

/-- Nothing was done, nor would be: there is nothing but what is told of it. -/
structure Effect.Barren (r : Effect) : Prop where
  idle : r.Idle
  output : r.output = none
  status : r.status.counts = false

namespace Action

lemma judgeRename_ok {newName : String} {template : Option String}
    (h : judgeRename s w f newName template = .ok task) :
    task = .rename newName template ∧ newName ≠ "" ∧ (∀ c ∈ newName.toList, c ≠ '/' ∧ c ≠ '\\') ∧
      f.name ≠ newName ∧
      (template.isSome → (w.view s).field s.host f.path renamedBy ≠ template) ∧ w.isThere s f = true := by
  unfold judgeRename at h
  split at h
  · cases h
  · next hvalid =>
    split at h
    · cases h
    · next hname =>
      split at h
      · cases h
      · next hfield =>
        split at h
        · cases h
        · next hthere =>
          cases h
          refine ⟨rfl, ?_, ?_, hname, ?_, by simpa using hthere⟩ <;> simp_all

lemma judgeTransfer_ok {mode : TransferKind} {destination : String}
    (h : judgeTransfer s w f mode destination = .ok task) :
    task = .transfer mode (Template.directory destination f s.root) ∧ f.isDir = false ∧
      f.parent.same (Template.directory destination f s.root) = false ∧
      (mode = .copy → Content.identical? s.host w.tree ((w.view s).origin s.host f.path)
        (Template.directory destination f s.root) f.name = none) ∧ w.isThere s f = true := by
  unfold judgeTransfer at h
  dsimp only at h
  split at h
  · cases h
  · next hdir =>
    split at h
    · cases h
    · next hsame =>
      split at h
      · cases h
      · next htwin =>
        split at h
        · cases h
        · next hthere =>
          cases h
          refine ⟨rfl, by simpa using hdir, by simpa using hsame, ?_, by simpa using hthere⟩
          rintro rfl
          exact htwin

lemma judgeDelete_ok (h : judgeDelete s w f = .ok task) :
    task = .delete ∧ w.isThere s f = true ∧ s.config.safeMode = false ∧ f.isDir = false := by
  unfold judgeDelete at h
  split_ifs at h with hthere hsafe hdir
  cases h
  exact ⟨rfl, by simpa using hthere, by simpa using hsafe, by simpa using hdir⟩

lemma judgeDiscard_ok (h : judgeDiscard s w f = .ok task) :
    task = .discard ∧ w.isThere s f = true ∧ s.config.safeMode = false := by
  unfold judgeDiscard at h
  split_ifs at h with hthere hsafe
  cases h
  exact ⟨rfl, by simpa using hthere, by simpa using hsafe⟩

lemma judgeArchive_ok {destination : Option String} (h : judgeArchive s w f destination = .ok task) :
    task = .archive (archiveDir s f destination) (f.stem ++ ".zip") ∧ f.isDir = false ∧ f.ext ≠ ".zip" ∧
      Archive.contains s.host w.tree ((archiveDir s f destination).child (f.stem ++ ".zip")) f.name f.size =
        false ∧ w.isThere s f = true := by
  unfold judgeArchive at h
  dsimp only at h
  split_ifs at h with hdir hext hin hthere
  cases h
  exact ⟨rfl, by simpa using hdir, hext, by simpa using hin, by simpa using hthere⟩

lemma judgeExtract_ok {destination : Option String} (h : judgeExtract s w f destination = .ok task) :
    task = .extract (extractTo s f destination).1 (extractTo s f destination).2 ∧ f.isDir = false ∧
      isArchive s w f = true := by
  unfold judgeExtract at h
  dsimp only at h
  split at h
  · cases h
  · next hdir =>
    have hgood : f.isDir = false ∧ isArchive s w f = true := by simpa using hdir
    split at h
    · split at h
      · cases h
      · cases h
        exact ⟨rfl, hgood⟩
      · cases h
    · cases h
      exact ⟨rfl, hgood⟩

lemma judgeFolder_ok {path : String} (h : judgeFolder s w f path = .ok task) :
    task = .makeDirs (Template.directory path f s.root) ∧
      w.tree.isDir s.host.cwd (Template.directory path f s.root) = false := by
  unfold judgeFolder at h
  dsimp only at h
  split_ifs at h with hdir
  cases h
  exact ⟨rfl, by simpa using hdir⟩

lemma judgeAddTag_ok {tag : String} (h : judgeAddTag s w f tag = .ok task) :
    task = .addTag tag ∧ tag ∉ (w.view s).tags s.host f.path := by
  unfold judgeAddTag at h
  split_ifs at h with htag
  cases h
  exact ⟨rfl, by simpa using htag⟩

lemma judgeRemoveTag_ok {tag : String} (h : judgeRemoveTag s w f tag = .ok task) :
    task = .removeTag tag ∧ tag ∈ (w.view s).tags s.host f.path := by
  unfold judgeRemoveTag at h
  split_ifs at h with htag
  cases h
  exact ⟨rfl, by simpa using htag⟩

lemma judgeColor_ok {color : String} (h : judgeColor s w f color = .ok task) :
    task = .setColor color ∧ (w.view s).color s.host f.path ≠ some color := by
  unfold judgeColor at h
  split_ifs at h with hcolor
  cases h
  exact ⟨rfl, hcolor⟩

lemma judgeMark_ok {tag : String} (h : judgeMark s w f tag = .ok task) :
    ∃ twin, task = .mark tag twin ∧ f.isDir = false ∧ tag ∉ (w.view s).tags s.host f.path ∧
      (w.view s).isFiled s.host f.path w.tree = .ok false ∧
      (w.view s).twin? s.host f.path w.tree = .ok twin := by
  unfold judgeMark at h
  split at h
  · cases h
  · next hdir =>
    split at h
    · cases h
    · next htag =>
      split at h
      · cases h
      · cases h
      · next hfiled =>
        split at h
        · cases h
        · next twin htwin =>
          cases h
          exact ⟨twin, rfl, by simpa using hdir, by simpa using htag, hfiled, htwin⟩

/-- Is it the kind of task that an action leaves? -/
def leaves : Action → Task → Bool
  | rename _, .rename _ none | tokenRename _, .rename _ (some _) => true
  | move _, .transfer .move _ | copy _, .transfer .copy _ => true
  | delete, .delete | deleteToTrash, .discard | runCommand .., .launch .. => true
  | archive _, .archive .. | extract _, .extract .. | createFolder _, .makeDirs _ => true
  | addTag _, .addTag _ | removeTag _, .removeTag _ | colorLabel _, .setColor _ => true
  | markAsDuplicate _, .mark .. => true
  | _, _ => false

lemma leaves_of_judge {a : Action} (h : a.judge s w f = .ok task) : a.leaves task = true := by
  cases a <;> rw [judge] at h
  case rename => obtain ⟨rfl, -⟩ := judgeRename_ok h; rfl
  case tokenRename => obtain ⟨rfl, -⟩ := judgeRename_ok h; rfl
  case move => obtain ⟨rfl, -⟩ := judgeTransfer_ok h; rfl
  case copy => obtain ⟨rfl, -⟩ := judgeTransfer_ok h; rfl
  case delete => obtain ⟨rfl, -⟩ := judgeDelete_ok h; rfl
  case deleteToTrash => obtain ⟨rfl, -⟩ := judgeDiscard_ok h; rfl
  case runCommand => cases h; rfl
  case archive => obtain ⟨rfl, -⟩ := judgeArchive_ok h; rfl
  case extract => obtain ⟨rfl, -⟩ := judgeExtract_ok h; rfl
  case createFolder => obtain ⟨rfl, -⟩ := judgeFolder_ok h; rfl
  case addTag => obtain ⟨rfl, -⟩ := judgeAddTag_ok h; rfl
  case removeTag => obtain ⟨rfl, -⟩ := judgeRemoveTag_ok h; rfl
  case colorLabel => obtain ⟨rfl, -⟩ := judgeColor_ok h; rfl
  case markAsDuplicate => obtain ⟨_, rfl, -⟩ := judgeMark_ok h; rfl

/-- Only an action for deleting leaves a task that deletes, and never in safe mode. -/
lemma judge_delete {a : Action} (h : a.judge s w f = .ok .delete) : a = .delete ∧ s.config.safeMode = false := by
  obtain rfl : a = .delete := by
    have hl := leaves_of_judge h
    cases a <;> first | rfl | cases hl
  exact ⟨rfl, (judgeDelete_ok h).2.2.1⟩

lemma judge_launch {a : Action} {program : String} {args : List String} {timeout : Nat}
    (h : a.judge s w f = .ok (.launch program args timeout)) : ∃ p as n, a = .runCommand p as n := by
  have hl := leaves_of_judge h
  cases a <;> first | exact ⟨_, _, _, rfl⟩ | cases hl

lemma judge_archive {a : Action} {dir : Path} {name : String} (h : a.judge s w f = .ok (.archive dir name)) :
    ∃ d, a = .archive d := by
  have hl := leaves_of_judge h
  cases a <;> first | exact ⟨_, rfl⟩ | cases hl

lemma judgeRename_barren {newName : String} {template : Option String}
    (h : judgeRename s w f newName template = .error r) : r.Barren := by
  unfold judgeRename at h
  split_ifs at h <;> cases h <;> exact ⟨⟨rfl, rfl⟩, rfl, rfl⟩

lemma judgeTransfer_barren {mode : TransferKind} {destination : String}
    (h : judgeTransfer s w f mode destination = .error r) : r.Barren := by
  unfold judgeTransfer at h
  dsimp only at h
  split at h
  · cases h; exact ⟨⟨rfl, rfl⟩, rfl, rfl⟩
  · split at h
    · cases h; exact ⟨⟨rfl, rfl⟩, rfl, rfl⟩
    · split at h
      · cases h; exact ⟨⟨rfl, rfl⟩, rfl, rfl⟩
      · split_ifs at h
        cases h; exact ⟨⟨rfl, rfl⟩, rfl, rfl⟩

lemma judgeExtract_barren {destination : Option String} (h : judgeExtract s w f destination = .error r) :
    r.Barren := by
  unfold judgeExtract at h
  dsimp only at h
  split at h
  · cases h; exact ⟨⟨rfl, rfl⟩, rfl, rfl⟩
  · split at h
    · split at h <;> cases h <;> exact ⟨⟨rfl, rfl⟩, rfl, rfl⟩
    · cases h

lemma judgeMark_barren {tag : String} (h : judgeMark s w f tag = .error r) : r.Barren := by
  unfold judgeMark at h
  split at h
  · cases h; exact ⟨⟨rfl, rfl⟩, rfl, rfl⟩
  · split at h
    · cases h; exact ⟨⟨rfl, rfl⟩, rfl, rfl⟩
    · split at h
      · cases h; exact ⟨⟨rfl, rfl⟩, rfl, rfl⟩
      · cases h; exact ⟨⟨rfl, rfl⟩, rfl, rfl⟩
      · split at h <;> cases h
        exact ⟨⟨rfl, rfl⟩, rfl, rfl⟩

/-- What is settled without a task does nothing. -/
lemma judge_barren {a : Action} (h : a.judge s w f = .error r) : r.Barren := by
  cases a <;> rw [judge] at h
  case rename => exact judgeRename_barren h
  case tokenRename => exact judgeRename_barren h
  case move => exact judgeTransfer_barren h
  case copy => exact judgeTransfer_barren h
  case extract => exact judgeExtract_barren h
  case markAsDuplicate => exact judgeMark_barren h
  case runCommand => cases h
  case delete => unfold judgeDelete at h; split_ifs at h <;> cases h <;> exact ⟨⟨rfl, rfl⟩, rfl, rfl⟩
  case deleteToTrash => unfold judgeDiscard at h; split_ifs at h <;> cases h <;> exact ⟨⟨rfl, rfl⟩, rfl, rfl⟩
  case archive => unfold judgeArchive at h; dsimp only at h; split_ifs at h <;> cases h <;> exact ⟨⟨rfl, rfl⟩, rfl, rfl⟩
  case createFolder => unfold judgeFolder at h; dsimp only at h; split_ifs at h; cases h; exact ⟨⟨rfl, rfl⟩, rfl, rfl⟩
  case addTag => unfold judgeAddTag at h; split_ifs at h; cases h; exact ⟨⟨rfl, rfl⟩, rfl, rfl⟩
  case removeTag => unfold judgeRemoveTag at h; split_ifs at h; cases h; exact ⟨⟨rfl, rfl⟩, rfl, rfl⟩
  case colorLabel => unfold judgeColor at h; split_ifs at h; cases h; exact ⟨⟨rfl, rfl⟩, rfl, rfl⟩

lemma judge_idle {a : Action} (h : a.judge s w f = .error r) : r.Idle := (judge_barren h).idle

end Action

open FileOrganizer.Tree FileOrganizer.Disk

namespace Workspace

lemma disk_eq {α : Type} (work : Disk α) :
    w.disk work = ((work w.tree).1, { w with tree := (work w.tree).2 }) := rfl

lemma claim_tree (cwd : Place) (dir : Path) (name : String) : (w.claim cwd dir name).2.tree = w.tree := rfl

end Workspace

namespace Task

lemma moveTo_tree (target : Path) (told : String) (why : Fault → String) :
    (moveTo s f w target told why).2.tree = (moveFile s.host.toActor f.path target w.tree).2 := by
  unfold moveTo
  rw [Workspace.disk_eq]
  cases (moveFile s.host.toActor f.path target w.tree).1 <;> rfl

lemma noteTemplate_tree (r : Effect) (template : Option String) :
    (noteTemplate s w r template).tree = w.tree := by
  unfold noteTemplate
  split
  · rfl
  · split <;> dsimp only

/-- What a task does to the tree, apart from what is told of it and what is put on record. -/
def treeAfter (s : Setting) (f : FileInfo) (w : Workspace) : Task → Tree
  | .rename newName _ =>
    (moveFile s.host.toActor f.path (w.claim s.host.cwd f.parent newName).1.path w.tree).2
  | .transfer .move dir =>
    (moveFile s.host.toActor f.path (w.claim s.host.cwd dir f.name).1.path w.tree).2
  | .transfer .copy dir =>
    (copyFile s.host.toActor f.path (w.claim s.host.cwd dir f.name).1.path w.tree).2
  | .delete => (Disk.change (removeFile s.host.toActor f.path) w.tree).2
  | .discard => (moveFile s.host.toActor f.path (w.claim s.host.cwd s.trash f.name).1.path w.tree).2
  | .launch program args timeout => (s.host.launch program args timeout w.tree).2
  | .archive dir name =>
    let p := (w.claim s.host.cwd dir name).1.path
    match Archive.write s.host f.path f.name p w.tree with
    | (.ok (), t) => t
    | (.error _, t) => (Disk.change (removeFile s.host.toActor p) t).2
  | .extract dir name => (Archive.extract s.host f.path (w.claim s.host.cwd dir name).1.path w.tree).2
  | .makeDirs dir => (Disk.makeDirs s.host.toActor dir w.tree).2
  | .addTag _ | .removeTag _ | .setColor _ | .mark .. => w.tree

lemma perform_tree (task : Task) : (task.perform s f w).2.tree = treeAfter s f w task := by
  cases task with
  | rename newName template =>
    unfold perform
    dsimp only
    rw [noteTemplate_tree, moveTo_tree]
    rfl
  | transfer m dir =>
    cases m with
    | move =>
      unfold perform
      dsimp only
      rw [moveTo_tree]
      rfl
    | copy =>
      unfold perform treeAfter
      dsimp only
      rw [Workspace.disk_eq, Workspace.claim_tree]
      cases (copyFile s.host.toActor f.path (w.claim s.host.cwd dir f.name).1.path w.tree).1 <;> dsimp only
  | delete =>
    unfold perform treeAfter
    dsimp only
    rw [Workspace.disk_eq]
    cases (Disk.change (removeFile s.host.toActor f.path) w.tree).1 <;> dsimp only
  | discard =>
    unfold perform
    dsimp only
    rw [moveTo_tree]
    rfl
  | launch program args timeout =>
    unfold perform treeAfter
    dsimp only
    rcases s.host.launch program args timeout w.tree with ⟨e | c, t⟩ <;> dsimp only
  | archive dir name =>
    unfold perform treeAfter
    dsimp only
    rw [Workspace.disk_eq, Workspace.claim_tree]
    rcases Archive.write s.host f.path f.name (w.claim s.host.cwd dir name).1.path w.tree with ⟨e | a, t⟩
    · dsimp only
      rw [Workspace.disk_eq]
    · dsimp only
  | extract dir name =>
    unfold perform treeAfter
    dsimp only
    rw [Workspace.claim_tree]
  | makeDirs dir =>
    unfold perform treeAfter
    dsimp only
    rw [Workspace.disk_eq]
    cases (Disk.makeDirs s.host.toActor dir w.tree).1 <;> dsimp only
  | addTag tag => rfl
  | removeTag tag => rfl
  | setColor color => rfl
  | mark tag twin =>
    unfold perform treeAfter
    dsimp only
    rcases w.store.index s.host w.tree f.path with ⟨e | r, store⟩
    · rfl
    · cases twin <;> rfl

/-- A dry run tells what would be done, or leaves the file alone. -/
lemma trial_tries (task : Task) : (task.trial s f w).1.status = .wouldApply ∨ (task.trial s f w).1.Barren := by
  have hskip : ∀ message, (Effect.skipped message).Barren := fun _ => ⟨⟨rfl, rfl⟩, rfl, rfl⟩
  cases task with
  | transfer mode dir => cases mode <;> exact Or.inl rfl
  | mark tag twin =>
    cases twin with
    | none => exact Or.inr (hskip _)
    | some p => exact Or.inl rfl
  | _ => exact Or.inl rfl

end Task

namespace Action

lemma run_tries (hdry : s.config.dryRun = true) (a : Action) :
    (a.run s f w).1.status = .wouldApply ∨ (a.run s f w).1.Barren := by
  unfold run
  cases hj : a.judge s w f with
  | error r => exact Or.inr (judge_barren hj)
  | ok task =>
    dsimp only
    rw [if_pos hdry]
    exact task.trial_tries

/-- What is applied was left by a judgement, and performed. -/
lemma run_applied {a : Action} (h : (a.run s f w).1.status = .applied) :
    ∃ task, a.judge s w f = .ok task ∧ s.config.dryRun = false ∧ a.run s f w = task.perform s f w := by
  cases hdry : s.config.dryRun with
  | true =>
    rcases run_tries (f := f) (w := w) hdry a with hwould | hbarren
    · rw [hwould] at h
      cases h
    · have hcounts := hbarren.status
      rw [h] at hcounts
      cases hcounts
  | false =>
    unfold run at h ⊢
    cases hj : a.judge s w f with
    | error r =>
      have hcounts := (judge_barren hj).status
      rw [hj] at h
      rw [show r.status = .applied from h] at hcounts
      cases hcounts
    | ok task => exact ⟨task, rfl, rfl, by simp [hdry]⟩

end Action

end FileOrganizer
