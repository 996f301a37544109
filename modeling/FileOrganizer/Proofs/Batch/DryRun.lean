import FileOrganizer.Proofs.Batch.Conservation
import FileOrganizer.Proofs.Batch.Series

/-! A dry run claims names and notes changes. The tree, the tag store, and with them the log, stay as they
were. -/

namespace FileOrganizer

variable {s : Setting}

namespace Workspace

/-- Only the claims and the noted changes differ. -/
def SameWorld (w w' : Workspace) : Prop := w'.tree = w.tree ∧ w'.store = w.store

variable {w w' w'' : Workspace}

lemma SameWorld.refl (w : Workspace) : w.SameWorld w := ⟨rfl, rfl⟩

lemma SameWorld.trans (h : w.SameWorld w') (h' : w'.SameWorld w'') : w.SameWorld w'' :=
  ⟨h'.1.trans h.1, h'.2.trans h.2⟩

end Workspace

open Workspace

namespace Task

variable (s : Setting) (f : FileInfo) (w : Workspace)

lemma trial_sameWorld (task : Task) : w.SameWorld (task.trial s f w).2 := by
  refine ⟨trial_tree task, ?_⟩
  cases task with
  | rename newName template => cases template <;> rfl
  | mark tag twin => cases twin <;> rfl
  | _ => rfl

lemma trial_records (task : Task) : (task.trial s f w).1.records = [] := by
  cases task with
  | transfer mode dir => cases mode <;> rfl
  | mark tag twin => cases twin <;> rfl
  | _ => rfl

end Task

namespace Action

variable {w : Workspace} {f : FileInfo} {r : Effect}

lemma run_dry (hdry : s.config.dryRun = true) (f : FileInfo) (a : Action) (w : Workspace) :
    w.SameWorld (a.run s f w).2 ∧ (a.run s f w).1.records = [] := by
  unfold run
  cases hj : a.judge s w f with
  | error r => exact ⟨.refl w, (judge_idle hj).1⟩
  | ok task =>
    dsimp only
    rw [if_pos hdry]
    exact ⟨task.trial_sameWorld s f w, task.trial_records s f w⟩

end Action

namespace Outcome

variable (hdry : s.config.dryRun = true)

include hdry

lemma runAction_dry (rule : String) (a : Action) (o : Outcome) (w : Workspace) (ho : o.records = []) :
    w.SameWorld (o.runAction s rule a w).2 ∧ (o.runAction s rule a w).1.records = [] := by
  obtain ⟨hw, hr⟩ := Action.run_dry hdry (refresh s w o.file) a w
  unfold runAction
  unfold records at ho ⊢
  dsimp only
  split
  · exact ⟨hw, by simp [ho, hr]⟩
  · rw [if_pos hdry]
    exact ⟨hw, by simp [ho, hr]⟩

lemma runRules_dry (rules : List Rule) (o : Outcome) (w : Workspace) (ho : o.records = []) :
    w.SameWorld (runRules s rules o w).2 ∧ (runRules s rules o w).1.records = [] := by
  refine runRules_keeps (I := fun o' w' => w.SameWorld w' ∧ o'.records = []) ⟨.refl w, ho⟩
    (fun _ _ _ _ h => h) fun r _ a _ o' w' _ h => ?_
  obtain ⟨hw, ho'⟩ := runAction_dry hdry r.name a o' w' h.2
  exact ⟨h.1.trans hw, ho'⟩

end Outcome

namespace Batch

/-- Only the lines that tell what is done, the claims and the noted changes differ. -/
def SameWorld (b b' : Batch) : Prop := b.work.SameWorld b'.work ∧ b'.session = b.session

variable {b b' b'' : Batch} {mode : TransferKind}

lemma SameWorld.trans (h : b.SameWorld b') (h' : b'.SameWorld b'') : b.SameWorld b'' :=
  ⟨h.1.trans h'.1, h'.2.trans h.2⟩

lemma runRules_dry (hdry : s.config.dryRun = true) (rules : List Rule) (fs : List FileInfo) (b : Batch) :
    b.SameWorld (runRules s rules fs b).2 := by
  induction fs generalizing b with
  | nil => exact ⟨.refl b.work, rfl⟩
  | cons f fs ih =>
    obtain ⟨hw, ho⟩ := Outcome.runRules_dry hdry rules { origin := f.path, file := f } b.work rfl
    have hfirst : b.SameWorld ((Rule.runAll s rules f b.work).1.log.foldl
        (fun b line => b.say s!"{f.name}: {line}") { b with work := (Rule.runAll s rules f b.work).2 }) := by
      refine ⟨?_, foldl_say_session f _ _⟩
      rw [foldl_say (fun line => s!"{f.name}: {line}")]
      exact hw
    rw [runRules]
    dsimp only
    rw [show (Rule.runAll s rules f b.work).1.records = [] from ho]
    exact hfirst.trans (ih _)

lemma of?_sameWorld (c : Categories) (f : FileInfo) (w : Workspace) :
    w.SameWorld (PlannedTransfer.of? s c mode f w).2 := by
  unfold PlannedTransfer.of?
  dsimp only
  split <;> exact ⟨rfl, rfl⟩

lemma plan_sameWorld (c : Categories) (fs : List FileInfo) (w : Workspace) :
    w.SameWorld (PlannedTransfer.plan s c mode fs w).2 := by
  induction fs generalizing w with
  | nil => exact .refl w
  | cons f fs ih => exact (of?_sameWorld c f w).trans (ih _)

/-- Planning claims names only. -/
lemma planRest_sameWorld (c : Categories) (fs : List FileInfo) (os : List Outcome) (w : Workspace) :
    w.SameWorld (planRest s c mode fs os w).2 := by
  unfold planRest
  dsimp only
  split
  · exact plan_sameWorld c _ w
  · exact .refl w

lemma runPlan_dry (hdry : s.config.dryRun = true) (moves : List PlannedTransfer) (b : Batch) :
    b.SameWorld (runPlan s mode moves b).2 := by
  unfold runPlan
  rw [if_pos hdry]
  induction moves generalizing b with
  | nil => exact ⟨.refl b.work, rfl⟩
  | cons m moves ih => exact ih (b.say s!"将{mode.verb}: {m.source} -> {m.target}")

theorem run_dry (hdry : s.config.dryRun = true) (profile : Profile) (files : List FileInfo) (b : Batch) :
    b.SameWorld (b.run s profile mode files).2 := by
  unfold run
  dsimp only
  generalize files.filter (fun f => !(s.config.skipHidden && f.hidden)) = files
  have hrules := runRules_dry hdry profile.rules files b
  generalize runRules s profile.rules files b = x at hrules ⊢
  have hplan : x.2.SameWorld
      { x.2 with work := (planRest s profile.categories mode files x.1 x.2.work).2 } :=
    ⟨planRest_sameWorld _ _ _ _, rfl⟩
  exact (hrules.trans hplan).trans (runPlan_dry hdry _ _)

end Batch

namespace Job

variable {j : Job} {root : Path} {files : List FileInfo} {t : Tree} {store : TagStore}

lemma run_dry (hdry : j.config.dryRun = true) {b b' : Batch} {rs : List Report}
    (h : j.run root files b = .ok (rs, b')) : b.SameWorld b' := by
  unfold run at h
  cases hv : j.profile.validate with
  | error e =>
    rw [hv] at h
    cases h
  | ok a =>
    rw [hv] at h
    cases hr : j.absoluteRoot root with
    | error e =>
      rw [hr] at h
      cases h
    | ok folder =>
      rw [hr] at h
      cases h
      exact Batch.run_dry hdry j.profile files b

lemma preview_sameWorld {rs : List FileForecast} {b : Batch} (h : j.preview root files t store = .ok (rs, b)) :
    (start t store none).SameWorld b := by
  unfold preview at h
  dsimp only at h
  cases hrun : Job.run { j with config := j.config.dry } root files (start t store none) with
  | error e =>
    rw [hrun] at h
    cases h
  | ok x =>
    rw [hrun] at h
    cases h
    exact run_dry rfl hrun

lemma applyIn_dry (hdry : j.config.dryRun = true) {session : OpenSession} {rs : List FileResult} {b : Batch}
    (h : j.applyIn root files session t store = .ok (rs, b)) : (start t store (some session)).SameWorld b := by
  unfold applyIn at h
  cases hrun : j.run root files (start t store (some session)) with
  | error e =>
    rw [hrun] at h
    cases h
  | ok x =>
    rw [hrun] at h
    cases h
    exact run_dry hdry hrun

lemma apply_dry (hdry : j.config.dryRun = true) {rs : List FileResult} {b : Batch}
    (h : j.apply root files t store = .ok (rs, b)) : b.work.tree = t ∧ b.work.store = store ∧
      ∃ session, b.session = some session ∧ session.log = none := by
  unfold apply at h
  cases hroot : j.absoluteRoot root with
  | error e =>
    rw [hroot] at h
    cases h
  | ok folder =>
    rw [hroot] at h
    obtain ⟨⟨ht, hstore⟩, hsession⟩ := applyIn_dry hdry h
    exact ⟨ht, hstore, _, hsession, rfl⟩

end Job

namespace Round

lemma run_dry {r : Round} (hdry : r.job.config.dryRun = true) (p : Standing) :
    (r.run p).tree = p.tree ∧ (r.run p).store = p.store ∧ (r.run p).session = p.session := by
  unfold run
  cases h : r.job.applyIn r.root r.files p.session p.tree p.store with
  | error e => exact ⟨rfl, rfl, rfl⟩
  | ok x =>
    obtain ⟨⟨ht, hstore⟩, hsession⟩ := Job.applyIn_dry hdry h
    refine ⟨ht, hstore, ?_⟩
    change x.2.session.getD p.session = p.session
    rw [hsession]
    rfl

lemma runAll_dry {rounds : List Round} (hdry : ∀ r ∈ rounds, r.job.config.dryRun = true) (p : Standing) :
    (runAll rounds p).tree = p.tree ∧ (runAll rounds p).store = p.store ∧
      (runAll rounds p).session = p.session := by
  induction rounds generalizing p with
  | nil => exact ⟨rfl, rfl, rfl⟩
  | cons r rounds ih =>
    obtain ⟨ht, hstore, hsession⟩ := run_dry (hdry r List.mem_cons_self) p
    obtain ⟨ht', hstore', hsession'⟩ := ih (fun r' hr' => hdry r' (List.mem_cons_of_mem r hr')) (r.run p)
    exact ⟨ht'.trans ht, hstore'.trans hstore, hsession'.trans hsession⟩

end Round

/-- A watch in a dry run changes nothing, whatever events come. -/
theorem Watch.run_dry (w : Watch) (hdry : w.config.dryRun = true) (events late : List Path) (t : Tree)
    (store : TagStore) : (w.run events late t store).tree = t ∧ (w.run events late t store).store = store ∧
      (w.run events late t store).session.log = none := by
  obtain ⟨rounds, hruns, hstanding⟩ := w.run_rounds events late t store
  have hall : ∀ r ∈ rounds, r.job.config.dryRun = true := by
    intro r hr
    rw [(hruns r hr).2.2.1, hdry]
  obtain ⟨ht, hstore, hsession⟩ :=
    Round.runAll_dry hall ⟨t, store, { folder := w.absoluteRoot, mode := w.mode }, []⟩
  rw [← hstanding] at ht hstore hsession
  exact ⟨ht, hstore, by rw [show (w.run events late t store).session = _ from hsession]⟩

/-- A preview changes neither the tree, in which the log is a file, nor the tag store, and opens no session.
Nor does a batch that is applied as a dry run, or a series of such batches in a session that may have
come to records before. -/
theorem Job.dry_run_changes_nothing (j : Job) (root : Path) (files : List FileInfo) (t : Tree) (store : TagStore) :
    (∀ rs b, j.preview root files t store = .ok (rs, b) →
      b.work.tree = t ∧ b.work.store = store ∧ b.session = none) ∧
    (j.config.dryRun = true → ∀ rs b, j.apply root files t store = .ok (rs, b) →
      b.work.tree = t ∧ b.work.store = store ∧ ∃ session, b.session = some session ∧ session.log = none) ∧
    (j.config.dryRun = true → ∀ session rs b, j.applyIn root files session t store = .ok (rs, b) →
      b.work.tree = t ∧ b.work.store = store ∧ b.session = some session) ∧
    ∀ rounds : List Round, (∀ r ∈ rounds, r.job.config.dryRun = true) → ∀ p : Standing,
      (Round.runAll rounds p).tree = p.tree ∧ (Round.runAll rounds p).store = p.store ∧
        (Round.runAll rounds p).session = p.session := by
  refine ⟨?_, fun hdry rs b h => apply_dry hdry h, ?_, fun rounds hdry p => Round.runAll_dry hdry p⟩
  · intro rs b h
    obtain ⟨⟨ht, hstore⟩, hsession⟩ := preview_sameWorld h
    exact ⟨ht, hstore, hsession⟩
  · intro hdry session rs b h
    obtain ⟨⟨ht, hstore⟩, hsession⟩ := applyIn_dry hdry h
    exact ⟨ht, hstore, hsession⟩

/-- Two files are to be tagged and moved into a directory that is not there. -/
theorem Job.dry_run_changes_nothing_move :
    let j : Job := { plainJob [.addTag "new", .move "docs"] with config := { dryRun := true } }
    let files := [found "/r/a.txt", found "/r/a.zip"]
    (∃ rs b, j.preview ⟨"/r"⟩ files twoFiles .empty = .ok (rs, b) ∧ b.work.tree = twoFiles ∧
      b.work.store = .empty) ∧
    (∃ rs b, j.apply ⟨"/r"⟩ files twoFiles .empty = .ok (rs, b) ∧ b.work.tree = twoFiles ∧
      b.work.store = .empty) ∧
    (∃ rs b, j.applyIn ⟨"/r"⟩ files { folder := ⟨"/r"⟩, mode := .move } twoFiles .empty = .ok (rs, b) ∧
      b.work.tree = twoFiles ∧ b.work.store = .empty) ∧
    (Round.runAll [⟨j, ⟨"/r"⟩, files⟩, ⟨j, ⟨"/r"⟩, files⟩]
      ⟨twoFiles, .empty, { folder := ⟨"/r"⟩, mode := .move }, []⟩).tree = twoFiles := by
  intro j files
  obtain ⟨hpreview, happly, hin, hseries⟩ := dry_run_changes_nothing j ⟨"/r"⟩ files twoFiles .empty
  have hpreview' : (j.preview ⟨"/r"⟩ files twoFiles .empty).isOk = true := by decide
  have happly' : (j.apply ⟨"/r"⟩ files twoFiles .empty).isOk = true := by decide
  have hin' : (j.applyIn ⟨"/r"⟩ files { folder := ⟨"/r"⟩, mode := .move } twoFiles .empty).isOk = true := by
    decide
  obtain ⟨⟨rs, b⟩, hx⟩ := isOk_iff.1 hpreview'
  obtain ⟨⟨rs', b'⟩, hx'⟩ := isOk_iff.1 happly'
  obtain ⟨⟨rs'', b''⟩, hx''⟩ := isOk_iff.1 hin'
  refine ⟨⟨rs, b, hx, ?_⟩, ⟨rs', b', hx', ?_⟩, ⟨rs'', b'', hx'', ?_⟩, ?_⟩
  · obtain ⟨ht, hstore, -⟩ := hpreview rs b hx
    exact ⟨ht, hstore⟩
  · obtain ⟨ht, hstore, -⟩ := happly rfl rs' b' hx'
    exact ⟨ht, hstore⟩
  · obtain ⟨ht, hstore, -⟩ := hin rfl _ rs'' b'' hx''
    exact ⟨ht, hstore⟩
  · exact (hseries _ (by simp [j]) _).1

end FileOrganizer
