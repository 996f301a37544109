import FileOrganizer.Proofs.Batch.Fate
import FileOrganizer.Proofs.Batch.Whereabouts

/-! What a file has gone through, told without any stopping: each rule has its turn, and all the actions of those that
match are played one after the other. What really happens is the beginning of it, up to the first action that fails or
takes the file away and to the first match that stops the rules. -/

namespace FileOrganizer

open FileOrganizer.Tree FileOrganizer.Disk

variable {s : Setting} {w : Workspace} {f : FileInfo} {a : Action} {o : Outcome} {task : Task} {p q : Path}

section

variable {α : Type} {c : α → Bool} {l m : List α}

/-- A list up to the first element that meets the test, with it. -/
def through (c : α → Bool) : List α → List α
  | [] => []
  | x :: l => if c x then [x] else x :: through c l

lemma through_append : through c (l ++ m) = if l.any c then through c l else l ++ through c m := by
  induction l with
  | nil => rfl
  | cons x l ih =>
    rw [List.cons_append, through, through, List.any_cons]
    cases c x with
    | true => rfl
    | false =>
      rw [ih, Bool.false_or, if_neg Bool.false_ne_true, if_neg Bool.false_ne_true]
      split <;> rfl

lemma through_of_not_any (h : l.any c = false) : through c l = l := by
  have happend := through_append (c := c) (l := l) (m := [])
  rw [List.append_nil, h] at happend
  exact happend.trans (List.append_nil l)

end

/-- A file on its way, described as it is held to be, with what there is around it. -/
structure Scene where
  file : FileInfo
  work : Workspace

namespace Scene

variable (s : Setting) (x : Scene)

/-- The file as it is by now. -/
def now : FileInfo := Outcome.refresh s x.work x.file

/-- What there is around the file after an action with this result. A dry run takes down where the file would be. -/
def around (r : Effect) (w : Workspace) : Workspace :=
  match r.newPath with
  | some p =>
    if s.config.dryRun then { w with pending := w.pending.relocate (s.host.key (x.now s).path) (s.host.key p) } else w
  | none => w

/-- An action on the file as it is by now, and the scene after it. -/
def act (a : Action) : Effect × Scene :=
  let (r, w) := a.run s (x.now s) x.work
  (r, ⟨r.take (x.now s), x.around s r w⟩)

/-- All of the actions, whatever becomes of each. -/
def actAll (rule : String) : List Action → Scene → List Step × Scene
  | [], x => ([], x)
  | a :: as, x => (⟨rule, a, (x.act s a).1⟩ :: (actAll rule as (x.act s a).2).1, (actAll rule as (x.act s a).2).2)

end Scene

/-- A rule that has its turn, and what its actions do if it matches. -/
structure Asked where
  rule : Rule
  scene : Scene
  matched : Bool
  steps : List Step

namespace Asked

/-- No rule has its turn after this one. -/
def ends (k : Asked) : Bool := k.matched && (k.steps.any Step.isLast || k.rule.stopOnMatch)

/-- All of the rules, each going by the description that `look` gives of the file. -/
def all (s : Setting) (look : Scene → FileInfo) : List Rule → Scene → List Asked
  | [], _ => []
  | r :: rs, x =>
    if r.matches? (x.work.sight s) (look x) then
      ⟨r, x, true, (x.actAll s r.name r.actions).1⟩ :: all s look rs (x.actAll s r.name r.actions).2
    else ⟨r, x, false, []⟩ :: all s look rs x

/-- The rule judges the file as it would if it looked at it once more. -/
def UpToDate (s : Setting) (k : Asked) : Prop :=
  k.rule.matches? (k.scene.work.sight s) k.scene.file = k.rule.matches? (k.scene.work.sight s) (k.scene.now s)

/-- The rules that have their turn. -/
def turns (s : Setting) (look : Scene → FileInfo) (rules : List Rule) (x : Scene) : List Asked :=
  through ends (all s look rules x)

variable (look : Scene → FileInfo) {rules : List Rule} {r : Rule} {x : Scene}

/-- The turn of a rule that matches. -/
def taken (s : Setting) (r : Rule) (x : Scene) : Asked := ⟨r, x, true, (x.actAll s r.name r.actions).1⟩

lemma ends_taken : (taken s r x).ends = ((x.actAll s r.name r.actions).1.any Step.isLast || r.stopOnMatch) :=
  Bool.true_and _

lemma turns_matched (h : r.matches? (x.work.sight s) (look x) = true) : turns s look (r :: rules) x =
    if (taken s r x).ends then [taken s r x]
    else taken s r x :: turns s look rules (x.actAll s r.name r.actions).2 := by
  rw [turns, all, if_pos h, through]
  rfl

lemma turns_unmatched (h : r.matches? (x.work.sight s) (look x) = false) :
    turns s look (r :: rules) x = ⟨r, x, false, []⟩ :: turns s look rules x := by
  rw [turns, all, if_neg (by simp [h]), through]
  rfl

end Asked

/-- The rules that matched and the actions that were run are those that the turns tell of. -/
structure Outcome.Follows (o : Outcome) (ks : List Asked) : Prop where
  steps : o.steps = through Step.isLast (ks.flatMap Asked.steps)
  matched : o.matched = (ks.filter Asked.matched).map (·.rule.name)

namespace Outcome

lemma runAction_scene (o : Outcome) (rule : String) (a : Action) (w : Workspace) : o.runAction s rule a w =
    ({ o with
      file := (Scene.act s ⟨o.file, w⟩ a).2.file
      steps := o.steps ++ [⟨rule, a, (Scene.act s ⟨o.file, w⟩ a).1⟩] }, (Scene.act s ⟨o.file, w⟩ a).2.work) := by
  unfold runAction Scene.act Scene.around Effect.take
  dsimp only [Scene.now]
  cases (a.run s (refresh s w o.file) w).1.newPath <;> rfl

lemma isLast_concat (ts : List Step) (t : Step) : ((ts ++ [t]).getLast?.map Step.isLast).getD false = t.isLast := by
  rw [List.getLast?_concat]
  rfl

/-- The actions of a rule are played up to the last one. -/
lemma runActions_scene (rule : String) (as : List Action) (o : Outcome) (w : Workspace) :
    (runActions s rule as o w).1 = (Scene.actAll s rule as ⟨o.file, w⟩).1.any Step.isLast ∧
      (runActions s rule as o w).2.1.matched = o.matched ∧
      (runActions s rule as o w).2.1.steps = o.steps ++ through Step.isLast (Scene.actAll s rule as ⟨o.file, w⟩).1 ∧
      ((Scene.actAll s rule as ⟨o.file, w⟩).1.any Step.isLast = false →
        ⟨(runActions s rule as o w).2.1.file, (runActions s rule as o w).2.2⟩ = (Scene.actAll s rule as ⟨o.file, w⟩).2) := by
  induction as generalizing o w with
  | nil => exact ⟨rfl, rfl, (List.append_nil _).symm, fun _ => rfl⟩
  | cons a as ih =>
    rw [runActions, Scene.actAll, runAction_scene]
    dsimp only
    rw [isLast_concat, List.any_cons, through]
    generalize Scene.act s ⟨o.file, w⟩ a = y
    obtain ⟨r, file, work⟩ := y
    dsimp only
    cases hlast : (⟨rule, a, r⟩ : Step).isLast with
    | true => exact ⟨rfl, rfl, rfl, fun h => by cases h⟩
    | false =>
      obtain ⟨hended, hmatched, hsteps, hscene⟩ :=
        ih { o with file, steps := o.steps ++ [⟨rule, a, r⟩] } work
      refine ⟨hended, hmatched, hsteps.trans ?_, hscene⟩
      rw [if_neg Bool.false_ne_true, List.append_assoc, List.singleton_append]

lemma runRules_scene (rules : List Rule) (o : Outcome) (w : Workspace) :
    (runRules s rules o w).1.matched =
        o.matched ++ ((Asked.turns s Scene.file rules ⟨o.file, w⟩).filter Asked.matched).map (·.rule.name) ∧
      (runRules s rules o w).1.steps =
        o.steps ++ through Step.isLast ((Asked.turns s Scene.file rules ⟨o.file, w⟩).flatMap Asked.steps) := by
  induction rules generalizing o w with
  | nil => exact ⟨(List.append_nil _).symm, (List.append_nil _).symm⟩
  | cons r rs ih =>
    rw [runRules]
    cases hmatch : r.matches? (w.sight s) o.file with
    | false =>
      rw [Asked.turns_unmatched Scene.file (x := ⟨o.file, w⟩) hmatch]
      exact ih o w
    | true =>
      obtain ⟨hended, hmatched, hsteps, hscene⟩ :=
        runActions_scene (s := s) r.name r.actions { o with matched := o.matched ++ [r.name] } w
      rw [Asked.turns_matched Scene.file (x := ⟨o.file, w⟩) hmatch, if_pos rfl, Asked.ends_taken, ← hended]
      dsimp only
      generalize runActions s r.name r.actions { o with matched := o.matched ++ [r.name] } w = y at *
      obtain ⟨ended, o', w'⟩ := y
      dsimp only [Asked.taken] at hended hmatched hsteps hscene ⊢
      -- either nothing comes after this rule, or none of its actions was the last one and the rest starts from its scene
      split
      · refine ⟨hmatched, hsteps.trans ?_⟩
        rw [List.flatMap_singleton]
      · next hgoes =>
        have hnone : (Scene.actAll s r.name r.actions ⟨o.file, w⟩).1.any Step.isLast = false := by
          rw [← hended]
          exact Bool.eq_false_of_not_eq_true fun h => hgoes (by rw [h, Bool.true_or])
        obtain ⟨hmatched', hsteps'⟩ := ih o' w'
        rw [hmatched', hsteps', hmatched, hsteps, hscene hnone]
        refine ⟨?_, ?_⟩
        · rw [List.filter_cons_of_pos rfl, List.map_cons, List.append_assoc, List.singleton_append]
        · rw [List.flatMap_cons, through_append, if_neg (by simp [hnone]), through_of_not_any hnone, List.append_assoc]

end Outcome

namespace Asked

variable {look look' : Scene → FileInfo} {rules : List Rule} {x : Scene}

/-- Two ways of describing the file give the same turns, if no rule that has its turn tells them apart. -/
lemma turns_congr (h : ∀ k ∈ turns s look rules x,
    k.rule.matches? (k.scene.work.sight s) (look k.scene) = k.rule.matches? (k.scene.work.sight s) (look' k.scene)) :
    turns s look rules x = turns s look' rules x := by
  induction rules generalizing x with
  | nil => rfl
  | cons r rs ih =>
    cases hmatch : r.matches? (x.work.sight s) (look x) with
    | true =>
      rw [turns_matched _ hmatch] at h ⊢
      have hsame : r.matches? (x.work.sight s) (look x) = r.matches? (x.work.sight s) (look' x) :=
        h (taken s r x) (by split <;> exact List.mem_cons_self)
      rw [turns_matched _ (hsame.symm.trans hmatch)]
      split
      · rfl
      · next hgoes =>
        rw [if_neg hgoes] at h
        exact congrArg _ (ih fun k hk => h k (List.mem_cons_of_mem _ hk))
    | false =>
      rw [turns_unmatched _ hmatch] at h ⊢
      have hsame : r.matches? (x.work.sight s) (look x) = r.matches? (x.work.sight s) (look' x) :=
        h _ List.mem_cons_self
      rw [turns_unmatched _ (hsame.symm.trans hmatch)]
      exact congrArg _ (ih fun k hk => h k (List.mem_cons_of_mem _ hk))

end Asked

lemma Task.perform_deletion (h : task = .delete ∨ task = .discard) :
    (task.perform s f w).1.status = .failed ∨ (task.perform s f w).1.status = .applied := by
  unfold perform
  rcases h with rfl | rfl
  · dsimp only
    rw [Workspace.disk_eq]
    rcases Disk.change (removeFile s.host.toActor f.path) w.tree with ⟨_ | _, t'⟩
    · exact Or.inl rfl
    · exact Or.inr rfl
  · dsimp only
    rw [moveTo_eq]
    rcases moveFile s.host.toActor f.path (w.claim s.host.cwd s.trash f.name).1.path _ with ⟨_ | _, t'⟩
    · exact Or.inl rfl
    · exact Or.inr rfl

namespace Action

lemma judge_deletion (hdel : a.isDeletion = true) (h : a.judge s w f = .ok task) : task = .delete ∨ task = .discard := by
  cases a with
  | delete => exact Or.inl (judgeDelete_ok h).1
  | deleteToTrash => exact Or.inr (judgeDiscard_ok h).1
  | _ => cases hdel

/-- A deletion that neither fails nor takes the file away does nothing. -/
lemma run_spared (hdry : s.config.dryRun = false) (hdel : a.isDeletion = true)
    (hfail : (a.run s f w).1.status ≠ .failed) (hcounts : (a.run s f w).1.status.counts = false) :
    (a.run s f w).1.newPath = none ∧ (a.run s f w).2 = w := by
  unfold run at hfail hcounts ⊢
  cases hj : a.judge s w f with
  | error r => exact ⟨(judge_idle hj).2, rfl⟩
  | ok task =>
    rw [hj] at hfail hcounts
    dsimp only at hfail hcounts
    rw [if_neg (by simp [hdry])] at hfail hcounts
    rcases Task.perform_deletion (s := s) (f := f) (w := w) (judge_deletion hdel hj) with hstatus | hstatus
    · exact absurd hstatus hfail
    · rw [hstatus] at hcounts
      cases hcounts

end Action

namespace Scene

/-- The file is described as it is, unless it is a dry run, in which nothing is looked at. -/
def Known (s : Setting) (x : Scene) : Prop :=
  s.config.dryRun = false → x.work.tree.Sound ∧ x.work.tree.Plain ∧ x.file.Current s.host.cwd x.work.tree

section

variable {x : Scene} {rule : String} (hcwd : ∀ n ∈ s.host.cwd, Proper n) (hroot : s.root.isAbsolute = true)

include hcwd hroot

lemma Known.act (h : x.Known s) (hlaunch : ∀ p as n, a ≠ .runCommand p as n)
    (hlast : (⟨rule, a, (x.act s a).1⟩ : Step).isLast = false) : (x.act s a).2.Known s := by
  intro hdry
  obtain ⟨hs, hp, hcur⟩ := h hdry
  obtain ⟨-, hcur', -⟩ := Outcome.refresh_current hcwd hs hp hcur
  obtain ⟨hfail, htakes⟩ := Bool.or_eq_false_iff.1 hlast
  have hok : (a.run s (x.now s) x.work).1.status ≠ .failed := of_decide_eq_false hfail
  have hwork : (x.act s a).2.work = (a.run s (x.now s) x.work).2 := by
    unfold Scene.act around
    dsimp only
    split
    · rw [if_neg (by simp [hdry])]
    · rfl
  rw [hwork]
  change _ ∧ _ ∧ ((a.run s (x.now s) x.work).1.take (x.now s)).Current _ _
  by_cases hdel : a.isDeletion = true
  · have hcounts : (a.run s (x.now s) x.work).1.status.counts = false := (Bool.and_eq_false_imp.1 htakes) hdel
    obtain ⟨hnew, hsame⟩ := Action.run_spared hdry hdel hok hcounts
    rw [hsame, Task.take_of_none hnew]
    exact ⟨hs, hp, hcur'⟩
  · exact Action.run_current hdry hroot hs (by simpa using hdel) hlaunch hp hcur' hok

lemma Known.actAll {as : List Action} (h : x.Known s) (hlaunch : ∀ p xs n, .runCommand p xs n ∉ as)
    (hlast : (x.actAll s rule as).1.any Step.isLast = false) : (x.actAll s rule as).2.Known s := by
  induction as generalizing x with
  | nil => exact h
  | cons a as ih =>
    rw [Scene.actAll, List.any_cons, Bool.or_eq_false_iff] at hlast
    refine ih (h.act hcwd hroot ?_ hlast.1) (fun p xs n ha => hlaunch p xs n (List.mem_cons_of_mem a ha)) hlast.2
    rintro p xs n rfl
    exact hlaunch p xs n List.mem_cons_self

end

end Scene

/-- No rule judges the file by an old description, if no program is launched and no rule asks for hidden files. -/
theorem Asked.turns_known (hcwd : ∀ n ∈ s.host.cwd, Proper n) (hroot : s.root.isAbsolute = true) {rules : List Rule}
    {x : Scene} (h : x.Known s) (hlaunch : ∀ r ∈ rules, ∀ p xs n, .runCommand p xs n ∉ r.actions)
    (hhidden : ∀ r ∈ rules, .isHidden ∉ r.conditions) : ∀ k ∈ turns s Scene.file rules x, k.UpToDate s := by
  induction rules generalizing x with
  | nil => simp [turns, all, through]
  | cons r rs ih =>
    have hfirst : r.matches? (x.work.sight s) x.file = r.matches? (x.work.sight s) (x.now s) :=
      (Rule.matches?_refresh hcwd h (hhidden r List.mem_cons_self)).symm
    have hrest : ∀ {y : Scene}, y.Known s → ∀ k ∈ turns s Scene.file rs y, k.UpToDate s := fun hy =>
      ih hy (fun r' hr' => hlaunch r' (List.mem_cons_of_mem r hr')) fun r' hr' => hhidden r' (List.mem_cons_of_mem r hr')
    cases hmatch : r.matches? (x.work.sight s) x.file with
    | false =>
      rw [turns_unmatched _ hmatch, List.forall_mem_cons]
      exact ⟨hfirst, hrest h⟩
    | true =>
      rw [turns_matched _ hmatch, ends_taken]
      split
      · rw [List.forall_mem_singleton]
        exact hfirst
      · next hgoes =>
        rw [List.forall_mem_cons]
        refine ⟨hfirst, hrest (h.actAll hcwd hroot (hlaunch r List.mem_cons_self) ?_)⟩
        exact Bool.eq_false_of_not_eq_true fun hany => hgoes (by rw [hany, Bool.true_or])

/-- The records lead from one path to the other, each from where the one before it has led. -/
inductive Route : Path → List UndoRecord → Path → Prop
  | stay {p q : Path} (h : p.same q = true) : Route p [] q
  | go {p q : Path} {m : UndoRecord} {ms : List UndoRecord} (h : p.same m.source = true) (hrest : Route m.target ms q) :
    Route p (m :: ms) q

lemma Route.refl (p : Path) : Route p [] p := .stay (beq_self_eq_true _)

lemma Route.concat {m : UndoRecord} {ms : List UndoRecord} (h : Route p ms q) (hm : q.same m.source = true) :
    Route p (ms ++ [m]) m.target := by
  induction h with
  | stay h => exact .go (beq_iff_eq.2 ((beq_iff_eq.1 h).trans (beq_iff_eq.1 hm))) (.refl _)
  | go h _ ih => exact .go h (ih hm)

/-- A result that says where the file went takes down this move and nothing else. Any other takes down copies at
most. -/
def Effect.Locates (s : Setting) (f : FileInfo) (r : Effect) : Prop :=
  r.newPath = none ∧ (∀ m ∈ r.records, m.mode = .copy) ∨
    ∃ target, target.isAbsolute = true ∧ r.newPath = some target ∧ r.status = .applied ∧
      r.records = [Task.record s f target .move]

lemma Effect.locates_of_copies {r : Effect} (ps : List Path) (hnew : r.newPath = none)
    (hrecords : r.records = ps.map fun p => Task.record s f p .copy) : r.Locates s f := by
  refine Or.inl ⟨hnew, fun m hm => ?_⟩
  rw [hrecords] at hm
  obtain ⟨p, -, rfl⟩ := List.mem_map.1 hm
  rfl

lemma Effect.locates_of_idle {r : Effect} (h : r.Idle) : r.Locates s f := locates_of_copies [] h.2 h.1

namespace Task

open Effect

lemma moveTo_locates {target : Path} (ha : target.isAbsolute = true) (told : String) (why : Fault → String) :
    (moveTo s f w target told why).1.Locates s f := by
  rcases moveTo_records target told why with ⟨hnew, hrecords⟩ | ⟨hnew, hstatus, hrecords⟩
  · exact locates_of_idle ⟨hrecords, hnew⟩
  · exact Or.inr ⟨target, ha, hnew, hstatus, hrecords⟩

lemma perform_locates (hf : f.path.isAbsolute = true) (htrash : s.trash.isAbsolute = true)
    (hdir : ∀ dir, task = .transfer .move dir → dir.isAbsolute = true) : (task.perform s f w).1.Locates s f := by
  unfold perform
  cases task with
  | rename newName template =>
    dsimp only
    exact moveTo_locates (isAbsolute_claim (Path.isAbsolute_parent hf) newName) _ _
  | transfer mode dir =>
    cases mode with
    | move =>
      dsimp only
      exact moveTo_locates (isAbsolute_claim (hdir dir rfl) f.name) _ _
    | copy =>
      dsimp only
      rw [Workspace.disk_eq]
      rcases copyFile s.host.toActor f.path (w.claim s.host.cwd dir f.name).1.path _ with ⟨_ | _, t'⟩
      · exact locates_of_idle ⟨rfl, rfl⟩
      · exact locates_of_copies [_] rfl rfl
  | delete =>
    dsimp only
    rw [Workspace.disk_eq]
    rcases Disk.change (removeFile s.host.toActor f.path) w.tree with ⟨_ | _, t'⟩ <;> exact locates_of_idle ⟨rfl, rfl⟩
  | discard =>
    dsimp only
    exact moveTo_locates (isAbsolute_claim htrash f.name) _ _
  | launch program args timeout =>
    dsimp only
    rcases s.host.launch program args timeout w.tree with ⟨_ | code, t'⟩
    · exact locates_of_idle ⟨rfl, rfl⟩
    · dsimp only
      split <;> exact locates_of_idle ⟨rfl, rfl⟩
  | archive dir name =>
    dsimp only
    rw [Workspace.disk_eq]
    rcases Archive.write s.host f.path f.name (w.claim s.host.cwd dir name).1.path _ with ⟨_ | _, t'⟩
    · exact locates_of_idle ⟨rfl, rfl⟩
    · exact locates_of_copies [_] rfl rfl
  | extract dir name =>
    dsimp only
    rcases Archive.extract s.host f.path (w.claim s.host.cwd dir name).1.path _ with ⟨⟨_ | _, made⟩, t'⟩ <;>
      exact locates_of_copies made rfl rfl
  | makeDirs dir =>
    dsimp only
    rw [Workspace.disk_eq]
    rcases Disk.makeDirs s.host.toActor dir w.tree with ⟨_ | _, t'⟩
    · exact locates_of_idle ⟨rfl, rfl⟩
    · exact locates_of_copies [_] rfl rfl
  | addTag tag =>
    dsimp only
    split <;> exact locates_of_idle ⟨rfl, rfl⟩
  | removeTag tag =>
    dsimp only
    split <;> exact locates_of_idle ⟨rfl, rfl⟩
  | setColor color => exact locates_of_idle ⟨rfl, rfl⟩
  | mark tag twin =>
    dsimp only
    rcases w.store.index s.host w.tree f.path with ⟨_ | _, store⟩
    · exact locates_of_idle ⟨rfl, rfl⟩
    · cases twin <;> exact locates_of_idle ⟨rfl, rfl⟩

end Task

lemma Action.run_locates (hdry : s.config.dryRun = false) (hroot : s.root.isAbsolute = true)
    (htrash : s.trash.isAbsolute = true) (hf : f.path.isAbsolute = true) : (a.run s f w).1.Locates s f := by
  unfold run
  cases hj : a.judge s w f with
  | error r => exact Effect.locates_of_idle (judge_idle hj)
  | ok task =>
    dsimp only
    rw [if_neg (by simp [hdry])]
    refine Task.perform_locates hf htrash fun dir hdir => ?_
    rw [hdir] at hj
    obtain ⟨template, htemplate⟩ := judge_transfer hj
    rw [htemplate, Template.directory, Path.isAbsolute_join (text_of_absolute hroot), hroot, Bool.true_or]

namespace Outcome

/-- The moves that were taken down. -/
def moves (o : Outcome) : List UndoRecord := o.records.filter (·.mode = .move)

/-- Where an action that was done last put the file. -/
def relocation? (o : Outcome) : Option Path :=
  (o.steps.filterMap fun t => if t.effect.status = .applied then t.effect.newPath else none).getLast?

/-- The moves have led from `p` to where the file is held to be by now. -/
structure Led (p : Path) (o : Outcome) : Prop where
  absolute : o.file.path.isAbsolute = true
  moves : Route p o.moves (o.relocation?.getD p)
  file : (o.relocation?.getD p).same o.file.path = true

lemma moves_concat {x : Step} {g : FileInfo} : ({ o with file := g, steps := o.steps ++ [x] } : Outcome).moves =
    o.moves ++ x.effect.records.filter (·.mode = .move) := by
  rw [moves, records_concat, List.filter_append]
  rfl

lemma relocation?_concat {x : Step} {g : FileInfo} :
    ({ o with file := g, steps := o.steps ++ [x] } : Outcome).relocation? =
      (if x.effect.status = .applied then x.effect.newPath else none).or o.relocation? := by
  rw [relocation?, List.filterMap_append, List.getLast?_append]
  split_ifs with happlied
  · cases hnew : x.effect.newPath <;> simp [happlied, hnew, relocation?]
  · simp [happlied, relocation?]

lemma Led.runAction (hcwd : ∀ n ∈ s.host.cwd, Proper n) (hdry : s.config.dryRun = false)
    (hroot : s.root.isAbsolute = true) (htrash : s.trash.isAbsolute = true) (rule : String) (a : Action)
    (h : o.Led p) : (o.runAction s rule a w).1.Led p := by
  have hparts := refresh_parts (s := s) (w := w) hcwd fun _ => h.absolute
  have hf := Path.isAbsolute_of_parts hparts h.absolute
  have hat : (o.relocation?.getD p).same (refresh s w o.file).path = true :=
    beq_iff_eq.2 ((beq_iff_eq.1 h.file).trans hparts.symm)
  have hlocates := Action.run_locates (w := w) (a := a) hdry hroot htrash hf
  rw [runAction_fst]
  generalize (a.run s (refresh s w o.file) w).1 = r at hlocates
  generalize refresh s w o.file = f at hf hat hlocates
  -- the file stays, or it goes on from where the moves have led
  rcases hlocates with ⟨hnew, hcopies⟩ | ⟨target, htarget, hnew, hstatus, hrecords⟩
  · have hmoves : r.records.filter (fun m => decide (m.mode = .move)) = [] := by
      apply List.filter_eq_nil_iff.2
      intro m hm
      simp [hcopies m hm]
    have hfile : r.take f = f := Task.take_of_none hnew
    have hnone : (if r.status = .applied then r.newPath else none) = none := by rw [hnew, ite_self]
    refine ⟨?_, ?_, ?_⟩
    · rwa [hfile]
    · rw [moves_concat, relocation?_concat, hmoves, List.append_nil, hnone, Option.none_or]
      exact h.moves
    · rw [relocation?_concat, hnone, Option.none_or, hfile]
      exact hat
  · have hfile : (r.take f).path = target := Task.take_of_some hnew
    refine ⟨?_, ?_, ?_⟩
    · rwa [hfile]
    · rw [moves_concat, relocation?_concat, if_pos hstatus, hnew, hrecords]
      exact h.moves.concat hat
    · rw [relocation?_concat, if_pos hstatus, hnew, hfile]
      exact beq_self_eq_true _

/-- A trial run moves nothing. -/
lemma runRules_unmoved (hdry : s.config.dryRun = true) (rules : List Rule) (h : o.Tried) (hrecords : o.records = []) :
    (runRules s rules o w).1.moves = [] ∧ (runRules s rules o w).1.relocation? = none := by
  refine ⟨by rw [moves, (runRules_dry hdry rules o w hrecords).2, List.filter_nil], ?_⟩
  have hnone : ((runRules s rules o w).1.steps.filterMap fun t =>
      if t.effect.status = .applied then t.effect.newPath else none) = [] := by
    apply List.filterMap_eq_nil_iff.2
    intro t ht
    refine if_neg fun happlied => ?_
    rcases (runRules_tried hdry rules h).steps t ht with hwould | hbarren
    · rw [hwould] at happlied
      cases happlied
    · have hcounts := hbarren.status
      rw [happlied] at hcounts
      cases hcounts
  rw [relocation?, hnone, List.getLast?_nil]

end Outcome

/-- What is told of a file that has come through the rules. The actions that were run are those of the rules that
matched, in their order, up to the first that failed or took the file away; the rules that matched are those that had
their turn and matched the file as it was held to be, up to the one with that action or the first that stops on a
match. They are those that match the file as it is at their turn, unless a rule that has its turn tells the two apart.
There is one line in the log for each action, the records are those of the actions, and the moves among them lead from
where the file was found to where it was last put. -/
theorem Rule.runAll_trace (hcwd : ∀ n ∈ s.host.cwd, Proper n) (hroot : s.root.isAbsolute = true)
    (htrash : s.trash.isAbsolute = true) (hf : f.path.isAbsolute = true) (rules : List Rule) :
    (Rule.runAll s rules f w).1.Follows (Asked.turns s Scene.file rules ⟨f, w⟩) ∧
      ((∀ k ∈ Asked.turns s Scene.file rules ⟨f, w⟩, k.UpToDate s) →
        (Rule.runAll s rules f w).1.Follows (Asked.turns s (Scene.now s) rules ⟨f, w⟩)) ∧
      (Rule.runAll s rules f w).1.log = (Rule.runAll s rules f w).1.steps.map Step.line ∧
      (Rule.runAll s rules f w).1.records = (Rule.runAll s rules f w).1.steps.flatMap (·.effect.records) ∧
      ((Rule.runAll s rules f w).1.success = true ↔
        ∀ t ∈ (Rule.runAll s rules f w).1.steps, t.effect.status ≠ .failed) ∧
      ((Rule.runAll s rules f w).1.handled = true ↔ (Rule.runAll s rules f w).1.matched ≠ []) ∧
      Route f.path (Rule.runAll s rules f w).1.moves ((Rule.runAll s rules f w).1.relocation?.getD f.path) := by
  have hfollows : (Rule.runAll s rules f w).1.Follows (Asked.turns s Scene.file rules ⟨f, w⟩) := by
    obtain ⟨hmatched, hsteps⟩ := Outcome.runRules_scene (s := s) rules { origin := f.path, file := f } w
    exact ⟨hsteps, hmatched⟩
  refine ⟨hfollows, fun hsame => Asked.turns_congr hsame ▸ hfollows, rfl, rfl, ?_, ?_, ?_⟩
  · simp [Outcome.success]
  · simp [Outcome.handled]
  · cases hdry : s.config.dryRun with
    | true =>
      obtain ⟨hmoves, hnone⟩ := Outcome.runRules_unmoved (w := w) hdry rules
        (o := { origin := f.path, file := f }) ⟨by simp, fun _ => rfl⟩ rfl
      rw [Rule.runAll, hmoves, hnone]
      exact .refl _
    | false =>
      have hled : (Rule.runAll s rules f w).1.Led f.path :=
        Outcome.runRules_keeps (I := fun o _ => o.Led f.path) ⟨hf, .refl _, beq_self_eq_true _⟩
          (fun _ _ _ _ h => ⟨h.absolute, h.moves, h.file⟩)
          fun r _ a _ _ _ _ h => h.runAction hcwd hdry hroot htrash r.name a
      exact hled.moves

/-- A file is renamed and moved, and a second rule goes by what became of it. -/
def handedOn : List Rule :=
  [{ name := "first", actions := [.rename "b.txt", .move "docs"] },
    { name := "second", conditions := [.parentContains "docs"], actions := [.addTag "new"], stopOnMatch := true },
    { name := "third", actions := [.delete] }]

def dotted : Tree := ⟨[(["r"], .dir ⟨⟨0, 0⟩, false⟩), (["r", ".a.txt"], .file ⟨#[1]⟩ ⟨⟨0, 0⟩, false⟩)]⟩

/-- The first rule makes a hidden file one that is not, and the second asks for hidden files. -/
def unhiding : List Rule :=
  [{ name := "first", actions := [.rename "a.txt"] },
    { name := "second", conditions := [.isHidden], actions := [.addTag "new"] }]

theorem Rule.runAll_trace_handedOn :
    (Rule.runAll onTop handedOn (Job.found "/r/a.txt") ⟨Job.twoFiles, .empty, [], .empty⟩).1.Follows
        (Asked.turns onTop (Scene.now onTop) handedOn ⟨Job.found "/r/a.txt", Job.twoFiles, .empty, [], .empty⟩) ∧
      (Rule.runAll onTop handedOn (Job.found "/r/a.txt") ⟨Job.twoFiles, .empty, [], .empty⟩).1.matched =
        ["first", "second"] ∧
      Route (Job.found "/r/a.txt").path (Rule.runAll onTop handedOn (Job.found "/r/a.txt")
        ⟨Job.twoFiles, .empty, [], .empty⟩).1.moves ⟨"/r/docs/b.txt"⟩ := by
  obtain ⟨-, hnow, -, -, -, -, hroute⟩ := Rule.runAll_trace (s := onTop) (f := Job.found "/r/a.txt")
    (w := ⟨Job.twoFiles, .empty, [], .empty⟩) (by decide) (by decide +kernel) (by decide +kernel) (by decide +kernel)
    handedOn
  have hlast : (Rule.runAll onTop handedOn (Job.found "/r/a.txt") ⟨Job.twoFiles, .empty, [], .empty⟩).1.relocation? =
      some ⟨"/r/docs/b.txt"⟩ := by decide +kernel
  have hknown : Scene.Known onTop ⟨Job.found "/r/a.txt", Job.twoFiles, .empty, [], .empty⟩ := fun _ =>
    ⟨Job.sound_twoFiles, plain_of_entries (by decide), by decide +kernel, rfl, rfl, _, _, _, rfl, rfl, rfl, rfl⟩
  rw [hlast, Option.getD_some] at hroute
  refine ⟨hnow (Asked.turns_known (by decide) (by decide +kernel) hknown ?_ ?_), by decide +kernel, hroute⟩
  · simp [handedOn]
  · simp [handedOn]

/-- After the first rule the file is still taken for hidden, until it is looked at for another action. -/
theorem Rule.runAll_trace_hidden : ¬∀ (s : Setting) (rules : List Rule) (f : FileInfo) (w : Workspace),
    (∀ n ∈ s.host.cwd, Proper n) → s.root.isAbsolute = true → s.trash.isAbsolute = true → f.path.isAbsolute = true →
    FileInfo.read s.host.toActor w.tree f.path = .ok f →
    (Rule.runAll s rules f w).1.Follows (Asked.turns s (Scene.now s) rules ⟨f, w⟩) := by
  intro h
  have hfollows := h onTop unhiding (Job.found "/r/.a.txt") ⟨dotted, .empty, [], .empty⟩ (by decide) (by decide +kernel)
    (by decide +kernel) (by decide +kernel) (by rfl)
  have hcode : (Rule.runAll onTop unhiding (Job.found "/r/.a.txt") ⟨dotted, .empty, [], .empty⟩).1.matched =
      ["first", "second"] := by decide +kernel
  have hspec : ((Asked.turns onTop (Scene.now onTop) unhiding
      ⟨Job.found "/r/.a.txt", dotted, .empty, [], .empty⟩).filter Asked.matched).map (·.rule.name) = ["first"] := by
    decide +kernel
  have hmatched := hfollows.matched
  rw [hcode, hspec] at hmatched
  cases hmatched

end FileOrganizer
