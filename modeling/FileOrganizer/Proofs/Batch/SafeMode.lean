import FileOrganizer.Proofs.Batch.Current

/-! In safe mode a file goes through the rules as it would if they had no deletions in them. -/

namespace FileOrganizer

open FileOrganizer.Tree FileOrganizer.Disk

variable {s : Setting} {w : Workspace} {f g : FileInfo} {a : Action} {as : List Action} {rs : List Rule} {r : Rule}
  {o o' : Outcome} {rule : String} {task : Task}

/-- The rule without what it deletes. -/
def Rule.sparing (r : Rule) : Rule := { r with actions := r.actions.filter fun a => !a.isDeletion }

namespace Action

/-- In safe mode a deletion is judged, and nothing comes of it. -/
lemma run_deletion (hsafe : s.config.safeMode = true) (hdel : a.isDeletion = true) :
    ∃ e : Effect, a.run s f w = (e, w) ∧ e.Barren ∧ e.status ≠ .failed := by
  have hjudge : ∃ e, a.judge s w f = .error e ∧ e.status ≠ .failed := by
    cases a with
    | delete =>
      unfold judge judgeDelete
      split_ifs
      · exact ⟨_, rfl, by simp [Effect.skipped]⟩
      · exact ⟨_, rfl, by simp [Effect.blocked]⟩
    | deleteToTrash =>
      unfold judge judgeDiscard
      split_ifs
      · exact ⟨_, rfl, by simp [Effect.skipped]⟩
      · exact ⟨_, rfl, by simp [Effect.blocked]⟩
    | _ => cases hdel
  obtain ⟨e, hj, hstatus⟩ := hjudge
  exact ⟨e, by rw [run, hj], judge_barren hj, hstatus⟩

end Action

namespace Outcome

/-- What an action does depends on the file as it is by now, and on nothing else that was known of it. -/
lemma runAction_snd (h : refresh s w o.file = refresh s w o'.file) (rule : String) (a : Action) :
    (o.runAction s rule a w).2 = (o'.runAction s rule a w).2 := by
  unfold runAction
  rw [h]
  dsimp only
  split <;> rfl

/-- The file is described as it is, unless it is a dry run, in which nothing is looked at. -/
def Known (s : Setting) (w : Workspace) (o : Outcome) : Prop :=
  s.config.dryRun = false → w.tree.Sound ∧ w.tree.Plain ∧ o.file.Current s.host.cwd w.tree

/-- The second outcome is the first one without its deletions, of which nothing came. They have but looked at the file
once more. -/
structure Shadows (s : Setting) (w : Workspace) (o o' : Outcome) : Prop where
  origin : o.origin = o'.origin
  matched : o.matched = o'.matched
  steps : o.steps.filter (fun t => !t.action.isDeletion) = o'.steps
  forbidden : ∀ t ∈ o.steps, t.action.isDeletion = true → t.effect.Barren ∧ t.effect.status ≠ .failed
  file : o.file = o'.file ∨ o.file = refresh s w o'.file
  absolute : s.config.dryRun = false → o'.file.path.isAbsolute = true

namespace Shadows

variable (h : o.Shadows s w o') (hknown : o'.Known s w)

include h hknown

lemma refresh_eq : refresh s w o.file = refresh s w o'.file := by
  rcases h.file with hfile | hfile
  · rw [hfile]
  · rw [hfile]
    by_cases hdry : s.config.dryRun = true
    · rw [refresh, if_pos hdry]
    · exact refresh_refresh (hknown (by simpa using hdry)).2.2.absolute

lemma matches?_eq (hcwd : ∀ n ∈ s.host.cwd, Proper n) (hhidden : .isHidden ∉ r.conditions) :
    r.matches? (w.sight s) o.file = r.matches? (w.sight s) o'.file := by
  rcases h.file with hfile | hfile
  · rw [hfile]
  · rw [hfile]
    exact Rule.matches?_refresh hcwd hknown hhidden

/-- A forbidden deletion leaves everything as it is. -/
lemma deletion (hsafe : s.config.safeMode = true) (hdel : a.isDeletion = true) (rule : String) :
    (o.runAction s rule a w).1.Shadows s w o' ∧ (o.runAction s rule a w).2 = w ∧
      (o.runAction s rule a w).1.steps.getLast?.map Step.isLast = some false := by
  obtain ⟨e, hrun, hbarren, hstatus⟩ := Action.run_deletion (f := refresh s w o.file) (w := w) hsafe hdel
  have hfst := runAction_fst (s := s) o rule a w
  have htake : e.take (refresh s w o.file) = refresh s w o.file := by rw [Effect.take, hbarren.idle.2]
  rw [hrun, htake] at hfst
  refine ⟨?_, ?_, ?_⟩
  · rw [hfst]
    refine ⟨h.origin, h.matched, ?_, fun t ht hdel' => ?_, Or.inr (h.refresh_eq hknown), h.absolute⟩
    · simp [hdel, h.steps]
    · rcases List.mem_append.1 ht with ht | ht
      · exact h.forbidden t ht hdel'
      · obtain rfl := List.mem_singleton.1 ht
        exact ⟨hbarren, hstatus⟩
  · unfold runAction
    dsimp only
    rw [hrun]
    dsimp only
    rw [hbarren.idle.2]
  · rw [hfst]
    simp [Step.isLast, Step.takesAway, hbarren.status, hstatus]

/-- Any other action does the same in both runs. -/
lemma action (hroot : s.root.isAbsolute = true) (hcwd : ∀ n ∈ s.host.cwd, Proper n) (hdel : a.isDeletion = false)
    (hlaunch : ∀ p as n, a ≠ .runCommand p as n) (rule : String) :
    (o.runAction s rule a w).2 = (o'.runAction s rule a w).2 ∧
      (o.runAction s rule a w).1.Shadows s (o'.runAction s rule a w).2 (o'.runAction s rule a w).1 ∧
      (o.runAction s rule a w).1.steps.getLast? = (o'.runAction s rule a w).1.steps.getLast? ∧
      ((o'.runAction s rule a w).1.steps.getLast?.map Step.isLast = some false →
        (o'.runAction s rule a w).1.Known s (o'.runAction s rule a w).2) := by
  have hrefresh := h.refresh_eq hknown
  have hfst := runAction_fst (s := s) o rule a w
  have hfst' := runAction_fst (s := s) o' rule a w
  rw [hrefresh] at hfst
  refine ⟨runAction_snd hrefresh rule a, ?_, ?_, fun hlast hdry => ?_⟩
  · rw [hfst, hfst']
    refine ⟨h.origin, h.matched, ?_, fun t ht hdel' => ?_, Or.inl rfl, fun hdry => ?_⟩
    · simp [hdel, h.steps]
    · rcases List.mem_append.1 ht with ht | ht
      · exact h.forbidden t ht hdel'
      · obtain rfl := List.mem_singleton.1 ht
        rw [hdel] at hdel'
        cases hdel'
    · have habs := Path.isAbsolute_of_parts (refresh_parts (w := w) hcwd h.absolute) (h.absolute hdry)
      exact Action.run_absolute hdry hroot (hknown hdry).1 hdel hlaunch habs
  · rw [hfst, hfst']
    simp
  · obtain ⟨hs, hp, hcur⟩ := hknown hdry
    obtain ⟨-, hcur', -⟩ := refresh_current hcwd hs hp hcur
    rw [hfst'] at hlast ⊢
    rw [runAction_tree]
    refine Action.run_current hdry hroot hs hdel hlaunch hp hcur' ?_
    intro hfailed
    simp [Step.isLast, hfailed] at hlast

end Shadows

section

variable (hcwd : ∀ n ∈ s.host.cwd, Proper n) (hroot : s.root.isAbsolute = true) (hsafe : s.config.safeMode = true)

include hcwd hroot hsafe

lemma runActions_shadows (rule : String) (hlaunch : ∀ p xs n, .runCommand p xs n ∉ as) (h : o.Shadows s w o')
    (hknown : o'.Known s w) : ∃ ended v x x', runActions s rule as o w = (ended, x, v) ∧
      runActions s rule (as.filter fun a => !a.isDeletion) o' w = (ended, x', v) ∧ x.Shadows s v x' ∧
      (ended = false → x'.Known s v) := by
  induction as generalizing o o' w with
  | nil => exact ⟨false, w, o, o', rfl, rfl, h, fun _ => hknown⟩
  | cons a as ih =>
    have hrest : ∀ p xs n, .runCommand p xs n ∉ as := fun p xs n ha => hlaunch p xs n (List.mem_cons_of_mem a ha)
    by_cases hdel : a.isDeletion = true
    · obtain ⟨hshadows, hwork, hlast⟩ := h.deletion hknown hsafe hdel rule
      obtain ⟨ended, v, x, x', hrun, hrun', hrest'⟩ := ih hrest hshadows hknown
      refine ⟨ended, v, x, x', ?_, ?_, hrest'⟩
      · unfold runActions
        dsimp only
        rw [hlast, hwork]
        exact hrun
      · rw [List.filter_cons_of_neg (by simp [hdel])]
        exact hrun'
    · have hdel' : a.isDeletion = false := by simpa using hdel
      obtain ⟨hwork, hshadows, hlast, hnext⟩ := h.action hknown hroot hcwd hdel'
        (fun p xs n ha => hlaunch p xs n (ha ▸ List.mem_cons_self)) rule
      rw [List.filter_cons_of_pos (by simp [hdel])]
      unfold runActions
      dsimp only
      rw [hlast, hwork]
      by_cases hend : ((o'.runAction s rule a w).1.steps.getLast?.map Step.isLast).getD false = true
      · rw [if_pos hend, if_pos hend]
        exact ⟨true, _, _, _, rfl, rfl, hshadows, by simp⟩
      · rw [if_neg hend, if_neg hend]
        refine ih hrest hshadows (hnext ?_)
        rw [runAction_fst, List.getLast?_concat] at hend ⊢
        simpa using hend

lemma runRules_shadows (hlaunch : ∀ r ∈ rs, ∀ p xs n, .runCommand p xs n ∉ r.actions)
    (hhidden : ∀ r ∈ rs, .isHidden ∉ r.conditions) (h : o.Shadows s w o') (hknown : o'.Known s w) :
    ∃ v x x', runRules s rs o w = (x, v) ∧ runRules s (rs.map Rule.sparing) o' w = (x', v) ∧ x.Shadows s v x' := by
  induction rs generalizing o o' w with
  | nil => exact ⟨w, o, o', rfl, rfl, h⟩
  | cons r rs ih =>
    have hrest : ∀ {w o o'}, o.Shadows s w o' → o'.Known s w → ∃ v x x', runRules s rs o w = (x, v) ∧
        runRules s (rs.map Rule.sparing) o' w = (x', v) ∧ x.Shadows s v x' :=
      ih (fun x hx => hlaunch x (List.mem_cons_of_mem r hx)) (fun x hx => hhidden x (List.mem_cons_of_mem r hx))
    have hmatch : r.sparing.matches? (w.sight s) o'.file = r.matches? (w.sight s) o.file :=
      (h.matches?_eq hknown hcwd (hhidden r List.mem_cons_self)).symm
    rw [List.map_cons]
    unfold runRules
    rw [hmatch]
    by_cases hm : r.matches? (w.sight s) o.file = true
    · rw [if_pos hm, if_pos hm]
      have hsh : ({ o with matched := o.matched ++ [r.name] } : Outcome).Shadows s w
          { o' with matched := o'.matched ++ [r.name] } :=
        ⟨h.origin, congrArg (· ++ [r.name]) h.matched, h.steps, h.forbidden, h.file, h.absolute⟩
      obtain ⟨ended, v, x, x', hrun, hrun', hshadows, hnext⟩ := runActions_shadows hcwd hroot hsafe r.name
        (hlaunch r List.mem_cons_self) hsh hknown
      rw [hrun, show runActions s r.sparing.name r.sparing.actions
        { o' with matched := o'.matched ++ [r.sparing.name] } w =
        (ended, x', v) from hrun']
      dsimp only
      by_cases hstop : (ended || r.stopOnMatch) = true
      · rw [if_pos hstop, if_pos (show (ended || r.sparing.stopOnMatch) = true from hstop)]
        exact ⟨v, x, x', rfl, rfl, hshadows⟩
      · rw [if_neg hstop, if_neg (show ¬(ended || r.sparing.stopOnMatch) = true from hstop)]
        refine hrest hshadows (hnext ?_)
        cases ended with
        | false => rfl
        | true => exact absurd rfl hstop
    · rw [if_neg hm, if_neg hm]
      exact hrest h hknown

end

namespace Shadows

variable (h : o.Shadows s w o')

include h

lemma filter_steps {β : Type} (g : Step → List β) (hg : ∀ t ∈ o.steps, t.action.isDeletion = true → g t = []) :
    o.steps.flatMap g = o'.steps.flatMap g := by
  rw [← h.steps]
  generalize o.steps = ts at hg
  induction ts with
  | nil => rfl
  | cons t ts ih =>
    have hrest := ih fun x hx => hg x (List.mem_cons_of_mem t hx)
    by_cases hdel : t.action.isDeletion = true
    · rw [List.filter_cons_of_neg (by simp [hdel]), List.flatMap_cons, hg t List.mem_cons_self hdel, List.nil_append,
        hrest]
    · rw [List.filter_cons_of_pos (by simp [hdel]), List.flatMap_cons, List.flatMap_cons, hrest]

lemma records_eq : o.records = o'.records :=
  h.filter_steps _ fun t ht hdel => (h.forbidden t ht hdel).1.idle.1

lemma success_eq : o.success = o'.success := by
  unfold success
  rw [Bool.eq_iff_iff, List.all_eq_true, List.all_eq_true, ← h.steps]
  refine ⟨fun hall t ht => hall t (List.mem_of_mem_filter ht), fun hall t ht => ?_⟩
  by_cases hdel : t.action.isDeletion = true
  · simpa using (h.forbidden t ht hdel).2
  · exact hall t (List.mem_filter.2 ⟨ht, by simp [hdel]⟩)

lemma deleted_eq : o.deleted = false ∧ o'.deleted = false := by
  refine ⟨?_, ?_⟩
  · unfold deleted
    rw [List.any_eq_false]
    intro t ht hdel
    have htakes : t.action = .delete ∧ t.takesAway = true := by simpa using hdel
    have hbarren := (h.forbidden t ht (by rw [htakes.1]; rfl)).1
    simp [Step.takesAway, hbarren.status] at htakes
  · unfold deleted
    rw [List.any_eq_false, ← h.steps]
    intro t ht hdel
    have htakes : t.action = .delete ∧ t.takesAway = true := by simpa using hdel
    have hspared := (List.mem_filter.1 ht).2
    simp [htakes.1, Action.isDeletion] at hspared

lemma copy?_eq : o.copy? = o'.copy? := by
  rw [copy?, copy?, List.filterMap_eq_flatMap_toList, List.filterMap_eq_flatMap_toList]
  refine congrArg List.getLast? (h.filter_steps _ fun t _ hdel => ?_)
  cases ha : t.action <;> simp_all [Action.isDeletion]

/-- The file ends at one path in both runs, however that path is spelled. -/
lemma target?_eq (hcwd : ∀ n ∈ s.host.cwd, Proper n) :
    o.target?.map Path.parts = o'.target?.map Path.parts := by
  have hparts : o.file.path.parts = o'.file.path.parts := by
    rcases h.file with hfile | hfile
    · rw [hfile]
    · rw [hfile]
      exact refresh_parts hcwd h.absolute
  have hsame : o.file.path.same o.origin = o'.file.path.same o'.origin := by rw [Path.same, Path.same, hparts, h.origin]
  rw [target?, target?, h.deleted_eq.1, h.deleted_eq.2, hsame, h.copy?_eq]
  simp only [Bool.false_eq_true, if_false]
  split_ifs
  · rfl
  · exact congrArg some hparts

end Shadows

end Outcome

/-- In safe mode a file comes through the rules as it would through the same rules without deletions: the tree, the tag
store, the claims and the noted changes are the same, and so is what is told of the file, but for the deletions, of
which none was done or would be. -/
theorem Rule.runAll_sparing (hcwd : ∀ n ∈ s.host.cwd, Proper n) (hs : w.tree.Sound) (hp : w.tree.Plain)
    (hroot : s.root.isAbsolute = true) (hf : f.Current s.host.cwd w.tree) (hsafe : s.config.safeMode = true)
    (hlaunch : ∀ r ∈ rs, ∀ p xs n, .runCommand p xs n ∉ r.actions) (hhidden : ∀ r ∈ rs, .isHidden ∉ r.conditions) :
    ∃ v o o', Rule.runAll s rs f w = (o, v) ∧ Rule.runAll s (rs.map Rule.sparing) f w = (o', v) ∧
      o.matched = o'.matched ∧ o.handled = o'.handled ∧ o.success = o'.success ∧ o.records = o'.records ∧
      o.target?.map Path.parts = o'.target?.map Path.parts ∧
      o.steps.filter (fun t => !t.action.isDeletion) = o'.steps ∧
      ∀ t ∈ o.steps, t.action.isDeletion = true → t.effect.status.counts = false := by
  have hstart : ({ origin := f.path, file := f } : Outcome).Shadows s w { origin := f.path, file := f } :=
    ⟨rfl, rfl, rfl, by simp, Or.inl rfl, fun _ => hf.absolute⟩
  obtain ⟨v, o, o', hrun, hrun', h⟩ :=
    Outcome.runRules_shadows hcwd hroot hsafe hlaunch hhidden hstart fun _ => ⟨hs, hp, hf⟩
  refine ⟨v, o, o', hrun, hrun', h.matched, ?_, h.success_eq, h.records_eq, h.target?_eq hcwd, h.steps, ?_⟩
  · rw [Outcome.handled, Outcome.handled, h.matched]
  · exact fun t ht hdel => (h.forbidden t ht hdel).1.status

section

open Job

/-- A file that a rule is to put into the trash, to move, to delete and to tag. -/
def forbidding : List Rule :=
  [{ name := "rule", actions := [.deleteToTrash, .move "docs", .delete, .addTag "new"] }]

def guarded : Setting := { (plainJob []).setting ⟨"/r"⟩ with config := { safeMode := true } }

end

/-- The file is moved and its tag goes with it, as if there were no deletions before and after. -/
theorem Rule.runAll_sparing_move : ∃ v o o',
    Rule.runAll guarded forbidding (Job.found "/r/a.txt") ⟨Job.twoFiles, .empty, [], .empty⟩ = (o, v) ∧
      Rule.runAll guarded (forbidding.map Rule.sparing) (Job.found "/r/a.txt") ⟨Job.twoFiles, .empty, [], .empty⟩ =
        (o', v) ∧
      o.records = o'.records ∧ o.target?.map Path.parts = o'.target?.map Path.parts ∧
      (∀ t ∈ o.steps, t.action.isDeletion = true → t.effect.status.counts = false) ∧
      v.store.tagsOf ⟨"/r/docs/a.txt"⟩ = ["new"] := by
  obtain ⟨v, o, o', hrun, hrun', -, -, -, hrecords, htarget, -, hforbidden⟩ :=
    Rule.runAll_sparing (s := guarded) (f := Job.found "/r/a.txt")
      (w := ⟨Job.twoFiles, .empty, [], .empty⟩) (by decide) Job.sound_twoFiles (plain_of_entries (by decide))
        (by decide)
      ⟨by decide +kernel, rfl, rfl, _, _, _, rfl, rfl, rfl, rfl⟩ rfl
      (show ∀ r ∈ forbidding, ∀ p xs n, .runCommand p xs n ∉ r.actions by simp [forbidding]) (by simp [forbidding])
  refine ⟨v, o, o', hrun, hrun', hrecords, htarget, hforbidden, ?_⟩
  have htags : (Rule.runAll guarded forbidding (Job.found "/r/a.txt") ⟨Job.twoFiles, .empty, [], .empty⟩).2.store.tagsOf
      ⟨"/r/docs/a.txt"⟩ = ["new"] := by decide +kernel
  rwa [hrun] at htags

end FileOrganizer
