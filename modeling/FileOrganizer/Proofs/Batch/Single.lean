import FileOrganizer.Proofs.Batch.Again
import FileOrganizer.Proofs.Batch.Current

/-! Batches with one rule that takes every file and does one thing to it. Nothing is left to be planned for, and what is
reported of a file is what became of that one action. -/

namespace FileOrganizer

open FileOrganizer.Tree FileOrganizer.Disk

variable {s : Setting} {r : Rule} {a : Action} {f : FileInfo} {fs : List FileInfo} {w : Workspace} {b : Batch}
  {mode : TransferKind} {profile : Profile} {files : List FileInfo}

/-- The rule takes every file, and does one thing to it. -/
structure Rule.Always (r : Rule) (a : Action) : Prop where
  mode : r.mode = .all
  conditions : r.conditions = []
  actions : r.actions = [a]

namespace Outcome

/-- The outcome for a file that one action was run on. -/
def once (r : Rule) (a : Action) (f g : FileInfo) (e : Effect) : Outcome where
  origin := f.path
  file := e.take g
  matched := [r.name]
  steps := [⟨r.name, a, e⟩]

@[simp]
lemma once_handled {g : FileInfo} {e : Effect} : (once r a f g e).handled = true := rfl

@[simp]
lemma once_records {g : FileInfo} {e : Effect} : (once r a f g e).records = e.records := by simp [once, records]

@[simp]
lemma once_status {g : FileInfo} {e : Effect} : (once r a f g e).status = e.status := by
  unfold once status success
  cases he : e.status <;> simp [he, Status.counts]

end Outcome

namespace Rule.Always

lemma runAll (h : r.Always a) (hdry : s.config.dryRun = false) : Rule.runAll s [r] f w =
    (Outcome.once r a f (Outcome.refresh s w f) (a.run s (Outcome.refresh s w f) w).1,
      (a.run s (Outcome.refresh s w f) w).2) := by
  have hmatch : r.matches? (w.sight s) f = true := by
    rw [matches?, h.mode, h.conditions]
    rfl
  have hone : Rule.runAll s [r] f w =
      ({ origin := f.path, file := f, matched := [r.name] } : Outcome).runAction s r.name a w := by
    unfold Rule.runAll
    rw [Outcome.runRules]
    dsimp only
    rw [hmatch, if_pos rfl, h.actions, Outcome.runActions]
    dsimp only
    split
    · rw [if_pos (by simp)]
      rfl
    · rw [Outcome.runActions]
      dsimp only
      split <;> rfl
  rw [hone]
  exact Prod.ext (Outcome.runAction_fst _ _ _ _) (Outcome.runAction_real hdry _ _ _ _)

end Rule.Always

namespace Batch

section

variable (hr : r.Always a) (hdry : s.config.dryRun = false)

include hr hdry

/-- The action is run on the first file, what it did is noted, and the others follow. -/
lemma runRules_always (f : FileInfo) (fs : List FileInfo) (b : Batch) : ∃ b₁ : Batch,
    b₁.work = (a.run s (Outcome.refresh s b.work f) b.work).2 ∧ b₁.session = b.session ∧
      runRules s [r] (f :: fs) b =
        (Outcome.once r a f (Outcome.refresh s b.work f) (a.run s (Outcome.refresh s b.work f) b.work).1 ::
            (runRules s [r] fs ((a.run s (Outcome.refresh s b.work f) b.work).1.records.foldl (note s.host) b₁)).1,
          (runRules s [r] fs ((a.run s (Outcome.refresh s b.work f) b.work).1.records.foldl (note s.host) b₁)).2) := by
  have hall := hr.runAll (f := f) (w := b.work) hdry
  generalize (a.run s (Outcome.refresh s b.work f) b.work) = x at hall ⊢
  refine ⟨(Outcome.once r a f (Outcome.refresh s b.work f) x.1).log.foldl
    (fun b line => b.say s!"{f.name}: {line}") { b with work := x.2 },
    foldl_say (fun line => s!"{f.name}: {line}") _ _, foldl_say_session f _ _, ?_⟩
  rw [runRules, hall]
  dsimp only
  rw [Outcome.once_records]

lemma runRules_handled_always (fs : List FileInfo) (b : Batch) : ∀ o ∈ (runRules s [r] fs b).1, o.handled = true := by
  intro o ho
  obtain ⟨f, w, rfl⟩ := mem_runRules ho
  rw [hr.runAll hdry, Outcome.once_handled]

lemma mem_zip_runRules_always {x : FileInfo × Outcome} (hx : x ∈ fs.zip (runRules s [r] fs b).1) : ∃ w,
    x.2 = Outcome.once r a x.1 (Outcome.refresh s w x.1) (a.run s (Outcome.refresh s w x.1) w).1 := by
  induction fs generalizing b with
  | nil => cases hx
  | cons f fs ih =>
    obtain ⟨b₁, -, -, hrun⟩ := runRules_always hr hdry f fs b
    rw [hrun, List.zip_cons_cons] at hx
    rcases List.mem_cons.1 hx with rfl | hx
    · exact ⟨b.work, rfl⟩
    · exact ih hx

/-- The whole batch is that of the rule. -/
lemma run_always (mode : TransferKind) (files : List FileInfo) (hrules : profile.rules = [r]) (b : Batch) :
    b.run s profile mode files =
      (((visible s files).zip (runRules s [r] (visible s files) b).1).map fun p => ⟨p.1, p.2, none, none⟩,
        (runRules s [r] (visible s files) b).2) := by
  have hhandled := runRules_handled_always hr hdry (visible s files) b
  unfold Batch.run
  dsimp only
  rw [hrules, ← visible]
  generalize runRules s [r] (visible s files) b = x at hhandled ⊢
  obtain ⟨os, b'⟩ := x
  dsimp only at hhandled ⊢
  have hrest : ((visible s files).zip os).filter (fun p => !p.2.handled) = [] :=
    List.filter_eq_nil_iff.2 fun p hp => by simp [hhandled p.2 (List.of_mem_zip hp).2]
  have hplan : planRest s profile.categories mode (visible s files) os b'.work = ([], b'.work) := by
    unfold planRest
    rw [hrest]
    split <;> rfl
  have hdone : runPlan s mode [] b' = ([], b') := by
    unfold runPlan
    split <;> rfl
  rw [hplan]
  dsimp only
  rw [hdone, reports_unplanned]

lemma reported_file_always (mode : TransferKind) (hrules : profile.rules = [r]) {b : Batch} (hf : f ∈ visible s files) :
    ∃ x ∈ (b.run s profile mode files).1, x.file = f := by
  rw [run_always hr hdry mode files hrules]
  rw [← List.map_fst_zip (runRules_length (s := s) [r] (visible s files) b).ge] at hf
  obtain ⟨y, hy, rfl⟩ := List.mem_map.1 hf
  exact ⟨_, List.mem_map_of_mem hy, rfl⟩

lemma reported_always (mode : TransferKind) (hrules : profile.rules = [r]) {b : Batch} {o : Outcome}
    (ho : o ∈ (runRules s [r] (visible s files) b).1) :
    ∃ x ∈ (b.run s profile mode files).1, x.status s.config.dryRun = o.status ∧ x.target? = o.target? := by
  rw [run_always hr hdry mode files hrules]
  rw [← List.map_snd_zip (runRules_length (s := s) [r] (visible s files) b).le] at ho
  obtain ⟨y, hy, rfl⟩ := List.mem_map.1 ho
  refine ⟨_, List.mem_map_of_mem hy, ?_, rfl⟩
  exact if_pos (runRules_handled_always hr hdry _ b y.2 (List.of_mem_zip hy).2)

lemma run_always_statuses (mode : TransferKind) (files : List FileInfo) (hrules : profile.rules = [r]) (b : Batch) :
    (b.run s profile mode files).1.map (·.status s.config.dryRun) =
      (runRules s [r] (visible s files) b).1.map (·.status) := by
  have hhandled := runRules_handled_always hr hdry (visible s files) b
  have hsnd := List.map_snd_zip (runRules_length (s := s) [r] (visible s files) b).le
  rw [run_always hr hdry mode files hrules, List.map_map]
  conv_rhs => rw [← hsnd, List.map_map]
  exact List.map_congr_left fun p hp => if_pos (hhandled p.2 (List.of_mem_zip hp).2)

/-- Where the action is skipped for every file, nothing is done. -/
lemma run_always_idle (mode : TransferKind) (hrules : profile.rules = [r])
    (h : ∀ f ∈ visible s files, ∃ e, a.judge s b.work (Outcome.refresh s b.work f) = .error e ∧ e.status = .skipped) :
    (b.run s profile mode files).2.work = b.work ∧ (b.run s profile mode files).2.session = b.session ∧
      ∀ x ∈ (b.run s profile mode files).1, x.status s.config.dryRun = .skipped := by
  have hidle : ∀ (fs : List FileInfo) (v : Batch), v.work = b.work → v.session = b.session →
      (∀ f ∈ fs, f ∈ visible s files) → (runRules s [r] fs v).2.work = b.work ∧
        (runRules s [r] fs v).2.session = b.session ∧ ∀ o ∈ (runRules s [r] fs v).1, o.status = .skipped := by
    intro fs
    induction fs with
    | nil => exact fun v hw hsession _ => ⟨hw, hsession, by simp [runRules]⟩
    | cons f fs ih =>
      intro v hw hsession hfs
      obtain ⟨e, hj, he⟩ := h f (hfs f List.mem_cons_self)
      obtain ⟨b₁, hb₁, hsession₁, hrun⟩ := runRules_always hr hdry f fs v
      rw [hw] at hb₁ hrun
      have hact : a.run s (Outcome.refresh s b.work f) b.work = (e, b.work) := by rw [Action.run, hj]
      rw [hact] at hb₁ hrun
      dsimp only at hb₁ hrun
      rw [(Action.judge_barren hj).idle.1, List.foldl_nil] at hrun
      obtain ⟨hwork, hsess, hall⟩ := ih b₁ hb₁ (hsession₁.trans hsession) fun g hg => hfs g (List.mem_cons_of_mem _ hg)
      rw [hrun]
      refine ⟨hwork, hsess, ?_⟩
      rintro o (_ | ⟨_, ho⟩)
      · rw [Outcome.once_status, he]
      · exact hall o ho
  have hsnd := congrArg Prod.snd (run_always hr hdry mode files hrules b)
  have hstatus := run_always_statuses hr hdry mode files hrules b
  obtain ⟨hwork, hsession, hall⟩ := hidle (visible s files) b rfl rfl fun f hf => hf
  rw [hsnd]
  refine ⟨hwork, hsession, fun x hx => ?_⟩
  have hmem : x.status s.config.dryRun ∈ (runRules s [r] (visible s files) b).1.map (·.status) :=
    hstatus ▸ List.mem_map_of_mem hx
  obtain ⟨o, ho, heq⟩ := List.mem_map.1 hmem
  rw [← heq, hall o ho]

end

end Batch

end FileOrganizer
