import Mathlib.Tactic.Lemma
import FileOrganizer.Batch.Organizer

/-!
A batch seen as the list of its stages: actions on files, planned moves, and records going to the log, each
with the workspace that it starts from. The tree that one stage leaves is the tree of the next.
-/

namespace FileOrganizer

inductive Deed
  | act (f : FileInfo) (a : Action)
  | transfer (m : PlannedTransfer)
  | note (session : OpenSession) (r : UndoRecord)

structure Stage where
  deed : Deed
  work : Workspace

variable (s : Setting) (mode : TransferKind)

namespace OpenSession

/-- The session belongs to a directory, and so does its log. -/
def IsIn (folder : Path) (session : OpenSession) : Prop :=
  session.folder = folder ∧ ∀ l, session.log = some l → l.folder = folder

variable {folder : Path} {session : OpenSession}

lemma IsIn.add (h : session.IsIn folder) (host : Host) (r : UndoRecord) :
    (session.add host r).folder = folder := by
  cases hl : session.log with
  | none => simpa [OpenSession.add, hl] using h.1
  | some l => simpa [OpenSession.add, hl] using h.2 l hl

lemma IsIn.append (h : session.IsIn folder) (host : Host) (r : UndoRecord) (t : Tree) :
    (session.append host r t).2.1.IsIn folder :=
  ⟨h.1, fun _ hl => Option.some.inj hl ▸ h.add host r⟩

end OpenSession

namespace Stage

def after (st : Stage) : Tree :=
  match st.deed with
  | .act f a => (a.run s f st.work).2.tree
  | .transfer m => (st.work.disk (Batch.transferWork s.host mode m)).2.tree
  | .note session r => (session.append s.host r st.work.tree).2.2

lemma after_act (f : FileInfo) (a : Action) (w : Workspace) :
    after s mode ⟨.act f a, w⟩ = (a.run s f w).2.tree := rfl

lemma after_transfer (m : PlannedTransfer) (w : Workspace) :
    after s mode ⟨.transfer m, w⟩ = (w.disk (Batch.transferWork s.host mode m)).2.tree := rfl

lemma after_note (session : OpenSession) (r : UndoRecord) (w : Workspace) :
    after s mode ⟨.note session r, w⟩ = (session.append s.host r w.tree).2.2 := rfl

/-- The stages lead from one tree to the other. -/
def Chain : Tree → List Stage → Tree → Prop
  | t, [], t' => t = t'
  | t, st :: rest, t' => st.work.tree = t ∧ Chain (st.after s mode) rest t'

variable {s mode} {t t' t'' : Tree} {l l' : List Stage}

lemma Chain.append (h : Chain s mode t l t') (h' : Chain s mode t' l' t'') : Chain s mode t (l ++ l') t'' := by
  induction l generalizing t with
  | nil =>
    obtain rfl := h
    exact h'
  | cons st rest ih => exact ⟨h.1, ih h.2⟩

/-- What every stage keeps up holds at the end. -/
lemma Chain.keeps {I : Tree → Prop} (h : Chain s mode t l t')
    (hstep : ∀ st ∈ l, I st.work.tree → I (st.after s mode)) (ht : I t) : I t' := by
  induction l generalizing t with
  | nil =>
    obtain rfl := h
    exact ht
  | cons st rest ih =>
    obtain ⟨rfl, hrest⟩ := h
    exact ih hrest (fun st' hst' => hstep st' (List.mem_cons_of_mem _ hst'))
      (hstep st List.mem_cons_self ht)

end Stage

namespace Outcome

def actionStages (rule : String) : List Action → Outcome → Workspace → List Stage
  | [], _, _ => []
  | a :: as, o, w =>
    let (o', w') := o.runAction s rule a w
    ⟨.act (refresh s w o.file) a, w⟩ ::
      if (o'.steps.getLast?.map Step.isLast).getD false then [] else actionStages rule as o' w'

def ruleStages : List Rule → Outcome → Workspace → List Stage
  | [], _, _ => []
  | r :: rs, o, w =>
    if r.matches? (w.sight s) o.file then
      let o := { o with matched := o.matched ++ [r.name] }
      let (ended, o', w') := runActions s r.name r.actions o w
      actionStages s r.name r.actions o w ++
        if ended || r.stopOnMatch then [] else ruleStages rs o' w'
    else ruleStages rs o w

variable {s mode}

lemma runAction_tree (o : Outcome) (rule : String) (a : Action) (w : Workspace) :
    (o.runAction s rule a w).2.tree = (a.run s (refresh s w o.file) w).2.tree := by
  unfold runAction
  dsimp only
  split
  · rfl
  · split <;> rfl

lemma actionStages_chain (rule : String) (as : List Action) (o : Outcome) (w : Workspace) :
    Stage.Chain s mode w.tree (actionStages s rule as o w) (runActions s rule as o w).2.2.tree := by
  induction as generalizing o w with
  | nil => rfl
  | cons a as ih =>
    rw [actionStages, runActions]
    dsimp only
    refine ⟨rfl, ?_⟩
    rw [Stage.after_act, ← runAction_tree]
    split
    · rfl
    · exact ih _ _

lemma ruleStages_chain (rules : List Rule) (o : Outcome) (w : Workspace) :
    Stage.Chain s mode w.tree (ruleStages s rules o w) (runRules s rules o w).2.tree := by
  induction rules generalizing o w with
  | nil => rfl
  | cons r rs ih =>
    rw [ruleStages, runRules]
    split
    · dsimp only
      split
      · rw [List.append_nil]
        exact actionStages_chain _ _ _ _
      · exact (actionStages_chain _ _ _ _).append (ih _ _)
    · exact ih o w

lemma mem_actionStages {rule : String} {as : List Action} {o : Outcome} {w : Workspace} {st : Stage}
    (h : st ∈ actionStages s rule as o w) : ∃ f, ∃ a ∈ as, st.deed = .act f a := by
  induction as generalizing o w with
  | nil => cases h
  | cons a as ih =>
    rw [actionStages] at h
    dsimp only at h
    rcases List.mem_cons.1 h with rfl | h
    · exact ⟨_, a, List.mem_cons_self, rfl⟩
    · split at h
      · cases h
      · obtain ⟨f, b, hb, hd⟩ := ih h
        exact ⟨f, b, List.mem_cons_of_mem _ hb, hd⟩

lemma mem_ruleStages {rules : List Rule} {o : Outcome} {w : Workspace} {st : Stage}
    (h : st ∈ ruleStages s rules o w) : ∃ r ∈ rules, ∃ f, ∃ a ∈ r.actions, st.deed = .act f a := by
  induction rules generalizing o w with
  | nil => cases h
  | cons r rs ih =>
    have hrest : ∀ {o w}, st ∈ ruleStages s rs o w →
        ∃ r' ∈ r :: rs, ∃ f, ∃ a ∈ r'.actions, st.deed = .act f a := by
      intro o w h
      obtain ⟨r', hr', hact⟩ := ih h
      exact ⟨r', List.mem_cons_of_mem _ hr', hact⟩
    rw [ruleStages] at h
    dsimp only at h
    split at h
    · rcases List.mem_append.1 h with h | h
      · exact ⟨r, List.mem_cons_self, mem_actionStages h⟩
      · split at h
        · cases h
        · exact hrest h
    · exact hrest h

section

variable {I : Outcome → Workspace → Prop} {o : Outcome} {w : Workspace}

/-- What every action keeps up holds when the actions of a rule have been run. -/
lemma runActions_keeps (rule : String) {as : List Action} (h : I o w)
    (hstep : ∀ a ∈ as, ∀ o' w', ⟨.act (refresh s w' o'.file) a, w'⟩ ∈ actionStages s rule as o w → I o' w' →
      I (o'.runAction s rule a w').1 (o'.runAction s rule a w').2) :
    I (runActions s rule as o w).2.1 (runActions s rule as o w).2.2 := by
  induction as generalizing o w with
  | nil => exact h
  | cons a as ih =>
    rw [actionStages] at hstep
    have hnext := hstep a List.mem_cons_self o w List.mem_cons_self h
    rw [runActions]
    dsimp only
    split
    · exact hnext
    · next hgoes =>
      dsimp only at hstep
      rw [if_neg hgoes] at hstep
      exact ih hnext fun b hb o' w' hmem => hstep b (List.mem_cons_of_mem a hb) o' w' (List.mem_cons_of_mem _ hmem)

/-- What every action keeps up, whichever rules have matched, holds when a file has gone through the rules. -/
lemma runRules_keeps {rules : List Rule} (h : I o w)
    (hmatch : ∀ r ∈ rules, ∀ o' w', I o' w' → I { o' with matched := o'.matched ++ [r.name] } w')
    (hstep : ∀ r ∈ rules, ∀ a ∈ r.actions, ∀ o' w', ⟨.act (refresh s w' o'.file) a, w'⟩ ∈ ruleStages s rules o w →
      I o' w' → I (o'.runAction s r.name a w').1 (o'.runAction s r.name a w').2) :
    I (runRules s rules o w).1 (runRules s rules o w).2 := by
  induction rules generalizing o w with
  | nil => exact h
  | cons r rs ih =>
    have hmatch' : ∀ r' ∈ rs, ∀ o' w', I o' w' → I { o' with matched := o'.matched ++ [r'.name] } w' := fun r' hr' =>
      hmatch r' (List.mem_cons_of_mem r hr')
    rw [ruleStages] at hstep
    dsimp only at hstep
    rw [runRules]
    split
    · next hyes =>
      rw [if_pos hyes] at hstep
      have hacts := runActions_keeps r.name (hmatch r List.mem_cons_self o w h) fun a ha o' w' hmem =>
        hstep r List.mem_cons_self a ha o' w' (List.mem_append_left _ hmem)
      dsimp only
      split
      · exact hacts
      · next hgoes =>
        rw [if_neg hgoes] at hstep
        exact ih hacts hmatch' fun r' hr' a ha o' w' hmem =>
          hstep r' (List.mem_cons_of_mem r hr') a ha o' w' (List.mem_append_right _ hmem)
    · next hno =>
      rw [if_neg hno] at hstep
      exact ih h hmatch' fun r' hr' => hstep r' (List.mem_cons_of_mem r hr')

end
end Outcome

namespace Batch

def noteStages : List UndoRecord → Batch → List Stage
  | [], _ => []
  | r :: rs, b =>
    (match b.session with
      | none => []
      | some session => [⟨.note session r, b.work⟩]) ++ noteStages rs (note s.host b r)

def fileStages (rules : List Rule) : List FileInfo → Batch → List Stage
  | [], _ => []
  | f :: fs, b =>
    let (o, w) := Rule.runAll s rules f b.work
    let b' := o.log.foldl (fun b line => b.say s!"{f.name}: {line}") { b with work := w }
    Outcome.ruleStages s rules { origin := f.path, file := f } b.work ++ noteStages s o.records b' ++
      fileStages rules fs (o.records.foldl (note s.host) b')

def moveStages (m : PlannedTransfer) (b : Batch) : List Stage :=
  ⟨.transfer m, b.work⟩ ::
    match b.work.disk (transferWork s.host mode m), b.session with
    | (.ok (), w), some session => [⟨.note session ⟨m.source, m.target, mode, s.host.now⟩, w⟩]
    | _, _ => []

def transferStages : List PlannedTransfer → Batch → List Stage
  | [], _ => []
  | m :: ms, b => moveStages s mode m b ++ transferStages ms (transfer s.host mode m b).2

/-- The stages of a batch, in the order in which it goes through them. -/
def stages (profile : Profile) (files : List FileInfo) (b : Batch) : List Stage :=
  let files := files.filter fun f => !(s.config.skipHidden && f.hidden)
  let (outcomes, b') := runRules s profile.rules files b
  let (moves, w) := planRest s profile.categories mode files outcomes b'.work
  fileStages s profile.rules files b ++
    if s.config.dryRun then [] else transferStages s mode moves { b' with work := w }

variable {s mode}

lemma say_work (b : Batch) (line : String) : (b.say line).work = b.work := rfl

lemma foldl_say {α : Type} (told : α → String) (lines : List α) (b : Batch) :
    (lines.foldl (fun b x => b.say (told x)) b).work = b.work := by
  induction lines generalizing b with
  | nil => rfl
  | cons x lines ih => exact (ih _).trans (say_work b (told x))

lemma noteStages_chain (rs : List UndoRecord) (b : Batch) :
    Stage.Chain s mode b.work.tree (noteStages s rs b) (rs.foldl (note s.host) b).work.tree := by
  induction rs generalizing b with
  | nil => rfl
  | cons r rs ih =>
    rw [noteStages, List.foldl_cons]
    cases hsession : b.session with
    | none =>
      have hnote : note s.host b r = b := by
        unfold note
        rw [hsession]
      rw [hnote]
      exact ih b
    | some session =>
      have hnote : (note s.host b r).work.tree = (session.append s.host r b.work.tree).2.2 := by
        unfold note
        rw [hsession]
      refine ⟨rfl, ?_⟩
      rw [Stage.after_note, ← hnote]
      exact ih _

lemma fileStages_chain (rules : List Rule) (fs : List FileInfo) (b : Batch) :
    Stage.Chain s mode b.work.tree (fileStages s rules fs b) (runRules s rules fs b).2.work.tree := by
  induction fs generalizing b with
  | nil => rfl
  | cons f fs ih =>
    rw [fileStages, runRules]
    dsimp only
    have hact : Stage.Chain s mode _ _ _ := Outcome.ruleStages_chain rules { origin := f.path, file := f } b.work
    refine (hact.append ?_).append (ih _)
    have hnote : Stage.Chain s mode _ _ _ := noteStages_chain (Rule.runAll s rules f b.work).1.records
      ((Rule.runAll s rules f b.work).1.log.foldl (fun b line => b.say s!"{f.name}: {line}")
        { b with work := (Rule.runAll s rules f b.work).2 })
    rw [foldl_say (fun line => s!"{f.name}: {line}")] at hnote
    exact hnote

lemma moveStages_chain (m : PlannedTransfer) (b : Batch) :
    Stage.Chain s mode b.work.tree (moveStages s mode m b) (transfer s.host mode m b).2.work.tree := by
  unfold moveStages transfer
  refine ⟨rfl, ?_⟩
  rw [Stage.after_transfer]
  rcases b.work.disk (transferWork s.host mode m) with ⟨e | _, w⟩
  · rfl
  · cases hsession : b.session with
    | none =>
      unfold note
      cases mode <;> simp [say, Stage.Chain]
    | some session =>
      unfold note
      cases mode <;> simp [say, Stage.Chain, Stage.after_note]

lemma transferStages_chain (ms : List PlannedTransfer) (b : Batch) :
    Stage.Chain s mode b.work.tree (transferStages s mode ms b) (transferAll s.host mode ms b).2.work.tree := by
  induction ms generalizing b with
  | nil => rfl
  | cons m ms ih =>
    rw [transferStages, transferAll]
    exact (moveStages_chain m b).append (ih _)

lemma plan_tree (c : Categories) (fs : List FileInfo) (w : Workspace) :
    (PlannedTransfer.plan s c mode fs w).2.tree = w.tree := by
  induction fs generalizing w with
  | nil => rfl
  | cons f fs ih =>
    rw [PlannedTransfer.plan]
    dsimp only
    rw [ih]
    unfold PlannedTransfer.of?
    dsimp only
    split <;> rfl

lemma runPlan_chain (ms : List PlannedTransfer) (b : Batch) :
    Stage.Chain s mode b.work.tree (if s.config.dryRun then [] else transferStages s mode ms b)
      (runPlan s mode ms b).2.work.tree := by
  unfold runPlan
  split
  · have h := foldl_say (fun m : PlannedTransfer => s!"将{mode.verb}: {m.source} -> {m.target}") ms b
    exact congrArg Workspace.tree h.symm
  · exact transferStages_chain ms b

lemma planRest_tree (c : Categories) (fs : List FileInfo) (os : List Outcome) (w : Workspace) :
    (planRest s c mode fs os w).2.tree = w.tree := by
  unfold planRest
  dsimp only
  split
  · exact plan_tree _ _ _
  · rfl

theorem stages_chain (profile : Profile) (files : List FileInfo) (b : Batch) :
    Stage.Chain s mode b.work.tree (stages s mode profile files b)
      (b.run s profile mode files).2.work.tree := by
  unfold stages run
  dsimp only
  refine (fileStages_chain _ _ _).append ?_
  rw [← planRest_tree]
  exact runPlan_chain _ ⟨_, _, _⟩

/-- If a session is open, it belongs to the directory. -/
def IsIn (folder : Path) (b : Batch) : Prop := ∀ session, b.session = some session → session.IsIn folder

variable {folder : Path}

lemma IsIn.note {b : Batch} (h : b.IsIn folder) (host : Host) (r : UndoRecord) : (note host b r).IsIn folder := by
  intro session hsession
  unfold Batch.note at hsession
  split at hsession
  · exact h session hsession
  · next old hold =>
    cases hsession
    exact (h old hold).append host r b.work.tree

lemma IsIn.of_session {b b' : Batch} (h : b.IsIn folder) (hs : b'.session = b.session) : b'.IsIn folder :=
  fun session hsession => h session (hs ▸ hsession)

lemma IsIn.notes {b : Batch} (h : b.IsIn folder) (host : Host) (rs : List UndoRecord) :
    (rs.foldl (Batch.note host) b).IsIn folder := by
  induction rs generalizing b with
  | nil => exact h
  | cons r rs ih => exact ih (h.note host r)

lemma foldl_say_session (f : FileInfo) (lines : List String) (b : Batch) :
    (lines.foldl (fun b line => b.say s!"{f.name}: {line}") b).session = b.session := by
  induction lines generalizing b with
  | nil => rfl
  | cons x lines ih => exact ih _

lemma IsIn.file {b : Batch} (h : b.IsIn folder) (f : FileInfo) (o : Outcome) (w : Workspace) :
    (o.log.foldl (fun b line => say b s!"{f.name}: {line}") { b with work := w }).IsIn folder :=
  h.of_session (foldl_say_session f o.log _)

lemma IsIn.runRules {b : Batch} (h : b.IsIn folder) (rules : List Rule) (fs : List FileInfo) :
    (runRules s rules fs b).2.IsIn folder := by
  induction fs generalizing b with
  | nil => exact h
  | cons f fs ih =>
    rw [Batch.runRules]
    exact ih ((h.file f _ _).notes s.host _)

lemma IsIn.transfer {b : Batch} (h : b.IsIn folder) (host : Host) (m : PlannedTransfer) :
    (transfer host mode m b).2.IsIn folder := by
  unfold Batch.transfer
  split
  · exact h.of_session rfl
  · dsimp only
    apply IsIn.note
    exact h.of_session rfl

lemma mem_noteStages {rs : List UndoRecord} {b : Batch} {st : Stage} (hb : b.IsIn folder)
    (h : st ∈ noteStages s rs b) : ∃ session r, st.deed = .note session r ∧ session.IsIn folder := by
  induction rs generalizing b with
  | nil => cases h
  | cons r rs ih =>
    rw [noteStages] at h
    rcases List.mem_append.1 h with h | h
    · split at h
      · cases h
      · next session hsession =>
        obtain rfl := List.mem_singleton.1 h
        exact ⟨session, r, rfl, hb session hsession⟩
    · exact ih (hb.note s.host r) h

lemma mem_fileStages {rules : List Rule} {fs : List FileInfo} {b : Batch} {st : Stage} (hb : b.IsIn folder)
    (h : st ∈ fileStages s rules fs b) :
    (∃ r ∈ rules, ∃ f, ∃ a ∈ r.actions, st.deed = .act f a) ∨
      ∃ session r, st.deed = .note session r ∧ session.IsIn folder := by
  induction fs generalizing b with
  | nil => cases h
  | cons f fs ih =>
    rw [fileStages] at h
    have hb' := hb.file f (Rule.runAll s rules f b.work).1 (Rule.runAll s rules f b.work).2
    rcases List.mem_append.1 h with h | h
    · rcases List.mem_append.1 h with h | h
      · exact Or.inl (Outcome.mem_ruleStages h)
      · exact Or.inr (mem_noteStages hb' h)
    · exact ih (hb'.notes s.host (Rule.runAll s rules f b.work).1.records) h

lemma mem_transferStages {ms : List PlannedTransfer} {b : Batch} {st : Stage} (hb : b.IsIn folder)
    (h : st ∈ transferStages s mode ms b) :
    (∃ m, st.deed = .transfer m) ∨ ∃ session r, st.deed = .note session r ∧ session.IsIn folder := by
  induction ms generalizing b with
  | nil => cases h
  | cons m ms ih =>
    rw [transferStages] at h
    rcases List.mem_append.1 h with h | h
    · unfold moveStages at h
      rcases List.mem_cons.1 h with rfl | h
      · exact Or.inl ⟨m, rfl⟩
      · split at h
        · next session _ hsession =>
          obtain rfl := List.mem_singleton.1 h
          exact Or.inr ⟨_, _, rfl, hb _ hsession⟩
        · cases h
    · exact ih (hb.transfer s.host m) h

/-- The only actions of a batch are those of its rules, and its records go to the log of its session. -/
theorem mem_stages {profile : Profile} {files : List FileInfo} {b : Batch} {st : Stage} (hb : b.IsIn folder)
    (h : st ∈ stages s mode profile files b) :
    (∃ r ∈ profile.rules, ∃ f, ∃ a ∈ r.actions, st.deed = .act f a) ∨ (∃ m, st.deed = .transfer m) ∨
      ∃ session r, st.deed = .note session r ∧ session.IsIn folder := by
  unfold stages at h
  rcases List.mem_append.1 h with h | h
  · rcases mem_fileStages hb h with h | h
    · exact Or.inl h
    · exact Or.inr (Or.inr h)
  · split at h
    · cases h
    · have hb' := hb.runRules (s := s) profile.rules (files.filter fun f => !(s.config.skipHidden && f.hidden))
      refine Or.inr (mem_transferStages ?_ h)
      exact hb'.of_session rfl

end Batch

end FileOrganizer
