import FileOrganizer.Proofs.Batch.Current
import FileOrganizer.Proofs.Batch.Plan
import FileOrganizer.Proofs.Undo.Account
import Mathlib.Logic.Relation

/-! Files go through the rules at once, each with a worker of its own: what one step of a worker can do, and that the
workers do what the batch does when they take turns file by file. -/

namespace FileOrganizer

open FileOrganizer.Tree FileOrganizer.Disk

/-- How far a worker has come with its file: some rules are to be asked yet, or some actions of a rule that matched are
to be run, or the rules are through and some records are to be noted. -/
inductive Errand
  | asking (rules : List Rule) (o : Outcome)
  | acting (rule : Rule) (actions : List Action) (rules : List Rule) (o : Outcome)
  | noting (due : List UndoRecord) (o : Outcome)

namespace Errand

def outcome : Errand → Outcome
  | asking _ o | acting _ _ _ o | noting _ o => o

/-- The records that are not in the log yet. -/
def due : Errand → List UndoRecord
  | asking _ o | acting _ _ _ o => o.records
  | noting due _ => due

def isOver : Errand → Bool
  | noting [] _ => true
  | _ => false

/-- All the actions that may be run yet. -/
def actions : Errand → List Action
  | asking rules _ => rules.flatMap (·.actions)
  | acting _ as rules _ => as ++ rules.flatMap (·.actions)
  | noting .. => []

def start (rules : List Rule) (f : FileInfo) : Errand := asking rules { origin := f.path, file := f }

/-- One rule is asked, or one action run, or one record noted. -/
def step (s : Setting) (f : FileInfo) (b : Batch) : Errand → Errand × Batch
  | asking [] o => (noting o.records o, o.log.foldl (fun b line => b.say s!"{f.name}: {line}") b)
  | asking (r :: rs) o =>
    if r.matches? (b.work.sight s) o.file then
      (acting r r.actions rs { o with matched := o.matched ++ [r.name] }, b)
    else (asking rs o, b)
  | acting r [] rs o => (asking (if r.stopOnMatch then [] else rs) o, b)
  | acting r (a :: as) rs o =>
    let (o, w) := o.runAction s r.name a b.work
    (if (o.steps.getLast?.map Step.isLast).getD false then asking [] o else acting r as rs o, { b with work := w })
  | noting [] o => (noting [] o, b)
  | noting (m :: ms) o => (noting ms o, b.note s.host m)

/-- What one step comes to. -/
inductive Steps (s : Setting) (e : Errand) (b : Batch) (e' : Errand) (b' : Batch) : Prop
  | waits (file : e'.outcome.file = e.outcome.file) (steps : e'.outcome.steps = e.outcome.steps) (due : e'.due = e.due)
      (work : b'.work = b.work) (session : b'.session = b.session)
  | acts {rule : String} {a : Action} (mem : a ∈ e.actions) (owed : e.due = e.outcome.records)
      (due : e'.due = e'.outcome.records) (outcome : e'.outcome = (e.outcome.runAction s rule a b.work).1)
      (batch : b' = { b with work := (e.outcome.runAction s rule a b.work).2 })
  | notes {m : UndoRecord} (due : e.due = m :: e'.due) (outcome : e'.outcome = e.outcome) (batch : b' = b.note s.host m)

end Errand

/-- The workers with what they share. -/
structure Pool (ι : Type) where
  batch : Batch
  errand : ι → Errand

namespace Pool

variable {ι : Type} [DecidableEq ι]

def start (rules : List Rule) (files : ι → FileInfo) (b : Batch) : Pool ι := ⟨b, fun i => .start rules (files i)⟩

section

variable (s : Setting) (files : ι → FileInfo)

/-- One worker takes its next step. -/
def step (p : Pool ι) (i : ι) : Pool ι :=
  let (e, b) := (p.errand i).step s (files i) p.batch
  ⟨b, Function.update p.errand i e⟩

def run (p : Pool ι) (schedule : List ι) : Pool ι := schedule.foldl (step s files) p

end

end Pool

variable {s : Setting} {f : FileInfo} {b : Batch} {e : Errand} {o : Outcome} {w : Workspace} {a : Action} {cwd root : Place}

namespace Errand

lemma steps_step (e : Errand) : e.Steps s b (e.step s f b).1 (e.step s f b).2 := by
  cases e with
  | asking rules o =>
    cases rules with
    | nil => exact .waits rfl rfl rfl (Batch.foldl_say _ _ _) (Batch.foldl_say_session f o.log b)
    | cons r rs =>
      rw [step]
      split <;> exact .waits rfl rfl rfl rfl rfl
  | acting r as rs o =>
    cases as with
    | nil => exact .waits rfl rfl rfl rfl rfl
    | cons a as =>
      rw [step]
      dsimp only
      have hmem : a ∈ (acting r (a :: as) rs o).actions := by simp [actions]
      split <;> exact Steps.acts hmem rfl rfl (show _ = (o.runAction s r.name a b.work).1 from rfl) rfl
  | noting ms o =>
    cases ms with
    | nil => exact .waits rfl rfl rfl rfl rfl
    | cons m ms => exact .notes rfl rfl rfl

/-- No action comes up that was not to be run yet. -/
lemma step_actions (e : Errand) : (e.step s f b).1.actions ⊆ e.actions := by
  cases e with
  | asking rules o =>
    cases rules with
    | nil => exact List.nil_subset _
    | cons r rs =>
      rw [step]
      split
      · simp [actions]
      · simp [actions]
  | acting r as rs o =>
    cases as with
    | nil =>
      rw [step]
      split <;> simp [actions]
    | cons a as =>
      rw [step]
      dsimp only
      split <;> simp [actions]
  | noting ms o => cases ms <;> exact List.nil_subset _

/-- A worker that no other one comes in between. -/
def Alone (s : Setting) (f : FileInfo) : Errand × Batch → Errand × Batch → Prop :=
  Relation.ReflTransGen fun x y => x.1.step s f x.2 = y

lemma Alone.next {x : Errand × Batch} (h : Alone s f (e.step s f b) x) : Alone s f (e, b) x := .head rfl h

lemma alone_notes (ms : List UndoRecord) (o : Outcome) (b : Batch) :
    Alone s f (noting ms o, b) (noting [] o, ms.foldl (Batch.note s.host) b) := by
  induction ms generalizing b with
  | nil => exact .refl
  | cons m ms ih => exact .next (ih (b.note s.host m))

lemma alone_actions (r : Rule) (as : List Action) (rs : List Rule) (o : Outcome) (b : Batch) :
    Alone s f (acting r as rs o, b)
      (asking (if (Outcome.runActions s r.name as o b.work).1 || r.stopOnMatch then [] else rs)
        (Outcome.runActions s r.name as o b.work).2.1,
        { b with work := (Outcome.runActions s r.name as o b.work).2.2 }) := by
  induction as generalizing o b with
  | nil => exact .next .refl
  | cons a as ih =>
    rw [Outcome.runActions]
    refine .next ?_
    rw [step]
    dsimp only
    split
    · exact .refl
    · exact ih _ { b with work := (o.runAction s r.name a b.work).2 }

lemma alone_rules (rules : List Rule) (o : Outcome) (b : Batch) :
    Alone s f (asking rules o, b)
      (asking [] (Outcome.runRules s rules o b.work).1, { b with work := (Outcome.runRules s rules o b.work).2 }) := by
  induction rules generalizing o b with
  | nil => exact .refl
  | cons r rs ih =>
    refine .next ?_
    rw [Outcome.runRules, step]
    by_cases hmatch : r.matches? (b.work.sight s) o.file = true
    · rw [if_pos hmatch, if_pos hmatch]
      have hacts := alone_actions (s := s) (f := f) r r.actions rs { o with matched := o.matched ++ [r.name] } b
      dsimp only
      by_cases hend : ((Outcome.runActions s r.name r.actions { o with matched := o.matched ++ [r.name] } b.work).1 ||
          r.stopOnMatch) = true
      · rw [if_pos hend] at hacts ⊢
        exact hacts
      · rw [if_neg hend] at hacts ⊢
        exact hacts.trans (ih _ _)
    · rw [if_neg hmatch, if_neg hmatch]
      exact ih o b

/-- Left alone, a worker does with its file what the batch does. -/
lemma alone_runRules (rules : List Rule) (f : FileInfo) (b : Batch) :
    Alone s f (start rules f, b) (noting [] (Rule.runAll s rules f b.work).1, (Batch.runRules s rules [f] b).2) :=
  (alone_rules rules { origin := f.path, file := f } b).trans (Alone.next (alone_notes _ _ _))

end Errand

namespace Pool

variable {ι : Type} [DecidableEq ι] {files : ι → FileInfo} {rules : List Rule} {p : Pool ι} {schedule : List ι} {i k : ι}

lemma run_append (p : Pool ι) (l l' : List ι) : run s files p (l ++ l') = run s files (run s files p l) l' :=
  List.foldl_append

lemma run_alone (h : Errand.Alone s (files i) (p.errand i, p.batch) (e, b)) :
    ∃ n, run s files p (List.replicate n i) = ⟨b, Function.update p.errand i e⟩ := by
  generalize hx : (e, b) = x at h
  induction h generalizing e b with
  | refl =>
    cases hx
    exact ⟨0, by rw [Function.update_eq_self]; rfl⟩
  | @tail y z _ hstep ih =>
    obtain ⟨n, hn⟩ := ih rfl
    subst hx
    refine ⟨n + 1, ?_⟩
    rw [List.replicate_succ', run_append, hn]
    simp [run, step, hstep]

/-- When the files have their turn one after the other, they are gone through as by the batch. -/
theorem run_inTurn (l : List ι) (hl : l.Nodup) (hstart : ∀ i ∈ l, p.errand i = .start rules (files i)) :
    ∃ schedule, (run s files p schedule).batch = (Batch.runRules s rules (l.map files) p.batch).2 ∧
      (∀ i ∈ l, ((run s files p schedule).errand i).isOver = true) ∧
      ∀ i, i ∉ l → (run s files p schedule).errand i = p.errand i := by
  induction l generalizing p with
  | nil => exact ⟨[], rfl, by simp, fun _ _ => rfl⟩
  | cons i l ih =>
    obtain ⟨hi, hl⟩ := List.nodup_cons.1 hl
    have hfirst := Errand.alone_runRules (s := s) rules (files i) p.batch
    rw [← hstart i List.mem_cons_self] at hfirst
    obtain ⟨n, hn⟩ := run_alone hfirst
    have hothers : ∀ k, k ≠ i → (run s files p (List.replicate n i)).errand k = p.errand k := fun k hk => by
      rw [hn]
      exact Function.update_of_ne hk _ _
    have hmine : ((run s files p (List.replicate n i)).errand i).isOver = true := by
      rw [hn]
      dsimp only
      rw [Function.update_self]
      rfl
    have hrest : ∀ k ∈ l, (run s files p (List.replicate n i)).errand k = .start rules (files k) := fun k hk =>
      (hothers k fun heq => hi (heq ▸ hk)).trans (hstart k (List.mem_cons_of_mem i hk))
    obtain ⟨schedule, hbatch, hover, hsame⟩ := ih hl hrest
    refine ⟨List.replicate n i ++ schedule, ?_, ?_, ?_⟩
    · rw [run_append, hbatch, hn]
      rfl
    · rw [run_append, List.forall_mem_cons, hsame i hi]
      exact ⟨hmine, hover⟩
    · intro k hk
      obtain ⟨hne, hk⟩ := not_or.1 (mt List.mem_cons.2 hk)
      rw [run_append, hsame k hk, hothers k hne]

end Pool

/-- The file was moved to a path that was not claimed before, and the effect tells of just that. -/
structure Effect.Sends (s : Setting) (f : FileInfo) (r : Effect) (m : UndoRecord) (w w' : Workspace) : Prop where
  records : r.records = [m]
  newPath : r.newPath = some m.target
  mode : m.mode = .move
  source : m.source = f.path
  time : m.time = s.host.now
  absolute : m.target.isAbsolute = true
  unclaimed : ∀ q ∈ w.claims, m.target.same q = false
  claims : w'.claims = m.target :: w.claims
  did : m.Did s.host.cwd w.tree w'.tree

lemma Workspace.claim_claims (dir : Path) (name : String) :
    (w.claim cwd dir name).2.claims = (w.claim cwd dir name).1.path :: w.claims := rfl

section

variable {K : List Place} (hs : w.tree.Sound) (hp : w.tree.Plain) (hf : Stands s.host.cwd root w.tree K f.path)

include hs hp hf

lemma Task.moveTo_sends {v : Workspace} {target : Path} {told : String} {why : Fault → String} (htree : v.tree = w.tree)
    (hclaims : v.claims = target :: w.claims) (habs : target.isAbsolute = true)
    (hnew : ∀ q ∈ w.claims, target.same q = false) (hok : (moveTo s f v target told why).1.status ≠ .failed)
    (hgood : ∀ m ∈ (moveTo s f v target told why).1.records, m.Straight s.host.cwd root) :
    ∃ m, (moveTo s f v target told why).1.Sends s f m w (moveTo s f v target told why).2 := by
  obtain ⟨b, hb⟩ := Option.ne_none_iff_exists'.1 hf.there
  obtain ⟨a, hnode⟩ := bytes?_eq_some.1 hb
  unfold moveTo at hok hgood ⊢
  rw [Workspace.disk_eq, htree] at hok hgood ⊢
  rcases hmove : moveFile s.host.toActor f.path target w.tree with ⟨e | _, t'⟩
  · rw [hmove] at hok
    exact absurd rfl hok
  · rw [hmove] at hgood
    have hm : (record s f target .move).Straight s.host.cwd root :=
      hgood _ (by simp [Effect.noting, Effect.landing, Effect.applied])
    exact ⟨record s f target .move, rfl, rfl, rfl, rfl, rfl, habs, hnew, hclaims,
      moveFile_did hs hp hnode (hm.absolute rfl) hf.level hm.level hmove s.host.now⟩

end

namespace Action

/-- Does the action just take a file somewhere else? -/
def carries : Action → Bool
  | rename _ | move _ => true
  | _ => false

/-- Such an action does nothing, or sends its file to a path that was not claimed before. -/
lemma run_sends {K : List Place} (hs : w.tree.Sound) (hp : w.tree.Plain) (hf : Stands s.host.cwd root w.tree K f.path)
    (hcarry : a.carries = true) (hdry : s.config.dryRun = false) (hroot : s.root.isAbsolute = true)
    (ha : f.path.isAbsolute = true) (hok : (a.run s f w).1.status ≠ .failed)
    (hgood : ∀ m ∈ (a.run s f w).1.records, m.Straight s.host.cwd root) :
    (a.run s f w).1.Idle ∧ (a.run s f w).2 = w ∨ ∃ m, (a.run s f w).1.Sends s f m w (a.run s f w).2 := by
  cases hj : a.judge s w f with
  | error r =>
    have hrun : a.run s f w = (r, w) := by
      unfold run
      rw [hj]
    rw [hrun]
    exact Or.inl ⟨judge_idle hj, rfl⟩
  | ok task =>
    have hrun : a.run s f w = task.perform s f w := by
      unfold run
      rw [hj]
      exact if_neg (by simp [hdry])
    rw [hrun] at hok hgood ⊢
    refine Or.inr ?_
    cases a with
    | rename newName =>
      rw [judge] at hj
      obtain ⟨rfl, -⟩ := judgeRename_ok hj
      unfold Task.perform at hok hgood ⊢
      dsimp only [Task.noteTemplate] at hok hgood ⊢
      exact Task.moveTo_sends (v := (w.claim s.host.cwd f.parent newName).2) hs hp hf (Workspace.claim_tree _ _ _)
        (Workspace.claim_claims _ _) (Task.isAbsolute_claim (Path.isAbsolute_parent ha) newName)
        (w.claim_new _ _ _) hok hgood
    | move destination =>
      rw [judge] at hj
      obtain ⟨rfl, -⟩ := judgeTransfer_ok hj
      have habs : (Template.directory destination f s.root).isAbsolute = true := by
        rw [Template.directory, Path.isAbsolute_join (text_of_absolute hroot), hroot, Bool.true_or]
      unfold Task.perform at hok hgood ⊢
      dsimp only at hok hgood ⊢
      exact Task.moveTo_sends (v := (w.claim s.host.cwd (Template.directory destination f s.root) f.name).2) hs hp hf
        (Workspace.claim_tree _ _ _) (Workspace.claim_claims _ _) (Task.isAbsolute_claim habs f.name)
        (w.claim_new _ _ _) hok hgood
    | _ => exact absurd hcarry (by simp [carries])

end Action

end FileOrganizer
