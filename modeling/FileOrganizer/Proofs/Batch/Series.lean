import Mathlib.Tactic.Lemma
import FileOrganizer.Watch

/-! Batches that are run one after the other in one session. A watch is such a series, with a batch for
every event that is not ignored. -/

namespace FileOrganizer

/-- A batch of a session. -/
structure Round where
  job : Job
  root : Path
  files : List FileInfo

/-- What a session has come to. -/
structure Standing where
  tree : Tree
  store : TagStore
  session : OpenSession
  entries : List FileResult := []

namespace Round

/-- A batch that is refused leaves everything as it was. -/
def run (p : Standing) (r : Round) : Standing :=
  match r.job.applyIn r.root r.files p.session p.tree p.store with
  | .error _ => p
  | .ok (entries, b) => ⟨b.work.tree, b.work.store, b.session.getD p.session, p.entries ++ entries⟩

def runAll (rounds : List Round) (p : Standing) : Standing := rounds.foldl run p

lemma runAll_nil (p : Standing) : runAll [] p = p := rfl

lemma runAll_cons (r : Round) (rounds : List Round) (p : Standing) :
    runAll (r :: rounds) p = runAll rounds (r.run p) := rfl

lemma runAll_append (rounds rounds' : List Round) (p : Standing) :
    runAll (rounds ++ rounds') p = runAll rounds' (runAll rounds p) := List.foldl_append

end Round

namespace Watch

variable (w : Watch)

def Progress.standing (p : Progress) : Standing := ⟨p.tree, p.store, p.session, p.report.entries⟩

/-- Is it a batch of this watch? -/
def Runs (r : Round) : Prop :=
  r.job.host = w.host ∧ r.job.mode = w.mode ∧ r.job.config = w.config ∧ r.root = w.absoluteRoot

lemma organize_round (p : Progress) (profile : Profile) (f : FileInfo) :
    (w.organize p profile f).2.standing =
      Round.run p.standing ⟨⟨w.host, w.trash, w.mode, w.config, profile⟩, w.absoluteRoot, [f]⟩ := by
  unfold organize Round.run
  dsimp only [Progress.standing]
  rcases Job.applyIn ⟨w.host, w.trash, w.mode, w.config, profile⟩ w.absoluteRoot [f] p.session p.tree p.store
    with e | ⟨entries, b⟩ <;> rfl

/-- An event is ignored, or its file is a batch in the tree as it has come to be, unless the task breaks down. -/
lemma attend_rounds (q : WatchQueue) {c : Course} (hwhole : c.wreck = none) (p : Progress) (event : Path) :
    ∃ rounds : List Round, (∀ r ∈ rounds, w.Runs r) ∧
      (w.attend q c p event).2.standing = Round.runAll rounds { p.standing with tree := c.tree } := by
  have hnone : ∃ rounds : List Round, (∀ r ∈ rounds, w.Runs r) ∧
      { p.standing with tree := c.tree } = Round.runAll rounds { p.standing with tree := c.tree } := ⟨[], by simp, rfl⟩
  unfold attend
  dsimp only
  split
  · split <;> exact hnone
  · split
    · exact hnone
    · next profile _ =>
      split
      · exact hnone
      · split
        · exact hnone
        · next f _ =>
          split
          · exact hnone
          · rw [hwhole]
            refine ⟨[⟨⟨w.host, w.trash, w.mode, w.config, profile⟩, w.absoluteRoot, [f]⟩], ?_, ?_⟩
            · simp [Runs]
            · exact organize_round w _ profile f

lemma handle_rounds (p : Progress) (event : Path) :
    ∃ rounds : List Round, (∀ r ∈ rounds, w.Runs r) ∧
      (w.handle p event).standing = Round.runAll rounds p.standing :=
  attend_rounds w {} rfl (receive p) event

/-- A watch is a series of batches in one session. -/
theorem run_rounds (events late : List Path) (t : Tree) (store : TagStore) :
    ∃ rounds : List Round, (∀ r ∈ rounds, w.Runs r) ∧
      (w.run events late t store).standing =
        Round.runAll rounds ⟨t, store, { folder := w.absoluteRoot, mode := w.mode }, []⟩ := by
  suffices h : ∀ p : Progress, ∃ rounds : List Round, (∀ r ∈ rounds, w.Runs r) ∧
      (events.foldl (handle w) p).standing = Round.runAll rounds p.standing from
    h { tree := t, store, session := { folder := w.absoluteRoot, mode := w.mode } }
  induction events with
  | nil => exact fun p => ⟨[], by simp, rfl⟩
  | cons event events ih =>
    intro p
    obtain ⟨first, hfirst, heq⟩ := handle_rounds w p event
    obtain ⟨rest, hrest, heq'⟩ := ih (w.handle p event)
    refine ⟨first ++ rest, ?_, ?_⟩
    · intro r hr
      exact (List.mem_append.1 hr).elim (hfirst r) (hrest r)
    · rw [List.foldl_cons, heq', heq, Round.runAll_append]

end Watch

end FileOrganizer
