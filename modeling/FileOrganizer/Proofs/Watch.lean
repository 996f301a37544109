import FileOrganizer.Proofs.Batch.Conservation
import FileOrganizer.Watch
import Mathlib.Logic.Relation

/-! A watch as a system that takes steps: events are sent by anyone at any time, one at a time is taken and handled, and
the signal to stop may come whenever it likes. The report accounts for every event that was sent. -/

namespace FileOrganizer

namespace Watch

/-- Was there a failure among what was organized? -/
def Exit.flawed : Exit → Bool
  | organized entries => entries.any (·.status = .failed)
  | _ => false

/-- What a report says of one more event that was handled. -/
def Exit.tally (r : WatchReport) : Exit → WatchReport
  | unstable => { r with unstable := r.unstable + 1 }
  | gone | outOfScope | noFile => { r with ignored := r.ignored + 1 }
  | noProfile | refused | crashed => { r with failed := r.failed + 1 }
  | organized entries => { r with
      processed := r.processed + 1
      failed := r.failed + if entries.any (·.status = .failed) then 1 else 0
      entries := r.entries ++ entries }

def capacity (q : WatchQueue) : Nat := max q.capacity 1

/-- Has the signal to stop come, or is there no one left to give it? -/
inductive Signal
  | quiet
  | raised
  | lost
  deriving DecidableEq

/-- Where the one who handles the events is. -/
inductive Phase
  | waiting
  | handling (event : Path)
  /-- An event has been handled; has the signal come in the meantime? -/
  | checking
  | closing
  | draining
  | ended

def Phase.current : Phase → List Path
  | handling event => [event]
  | _ => []

/-- The queue between those who send events and the one who handles them, and what has happened so far: the events that
were sent, those that were turned away in the end, and how each of the others ended. -/
structure Session where
  queue : List Path := []
  closed : Bool := false
  producing : Bool := true
  signal : Signal := .quiet
  phase : Phase := .waiting
  progress : Progress
  sent : List Path := []
  turnedAway : List Path := []
  exits : List (Path × Exit) := []

namespace Session

/-- The events that were taken from the queue to be handled. -/
def taken (x : Session) : List Path := x.exits.map Prod.fst ++ x.phase.current

def report (x : Session) : WatchReport := x.progress.report

def begin (w : Watch) (t : Tree) (store : TagStore) : Session :=
  { progress := { tree := t, store, session := { folder := w.absoluteRoot, mode := w.mode } } }

/-- The signal comes first where an event waits as well. -/
inductive Step (w : Watch) (q : WatchQueue) : Session → Session → Prop
  | send (x : Session) (event : Path) (hopen : x.closed = false) (hsender : x.producing = true)
      (hroom : x.queue.length < capacity q) :
      Step w q x { x with queue := x.queue ++ [event], sent := x.sent ++ [event] }
  | leave (x : Session) : Step w q x { x with producing := false }
  | stop (x : Session) (hquiet : x.signal = .quiet) : Step w q x { x with signal := .raised }
  | lose (x : Session) (hquiet : x.signal = .quiet) : Step w q x { x with signal := .lost }
  | halt (x : Session) (hphase : x.phase = .waiting) (hsignal : x.signal ≠ .quiet) :
      Step w q x { x with phase := .closing }
  | take (x : Session) (event : Path) (rest : List Path) (hphase : x.phase = .waiting) (hquiet : x.signal = .quiet)
      (hqueue : x.queue = event :: rest) :
      Step w q x { x with queue := rest, phase := .handling event, progress := receive x.progress }
  | dry (x : Session) (hphase : x.phase = .waiting) (hquiet : x.signal = .quiet) (hqueue : x.queue = [])
      (hsender : x.producing = false) : Step w q x { x with phase := .closing }
  | handle (x : Session) (event : Path) (c : Course) (hphase : x.phase = .handling event) :
      Step w q x { x with
        phase := .checking
        progress := (attend w q c x.progress event).2
        exits := x.exits ++ [(event, (attend w q c x.progress event).1)] }
  | check (x : Session) (hphase : x.phase = .checking) :
      Step w q x { x with phase := if x.signal = .raised then .closing else .waiting }
  | close (x : Session) (hphase : x.phase = .closing) : Step w q x { x with closed := true, phase := .draining }
  | drain (x : Session) (event : Path) (rest : List Path) (hphase : x.phase = .draining)
      (hqueue : x.queue = event :: rest) :
      Step w q x { x with
        queue := rest
        turnedAway := x.turnedAway ++ [event]
        progress.report.declined := x.progress.report.declined + 1 }
  | finish (x : Session) (hphase : x.phase = .draining) (hqueue : x.queue = []) : Step w q x { x with phase := .ended }

end Session

section

variable {w : Watch} {q : WatchQueue} {p : Progress} {event : Path} {c : Course}

/-- How often a file that does not change is looked at makes no difference, if it is looked at twice. -/
lemma settles_still (n : Nat) (size : Option Nat) : settles (fun _ => size) (n + 2) 0 none = size.isSome := by
  cases size <;> simp [settles]

/-- What is handled in turn does not hang on the queue. -/
theorem attend_still (w : Watch) (q : WatchQueue) (p : Progress) (event : Path) :
    (attend w q (still w p.tree event) (receive p) event).2 = handle w p event := by
  have hsettles : ∀ q : WatchQueue, settles (still w p.tree event).sizes (max q.attempts 2) 0 none =
      (p.tree.stat w.host.cwd event).toOption.isSome := by
    intro q
    obtain ⟨n, hn⟩ : ∃ n, max q.attempts 2 = n + 2 := ⟨max q.attempts 2 - 2, by omega⟩
    rw [hn]
    exact (settles_still n _).trans Option.isSome_map
  rw [handle, attend, attend, hsettles, hsettles]

lemma organize_report {profile : Profile} {f : FileInfo} :
    (organize w p profile f).2.report = (organize w p profile f).1.tally p.report := by
  unfold organize
  dsimp only
  cases Job.applyIn ⟨w.host, w.trash, w.mode, w.config, profile⟩ w.absoluteRoot [f] p.session p.tree p.store <;> rfl

/-- The report says of an event that was handled what came of it. -/
lemma attend_report : (attend w q c p event).2.report = (attend w q c p event).1.tally p.report := by
  unfold attend
  dsimp only
  split
  · split <;> rfl
  · split
    · rfl
    · split
      · rfl
      · split
        · rfl
        · split
          · rfl
          · split
            · rfl
            · exact organize_report

/-- How many of the exits found a failure among what was organized. -/
def flaws (es : List Exit) : Nat := es.countP Exit.flawed

/-- Each exit is counted once; where it found a failure, it is counted among the failures as well. -/
lemma tally_counts (r : WatchReport) (e : Exit) :
    (e.tally r).processed + (e.tally r).ignored + (e.tally r).unstable + (e.tally r).failed =
        r.processed + r.ignored + r.unstable + r.failed + 1 + (if e.flawed then 1 else 0) ∧
      r.failed + (if e.flawed then 1 else 0) ≤ (e.tally r).failed ∧ (e.tally r).received = r.received ∧
      (e.tally r).declined = r.declined := by
  cases e with
  | organized entries =>
    refine ⟨?_, le_refl _, rfl, rfl⟩
    show r.processed + 1 + r.ignored + r.unstable + (r.failed + if entries.any (·.status = .failed) then 1 else 0) =
      r.processed + r.ignored + r.unstable + r.failed + 1 + if entries.any (·.status = .failed) then 1 else 0
    omega
  | _ =>
    simp [Exit.tally, Exit.flawed]
    omega

namespace Session

/-- What holds of a session at any time. -/
structure Accounted (x : Session) : Prop where
  order : x.sent = x.taken ++ x.turnedAway ++ x.queue
  received : x.report.received = x.taken.length
  declined : x.report.declined = x.turnedAway.length
  sum : x.report.processed + x.report.ignored + x.report.unstable + x.report.failed =
    x.exits.length + flaws (x.exits.map Prod.snd)
  flawed : flaws (x.exits.map Prod.snd) ≤ x.report.failed
  /-- No one is turned away before the end. -/
  early : x.turnedAway ≠ [] → x.phase = .draining ∨ x.phase = .ended
  ended : x.phase = .ended → x.queue = [] ∧ x.closed = true
  draining : x.phase = .draining → x.closed = true

lemma accounted_begin {t : Tree} {store : TagStore} : (begin w t store).Accounted where
  order := rfl
  received := rfl
  declined := rfl
  sum := rfl
  flawed := le_refl _
  early h := absurd rfl h
  ended h := by cases h
  draining h := by cases h

variable {x y z : Session} {es : List Exit}

lemma flaws_concat {e : Exit} : flaws (es ++ [e]) = flaws es + if e.flawed then 1 else 0 := by
  rw [flaws, List.countP_append, List.countP_singleton]
  rfl

namespace Accounted

variable (h : x.Accounted)

include h

/-- Whoever handles the events goes on to something else, and nothing else changes but that the queue may be closed. -/
lemma move {phase : Phase} {closed : Bool} (hcurrent : phase.current = x.phase.current)
    (hearly : x.turnedAway ≠ [] → phase = .draining ∨ phase = .ended)
    (hended : phase = .ended → x.queue = [] ∧ closed = true) (hdraining : phase = .draining → closed = true) :
    Accounted { x with phase := phase, closed := closed } where
  order := by rw [taken, hcurrent]; exact h.order
  received := by rw [taken, hcurrent]; exact h.received
  declined := h.declined
  sum := h.sum
  flawed := h.flawed
  early := hearly
  ended := hended
  draining := hdraining

lemma nobody_away (hdraining : x.phase ≠ .draining) (hended : x.phase ≠ .ended) : x.turnedAway = [] := by
  by_contra hne
  exact (h.early hne).elim hdraining hended

lemma step (hstep : Step w q x y) : y.Accounted := by
  cases hstep with
  | send event hopen hsender hroom =>
    refine { h with order := ?_, ended := fun hend => ?_ }
    · exact (congrArg (· ++ [event]) h.order).trans (List.append_assoc _ _ _)
    · have hclosed := (h.ended hend).2
      rw [hopen] at hclosed
      cases hclosed
  | leave => exact { h with }
  | stop hquiet => exact { h with }
  | lose hquiet => exact { h with }
  | halt hphase hsignal =>
    exact h.move (by rw [hphase]; rfl) (fun hne => absurd (h.nobody_away (by simp [hphase]) (by simp [hphase])) hne)
      (fun hend => by cases hend) fun hdrain => by cases hdrain
  | take event rest hphase hquiet hqueue =>
    have hnobody := h.nobody_away (by simp [hphase]) (by simp [hphase])
    have horder := h.order
    have hreceived := h.received
    rw [taken, hphase, hnobody, hqueue] at horder
    rw [taken, hphase] at hreceived
    refine { h with order := ?_, received := ?_, early := fun hne => absurd hnobody hne, ended := fun hend => ?_,
                    draining := fun hdrain => ?_ }
    · rw [taken, horder, hnobody]
      simp [Phase.current]
    · rw [taken]
      simpa [receive, report, Phase.current] using hreceived
    · cases hend
    · cases hdrain
  | dry hphase hquiet hqueue hsender =>
    exact h.move (by rw [hphase]; rfl) (fun hne => absurd (h.nobody_away (by simp [hphase]) (by simp [hphase])) hne)
      (fun hend => by cases hend) fun hdrain => by cases hdrain
  | handle event c hphase =>
    have hnobody := h.nobody_away (by simp [hphase]) (by simp [hphase])
    have htaken : taken { x with
        phase := .checking
        progress := (attend w q c x.progress event).2
        exits := x.exits ++ [(event, (attend w q c x.progress event).1)] } = x.taken := by
      rw [taken, taken, hphase]
      simp [Phase.current]
    have hreport : (attend w q c x.progress event).2.report = (attend w q c x.progress event).1.tally x.report :=
      attend_report
    obtain ⟨hsum, hfailed, hreceived, hdeclined⟩ := tally_counts x.report (attend w q c x.progress event).1
    have hsum' := h.sum
    have hflawed := h.flawed
    refine ⟨?_, ?_, ?_, ?_, ?_, fun hne => absurd hnobody hne, fun hend => ?_, fun hdrain => ?_⟩
    · rw [htaken]
      exact h.order
    · rw [htaken, report, hreport, hreceived]
      exact h.received
    · rw [report, hreport, hdeclined]
      exact h.declined
    · rw [report, hreport, hsum, List.map_append, List.map_singleton, flaws_concat, List.length_append,
        List.length_singleton]
      dsimp only
      omega
    · rw [report, hreport, List.map_append, List.map_singleton, flaws_concat]
      dsimp only
      omega
    · cases hend
    · cases hdrain
  | check hphase =>
    refine h.move ?_ (fun hne => absurd (h.nobody_away (by simp [hphase]) (by simp [hphase])) hne) (fun hend => ?_)
      fun hdrain => ?_
    · rw [hphase]
      split <;> rfl
    · split at hend <;> cases hend
    · split at hdrain <;> cases hdrain
  | close hphase =>
    exact h.move (by rw [hphase]; rfl) (fun _ => Or.inl rfl) (fun hend => by cases hend) fun _ => rfl
  | drain event rest hphase hqueue =>
    refine { h with order := ?_, declined := ?_, early := fun _ => Or.inl hphase, ended := fun hend => ?_ }
    · have horder := h.order
      rw [hqueue] at horder
      rw [horder]
      simp [taken]
    · simpa [report] using h.declined
    · rw [hphase] at hend
      cases hend
  | finish hphase hqueue =>
    exact h.move (by rw [hphase]; rfl) (fun _ => Or.inr rfl) (fun _ => ⟨hqueue, h.draining hphase⟩)
      fun hdrain => by cases hdrain

end Accounted

/-- What holds at the start and after each step holds throughout. -/
lemma accounted_run {t : Tree} {store : TagStore} (hrun : Relation.ReflTransGen (Step w q) (begin w t store) x) :
    x.Accounted := by
  induction hrun with
  | refl => exact accounted_begin
  | tail _ hstep ih => exact ih.step hstep

/-- An event is taken only while no signal has come, and when all those before it have been handled. -/
lemma step_taken (hstep : Step w q x y) (hne : y.taken ≠ x.taken) :
    x.signal = .quiet ∧ x.taken = x.exits.map Prod.fst ∧ ∃ event rest, x.queue = event :: rest ∧
      y.taken = x.taken ++ [event] := by
  cases hstep with
  | take event rest hphase hquiet hqueue =>
    have htaken : x.taken = x.exits.map Prod.fst := by simp [taken, hphase, Phase.current]
    exact ⟨hquiet, htaken, event, rest, hqueue, by rw [htaken]; rfl⟩
  | handle event c hphase => exact absurd (by simp [taken, hphase, Phase.current]) hne
  | check hphase =>
    refine absurd ?_ hne
    rw [taken, taken, hphase]
    dsimp only
    split <;> rfl
  | send | leave | stop | lose | drain => exact absurd rfl hne
  | halt hphase | dry hphase | close hphase | finish hphase => exact absurd (by rw [taken, taken, hphase]; rfl) hne

/-- When a watch has ended, each event that was sent was received or turned away; those received were handled in the order
in which they were sent, one after the other, none was begun once the signal had come, and the report counts each of them
once, but for failures among what was organized. -/
theorem accounts {t : Tree} {store : TagStore} (hrun : Relation.ReflTransGen (Step w q) (begin w t store) x)
    (hend : x.phase = .ended) :
    x.sent.length = x.report.received + x.report.declined ∧
      x.exits.map Prod.fst = x.sent.take x.report.received ∧
      x.report.received = x.report.processed + x.report.ignored + x.report.unstable +
        (x.report.failed - flaws (x.exits.map Prod.snd)) ∧
      flaws (x.exits.map Prod.snd) ≤ x.report.failed ∧
      ∀ y z, Relation.ReflTransGen (Step w q) (begin w t store) y → Step w q y z → z.taken ≠ y.taken →
        y.signal = .quiet ∧ y.taken = y.exits.map Prod.fst ∧ ∃ event, z.taken = y.taken ++ [event] := by
  have h := accounted_run hrun
  have htaken : x.taken = x.exits.map Prod.fst := by simp [taken, hend, Phase.current]
  have hreceived := h.received
  have hsum := h.sum
  have hflawed := h.flawed
  rw [htaken, List.length_map] at hreceived
  refine ⟨?_, ?_, by omega, hflawed, fun y z hy hstep hne => ?_⟩
  · rw [h.order, (h.ended hend).1, h.received, h.declined, List.append_nil, List.length_append]
  · rw [h.order, h.received, List.append_assoc, List.take_left, htaken]
  · obtain ⟨hquiet, hall, event, -, -, hnext⟩ := step_taken hstep hne
    exact ⟨hquiet, hall, event, hnext⟩

end Session

end

section

def plain : Watch := ⟨Job.plainHost, ⟨"/r"⟩, ⟨"/trash"⟩, .move, {}, false, .given {}⟩

/-- The signal comes while the first of two files is looked at, which keeps growing. -/
theorem Session.accounts_stop : ∃ x, Relation.ReflTransGen (Step plain {}) (begin plain Job.twoFiles .empty) x ∧
    x.phase = .ended ∧ x.sent = [⟨"/r/a.txt"⟩, ⟨"/r/a.zip"⟩] ∧ x.sent.length = x.report.received + x.report.declined ∧
      x.exits.map Prod.fst = x.sent.take x.report.received := by
  have hrun := Relation.ReflTransGen.refl (r := Step plain {}) (a := begin plain Job.twoFiles .empty)
    |>.tail (.send _ ⟨"/r/a.txt"⟩ rfl rfl (by decide))
    |>.tail (.take _ _ _ rfl rfl rfl)
    |>.tail (.send _ ⟨"/r/a.zip"⟩ rfl rfl (by decide))
    |>.tail (.stop _ rfl)
    |>.tail (.handle _ _ ⟨some, Job.twoFiles, none⟩ rfl)
    |>.tail (.check _ rfl)
    |>.tail (.close _ rfl)
    |>.tail (.drain _ _ _ rfl rfl)
    |>.tail (.finish _ rfl rfl)
  obtain ⟨hsent, horder, -⟩ := accounts hrun rfl
  exact ⟨_, hrun, rfl, rfl, hsent, horder⟩

end

end Watch

end FileOrganizer
