import FileOrganizer.Proofs.Batch.Pool
import FileOrganizer.Proofs.Undo.Reorder
import FileOrganizer.Proofs.Undo.Session
import Mathlib.Data.Fintype.Basic

/-! Undoing what several workers did at once. The records of a file are noted when it is through with the rules, so the
log need not tell in its order what was done. It is good for undoing all the same, as long as it keeps the order
wherever a file went to a place that another one had left, or below it. -/

namespace FileOrganizer

open FileOrganizer.Tree FileOrganizer.Disk

variable {ι : Type} {s : Setting} {cwd root : Place} {t t' : Tree} {files : ι → FileInfo}
  {rules : List Rule} {p p' : Pool ι} {schedule : List ι} {i k : ι} {done noted : List (ι × UndoRecord)}
  {ms : List UndoRecord} {m : UndoRecord} {f : FileInfo} {r : Effect} {w : Workspace} {session : OpenSession}

/-- Of two things in a list that holds nothing twice, just one comes first. -/
lemma not_sublist_swap {α : Type} {l : List α} {x y : α} (hl : l.Nodup) (h : [x, y].Sublist l) : ¬[y, x].Sublist l := by
  induction l with
  | nil => cases h
  | cons a l ih =>
    obtain ⟨ha, hl⟩ := List.nodup_cons.1 hl
    intro h'
    have hin : ∀ {b c : α}, [b, c].Sublist l → b ∈ l ∧ c ∈ l := fun hsub =>
      ⟨hsub.subset List.mem_cons_self, hsub.subset (List.mem_cons_of_mem _ List.mem_cons_self)⟩
    rcases List.sublist_cons_iff.1 h with h | ⟨l₁, hl₁, h⟩ <;> rcases List.sublist_cons_iff.1 h' with h' | ⟨l₂, hl₂, h'⟩
    · exact ih hl h h'
    · exact ha ((List.cons.inj hl₂).1 ▸ (hin h).2)
    · exact ha ((List.cons.inj hl₁).1 ▸ (hin h').2)
    · obtain ⟨rfl, rfl⟩ := List.cons.inj hl₁
      exact ha ((List.cons.inj hl₂).1 ▸ h.subset List.mem_cons_self)

/-- With a move, a session comes to be one that can be undone, whatever it was begun as. -/
lemma OpenSession.append_move (session : OpenSession) (host : Host) (t : Tree) (h : m.mode = .move) :
    OpenSession.append { session with mode := .move } host m t = ((session.append host m t).1,
      { (session.append host m t).2.1 with mode := .move }, (session.append host m t).2.2) := by
  have hadd : OpenSession.add { session with mode := .move } host m = session.add host m := by
    unfold add
    cases session.log <;> simp [h]
  unfold append
  rw [hadd]
  rfl

namespace Pool

def file (p : Pool ι) (i : ι) : FileInfo := (p.errand i).outcome.file

def tree (p : Pool ι) : Tree := p.batch.work.tree

/-- The tree came about by what was done, and the log is in its place. -/
structure Told (s : Setting) (root : Place) (t : Tree) (p : Pool ι) (done : List (ι × UndoRecord)) : Prop where
  sound : p.tree.Sound
  plain : p.tree.Plain
  kept : ∀ session, p.batch.session = some session →
    OpenSession.Kept s.root root { session with mode := .move } p.tree
  told : UndoRecord.Tell s.host.cwd root t (done.map Prod.snd) p.tree
  moves : ∀ x ∈ done, x.2.mode = .move
  legible : ∀ x ∈ done, x.2.time.Legible
  sources : ∀ x ∈ done, x.2.source.place s.host.cwd ≠ UndoLog.place root

/-- The file is there, and is known by a plain absolute path. -/
structure Placed (s : Setting) (root : Place) (t : Tree) (f : FileInfo) : Prop where
  stands : Stands s.host.cwd root t [] f.path
  absolute : f.path.isAbsolute = true
  named : f.Named

/-- Every file is at a place of its own, to which no other one was ever sent, and no place was used twice. -/
structure Spread (s : Setting) (root : Place) (p : Pool ι) (done : List (ι × UndoRecord)) : Prop where
  placed : ∀ i, Placed s root p.tree (p.file i)
  apart : ∀ i k, i ≠ k → (p.file i).path.place s.host.cwd ≠ (p.file k).path.place s.host.cwd
  alone : ∀ x ∈ done, ∀ k, k ≠ x.1 → (p.file k).path.place s.host.cwd ≠ x.2.target.place s.host.cwd
  claimed : ∀ x ∈ done, x.2.target ∈ p.batch.work.claims ∧ x.2.target.isAbsolute = true
  distinct : done.Pairwise fun x y => x.2.target.place s.host.cwd ≠ y.2.target.place s.host.cwd
  others : done.Pairwise fun x y => x.1 ≠ y.1 → y.2.source.place s.host.cwd ≠ x.2.target.place s.host.cwd

/-! The account -/

namespace Told

/-- Neither the log nor the tree has changed. -/
lemma same (h : p.Told s root t done) (hsession : p'.batch.session = p.batch.session) (htree : p'.tree = p.tree) :
    p'.Told s root t done where
  sound := htree ▸ h.sound
  plain := htree ▸ h.plain
  kept := by
    rw [hsession, htree]
    exact h.kept
  told := htree ▸ h.told
  moves := h.moves
  legible := h.legible
  sources := h.sources

/-- A file was moved. -/
lemma did (h : p.Told s root t done) (hopen : ∃ session, p.batch.session = some session)
    (hsession : p'.batch.session = p.batch.session) (hd : m.Did s.host.cwd p.tree p'.tree)
    (hm : m.Straight s.host.cwd root) (hmode : m.mode = .move) (htime : m.time.Legible)
    (hsource : m.source.place s.host.cwd ≠ UndoLog.place root) : p'.Told s root t (done ++ [(i, m)]) where
  sound := hd.sound
  plain := hd.plain
  kept session hsome := by
    have hkept := h.kept session (hsession ▸ hsome)
    obtain ⟨x, gone, ha⟩ := hd.arrived
    exact hkept.of_node? (ha.keep_dir hkept.writable.dir) (hd.other (fun _ => hsource) hm.clear)
  told := by
    obtain ⟨session, hsome⟩ := hopen
    rw [List.map_append]
    exact h.told.append (.next (.refl root _) (h.kept session hsome).writable.not_isDirAt hd (.nothing (.refl root _)))
  moves := List.forall_mem_append.2 ⟨h.moves, List.forall_mem_singleton.2 hmode⟩
  legible := List.forall_mem_append.2 ⟨h.legible, List.forall_mem_singleton.2 htime⟩
  sources := List.forall_mem_append.2 ⟨h.sources, List.forall_mem_singleton.2 hsource⟩

/-- A move was noted. -/
lemma note (h : p.Told s root t done) (hreach : UndoLog.Reachable s.root root) (hnow : s.host.now.Legible)
    (hsession : p.batch.session = some session) (hmode : m.mode = .move) (htime : m.time.Legible)
    (hbatch : p'.batch = p.batch.note s.host m) :
    p'.Told s root t done ∧ UndoLog.Same root p.tree p'.tree := by
  have hnote : p'.batch = { p.batch with
      session := some (session.append s.host m p.tree).2.1
      work := { p.batch.work with tree := (session.append s.host m p.tree).2.2 } } := by
    rw [hbatch, Batch.note, hsession]
    rfl
  obtain ⟨hkept, hsame, hs, hp⟩ := (h.kept session hsession).append hreach h.sound h.plain hnow htime
    (OpenSession.append_move session s.host p.tree hmode)
  have htree : p'.tree = (session.append s.host m p.tree).2.2 := congrArg (·.work.tree) hnote
  rw [← htree] at hkept hsame hs hp
  refine ⟨⟨hs, hp, fun session' hsome => ?_, ?_, h.moves, h.legible, h.sources⟩, hsame⟩
  · rw [hnote] at hsome
    obtain rfl := Option.some.inj hsome
    exact hkept
  · rw [← List.append_nil (done.map Prod.snd)]
    exact h.told.append (.nothing hsame)

end Told

/-! The files -/

namespace Placed

lemma of_same (h : Placed s root t f) (hsame : UndoLog.Same root t t') : Placed s root t' f where
  stands :=
    { h.stands with
      there := by
        rw [bytes?_congr (hsame _ h.stands.ne_log)]
        exact h.stands.there
      rest := by simp }
  absolute := h.absolute
  named := h.named

lemma refresh (h : Placed s root w.tree f) (hcwd : ∀ n ∈ s.host.cwd, Proper n) :
    Placed s root w.tree (Outcome.refresh s w f) := by
  obtain ⟨hplace, hup⟩ := Outcome.refresh_path hcwd w f
  refine ⟨⟨hup h.stands.level, hplace ▸ h.stands.there, hplace ▸ h.stands.ne_log, by simp, by simp⟩, ?_, ?_⟩
  · exact Path.isAbsolute_of_parts (Outcome.refresh_parts hcwd fun _ => h.absolute) h.absolute
  · exact Outcome.refresh_named (o := { origin := f.path, file := f }) h.named

/-- Another file was moved. -/
lemma of_did (h : Placed s root t f) (hd : m.Did s.host.cwd t t')
    (hne : m.source.place s.host.cwd ≠ f.path.place s.host.cwd) : Placed s root t' f := by
  refine ⟨{ h.stands with there := ?_, rest := by simp }, h.absolute, h.named⟩
  rw [hd.bytes? (fun _ => hne) h.stands.there]
  exact h.stands.there

lemma sent {w' : Workspace} (h : Placed s root w.tree f) (hsends : r.Sends s f m w w') (hm : m.Straight s.host.cwd root) :
    Placed s root w'.tree (f.relocated m.target) := by
  have hstands := h.stands.did hsends.did hm hsends.source
  rw [if_pos hsends.mode] at hstands
  exact ⟨hstands, hsends.absolute, FileInfo.named_relocated f m.target⟩

end Placed

namespace Spread

/-- No file has gone anywhere. -/
lemma same (h : p.Spread s root done) (hplaced : ∀ k, Placed s root p'.tree (p'.file k))
    (hplace : ∀ k, (p'.file k).path.place s.host.cwd = (p.file k).path.place s.host.cwd)
    (hclaims : p'.batch.work.claims = p.batch.work.claims) : p'.Spread s root done where
  placed := hplaced
  apart i k hne := by
    rw [hplace, hplace]
    exact h.apart i k hne
  alone x hx k hk := by
    rw [hplace]
    exact h.alone x hx k hk
  claimed := hclaims ▸ h.claimed
  distinct := h.distinct
  others := h.others

/-- The worker `i` has looked at its file once more. -/
lemma seen (h : p.Spread s root done) (hf : Placed s root p.tree f)
    (hplace : f.path.place s.host.cwd = (p.file i).path.place s.host.cwd) (htree : p'.tree = p.tree)
    (hclaims : p'.batch.work.claims = p.batch.work.claims) (hfile : p'.file i = f)
    (hothers : ∀ k, k ≠ i → p'.file k = p.file k) : p'.Spread s root done := by
  refine h.same (fun k => ?_) (fun k => ?_) hclaims
  · rw [htree]
    by_cases hk : k = i
    · rw [hk, hfile]
      exact hf
    · rw [hothers k hk]
      exact h.placed k
  · by_cases hk : k = i
    · rw [hk, hfile, hplace]
    · rw [hothers k hk]

/-- The file of the worker `i` was sent somewhere. -/
lemma did (h : p.Spread s root done) (hf : Placed s root p.tree f)
    (hplace : f.path.place s.host.cwd = (p.file i).path.place s.host.cwd)
    (hsends : r.Sends s f m p.batch.work p'.batch.work) (hm : m.Straight s.host.cwd root)
    (hgood : ∀ x ∈ done, x.2.Straight s.host.cwd root) (hfile : p'.file i = f.relocated m.target)
    (hothers : ∀ k, k ≠ i → p'.file k = p.file k) : p'.Spread s root (done ++ [(i, m)]) := by
  have hd : m.Did s.host.cwd p.tree p'.tree := hsends.did
  have hsource : m.source.place s.host.cwd = (p.file i).path.place s.host.cwd := hsends.source ▸ hplace
  have hmine : (p'.file i).path = m.target := by
    rw [hfile]
    rfl
  -- Nothing was where the file went, neither a file nor anything that was claimed.
  have hfree : ∀ k, (p.file k).path.place s.host.cwd ≠ m.target.place s.host.cwd := fun k heq =>
    (h.placed k).stands.there (heq ▸ hd.free)
  have hfresh : ∀ x ∈ done, m.target.place s.host.cwd ≠ x.2.target.place s.host.cwd := by
    intro x hx heq
    obtain ⟨hclaim, habs⟩ := h.claimed x hx
    have hsame := Path.same_of_place hsends.absolute habs hm.level (hgood x hx).level heq
    rw [hsends.unclaimed _ hclaim] at hsame
    cases hsame
  refine
    { placed := fun k => ?_, apart := fun k l hkl => ?_, alone := fun x hx k hk => ?_, claimed := fun x hx => ?_,
      distinct := ?_, others := ?_ }
  · by_cases hk : k = i
    · rw [hk, hfile]
      exact hf.sent hsends hm
    · rw [hothers k hk]
      exact (h.placed k).of_did hd fun heq => h.apart i k (Ne.symm hk) (hsource.symm.trans heq)
  · by_cases hk : k = i
    · subst hk
      rw [hmine, hothers l (Ne.symm hkl)]
      exact (hfree l).symm
    · by_cases hl : l = i
      · subst hl
        rw [hmine, hothers k hk]
        exact hfree k
      · rw [hothers k hk, hothers l hl]
        exact h.apart k l hkl
  · rcases List.mem_append.1 hx with hx' | hx'
    · by_cases hki : k = i
      · subst hki
        rw [hmine]
        exact hfresh x hx'
      · rw [hothers k hki]
        exact h.alone x hx' k hk
    · obtain rfl := List.mem_singleton.1 hx'
      rw [hothers k hk]
      exact hfree k
  · rw [hsends.claims]
    rcases List.mem_append.1 hx with hx | hx
    · exact (h.claimed x hx).imp_left (List.mem_cons_of_mem _)
    · obtain rfl := List.mem_singleton.1 hx
      exact ⟨List.mem_cons_self, hsends.absolute⟩
  · refine List.pairwise_append.2 ⟨h.distinct, List.pairwise_singleton _ _, fun x hx y hy => ?_⟩
    obtain rfl := List.mem_singleton.1 hy
    exact (hfresh x hx).symm
  · refine List.pairwise_append.2 ⟨h.others, List.pairwise_singleton _ _, fun x hx y hy hne => ?_⟩
    obtain rfl := List.mem_singleton.1 hy
    rw [hsource]
    exact h.alone x hx i hne.symm

end Spread

/-! The books -/

variable [DecidableEq ι]

/-- What was done, by whom, and what of it was noted: the records of each file are noted in the order in which they
were made, and those that are due come last. -/
structure Books (p : Pool ι) (done noted : List (ι × UndoRecord)) : Prop where
  log : ∃ session, p.batch.session = some session ∧ session.records = noted.map Prod.snd
  whole : ∀ i, (done.filter fun x => x.1 = i).map Prod.snd = (p.errand i).outcome.records
  share : ∀ i, (done.filter fun x => x.1 = i) =
    (noted.filter fun x => x.1 = i) ++ (p.errand i).due.map fun m => (i, m)

lemma filter_pairs (i k : ι) (ms : List UndoRecord) :
    (ms.map fun m => (i, m)).filter (fun x => x.1 = k) = if i = k then ms.map fun m => (i, m) else [] := by
  split
  · next h => exact List.filter_eq_self.2 (by simp [h])
  · next h => exact List.filter_eq_nil_iff.2 (by simp [h])

namespace Books

/-- Nothing new is in the books. -/
lemma same (h : p.Books done noted) (hsession : p'.batch.session = p.batch.session)
    (hsteps : ∀ k, (p'.errand k).outcome.steps = (p.errand k).outcome.steps) (hdue : ∀ k, (p'.errand k).due = (p.errand k).due) :
    p'.Books done noted where
  log := hsession ▸ h.log
  whole k := (h.whole k).trans (by rw [Outcome.records, Outcome.records, hsteps])
  share k := hdue k ▸ h.share k

/-- Something was done by the worker `i`. -/
lemma did (h : p.Books done noted) (hsession : p'.batch.session = p.batch.session)
    (hothers : ∀ k, k ≠ i → p'.errand k = p.errand k) (howed : (p.errand i).due = (p.errand i).outcome.records)
    (hdue : (p'.errand i).due = (p'.errand i).outcome.records)
    (hrecords : (p'.errand i).outcome.records = (p.errand i).outcome.records ++ ms) :
    p'.Books (done ++ ms.map fun m => (i, m)) noted where
  log := hsession ▸ h.log
  whole k := by
    rw [List.filter_append, filter_pairs, List.map_append, h.whole k]
    split
    · next heq =>
      subst heq
      simp [hrecords]
    · next hne => simp [hothers k (Ne.symm hne)]
  share k := by
    rw [List.filter_append, filter_pairs, h.share k]
    split
    · next heq =>
      subst heq
      rw [howed, hdue, hrecords, List.map_append, List.append_assoc]
    · next hne => rw [List.append_nil, hothers k (Ne.symm hne)]

/-- The worker `i` has noted a record. -/
lemma note (h : p.Books done noted) (hothers : ∀ k, k ≠ i → p'.errand k = p.errand k)
    (hdue : (p.errand i).due = m :: (p'.errand i).due) (houtcome : (p'.errand i).outcome = (p.errand i).outcome)
    (hlog : ∃ session, p'.batch.session = some session ∧ session.records = noted.map Prod.snd ++ [m]) :
    p'.Books done (noted ++ [(i, m)]) where
  log := by simpa using hlog
  whole k := by
    rw [h.whole k]
    by_cases hk : k = i
    · rw [hk, houtcome]
    · rw [hothers k hk]
  share k := by
    rw [List.filter_append, h.share k]
    by_cases hk : k = i
    · subst hk
      simp [hdue]
    · simp [hothers k hk, Ne.symm hk]

end Books

/-- As long as nothing has failed, the books tell all that was done. -/
def Fair (s : Setting) (root : Place) (t : Tree) (p : Pool ι) : Prop :=
  (∀ i, ∀ a ∈ (p.errand i).actions, a.carries = true) ∧ ∃ done noted, p.Books done noted ∧
    ((∀ i, (p.errand i).outcome.success = true) → (∀ x ∈ done, x.2.Straight s.host.cwd root) →
      p.Told s root t done ∧ p.Spread s root done)

lemma step_self (p : Pool ι) (i : ι) :
    (p.step s files i).errand i = ((p.errand i).step s (files i) p.batch).1 := Function.update_self _ _ _

lemma step_other (p : Pool ι) (h : k ≠ i) : (p.step s files i).errand k = p.errand k := Function.update_of_ne h _ _

lemma step_batch (p : Pool ι) (i : ι) :
    (p.step s files i).batch = ((p.errand i).step s (files i) p.batch).2 := rfl

namespace Fair

section

variable (hothers : ∀ k, k ≠ i → p'.errand k = p.errand k) (hcarry : ∀ k, ∀ a ∈ (p'.errand k).actions, a.carries = true)

include hothers hcarry

omit hothers in
/-- A worker has gone on without doing anything. -/
lemma waits (h : p.Fair s root t) (hfile : ∀ k, p'.file k = p.file k)
    (hsteps : ∀ k, (p'.errand k).outcome.steps = (p.errand k).outcome.steps)
    (hdue : ∀ k, (p'.errand k).due = (p.errand k).due) (hwork : p'.batch.work = p.batch.work)
    (hsession : p'.batch.session = p.batch.session) : p'.Fair s root t := by
  obtain ⟨-, done, noted, hbooks, hfair⟩ := h
  have htree : p'.tree = p.tree := congrArg Workspace.tree hwork
  refine ⟨hcarry, done, noted, hbooks.same hsession hsteps hdue, fun hsuccess hgood => ?_⟩
  obtain ⟨htold, hspread⟩ := hfair (fun k => (congrArg (List.all · _) (hsteps k)).symm.trans (hsuccess k)) hgood
  refine ⟨htold.same hsession htree, hspread.same (fun k => ?_) (fun k => by rw [hfile]) (by rw [hwork])⟩
  rw [hfile, htree]
  exact hspread.placed k

/-- A worker has noted a record. -/
lemma notes (hreach : UndoLog.Reachable s.root root) (hnow : s.host.now.Legible) (h : p.Fair s root t)
    (hdue : (p.errand i).due = m :: (p'.errand i).due) (houtcome : (p'.errand i).outcome = (p.errand i).outcome)
    (hbatch : p'.batch = p.batch.note s.host m) : p'.Fair s root t := by
  obtain ⟨-, done, noted, hbooks, hfair⟩ := h
  have houtcomes : ∀ k, (p'.errand k).outcome = (p.errand k).outcome := fun k => by
    by_cases hk : k = i
    · rw [hk, houtcome]
    · rw [hothers k hk]
  obtain ⟨session, hsession, hrecords⟩ := hbooks.log
  have hm : (i, m) ∈ done := by
    have hin : (i, m) ∈ done.filter fun x => x.1 = i := by
      rw [hbooks.share i, hdue]
      exact List.mem_append_right _ List.mem_cons_self
    exact List.mem_of_mem_filter hin
  refine ⟨hcarry, done, noted ++ [(i, m)], hbooks.note hothers hdue houtcome ?_, fun hsuccess hgood => ?_⟩
  · rw [hbatch, Batch.note, hsession, ← hrecords, ← session.append_records s.host m p.batch.work.tree]
    exact ⟨_, rfl, rfl⟩
  · simp only [houtcomes] at hsuccess
    obtain ⟨htold, hspread⟩ := hfair hsuccess hgood
    obtain ⟨htold', hsame⟩ := htold.note hreach hnow hsession (htold.moves _ hm) (htold.legible _ hm) hbatch
    have hfile : ∀ k, p'.file k = p.file k := fun k => congrArg Outcome.file (houtcomes k)
    refine ⟨htold', hspread.same (fun k => ?_) (fun k => by rw [hfile]) ?_⟩
    · rw [hfile]
      exact (hspread.placed k).of_same hsame
    · rw [hbatch, Batch.note, hsession]

/-- A worker has run an action. -/
lemma acts (hcwd : ∀ n ∈ s.host.cwd, Proper n) (hdry : s.config.dryRun = false) (hroot : s.root.isAbsolute = true)
    (hnow : s.host.now.Legible) (h : p.Fair s root t) {rule : String} {a : Action} (ha : a ∈ (p.errand i).actions)
    (howed : (p.errand i).due = (p.errand i).outcome.records)
    (hdue : (p'.errand i).due = (p'.errand i).outcome.records)
    (houtcome : (p'.errand i).outcome = ((p.errand i).outcome.runAction s rule a p.batch.work).1)
    (hbatch : p'.batch = { p.batch with work := ((p.errand i).outcome.runAction s rule a p.batch.work).2 }) :
    p'.Fair s root t := by
  obtain ⟨hcarried, done, noted, hbooks, hfair⟩ := h
  obtain ⟨session, hsession, hrecords⟩ := hbooks.log
  have hsession' : p'.batch.session = p.batch.session := by rw [hbatch]
  rw [Outcome.runAction_fst] at houtcome
  let f := Outcome.refresh s p.batch.work (p.file i)
  let r := (a.run s f p.batch.work).1
  have hwork : p'.batch.work = (a.run s f p.batch.work).2 :=
    (congrArg Batch.work hbatch).trans (Outcome.runAction_real hdry _ rule a _)
  refine ⟨hcarry, done ++ r.records.map fun m => (i, m), noted, ?_, fun hsuccess hgood => ?_⟩
  · exact hbooks.did hsession' hothers howed hdue ((congrArg Outcome.records houtcome).trans Outcome.records_concat)
  · have hok : ∀ k, (p.errand k).outcome.success = true := fun k => by
      by_cases hk : k = i
      · subst hk
        exact (Outcome.success_concat.1 (houtcome ▸ hsuccess k)).1
      · exact hothers k hk ▸ hsuccess k
    have hstatus : r.status ≠ .failed := (Outcome.success_concat.1 (houtcome ▸ hsuccess i)).2
    have hbefore : ∀ x ∈ done, x.2.Straight s.host.cwd root := fun x hx => hgood x (List.mem_append_left _ hx)
    have hstraight : ∀ m ∈ r.records, m.Straight s.host.cwd root := fun m hm =>
      hgood (i, m) (List.mem_append_right _ (List.mem_map_of_mem hm))
    obtain ⟨htold, hspread⟩ := hfair hok hbefore
    have hf : Placed s root p.tree f := (hspread.placed i).refresh hcwd
    have hplace : f.path.place s.host.cwd = (p.file i).path.place s.host.cwd := (Outcome.refresh_path hcwd _ _).1
    have hfile : p'.file i = r.take f := congrArg Outcome.file houtcome
    have hfiles : ∀ k, k ≠ i → p'.file k = p.file k := fun k hk => congrArg (·.outcome.file) (hothers k hk)
    rcases Action.run_sends htold.sound htold.plain hf.stands (hcarried i a ha) hdry hroot hf.absolute hstatus hstraight with ⟨⟨hnone, hpath⟩, hsame⟩ | ⟨m, hsends⟩
    · have hnone : r.records = [] := hnone
      have hwork' : p'.batch.work = p.batch.work := hwork.trans hsame
      rw [Effect.take, hpath] at hfile
      rw [hnone, List.map_nil, List.append_nil]
      exact ⟨htold.same hsession' (congrArg Workspace.tree hwork'),
        hspread.seen hf hplace (congrArg Workspace.tree hwork') (congrArg Workspace.claims hwork') hfile hfiles⟩
    · have hone : r.records = [m] := hsends.records
      rw [Effect.take, hsends.newPath] at hfile
      rw [← hwork] at hsends
      rw [hone, List.map_singleton]
      have hm := hstraight m (by rw [hone]; exact List.mem_singleton_self m)
      exact ⟨htold.did ⟨session, hsession⟩ hsession' hsends.did hm hsends.mode (hsends.time ▸ hnow)
        (hsends.source ▸ hf.stands.ne_log), hspread.did hf hplace hsends hm hbefore hfile hfiles⟩

end

section

variable (hcwd : ∀ n ∈ s.host.cwd, Proper n) (hdry : s.config.dryRun = false) (hnow : s.host.now.Legible)
  (hreach : UndoLog.Reachable s.root root)

include hcwd hdry hnow hreach

lemma step (h : p.Fair s root t) (i : ι) : (p.step s files i).Fair s root t := by
  have hsteps := (p.errand i).steps_step (s := s) (f := files i) (b := p.batch)
  have hactions := (p.errand i).step_actions (s := s) (f := files i) (b := p.batch)
  rw [← step_self, ← step_batch] at hsteps
  rw [← step_self] at hactions
  have hothers : ∀ k, k ≠ i → (p.step s files i).errand k = p.errand k := fun k hk => step_other p hk
  generalize p.step s files i = p' at hsteps hactions hothers ⊢
  have hcarry : ∀ k, ∀ a ∈ (p'.errand k).actions, a.carries = true := fun k a ha => by
    by_cases hk : k = i
    · subst hk
      exact h.1 k a (hactions ha)
    · exact h.1 k a (hothers k hk ▸ ha)
  cases hsteps with
  | waits file steps due work session =>
    have hall : ∀ {α : Type} (g : Errand → α), g (p'.errand i) = g (p.errand i) →
        ∀ k, g (p'.errand k) = g (p.errand k) := fun g hi k => by
      by_cases hk : k = i
      · rw [hk, hi]
      · rw [hothers k hk]
    exact waits hcarry h (hall (·.outcome.file) file) (hall (·.outcome.steps) steps) (hall Errand.due due) work session
  | acts mem owed due outcome batch =>
    exact acts hothers hcarry hcwd hdry hreach.isAbsolute hnow h mem owed due outcome batch
  | notes due outcome batch => exact notes hothers hcarry hreach hnow h due outcome batch

/-- Whatever the order in which the workers take their steps, the books are kept. -/
lemma run (h : p.Fair s root t) (schedule : List ι) : (p.run s files schedule).Fair s root t := by
  induction schedule generalizing p with
  | nil => exact h
  | cons i schedule ih => exact ih (h.step hcwd hdry hnow hreach i)

end

end Fair

/-- The workers begin, each with a file of its own, in a new session. -/
def opened (s : Setting) (mode : TransferKind) (rules : List Rule) (files : ι → FileInfo) (t : Tree) (store : TagStore) :
    Pool ι :=
  start rules files (Job.start t store (some { folder := s.root, mode }))

/-- Wherever a file went to a place that another one had left, or below it, the log tells first of the one that left. -/
def InOrder (cwd : Place) (p : Pool ι) (log : List UndoRecord) : Prop :=
  ∀ i k, i ≠ k → ∀ r ∈ (p.errand i).outcome.records, ∀ m ∈ (p.errand k).outcome.records,
    r.source.place cwd <+: m.target.place cwd → [r, m].Sublist log

instance [Fintype ι] {log : List UndoRecord} : Decidable (p.InOrder cwd log) :=
  inferInstanceAs (Decidable (∀ i k, i ≠ k → ∀ r ∈ _, ∀ m ∈ _, _ → _))

namespace Books

lemma records_eq (h : p.Books done noted) (hsession : p.batch.session = some session) :
    session.records = noted.map Prod.snd := by
  obtain ⟨session', hsession', hrecords⟩ := h.log
  rw [hsession] at hsession'
  rw [Option.some.inj hsession', hrecords]

section

variable (h : p.Books done noted) (hover : ∀ i, (p.errand i).isOver = true)

include h hover

/-- When all is noted, the log tells of each file in the order in which things were done with it. -/
lemma share_over (i : ι) : (done.filter fun x => x.1 = i) = noted.filter fun x => x.1 = i := by
  have hdue : (p.errand i).due = [] := by
    have hi := hover i
    cases he : p.errand i with
    | noting due o =>
      cases due with
      | nil => rfl
      | cons => simp [he, Errand.isOver] at hi
    | _ => simp [he, Errand.isOver] at hi
  rw [h.share i, hdue, List.map_nil, List.append_nil]

lemma perm : done.Perm noted := by
  classical
  refine List.perm_iff_count.2 fun x => ?_
  have hcount := congrArg (List.count x) (h.share_over hover x.1)
  rwa [List.count_filter (by simp), List.count_filter (by simp)] at hcount

lemma perm_records (hsession : p.batch.session = some session) : (done.map Prod.snd).Perm session.records :=
  h.records_eq hsession ▸ (h.perm hover).map Prod.snd

omit hover in
lemma mem_records {x : ι × UndoRecord} (hx : x ∈ done) : x.2 ∈ (p.errand x.1).outcome.records := by
  rw [← h.whole x.1]
  exact List.mem_map_of_mem (List.mem_filter.2 ⟨hx, by simp⟩)

/-- If the log tells of a file before another one that went first, they could have gone the other way round. -/
lemma apart (hspread : p.Spread s root done) (horder : p.InOrder s.host.cwd (noted.map Prod.snd)) {r : UndoRecord}
    (hdone : [r, m].Sublist (done.map Prod.snd)) (hnoted : [m, r].Sublist (noted.map Prod.snd)) :
    r.Apart s.host.cwd m := by
  have hnodup : (noted.map Prod.snd).Nodup := by
    refine ((h.perm hover).map Prod.snd).nodup_iff.1 (List.pairwise_map.2 (hspread.distinct.imp fun hne heq => hne ?_))
    rw [heq]
  obtain ⟨l, hl, heq⟩ := List.sublist_map_iff.1 hdone
  obtain ⟨x, y, rfl⟩ : ∃ x y, l = [x, y] := List.length_eq_two.1 (by simpa using congrArg List.length heq.symm)
  obtain ⟨rfl, rfl⟩ : r = x.2 ∧ m = y.2 := by simpa using heq
  have hx : x ∈ done := hl.subset List.mem_cons_self
  have hy : y ∈ done := hl.subset (List.mem_cons_of_mem _ List.mem_cons_self)
  by_cases hxy : x.1 = y.1
  · have hmine : [x, y].Sublist noted := by
      have hfilter := hl.filter fun z => z.1 = x.1
      rw [h.share_over hover, List.filter_eq_self.2 (by simp [hxy])] at hfilter
      exact hfilter.trans List.filter_sublist
    exact absurd hnoted (not_sublist_swap hnodup (hmine.map Prod.snd))
  · refine ⟨List.pairwise_pair.1 (hspread.others.sublist hl) hxy, fun hpre => ?_⟩
    exact not_sublist_swap hnodup (horder x.1 y.1 hxy _ (h.mem_records hx) _ (h.mem_records hy) hpre) hnoted

end

end Books

/-- Everything that was done could have been done in the order in which the log tells of it. -/
lemma Told.account (htold : p.Told s root t done) (hbooks : p.Books done noted)
    (hover : ∀ i, (p.errand i).isOver = true) (hspread : p.Spread s root done) (hs : t.Sound) (hp : t.Plain)
    (hw : UndoLog.Writable root t) (hsession : p.batch.session = some session)
    (hgood : ∀ r ∈ session.records, r.Straight s.host.cwd root) (horder : p.InOrder s.host.cwd session.records) :
    Account s.host.cwd root s.root t { session with mode := .move } [] p.tree := by
  have hlog := hbooks.records_eq hsession
  have hperm := hbooks.perm_records hover hsession
  have hsources : ∀ r ∈ done.map Prod.snd, r.source.place s.host.cwd ≠ UndoLog.place root :=
    List.forall_mem_map.2 htold.sources
  obtain ⟨v, htrail, hsame⟩ := htold.told.trail (fun r hr => hgood r (hperm.subset hr)) hsources (.refl root t) hs hp
  have hlogged := htrail.reorder hperm (List.forall_mem_map.2 htold.moves) fun r m _ hdone hnoted =>
    hbooks.apart hover hspread (hlog ▸ horder) hdone (hlog ▸ hnoted)
  refine ⟨htold.sound, htold.plain, htold.kept session hsession,
    (hlogged.tell hgood hw.not_isDirAt).append (.nothing hsame), fun r hr => ?_, by simp⟩
  rw [List.append_nil] at hr
  exact hsources r (hperm.symm.subset hr)

section

variable {mode : TransferKind} {store : TagStore} (hs : t.Sound) (hp : t.Plain) (hw : UndoLog.Writable root t)
  (hcarry : ∀ r ∈ rules, ∀ a ∈ r.actions, a.carries = true) (hfiles : ∀ i, Placed s root t (files i))
  (hapart : ∀ i k, i ≠ k → (files i).path.place s.host.cwd ≠ (files k).path.place s.host.cwd)

include hs hp hw hcarry hfiles hapart

lemma Fair.opened : (Pool.opened s mode rules files t store).Fair s root t := by
  refine ⟨fun i a ha => ?_, [], [], ⟨⟨_, rfl, rfl⟩, fun i => rfl, fun i => rfl⟩, fun _ _ => ⟨?_, ?_⟩⟩
  · obtain ⟨r, hr, ha⟩ := List.mem_flatMap.1 ha
    exact hcarry r hr a ha
  · refine ⟨hs, hp, ?_, .nothing (.refl root t), by simp, by simp, by simp⟩
    rintro session ⟨⟩
    exact ⟨rfl, rfl, hw, by simp⟩
  · exact ⟨hfiles, hapart, by simp, by simp, .nil, .nil⟩

/-- Whatever the order in which the workers have taken their steps: if nothing has failed, undoing what they did
reports no error and brings back every file to where it was with its bytes, and leaves no other file, nor the log. The
log must keep the order wherever a file went to a place that another one had left, or below it. -/
theorem undo_any_schedule (hcwd : ∀ n ∈ s.host.cwd, Proper n) (hdry : s.config.dryRun = false)
    (hnow : s.host.now.Legible) (hreach : UndoLog.Reachable s.root root)
    (hend : (opened s mode rules files t store).run s files schedule = p) (hover : ∀ i, (p.errand i).isOver = true)
    (hok : ∀ i, (p.errand i).outcome.success = true) (hsession : p.batch.session = some session)
    (hsome : session.records ≠ []) (hstraight : ∀ r ∈ session.records, r.Straight s.host.cwd root)
    (hclear : UndoRecord.Unblocked s.host.cwd s.root session.records) (horder : p.InOrder s.host.cwd session.records) :
    ∃ report u store', Rollback.run s.host.toActor s.root p.tree p.batch.work.store = (.ok report, u, store') ∧
      report.errors = [] ∧ u.node? (UndoLog.place root) = none ∧
      ∀ q, q ≠ UndoLog.place root → u.bytes? q = t.bytes? q := by
  have hrun : ((opened s mode rules files t store).run s files schedule).Fair s root t :=
    (Fair.opened hs hp hw hcarry hfiles hapart).run hcwd hdry hnow hreach schedule
  rw [hend] at hrun
  obtain ⟨-, done, noted, hbooks, hfair⟩ := hrun
  have hgood : ∀ x ∈ done, x.2.Straight s.host.cwd root := fun x hx =>
    hstraight x.2 ((hbooks.perm_records hover hsession).subset (List.mem_map_of_mem hx))
  obtain ⟨htold, hspread⟩ := hfair hok hgood
  have hacc := htold.account hbooks hover hspread hs hp hw hsession hstraight horder
  obtain ⟨report, v, u, store', hundo, herrors, hback, hset⟩ := hacc.run_back hreach hw hsome hstraight hclear
    p.batch.work.store
  exact ⟨report, u, store', hundo, herrors, hset.same, fun q hq => (hset.bytes? (Ne.symm hq)).trans (hback.bytes? hq)⟩

end

def pairSetting : Setting := (Job.plainJob []).setting ⟨"/r"⟩

def pair (zip : Bool) : FileInfo := Job.found (if zip then "/r/a.zip" else "/r/a.txt")

/-- The one file is taken away, and the other one is given its name. -/
def crossing : List Rule :=
  [{ name := "away", conditions := [.extensionIs [".txt"]], actions := [.rename "b.txt", .move "docs"] },
    { name := "instead", conditions := [.extensionIs [".zip"]], actions := [.rename "a.txt"] }]

def crossed (schedule : List Bool) : Pool Bool :=
  (opened pairSetting .move crossing pair Job.twoFiles .empty).run pairSetting pair schedule

lemma placed_pair : ∀ i, Placed pairSetting ["r"] Job.twoFiles (pair i) :=
  Bool.forall_bool.2 ⟨⟨⟨by decide, by decide, by decide, by decide, by simp⟩, rfl, rfl⟩,
    ⟨⟨by decide, by decide, by decide, by decide, by simp⟩, rfl, rfl⟩⟩

lemma cwd_pair : ∀ n ∈ pairSetting.host.cwd, Proper n := fun _ hn => absurd hn List.not_mem_nil

lemma legible_pair : pairSetting.host.now.Legible :=
  show Instant.ofLenient? (Job.plainHost.now.text "Z") = some Job.plainHost.now by decide

set_option maxRecDepth 4000 in
/-- The first worker notes what it did when the second one has been there in between, but before that one does. -/
theorem undo_any_schedule_crossed :
    let p := crossed ([false, false, true, true, true] ++ .replicate 6 false ++ .replicate 4 true)
    ∃ report u store', Rollback.run Job.plainHost.toActor ⟨"/r"⟩ p.tree p.batch.work.store = (.ok report, u, store') ∧
      report.errors = [] ∧ u.node? (UndoLog.place ["r"]) = none ∧
      ∀ q, q ≠ UndoLog.place ["r"] → u.bytes? q = Job.twoFiles.bytes? q := by
  intro p
  have hend : (opened pairSetting .move crossing pair Job.twoFiles .empty).run pairSetting pair
      ([false, false, true, true, true] ++ .replicate 6 false ++ .replicate 4 true) = p := rfl
  let records := [Round.moved "/r/a.txt" "/r/b.txt", Round.moved "/r/b.txt" "/r/docs/b.txt",
    Round.moved "/r/a.zip" "/r/a.txt"]
  obtain ⟨hover, hok, hrecords, horder⟩ : (∀ i, (p.errand i).isOver = true) ∧
      (∀ i, (p.errand i).outcome.success = true) ∧ p.batch.session.map (·.records) = some records ∧
      p.InOrder [] records := by
    decide +kernel
  obtain ⟨session, hsession, hrecords⟩ := Option.map_eq_some_iff.1 hrecords
  rw [← hrecords] at horder
  obtain ⟨hsome, hstraight, hclear⟩ : session.records ≠ [] ∧ (∀ r ∈ session.records, r.Straight [] ["r"]) ∧
      UndoRecord.Unblocked [] ⟨"/r"⟩ session.records := by
    rw [hrecords]
    decide
  have hback := undo_any_schedule Job.sound_twoFiles Round.plain_twoFiles Round.writable_twoFiles (by decide) placed_pair
    (by decide) cwd_pair rfl legible_pair Round.reachable_plain hend hover hok hsession hsome
    hstraight hclear horder
  exact hback

set_option maxRecDepth 4000 in
/-- The second worker notes first that its file got the name which the other file had, and this one cannot go back. -/
theorem undo_any_schedule_fails : ¬∀ (ι : Type) [DecidableEq ι] (s : Setting) (mode : TransferKind) (root : Place)
    (t : Tree) (store : TagStore) (rules : List Rule) (files : ι → FileInfo) (schedule : List ι) (p : Pool ι)
    (session : OpenSession), t.Sound → t.Plain → UndoLog.Writable root t →
    (∀ r ∈ rules, ∀ a ∈ r.actions, a.carries = true) → (∀ i, Placed s root t (files i)) →
    (∀ i k, i ≠ k → (files i).path.place s.host.cwd ≠ (files k).path.place s.host.cwd) →
    (∀ n ∈ s.host.cwd, Proper n) → s.config.dryRun = false → s.host.now.Legible → UndoLog.Reachable s.root root →
    (opened s mode rules files t store).run s files schedule = p → (∀ i, (p.errand i).isOver = true) →
    (∀ i, (p.errand i).outcome.success = true) → p.batch.session = some session → session.records ≠ [] →
    (∀ r ∈ session.records, r.Straight s.host.cwd root) →
    UndoRecord.Unblocked s.host.cwd s.root session.records →
    ∃ report u store', Rollback.run s.host.toActor s.root p.tree p.batch.work.store = (.ok report, u, store') ∧
      report.errors = [] := by
  intro hall
  let p := crossed ([false, false] ++ .replicate 7 true ++ .replicate 6 false)
  let records := [Round.moved "/r/a.zip" "/r/a.txt", Round.moved "/r/a.txt" "/r/b.txt",
    Round.moved "/r/b.txt" "/r/docs/b.txt"]
  obtain ⟨hover, hok, hrecords, herrors⟩ : (∀ i, (p.errand i).isOver = true) ∧
      (∀ i, (p.errand i).outcome.success = true) ∧ p.batch.session.map (·.records) = some records ∧
      (Rollback.steps Job.plainHost.toActor ⟨"/r"⟩ records { tree := p.tree, store := p.batch.work.store }).report.success =
        false := by
    decide +kernel
  obtain ⟨session, hsession, hrecords⟩ := Option.map_eq_some_iff.1 hrecords
  rw [← hrecords] at herrors
  obtain ⟨hsome, hstraight, hclear⟩ : session.records ≠ [] ∧ (∀ r ∈ session.records, r.Straight [] ["r"]) ∧
      UndoRecord.Unblocked [] ⟨"/r"⟩ session.records := by
    rw [hrecords]
    decide
  obtain ⟨report, u, store', hundo, hnone⟩ := hall Bool pairSetting .move ["r"] Job.twoFiles .empty crossing pair _ p
    session Job.sound_twoFiles Round.plain_twoFiles Round.writable_twoFiles (by decide) placed_pair (by decide) cwd_pair rfl
    legible_pair Round.reachable_plain rfl hover hok hsession hsome hstraight hclear
  have hfair : p.Fair pairSetting ["r"] Job.twoFiles := (Fair.opened Job.sound_twoFiles Round.plain_twoFiles
    Round.writable_twoFiles (by decide) placed_pair (by decide)).run cwd_pair rfl legible_pair Round.reachable_plain _
  obtain ⟨-, done, noted, hbooks, hfair⟩ := hfair
  obtain ⟨htold, -⟩ := hfair hok fun x hx =>
    hstraight x.2 ((hbooks.perm_records hover hsession).subset (List.mem_map_of_mem hx))
  exact (htold.kept session hsession).run_errors Round.reachable_plain hsome htold.sound htold.plain herrors hundo hnone

end Pool

end FileOrganizer
