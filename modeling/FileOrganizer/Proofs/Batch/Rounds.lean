import FileOrganizer.Proofs.Batch.DryRun
import FileOrganizer.Proofs.Batch.Ledger

/-! A session whose batches have no failure accounts for all that they did. -/

namespace FileOrganizer

open FileOrganizer.Tree FileOrganizer.Disk

variable {s : Setting} {t : Tree} {cwd root : Place} {folder : Path} {b : Batch} {K : List Place} {mode : TransferKind}
  {fs : List FileInfo}

lemma PlannedTransfer.plan_sources (c : Categories) (fs : List FileInfo) (w : Workspace) :
    ((plan s c mode fs w).1.map (·.source)).Sublist (fs.map (·.path)) := by
  induction fs generalizing w with
  | nil => exact .slnil
  | cons f fs ih =>
    rw [plan]
    dsimp only
    have hone : (of? s c mode f w).1.toList.map (·.source) = [] ∨
        (of? s c mode f w).1.toList.map (·.source) = [f.path] := by
      unfold of?
      dsimp only
      split
      · exact Or.inl rfl
      · exact Or.inr rfl
    rw [List.map_append, List.map_cons]
    rcases hone with h | h <;> rw [h]
    · exact (ih _).cons _
    · exact (ih _).cons_cons _

namespace Batch

/-- Nothing is planned but for files that no rule has taken. -/
lemma planRest_sources (c : Categories) (fs : List FileInfo) (os : List Outcome) (w : Workspace) :
    ((planRest s c mode fs os w).1.map (·.source)).Sublist ((untaken fs os).map (·.path)) := by
  unfold planRest
  dsimp only
  split
  · exact PlannedTransfer.plan_sources c _ w
  · exact List.nil_sublist _

lemma transfer_ok {host : Host} {m : PlannedTransfer} {t' : Tree}
    (h : transferWork host mode m b.work.tree = (.ok (), t')) :
    ∃ b' : Batch, b'.work.tree = t' ∧ b'.session = b.session ∧
      transfer host mode m b = (none, b'.note host ⟨m.source, m.target, mode, host.now⟩) := by
  unfold transfer
  rw [Workspace.disk_eq, h]
  dsimp only
  refine ⟨_, ?_, ?_, rfl⟩
  · cases mode <;> rfl
  · rfl

section

variable {host : Host} (hreach : UndoLog.Reachable folder root) (hnow : host.now.Legible)

include hreach hnow

lemma Fair.transfer {m : PlannedTransfer} (hup : Part.up ∉ m.source.parts)
    (hlog : UndoLog.place root ∉ m.source.place host.cwd :: K) (hapart : m.source.place host.cwd ∉ K)
    (h : b.Fair host.cwd root folder t (m.source.place host.cwd :: K) [])
    (hok : (Batch.transfer host mode m b).1 = none) : (Batch.transfer host mode m b).2.Fair host.cwd root folder t K [] := by
  rcases hwork : transferWork host mode m b.work.tree with ⟨e | _, t'⟩
  · unfold Batch.transfer at hok
    rw [Workspace.disk_eq, hwork] at hok
    cases hok
  · obtain ⟨b', htree, hsession', htransfer⟩ := transfer_ok hwork
    obtain ⟨session, hsession, hfair⟩ := h
    rw [htransfer]
    refine Fair.note hreach hnow (fun hin => hlog (List.mem_cons_of_mem _ hin))
      ⟨session, hsession'.trans hsession, fun hgood => ?_⟩
    have hm := hgood _ (List.mem_append_right _ (List.mem_singleton_self _))
    obtain ⟨hacc, hfiles⟩ := hfair (by simpa using fun r hr => hgood r (List.mem_append_left _ hr))
    obtain ⟨c, hc⟩ := Option.ne_none_iff_exists'.1 (hfiles _ List.mem_cons_self)
    obtain ⟨a, hnode⟩ := bytes?_eq_some.1 hc
    have hdid : UndoRecord.Did host.cwd ⟨m.source, m.target, mode, host.now⟩ b.work.tree b'.work.tree := by
      rw [htree]
      cases mode with
      | move => exact moveFile_did hacc.sound hacc.plain hnode (hm.absolute rfl) hup hm.level hwork host.now
      | copy => exact copyFile_did hacc.sound hacc.plain hm.level hwork host.now
    refine ⟨hacc.did hdid hm (fun heq => hlog (heq ▸ List.mem_cons_self)) hnow, fun q hq => ?_⟩
    rw [hdid.bytes? (fun _ heq => hapart (heq ▸ hq)) (hfiles q (List.mem_cons_of_mem _ hq))]
    exact hfiles q (List.mem_cons_of_mem _ hq)

lemma Fair.transferAll {ms : List PlannedTransfer} (hup : ∀ m ∈ ms, Part.up ∉ m.source.parts)
    (hlog : UndoLog.place root ∉ ms.map (·.source.place host.cwd)) (hapart : (ms.map (·.source.place host.cwd)).Nodup)
    (h : b.Fair host.cwd root folder t (ms.map (·.source.place host.cwd)) [])
    (hok : ∀ x ∈ (Batch.transferAll host mode ms b).1, x.2 = none) :
    (Batch.transferAll host mode ms b).2.Fair host.cwd root folder t [] [] := by
  induction ms generalizing b with
  | nil => exact h
  | cons m ms ih =>
    rw [Batch.transferAll] at hok ⊢
    dsimp only at hok ⊢
    rw [List.map_cons] at hlog hapart h
    obtain ⟨hnot, hrest⟩ := List.nodup_cons.1 hapart
    exact ih (fun n hn => hup n (List.mem_cons_of_mem m hn)) (fun hin => hlog (List.mem_cons_of_mem _ hin)) hrest
      (h.transfer hreach hnow (hup m List.mem_cons_self) hlog hnot (hok _ List.mem_cons_self))
      fun x hx => hok x (List.mem_cons_of_mem _ hx)

end

lemma transferAll_moves (host : Host) (ms : List PlannedTransfer) (b : Batch) :
    (Batch.transferAll host mode ms b).1.map (·.1) = ms := by
  induction ms generalizing b with
  | nil => rfl
  | cons m ms ih =>
    rw [Batch.transferAll, List.map_cons, ih]

lemma runRules_length (rules : List Rule) (fs : List FileInfo) (b : Batch) :
    (Batch.runRules s rules fs b).1.length = fs.length := by
  induction fs generalizing b with
  | nil => rfl
  | cons f fs ih =>
    rw [Batch.runRules, List.length_cons, List.length_cons, ih]

lemma mem_runRules {rules : List Rule} {fs : List FileInfo} {b : Batch} {o : Outcome}
    (ho : o ∈ (Batch.runRules s rules fs b).1) : ∃ f w, o = (Rule.runAll s rules f w).1 := by
  induction fs generalizing b with
  | nil => cases ho
  | cons f fs ih =>
    rw [Batch.runRules] at ho
    rcases List.mem_cons.1 ho with rfl | ho
    · exact ⟨f, b.work, rfl⟩
    · exact ih ho

/-- A file that no rule has taken is as it was given. -/
lemma runRules_untaken {rules : List Rule} {fs : List FileInfo} {b : Batch} {o : Outcome}
    (ho : o ∈ (Batch.runRules s rules fs b).1) (hno : o.handled = false) : ∃ f, o = { origin := f.path, file := f } := by
  obtain ⟨f, w, rfl⟩ := mem_runRules ho
  exact ⟨f, by rw [Rule.runAll, Outcome.runRules_unhandled hno]⟩

/-- Every file is reported with what became of it. -/
lemma mem_reports {l : List (FileInfo × Outcome)} (plan : List (PlannedTransfer × Option String))
    {x : FileInfo × Outcome} (hx : x ∈ l) : ∃ r ∈ reports l plan, r.outcome = x.2 := by
  induction l generalizing plan with
  | nil => cases hx
  | cons y l ih =>
    rw [reports]
    split
    · rcases List.mem_cons.1 hx with rfl | hx
      · exact ⟨_, List.mem_cons_self, rfl⟩
      · obtain ⟨r, hr, heq⟩ := ih _ hx
        exact ⟨r, List.mem_cons_of_mem _ hr, heq⟩
    · rcases List.mem_cons.1 hx with rfl | hx
      · exact ⟨_, List.mem_cons_self, rfl⟩
      · obtain ⟨r, hr, heq⟩ := ih _ hx
        exact ⟨r, List.mem_cons_of_mem _ hr, heq⟩

/-- Every planned transfer is reported for its file, if no two files are at one place. -/
lemma mem_reports_plan {l : List (FileInfo × Outcome)} {plan : List (PlannedTransfer × Option String)}
    (hl : (l.map (·.1.path.place cwd)).Nodup) (hplan : (plan.map (·.1.source.place cwd)).Nodup)
    {x : PlannedTransfer × Option String} {y : FileInfo × Outcome} (hx : x ∈ plan) (hy : y ∈ l)
    (hsource : x.1.source = y.1.path) : ⟨y.1, y.2, some x.1, x.2⟩ ∈ reports l plan := by
  induction l generalizing plan with
  | nil => cases hy
  | cons z l ih =>
    obtain ⟨hz, hl'⟩ := List.nodup_cons.1 hl
    rw [reports]
    rcases List.mem_cons.1 hy with rfl | hy
    · split
      · next hnone =>
        have hno := List.find?_eq_none.1 hnone x (List.mem_reverse.2 hx)
        simp [hsource, Path.same] at hno
      · next m e hfind =>
        have hin := List.mem_reverse.1 (List.mem_of_find?_eq_some hfind)
        have hfound : m.source.same y.1.path = true := by simpa using List.find?_some hfind
        have hplace : m.source.place cwd = y.1.path.place cwd := Path.place_of_same hfound
        obtain rfl : (m, e) = x := List.inj_on_of_nodup_map hplan hin hx (hplace.trans (by rw [hsource]))
        exact List.mem_cons_self
    · split
      · exact List.mem_cons_of_mem _ (ih hl' hplan hx hy)
      · refine List.mem_cons_of_mem _ (ih hl' (hplan.sublist (List.filter_sublist.map _)) ?_ hy)
        refine List.mem_filter.2 ⟨hx, ?_⟩
        by_contra hno
        have hplace : x.1.source.place cwd = z.1.path.place cwd := Path.place_of_same (by simpa using hno)
        exact hz (List.mem_map.2 ⟨y, hy, (congrArg (Path.place cwd) hsource).symm.trans hplace⟩)

section

variable {l : List (FileInfo × Outcome)} {plan : List (PlannedTransfer × Option String)} {dryRun : Bool}
  {x : PlannedTransfer × Option String} {y : FileInfo × Outcome} (hok : ∀ r ∈ reports l plan, r.status dryRun ≠ .failed)

include hok

lemma success_of_reports (hy : y ∈ l) (hhandled : y.2.handled = true) : y.2.success = true := by
  obtain ⟨r, hr, heq⟩ := mem_reports plan hy
  have hstatus := hok r hr
  rw [Report.status, heq, if_pos hhandled, Outcome.status] at hstatus
  by_contra hno
  simp [hno] at hstatus

lemma done_of_reports (hl : (l.map (·.1.path.place cwd)).Nodup) (hplan : (plan.map (·.1.source.place cwd)).Nodup)
    (hx : x ∈ plan) (hy : y ∈ l) (hno : y.2.handled = false) (hsource : x.1.source = y.1.path) : x.2 = none := by
  have hreport := hok _ (mem_reports_plan hl hplan hx hy hsource)
  rw [Report.status] at hreport
  dsimp only at hreport
  rw [if_neg (by simp [hno])] at hreport
  cases hx2 : x.2 with
  | none => rfl
  | some e =>
    rw [hx2] at hreport
    exact absurd rfl hreport

end

lemma untaken_sublist {fs : List FileInfo} {os : List Outcome} (hlen : os.length = fs.length) :
    (untaken fs os).Sublist fs := by
  have hsome : (untaken fs os).Sublist ((fs.zip os).map (·.1)) := List.filter_sublist.map _
  rwa [List.map_fst_zip hlen.ge] at hsome

section

variable {profile : Profile} {files : List FileInfo} (hcwd : ∀ n ∈ s.host.cwd, Proper n)
  (hdry : s.config.dryRun = false) (hroot : s.root.isAbsolute = true) (hreach : UndoLog.Reachable folder root)
  (hnow : s.host.now.Legible) (hnoted : ∀ r ∈ profile.rules, ∀ a ∈ r.actions, a.isNoted = true)
  (hup : ∀ f ∈ files, Part.up ∉ f.path.parts) (hlog : UndoLog.place root ∉ places s.host.cwd files)
  (hapart : (places s.host.cwd files).Nodup)

include hcwd hdry hroot hreach hnow hnoted hup hlog hapart

/-- A batch without a failure accounts for all that it did. -/
lemma Fair.run (h : b.Fair s.host.cwd root folder t (places s.host.cwd files) [])
    (hok : ∀ r ∈ (b.run s profile mode files).1, r.status s.config.dryRun ≠ .failed) :
    (b.run s profile mode files).2.Fair s.host.cwd root folder t [] [] := by
  have hsub : (files.filter fun f => !(s.config.skipHidden && f.hidden)).Sublist files := List.filter_sublist
  unfold Batch.run at hok ⊢
  dsimp only at hok ⊢
  generalize files.filter (fun f => !(s.config.skipHidden && f.hidden)) = visible at hsub hok ⊢
  have hplaces : (places s.host.cwd visible).Sublist (places s.host.cwd files) := hsub.map _
  have hlen := runRules_length (s := s) profile.rules visible b
  have huntaken : ∀ o ∈ (Batch.runRules s profile.rules visible b).1, o.handled = false → o.success = true := by
    intro o ho hno
    obtain ⟨f, rfl⟩ := runRules_untaken ho hno
    rfl
  have hvisible : b.Fair s.host.cwd root folder t ([] ++ places s.host.cwd visible) [] :=
    h.subset fun q hq => hplaces.subset hq
  have hrules := hvisible.runRules hcwd hdry hroot hreach hnow hnoted (fun hin => hlog (hplaces.subset hin))
    (hapart.sublist hplaces) (fun f hf => hup f (hsub.subset hf))
  generalize Batch.runRules s profile.rules visible b = x at hlen huntaken hrules hok ⊢
  obtain ⟨os, b'⟩ := x
  dsimp only at hlen huntaken hrules hok ⊢
  have htree : (planRest s profile.categories mode visible os b'.work).2.tree = b'.work.tree := planRest_tree _ _ _ _
  have hsources : ((planRest s profile.categories mode visible os b'.work).1.map (·.source)).Sublist
      ((untaken visible os).map (·.path)) := planRest_sources _ _ _ _
  generalize planRest s profile.categories mode visible os b'.work = y at htree hsources hok ⊢
  obtain ⟨moves, w⟩ := y
  dsimp only at htree hsources hok ⊢
  rw [runPlan, if_neg (by simp [hdry])] at hok ⊢
  have hos : ∀ o ∈ os, o.success = true := by
    intro o ho
    cases hhandled : o.handled with
    | false => exact huntaken o ho hhandled
    | true =>
      have hzip : o ∈ (visible.zip os).map (·.2) := by rwa [List.map_snd_zip hlen.le]
      obtain ⟨z, hz, rfl⟩ := List.mem_map.1 hzip
      exact success_of_reports hok hz hhandled
  have hrest := (hrules hos).told { b' with work := w } htree rfl
  have hleft := untaken_sublist hlen
  have hmoves : (moves.map (·.source.place s.host.cwd)).Sublist (places s.host.cwd (untaken visible os)) := by
    have hmap := hsources.map (Path.place s.host.cwd)
    rwa [List.map_map, List.map_map] at hmap
  have hall := hmoves.trans ((hleft.map _).trans hplaces)
  refine Fair.transferAll hreach hnow (fun m hm => ?_) (fun hin => hlog (hall.subset hin)) (hapart.sublist hall)
    (hrest.subset fun q hq => hmoves.subset hq) fun x hx => ?_
  · obtain ⟨f, hf, heq⟩ := List.mem_map.1 (hsources.subset (List.mem_map_of_mem hm))
    exact heq ▸ hup f (hsub.subset (hleft.subset hf))
  · have hresults : (Batch.transferAll s.host mode moves { b' with work := w }).1.map (·.1) = moves :=
      transferAll_moves _ _ _
    generalize (Batch.transferAll s.host mode moves { b' with work := w }).1 = results at hx hresults hok
    have hm : x.1 ∈ moves := hresults ▸ List.mem_map_of_mem hx
    obtain ⟨f, hf, heq⟩ := List.mem_map.1 (hsources.subset (List.mem_map_of_mem hm))
    obtain ⟨z, hz, rfl⟩ := List.mem_map.1 hf
    obtain ⟨hz, hno⟩ := List.mem_filter.1 hz
    have hone := hapart.sublist hplaces
    rw [places, ← List.map_fst_zip hlen.ge, List.map_map] at hone
    have hapart' := hapart.sublist hall
    rw [← hresults, List.map_map] at hapart'
    exact done_of_reports hok hone hapart' hx hz (by simpa using hno) heq.symm

end

end Batch

/-- A job on this machine that has all that it moves or makes taken down: it neither deletes nor runs programs, and does
not unpack either, since of what comes out of an archive the directories are not taken down. -/
structure Job.IsNoted (cwd : Place) (j : Job) : Prop where
  here : j.host.cwd = cwd
  now : j.host.now.Legible
  actions : ∀ r ∈ j.profile.rules, ∀ a ∈ r.actions, a.isNoted = true

/-- The files of a batch are in the tree, each at a place of its own, and the log is none of them. -/
structure Round.Fits (cwd root : Place) (t : Tree) (r : Round) : Prop where
  level : ∀ f ∈ r.files, Part.up ∉ f.path.parts
  there : ∀ q ∈ Batch.places cwd r.files, t.bytes? q ≠ none
  ne_log : UndoLog.place root ∉ Batch.places cwd r.files
  apart : (Batch.places cwd r.files).Nodup

instance {cwd root : Place} {t : Tree} {r : Round} : Decidable (r.Fits cwd root t) :=
  decidable_of_iff ((∀ f ∈ r.files, Part.up ∉ f.path.parts) ∧ (∀ q ∈ Batch.places cwd r.files, t.bytes? q ≠ none) ∧
    UndoLog.place root ∉ Batch.places cwd r.files ∧ (Batch.places cwd r.files).Nodup)
    ⟨fun ⟨h₁, h₂, h₃, h₄⟩ => ⟨h₁, h₂, h₃, h₄⟩, fun ⟨h₁, h₂, h₃, h₄⟩ => ⟨h₁, h₂, h₃, h₄⟩⟩

/-- Each batch finds its files when its turn comes. -/
def Round.AllFit (cwd root : Place) : List Round → Standing → Prop
  | [], _ => True
  | r :: rounds, p => r.Fits cwd root p.tree ∧ AllFit cwd root rounds (r.run p)

instance Round.decidableAllFit {cwd root : Place} : ∀ rounds p, Decidable (Round.AllFit cwd root rounds p)
  | [], _ => inferInstanceAs (Decidable True)
  | r :: rounds, p =>
    have : Decidable (AllFit cwd root rounds (r.run p)) := decidableAllFit rounds (r.run p)
    inferInstanceAs (Decidable (r.Fits cwd root p.tree ∧ AllFit cwd root rounds (r.run p)))

/-- The session accounts for all that was done. -/
def Standing.Fair (cwd root : Place) (folder : Path) (t : Tree) (p : Standing) : Prop :=
  (∀ m ∈ p.session.records, m.Straight cwd root) → Account cwd root folder t p.session [] p.tree

namespace Round

variable {r : Round} {p : Standing} (hcwd : ∀ n ∈ cwd, Proper n) (hreach : UndoLog.Reachable folder root)

include hcwd hreach

/-- A batch that does not fail leaves nothing out of the account. -/
lemma run_fair (hnoted : r.job.IsNoted cwd) (hfits : r.Fits cwd root p.tree)
    (hok : ∀ e ∈ (r.run p).entries, e.status ≠ .failed) (h : p.Fair cwd root folder t) :
    (r.run p).Fair cwd root folder t := by
  obtain ⟨rfl, hnow, hactions⟩ := hnoted
  cases hdry : r.job.config.dryRun with
  | true =>
    obtain ⟨htree, -, hsession⟩ := run_dry hdry p
    unfold Standing.Fair
    rw [htree, hsession]
    exact h
  | false =>
    unfold run Job.applyIn Job.run at hok ⊢
    rcases hvalid : r.job.profile.validate with e | _
    · exact h
    rcases hroot : r.job.absoluteRoot r.root with e | full
    · exact h
    rw [hvalid, hroot] at hok
    dsimp only at hok ⊢
    have habs : full.isAbsolute = true := by
      unfold Job.absoluteRoot at hroot
      split at hroot
      · cases hroot
      · next q hq =>
        cases hroot
        exact Path.isAbsolute_of_absolute? hcwd hq
    have hstart : (Job.start p.tree p.store (some p.session)).Fair r.job.host.cwd root folder t
        (Batch.places r.job.host.cwd r.files) [] :=
      ⟨p.session, rfl, fun hgood => ⟨h (by simpa using hgood), hfits.there⟩⟩
    obtain ⟨session, hsession, hfair⟩ := hstart.run (s := r.job.setting full) hcwd hdry habs hreach hnow hactions
      hfits.level hfits.ne_log hfits.apart fun report hreport =>
        hok (r.job.resultOf report) (List.mem_append_right _ (List.mem_map_of_mem hreport))
    generalize Batch.run (r.job.setting full) r.job.profile r.job.mode r.files
      (Job.start p.tree p.store (some p.session)) = x at hsession hfair ⊢
    intro hgood
    have hnext : x.2.session.getD p.session = session := by rw [hsession]; rfl
    change ∀ m ∈ (x.2.session.getD p.session).records, _ at hgood
    change Account _ _ _ _ (x.2.session.getD p.session) [] x.2.work.tree
    rw [hnext] at hgood ⊢
    exact (hfair fun m hm => hgood m (by simpa using hm)).1

omit hcwd hreach in
lemma allFit_concat (rounds : List Round) (p : Standing) : AllFit cwd root (rounds ++ [r]) p ↔
    AllFit cwd root rounds p ∧ r.Fits cwd root (runAll rounds p).tree := by
  induction rounds generalizing p with
  | nil => simp [AllFit, runAll_nil]
  | cons x rounds ih => simp [AllFit, ih, runAll_cons, and_assoc]

/-- Nor does a series of batches, as long as each finds its files when its turn comes. -/
theorem runAll_fair (rounds : List Round) (hnoted : ∀ r ∈ rounds, r.job.IsNoted cwd)
    (hfits : AllFit cwd root rounds p) (hok : ∀ e ∈ (runAll rounds p).entries, e.status ≠ .failed)
    (h : p.Fair cwd root folder t) : (runAll rounds p).Fair cwd root folder t := by
  induction rounds using List.reverseRecOn with
  | nil => exact h
  | append_singleton rounds r ih =>
    obtain ⟨hbefore, hlast⟩ := (allFit_concat rounds p).1 hfits
    rw [runAll_append] at hok ⊢
    change ∀ e ∈ (run (runAll rounds p) r).entries, _ at hok
    have hentries : ∀ e ∈ (runAll rounds p).entries, e ∈ (run (runAll rounds p) r).entries := by
      intro e he
      unfold run
      split
      · exact he
      · exact List.mem_append_left _ he
    exact run_fair hcwd hreach (hnoted r (by simp)) hlast hok
      (ih (fun r' hr' => hnoted r' (by simp [hr'])) hbefore fun e he => hok e (hentries e he))

end Round

end FileOrganizer
