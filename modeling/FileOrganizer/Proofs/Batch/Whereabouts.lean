import FileOrganizer.Proofs.Batch.Placement

/-! The report of a batch tells where every file is: at the target that it names there are the bytes that the file
had, and if it names none the file is where it was. In a trial run everything is where it was. -/

namespace FileOrganizer

open FileOrganizer.Tree FileOrganizer.Disk

variable {s : Setting} {mode : TransferKind} {t t' : Tree} {cwd log : Place} {c : ByteArray} {K : Set Place}
  {folder : Path} {b : Batch} {f : FileInfo} {w : Workspace} {o : Outcome}

namespace Outcome

/-- All that was done was to say what would be done, or to leave the file alone. -/
structure Tried (o : Outcome) : Prop where
  steps : ∀ x ∈ o.steps, x.effect.status = .wouldApply ∨ x.effect.Barren
  stays : (∀ x ∈ o.steps, x.effect.status ≠ .wouldApply) → o.file.path = o.origin

lemma Tried.runAction (hdry : s.config.dryRun = true) (rule : String) (a : Action) (h : o.Tried) :
    (o.runAction s rule a w).1.Tried := by
  have hfile : refresh s w o.file = o.file := by rw [refresh, if_pos hdry]
  have htries := Action.run_tries (f := o.file) (w := w) hdry a
  unfold Outcome.runAction
  rw [hfile]
  dsimp only
  have hsteps : ∀ x ∈ o.steps ++ [⟨rule, a, (a.run s o.file w).1⟩],
      Effect.status (Step.effect x) = .wouldApply ∨ (Step.effect x).Barren := by
    intro x hx
    rcases List.mem_append.1 hx with hx | hx
    · exact h.steps x hx
    · rwa [List.mem_singleton.1 hx]
  split
  · exact ⟨hsteps, fun hnone => h.stays fun x hx => hnone x (List.mem_append_left _ hx)⟩
  · next q hnew =>
    refine ⟨hsteps, fun hnone => ?_⟩
    have hbarren := htries.resolve_left (hnone _ (List.mem_append_right _ (List.mem_singleton_self _)))
    rw [hbarren.idle.2] at hnew
    cases hnew

lemma runRules_tried (hdry : s.config.dryRun = true) (rules : List Rule) (h : o.Tried) :
    (runRules s rules o w).1.Tried :=
  runRules_keeps (I := fun o _ => o.Tried) h (fun _ _ _ _ h => ⟨h.steps, h.stays⟩)
    fun r _ a _ _ _ _ h => h.runAction hdry r.name a

lemma Tried.target? (h : o.Tried) (hfail : o.status ≠ .failed) (hwould : o.status ≠ .wouldApply) : o.target? = none := by
  have hnone : ∀ x ∈ o.steps, x.effect.status ≠ .wouldApply := by
    intro x hx heq
    unfold Outcome.status at hfail hwould
    split at hfail
    · exact hfail rfl
    · next hsuccess =>
      rw [if_neg hsuccess] at hwould
      cases hfind : o.steps.find? fun t => t.effect.status.counts with
      | none => simpa [heq, Status.counts] using List.find?_eq_none.1 hfind x hx
      | some y =>
        rw [hfind] at hwould
        rcases h.steps y (List.mem_of_find?_eq_some hfind) with hy | hy
        · exact hwould hy
        · simpa [hy.status] using List.find?_some hfind
  have hcopy : o.copy? = none := by
    unfold copy?
    rw [List.getLast?_eq_none_iff, List.filterMap_eq_nil_iff]
    intro x hx
    split
    · exact ((h.steps x hx).resolve_left (hnone x hx)).output
    · rfl
  unfold Outcome.target?
  rw [hcopy, h.stays hnone]
  simp [Path.same]

/-- A file that has not been deleted is at the target of its outcome, and without a target it is where it was. -/
lemma Found.target {Y : Set Place} (hs : t.Sound) (hp : t.Plain) (hs' : t'.Sound) (hp' : t'.Plain)
    (hdirs : ∀ q, t.isDirAt q = true → t'.isDirAt q = true) (hread : t.read cwd o.origin = .ok c)
    (hkept : o.deleted = false) (h : o.Found cwd Y c t') : t'.read cwd (o.target?.getD o.origin) = .ok c := by
  have hfile := (h _ (Or.inl rfl)).1
  unfold Outcome.target?
  rw [hkept, if_neg (by simp)]
  split
  · next hsame =>
    cases hcopy : o.copy? with
    | some p => exact (h p (Or.inr hcopy)).1
    | none =>
      have hbytes := bytes?_of_read hs' hp' hfile
      rw [Path.place_of_same hsame] at hbytes
      exact read_steady hs hp hs' hp' hdirs (hbytes.trans (bytes?_of_read hs hp hread).symm) hread
  · exact hfile

end Outcome

namespace Batch

section

variable {l : List (FileInfo × Outcome)} {plan : List (PlannedTransfer × Option String)} {r : Report}

lemma reports_files (l : List (FileInfo × Outcome)) (plan : List (PlannedTransfer × Option String)) :
    (reports l plan).map (fun r => (r.file, r.outcome)) = l := by
  induction l generalizing plan with
  | nil => rfl
  | cons x l ih =>
    rw [reports]
    split <;> rw [List.map_cons, ih]

lemma reports_cases (hl : (l.map (·.1.path.place cwd)).Nodup) (hr : r ∈ reports l plan) :
    (r.planned = none ∧ ∀ x ∈ plan, x.1.source ≠ r.file.path) ∨
      ∃ m, r.planned = some m ∧ (m, r.fault) ∈ plan ∧ m.source.place cwd = r.file.path.place cwd := by
  induction l generalizing plan with
  | nil => cases hr
  | cons y l ih =>
    obtain ⟨hy, hl'⟩ := List.nodup_cons.1 hl
    rw [reports] at hr
    split at hr
    · next hnone =>
      rcases List.mem_cons.1 hr with rfl | hr
      · refine Or.inl ⟨rfl, fun x hx heq => ?_⟩
        have hno := List.find?_eq_none.1 hnone x (List.mem_reverse.2 hx)
        simp [heq, Path.same] at hno
      · exact ih hl' hr
    · next m e hfind =>
      have hin := List.mem_reverse.1 (List.mem_of_find?_eq_some hfind)
      have hfound : m.source.same y.1.path = true := by simpa using List.find?_some hfind
      rcases List.mem_cons.1 hr with rfl | hr
      · exact Or.inr ⟨m, rfl, hin, Path.place_of_same hfound⟩
      · have hfile : (r.file, r.outcome) ∈ l := by
          rw [← reports_files l (plan.filter fun m => !m.1.source.same y.1.path)]
          exact List.mem_map_of_mem hr
        refine (ih hl' hr).imp ?_ ?_
        · rintro ⟨hnone, hrest⟩
          refine ⟨hnone, fun x hx heq => ?_⟩
          by_cases hsame : x.1.source.same y.1.path = true
          · exact hy (List.mem_map.2 ⟨_, hfile, by rw [← heq, Path.place_of_same hsame]⟩)
          · exact hrest x (List.mem_filter.2 ⟨hx, by simpa using hsame⟩) heq
        · rintro ⟨m, hm, hplan, hplace⟩
          exact ⟨m, hm, (List.mem_filter.1 hplan).1, hplace⟩

end

section

variable {visible : List FileInfo} {os : List Outcome} {moves : List PlannedTransfer}
  {results : List (PlannedTransfer × Option String)} {r : Report}

/-- Of the files of a batch, those are planned for that no rule has taken, and each report tells of its own file. -/
lemma run_reports (hapart : (places cwd visible).Nodup) (hlen : os.length = visible.length)
    (hsources : (moves.map (·.source)).Sublist ((untaken visible os).map (·.path))) (hresults : results.map (·.1) = moves)
    (hr : r ∈ reports (visible.zip os) results) :
    (r.file, r.outcome) ∈ visible.zip os ∧
      ((r.planned = none ∧ ∀ m ∈ moves, m.source.place cwd ≠ r.file.path.place cwd) ∨
        ∃ m ∈ moves, r.planned = some m ∧ (m, r.fault) ∈ results ∧ m.source = r.file.path ∧
          r.outcome.handled = false) := by
  have hl : ((visible.zip os).map (·.1.path.place cwd)).Nodup := by
    rwa [places, ← List.map_fst_zip hlen.ge, List.map_map] at hapart
  have hmem : (r.file, r.outcome) ∈ visible.zip os := by
    rw [← reports_files (visible.zip os) results]
    exact List.mem_map_of_mem hr
  have howner : ∀ m ∈ moves, m.source.place cwd = r.file.path.place cwd →
      m.source = r.file.path ∧ r.outcome.handled = false := by
    intro m hm hplace
    obtain ⟨g, hg, heq⟩ := List.mem_map.1 (hsources.subset (List.mem_map_of_mem hm))
    obtain ⟨z, hz, rfl⟩ := List.mem_map.1 hg
    obtain ⟨hz, hno⟩ := List.mem_filter.1 hz
    obtain rfl : z = (r.file, r.outcome) := List.inj_on_of_nodup_map hl hz hmem (by
      dsimp only
      rw [heq, hplace])
    exact ⟨heq.symm, by simpa using hno⟩
  refine ⟨hmem, (reports_cases hl hr).imp ?_ ?_⟩
  · rintro ⟨hnone, hno⟩
    refine ⟨hnone, fun m hm hplace => ?_⟩
    obtain ⟨x, hx, rfl⟩ := List.mem_map.1 (hresults ▸ hm)
    exact hno x hx (howner _ hm hplace).1
  · rintro ⟨m, hplanned, hresult, hplace⟩
    have hm : m ∈ moves := hresults ▸ List.mem_map_of_mem hresult
    exact ⟨m, hm, hplanned, hresult, (howner m hm hplace).1, (howner m hm hplace).2⟩

end

section

variable {visible : List FileInfo} {os : List Outcome} {moves : List PlannedTransfer} {r : Report} {b₁ : Batch}
  (hs : t.Sound) (hp : t.Plain) (hlog : (UndoLog.file folder).place s.host.cwd = log) (hin : b₁.IsIn folder)
  (hgiven : Given s.host.cwd log t visible) (hlen : os.length = visible.length)
  (hsteady : t.Steady (insert log (takenPlaces s.host.cwd visible os)) b₁.work.tree)
  (hplaced : ∀ x ∈ visible.zip os,
    Placed s.host.cwd log {q | q ∈ places s.host.cwd (untaken visible os)} t b₁.work.tree x)
  (hsources : (moves.map (·.source)).Sublist ((untaken visible os).map (·.path)))
  (hst : ∀ st ∈ transferStages s mode moves b₁, st.Orderly s mode log)

include hs hp hlog hin hgiven hlen hsteady hplaced hsources hst

/-- Once the plan has been carried out, each report that does not tell of a failure tells where its file is. -/
lemma transferAll_tells (hr : r ∈ reports (visible.zip os) (transferAll s.host mode moves b₁).1)
    (hok : r.status false ≠ .failed) (hread : t.read s.host.cwd r.file.path = .ok c) :
    (transferAll s.host mode moves b₁).2.work.tree.read s.host.cwd (r.target?.getD r.file.path) = .ok c := by
  have hrest := hgiven.untaken hs hp hlen hsteady
  obtain ⟨hsourced, hmoves⟩ := hrest.sources hsources
  obtain ⟨hsteady', hcarried⟩ := transferAll_placed hsteady.sound hsteady.plain hlog hin hsourced hst
  obtain ⟨hmem, hplan⟩ := run_reports hgiven.apart hlen hsources (transferAll_moves s.host moves b₁) hr
  have hx := hplaced _ hmem
  have hseen : r.file.path.place s.host.cwd ∈ places s.host.cwd visible := List.mem_map_of_mem (List.of_mem_zip hmem).1
  have hne_log : r.file.path.place s.host.cwd ≠ log := fun heq => hgiven.ne_log (heq ▸ hseen)
  have hstill : r.outcome.handled = false → b₁.work.tree.read s.host.cwd r.file.path = .ok c := by
    intro hno
    refine hsteady.read hs hp ?_ hread
    rintro (heq | htaken)
    · exact hne_log heq
    · exact notMem_takenPlaces hgiven.apart hlen hmem hno htaken
  rcases hplan with ⟨hnone, hother⟩ | ⟨m, hm, hplanned, hresult, hsource, hno⟩
  · have htarget : r.target? = r.outcome.target? := by rw [Report.target?, hnone]
    rw [htarget]
    cases hhandled : r.outcome.handled with
    | true =>
      -- What comes later only touches files that no rule has taken.
      have hfound := (hx.taken hhandled c hread).steady hsteady.sound hsteady.plain hsteady'
        (Set.insert_subset_insert fun q hq => hmoves.subset hq)
      rw [← show r.outcome.origin = r.file.path from hx.origin] at hread ⊢
      exact hfound.target hs hp hsteady'.sound hsteady'.plain (fun q hq => hsteady'.dirs q (hsteady.dirs q hq)) hread
        hx.kept
    | false =>
      rw [show r.outcome = _ from hx.untaken hhandled]
      have hkept := hsteady'.read hsteady.sound hsteady.plain (by simpa [hne_log] using hother) (hstill hhandled)
      simpa [Outcome.target?, Outcome.deleted, Outcome.copy?, Path.same] using hkept
  · have hdone : r.fault = none := by
      cases hfault : r.fault with
      | none => rfl
      | some e => simp [Report.status, hno, hplanned, hfault] at hok
    have htarget : r.target? = some m.target := by rw [Report.target?, hplanned]
    rw [hdone] at hresult
    rw [htarget]
    refine hcarried (m, none) hresult rfl c ?_
    rw [show (m, (none : Option String)).1.source = r.file.path from hsource]
    exact hstill hno

end

section

variable {profile : Profile} {files : List FileInfo} {r : Report}

lemma run_files (profile : Profile) (files : List FileInfo) (b : Batch) :
    (b.run s profile mode files).1.map (·.file) = files.filter fun f => !(s.config.skipHidden && f.hidden) := by
  unfold run
  dsimp only
  rw [show (fun r : Report => r.file) = Prod.fst ∘ fun r : Report => (r.file, r.outcome) from rfl, ← List.map_map,
    reports_files, List.map_fst_zip]
  exact (runRules_length _ _ _).ge

section

variable (hcwd : ∀ n ∈ s.host.cwd, Proper n) (hdry : s.config.dryRun = false)
  (hdel : ∀ r ∈ profile.rules, .delete ∉ r.actions)
  (hlaunch : ∀ r ∈ profile.rules, ∀ p as n, .runCommand p as n ∉ r.actions) (hs : b.work.tree.Sound)
  (hp : b.work.tree.Plain) (hlog : (UndoLog.file folder).place s.host.cwd = log) (hin : b.IsIn folder)
  (hgiven : Given s.host.cwd log b.work.tree files)
  (hst : ∀ st ∈ stages s mode profile files b, st.Orderly s mode log)

include hcwd hdry hdel hlaunch hs hp hlog hin hgiven hst

lemma run_tells (hr : r ∈ (b.run s profile mode files).1) (hok : r.status false ≠ .failed)
    (hread : b.work.tree.read s.host.cwd r.file.path = .ok c) :
    (b.run s profile mode files).2.work.tree.read s.host.cwd (r.target?.getD r.file.path) = .ok c := by
  have hsub : (files.filter fun f => !(s.config.skipHidden && f.hidden)).Sublist files := List.filter_sublist
  unfold stages at hst
  unfold Batch.run at hr ⊢
  dsimp only at hst hr ⊢
  generalize files.filter (fun f => !(s.config.skipHidden && f.hidden)) = visible at hsub hst hr ⊢
  have hseen := hgiven.sublist hsub
  have hlen := runRules_length (s := s) profile.rules visible b
  obtain ⟨hsteady, hplaced⟩ := runRules_placed (K := ∅) hcwd hdry hdel hlaunch hs hp hlog hin hseen (by simp [Passed])
    fun st hmem => hst st (List.mem_append_left _ hmem)
  have hin' := hin.runRules (s := s) profile.rules visible
  generalize Batch.runRules s profile.rules visible b = x at *
  obtain ⟨os, b'⟩ := x
  dsimp only at *
  have htree : (planRest s profile.categories mode visible os b'.work).2.tree = b'.work.tree := planRest_tree _ _ _ _
  have hsources : ((planRest s profile.categories mode visible os b'.work).1.map (·.source)).Sublist
      ((untaken visible os).map (·.path)) := planRest_sources _ _ _ _
  generalize planRest s profile.categories mode visible os b'.work = y at *
  obtain ⟨moves, w⟩ := y
  dsimp only at *
  rw [runPlan, if_neg (by simp [hdry])] at hr ⊢
  rw [if_neg (by simp [hdry])] at hst
  have hin₁ : ({ b' with work := w } : Batch).IsIn folder := hin'.of_session rfl
  have hst₁ := fun st hmem => hst st (List.mem_append_right _ hmem)
  exact transferAll_tells hs hp hlog hin₁ hseen hlen (by rwa [htree]) (by simpa [htree] using hplaced) hsources hst₁
    hr hok hread

end

end

end Batch

/-- The entry tells where the bytes of its file are. In a trial run the file stays, and a target is where it would go. -/
def FileResult.Locates (cwd : Place) (dryRun : Bool) (t t' : Tree) (e : FileResult) : Prop :=
  ∃ c, t.read cwd e.source = .ok c ∧
    match e.target with
    | none => t'.read cwd e.source = .ok c
    | some d => if dryRun then e.status = .wouldApply ∧ t'.read cwd e.source = .ok c else t'.read cwd d = .ok c

namespace Job

variable {j : Job} {root folder root' : Path} {files : List FileInfo} {store : TagStore}

end Job

namespace Job

end Job

end FileOrganizer
