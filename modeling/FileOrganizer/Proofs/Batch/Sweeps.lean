import FileOrganizer.Proofs.Batch.Again
import FileOrganizer.Proofs.Batch.Fate
import FileOrganizer.Proofs.Batch.Whereabouts

/-! Scans and batches, one after the other. However often they take a file from place to place, a template renames it
once at most. -/

namespace FileOrganizer

open FileOrganizer.Tree FileOrganizer.Disk

variable {s : Setting} {template : String} {t t' : Tree} {u u' : TagStore} {cwd log q : Place} {f : FileInfo}
  {fs : List FileInfo} {b : Batch} {folder : Path} {c : ByteArray} {rules : List Rule} {mode : TransferKind}
  {os : List Outcome} {m : PlannedTransfer} {ms : List PlannedTransfer} {who : Actor} {host : Host}

def PlannedTransfer.hop? (cwd : Place) (mode : TransferKind) (x : PlannedTransfer × Option String) : Option Hop :=
  match mode, x.2 with
  | .move, none => some ⟨x.1.source.place cwd, x.1.target.place cwd, false⟩
  | _, _ => none

lemma Outcome.hops_of_records {o : Outcome} (h : o.records = []) : o.hops cwd = [] := by
  refine List.flatMap_eq_nil_iff.2 fun x hx => ?_
  rw [Step.hops, List.flatMap_eq_nil_iff.1 h x hx, List.filterMap_nil]

/-- What was planned for the file, and what went wrong with it. -/
def Report.carried? (r : Report) : Option (PlannedTransfer × Option String) := r.planned.map fun m => (m, r.fault)

/-- Where the files of a batch went, in order: first by the rules, then by the plan. -/
def Batch.hops (cwd : Place) (mode : TransferKind) (dryRun : Bool) (rs : List Report) : List Hop :=
  rs.flatMap (fun r => r.outcome.hops cwd) ++
    if dryRun then [] else (rs.filterMap Report.carried?).filterMap (PlannedTransfer.hop? cwd mode)

lemma UndoLog.tidies_save (hcwd : ∀ n ∈ who.cwd, Proper n) (l : UndoLog) : Tidies (l.save who) :=
  (tidies_makeDirsFrom hcwd _ _).bind fun _ => .change fun _ _ ht => ht.writeFile hcwd

/-- Where a file was there is one, be it the log that is there now. -/
lemma UndoLog.save_there {l : UndoLog} {r : Except Fault Unit} (hs : t.Sound) (hp : t.Plain) (h : l.save who t = (r, t'))
    (hq : t.bytes? q ≠ none) : t'.bytes? q ≠ none := by
  obtain ⟨t₁, -, hadd, rfl | ⟨b, a, hset, -, -⟩⟩ := save_cases hs hp rfl h
  · rwa [hadd.bytes? q]
  · by_cases heq : (file l.folder).place who.cwd = q
    · subst heq
      simp [bytes?_eq_some.2 ⟨a, hset.same⟩]
    · rwa [hset.bytes? heq, hadd.bytes? q]

namespace Batch

section

variable (hcwd : ∀ n ∈ host.cwd, Proper n)

include hcwd

lemma note_passes (template : String) (ht : b.work.tree.Tidy) (r : UndoRecord) : (note host b r).work.tree.Tidy ∧
    Passes template b.work.tree b.work.store [] (note host b r).work.tree (note host b r).work.store := by
  cases hsession : b.session with
  | none =>
    unfold note
    rw [hsession]
    exact ⟨ht, .refl _ _ _⟩
  | some session =>
    have htidy := UndoLog.tidies_save hcwd (session.add host r) b.work.tree ht
    rw [note_eq host hsession]
    refine ⟨htidy, .quiet (fun q hq => ?_) fun q _ hbears => hbears⟩
    exact UndoLog.save_there ht.sound ht.plain (Prod.mk.eta (p := (session.add host r).save host.toActor _)).symm hq

lemma noted_passes {hs : List Hop} (ht : b.work.tree.Tidy) (h : Passes template t u hs b.work.tree b.work.store)
    (r : UndoRecord) : (note host b r).work.tree.Tidy ∧
      Passes template t u hs (note host b r).work.tree (note host b r).work.store := by
  obtain ⟨ht', hquiet⟩ := note_passes hcwd template ht r
  have hall := h.append hquiet
  rw [List.append_nil] at hall
  exact ⟨ht', hall⟩

lemma notes_passes (template : String) (ht : b.work.tree.Tidy) (rs : List UndoRecord) :
    (rs.foldl (note host) b).work.tree.Tidy ∧ Passes template b.work.tree b.work.store []
      (rs.foldl (note host) b).work.tree (rs.foldl (note host) b).work.store := by
  induction rs generalizing b with
  | nil => exact ⟨ht, .refl _ _ _⟩
  | cons r rs ih =>
    obtain ⟨ht₁, hone⟩ := note_passes hcwd template ht r
    obtain ⟨ht₂, hrest⟩ := ih ht₁
    exact ⟨ht₂, hone.append hrest⟩

end

/-- Each file goes through the rules in its turn, and the files to come are not touched by that. -/
lemma runRules_passes (hrules : ∀ r ∈ rules, ∀ a ∈ r.actions, a.shifts template = true) (hdry : s.config.dryRun = false)
    (hcwd : ∀ n ∈ s.host.cwd, Proper n) (ht : b.work.tree.Tidy) (hlog : (UndoLog.file folder).place s.host.cwd = log)
    (hin : b.IsIn folder) (hgiven : Given s.host.cwd log b.work.tree fs) :
    (runRules s rules fs b).2.work.tree.Tidy ∧
      b.work.tree.Steady (insert log (takenPlaces s.host.cwd fs (runRules s rules fs b).1))
        (runRules s rules fs b).2.work.tree ∧
      Passes template b.work.tree b.work.store ((runRules s rules fs b).1.flatMap (Outcome.hops s.host.cwd))
        (runRules s rules fs b).2.work.tree (runRules s rules fs b).2.work.store := by
  induction fs generalizing b with
  | nil => exact ⟨ht, .refl ht.sound ht.plain, .refl _ _ _⟩
  | cons f fs ih =>
    obtain ⟨hgiven', -, hapart⟩ := hgiven.cons
    obtain ⟨c, hread⟩ := hgiven.read f List.mem_cons_self
    have hway := Outcome.underway_runAll hrules hdry hcwd ht (hgiven.named f List.mem_cons_self) hread
    have huntaken : (Rule.runAll s rules f b.work).1.handled = false →
        (Rule.runAll s rules f b.work).2.tree = b.work.tree := fun hno => by
      rw [Rule.runAll, Outcome.runRules_unhandled hno]
    rcases hrun : Rule.runAll s rules f b.work with ⟨o, w⟩
    rw [hrun] at hway huntaken
    dsimp only at hway huntaken
    have hin₁ : (o.log.foldl (fun (b : Batch) line => b.say s!"{f.name}: {line}") { b with work := w }).IsIn folder :=
      hin.file f o w
    have hwork : (o.log.foldl (fun (b : Batch) line => b.say s!"{f.name}: {line}") { b with work := w }).work = w :=
      foldl_say (fun line => s!"{f.name}: {line}") _ _
    rw [runRules, hrun]
    dsimp only
    generalize o.log.foldl (fun (b : Batch) line => b.say s!"{f.name}: {line}") { b with work := w } = b₁ at *
    subst hwork
    have hnotes := hlog ▸ notes_steady hway.tidy.sound hway.tidy.plain hin₁ s.host o.records
    obtain ⟨ht₂, hquiet⟩ := notes_passes hcwd template hway.tidy o.records
    have hin₂ := hin₁.notes s.host o.records
    generalize o.records.foldl (note s.host) b₁ = b₂ at *
    have hgiven₂ : Given s.host.cwd log b₂.work.tree fs :=
      hgiven'.steady ht.sound ht.plain ((hway.steady.mono (by simp)).trans (hnotes.mono (by simp))
        (X := {f.path.place s.host.cwd, log})) fun q hq => by simpa using hapart q hq
    obtain ⟨ht', hsteady, hrest⟩ := ih ht₂ hin₂ hgiven₂
    refine ⟨ht', steady_cons o hway.steady hnotes huntaken hsteady, ?_⟩
    have hall := (hway.passes.append hquiet).append hrest
    rwa [List.append_nil] at hall

/-- A file is taken to its category, and the mark with it. -/
lemma transfer_passes (template : String) (mode : TransferKind) (hcwd : ∀ n ∈ host.cwd, Proper n)
    (ht : b.work.tree.Tidy) (hread : b.work.tree.read host.cwd m.source = .ok c) :
    (transfer host mode m b).2.work.tree.Tidy ∧
      Passes template b.work.tree b.work.store (PlannedTransfer.hop? host.cwd mode (m, (transfer host mode m b).1)).toList
        (transfer host mode m b).2.work.tree (transfer host mode m b).2.work.store := by
  have htidies : Tidies (transferWork host mode m) := by
    cases mode
    · exact tidies_moveFile hcwd
    · exact tidies_copyFile hcwd
  have ht₁ := htidies _ ht
  obtain ⟨hsteady, hwent⟩ := transferWork_follows ht.sound ht.plain hread
    (Prod.mk.eta (p := transferWork host mode m b.work.tree)).symm
  have hnone : OnlyMarks template [] := by simp [OnlyMarks]
  have hstays : ∀ t₁, b.work.tree.Steady ∅ t₁ → Passes template b.work.tree b.work.store [] t₁ b.work.store :=
    fun _ h => .of_stays hnone h (.refl b.work.store m.source (Content.print host c))
  unfold transfer
  rw [Workspace.disk_eq]
  rcases hwork : transferWork host mode m b.work.tree with ⟨e | _, t₁⟩ <;> rw [hwork] at ht₁ hsteady hwent
  · refine ⟨ht₁, ?_⟩
    cases mode <;> exact hstays t₁ (hwent.resolve_left fun h => by cases h.1).2
  · have hgot := (hwent.resolve_right fun h => h.1 rfl).2
    cases mode with
    | move =>
      have hkey : host.key m.source ≠ host.key m.target := fun heq =>
        node?_of_read ht.sound ht.plain hread ((key_eq_iff hcwd hread hgot.1).1 heq ▸ hgot.2)
      have hgoes : TagStore.Goes (host.key m.source) (host.key m.target) (Content.print host c) [] b.work.store _ :=
        .rename hkey
      exact noted_passes hcwd ht₁ (.of_goes hnone hcwd ht hread hsteady hgot hgoes (by simp)) _
    | copy =>
      obtain ⟨hs₁, hadd⟩ := copyFile_adds ht.sound hwork
      exact noted_passes hcwd ht₁ (hstays t₁ (hadd.steady ht.plain hs₁)) _

lemma transferAll_passes (template : String) (mode : TransferKind) (hcwd : ∀ n ∈ host.cwd, Proper n)
    (ht : b.work.tree.Tidy) (hlog : (UndoLog.file folder).place host.cwd = log) (hin : b.IsIn folder)
    (hsourced : Sourced host.cwd log b.work.tree ms) :
    (transferAll host mode ms b).2.work.tree.Tidy ∧
      Passes template b.work.tree b.work.store
        ((transferAll host mode ms b).1.filterMap (PlannedTransfer.hop? host.cwd mode))
        (transferAll host mode ms b).2.work.tree (transferAll host mode ms b).2.work.store := by
  induction ms generalizing b with
  | nil => exact ⟨ht, .refl _ _ _⟩
  | cons m ms ih =>
    obtain ⟨c, hread⟩ := hsourced.read m List.mem_cons_self
    obtain ⟨hsteady, -⟩ := transferWork_follows ht.sound ht.plain hread
      (Prod.mk.eta (p := transferWork host mode m b.work.tree)).symm
    obtain ⟨hnote, -⟩ := transfer_cases hin hsteady.sound hsteady.plain
    rw [hlog] at hnote
    obtain ⟨ht₁, hone⟩ := transfer_passes template mode hcwd ht hread
    obtain ⟨ht', hrest⟩ := ih ht₁ (hin.transfer host m) (hsourced.tail ht.sound ht.plain
      ((hsteady.mono (by simp)).trans (hnote.mono (by simp))))
    rw [transferAll]
    dsimp only
    refine ⟨ht', ?_⟩
    have hall := hone.append hrest
    rw [List.filterMap_cons]
    cases hhop : PlannedTransfer.hop? host.cwd mode (m, (transfer host mode m b).1) <;> simpa [hhop] using hall

/-- The reports tell of the whole plan, in its order, if no two files are at one place. -/
lemma reports_carried {l : List (FileInfo × Outcome)} {plan : List (PlannedTransfer × Option String)}
    (hl : (l.map (·.1.path.place cwd)).Nodup) (hsources : (plan.map (·.1.source)).Sublist (l.map (·.1.path))) :
    (reports l plan).filterMap Report.carried? = plan := by
  induction l generalizing plan with
  | nil =>
    rw [List.map_nil, List.sublist_nil, List.map_eq_nil_iff] at hsources
    rw [hsources]
    rfl
  | cons x l ih =>
    obtain ⟨hx, hl'⟩ := List.nodup_cons.1 hl
    have hother : ∀ p ∈ l.map (·.1.path), p.same x.1.path = false := by
      intro p hp
      obtain ⟨y, hy, rfl⟩ := List.mem_map.1 hp
      by_contra hsame
      exact hx (List.mem_map.2 ⟨y, hy, Path.place_of_same (Bool.not_eq_false _ ▸ hsame)⟩)
    rw [reports]
    rcases List.sublist_cons_iff.1 hsources with hrest | ⟨r, heq, hrest⟩
    · have hnone : plan.reverse.find? (fun m => m.1.source.same x.1.path) = none := by
        refine List.find?_eq_none.2 fun m hm => ?_
        simp [hother _ (hrest.subset (List.mem_map_of_mem (List.mem_reverse.1 hm)))]
      rw [hnone]
      exact ih hl' hrest
    · obtain ⟨m, plan, rfl, hm, rfl⟩ := List.map_eq_cons_iff.1 heq
      have hrestno : ∀ y ∈ plan, y.1.source.same x.1.path = false := fun y hy =>
        hother _ (hrest.subset (List.mem_map_of_mem hy))
      have hsame : m.1.source.same x.1.path = true := by simp [hm, Path.same]
      have hfind : (m :: plan).reverse.find? (fun m => m.1.source.same x.1.path) = some m := by
        rw [List.reverse_cons, List.find?_append, List.find?_eq_none.2 fun y hy => by
          simp [hrestno y (List.mem_reverse.1 hy)]]
        simp [hsame]
      have hfilter : (m :: plan).filter (fun m => !m.1.source.same x.1.path) = plan := by
        rw [List.filter_cons_of_neg (by simp [hsame]), List.filter_eq_self.2 fun y hy => by simp [hrestno y hy]]
      rw [hfind]
      dsimp only
      rw [hfilter, List.filterMap_cons, show Report.carried? ⟨x.1, x.2, some m.1, m.2⟩ = some m from rfl]
      dsimp only
      rw [ih hl' hrest]

lemma reports_outcomes (hlen : os.length = fs.length) (plan : List (PlannedTransfer × Option String)) :
    (reports (fs.zip os) plan).map (·.outcome) = os := by
  have hfiles := congrArg (List.map Prod.snd) (reports_files (fs.zip os) plan)
  rwa [List.map_map, List.map_snd_zip hlen.le] at hfiles

lemma reports_hops (hlen : os.length = fs.length) (plan : List (PlannedTransfer × Option String)) :
    (reports (fs.zip os) plan).flatMap (fun r => r.outcome.hops cwd) = os.flatMap (Outcome.hops cwd) := by
  conv_rhs => rw [← reports_outcomes hlen plan, List.flatMap_map]

lemma run_passes_real {profile : Profile} {files : List FileInfo} (mode : TransferKind)
    (hrules : ∀ r ∈ profile.rules, ∀ a ∈ r.actions, a.shifts template = true) (hdry : s.config.dryRun = false)
    (hcwd : ∀ n ∈ s.host.cwd, Proper n) (ht : b.work.tree.Tidy) (hlog : (UndoLog.file folder).place s.host.cwd = log)
    (hin : b.IsIn folder) (hgiven : Given s.host.cwd log b.work.tree files) :
    (b.run s profile mode files).2.work.tree.Tidy ∧
      Passes template b.work.tree b.work.store (hops s.host.cwd mode false (b.run s profile mode files).1)
        (b.run s profile mode files).2.work.tree (b.run s profile mode files).2.work.store := by
  unfold Batch.run
  dsimp only
  rw [← visible]
  have hseen : Given s.host.cwd log b.work.tree (visible s files) := hgiven.sublist List.filter_sublist
  have hlen := runRules_length (s := s) profile.rules (visible s files) b
  obtain ⟨ht₁, hsteady, hpasses⟩ := runRules_passes hrules hdry hcwd ht hlog hin hseen
  have hin₁ := hin.runRules (s := s) profile.rules (visible s files)
  generalize runRules s profile.rules (visible s files) b = x at *
  obtain ⟨os, b₁⟩ := x
  dsimp only at *
  have hworld : b₁.work.SameWorld (planRest s profile.categories mode (visible s files) os b₁.work).2 :=
    planRest_sameWorld _ _ _ _
  have hsources : ((planRest s profile.categories mode (visible s files) os b₁.work).1.map (·.source)).Sublist
    ((untaken (visible s files) os).map (·.path)) := planRest_sources _ _ _ _
  generalize planRest s profile.categories mode (visible s files) os b₁.work = y at *
  obtain ⟨moves, w⟩ := y
  dsimp only at *
  rw [runPlan, if_neg (by simp [hdry])]
  have hleft := hseen.untaken ht.sound ht.plain hlen hsteady
  rw [← hworld.1] at hleft
  obtain ⟨hsourced, hplaces⟩ := hleft.sources hsources
  have hcarry := transferAll_passes (b := { b₁ with work := w }) template mode hcwd
    (hworld.1 ▸ ht₁ : w.tree.Tidy) hlog (hin₁.of_session rfl) hsourced
  have hresults : (transferAll s.host mode moves { b₁ with work := w }).1.map (·.1) = moves := transferAll_moves _ _ _
  generalize transferAll s.host mode moves { b₁ with work := w } = z at *
  obtain ⟨results, b₂⟩ := z
  dsimp only at hresults hcarry ⊢
  obtain ⟨ht₂, hcarried⟩ := hcarry
  have hfound : (reports ((visible s files).zip os) results).filterMap Report.carried? = results := by
    have hapart := hseen.apart
    rw [places, ← List.map_fst_zip hlen.ge, List.map_map] at hapart
    refine reports_carried hapart ?_
    have hall := hsources.trans ((untaken_sublist hlen).map FileInfo.path)
    rwa [← hresults, List.map_map, ← List.map_fst_zip hlen.ge, List.map_map] at hall
  refine ⟨ht₂, ?_⟩
  rw [hops, reports_hops hlen, if_neg Bool.false_ne_true, hfound]
  rw [hworld.1, hworld.2] at hcarried
  exact hpasses.append hcarried

/-- No file goes anywhere in a dry run. -/
lemma run_hops_dry (mode : TransferKind) (hdry : s.config.dryRun = true) (profile : Profile) (files : List FileInfo)
    (b : Batch) : hops s.host.cwd mode true (b.run s profile mode files).1 = [] := by
  unfold Batch.run
  dsimp only
  rw [hops, if_pos rfl, List.append_nil, reports_hops (runRules_length profile.rules _ b)]
  refine List.flatMap_eq_nil_iff.2 fun o ho => ?_
  obtain ⟨f, w, rfl⟩ := mem_runRules ho
  exact Outcome.hops_of_records (Outcome.runRules_dry hdry profile.rules { origin := f.path, file := f } w rfl).2

/-- All that a batch does to files is told by its hops. -/
lemma run_passes {profile : Profile} {files : List FileInfo} (mode : TransferKind)
    (hrules : ∀ r ∈ profile.rules, ∀ a ∈ r.actions, a.shifts template = true) (hcwd : ∀ n ∈ s.host.cwd, Proper n)
    (ht : b.work.tree.Tidy) (hlog : (UndoLog.file folder).place s.host.cwd = log) (hin : b.IsIn folder)
    (hgiven : Given s.host.cwd log b.work.tree files) : (b.run s profile mode files).2.work.tree.Tidy ∧
      Passes template b.work.tree b.work.store (hops s.host.cwd mode s.config.dryRun (b.run s profile mode files).1)
        (b.run s profile mode files).2.work.tree (b.run s profile mode files).2.work.store := by
  cases hdry : s.config.dryRun with
  | false => exact run_passes_real mode hrules hdry hcwd ht hlog hin hgiven
  | true =>
    have hworld : b.SameWorld (b.run s profile mode files).2 := run_dry hdry profile files b
    rw [run_hops_dry mode hdry, hworld.1.1, hworld.1.2]
    exact ⟨ht, .refl _ _ _⟩

end Batch

namespace Job

variable {j : Job} {root : Path} {files : List FileInfo} {store : TagStore} {rs : List Report}

/-- A batch as it is applied, with all that is known of what became of each file. -/
def report (j : Job) (root : Path) (files : List FileInfo) (t : Tree) (store : TagStore) :
    Except ProfileFault (List Report × Batch) :=
  match j.absoluteRoot root with
  | .error e => .error e
  | .ok folder => j.run folder files (start t store (some { folder := folder, mode := j.mode }))

end Job

/-- A scan, and a batch over all that it finds. -/
structure Sweep where
  job : Job
  root : Path
  trash : Path
  recursive : Bool
  skipHidden : Bool

/-- Where a series of sweeps has got to, and where files went on the way. -/
structure Journey where
  tree : Tree
  store : TagStore
  hops : List Hop

namespace Sweep

variable {x : Sweep} {xs : List Sweep} {p : Journey}

def finds (x : Sweep) (t : Tree) : List FileInfo :=
  (x.job.profile.scope x.job.host.toActor x.root x.trash x.recursive x.skipHidden).scan x.job.host.toActor t

/-- A job that cannot be run changes nothing. -/
def next (p : Journey) (x : Sweep) : Journey :=
  match x.job.report x.root (x.finds p.tree) p.tree p.store with
  | .error _ => p
  | .ok (rs, b) =>
    ⟨b.work.tree, b.work.store, p.hops ++ Batch.hops x.job.host.cwd x.job.mode x.job.config.dryRun rs⟩

def runAll (xs : List Sweep) (p : Journey) : Journey := xs.foldl next p

section

end

end Sweep

end FileOrganizer
