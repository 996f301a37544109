import FileOrganizer.Proofs.Batch.Aftermath
import FileOrganizer.Proofs.Category
import FileOrganizer.Proofs.Copies

/-! Files that have been put into the directories of their categories stay there: what is found after a batch without
rules and without failures is left alone by the next one, which changes nothing and notes nothing. -/

namespace FileOrganizer

open FileOrganizer.Tree FileOrganizer.Disk

variable {s s' : Setting} {who who' : Actor} {mode : TransferKind} {t t' : Tree} {cwd log q : Place} {sc : Scope}
  {c : Categories} {f g : FileInfo} {fs : List FileInfo} {w : Workspace} {m : PlannedTransfer}
  {ms : List PlannedTransfer} {b : Batch} {store : TagStore}

namespace Scope

/-- What a scan finds can be given to a batch. -/
lemma scan_given (ht : t.Tidy) (hcwd : ∀ n ∈ who.cwd, Proper n) (hup : Part.up ∉ sc.root.parts) :
    Batch.Given who.cwd (sc.root.place who.cwd ++ [UndoLog.fileName]) t (sc.scan who t) where
  read f hf := by
    obtain ⟨hdir, -⟩ := (mem_scan ht.sound ht.plain).1 hf
    obtain ⟨g, -, -, -, hread⟩ := scan_again ht hcwd rfl ht.sound ht.plain hup hdir (fun q _ hq => hq) hf
    exact hread
  named f hf := by
    obtain ⟨-, ns, n, -, -, hpick⟩ := (mem_scan ht.sound ht.plain).1 hf
    exact FileInfo.named_read (mem_pick.1 hpick).2.1
  ne_log hmem := by
    obtain ⟨f, hf, hplace⟩ := List.mem_map.1 hmem
    obtain ⟨hdir, -⟩ := (mem_scan ht.sound ht.plain).1 hf
    obtain ⟨g, -, -, hcov, -⟩ := scan_again ht hcwd rfl ht.sound ht.plain hup hdir (fun q _ hq => hq) hf
    exact not_covers_log (hplace ▸ hcov)
  apart := nodup_scan ht hcwd

end Scope

namespace PlannedTransfer

lemma dirOf_place (hnamed : c.Named) {n : String} (hn : Proper n) :
    ((dirOf s c f).child n).place cwd = s.root.place cwd ++ [c.resolve f s.host.now, n] := by
  rw [place_child hn, dirOf, place_child (hnamed.resolve f s.host.now), List.append_assoc]
  rfl

/-- The log is not in the directory of a category. -/
lemma dirOf_ne_log (hnamed : c.Named) {n : String} (hn : Proper n) (hroot : s.root.parts = sc.root.parts) :
    ((dirOf s c f).child n).place cwd ≠ sc.root.place cwd ++ [UndoLog.fileName] := by
  intro heq
  rw [dirOf_place hnamed hn, Path.place_of_parts hroot] at heq
  simpa using congrArg List.length (List.append_cancel_left heq)

lemma dirOf_parts (hnamed : c.Named) {n : String} (hn : Proper n) :
    ((dirOf s c f).child n).parts = s.root.parts ++ [.name (c.resolve f s.host.now), .name n] := by
  rw [Path.parts_child hn, dirOf, Path.parts_child (hnamed.resolve f s.host.now), List.append_assoc]
  rfl

/-- In the directories of categories, paths that differ do so in their parts. -/
lemma eq_of_same (hnamed : c.Named) {n n' : String} (hn : Proper n) (hn' : Proper n')
    (h : ((dirOf s c f).child n).same ((dirOf s c g).child n') = true) :
    (dirOf s c f).child n = (dirOf s c g).child n' := by
  rw [Path.same, dirOf_parts hnamed hn, dirOf_parts hnamed hn', beq_iff_eq] at h
  have hnames := List.append_cancel_left h
  simp only [List.cons.injEq, Part.name.injEq, and_true] at hnames
  rw [dirOf, dirOf, hnames.1, hnames.2]

lemma of?_stays (h : Stays s c mode w.tree f) : of? s c mode f w = (none, w) := by
  rcases of?_cases s c mode f w with ⟨hnone, -⟩ | ⟨hgoes, -⟩
  · exact hnone
  · exact absurd h hgoes

lemma plan_stays (h : ∀ f ∈ fs, Stays s c mode w.tree f) : plan s c mode fs w = ([], w) := by
  induction fs with
  | nil => rfl
  | cons f fs ih =>
    rw [plan, of?_stays (h f List.mem_cons_self)]
    dsimp only
    rw [ih fun g hg => h g (List.mem_cons_of_mem f hg)]
    rfl

section

variable (ht : w.tree.Tidy) (hnamed : c.Named) (hgiven : Batch.Given s.host.cwd log w.tree fs)
  (hms : (plan s c mode fs w).1 = ms)

section

include hms

/-- Everything in the plan is sent into the directory of a category. -/
lemma plan_sends (hm : m ∈ ms) : ∃ f ∈ fs, Sends s c w ms f m := by
  subst hms
  exact (plan_cases s c mode fs w).1 m hm

lemma plan_or_stays (hf : f ∈ fs) : (∃ m ∈ ms, Sends s c w ms f m) ∨ Stays s c mode w.tree f := by
  subst hms
  exact (plan_cases s c mode fs w).2.1 f hf

end

include hgiven hms

lemma plan_arrived (hsent : Sent s.host.cwd log mode ms w.tree t') (hm : m ∈ ms) : ∃ f ∈ fs, m.source = f.path ∧
    ∃ b, w.tree.read s.host.cwd f.path = .ok b ∧ t'.read s.host.cwd m.target = .ok b := by
  obtain ⟨f, hf, hsends⟩ := plan_sends hms hm
  obtain ⟨b, hread⟩ := hgiven.read f hf
  exact ⟨f, hf, hsends.source, b, hread, hsent.arrived m hm b (hsends.source ▸ hread)⟩

omit hms in
include ht in
lemma given_proper (hf : f ∈ fs) : Proper f.name := by
  obtain ⟨b, hread⟩ := hgiven.read f hf
  exact (hgiven.named f hf).proper ht.sound ht.plain hread

include ht

lemma plan_target (hm : m ∈ ms) : ∃ f ∈ fs, ∃ n, Proper n ∧ Sends s c w ms f m ∧ m.target = (dirOf s c f).child n := by
  obtain ⟨f, hf, hsends⟩ := plan_sends hms hm
  obtain ⟨k, hk, -⟩ := hsends.target
  exact ⟨f, hf, _, FileName.proper_variant (given_proper ht hgiven hf) k, hsends, hk⟩

include hnamed

variable (hfresh : w.claims = []) (hsent : Sent s.host.cwd log mode ms w.tree t')

include hsent hfresh

/-- Each name up to the one that a file is sent to was taken, by a file or by another transfer, and so it is
afterwards. -/
lemma plan_taken (hsteady : w.tree.Steady {log} t')
    (hlog : ∀ f n, Proper n → ((dirOf s c f).child n).place s.host.cwd ≠ log)
    (hf : f ∈ fs) (hm : m ∈ ms) (hsends : Sends s c w ms f m) :
    ∃ k, m.target = (dirOf s c f).child (FileName.numbered f.name k) ∧
      ∀ j ≤ k, t'.has s.host.cwd ((dirOf s c f).child (FileName.numbered f.name j)) = true := by
  have hthere : ∀ x ∈ ms, t'.has s.host.cwd x.target = true := by
    intro x hx
    obtain ⟨g, -, -, b, -, hread⟩ := plan_arrived hgiven hms hsent hx
    exact has_of_read hsteady.sound hsteady.plain hread
  have hname := given_proper ht hgiven hf
  obtain ⟨k, hk, hlow⟩ := hsends.target
  refine ⟨k, hk, fun j hj => ?_⟩
  rcases Nat.eq_or_lt_of_le hj with rfl | hlt
  · exact hk ▸ hthere m hm
  · have hproper := FileName.proper_variant hname j
    by_cases hfree : w.isFree s.host.cwd ((dirOf s c f).child (FileName.numbered f.name j)) = true
    · obtain ⟨x, hx, hsame⟩ := hlow j hlt hfree
      obtain ⟨g, -, n, hn, -, htarget⟩ := plan_target ht hgiven hms hx
      rw [htarget] at hsame
      rw [eq_of_same hnamed hproper hn hsame, ← htarget]
      exact hthere x hx
    · have hhas : w.tree.has s.host.cwd ((dirOf s c f).child (FileName.numbered f.name j)) = true := by
        by_contra hno
        exact hfree (by simp [Workspace.isFree, Workspace.isClaimed, hfresh, hno])
      exact hsteady.has ht.sound ht.plain (hlog f _ hproper) hhas

/-- A file that has been copied, or had been before, has a copy that is found. -/
lemma plan_copied (hsteady : w.tree.Steady {log} t')
    (hlog : ∀ f n, Proper n → ((dirOf s c f).child n).place s.host.cwd ≠ log)
    (hup : Part.up ∉ s.root.parts) (hf : f ∈ fs) (h : (∃ m ∈ ms, Sends s c w ms f m) ∨
      (Content.identical? s.host w.tree f.path (dirOf s c f) f.name).isSome = true) :
    (Content.identical? s.host t' f.path (dirOf s c f) f.name).isSome = true := by
  have hname := given_proper ht hgiven hf
  obtain ⟨b, hread⟩ := hgiven.read f hf
  have hne : f.path.place s.host.cwd ≠ log := fun heq => hgiven.ne_log (heq ▸ List.mem_map_of_mem hf)
  have hread' := hsteady.read ht.sound ht.plain hne hread
  rw [Content.identical?_isSome]
  rcases h with ⟨m, hm, hsends⟩ | hfound
  · obtain ⟨k, hk, hall⟩ := plan_taken ht hnamed hgiven hms hfresh hsent hsteady hlog hf hm hsends
    have hproper := FileName.proper_variant hname k
    have htarget := hsent.arrived m hm b (hsends.source ▸ hread)
    refine ⟨k, hall, ?_, Content.same_eq_true.2 ⟨b, b, hread', hk ▸ htarget, rfl, rfl⟩⟩
    by_contra hsame
    have hplace : Path.place s.host.cwd _ = Path.place s.host.cwd f.path :=
      Path.place_of_same (Bool.not_eq_false _ ▸ hsame)
    -- The target would have been taken by the file itself.
    obtain ⟨a, hnode⟩ := bytes?_eq_some.1 (bytes?_of_read ht.sound ht.plain hread)
    have hlevel : Part.up ∉ m.target.parts := by
      rw [hk, dirOf_parts hnamed hproper]
      simpa using hup
    have hstat := stat_of_level ht.sound ht.plain hsteady.sound hsteady.plain hlevel htarget
      (by rw [hk, hplace]; exact hnode)
    have hfree := hsends.free
    rw [Workspace.isFree, has_iff.2 ⟨_, _, hstat⟩] at hfree
    cases hfree
  · obtain ⟨k, hall, hother, hsame⟩ := (Content.identical?_isSome).1 hfound
    obtain ⟨x, y, hx, hy, hsize, hdigest⟩ := Content.same_eq_true.1 hsame
    refine ⟨k, fun j hj => ?_, hother, Content.same_eq_true.2 ⟨x, y, ?_, ?_, hsize, hdigest⟩⟩
    · exact hsteady.has ht.sound ht.plain (hlog f _ (FileName.proper_variant hname j)) (hall j hj)
    · exact hsteady.read ht.sound ht.plain hne hx
    · exact hsteady.read ht.sound ht.plain (hlog f _ (FileName.proper_variant hname k)) hy

end

section

variable {hidden : Bool} (ht : w.tree.Tidy) (hnamed : c.Named) (hcwd : ∀ n ∈ s.host.cwd, Proper n)
  (hroot : s.root.parts = sc.root.parts) (hup : Part.up ∉ sc.root.parts)
  (hexcl : ∀ n ∈ c.known, sc.excludesName n = true)
  (hfs : (sc.scan s.host.toActor w.tree).filter (fun f => !(hidden && f.hidden)) = fs)
  (hms : (plan s c mode fs w).1 = ms)
  (hsent : Sent s.host.cwd (sc.root.place s.host.cwd ++ [UndoLog.fileName]) mode ms w.tree t')

include ht hcwd hup hfs

lemma found_given : Batch.Given s.host.cwd (sc.root.place s.host.cwd ++ [UndoLog.fileName]) w.tree fs := by
  subst hfs
  exact (Scope.scan_given ht hcwd hup).sublist List.filter_sublist

include hnamed hroot hexcl hms hsent

/-- Where a scan looks no file has come, and those that were moved are gone. -/
lemma found_back (hq : sc.Covers s.host.cwd q) (hthere : t'.bytes? q ≠ none) :
    w.tree.bytes? q ≠ none ∧ (mode = .move → q ∉ ms.map (·.source.place s.host.cwd)) := by
  rcases hsent.files q hthere with rfl | htarget | hbefore
  · exact absurd hq Scope.not_covers_log
  · obtain ⟨m, hm, rfl⟩ := List.mem_map.1 htarget
    obtain ⟨f, -, n, hn, -, heq⟩ := plan_target ht (found_given ht hcwd hup hfs) hms hm
    rw [heq, dirOf_place hnamed hn, Path.place_of_parts hroot] at hq
    exact absurd hq (Scope.not_covers_sorted (hexcl _ (c.resolve_known f _)))
  · exact hbefore

/-- What a scan finds afterwards has a reason to stay where it is. -/
lemma found_stays (htimeless : c.Timeless) (hfresh : w.claims = []) (hhost : s'.host.cwd = s.host.cwd)
    (hdigest : s'.host.digest = s.host.digest) (hroot' : s'.root = s.root)
    (hdir : w.tree.isDir s.host.cwd sc.root = true) (hf : f ∈ sc.scan s'.host.toActor t')
    (hvisible : (!(hidden && f.hidden)) = true) : Stays s' c mode t' f := by
  have hgiven := found_given ht hcwd hup hfs
  have hs' := hsent.steady.sound
  have hp' := hsent.steady.plain
  have hback := fun {q} => found_back (q := q) ht hnamed hcwd hroot hup hexcl hfs hms hsent
  obtain ⟨g, hg, htwin, hcov, b, hread⟩ := Scope.scan_again ht hcwd hhost hs' hp' hup hdir
    (fun q hq hthere => (hback hq hthere).1) hf
  have hgmem : g ∈ fs := by
    rw [← hfs]
    exact List.mem_filter.2 ⟨hg, htwin.hidden ▸ hvisible⟩
  have hcategory : dirOf s' c f = dirOf s c g := by
    rw [dirOf, dirOf, hroot', htimeless.resolve htwin.names]
  have hname : f.name = g.name := by rw [htwin.names]
  have hcopy : mode = .copy → ((∃ m ∈ ms, Sends s c w ms g m) ∨
      (Content.identical? s.host w.tree g.path (dirOf s c g) g.name).isSome = true) → Stays s' c mode t' f := by
    rintro rfl hor
    refine Or.inr (Or.inr ⟨rfl, ?_⟩)
    have hsteady : w.tree.Steady {sc.root.place s.host.cwd ++ [UndoLog.fileName]} t' :=
      ⟨hs', hp', hsent.steady.dirs, fun q hq d hd => hsent.kept rfl q hq d hd⟩
    have hlog : ∀ f n, Proper n →
        ((dirOf s c f).child n).place s.host.cwd ≠ sc.root.place s.host.cwd ++ [UndoLog.fileName] :=
      fun f n hn => dirOf_ne_log hnamed hn hroot
    rw [hcategory, htwin.path, hname, Content.identical?_host hhost hdigest]
    exact plan_copied ht hnamed hgiven hms hfresh hsent hsteady hlog (hroot ▸ hup) hgmem hor
  rcases plan_or_stays hms hgmem with hsends | hisDir | hplace | ⟨hmode, hfound⟩
  · cases mode with
    | copy => exact hcopy rfl (Or.inl hsends)
    | move =>
      -- The file would be gone.
      obtain ⟨m, hm, hsource⟩ := hsends
      refine absurd (List.mem_map.2 ⟨m, hm, ?_⟩) ((hback hcov ?_).2 rfl)
      · rw [hsource.source, htwin.path]
      · rw [bytes?_of_read hs' hp' hread]
        simp
  · exact Or.inl (htwin.isDir.trans hisDir)
  · refine Or.inr (Or.inl ?_)
    rwa [hcategory, htwin.path, hname]
  · exact hcopy hmode (Or.inr hfound)

end

end PlannedTransfer

namespace Batch

variable {profile : Profile} {files : List FileInfo} {folder : Path}

/-- A file that no rule has seen. -/
def untouched (f : FileInfo) : Outcome := { origin := f.path, file := f }

lemma runRules_unruled (fs : List FileInfo) (b : Batch) : runRules s [] fs b = (fs.map untouched, b) := by
  induction fs with
  | nil => rfl
  | cons f fs ih =>
    rw [show runRules s [] (f :: fs) b = (untouched f :: (runRules s [] fs b).1, (runRules s [] fs b).2) from rfl, ih]
    rfl

lemma planRest_unruled (c : Categories) (fs : List FileInfo) (w : Workspace) :
    planRest s c mode fs (fs.map untouched) w =
      if s.config.fallback then PlannedTransfer.plan s c mode fs w else ([], w) := by
  unfold planRest
  have hrest : ((fs.zip (fs.map untouched)).filter fun p => !p.2.handled).map (·.1) = fs := by
    rw [List.filter_eq_self.2, List.map_fst_zip (by simp)]
    intro x hx
    obtain ⟨f, -, heq⟩ := List.mem_map.1 (List.of_mem_zip hx).2
    rw [← heq]
    rfl
  rw [hrest]

lemma reports_unplanned (l : List (FileInfo × Outcome)) : reports l [] = l.map fun x => ⟨x.1, x.2, none, none⟩ := by
  induction l with
  | nil => rfl
  | cons x l ih =>
    rw [reports, List.map_cons, ← ih]
    rfl

/-- The files that a batch looks at. -/
def visible (s : Setting) (files : List FileInfo) : List FileInfo :=
  files.filter fun f => !(s.config.skipHidden && f.hidden)

section

variable (hrules : profile.rules = [])

include hrules

lemma run_unruled (b : Batch) : b.run s profile mode files =
    let planned := if s.config.fallback then PlannedTransfer.plan s profile.categories mode (visible s files) b.work
      else ([], b.work)
    let done := runPlan s mode planned.1 { b with work := planned.2 }
    (reports ((visible s files).zip ((visible s files).map untouched)) done.1, done.2) := by
  unfold run
  dsimp only
  rw [hrules, runRules_unruled]
  dsimp only
  rw [← visible, planRest_unruled]

/-- Where all files have a reason to stay, nothing is done. -/
lemma run_idle (h : s.config.fallback = true →
    ∀ f ∈ visible s files, PlannedTransfer.Stays s profile.categories mode b.work.tree f) :
    (b.run s profile mode files).2 = b ∧ ∀ r ∈ (b.run s profile mode files).1, r.status s.config.dryRun = .skipped := by
  have hnone : (if s.config.fallback then PlannedTransfer.plan s profile.categories mode (visible s files) b.work
      else ([], b.work)) = ([], b.work) := by
    split
    · next hfallback => exact PlannedTransfer.plan_stays (h hfallback)
    · rfl
  have hplan : runPlan s mode [] b = ([], b) := by
    unfold runPlan
    split <;> rfl
  rw [run_unruled hrules, hnone]
  dsimp only
  rw [hplan, reports_unplanned]
  refine ⟨rfl, fun r hr => ?_⟩
  obtain ⟨x, hx, rfl⟩ := List.mem_map.1 hr
  obtain ⟨f, -, heq⟩ := List.mem_map.1 (List.of_mem_zip hx).2
  rw [← heq]
  rfl

/-- A batch without rules and without failures carries out its plan. -/
lemma run_sent (hdry : s.config.dryRun = false) (hfallback : s.config.fallback = true) (hs : b.work.tree.Sound)
    (hp : b.work.tree.Plain) (hin : b.IsIn folder) (hlog : (UndoLog.file folder).place s.host.cwd = log)
    (hgiven : Given s.host.cwd log b.work.tree (visible s files))
    (hms : (PlannedTransfer.plan s profile.categories mode (visible s files) b.work).1 = ms)
    (hapart : log ∉ ms.map (·.target.place s.host.cwd))
    (hok : ∀ r ∈ (b.run s profile mode files).1, r.status s.config.dryRun ≠ .failed) :
    Sent s.host.cwd log mode ms b.work.tree (b.run s profile mode files).2.work.tree := by
  have hsources : (ms.map (·.source)).Sublist ((visible s files).map (·.path)) :=
    hms ▸ PlannedTransfer.plan_sources profile.categories (visible s files) b.work
  have htree : (PlannedTransfer.plan s profile.categories mode (visible s files) b.work).2.tree = b.work.tree :=
    plan_tree profile.categories (visible s files) b.work
  rw [run_unruled hrules, if_pos hfallback] at hok ⊢
  dsimp only at hok ⊢
  rw [runPlan, if_neg (by simp [hdry]), hms] at hok ⊢
  obtain ⟨hsourced, hplaces⟩ := hgiven.sources hsources
  have hin' : ({ b with work := (PlannedTransfer.plan s profile.categories mode (visible s files) b.work).2 } :
      Batch).IsIn folder := hin.of_session rfl
  generalize (PlannedTransfer.plan s profile.categories mode (visible s files) b.work).2 = w at htree hok hin' ⊢
  rw [← htree] at hs hp hsourced ⊢
  refine transferAll_sent (b := { b with work := w }) hs hp hlog hin' hsourced hapart fun x hx => ?_
  have hresults : (transferAll s.host mode ms { b with work := w }).1.map (·.1) = ms :=
    transferAll_moves s.host ms { b with work := w }
  obtain ⟨f, hf, hsource⟩ :=
    List.mem_map.1 (hsources.subset (List.mem_map_of_mem (hresults ▸ List.mem_map_of_mem hx : x.1 ∈ ms)))
  rw [← List.map_prod_left_eq_zip] at hok
  have hfiles : (((visible s files).map fun f => (f, untouched f)).map (·.1.path.place s.host.cwd)).Nodup := by
    rw [List.map_map]
    exact hgiven.apart
  have hmoved : ((transferAll s.host mode ms { b with work := w }).1.map (·.1.source.place s.host.cwd)).Nodup := by
    have hnodup := hsourced.apart
    rwa [← hresults, List.map_map] at hnodup
  exact done_of_reports hok hfiles hmoved hx (List.mem_map_of_mem hf) rfl hsource.symm

section

variable (ht : b.work.tree.Tidy) (hcwd : ∀ n ∈ s.host.cwd, Proper n) (hup : Part.up ∉ sc.root.parts)
  (hnamed : profile.categories.Named) (hroot : s.root.parts = sc.root.parts) (hin : b.IsIn sc.root)
  (hdry : s.config.dryRun = false) (hfallback : s.config.fallback = true)
  (hok : ∀ r ∈ (b.run s profile mode (sc.scan s.host.toActor b.work.tree)).1, r.status s.config.dryRun ≠ .failed)

include ht hcwd hup hnamed hroot hin hdry hfallback hok

/-- The plan for what a scan has found is carried out. -/
lemma run_scan_sent : Sent s.host.cwd (sc.root.place s.host.cwd ++ [UndoLog.fileName]) mode
    (PlannedTransfer.plan s profile.categories mode (visible s (sc.scan s.host.toActor b.work.tree)) b.work).1
      b.work.tree (b.run s profile mode (sc.scan s.host.toActor b.work.tree)).2.work.tree := by
  have hgiven : Given s.host.cwd (sc.root.place s.host.cwd ++ [UndoLog.fileName]) b.work.tree
    (visible s (sc.scan s.host.toActor b.work.tree)) := PlannedTransfer.found_given ht hcwd hup rfl
  refine run_sent hrules hdry hfallback ht.sound ht.plain hin (place_child (by decide)) hgiven rfl (fun hmem => ?_) hok
  obtain ⟨m, hm, heq⟩ := List.mem_map.1 hmem
  obtain ⟨g, -, n, hn, -, htarget⟩ := PlannedTransfer.plan_target ht hgiven rfl hm
  exact PlannedTransfer.dirOf_ne_log hnamed hn hroot (htarget ▸ heq)

/-- What is found after a batch has a reason to stay. -/
lemma run_scan_stays (hexcl : ∀ n ∈ profile.categories.known, sc.excludesName n = true)
    (htimeless : profile.categories.Timeless) (hfresh : b.work.claims = []) (hhost : s'.host.cwd = s.host.cwd)
    (hdigest : s'.host.digest = s.host.digest) (hroot' : s'.root = s.root) (hconfig : s'.config = s.config)
    (ht' : (b.run s profile mode (sc.scan s.host.toActor b.work.tree)).2.work.tree = t')
    (hf : f ∈ visible s' (sc.scan s'.host.toActor t')) : PlannedTransfer.Stays s' profile.categories mode t' f := by
  obtain ⟨hfound, hvisible⟩ := List.mem_filter.1 hf
  rw [hconfig] at hvisible
  cases hdir : b.work.tree.isDir s.host.cwd sc.root with
  | true =>
    have hsent := run_scan_sent hrules ht hcwd hup hnamed hroot hin hdry hfallback hok
    rw [ht'] at hsent
    exact PlannedTransfer.found_stays ht hnamed hcwd hroot hup hexcl rfl rfl hsent htimeless hfresh hhost hdigest hroot'
      hdir hfound hvisible
  | false =>
    -- Nothing was found before, so that the tree is as it was, and there is nothing to be found in it.
    have hnone : ∀ who : Actor, who.cwd = s.host.cwd → sc.scan who b.work.tree = [] := by
      intro who hwho
      refine List.eq_nil_iff_forall_not_mem.2 fun g hg => ?_
      have hyes := ((Scope.mem_scan ht.sound ht.plain).1 hg).1
      rw [hwho, hdir] at hyes
      cases hyes
    have hsame : (b.run s profile mode (sc.scan s.host.toActor b.work.tree)).2 = b := by
      refine (run_idle hrules fun _ g hg => ?_).1
      rw [hnone s.host.toActor rfl] at hg
      cases hg
    rw [← ht', hsame, hnone s'.host.toActor hhost] at hfound
    cases hfound

end

end

end Batch

namespace Job

variable {j : Job} {host : Host} {root folder root' trash : Path} {files : List FileInfo} {rs : List FileResult}
  {store' : TagStore} {recursive skipHidden : Bool}

lemma absoluteRoot_eq_ok : j.absoluteRoot root = .ok folder ↔ root.absolute? j.host.cwd = some folder := by
  unfold absoluteRoot
  split
  · next hnone => simp [hnone]
  · next p hp => simp [hp]

lemma apply_ok (h : j.apply root files t store = .ok (rs, b)) : ∃ folder root', j.absoluteRoot root = .ok folder ∧
    j.absoluteRoot folder = .ok root' ∧ j.profile.validate = .ok () := by
  unfold apply applyIn Job.run at h
  cases hfolder : j.absoluteRoot root with
  | error e =>
    rw [hfolder] at h
    cases h
  | ok folder =>
    rw [hfolder] at h
    dsimp only at h
    cases hvalid : j.profile.validate with
    | error e =>
      rw [hvalid] at h
      cases h
    | ok a =>
      rw [hvalid] at h
      cases hroot : j.absoluteRoot folder with
      | error e =>
        rw [hroot] at h
        cases h
      | ok root' => exact ⟨folder, root', rfl, hroot, rfl⟩

/-- Where all files have a reason to stay, a batch without rules does nothing. -/
lemma apply_idle (hrules : j.profile.rules = []) (hfolder : j.absoluteRoot root = .ok folder)
    (hroot : j.absoluteRoot folder = .ok root') (hvalid : j.profile.validate = .ok ()) (store : TagStore)
    (hstays : j.config.fallback = true → ∀ f ∈ Batch.visible (j.setting root') files,
      PlannedTransfer.Stays (j.setting root') j.profile.categories j.mode t f) :
    ∃ rs b, j.apply root files t store = .ok (rs, b) ∧ b.work.tree = t ∧
      (∃ session, b.session = some session ∧ session.log = none) ∧ ∀ e ∈ rs, e.status = .skipped := by
  obtain ⟨hsame, hskipped⟩ := Batch.run_idle (s := j.setting root')
    (b := start t store (some { folder := folder, mode := j.mode })) hrules hstays
  refine ⟨_, _, apply_eq files t store hfolder hroot hvalid, by rw [hsame]; rfl, ⟨_, by rw [hsame]; rfl, rfl⟩,
    fun e he => ?_⟩
  obtain ⟨r, hr, rfl⟩ := List.mem_map.1 he
  exact hskipped r hr

/-- Sorting by category is done once: after a batch without failures the next one leaves all files that a scan finds
where they are, changes nothing, and reports no more than that unless it is a trial run. -/
theorem apply_again (ht : t.Tidy) (hcwd : ∀ n ∈ j.host.cwd, Proper n) (hup : Part.up ∉ root.parts)
    (hrules : j.profile.rules = []) (hnamed : j.profile.categories.Named) (htimeless : j.profile.categories.Timeless)
    (hhost : host.cwd = j.host.cwd) (hdigest : host.digest = j.host.digest)
    (h : j.apply root ((j.profile.scope j.host.toActor root trash recursive skipHidden).scan j.host.toActor t) t store =
      .ok (rs, b)) (hok : ∀ e ∈ rs, e.status ≠ .failed) :
    ∃ rs' b', { j with host := host }.apply root
        ((j.profile.scope host.toActor root trash recursive skipHidden).scan host.toActor b.work.tree) b.work.tree
          store' = .ok (rs', b') ∧ b'.work.tree = b.work.tree ∧
      (∃ session, b'.session = some session ∧ session.log = none) ∧
      (j.config.dryRun = false → ∀ e ∈ rs', e.status = .skipped) := by
  obtain ⟨folder, root', hfolder, hroot, hvalid⟩ := apply_ok h
  have hfolder' := absoluteRoot_eq_ok.1 hfolder
  have hroot' := absoluteRoot_eq_ok.1 hroot
  have hexcl : ∀ n ∈ j.profile.categories.known,
      (j.profile.scope j.host.toActor root trash recursive skipHidden).excludesName n = true :=
    fun n hn => Profile.scope_excludes hn
  have hat : (j.profile.scope j.host.toActor root trash recursive skipHidden).root = folder :=
    Profile.scope_root hfolder'
  rw [Profile.scope_congr (show host.toActor.cwd = j.host.toActor.cwd from hhost)]
  generalize j.profile.scope j.host.toActor root trash recursive skipHidden = sc at h hexcl hat ⊢
  subst hat
  have habs := Path.isAbsolute_of_absolute? hcwd hfolder'
  have hlevel := Path.level_absolute? hcwd hup hfolder'
  have hparts : root'.parts = sc.root.parts := by
    rw [Path.parts_absolute? hcwd hroot', if_pos habs, List.nil_append, Path.parts_of_absolute habs]
  have hfolder₂ : ({ j with host := host } : Job).absoluteRoot root = .ok sc.root :=
    absoluteRoot_eq_ok.2 (hhost ▸ hfolder')
  have hroot₂ : ({ j with host := host } : Job).absoluteRoot sc.root = .ok root' :=
    absoluteRoot_eq_ok.2 (hhost ▸ hroot')
  cases hdry : j.config.dryRun with
  | true =>
    have hagain := apply_eq (sc.scan host.toActor b.work.tree) b.work.tree store' hfolder₂ hroot₂ hvalid
    obtain ⟨htree, -, hsession⟩ := apply_dry (j := { j with host := host }) hdry hagain
    exact ⟨_, _, hagain, htree, hsession, fun hno => by cases hno⟩
  | false =>
    rw [apply_eq (sc.scan j.host.toActor t) t store hfolder hroot hvalid] at h
    obtain ⟨rfl, hb⟩ := Prod.mk.inj (Except.ok.inj h)
    have hstays : j.config.fallback = true → ∀ f ∈ Batch.visible (({ j with host := host } : Job).setting root')
        (sc.scan host.toActor b.work.tree), PlannedTransfer.Stays (({ j with host := host } : Job).setting root')
          j.profile.categories j.mode b.work.tree f :=
      fun hfallback f hf => Batch.run_scan_stays (s := j.setting root')
        (b := start t store (some { folder := sc.root, mode := j.mode })) hrules ht hcwd hlevel hnamed hparts
        (start_isIn t store sc.root j.mode) hdry hfallback (fun r hr => hok _ (List.mem_map_of_mem hr)) hexcl htimeless
        rfl hhost hdigest rfl rfl (congrArg (·.work.tree) hb) hf
    obtain ⟨rs', b', hagain, htree, hsession, hskipped⟩ :=
      apply_idle (j := { j with host := host }) hrules hfolder₂ hroot₂ hvalid store' hstays
    exact ⟨rs', b', hagain, htree, hsession, fun _ => hskipped⟩

section

/-- Files are sorted by category, and nothing else. -/
def sorter (mode : TransferKind) (dryRun : Bool) : Job where
  host := plainHost
  trash := ⟨"/trash"⟩
  mode := mode
  config := { dryRun := dryRun }
  profile := {}

/-- What the sorter finds. -/
def finds (t : Tree) : List FileInfo :=
  ((sorter .move false).profile.scope plainHost.toActor ⟨"/r"⟩ ⟨"/trash"⟩ true true).scan plainHost.toActor t

end

lemma finds_twoFiles : finds twoFiles = [found "/r/a.txt", found "/r/a.zip"] := by
  have hnames : twoFiles.names ["r"] = ["a.txt", "a.zip"] := by
    rw [names, List.mergeSort_of_pairwise (by decide)]
    rfl
  have hst : twoFiles.stat [] ⟨"/r"⟩ = .ok (["r"], .dir ⟨⟨0, 0⟩, false⟩) := rfl
  unfold finds Scope.scan
  rw [show plainHost.toActor.cwd = [] from rfl, show ((sorter .move false).profile.scope plainHost.toActor ⟨"/r"⟩
    ⟨"/trash"⟩ true true).root = ⟨"/r"⟩ from rfl, hst]
  dsimp only
  unfold Scope.scanDir
  rw [hnames]
  decide

lemma tidy_twoFiles : twoFiles.Tidy := tidy_of_entries (by decide) (by decide) (by decide) (by decide)

/-- Two files are copied into the directories of their categories, and have copies there the next time. -/
theorem apply_again_copies : ∃ rs b rs' b',
    (sorter .copy false).apply ⟨"/r"⟩ (finds twoFiles) twoFiles .empty = .ok (rs, b) ∧
    rs.map (·.status) = [.applied, .applied] ∧
      (sorter .copy false).apply ⟨"/r"⟩ (finds b.work.tree) b.work.tree .empty = .ok (rs', b') ∧
        b'.work.tree = b.work.tree ∧ ∀ e ∈ rs', e.status = .skipped := by
  have hstatus : ((sorter .copy false).apply ⟨"/r"⟩ [found "/r/a.txt", found "/r/a.zip"] twoFiles .empty).toOption.map
      (fun x => x.1.map (·.status)) = some [.applied, .applied] := by decide +kernel
  rw [← finds_twoFiles] at hstatus
  cases hx : (sorter .copy false).apply ⟨"/r"⟩ (finds twoFiles) twoFiles .empty with
  | error e =>
    rw [hx] at hstatus
    cases hstatus
  | ok x =>
    obtain ⟨rs, b⟩ := x
    rw [hx] at hstatus
    have hrs : rs.map (·.status) = [.applied, .applied] := Option.some.inj hstatus
    have hok : ∀ e ∈ rs, e.status ≠ .failed := by
      intro e he heq
      have hmem : e.status ∈ [Status.applied, .applied] := hrs ▸ List.mem_map_of_mem he
      simp [heq] at hmem
    obtain ⟨rs', b', hagain, htree, -, hskip⟩ := apply_again (j := sorter .copy false) tidy_twoFiles (by decide)
      (by decide) rfl (by decide) (by decide) rfl rfl hx hok
    exact ⟨rs, b, rs', b', rfl, hrs, hagain, htree, hskip rfl⟩

/-- A trial run tells again what it told before. -/
theorem apply_again_fails : ¬∀ (j : Job) (root trash : Path) (recursive skipHidden : Bool) (t : Tree) (store : TagStore)
    (rs : List FileResult) (b : Batch), t.Tidy → (∀ n ∈ j.host.cwd, Proper n) → Part.up ∉ root.parts →
    j.profile.rules = [] → j.profile.categories.Named → j.profile.categories.Timeless →
    j.apply root ((j.profile.scope j.host.toActor root trash recursive skipHidden).scan j.host.toActor t) t store =
      .ok (rs, b) → (∀ e ∈ rs, e.status ≠ .failed) →
    ∃ rs' b', j.apply root
      ((j.profile.scope j.host.toActor root trash recursive skipHidden).scan j.host.toActor b.work.tree) b.work.tree
        b.work.store = .ok (rs', b') ∧ ∀ e ∈ rs', e.status = .skipped := by
  intro h
  have hstatus : ((sorter .move true).apply ⟨"/r"⟩ [found "/r/a.txt", found "/r/a.zip"] twoFiles .empty).toOption.map
      (fun x => x.1.map (·.status)) = some [.wouldApply, .wouldApply] := by decide +kernel
  rw [← finds_twoFiles] at hstatus
  cases hx : (sorter .move true).apply ⟨"/r"⟩ (finds twoFiles) twoFiles .empty with
  | error e =>
    rw [hx] at hstatus
    cases hstatus
  | ok x =>
    obtain ⟨rs, b⟩ := x
    rw [hx] at hstatus
    have hrs : rs.map (·.status) = [.wouldApply, .wouldApply] := Option.some.inj hstatus
    obtain ⟨htree, hstore, -⟩ := apply_dry rfl hx
    obtain ⟨rs', b', hagain, hskip⟩ := h (sorter .move true) ⟨"/r"⟩ ⟨"/trash"⟩ true true twoFiles .empty rs b
      tidy_twoFiles (by decide) (by decide) rfl (by decide) (by decide) hx fun e he heq => by
        have hmem : e.status ∈ [Status.wouldApply, .wouldApply] := hrs ▸ List.mem_map_of_mem he
        simp [heq] at hmem
    rw [htree, hstore] at hagain
    obtain ⟨rfl, -⟩ := Prod.mk.inj (Except.ok.inj (hx.symm.trans hagain))
    cases rs with
    | nil => cases hrs
    | cons e rs =>
      have hwould : e.status = .wouldApply := (List.cons.inj hrs).1
      rw [hskip e List.mem_cons_self] at hwould
      cases hwould

end Job

end FileOrganizer
