import FileOrganizer.Proofs.Batch.Records
import FileOrganizer.Proofs.Batch.Single
import FileOrganizer.Proofs.Batch.Skipped

/-! Files that are all given one name. In each directory one file can have it; the others get the name with a number,
which is not the name that the next batch looks for. -/

namespace FileOrganizer

open FileOrganizer.Tree FileOrganizer.Disk

variable {s : Setting} {r : Rule} {f : FileInfo} {fs : List FileInfo} {w : Workspace} {b : Batch} {t t' : Tree}
  {cwd log : Place} {folder p : Path} {c : ByteArray} {n : String} {xs : List (FileInfo × Outcome)}

namespace Outcome

lemma refresh_name (hcwd : ∀ n ∈ s.host.cwd, Proper n) (ha : f.path.isAbsolute = true) (hnamed : f.Named) :
    (refresh s w f).name = f.name := by
  have hnamed' := refresh_named (s := s) (w := w) (o := { origin := f.path, file := f }) hnamed
  rw [hnamed.name_eq, hnamed'.name_eq, Path.fileName, Path.fileName,
    Path.fileName?_of_parts (refresh_parts hcwd fun _ => ha)]

lemma once_target? {a : Action} {g : FileInfo} {e : Effect} (hdel : a ≠ .delete) (hnew : e.newPath = some p)
    (hgone : p.same f.path = false) : (once r a f g e).target? = some p := by
  have hpath : (e.take g).path = p := Task.take_of_some hnew
  rw [target?, deleted_eq_false (by simp [once, hdel]), if_neg (by simp), once, hpath, hgone]
  rfl

end Outcome

lemma Scope.scan_named {who : Actor} {sc : Scope} (hs : t.Sound) (hp : t.Plain) (hcwd : ∀ n ∈ who.cwd, Proper n)
    (hf : f ∈ sc.scan who t) : f.Named ∧ f.path.isAbsolute = true := by
  obtain ⟨-, ns, n, -, -, hpick⟩ := (mem_scan hs hp).1 hf
  have hread := (mem_pick.1 hpick).2.1
  exact ⟨FileInfo.named_read hread, Path.isAbsolute_of_absolute? hcwd (FileInfo.read_eq hread).1⟩

namespace Action

/-- A file that has the name is skipped; any other one is to be renamed, unless it cannot be. -/
lemma judge_rename : (∃ e, (rename n).judge s w f = .error e ∧ (e.status = .skipped ∧ f.name = n ∨ e.status = .failed)) ∨
    (rename n).judge s w f = .ok (.rename n none) ∧ f.name ≠ n := by
  rw [judge]
  unfold judgeRename
  split_ifs with hinvalid hname hfield hthere
  · exact Or.inl ⟨_, rfl, Or.inr rfl⟩
  · exact Or.inl ⟨_, rfl, Or.inl ⟨rfl, hname⟩⟩
  · simp at hfield
  · exact Or.inl ⟨_, rfl, Or.inr rfl⟩
  · exact Or.inr ⟨rfl, hname⟩

lemma judge_rename_named (hn : Proper n) (hback : '\\' ∉ n.toList) (hname : f.name = n) :
    ∃ e, (rename n).judge s w f = .error e ∧ e.status = .skipped := by
  have hvalid : ¬(n = "" || n.toList.any fun c => c = '/' || c = '\\') = true := by
    simp only [Bool.or_eq_true, decide_eq_true_eq, List.any_eq_true, not_or, not_exists, not_and]
    exact ⟨hn.1, fun c hc => ⟨fun h => hn.2.2.2 (h ▸ hc), fun h => hback (h ▸ hc)⟩⟩
  rw [judge]
  unfold judgeRename
  rw [if_neg hvalid, if_pos hname]
  exact ⟨_, rfl, rfl⟩

/-- What is skipped has the name. -/
lemma run_rename_skipped (h : ((rename n).run s f w).1.status = .skipped) : f.name = n := by
  obtain ⟨e, hj, he⟩ := run_skipped (fun task hj => by obtain ⟨rfl, -⟩ := judgeRename_ok (by rwa [judge] at hj); rfl) h
  rcases judge_rename (s := s) (w := w) (f := f) (n := n) with ⟨e', hj', ⟨-, hname⟩ | hfailed⟩ | ⟨hj', -⟩
  · exact hname
  · rw [hj] at hj'
    obtain rfl := Except.error.inj hj'
    rw [he] at hfailed
    cases hfailed
  · rw [hj] at hj'
    cases hj'

/-- The file stays, since it has the name, or goes to where the name is followed by a number. -/
lemma run_rename (hcwd : ∀ n ∈ s.host.cwd, Proper n) (hdry : s.config.dryRun = false) (hs : w.tree.Sound) (hp : w.tree.Plain)
    (hread : w.tree.read s.host.cwd f.path = .ok c) (hok : ((rename n).run s f w).1.status ≠ .failed) :
    ((rename n).run s f w).1.status = .skipped ∧ f.name = n ∧ ((rename n).run s f w).2 = w ∨
      ((rename n).run s f w).1.status = .applied ∧ ∃ k,
        ((rename n).run s f w).1.newPath = some (f.parent.child (FileName.numbered n k)) ∧
        Moved s.host.cwd f.path (f.parent.child (FileName.numbered n k)) c w.tree ((rename n).run s f w).2.tree := by
  rcases judge_rename (s := s) (w := w) (f := f) (n := n) with ⟨e, hj, ⟨he, hname⟩ | he⟩ | ⟨hj, -⟩
  · rw [run, hj]
    exact Or.inl ⟨he, hname, rfl⟩
  · rw [run, hj] at hok
    exact absurd he hok
  · obtain ⟨k, hk⟩ := w.claim_path s.host.cwd f.parent n
    rw [run, hj] at hok ⊢
    dsimp only at hok ⊢
    rw [if_neg (by simp [hdry])] at hok ⊢
    unfold Task.perform at hok ⊢
    dsimp only [Task.noteTemplate] at hok ⊢
    rcases Task.moveTo_goes (w := (w.claim s.host.cwd f.parent n).2) hcwd hs hp hread (Content.print s.host c)
      (w.claim s.host.cwd f.parent n).1.path s!"已改名: {f.name} -> {(w.claim s.host.cwd f.parent n).1.path.fileName}"
      (fun e => s!"改名 {f.name} 失败: {e.message}") with ⟨-, hfailed, -⟩ | ⟨hnew, happlied, -, hmoved⟩
    · exact absurd hfailed hok
    · exact Or.inr ⟨happlied, k, hk ▸ hnew, hk ▸ hmoved⟩

end Action

namespace Batch

/-- What is left of files that were all to be given the name: each of them had it or was renamed, and what is there has
been there before or is one of them. -/
structure Renamed (cwd log : Place) (n : String) (t t' : Tree) (xs : List (FileInfo × Outcome)) : Prop where
  steady : t.Steady {q | q = log ∨ ∃ x ∈ xs, x.1.path.place cwd = q} t'
  came : ∀ q ≠ log, t'.bytes? q ≠ none →
    (t.bytes? q ≠ none ∧ ∀ x ∈ xs, x.2.status = .applied → x.1.path.place cwd ≠ q) ∨
      ∃ x ∈ xs, ∃ p, x.2.target? = some p ∧ p.place cwd = q ∧ q.getLast? = some p.fileName
  each : ∀ x ∈ xs, x.2.status = .skipped ∧ x.1.name = n ∨ x.2.status = .applied

lemma Renamed.cons {o : Outcome} {t₁ t₂ : Tree} (hstep : t.Steady {f.path.place cwd} t₁)
    (hcame : ∀ q, t₁.bytes? q ≠ none → (t.bytes? q ≠ none ∧ (o.status = .applied → f.path.place cwd ≠ q)) ∨
      ∃ p, o.target? = some p ∧ p.place cwd = q ∧ q.getLast? = some p.fileName)
    (heach : o.status = .skipped ∧ f.name = n ∨ o.status = .applied) (hnotes : t₁.Steady {log} t₂)
    (hother : ∀ q ≠ log, t₂.bytes? q = t₁.bytes? q) (h : Renamed cwd log n t₂ t' xs) :
    Renamed cwd log n t t' ((f, o) :: xs) where
  steady := by
    refine (hstep.mono ?_).trans ((hnotes.mono ?_).trans (h.steady.mono ?_))
    · rintro q rfl
      exact Or.inr ⟨_, List.mem_cons_self, rfl⟩
    · exact fun q hq => Or.inl hq
    · exact fun q hq => hq.imp_right fun ⟨x, hx, hplace⟩ => ⟨x, List.mem_cons_of_mem _ hx, hplace⟩
  came q hq hbytes := by
    rcases h.came q hq hbytes with ⟨hthere, hrest⟩ | ⟨x, hx, hp⟩
    · rcases hcame q (hother q hq ▸ hthere) with ⟨hbefore, hfirst⟩ | htarget
      · refine Or.inl ⟨hbefore, fun x hx => ?_⟩
        rcases List.mem_cons.1 hx with rfl | hx
        · exact hfirst
        · exact hrest x hx
      · exact Or.inr ⟨_, List.mem_cons_self, htarget⟩
    · exact Or.inr ⟨x, List.mem_cons_of_mem _ hx, hp⟩
  each x hx := by
    rcases List.mem_cons.1 hx with rfl | hx
    · exact heach
    · exact h.each x hx

section

variable (hr : r.Always (.rename n)) (hcwd : ∀ n ∈ s.host.cwd, Proper n) (hdry : s.config.dryRun = false) (hn : Proper n)

include hr hcwd hdry hn

lemma runRules_renames (hlog : (UndoLog.file folder).place s.host.cwd = log) (hs : b.work.tree.Sound)
    (hp : b.work.tree.Plain) (hin : b.IsIn folder) (hgiven : Given s.host.cwd log b.work.tree fs)
    (habs : ∀ f ∈ fs, f.path.isAbsolute = true) (hok : ∀ o ∈ (runRules s [r] fs b).1, o.status ≠ .failed) :
    Renamed s.host.cwd log n b.work.tree (runRules s [r] fs b).2.work.tree (fs.zip (runRules s [r] fs b).1) := by
  induction fs generalizing b with
  | nil => exact ⟨.refl hs hp, fun q _ hq => Or.inl ⟨hq, by simp⟩, by simp⟩
  | cons f fs ih =>
    obtain ⟨b₁, hb₁, hsession, hrun⟩ := runRules_always hr hdry f fs b
    obtain ⟨hgiven', hne_log, hapart⟩ := hgiven.cons
    obtain ⟨c, hread⟩ := hgiven.read f List.mem_cons_self
    have ha := habs f List.mem_cons_self
    have hread' := Outcome.refresh_read (o := { origin := f.path, file := f }) hcwd hs hp hread
    have hplace := (Outcome.refresh_path hcwd b.work f).1
    have hname := Outcome.refresh_name (w := b.work) hcwd ha (hgiven.named f List.mem_cons_self)
    dsimp only at hread'
    rw [hrun] at hok ⊢
    have hhead := hok _ List.mem_cons_self
    rw [Outcome.once_status] at hhead
    have hone := Action.run_rename hcwd hdry hs hp hread' hhead
    generalize Outcome.refresh s b.work f = g at *
    generalize (Action.rename n).run s g b.work = x at *
    obtain ⟨e, v⟩ := x
    dsimp only at *
    have hstep : b.work.tree.Steady {f.path.place s.host.cwd} v.tree := by
      rcases hone with ⟨-, -, rfl⟩ | ⟨-, k, -, hmoved⟩
      · exact .refl hs hp
      · exact hplace ▸ hmoved.steady
    have hin₁ : b₁.IsIn folder := hin.of_session hsession
    subst hb₁
    have hnotes := hlog ▸ notes_steady hstep.sound hstep.plain hin₁ s.host e.records
    have hother := fun q hq => notes_other (q := q) hstep.sound hstep.plain hin₁ s.host (hlog ▸ hq) e.records
    have hin₂ := hin₁.notes s.host e.records
    generalize e.records.foldl (note s.host) b₁ = b₂ at *
    have hgiven₂ : Given s.host.cwd log b₂.work.tree fs :=
      hgiven'.steady hs hp ((hstep.mono (by simp)).trans (hnotes.mono (by simp)) (X := {f.path.place s.host.cwd, log}))
        fun q hq => by simpa using hapart q hq
    refine .cons hstep (fun q hq => ?_) ?_ hnotes hother (ih hnotes.sound hnotes.plain hin₂ hgiven₂
      (fun f hf => habs f (List.mem_cons_of_mem _ hf)) fun o ho => hok o (List.mem_cons_of_mem _ ho))
    · rcases hone with ⟨hskipped, -, htree⟩ | ⟨-, k, hnew, hmoved⟩
      · rw [htree] at hq
        exact Or.inl ⟨hq, fun happlied => by simp [hskipped] at happlied⟩
      · have hproper := FileName.proper_variant hn k
        by_cases htarget : (g.parent.child (FileName.numbered n k)).place s.host.cwd = q
        · refine Or.inr ⟨_, Outcome.once_target? (by simp) hnew ?_, htarget, ?_⟩
          · by_contra hsame
            have hfree := hmoved.free
            rw [Path.place_of_same (Bool.not_eq_false _ ▸ hsame), bytes?_of_read hs hp hread] at hfree
            cases hfree
          · rw [← htarget, place_child hproper, List.getLast?_concat, Path.fileName_child hproper]
        · by_cases hsource : g.path.place s.host.cwd = q
          · exact absurd (hsource ▸ hmoved.gone) hq
          · rw [hmoved.other q htarget hsource] at hq
            exact Or.inl ⟨hq, fun _ heq => hsource (hplace.trans heq)⟩
    · rcases hone with ⟨hskipped, hn, -⟩ | ⟨happlied, -⟩
      · exact Or.inl ⟨by rw [Outcome.once_status, hskipped], hname ▸ hn⟩
      · exact Or.inr (by rw [Outcome.once_status, happlied])

/-- Just the files that have the name are left alone. -/
lemma run_skips_named {profile : Profile} {mode : TransferKind} {files : List FileInfo} (hback : '\\' ∉ n.toList)
    (hrules : profile.rules = [r]) (hfiles : ∀ f ∈ files, f.Named ∧ f.path.isAbsolute = true) {x : Report}
    (hx : x ∈ (b.run s profile mode files).1) :
    x.status s.config.dryRun = .skipped ↔ x.file.path.fileName = n := by
  rw [run_always hr hdry mode _ hrules] at hx
  obtain ⟨y, hy, rfl⟩ := List.mem_map.1 hx
  obtain ⟨hnamed, ha⟩ := hfiles y.1 (List.mem_filter.1 (List.of_mem_zip hy).1).1
  obtain ⟨w, hw⟩ := mem_zip_runRules_always hr hdry hy
  have hname := Outcome.refresh_name (w := w) hcwd ha hnamed
  rw [Report.status, hw, if_pos Outcome.once_handled, Outcome.once_status, ← hnamed.name_eq, ← hname]
  refine ⟨Action.run_rename_skipped, fun hsame => ?_⟩
  obtain ⟨e, hj, he⟩ := Action.judge_rename_named (s := s) (w := w) hn hback hsame
  rw [Action.run, hj, he]

section

variable {sc : Scope} (ht : b.work.tree.Tidy) (hup : Part.up ∉ sc.root.parts) (hin : b.IsIn sc.root)
  (hok : ∀ o ∈ (runRules s [r] (visible s (sc.scan s.host.toActor b.work.tree)) b).1, o.status ≠ .failed)

include ht hup hin hok

lemma runRules_renames_scan : Renamed s.host.cwd (sc.root.place s.host.cwd ++ [UndoLog.fileName]) n b.work.tree
    (runRules s [r] (visible s (sc.scan s.host.toActor b.work.tree)) b).2.work.tree
    ((visible s (sc.scan s.host.toActor b.work.tree)).zip
      (runRules s [r] (visible s (sc.scan s.host.toActor b.work.tree)) b).1) := by
  refine runRules_renames hr hcwd hdry hn (place_child (by decide)) ht.sound ht.plain hin
    ((Scope.scan_given ht hcwd hup).sublist List.filter_sublist)
    (fun f hf => (Scope.scan_named ht.sound ht.plain hcwd (List.mem_filter.1 hf).1).2) hok

/-- If no file has got another name, all that is found afterwards has the name. -/
lemma scan_renamed {s' : Setting} (hhost : s'.host.cwd = s.host.cwd) (hconfig : s'.config = s.config)
    (hnames : ∀ o ∈ (runRules s [r] (visible s (sc.scan s.host.toActor b.work.tree)) b).1, ∀ p,
      o.target? = some p → p.fileName = n)
    (hf : f ∈ visible s' (sc.scan s'.host.toActor
      (runRules s [r] (visible s (sc.scan s.host.toActor b.work.tree)) b).2.work.tree)) : f.name = n := by
  have hrenamed := runRules_renames_scan hr hcwd hdry hn ht hup hin hok
  obtain ⟨hfound, hvisible⟩ := List.mem_filter.1 hf
  cases hdir : b.work.tree.isDir s.host.cwd sc.root with
  | false =>
    -- Nothing was found before, so that the tree is as it was, and there is nothing to be found in it.
    have hnone : visible s (sc.scan s.host.toActor b.work.tree) = [] := by
      refine List.eq_nil_iff_forall_not_mem.2 fun g hg => ?_
      have hyes := ((Scope.mem_scan ht.sound ht.plain).1 (List.mem_filter.1 hg).1).1
      rw [show s.host.toActor.cwd = s.host.cwd from rfl, hdir] at hyes
      cases hyes
    rw [hnone] at hfound
    have hyes := ((Scope.mem_scan ht.sound ht.plain).1 hfound).1
    rw [show s'.host.toActor.cwd = s.host.cwd from hhost, hdir] at hyes
    cases hyes
  | true =>
    have hlen := runRules_length (s := s) [r] (visible s (sc.scan s.host.toActor b.work.tree)) b
    generalize runRules s [r] (visible s (sc.scan s.host.toActor b.work.tree)) b = x at hlen hok hnames hfound hrenamed
    have hs' := hrenamed.steady.sound
    have hp' := hrenamed.steady.plain
    have hcame := fun q (hcov : sc.Covers s.host.cwd q) =>
      hrenamed.came q fun heq => Scope.not_covers_log (heq ▸ hcov)
    obtain ⟨ns, m, hseen⟩ := Scope.scan_seen hcwd hhost hs' hp' (fun q hcov hbytes => by
      rcases hcame q hcov hbytes with ⟨hthere, -⟩ | ⟨-, -, p, -, rfl, -⟩
      · exact ht.proper q fun hnone => hthere (by simp [Tree.bytes?, hnone])
      · exact Path.proper_place hcwd) hfound
    obtain ⟨c, hread⟩ := hseen.read
    rcases hcame _ (hseen.covers hcwd) (by simp [bytes?_of_read hs' hp' hread]) with
      ⟨hthere, hstays⟩ | ⟨y, hy, p, htarget, -, hlast⟩
    · obtain ⟨g, hg, htwin⟩ := hseen.again ht hcwd hs' hp' hup hdir hthere
      have hgvisible : g ∈ visible s (sc.scan s.host.toActor b.work.tree) :=
        List.mem_filter.2 ⟨hg, by rwa [← hconfig, ← htwin.hidden]⟩
      rw [← List.map_fst_zip hlen.ge] at hgvisible
      obtain ⟨y, hy, rfl⟩ := List.mem_map.1 hgvisible
      rcases hrenamed.each y hy with ⟨-, hname⟩ | happlied
      · rw [← hname]
        exact congrArg FileNames.name htwin.names
      · exact absurd (congrArg (Path.place s.host.cwd) htwin.path.symm) (hstays y hy happlied)
    · rw [hseen.place_eq hcwd, List.getLast?_concat] at hlast
      rw [hseen.name hcwd, Option.some.inj hlast]
      exact hnames _ (List.of_mem_zip hy).2 p htarget

end

/-- The next batch leaves a file alone just if it has the name, and all files if they have it. -/
lemma run_rename_again (s' : Setting) {sc : Scope} {profile : Profile} (mode : TransferKind) (b₂ : Batch)
    (hback : '\\' ∉ n.toList) (hrules : profile.rules = [r]) (ht : b.work.tree.Tidy) (hup : Part.up ∉ sc.root.parts)
    (hin : b.IsIn sc.root) (hhost : s'.host.cwd = s.host.cwd) (hconfig : s'.config = s.config)
    (htree : (b.run s profile mode (sc.scan s.host.toActor b.work.tree)).2.work.tree = b₂.work.tree)
    (hok : ∀ x ∈ (b.run s profile mode (sc.scan s.host.toActor b.work.tree)).1, x.status s.config.dryRun ≠ .failed) :
    (∀ x ∈ (b₂.run s' profile mode (sc.scan s'.host.toActor b₂.work.tree)).1,
        x.status s'.config.dryRun = .skipped ↔ x.file.path.fileName = n) ∧
      ((∀ x ∈ (b.run s profile mode (sc.scan s.host.toActor b.work.tree)).1, ∀ p, x.target? = some p → p.fileName = n) →
        (b₂.run s' profile mode (sc.scan s'.host.toActor b₂.work.tree)).2.work = b₂.work ∧
        (b₂.run s' profile mode (sc.scan s'.host.toActor b₂.work.tree)).2.session = b₂.session ∧
        ∀ x ∈ (b₂.run s' profile mode (sc.scan s'.host.toActor b₂.work.tree)).1,
          x.status s'.config.dryRun = .skipped) := by
  have hok' : ∀ o ∈ (runRules s [r] (visible s (sc.scan s.host.toActor b.work.tree)) b).1, o.status ≠ .failed := by
    intro o ho
    obtain ⟨x, hx, hstatus, -⟩ := reported_always hr hdry mode hrules ho
    exact hstatus ▸ hok x hx
  rw [run_always hr hdry mode _ hrules] at htree
  have hscan := runRules_renames_scan hr hcwd hdry hn ht hup hin hok'
  have hdry' : s'.config.dryRun = false := hconfig ▸ hdry
  have hcwd' : ∀ n ∈ s'.host.cwd, Proper n := hhost ▸ hcwd
  have hnamed : ∀ f ∈ sc.scan s'.host.toActor b₂.work.tree, f.Named ∧ f.path.isAbsolute = true := fun f hf =>
    Scope.scan_named (htree ▸ hscan.steady.sound) (htree ▸ hscan.steady.plain) hcwd' hf
  refine ⟨fun x hx => run_skips_named hr hcwd' hdry' hn hback hrules hnamed hx, fun hnames => ?_⟩
  refine run_always_idle hr hdry' mode hrules fun f hf => Action.judge_rename_named hn hback ?_
  obtain ⟨hfnamed, ha⟩ := hnamed f (List.mem_filter.1 hf).1
  rw [Outcome.refresh_name hcwd' ha hfnamed]
  refine scan_renamed hr hcwd hdry hn ht hup hin hok' hhost hconfig (fun o ho p hp => ?_) (htree ▸ hf)
  obtain ⟨x, hx, -, htarget⟩ := reported_always hr hdry mode hrules ho
  exact hnames x hx p (htarget.trans hp)

end

end Batch

namespace Job

variable {j : Job} {root trash : Path} {recursive skipHidden : Bool} {store : TagStore} {rs : List FileResult}

/-- A rule that renames files to one name leaves a file alone just if it has that name. So it is done after one batch if
no file has got another one: then the next batch changes nothing and notes nothing. -/
theorem rename_settles (host : Host) (store' : TagStore) (ht : t.Tidy) (hcwd : ∀ n ∈ j.host.cwd, Proper n)
    (hup : Part.up ∉ root.parts) (hr : r.Always (.rename n)) (hrules : j.profile.rules = [r])
    (hdry : j.config.dryRun = false) (hn : Proper n) (hback : '\\' ∉ n.toList) (hhost : host.cwd = j.host.cwd)
    (h : j.apply root ((j.profile.scope j.host.toActor root trash recursive skipHidden).scan j.host.toActor t) t store =
      .ok (rs, b)) (hok : ∀ e ∈ rs, e.status ≠ .failed) :
    ∃ rs' b', { j with host := host }.apply root
        ((j.profile.scope host.toActor root trash recursive skipHidden).scan host.toActor b.work.tree) b.work.tree
          store' = .ok (rs', b') ∧
      (∀ e ∈ rs', e.status = .skipped ↔ e.source.fileName = n) ∧
      ((∀ e ∈ rs, ∀ p, e.target = some p → p.fileName = n) → b'.work.tree = b.work.tree ∧
        (∃ session, b'.session = some session ∧ session.log = none) ∧ ∀ e ∈ rs', e.status = .skipped) := by
  obtain ⟨folder, root', hfolder, hroot, hvalid⟩ := apply_ok h
  have hat : (j.profile.scope j.host.toActor root trash recursive skipHidden).root = folder :=
    Profile.scope_root (absoluteRoot_eq_ok.1 hfolder)
  rw [Profile.scope_congr (show host.toActor.cwd = j.host.toActor.cwd from hhost)]
  generalize j.profile.scope j.host.toActor root trash recursive skipHidden = sc at h hat ⊢
  subst hat
  have hlevel := Path.level_absolute? hcwd hup (absoluteRoot_eq_ok.1 hfolder)
  have hfolder' : ({ j with host := host } : Job).absoluteRoot root = .ok sc.root :=
    absoluteRoot_eq_ok.2 (hhost ▸ absoluteRoot_eq_ok.1 hfolder)
  have hroot' : ({ j with host := host } : Job).absoluteRoot sc.root = .ok root' :=
    absoluteRoot_eq_ok.2 (hhost ▸ absoluteRoot_eq_ok.1 hroot)
  refine ⟨_, _, apply_eq (sc.scan host.toActor b.work.tree) b.work.tree store' hfolder' hroot' hvalid, ?_⟩
  rw [apply_eq (sc.scan j.host.toActor t) t store hfolder hroot hvalid] at h
  obtain ⟨rfl, hb⟩ := Prod.mk.inj (Except.ok.inj h)
  obtain ⟨hskips, hsettles⟩ := Batch.run_rename_again (s := j.setting root')
    (b := start t store (some { folder := sc.root, mode := j.mode })) hr hcwd hdry hn
    (({ j with host := host } : Job).setting root') j.mode
    (start b.work.tree store' (some { folder := sc.root, mode := j.mode })) hback hrules ht hlevel
    (start_isIn t store sc.root j.mode) hhost rfl (congrArg (·.work.tree) hb) fun x hx => hok _ (List.mem_map_of_mem hx)
  refine ⟨fun e he => ?_, fun hnames => ?_⟩
  · obtain ⟨x, hx, rfl⟩ := List.mem_map.1 he
    exact hskips x hx
  · obtain ⟨hwork, hsession, hall⟩ := hsettles fun x hx => hnames _ (List.mem_map_of_mem hx)
    have htree := congrArg Workspace.tree hwork
    refine ⟨htree, ⟨_, hsession, rfl⟩, fun e he => ?_⟩
    obtain ⟨x, hx, rfl⟩ := List.mem_map.1 he
    exact hall x hx

section

/-- All files get one name. -/
def oneName : Job := plainJob [.rename "x.txt"]

/-- What a scan for the job finds. -/
def sees (recursive : Bool) (t : Tree) : List FileInfo :=
  (oneName.profile.scope oneName.host.toActor ⟨"/r"⟩ ⟨"/trash"⟩ recursive true).scan oneName.host.toActor t

/-- Two files in two directories. -/
def nested : Tree := ⟨[
  (["r"], .dir ⟨⟨0, 0⟩, false⟩),
  (["r", "a.txt"], .file ⟨#[1]⟩ ⟨⟨0, 0⟩, false⟩),
  (["r", "s"], .dir ⟨⟨0, 0⟩, false⟩),
  (["r", "s", "b.txt"], .file ⟨#[2]⟩ ⟨⟨0, 0⟩, false⟩)]⟩

end

lemma sees_nested : sees true nested = [found "/r/a.txt", found "/r/s/b.txt"] := by
  have hnames : nested.names ["r"] = ["a.txt", "s"] := by
    rw [names, List.mergeSort_of_pairwise (by decide)]
    rfl
  have hnames' : nested.names (["r"] ++ ["s"]) = ["b.txt"] := by
    rw [names, List.mergeSort_of_pairwise (by decide)]
    rfl
  have hst : nested.stat [] ⟨"/r"⟩ = .ok (["r"], .dir ⟨⟨0, 0⟩, false⟩) := rfl
  have hs : nested.at? (["r"] ++ ["s"]) = some (.dir ⟨⟨0, 0⟩, false⟩) := rfl
  have hinner : (oneName.profile.scope oneName.host.toActor ⟨"/r"⟩ ⟨"/trash"⟩ true true).scanDir oneName.host.toActor
      nested 4 (1 + 1) (["r"] ++ ["s"]) ⟨"/r/s"⟩ = [found "/r/s/b.txt"] := by
    rw [Scope.scanDir, hnames']
    decide +kernel
  unfold sees Scope.scan
  rw [show oneName.host.toActor.cwd = [] from rfl, show (oneName.profile.scope oneName.host.toActor ⟨"/r"⟩ ⟨"/trash"⟩
    true true).root = ⟨"/r"⟩ from rfl, hst]
  dsimp only
  rw [show nested.entries.length + 1 = 5 from rfl, Scope.scanDir, hnames, List.flatMap_cons, List.flatMap_cons,
    List.flatMap_nil, hs]
  dsimp only
  rw [show (⟨"/r"⟩ : Path).child "s" = ⟨"/r/s"⟩ by decide +kernel, if_pos (by decide +kernel), hinner]
  decide +kernel

/-- In two directories the name can be had twice. -/
theorem rename_settles_nested : ∃ rs b rs' b',
    oneName.apply ⟨"/r"⟩ (sees true nested) nested .empty = .ok (rs, b) ∧
    rs.map (·.target) = [some ⟨"/r/x.txt"⟩, some ⟨"/r/s/x.txt"⟩] ∧
      oneName.apply ⟨"/r"⟩ (sees true b.work.tree) b.work.tree .empty = .ok (rs', b') ∧
        b'.work.tree = b.work.tree ∧ ∀ e ∈ rs', e.status = .skipped := by
  have hrun : (oneName.apply ⟨"/r"⟩ [found "/r/a.txt", found "/r/s/b.txt"] nested .empty).toOption.map
      (fun x => (x.1.map (·.status), x.1.map (·.target))) =
        some ([.applied, .applied], [some ⟨"/r/x.txt"⟩, some ⟨"/r/s/x.txt"⟩]) := by decide +kernel
  rw [← sees_nested] at hrun
  cases hx : oneName.apply ⟨"/r"⟩ (sees true nested) nested .empty with
  | error e =>
    rw [hx] at hrun
    cases hrun
  | ok x =>
    obtain ⟨rs, b⟩ := x
    rw [hx] at hrun
    obtain ⟨hstatus, htargets⟩ := Prod.mk.inj (Option.some.inj hrun)
    dsimp only at hstatus htargets
    obtain ⟨rs', b', hagain, -, hsettles⟩ := rename_settles (j := oneName) plainHost .empty
      (tidy_of_entries (by decide) (by decide) (by decide) (by decide)) (by decide) (by decide) ⟨rfl, rfl, rfl⟩ rfl rfl
      (n := "x.txt") (by decide) (by decide) rfl hx fun e he heq => by
        have hmem : e.status ∈ [Status.applied, .applied] := hstatus ▸ List.mem_map_of_mem he
        simp [heq] at hmem
    obtain ⟨htree, -, hskip⟩ := hsettles fun e he p hp => by
      have hmem : e.target ∈ [some (⟨"/r/x.txt"⟩ : Path), some ⟨"/r/s/x.txt"⟩] := htargets ▸ List.mem_map_of_mem he
      rw [hp] at hmem
      simp only [List.mem_cons, Option.some.injEq, List.not_mem_nil, or_false] at hmem
      rcases hmem with rfl | rfl <;> decide +kernel
    exact ⟨rs, b, rs', b', rfl, htargets, hagain, htree, hskip⟩

lemma sees_twoFiles : sees false twoFiles = [found "/r/a.txt", found "/r/a.zip"] := by
  have hnames : twoFiles.names ["r"] = ["a.txt", "a.zip"] := by
    rw [names, List.mergeSort_of_pairwise (by decide)]
    rfl
  have hst : twoFiles.stat [] ⟨"/r"⟩ = .ok (["r"], .dir ⟨⟨0, 0⟩, false⟩) := rfl
  unfold sees Scope.scan
  rw [show oneName.host.toActor.cwd = [] from rfl, show (oneName.profile.scope oneName.host.toActor ⟨"/r"⟩ ⟨"/trash"⟩
    false true).root = ⟨"/r"⟩ from rfl, hst]
  dsimp only
  unfold Scope.scanDir
  rw [hnames]
  decide +kernel

/-- A tree of directories and files has no links. -/
lemma plain_of_known (h : ∀ e ∈ t.entries, (t.isDirAt e.1 || (t.bytes? e.1).isSome) = true) : t.Plain := by
  intro q l hq
  have hlink := at?_link.2 hq
  have hne : q ≠ [] := by
    rintro rfl
    cases hlink
  rw [at?_of_ne_nil hne] at hlink
  rcases Bool.or_eq_true_iff.1 (h _ (Table.mem_of_get? hlink)) with hdir | hbytes
  · obtain ⟨k, hk⟩ := isDirAt_iff.1 hdir
    rw [hq] at hk
    cases hk
  · rw [Tree.bytes?, hq] at hbytes
    cases hbytes

/-- What the batch makes of two files in one directory: the second of them has a number after its name. -/
lemma oneName_twoFiles : ∃ rs b f, oneName.apply ⟨"/r"⟩ (sees false twoFiles) twoFiles .empty = .ok (rs, b) ∧
    rs.map (·.status) = [.applied, .applied] ∧ b.work.tree.Sound ∧ b.work.tree.Plain ∧ f ∈ sees false b.work.tree ∧
      f.path = ⟨"/r/x_1.txt"⟩ ∧ f.hidden = false := by
  have hrun : (oneName.apply ⟨"/r"⟩ [found "/r/a.txt", found "/r/a.zip"] twoFiles .empty).toOption.map (fun x =>
      (x.1.map (·.status), x.2.work.tree.entries.all fun e => x.2.work.tree.isDirAt e.1.dropLast,
        x.2.work.tree.entries.all fun e => x.2.work.tree.isDirAt e.1 || (x.2.work.tree.bytes? e.1).isSome)) =
          some ([.applied, .applied], true, true) := by decide +kernel
  have hthere : (oneName.apply ⟨"/r"⟩ [found "/r/a.txt", found "/r/a.zip"] twoFiles .empty).toOption.map (fun x =>
      (x.2.work.tree.isDir [] ⟨"/r"⟩, x.2.work.tree.bytes? ["r", "x_1.txt"],
        (FileInfo.read oneName.host.toActor x.2.work.tree ⟨"/r/x_1.txt"⟩).toOption.map fun f => (f.path, f.hidden))) =
          some (true, some ⟨#[2]⟩, some (⟨"/r/x_1.txt"⟩, false)) := by decide +kernel
  rw [← sees_twoFiles] at hrun hthere
  cases hx : oneName.apply ⟨"/r"⟩ (sees false twoFiles) twoFiles .empty with
  | error e =>
    rw [hx] at hrun
    cases hrun
  | ok x =>
    obtain ⟨rs, b⟩ := x
    rw [hx] at hrun hthere
    obtain ⟨hstatus, hrun⟩ := Prod.mk.inj (Option.some.inj hrun)
    obtain ⟨hsound, hplain⟩ := Prod.mk.inj hrun
    obtain ⟨hdir, hthere⟩ := Prod.mk.inj (Option.some.inj hthere)
    obtain ⟨hbytes, hread⟩ := Prod.mk.inj hthere
    have hs : b.work.tree.Sound := sound_of_entries fun e he => List.all_eq_true.1 hsound e he
    have hp : b.work.tree.Plain := plain_of_known fun e he => List.all_eq_true.1 hplain e he
    cases hf : FileInfo.read oneName.host.toActor b.work.tree ⟨"/r/x_1.txt"⟩ with
    | error e =>
      dsimp only at hread
      rw [hf] at hread
      cases hread
    | ok f =>
      dsimp only at hread
      rw [hf] at hread
      obtain ⟨hpath, hhidden⟩ := Prod.mk.inj (Option.some.inj hread)
      obtain ⟨a, hnode⟩ := bytes?_eq_some.1 hbytes
      have hmem : f ∈ sees false b.work.tree := (Scope.mem_scan hs hp).2 ⟨hdir, [], "x_1.txt", trivial, ⟨_, a, hnode⟩,
        Scope.mem_pick.2 ⟨by decide +kernel, by rwa [show (Path.below _ []).child "x_1.txt" = ⟨"/r/x_1.txt"⟩ by
          decide +kernel], by rw [hhidden]; rfl⟩⟩
      exact ⟨rs, b, f, rfl, hstatus, hs, hp, hmem, hpath, hhidden⟩

/-- The file with the number gets the next number in the next batch. -/
theorem rename_settles_fails : ¬∀ (j : Job) (r : Rule) (n : String) (root trash : Path) (skipHidden : Bool) (t : Tree)
    (store : TagStore) (rs : List FileResult) (b : Batch), t.Tidy → (∀ n ∈ j.host.cwd, Proper n) →
    Part.up ∉ root.parts → r.Always (.rename n) → j.profile.rules = [r] → j.config.dryRun = false → Proper n →
    '\\' ∉ n.toList → n ≠ UndoLog.fileName →
    j.apply root ((j.profile.scope j.host.toActor root trash false skipHidden).scan j.host.toActor t) t store =
      .ok (rs, b) → (∀ e ∈ rs, e.status ≠ .failed) →
    ∃ rs' b', j.apply root ((j.profile.scope j.host.toActor root trash false skipHidden).scan j.host.toActor b.work.tree)
      b.work.tree b.work.store = .ok (rs', b') ∧ ∀ e ∈ rs', e.status = .skipped := by
  intro h
  obtain ⟨rs, b, f, hx, hstatus, hs, hp, hf, hpath, hhidden⟩ := oneName_twoFiles
  have hr : ({ name := "rule", actions := [.rename "x.txt"] } : Rule).Always (.rename "x.txt") := ⟨rfl, rfl, rfl⟩
  obtain ⟨rs', b', hagain, hskip⟩ := h oneName _ "x.txt" ⟨"/r"⟩ ⟨"/trash"⟩ true twoFiles .empty rs b tidy_twoFiles
    (by decide) (by decide) hr rfl rfl (by decide) (by decide) (by decide) hx fun e he heq => by
      have hmem : e.status ∈ [Status.applied, .applied] := hstatus ▸ List.mem_map_of_mem he
      simp [heq] at hmem
  have hroot : oneName.absoluteRoot ⟨"/r"⟩ = .ok ⟨"/r"⟩ := rfl
  have hrun := apply_eq (sees false b.work.tree) b.work.tree b.work.store hroot hroot rfl
  obtain ⟨rfl, -⟩ := Prod.mk.inj (Except.ok.inj (hrun.symm.trans hagain))
  have hrules : oneName.profile.rules = [{ name := "rule", actions := [.rename "x.txt"] }] := rfl
  obtain ⟨x, hmem, rfl⟩ := Batch.reported_file_always (s := oneName.setting ⟨"/r"⟩) hr rfl oneName.mode hrules
    (b := start b.work.tree b.work.store (some { folder := ⟨"/r"⟩, mode := oneName.mode }))
    (List.mem_filter.2 ⟨hf, by rw [hhidden]; rfl⟩)
  have hnamed := Batch.run_skips_named (s := oneName.setting ⟨"/r"⟩) hr (by decide) rfl (by decide) (by decide) rfl
    (fun g hg => Scope.scan_named hs hp (by decide) hg) hmem
  have hname := hnamed.1 (hskip _ (List.mem_map_of_mem hmem))
  rw [hpath] at hname
  exact absurd hname (by decide +kernel)

end Job

end FileOrganizer
