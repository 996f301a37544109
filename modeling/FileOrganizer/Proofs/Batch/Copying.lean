import FileOrganizer.Proofs.Batch.Single
import FileOrganizer.Proofs.Tree.Linked

/-! Files that have been copied by a rule have copies that the next batch finds. The names under which copies were made
leave no gap, whatever links there are in the tree, as long as none of them has to do with the log. -/

namespace FileOrganizer

open FileOrganizer.Tree FileOrganizer.Disk

variable {s : Setting} {r : Rule} {f : FileInfo} {fs : List FileInfo} {w : Workspace} {b : Batch} {t t' : Tree}
  {who : Actor} {p q dir : Path} {d name : String} {n : String}

namespace UndoLog

/-- The places that have the name of a log. -/
def named : Set Place := {q | q.getLast? = some fileName}

/-- A log is written where its name is, if no link is in the way. -/
lemma save_persists {l : UndoLog} {res : Except Fault Unit} (hs : t.Sound) (hm : t.Unlinked fileName)
    (h : l.save who t = (res, t')) : t.Persists named t' := by
  unfold save at h
  rw [run_bind] at h
  rcases hmk : makeDirs who l.folder t with ⟨rm, t₁⟩
  obtain ⟨hs₁, hadd⟩ := makeDirs_addsDirs hs hmk
  have hfirst : t.Persists named t₁ := .of_adds hs₁ hadd.adds
  have hm₁ := hfirst.unlinked hm
  have hends := (endsIn_child (by decide) : EndsIn (l.folder.child fileName) fileName).1
  rw [hmk] at h
  cases rm with
  | error e =>
    cases h
    exact hfirst
  | ok a =>
    dsimp only [change] at h
    cases hw : writeFile who (file l.folder) l.toJson.pretty.toUTF8 t₁ with
    | error e =>
      rw [hw] at h
      cases h
      exact hfirst
    | ok t₂ =>
      rw [hw] at h
      cases h
      have hs' := sound_of_writeFile hs₁ hw
      rcases writeFile_ok hs₁ hw with ⟨q, b, a, hstat, -, hset⟩ | ⟨q, hloc, -, hset⟩
      · have hfile := at?_file.1 (stat_ok hs₁ hstat).1
        have hname := (locate_last hs₁ hm₁ (stat_eq_ok.1 hstat) (not_isDirAt_of_file hfile)).2 hends
        exact hfirst.trans (.of_sets hs' hset hname (Or.inr ⟨b, a, hfile⟩))
      · have hnone := node?_of_locate hs₁ hloc
        have hname := (locate_last hs₁ hm₁ hloc (not_isDirAt_of_none hnone)).2 hends
        exact hfirst.trans (.of_sets hs' hset hname (Or.inl hnone))

end UndoLog

namespace Batch

lemma note_persists (hs : b.work.tree.Sound) (hm : b.work.tree.Unlinked UndoLog.fileName) (host : Host) (r : UndoRecord) :
    b.work.tree.Persists UndoLog.named (note host b r).work.tree := by
  cases hsession : b.session with
  | none =>
    unfold note
    rw [hsession]
    exact .refl hs
  | some session =>
    rw [note_eq host hsession]
    exact UndoLog.save_persists hs hm rfl

lemma notes_persists (hs : b.work.tree.Sound) (hm : b.work.tree.Unlinked UndoLog.fileName) (host : Host)
    (rs : List UndoRecord) : b.work.tree.Persists UndoLog.named (rs.foldl (note host) b).work.tree := by
  induction rs generalizing b with
  | nil => exact .refl hs
  | cons r rs ih =>
    have hone := note_persists hs hm host r
    exact hone.trans (ih hone.sound (hone.unlinked hm))

lemma notes_claims (host : Host) (rs : List UndoRecord) (b : Batch) :
    (rs.foldl (note host) b).work.claims = b.work.claims := by
  induction rs generalizing b with
  | nil => rfl
  | cons r rs ih =>
    rw [List.foldl_cons, ih]
    unfold note
    split <;> rfl

end Batch

/-- A file whose name is not that of a log stays as it is when a log is written. -/
lemma Tree.Persists.stat_unnamed {cwd l : Place} {c : ByteArray} {a : Attrs} (h : t.Persists UndoLog.named t')
    (hs : t.Sound) (hm : t.Unlinked UndoLog.fileName) (hpn : EndsIn p n) (hn : n ≠ UndoLog.fileName)
    (hstat : t.stat cwd p = .ok (l, .file c a)) : t'.stat cwd p = .ok (l, .file c a) := by
  refine h.stat hs hstat fun hl => hn ?_
  have hfile := not_isDirAt_of_file (at?_file.1 (stat_ok hs hstat).1)
  have hlast := (locate_last hs hm (stat_eq_ok.1 hstat) hfile).1 hl
  exact Option.some.inj (hpn.1.symm.trans hlast)

namespace FileInfo

/-- The file is described as it stands in the tree, and it is not a log. -/
structure Listed (who : Actor) (t : Tree) (f : FileInfo) : Prop where
  read : FileInfo.read who t f.path = .ok f
  regular : f.isDir = false
  ne_log : f.name ≠ UndoLog.fileName

namespace Listed

lemma stat (h : f.Listed who t) (hs : t.Sound) : ∃ l b a, t.stat who.cwd f.path = .ok (l, .file b a) := by
  have hread := h.read
  unfold FileInfo.read at hread
  split at hread
  · cases hread
  · next full hfull =>
    split at hread
    · cases hread
    · next l e hstat =>
      have hfile := h.regular
      have hpath : full = f.path := congrArg FileInfo.path (Except.ok.inj hread)
      have hdir := congrArg FileInfo.isDir (Except.ok.inj hread)
      subst hpath
      cases e with
      | file b a => exact ⟨l, b, a, hstat⟩
      | dir a => exact absurd (hdir.trans hfile) (by simp)
      | link x => exact absurd (at?_link.1 (stat_ok hs hstat).1) (locate_not_link hs (stat_eq_ok.1 hstat) x)

lemma named (h : f.Listed who t) (hs : t.Sound) : EndsIn f.path f.name ∧ Proper f.name := by
  obtain ⟨l, b, a, hstat⟩ := h.stat hs
  obtain ⟨n, hends⟩ := endsIn_of_stat hs hstat
  have hlast : (segments f.path.chars).getLast? = some n := hends.steps.1 ▸ hends.1
  have hbody : f.path.body.getLast? = some (.name n) := Path.getLast?_parts hlast hends.2.1 hends.2.2
  have hname : f.path.fileName? = some n := by
    rw [Path.fileName?, Path.parts_eq, List.getLast?_append, hbody]
    rfl
  obtain rfl : f.name = n := by rw [(named_read h.read).name_eq, Path.fileName, hname, Option.getD_some]
  exact ⟨hends, Path.proper_fileName hname⟩

lemma persists (h : f.Listed who t) (hs : t.Sound) (hm : t.Unlinked UndoLog.fileName)
    (hp : t.Persists UndoLog.named t') : f.Listed who t' := by
  refine ⟨?_, h.regular, h.ne_log⟩
  obtain ⟨l, c, a, hstat⟩ := h.stat hs
  have hstat' := hp.stat_unnamed hs hm (h.named hs).1 h.ne_log hstat
  have hread := h.read
  have hfull := (read_eq h.read).1
  unfold FileInfo.read at hread ⊢
  rw [hfull] at hread ⊢
  dsimp only at hread ⊢
  rw [hstat] at hread
  rw [hstat', hread]

lemma congr {who' : Actor} (h : f.Listed who t) (hcwd : who'.cwd = who.cwd) : f.Listed who' t where
  read := by rw [← h.read, FileInfo.read, FileInfo.read, hcwd]
  regular := h.regular
  ne_log := h.ne_log

end Listed

end FileInfo

namespace FileName

/-- A variant with a smaller number makes no path that is refused, if that with the greater one makes none. -/
lemma refused_numbered {j k : ℕ} (hn : Proper name) (hjk : j ≤ k) (h : refused (dir.child (numbered name k)) = none) :
    refused (dir.child (numbered name j)) = none := by
  obtain ⟨pre, hpre⟩ : ∃ pre : String, ∀ i, (dir.child (numbered name i)).text = pre ++ numbered name i := by
    have hrel : ∀ i, (⟨numbered name i⟩ : Path).isAbsolute = false := fun i => by
      have hslash := (proper_variant hn i).2.2.2
      cases hlist : (numbered name i).toList with
      | nil => simp [Path.isAbsolute, Path.chars, hlist]
      | cons c cs =>
        rw [hlist] at hslash
        have hc : c ≠ '/' := fun heq => hslash (heq ▸ List.mem_cons_self)
        simp [Path.isAbsolute, Path.chars, hlist, hc]
    by_cases hjoin : (dir.text = "" || dir.endsInSlash) = true
    · exact ⟨dir.text, fun i => by rw [Path.child, Path.join, if_neg (by simp [hrel i]), if_pos hjoin]⟩
    · exact ⟨dir.text ++ "/", fun i => by rw [Path.child, Path.join, if_neg (by simp [hrel i]), if_neg hjoin]⟩
  have hnul : ∀ i, '\x00' ∈ (dir.child (numbered name i)).chars ↔ '\x00' ∈ pre.toList ∨ '\x00' ∈ name.toList := by
    intro i
    rw [Path.chars, hpre, String.toList_append, List.mem_append, mem_numbered (by decide) (by decide)]
  have htext : ∀ i, (dir.child (numbered name i)).text ≠ "" := fun i => by simp [hpre, (proper_variant hn i).1]
  have hsize := size_numbered_le name hjk
  obtain ⟨hk, -, hlen⟩ := refused_eq_none.1 h
  refine refused_eq_none.2 ⟨fun hj => hk ((hnul k).2 ((hnul j).1 hj)), htext j, ?_⟩
  rw [hpre, String.utf8ByteSize_append] at hlen ⊢
  omega

end FileName

/-- What was claimed is there by now. -/
def Workspace.Backed (cwd : Place) (w : Workspace) : Prop :=
  ∀ q ∈ w.claims, w.tree.has cwd q = true ∧ ∃ n, EndsIn q n

/-- A name that is not free is taken by something. -/
lemma Workspace.Backed.has (h : w.Backed s.host.cwd) (hp : refused p = none) (hpn : EndsIn p n)
    (hno : w.isFree s.host.cwd p ≠ true) : w.tree.has s.host.cwd p = true := by
  by_contra hhas
  have hclaimed : w.isClaimed p = true := by
    rw [isFree, ne_eq, Bool.and_eq_true, Bool.not_eq_true', Bool.not_eq_true'] at hno
    by_contra hfree
    exact hno ⟨by simpa using hhas, by simpa using hfree⟩
  obtain ⟨q, hq, hsame⟩ := List.any_eq_true.1 hclaimed
  obtain ⟨hthere, m, hqm⟩ := h q hq
  exact hhas (has_of_same hsame hp hpn hqm hthere)

namespace FileInfo

/-- Nothing is left to be copied: the file is in the directory, or it has a copy there. -/
def IsCopied (s : Setting) (t : Tree) (dir : Path) (f : FileInfo) : Prop :=
  f.parent.same dir = true ∨ (Content.identical? s.host t f.path dir f.name).isSome = true

lemma IsCopied.persists (h : f.IsCopied s t dir) (hs : t.Sound) (hm : t.Unlinked UndoLog.fileName)
    (hf : f.Listed s.host.toActor t) (hp : t.Persists UndoLog.named t') : f.IsCopied s t' dir := by
  refine h.imp_right fun hcopy => ?_
  obtain ⟨k, hall, hne, hsame⟩ := Content.identical?_isSome.1 hcopy
  refine Content.identical?_isSome.2 ⟨k, fun j hj => hp.has hs (hall j hj), hne, ?_⟩
  obtain ⟨c, c', hread, hread', hsizes⟩ := Content.same_eq_true.1 hsame
  obtain ⟨hends, hproper⟩ := hf.named hs
  have hkeep : ∀ {q : Path} {n : String} {c : ByteArray}, EndsIn q n → n ≠ UndoLog.fileName →
      t.read s.host.cwd q = .ok c → t'.read s.host.cwd q = .ok c := by
    intro q n c hqn hn hgot
    unfold Tree.read at hgot ⊢
    split at hgot
    · cases hgot
    · next l b a hstat =>
      rw [hp.stat_unnamed hs hm hqn hn hstat]
      exact hgot
    · cases hgot
  exact Content.same_eq_true.2 ⟨c, c', hkeep hends hf.ne_log hread,
    hkeep (endsIn_child (FileName.proper_variant hproper k)) (FileName.numbered_ne_log hf.ne_log k) hread', hsizes⟩

lemma IsCopied.congr {s' : Setting} (h : f.IsCopied s t dir) (hcwd : s'.host.cwd = s.host.cwd)
    (hdigest : s'.host.digest = s.host.digest) : f.IsCopied s' t dir :=
  h.imp_right (Content.identical?_host hcwd hdigest).2

end FileInfo

lemma Outcome.refresh_of_read (h : FileInfo.read s.host.toActor w.tree f.path = .ok f) : refresh s w f = f := by
  rw [refresh, h, ite_self]

namespace Action

/-- A file that needs no copy is skipped, and any other one that is there is to be copied. -/
lemma judge_copy (hdry : s.config.dryRun = false) (hregular : f.isDir = false)
    (hthere : w.tree.has s.host.cwd f.path = true) :
    (f.IsCopied s w.tree (Template.directory d f s.root) ∧ ∃ e, (copy d).judge s w f = .error e ∧ e.status = .skipped) ∨
      ¬f.IsCopied s w.tree (Template.directory d f s.root) ∧
        (copy d).judge s w f = .ok (.transfer .copy (Template.directory d f s.root)) := by
  have horigin : (w.view s).origin s.host f.path = f.path := View.origin_of_none (by simp [Workspace.view, hdry]) _
  cases hj : (copy d).judge s w f with
  | ok task =>
    obtain ⟨rfl, -, hparent, htwin, -⟩ := judgeTransfer_ok (show judgeTransfer s w f .copy d = .ok task from hj)
    have hnone := htwin rfl
    rw [horigin] at hnone
    refine Or.inr ⟨fun hcopied => ?_, rfl⟩
    rcases hcopied with hsame | hcopy
    · rw [hparent] at hsame
      cases hsame
    · rw [hnone] at hcopy
      cases hcopy
  | error e =>
    rw [judge] at hj
    unfold judgeTransfer Workspace.isThere at hj
    dsimp only at hj
    rw [horigin, hthere] at hj
    split at hj
    · next hdir => simp [hregular] at hdir
    · split at hj
      · next hsame =>
        cases hj
        exact Or.inl ⟨Or.inl hsame, _, rfl, rfl⟩
      · split at hj
        · next q hq =>
          cases hj
          exact Or.inl ⟨Or.inr (by rw [hq]; rfl), _, rfl, rfl⟩
        · cases hj

lemma judge_copied (hdry : s.config.dryRun = false) (hs : w.tree.Sound) (hf : f.Listed s.host.toActor w.tree)
    (hcopied : f.IsCopied s w.tree (Template.directory d f s.root)) :
    ∃ e, (copy d).judge s w (Outcome.refresh s w f) = .error e ∧ e.status = .skipped := by
  obtain ⟨l, c, a, hstat⟩ := hf.stat hs
  rw [Outcome.refresh_of_read hf.read]
  rcases judge_copy hdry hf.regular (has_iff.2 ⟨_, _, hstat⟩) with ⟨-, hskip⟩ | ⟨hno, -⟩
  · exact hskip
  · exact absurd hcopied hno

/-- A file that is copied, or needs no copy, has one then. -/
lemma run_copy (hdry : s.config.dryRun = false) (hs : w.tree.Sound) (hf : f.Listed s.host.toActor w.tree)
    (hback : w.Backed s.host.cwd) (hok : ((copy d).run s f w).1.status ≠ .failed) :
    ((copy d).run s f w).2.tree.Sound ∧ w.tree.Adds ((copy d).run s f w).2.tree ∧
      ((copy d).run s f w).2.Backed s.host.cwd ∧
      f.IsCopied s ((copy d).run s f w).2.tree (Template.directory d f s.root) := by
  obtain ⟨l, c, a, hstat⟩ := hf.stat hs
  obtain ⟨hends, hproper⟩ := hf.named hs
  have hthere : w.tree.has s.host.cwd f.path = true := has_iff.2 ⟨_, _, hstat⟩
  rcases judge_copy (d := d) hdry hf.regular hthere with ⟨hcopied, e, hj, -⟩ | ⟨-, hj⟩
  · rw [run, hj]
    exact ⟨hs, .refl _, hback, hcopied⟩
  rw [run, hj] at hok ⊢
  dsimp only at hok ⊢
  rw [if_neg (by simp [hdry])] at hok ⊢
  generalize Template.directory d f s.root = dir at hok ⊢
  unfold Task.perform at hok ⊢
  dsimp only at hok ⊢
  rw [Workspace.disk_eq, Workspace.claim_tree] at hok ⊢
  obtain ⟨k, hpath, hfree, hfirst⟩ := w.claim_first s.host.cwd dir f.name
  rcases hcopy : copyFile s.host.toActor f.path (w.claim s.host.cwd dir f.name).1.path w.tree with ⟨e | _, t'⟩
  · rw [hcopy] at hok
    exact absurd rfl hok
  dsimp only
  rw [hpath] at hcopy
  obtain ⟨hs', hadd, hsource, l', a', htarget⟩ := copyFile_stat hs hstat hcopy
  have hgrown : w.tree.Persists ∅ t' := .of_adds hs' hadd
  have hchild : ∀ j, EndsIn (dir.child (FileName.numbered f.name j)) (FileName.numbered f.name j) := fun j =>
    endsIn_child (FileName.proper_variant hproper j)
  have htaken : t'.has s.host.cwd (dir.child (FileName.numbered f.name k)) = true := has_iff.2 ⟨_, _, htarget⟩
  have hrefused := refused_of_locate_ok (stat_eq_ok.1 htarget)
  refine ⟨hs', hadd, ?_, Or.inr (Content.identical?_isSome.2 ⟨k, fun j hj => ?_, ?_, ?_⟩)⟩
  · intro q hq
    rcases (List.mem_cons.1 hq : q = (w.claim s.host.cwd dir f.name).1.path ∨ q ∈ w.claims) with rfl | hq
    · rw [hpath]
      exact ⟨htaken, _, hchild k⟩
    · exact ⟨hgrown.has hs (hback q hq).1, (hback q hq).2⟩
  · rcases Nat.lt_or_eq_of_le hj with hlt | rfl
    · exact hgrown.has hs (hback.has (FileName.refused_numbered hproper hj hrefused) (hchild j) (hfirst j hlt))
    · exact htaken
  · -- The name was free, and that of the file is not.
    by_contra hsame
    have hhas := has_of_same (by simpa using hsame) hrefused (hchild k) hends hthere
    rw [Workspace.isFree, hhas] at hfree
    cases hfree
  · exact Content.same_eq_true.2 ⟨c, c, by rw [Tree.read, hsource], by rw [Tree.read, htarget], rfl, rfl⟩

end Action

namespace Batch

/-- After the rule has copied what it was to copy, every file has a copy or needs none. -/
lemma runRules_copies (hr : r.Always (.copy d)) (hdry : s.config.dryRun = false) (hs : b.work.tree.Sound)
    (hm : b.work.tree.Unlinked UndoLog.fileName) (hback : b.work.Backed s.host.cwd)
    (hfs : ∀ f ∈ fs, f.Listed s.host.toActor b.work.tree)
    (hok : ∀ o ∈ (runRules s [r] fs b).1, o.status ≠ .failed) :
    b.work.tree.Persists UndoLog.named (runRules s [r] fs b).2.work.tree ∧
      ∀ f ∈ fs, f.IsCopied s (runRules s [r] fs b).2.work.tree (Template.directory d f s.root) := by
  induction fs generalizing b with
  | nil => exact ⟨.refl hs, by simp⟩
  | cons f fs ih =>
    obtain ⟨b₁, hb₁, hsession, hrun⟩ := runRules_always hr hdry f fs b
    have hf := hfs f List.mem_cons_self
    rw [Outcome.refresh_of_read hf.read] at hb₁ hrun
    rw [hrun] at hok ⊢
    have hhead := hok _ List.mem_cons_self
    rw [Outcome.once_status] at hhead
    obtain ⟨hs₁, hadd, hback₁, hcopied⟩ := Action.run_copy hdry hs hf hback hhead
    have hfirst : b.work.tree.Persists UndoLog.named b₁.work.tree := hb₁ ▸ .of_adds hs₁ hadd
    have hnotes := notes_persists hfirst.sound (hfirst.unlinked hm) s.host (((Action.copy d).run s f b.work).1.records)
    have hclaims := notes_claims s.host (((Action.copy d).run s f b.work).1.records) b₁
    generalize (((Action.copy d).run s f b.work).1.records).foldl (note s.host) b₁ = b₂ at hnotes hclaims hok ⊢
    have hboth := hfirst.trans hnotes
    have hback₂ : b₂.work.Backed s.host.cwd := by
      intro q hq
      rw [hclaims, hb₁] at hq
      obtain ⟨hhas, hends⟩ := hback₁ q hq
      exact ⟨hnotes.has hfirst.sound (hb₁ ▸ hhas), hends⟩
    have hlisted : ∀ g ∈ f :: fs, g.Listed s.host.toActor b₂.work.tree := fun g hg => (hfs g hg).persists hs hm hboth
    obtain ⟨hrest, hall⟩ := ih hboth.sound (hboth.unlinked hm) hback₂
      (fun g hg => hlisted g (List.mem_cons_of_mem _ hg)) fun o ho => hok o (List.mem_cons_of_mem _ ho)
    refine ⟨hboth.trans hrest, fun g hg => ?_⟩
    rcases List.mem_cons.1 hg with rfl | hg
    · have hlisted₁ := hf.persists hs hm hfirst
      have hcopied₂ := (hb₁ ▸ hcopied : g.IsCopied s b₁.work.tree _).persists hfirst.sound (hfirst.unlinked hm) hlisted₁
        hnotes
      exact hcopied₂.persists hboth.sound (hboth.unlinked hm) (hlisted g List.mem_cons_self) hrest
    · exact hall g hg

end Batch

namespace Job

variable {j : Job} {root : Path} {files : List FileInfo} {store : TagStore} {rs : List FileResult}

/-- A rule that copies every file does so once: after a batch without failures the next one over the same files leaves
them alone, changes nothing, and reports no more than that unless it is a trial run. Names that collide, contents that
are the same and links in the tree do not matter, as long as the links have nothing to do with the log. -/
theorem copy_settles (host : Host) (store' : TagStore) (hs : t.Sound) (hm : t.Unlinked UndoLog.fileName)
    (hr : r.Always (.copy d)) (hrules : j.profile.rules = [r]) (hfiles : ∀ f ∈ files, f.Listed j.host.toActor t)
    (hhost : host.cwd = j.host.cwd) (hdigest : host.digest = j.host.digest)
    (h : j.apply root files t store = .ok (rs, b)) (hok : ∀ e ∈ rs, e.status ≠ .failed) :
    ∃ rs' b', { j with host := host }.apply root files b.work.tree store' = .ok (rs', b') ∧ b'.work.tree = b.work.tree ∧
      (∃ session, b'.session = some session ∧ session.log = none) ∧
      (j.config.dryRun = false → ∀ e ∈ rs', e.status = .skipped) := by
  obtain ⟨folder, root', hfolder, hroot, hvalid⟩ := apply_ok h
  have hfolder' : ({ j with host := host } : Job).absoluteRoot root = .ok folder :=
    absoluteRoot_eq_ok.2 (hhost ▸ absoluteRoot_eq_ok.1 hfolder)
  have hroot' : ({ j with host := host } : Job).absoluteRoot folder = .ok root' :=
    absoluteRoot_eq_ok.2 (hhost ▸ absoluteRoot_eq_ok.1 hroot)
  have hagain := apply_eq files b.work.tree store' hfolder' hroot' hvalid
  refine ⟨_, _, hagain, ?_⟩
  cases hdry : j.config.dryRun with
  | true =>
    obtain ⟨htree, -, hsession⟩ := apply_dry (j := { j with host := host }) hdry hagain
    exact ⟨htree, hsession, fun hno => by cases hno⟩
  | false =>
    rw [apply_eq files t store hfolder hroot hvalid] at h
    obtain ⟨rfl, hb⟩ := Prod.mk.inj (Except.ok.inj h)
    have hvisible : ∀ f ∈ Batch.visible (j.setting root') files, f.Listed j.host.toActor t := fun f hf =>
      hfiles f (List.mem_filter.1 hf).1
    have hsnd := congrArg Prod.snd (Batch.run_always (s := j.setting root') hr hdry j.mode files hrules
      (start t store (some { folder := folder, mode := j.mode })))
    have hstatus := Batch.run_always_statuses (s := j.setting root') hr hdry j.mode files hrules
      (start t store (some { folder := folder, mode := j.mode }))
    dsimp only at hsnd
    obtain ⟨hkept, hcopied⟩ := Batch.runRules_copies (s := j.setting root')
      (b := start t store (some { folder := folder, mode := j.mode })) hr hdry hs hm (fun q hq => by cases hq) hvisible
      fun o ho heq => by
        have hmem := List.mem_map_of_mem (f := Outcome.status) ho
        rw [← hstatus] at hmem
        obtain ⟨x, hx, hxo⟩ := List.mem_map.1 hmem
        exact hok _ (List.mem_map_of_mem hx) (hxo.trans heq)
    rw [← hsnd, hb] at hkept hcopied
    -- What was found or made by the first batch is found by the second.
    obtain ⟨hwork, hsession, hskipped⟩ := Batch.run_always_idle (s := ({ j with host := host } : Job).setting root')
      (b := start b.work.tree store' (some { folder := folder, mode := j.mode })) hr hdry j.mode hrules fun f hf => by
        exact Action.judge_copied hdry hkept.sound (((hvisible f hf).persists hs hm hkept).congr hhost)
          ((hcopied f hf).congr hhost hdigest)
    have htree := congrArg Workspace.tree hwork
    exact ⟨htree, ⟨_, hsession, rfl⟩, fun _ e he => by
      obtain ⟨x, hx, rfl⟩ := List.mem_map.1 he
      exact hskipped x hx⟩

section

/-- Two files with one name. -/
def namesakes : Tree := ⟨[
  (["r"], .dir ⟨⟨0, 0⟩, false⟩),
  (["r", "a.txt"], .file ⟨#[1]⟩ ⟨⟨0, 0⟩, false⟩),
  (["r", "s"], .dir ⟨⟨0, 0⟩, false⟩),
  (["r", "s", "a.txt"], .file ⟨#[2]⟩ ⟨⟨0, 0⟩, false⟩)]⟩

/-- A file, and a link from where its copy goes to where the log goes. -/
def linkedToLog : Tree := ⟨[
  (["r"], .dir ⟨⟨0, 0⟩, false⟩),
  (["r", "a.txt"], .file ⟨#[1]⟩ ⟨⟨0, 0⟩, false⟩),
  (["r", "docs"], .dir ⟨⟨0, 0⟩, false⟩),
  (["r", "docs", "a.txt"], .link "../.sortkeeper-undo.json")]⟩

/-- What two batches over the same files report. -/
def twice (j : Job) (files : List FileInfo) (t : Tree) : Option (List Status × List Status) :=
  match j.apply ⟨"/r"⟩ files t .empty with
  | .error _ => none
  | .ok (rs, b) => match j.apply ⟨"/r"⟩ files b.work.tree b.work.store with
    | .error _ => none
    | .ok (rs', _) => some (rs.map (·.status), rs'.map (·.status))

lemma twice_eq_some {xs ys : List Status} (h : j.twice files t = some (xs, ys)) : ∃ rs b rs' b',
    j.apply ⟨"/r"⟩ files t .empty = .ok (rs, b) ∧
      j.apply ⟨"/r"⟩ files b.work.tree b.work.store = .ok (rs', b') ∧
        rs.map (·.status) = xs ∧ rs'.map (·.status) = ys := by
  unfold twice at h
  split at h
  · cases h
  · next rs b hfirst =>
    split at h
    · cases h
    · next rs' b' hsecond =>
      cases h
      exact ⟨rs, b, rs', b', hfirst, hsecond, rfl, rfl⟩

end

/-- Two files with one name are copied into the directory of one of them. -/
theorem copy_settles_twice : ∃ rs b rs' b',
    (plainJob [.copy "s"]).apply ⟨"/r"⟩ [found "/r/a.txt", found "/r/s/a.txt"] namesakes .empty = .ok (rs, b) ∧
    rs.map (·.status) = [.applied, .skipped] ∧
      (plainJob [.copy "s"]).apply ⟨"/r"⟩ [found "/r/a.txt", found "/r/s/a.txt"] b.work.tree .empty = .ok (rs', b') ∧
        b'.work.tree = b.work.tree ∧ ∀ e ∈ rs', e.status = .skipped := by
  have hstatus : (plainJob [.copy "s"]).twice [found "/r/a.txt", found "/r/s/a.txt"] namesakes =
      some ([.applied, .skipped], [.skipped, .skipped]) := by decide +kernel
  obtain ⟨rs, b, -, -, hfirst, -, hrs, -⟩ := twice_eq_some hstatus
  have hplain : namesakes.Plain := plain_of_entries (by decide)
  obtain ⟨rs', b', hagain, htree, -, hskip⟩ := copy_settles (j := plainJob [.copy "s"]) plainHost .empty
    (sound_of_entries (by decide)) (fun q x hx => absurd hx (hplain q x)) ⟨rfl, rfl, rfl⟩ rfl
    (by
      rintro f (_ | ⟨_, _ | ⟨_, ⟨⟩⟩⟩)
      · exact ⟨by decide +kernel, rfl, by decide +kernel⟩
      · exact ⟨by decide +kernel, rfl, by decide +kernel⟩) rfl rfl hfirst
    fun e he heq => by
      have hmem : e.status ∈ [Status.applied, .skipped] := hrs ▸ List.mem_map_of_mem he
      simp [heq] at hmem
  exact ⟨rs, b, rs', b', hfirst, hrs, hagain, htree, hskip rfl⟩

/-- A rule that copies every file does so once, where the condition holds. -/
def CopiesOnce (p : Job → Tree → Prop) : Prop :=
  ∀ (j : Job) (r : Rule) (d : String) (root : Path) (files : List FileInfo) (t : Tree) (store : TagStore)
    (rs : List FileResult) (b : Batch), p j t → t.Sound → r.Always (.copy d) → j.profile.rules = [r] → files.Nodup →
    (∀ f ∈ files, f.Listed j.host.toActor t) → j.apply root files t store = .ok (rs, b) →
    (∀ e ∈ rs, e.status ≠ .failed) →
    ∃ rs' b', j.apply root files b.work.tree b.work.store = .ok (rs', b') ∧ ∀ e ∈ rs', e.status = .skipped

lemma not_copiesOnce {p : Job → Tree → Prop} {e : Status} (hp : p j t) (hs : t.Sound)
    (hrules : j.profile.rules = (plainJob [.copy "docs"]).profile.rules)
    (hf : (found "/r/a.txt").Listed j.host.toActor t) (h : j.twice [found "/r/a.txt"] t = some ([e], [e]))
    (hok : e ≠ .failed) (hno : e ≠ .skipped) : ¬CopiesOnce p := by
  intro honce
  obtain ⟨rs, b, rs', b', hfirst, hsecond, hrs, hrs'⟩ := twice_eq_some h
  obtain ⟨rs₂, b₂, hagain, hall⟩ := honce j _ "docs" ⟨"/r"⟩ [found "/r/a.txt"] t .empty rs b hp hs ⟨rfl, rfl, rfl⟩
    hrules (List.nodup_singleton _) (fun f hmem => List.mem_singleton.1 hmem ▸ hf) hfirst fun x hx heq => by
      have hmem : x.status ∈ [e] := hrs ▸ List.mem_map_of_mem hx
      exact hok (List.mem_singleton.1 (heq ▸ hmem)).symm
  obtain ⟨rfl, -⟩ := Prod.mk.inj (Except.ok.inj (hagain.symm.trans hsecond))
  have hmem : e ∈ rs₂.map (·.status) := hrs' ▸ List.mem_cons_self
  obtain ⟨x, hx, rfl⟩ := List.mem_map.1 hmem
  exact hno (hall x hx)

/-- A copy that is written through a link is lost where the log is written, and so is made once more. A trial run makes
no copies. -/
theorem copy_settles_fails : ¬CopiesOnce (fun j _ => j.config.dryRun = false) ∧ ¬CopiesOnce (fun _ t => t.Plain) := by
  constructor
  · exact not_copiesOnce (j := plainJob [.copy "docs"]) (t := linkedToLog) (e := .applied) rfl
      (sound_of_entries (by decide)) rfl ⟨by decide +kernel, rfl, by decide +kernel⟩ (by decide +kernel) (by simp) (by simp)
  · exact not_copiesOnce (j := { plainJob [.copy "docs"] with config := { fallback := false, dryRun := true } })
      (t := twoFiles) (e := .wouldApply) (plain_of_entries (by decide)) (sound_of_entries (by decide)) rfl
      ⟨by decide +kernel, rfl, by decide +kernel⟩ (by decide +kernel) (by simp) (by simp)

end Job

end FileOrganizer
