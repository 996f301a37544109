import FileOrganizer.Proofs.Batch.Claims

/-! What an action does with a file that can be read: the file stays where it is or lands where nothing was, and
nothing else is taken away. -/

namespace FileOrganizer

open FileOrganizer.Tree FileOrganizer.Disk

variable {s : Setting} {f : FileInfo} {w : Workspace} {task : Task} {a : Action} {r : Effect} {t t' : Tree}
  {cwd : Place} {p q : Path} {b : ByteArray}

/-- The bytes have come to a path at which nothing was. -/
def Tree.Receives (cwd : Place) (p : Path) (b : ByteArray) (t t' : Tree) : Prop :=
  t'.read cwd p = .ok b ∧ t.node? (p.place cwd) = none

/-- The file at the path `p`, with the bytes `b`, is still there, or it is at the new path that the effect tells of. -/
structure Effect.Follows (cwd : Place) (p : Path) (b : ByteArray) (r : Effect) (t t' : Tree) : Prop where
  steady : t.Steady {p.place cwd} t'
  stays : r.newPath = none → t.Steady ∅ t'
  lands : ∀ q, r.newPath = some q → Receives cwd q b t t'

lemma Effect.Follows.of_adds (hp : t.Plain) (hs' : t'.Sound) (hadd : t.Adds t') (hnew : r.newPath = none) :
    r.Follows cwd p b t t' :=
  ⟨hadd.steady hp hs', fun _ => hadd.steady hp hs', fun q hq => by simp [hnew] at hq⟩

namespace Task

variable (hs : w.tree.Sound) (hp : w.tree.Plain) (hread : w.tree.read s.host.cwd f.path = .ok b)

include hs hp hread

/-- The file and what is on record about it go to the target, or neither goes anywhere. -/
lemma moveTo_cases (target : Path) (told : String) (why : Fault → String) :
    ((moveTo s f w target told why).1 = .failed (moveTo s f w target told why).1.message ∧
        (moveTo s f w target told why).2.tree.Sound ∧ w.tree.Adds (moveTo s f w target told why).2.tree ∧
        (moveTo s f w target told why).2.store = w.store) ∨
      ((moveTo s f w target told why).1.newPath = some target ∧
        Moved s.host.cwd f.path target b w.tree (moveTo s f w target told why).2.tree ∧
        w.tree.node? (target.place s.host.cwd) = none ∧
        (moveTo s f w target told why).2.store = w.store.rename (s.host.key f.path) (s.host.key target)) := by
  rcases hmove : moveFile s.host.toActor f.path target w.tree with ⟨e | _, t'⟩
  · refine Or.inl ?_
    unfold moveTo
    rw [Workspace.disk_eq, hmove]
    exact ⟨rfl, (moveFile_adds hs hmove).1, (moveFile_adds hs hmove).2, rfl⟩
  · refine Or.inr ?_
    unfold moveTo
    rw [Workspace.disk_eq, hmove]
    exact ⟨rfl, moved_of_moveFile hs hp hread hmove, moveFile_free hs hp hread hmove, rfl⟩

lemma moveTo_follows (target : Path) (told : String) (why : Fault → String) :
    (moveTo s f w target told why).1.Follows s.host.cwd f.path b w.tree (moveTo s f w target told why).2.tree := by
  rcases moveTo_cases hs hp hread target told why with ⟨hfailed, hs', hadd, -⟩ | ⟨hnew, hmoved, hfree, -⟩
  · exact .of_adds hp hs' hadd (by rw [hfailed]; rfl)
  · refine ⟨hmoved.steady, fun hnone => ?_, fun q hq => ?_⟩
    · rw [hnew] at hnone
      cases hnone
    · obtain rfl : target = q := Option.some.inj (hnew.symm.trans hq)
      exact ⟨hmoved.read, hfree⟩

lemma perform_follows (hdel : task ≠ .delete) (hlaunch : ∀ p as n, task ≠ .launch p as n)
    (hspare : task.Spares s w) :
    (task.perform s f w).1.Follows s.host.cwd f.path b w.tree (task.perform s f w).2.tree := by
  have hsame : ∀ r : Effect, r.newPath = none → r.Follows s.host.cwd f.path b w.tree w.tree := fun _ =>
    .of_adds hp hs (.refl w.tree)
  cases task with
  | rename newName template =>
    unfold perform
    dsimp only
    rw [noteTemplate_tree]
    exact moveTo_follows (w := (w.claim s.host.cwd f.parent newName).2) hs hp hread _ _ _
  | transfer mode dir =>
    cases mode with
    | move =>
      unfold perform
      dsimp only
      exact moveTo_follows (w := (w.claim s.host.cwd dir f.name).2) hs hp hread _ _ _
    | copy =>
      unfold perform
      dsimp only
      rw [Workspace.disk_eq, Workspace.claim_tree]
      rcases hcopy : copyFile s.host.toActor f.path (w.claim s.host.cwd dir f.name).1.path w.tree with
        ⟨e | _, t'⟩ <;>
        exact .of_adds hp (copyFile_adds hs hcopy).1 (copyFile_adds hs hcopy).2 rfl
  | delete => exact absurd rfl hdel
  | discard =>
    unfold perform
    dsimp only
    exact moveTo_follows (w := (w.claim s.host.cwd s.trash f.name).2) hs hp hread _ _ _
  | launch program args timeout => exact absurd rfl (hlaunch program args timeout)
  | archive dir name =>
    unfold perform
    dsimp only
    rw [Workspace.disk_eq, Workspace.claim_tree]
    rcases hwrite : Archive.write s.host f.path f.name (w.claim s.host.cwd dir name).1.path w.tree with ⟨e | _, t'⟩
    · dsimp only
      rw [Workspace.disk_eq]
      dsimp only
      exact .of_adds hp (Archive.cleanUp_keeps hs hspare hwrite).1 (Archive.cleanUp_adds hs hp hspare hwrite) rfl
    · exact .of_adds hp (Archive.write_cases hs hwrite).1 (Archive.adds_of_write hs hwrite) rfl
  | extract dir name =>
    unfold perform
    dsimp only
    rw [Workspace.claim_tree]
    rcases hextract : Archive.extract s.host f.path (w.claim s.host.cwd dir name).1.path w.tree with
      ⟨⟨e | _, made⟩, t'⟩ <;>
      exact .of_adds hp (Archive.extract_adds hs hextract).1 (Archive.extract_adds hs hextract).2 rfl
  | makeDirs dir =>
    unfold perform
    dsimp only
    rw [Workspace.disk_eq]
    rcases hmake : Disk.makeDirs s.host.toActor dir w.tree with ⟨e | _, t'⟩ <;>
      exact .of_adds hp (makeDirs_addsDirs hs hmake).1 (makeDirs_addsDirs hs hmake).2.adds rfl
  | addTag tag =>
    unfold perform
    dsimp only
    split <;> exact hsame _ rfl
  | removeTag tag =>
    unfold perform
    dsimp only
    split <;> exact hsame _ rfl
  | setColor color => exact hsame _ rfl
  | mark tag twin =>
    unfold perform
    dsimp only
    rcases w.store.index s.host w.tree f.path with ⟨e | print, store⟩
    · exact hsame _ rfl
    · cases twin <;> exact hsame _ rfl

lemma copy_receives {dir : Path} (h : ((transfer .copy dir).perform s f w).1.output = some q) :
    ((transfer .copy dir).perform s f w).1.newPath = none ∧
      Receives s.host.cwd q b w.tree ((transfer .copy dir).perform s f w).2.tree := by
  unfold perform at h ⊢
  dsimp only at h ⊢
  rw [Workspace.disk_eq, Workspace.claim_tree] at h ⊢
  rcases hcopy : copyFile s.host.toActor f.path (w.claim s.host.cwd dir f.name).1.path w.tree with ⟨e | _, t'⟩
  · rw [hcopy] at h
    cases h
  · rw [hcopy] at h
    obtain rfl : (w.claim s.host.cwd dir f.name).1.path = q := Option.some.inj h
    exact ⟨rfl, copyFile_read hs hp hread hcopy⟩

end Task

namespace Action

/-- No archive is sent to a directory by a path with `..`. -/
def SendsDown (s : Setting) (f : FileInfo) (a : Action) : Prop :=
  ∀ d, a = .archive (some d) → Part.up ∉ (Template.directory d f s.root).parts

section

variable (hs : w.tree.Sound) (hp : w.tree.Plain) (hread : w.tree.read s.host.cwd f.path = .ok b)

include hs hp hread

/-- An archive is put under a free name, in a directory that a path without `..` leads to, or in that of its file. -/
lemma spares_of_judge (hstem : '/' ∉ f.stem.toList) (hdown : a.SendsDown s f) (h : a.judge s w f = .ok task) :
    task.Spares s w := by
  cases task with
  | archive dir name =>
    obtain ⟨d, rfl⟩ := judge_archive h
    obtain ⟨heq, -⟩ := judgeArchive_ok (by rwa [judge] at h)
    obtain ⟨rfl, rfl⟩ := Task.archive.inj heq
    have hfree : w.isFree s.host.cwd (w.claim s.host.cwd (archiveDir s f d) (f.stem ++ ".zip")).1.path = true :=
      Workspace.claim_isFree w _ _ _
    obtain ⟨k, hk⟩ := Workspace.claim_path w s.host.cwd (archiveDir s f d) (f.stem ++ ".zip")
    have hvariant := FileName.proper_variant (FileName.proper_zip hstem) k
    unfold Task.Spares
    dsimp only
    rw [hk] at hfree ⊢
    have hno : w.tree.has s.host.cwd ((archiveDir s f d).child (FileName.numbered (f.stem ++ ".zip") k)) = false := by
      unfold Workspace.isFree at hfree
      simp at hfree
      exact hfree.1
    cases d with
    | none =>
      obtain ⟨d, n, hpar⟩ := parentOf_of_read hs hp hread
      exact Archive.clear_of_sibling hs hp hvariant hpar hno
    | some d =>
      refine Archive.clear_of_level hs hp (Path.endsInSlash_child hvariant) ?_ hno
      rw [Path.parts_child hvariant]
      simpa [archiveDir] using hdown d rfl
  | _ => trivial

lemma run_follows (hdry : s.config.dryRun = false) (hdel : a ≠ .delete)
    (hlaunch : ∀ p as n, a ≠ .runCommand p as n) (hstem : '/' ∉ f.stem.toList) (hdown : a.SendsDown s f) :
    (a.run s f w).1.Follows s.host.cwd f.path b w.tree (a.run s f w).2.tree := by
  unfold run
  cases hj : a.judge s w f with
  | error r => exact .of_adds hp hs (.refl _) (judge_barren hj).idle.2
  | ok task =>
    dsimp only
    rw [if_neg (by simp [hdry])]
    refine Task.perform_follows hs hp hread ?_ ?_ (spares_of_judge hs hp hread hstem hdown hj)
    · rintro rfl
      exact hdel (judge_delete hj).1
    · rintro p as n rfl
      obtain ⟨p, as, n, ha⟩ := judge_launch hj
      exact hlaunch p as n ha

lemma run_copy_receives {d : String} (hdry : s.config.dryRun = false) (h : ((copy d).run s f w).1.output = some q) :
    ((copy d).run s f w).1.newPath = none ∧ Receives s.host.cwd q b w.tree ((copy d).run s f w).2.tree := by
  unfold run at h ⊢
  cases hj : (copy d).judge s w f with
  | error r =>
    rw [hj] at h
    simp [(judge_barren hj).output] at h
  | ok task =>
    obtain ⟨rfl, -⟩ := judgeTransfer_ok (by rwa [judge] at hj)
    rw [hj] at h
    dsimp only at h ⊢
    rw [if_neg (by simp [hdry])] at h ⊢
    exact Task.copy_receives hs hp hread h

end

end Action

end FileOrganizer
