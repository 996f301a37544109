import FileOrganizer.Proofs.Batch.Tracking
import FileOrganizer.Proofs.Path.Resolution
import FileOrganizer.Proofs.Tree.Attributes

/-! A file that is described as it is. Looking at it once more tells nothing new but whether it is hidden, and an
action that does not fail leaves it described as it is by then. -/

namespace FileOrganizer

open FileOrganizer.Tree FileOrganizer.Disk

variable {s : Setting} {w : Workspace} {cwd l : Place} {t t' : Tree} {f g : FileInfo} {p q : Path} {a : Action}
  {b : ByteArray} {task : Task}

namespace Path

lemma isAbsolute_of_parts (h : p.parts = q.parts) (ha : q.isAbsolute = true) : p.isAbsolute = true := by
  rw [isAbsolute_iff_head] at ha ⊢
  rw [h, ha]

lemma isAbsolute_parent (ha : p.isAbsolute = true) : p.parent.isAbsolute = true := by
  unfold parent
  cases hq : p.parent? with
  | none => exact ha
  | some q => exact (parent?_body hq).1.trans ha

lemma parent_parts (h : p.parts = q.parts) (ha : q.isAbsolute = true) : p.parent.parts = q.parent.parts := by
  have hp := isAbsolute_of_parts h ha
  rw [parts_of_absolute (isAbsolute_parent hp), parts_of_absolute (isAbsolute_parent ha)]
  have hbody := body_of_parts h
  by_cases hnil : q.body = []
  · rw [parent, parent, parent?_root ha hnil, parent?_root hp (hbody.trans hnil)]
    exact congrArg (List.cons Part.root) hbody
  · rw [(parent_body hnil).2, (parent_body (hbody ▸ hnil)).2, hbody]

lemma fileName?_of_parts (h : p.parts = q.parts) : p.fileName? = q.fileName? := by rw [fileName?, fileName?, h]

lemma fileNames_of_parts (h : p.parts = q.parts) (d : Bool) : FileNames.of p d = FileNames.of q d := by
  rw [FileNames.of, FileNames.of, fileName, fileName, fileName?_of_parts h]

end Path

namespace FileInfo

/-- The description fits the regular file that its path leads to, from the top. -/
structure Current (cwd : Place) (t : Tree) (f : FileInfo) : Prop where
  absolute : f.path.isAbsolute = true
  named : f.Named
  regular : f.isDir = false
  there : ∃ l b a, t.stat cwd f.path = .ok (l, .file b a) ∧ f.size = b.size ∧ f.modified = a.mtime ∧
    f.readOnly = a.readOnly

/-- The descriptions are the same, but for the spelling of the path and whether the file is hidden. -/
structure Alike (f g : FileInfo) : Prop where
  names : f.toFileNames = g.toFileNames
  parts : f.path.parts = g.path.parts
  size : f.size = g.size
  modified : f.modified = g.modified
  readOnly : f.readOnly = g.readOnly
  isDir : f.isDir = g.isDir

lemma Alike.refl (f : FileInfo) : f.Alike f := ⟨rfl, rfl, rfl, rfl, rfl, rfl⟩

lemma read_eq {who : Actor} (h : FileInfo.read who t p = .ok g) : p.absolute? who.cwd = some g.path ∧
    ∃ l e, t.stat who.cwd g.path = .ok (l, e) ∧ ∀ b a, e = .file b a →
      g.isDir = false ∧ g.size = b.size ∧ g.modified = a.mtime ∧ g.readOnly = a.readOnly := by
  unfold FileInfo.read at h
  split at h
  · cases h
  · next full hfull =>
    split at h
    · cases h
    · next l e hstat =>
      cases h
      refine ⟨hfull, l, e, hstat, ?_⟩
      rintro b a rfl
      exact ⟨rfl, rfl, rfl, rfl⟩

/-- What was read under a path is read under the path that was told. -/
lemma read_again {who : Actor} (ha : p.isAbsolute = true) (h : FileInfo.read who t p = .ok g) :
    FileInfo.read who t g.path = .ok g := by
  have hg := Path.absolute?_absolute? ha (read_eq h).1
  unfold FileInfo.read at h ⊢
  rw [(show p.absolute? who.cwd = some g.path from ?_)] at h
  · rw [hg]
    exact h
  · split at h
    · cases h
    · next full hfull =>
      split at h
      · cases h
      · cases h
        exact hfull

namespace Current

lemma stat (h : f.Current cwd t) (hp : t.Plain) :
    ∃ b a, t.stat cwd f.path = .ok (f.path.place cwd, .file b a) ∧ f.size = b.size ∧ f.modified = a.mtime ∧
      f.readOnly = a.readOnly := by
  obtain ⟨l, b, a, hstat, hrest⟩ := h.there
  exact ⟨b, a, stat_place hp hstat ▸ hstat, hrest⟩

lemma adds (h : f.Current cwd t) (hs : t.Sound) (hp : t.Plain) (hadd : t.Adds t') : f.Current cwd t' := by
  obtain ⟨l, b, a, hstat, hrest⟩ := h.there
  refine ⟨h.absolute, h.named, h.regular, l, b, a, ?_, hrest⟩
  have hfile := at?_file.1 (stat_ok hs hstat).1
  rw [stat_eq_ok, locate_steady hp (hadd.plain hp) (fun _ => hadd.isDirAt) (stat_eq_ok.1 hstat),
    at?_file.2 ((hadd.keep (by simp [hfile])).trans hfile)]

lemma moved {who : Actor} (h : f.Current who.cwd t) (hs : t.Sound) (hp : t.Plain) (ha : p.isAbsolute = true)
    (hmove : moveFile who f.path p t = (.ok (), t')) :
    t'.Sound ∧ t'.Plain ∧ (f.relocated p).Current who.cwd t' := by
  obtain ⟨b, a, hstat, hrest⟩ := h.stat hp
  have hread : t.read who.cwd f.path = .ok b := by rw [Tree.read, hstat]
  have hmoved := moved_of_moveFile hs hp hread hmove
  obtain ⟨a', hstat'⟩ := stat_of_read hmoved.sound hmoved.plain hmoved.read
  have hnode := at?_file.1 (stat_ok hmoved.sound hstat').1
  rw [moveFile_node hs hp hstat hmove] at hnode
  cases hnode
  exact ⟨hmoved.sound, hmoved.plain, ha, named_relocated f p, h.regular, _, b, a, hstat', hrest⟩

end Current

/-- The description that is read in place of another one. -/
lemma Current.of_read {who : Actor} (hcwd : ∀ n ∈ who.cwd, Proper n) (hs : t.Sound) (hp : t.Plain)
    (h : f.Current who.cwd t) (hread : FileInfo.read who t f.path = .ok g) :
    g.Alike f ∧ g.Current who.cwd t ∧ t.stat who.cwd g.path = t.stat who.cwd f.path := by
  obtain ⟨hfull, l, e, hstat, hfacts⟩ := read_eq hread
  obtain ⟨b, a, hstat', hsize, hmodified, hreadOnly⟩ := h.stat hp
  have hplace : l = f.path.place who.cwd := (stat_place hp hstat).trans (Path.place_absolute? hcwd hfull)
  obtain rfl : e = .file b a := by
    have hat := (stat_ok hs hstat).1
    rw [hplace, (stat_ok hs hstat').1] at hat
    exact (Option.some.inj hat).symm
  obtain ⟨hdir, hsize', hmodified', hreadOnly'⟩ := hfacts b a rfl
  have hparts : g.path.parts = f.path.parts := by
    rw [Path.parts_absolute? hcwd hfull, if_pos h.absolute, Path.parts_of_absolute h.absolute]
    rfl
  have hnames : g.toFileNames = f.toFileNames := by
    rw [named_read hread, h.named, hdir, h.regular, Path.fileNames_of_parts hparts]
  refine ⟨⟨hnames, hparts, hsize'.trans hsize.symm, hmodified'.trans hmodified.symm, hreadOnly'.trans hreadOnly.symm,
    hdir.trans h.regular.symm⟩, ⟨Path.isAbsolute_of_parts hparts h.absolute, named_read hread, hdir, _, b, a, hstat,
    hsize', hmodified', hreadOnly'⟩, ?_⟩
  rw [hstat, hstat', hplace]

end FileInfo

namespace Outcome

lemma refresh_parts (hcwd : ∀ n ∈ s.host.cwd, Proper n) (ha : s.config.dryRun = false → f.path.isAbsolute = true) :
    (refresh s w f).path.parts = f.path.parts := by
  unfold refresh
  split
  · rfl
  · next hdry =>
    have habs := ha (by simpa using hdry)
    split
    · next hread =>
      rw [Path.parts_absolute? hcwd (FileInfo.read_eq hread).1, if_pos habs, Path.parts_of_absolute habs]
      rfl
    · rfl

lemma refresh_refresh (ha : f.path.isAbsolute = true) : refresh s w (refresh s w f) = refresh s w f := by
  by_cases hdry : s.config.dryRun = true
  · rw [refresh, if_pos hdry]
  · cases hread : FileInfo.read s.host.toActor w.tree f.path with
    | error e =>
      have hsame : refresh s w f = f := by rw [refresh, if_neg hdry, hread]
      rw [hsame, hsame]
    | ok g =>
      have hg : refresh s w f = g := by rw [refresh, if_neg hdry, hread]
      rw [hg, refresh, if_neg hdry, FileInfo.read_again ha hread]

lemma refresh_current (hcwd : ∀ n ∈ s.host.cwd, Proper n) (hs : w.tree.Sound) (hp : w.tree.Plain)
    (h : f.Current s.host.cwd w.tree) : (refresh s w f).Alike f ∧ (refresh s w f).Current s.host.cwd w.tree ∧
      w.tree.stat s.host.cwd (refresh s w f).path = w.tree.stat s.host.cwd f.path := by
  unfold refresh
  split
  · exact ⟨.refl f, h, rfl⟩
  · split
    · next hread => exact h.of_read hcwd hs hp hread
    · exact ⟨.refl f, h, rfl⟩

end Outcome

namespace Content

variable {host : Host}

lemma text_congr (h : t.stat host.cwd p = t.stat host.cwd q) (n : Nat) : text host t n p = text host t n q := by
  rw [text, text, Tree.read, Tree.read, h]

end Content

namespace View

variable {v : View} {host : Host}

lemma origin_of_none (hv : v.pending = none) (p : Path) : v.origin host p = p := by rw [origin, hv]

lemma twin?_congr (hv : v.pending = none) (hkey : host.key p = host.key q)
    (h : t.stat host.cwd p = t.stat host.cwd q) : v.twin? host p t = v.twin? host q t := by
  simp only [twin?, origin_of_none hv, hv, TagStore.twin?, Content.size, Content.quick, Content.full, Tree.read, h,
    hkey]

end View

/-- A condition sees no difference between descriptions that are alike, unless it asks for hidden files. -/
theorem Condition.holds_congr {v : Sight} {c : Condition} (hc : c ≠ .isHidden) (hv : v.view.pending = none)
    (h : f.Alike g) (ha : g.path.isAbsolute = true) (hkey : v.host.key f.path = v.host.key g.path)
    (hstat : v.tree.stat v.host.cwd f.path = v.tree.stat v.host.cwd g.path) : c.holds v f = c.holds v g := by
  have hname : f.name = g.name := congrArg FileNames.name h.names
  have hstem : f.stem = g.stem := congrArg FileNames.stem h.names
  have hext : f.ext = g.ext := congrArg FileNames.ext h.names
  have hparent : f.parent.fileName? = g.parent.fileName? := Path.fileName?_of_parts (Path.parent_parts h.parts ha)
  have hcolor : v.view.color v.host f.path = v.view.color v.host g.path := by
    simp only [View.color, View.storeKey, View.origin_of_none hv, hkey]
  unfold holds
  cases c with
  | isHidden => exact absurd rfl hc
  | parentContains text => simp only [hparent]
  | contentContains text => simp only [View.origin_of_none hv, Content.text_congr hstat, h.isDir]
  | colorIs c => simp only [hcolor]
  | hasTag tag => simp only [View.tags, View.storeKey, View.origin_of_none hv, hkey]
  | isDuplicate => simp only [h.isDir, View.twin?_congr hv hkey hstat]
  | fieldEquals name value =>
    have hkind : FileKind.ofPath? v.host v.tree f.path = FileKind.ofPath? v.host v.tree g.path := by
      rw [FileKind.ofPath?, FileKind.ofPath?, Tree.read, Tree.read, hstat]
    have hbuiltIn : builtInField v f name = builtInField v g name := by
      rw [builtInField, builtInField, hname, hstem, hext, h.size, hcolor, View.origin_of_none hv,
        View.origin_of_none hv, hkind]
    have hfield : field v f name = field v g name := by
      rw [field, field, hbuiltIn, View.field, View.field, View.storeKey, View.storeKey, View.origin_of_none hv,
        View.origin_of_none hv, hkey]
    simp only [hfield]
  | _ => simp only [hname, hstem, hext, h.size, h.modified, h.readOnly, h.isDir]

/-- A rule that does not ask for hidden files sees no difference when a file that is described as it is gets looked at
once more. In a dry run nothing is looked at. -/
lemma Rule.matches?_refresh {r : Rule} (hcwd : ∀ n ∈ s.host.cwd, Proper n)
    (hknown : s.config.dryRun = false → w.tree.Sound ∧ w.tree.Plain ∧ f.Current s.host.cwd w.tree)
    (hhidden : .isHidden ∉ r.conditions) :
    r.matches? (w.sight s) (Outcome.refresh s w f) = r.matches? (w.sight s) f := by
  by_cases hdry : s.config.dryRun = true
  · rw [Outcome.refresh, if_pos hdry]
  · have hdry' : s.config.dryRun = false := by simpa using hdry
    obtain ⟨hs, hp, hcur⟩ := hknown hdry'
    obtain ⟨halike, -, hstat⟩ := Outcome.refresh_current hcwd hs hp hcur
    have hpending : (w.sight s).view.pending = none := by
      simp [Workspace.sight, Workspace.view, hdry']
    have hkey : s.host.key (Outcome.refresh s w f).path = s.host.key f.path := by
      have htext := text_of_absolute hcur.absolute
      have htext' := text_of_absolute (Path.isAbsolute_of_parts halike.parts hcur.absolute)
      apply (Actor.key_inj hcwd htext' htext).2
      exact Path.place_of_parts halike.parts
    have hholds : ∀ c ∈ r.conditions, c.holds (w.sight s) (Outcome.refresh s w f) = c.holds (w.sight s) f := by
      intro c hc
      exact Condition.holds_congr (fun heq => hhidden (heq ▸ hc)) hpending halike hcur.absolute hkey hstat
    unfold Rule.matches?
    split
    · rw [Bool.eq_iff_iff, List.all_eq_true, List.all_eq_true]
      exact forall₂_congr fun c hc => by rw [hholds c hc]
    · rw [Bool.eq_iff_iff, List.any_eq_true, List.any_eq_true]
      exact exists_congr fun c => and_congr_right fun hc => by rw [hholds c hc]

/-- What is known of the file after the effect. -/
def Effect.take (e : Effect) (f : FileInfo) : FileInfo :=
  match e.newPath with
  | none => f
  | some p => f.relocated p

namespace Outcome

lemma runAction_fst (o : Outcome) (rule : String) (a : Action) (w : Workspace) : (o.runAction s rule a w).1 =
    { o with
      file := (a.run s (refresh s w o.file) w).1.take (refresh s w o.file)
      steps := o.steps ++ [⟨rule, a, (a.run s (refresh s w o.file) w).1⟩] } := by
  unfold runAction Effect.take
  dsimp only
  cases (a.run s (refresh s w o.file) w).1.newPath with
  | none => rfl
  | some p => rfl

/-- In a run that is not a trial nothing happens but what the action does. -/
lemma runAction_real (hdry : s.config.dryRun = false) (o : Outcome) (rule : String) (a : Action) (w : Workspace) :
    (o.runAction s rule a w).2 = (a.run s (refresh s w o.file) w).2 := by
  unfold runAction
  dsimp only
  split
  · rfl
  · rw [if_neg (by simp [hdry])]

end Outcome

namespace Task

section

variable (hs : w.tree.Sound) (hp : w.tree.Plain) (hf : f.Current s.host.cwd w.tree)

include hs hp hf

lemma moveTo_current {target : Path} (ha : target.isAbsolute = true) {told : String} {why : Fault → String}
    (hok : (moveTo s f w target told why).1.status ≠ .failed) :
    (moveTo s f w target told why).2.tree.Sound ∧ (moveTo s f w target told why).2.tree.Plain ∧
      ((moveTo s f w target told why).1.take f).Current s.host.cwd (moveTo s f w target told why).2.tree := by
  unfold moveTo at hok ⊢
  rw [Workspace.disk_eq] at hok ⊢
  rcases hmove : moveFile s.host.toActor f.path target w.tree with ⟨e | u, t'⟩
  · simp [hmove, Effect.failed] at hok
  · exact hf.moved hs hp ha hmove

/-- An addition to the tree leaves the file described as it is. -/
lemma adds_current {e : Effect} {v : Workspace} (hs' : v.tree.Sound) (hadd : w.tree.Adds v.tree)
    (hnew : e.newPath = none) :
    v.tree.Sound ∧ v.tree.Plain ∧ (e.take f).Current s.host.cwd v.tree := by
  refine ⟨hs', hadd.plain hp, ?_⟩
  rw [Effect.take, hnew]
  exact hf.adds hs hp hadd

end

lemma isAbsolute_claim {dir : Path} (ha : dir.isAbsolute = true) (name : String) :
    (w.claim s.host.cwd dir name).1.path.isAbsolute = true := by
  obtain ⟨k, hk⟩ := Workspace.claim_path w s.host.cwd dir name
  rw [hk, Path.child, Path.isAbsolute_join (text_of_absolute ha), ha, Bool.true_or]

/-- A task adds to the tree, as long as it does not fail, or else it moves the file to a name that was claimed. -/
lemma perform_cases (hs : w.tree.Sound) (hdel : task ≠ .delete) (hlaunch : ∀ p as n, task ≠ .launch p as n) :
    (task.perform s f w).1.newPath = none ∧ ((task.perform s f w).1.status ≠ .failed →
        (task.perform s f w).2.tree.Sound ∧ w.tree.Adds (task.perform s f w).2.tree) ∨
      ∃ dir name told why, (dir = f.parent ∨ task = .transfer .move dir ∨ task = .discard) ∧
        (task.perform s f w).1 = (moveTo s f (w.claim s.host.cwd dir name).2
          (w.claim s.host.cwd dir name).1.path told why).1 ∧
        (task.perform s f w).2.tree =
          (moveTo s f (w.claim s.host.cwd dir name).2 (w.claim s.host.cwd dir name).1.path told why).2.tree := by
  have hsame : w.tree.Sound ∧ w.tree.Adds w.tree := ⟨hs, .refl _⟩
  cases task with
  | rename newName template =>
    unfold perform
    dsimp only
    rw [noteTemplate_tree]
    exact Or.inr ⟨f.parent, newName, _, _, Or.inl rfl, rfl, rfl⟩
  | transfer mode dir =>
    cases mode with
    | move =>
      unfold perform
      dsimp only
      exact Or.inr ⟨dir, f.name, _, _, Or.inr (Or.inl rfl), rfl, rfl⟩
    | copy =>
      unfold perform
      dsimp only
      rw [Workspace.disk_eq, Workspace.claim_tree]
      rcases hcopy : copyFile s.host.toActor f.path (w.claim s.host.cwd dir f.name).1.path w.tree with ⟨e | _, t'⟩ <;>
        exact Or.inl ⟨rfl, fun _ => copyFile_adds hs hcopy⟩
  | delete => exact absurd rfl hdel
  | discard =>
    unfold perform
    dsimp only
    exact Or.inr ⟨s.trash, f.name, _, _, Or.inr (Or.inr rfl), rfl, rfl⟩
  | launch program args timeout => exact absurd rfl (hlaunch program args timeout)
  | archive dir name =>
    unfold perform
    dsimp only
    rw [Workspace.disk_eq, Workspace.claim_tree]
    rcases hwrite : Archive.write s.host f.path f.name (w.claim s.host.cwd dir name).1.path w.tree with ⟨e | _, t'⟩
    · exact Or.inl ⟨rfl, fun hok => absurd rfl hok⟩
    · exact Or.inl ⟨rfl, fun _ => ⟨(Archive.write_cases hs hwrite).1, Archive.adds_of_write hs hwrite⟩⟩
  | extract dir name =>
    unfold perform
    dsimp only
    rw [Workspace.claim_tree]
    rcases hextract : Archive.extract s.host f.path (w.claim s.host.cwd dir name).1.path w.tree with
      ⟨⟨e | _, made⟩, t'⟩ <;>
      exact Or.inl ⟨rfl, fun _ => Archive.extract_adds hs hextract⟩
  | makeDirs dir =>
    unfold perform
    dsimp only
    rw [Workspace.disk_eq]
    rcases hmake : Disk.makeDirs s.host.toActor dir w.tree with ⟨e | _, t'⟩ <;>
      exact Or.inl ⟨rfl, fun _ => ⟨(makeDirs_addsDirs hs hmake).1, (makeDirs_addsDirs hs hmake).2.adds⟩⟩
  | addTag tag =>
    unfold perform
    dsimp only
    split <;> exact Or.inl ⟨rfl, fun _ => hsame⟩
  | removeTag tag =>
    unfold perform
    dsimp only
    split <;> exact Or.inl ⟨rfl, fun _ => hsame⟩
  | setColor color => exact Or.inl ⟨rfl, fun _ => hsame⟩
  | mark tag twin =>
    unfold perform
    dsimp only
    rcases w.store.index s.host w.tree f.path with ⟨e | print, store⟩
    · exact Or.inl ⟨rfl, fun _ => hsame⟩
    · cases twin <;> exact Or.inl ⟨rfl, fun _ => hsame⟩

end Task

namespace Action

lemma judge_discard (h : a.judge s w f = .ok .discard) : a = .deleteToTrash := by
  have hl := leaves_of_judge h
  cases a <;> first | rfl | cases hl

lemma judge_transfer {mode : TransferKind} {dir : Path} (h : a.judge s w f = .ok (.transfer mode dir)) :
    ∃ template, dir = Template.directory template f s.root := by
  have hl := leaves_of_judge h
  cases a with
  | move d =>
    have htask := (judgeTransfer_ok (show judgeTransfer s w f .move d = .ok (.transfer mode dir) from h)).1
    exact ⟨d, (Task.transfer.inj htask).2⟩
  | copy d =>
    have htask := (judgeTransfer_ok (show judgeTransfer s w f .copy d = .ok (.transfer mode dir) from h)).1
    exact ⟨d, (Task.transfer.inj htask).2⟩
  | _ => cases hl

section

variable (hdry : s.config.dryRun = false) (hroot : s.root.isAbsolute = true) (hs : w.tree.Sound)
  (hdel : a.isDeletion = false) (hlaunch : ∀ p as n, a ≠ .runCommand p as n)

include hdry hroot hs hdel hlaunch

/-- What is not a deletion adds to the tree, as long as it does not fail, or else it moves the file. -/
lemma run_cases (ha : f.path.isAbsolute = true) :
    (a.run s f w).1.newPath = none ∧ ((a.run s f w).1.status ≠ .failed →
        (a.run s f w).2.tree.Sound ∧ w.tree.Adds (a.run s f w).2.tree) ∨
      ∃ v target told why, v.tree = w.tree ∧ target.isAbsolute = true ∧
        (a.run s f w).1 = (Task.moveTo s f v target told why).1 ∧
        (a.run s f w).2.tree = (Task.moveTo s f v target told why).2.tree := by
  unfold run
  cases hj : a.judge s w f with
  | error e => exact Or.inl ⟨(judge_idle hj).2, fun _ => ⟨hs, .refl _⟩⟩
  | ok task =>
    simp only [hdry, Bool.false_eq_true, if_false]
    have htask : task ≠ .delete := fun h => by
      rw [h] at hj
      rw [(judge_delete hj).1] at hdel
      cases hdel
    have hcommand : ∀ p as n, task ≠ .launch p as n := fun p as n h => by
      rw [h] at hj
      obtain ⟨p', as', n', ha⟩ := judge_launch hj
      exact hlaunch p' as' n' ha
    rcases Task.perform_cases hs htask hcommand with hadds | ⟨dir, name, told, why, hdir, hr, ht⟩
    · exact Or.inl hadds
    · have habs : dir.isAbsolute = true := by
        rcases hdir with rfl | rfl | rfl
        · exact Path.isAbsolute_parent ha
        · obtain ⟨template, htemplate⟩ := judge_transfer hj
          rw [htemplate, Template.directory, Path.isAbsolute_join (text_of_absolute hroot), hroot, Bool.true_or]
        · rw [judge_discard hj] at hdel
          cases hdel
      exact Or.inr ⟨_, _, told, why, Workspace.claim_tree _ _ _, Task.isAbsolute_claim habs name, hr, ht⟩

lemma run_absolute (ha : f.path.isAbsolute = true) : ((a.run s f w).1.take f).path.isAbsolute = true := by
  rcases run_cases hdry hroot hs hdel hlaunch ha with ⟨hnew, -⟩ | ⟨v, target, told, why, -, htarget, hr, -⟩
  · rw [Effect.take, hnew]
    exact ha
  · rw [hr]
    unfold Task.moveTo
    rw [Workspace.disk_eq]
    rcases moveFile s.host.toActor f.path target v.tree with ⟨e | u, t'⟩
    · exact ha
    · exact htarget

/-- A file that is not to be deleted is described as it is after an action that does not fail. -/
lemma run_current (hp : w.tree.Plain) (hf : f.Current s.host.cwd w.tree) (hok : (a.run s f w).1.status ≠ .failed) :
    (a.run s f w).2.tree.Sound ∧ (a.run s f w).2.tree.Plain ∧
      ((a.run s f w).1.take f).Current s.host.cwd (a.run s f w).2.tree := by
  rcases run_cases hdry hroot hs hdel hlaunch hf.absolute with ⟨hnew, hadds⟩ |
    ⟨v, target, told, why, hv, htarget, hr, ht⟩
  · obtain ⟨hs', hadd⟩ := hadds hok
    exact Task.adds_current hs hp hf hs' hadd hnew
  · rw [hr] at hok ⊢
    rw [ht]
    rw [← hv] at hs hp hf
    exact Task.moveTo_current hs hp hf htarget hok

end

end Action

end FileOrganizer
