import FileOrganizer.Proofs.Batch.Current
import FileOrganizer.Proofs.Batch.Originals

/-! What is on record about files when one of them goes through the rules: its own record goes with it and takes the
notes that are made, and the records of the other files stay as they are. -/

namespace FileOrganizer

open FileOrganizer.Tree FileOrganizer.Disk

variable {s : Setting} {w : Workspace} {f : FileInfo} {a : Action} {o : Outcome} {task : Task} {rule : String}
  {c : ByteArray} {print : Fingerprint} {ns ms : List Note} {p q k l m : Path} {t t' : Tree}

def Facts.takeAll (f : Facts) (print : Fingerprint) (ns : List Note) : Facts :=
  ns.foldl (fun f n => f.take print n) f

namespace TagStore

variable {u u' u'' : TagStore}

/-- What is on record under the path `k` is on record under `l`, with some notes, and the other records stay. -/
structure Goes (k l : Path) (print : Fingerprint) (ns : List Note) (u u' : TagStore) : Prop where
  own : u'.facts l = (u.facts k).takeAll print ns
  other : ∀ m, m ≠ k → m ≠ l → u'.facts m = u.facts m

namespace Goes

lemma refl (u : TagStore) (k : Path) (print : Fingerprint) : Goes k k print [] u u := ⟨rfl, fun _ _ _ => rfl⟩

lemma of_facts (h : ∀ m, u'.facts m = u.facts m) : Goes k k print [] u u' := ⟨h k, fun m _ _ => h m⟩

lemma note {n : Note} (h : ∀ m, u'.facts m = if k = m then (u.facts m).take print n else u.facts m) :
    Goes k k print [n] u u' :=
  ⟨by rw [h, if_pos rfl]; rfl, fun m hm _ => by rw [h, if_neg fun heq => hm heq.symm]⟩

lemma rename (hne : k ≠ l) : Goes k l print [] u (u.rename k l) where
  own := by rw [facts_rename hne, if_pos rfl]; rfl
  other m hk hl := by rw [facts_rename hne, if_neg fun heq => hl heq.symm, if_neg fun heq => hk heq.symm]

lemma trans (h : Goes k l print ns u u') (h' : Goes l m print ms u' u'') :
    u''.facts m = (u.facts k).takeAll print (ns ++ ms) := by
  rw [h'.own, h.own, Facts.takeAll, Facts.takeAll, Facts.takeAll, List.foldl_append]

/-- More notes about a file that stays under its path. -/
lemma stay (h : Goes k l print ns u u') (h' : Goes l l print ms u' u'') : Goes k l print (ns ++ ms) u u'' where
  own := h.trans h'
  other m hk hl := (h'.other m hl hl).trans (h.other m hk hl)

end Goes

lemma facts_ensure : (u.ensure k).facts m = u.facts m := by
  refine facts_congr row_ensure (fun t => by rw [tags_ensure]) fun n => ?_
  exact field_ensure

end TagStore

open TagStore

/-- What an action is to put on record about its file. -/
def Action.notes : Action → List Note
  | .tokenRename template => [.setField renamedBy template]
  | .addTag tag => [.addTag tag]
  | .removeTag tag => [.removeTag tag]
  | .colorLabel color => [.setColor color]
  | .markAsDuplicate tag => [.index, .addTag (tag.getD Action.defaultTag)]
  | _ => []

def Task.notes : Task → List Note
  | .rename _ (some template) => [.setField renamedBy template]
  | .addTag tag => [.addTag tag]
  | .removeTag tag => [.removeTag tag]
  | .setColor color => [.setColor color]
  | .mark tag _ => [.index, .addTag tag]
  | _ => []

/-- What comes of notes that are to be made: all of them are made if the action is done. Else there are none, but that
a content without a twin goes on record all the same. -/
def Effect.Notes (r : Effect) (all ns : List Note) : Prop :=
  ns <+: all ∧ (r.status = .applied → ns = all) ∧ (r.status ≠ .applied → ns = [] ∨ ns = [.index])

namespace Effect

variable {r : Effect} {all : List Note}

lemma notes_none (h : r.status ≠ .applied) : r.Notes all [] :=
    ⟨List.nil_prefix, fun hr => absurd hr h, fun _ => Or.inl rfl⟩

lemma notes_all (h : r.status = .applied) : r.Notes all all := ⟨List.prefix_rfl, fun _ => rfl, fun hr => absurd h hr⟩

end Effect

namespace Action

lemma notes_of_judge (h : a.judge s w f = .ok task) : task.notes = a.notes := by
  have hl := leaves_of_judge h
  cases a with
  | tokenRename template =>
    obtain ⟨rfl, -⟩ := judgeRename_ok (by rwa [judge] at h)
    rfl
  | addTag tag =>
    obtain ⟨rfl, -⟩ := judgeAddTag_ok (by rwa [judge] at h)
    rfl
  | removeTag tag =>
    obtain ⟨rfl, -⟩ := judgeRemoveTag_ok (by rwa [judge] at h)
    rfl
  | colorLabel color =>
    obtain ⟨rfl, -⟩ := judgeColor_ok (by rwa [judge] at h)
    rfl
  | markAsDuplicate tag =>
    obtain ⟨twin, rfl, -⟩ := judgeMark_ok (by rwa [judge] at h)
    rfl
  | rename n =>
    obtain ⟨rfl, -⟩ := judgeRename_ok (by rwa [judge] at h)
    rfl
  | _ => cases task <;> first | rfl | cases hl

end Action

namespace Task

lemma moveTo_eq (target : Path) (told : String) (why : Fault → String) : moveTo s f w target told why =
    match moveFile s.host.toActor f.path target w.tree with
    | (.error e, t) => (.failed (why e), { w with tree := t })
    | (.ok (), t) => (((Effect.applied told).landing target).noting [record s f target .move],
        follow s { w with tree := t } f.path target) := by
  unfold moveTo
  rw [Workspace.disk_eq]
  rcases moveFile s.host.toActor f.path target w.tree with ⟨e | u, t⟩ <;> rfl

section

variable (hcwd : ∀ n ∈ s.host.cwd, Proper n) (hs : w.tree.Sound) (hp : w.tree.Plain)
  (hread : w.tree.read s.host.cwd f.path = .ok c)

include hcwd hs hp hread

lemma key_ne {target : Path} (h : Moved s.host.cwd f.path target c w.tree t') :
    s.host.key f.path ≠ s.host.key target := by
  intro heq
  have hplace := (key_eq_iff hcwd hread h.read).1 heq
  have hfree := h.free
  rw [← hplace, bytes?_of_read hs hp hread] at hfree
  cases hfree

/-- A file that is moved takes its record with it. One that cannot be moved keeps it. -/
lemma moveTo_goes (print : Fingerprint) (target : Path) (told : String) (why : Fault → String) :
    (moveTo s f w target told why).1.newPath = none ∧ (moveTo s f w target told why).1.status = .failed ∧
        (moveTo s f w target told why).2.store = w.store ∨
      (moveTo s f w target told why).1.newPath = some target ∧ (moveTo s f w target told why).1.status = .applied ∧
        Goes (s.host.key f.path) (s.host.key target) print [] w.store (moveTo s f w target told why).2.store ∧
        Moved s.host.cwd f.path target c w.tree (moveTo s f w target told why).2.tree := by
  rw [moveTo_eq]
  rcases hmove : moveFile s.host.toActor f.path target w.tree with ⟨e | u, t'⟩
  · exact Or.inl ⟨rfl, rfl, rfl⟩
  · have hmoved := moved_of_moveFile hs hp hread hmove
    exact Or.inr ⟨rfl, rfl, .rename (key_ne hcwd hs hp hread hmoved), hmoved⟩

end

lemma take_of_none {r : Effect} (h : r.newPath = none) : r.take f = f := by rw [Effect.take, h]

lemma take_of_some {r : Effect} (h : r.newPath = some p) : (r.take f).path = p := by
  rw [Effect.take, h]
  rfl

/-- What a task puts on record about its file, wherever the file goes. -/
def Files (s : Setting) (f : FileInfo) (c : ByteArray) (w : Workspace) (all : List Note) (x : Effect × Workspace) :
    Prop :=
  ∃ ns, x.1.Notes all ns ∧
    Goes (s.host.key f.path) (s.host.key (x.1.take f).path) (Content.print s.host c) ns w.store x.2.store

lemma files_same {x : Effect × Workspace} {all : List Note} (hnew : x.1.newPath = none)
    (hnotes : x.1.status ≠ .applied ∨ all = []) (hstore : x.2.store = w.store) : Files s f c w all x := by
  refine ⟨[], ?_, ?_⟩
  · rcases hnotes with hstatus | rfl
    · exact Effect.notes_none hstatus
    · exact ⟨List.prefix_rfl, fun _ => rfl, fun _ => Or.inl rfl⟩
  · rw [take_of_none hnew, hstore]
    exact .refl _ _ _

/-- A tag that the file has is not added again. -/
lemma addTag_files (tag : String) : Files s f c w (Task.notes (.addTag tag)) ((addTag tag).perform s f w) := by
  by_cases hnew : (s.host.key f.path, tag) ∈ w.store.tags
  · have hsame : w.store.addTag (s.host.key f.path) tag = (false, w.store.ensure (s.host.key f.path)) := by
      unfold TagStore.addTag
      dsimp only
      rw [tags_ensure, if_pos (by simpa using hnew)]
    unfold perform
    dsimp only
    rw [hsame]
    exact ⟨[], Effect.notes_none (by simp [Effect.skipped]), .of_facts fun m => facts_ensure⟩
  · have hadd : (w.store.addTag (s.host.key f.path) tag).1 = true := by
      unfold TagStore.addTag
      dsimp only
      rw [tags_ensure, if_neg (by simpa using hnew)]
    unfold perform
    dsimp only
    rw [hadd]
    exact ⟨_, Effect.notes_all rfl, .note fun m => facts_addTag⟩

/-- A tag that the file does not have is not taken away. -/
lemma removeTag_files (tag : String) : Files s f c w (Task.notes (.removeTag tag)) ((removeTag tag).perform s f w) := by
  unfold perform
  by_cases hin : (s.host.key f.path, tag) ∈ w.store.tags
  · have hwas : (w.store.removeTag (s.host.key f.path) tag).1 = true := by simpa [TagStore.removeTag] using hin
    dsimp only
    rw [hwas]
    exact ⟨_, Effect.notes_all rfl, .note fun m => facts_removeTag⟩
  · have hwas : (w.store.removeTag (s.host.key f.path) tag).1 = false := by simpa [TagStore.removeTag] using hin
    have hsame : ∀ m, (w.store.removeTag (s.host.key f.path) tag).2.facts m = w.store.facts m := fun m => by
      refine facts_congr rfl (fun x => ?_) fun n => rfl
      rw [mem_removeTag]
      exact and_iff_left_of_imp fun hx hm heq => hin (hm ▸ heq ▸ hx)
    dsimp only
    rw [hwas]
    exact ⟨[], Effect.notes_none (by simp [Effect.skipped]), .of_facts hsame⟩

section

variable (hcwd : ∀ n ∈ s.host.cwd, Proper n) (hs : w.tree.Sound) (hp : w.tree.Plain)
  (hread : w.tree.read s.host.cwd f.path = .ok c)

include hcwd hs hp hread

lemma moveTo_files {v : Workspace} (htree : v.tree = w.tree) (hstore : v.store = w.store) (target : Path)
    (told : String) (why : Fault → String) : Files s f c w [] (moveTo s f v target told why) := by
  rw [← htree] at hs hp hread
  rcases moveTo_goes hcwd hs hp hread (Content.print s.host c) target told why with
    ⟨hnew, -, hsame⟩ | ⟨hnew, hstatus, hgoes, -⟩
  · exact files_same hnew (Or.inr rfl) (hsame.trans hstore)
  · refine ⟨[], Effect.notes_all hstatus, ?_⟩
    rw [take_of_some hnew, ← hstore]
    exact hgoes

lemma renamed_files {v : Workspace} (htree : v.tree = w.tree) (hstore : v.store = w.store) (target : Path)
    (told : String) (why : Fault → String) (newName : String) (template : Option String) :
    Files s f c w (Task.notes (.rename newName template)) ((moveTo s f v target told why).1,
      noteTemplate s (moveTo s f v target told why).2 (moveTo s f v target told why).1 template) := by
  rw [← htree] at hs hp hread
  have hmove := moveTo_goes hcwd hs hp hread (Content.print s.host c) target told why
  generalize moveTo s f v target told why = x at hmove ⊢
  rcases hmove with ⟨hnew, hstatus, hsame⟩ | ⟨hnew, hstatus, hgoes, -⟩
  · refine files_same hnew (Or.inl (by simp [hstatus])) ?_
    unfold noteTemplate
    rw [hnew]
    cases template <;> exact hsame.trans hstore
  · refine ⟨_, Effect.notes_all hstatus, ?_⟩
    rw [take_of_some hnew, ← hstore]
    unfold noteTemplate
    rw [hnew]
    cases template with
    | none => exact hgoes
    | some value => exact hgoes.stay (.note fun m => facts_setField)

omit hcwd hs hp in
lemma mark_files (tag : String) (twin : Option Path) :
    Files s f c w (Task.notes (.mark tag twin)) ((mark tag twin).perform s f w) := by
  unfold perform
  dsimp only
  by_cases hsize : c.size ≤ maxSize
  · have hindex : Goes (s.host.key f.path) (s.host.key f.path) (Content.print s.host c) [.index] w.store
        (w.store.setPrint (s.host.key f.path) (Content.print s.host c)).2 := .note fun m => (facts_setPrint hsize).2
    rw [index_of_read hread hsize]
    cases twin with
    | none =>
      exact ⟨[.index], ⟨List.prefix_append [Note.index] [Note.addTag tag], by simp [Effect.skipped],
        fun _ => Or.inr rfl⟩, hindex⟩
    | some q => exact ⟨_, Effect.notes_all rfl, hindex.stay (.note fun m => facts_addTag)⟩
  · have hindex : w.store.index s.host w.tree f.path = (.error .badDatabase, w.store.ensure (s.host.key f.path)) := by
      unfold index
      rw [Content.fingerprint_of_read hread]
      dsimp only
      rw [setPrint, if_neg (show ¬(Content.print s.host c).size ≤ maxSize from hsize)]
    rw [hindex]
    exact ⟨[], Effect.notes_none (by simp [Effect.failed]), .of_facts fun m => facts_ensure⟩

lemma perform_files (hlaunch : ∀ x as n, task ≠ .launch x as n) : Files s f c w task.notes (task.perform s f w) := by
  cases task with
  | rename newName template =>
    unfold perform
    dsimp only
    exact renamed_files (v := (w.claim s.host.cwd f.parent newName).2) hcwd hs hp hread rfl rfl _ _ _ _ _
  | transfer mode dir =>
    cases mode with
    | move =>
      unfold perform
      dsimp only
      exact moveTo_files (v := (w.claim s.host.cwd dir f.name).2) hcwd hs hp hread rfl rfl _ _ _
    | copy =>
      unfold perform
      dsimp only
      rw [Workspace.disk_eq]
      rcases copyFile s.host.toActor f.path _ _ with ⟨e | x, t'⟩ <;> exact files_same rfl (Or.inr rfl) rfl
  | delete =>
    unfold perform
    dsimp only
    rw [Workspace.disk_eq]
    rcases Disk.change (removeFile s.host.toActor f.path) w.tree with ⟨e | x, t'⟩ <;>
      exact files_same rfl (Or.inr rfl) rfl
  | discard =>
    unfold perform
    dsimp only
    exact moveTo_files (v := (w.claim s.host.cwd s.trash f.name).2) hcwd hs hp hread rfl rfl _ _ _
  | launch program args timeout => exact absurd rfl (hlaunch program args timeout)
  | archive dir name =>
    unfold perform
    dsimp only
    rw [Workspace.disk_eq, Workspace.claim_tree]
    rcases Archive.write s.host f.path f.name (w.claim s.host.cwd dir name).1.path w.tree with ⟨e | _, t'⟩
    · dsimp only
      rw [Workspace.disk_eq]
      exact files_same rfl (Or.inr rfl) rfl
    · exact files_same rfl (Or.inr rfl) rfl
  | extract dir name =>
    unfold perform
    dsimp only
    rcases Archive.extract s.host f.path (w.claim s.host.cwd dir name).1.path _ with ⟨⟨e | _, made⟩, t'⟩ <;>
      exact files_same rfl (Or.inr rfl) rfl
  | makeDirs dir =>
    unfold perform
    dsimp only
    rw [Workspace.disk_eq]
    rcases Disk.makeDirs s.host.toActor dir w.tree with ⟨e | x, t'⟩ <;> exact files_same rfl (Or.inr rfl) rfl
  | addTag tag => exact addTag_files tag
  | removeTag tag => exact removeTag_files tag
  | setColor color =>
    unfold perform
    exact ⟨_, Effect.notes_all rfl, .note fun m => facts_setColor⟩
  | mark tag twin => exact mark_files hread tag twin

end

end Task

namespace Action

section

variable (hcwd : ∀ n ∈ s.host.cwd, Proper n) (hs : w.tree.Sound) (hp : w.tree.Plain)
  (hread : w.tree.read s.host.cwd f.path = .ok c) (hdry : s.config.dryRun = false)
  (hlaunch : ∀ p as n, a ≠ .runCommand p as n)

include hcwd hs hp hread hdry hlaunch

lemma run_files : Task.Files s f c w a.notes (a.run s f w) := by
  unfold run
  cases hj : a.judge s w f with
  | error r =>
    have hbarren := judge_barren hj
    refine Task.files_same hbarren.idle.2 (Or.inl fun hr => ?_) rfl
    have hstatus := hbarren.status
    rw [show r.status = .applied from hr] at hstatus
    cases hstatus
  | ok task =>
    rw [← notes_of_judge hj]
    dsimp only
    rw [if_neg (by simp [hdry])]
    refine Task.perform_files hcwd hs hp hread fun x as n htask => ?_
    rw [htask] at hj
    obtain ⟨p', as', n', ha⟩ := judge_launch hj
    exact hlaunch p' as' n' ha

/-- An action moves its file, or else it adds to the tree as long as it does not fail and does not delete. -/
lemma run_moves : (a.run s f w).1.newPath = none ∧ ((a.run s f w).1.status ≠ .failed →
      ¬(a = .delete ∧ (a.run s f w).1.status.counts = true) →
        (a.run s f w).2.tree.Sound ∧ w.tree.Adds (a.run s f w).2.tree) ∨
    ∃ target, (a.run s f w).1.newPath = some target ∧ Moved s.host.cwd f.path target c w.tree (a.run s f w).2.tree := by
  unfold run
  cases hj : a.judge s w f with
  | error r => exact Or.inl ⟨(judge_idle hj).2, fun _ _ => ⟨hs, .refl _⟩⟩
  | ok task =>
    dsimp only
    rw [if_neg (by simp [hdry])]
    have hcommand : ∀ p as n, task ≠ .launch p as n := fun p as n htask => by
      rw [htask] at hj
      obtain ⟨p', as', n', ha⟩ := judge_launch hj
      exact hlaunch p' as' n' ha
    by_cases htask : task = .delete
    · obtain rfl := htask
      obtain ⟨rfl, -⟩ := judge_delete hj
      unfold Task.perform
      dsimp only
      rw [Workspace.disk_eq]
      rcases Disk.change (removeFile s.host.toActor f.path) w.tree with ⟨e | _, t'⟩
      · exact Or.inl ⟨rfl, fun hok => absurd rfl hok⟩
      · exact Or.inl ⟨rfl, fun _ hdel => absurd ⟨rfl, rfl⟩ hdel⟩
    · rcases Task.perform_cases hs htask hcommand with ⟨hnew, hadds⟩ | ⟨dir, name, told, why, -, hr, ht⟩
      · exact Or.inl ⟨hnew, fun hok _ => hadds hok⟩
      · rw [hr, ht]
        have hmove := Task.moveTo_goes (w := (w.claim s.host.cwd dir name).2) hcwd hs hp hread
          (Content.print s.host c) (w.claim s.host.cwd dir name).1.path told why
        rcases hmove with ⟨hnew, hfailed, -⟩ | ⟨hnew, -, -, hmoved⟩
        · exact Or.inl ⟨hnew, fun hok => absurd hfailed hok⟩
        · exact Or.inr ⟨_, hnew, hmoved⟩

end

end Action

namespace Outcome

variable {I J : Outcome → Workspace → Prop} {as : List Action} {rs : List Rule} {w₀ : Workspace}

/-- What every action keeps up holds in the end, if what the action needs for it is there until the last one. -/
lemma runActions_until (rule : String) (hI : I o w) (hJ : J o w)
    (hstep : ∀ a ∈ as, ∀ o w, I o w → J o w → J (o.runAction s rule a w).1 (o.runAction s rule a w).2 ∧
      (((o.runAction s rule a w).1.steps.getLast?.map Step.isLast).getD false = false →
        I (o.runAction s rule a w).1 (o.runAction s rule a w).2)) :
    J (runActions s rule as o w).2.1 (runActions s rule as o w).2.2 ∧
      ((runActions s rule as o w).1 = false → I (runActions s rule as o w).2.1 (runActions s rule as o w).2.2) := by
  induction as generalizing o w with
  | nil => exact ⟨hJ, fun _ => hI⟩
  | cons a as ih =>
    obtain ⟨hJ', hI'⟩ := hstep a List.mem_cons_self o w hI hJ
    unfold runActions
    dsimp only
    by_cases hend : ((o.runAction s rule a w).1.steps.getLast?.map Step.isLast).getD false = true
    · rw [if_pos hend]
      exact ⟨hJ', fun h => by cases h⟩
    · rw [if_neg hend]
      exact ih (hI' (by simpa using hend)) hJ' fun b hb => hstep b (List.mem_cons_of_mem a hb)

lemma runRules_until (hI : I o w) (hJ : J o w)
    (hmatch : ∀ o w name, I o w → I { o with matched := o.matched ++ [name] } w)
    (hmatch' : ∀ o w name, J o w → J { o with matched := o.matched ++ [name] } w)
    (hstep : ∀ r ∈ rs, ∀ a ∈ r.actions, ∀ o w, I o w → J o w →
      J (o.runAction s r.name a w).1 (o.runAction s r.name a w).2 ∧
        (((o.runAction s r.name a w).1.steps.getLast?.map Step.isLast).getD false = false →
          I (o.runAction s r.name a w).1 (o.runAction s r.name a w).2)) :
    J (runRules s rs o w).1 (runRules s rs o w).2 := by
  induction rs generalizing o w with
  | nil => exact hJ
  | cons r rs ih =>
    have hrest : ∀ {o w}, I o w → J o w → J (runRules s rs o w).1 (runRules s rs o w).2 := fun hI hJ =>
      ih hI hJ fun x hx => hstep x (List.mem_cons_of_mem r hx)
    unfold runRules
    split_ifs with hm
    · obtain ⟨hJ', hI'⟩ := runActions_until r.name (hmatch o w r.name hI) (hmatch' o w r.name hJ)
        (hstep r List.mem_cons_self)
      dsimp only
      split_ifs with hstop
      · exact hJ'
      · refine hrest (hI' ?_) hJ'
        rw [Bool.or_eq_true, not_or] at hstop
        simpa using hstop.1
    · exact hrest hI hJ

/-- The file and all others are there, and no other one is where the file is. -/
structure There (s : Setting) (f : FileInfo) (c : ByteArray) (w₀ : Workspace) (o : Outcome) (w : Workspace) : Prop where
  sound : w.tree.Sound
  plain : w.tree.Plain
  read : w.tree.read s.host.cwd o.file.path = .ok c
  other : ∀ q b, w₀.tree.read s.host.cwd q = .ok b → q.place s.host.cwd ≠ f.path.place s.host.cwd →
    w.tree.bytes? (q.place s.host.cwd) = some b ∧ q.place s.host.cwd ≠ o.file.path.place s.host.cwd

/-- What is on record about the file has come with it and has taken the notes of the actions, and what is on record
about the other files is as it was. -/
structure Recorded (s : Setting) (f : FileInfo) (c : ByteArray) (w₀ : Workspace) (o : Outcome) (w : Workspace) :
    Prop where
  own : ∃ nss, List.Forall₂ (fun (t : Step) ns => t.effect.Notes t.action.notes ns) o.steps nss ∧
    w.store.facts (s.host.key o.file.path) =
      (w₀.store.facts (s.host.key f.path)).takeAll (Content.print s.host c) nss.flatten
  other : ∀ q b, w₀.tree.read s.host.cwd q = .ok b → q.place s.host.cwd ≠ f.path.place s.host.cwd →
    w.store.facts (s.host.key q) = w₀.store.facts (s.host.key q)

section

variable (hcwd : ∀ n ∈ s.host.cwd, Proper n) (hdry : s.config.dryRun = false)
  (hlaunch : ∀ p as n, a ≠ .runCommand p as n)

include hcwd hdry hlaunch

lemma There.runAction (h : o.There s f c w₀ w) (rule : String)
    (hok : (a.run s (refresh s w o.file) w).1.status ≠ .failed)
    (hkept : ¬(a = .delete ∧ (a.run s (refresh s w o.file) w).1.status.counts = true)) :
    (o.runAction s rule a w).1.There s f c w₀ (o.runAction s rule a w).2 := by
  have hread := refresh_read hcwd h.sound h.plain h.read
  have hplace := (refresh_path hcwd w o.file).1
  rw [runAction_real hdry, runAction_fst]
  rcases Action.run_moves hcwd h.sound h.plain hread hdry hlaunch with ⟨hnew, hadds⟩ | ⟨target, hnew, hmoved⟩
  · obtain ⟨hs', hadd⟩ := hadds hok hkept
    have hst : w.tree.Steady ∅ (a.run s (refresh s w o.file) w).2.tree := hadd.steady h.plain hs'
    rw [Task.take_of_none hnew]
    refine ⟨hs', hst.plain, hst.read h.sound h.plain (Set.notMem_empty _) hread, fun q b hq hne => ?_⟩
    obtain ⟨hb, hapart⟩ := h.other q b hq hne
    exact ⟨hadd.keeps _ _ hb, fun heq => hapart (heq.trans hplace)⟩
  · refine ⟨hmoved.sound, hmoved.plain, ?_, fun q b hq hne => ?_⟩
    · rw [Task.take_of_some hnew]
      exact hmoved.read
    · obtain ⟨hb, hapart⟩ := h.other q b hq hne
      have hfree : target.place s.host.cwd ≠ q.place s.host.cwd := fun heq => by
        have hnone := hmoved.free
        rw [heq, hb] at hnone
        cases hnone
      rw [Task.take_of_some hnew, hmoved.other _ hfree fun heq => hapart (heq.symm.trans hplace)]
      exact ⟨hb, hfree.symm⟩

lemma Recorded.runAction (h : o.Recorded s f c w₀ w) (hthere : o.There s f c w₀ w) (rule : String) :
    (o.runAction s rule a w).1.Recorded s f c w₀ (o.runAction s rule a w).2 := by
  have hread := refresh_read hcwd hthere.sound hthere.plain hthere.read
  have hplace := (refresh_path hcwd w o.file).1
  have hkey : s.host.key (refresh s w o.file).path = s.host.key o.file.path :=
    (key_eq_iff hcwd hread hthere.read).2 hplace
  obtain ⟨ns, hns, hgoes⟩ := Action.run_files hcwd hthere.sound hthere.plain hread hdry hlaunch
  obtain ⟨nss, hnss, hown⟩ := h.own
  rw [runAction_real hdry, runAction_fst]
  refine ⟨⟨nss ++ [ns], List.rel_append hnss (.cons hns .nil), ?_⟩, fun q b hq hne => ?_⟩
  · rw [hgoes.own, hkey, hown, Facts.takeAll, Facts.takeAll, Facts.takeAll, ← List.foldl_append, List.flatten_append,
      List.flatten_singleton]
  · obtain ⟨hb, hapart⟩ := hthere.other q b hq hne
    refine (hgoes.other _ (fun heq => ?_) fun heq => ?_).trans (h.other q b hq hne)
    · exact hapart ((key_eq_iff hcwd hq hthere.read).1 (heq.trans hkey))
    · rcases Action.run_moves hcwd hthere.sound hthere.plain hread hdry hlaunch with ⟨hnew, -⟩ | ⟨target, hnew, hmoved⟩
      · rw [Task.take_of_none hnew] at heq
        exact hapart ((key_eq_iff hcwd hq hthere.read).1 (heq.trans hkey))
      · rw [Task.take_of_some hnew] at heq
        have hfree := hmoved.free
        rw [← (key_eq_iff hcwd hq hmoved.read).1 heq, hb] at hfree
        cases hfree

end

/-- The file is there, unless an action failed or deleted it. -/
def Arrives (s : Setting) (f : FileInfo) (c : ByteArray) (w₀ : Workspace) (o : Outcome) (w : Workspace) : Prop :=
  o.success = true → o.deleted = false → o.There s f c w₀ w

lemma There.arrives (hcwd : ∀ n ∈ s.host.cwd, Proper n) (hdry : s.config.dryRun = false)
    (hlaunch : ∀ p as n, a ≠ .runCommand p as n) (h : o.There s f c w₀ w) (rule : String) :
    (o.runAction s rule a w).1.Arrives s f c w₀ (o.runAction s rule a w).2 := by
  intro hsuccess hkept
  refine h.runAction hcwd hdry hlaunch rule ?_ ?_
  · rw [runAction_fst] at hsuccess
    simp only [success, List.all_append, List.all_cons, Bool.and_eq_true, decide_eq_true_eq] at hsuccess
    exact hsuccess.2.1
  · rintro ⟨rfl, hcounts⟩
    rw [runAction_fst] at hkept
    simp [deleted, Step.takesAway, Action.isDeletion, hcounts] at hkept

end Outcome

/-- Where there are no links, a file that goes through the rules leaves what is on record about the other files as it
is. What is on record about the file itself goes with it and takes the notes of the actions that are done. -/
theorem Rule.runAll_records {rs : List Rule} (hcwd : ∀ n ∈ s.host.cwd, Proper n) (hdry : s.config.dryRun = false)
    (hs : w.tree.Sound) (hp : w.tree.Plain) (hread : w.tree.read s.host.cwd f.path = .ok c)
    (hlaunch : ∀ r ∈ rs, ∀ p as n, .runCommand p as n ∉ r.actions) :
    ∃ o v, Rule.runAll s rs f w = (o, v) ∧
      (∀ q b, w.tree.read s.host.cwd q = .ok b → q.place s.host.cwd ≠ f.path.place s.host.cwd →
        v.store.facts (s.host.key q) = w.store.facts (s.host.key q)) ∧
      (∃ nss, List.Forall₂ (fun (t : Step) ns => t.effect.Notes t.action.notes ns) o.steps nss ∧
        v.store.facts (s.host.key o.file.path) =
          (w.store.facts (s.host.key f.path)).takeAll (Content.print s.host c) nss.flatten) ∧
      (o.success = true → o.deleted = false → v.tree.read s.host.cwd o.file.path = .ok c) := by
  have hstart : ({ origin := f.path, file := f } : Outcome).There s f c w w :=
    ⟨hs, hp, hread, fun q b hq hne => ⟨bytes?_of_read hs hp hq, hne⟩⟩
  have hnone : ({ origin := f.path, file := f } : Outcome).Recorded s f c w w :=
    ⟨⟨[], .nil, rfl⟩, fun _ _ _ _ => rfl⟩
  obtain ⟨hrecorded, harrives⟩ : (Outcome.Recorded s f c w (Rule.runAll s rs f w).1 (Rule.runAll s rs f w).2) ∧
      Outcome.Arrives s f c w (Rule.runAll s rs f w).1 (Rule.runAll s rs f w).2 := by
    refine Outcome.runRules_until (I := Outcome.There s f c w)
      (J := fun o v => o.Recorded s f c w v ∧ o.Arrives s f c w v) hstart ⟨hnone, fun _ _ => hstart⟩ ?_ ?_ ?_
    · exact fun o v name h => ⟨h.sound, h.plain, h.read, h.other⟩
    · rintro o v name ⟨h, h'⟩
      refine ⟨⟨h.own, h.other⟩, fun hsuccess hkept => ?_⟩
      obtain ⟨hs', hp', hread', hother⟩ := h' hsuccess hkept
      exact ⟨hs', hp', hread', hother⟩
    · rintro r hr a ha o v hthere ⟨h, -⟩
      have ha' : ∀ p as n, a ≠ .runCommand p as n := fun p as n heq => hlaunch r hr p as n (heq ▸ ha)
      refine ⟨⟨h.runAction hcwd hdry ha' hthere r.name, hthere.arrives hcwd hdry ha' r.name⟩, fun hlast => ?_⟩
      rw [Outcome.runAction_fst, List.getLast?_concat] at hlast
      have hgoes : (a.run s (Outcome.refresh s v o.file) v).1.status ≠ .failed ∧
          (a.isDeletion = true → (a.run s (Outcome.refresh s v o.file) v).1.status.counts = false) := by
        simpa [Step.isLast, Step.takesAway] using hlast
      refine hthere.runAction hcwd hdry ha' r.name hgoes.1 ?_
      rintro ⟨rfl, hcounts⟩
      rw [hgoes.2 rfl] at hcounts
      cases hcounts
  exact ⟨_, _, rfl, hrecorded.other, hrecorded.own, fun hsuccess hkept => (harrives hsuccess hkept).read⟩

section

open Job

/-- A file is to be moved and tagged. -/
def moving (d : String) : List Rule := [{ name := "rule", actions := [.move d, .addTag "new"] }]

def onTop : Setting := (plainJob []).setting ⟨"/r"⟩

/-- One path has a tag. -/
def tagged (p : String) : TagStore := (TagStore.empty.addTag ⟨p⟩ "keep").2

/-- Two files of one name, and a link that leads to another branch of the tree. -/
def branches : Tree := ⟨[
  (["o"], .dir ⟨⟨0, 0⟩, false⟩),
  (["o", "dir"], .dir ⟨⟨0, 0⟩, false⟩),
  (["r"], .dir ⟨⟨0, 0⟩, false⟩),
  (["r", "a.txt"], .file ⟨#[1]⟩ ⟨⟨0, 0⟩, false⟩),
  (["r", "link"], .link "/o/dir"),
  (["r", "sub"], .dir ⟨⟨0, 0⟩, false⟩),
  (["r", "sub", "a.txt"], .file ⟨#[2]⟩ ⟨⟨0, 0⟩, false⟩)]⟩

end

/-- Once every action is done, all the notes are made. -/
lemma Effect.notes_of_applied {ts : List Step} {nss : List (List Note)} (hok : ∀ t ∈ ts, t.effect.status = .applied)
    (h : List.Forall₂ (fun (t : Step) ns => t.effect.Notes t.action.notes ns) ts nss) :
    nss.flatten = (ts.map Step.action).flatMap Action.notes := by
  induction h with
  | nil => rfl
  | cons hns _ ih =>
    rw [List.flatten_cons, List.map_cons, List.flatMap_cons, hns.2.1 (hok _ List.mem_cons_self),
      ih fun t ht => hok t (List.mem_cons_of_mem _ ht)]

/-- The file is moved and tagged, and the other file has the tag that it had. -/
theorem Rule.runAll_records_move : ∃ o v,
    Rule.runAll onTop (moving "docs") (Job.found "/r/a.txt") ⟨Job.twoFiles, tagged "/r/a.zip", [], .empty⟩ = (o, v) ∧
      v.store.facts (Job.plainHost.key ⟨"/r/a.zip"⟩) = (tagged "/r/a.zip").facts (Job.plainHost.key ⟨"/r/a.zip"⟩) ∧
      v.tree.read [] o.file.path = .ok ⟨#[1]⟩ ∧ (v.store.facts (Job.plainHost.key o.file.path)).tags = {"new"} := by
  obtain ⟨o, v, hrun, hother, ⟨nss, hnotes, hown⟩, hread⟩ := Rule.runAll_records (s := onTop)
    (f := Job.found "/r/a.txt") (w := ⟨Job.twoFiles, tagged "/r/a.zip", [], .empty⟩) (c := ⟨#[1]⟩) (by decide) rfl
    Job.sound_twoFiles (plain_of_entries (by decide)) rfl
    (show ∀ r ∈ moving "docs", ∀ p as n, .runCommand p as n ∉ r.actions by simp [moving])
  have ho : (Rule.runAll onTop (moving "docs") (Job.found "/r/a.txt")
      ⟨Job.twoFiles, tagged "/r/a.zip", [], .empty⟩).1 = o := by rw [hrun]
  have hsteps : o.success = true ∧ o.deleted = false ∧ (∀ t ∈ o.steps, t.effect.status = .applied) ∧
      o.steps.map Step.action = [.move "docs", .addTag "new"] := by
    rw [← ho]
    decide +kernel
  refine ⟨o, v, hrun, hother ⟨"/r/a.zip"⟩ ⟨#[2]⟩ rfl (by decide), hread hsteps.1 hsteps.2.1, ?_⟩
  have hnone : ((tagged "/r/a.zip").facts (onTop.host.key ⟨"/r/a.txt"⟩)).tags = ∅ := by
    refine Set.eq_empty_of_forall_notMem fun x hx => ?_
    have hx' : (onTop.host.key ⟨"/r/a.txt"⟩, x) = (⟨"/r/a.zip"⟩, "keep") := List.mem_singleton.1 hx
    exact absurd (Prod.mk.inj hx').1 (by decide +kernel)
  rw [Effect.notes_of_applied hsteps.2.2.1 hnotes, hsteps.2.2.2] at hown
  rw [show Job.plainHost.key o.file.path = onTop.host.key o.file.path from rfl, hown]
  show {x | x = "new" ∨ x ∈ ((tagged "/r/a.zip").facts (onTop.host.key ⟨"/r/a.txt"⟩)).tags} = {"new"}
  rw [hnone]
  exact Set.ext fun x => or_iff_left (Set.notMem_empty x)

/-- The name that is claimed at the end of the link is filed under the path of another file, whose record is lost. -/
theorem Rule.runAll_records_fails : ¬∀ (s : Setting) (rs : List Rule) (f : FileInfo) (w : Workspace),
    (∀ n ∈ s.host.cwd, Proper n) → s.config.dryRun = false → w.tree.Sound →
    (∀ r ∈ rs, ∀ p as n, .runCommand p as n ∉ r.actions) →
    ∀ l l' b b' x x' q, w.tree.stat s.host.cwd f.path = .ok (l, .file b x) →
      w.tree.stat s.host.cwd q = .ok (l', .file b' x') →
      l ≠ l' → (Rule.runAll s rs f w).2.store.facts (s.host.key q) = w.store.facts (s.host.key q) := by
  intro h
  have hsame := h onTop (moving "link/..") (Job.found "/r/sub/a.txt") ⟨branches, tagged "/r/a.txt", [], .empty⟩
    (by decide) rfl
    (sound_of_entries (by decide)) (by simp [moving]) ["r", "sub", "a.txt"] ["r", "a.txt"] ⟨#[2]⟩ ⟨#[1]⟩ _ _
    ⟨"/r/a.txt"⟩
    (by rfl) (by rfl) (by decide)
  have hkept : "keep" ∈ ((tagged "/r/a.txt").facts (onTop.host.key ⟨"/r/a.txt"⟩)).tags := by
    show (onTop.host.key ⟨"/r/a.txt"⟩, "keep") ∈ (tagged "/r/a.txt").tags
    decide +kernel
  rw [← hsame] at hkept
  have hlost : (onTop.host.key ⟨"/r/a.txt"⟩, "keep") ∉ (Rule.runAll onTop (moving "link/..") (Job.found "/r/sub/a.txt")
      ⟨branches, tagged "/r/a.txt", [], .empty⟩).2.store.tags := by decide +kernel
  exact hlost hkept

end FileOrganizer
