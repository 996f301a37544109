import FileOrganizer.Proofs.Batch.LastCopy
import FileOrganizer.Proofs.Tags.Originals

/-! Files are looked at for duplicates, in any order and again and again, and are moved and renamed in between: of those
with the same content exactly one keeps no tag, and it is always the same one. -/

namespace FileOrganizer

open FileOrganizer.Tree FileOrganizer.Disk

variable {s : Setting} {host : Host} {tag : String} {t : Tree} {w : Workspace} {f : FileInfo} {a : Action}
  {b c : ByteArray} {q : Place}

lemma Workspace.view_real (hdry : s.config.dryRun = false) : w.view s = ⟨w.store, none⟩ := by
  unfold view
  rw [if_neg (by simp [hdry])]

/-- A file goes to a new path, and what is on record about it with it, perhaps with one more value; or it stays, and
nothing is gone. -/
def Effect.Relocates (s : Setting) (f : FileInfo) (b : ByteArray) (t : Tree) (store : TagStore) (r : Effect) (t' : Tree)
    (store' : TagStore) : Prop :=
  (r.newPath = none ∧ t'.Sound ∧ t.Adds t' ∧ store' = store) ∨
    ∃ target, r.newPath = some target ∧ Moved s.host.cwd f.path target b t t' ∧
      (store' = store.rename (s.host.key f.path) (s.host.key target) ∨ ∃ name value,
        store' = (store.rename (s.host.key f.path) (s.host.key target)).setField (s.host.key target) name value)

namespace Task

variable (hs : w.tree.Sound) (hp : w.tree.Plain) (hread : w.tree.read s.host.cwd f.path = .ok b)

include hs hp hread

lemma moveTo_relocates (target : Path) (told : String) (why : Fault → String) :
    (moveTo s f w target told why).1.Relocates s f b w.tree w.store (moveTo s f w target told why).2.tree
      (moveTo s f w target told why).2.store := by
  rcases moveTo_cases hs hp hread target told why with ⟨hfailed, hs', hadd, hstore⟩ | ⟨hnew, hmoved, -, hstore⟩
  · exact Or.inl ⟨by rw [hfailed]; rfl, hs', hadd, hstore⟩
  · exact Or.inr ⟨target, hnew, hmoved, Or.inl hstore⟩

lemma rename_relocates (newName : String) (template : Option String) :
    ((rename newName template).perform s f w).1.Relocates s f b w.tree w.store
      ((rename newName template).perform s f w).2.tree ((rename newName template).perform s f w).2.store := by
  unfold perform
  dsimp only
  rw [noteTemplate_tree]
  rcases moveTo_cases (w := (w.claim s.host.cwd f.parent newName).2) hs hp hread
    (w.claim s.host.cwd f.parent newName).1.path _ _ with ⟨hfailed, hs', hadd, hstore⟩ | ⟨hnew, hmoved, -, hstore⟩
  · have hnone : (Effect.newPath _) = none := congrArg Effect.newPath hfailed
    refine Or.inl ⟨hnone, hs', hadd, ?_⟩
    unfold noteTemplate
    rw [hnone]
    cases template <;> exact hstore
  · refine Or.inr ⟨_, hnew, hmoved, ?_⟩
    unfold noteTemplate
    rw [hnew]
    cases template with
    | none => exact Or.inl hstore
    | some value =>
      dsimp only
      rw [hstore]
      exact Or.inr ⟨renamedBy, value, rfl⟩

end Task

namespace Action

/-- A file that is on record or has the tag is left alone. Else its content is put on record, and the file is tagged if
it has a twin. -/
lemma mark_cases {o : Option String} (hdry : s.config.dryRun = false) (hstore : w.store.Sound s.host.toActor)
    (hread : w.tree.read s.host.cwd f.path = .ok b) (hsize : b.size ≤ TagStore.maxSize) (hdir : f.isDir = false) :
    ((markAsDuplicate o).run s f w).1.newPath = none ∧ ((markAsDuplicate o).run s f w).2.tree = w.tree ∧
      (((markAsDuplicate o).run s f w).2.store = w.store ∧
          ((s.host.key f.path, o.getD defaultTag) ∈ w.store.tags ∨ w.store.print (s.host.key f.path) ≠ none) ∨
        (∀ g, w.store.print (s.host.key f.path) = some g → ¬g.Fits s.host b) ∧
          (((markAsDuplicate o).run s f w).2.store = (w.store.setPrint (s.host.key f.path) (Content.print s.host b)).2 ∧
              ¬w.store.HasTwin s.host w.tree (s.host.key f.path) b ∨
            ((markAsDuplicate o).run s f w).2.store = ((w.store.setPrint (s.host.key f.path)
                (Content.print s.host b)).2.addTag (s.host.key f.path) (o.getD defaultTag)).2 ∧
              w.store.HasTwin s.host w.tree (s.host.key f.path) b)) := by
  classical
  have hview := Workspace.view_real (w := w) hdry
  have htags : ((w.view s).tags s.host f.path).contains (o.getD defaultTag) = true ↔
      (s.host.key f.path, o.getD defaultTag) ∈ w.store.tags := by
    rw [hview, List.contains_iff_mem]
    exact View.mem_tagsOf
  have hfiled : (w.view s).isFiled s.host f.path w.tree =
      .ok (decide (∃ g, w.store.print (s.host.key f.path) = some g ∧ g.Fits s.host b)) := by
    rw [hview]
    exact TagStore.isFiled_of_read hread
  obtain ⟨-, x, htwin, hiff⟩ := (TagStore.twin?_of_read hstore.1 hread).resolve_right fun h => h.1 hsize
  have htwin' : (w.view s).twin? s.host f.path w.tree = .ok x := by rw [hview, View.twin?_direct, htwin]
  unfold run judge judgeMark
  dsimp only
  rw [if_neg (by simp [hdir])]
  by_cases htag : ((w.view s).tags s.host f.path).contains (o.getD defaultTag) = true
  · rw [if_pos htag]
    exact ⟨rfl, rfl, Or.inl ⟨rfl, Or.inl (htags.1 htag)⟩⟩
  rw [if_neg htag, hfiled, htwin']
  by_cases hfit : ∃ g, w.store.print (s.host.key f.path) = some g ∧ g.Fits s.host b
  · rw [decide_eq_true hfit]
    obtain ⟨g, hg, -⟩ := hfit
    exact ⟨rfl, rfl, Or.inl ⟨rfl, Or.inr (by simp [hg])⟩⟩
  rw [decide_eq_false hfit]
  dsimp only
  rw [if_neg (by simp [hdry])]
  unfold Task.perform
  dsimp only
  rw [TagStore.index_of_read hread hsize]
  have hnew : ∀ g, w.store.print (s.host.key f.path) = some g → ¬g.Fits s.host b := fun g hg hfits => hfit ⟨g, hg, hfits⟩
  cases x with
  | none => exact ⟨rfl, rfl, Or.inr ⟨hnew, Or.inl ⟨rfl, fun h => by simpa using hiff.2 h⟩⟩⟩
  | some p => exact ⟨rfl, rfl, Or.inr ⟨hnew, Or.inr ⟨rfl, hiff.1 rfl⟩⟩⟩

lemma run_relocates (hgo : (∃ d, a = .move d) ∨ (∃ n, a = .rename n) ∨ ∃ n, a = .tokenRename n)
    (hdry : s.config.dryRun = false) (hs : w.tree.Sound) (hp : w.tree.Plain)
    (hread : w.tree.read s.host.cwd f.path = .ok b) :
    (a.run s f w).1.Relocates s f b w.tree w.store (a.run s f w).2.tree (a.run s f w).2.store := by
  unfold run
  cases hj : a.judge s w f with
  | error r => exact Or.inl ⟨(judge_barren hj).idle.2, hs, .refl _, rfl⟩
  | ok task =>
    dsimp only
    rw [if_neg (by simp [hdry])]
    rcases hgo with ⟨d, rfl⟩ | ⟨n, rfl⟩ | ⟨n, rfl⟩
    · obtain ⟨rfl, -⟩ := judgeTransfer_ok (by rwa [judge] at hj)
      unfold Task.perform
      dsimp only
      exact Task.moveTo_relocates (w := (w.claim s.host.cwd (Template.directory d f s.root) f.name).2) hs hp hread _ _ _
    · obtain ⟨rfl, -⟩ := judgeRename_ok (by rwa [judge] at hj)
      exact Task.rename_relocates hs hp hread _ _
    · obtain ⟨rfl, -⟩ := judgeRename_ok (by rwa [judge] at hj)
      exact Task.rename_relocates hs hp hread _ _

end Action

/-- An action on a file, in a batch that has claimed some names by then. -/
structure Turn where
  setting : Setting
  file : FileInfo
  action : Action
  claims : List Path

/-- The workspace after some turns, and the places of the files that have been looked at for duplicates. -/
structure Progress where
  work : Workspace
  seen : List Place

/-- The files with these bytes that do not have the tag. -/
def Progress.untagged (tag : String) (x : Progress) (c : ByteArray) : Set Place :=
  {q ∈ x.work.tree.copies c | ¬x.work.store.Tagged tag q}

namespace Turn

variable (u : Turn)

def run (w : Workspace) : Effect × Workspace := u.action.run u.setting u.file { w with claims := u.claims }

def place : Place := u.file.path.place u.setting.host.cwd

/-- Where the file of a place is after the turn. -/
def goes (w : Workspace) (q : Place) : Place :=
  if q = u.place then ((u.run w).1.newPath.map (Path.place u.setting.host.cwd)).getD q else q

/-- The file that is looked at for duplicates, if this is what the action is for. -/
def looked : List Place :=
  match u.action with
  | .markAsDuplicate _ => [u.place]
  | _ => []

def next (x : Progress) : Progress where
  work := (u.run x.work).2
  seen := (u.looked ++ x.seen).map (u.goes x.work)

def runAll (us : List Turn) (x : Progress) : Progress := us.foldl (fun x u => u.next x) x

/-- Where the file of a place is after all the turns. -/
def goesAll : List Turn → Progress → Place → Place
  | [], _, q => q
  | u :: us, x, q => goesAll us (u.next x) (u.goes x.work q)

/-- Each turn is such, with the workspace that it finds. -/
def All (P : Turn → Workspace → Prop) : List Turn → Progress → Prop
  | [], _ => True
  | u :: us, x => P u x.work ∧ All P us (u.next x)

/-- A file that can be read is looked at for duplicates, moved or renamed, on a machine that tells the contents of its
files apart by their digests. The paths are not too long to be read, and the size can be kept. -/
structure Fits (host : Host) (tag : String) (u : Turn) (w : Workspace) : Prop where
  here : u.setting.host = host
  real : u.setting.config.dryRun = false
  action : (∃ o, u.action = .markAsDuplicate o ∧ o.getD Action.defaultTag = tag) ∨ (∃ d, u.action = .move d) ∨
    (∃ n, u.action = .rename n) ∨ ∃ n, u.action = .tokenRename n
  file : ∃ b, w.tree.read host.cwd u.file.path = .ok b ∧ b.size ≤ TagStore.maxSize
  regular : u.file.isDir = false
  short : Addressable u.place
  landing : ∀ p, (u.run w).1.newPath = some p → Addressable (p.place host.cwd)
  digest : Set.InjOn host.digest {c | ∃ q, w.tree.bytes? q = some c}

/-- A file that cannot be moved away leaves no copy of it at a place that something is on record about. -/
def Clean (tag : String) (u : Turn) (w : Workspace) : Prop :=
  (u.run w).1.newPath = none → ∀ q, w.tree.bytes? q = none → (u.run w).2.tree.bytes? q ≠ none →
    ¬w.store.Filed q ∧ ¬w.store.Tagged tag q

end Turn

/-- Every file that has been looked at is on record, and for each content one of the files on record has no tag. -/
structure Progress.Fair (host : Host) (tag : String) (x : Progress) : Prop where
  records : TagStore.OneOriginal host tag x.work.tree x.work.store
  seen : ∀ q ∈ x.seen, ∃ c, q ∈ x.work.tree.copies c ∧ x.work.store.Filed q

lemma Progress.Fair.filed {x : Progress} (h : x.Fair host tag) (hq : q ∈ x.seen) : x.work.store.Filed q := by
  obtain ⟨_, -, hf⟩ := h.seen q hq
  exact hf

namespace Turn

section

variable {u : Turn} {x : Progress} (hcwd : ∀ n ∈ host.cwd, Proper n)

lemma goes_eq_id (h : (u.run w).1.newPath = none) : u.goes w = id := by
  funext q
  unfold goes
  rw [h]
  split <;> rfl

include hcwd

/-- A file that is looked at comes on record, or was; the others stay as they are. -/
lemma mark_next {o : Option String} (hfit : u.Fits host tag x.work) (ho : u.action = .markAsDuplicate o)
    (htag : o.getD Action.defaultTag = tag) (h : TagStore.OneOriginal host tag x.work.tree x.work.store) :
    TagStore.OneOriginal host tag (u.run x.work).2.tree (u.run x.work).2.store ∧
      TagStore.Stays tag (u.goes x.work) x.work.tree x.work.store (u.run x.work).2.tree (u.run x.work).2.store ∧
      ∃ c, u.goes x.work u.place ∈ (u.run x.work).2.tree.copies c ∧ (u.run x.work).2.store.Filed (u.goes x.work u.place) := by
  obtain ⟨rfl, hreal, -, ⟨b, hread, hsize⟩, hregular, hshort, -, hdigest⟩ := hfit
  subst htag
  have hrun : u.run x.work = (Action.markAsDuplicate o).run u.setting u.file { x.work with claims := u.claims } := by
    rw [run, ho]
  obtain ⟨hnew, htree, hstore⟩ :=
    Action.mark_cases (w := { x.work with claims := u.claims }) (o := o) hreal h.store hread hsize hregular
  rw [← hrun] at hnew htree hstore
  dsimp only at htree hstore
  have hfile : u.place ∈ x.work.tree.copies b :=
    ⟨hshort, bytes?_of_read h.sound h.plain hread⟩
  rw [goes_eq_id hnew, htree]
  rcases hstore with ⟨hsame, hknown⟩ | ⟨hnofit, hmarked⟩
  · rw [hsame]
    rw [key_eq hcwd hread] at hknown
    refine ⟨h, fun c q hq hf => ⟨hq, hf, fun ht => ht⟩, b, hfile, ?_⟩
    rcases hknown with ht | hf
    · exact h.tagged b _ hfile ht
    · exact hf
  · obtain ⟨hrecords, hstays, hfiled⟩ := h.marked hcwd hdigest hread hsize hshort hnofit hmarked
    exact ⟨hrecords, hstays, b, hfile, hfiled⟩

lemma go_next (hfit : u.Fits host tag x.work) (hclean : u.Clean tag x.work)
    (hgo : (∃ d, u.action = .move d) ∨ (∃ n, u.action = .rename n) ∨ ∃ n, u.action = .tokenRename n)
    (h : TagStore.OneOriginal host tag x.work.tree x.work.store) :
    TagStore.OneOriginal host tag (u.run x.work).2.tree (u.run x.work).2.store ∧
      TagStore.Stays tag (u.goes x.work) x.work.tree x.work.store (u.run x.work).2.tree (u.run x.work).2.store := by
  obtain ⟨rfl, hreal, -, ⟨b, hread, -⟩, -, hshort, hlanding, -⟩ := hfit
  have hgoes := Action.run_relocates (s := u.setting) (w := { x.work with claims := u.claims }) hgo hreal h.sound h.plain hread
  rcases hgoes with ⟨hnew, hs', hadd, hstore⟩ | ⟨target, hnew, hmoved, hstore⟩
  · -- The file stays, perhaps with a copy of it elsewhere, about which nothing is on record.
    have hnone : (u.run x.work).1.newPath = none := hnew
    have hsame : (u.run x.work).2.store = x.work.store := hstore
    have hcar : TagStore.Carried tag (u.goes x.work) x.work.tree x.work.store (u.run x.work).2.tree (u.run x.work).2.store := by
      rw [goes_eq_id hnone, hsame]
      exact .of_adds hadd (hclean hnone)
    exact ⟨h.carried hcar hs' (Tree.Adds.plain hadd h.plain) (hsame ▸ h.store), hcar.stays⟩
  · -- What was on record about the target before is written over, so it does not matter.
    have hmoves : u.goes x.work = fun q => if q = u.file.path.place u.setting.host.cwd then target.place u.setting.host.cwd
        else q := by
      funext q
      rw [goes, show (u.run x.work).1.newPath = some target from hnew]
      rfl
    have hkey := key_key hcwd hmoved.read
    have hrenamed := h.store.rename hkey (k := u.setting.host.key u.file.path)
    obtain ⟨hprint, htags, hsound⟩ : (∀ k, (u.run x.work).2.store.print k =
          (x.work.store.rename (u.setting.host.key u.file.path) (u.setting.host.key target)).print k) ∧
        (∀ k, (k, tag) ∈ (u.run x.work).2.store.tags ↔
          (k, tag) ∈ (x.work.store.rename (u.setting.host.key u.file.path) (u.setting.host.key target)).tags) ∧
        (u.run x.work).2.store.Sound u.setting.host.toActor := by
      rcases hstore with heq | ⟨name, value, heq⟩
      · rw [show (u.run x.work).2.store = _ from heq]
        exact ⟨fun _ => rfl, fun _ => Iff.rfl, hrenamed⟩
      · rw [show (u.run x.work).2.store = _ from heq]
        exact ⟨fun _ => TagStore.print_setField, fun _ => by rw [TagStore.tags_setField],
          (hrenamed.ensure hkey).of_files rfl⟩
    have hcar : TagStore.Carried tag (u.goes x.work) x.work.tree x.work.store (u.run x.work).2.tree (u.run x.work).2.store := by
      rw [hmoves]
      exact .of_moved hcwd h.sound h.plain hread hmoved hshort (hlanding target hnew) hprint htags
    exact ⟨h.carried hcar hmoved.sound hmoved.plain hsound, hcar.stays⟩

/-- A turn keeps everything in order. The files on record stay on record where they go, and none of them gets the tag. -/
lemma next_fair (hfit : u.Fits host tag x.work) (hclean : u.Clean tag x.work) (h : x.Fair host tag) :
    (u.next x).Fair host tag ∧
      TagStore.Stays tag (u.goes x.work) x.work.tree x.work.store (u.next x).work.tree (u.next x).work.store := by
  obtain ⟨hrecords, hstays, hlooked⟩ : TagStore.OneOriginal host tag (u.next x).work.tree (u.next x).work.store ∧
      TagStore.Stays tag (u.goes x.work) x.work.tree x.work.store (u.next x).work.tree (u.next x).work.store ∧
      ∀ q ∈ u.looked, ∃ c, u.goes x.work q ∈ (u.next x).work.tree.copies c ∧
        (u.next x).work.store.Filed (u.goes x.work q) := by
    rcases hfit.action with ⟨o, ho, htag⟩ | hgo
    · obtain ⟨hrecords, hstays, hlooked⟩ := mark_next hcwd hfit ho htag h.records
      exact ⟨hrecords, hstays, by rwa [looked, ho, List.forall_mem_singleton]⟩
    · obtain ⟨hrecords, hstays⟩ := go_next hcwd hfit hclean hgo h.records
      refine ⟨hrecords, hstays, ?_⟩
      rcases hgo with ⟨_, ha⟩ | ⟨_, ha⟩ | ⟨_, ha⟩ <;> simp [looked, ha]
  refine ⟨⟨hrecords, fun v hv => ?_⟩, hstays⟩
  obtain ⟨q, hq, rfl⟩ := List.mem_map.1 hv
  rcases List.mem_append.1 hq with hq | hq
  · exact hlooked q hq
  · obtain ⟨c, hc, hf⟩ := h.seen q hq
    exact ⟨c, (hstays c q hc hf).1, (hstays c q hc hf).2.1⟩

/-- From the first turn to the last, the files that come on record stay so wherever they go. -/
lemma runAll_fair {us : List Turn} (hus : All (fun u w => u.Fits host tag w ∧ u.Clean tag w) us x) (h : x.Fair host tag) :
    (runAll us x).Fair host tag ∧ TagStore.Stays tag (goesAll us x) x.work.tree x.work.store
      (runAll us x).work.tree (runAll us x).work.store := by
  induction us generalizing x with
  | nil => exact ⟨h, fun c q hq hf => ⟨hq, hf, fun ht => ht⟩⟩
  | cons u us ih =>
    obtain ⟨⟨hfit, hclean⟩, hrest⟩ := hus
    obtain ⟨hnext, hstays⟩ := next_fair hcwd hfit hclean h
    obtain ⟨hall, hstaysAll⟩ := ih hrest hnext
    exact ⟨hall, hstays.trans hstaysAll⟩

omit hcwd in
lemma all_append {P : Turn → Workspace → Prop} {us later : List Turn} (h : All P (us ++ later) x) :
    All P us x ∧ All P later (runAll us x) := by
  induction us generalizing x with
  | nil => exact ⟨trivial, h⟩
  | cons u us ih =>
    obtain ⟨hu, hrest⟩ := h
    obtain ⟨hus, hlater⟩ := ih hrest
    exact ⟨⟨hu, hus⟩, hlater⟩

end

section

def plain (a : Action) (p : String) : Turn := ⟨(Job.plainJob []).setting ⟨"/r"⟩, Job.found p, a, []⟩

def mark (p : String) : Turn := plain (.markAsDuplicate (some "t")) p

def begun (t : Tree) (store : TagStore) : Progress := ⟨⟨t, store, [], .empty⟩, []⟩

/-- A file in a directory that is closed to changes, and another directory. -/
def locked : Tree := ⟨[
  (["l"], .dir ⟨⟨0, 0⟩, true⟩),
  (["l", "a.txt"], .file ⟨#[1]⟩ ⟨⟨0, 0⟩, false⟩),
  (["o"], .dir ⟨⟨0, 0⟩, false⟩)]⟩

end

end Turn

end FileOrganizer
