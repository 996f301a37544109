import FileOrganizer.Proofs.Batch.Records
import FileOrganizer.Proofs.Tree.Tidy

/-! How often a template renames a file, told by the moves that are taken down. The template leaves a mark on what it
renames; the mark goes with the file from place to place, and what bears it is not renamed once more. -/

namespace FileOrganizer

open FileOrganizer.Tree FileOrganizer.Disk

/-- A file went from one place to another. -/
structure Hop where
  source : Place
  target : Place
  /-- Was it renamed by a template? -/
  byTemplate : Bool
  deriving DecidableEq, Repr

/-- Where a file is by now, and how often a template has renamed it. -/
structure Fate where
  place : Place
  renamings : Nat
  deriving DecidableEq, Repr

namespace Fate

def take (x : Fate) (h : Hop) : Fate :=
  if h.source = x.place then ⟨h.target, x.renamings + h.byTemplate.toNat⟩ else x

def after (x : Fate) (hs : List Hop) : Fate := hs.foldl take x

lemma after_append (x : Fate) (hs es : List Hop) : x.after (hs ++ es) = (x.after hs).after es := List.foldl_append

end Fate

def Action.isTemplate : Action → Bool
  | tokenRename _ => true
  | _ => false

/-- Does the action rename by no template but this one, and else only move, tag or colour its file? -/
def Action.shifts (template : String) : Action → Bool
  | tokenRename t => t = template
  | move _ | deleteToTrash | addTag _ | removeTag _ | colorLabel _ | markAsDuplicate _ => true
  | _ => false

def UndoRecord.hop? (cwd : Place) (byTemplate : Bool) (r : UndoRecord) : Option Hop :=
  match r.mode with
  | .move => some ⟨r.source.place cwd, r.target.place cwd, byTemplate⟩
  | .copy => none

def Step.hops (cwd : Place) (x : Step) : List Hop := x.effect.records.filterMap (UndoRecord.hop? cwd x.action.isTemplate)

def Outcome.hops (cwd : Place) (o : Outcome) : List Hop := o.steps.flatMap (Step.hops cwd)

/-- What is at the place was renamed by the template. -/
def TagStore.Marked (template : String) (u : TagStore) (q : Place) : Prop :=
  u.field (.ofPlace q) renamedBy = some template

/-- What the template has renamed is there, and bears the mark. -/
def Fate.Known (template : String) (t : Tree) (u : TagStore) (x : Fate) : Prop :=
  x.renamings = 0 ∨ x.renamings = 1 ∧ u.Marked template x.place ∧ t.bytes? x.place ≠ none

/-- Files went where the hops say, no two of them to one place, and nothing that the template did to one of them is
forgotten, whenever one began to look at it. -/
structure Passes (template : String) (t : Tree) (u : TagStore) (hs : List Hop) (t' : Tree) (u' : TagStore) : Prop where
  there : ∀ x : Fate, t.bytes? x.place ≠ none → t'.bytes? (x.after hs).place ≠ none
  apart : ∀ x y : Fate, t.bytes? x.place ≠ none → t.bytes? y.place ≠ none → x.place ≠ y.place →
    (x.after hs).place ≠ (y.after hs).place
  known : ∀ x : Fate, x.Known template t u → (x.after hs).Known template t' u'
  late : ∀ es, es <:+ hs → ∀ q, ((⟨q, 0⟩ : Fate).after es).Known template t' u'

variable {s : Setting} {template : String} {t t' t'' : Tree} {u u' u'' : TagStore} {hs es : List Hop} {h : Hop}
  {f : FileInfo} {w w₀ : Workspace} {a : Action} {o : Outcome} {c : ByteArray} {rule : String}

namespace Passes

/-- Nothing went anywhere. -/
lemma quiet (hthere : ∀ q, t.bytes? q ≠ none → t'.bytes? q ≠ none)
    (hkept : ∀ q, t.bytes? q ≠ none → u.Marked template q → u'.Marked template q) : Passes template t u [] t' u' where
  there x hx := hthere x.place hx
  apart _ _ _ _ hne := hne
  known x hx := hx.imp_right fun ⟨hone, hmarked, hbytes⟩ => ⟨hone, hkept _ hbytes hmarked, hthere _ hbytes⟩
  late es hes q := by
    rw [List.suffix_nil.1 hes]
    exact Or.inl rfl

lemma refl (template : String) (t : Tree) (u : TagStore) : Passes template t u [] t u :=
  .quiet (fun _ hq => hq) fun _ _ hq => hq

lemma hop (hfree : t.bytes? h.target = none) (hcame : t'.bytes? h.target ≠ none)
    (hother : ∀ q ≠ h.source, t.bytes? q ≠ none → t'.bytes? q ≠ none)
    (hkept : ∀ q ≠ h.source, t.bytes? q ≠ none → u.Marked template q → u'.Marked template q)
    (hcarried : u.Marked template h.source → u'.Marked template h.target)
    (hmarked : h.byTemplate = true → u'.Marked template h.target)
    (hfresh : h.byTemplate = true → ¬u.Marked template h.source) : Passes template t u [h] t' u' := by
  have hone : ∀ x : Fate, x.after [h] = x.take h := fun _ => rfl
  have hknown : ∀ x : Fate, x.Known template t u → (x.after [h]).Known template t' u' := by
    intro x hx
    rw [hone, Fate.take]
    split_ifs with hplace
    · rw [Fate.Known]
      dsimp only
      rcases hx with hzero | ⟨hx, hbears, -⟩
      · rw [hzero, Nat.zero_add]
        cases hnamed : h.byTemplate with
        | false => exact Or.inl rfl
        | true => exact Or.inr ⟨rfl, hmarked hnamed, hcame⟩
      · -- What bears the mark is not renamed by the template.
        rw [← hplace] at hbears
        cases hnamed : h.byTemplate with
        | false => exact Or.inr ⟨hx, hcarried hbears, hcame⟩
        | true => exact absurd hbears (hfresh hnamed)
    · have hne : x.place ≠ h.source := fun heq => hplace heq.symm
      exact hx.imp_right fun ⟨hx, hbears, hbytes⟩ => ⟨hx, hkept _ hne hbytes hbears, hother _ hne hbytes⟩
  refine ⟨fun x hx => ?_, fun x y hx hy hne => ?_, hknown, fun es hes q => ?_⟩
  · rw [hone, Fate.take]
    split_ifs with hplace
    · exact hcame
    · exact hother _ (fun heq => hplace heq.symm) hx
  · have htarget : ∀ z : Fate, t.bytes? z.place ≠ none → z.place ≠ h.target := fun z hz heq => hz (heq ▸ hfree)
    rw [hone, hone, Fate.take, Fate.take]
    split_ifs with hx' hy' hy'
    · exact absurd (hx'.symm.trans hy') hne
    · exact (htarget y hy).symm
    · exact htarget x hx
    · exact hne
  · rcases List.suffix_cons_iff.1 hes with rfl | hnil
    · exact hknown _ (Or.inl rfl)
    · rw [List.suffix_nil.1 hnil]
      exact Or.inl rfl

lemma append {hs' : List Hop} (h : Passes template t u hs t' u') (h' : Passes template t' u' hs' t'' u'') :
    Passes template t u (hs ++ hs') t'' u'' := by
  refine ⟨fun x hx => Fate.after_append x hs hs' ▸ h'.there _ (h.there x hx), fun x y hx hy hne => ?_,
    fun x hx => Fate.after_append x hs hs' ▸ h'.known _ (h.known x hx), ?_⟩
  · rw [Fate.after_append, Fate.after_append]
    exact h'.apart _ _ (h.there x hx) (h.there y hy) (h.apart x y hx hy hne)
  rintro es ⟨before, heq⟩ q
  rcases List.append_eq_append_iff.1 heq with ⟨rest, rfl, rfl⟩ | ⟨rest, rfl, rfl⟩
  · rw [Fate.after_append]
    exact h'.known _ (h.late rest (List.suffix_append _ _) q)
  · exact h'.late es (List.suffix_append _ _) q

end Passes

/-- No value is put on record but the mark. -/
def OnlyMarks (template : String) (ns : List Note) : Prop :=
  ∀ name value, .setField name value ∈ ns → name = renamedBy ∧ value = template

/-- The mark stays, whatever else is noted. -/
lemma Facts.renamedBy_takeAll {print : Fingerprint} {ns : List Note} {x : Facts} (hns : OnlyMarks template ns)
    (hx : x.fields renamedBy = some template) : (x.takeAll print ns).fields renamedBy = some template := by
  induction ns generalizing x with
  | nil => exact hx
  | cons n ns ih =>
    refine ih (fun name value hmem => hns name value (List.mem_cons_of_mem _ hmem)) ?_
    cases n with
    | setField name value =>
      obtain ⟨rfl, rfl⟩ := hns name value List.mem_cons_self
      simp [Facts.take]
    | _ => exact hx

lemma Facts.renamedBy_template (x : Facts) (print : Fingerprint) :
    (x.takeAll print (Action.tokenRename template).notes).fields renamedBy = some template := by
  simp [Action.notes, takeAll, Facts.take]

namespace Passes

section

variable {print : Fingerprint} {ns : List Note} (hns : OnlyMarks template ns)

include hns

/-- All files stay where they are, and what is on record about them is added to. -/
lemma of_stays {k : Path} (hst : t.Steady ∅ t') (hgoes : TagStore.Goes k k print ns u u') :
    Passes template t u [] t' u' := by
  refine quiet (fun q hq => ?_) fun q _ hbears => ?_
  · obtain ⟨b, hb⟩ := Option.ne_none_iff_exists'.1 hq
    simp [hst.bytes q (Set.notMem_empty q) b hb]
  · rw [TagStore.Marked] at hbears ⊢
    by_cases hq : Path.ofPlace q = k
    · rw [hq] at hbears ⊢
      exact (congrArg (fun x : Facts => x.fields renamedBy) hgoes.own).trans (Facts.renamedBy_takeAll hns hbears)
    · exact (congrArg (fun x : Facts => x.fields renamedBy) (hgoes.other _ hq hq)).trans hbears

/-- One file goes to where nothing was, and what is on record about it goes with it. -/
lemma of_goes {host : Host} {source target : Path} {byTemplate : Bool} (hcwd : ∀ n ∈ host.cwd, Proper n) (ht : t.Tidy)
    (hread : t.read host.cwd source = .ok c) (hst : t.Steady {source.place host.cwd} t')
    (hgot : Receives host.cwd target c t t') (hgoes : TagStore.Goes (host.key source) (host.key target) print ns u u')
    (hnamed : byTemplate = true → ns = (Action.tokenRename template).notes ∧
      u.field (host.key source) renamedBy ≠ some template) :
    Passes template t u [⟨source.place host.cwd, target.place host.cwd, byTemplate⟩] t' u' := by
  obtain ⟨hat, hfree⟩ := hgot
  have hkey := key_eq hcwd hread
  have hkey' := key_eq hcwd hat
  have hown : u'.field (host.key target) renamedBy = ((u.facts (host.key source)).takeAll print ns).fields renamedBy :=
    congrArg (fun x : Facts => x.fields renamedBy) hgoes.own
  rw [hkey] at hnamed
  rw [hkey, hkey'] at hown
  refine hop (by simp [Tree.bytes?, hfree]) (by simp [bytes?_of_read hst.sound hst.plain hat]) (fun q hq hbytes => ?_)
    (fun q hq hbytes hbears => ?_) (fun hbears => ?_) (fun hyes => ?_) fun hyes => (hnamed hyes).2
  · obtain ⟨b, hb⟩ := Option.ne_none_iff_exists'.1 hbytes
    simp [hst.bytes q hq b hb]
  · -- The path of another place is another key.
    have hproper : ∀ n ∈ q, Proper n := ht.proper q fun hnone => hbytes (by simp [Tree.bytes?, hnone])
    have hfacts := hgoes.other (.ofPlace q) (fun heq => ?_) fun heq => ?_
    · exact (congrArg (fun x : Facts => x.fields renamedBy) hfacts).trans hbears
    · rw [hkey] at heq
      exact hq ((TagStore.ofPlace_inj hproper (Path.proper_place hcwd)).1 heq)
    · rw [hkey'] at heq
      rw [(TagStore.ofPlace_inj hproper (Path.proper_place hcwd)).1 heq] at hbytes
      exact hbytes (by simp [Tree.bytes?, hfree])
  · exact hown.trans (Facts.renamedBy_takeAll hns hbears)
  · rw [(hnamed hyes).1, Facts.renamedBy_template] at hown
    exact hown

end

end Passes

lemma Task.moveTo_records (target : Path) (told : String) (why : Fault → String) :
    ((moveTo s f w target told why).1.newPath = none ∧ (moveTo s f w target told why).1.records = []) ∨
      (moveTo s f w target told why).1.newPath = some target ∧ (moveTo s f w target told why).1.status = .applied ∧
        (moveTo s f w target told why).1.records = [record s f target .move] := by
  rw [moveTo_eq]
  rcases moveFile s.host.toActor f.path target w.tree with ⟨e | _, t'⟩
  · exact Or.inl ⟨rfl, rfl⟩
  · exact Or.inr ⟨rfl, rfl, rfl⟩

lemma Task.rename_moves (newName : String) (template : Option String) : ∃ v target told why, v.tree = w.tree ∧
    ((rename newName template).perform s f w).1 = (moveTo s f v target told why).1 ∧
      ((rename newName template).perform s f w).2.tree = (moveTo s f v target told why).2.tree := by
  unfold perform
  dsimp only
  rw [noteTemplate_tree]
  exact ⟨(w.claim s.host.cwd f.parent newName).2, _, _, _, rfl, rfl, rfl⟩

namespace Action

lemma onlyMarks_notes (ha : a.shifts template = true) : OnlyMarks template a.notes := by
  intro name value h
  cases a <;> simp_all [notes, shifts]

/-- What the action does, but for the store: nothing, or a move to somewhere. -/
lemma run_shifts (ha : a.shifts template = true) (hdry : s.config.dryRun = false) :
    ((a.run s f w).1.newPath = none ∧ (a.run s f w).1.records = [] ∧ (a.run s f w).2.tree = w.tree) ∨
      ∃ v target told why, v.tree = w.tree ∧ (a.run s f w).1 = (Task.moveTo s f v target told why).1 ∧
        (a.run s f w).2.tree = (Task.moveTo s f v target told why).2.tree := by
  unfold run
  cases hj : a.judge s w f with
  | error e =>
    obtain ⟨hrecords, hnew⟩ := (judge_barren hj).idle
    exact Or.inl ⟨hnew, hrecords, rfl⟩
  | ok task =>
    dsimp only
    rw [if_neg (by simp [hdry])]
    have hl := leaves_of_judge hj
    cases a with
    | tokenRename n =>
      obtain ⟨rfl, -⟩ := judgeRename_ok (by rwa [judge] at hj)
      exact Or.inr (Task.rename_moves _ _)
    | move d =>
      obtain ⟨rfl, -⟩ := judgeTransfer_ok (by rwa [judge] at hj)
      unfold Task.perform
      dsimp only
      exact Or.inr ⟨(w.claim s.host.cwd (Template.directory d f s.root) f.name).2, _, _, _, rfl, rfl, rfl⟩
    | deleteToTrash =>
      obtain ⟨rfl, -⟩ := judgeDiscard_ok (by rwa [judge] at hj)
      unfold Task.perform
      dsimp only
      exact Or.inr ⟨(w.claim s.host.cwd s.trash f.name).2, _, _, _, rfl, rfl, rfl⟩
    | addTag tag =>
      obtain ⟨rfl, -⟩ := judgeAddTag_ok (by rwa [judge] at hj)
      unfold Task.perform
      dsimp only
      split <;> exact Or.inl ⟨rfl, rfl, rfl⟩
    | removeTag tag =>
      obtain ⟨rfl, -⟩ := judgeRemoveTag_ok (by rwa [judge] at hj)
      unfold Task.perform
      dsimp only
      split <;> exact Or.inl ⟨rfl, rfl, rfl⟩
    | colorLabel color =>
      obtain ⟨rfl, -⟩ := judgeColor_ok (by rwa [judge] at hj)
      exact Or.inl ⟨rfl, rfl, rfl⟩
    | markAsDuplicate tag =>
      obtain ⟨twin, rfl, -⟩ := judgeMark_ok (by rwa [judge] at hj)
      unfold Task.perform
      dsimp only
      rcases w.store.index s.host w.tree f.path with ⟨e | print, store⟩
      · exact Or.inl ⟨rfl, rfl, rfl⟩
      · cases twin <;> exact Or.inl ⟨rfl, rfl, rfl⟩
    | _ => cases ha

section

variable (ha : a.shifts template = true) (hdry : s.config.dryRun = false)

include ha

lemma ne_delete_of_shifts : a ≠ .delete := by
  rintro rfl
  cases ha

lemma ne_launch_of_shifts (p : String) (as : List String) (n : Nat) : a ≠ .runCommand p as n := by
  rintro rfl
  cases ha

lemma sendsDown_of_shifts : a.SendsDown s f := by
  rintro d rfl
  cases ha

include hdry

lemma run_tidy (hcwd : ∀ n ∈ s.host.cwd, Proper n) (ht : w.tree.Tidy) : (a.run s f w).2.tree.Tidy := by
  rcases run_shifts (f := f) (w := w) ha hdry with ⟨-, -, htree⟩ | ⟨v, target, told, why, hv, -, htree⟩
  · exact htree ▸ ht
  · rw [htree, Task.moveTo_tree, hv]
    exact tidies_moveFile hcwd _ ht

/-- What an action for a template or for a move takes down is where its file has gone. -/
lemma run_records : ((a.run s f w).1.newPath = none ∧ (a.run s f w).1.records = []) ∨
    ∃ p, (a.run s f w).1.newPath = some p ∧ (a.run s f w).1.status = .applied ∧
      (a.run s f w).1.records = [Task.record s f p .move] := by
  rcases run_shifts (f := f) (w := w) ha hdry with ⟨hnew, hrecords, -⟩ | ⟨v, target, told, why, -, heffect, -⟩
  · exact Or.inl ⟨hnew, hrecords⟩
  · rw [heffect]
    exact (Task.moveTo_records target told why).imp_right fun h => ⟨target, h⟩

end

/-- A template does not rename what bears its mark. -/
lemma unmarked_of_applied {n : String} (hdry : s.config.dryRun = false)
    (h : ((tokenRename n).run s f w).1.status = .applied) : w.store.field (s.host.key f.path) renamedBy ≠ some n := by
  obtain ⟨task, hj, -, -⟩ := run_applied h
  obtain ⟨-, -, -, -, hfield, -⟩ := judgeRename_ok (by rwa [judge] at hj)
  have hne := hfield rfl
  rwa [Workspace.view_real hdry] at hne

/-- The file stays or goes on, and the mark with it. -/
lemma run_passes (rule : String) (ha : a.shifts template = true) (hdry : s.config.dryRun = false)
    (hcwd : ∀ n ∈ s.host.cwd, Proper n) (ht : w.tree.Tidy) (hnamed : f.Named) (hread : w.tree.read s.host.cwd f.path = .ok c) :
    Passes template w.tree w.store (Step.hops s.host.cwd ⟨rule, a, (a.run s f w).1⟩) (a.run s f w).2.tree
      (a.run s f w).2.store := by
  obtain ⟨ns, hns, hgoes⟩ := run_files hcwd ht.sound ht.plain hread hdry (ne_launch_of_shifts ha)
  have hfollow := run_follows ht.sound ht.plain hread hdry (ne_delete_of_shifts ha) (ne_launch_of_shifts ha) hnamed.stem
    (sendsDown_of_shifts ha)
  have honly : OnlyMarks template ns := fun name value hmem => onlyMarks_notes ha name value (hns.1.subset hmem)
  rcases run_records (f := f) (w := w) ha hdry with ⟨hnew, hrecords⟩ | ⟨p, hnew, happlied, hrecords⟩
  · rw [Step.hops, hrecords, List.filterMap_nil]
    rw [Task.take_of_none hnew] at hgoes
    exact .of_stays honly (hfollow.stays hnew) hgoes
  · have hhop : Step.hops s.host.cwd ⟨rule, a, (a.run s f w).1⟩ =
        [⟨f.path.place s.host.cwd, p.place s.host.cwd, a.isTemplate⟩] := by
      rw [Step.hops, hrecords]
      rfl
    rw [Task.take_of_some hnew] at hgoes
    rw [hhop]
    refine .of_goes honly hcwd ht hread hfollow.steady (hfollow.lands p hnew) hgoes fun hyes => ?_
    obtain ⟨n, rfl⟩ : ∃ n, a = .tokenRename n := by
      cases a <;> first | exact ⟨_, rfl⟩ | cases hyes
    obtain rfl : n = template := by simpa [shifts] using ha
    exact ⟨hns.2.1 happlied, unmarked_of_applied hdry happlied⟩

end Action

namespace Outcome

/-- The file is on its way through the rules: it is there, no other file is where it is, and all that was done is told
by its hops. -/
structure Underway (s : Setting) (template : String) (f : FileInfo) (w₀ : Workspace) (o : Outcome) (w : Workspace) :
    Prop where
  tidy : w.tree.Tidy
  named : o.file.Named
  read : ∃ c, w.tree.read s.host.cwd o.file.path = .ok c
  steady : w₀.tree.Steady {f.path.place s.host.cwd} w.tree
  apart : ∀ q ≠ f.path.place s.host.cwd, w₀.tree.bytes? q ≠ none → q ≠ o.file.path.place s.host.cwd
  passes : Passes template w₀.tree w₀.store (o.hops s.host.cwd) w.tree w.store

lemma Underway.runAction (ha : a.shifts template = true) (hdry : s.config.dryRun = false)
    (hcwd : ∀ n ∈ s.host.cwd, Proper n) (rule : String) (h : o.Underway s template f w₀ w) :
    (o.runAction s rule a w).1.Underway s template f w₀ (o.runAction s rule a w).2 := by
  obtain ⟨c, hread⟩ := h.read
  have hs := h.tidy.sound
  have hp := h.tidy.plain
  have hread' := refresh_read hcwd hs hp hread
  have hnamed := refresh_named (s := s) (w := w) h.named
  have hplace := (refresh_path hcwd w o.file).1
  have htidy := Action.run_tidy (f := refresh s w o.file) ha hdry hcwd h.tidy
  have hpasses := Action.run_passes rule ha hdry hcwd h.tidy hnamed hread'
  have hfollow := Action.run_follows hs hp hread' hdry (Action.ne_delete_of_shifts ha) (Action.ne_launch_of_shifts ha)
    hnamed.stem (Action.sendsDown_of_shifts ha)
  rw [runAction_real hdry, runAction_fst]
  generalize refresh s w o.file = g at *
  generalize a.run s g w = x at *
  obtain ⟨e, w'⟩ := x
  dsimp only at *
  have hstays : ∀ q ≠ f.path.place s.host.cwd, w₀.tree.bytes? q ≠ none → w.tree.bytes? q ≠ none := by
    intro q hq hbytes
    obtain ⟨b, hb⟩ := Option.ne_none_iff_exists'.1 hbytes
    simp [h.steady.bytes q hq b hb]
  refine ⟨htidy, ?_, ?_, ⟨htidy.sound, htidy.plain, fun q hq => hfollow.steady.dirs q (h.steady.dirs q hq),
    fun q hq b hb => ?_⟩, fun q hq hbytes => ?_, ?_⟩
  · rw [Effect.take]
    split
    · exact hnamed
    · exact FileInfo.named_relocated _ _
  · cases hnew : e.newPath with
    | none => exact ⟨c, by rw [Task.take_of_none hnew]; exact (hfollow.stays hnew).read hs hp (Set.notMem_empty _) hread'⟩
    | some p => exact ⟨c, by rw [Task.take_of_some hnew]; exact (hfollow.lands p hnew).1⟩
  · refine hfollow.steady.bytes q ?_ b (h.steady.bytes q hq b hb)
    exact fun heq => h.apart q hq (by simp [hb]) ((Set.mem_singleton_iff.1 heq).trans hplace)
  · cases hnew : e.newPath with
    | none =>
      rw [Task.take_of_none hnew, hplace]
      exact h.apart q hq hbytes
    | some p =>
      rw [Task.take_of_some hnew]
      intro heq
      exact hstays q hq hbytes (by simp [Tree.bytes?, heq, (hfollow.lands p hnew).2])
  · rw [hops, List.flatMap_append, List.flatMap_singleton]
    exact h.passes.append hpasses

/-- What the template has renamed it does not rename again, however the rules take the file on. -/
lemma underway_runAll {rules : List Rule} (hrules : ∀ r ∈ rules, ∀ a ∈ r.actions, a.shifts template = true)
    (hdry : s.config.dryRun = false) (hcwd : ∀ n ∈ s.host.cwd, Proper n) (ht : w.tree.Tidy) (hnamed : f.Named)
    (hread : w.tree.read s.host.cwd f.path = .ok c) :
    (Rule.runAll s rules f w).1.Underway s template f w (Rule.runAll s rules f w).2 := by
  refine runRules_keeps (I := fun o v => o.Underway s template f w v)
    ⟨ht, hnamed, ⟨c, hread⟩, .refl ht.sound ht.plain, fun q hq _ => hq, .refl _ _ _⟩ ?_ ?_
  · exact fun r _ o v h => ⟨h.tidy, h.named, h.read, h.steady, h.apart, h.passes⟩
  · exact fun r hr a ha o v _ h => h.runAction (hrules r hr a ha) hdry hcwd r.name

end Outcome

end FileOrganizer
