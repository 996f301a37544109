import FileOrganizer.Proofs.Batch.Tracking
import FileOrganizer.Proofs.Batch.Unpacking
import FileOrganizer.Proofs.Tree.Confined

/-! An action that puts something into a directory inside the root changes nothing but what lies below the root. -/

namespace FileOrganizer

open FileOrganizer.Tree FileOrganizer.Disk

variable {s : Setting} {f : FileInfo} {w : Workspace} {host : Host} {t t' : Tree} {R : Place}
  {root dir source target p : Path} {ps : List Part} {ns : List String} {name : String} {k : ℕ}
  {r : Except Fault Unit} {x : Except Fault Unit × List Path} {m : Member} {ms : List Member} {bytes : ByteArray}

namespace Archive

lemma inner_of_depth (h : depth? 0 ps = some k) : Path.Inner ps := by
  intro base qs hqs
  obtain ⟨k', hk'⟩ := depth?_prefix h hqs
  obtain ⟨ys, -, hys⟩ := reduce_depth base.reverse hk' [] List.length_nil
  rw [List.nil_append] at hys
  simp [hys]

/-- The way to a member goes on from the directory. -/
lemma enters_inside (hroot : root.isAbsolute = true) (hdir : root.Enters dir) (hne : dir.body ≠ root.body)
    (hin : inside? m = some p) : root.Enters (dir.join p) ∧ (dir.join p).body ≠ root.body := by
  obtain ⟨hrel, k, hk⟩ := depth?_inside hin
  obtain ⟨habs, ps, hps, hinner⟩ := hdir
  have htext := text_of_absolute (habs.trans hroot)
  have hbody : (dir.join p).body = root.body ++ (ps ++ p.body) := by
    rw [Path.body_join htext hrel, hps, List.append_assoc]
  refine ⟨⟨?_, _, hbody, hinner.append (inner_of_depth hk)⟩, fun heq => hne ?_⟩
  · rw [Path.isAbsolute_join htext, habs, hroot, Bool.true_or]
  · have hnil : ps = [] ∧ p.body = [] := by simpa [hbody] using heq
    rw [hps, hnil.1, List.append_nil]

section

variable (hsite : t.Site host.cwd root R)

include hsite

lemma write_changesBelow (hp : root.Below target) (h : write host source name target t = (r, t')) :
    t'.Site host.cwd root R ∧ t.ChangesBelow t' R := by
  obtain ⟨henters, hne⟩ := hp.enters
  obtain ⟨hs', t₁, ht₁, -, -, hcase⟩ := write_cases hsite.sound h
  rcases hmk : makeParents host.toActor target t with ⟨rm, t₂⟩
  obtain rfl : t₁ = t₂ := by rw [ht₁, hmk]
  obtain ⟨hsite₁, hmade⟩ := (DirsMade.of_makeParents hmk).changesBelow hsite henters
  refine ⟨hsite.of_adds hs' (adds_of_write hsite.sound h), ?_⟩
  rcases hcase with ⟨-, rfl⟩ | ⟨q, x, -, hloc, -, hset, -⟩
  · exact hmade
  · exact hmade.trans (hset.changesBelow (hsite₁.locate_below henters hne hloc))

lemma makeNew_changesBelow (hp : root.Enters p) (hne : p.body ≠ root.body) (h : (makeParents host.toActor p >>= fun _ =>
    change (Tree.createFile host.toActor p bytes)) t = (r, t')) : t.ChangesBelow t' R := by
  rw [run_bind] at h
  rcases hmk : makeParents host.toActor p t with ⟨rm, t₁⟩
  obtain ⟨hsite₁, hmade⟩ := (DirsMade.of_makeParents hmk).changesBelow hsite hp
  rw [hmk] at h
  cases rm with
  | error e =>
    cases h
    exact hmade
  | ok _ =>
    dsimp only [change] at h
    cases hcr : Tree.createFile host.toActor p bytes t₁ with
    | error e =>
      rw [hcr] at h
      cases h
      exact hmade
    | ok t₂ =>
      rw [hcr] at h
      cases h
      obtain ⟨q, -, hloc, -, hset⟩ := createFile_ok hsite₁.sound hcr
      exact hmade.trans (hset.changesBelow (hsite₁.locate_below hp hne hloc))

variable (hroot : root.isAbsolute = true) (hdir : root.Enters dir) (hne : dir.body ≠ root.body)

include hroot hdir hne

lemma extractMember_changesBelow (h : extractMember host dir m t = (x, t')) :
    t'.Site host.cwd root R ∧ t.ChangesBelow t' R := by
  obtain ⟨hs', hadd⟩ := extractMember_adds hsite.sound h
  refine ⟨hsite.of_adds hs' hadd, ?_⟩
  unfold extractMember at h
  split at h
  · cases h
    exact .refl t R
  · cases h
    exact .refl t R
  · next p hin _ =>
    obtain ⟨hp, hpne⟩ := enters_inside hroot hdir hne hin
    dsimp only at h
    split at h
    · rcases hmk : makeDirs host.toActor (dir.join p) t with ⟨rm, t₁⟩
      rw [hmk] at h
      cases h
      exact ((DirsMade.of_makeDirsFrom hmk).changesBelow hsite hp).2
    · split at h
      · next hmk =>
        cases h
        exact makeNew_changesBelow hsite hp hpne hmk
      · next hmk =>
        cases h
        exact makeNew_changesBelow hsite hp hpne hmk

lemma extractAll_changesBelow (h : extractAll host dir ms t = (x, t')) : t.ChangesBelow t' R := by
  induction ms generalizing t x with
  | nil =>
    cases h
    exact .refl _ R
  | cons m ms ih =>
    rw [extractAll] at h
    split at h
    · next hm =>
      cases h
      exact (extractMember_changesBelow hsite hroot hdir hne hm).2
    · next made t₁ hm =>
      obtain ⟨hsite₁, hfirst⟩ := extractMember_changesBelow hsite hroot hdir hne hm
      rcases hrest : extractAll host dir ms t₁ with ⟨y, t₂⟩
      rw [hrest] at h
      cases h
      exact hfirst.trans (ih hsite₁ hrest)

/-- Whatever the members are called, nothing is unpacked beside the directory. -/
lemma extract_changesBelow (h : extract host source dir t = (x, t')) : t.ChangesBelow t' R := by
  unfold extract at h
  split at h
  · cases h
    exact .refl t R
  · split at h
    · next hmk =>
      cases h
      exact ((DirsMade.of_makeDirsFrom hmk).changesBelow hsite hdir).2
    · next hmk =>
      obtain ⟨hsite₁, hmade⟩ := (DirsMade.of_makeDirsFrom hmk).changesBelow hsite hdir
      exact hmade.trans (extractAll_changesBelow hsite₁ hroot hdir hne h)

end

end Archive

namespace FileInfo

/-- A file below a directory has a name of its own. -/
lemma fileName?_of_below (hpath : root.Below f.path) : ∃ n, f.path.fileName? = some n := by
  obtain ⟨-, ps, n, hps, -⟩ := hpath
  refine ⟨n, ?_⟩
  rw [Path.fileName?, Path.parts_eq, List.getLast?_append, hps, ← List.append_assoc, List.getLast?_concat]
  rfl

lemma proper_of_below (hf : f.Named) (hpath : root.Below f.path) : Proper f.name := by
  obtain ⟨n, hn⟩ := fileName?_of_below hpath
  rw [hf.name_eq, Path.fileName, hn, Option.getD_some]
  exact Path.proper_fileName hn

end FileInfo

namespace Task

/-- The task puts something into a directory inside the root, or makes one. -/
def Into (root : Path) : Task → Prop
  | transfer _ dir | makeDirs dir => root.Enters dir
  | archive dir name => Proper name ∧ root.Enters dir
  | extract dir name => ∀ k, root.Enters (dir.child (FileName.numbered name k)) ∧
      (dir.child (FileName.numbered name k)).body ≠ root.body
  | _ => False

/-- A name that is claimed in such a directory is one below it. -/
lemma below_claim (hdir : root.Enters dir) (hname : Proper name) :
    root.Below (w.claim s.host.cwd dir name).1.path := by
  obtain ⟨k, hk⟩ := w.claim_path s.host.cwd dir name
  rw [hk]
  exact hdir.child (FileName.proper_variant hname k)

/-- What a task does inside the root stays below the root. -/
lemma treeAfter_changesBelow (hroot : root.isAbsolute = true) (hsite : w.tree.Site s.host.cwd root R) (hf : f.Named)
    (hpath : root.Below f.path) {task : Task} (hinto : task.Into root) :
    w.tree.ChangesBelow (task.treeAfter s f w) R := by
  have hname := FileInfo.proper_of_below hf hpath
  cases task with
  | transfer mode dir =>
    have hclaim : root.Below (w.claim s.host.cwd dir f.name).1.path := below_claim hinto hname
    cases mode with
    | move => exact moveFile_changesBelow hsite hpath hclaim Prod.mk.eta.symm
    | copy => exact copyFile_changesBelow hsite hclaim Prod.mk.eta.symm
  | archive dir name =>
    have hclaim : root.Below (w.claim s.host.cwd dir name).1.path := below_claim hinto.2 hinto.1
    unfold treeAfter
    dsimp only
    split
    · next hw => exact (Archive.write_changesBelow hsite hclaim hw).2
    · next t₁ hw =>
      obtain ⟨hsite₁, hwritten⟩ := Archive.write_changesBelow hsite hclaim hw
      refine hwritten.trans ?_
      unfold Disk.change
      split
      · next hrem => exact removeFile_changesBelow hsite₁ hclaim hrem
      · exact .refl t₁ R
  | extract dir name =>
    obtain ⟨k, hk⟩ := w.claim_path s.host.cwd dir name
    obtain ⟨henters, hne⟩ := hinto k
    rw [← hk] at henters hne
    exact Archive.extract_changesBelow hsite hroot henters hne Prod.mk.eta.symm
  | makeDirs dir =>
    have hmade : DirsMade s.host.toActor dir w.tree (Disk.makeDirs s.host.toActor dir w.tree).2 :=
      .of_makeDirsFrom Prod.mk.eta.symm
    exact (hmade.changesBelow hsite hinto).2
  | _ => exact hinto.elim

end Task

namespace Action

/-- The template of the directory that an action works in, if it has one. -/
def directory? : Action → Option String
  | move d | copy d | createFolder d => some d
  | archive d | extract d => d
  | _ => none

/-- A stem that is a dot or two dots does not lead above the root where the path before it goes down once more. -/
lemma enters_stem {d : Path} {qs : List Part} (hf : f.Named) (hpath : root.Below f.path)
    (hroot : root.isAbsolute = true) (habs : d.isAbsolute = root.isAbsolute) (hbody : d.body = root.body ++ qs)
    (hinner : Path.Inner (qs ++ [.up])) (k : ℕ) :
    root.Enters (d.child (FileName.numbered f.stem k)) ∧ (d.child (FileName.numbered f.stem k)).body ≠ root.body := by
  have hslash := hf.stem
  have hqs : Path.Inner qs := hinner.initial (List.prefix_append _ _)
  have hdown : root.Enters d := ⟨habs, qs, hbody, hqs⟩
  have hproper : ∀ {n}, Proper n → root.Enters (d.child n) ∧ (d.child n).body ≠ root.body :=
    fun hn => (hdown.child hn).enters
  by_cases hk : k ≠ 0
  · exact hproper (FileName.proper_numbered hslash hk)
  obtain rfl := not_not.1 hk
  rw [FileName.numbered, if_pos rfl]
  have hname := (FileInfo.proper_of_below hf hpath).1
  rw [hf.name_eq] at hname
  have hstem := hf.stem_ne_of_name hname
  have htext := text_of_absolute (habs.trans hroot)
  by_cases hdot : f.stem = "."
  · have hsame : (d.child ".").body = root.body ++ qs := by
      rw [Path.child, Path.body_join htext (by decide), hbody, show (⟨"."⟩ : Path).body = [] by decide, List.append_nil]
    rw [hdot]
    refine ⟨⟨(Path.isAbsolute_join htext).trans (by rw [habs, hroot]; rfl), qs, hsame, hqs⟩, fun heq => ?_⟩
    obtain rfl : qs = [] := by simpa [hsame] using heq
    exact absurd (hinner ["a"] [.up] List.prefix_rfl) (by decide)
  by_cases hdots : f.stem = ".."
  · have hup : (d.child "..").body = root.body ++ (qs ++ [.up]) := by
      rw [Path.child, Path.body_join htext (by decide), hbody, List.append_assoc,
        show (⟨".."⟩ : Path).body = [.up] by decide]
    rw [hdots]
    exact ⟨⟨(Path.isAbsolute_join htext).trans (by rw [habs, hroot]; rfl), _, hup, hinner⟩, by simp [hup]⟩
  · exact hproper ⟨hstem, hdot, hdots, hslash⟩

/-- The members of an archive go into a new directory of the name that the path ends with, or of the stem of the archive
where the path ends with `..`. -/
lemma extractTo_into {template : String} (hf : f.Named) (hpath : s.root.Below f.path) (hroot : s.root.isAbsolute = true)
    (hdir : s.root.Enters (Template.directory template f s.root))
    (hne : (Template.directory template f s.root).body ≠ s.root.body) :
    Task.Into s.root (.extract (extractTo s f (some template)).1 (extractTo s f (some template)).2) := by
  obtain ⟨habs, ps, hps, hinner⟩ := hdir
  obtain ⟨qs, c, rfl⟩ := (List.eq_nil_or_concat ps).resolve_left fun hnil => hne (by rw [hps, hnil, List.append_nil])
  rw [List.concat_eq_append] at hps hinner
  have hmem : c ∈ (Template.directory template f s.root).body := by simp [hps]
  have hord := Path.ordinary_of_mem_body hmem
  obtain ⟨rest, hparent, -⟩ := Path.parent?_absolute (habs.trans hroot) (hps.trans (List.append_assoc _ _ _).symm)
  obtain ⟨habs', hbody⟩ := Path.parent?_body hparent
  rw [hps, ← List.append_assoc, List.dropLast_concat] at hbody
  have habove : s.root.Enters (Path.above rest) :=
    ⟨habs'.trans habs, qs, hbody, hinner.initial (List.prefix_append _ _)⟩
  have hlast : (Template.directory template f s.root).parts.getLast? = some c := by
    rw [Path.parts_eq, List.getLast?_append, hps, ← List.append_assoc, List.getLast?_concat]
    rfl
  unfold extractTo
  dsimp only
  rw [hparent, Option.getD_some, Path.fileName?, hlast]
  cases c with
  | root => exact hord.elim
  | here => exact hord.elim
  | name n => exact fun k => (habove.child (FileName.proper_variant hord k)).enters
  | up => exact fun k => enters_stem hf hpath hroot habove.1 hbody hinner k

/-- An action is left with a task inside the root if its directory is there; to unpack an archive it must not be the root
itself, as the members go into a new directory of that name. -/
lemma into_of_judge {a : Action} {template : String} {task : Task} (hf : f.Named) (hpath : s.root.Below f.path)
    (hroot : s.root.isAbsolute = true) (ha : a.directory? = some template)
    (hdir : s.root.Enters (Template.directory template f s.root))
    (hne : a = .extract (some template) → (Template.directory template f s.root).body ≠ s.root.body)
    (h : a.judge s w f = .ok task) : task.Into s.root := by
  cases a with
  | move d =>
    obtain rfl := Option.some.inj ha
    have hj : judgeTransfer s w f .move d = .ok task := h
    obtain ⟨rfl, -⟩ := judgeTransfer_ok hj
    exact hdir
  | copy d =>
    obtain rfl := Option.some.inj ha
    have hj : judgeTransfer s w f .copy d = .ok task := h
    obtain ⟨rfl, -⟩ := judgeTransfer_ok hj
    exact hdir
  | createFolder d =>
    obtain rfl := Option.some.inj ha
    have hj : judgeFolder s w f d = .ok task := h
    obtain ⟨rfl, -⟩ := judgeFolder_ok hj
    exact hdir
  | archive d =>
    obtain rfl : d = some template := ha
    have hj : judgeArchive s w f (some template) = .ok task := h
    obtain ⟨rfl, -⟩ := judgeArchive_ok hj
    exact ⟨FileName.proper_zip hf.stem, hdir⟩
  | extract d =>
    obtain rfl : d = some template := ha
    have hj : judgeExtract s w f (some template) = .ok task := h
    obtain ⟨rfl, -⟩ := judgeExtract_ok hj
    exact extractTo_into hf hpath hroot hdir (hne rfl)
  | _ => cases ha

theorem run_changesBelow {a : Action} {template : String} (hsite : w.tree.Site s.host.cwd s.root R) (hf : f.Named)
    (hpath : s.root.Below f.path) (hroot : s.root.isAbsolute = true) (ha : a.directory? = some template)
    (hdir : s.root.Enters (Template.directory template f s.root))
    (hne : a = .extract (some template) → (Template.directory template f s.root).body ≠ s.root.body) :
    w.tree.ChangesBelow (a.run s f w).2.tree R := by
  unfold run
  cases hj : a.judge s w f with
  | error e => exact .refl _ R
  | ok task =>
    dsimp only
    split
    · rw [Task.trial_tree]
      exact .refl _ R
    · rw [Task.perform_tree]
      exact Task.treeAfter_changesBelow hroot hsite hf hpath (into_of_judge hf hpath hroot ha hdir hne hj)

end Action

end FileOrganizer
