import FileOrganizer.Proofs.Batch.Claims
import FileOrganizer.Proofs.Batch.Tracking
import FileOrganizer.Proofs.Copies

/-! The plan for a list of files: a file that is planned for goes to the first name in the directory of its category
that is free and that no other file has been given, and there is a reason for each one that is not. -/

namespace FileOrganizer

open FileOrganizer.Tree FileOrganizer.Disk

variable {s : Setting} {mode : TransferKind} {t : Tree} {cwd : Place} {p : Path} {n : String} {d : Place}
  {b : ByteArray}
  {f : FileInfo} {fs : List FileInfo} {w : Workspace} {c : Categories} {m : PlannedTransfer} {ms : List PlannedTransfer}

namespace FileInfo

/-- The name of a file that can be read is one that a directory can hold. -/
lemma Named.proper (h : f.Named) (hs : t.Sound) (hp : t.Plain) (hread : t.read cwd f.path = .ok b) : Proper f.name := by
  obtain ⟨d, n, hpar⟩ := parentOf_of_read hs hp hread
  have hname := Path.fileName?_of_parentOf hpar
  obtain rfl : f.name = n := by rw [h.name_eq, Path.fileName, hname, Option.getD_some]
  exact Path.proper_fileName hname

lemma Named.stem_ne (h : f.Named) (hs : t.Sound) (hp : t.Plain) (hread : t.read cwd f.path = .ok b) : f.stem ≠ "" :=
  h.stem_ne_of_name (h.name_eq ▸ (h.proper hs hp hread).1)

end FileInfo

namespace Workspace

variable {dir : Path} {name : String}

lemma isClaimed_claim : (w.claim cwd dir name).2.isClaimed p =
    (p.same (w.claim cwd dir name).1.path || w.isClaimed p) :=
  rfl

end Workspace

namespace PlannedTransfer

/-- The directory of the category of a file. -/
def dirOf (s : Setting) (c : Categories) (f : FileInfo) : Path := s.root.child (c.resolve f s.host.now)

/-- Why nothing is planned for a file. -/
def Stays (s : Setting) (c : Categories) (mode : TransferKind) (t : Tree) (f : FileInfo) : Prop :=
  f.isDir = true ∨ ((dirOf s c f).child f.name).same f.path = true ∨
    mode = .copy ∧ (Content.identical? s.host t f.path (dirOf s c f) f.name).isSome = true

/-- The transfer takes the file to the first name that is not taken when its turn comes, after the transfers `ms`. -/
structure Sends (s : Setting) (c : Categories) (w : Workspace) (ms : List PlannedTransfer) (f : FileInfo)
    (m : PlannedTransfer) : Prop where
  source : m.source = f.path
  regular : f.isDir = false
  free : w.isFree s.host.cwd m.target = true
  target : ∃ k, m.target = (dirOf s c f).child (FileName.numbered f.name k) ∧
    ∀ j < k, w.isFree s.host.cwd ((dirOf s c f).child (FileName.numbered f.name j)) = true →
      ∃ x ∈ ms, ((dirOf s c f).child (FileName.numbered f.name j)).same x.target = true

instance : DecidablePred (Stays s c mode t) := fun f =>
  inferInstanceAs (Decidable (f.isDir = true ∨ _ = true ∨ mode = .copy ∧ _ = true))

/-- A name is free after the transfers `ms`: nothing has it, no one has claimed it, and no file goes there. -/
def FreeAfter (w : Workspace) (cwd : Place) (ms : List PlannedTransfer) (p : Path) : Prop :=
  w.isFree cwd p = true ∧ ∀ m ∈ ms, p.same m.target = false

/-- The transfer takes the file into the directory of its category, to the first variant of its name that is free
after the transfers `ms`. -/
structure InTurn (s : Setting) (c : Categories) (w : Workspace) (ms : List PlannedTransfer) (f : FileInfo)
    (m : PlannedTransfer) : Prop where
  source : m.source = f.path
  category : m.category = c.resolve f s.host.now
  target : ∃ k, m.target = (dirOf s c f).child (FileName.numbered f.name k) ∧ FreeAfter w s.host.cwd ms m.target ∧
    ∀ j < k, ¬FreeAfter w s.host.cwd ms ((dirOf s c f).child (FileName.numbered f.name j))

lemma of?_cases (s : Setting) (c : Categories) (mode : TransferKind) (f : FileInfo) (w : Workspace) :
    of? s c mode f w = (none, w) ∧ Stays s c mode w.tree f ∨
      ¬Stays s c mode w.tree f ∧ of? s c mode f w = (some ⟨f.path, (w.claim s.host.cwd (dirOf s c f) f.name).1.path,
        c.resolve f s.host.now⟩, (w.claim s.host.cwd (dirOf s c f) f.name).2) := by
  have hstays : (f.isDir || ((dirOf s c f).child f.name).same f.path ||
      (mode = .copy && (Content.identical? s.host w.tree f.path (dirOf s c f) f.name).isSome)) = true ↔
        Stays s c mode w.tree f := by
    simp only [Stays, Bool.or_eq_true, Bool.and_eq_true, decide_eq_true_eq, or_assoc]
  unfold of?
  dsimp only
  split
  · next h => exact Or.inl ⟨rfl, hstays.1 h⟩
  · next h => exact Or.inr ⟨fun hs => h (hstays.2 hs), rfl⟩

/-- After a plan the names that it gave are claimed, the last one first. -/
lemma plan_snd (s : Setting) (c : Categories) (mode : TransferKind) (fs : List FileInfo) (w : Workspace) :
    (plan s c mode fs w).2 = { w with claims := ((plan s c mode fs w).1.map (·.target)).reverse ++ w.claims } := by
  induction fs generalizing w with
  | nil => rfl
  | cons f fs ih =>
    rw [plan]
    dsimp only
    rcases of?_cases s c mode f w with ⟨hnone, -⟩ | ⟨-, hsome⟩
    · rw [hnone, ih w]
      rfl
    · rw [hsome, ih]
      simp [Workspace.claim]

lemma isFree_claim {name : String} {dir : Path} : (w.claim cwd dir name).2.isFree cwd p =
    (w.isFree cwd p && !p.same (w.claim cwd dir name).1.path) := by
  unfold Workspace.isFree
  rw [Workspace.isClaimed_claim, Workspace.claim_tree, Bool.not_or, Bool.and_comm (!p.same _), Bool.and_assoc]

/-- What is claimed for one file is not free for the next ones. -/
lemma freeAfter_claim {name : String} {dir : Path} (hm : m.target = (w.claim cwd dir name).1.path) :
    FreeAfter (w.claim cwd dir name).2 cwd ms p ↔ FreeAfter w cwd (m :: ms) p := by
  unfold FreeAfter
  rw [isFree_claim, ← hm, Bool.and_eq_true, Bool.not_eq_true', List.forall_mem_cons, and_assoc]

/-- The first file goes to the name that is claimed for it. -/
lemma InTurn.first (s : Setting) (c : Categories) (w : Workspace) (f : FileInfo) : InTurn s c w [] f
    ⟨f.path, (w.claim s.host.cwd (dirOf s c f) f.name).1.path, c.resolve f s.host.now⟩ := by
  obtain ⟨k, hpath, hfree, hfirst⟩ := w.claim_first s.host.cwd (dirOf s c f) f.name
  refine ⟨rfl, rfl, k, hpath, ⟨hpath ▸ hfree, fun m hm => (by cases hm)⟩, fun j hj hfree => hfirst j hj hfree.1⟩

/-- The others go where they would go with that name taken. -/
lemma InTurn.later {name : String} {dir : Path} {first : PlannedTransfer}
    (hfirst : first.target = (w.claim s.host.cwd dir name).1.path) (h : InTurn s c (w.claim s.host.cwd dir name).2 ms f m) :
    InTurn s c w (first :: ms) f m := by
  obtain ⟨hsource, hcategory, k, hk, hfree, hlow⟩ := h
  simp only [freeAfter_claim hfirst] at hfree hlow
  exact ⟨hsource, hcategory, k, hk, hfree, hlow⟩

/-- The files that do not stay are planned for in their order, each with the names of those before it taken. -/
lemma plan_inTurn (s : Setting) (c : Categories) (mode : TransferKind) (fs : List FileInfo) (w : Workspace) :
    (plan s c mode fs w).1.length = (fs.filter (¬Stays s c mode w.tree ·)).length ∧
      ∀ i f m, (fs.filter (¬Stays s c mode w.tree ·))[i]? = some f → (plan s c mode fs w).1[i]? = some m →
        InTurn s c w ((plan s c mode fs w).1.take i) f m := by
  induction fs generalizing w with
  | nil => exact ⟨rfl, fun i f m hf => by simp at hf⟩
  | cons f fs ih =>
    rw [plan]
    dsimp only
    rcases of?_cases s c mode f w with ⟨hnone, hstays⟩ | ⟨hgoes, hsome⟩
    · rw [hnone, List.filter_cons_of_neg (by simpa using hstays)]
      exact ih w
    · rw [hsome, List.filter_cons_of_pos (by simpa using hgoes)]
      obtain ⟨hlength, hrest⟩ := ih (w.claim s.host.cwd (dirOf s c f) f.name).2
      rw [Workspace.claim_tree] at hlength hrest
      refine ⟨by simpa using hlength, fun i g m hg hm => ?_⟩
      cases i with
      | zero =>
        obtain rfl := Option.some.inj hg
        obtain rfl := Option.some.inj hm
        exact InTurn.first s c w f
      | succ i => exact (hrest i g m hg hm).later rfl

/-- What is planned is planned for one of the files that do not stay. -/
lemma inTurn_of_mem (hm : m ∈ (plan s c mode fs w).1) : ∃ f ∈ fs, ¬Stays s c mode w.tree f ∧
    ∃ i, (plan s c mode fs w).1[i]? = some m ∧ InTurn s c w ((plan s c mode fs w).1.take i) f m := by
  obtain ⟨hlength, hturn⟩ := plan_inTurn s c mode fs w
  obtain ⟨i, hi, rfl⟩ := List.mem_iff_getElem.1 hm
  have hf := List.getElem?_eq_getElem (hlength ▸ hi)
  obtain ⟨hmem, hgoes⟩ := List.mem_filter.1 (List.mem_of_getElem? hf)
  exact ⟨_, hmem, by simpa using hgoes, i, List.getElem?_eq_getElem hi, hturn i _ _ hf (List.getElem?_eq_getElem hi)⟩

/-- No two files go to the same place. -/
lemma plan_pairwise (s : Setting) (c : Categories) (mode : TransferKind) (fs : List FileInfo) (w : Workspace) :
    (plan s c mode fs w).1.Pairwise fun m n => n.target.same m.target = false := by
  obtain ⟨hlength, hturn⟩ := plan_inTurn s c mode fs w
  rw [List.pairwise_iff_getElem]
  intro i j hi hj hij
  obtain ⟨-, -, k, -, hfree, -⟩ := hturn j _ _ (List.getElem?_eq_getElem (hlength ▸ hj)) (List.getElem?_eq_getElem hj)
  exact hfree.2 _ (List.mem_take_iff_getElem.2 ⟨i, by simpa using ⟨hij, hi⟩, rfl⟩)

/-- A file that has its place among those before it has it among all. -/
lemma InTurn.sends {i : ℕ} (h : InTurn s c w (ms.take i) f m) (hgoes : ¬Stays s c mode w.tree f) : Sends s c w ms f m := by
  obtain ⟨hsource, -, k, hk, hfree, hlow⟩ := h
  refine ⟨hsource, by simpa using fun hdir => hgoes (Or.inl hdir), hfree.1, k, hk, fun j hj hj' => ?_⟩
  by_contra hno
  refine hlow j hj ⟨hj', fun x hx => ?_⟩
  by_contra hsame
  exact hno ⟨x, List.mem_of_mem_take hx, by simpa using hsame⟩

/-- Every file is sent to a free name, or there is a reason for it to stay. -/
lemma plan_cases (s : Setting) (c : Categories) (mode : TransferKind) (fs : List FileInfo) (w : Workspace) :
    (∀ m ∈ (plan s c mode fs w).1, ∃ f ∈ fs, Sends s c w (plan s c mode fs w).1 f m) ∧
      (∀ f ∈ fs, (∃ m ∈ (plan s c mode fs w).1, Sends s c w (plan s c mode fs w).1 f m) ∨ Stays s c mode w.tree f) ∧
      (plan s c mode fs w).1.Pairwise fun m n => n.target.same m.target = false := by
  refine ⟨fun m hm => ?_, fun f hf => ?_, plan_pairwise s c mode fs w⟩
  · obtain ⟨f, hf, hgoes, i, -, hturn⟩ := inTurn_of_mem hm
    exact ⟨f, hf, hturn.sends hgoes⟩
  · by_cases hstays : Stays s c mode w.tree f
    · exact Or.inr hstays
    · obtain ⟨hlength, hturn⟩ := plan_inTurn s c mode fs w
      have hmem : f ∈ fs.filter (¬Stays s c mode w.tree ·) := List.mem_filter.2 ⟨hf, by simpa using hstays⟩
      obtain ⟨i, hi, rfl⟩ := List.mem_iff_getElem.1 hmem
      have hm := List.getElem?_eq_getElem (hlength.symm ▸ hi)
      exact Or.inl ⟨_, List.mem_of_getElem? hm, (hturn i _ _ (List.getElem?_eq_getElem hi) hm).sends hstays⟩

/-- Planning is safe from collisions. A file stays for one of three reasons; the others are planned for in their
order, each for the first name in the directory of its category that is free when its turn comes. So no target exists or
was claimed before, no two are the same, and all of them are claimed in the end. -/
theorem plan_collision_free (s : Setting) (c : Categories) (mode : TransferKind) (fs : List FileInfo) (w : Workspace) :
    let goers := fs.filter (¬Stays s c mode w.tree ·)
    let ms := (plan s c mode fs w).1
    (∀ f, Stays s c mode w.tree f ↔ f.isDir = true ∨ ((dirOf s c f).child f.name).same f.path = true ∨
      mode = .copy ∧ ∃ k, (∀ j ≤ k, w.tree.has s.host.cwd ((dirOf s c f).child (FileName.numbered f.name j)) = true) ∧
        Content.Copies s.host w.tree f.path ((dirOf s c f).child (FileName.numbered f.name k))) ∧
      ms.map (·.source) = goers.map (·.path) ∧
      (∀ i f m, goers[i]? = some f → ms[i]? = some m → InTurn s c w (ms.take i) f m) ∧
      (∀ m ∈ ms, w.tree.has s.host.cwd m.target = false ∧ ∀ q ∈ w.claims, m.target.same q = false) ∧
      ms.Pairwise (fun m n => n.target.same m.target = false) ∧
      (plan s c mode fs w).2 = { w with claims := (ms.map (·.target)).reverse ++ w.claims } := by
  obtain ⟨hlength, hturn⟩ := plan_inTurn s c mode fs w
  refine ⟨fun f => ?_, List.ext_getElem (by simpa using hlength) fun i hi hi' => ?_, hturn, fun m hm => ?_,
    plan_pairwise s c mode fs w, plan_snd s c mode fs w⟩
  · rw [Stays, Content.identical?_isSome]
  · rw [List.length_map] at hi hi'
    rw [List.getElem_map, List.getElem_map]
    exact (hturn i _ _ (List.getElem?_eq_getElem hi') (List.getElem?_eq_getElem hi)).source
  · obtain ⟨f, -, -, i, -, -, -, k, -, ⟨hfree, -⟩, -⟩ := inTurn_of_mem hm
    unfold Workspace.isFree at hfree
    rw [Bool.and_eq_true, Bool.not_eq_true', Bool.not_eq_true'] at hfree
    exact ⟨hfree.1, by simpa [Workspace.isClaimed] using hfree.2⟩

end PlannedTransfer

end FileOrganizer
