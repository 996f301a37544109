import FileOrganizer.Proofs.Tree.AllOrNothing
import FileOrganizer.Proofs.Tree.Spared
import FileOrganizer.Rules.Profile

/-! What a transfer finds where it goes. Whether a name is taken is asked of what a path leads to, and so the entry
that the name is may be a symbolic link that leads nowhere; otherwise nothing is there. Every other entry stays. -/

namespace FileOrganizer

open FileOrganizer.Tree FileOrganizer.Disk

variable {who : Actor} {cwd : Place} {t t₁ t₂ t' : Tree} {p source target : Path} {l m q : Place} {e : Option Entry}

namespace Tree

/-- The entry that a path names, apart from what it leads to. -/
def Names (t : Tree) (cwd : Place) (p : Path) (l : Place) : Prop :=
  ∃ d n, t.parentOf cwd p = .ok (d, .name n) ∧ l = d ++ [n]

lemma Names.inj (h : t.Names cwd p l) (h' : t.Names cwd p m) : l = m := by
  obtain ⟨d, n, hpar, rfl⟩ := h
  obtain ⟨d', n', hpar', rfl⟩ := h'
  rw [hpar] at hpar'
  cases hpar'
  rfl

lemma Names.grows (_ : t.Sound) (hg : t.Grows t') (h : t.Names cwd p l) : t'.Names cwd p l := by
  obtain ⟨d, n, hpar, rfl⟩ := h
  exact ⟨d, n, parentOf_grows hg hpar, rfl⟩

lemma Names.isDir (h : t.Names cwd p l) (hd : t.isDirAt l = true) : t.isDir cwd p = true := by
  obtain ⟨d, n, hpar, rfl⟩ := h
  exact isDir_of_parentOf hpar hd

lemma Names.has_of_dir (h : t.Names cwd p l) (hd : t.isDirAt l = true) : t.has cwd p = true := by
  obtain ⟨l', a, hstat⟩ := isDir_iff.1 (h.isDir hd)
  exact has_iff.2 ⟨l', _, hstat⟩

lemma Names.has_of_file {b : ByteArray} {a : Attrs} (h : t.Names cwd p l) (hslash : p.endsInSlash ≠ true)
    (hf : t.node? l = some (.file b a)) : t.has cwd p = true := by
  obtain ⟨d, n, hpar, rfl⟩ := h
  have hloc := locate_of_parentOf hpar hslash fun (_ : true = true) x => by simp [hf]
  rw [at?_file.2 hf] at hloc
  exact has_iff.2 ⟨_, _, stat_eq_ok.2 hloc⟩

/-- A path that leads to a file, or to nothing, names the entry that it leads to, or a symbolic link. -/
lemma names_of_locate (hs : t.Sound) (h : t.locate cwd true p = .ok ⟨l, e⟩) (he : ∀ a, e ≠ some (.dir a)) :
    ∃ m, t.Names cwd p m ∧ (m = l ∨ ∃ x, t.node? m = some (.link x)) := by
  have hdir : ∀ {k d}, t.isDirAt d = true → walkLinks t true (k + 1) d [] ≠ .ok ⟨l, e⟩ := by
    intro k d hd hw
    obtain ⟨a, ha⟩ := at?_of_isDirAt hd
    rw [walkLinks, walk_nil, ha] at hw
    cases hw
    exact he a rfl
  obtain ⟨⟨d, s⟩, hpar⟩ := parentOf_of_locate_ok h
  have hd := parentOf_isDirAt hs hpar
  rcases parentOf_ok hpar with ⟨-, -, hseg⟩ | ⟨n, k, -, -, hstep, hk⟩
  · rw [locate_eq_resolve (refused_of_locate_ok h), resolve, steps, hseg] at h
    split at h
    · next hd₀ =>
      split at h
      · rw [List.nil_append, walkLinks, walk_dot, ← walkLinks] at h
        exact absurd h (hdir hd₀)
      · exact absurd h (hdir hd₀)
    · cases h
  · rw [hk, lastSteps] at h
    rcases hstep with ⟨-, rfl⟩ | ⟨-, rfl⟩ | ⟨rfl, h₁, h₂, h₃⟩
    · split at h <;> simp only [walkLinks, walk_dot] at h <;> exact absurd h (hdir (k := k) hd)
    · split at h <;> simp only [walkLinks, walk_dots, walk_dot] at h <;> exact absurd h (hdir (k := k) (hs.isDirAt_up hd))
    · refine ⟨d ++ [n], ⟨d, n, hpar, rfl⟩, ?_⟩
      rw [or_iff_not_imp_right]
      intro hlink
      split at h
      · rw [walkLinks, walk_name h₁ h₂ h₃] at h
        cases hat : t.at? (d ++ [n]) with
        | none => simp [hat] at h
        | some x =>
          cases x with
          | file b a => simp [hat] at h
          | link x => exact absurd ⟨x, at?_link.1 hat⟩ hlink
          | dir a =>
            simp only [hat, walk_dot] at h
            exact absurd h (hdir (k := k) (at?_dir hat))
      · rw [walkLinks_name ⟨h₁, h₂, h₃⟩ fun _ x hx => hlink ⟨x, hx⟩] at h
        cases h
        rfl

end Tree

namespace Disk

/-- Every entry stays but the one at `dst`, and but what is at or below `src` if that is moved. -/
def Leaves (mode : TransferKind) (src dst : Place) (t t' : Tree) : Prop :=
  ∀ q, q ≠ dst → (mode = .move → ¬src <+: q) → t.node? q ≠ none → t'.node? q = t.node? q

/-- What a transfer that came off has found, when the directories above its target were made and the tree was `t₁`:
no file and no directory at the entry that the target names, and beyond it nothing to be reached. -/
structure Displaced (cwd : Place) (mode : TransferKind) (source target : Path) (t t₁ t' : Tree) (src dst : Place) :
    Prop where
  names : t₁.Names cwd source src
  names_target : t₁.Names cwd target dst
  unreached : t₁.has cwd target = false
  vacant : t.node? dst = none ∨ ∃ x, t.node? dst = some (.link x)
  leaves : Leaves mode src dst t t'

variable {mode : TransferKind} {src dst : Place}

/-- New directories above the target make no difference to what stood there before. -/
lemma Displaced.after (hadd : t.AddsDirs t₁) (h : Displaced cwd mode source target t₁ t₂ t' src dst) :
    Displaced cwd mode source target t t₂ t' src dst := by
  refine ⟨h.names, h.names_target, h.unreached, ?_, fun q hq hsrc hthere => ?_⟩
  · rcases hadd dst with hsame | ⟨hnone, -⟩
    · exact hsame ▸ h.vacant
    · exact Or.inl hnone
  · have hsame := hadd.keep hthere
    exact (h.leaves q hq hsrc (hsame ▸ hthere)).trans hsame

lemma displaced_of_rename (hs : t.Sound) (hno : t.has who.cwd target = false)
    (h : Tree.rename who source target t = .ok t') :
    ∃ src dst, Displaced who.cwd .move source target t t t' src dst := by
  obtain ⟨d, n, d', n', x, hsrc, hdst, hx, hslash, hcase⟩ := rename_ok hs h
  have hnames : t.Names who.cwd target (d' ++ [n']) := ⟨d', n', hdst, rfl⟩
  have hnodir : t.isDirAt (d' ++ [n']) ≠ true := fun hd => by
    rw [hnames.has_of_dir hd] at hno
    cases hno
  -- A target that asks for a directory is asked of by a directory only, and takes the place of none.
  have hnofile : ∀ b a, (∀ k, x ≠ .dir k) → t.node? (d' ++ [n']) ≠ some (.file b a) := fun b a hk hf => by
    rw [hnames.has_of_file (hslash hk).2 hf] at hno
    cases hno
  have hvacant : t.node? (d' ++ [n']) = none ∨ ∃ y, t.node? (d' ++ [n']) = some (.link y) := by
    have hother : ∀ y, (∀ k, x ≠ .dir k) → t.node? (d' ++ [n']) = some y → ∃ z, t.node? (d' ++ [n']) = some (.link z) := by
      intro y hk hy
      cases y with
      | file b a => exact absurd hy (hnofile b a hk)
      | dir k => exact absurd (isDirAt_iff.2 ⟨k, hy⟩) hnodir
      | link z => exact ⟨z, hy⟩
    rcases hcase with ⟨hsame, -⟩ | ⟨-, -, hnone | ⟨hk, y, hy, -⟩ | ⟨-, hd, -⟩, -⟩
    · refine Or.inr (hother x (fun k hk => hnodir ?_) (hsame ▸ hx))
      rw [← hsame, isDirAt_iff]
      exact ⟨k, hk ▸ hx⟩
    · exact Or.inl hnone
    · exact Or.inr (hother y hk hy)
    · exact absurd hd hnodir
  refine ⟨d ++ [n], d' ++ [n'], ⟨d, n, hsrc, rfl⟩, hnames, hno, hvacant, fun q hq hsrc hthere => ?_⟩
  rcases hcase with ⟨-, rfl⟩ | ⟨-, -, -, -, -, hcar⟩
  · rfl
  · refine hcar.other ?_ (hsrc rfl)
    rintro ⟨r, rfl⟩
    exact hthere (hs.node?_below r (by simpa using hq) hnodir)

lemma displaced_of_copied (hs : t.Sound) (hno : t.has cwd target = false) (h : Copied cwd source target t t') :
    ∃ src dst, Displaced cwd .copy source target t t t' src dst := by
  obtain ⟨ls, b, a, l, a', hst, hl, -, hset⟩ := h
  obtain ⟨src, hsrc, -⟩ := names_of_locate hs (stat_eq_ok.1 hst) (by simp)
  obtain ⟨dst, hdst, hcase⟩ := names_of_locate hs hl (by simp)
  have hnone := node?_of_locate hs hl
  have hvacant : t.node? dst = none ∨ ∃ x, t.node? dst = some (.link x) := by
    rcases hcase with rfl | hlink
    · exact Or.inl hnone
    · exact Or.inr hlink
  refine ⟨src, dst, hsrc, hdst, hno, hvacant, fun q _ _ hthere => hset.other ?_⟩
  rintro rfl
  exact hthere hnone

/-- A copy whose original is removed is a move, if a symbolic link can be the original. -/
lemma displaced_of_removed (hs : t.Sound) (hno : t.has who.cwd target = false)
    (h : Copied who.cwd source target t t₂) (hrem : Tree.removeFile who source t₂ = .ok t') :
    ∃ src dst, Displaced who.cwd .move source target t t t' src dst := by
  obtain ⟨src, dst, hcopy⟩ := displaced_of_copied hs hno h
  obtain ⟨d, n, x, hpar, -, -, -, -, hset⟩ := removeFile_ok hrem
  obtain ⟨ls, b, a, l, a', -, hl, -, hmade⟩ := h
  have hgrows : t.Grows t₂ := hmade.grows fun y hy => by simp [node?_of_locate hs hl] at hy
  obtain rfl := (hcopy.names.grows hs hgrows).inj ⟨d, n, hpar, rfl⟩
  refine ⟨_, dst, hcopy.names, hcopy.names_target, hno, hcopy.vacant, fun q hq hsrc hthere => ?_⟩
  rw [hset.other fun heq => hsrc rfl (heq ▸ List.prefix_rfl)]
  exact hcopy.leaves q hq (fun h => by cases h) hthere

/-- A transfer that comes off has found nothing, or a symbolic link that leads nowhere, at the entry that its target
names, and the entries that there were stay. -/
lemma moveFile_displaced (hs : t.Sound) (h : moveFile who source target t = (.ok (), t')) :
    ∃ t₁ src dst, Paved who target t t₁ ∧ Displaced who.cwd .move source target t t₁ t' src dst := by
  obtain ⟨-, ⟨⟨_, he⟩, -⟩ | ⟨t₁, hs₁, hpaved, hno, hcase⟩⟩ := moveFile_cases hs h
  · cases he
  · have hadd := (hpaved.addsDirs hs).2
    rcases hcase with ⟨-, hren⟩ | ⟨⟨_, he⟩, -⟩ | ⟨-, t₂, hcop, hrem⟩
    · obtain ⟨src, dst, hdisp⟩ := displaced_of_rename hs₁ hno hren
      exact ⟨t₁, src, dst, hpaved, hdisp.after hadd⟩
    · cases he
    · obtain ⟨src, dst, hdisp⟩ := displaced_of_removed hs₁ hno hcop hrem
      exact ⟨t₁, src, dst, hpaved, hdisp.after hadd⟩

lemma copyFile_displaced (hs : t.Sound) (h : copyFile who source target t = (.ok (), t')) :
    ∃ t₁ src dst, Paved who target t t₁ ∧ Displaced who.cwd .copy source target t t₁ t' src dst := by
  obtain ⟨-, ⟨⟨_, he⟩, -⟩ | ⟨t₁, hs₁, hpaved, hno, hcop⟩⟩ := copyFile_cases hs h
  · cases he
  · obtain ⟨src, dst, hdisp⟩ := displaced_of_copied hs₁ hno hcop
    exact ⟨t₁, src, dst, hpaved, hdisp.after (hpaved.addsDirs hs).2⟩

end Disk

end FileOrganizer
