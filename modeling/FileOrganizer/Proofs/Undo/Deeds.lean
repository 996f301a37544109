import FileOrganizer.Proofs.Undo.Agreement

/-! What a record tells of has changed the tree in one of two ways, and can be taken back from a tree that
has come back to it. -/

namespace FileOrganizer

open FileOrganizer.Tree

variable {O : Leeway} {gone : Set Place} {cwd root l q : Place} {n : String} {t t' u u' : Tree} {p : Path} {x : Node}

/-- Something came into being where a path leads, with the directories on its way. What was at the places in
`gone` went away. -/
structure Tree.Arrived (cwd : Place) (p : Path) (x : Node) (gone : Set Place) (t t' : Tree) : Prop where
  sound : t.Sound
  sound' : t'.Sound
  plain : t.Plain
  descent : ∃ l n, Descent p (l ++ [n])
  free : t.node? (p.place cwd) = none
  here : t'.node? (p.place cwd) = some x
  unlocked : t'.isLocked (p.place cwd).dropLast ≠ true
  files : ∀ q ∈ gone, (∃ b a, t.node? q = some (.file b a)) ∧ t'.node? q = none
  laid : ∀ q, q ≠ p.place cwd → q ∉ gone → t.Laid t' (p.place cwd) q

namespace Tree.Arrived

variable (h : Arrived cwd p x gone t t')

include h

/-- What was there, and has not gone, is there still. -/
lemma keep (hq : t.node? q ≠ none) (hg : q ∉ gone) : t'.node? q = t.node? q := by
  have hne : q ≠ p.place cwd := by
    rintro rfl
    exact hq h.free
  rcases h.laid q hne hg with hsame | ⟨-, hnone, -⟩
  · exact hsame
  · exact absurd hnone hq

lemma keep_dir (hd : t.isDirAt q = true) : t'.node? q = t.node? q := by
  obtain ⟨k, hk⟩ := isDirAt_iff.1 hd
  refine h.keep (by simp [hk]) fun hg => ?_
  obtain ⟨⟨b, a, hf⟩, -⟩ := h.files q hg
  simp [hf] at hk

lemma isDirAt (hd : t.isDirAt q = true) : t'.isDirAt q = true := by
  rwa [isDirAt_congr (h.keep_dir hd)]

/-- A directory on the way is not protected if something was made in it. -/
lemma isLocked (hq : t.isLocked q ≠ true) : t'.isLocked q = true → q = p.place cwd := by
  intro hl
  by_contra hne
  have hg : q ∉ gone := by
    intro hg
    rw [isLocked_iff, (h.files q hg).2] at hl
    cases hl
  rw [Ne, isLocked_iff] at hq
  rw [isLocked_iff] at hl
  rcases h.laid q hne hg with hsame | ⟨-, -, hnew, -⟩
  · exact hq (hsame.symm.trans hl)
  · simp [hnew] at hl

lemma target_ne_nil : p.place cwd ≠ [] := by
  intro h0
  have hfree := h.free
  rw [h0] at hfree
  cases hfree

end Tree.Arrived

namespace Rollback

/-- Where the tree still has a directory that was made on the way, it is not protected around it. -/
lemma open_of_laid (h : Arrived cwd p x gone t t') (hb : Back O root t' u) (hq : q <+: p.place cwd)
    (hlock : t.isLocked q.dropLast ≠ true) (hd : u.isDirAt q = true) : u.isLocked q.dropLast ≠ true := by
  intro hl
  have hne : q.dropLast ≠ UndoLog.place root := by
    intro heq
    obtain ⟨b, a, hlog⟩ := hb.log
    rw [← heq] at hlog
    exact not_isDirAt_of_file hlog (hb.sound.isDirAt_up hd)
  have hshort := h.isLocked hlock ((hb.agrees _ hne).locked hl)
  have hle := hq.length_le
  have hpos := List.length_pos_of_ne_nil h.target_ne_nil
  rw [← hshort, List.length_dropLast] at hle
  rw [← hshort, List.length_dropLast] at hpos
  omega

/-- Where there was nothing, there is nothing or a directory. -/
lemma Back.dir_of_some (h : Arrived cwd p (.dir false) ∅ t t') (hb : Back O root t' u)
    (hq : q ≠ UndoLog.place root) (hn : t.node? q = none) (hu : u.node? q ≠ none) : u.node? q = some (.dir false) := by
  have ht' : t'.node? q = none ∨ t'.node? q = some (.dir false) := by
    by_cases hp : q = p.place cwd
    · exact Or.inr (hp ▸ h.here)
    · rcases h.laid q hp (Set.notMem_empty q) with hsame | ⟨-, -, hnew, -⟩
      · exact Or.inl (hsame.trans hn)
      · exact Or.inr hnew
  rcases hb.agrees q hq with h' | ⟨h₁, -⟩ | ⟨-, h₂, -⟩ | ⟨-, h₂, -⟩
  · rcases ht' with hnone | hdir
    · exact absurd (h'.trans hnone) hu
    · exact h'.trans hdir
  · simp [h₁] at ht'
  · exact absurd h₂ hu
  · exact h₂

/-- A directory that was made may stay if directories may be left wherever there is one on the way to it. -/
lemma Back.stays (h : Arrived cwd p (.dir false) ∅ t t') (hb : Back O root t' u)
    (hstay : ∀ q, q <+: p.place cwd → t.node? q = none → u.node? q ≠ none → q ∈ O.left) : Back O root t u := by
  refine ⟨hb.sound, hb.plain, hb.log, fun q hq => ?_, fun q hin hne hqO hd hl he k => ?_⟩
  · by_cases hpre : q <+: p.place cwd ∧ t.node? q = none
    · by_cases hu : u.node? q = none
      · exact .same (hu.trans hpre.2.symm)
      · exact .left hpre.2 (hb.dir_of_some h hq hpre.2 hu) (hstay q hpre.1 hpre.2 hu)
    · have hsame : t'.node? q = t.node? q := by
        by_cases hn : t.node? q = none
        · have hnp : ¬q <+: p.place cwd := fun hp => hpre ⟨hp, hn⟩
          have hne : q ≠ p.place cwd := fun heq => hnp (heq ▸ List.prefix_rfl)
          rcases h.laid q hne (Set.notMem_empty q) with hsame | ⟨hp, -⟩
          · exact hsame
          · exact absurd hp hnp
        · exact h.keep hn (Set.notMem_empty q)
      rcases hb.agrees q hq with h' | ⟨h₁, h₂⟩ | ⟨h₁, h₂, h₃, h₄⟩ | ⟨h₁, h₂, h₃⟩
      · exact .same (h'.trans hsame)
      · exact .file (hsame.symm.trans h₁) h₂
      · refine .gone (hsame.symm.trans h₁) h₂ (fun hlock => h₃ ?_) h₄
        rw [isLocked_iff] at hlock ⊢
        exact (h.keep (by simp [hlock]) (Set.notMem_empty _)).trans hlock
      · exact .left (hsame.symm.trans h₁) h₂ h₃
  · by_contra hk
    have hkeep := h.keep hk (Set.notMem_empty _)
    rw [hb.bare q hin hne hqO hd hl he k] at hkeep
    exact hk hkeep.symm

/-- The target has gone, and what went away is back, in directories that were made anew if need be. -/
structure Reverted (cwd : Place) (p : Path) (gone : Set Place) (t u u' : Tree) : Prop where
  sound : u'.Sound
  plain : u'.Plain
  taken : u'.node? (p.place cwd) = none
  empty : ∀ m, u.node? (p.place cwd ++ [m]) = none
  back : ∀ q ∈ gone, u.node? q = none ∧
    ∃ b a a', t.node? q = some (.file b a) ∧ u'.node? q = some (.file b a')
  other : ∀ q, q ≠ p.place cwd → q ∉ gone → u'.node? q = u.node? q ∨
    u.node? q = none ∧ u'.node? q = some (.dir false) ∧ t.isDirAt q = true ∧ ∃ m, u'.node? (q ++ [m]) ≠ none

lemma Reverted.keep (h : Reverted cwd p gone t u u') (hq : u.node? q ≠ none) (hp : q ≠ p.place cwd) :
    u'.node? q = u.node? q := by
  rcases h.other q hp fun hg => hq (h.back q hg).1 with hsame | ⟨hnone, -⟩
  · exact hsame
  · exact absurd hnone hq

lemma Reverted.locked (h : Reverted cwd p gone t u u') (hq : u'.isLocked q = true) : u.isLocked q = true := by
  rw [isLocked_iff] at hq ⊢
  have hp : q ≠ p.place cwd := by
    rintro rfl
    simp [h.taken] at hq
  have hg : q ∉ gone := by
    intro hg
    obtain ⟨-, b, a, a', -, hf⟩ := h.back q hg
    simp [hf] at hq
  rcases h.other q hp hg with hsame | ⟨-, hnew, -⟩
  · exact hsame.symm.trans hq
  · simp [hnew] at hq

/-- The tree agrees once more but for the directories that were made on the way to the target. -/
lemma Reverted.agrees (h : Arrived cwd p x gone t t') (hb : Back O root t' u) (hr : Reverted cwd p gone t u u')
    (hq : q ≠ UndoLog.place root) : Agrees O t u' q ∨ Due t u' (p.place cwd).dropLast q := by
  by_cases hp : q = p.place cwd
  · subst hp
    exact Or.inl (.same (hr.taken.trans h.free.symm))
  by_cases hg : q ∈ gone
  · obtain ⟨-, b, a, a', ht, hu⟩ := hr.back q hg
    exact Or.inl (.file ht hu)
  -- A directory around something that is there was not touched.
  have hup : t'.isLocked q.dropLast ≠ true → t.isLocked q.dropLast ≠ true := by
    intro hlock hl
    rw [isLocked_iff] at hl
    exact hlock (isLocked_iff.2 ((h.keep_dir (isDirAt_iff.2 ⟨_, hl⟩)).trans hl))
  rcases h.laid q hp hg with hsame | ⟨hpre, hnone, hnew, hlock⟩
  · left
    rcases hr.other q hp hg with hkept | ⟨hn, hmade, hd, -⟩
    · rcases hb.agrees q hq with h' | ⟨h₁, h₂⟩ | ⟨h₁, h₂, h₃, h₄⟩ | ⟨h₁, h₂, h₃⟩
      · exact .same (hkept.trans (h'.trans hsame))
      · exact .file (hsame.symm.trans h₁) (hkept.trans h₂)
      · exact .gone (hsame.symm.trans h₁) (hkept.trans h₂) (hup h₃) h₄
      · exact .left (hsame.symm.trans h₁) (hkept.trans h₂) h₃
    · obtain ⟨k, hk⟩ := isDirAt_iff.1 hd
      rcases hb.agrees q hq with h' | ⟨h₁, h₂⟩ | ⟨h₁, h₂, h₃⟩ | ⟨h₁, h₂, h₃⟩
      · simp [hn, hsame, hk] at h'
      · simp [hn] at h₂
      · exact .same (hmade.trans (h₁.symm.trans hsame))
      · simp [hn] at h₂
  · have hkept : u'.node? q = u.node? q := by
      rcases hr.other q hp hg with hkept | ⟨-, -, hd, -⟩
      · exact hkept
      · exact absurd hd (not_isDirAt_of_none hnone)
    rcases hb.agrees q hq with h' | ⟨h₁, h₂⟩ | ⟨h₁, h₂, h₃⟩ | ⟨h₁, h₂, h₃⟩
    · right
      have hu : u.node? q = some (.dir false) := h'.trans hnew
      refine ⟨?_, hnone, hkept.trans hu, fun hl => ?_⟩
      · rw [← List.dropLast_append_getLast h.target_ne_nil] at hpre hp
        exact prefix_dropLast hpre hp
      · exact open_of_laid h hb hpre hlock (isDirAt_iff.2 ⟨_, hu⟩) (hr.locked hl)
    · simp [hnew] at h₁
    · exact Or.inl (.same (hkept.trans (h₂.trans hnone.symm)))
    · exact Or.inl (.left hnone (hkept.trans h₂) h₃)

lemma Reverted.bare (h : Arrived cwd p x gone t t') (hb : Back O root t' u) (hr : Reverted cwd p gone t u u')
    (hq : q ≠ (p.place cwd).dropLast) : Bare O root t u' q := by
  intro hin hne hO hd hlock hempty n
  have hq0 : q ≠ [] := by
    rintro rfl
    exact hne (List.prefix_nil.1 hin)
  have hp : q ≠ p.place cwd := by
    rintro rfl
    exact not_isDirAt_of_none hr.taken hd
  have hg : q ∉ gone := by
    intro hg
    obtain ⟨-, b, a, a', -, hf⟩ := hr.back q hg
    exact not_isDirAt_of_file hf hd
  -- A directory that was made anew has something in it.
  have hsame : u'.node? q = u.node? q := by
    rcases hr.other q hp hg with hsame | ⟨-, -, -, m, hm⟩
    · exact hsame
    · exact absurd (hempty m) hm
  have hchild : ∀ m, q ++ [m] ≠ p.place cwd := by
    intro m heq
    exact hq (by rw [← heq, List.dropLast_concat])
  have hud : u.isDirAt q = true := by rwa [isDirAt_congr hsame] at hd
  have hue : ∀ m, u.node? (q ++ [m]) = none := by
    intro m
    by_contra hm
    exact hm ((hr.keep hm (hchild m)).symm.trans (hempty m))
  have hul : u.isLocked q.dropLast ≠ true := by
    intro hl
    rw [isLocked_iff] at hl
    have hpar : q.dropLast ≠ p.place cwd := by
      intro heq
      have hnone := hr.empty (q.getLast hq0)
      rw [← heq, List.dropLast_append_getLast hq0] at hnone
      exact not_isDirAt_of_none hnone hud
    exact hlock (isLocked_iff.2 ((hr.keep (by simp [hl]) hpar).trans hl))
  by_contra hn
  have hng : q ++ [n] ∉ gone := by
    intro hg'
    obtain ⟨-, b, a, a', -, hf⟩ := hr.back _ hg'
    simp [hempty n] at hf
  exact hn ((h.keep hn hng).symm.trans (hb.bare q hin hne hO hud hul hue n))

lemma Reverted.nearly (h : Arrived cwd p x gone t t') (hb : Back O root t' u) (hr : Reverted cwd p gone t u u')
    (hlog : UndoLog.place root ≠ p.place cwd) : Nearly O root t u' (p.place cwd).dropLast := by
  obtain ⟨b, a, hf⟩ := hb.log
  exact ⟨hr.sound, hr.plain, ⟨b, a, (hr.keep (by simp [hf]) hlog).trans hf⟩, fun q hq => hr.agrees h hb hq,
    fun q hq => hr.bare h hb hq⟩

/-- On a way on which directories may be left, everything is as it should be. -/
lemma Nearly.back_of_mem (h : Nearly O root t u l) (hO : ∀ q, q <+: l → q ∈ O.left) : Back O root t u := by
  refine ⟨h.sound, h.plain, h.log, fun q hq => ?_, fun q => ?_⟩
  · rcases h.agrees q hq with hagree | ⟨hpre, hn, hd, -⟩
    · exact hagree
    · exact .left hn hd (hO q hpre)
  · by_cases hq : q = l
    · intro _ _ hn
      exact absurd (hO q (hq ▸ List.prefix_rfl)) hn
    · exact h.bare q hq

end Rollback

end FileOrganizer
