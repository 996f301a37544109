import FileOrganizer.Proofs.Tree.Prune
import FileOrganizer.Undo.Rollback

/-! How far the tree of a rollback agrees with the tree that it goes back to: files and the directories
around them do, but empty directories may be gone, and outside of the organized directory new ones may be
left. -/

namespace FileOrganizer

open FileOrganizer.Tree

namespace UndoLog

/-- Where the log of a directory is. -/
def place (root : Place) : Place := root ++ [fileName]

end UndoLog

namespace Rollback

variable {root l q : Place} {n : String} {t t' u u' : Tree} {x : Node}

/-- Where directories that were made may be left, and where directories that were there may go. -/
structure Leeway where
  left : Set Place
  lost : Set Place

/-- What the tree `u` of a rollback has at a place, when `t` is to come back. -/
inductive Agrees (O : Leeway) (t u : Tree) (q : Place) : Prop
  | same (h : u.node? q = t.node? q)
  | file {b : ByteArray} {a a' : Attrs} (h : t.node? q = some (.file b a)) (h' : u.node? q = some (.file b a'))
  | gone (h : t.node? q = some (.dir false)) (h' : u.node? q = none) (unlocked : t.isLocked q.dropLast ≠ true)
      (mem : q ∈ O.lost)
  | left (h : t.node? q = none) (h' : u.node? q = some (.dir false)) (mem : q ∈ O.left)

variable {O : Leeway}

/-- Inside of the root, whatever is left empty was empty. -/
def Bare (O : Leeway) (root : Place) (t u : Tree) (q : Place) : Prop :=
  root <+: q → root ≠ q → q ∉ O.left → u.isDirAt q = true → u.isLocked q.dropLast ≠ true →
    (∀ m, u.node? (q ++ [m]) = none) → ∀ n, t.node? (q ++ [n]) = none

/-- The tree of a rollback has come back to `t`, except for the log. -/
structure Back (O : Leeway) (root : Place) (t u : Tree) : Prop where
  sound : u.Sound
  plain : u.Plain
  log : ∃ b a, u.node? (UndoLog.place root) = some (.file b a)
  agrees : ∀ q, q ≠ UndoLog.place root → Agrees O t u q
  bare : ∀ q, Bare O root t u q

/-- There is a directory yet that is to go, on the way to `l`. -/
def Due (t u : Tree) (l q : Place) : Prop :=
  q <+: l ∧ t.node? q = none ∧ u.node? q = some (.dir false) ∧ u.isLocked q.dropLast ≠ true

/-- The tree has come back to `t` but for directories on the way to `l`, which may go now. -/
structure Nearly (O : Leeway) (root : Place) (t u : Tree) (l : Place) : Prop where
  sound : u.Sound
  plain : u.Plain
  log : ∃ b a, u.node? (UndoLog.place root) = some (.file b a)
  agrees : ∀ q, q ≠ UndoLog.place root → Agrees O t u q ∨ Due t u l q
  bare : ∀ q, q ≠ l → Bare O root t u q

/-- Whatever is above a place where directories may be left is such a place. -/
def Rising (O : Leeway) : Prop := ∀ q m, q ++ [m] ∈ O.left → q ∈ O.left

lemma Rising.prefix (hO : Rising O) {r : Place} (h : q ++ r ∈ O.left) : q ∈ O.left := by
  induction r using List.reverseRecOn with
  | nil => simpa using h
  | append_singleton r m ih => exact ih (hO (q ++ r) m (by simpa using h))

lemma Rising.of_prefix (hO : Rising O) (hq : q <+: l) (hl : l ∈ O.left) : q ∈ O.left := by
  obtain ⟨r, rfl⟩ := hq
  exact hO.prefix hl

/-- A place without anything in it has nothing below. -/
lemma node?_none_below (hs : t.Sound) (hq : q <+: l) (h : t.node? q = none) : t.node? l = none := by
  obtain ⟨r, rfl⟩ := hq
  by_cases hr : r = []
  · simpa [hr] using h
  · exact hs.node?_below r hr (not_isDirAt_of_none h)

lemma Agrees.locked (h : Agrees O t u q) (hu : u.isLocked q = true) : t.isLocked q = true := by
  rw [isLocked_iff] at hu ⊢
  rcases h with h | ⟨-, h'⟩ | ⟨-, h'⟩ | ⟨-, h'⟩
  · rw [← h, hu]
  all_goals simp [h'] at hu

/-- Where directories are left below, they are left above, and nothing else was there. -/
lemma Agrees.mem_of_none (h : Agrees O t u q) (hn : t.node? q = none) (hu : u.node? q ≠ none) : q ∈ O.left := by
  rcases h with h | ⟨h, -⟩ | ⟨h, -⟩ | ⟨-, -, hmem⟩
  · exact absurd (h.trans hn) hu
  · simp [h] at hn
  · simp [h] at hn
  · exact hmem

lemma Agrees.locked_back (h : Agrees O t u q) (hd : u.isDirAt q = true) (ht : t.isLocked q = true) :
    u.isLocked q = true := by
  obtain ⟨k, hk⟩ := isDirAt_iff.1 hd
  rw [isLocked_iff] at ht ⊢
  rcases h with h | ⟨-, h'⟩ | ⟨-, h'⟩ | ⟨h, -⟩
  · exact h.trans ht
  · simp [h'] at hk
  · simp [h'] at hk
  · simp [h] at ht

lemma Nearly.ne_log (h : Nearly O root t u l) (hd : u.isDirAt q = true) : q ≠ UndoLog.place root := by
  rintro rfl
  obtain ⟨b, a, hlog⟩ := h.log
  exact not_isDirAt_of_file hlog hd

/-- A directory that was empty by now has gone. -/
lemma Nearly.erase (h : Nearly O root t u (l ++ [n])) (hd : u.isDirAt (l ++ [n]) = true)
    (hk : u.isLocked (l ++ [n]) ≠ true) (hlock : u.isLocked l ≠ true)
    (hempty : ∀ m, u.node? (l ++ [n] ++ [m]) = none) (hlost : l ++ [n] ∈ O.lost) (hu : u.Sets u' (l ++ [n]) none) :
    Nearly O root t u' l := by
  have hdir : u.node? (l ++ [n]) = some (.dir false) := by
    obtain ⟨k, hk'⟩ := isDirAt_iff.1 hd
    cases k with
    | true => exact absurd (isLocked_iff.2 hk') hk
    | false => exact hk'
  have hup : u.isDirAt l = true := h.sound.isDirAt_of_below hd
  have hne := h.ne_log hd
  obtain ⟨b, a, hlog⟩ := h.log
  refine ⟨hu.sound_none h.sound hempty, hu.plain h.plain (by simp), ⟨b, a, (hu.other hne).trans hlog⟩, ?_, ?_⟩
  · intro q hq
    by_cases hql : l ++ [n] = q
    · subst hql
      left
      rcases h.agrees _ hne with (h' | ⟨-, h'⟩ | ⟨-, h'⟩ | ⟨h', -⟩) | ⟨-, h', -⟩
      · refine .gone (h'.symm.trans hdir) hu.same (fun ht => hlock ?_) hlost
        rw [List.dropLast_concat] at ht
        rcases h.agrees l (h.ne_log hup) with hl | ⟨-, hl, -⟩
        · exact hl.locked_back hup ht
        · simp [isLocked_iff, hl] at ht
      · simp [hdir] at h'
      · simp [hdir] at h'
      · exact .same (hu.same.trans h'.symm)
      · exact .same (hu.same.trans h'.symm)
    · have hother := hu.other hql
      rcases h.agrees q hq with (h' | ⟨h₁, h₂⟩ | ⟨h₁, h₂, h₃, h₄⟩ | ⟨h₁, h₂, h₃⟩) | ⟨hpre, hn, hdue, hopen⟩
      · exact Or.inl (.same (hother.trans h'))
      · exact Or.inl (.file h₁ (hother.trans h₂))
      · exact Or.inl (.gone h₁ (hother.trans h₂) h₃ h₄)
      · exact Or.inl (.left h₁ (hother.trans h₂) h₃)
      · have hql' : q <+: l := prefix_dropLast hpre (Ne.symm hql)
        have hqd : l ++ [n] ≠ q.dropLast := by
          intro heq
          have hlen := ((heq ▸ List.dropLast_prefix q : l ++ [n] <+: q).trans hql').length_le
          rw [List.length_append, List.length_singleton] at hlen
          omega
        refine Or.inr ⟨hql', hn, hother.trans hdue, ?_⟩
        rwa [Ne, isLocked_iff, hu.other hqd, ← isLocked_iff]
  · intro q hq hin hne' hO hqdir hqlock hqempty k
    have hql : l ++ [n] ≠ q := by
      rintro rfl
      exact not_isDirAt_of_none hu.same hqdir
    have hqdir' : u.isDirAt q = true := by rwa [← isDirAt_congr (hu.other hql)]
    have hqd : l ++ [n] ≠ q.dropLast := by
      intro heq
      have hq0 : q ≠ [] := by
        rintro rfl
        simp at heq
      have hchild := hempty (q.getLast hq0)
      rw [heq, List.dropLast_append_getLast hq0] at hchild
      exact not_isDirAt_of_none hchild hqdir'
    refine h.bare q (Ne.symm hql) hin hne' hO hqdir' ?_ (fun m => ?_) k
    · rwa [Ne, isLocked_iff, ← hu.other hqd, ← isLocked_iff]
    · rw [← hu.other (q := q ++ [m]) fun heq => hq (List.append_inj' heq rfl).1.symm]
      exact hqempty m

/-- Once nothing more can go, what is still there may stay. -/
lemma Nearly.stop (hO : Rising O) (h : Nearly O root t u l) (hs : t.Sound) (hroot : t.isDirAt root = true)
    (hd : u.isDirAt l = true)
    (why : l = root ∨ u.isLocked l.dropLast = true ∨ ∃ m, u.node? (l ++ [m]) ≠ none) : Back O root t u := by
  refine ⟨h.sound, h.plain, h.log, fun q hq => ?_, fun q hin hne hqO hqd hql hqe => ?_⟩
  · rcases h.agrees q hq with h' | ⟨hpre, hn, hdue, -⟩
    · exact h'
    · have hl : t.node? l = none := node?_none_below hs hpre hn
      have hmem : l ∈ O.left := by
        rcases why with rfl | hlock | ⟨m, hm⟩
        · exact absurd hroot (not_isDirAt_of_none hl)
        · rcases h.agrees l (h.ne_log hd) with hagree | ⟨-, -, -, hopen⟩
          · refine hagree.mem_of_none hl ?_
            obtain ⟨k, hk⟩ := isDirAt_iff.1 hd
            simp [hk]
          · exact absurd hlock hopen
        · have hm0 : t.node? (l ++ [m]) = none := hs.node?_below [m] (by simp) (not_isDirAt_of_none hl)
          have hmlog : l ++ [m] ≠ UndoLog.place root := by
            intro heq
            obtain ⟨rfl, -⟩ := List.append_inj' heq rfl
            exact not_isDirAt_of_none hl hroot
          rcases h.agrees _ hmlog with hagree | ⟨hlong, -⟩
          · exact hO l m (hagree.mem_of_none hm0 hm)
          · have hlen := hlong.length_le
            rw [List.length_append, List.length_singleton] at hlen
            omega
      exact .left hn hdue (hO.of_prefix hpre hmem)
  · by_cases hql' : q = l
    · subst hql'
      rcases why with rfl | hlock | ⟨m, hm⟩
      · exact absurd rfl hne
      · exact absurd hlock hql
      · exact absurd (hqe m) hm
    · exact h.bare q hql' hin hne hqO hqd hql hqe

/-- Removing the directories that became empty brings the tree back. -/
lemma Nearly.prune (hO : Rising O) (hs : t.Sound) (hroot : t.isDirAt root = true) (h : Nearly O root t u l)
    (hin : root <+: l) (hlost : ∀ q, q <+: l → q ∈ O.lost) (hd : u.isDirAt l = true) (hk : u.isLocked l ≠ true)
    (hp : Pruned root l u u') : Back O root t u' := by
  induction hp with
  | stop why =>
    refine h.stop hO hs hroot hd ?_
    tauto
  | @up l n u u₁ u' hin' hdir hlock hempty hsets hrest ih =>
    have hother : u₁.node? l = u.node? l := hsets.other (by simp)
    refine ih (h.erase hd hk hlock hempty (hlost _ List.prefix_rfl) hsets) hin'
      (fun q hq => hlost q (hq.trans (List.prefix_append l [n]))) ?_ ?_
    · rw [isDirAt_congr hother]
      exact h.sound.isDirAt_of_below hd
    · rwa [Ne, isLocked_iff, hother, ← isLocked_iff]

end Rollback

end FileOrganizer
