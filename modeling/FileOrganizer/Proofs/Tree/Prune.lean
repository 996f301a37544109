import FileOrganizer.Proofs.Tree.Way

/-! Empty directories that are removed from the inside out, up to a directory that stays. -/

namespace FileOrganizer

namespace Path

variable {p q : Path} {l r : List String}

lemma parts_of_names (ha : p.isAbsolute = true) (hp : p.body = l.map Part.name) :
    p.parts = .root :: l.map Part.name := by rw [parts_of_absolute ha, hp]

lemma name_injective : Function.Injective Part.name := fun _ _ h => Part.name.inj h

lemma same_iff (hp : p.parts = .root :: l.map Part.name) (hq : q.parts = .root :: r.map Part.name) :
    p.same q = true ↔ l = r := by
  rw [same, beq_iff_eq, hp, hq, List.cons.injEq]
  simp [name_injective.list_map.eq_iff]

lemma startsWith_iff (hp : p.parts = .root :: l.map Part.name) (hq : q.parts = .root :: r.map Part.name) :
    p.startsWith q = true ↔ r <+: l := by
  rw [startsWith, hp, hq, List.isPrefixOf_iff_prefix, List.prefix_cons_inj,
    List.prefix_map_iff_of_injective name_injective]

end Path

namespace Tree

variable {who : Actor} {t t₁ t' : Tree} {d l r : Place} {p : Path} {n : String}

/-- A directory is removed just if nothing is in it and the directory around it is not protected. -/
lemma removeDir_cases (who : Actor) (h : t.parentOf who.cwd p = .ok (d, .name n)) (hd : t.isDirAt (d ++ [n]) = true) :
    (∃ t', removeDir who p t = .ok t' ∧ t.isLocked d ≠ true ∧ (∀ m, t.node? (d ++ [n] ++ [m]) = none) ∧
        t.Sets t' (d ++ [n]) none) ∨
      (∃ e, removeDir who p t = .error e) ∧ (t.isLocked d = true ∨ ∃ m, t.node? (d ++ [n] ++ [m]) ≠ none) := by
  obtain ⟨a, ha⟩ := at?_of_isDirAt hd
  by_cases hlock : t.isLocked d = true
  · refine Or.inr ⟨⟨.denied, ?_⟩, Or.inl hlock⟩
    unfold removeDir
    simp [h, ha, hlock]
  · by_cases hc : (t.childPlaces (d ++ [n])) = []
    · refine Or.inl ⟨(t.erase (d ++ [n])).touch d who.now, ?_, hlock, childPlaces_eq_nil.1 hc, sets_erase (by simp)⟩
      unfold removeDir
      simp [h, ha, hlock, hc]
    · refine Or.inr ⟨⟨.notEmpty, ?_⟩, Or.inr ?_⟩
      · unfold removeDir
        simp [h, ha, hlock, hc]
      · by_contra hno
        push Not at hno
        exact hc (childPlaces_eq_nil.2 hno)

/-- From `l` upward, directories inside `r` that had become empty were removed. -/
inductive Pruned (r : Place) : Place → Tree → Tree → Prop
  | stop {l : Place} {t : Tree}
      (why : l = r ∨ ¬r <+: l ∨ t.isLocked l.dropLast = true ∨ ∃ m, t.node? (l ++ [m]) ≠ none) : Pruned r l t t
  | up {l : Place} {n : String} {t t₁ t' : Tree} (inside : r <+: l) (dir : t.isDirAt (l ++ [n]) = true)
      (unlocked : t.isLocked l ≠ true) (empty : ∀ m, t.node? (l ++ [n] ++ [m]) = none)
      (sets : t.Sets t₁ (l ++ [n]) none) (rest : Pruned r l t₁ t') : Pruned r (l ++ [n]) t t'

end Tree

namespace Disk

open FileOrganizer.Tree

variable {who : Actor} {t : Tree} {l r : Place} {p stop : Path} {fuel : Nat}

lemma prune_pruned (hs : t.Sound) (hp : t.Plain) (hstop : stop.parts = .root :: r.map Part.name)
    (ha : p.isAbsolute = true) (h : Descent p l) (hd : t.isDirAt l = true) (hfuel : l.length < fuel) :
    ∃ t', prune who stop fuel p t = (.ok (), t') ∧ Pruned r l t t' := by
  induction fuel generalizing p l t with
  | zero => omega
  | succ fuel ih =>
    have hparts := Path.parts_of_names ha h.body
    have hsame := Path.same_iff hparts hstop
    have hstarts := Path.startsWith_iff hparts hstop
    unfold prune
    by_cases hend : l = r ∨ ¬r <+: l
    · have hcond : (p.same stop || !p.startsWith stop) = true := by
        rw [Bool.or_eq_true, Bool.not_eq_true', Bool.eq_false_iff, hsame, Ne, hstarts]
        exact hend
      exact ⟨t, if_pos hcond, .stop (hend.imp id Or.inl)⟩
    · push Not at hend
      have hcond : ¬(p.same stop || !p.startsWith stop) = true := by
        rw [Bool.or_eq_true, Bool.not_eq_true', Bool.eq_false_iff, hsame, Ne, hstarts]
        tauto
      simp only [hcond]
      rcases List.eq_nil_or_concat l with rfl | ⟨l, n, rfl⟩
      · exact absurd (List.prefix_nil.1 hend.2).symm hend.1
      · rw [List.concat_eq_append] at h hd hend hfuel ⊢
        have hpar : t.parentOf who.cwd p = .ok (l, .name n) := by
          have hup : t.isDirAt (start who.cwd p ++ l) = true := by
            rw [start_absolute ha]
            exact hs.isDirAt_of_below hd
          simpa [start_absolute ha] using parentOf_descent who.cwd hs hp h hup
        rcases removeDir_cases who hpar hd with ⟨t₁, hrem, hlock, hempty, hsets⟩ | ⟨⟨e, hrem⟩, hwhy⟩
        · have hinside : r <+: l := prefix_dropLast hend.2 (Ne.symm hend.1)
          obtain ⟨q, hq, hqa, hqd⟩ := h.parent ha
          have hd₁ : t₁.isDirAt l = true := by
            rw [isDirAt_congr (hsets.other (by simp))]
            exact hs.isDirAt_of_below hd
          have hlen : l.length < fuel := by
            rw [List.length_append, List.length_singleton] at hfuel
            omega
          obtain ⟨t', hrun, hrest⟩ := ih (sound_of_removeDir hs hrem) (hsets.plain hp (by simp)) hqa hqd hd₁ hlen
          refine ⟨t', ?_, .up hinside hd hlock hempty hsets hrest⟩
          simp only [hrem, hq]
          exact hrun
        · refine ⟨t, by simp [hrem], .stop (Or.inr (Or.inr ?_))⟩
          simpa using hwhy

lemma pruneUpTo_pruned (who : Actor) (hs : t.Sound) (hp : t.Plain) (hstop : stop.parts = .root :: r.map Part.name)
    (ha : p.isAbsolute = true) (h : Descent p l) (hd : t.isDirAt l = true) :
    ∃ t', pruneUpTo who p stop t = (.ok (), t') ∧ Pruned r l t t' := by
  refine prune_pruned hs hp hstop ha h hd ?_
  rw [Path.parts_of_names ha h.body, List.length_cons, List.length_map]
  omega

lemma prune_outside (h : p.same stop = true ∨ p.startsWith stop = false) : prune who stop fuel p t = (.ok (), t) := by
  cases fuel with
  | zero => rfl
  | succ fuel =>
    unfold prune
    exact if_pos (by rcases h with h | h <;> simp [h])

lemma prune_stuck {e : OsError} (h : Tree.removeDir who p t = .error e) : prune who stop fuel p t = (.ok (), t) := by
  cases fuel with
  | zero => rfl
  | succ fuel =>
    unfold prune
    rw [h]
    split <;> rfl

/-- Outside of the directory that stays nothing is removed. -/
lemma pruneUpTo_outside (h : p.startsWith stop = false) : pruneUpTo who p stop t = (.ok (), t) :=
  prune_outside (Or.inr h)

end Disk

end FileOrganizer
