import FileOrganizer.Proofs.Tree.Node

/-! How paths lead through a tree: the directory of the last step, and what growth of the tree leaves
as it is. -/

namespace FileOrganizer.Tree

variable {t t' : Tree} {follow follow' : Bool} {here d l start : Place} {n : String}
  {names rest xs ys : List String} {s : Spot} {fuel : Nat}

lemma walk_dot : walk t follow here ("." :: rest) = walk t follow here rest := by
  simp [walk]

lemma walk_dots : walk t follow here (".." :: rest) = walk t follow here.dropLast rest := by
  simp [walk]

lemma walk_nil : walk t follow here [] = .arrived ⟨here, t.at? here⟩ := rfl

/-- A step to a name that is neither a dot nor two dots. -/
lemma walk_name (h1 : n ≠ ".") (h2 : n ≠ "..") (h3 : n.utf8ByteSize ≤ maxName) :
    walk t follow here (n :: rest) = match t.at? (here ++ [n]) with
      | none => if rest.isEmpty then .arrived ⟨here ++ [n], none⟩ else .lost .notFound
      | some (.dir _) => walk t follow (here ++ [n]) rest
      | some (.file b a) =>
        if rest.isEmpty then .arrived ⟨here ++ [n], some (.file b a)⟩ else .lost .notDirectory
      | some (.link target) =>
        if rest.isEmpty && !follow then .arrived ⟨here ++ [n], some (.link target)⟩
        else .jump (if target.toList.head? = some '/' then [] else here) (steps target.toList ++ rest) := by
  have h3' : ¬n.utf8ByteSize > maxName := by omega
  rw [walk]
  exact (if_neg h1).trans ((if_neg h2).trans (if_neg h3'))

lemma walk_long (h1 : n ≠ ".") (h2 : n ≠ "..") (h3 : ¬n.utf8ByteSize ≤ maxName) :
    walk t follow here (n :: rest) = .lost .nameTooLong := by
  rw [walk, if_neg h1, if_neg h2, if_pos (by omega)]

/-- The three kinds of a step. -/
lemma step_cases (n : String) :
    n = "." ∨ n = ".." ∨ (n ≠ "." ∧ n ≠ ".." ∧ n.utf8ByteSize ≤ maxName) ∨
      (n ≠ "." ∧ n ≠ ".." ∧ ¬n.utf8ByteSize ≤ maxName) := by
  by_cases h1 : n = "."
  · exact Or.inl h1
  · by_cases h2 : n = ".."
    · exact Or.inr (Or.inl h2)
    · by_cases h3 : n.utf8ByteSize ≤ maxName
      · exact Or.inr (Or.inr (Or.inl ⟨h1, h2, h3⟩))
      · exact Or.inr (Or.inr (Or.inr ⟨h1, h2, h3⟩))

/-- A walk that ends in a directory, gone on with. -/
lemma walk_append_arrived (h : walk t true here (xs ++ ["."]) = .arrived s) :
    walk t follow here (xs ++ ys) = walk t follow s.place ys := by
  induction xs generalizing here with
  | nil =>
    rw [List.nil_append, walk_dot, walk_nil] at h
    cases h
    rfl
  | cons n xs ih =>
    rcases step_cases n with rfl | rfl | ⟨h1, h2, h3⟩ | ⟨h1, h2, h3⟩
    · rw [List.cons_append, walk_dot] at h ⊢
      exact ih h
    · rw [List.cons_append, walk_dots] at h ⊢
      exact ih h
    · rw [List.cons_append, walk_name h1 h2 h3] at h ⊢
      split at h
      · simp at h
      · exact ih h
      · simp at h
      · simp at h
    · rw [List.cons_append, walk_long h1 h2 h3] at h
      cases h

lemma walk_append_lost {e : OsError} (h : walk t true here (xs ++ ["."]) = .lost e) (hy : ys ≠ []) :
    walk t follow here (xs ++ ys) = .lost e := by
  induction xs generalizing here with
  | nil =>
    rw [List.nil_append, walk_dot, walk_nil] at h
    cases h
  | cons n xs ih =>
    rcases step_cases n with rfl | rfl | ⟨h1, h2, h3⟩ | ⟨h1, h2, h3⟩
    · rw [List.cons_append, walk_dot] at h ⊢
      exact ih h
    · rw [List.cons_append, walk_dots] at h ⊢
      exact ih h
    · rw [List.cons_append, walk_name h1 h2 h3] at h ⊢
      split at h
      · simpa [hy] using h
      · exact ih h
      · simpa [hy] using h
      · simp at h
    · rw [List.cons_append, walk_long h1 h2 h3] at h ⊢
      exact h

lemma walk_append_jump (h : walk t true here (xs ++ ["."]) = .jump start rest) :
    ∃ zs, rest = zs ++ ["."] ∧
      ∀ follow ys, ys ≠ [] → walk t follow here (xs ++ ys) = .jump start (zs ++ ys) := by
  induction xs generalizing here with
  | nil =>
    rw [List.nil_append, walk_dot, walk_nil] at h
    cases h
  | cons n xs ih =>
    rcases step_cases n with rfl | rfl | ⟨h1, h2, h3⟩ | ⟨h1, h2, h3⟩
    · rw [List.cons_append, walk_dot] at h
      simpa only [List.cons_append, walk_dot] using ih h
    · rw [List.cons_append, walk_dots] at h
      simpa only [List.cons_append, walk_dots] using ih h
    · rw [List.cons_append, walk_name h1 h2 h3] at h
      split at h
      · simp at h
      · next he =>
        obtain ⟨zs, hz, hw⟩ := ih h
        refine ⟨zs, hz, fun follow ys hy => ?_⟩
        rw [List.cons_append, walk_name h1 h2 h3, he]
        exact hw follow ys hy
      · simp at h
      · next target he =>
        have hne : (xs ++ ["."]).isEmpty = false := by simp
        simp only [hne, Bool.false_and, Bool.false_eq_true, if_false, Walk.jump.injEq] at h
        obtain ⟨hstart, hrest⟩ := h
        refine ⟨steps target.toList ++ xs, by rw [← hrest, List.append_assoc], fun follow ys hy => ?_⟩
        rw [List.cons_append, walk_name h1 h2 h3, he]
        simp [hy, hstart]
    · rw [List.cons_append, walk_long h1 h2 h3] at h
      cases h

/-- The way to a directory is taken by all that is below it, and what is left of the links is the same
for all. -/
lemma walkLinks_append_ok (h : walkLinks t true fuel here (xs ++ ["."]) = .ok s) :
    ∃ k, ∀ follow ys, ys ≠ [] →
      walkLinks t follow fuel here (xs ++ ys) = walkLinks t follow (k + 1) s.place ys := by
  induction fuel generalizing here xs with
  | zero => cases h
  | succ fuel ih =>
    rw [walkLinks] at h
    split at h
    · next hw =>
      cases h
      refine ⟨fuel, fun follow ys hy => ?_⟩
      rw [walkLinks, walk_append_arrived hw, ← walkLinks]
    · cases h
    · next hw =>
      obtain ⟨zs, rfl, hz⟩ := walk_append_jump hw
      obtain ⟨k, hk⟩ := ih h
      refine ⟨k, fun follow ys hy => ?_⟩
      rw [walkLinks, hz follow ys hy]
      exact hk follow ys hy

lemma walkLinks_append_error {e : OsError} (h : walkLinks t true fuel here (xs ++ ["."]) = .error e)
    (hy : ys ≠ []) : walkLinks t follow fuel here (xs ++ ys) = .error e := by
  induction fuel generalizing here xs with
  | zero => exact h
  | succ fuel ih =>
    rw [walkLinks] at h ⊢
    split at h
    · cases h
    · next hw =>
      rw [walk_append_lost hw hy]
      exact h
    · next hw =>
      obtain ⟨zs, rfl, hz⟩ := walk_append_jump hw
      rw [hz follow ys hy]
      exact ih h

/-- A walk from a directory ends at a place that is in a directory, with what is there. -/
lemma walk_arrived (hs : t.Sound) (hd : t.isDirAt here = true) (h : walk t follow here names = .arrived s) :
    s.entry = t.at? s.place ∧ t.isDirAt s.place.dropLast = true := by
  induction names generalizing here with
  | nil =>
    cases h
    exact ⟨rfl, hs.isDirAt_up hd⟩
  | cons n rest ih =>
    rcases step_cases n with rfl | rfl | ⟨h1, h2, h3⟩ | ⟨h1, h2, h3⟩
    · rw [walk_dot] at h
      exact ih hd h
    · rw [walk_dots] at h
      exact ih (hs.isDirAt_up hd) h
    · rw [walk_name h1 h2 h3] at h
      split at h
      · next he =>
        split at h
        · cases h
          exact ⟨he.symm, by simpa using hd⟩
        · cases h
      · next he => exact ih (at?_dir he) h
      · next he =>
        split at h
        · cases h
          exact ⟨he.symm, by simpa using hd⟩
        · cases h
      · next he =>
        split at h
        · cases h
          exact ⟨he.symm, by simpa using hd⟩
        · cases h
    · rw [walk_long h1 h2 h3] at h
      cases h

lemma walk_jump (hs : t.Sound) (hd : t.isDirAt here = true)
    (h : walk t follow here names = .jump start rest) : t.isDirAt start = true := by
  induction names generalizing here with
  | nil => cases h
  | cons n names ih =>
    rcases step_cases n with rfl | rfl | ⟨h1, h2, h3⟩ | ⟨h1, h2, h3⟩
    · rw [walk_dot] at h
      exact ih hd h
    · rw [walk_dots] at h
      exact ih (hs.isDirAt_up hd) h
    · rw [walk_name h1 h2 h3] at h
      split at h
      · split at h <;> cases h
      · next he => exact ih (at?_dir he) h
      · split at h <;> cases h
      · split at h
        · cases h
        · cases h
          split
          · rfl
          · exact hd
    · rw [walk_long h1 h2 h3] at h
      cases h

lemma walkLinks_ok (hs : t.Sound) (hd : t.isDirAt here = true)
    (h : walkLinks t follow fuel here names = .ok s) :
    s.entry = t.at? s.place ∧ t.isDirAt s.place.dropLast = true := by
  induction fuel generalizing here names with
  | zero => cases h
  | succ fuel ih =>
    rw [walkLinks] at h
    split at h
    · next hw =>
      cases h
      exact walk_arrived hs hd hw
    · cases h
    · next hw => exact ih (walk_jump hs hd hw) h

/-- With a dot behind it a path leads to a directory, or nowhere. -/
lemma walk_dot_arrived (hd : t.isDirAt here = true) (h : walk t follow here (xs ++ ["."]) = .arrived s)
    (hup : ∀ p, t.isDirAt p = true → t.isDirAt p.dropLast = true) : t.isDirAt s.place = true := by
  induction xs generalizing here with
  | nil =>
    rw [List.nil_append, walk_dot, walk_nil] at h
    cases h
    exact hd
  | cons n xs ih =>
    rcases step_cases n with rfl | rfl | ⟨h1, h2, h3⟩ | ⟨h1, h2, h3⟩
    · rw [List.cons_append, walk_dot] at h
      exact ih hd h
    · rw [List.cons_append, walk_dots] at h
      exact ih (hup _ hd) h
    · rw [List.cons_append, walk_name h1 h2 h3] at h
      split at h
      · simp at h
      · next he => exact ih (at?_dir he) h
      · simp at h
      · simp at h
    · rw [List.cons_append, walk_long h1 h2 h3] at h
      cases h

lemma walkLinks_dot (hs : t.Sound) (hd : t.isDirAt here = true)
    (h : walkLinks t true fuel here (xs ++ ["."]) = .ok s) : t.isDirAt s.place = true := by
  induction fuel generalizing here xs with
  | zero => cases h
  | succ fuel ih =>
    rw [walkLinks] at h
    split at h
    · next hw =>
      cases h
      exact walk_dot_arrived hd hw fun _ => hs.isDirAt_up
    · cases h
    · next hw =>
      obtain ⟨zs, rfl, -⟩ := walk_append_jump hw
      exact ih (walk_jump hs hd hw) h

/-- A walk that ends at a directory ends there with a dot behind it, too. -/
lemma walk_dot_of_dir {a : Attrs} (h : walk t true here names = .arrived ⟨l, some (.dir a)⟩) :
    walk t true here (names ++ ["."]) = .arrived ⟨l, some (.dir a)⟩ := by
  induction names generalizing here with
  | nil => rwa [List.nil_append, walk_dot]
  | cons n names ih =>
    rw [List.cons_append]
    rcases step_cases n with rfl | rfl | ⟨h₁, h₂, h₃⟩ | ⟨h₁, h₂, h₃⟩
    · rw [walk_dot] at h ⊢
      exact ih h
    · rw [walk_dots] at h ⊢
      exact ih h
    · rw [walk_name h₁ h₂ h₃] at h ⊢
      split at h
      · split at h <;> simp at h
      · exact ih h
      · split at h <;> simp at h
      · simp at h
    · rw [walk_long h₁ h₂ h₃] at h
      cases h

lemma walk_dot_of_jump (h : walk t true here names = .jump start rest) :
    walk t true here (names ++ ["."]) = .jump start (rest ++ ["."]) := by
  induction names generalizing here with
  | nil => cases h
  | cons n names ih =>
    rw [List.cons_append]
    rcases step_cases n with rfl | rfl | ⟨h₁, h₂, h₃⟩ | ⟨h₁, h₂, h₃⟩
    · rw [walk_dot] at h ⊢
      exact ih h
    · rw [walk_dots] at h ⊢
      exact ih h
    · rw [walk_name h₁ h₂ h₃] at h ⊢
      split at h
      · split at h <;> simp at h
      · exact ih h
      · split at h <;> simp at h
      · obtain ⟨rfl, rfl⟩ : _ = start ∧ _ = rest := by simpa using h
        simp
    · rw [walk_long h₁ h₂ h₃] at h
      cases h

lemma walkLinks_dot_of_dir {a : Attrs} (h : walkLinks t true fuel here names = .ok ⟨l, some (.dir a)⟩) :
    walkLinks t true fuel here (names ++ ["."]) = .ok ⟨l, some (.dir a)⟩ := by
  induction fuel generalizing here names with
  | zero => cases h
  | succ fuel ih =>
    rw [walkLinks] at h ⊢
    cases hw : walk t true here names with
    | arrived s =>
      rw [hw] at h
      cases h
      rw [walk_dot_of_dir hw]
    | jump start rest =>
      rw [hw] at h
      rw [walk_dot_of_jump hw]
      exact ih h
    | lost e =>
      rw [hw] at h
      cases h

end FileOrganizer.Tree
