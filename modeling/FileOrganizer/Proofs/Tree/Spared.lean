import FileOrganizer.Proofs.Tree.Content
import FileOrganizer.Proofs.Tree.Moved

/-! Files that a change is not about are left alone, whatever becomes of the change. And where there are no
links, a change makes none. -/

namespace FileOrganizer

open FileOrganizer.Tree FileOrganizer.Disk

variable {who : Actor} {cwd q : Place} {t t' : Tree} {source target p folder : Path} {b : ByteArray}
  {r : Except Fault Unit}

namespace Tree

variable {here next : Place} {xs rest : List String} {s : Spot} {fuel : Nat}

/-- The way to a path that can be followed leads to a directory. -/
lemma parentOf_of_locate_ok {s : Spot} (hloc : t.locate cwd true p = .ok s) : ∃ x, t.parentOf cwd p = .ok x := by
  have hr := refused_of_locate_ok hloc
  rw [locate_eq_resolve hr] at hloc
  unfold parentOf
  rw [hr]
  dsimp only
  cases hn : (segments p.chars).getLast? with
  | none => exact ⟨_, rfl⟩
  | some n =>
    unfold resolve at hloc ⊢
    split at hloc
    · next hd =>
      rw [if_pos hd]
      rw [steps_eq hn] at hloc
      have hne : lastSteps p n ≠ [] := by
        unfold lastSteps
        split <;> simp
      cases hup : walkLinks t true (maxLinks + 1) (start cwd p) ((segments p.chars).dropLast ++ ["."]) with
      | error e =>
        rw [walkLinks_append_error hup hne] at hloc
        cases hloc
      | ok s =>
        obtain ⟨k, hk⟩ := walkLinks_append_ok hup
        rw [hk true _ hne] at hloc
        dsimp only
        rcases step_cases n with rfl | rfl | ⟨h₁, h₂, h₃⟩ | ⟨h₁, h₂, h₃⟩
        · exact ⟨_, rfl⟩
        · exact ⟨_, rfl⟩
        · have hlen : ¬n.utf8ByteSize > maxName := by omega
          exact ⟨(s.place, .name n), by simp [h₁, h₂, hlen]⟩
        · unfold lastSteps at hloc
          split at hloc <;> rw [walkLinks, walk_long h₁ h₂ h₃] at hloc <;> cases hloc
    · cases hloc

lemma parentOf_of_has (h : t.has cwd p = true) : ∃ x, t.parentOf cwd p = .ok x := by
  obtain ⟨l, e, hst⟩ := has_iff.1 h
  exact parentOf_of_locate_ok (stat_eq_ok.1 hst)

/-- Every directory and every link stays where it is. -/
def Roads (t t' : Tree) : Prop :=
  (∀ q, t.isDirAt q = true → t'.isDirAt q = true) ∧ ∀ q x, t.node? q = some (.link x) → t'.node? q = some (.link x)

lemma Grows.roads (h : t.Grows t') : t.Roads t' := ⟨fun _ => h.dir, fun _ _ => h.link⟩

lemma walk_roads (hr : t.Roads t') (h : walk t true here (xs ++ ["."]) = .arrived s) :
    walk t' true here (xs ++ ["."]) = .arrived ⟨s.place, t'.at? s.place⟩ := by
  induction xs generalizing here with
  | nil =>
    rw [List.nil_append, walk_dot, walk_nil] at h ⊢
    cases h
    rfl
  | cons n xs ih =>
    rw [List.cons_append] at h ⊢
    rcases step_cases n with rfl | rfl | ⟨h1, h2, h3⟩ | ⟨h1, h2, h3⟩
    · rw [walk_dot] at h ⊢
      exact ih h
    · rw [walk_dots] at h ⊢
      exact ih h
    · rw [walk_name h1 h2 h3] at h ⊢
      split at h
      · simp at h
      · next he =>
        obtain ⟨a', ha'⟩ := at?_of_isDirAt (hr.1 _ (at?_dir he))
        rw [ha']
        exact ih h
      · simp at h
      · simp at h
    · rw [walk_long h1 h2 h3] at h
      cases h

lemma walk_roads_jump (hr : t.Roads t') (h : walk t true here (xs ++ ["."]) = .jump next rest) :
    walk t' true here (xs ++ ["."]) = .jump next rest := by
  induction xs generalizing here with
  | nil =>
    rw [List.nil_append, walk_dot, walk_nil] at h
    cases h
  | cons n xs ih =>
    rw [List.cons_append] at h ⊢
    rcases step_cases n with rfl | rfl | ⟨h1, h2, h3⟩ | ⟨h1, h2, h3⟩
    · rw [walk_dot] at h ⊢
      exact ih h
    · rw [walk_dots] at h ⊢
      exact ih h
    · rw [walk_name h1 h2 h3] at h ⊢
      split at h
      · simp at h
      · next he =>
        obtain ⟨a', ha'⟩ := at?_of_isDirAt (hr.1 _ (at?_dir he))
        rw [ha']
        exact ih h
      · simp at h
      · next x he =>
        rw [at?_link.2 (hr.2 _ x (at?_link.1 he))]
        exact h
    · rw [walk_long h1 h2 h3] at h
      cases h

/-- A way to a directory is taken along directories and links. -/
lemma walkLinks_roads (hr : t.Roads t') (h : walkLinks t true fuel here (xs ++ ["."]) = .ok s) :
    walkLinks t' true fuel here (xs ++ ["."]) = .ok ⟨s.place, t'.at? s.place⟩ := by
  induction fuel generalizing here xs with
  | zero => cases h
  | succ fuel ih =>
    rw [walkLinks] at h ⊢
    split at h
    · next hw =>
      cases h
      rw [walk_roads hr hw]
    · cases h
    · next hw =>
      obtain ⟨zs, rfl, -⟩ := walk_append_jump hw
      rw [walk_roads_jump hr hw]
      exact ih h

lemma parentOf_roads (hr : t.Roads t') {x : Place × LastStep} (h : t.parentOf cwd p = .ok x) :
    t'.parentOf cwd p = .ok x := by
  unfold parentOf at h ⊢
  cases hrefused : refused p with
  | some e =>
    rw [hrefused] at h
    cases h
  | none =>
    rw [hrefused] at h
    dsimp only at h ⊢
    cases hn : (segments p.chars).getLast? with
    | none => rwa [hn] at h
    | some n =>
      rw [hn] at h
      dsimp only at h ⊢
      unfold resolve at h ⊢
      by_cases hd : t.isDirAt (start cwd p) = true
      · rw [if_pos hd] at h
        rw [if_pos (hr.1 _ hd)]
        cases hup : walkLinks t true (maxLinks + 1) (start cwd p) ((segments p.chars).dropLast ++ ["."]) with
        | error e =>
          rw [hup] at h
          cases h
        | ok s =>
          rw [hup] at h
          rw [walkLinks_roads hr hup]
          exact h
      · rw [if_neg hd] at h
        cases h

/-- The way is the same where things were added. -/
lemma parentOf_grows (hg : t.Grows t') {x : Place × LastStep} (h : t.parentOf cwd p = .ok x) :
    t'.parentOf cwd p = .ok x := parentOf_roads hg.roads h

/-- A directory is reached by its name, with or without a slash at the end. -/
lemma stat_of_dir {d : Place} {n : String} (h : t.parentOf cwd p = .ok (d, .name n))
    (hd : t.isDirAt (d ++ [n]) = true) : ∃ a, t.stat cwd p = .ok (d ++ [n], .dir a) := by
  obtain ⟨k, ⟨h₁, h₂, h₃⟩, hk⟩ := locate_name h
  obtain ⟨a, ha⟩ := at?_of_isDirAt hd
  refine ⟨a, stat_eq_ok.2 ?_⟩
  rw [hk, lastSteps]
  split <;> simp [walkLinks, walk_name h₁ h₂ h₃, ha, walk_dot, walk_nil]

lemma isDir_of_parentOf {d : Place} {n : String} (h : t.parentOf cwd p = .ok (d, .name n))
    (hd : t.isDirAt (d ++ [n]) = true) : t.isDir cwd p = true := by
  obtain ⟨a, ha⟩ := stat_of_dir h hd
  exact isDir_iff.2 ⟨_, a, ha⟩

lemma Sets.bytes?_dir {l : Place} {k : Bool} (h : t.Sets t' l none) (hl : t.node? l = some (.dir k)) (q : Place) :
    t'.bytes? q = t.bytes? q := by
  by_cases hq : l = q
  · subst hq
    simp [Tree.bytes?, h.same, hl]
  · exact bytes?_congr (h.other hq)

end Tree

namespace Disk

/-- A file is left alone when another thing is moved that it is not part of. -/
lemma moveFile_leaves (hs : t.Sound) (hthere : t.has who.cwd source = true)
    (hq : ∀ d n, t.parentOf who.cwd source = .ok (d, .name n) → ¬d ++ [n] <+: q)
    (h : moveFile who source target t = (r, t')) (hb : t.bytes? q = some b) :
    t'.Sound ∧ t'.bytes? q = some b := by
  obtain ⟨x, hx⟩ := parentOf_of_has hthere
  obtain ⟨hs', ⟨-, hpaved⟩ | ⟨t₁, hs₁, hpaved, hno, hcase⟩⟩ := moveFile_cases hs h
  · exact ⟨hs', ((hpaved.addsDirs hs).2.bytes? q).trans hb⟩
  · have hadd := (hpaved.addsDirs hs).2
    have hb₁ : t₁.bytes? q = some b := (hadd.bytes? q).trans hb
    have hx₁ := parentOf_grows hadd.grows hx
    refine ⟨hs', ?_⟩
    rcases hcase with ⟨-, hren⟩ | ⟨-, hcop⟩ | ⟨-, t₂, hcop, hrem⟩
    · obtain ⟨d, n, d', n', y, hsrc, hdst, -, hslash, hcarried⟩ := rename_ok hs₁ hren
      obtain rfl : x = (d, .name n) := Except.ok.inj (hx₁.symm.trans hsrc)
      rcases hcarried with ⟨-, rfl⟩ | ⟨-, -, hrep, -, -, hcar⟩
      · exact hb₁
      · have hq' : ¬d' ++ [n'] <+: q := by
          rintro ⟨z, rfl⟩
          rw [hrep.bytes? hs₁ hdst (fun hk => (hslash hk).2) hno z] at hb₁
          cases hb₁
        exact (bytes?_congr (hcar.other hq' (hq d n hx))).trans hb₁
    · exact hcop.keeps hs₁ q b hb₁
    · obtain ⟨d, n, y, hsrc, -, -, -, -, hsets⟩ := removeFile_ok hrem
      have hgrows : t₁.Grows t₂ := by
        obtain ⟨ls, c, a, l, a', -, hloc, -, hset⟩ := hcop
        refine hset.grows fun z hz => ?_
        rw [node?_of_locate hs₁ hloc] at hz
        cases hz
      obtain rfl : x = (d, .name n) := Except.ok.inj ((parentOf_grows hgrows hx₁).symm.trans hsrc)
      have hne : d ++ [n] ≠ q := fun heq => hq d n hx (heq ▸ List.prefix_rfl)
      exact (bytes?_congr (hsets.other hne)).trans (hcop.keeps hs₁ q b hb₁)

lemma removeFile_leaves (h : Tree.removeFile who p t = .ok t')
    (hq : ∀ d n, t.parentOf who.cwd p = .ok (d, .name n) → d ++ [n] ≠ q) : t'.bytes? q = t.bytes? q := by
  obtain ⟨d, n, x, hpar, -, -, -, -, hsets⟩ := removeFile_ok h
  exact bytes?_congr (hsets.other (hq d n hpar))

lemma removeDir_leaves (h : Tree.removeDir who p t = .ok t') (q : Place) : t'.bytes? q = t.bytes? q := by
  obtain ⟨d, n, k, -, hdir, -, -, hsets⟩ := removeDir_ok h
  exact hsets.bytes?_dir hdir q

lemma prune_leaves {stop : Path} {fuel : Nat} (hs : t.Sound) (q : Place) :
    (prune who stop fuel p t).2.Sound ∧ (prune who stop fuel p t).2.bytes? q = t.bytes? q := by
  induction fuel generalizing p t with
  | zero => exact ⟨hs, rfl⟩
  | succ fuel ih =>
    unfold prune
    split
    · exact ⟨hs, rfl⟩
    · cases hrem : Tree.removeDir who p t with
      | error e => exact ⟨hs, rfl⟩
      | ok t₁ =>
        have hs₁ := sound_of_removeDir hs hrem
        have hb₁ := removeDir_leaves hrem q
        dsimp only
        cases hup : p.parent? with
        | none => exact ⟨hs₁, hb₁⟩
        | some d =>
          obtain ⟨hs', hb'⟩ := ih (p := d) hs₁
          exact ⟨hs', hb'.trans hb₁⟩

lemma plain_of_removeFile (hp : t.Plain) (h : Tree.removeFile who p t = .ok t') : t'.Plain := by
  obtain ⟨d, n, x, _, _, _, _, _, hsets⟩ := removeFile_ok h
  exact hsets.plain hp (by simp)

lemma plain_of_removeDir (hp : t.Plain) (h : Tree.removeDir who p t = .ok t') : t'.Plain := by
  obtain ⟨d, n, k, _, _, _, _, hsets⟩ := removeDir_ok h
  exact hsets.plain hp (by simp)

lemma Copied.plain (h : Copied cwd source target t t') (hp : t.Plain) : t'.Plain := by
  obtain ⟨ls, c, a, l, a', _, _, _, hsets⟩ := h
  exact hsets.plain hp (by simp)

lemma plain_of_moveFile (hs : t.Sound) (hp : t.Plain) (h : moveFile who source target t = (r, t')) : t'.Plain := by
  obtain ⟨-, ⟨-, hpaved⟩ | ⟨t₁, hs₁, hpaved, -, hcase⟩⟩ := moveFile_cases hs h
  · exact (hpaved.addsDirs hs).2.plain hp
  · have hp₁ : t₁.Plain := (hpaved.addsDirs hs).2.plain hp
    rcases hcase with ⟨-, hren⟩ | ⟨-, hcop⟩ | ⟨-, t₂, hcop, hrem⟩
    · obtain ⟨d, n, d', n', x, _, _, _, _, hcase⟩ := rename_ok hs₁ hren
      rcases hcase with ⟨-, rfl⟩ | ⟨-, -, -, -, -, hcar⟩
      · exact hp₁
      · exact hcar.plain hp₁
    · exact hcop.plain hp₁
    · exact plain_of_removeFile (hcop.plain hp₁) hrem

lemma prune_plain {stop : Path} {fuel : Nat} (hp : t.Plain) : (prune who stop fuel p t).2.Plain := by
  induction fuel generalizing p t with
  | zero => exact hp
  | succ fuel ih =>
    unfold prune
    split
    · exact hp
    · cases hrem : Tree.removeDir who p t with
      | error e => exact hp
      | ok t₁ =>
        have hp₁ := plain_of_removeDir hp hrem
        dsimp only
        cases p.parent? with
        | none => exact hp₁
        | some d => exact ih (p := d) hp₁

end Disk

end FileOrganizer
