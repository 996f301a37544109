import FileOrganizer.Proofs.Path.Parent
import FileOrganizer.Proofs.Tree.Rename
import FileOrganizer.Tree.Transfer

/-! What making directories, copying and moving do to a tree, however they end. -/

namespace FileOrganizer

namespace Tree

variable {t t' t'' : Tree}

/-- Nothing has changed but that there are new directories. -/
def AddsDirs (t t' : Tree) : Prop :=
  ∀ q, t'.node? q = t.node? q ∨ t.node? q = none ∧ t'.node? q = some (.dir false)

lemma AddsDirs.refl (t : Tree) : t.AddsDirs t := fun _ => Or.inl rfl

lemma AddsDirs.trans (h : t.AddsDirs t') (h' : t'.AddsDirs t'') : t.AddsDirs t'' := by
  intro q
  rcases h q with hq | ⟨hn, hq⟩ <;> rcases h' q with hq' | ⟨hn', hq'⟩
  · exact Or.inl (hq'.trans hq)
  · exact Or.inr ⟨hq ▸ hn', hq'⟩
  · exact Or.inr ⟨hn, hq'.trans hq⟩
  · rw [hq] at hn'
    cases hn'

lemma AddsDirs.keep (h : t.AddsDirs t') {q : Place} (hq : t.node? q ≠ none) : t'.node? q = t.node? q := by
  rcases h q with h | ⟨h, -⟩
  · exact h
  · exact absurd h hq

lemma AddsDirs.grows (h : t.AddsDirs t') : t.Grows t' := Grows.of_node? fun _ => h.keep

lemma AddsDirs.bytes? (h : t.AddsDirs t') (q : Place) : t'.bytes? q = t.bytes? q := by
  rcases h q with h | ⟨h, h'⟩
  · exact bytes?_congr h
  · simp [Tree.bytes?, h, h']

end Tree

namespace Disk

open FileOrganizer.Tree

variable {who : Actor} {t t' : Tree} {p source target : Path} {r : Except Fault Unit}

lemma makeDir_addsDirs (hs : t.Sound) (h : Tree.makeDir who p t = .ok t') : t'.Sound ∧ t.AddsDirs t' := by
  refine ⟨sound_of_makeDir hs h, fun q => ?_⟩
  obtain ⟨d, n, -, hn, -, ht⟩ := makeDir_ok h
  by_cases hq : d ++ [n] = q
  · exact Or.inr ⟨hq ▸ hn, hq ▸ ht.same⟩
  · exact Or.inl (ht.other hq)

/-- Directories were made one after the other, each of them where the path leads or above. -/
inductive DirsMade (who : Actor) (p : Path) : Tree → Tree → Prop
  | refl (t : Tree) : DirsMade who p t t
  | step {q : Path} {t t₁ t' : Tree} (absolute : q.isAbsolute = p.isAbsolute) (above : q.body <+: p.body)
      (made : Tree.makeDir who q t = .ok t₁) (rest : DirsMade who p t₁ t') : DirsMade who p t t'

lemma DirsMade.single (h : Tree.makeDir who p t = .ok t') : DirsMade who p t t' := .step rfl List.prefix_rfl h (.refl _)

lemma DirsMade.trans {t'' : Tree} (h : DirsMade who p t t') (h' : DirsMade who p t' t'') : DirsMade who p t t'' := by
  induction h with
  | refl t => exact h'
  | step absolute above made rest ih => exact .step absolute above made (ih h')

lemma DirsMade.of_parent {q : Path} (hq : p.parent? = some q) (h : DirsMade who q t t') : DirsMade who p t t' := by
  obtain ⟨habs, hbody⟩ := Path.parent?_body hq
  induction h with
  | refl t => exact .refl t
  | step absolute above made rest ih =>
    exact .step (absolute.trans habs) (above.trans (hbody ▸ List.dropLast_prefix _)) made ih

lemma DirsMade.addsDirs (h : DirsMade who p t t') (hs : t.Sound) : t'.Sound ∧ t.AddsDirs t' := by
  induction h with
  | refl t => exact ⟨hs, .refl t⟩
  | step absolute above made rest ih =>
    obtain ⟨hs₁, hadd⟩ := makeDir_addsDirs hs made
    obtain ⟨hs', hadd'⟩ := ih hs₁
    exact ⟨hs', hadd.trans hadd'⟩

lemma DirsMade.of_makeDirsFrom {fuel : Nat} (h : makeDirsFrom who fuel p t = (r, t')) : DirsMade who p t t' := by
  induction fuel generalizing p t r t' with
  | zero =>
    unfold makeDirsFrom change at h
    split at h
    · next hm =>
      cases h
      exact .single hm
    · cases h
      exact .refl _
  | succ fuel ih =>
    unfold makeDirsFrom at h
    split at h
    · cases h
      exact .refl _
    · split at h
      · next hm =>
        cases h
        exact .single hm
      · split at h
        · cases h
          exact .refl _
        · next q hq =>
          split at h
          · next hrec =>
            cases h
            exact (ih hrec).of_parent hq
          · next t₁ hrec =>
            have habove := (ih hrec).of_parent hq
            split at h
            · next hm =>
              cases h
              exact habove.trans (.single hm)
            · cases h
              exact habove
      · cases h
        exact .refl _

lemma makeDirsFrom_addsDirs {fuel : Nat} (hs : t.Sound) (h : makeDirsFrom who fuel p t = (r, t')) :
    t'.Sound ∧ t.AddsDirs t' := (DirsMade.of_makeDirsFrom h).addsDirs hs

lemma makeDirs_addsDirs (hs : t.Sound) (h : makeDirs who p t = (r, t')) : t'.Sound ∧ t.AddsDirs t' :=
  makeDirsFrom_addsDirs hs h

section

variable {α β : Type}

lemma run_bind (m : Disk α) (k : α → Disk β) :
    (m >>= k) t = match m t with
      | (.ok a, t') => k a t'
      | (.error e, t') => (.error e, t') := by
  change (match m t with | (x, t') => ExceptT.bindCont k x t') = _
  cases m t with
  | mk x t' => cases x <;> rfl

lemma run_get : (get : Disk Tree) t = (.ok t, t) := rfl

end

lemma DirsMade.of_makeParents (h : makeParents who p t = (r, t')) : DirsMade who p t t' := by
  unfold makeParents at h
  split at h
  · cases h
    exact .refl _
  · next q hq => exact (DirsMade.of_makeDirsFrom h).of_parent hq

lemma makeParents_addsDirs (hs : t.Sound) (h : makeParents who p t = (r, t')) :
    t'.Sound ∧ t.AddsDirs t' := (DirsMade.of_makeParents h).addsDirs hs

/-- The directories above a path were made, once or more often. -/
inductive Paved (who : Actor) (p : Path) : Tree → Tree → Prop
  | refl (t : Tree) : Paved who p t t
  | step {t t₁ t' : Tree} {r : Except Fault Unit} (made : makeParents who p t = (r, t₁))
      (rest : Paved who p t₁ t') : Paved who p t t'

lemma Paved.trans {t'' : Tree} (h : Paved who p t t') (h' : Paved who p t' t'') : Paved who p t t'' := by
  induction h with
  | refl t => exact h'
  | step made rest ih => exact .step made (ih h')

lemma Paved.addsDirs (h : Paved who p t t') (hs : t.Sound) : t'.Sound ∧ t.AddsDirs t' := by
  induction h with
  | refl t => exact ⟨hs, .refl t⟩
  | step made rest ih =>
    obtain ⟨hs₁, hadd⟩ := makeParents_addsDirs hs made
    obtain ⟨hs', hadd'⟩ := ih hs₁
    exact ⟨hs', hadd.trans hadd'⟩

lemma clear_cases (hs : t.Sound) (h : clear who target t = (r, t')) :
    t'.Sound ∧ Paved who target t t' ∧ (r = .ok () → t'.has who.cwd target = false) := by
  unfold clear at h
  rw [run_bind] at h
  split at h
  · next t₁ hmk =>
    have hs₁ := (makeParents_addsDirs hs hmk).1
    have hadd : Paved who target t _ := .step hmk (.refl _)
    rw [run_bind, run_get] at h
    dsimp only at h
    split at h
    · cases h
      exact ⟨hs₁, hadd, by simp⟩
    · next hhas =>
      cases h
      exact ⟨hs₁, hadd, fun _ => by simpa using hhas⟩
  · next e t₁ hmk =>
    cases h
    have hs₁ := (makeParents_addsDirs hs hmk).1
    have hadd : Paved who target t _ := .step hmk (.refl _)
    exact ⟨hs₁, hadd, by simp⟩

/-- A file came into being where the target leads, with the bytes of the file that the source leads to. -/
def Copied (cwd : Place) (source target : Path) (t t' : Tree) : Prop :=
  ∃ ls b a l a', t.stat cwd source = .ok (ls, .file b a) ∧ t.locate cwd true target = .ok ⟨l, none⟩ ∧
    t.isLocked l.dropLast ≠ true ∧ t.Sets t' l (some (.file b a'))

lemma Copied.sound {cwd : Place} (h : Copied cwd source target t t') (hs : t.Sound) : t'.Sound := by
  obtain ⟨-, b, -, l, a', -, hl, -, ht⟩ := h
  exact ht.sound_some hs (locate_ok hs hl).2 (Or.inl (not_isDirAt_of_none (node?_of_locate hs hl)))

lemma duplicate_cases (hs : t.Sound) (hno : t.has who.cwd target = false)
    (h : duplicate who source target t = (r, t')) :
    (∃ e, r = .error e) ∧ t' = t ∨ Copied who.cwd source target t t' := by
  unfold duplicate at h
  rw [run_bind, ask] at h
  cases hst : t.stat who.cwd source with
  | error e =>
    rw [hst] at h
    cases h
    exact Or.inl ⟨⟨_, rfl⟩, rfl⟩
  | ok x =>
    obtain ⟨ls, e⟩ := x
    rw [hst] at h
    cases e with
    | dir a =>
      cases h
      exact Or.inl ⟨⟨_, rfl⟩, rfl⟩
    | link x =>
      cases h
      exact Or.inl ⟨⟨_, rfl⟩, rfl⟩
    | file b a =>
      dsimp only at h
      rw [run_bind, change] at h
      cases hw : Tree.writeFile who target b t with
      | error e =>
        rw [hw] at h
        cases h
        exact Or.inl ⟨⟨_, rfl⟩, rfl⟩
      | ok t₁ =>
        right
        rw [hw] at h
        dsimp only [change] at h
        rcases writeFile_ok hs hw with ⟨l, b₀, a₀, hl, -, -⟩ | ⟨l, hl, hk, ht⟩
        · rw [has_iff.2 ⟨l, _, hl⟩] at hno
          cases hno
        · cases ha : Tree.setAttrs who target (fun _ => a) t₁ with
          | error e =>
            rw [ha] at h
            cases h
            exact ⟨ls, b, a, l, _, hst, hl, hk, ht⟩
          | ok t₂ =>
            rw [ha] at h
            cases h
            have hs₁ : t₁.Sound := sound_of_writeFile hs hw
            have hst₁ : t₁.stat who.cwd target = .ok (l, .file b ⟨who.now, false⟩) := stat_of_made hs hl ht
            exact ⟨ls, b, a, l, a, hst, hl, hk, ht.again (setAttrs_file hs₁ hst₁ ha)⟩

lemma copyFile_cases (hs : t.Sound) (h : copyFile who source target t = (r, t')) :
    t'.Sound ∧ ((∃ e, r = .error e) ∧ Paved who target t t' ∨
      ∃ t₁, t₁.Sound ∧ Paved who target t t₁ ∧ t₁.has who.cwd target = false ∧
        Copied who.cwd source target t₁ t') := by
  unfold copyFile at h
  rw [run_bind] at h
  split at h
  · next t₁ hc =>
    obtain ⟨hs₁, hadd, hno⟩ := clear_cases hs hc
    rcases duplicate_cases hs₁ (hno rfl) h with ⟨he, rfl⟩ | hcop
    · exact ⟨hs₁, Or.inl ⟨he, hadd⟩⟩
    · exact ⟨hcop.sound hs₁, Or.inr ⟨t₁, hs₁, hadd, hno rfl, hcop⟩⟩
  · next e t₁ hc =>
    cases h
    obtain ⟨hs₁, hadd, -⟩ := clear_cases hs hc
    exact ⟨hs₁, Or.inl ⟨⟨e, rfl⟩, hadd⟩⟩

/-- A file is moved by renaming it, or else by copying it and removing it. -/
lemma moveFile_cases (hs : t.Sound) (h : moveFile who source target t = (r, t')) :
    t'.Sound ∧ ((∃ e, r = .error e) ∧ Paved who target t t' ∨
      ∃ t₁, t₁.Sound ∧ Paved who target t t₁ ∧ t₁.has who.cwd target = false ∧
        (r = .ok () ∧ Tree.rename who source target t₁ = .ok t' ∨
          (∃ e, r = .error e) ∧ Copied who.cwd source target t₁ t' ∨
          r = .ok () ∧ ∃ t₂, Copied who.cwd source target t₁ t₂ ∧
            Tree.removeFile who source t₂ = .ok t')) := by
  unfold moveFile at h
  rw [run_bind] at h
  split at h
  · next t₁ hc =>
    obtain ⟨hs₁, hadd, hno⟩ := clear_cases hs hc
    rw [run_bind, run_get] at h
    dsimp only at h
    cases hren : Tree.rename who source target t₁ with
    | ok t₂ =>
      rw [hren] at h
      cases h
      exact ⟨sound_of_rename hs₁ hren, Or.inr ⟨t₁, hs₁, hadd, hno rfl, Or.inl ⟨rfl, hren⟩⟩⟩
    | error e =>
      rw [hren] at h
      dsimp only at h
      split at h
      · rw [run_bind, explain] at h
        rcases hcop : copyFile who source target t₁ with ⟨rc, t₂⟩
        rw [hcop] at h
        obtain ⟨hs₂, hcases⟩ := copyFile_cases hs₁ hcop
        cases rc with
        | error e' =>
          cases h
          rcases hcases with ⟨-, hadd'⟩ | ⟨t₃, hs₃, hadd', hno', hdone⟩
          · exact ⟨hs₂, Or.inl ⟨⟨_, rfl⟩, hadd.trans hadd'⟩⟩
          · exact ⟨hs₂, Or.inr ⟨t₃, hs₃, hadd.trans hadd', hno', Or.inr (Or.inl ⟨⟨_, rfl⟩, hdone⟩)⟩⟩
        | ok a =>
          rcases hcases with ⟨⟨_, he⟩, -⟩ | ⟨t₃, hs₃, hadd', hno', hdone⟩
          · cases he
          · dsimp only [change] at h
            split at h
            · next t₄ hrem =>
              cases h
              exact ⟨sound_of_removeFile hs₂ hrem, Or.inr ⟨t₃, hs₃, hadd.trans hadd', hno',
                Or.inr (Or.inr ⟨rfl, t₂, hdone, hrem⟩)⟩⟩
            · cases h
              exact ⟨hs₂, Or.inr ⟨t₃, hs₃, hadd.trans hadd', hno', Or.inr (Or.inl ⟨⟨_, rfl⟩, hdone⟩)⟩⟩
      · cases h
        exact ⟨hs₁, Or.inl ⟨⟨_, rfl⟩, hadd⟩⟩
  · next e t₁ hc =>
    cases h
    obtain ⟨hs₁, hadd, -⟩ := clear_cases hs hc
    exact ⟨hs₁, Or.inl ⟨⟨e, rfl⟩, hadd⟩⟩

end Disk

end FileOrganizer
