import FileOrganizer.Proofs.Tree.Spared
import FileOrganizer.Proofs.Tree.Way

/-! Moving a file to a place where nothing stands, on a way that can be laid, succeeds. -/

namespace FileOrganizer

namespace Tree

variable {who : Actor} {t t' : Tree} {src dst : Path} {d d' q : Place} {n n' : String} {b : ByteArray}
  {a : Attrs}

/-- A free place is not on the way to a file. -/
lemma not_prefix_of_free (hs : t.Sound) {l l' : Place} (hx : t.node? l = some (.file b a)) (hfree : t.node? l' = none) :
    ¬l' <+: l := by
  rintro ⟨r, rfl⟩
  rcases eq_or_ne r [] with rfl | hr
  · rw [List.append_nil, hfree] at hx
    cases hx
  · rw [hs.node?_below r hr (not_isDirAt_of_none hfree)] at hx
    cases hx

lemma rename_eq_ok (hs : t.Sound) (hsrc : t.parentOf who.cwd src = .ok (d, .name n))
    (hdst : t.parentOf who.cwd dst = .ok (d', .name n')) (hslash : src.endsInSlash ≠ true)
    (hslash' : dst.endsInSlash ≠ true) (hx : t.node? (d ++ [n]) = some (.file b a))
    (hfree : t.node? (d' ++ [n']) = none) (hlock : t.isLocked d ≠ true) (hlock' : t.isLocked d' ≠ true) :
    ∃ t', rename who src dst t = .ok t' := by
  have hne : d ++ [n] ≠ d' ++ [n'] := by
    intro heq
    simp [heq, hfree] at hx
  have hout : ¬(d' ++ [n']).isPrefixOf (d ++ [n]) = true := by
    rw [List.isPrefixOf_iff_prefix]
    exact not_prefix_of_free hs hx hfree
  have hrep : t.replaceable (.file b a) (d' ++ [n']) = .ok () := by
    unfold replaceable
    rw [at?_eq_none.2 hfree]
  refine ⟨((t.relocate (d ++ [n]) (d' ++ [n'])).touch d who.now).touch d' who.now, ?_⟩
  unfold rename renameAt
  simp only [hsrc, hdst, at?_file.2 hx]
  simp only [Bool.not_eq_true] at hslash hslash' hlock hlock' hout
  simp [hslash, hslash', hlock, hlock', hout, hne, Entry.isDir, hrep]

/-- A file that is carried to a free place is the only thing that changes its place. -/
lemma Carried.file (hs : t.Sound) {l l' : Place} (h : t.Carried t' l l') (hx : t.node? l = some (.file b a))
    (hfree : t.node? l' = none) :
    t'.node? l' = some (.file b a) ∧ t'.node? l = none ∧ ∀ q, q ≠ l → q ≠ l' → t'.node? q = t.node? q := by
  have hbelow : ∀ r, r ≠ [] → t.node? (l ++ r) = none := fun r hr =>
    hs.node?_below r hr (not_isDirAt_of_file hx)
  have hbelow' : ∀ r, r ≠ [] → t.node? (l' ++ r) = none := fun r hr =>
    hs.node?_below r hr (not_isDirAt_of_none hfree)
  have hout : ¬l' <+: l := not_prefix_of_free hs hx hfree
  refine ⟨h.target.trans hx, by simpa using h.source (r := []) (by simpa using hout), fun q hq hq' => ?_⟩
  by_cases hpre' : l' <+: q
  · obtain ⟨r, hr, rfl⟩ := append_of_prefix_of_not hpre' (Ne.symm hq')
    rw [h.below, hbelow r hr, hbelow' r hr]
  · by_cases hpre : l <+: q
    · obtain ⟨r, hr, rfl⟩ := append_of_prefix_of_not hpre (Ne.symm hq)
      rw [h.source hpre', hbelow r hr]
    · exact h.other hpre' hpre

/-- A file that is renamed to a free place is carried there, and nothing else changes. -/
lemma renamed_file (hs : t.Sound) (hsrc : t.parentOf who.cwd src = .ok (d, .name n))
    (hdst : t.parentOf who.cwd dst = .ok (d', .name n')) (hx : t.node? (d ++ [n]) = some (.file b a))
    (hfree : t.node? (d' ++ [n']) = none) (h : rename who src dst t = .ok t') :
    t'.node? (d' ++ [n']) = some (.file b a) ∧ t'.node? (d ++ [n]) = none ∧
      ∀ q, q ≠ d ++ [n] → q ≠ d' ++ [n'] → t'.node? q = t.node? q := by
  have hne : d ++ [n] ≠ d' ++ [n'] := fun heq => by simp [heq, hfree] at hx
  obtain ⟨e, c, e', c', y, hpar, hpar', hy, -, hcase⟩ := rename_ok hs h
  obtain ⟨rfl, hc⟩ := Prod.mk.inj (Except.ok.inj (hpar.symm.trans hsrc))
  obtain rfl := LastStep.name.inj hc
  obtain ⟨rfl, hc'⟩ := Prod.mk.inj (Except.ok.inj (hpar'.symm.trans hdst))
  obtain rfl := LastStep.name.inj hc'
  rcases hcase with ⟨hsame, -⟩ | ⟨-, -, -, -, -, hcar⟩
  · exact absurd hsame hne
  · exact hcar.file hs hx hfree

lemma Lays.unlocked {l : Place} (h : t.Lays t' l) (hk : t.isLocked q ≠ true) : t'.isLocked q ≠ true := by
  rcases h q with hsame | ⟨-, -, hnew, -⟩
  · rwa [Ne, isLocked_iff, hsame, ← isLocked_iff]
  · simp [isLocked_iff, hnew]

end Tree

namespace Disk

open FileOrganizer.Tree

variable {who : Actor} {t t₁ t' : Tree} {src dst : Path} {k l : Place} {n m : String} {b : ByteArray} {a : Attrs}

/-- The target is a name in a directory that is there. -/
lemma parentOf_target (cwd : Place) (hs : t.Sound) (hp : t.Plain) (ha : dst.isAbsolute = true)
    (hdst : Descent dst (l ++ [n])) (hdir : t.isDirAt l = true) : t.parentOf cwd dst = .ok (l, .name n) := by
  simpa [start_absolute ha] using parentOf_descent cwd hs hp hdst (by simpa [start_absolute ha] using hdir)

lemma clear_of_parents (hs : t.Sound) (hp : t.Plain) (hmake : makeParents who dst t = (.ok (), t₁))
    (hfree : t₁.node? (dst.place who.cwd) = none) : clear who dst t = (.ok (), t₁) := by
  obtain ⟨hs₁, hadd⟩ := makeParents_addsDirs hs hmake
  unfold clear
  rw [run_bind, hmake]
  dsimp only
  rw [run_bind, run_get]
  dsimp only
  rw [has_eq_false hs₁ (hadd.plain hp) hfree]
  rfl

section

variable (hs : t.Sound) (hp : t.Plain) (ha : dst.isAbsolute = true) (hdst : Descent dst (l ++ [n]))
  (hfree : t.node? (l ++ [n]) = none)

include hs hp ha hdst hfree

/-- Where the way can be laid, the directories are made and the target is free. -/
lemma clear_succeeds (who : Actor) (hl : Passable t l) : ∃ t₁, clear who dst t = (.ok (), t₁) ∧ t₁.Sound ∧
    t.Lays t₁ l ∧ t₁.isDirAt l = true ∧ t₁.node? (l ++ [n]) = none := by
  obtain ⟨t₁, hparents, hdir, hlays⟩ := makeParents_succeeds who hs hp ha hdst hl
  have hfree₁ : t₁.node? (l ++ [n]) = none := by
    rcases hlays (l ++ [n]) with hsame | ⟨hpre, -⟩
    · exact hsame.trans hfree
    · have hlonger := hpre.length_le
      rw [List.length_append, List.length_singleton] at hlonger
      omega
  refine ⟨t₁, clear_of_parents hs hp hparents ?_, (makeParents_addsDirs hs hparents).1, hlays, hdir, hfree₁⟩
  rw [hdst.place, start_absolute ha, List.nil_append]
  exact hfree₁

end

lemma moveFile_renamed (hclear : clear who dst t = (.ok (), t₁)) (h : Tree.rename who src dst t₁ = .ok t') :
    moveFile who src dst t = (.ok (), t') := by
  unfold moveFile
  rw [run_bind, hclear]
  dsimp only
  rw [run_bind, run_get]
  dsimp only
  rw [h]
  rfl

lemma moveFile_succeeds (who : Actor) (hs : t.Sound) (hp : t.Plain) (hsrc : Descent src (k ++ [n]))
    (hslash : src.endsInSlash ≠ true) (hx : t.node? (src.place who.cwd) = some (.file b a))
    (hlock : t.isLocked (src.place who.cwd).dropLast ≠ true) (ha : dst.isAbsolute = true)
    (hdst : Descent dst (l ++ [m])) (hslash' : dst.endsInSlash ≠ true) (hl : Passable t l)
    (hlock' : t.isLocked l ≠ true) (hfree : t.node? (l ++ [m]) = none) :
    ∃ t', moveFile who src dst t = (.ok (), t') ∧ t'.Sound ∧ t'.Plain ∧
      t'.node? (l ++ [m]) = some (.file b a) ∧ t'.node? (src.place who.cwd) = none ∧
      t'.isDirAt l = true ∧ ∀ q, q ≠ src.place who.cwd → q ≠ l ++ [m] → t'.node? q = t.node? q ∨
        q <+: l ∧ t.node? q = none ∧ t'.node? q = some (.dir false) := by
  obtain ⟨t₁, hclear, hs₁, hlays, hdir, hfree₁⟩ := clear_succeeds hs hp ha hdst hfree who hl
  have hadd := hlays.addsDirs
  have hp₁ : t₁.Plain := hadd.plain hp
  have hplace : src.place who.cwd = start who.cwd src ++ k ++ [n] := by simpa using hsrc.place who.cwd
  have hsome : ∀ {v : Option Node} {y : Node}, v = some y → v ≠ none := fun h => by simp [h]
  -- The file and what is around it are as they were.
  rw [hplace, List.dropLast_concat] at hlock
  rw [hplace] at hx ⊢
  have hx₁ : t₁.node? (start who.cwd src ++ k ++ [n]) = some (.file b a) := (hadd.keep (hsome hx)).trans hx
  have hup : t₁.isDirAt (start who.cwd src ++ k) = true := hs₁ _ n (hsome hx₁)
  have hup₀ : t.isDirAt (start who.cwd src ++ k) = true := hs _ n (hsome hx)
  have hsrc₁ := parentOf_descent _ hs₁ hp₁ hsrc hup
  have hdst₁ := parentOf_target who.cwd hs₁ hp₁ ha hdst hdir
  have hlock₁ : t₁.isLocked (start who.cwd src ++ k) ≠ true := by
    obtain ⟨c, hc⟩ := isDirAt_iff.1 hup₀
    rwa [Ne, isLocked_iff, hadd.keep (hsome hc), ← isLocked_iff]
  obtain ⟨t', hren⟩ := rename_eq_ok hs₁ hsrc₁ hdst₁ hslash hslash' hx₁ hfree₁ hlock₁ (hlays.unlocked hlock')
  obtain ⟨htarget, hsource, hother⟩ := renamed_file hs₁ hsrc₁ hdst₁ hx₁ hfree₁ hren
  have hmove := moveFile_renamed hclear hren
  have hs' := sound_of_rename hs₁ hren
  refine ⟨t', hmove, hs', plain_of_moveFile hs hp hmove, htarget, hsource, hs' _ _ (hsome htarget), fun q hq hq' => ?_⟩
  rw [hother q hq hq']
  exact (hlays q).imp id fun hq => ⟨hq.1, hq.2.1, hq.2.2.1⟩

end Disk

end FileOrganizer
