import FileOrganizer.Proofs.Tree.Attributes
import FileOrganizer.Proofs.Tree.Return

/-! What comes of moving a file to a free place can be told from the tree before: whether the way to the place can be
laid, and whether the directories take new things and let things go. So it is when many files are moved, as long as none
is in the way of another, and it is the same in every order. -/

namespace FileOrganizer

open FileOrganizer.Tree FileOrganizer.Disk

namespace Tree

variable {who : Actor} {t t' u u' : Tree} {cwd k l m q : Place} {p src dst : Path} {n : String} {b : ByteArray}
  {a : Attrs}
  {x y : Place × Place} {X : Set (Place × Place)}

/-- Whatever is laid on the way to a place, all of the way can be laid. -/
lemma Lays.passable (h : t.Lays t' l) (hs : t.Sound) (hs' : t'.Sound) (hq : t'.node? q ≠ t.node? q) : Passable t l := by
  obtain ⟨hpre, hnone, hnew, hlock⟩ := (h q).resolve_left hq
  have hup : ∀ m, m <+: q → t'.isDirAt m = true := by
    rintro m ⟨r, rfl⟩
    exact hs'.isDirAt_of_below (isDirAt_iff.2 ⟨false, hnew⟩)
  refine ⟨fun m hm => ?_, fun m n hm hfree hk => ?_⟩
  · rcases comparable hm hpre with hmq | ⟨r, rfl⟩
    · rcases h m with hsame | ⟨-, hfree, -⟩
      · exact Or.inr (isDirAt_congr hsame ▸ hup m hmq)
      · exact Or.inl hfree
    · rcases r.eq_nil_or_concat with rfl | ⟨r, z, rfl⟩
      · exact Or.inl (by simpa using hnone)
      · exact Or.inl (hs.node?_below _ (by simp) (not_isDirAt_of_none hnone))
  · have hmq : m ++ [n] <+: q := by
      refine (comparable hm hpre).resolve_right ?_
      rintro ⟨r, hr⟩
      rcases r.eq_nil_or_concat with rfl | ⟨r, z, rfl⟩
      · rw [List.append_nil] at hr
        rw [hr, List.dropLast_concat] at hlock
        exact hlock hk
      · rw [List.concat_eq_append, ← List.append_assoc] at hr
        obtain ⟨rfl, -⟩ := List.append_inj' hr rfl
        have hbelow : t.node? (q ++ r) = none := by
          rcases eq_or_ne r [] with rfl | hne
          · rwa [List.append_nil]
          · exact hs.node?_below r hne (not_isDirAt_of_none hnone)
        rw [isLocked_iff, hbelow] at hk
        cases hk
    rcases h (m ++ [n]) with hsame | ⟨-, -, -, hopen⟩
    · exact not_isDirAt_of_none hfree (isDirAt_congr hsame ▸ hup _ hmq)
    · rw [List.dropLast_concat] at hopen
      exact hopen hk

end Tree

namespace Disk

variable {who : Actor} {t t₁ t' : Tree} {cwd k l q : Place} {p source target : Path} {n : String} {b : ByteArray}
  {a : Attrs}
  {r : Except Fault Unit} {fuel : Nat}

lemma Passable.of_isDirAt (hs : t.Sound) (h : t.isDirAt l = true) : Passable t l := by
  have hway : ∀ m, m <+: l → t.isDirAt m = true := by
    rintro m ⟨r, rfl⟩
    exact hs.isDirAt_of_below h
  refine ⟨fun m hm => Or.inr (hway m hm), fun m n hm hnone => ?_⟩
  exact absurd (hway _ hm) (not_isDirAt_of_none hnone)

lemma isDir_of_makeDir (hs : t.Sound) (h : Tree.makeDir who p t = .ok t') : t'.isDir who.cwd p = true := by
  obtain ⟨d, n, hpar, -, -, hset⟩ := makeDir_ok h
  have hpar' := parentOf_grows (makeDir_addsDirs hs h).2.grows hpar
  exact isDir_of_parentOf hpar' (isDirAt_iff.2 ⟨false, hset.same⟩)

/-- Directories that were made are there. -/
lemma isDir_of_makeDirsFrom (hs : t.Sound) (htext : p.text ≠ "") (h : makeDirsFrom who fuel p t = (.ok (), t')) :
    t'.isDir who.cwd p = true := by
  cases fuel with
  | zero => exact isDir_of_makeDir hs (change_eq_ok h)
  | succ fuel =>
    unfold makeDirsFrom at h
    rw [if_neg htext] at h
    split at h
    · next hm =>
      cases h
      exact isDir_of_makeDir hs hm
    · split at h
      · cases h
      · next d _ =>
        split at h
        · cases h
        · next t₁ h₁ =>
          split at h
          · next hm =>
            cases h
            exact isDir_of_makeDir (makeDirsFrom_addsDirs hs h₁).1 hm
          · obtain ⟨hdir, rfl⟩ := Prod.mk.inj h
            split at hdir
            · next hd => exact hd
            · cases hdir
    · obtain ⟨hdir, rfl⟩ := Prod.mk.inj h
      split at hdir
      · next hd => exact hd
      · cases hdir

lemma isDirAt_of_makeDirsFrom (hs : t.Sound) (hp : t.Plain) (htext : p.text ≠ "")
    (h : makeDirsFrom who fuel p t = (.ok (), t')) : t'.isDirAt (p.place who.cwd) = true := by
  obtain ⟨hs', hadd⟩ := makeDirsFrom_addsDirs hs h
  exact isDirAt_of_isDir hs' (hadd.plain hp) (isDir_of_makeDirsFrom hs htext h)

/-- On a way that cannot be laid nothing is made. -/
lemma makeParents_fails (hs : t.Sound) (hp : t.Plain) (ha : p.isAbsolute = true) (h : Descent p (l ++ [n]))
    (hl : ¬Passable t l) (hmake : makeParents who p t = (r, t')) :
    (∃ e, r = .error e) ∧ ∀ q, t'.node? q = t.node? q := by
  obtain ⟨d, hd, hda, hdd⟩ := h.parent ha
  unfold makeParents at hmake
  rw [hd] at hmake
  have hlays : t.Lays t' l := by simpa [start_absolute hda] using makeDirs_lays hs hp hdd.body hmake
  have hsame : ∀ q, t'.node? q = t.node? q := fun q => by
    by_contra hq
    exact hl (hlays.passable hs (makeDirs_addsDirs hs hmake).1 hq)
  refine ⟨?_, hsame⟩
  cases r with
  | error e => exact ⟨e, rfl⟩
  | ok x =>
    have hdir := isDirAt_of_makeDirsFrom hs hp (text_of_absolute hda) hmake
    rw [hdd.place, start_absolute hda, List.nil_append, isDirAt_congr (hsame l)] at hdir
    exact absurd (.of_isDirAt hs hdir) hl

end Disk

namespace Tree

variable {who : Actor} {t t' : Tree} {cwd d d' k l q : Place} {source target : Path} {n n' : String} {b : ByteArray}
  {a : Attrs}

/-- Nothing comes out of a directory that is locked, and nothing into it. -/
lemma rename_locked (hs : t.Sound) (hsrc : t.parentOf who.cwd source = .ok (d, .name n))
    (hdst : t.parentOf who.cwd target = .ok (d', .name n')) (hslash : source.endsInSlash ≠ true)
    (hslash' : target.endsInSlash ≠ true) (hx : t.node? (d ++ [n]) = some (.file b a))
    (hfree : t.node? (d' ++ [n']) = none) (hlock : t.isLocked d = true ∨ t.isLocked d' = true) :
    rename who source target t = .error .denied := by
  have hne : d ++ [n] ≠ d' ++ [n'] := fun heq => by simp [heq, hfree] at hx
  have hout : ¬(d' ++ [n']).isPrefixOf (d ++ [n]) = true := by
    rw [List.isPrefixOf_iff_prefix]
    exact not_prefix_of_free hs hx hfree
  have hdenied : (t.isLocked d || t.isLocked d') = true := by simpa using hlock
  unfold rename renameAt
  simp only [hsrc, hdst, at?_file.2 hx]
  simp only [Bool.not_eq_true] at hslash hslash' hout
  simp [hslash, hslash', hout, hne, hdenied, Entry.isDir]

lemma removeFile_locked (hpar : t.parentOf who.cwd source = .ok (d, .name n))
    (hx : t.node? (d ++ [n]) = some (.file b a))
    (hlock : t.isLocked d = true) : removeFile who source t = .error .denied := by
  unfold removeFile
  simp only [hpar, at?_file.2 hx, hlock, if_true]

lemma writeFile_locked {bytes : ByteArray} (hloc : t.locate who.cwd true target = .ok ⟨l, none⟩)
    (hslash : target.endsInSlash ≠ true) (hlock : t.isLocked l.dropLast = true) :
    writeFile who target bytes t = .error .denied := by
  unfold writeFile addFile
  rw [if_neg hslash, hloc]
  dsimp only
  rw [if_pos hlock]

lemma writeFile_made {bytes : ByteArray} (hs : t.Sound) (hloc : t.locate who.cwd true target = .ok ⟨l, none⟩)
    (hslash : target.endsInSlash ≠ true) (hlock : t.isLocked l.dropLast ≠ true) :
    ∃ t', writeFile who target bytes t = .ok t' ∧ t.Sets t' l (some (.file bytes ⟨who.now, false⟩)) := by
  have hmake : t.addFile who l bytes = .ok ((t.put l (.file bytes ⟨who.now, false⟩)).touch l.dropLast who.now) := by
    unfold addFile
    rw [if_neg hlock]
  refine ⟨_, ?_, (addFile_ok (locate_place_ne_nil hs hloc (by simp)) hmake).2⟩
  unfold writeFile
  rw [if_neg hslash, hloc]
  exact hmake

lemma setAttrs_made {f : Attrs → Attrs} (hst : t.stat who.cwd target = .ok (l, .file b a)) :
    ∃ t', setAttrs who target f t = .ok t' := by
  unfold setAttrs
  rw [hst]
  exact ⟨_, rfl⟩

end Tree

namespace Disk

variable {who : Actor} {t t₁ t' : Tree} {cwd d k l q : Place} {source target : Path} {n : String} {b : ByteArray}
  {a : Attrs} {r : Except Fault Unit}

section

variable (hst : t.stat who.cwd source = .ok (k, .file b a)) (hloc : t.locate who.cwd true target = .ok ⟨l, none⟩)
  (hslash : target.endsInSlash ≠ true)

include hst hloc hslash

lemma duplicate_locked (hlock : t.isLocked l.dropLast = true) :
    duplicate who source target t = (.error (.os .denied), t) := by
  unfold duplicate
  rw [run_bind, ask, hst]
  dsimp only
  rw [run_bind, change, writeFile_locked hloc hslash hlock]

lemma duplicate_made (hs : t.Sound) (hlock : t.isLocked l.dropLast ≠ true) :
    ∃ t', duplicate who source target t = (.ok (), t') ∧ t.Sets t' l (some (.file b a)) := by
  obtain ⟨t₁, hwrite, hset⟩ : ∃ t₁, Tree.writeFile who target b t = .ok t₁ ∧ _ := writeFile_made hs hloc hslash hlock
  have hst₁ := stat_of_made hs hloc hset
  obtain ⟨t', hattrs⟩ := setAttrs_made (f := fun _ => a) hst₁
  refine ⟨t', ?_, hset.again (setAttrs_file (sound_of_writeFile hs hwrite) hst₁ hattrs)⟩
  unfold duplicate
  rw [run_bind, ask, hst]
  dsimp only
  rw [run_bind, change, hwrite]
  dsimp only
  rw [change, hattrs]

end

end Disk

/-- A file can come to stand at this place: the way to it can be laid, and its directory takes new things. -/
structure Tree.Opens (t : Tree) (l : Place) : Prop where
  way : Passable t l.dropLast
  unlocked : t.isLocked l.dropLast ≠ true

/-- The directory of this place lets things go. -/
def Tree.Frees (t : Tree) (k : Place) : Prop := t.isLocked k.dropLast ≠ true

/-- What has come of moving a file from `x.1` to `x.2`, for each `x` in `X`, told from the tree before: the way there is
laid if it can be, the file is there if it can be, and it is gone from where it was if it could go. -/
structure Tree.Shifted (X : Set (Place × Place)) (t t' : Tree) : Prop where
  lands : ∀ x ∈ X, t.Opens x.2 → t'.node? x.2 = t.node? x.1
  leaves : ∀ x ∈ X, t.Opens x.2 → t.Frees x.1 → t'.node? x.1 = none
  laid : ∀ x ∈ X, Passable t x.2.dropLast → ∀ q, q <+: x.2.dropLast → t.node? q = none → t'.node? q = some (.dir false)
  other : ∀ q, (∀ x ∈ X, t.Opens x.2 → q ≠ x.2) → (∀ x ∈ X, t.Opens x.2 → t.Frees x.1 → q ≠ x.1) →
    (∀ x ∈ X, Passable t x.2.dropLast → q <+: x.2.dropLast → t.node? q ≠ none) → t'.node? q = t.node? q

/-- The new directories are all those that were missing on the way. -/
lemma Tree.Lays.laid {t t' : Tree} {l q : Place} (h : t.Lays t' l) (hs' : t'.Sound) (hdir : t'.isDirAt l = true)
    (hq : q <+: l)
    (hnone : t.node? q = none) : t'.node? q = some (.dir false) := by
  rcases h q with hsame | ⟨-, -, hnew, -⟩
  · obtain ⟨m, rfl⟩ := hq
    exact absurd (hs'.isDirAt_of_below hdir) (not_isDirAt_of_none (hsame.trans hnone))
  · exact hnew

lemma Tree.Lays.same {t t' : Tree} {l q : Place} (h : t.Lays t' l) (hq : q <+: l → t.node? q ≠ none) :
    t'.node? q = t.node? q :=
  (h q).elim id fun hnew => absurd hnew.2.1 (hq hnew.1)

/-- Whether something can come to a place is the same once the way there is laid. -/
lemma Tree.Lays.opens_iff {t t' : Tree} {l : Place} (h : t.Lays t' l) (hl : Passable t l) (n : String) :
    t.Opens (l ++ [n]) ↔ t'.isLocked l ≠ true := by
  have hdrop : (l ++ [n]).dropLast = l := List.dropLast_concat
  constructor
  · rintro ⟨-, hunlocked⟩
    rw [hdrop] at hunlocked
    exact h.unlocked hunlocked
  · intro hk
    refine ⟨hdrop.symm ▸ hl, ?_⟩
    rw [hdrop]
    exact h.addsDirs.isLocked_ne hk

/-- New directories do not keep what is there from going. -/
lemma Tree.AddsDirs.frees_iff {t t' : Tree} {d : Place} {m : String} (h : t.AddsDirs t') (hs : t.Sound)
    (hx : t.node? (d ++ [m]) ≠ none) : t.Frees (d ++ [m]) ↔ t'.isLocked d ≠ true := by
  obtain ⟨c, hc⟩ := isDirAt_iff.1 (hs d m hx)
  rw [Frees, List.dropLast_concat, Ne, isLocked_iff, Ne, isLocked_iff, h.keep (by simp [hc])]

namespace Tree.Shifted

variable {t t₁ t' : Tree} {k l : Place} {n : String}

lemma single (hlands : t.Opens l → t'.node? l = t.node? k) (hleaves : t.Opens l → t.Frees k → t'.node? k = none)
    (hlaid : Passable t l.dropLast → ∀ q, q <+: l.dropLast → t.node? q = none → t'.node? q = some (.dir false))
    (hother : ∀ q, (t.Opens l → q ≠ l) → (t.Opens l → t.Frees k → q ≠ k) →
      (Passable t l.dropLast → q <+: l.dropLast → t.node? q ≠ none) → t'.node? q = t.node? q) :
    t.Shifted {(k, l)} t' where
  lands := by rintro x rfl; exact hlands
  leaves := by rintro x rfl; exact hleaves
  laid := by rintro x rfl; exact hlaid
  other q h h' h'' := hother q (h _ rfl) (h' _ rfl) (h'' _ rfl)

/-- First the way is laid, and then the file goes or does not. -/
lemma of_laid (hlays : t.Lays t₁ l) (hs₁ : t₁.Sound) (hdir : t₁.isDirAt l = true) (hx : t.node? k ≠ none)
    (hlands : t.Opens (l ++ [n]) → t'.node? (l ++ [n]) = t.node? k)
    (hleaves : t.Opens (l ++ [n]) → t.Frees k → t'.node? k = none)
    (hother : ∀ q, (t.Opens (l ++ [n]) → q ≠ l ++ [n]) → (t.Opens (l ++ [n]) → t.Frees k → q ≠ k) →
      t'.node? q = t₁.node? q) (hl : Passable t l) : t.Shifted {(k, l ++ [n])} t' := by
  have hdrop : (l ++ [n]).dropLast = l := List.dropLast_concat
  refine .single hlands hleaves (fun _ q hq hnone => ?_) fun q hq hq' hway => ?_
  · rw [hdrop] at hq
    refine (hother q (fun _ heq => ?_) fun _ _ heq => hx (heq ▸ hnone)).trans (hlays.laid hs₁ hdir hq hnone)
    have hlonger := (heq ▸ hq).length_le
    rw [List.length_append, List.length_singleton] at hlonger
    omega
  · rw [hdrop] at hway
    exact (hother q hq hq').trans (hlays.same (hway hl))

/-- What is neither the file, nor where it goes, nor on the way is left as it is. -/
lemma untouched {x : Place × Place} {q : Place} (h : t.Shifted {x} t') (htarget : q ≠ x.2) (hsource : q ≠ x.1)
    (hway : ¬q <+: x.2.dropLast) : t'.node? q = t.node? q := by
  refine h.other q ?_ ?_ ?_
  · rintro y rfl -
    exact htarget
  · rintro y rfl - -
    exact hsource
  · rintro y rfl - hpre
    exact absurd hpre hway

/-- A way that cannot be laid is left as it is. -/
lemma blocked (hl : ¬Passable t l) (h : ∀ q, t'.node? q = t.node? q) : t.Shifted {(k, l ++ [n])} t' := by
  have hno : ¬Passable t (l ++ [n]).dropLast := by rwa [List.dropLast_concat]
  exact .single (fun ho => absurd ho.way hno) (fun ho => absurd ho.way hno)
    (fun hway => absurd hway hno) fun q _ _ _ => h q

end Tree.Shifted

namespace Disk

variable {who : Actor} {t t₁ t' : Tree} {cwd d k l q : Place} {source target : Path} {n : String} {b : ByteArray}
  {a : Attrs} {r : Except Fault Unit}

/-- What cannot be renamed is copied, and then removed if it can be. -/
lemma moveFile_copied {e : OsError} (hclear : clear who target t = (.ok (), t₁))
    (h : Tree.rename who source target t₁ = .error e) (hthere : t₁.has who.cwd source = true) :
    moveFile who source target t =
      (explain (Fault.notMoved e) (copyFile who source target) >>= fun _ =>
        change (Tree.removeFile who source)) t₁ := by
  unfold moveFile
  rw [run_bind, hclear]
  dsimp only
  rw [run_bind, run_get]
  dsimp only
  rw [h]
  dsimp only
  rw [if_pos hthere]

/-- A free name is found as such, also after directories have been added. -/
lemma locate_free (hadd : t.AddsDirs t') (hpar : t.parentOf cwd target = .ok (l, .name n))
    (hslash : target.endsInSlash ≠ true) (hfree : t'.node? (l ++ [n]) = none) :
    t'.locate cwd true target = .ok ⟨l ++ [n], none⟩ := by
  rw [locate_of_parentOf (parentOf_grows hadd.grows hpar) hslash fun _ x => by simp [hfree], at?_eq_none.2 hfree]

/-- Where the directories are there, a copy is made at once. -/
lemma copyFile_there (hs : t.Sound) (hp : t.Plain) (ha : target.isAbsolute = true) (hdst : Descent target (l ++ [n]))
    (hfree : t.node? (l ++ [n]) = none) (hdir : t.isDirAt l = true) (who : Actor) (source : Path) :
    ∃ t', t'.Sound ∧ t.AddsDirs t' ∧ (∀ q, t'.node? q = t.node? q) ∧
      copyFile who source target t = duplicate who source target t' := by
  obtain ⟨t', hclear, hs', hlays, -⟩ := clear_succeeds hs hp ha hdst hfree who (.of_isDirAt hs hdir)
  refine ⟨t', hs', hlays.addsDirs, fun q => hlays.same fun hq hnone => ?_, ?_⟩
  · obtain ⟨r, rfl⟩ := hq
    exact not_isDirAt_of_none hnone (hs.isDirAt_of_below hdir)
  · unfold copyFile
    rw [run_bind, hclear]

section

variable (hclear : clear who target t = (.ok (), t₁)) (hs₁ : t₁.Sound) (hp₁ : t₁.Plain)
  (hst₁ : t₁.stat who.cwd source = .ok (d ++ [m], .file b a)) (hsrc : t₁.parentOf who.cwd source = .ok (d, .name m))
  (ha : target.isAbsolute = true) (hdst : Descent target (l ++ [n])) (hslash : target.endsInSlash ≠ true)
  (hdir : t₁.isDirAt l = true) (hfree₁ : t₁.node? (l ++ [n]) = none)

include hclear hs₁ hp₁ hst₁ hsrc ha hdst hslash hdir hfree₁

/-- Nothing comes into a directory that is locked. -/
lemma moveFile_closed (hlock : t₁.isLocked l = true) :
    ∃ e t', moveFile who source target t = (.error e, t') ∧ ∀ q, t'.node? q = t₁.node? q := by
  have hx₁ := at?_file.1 (stat_ok hs₁ hst₁).1
  have hdst₁ := parentOf_target who.cwd hs₁ hp₁ ha hdst hdir
  have hslash' := slash_of_locate hs₁ hp₁ (stat_eq_ok.1 hst₁) (not_isDirAt_of_file hx₁)
  have hren := rename_locked hs₁ hsrc hdst₁ hslash' hslash hx₁ hfree₁ (Or.inr hlock)
  obtain ⟨t₂, -, hadd₂, hsame₂, hcopy⟩ := copyFile_there hs₁ hp₁ ha hdst hfree₁ hdir who source
  have hloc := locate_free hadd₂ hdst₁ hslash ((hsame₂ _).trans hfree₁)
  have hlock₂ : t₂.isLocked (l ++ [n]).dropLast = true := by
    rwa [List.dropLast_concat, isLocked_iff, hsame₂, ← isLocked_iff]
  have hmove := moveFile_copied hclear hren (has_iff.2 ⟨_, _, hst₁⟩)
  rw [run_bind, explain, hcopy, duplicate_locked (hadd₂.stat hs₁ hp₁ hst₁) hloc hslash hlock₂] at hmove
  exact ⟨_, t₂, hmove, hsame₂⟩

/-- Nothing goes out of a directory that is locked, but a copy is made. -/
lemma moveFile_kept (hlock : t₁.isLocked l ≠ true) (hlock' : t₁.isLocked d = true) :
    ∃ e t', moveFile who source target t = (.error e, t') ∧ t'.node? (l ++ [n]) = some (.file b a) ∧
      ∀ q, q ≠ l ++ [n] → t'.node? q = t₁.node? q := by
  have hx₁ := at?_file.1 (stat_ok hs₁ hst₁).1
  have hdst₁ := parentOf_target who.cwd hs₁ hp₁ ha hdst hdir
  have hslash' := slash_of_locate hs₁ hp₁ (stat_eq_ok.1 hst₁) (not_isDirAt_of_file hx₁)
  have hren := rename_locked hs₁ hsrc hdst₁ hslash' hslash hx₁ hfree₁ (Or.inl hlock')
  obtain ⟨t₂, hs₂, hadd₂, hsame₂, hcopy⟩ := copyFile_there hs₁ hp₁ ha hdst hfree₁ hdir who source
  have hfree₂ := (hsame₂ (l ++ [n])).trans hfree₁
  have hloc := locate_free hadd₂ hdst₁ hslash hfree₂
  have hlock₂ : t₂.isLocked (l ++ [n]).dropLast ≠ true := by
    rwa [List.dropLast_concat, Ne, isLocked_iff, hsame₂, ← isLocked_iff]
  obtain ⟨t₃, hdup, hset⟩ := duplicate_made (hadd₂.stat hs₁ hp₁ hst₁) hloc hslash hs₂ hlock₂
  have hother : ∀ q, q ≠ l ++ [n] → t₃.node? q = t₁.node? q := fun q hq => (hset.other hq.symm).trans (hsame₂ q)
  -- The file is where it was, and cannot be removed.
  have hgrows : t₂.Grows t₃ := hset.grows fun y hy => by simp [hfree₂] at hy
  have hx₃ : t₃.node? (d ++ [m]) = some (.file b a) :=
    (hother _ fun heq => by simp [heq, hfree₁] at hx₁).trans hx₁
  have hlock₃ : t₃.isLocked d = true := by
    rw [isLocked_iff] at hlock' ⊢
    rw [hother d fun heq => by simp [heq, hfree₁] at hlock', hlock']
  have hrem := removeFile_locked (parentOf_grows hgrows (parentOf_grows hadd₂.grows hsrc)) hx₃ hlock₃
  have hmove := moveFile_copied hclear hren (has_iff.2 ⟨_, _, hst₁⟩)
  rw [run_bind, explain, hcopy, hdup] at hmove
  dsimp only at hmove
  rw [change, hrem] at hmove
  exact ⟨_, t₃, hmove, hset.same, hother⟩

/-- Where nothing is locked, the file goes. -/
lemma moveFile_goes (hlock : t₁.isLocked l ≠ true) (hlock' : t₁.isLocked d ≠ true) :
    ∃ t', moveFile who source target t = (.ok (), t') ∧ t'.node? (l ++ [n]) = some (.file b a) ∧
      t'.node? (d ++ [m]) = none ∧ ∀ q, q ≠ d ++ [m] → q ≠ l ++ [n] → t'.node? q = t₁.node? q := by
  have hx₁ := at?_file.1 (stat_ok hs₁ hst₁).1
  have hdst₁ := parentOf_target who.cwd hs₁ hp₁ ha hdst hdir
  have hslash' := slash_of_locate hs₁ hp₁ (stat_eq_ok.1 hst₁) (not_isDirAt_of_file hx₁)
  obtain ⟨t', hren⟩ := rename_eq_ok hs₁ hsrc hdst₁ hslash' hslash hx₁ hfree₁ hlock' hlock
  exact ⟨t', moveFile_renamed hclear hren, renamed_file hs₁ hsrc hdst₁ hx₁ hfree₁ hren⟩

end

/-- What comes of moving a file to a free place. -/
lemma moveFile_shifted (hs : t.Sound) (hp : t.Plain) (hst : t.stat who.cwd source = .ok (k, .file b a))
    (ha : target.isAbsolute = true) (hdst : Descent target (l ++ [n])) (hslash : target.endsInSlash ≠ true)
    (hfree : t.node? (l ++ [n]) = none) (h : moveFile who source target t = (r, t')) : t'.Sound ∧ t'.Plain ∧
    t.Shifted {(k, l ++ [n])} t' ∧ (r = .ok () ↔ t.Opens (l ++ [n]) ∧ t.Frees k) := by
  refine ⟨(moveFile_cases hs h).1, plain_of_moveFile hs hp h, ?_⟩
  by_cases hl : Passable t l
  · obtain ⟨t₁, hclear, hs₁, hlays, hdir, hfree₁⟩ := clear_succeeds hs hp ha hdst hfree who hl
    have hadd := hlays.addsDirs
    have hp₁ : t₁.Plain := hadd.plain hp
    have hst₁ := hadd.stat hs hp hst
    obtain ⟨d, m, hsrc⟩ := parentOf_of_read hs₁ hp₁ (show t₁.read who.cwd source = .ok b by rw [Tree.read, hst₁])
    obtain rfl : k = d ++ [m] := (stat_place hp₁ hst₁).trans (parentOf_place hp₁ hsrc)
    have hx : t.node? (d ++ [m]) = some (.file b a) := at?_file.1 (stat_ok hs hst).1
    have hthere : t.node? (d ++ [m]) ≠ none := by simp [hx]
    have hopens := hlays.opens_iff hl n
    have hfrees := hadd.frees_iff hs hthere
    by_cases hlock : t₁.isLocked l = true
    · obtain ⟨e, t₂, hmove, hsame⟩ := moveFile_closed hclear hs₁ hp₁ hst₁ hsrc ha hdst hslash hdir hfree₁ hlock
      obtain ⟨rfl, rfl⟩ := Prod.mk.inj (h.symm.trans hmove)
      have hclosed : ¬t.Opens (l ++ [n]) := fun ho => hopens.1 ho hlock
      exact ⟨.of_laid hlays hs₁ hdir hthere (fun ho => absurd ho hclosed) (fun ho => absurd ho hclosed)
        (fun q _ _ => hsame q) hl, (fun he => by cases he), fun ho => absurd ho.1 hclosed⟩
    · by_cases hlock' : t₁.isLocked d = true
      · obtain ⟨e, t₂, hmove, hthere₂, hother⟩ :=
          moveFile_kept hclear hs₁ hp₁ hst₁ hsrc ha hdst hslash hdir hfree₁ hlock hlock'
        obtain ⟨rfl, rfl⟩ := Prod.mk.inj (h.symm.trans hmove)
        have hstays : ¬t.Frees (d ++ [m]) := fun hf => hfrees.1 hf hlock'
        exact ⟨.of_laid hlays hs₁ hdir hthere (fun _ => hthere₂.trans hx.symm) (fun _ hf => absurd hf hstays)
          (fun q hq _ => hother q (hq (hopens.2 hlock))) hl, (fun he => by cases he), fun ho => absurd ho.2 hstays⟩
      · obtain ⟨t₂, hmove, hthere₂, hgone, hother⟩ :=
          moveFile_goes hclear hs₁ hp₁ hst₁ hsrc ha hdst hslash hdir hfree₁ hlock hlock'
        obtain ⟨rfl, rfl⟩ := Prod.mk.inj (h.symm.trans hmove)
        have hopen := hopens.2 hlock
        have hfreed := hfrees.2 hlock'
        exact ⟨.of_laid hlays hs₁ hdir hthere (fun _ => hthere₂.trans hx.symm) (fun _ _ => hgone)
          (fun q hq hq' => hother q (hq' hopen hfreed) (hq hopen)) hl, fun _ => ⟨hopen, hfreed⟩, fun _ => rfl⟩
  · have hno : ¬t.Opens (l ++ [n]) := fun ho => hl (by simpa using ho.way)
    obtain ⟨r₁, t₁, hmake⟩ : ∃ r₁ t₁, makeParents who target t = (r₁, t₁) := ⟨_, _, rfl⟩
    obtain ⟨⟨e, rfl⟩, hsame⟩ := makeParents_fails hs hp ha hdst hl hmake
    have hmove : moveFile who source target t = (.error e, t₁) := by
      unfold moveFile clear
      rw [run_bind, run_bind, hmake]
    obtain ⟨rfl, rfl⟩ := Prod.mk.inj (h.symm.trans hmove)
    exact ⟨.blocked hl hsame, ⟨(fun he => by cases he), fun ho => absurd ho.1 hno⟩⟩

end Disk

/-- A file is at the first place, and nothing is at the second. -/
structure Tree.Ready (t : Tree) (x : Place × Place) : Prop where
  file : ∃ b a, t.node? x.1 = some (.file b a)
  free : t.node? x.2 = none

/-- The file of `x` is another than that of `y` and goes elsewhere, and it is never on the way that `y` needs. -/
structure Tree.Clears (x y : Place × Place) : Prop where
  source : x.1 ≠ y.1
  target : x.2 ≠ y.2
  before : ¬x.1 <+: y.2.dropLast
  after : ¬x.2 <+: y.2.dropLast

namespace Tree

variable {t u u' : Tree} {l q : Place} {x y : Place × Place} {X : Set (Place × Place)}

lemma passable_congr (h : ∀ q, q <+: l → t.Laid u l q) : Passable u l ↔ Passable t l := by
  refine ⟨fun hu => ⟨fun m hm => ?_, fun m n hm hnone hk => ?_⟩, fun ht => ⟨fun m hm => ?_, fun m n hm hnone hk => ?_⟩⟩
  · rcases h m hm with hsame | ⟨-, hnone, -⟩
    · exact hsame ▸ isDirAt_congr hsame ▸ hu.way m hm
    · exact Or.inl hnone
  · rcases h _ hm with hsame | ⟨-, -, -, hopen⟩
    · refine hu.unlocked m n hm (hsame.trans hnone) ?_
      rw [isLocked_iff] at hk ⊢
      refine ((h m ((List.prefix_append m [n]).trans hm)).resolve_right fun hlaid => ?_).trans hk
      rw [hlaid.2.1] at hk
      cases hk
    · rw [List.dropLast_concat] at hopen
      exact hopen hk
  · rcases h m hm with hsame | ⟨-, -, hnew, -⟩
    · exact hsame ▸ isDirAt_congr hsame ▸ ht.way m hm
    · exact Or.inr (isDirAt_iff.2 ⟨false, hnew⟩)
  · have hnone' : t.node? (m ++ [n]) = none := by
      rcases h _ hm with hsame | ⟨-, hnone', -⟩
      · exact hsame.symm.trans hnone
      · exact hnone'
    refine ht.unlocked m n hm hnone' ?_
    rw [isLocked_iff] at hk ⊢
    rcases h m ((List.prefix_append m [n]).trans hm) with hsame | ⟨-, -, hnew, -⟩
    · exact hsame.symm.trans hk
    · rw [hnew] at hk
      cases hk

lemma Ready.ne (hx : t.Ready x) (hy : t.Ready y) : x.1 ≠ y.2 := by
  intro heq
  obtain ⟨b, a, hfile⟩ := hx.file
  rw [heq, hy.free] at hfile
  cases hfile

namespace Shifted

section

variable (h : t.Shifted X u) (hX : ∀ y ∈ X, t.Ready y ∧ Clears y x ∧ Clears x y)

include h hX

/-- The way to the target is as it was, but for directories that were laid and that could be laid. -/
lemma way (hq : q <+: x.2.dropLast) : t.Laid u x.2.dropLast q := by
  by_cases hlaid : ∃ y ∈ X, Passable t y.2.dropLast ∧ q <+: y.2.dropLast ∧ t.node? q = none
  · obtain ⟨y, hy, hway, hqy, hnone⟩ := hlaid
    refine Or.inr ⟨hq, hnone, h.laid y hy hway q hqy hnone, ?_⟩
    rcases q.eq_nil_or_concat with rfl | ⟨m, n, rfl⟩
    · cases hnone
    · rw [List.concat_eq_append] at hqy hnone ⊢
      rw [List.dropLast_concat]
      exact hway.unlocked m n hqy hnone
  · refine Or.inl (h.other q ?_ ?_ fun y hy hway hqy hnone => hlaid ⟨y, hy, hway, hqy, hnone⟩)
    · rintro y hy - rfl
      exact (hX y hy).2.1.after hq
    · rintro y hy - - rfl
      exact (hX y hy).2.1.before hq

lemma passable_iff : Passable u x.2.dropLast ↔ Passable t x.2.dropLast := passable_congr fun _ => h.way hX

lemma opens_iff : u.Opens x.2 ↔ t.Opens x.2 := by
  have hlock : u.isLocked x.2.dropLast ≠ true ↔ t.isLocked x.2.dropLast ≠ true := by
    rw [Ne, isLocked_iff, Ne, isLocked_iff]
    rcases h.way hX List.prefix_rfl with hsame | ⟨-, hnone, hnew, -⟩
    · rw [hsame]
    · simp [hnone, hnew]
  exact ⟨fun ho => ⟨(h.passable_iff hX).1 ho.way, hlock.1 ho.unlocked⟩,
    fun ho => ⟨(h.passable_iff hX).2 ho.way, hlock.2 ho.unlocked⟩⟩

variable (hx : t.Ready x)

include hx

lemma source : u.node? x.1 = t.node? x.1 := by
  obtain ⟨b, a, hfile⟩ := hx.file
  refine h.other x.1 (fun y hy _ => hx.ne (hX y hy).1) (fun y hy _ _ => (hX y hy).2.2.source) fun y hy _ _ => ?_
  simp [hfile]

lemma target : u.node? x.2 = none := by
  refine (h.other x.2 (fun y hy _ => (hX y hy).2.2.target) (fun y hy _ _ => ((hX y hy).1.ne hx).symm) ?_).trans hx.free
  exact fun y hy _ hpre => absurd hpre (hX y hy).2.2.after

lemma frees_iff (hs : t.Sound) : u.Frees x.1 ↔ t.Frees x.1 := by
  obtain ⟨b, a, hfile⟩ := hx.file
  have hup := hs.isDirAt_dropLast (p := x.1) (by simp [hfile])
  obtain ⟨c, hc⟩ := isDirAt_iff.1 hup
  have hsame : u.node? x.1.dropLast = t.node? x.1.dropLast := by
    refine h.other _ (fun y hy _ heq => ?_) (fun y hy _ _ heq => ?_) fun y hy _ _ => by simp [hc]
    · rw [heq, (hX y hy).1.free] at hc
      cases hc
    · obtain ⟨b', a', hfile'⟩ := (hX y hy).1.file
      rw [heq, hfile'] at hc
      cases hc
  rw [Frees, Frees, Ne, isLocked_iff, Ne, isLocked_iff, hsame]

/-- One more file is moved, and so far none has been in its way. -/
lemma insert (hs : t.Sound) (h' : u.Shifted {x} u') : t.Shifted (insert x X) u' where
  lands := by
    rintro y (rfl | hy) ho
    · exact (h'.lands y rfl ((h.opens_iff hX).2 ho)).trans (h.source hX hx)
    · have hclear := (hX y hy).2.1
      exact (h'.untouched hclear.target (hx.ne (hX y hy).1).symm hclear.after).trans (h.lands y hy ho)
  leaves := by
    rintro y (rfl | hy) ho hf
    · exact h'.leaves y rfl ((h.opens_iff hX).2 ho) ((h.frees_iff hX hx hs).2 hf)
    · have hclear := (hX y hy).2.1
      exact (h'.untouched ((hX y hy).1.ne hx) hclear.source hclear.before).trans (h.leaves y hy ho hf)
  laid := by
    -- A directory that is there already stays.
    have hkeep : ∀ q, u.node? q = some (.dir false) → u'.node? q = some (.dir false) := by
      intro q hq
      refine (h'.other q ?_ ?_ ?_).trans hq
      · rintro z rfl - rfl
        rw [h.target hX hx] at hq
        cases hq
      · rintro z rfl - - rfl
        obtain ⟨b, a, hfile⟩ := hx.file
        rw [h.source hX hx, hfile] at hq
        cases hq
      · rintro z - - -
        simp [hq]
    rintro y (rfl | hy) hway q hq hnone
    · rcases h.way hX hq with hsame | ⟨-, -, hnew, -⟩
      · exact h'.laid y rfl ((h.passable_iff hX).2 hway) q hq (hsame.trans hnone)
      · exact hkeep q hnew
    · exact hkeep q (h.laid y hy hway q hq hnone)
  other q hlands hleaves hlaid := by
    have hsame := h.other q (fun y hy => hlands y (Or.inr hy)) (fun y hy => hleaves y (Or.inr hy)) fun y hy =>
      hlaid y (Or.inr hy)
    refine (h'.other q ?_ ?_ ?_).trans hsame
    · rintro y rfl ho
      exact hlands y (Or.inl rfl) ((h.opens_iff hX).1 ho)
    · rintro y rfl ho hf
      exact hleaves y (Or.inl rfl) ((h.opens_iff hX).1 ho) ((h.frees_iff hX hx hs).1 hf)
    · rintro y rfl hway hq
      rw [hsame]
      exact hlaid y (Or.inl rfl) ((h.passable_iff hX).1 hway) hq

end

lemma empty (t : Tree) : t.Shifted ∅ t :=
  ⟨fun _ hx => hx.elim, fun _ hx => hx.elim, fun _ hx => hx.elim, fun _ _ _ _ => rfl⟩

/-- What comes of moving files does not depend on anything else. -/
theorem unique (h : t.Shifted X u) (h' : t.Shifted X u') (q : Place) : u.node? q = u'.node? q := by
  by_cases hlands : ∃ x ∈ X, t.Opens x.2 ∧ q = x.2
  · obtain ⟨x, hx, ho, rfl⟩ := hlands
    rw [h.lands x hx ho, h'.lands x hx ho]
  by_cases hleaves : ∃ x ∈ X, t.Opens x.2 ∧ t.Frees x.1 ∧ q = x.1
  · obtain ⟨x, hx, ho, hf, rfl⟩ := hleaves
    rw [h.leaves x hx ho hf, h'.leaves x hx ho hf]
  by_cases hlaid : ∃ x ∈ X, Passable t x.2.dropLast ∧ q <+: x.2.dropLast ∧ t.node? q = none
  · obtain ⟨x, hx, hway, hq, hnone⟩ := hlaid
    rw [h.laid x hx hway q hq hnone, h'.laid x hx hway q hq hnone]
  · have h₁ : ∀ x ∈ X, t.Opens x.2 → q ≠ x.2 := fun x hx ho heq => hlands ⟨x, hx, ho, heq⟩
    have h₂ : ∀ x ∈ X, t.Opens x.2 → t.Frees x.1 → q ≠ x.1 := fun x hx ho hf heq => hleaves ⟨x, hx, ho, hf, heq⟩
    have h₃ : ∀ x ∈ X, Passable t x.2.dropLast → q <+: x.2.dropLast → t.node? q ≠ none := fun x hx hway hq hnone =>
      hlaid ⟨x, hx, hway, hq, hnone⟩
    rw [h.other q h₁ h₂ h₃, h'.other q h₁ h₂ h₃]

/-- Directories stay, and so do the files that are not moved. -/
lemma keep (h : t.Shifted X u) (hX : ∀ x ∈ X, t.Ready x) (hq : t.node? q ≠ none) (hout : ∀ x ∈ X, q ≠ x.1) :
    u.node? q = t.node? q :=
  h.other q (fun x hx _ heq => hq (heq ▸ (hX x hx).free)) (fun x hx _ _ => hout x hx) fun _ _ _ _ => hq

lemma isDirAt (h : t.Shifted X u) (hX : ∀ x ∈ X, t.Ready x) (hd : t.isDirAt q = true) : u.isDirAt q = true := by
  obtain ⟨c, hc⟩ := isDirAt_iff.1 hd
  refine isDirAt_iff.2 ⟨c, (h.keep hX (by simp [hc]) fun x hx heq => ?_).trans hc⟩
  obtain ⟨b, a, hfile⟩ := (hX x hx).file
  rw [heq, hfile] at hc
  cases hc

end Shifted

end Tree

end FileOrganizer
