import FileOrganizer.Proofs.Tree.Transfer
import Mathlib.Data.Set.Function

/-! Changes of a tree that lose no content: every file is still there, at its place or at another. -/

namespace FileOrganizer

namespace Tree

variable {who : Actor} {t t' t'' : Tree} {p source target : Path} {l l' q : Place} {b : ByteArray}

/-- Every file is where it was, with the same bytes. -/
def Keeps (t t' : Tree) : Prop := ∀ q b, t.bytes? q = some b → t'.bytes? q = some b

lemma Keeps.refl (t : Tree) : t.Keeps t := fun _ _ h => h

lemma Keeps.trans (h : t.Keeps t') (h' : t'.Keeps t'') : t.Keeps t'' := fun q b hb => h' q b (h q b hb)

lemma Keeps.bytes?_eq_none (h : t.Keeps t') (hq : t'.bytes? q = none) : t.bytes? q = none := by
  cases hb : t.bytes? q with
  | none => rfl
  | some b => simp [h q b hb] at hq

lemma AddsDirs.keeps (h : t.AddsDirs t') : t.Keeps t' := fun q _ hb => (h.bytes? q).trans hb

/-- What is set where no file is leaves the files alone. -/
lemma Sets.keeps {x : Option Node} (h : t.Sets t' l x) (hl : t.bytes? l = none) : t.Keeps t' := by
  intro q b hb
  have hq : l ≠ q := by
    rintro rfl
    simp [hl] at hb
  rwa [bytes?_congr (h.other hq)]

/-- Every file is still there with the same bytes, at its place or at one where no file was, and no two
files are at one place. -/
def Transports (t t' : Tree) : Prop :=
  ∃ g : Place → Place, Set.InjOn g {q | t.bytes? q ≠ none} ∧
    ∀ q b, t.bytes? q = some b → t'.bytes? (g q) = some b ∧ (g q = q ∨ t.bytes? (g q) = none)

lemma Keeps.transports (h : t.Keeps t') : t.Transports t' :=
  ⟨id, Set.injOn_id _, fun q b hb => ⟨h q b hb, Or.inl rfl⟩⟩

lemma Keeps.transports_trans (h : t.Keeps t') (h' : t'.Transports t'') : t.Transports t'' := by
  obtain ⟨g, hinj, hg⟩ := h'
  refine ⟨g, hinj.mono fun q hq hn => hq (h.bytes?_eq_none hn), fun q b hb => ?_⟩
  obtain ⟨hbytes, hplace⟩ := hg q b (h q b hb)
  exact ⟨hbytes, hplace.imp_right h.bytes?_eq_none⟩

/-- One file goes to a place where no file was. -/
lemma transports_of_one (hne : l ≠ l') (hb : t.bytes? l = some b) (hl' : t.bytes? l' = none)
    (hbytes : t'.bytes? l' = some b)
    (hother : ∀ q, l ≠ q → l' ≠ q → t'.bytes? q = t.bytes? q) : t.Transports t' := by
  refine ⟨fun q => if q = l then l' else q, ?_, fun q c hc => ?_⟩
  · intro q hq r hr hqr
    have hne' : ∀ x, t.bytes? x ≠ none → x ≠ l' := fun x hx hxl => hx (hxl ▸ hl')
    dsimp only at hqr
    split at hqr <;> split at hqr
    · next h h' => rw [h, h']
    · exact absurd hqr.symm (hne' r hr)
    · exact absurd hqr (hne' q hq)
    · exact hqr
  · dsimp only
    split
    · next h =>
      subst h
      exact ⟨hbytes.trans (hb.symm.trans hc), Or.inr hl'⟩
    · next h =>
      have hql' : l' ≠ q := by
        rintro rfl
        simp [hl'] at hc
      exact ⟨(hother q (Ne.symm h) hql').trans hc, Or.inl rfl⟩

/-- Every file outside `E` is still there with the same bytes, outside `E'`, and no two are at one place. -/
def Carries (E E' : Set Place) (t t' : Tree) : Prop :=
  ∃ g : Place → Place, Set.InjOn g {q | t.bytes? q ≠ none ∧ q ∉ E} ∧
    ∀ q b, t.bytes? q = some b → q ∉ E → t'.bytes? (g q) = some b ∧ g q ∉ E'

variable {E E' E'' : Set Place}

lemma Carries.refl (E : Set Place) (t : Tree) : Carries E E t t :=
  ⟨id, Set.injOn_id _, fun _ _ hb hq => ⟨hb, hq⟩⟩

lemma Carries.trans (h : Carries E E' t t') (h' : Carries E' E'' t' t'') : Carries E E'' t t'' := by
  obtain ⟨g, hinj, hg⟩ := h
  obtain ⟨g', hinj', hg'⟩ := h'
  have hmap : Set.MapsTo g {q | t.bytes? q ≠ none ∧ q ∉ E} {q | t'.bytes? q ≠ none ∧ q ∉ E'} := by
    rintro q ⟨hq, hE⟩
    obtain ⟨b, hb⟩ := Option.ne_none_iff_exists'.1 hq
    obtain ⟨hb', hE'⟩ := hg q b hb hE
    exact ⟨by simp [hb'], hE'⟩
  refine ⟨g' ∘ g, hinj'.comp hinj hmap, fun q b hb hE => ?_⟩
  obtain ⟨hb', hE'⟩ := hg q b hb hE
  exact hg' (g q) b hb' hE'

/-- Files that are left alone stay outside of a set of places that gets no new files. -/
lemma Transports.carries (h : t.Transports t') (hE : E' ⊆ E) (hfile : ∀ q ∈ E, t.bytes? q ≠ none) :
    Carries E E' t t' := by
  obtain ⟨g, hinj, hg⟩ := h
  refine ⟨g, hinj.mono fun q hq => hq.1, fun q b hb hq => ?_⟩
  obtain ⟨hbytes, hplace⟩ := hg q b hb
  refine ⟨hbytes, fun hE' => ?_⟩
  rcases hplace with hsame | hnone
  · exact hq (hsame ▸ hE hE')
  · exact hfile (g q) (hE hE') hnone

lemma Keeps.carries (h : t.Keeps t') (hE : ∀ q ∈ E', q ∈ E ∨ t.bytes? q = none) : Carries E E' t t' := by
  refine ⟨id, Set.injOn_id _, fun q b hb hq => ⟨h q b hb, fun hE' => ?_⟩⟩
  rcases hE q hE' with hqE | hnone
  · exact hq hqE
  · simp [hnone] at hb

/-- No file is at a place that a renaming may take, or below it, unless the path leads to the file. -/
lemma Replaceable.bytes? (hs : t.Sound) {d : Place} {n : String} {x : Node}
    (h : t.Replaceable x (d ++ [n])) (hp : t.parentOf who.cwd target = .ok (d, .name n))
    (hslash : (∀ k, x ≠ .dir k) → target.endsInSlash ≠ true) (hno : t.has who.cwd target = false)
    (r : Place) : t.bytes? (d ++ [n] ++ r) = none := by
  rw [bytes?_eq_none]
  intro b a hf
  have hbelow : r ≠ [] → t.isDirAt (d ++ [n]) = true := fun hr =>
    hs.isDirAt_prefix r hr (by rw [hf]; simp)
  rcases h with hn | ⟨hx, y, hy, hyd⟩ | ⟨-, hdir, hempty⟩
  · by_cases hr : r = []
    · rw [hr, List.append_nil, hn] at hf
      cases hf
    · exact not_isDirAt_of_none hn (hbelow hr)
  · by_cases hr : r = []
    · rw [hr, List.append_nil] at hf
      have hloc : t.locate who.cwd true target = .ok ⟨d ++ [n], t.at? (d ++ [n])⟩ :=
        locate_of_parentOf hp (hslash hx) fun _ s hs => by simp [hf] at hs
      rw [at?_file.2 hf] at hloc
      rw [has_iff.2 ⟨_, _, stat_eq_ok.2 hloc⟩] at hno
      cases hno
    · obtain ⟨k, hk⟩ := isDirAt_iff.1 (hbelow hr)
      rw [hy] at hk
      exact hyd k (Option.some.inj hk)
  · cases r with
    | nil =>
      rw [List.append_nil] at hf
      exact not_isDirAt_of_file hf hdir
    | cons m r =>
      rw [List.append_cons] at hf
      by_cases hr : r = []
      · rw [hr, List.append_nil, hempty m] at hf
        cases hf
      · have hm : t.isDirAt (d ++ [n] ++ [m]) = true := hs.isDirAt_prefix r hr (by rw [hf]; simp)
        exact not_isDirAt_of_none (hempty m) hm

lemma transports_of_rename (hs : t.Sound) (hno : t.has who.cwd target = false)
    (h : rename who source target t = .ok t') : t.Transports t' := by
  obtain ⟨d, n, d', n', x, -, hdst, -, hslash, ⟨-, rfl⟩ | ⟨-, -, hrep, hnot, -, hcar⟩⟩ := rename_ok hs h
  · exact (Keeps.refl t').transports
  · generalize hl : d ++ [n] = l at *
    have hfree : ∀ r, t.bytes? (d' ++ [n'] ++ r) = none :=
      hrep.bytes? hs hdst (fun hx => (hslash hx).2) hno
    generalize d' ++ [n'] = l' at *
    have hout : ∀ q, t.bytes? q ≠ none → ¬l' <+: q := by
      rintro q hq ⟨r, rfl⟩
      exact hq (hfree r)
    refine ⟨fun q => if l <+: q then l' ++ q.drop l.length else q, ?_, fun q b hb => ?_⟩
    · intro q hq q' hq' hqq
      dsimp only at hqq
      split at hqq <;> split at hqq
      · next h h' =>
        obtain ⟨r, rfl⟩ := h
        obtain ⟨r', rfl⟩ := h'
        simpa using hqq
      · exact absurd ⟨_, hqq⟩ (hout q' hq')
      · exact absurd ⟨_, hqq.symm⟩ (hout q hq)
      · exact hqq
    · dsimp only
      split
      · next h =>
        obtain ⟨r, rfl⟩ := h
        rw [List.drop_left]
        exact ⟨(bytes?_congr hcar.below).trans hb, Or.inr (hfree r)⟩
      · next h =>
        have hq : ¬l' <+: q := hout q (by simp [hb])
        exact ⟨(bytes?_congr (hcar.other hq h)).trans hb, Or.inl rfl⟩

end Tree

namespace Disk

open FileOrganizer.Tree

variable {who : Actor} {t t' t₂ : Tree} {source target : Path} {r : Except Fault Unit}

lemma Copied.keeps {cwd : Place} (hs : t.Sound) (h : Copied cwd source target t t') : t.Keeps t' := by
  obtain ⟨-, b, -, l, a', -, hl, -, ht⟩ := h
  exact ht.keeps (by simp [Tree.bytes?, node?_of_locate hs hl])

/-- The source of a copy can be removed: a link goes itself, a file has its bytes in the copy. -/
lemma transports_of_copy_remove (hs : t.Sound) (h : Copied who.cwd source target t t₂)
    (hrem : removeFile who source t₂ = .ok t') : t.Transports t' := by
  have hkeep := h.keeps hs
  have hs₂ := h.sound hs
  obtain ⟨ls, b, a, l, a', hst, hl, -, ht⟩ := h
  obtain ⟨d, n, x, hp, hslash, hx, -, -, ht'⟩ := removeFile_ok hrem
  have hlnone : t.node? l = none := node?_of_locate hs hl
  have hls : t.node? ls = some (.file b a) := node?_of_at? (stat_ok hs hst).1
  by_cases hfile : ∃ c a₁, x = .file c a₁
  · obtain ⟨c, a₁, rfl⟩ := hfile
    -- The path to the source still leads to the file that was copied.
    have hg : t.Grows t₂ := ht.grows fun y hy => by simp [hlnone] at hy
    obtain ⟨e, hst₂, -⟩ := stat_grows hs hg hst
    have hloc := locate_of_parentOf hp hslash (fun (_ : true = true) s hs => by simp [hx] at hs)
    have hplace : d ++ [n] = ls := (locate_inj hloc (stat_eq_ok.1 hst₂)).1
    rw [hplace] at ht'
    have hne : ls ≠ l := by
      rintro rfl
      rw [hls] at hlnone
      cases hlnone
    refine transports_of_one hne (bytes?_eq_some.2 ⟨a, hls⟩) (by simp [Tree.bytes?, hlnone])
      (bytes?_eq_some.2 ⟨a', (ht'.other hne).trans ht.same⟩) fun q hq hq' => ?_
    exact bytes?_congr ((ht'.other hq).trans (ht.other hq'))
  · have hnone : t₂.bytes? (d ++ [n]) = none := by
      rw [bytes?_eq_none, hx]
      rintro c a₁ hc
      exact hfile ⟨c, a₁, Option.some.inj hc⟩
    exact (hkeep.trans (ht'.keeps hnone)).transports

lemma keeps_of_copyFile (hs : t.Sound) (h : copyFile who source target t = (r, t')) :
    t.Keeps t' := by
  obtain ⟨-, ⟨-, hadd⟩ | ⟨t₁, hs₁, hadd, -, hcop⟩⟩ := copyFile_cases hs h
  · exact (hadd.addsDirs hs).2.keeps
  · exact (hadd.addsDirs hs).2.keeps.trans (hcop.keeps hs₁)

lemma transports_of_moveFile (hs : t.Sound) (h : moveFile who source target t = (r, t')) :
    t.Transports t' := by
  obtain ⟨-, ⟨-, hadd⟩ | ⟨t₁, hs₁, hadd, hno, ⟨-, hren⟩ | ⟨-, hcop⟩ | ⟨-, t₂, hcop, hrem⟩⟩⟩ :=
    moveFile_cases hs h
  · exact (hadd.addsDirs hs).2.keeps.transports
  · exact (hadd.addsDirs hs).2.keeps.transports_trans (transports_of_rename hs₁ hno hren)
  · exact (hadd.addsDirs hs).2.keeps.transports_trans (hcop.keeps hs₁).transports
  · exact (hadd.addsDirs hs).2.keeps.transports_trans (transports_of_copy_remove hs₁ hcop hrem)

end Disk

end FileOrganizer
