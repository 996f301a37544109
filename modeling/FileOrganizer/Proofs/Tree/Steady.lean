import FileOrganizer.Proofs.Tree.Moved

/-! Changes that take no directory away, and no file but those at a few places; some of them only add to the tree. -/

namespace FileOrganizer

namespace Tree

variable {who : Actor} {cwd l q : Place} {t t' t'' : Tree} {p source target : Path} {b : ByteArray} {X Y : Set Place}

/-- Nothing is new but directories and files where nothing was, and all else is as it was. -/
def Adds (t t' : Tree) : Prop := ∀ q, t'.node? q = t.node? q ∨
  t.node? q = none ∧ (t'.node? q = some (.dir false) ∨ ∃ b a, t'.node? q = some (.file b a))

lemma AddsDirs.adds (h : t.AddsDirs t') : t.Adds t' := fun q => (h q).imp_right fun hq => ⟨hq.1, Or.inl hq.2⟩

namespace Adds

lemma refl (t : Tree) : t.Adds t := fun _ => Or.inl rfl

lemma keep (h : t.Adds t') (hq : t.node? q ≠ none) : t'.node? q = t.node? q :=
  (h q).resolve_right fun hn => hq hn.1

lemma trans (h : t.Adds t') (h' : t'.Adds t'') : t.Adds t'' := by
  intro q
  by_cases hq : t.node? q = none
  · rcases h q with h₁ | h₁ <;> rcases h' q with h₂ | h₂
    · exact Or.inl (h₂.trans h₁)
    · exact Or.inr ⟨hq, h₂.2⟩
    · exact Or.inr ⟨hq, by rw [h₂]; exact h₁.2⟩
    · exact Or.inr ⟨hq, h₂.2⟩
  · have h₁ := h.keep hq
    exact Or.inl ((h'.keep (h₁ ▸ hq)).trans h₁)

lemma of_sets {a : Attrs} (h : t.Sets t' l (some (.file b a))) (hl : t.node? l = none) : t.Adds t' := by
  intro q
  by_cases hq : l = q
  · subst hq
    exact Or.inr ⟨hl, Or.inr ⟨b, a, h.same⟩⟩
  · exact Or.inl (h.other hq)

lemma keeps (h : t.Adds t') : t.Keeps t' := by
  intro q c hc
  obtain ⟨a, ha⟩ := bytes?_eq_some.1 hc
  rwa [bytes?_congr (h.keep (by simp [ha]))]

lemma isDirAt (h : t.Adds t') (hd : t.isDirAt q = true) : t'.isDirAt q = true := by
  obtain ⟨k, hk⟩ := isDirAt_iff.1 hd
  rwa [isDirAt_congr (h.keep (by simp [hk]))]

lemma plain (h : t.Adds t') (hp : t.Plain) : t'.Plain := by
  intro q x hx
  rcases h q with hq | ⟨-, hq | ⟨c, a, hq⟩⟩
  · exact hp q x (hq ▸ hx)
  · simp [hx] at hq
  · simp [hx] at hq

end Adds

/-- Every directory is still there, and so is every file outside of `X`, with the same bytes. -/
structure Steady (X : Set Place) (t t' : Tree) : Prop where
  sound : t'.Sound
  plain : t'.Plain
  dirs : ∀ q, t.isDirAt q = true → t'.isDirAt q = true
  bytes : ∀ q, q ∉ X → ∀ b, t.bytes? q = some b → t'.bytes? q = some b

lemma Adds.steady (h : t.Adds t') (hp : t.Plain) (hs' : t'.Sound) : t.Steady X t' :=
  ⟨hs', h.plain hp, fun _ => h.isDirAt, fun q _ => h.keeps q⟩

namespace Steady

lemma refl (hs : t.Sound) (hp : t.Plain) : t.Steady X t := (Adds.refl t).steady hp hs

lemma mono (h : t.Steady X t') (hX : X ⊆ Y) : t.Steady Y t' :=
  ⟨h.sound, h.plain, h.dirs, fun q hq => h.bytes q fun hx => hq (hX hx)⟩

lemma trans (h : t.Steady X t') (h' : t'.Steady X t'') : t.Steady X t'' :=
  ⟨h'.sound, h'.plain, fun q hq => h'.dirs q (h.dirs q hq), fun q hq b hb => h'.bytes q hq b (h.bytes q hq b hb)⟩

lemma read (h : t.Steady X t') (hs : t.Sound) (hp : t.Plain) (hq : p.place cwd ∉ X) (hread : t.read cwd p = .ok b) :
    t'.read cwd p = .ok b := by
  have hb := ((read_eq_ok hs hp).1 hread).2
  exact read_steady hs hp h.sound h.plain h.dirs ((h.bytes _ hq b hb).trans hb.symm) hread

end Steady

lemma Moved.steady (h : Moved cwd source target b t t') : t.Steady {source.place cwd} t' := by
  refine ⟨h.sound, h.plain, h.dirs, fun q hq c hc => ?_⟩
  have hne : target.place cwd ≠ q := by
    rintro rfl
    rw [h.free] at hc
    cases hc
  exact (h.other q hne fun heq => hq heq.symm).trans hc

lemma stat_of_read (hs : t.Sound) (hp : t.Plain) (h : t.read cwd p = .ok b) :
    ∃ a, t.stat cwd p = .ok (p.place cwd, .file b a) := by
  obtain ⟨⟨s, hl⟩, hb⟩ := (read_eq_ok hs hp).1 h
  obtain ⟨a, ha⟩ := bytes?_eq_some.1 hb
  have hplace := locate_place hp hl
  refine ⟨a, ?_⟩
  rw [stat_eq_ok, ← hplace, hl, ← at?_file.2 (hplace ▸ ha), ← (locate_ok hs hl).1]

lemma has_of_read (hs : t.Sound) (hp : t.Plain) (h : t.read cwd p = .ok b) : t.has cwd p = true := by
  obtain ⟨a, hstat⟩ := stat_of_read hs hp h
  exact has_iff.2 ⟨_, _, hstat⟩

lemma bytes?_of_read (hs : t.Sound) (hp : t.Plain) (h : t.read cwd p = .ok b) : t.bytes? (p.place cwd) = some b :=
  ((read_eq_ok hs hp).1 h).2

lemma node?_of_read (hs : t.Sound) (hp : t.Plain) (h : t.read cwd p = .ok b) : t.node? (p.place cwd) ≠ none := by
  intro hnone
  have hbytes := bytes?_of_read hs hp h
  simp [Tree.bytes?, hnone] at hbytes

lemma parentOf_of_read (hs : t.Sound) (hp : t.Plain) (h : t.read cwd p = .ok b) :
    ∃ d n, t.parentOf cwd p = .ok (d, .name n) := by
  obtain ⟨a, hstat⟩ := stat_of_read hs hp h
  have hloc := stat_eq_ok.1 hstat
  have hfile := at?_file.1 (stat_ok hs hstat).1
  have hslash := slash_of_locate hs hp hloc (not_isDirAt_of_file hfile)
  have hloc' : t.locate cwd false p = .ok _ := locate_steady hp hp (fun _ => id) hloc
  obtain ⟨d, n, hpar, -⟩ := parentOf_of_locate hs hslash hloc' (by simp [at?_file.2 hfile])
  exact ⟨d, n, hpar⟩

lemma removeFile_steady (hs : t.Sound) (hp : t.Plain) (h : removeFile who p t = .ok t') :
    t.Steady {p.place who.cwd} t' := by
  obtain ⟨d, n, x, hpar, -, hx, hdir, -, hset⟩ := removeFile_ok h
  rw [parentOf_place hp hpar]
  have hne : ∀ {q}, q ∉ ({d ++ [n]} : Set Place) → d ++ [n] ≠ q := fun hq heq => hq heq.symm
  have hfile : t.isDirAt (d ++ [n]) ≠ true := by
    intro hd
    obtain ⟨k, hk⟩ := isDirAt_iff.1 hd
    exact hdir k (Option.some.inj (hx.symm.trans hk))
  refine ⟨sound_of_removeFile hs h, hset.plain hp (by simp), fun q hq => hset.isDirAt hfile hq, fun q hq b hb => ?_⟩
  exact (hset.bytes? (hne hq)).trans hb

/-- Nothing stands where a path leads to nothing. -/
lemma node?_of_free {d : Place} {n : String} (hp : t.Plain) (hno : t.has cwd p = false)
    (hpar : t.parentOf cwd p = .ok (d, .name n)) (hslash : p.endsInSlash ≠ true) : t.node? (p.place cwd) = none := by
  rw [parentOf_place hp hpar]
  by_contra hn
  cases hat : t.at? (d ++ [n]) with
  | none => exact hn (at?_eq_none.1 hat)
  | some e =>
    have hloc := locate_of_parentOf hpar hslash (fun (_ : true = true) x => hp _ x)
    rw [hat] at hloc
    rw [has_iff.2 ⟨_, _, stat_eq_ok.2 hloc⟩] at hno
    cases hno

end Tree

namespace Disk

open FileOrganizer.Tree

variable {who : Actor} {t t' t₁ : Tree} {source target : Path} {b : ByteArray} {r : Except Fault Unit}

lemma Copied.adds {cwd : Place} (hs : t.Sound) (h : Copied cwd source target t t') : t.Adds t' := by
  obtain ⟨ls, c, a, l, a', -, hloc, -, hset⟩ := h
  exact .of_sets hset (node?_of_locate hs hloc)

lemma copyFile_adds (hs : t.Sound) (h : copyFile who source target t = (r, t')) : t'.Sound ∧ t.Adds t' := by
  obtain ⟨hs', ⟨-, hpaved⟩ | ⟨t₁, hs₁, hpaved, -, hcop⟩⟩ := copyFile_cases hs h
  · exact ⟨hs', (hpaved.addsDirs hs).2.adds⟩
  · exact ⟨hs', (hpaved.addsDirs hs).2.adds.trans (hcop.adds hs₁)⟩

/-- A file that cannot be moved is left where it is, at worst with a copy of it. -/
lemma moveFile_adds {e : Fault} (hs : t.Sound) (h : moveFile who source target t = (.error e, t')) :
    t'.Sound ∧ t.Adds t' := by
  obtain ⟨hs', ⟨-, hpaved⟩ | ⟨t₁, hs₁, hpaved, -, ⟨he, -⟩ | ⟨-, hcop⟩ | ⟨he, -⟩⟩⟩ := moveFile_cases hs h
  · exact ⟨hs', (hpaved.addsDirs hs).2.adds⟩
  · cases he
  · exact ⟨hs', (hpaved.addsDirs hs).2.adds.trans (hcop.adds hs₁)⟩
  · cases he

lemma moveFile_steady (hs : t.Sound) (hp : t.Plain) (hread : t.read who.cwd source = .ok b)
    (h : moveFile who source target t = (r, t')) : t.Steady {source.place who.cwd} t' := by
  rcases r with e | a
  · obtain ⟨hs', hadd⟩ := moveFile_adds hs h
    exact hadd.steady hp hs'
  · exact (moved_of_moveFile hs hp hread h).steady

lemma Copied.read {cwd : Place} (hs : t.Sound) (hp : t.Plain) (hread : t.read cwd source = .ok b)
    (h : Copied cwd source target t t') : t'.read cwd target = .ok b ∧ t.node? (target.place cwd) = none := by
  have hs' := h.sound hs
  have hp' := (h.adds hs).plain hp
  have hdirs : ∀ q, t.isDirAt q = true → t'.isDirAt q = true := fun _ => (h.adds hs).isDirAt
  obtain ⟨ls, c, a, l, a', hst, hloc, -, hset⟩ := h
  obtain ⟨a₀, hst₀⟩ := stat_of_read hs hp hread
  obtain rfl : c = b := by
    rw [hst₀] at hst
    cases hst
    rfl
  have hplace : target.place cwd = l := (locate_place hp hloc).symm
  refine ⟨(read_eq_ok hs' hp').2 ⟨⟨_, locate_steady hp hp' hdirs hloc⟩, ?_⟩, hplace ▸ node?_of_locate hs hloc⟩
  rw [hplace]
  exact bytes?_eq_some.2 ⟨a', hset.same⟩

lemma copyFile_read (hs : t.Sound) (hp : t.Plain) (hread : t.read who.cwd source = .ok b)
    (h : copyFile who source target t = (.ok (), t')) :
    t'.read who.cwd target = .ok b ∧ t.node? (target.place who.cwd) = none := by
  obtain ⟨-, ⟨⟨e, he⟩, -⟩ | ⟨t₁, hs₁, hpaved, -, hcop⟩⟩ := copyFile_cases hs h
  · cases he
  · obtain ⟨-, hadd⟩ := hpaved.addsDirs hs
    have hread₁ : t₁.read who.cwd source = .ok b :=
      (hadd.adds.steady (X := ∅) hp hs₁).read hs hp (Set.notMem_empty _) hread
    obtain ⟨hgot, hnone⟩ := hcop.read hs₁ (hadd.plain hp) hread₁
    refine ⟨hgot, ?_⟩
    by_contra hn
    rw [hadd.keep hn] at hnone
    exact hn hnone

lemma moveFile_free (hs : t.Sound) (hp : t.Plain) (hread : t.read who.cwd source = .ok b)
    (h : moveFile who source target t = (.ok (), t')) : t.node? (target.place who.cwd) = none := by
  obtain ⟨-, ⟨⟨e, he⟩, -⟩ | ⟨t₁, hs₁, hpaved, hno, hcase⟩⟩ := moveFile_cases hs h
  · cases he
  obtain ⟨-, hadd⟩ := hpaved.addsDirs hs
  have hp₁ := hadd.plain hp
  have hread₁ : t₁.read who.cwd source = .ok b :=
    (hadd.adds.steady (X := ∅) hp hs₁).read hs hp (Set.notMem_empty _) hread
  have hnone : t₁.node? (target.place who.cwd) = none := by
    rcases hcase with ⟨-, hren⟩ | ⟨⟨e, he⟩, -⟩ | ⟨-, t₂, hcop, -⟩
    · obtain ⟨d, n, d', n', x, hsrc, hdst, hx, hslash, -⟩ := rename_ok hs₁ hren
      obtain ⟨a, ha⟩ := bytes?_eq_some.1 (bytes?_of_read hs₁ hp₁ hread₁)
      rw [parentOf_place hp₁ hsrc, hx] at ha
      obtain rfl := Option.some.inj ha
      exact node?_of_free hp₁ hno hdst (hslash (by simp)).2
    · cases he
    · exact (hcop.read hs₁ hp₁ hread₁).2
  by_contra hn
  rw [hadd.keep hn] at hnone
  exact hn hnone

end Disk

end FileOrganizer
