import FileOrganizer.Proofs.Tree.Plain

/-! What a file that is moved in a tree without links leaves as it is. -/

namespace FileOrganizer.Tree

open FileOrganizer.Disk

variable {who : Actor} {t t₁ t₂ t' : Tree} {cwd l l' q : Place} {p source target : Path} {b c : ByteArray}
  {x : Option Node}

lemma AddsDirs.plain (h : t.AddsDirs t') (hp : t.Plain) : t'.Plain :=
  hp.of_node? fun q => (h q).imp id fun hq => Or.inr (Or.inl ⟨false, hq.2⟩)

lemma AddsDirs.isDirAt (h : t.AddsDirs t') (hd : t.isDirAt q = true) : t'.isDirAt q = true := by
  obtain ⟨k, hk⟩ := isDirAt_iff.1 hd
  exact isDirAt_iff.2 ⟨k, (h.keep (by simp [hk])).trans hk⟩

lemma Sets.bytes? (h : t.Sets t' l x) (hq : l ≠ q) : t'.bytes? q = t.bytes? q := bytes?_congr (h.other hq)

lemma Sets.plain (h : t.Sets t' l x) (hp : t.Plain) (hx : ∀ s, x ≠ some (.link s)) : t'.Plain := by
  intro q s hq
  rw [h q] at hq
  split at hq
  · exact hx s hq
  · exact hp q s hq

lemma Sets.isDirAt (h : t.Sets t' l x) (hl : t.isDirAt l ≠ true) (hd : t.isDirAt q = true) :
    t'.isDirAt q = true := by
  have hq : l ≠ q := by
    rintro rfl
    exact hl hd
  rwa [isDirAt_congr (h.other hq)]

/-- A path to a file is one that leads to its place and nothing more. -/
lemma read_eq_ok (hs : t.Sound) (hp : t.Plain) :
    t.read cwd p = .ok b ↔ (∃ s, t.locate cwd true p = .ok s) ∧ t.bytes? (p.place cwd) = some b := by
  constructor
  · intro h
    unfold read at h
    split at h
    · cases h
    · next l c a hst =>
      cases h
      refine ⟨⟨_, stat_eq_ok.1 hst⟩, bytes?_eq_some.2 ⟨a, ?_⟩⟩
      rw [← stat_place hp hst]
      exact node?_of_at? (stat_ok hs hst).1
    · cases h
  · rintro ⟨⟨s, hl⟩, hb⟩
    obtain ⟨a, ha⟩ := bytes?_eq_some.1 hb
    have hat : t.at? s.place = some (.file b a) := by
      rw [locate_place hp hl]
      exact at?_file.2 ha
    have hst : t.stat cwd p = .ok (s.place, .file b a) := by
      rw [stat_eq_ok, hl, ← hat, ← (locate_ok hs hl).1]
    unfold read
    rw [hst]

lemma text_of_read (h : t.read cwd p = .ok b) : p.text ≠ "" := by
  intro htext
  have hrefused : refused p ≠ none := by
    unfold refused
    rw [if_pos htext]
    split <;> simp
  unfold Tree.read at h
  split at h
  · cases h
  · next hst => exact hrefused (refused_of_locate_ok (stat_eq_ok.1 hst))
  · cases h

lemma read_ofPlace (hs : t.Sound) (hp : t.Plain) (hl : ∀ n ∈ l, Proper n) :
    t.read cwd (Path.ofPlace l) = .ok b ↔ Addressable l ∧ t.bytes? l = some b := by
  rw [read_eq_ok hs hp, Path.place_ofPlace hl]
  constructor
  · rintro ⟨⟨s, hloc⟩, hb⟩
    exact ⟨addressable_of_locate hp hl hloc, hb⟩
  · rintro ⟨ha, hb⟩
    obtain ⟨a, hn⟩ := bytes?_eq_some.1 hb
    exact ⟨⟨_, locate_ofPlace hs hp ha (hs.isDirAt_dropLast (by simp [hn]))⟩, hb⟩

lemma read_steady (hs : t.Sound) (hp : t.Plain) (hs' : t'.Sound) (hp' : t'.Plain)
    (hdirs : ∀ q, t.isDirAt q = true → t'.isDirAt q = true)
    (hbytes : t'.bytes? (p.place cwd) = t.bytes? (p.place cwd)) (h : t.read cwd p = .ok b) :
    t'.read cwd p = .ok b := by
  obtain ⟨⟨s, hl⟩, hb⟩ := (read_eq_ok hs hp).1 h
  exact (read_eq_ok hs' hp').2 ⟨⟨_, locate_steady hp hp' hdirs hl⟩, hbytes.trans hb⟩

/-- A file with these bytes went from one path to another, and no other file was touched. -/
structure Moved (cwd : Place) (source target : Path) (b : ByteArray) (t t' : Tree) : Prop where
  sound : t'.Sound
  plain : t'.Plain
  dirs : ∀ q, t.isDirAt q = true → t'.isDirAt q = true
  free : t.bytes? (target.place cwd) = none
  read : t'.read cwd target = .ok b
  gone : t'.bytes? (source.place cwd) = none
  other : ∀ q, target.place cwd ≠ q → source.place cwd ≠ q → t'.bytes? q = t.bytes? q

lemma Moved.of_addsDirs (hadd : t.AddsDirs t₁) (h : Moved cwd source target b t₁ t') :
    Moved cwd source target b t t' where
  sound := h.sound
  plain := h.plain
  dirs q hq := h.dirs q (hadd.isDirAt hq)
  free := (hadd.bytes? _).symm.trans h.free
  read := h.read
  gone := h.gone
  other q hq hq' := (h.other q hq hq').trans (hadd.bytes? q)

lemma Carried.bytes? (h : t.Carried t' l l') (hl : ∀ r, r ≠ [] → t.bytes? (l ++ r) = none)
    (hl' : ∀ r, t.bytes? (l' ++ r) = none) (hq' : l' ≠ q) (hq : l ≠ q) : t'.bytes? q = t.bytes? q := by
  by_cases hpre' : l' <+: q
  · obtain ⟨r, rfl⟩ := hpre'
    rw [bytes?_congr h.below, hl' r]
    exact hl r fun hr => hq' (by simp [hr])
  · by_cases hpre : l <+: q
    · obtain ⟨r, rfl⟩ := hpre
      rw [hl r fun hr => hq (by simp [hr]), bytes?_eq_none, h.source hpre']
      simp
    · exact bytes?_congr (h.other hpre' hpre)

lemma Carried.plain (h : t.Carried t' l l') (hp : t.Plain) : t'.Plain := by
  intro q s hq
  rw [h q] at hq
  split at hq
  · exact hp _ s hq
  · split at hq
    · cases hq
    · exact hp q s hq

lemma Carried.isDirAt (h : t.Carried t' l l') (hl : ∀ r, t.isDirAt (l ++ r) ≠ true)
    (hl' : ∀ r, t.isDirAt (l' ++ r) ≠ true) (hd : t.isDirAt q = true) : t'.isDirAt q = true := by
  have hq' : ¬l' <+: q := by
    rintro ⟨r, rfl⟩
    exact hl' r hd
  have hq : ¬l <+: q := by
    rintro ⟨r, rfl⟩
    exact hl r hd
  rwa [isDirAt_congr (h.other hq' hq)]

lemma Sound.not_isDirAt_below (hs : t.Sound) (h : t.isDirAt l ≠ true) (r : Place) : t.isDirAt (l ++ r) ≠ true := by
  intro hd
  by_cases hr : r = []
  · exact h (by simpa [hr] using hd)
  · exact not_isDirAt_of_none (hs.node?_below r hr h) hd

lemma not_isDirAt_of_node {y : Node} (h : t.node? l = some y) (hk : ∀ k, y ≠ .dir k) : t.isDirAt l ≠ true := by
  intro hd
  obtain ⟨k, hk'⟩ := isDirAt_iff.1 hd
  exact hk k (Option.some.inj (h.symm.trans hk'))

lemma Replaceable.not_isDirAt {y : Node} (h : t.Replaceable y l) (hk : ∀ k, y ≠ .dir k) : t.isDirAt l ≠ true := by
  rcases h with hnone | ⟨-, z, hz, hzk⟩ | ⟨⟨k, hd⟩, -⟩
  · exact not_isDirAt_of_none hnone
  · exact not_isDirAt_of_node hz hzk
  · exact absurd hd (hk k)

/-- The path still leads to the file once directories were added. -/
lemma AddsDirs.stat (hs : t.Sound) (hp : t.Plain) (hadd : t.AddsDirs t₁) {a : Attrs}
    (h : t.stat cwd p = .ok (l, .file b a)) : t₁.stat cwd p = .ok (l, .file b a) := by
  have hn : t.node? l = some (.file b a) := at?_file.1 (stat_ok hs h).1
  have hat : t₁.at? l = some (.file b a) := at?_file.2 ((hadd.keep (by simp [hn])).trans hn)
  rw [stat_eq_ok, locate_steady hp (hadd.plain hp) (fun _ => hadd.isDirAt) (stat_eq_ok.1 h), hat]

lemma moved_of_rename (hs : t.Sound) (hp : t.Plain) (hno : t.has who.cwd target = false) {a : Attrs}
    (hst : t.stat who.cwd source = .ok (l, .file b a)) (h : rename who source target t = .ok t') :
    Moved who.cwd source target b t t' := by
  have hs' := sound_of_rename hs h
  obtain ⟨d, n, d', n', x, hsrc, hdst, hx, hslash, hcase⟩ := rename_ok hs h
  have hn : t.node? l = some (.file b a) := at?_file.1 (stat_ok hs hst).1
  obtain rfl : l = d ++ [n] := (stat_place hp hst).trans (parentOf_place hp hsrc)
  obtain rfl : x = .file b a := Option.some.inj (hx.symm.trans hn)
  have hend := (hslash (by simp)).2
  have hloc : t.locate who.cwd true target = .ok ⟨d' ++ [n'], t.at? (d' ++ [n'])⟩ :=
    locate_of_parentOf hdst hend fun _ s hl => hp _ s hl
  rcases hcase with ⟨hsame, -⟩ | ⟨-, -, hrep, hnot, hout, hcar⟩
  · rw [← hsame, at?_file.2 hn] at hloc
    rw [has_iff.2 ⟨_, _, stat_eq_ok.2 hloc⟩] at hno
    cases hno
  · have hfree : ∀ r, t.bytes? (d' ++ [n'] ++ r) = none := hrep.bytes? hs hdst (fun _ => hend) hno
    have hnotdir : t.isDirAt (d ++ [n]) ≠ true := not_isDirAt_of_file hn
    have hplace := parentOf_place hp hsrc
    have hplace' := parentOf_place hp hdst
    have hplain : t'.Plain := hcar.plain hp
    have hdirs : ∀ q, t.isDirAt q = true → t'.isDirAt q = true := fun _ =>
      hcar.isDirAt (hs.not_isDirAt_below hnotdir) (hs.not_isDirAt_below (hrep.not_isDirAt (by simp)))
    have htarget : t'.bytes? (d' ++ [n']) = some b := bytes?_eq_some.2 ⟨a, hcar.target.trans hn⟩
    refine ⟨hs', hplain, hdirs, ?_, ?_, ?_, fun q hq hq' => ?_⟩
    · simpa [hplace'] using hfree []
    · exact (read_eq_ok hs' hplain).2 ⟨⟨_, locate_steady hp hplain hdirs hloc⟩, hplace' ▸ htarget⟩
    · rw [hplace, bytes?_eq_none]
      have hgone := hcar.source (r := []) (by simpa using hout)
      rw [List.append_nil] at hgone
      simp [hgone]
    · rw [hplace'] at hq
      rw [hplace] at hq'
      have hbelow : ∀ r, r ≠ [] → t.bytes? (d ++ [n] ++ r) = none := by
        intro r hr
        rw [bytes?_eq_none, hs.node?_below r hr hnotdir]
        simp
      exact hcar.bytes? hbelow hfree hq hq'

lemma moved_of_copy (hs : t.Sound) (hp : t.Plain) {a : Attrs} (hst : t.stat who.cwd source = .ok (l, .file b a))
    (hcop : Copied who.cwd source target t t₂) (hrem : removeFile who source t₂ = .ok t') :
    Moved who.cwd source target b t t' := by
  have hs₂ := hcop.sound hs
  have hs' := sound_of_removeFile hs₂ hrem
  obtain ⟨ls, b', a', l', a'', hst', hl, -, ht⟩ := hcop
  obtain ⟨-, hfile⟩ := Prod.mk.inj (Except.ok.inj (hst'.symm.trans hst))
  obtain ⟨rfl, rfl⟩ := Entry.file.inj hfile
  obtain ⟨d, n, x, hsrc, -, hx, hk, -, ht'⟩ := removeFile_ok hrem
  have hnone : t.node? l' = none := node?_of_locate hs hl
  have hp₂ : t₂.Plain := ht.plain hp (by simp)
  have hp' : t'.Plain := ht'.plain hp₂ (by simp)
  have hplace : source.place who.cwd = d ++ [n] := parentOf_place hp₂ hsrc
  have hplace' : target.place who.cwd = l' := (locate_place hp hl).symm
  have hne : d ++ [n] ≠ l' := by
    rw [← hplace, ← stat_place hp hst]
    rintro rfl
    rw [at?_file.1 (stat_ok hs hst).1] at hnone
    cases hnone
  have hfree : t.bytes? l' = none := by simp [Tree.bytes?, hnone]
  have hdirs : ∀ q, t.isDirAt q = true → t'.isDirAt q = true := fun _ hd =>
    ht'.isDirAt (not_isDirAt_of_node hx hk) (ht.isDirAt (not_isDirAt_of_none hnone) hd)
  have htarget : t'.bytes? l' = some b' := bytes?_eq_some.2 ⟨a'', (ht'.other hne).trans ht.same⟩
  refine ⟨hs', hp', hdirs, hplace' ▸ hfree, ?_, ?_, fun q hq hq' => ?_⟩
  · exact (read_eq_ok hs' hp').2 ⟨⟨_, locate_steady hp hp' hdirs hl⟩, hplace' ▸ htarget⟩
  · rw [hplace, bytes?_eq_none, ht'.same]
    simp
  · rw [hplace'] at hq
    rw [hplace] at hq'
    exact (ht'.bytes? hq').trans (ht.bytes? hq)

/-- Where there are no links, a file that is moved is moved as it is asked for. -/
lemma moved_of_moveFile (hs : t.Sound) (hp : t.Plain) (hread : t.read who.cwd source = .ok b)
    (h : moveFile who source target t = (.ok (), t')) : Moved who.cwd source target b t t' := by
  obtain ⟨⟨s, hl⟩, hb⟩ := (read_eq_ok hs hp).1 hread
  obtain ⟨a, ha⟩ := bytes?_eq_some.1 hb
  have hst : t.stat who.cwd source = .ok (s.place, .file b a) := by
    rw [stat_eq_ok, hl, ← at?_file.2 (locate_place hp hl ▸ ha), ← (locate_ok hs hl).1]
  obtain ⟨-, ⟨⟨e, he⟩, -⟩ | ⟨t₁, hs₁, hadd, hno, ⟨-, hren⟩ | ⟨⟨e, he⟩, -⟩ | ⟨-, t₂, hcop, hrem⟩⟩⟩ :=
    moveFile_cases hs h
  · cases he
  · have hdirs := (hadd.addsDirs hs).2
    exact (moved_of_rename hs₁ (hdirs.plain hp) hno (hdirs.stat hs hp hst) hren).of_addsDirs hdirs
  · cases he
  · have hdirs := (hadd.addsDirs hs).2
    exact (moved_of_copy hs₁ (hdirs.plain hp) (hdirs.stat hs hp hst) hcop hrem).of_addsDirs hdirs

end FileOrganizer.Tree
