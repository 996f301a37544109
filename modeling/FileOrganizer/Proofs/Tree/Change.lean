import FileOrganizer.Proofs.Table
import FileOrganizer.Proofs.Tree.Growth

/-! What each single change of a tree does when it succeeds: where it acts, what stood there, and that
everything else stays as it is. -/

namespace FileOrganizer.Tree

variable {who : Actor} {t t' : Tree} {p src dst : Path} {l l' d d' q : Place} {n : String}
  {bytes : ByteArray}

lemma mem_of_bytes? {q : Place} {b : ByteArray} (h : t.bytes? q = some b) : ∃ a, (q, .file b a) ∈ t.entries := by
  obtain ⟨a, ha⟩ := bytes?_eq_some.1 h
  have hat := at?_file.2 ha
  by_cases hq : q = []
  · subst hq
    cases hat
  · exact ⟨a, Table.mem_of_get? ((at?_of_ne_nil hq).symm.trans hat)⟩

/-- Soundness can be seen from the entries. -/
lemma sound_of_entries (h : ∀ e ∈ t.entries, t.isDirAt e.1.dropLast = true) : t.Sound := by
  intro p n hn
  have hk : t.entries.get? (p ++ [n]) ≠ none := by
    rw [← at?_of_ne_nil (by simp)]
    exact fun hnone => hn (at?_eq_none.1 hnone)
  obtain ⟨e, he⟩ := Option.ne_none_iff_exists'.1 hk
  simpa using h _ (Table.mem_of_get? he)

lemma childPlaces_eq_nil : t.childPlaces d = [] ↔ ∀ n, t.node? (d ++ [n]) = none := by
  unfold childPlaces
  rw [List.filter_eq_nil_iff]
  constructor
  · intro h n
    by_contra hn
    have hk : d ++ [n] ∈ t.entries.map (·.1) := by
      rw [Table.mem_keys, ← at?_of_ne_nil (by simp)]
      exact fun he => hn (at?_eq_none.1 he)
    simpa using h _ hk
  · intro h p hp hc
    simp only [ne_eq, decide_not, Bool.and_eq_true, Bool.not_eq_eq_eq_not, Bool.not_true,
      decide_eq_false_iff_not, decide_eq_true_eq] at hc
    obtain ⟨hne, hd⟩ := hc
    refine Table.mem_keys.1 hp ?_
    rw [← at?_of_ne_nil hne, at?_eq_none, ← List.dropLast_append_getLast hne, hd]
    exact h _

/-- The tree with another thing, or nothing, at one place. -/
def Sets (t t' : Tree) (l : Place) (x : Option Node) : Prop :=
  ∀ q, t'.node? q = if l = q then x else t.node? q

lemma Sets.same {x : Option Node} (h : t.Sets t' l x) : t'.node? l = x := by
  rw [h, if_pos rfl]

lemma Sets.other {x : Option Node} (h : t.Sets t' l x) (hq : l ≠ q) : t'.node? q = t.node? q := by
  rw [h, if_neg hq]

lemma Sets.again {t'' : Tree} {x y : Option Node} (h : t.Sets t' l x) (h' : t'.Sets t'' l y) :
    t.Sets t'' l y := by
  intro q
  rw [h' q]
  split
  · rfl
  · next hq => exact h.other hq

lemma sets_put {e : Entry} {now : Instant} (h : l ≠ []) :
    t.Sets ((t.put l e).touch d now) l (some e.node) := by
  intro q
  rw [node?_touch, node?_put h]

lemma sets_erase {now : Instant} (h : l ≠ []) : t.Sets ((t.erase l).touch d now) l none := by
  intro q
  rw [node?_touch, node?_erase h]

lemma Sets.sound_some {x : Node} (h : t.Sets t' l (some x)) (hs : t.Sound)
    (hd : t.isDirAt l.dropLast = true) (hl : t.isDirAt l ≠ true ∨ ∃ k, x = .dir k) : t'.Sound := by
  intro q n hn
  have hkeep : ∀ q, l ≠ q → t.isDirAt q = true → t'.isDirAt q = true := fun q hq hd =>
    (isDirAt_congr (h.other hq)).trans hd
  by_cases hq : l = q
  · subst hq
    rcases hl with hl | ⟨k, rfl⟩
    · rw [h.other (by simp)] at hn
      exact absurd (hs l n hn) hl
    · exact isDirAt_iff.2 ⟨k, h.same⟩
  · apply hkeep q hq
    by_cases hqn : l = q ++ [n]
    · simpa [hqn] using hd
    · exact hs q n (by rwa [h.other hqn] at hn)

lemma Sets.sound_none (h : t.Sets t' l none) (hs : t.Sound) (hl : ∀ n, t.node? (l ++ [n]) = none) :
    t'.Sound := by
  intro q n hn
  by_cases hqn : l = q ++ [n]
  · exact absurd (hqn ▸ h.same) hn
  · rw [h.other hqn] at hn
    have hlq : l ≠ q := fun hq => hn (hq ▸ hl n)
    exact (isDirAt_congr (h.other hlq)).trans (hs q n hn)

/-- Putting something where nothing stood, or a thing of the same kind, makes the tree grow. -/
lemma Sets.grows {x : Node} (h : t.Sets t' l (some x))
    (hl : ∀ y, t.node? l = some y → y.Alike x) : t.Grows t' := by
  intro q y hy
  by_cases hq : l = q
  · subst hq
    exact ⟨x, h.same, hl y hy⟩
  · exact ⟨y, (h.other hq).trans hy, Node.alike_refl y⟩

lemma makeDir_ok (h : makeDir who p t = .ok t') :
    ∃ d n, t.parentOf who.cwd p = .ok (d, .name n) ∧ t.node? (d ++ [n]) = none ∧ t.isLocked d ≠ true ∧
      t.Sets t' (d ++ [n]) (some (.dir false)) := by
  unfold makeDir at h
  split at h
  · cases h
  · next d n hp =>
    split at h
    · cases h
    · next hn =>
      split at h
      · cases h
      · next hl =>
        cases h
        exact ⟨d, n, hp, by simpa [at?_isSome] using hn, hl, sets_put (by simp)⟩
  · cases h

lemma addFile_ok (hl : l ≠ []) (h : t.addFile who l bytes = .ok t') :
    t.isLocked l.dropLast ≠ true ∧ t.Sets t' l (some (.file bytes ⟨who.now, false⟩)) := by
  unfold addFile at h
  split at h
  · cases h
  · next hk =>
    cases h
    exact ⟨hk, sets_put hl⟩

lemma writeFile_ok (hs : t.Sound) (h : writeFile who p bytes t = .ok t') :
    (∃ l b a, t.stat who.cwd p = .ok (l, .file b a) ∧ a.readOnly = false ∧
        t.Sets t' l (some (.file bytes { a with mtime := who.now }))) ∨
      ∃ l, t.locate who.cwd true p = .ok ⟨l, none⟩ ∧ t.isLocked l.dropLast ≠ true ∧
        t.Sets t' l (some (.file bytes ⟨who.now, false⟩)) := by
  unfold writeFile at h
  split at h
  · cases h
  · split at h
    · cases h
    · next l b a hl =>
      split at h
      · cases h
      · next hr =>
        cases h
        have hne : l ≠ [] := locate_place_ne_nil hs hl (by simp)
        refine Or.inl ⟨l, b, a, stat_eq_ok.2 hl, by simpa using hr, fun q => ?_⟩
        rw [node?_put hne]
        rfl
    · cases h
    · next l hl =>
      obtain ⟨hk, ht⟩ := addFile_ok (locate_place_ne_nil hs hl (by simp)) h
      exact Or.inr ⟨l, hl, hk, ht⟩

lemma createFile_ok (hs : t.Sound) (h : createFile who p bytes t = .ok t') :
    ∃ l, p.endsInSlash ≠ true ∧ t.locate who.cwd false p = .ok ⟨l, none⟩ ∧
      t.isLocked l.dropLast ≠ true ∧ t.Sets t' l (some (.file bytes ⟨who.now, false⟩)) := by
  unfold createFile at h
  split at h
  · cases h
  · next hp =>
    split at h
    · cases h
    · cases h
    · next l hl =>
      obtain ⟨hk, ht⟩ := addFile_ok (locate_place_ne_nil hs hl (by simp)) h
      exact ⟨l, hp, hl, hk, ht⟩

lemma setAttrs_file {f : Attrs → Attrs} {b : ByteArray} {a : Attrs} (hs : t.Sound)
    (hst : t.stat who.cwd p = .ok (l, .file b a)) (h : setAttrs who p f t = .ok t') :
    t.Sets t' l (some (.file b (f a))) := by
  unfold setAttrs at h
  rw [hst] at h
  cases h
  have hne : l ≠ [] := locate_place_ne_nil hs (stat_eq_ok.1 hst) (by simp)
  intro q
  rw [node?_put hne]
  rfl

lemma isDir_eq_false {e : Entry} : e.isDir = false ↔ ∀ k, e.node ≠ .dir k := by
  cases e <;> simp [Entry.isDir, Entry.node]

lemma removeFile_ok (h : removeFile who p t = .ok t') :
    ∃ d n x, t.parentOf who.cwd p = .ok (d, .name n) ∧ p.endsInSlash ≠ true ∧
      t.node? (d ++ [n]) = some x ∧ (∀ k, x ≠ .dir k) ∧ t.isLocked d ≠ true ∧
      t.Sets t' (d ++ [n]) none := by
  unfold removeFile at h
  split at h
  · cases h
  · next d n hp =>
    split at h
    · cases h
    · next e he =>
      split at h
      · cases h
      · next hk =>
        split at h
        · cases h
        · next hd =>
          split at h
          · cases h
          · next hsl =>
            cases h
            exact ⟨d, n, e.node, hp, hsl, node?_of_at? he, isDir_eq_false.1 (by simpa using hd), hk,
              sets_erase (by simp)⟩
  · cases h

lemma removeFile_eq_ok {x : Node} (hp : t.parentOf who.cwd p = .ok (d, .name n)) (hslash : p.endsInSlash ≠ true)
    (hx : t.node? (d ++ [n]) = some x) (hd : ∀ k, x ≠ .dir k) (hlock : t.isLocked d ≠ true) :
    ∃ t', removeFile who p t = .ok t' ∧ t.Sets t' (d ++ [n]) none := by
  obtain ⟨e, he, rfl⟩ : ∃ e, t.at? (d ++ [n]) = some e ∧ e.node = x := by
    simpa [node?] using hx
  have hdir : e.isDir = false := isDir_eq_false.2 hd
  have hsets : t.Sets ((t.erase (d ++ [n])).touch d who.now) (d ++ [n]) none := sets_erase (by simp)
  refine ⟨_, ?_, hsets⟩
  unfold removeFile
  simp [hp, he, hlock, hdir, hslash]

lemma removeDir_ok (h : removeDir who p t = .ok t') :
    ∃ d n k, t.parentOf who.cwd p = .ok (d, .name n) ∧ t.node? (d ++ [n]) = some (.dir k) ∧
      t.isLocked d ≠ true ∧ (∀ m, t.node? (d ++ [n] ++ [m]) = none) ∧ t.Sets t' (d ++ [n]) none := by
  unfold removeDir at h
  split at h
  · cases h
  · next d n hp =>
    split at h
    · cases h
    · next a he =>
      split at h
      · cases h
      · next hk =>
        split at h
        · next hc =>
          cases h
          exact ⟨d, n, a.readOnly, hp, node?_of_at? he, hk, childPlaces_eq_nil.1 (by simpa using hc),
            sets_erase (by simp)⟩
        · cases h
    · cases h
  · cases h
  · cases h
  · cases h

lemma sound_of_makeDir (hs : t.Sound) (h : makeDir who p t = .ok t') : t'.Sound := by
  obtain ⟨d, n, hp, hn, -, ht⟩ := makeDir_ok h
  exact ht.sound_some hs (by simpa using parentOf_isDirAt hs hp) (Or.inr ⟨false, rfl⟩)

lemma not_isDirAt_of_none (h : t.node? l = none) : t.isDirAt l ≠ true := by
  intro hd
  obtain ⟨k, hk⟩ := isDirAt_iff.1 hd
  simp [hk] at h

lemma not_isDirAt_of_file {b : ByteArray} {a : Attrs} (h : t.node? l = some (.file b a)) :
    t.isDirAt l ≠ true := by
  intro hd
  obtain ⟨k, hk⟩ := isDirAt_iff.1 hd
  simp [hk] at h

lemma node?_of_locate (hs : t.Sound) {cwd : Place} {follow : Bool}
    (h : t.locate cwd follow p = .ok ⟨l, none⟩) : t.node? l = none :=
  at?_eq_none.1 (locate_ok hs h).1.symm

/-- A path at whose place nothing stood leads to the file that was made there. -/
lemma locate_of_made (hs : t.Sound) {cwd : Place} {follow follow' : Bool} {b : ByteArray} {a : Attrs}
    (hl : t.locate cwd follow p = .ok ⟨l, none⟩) (ht : t.Sets t' l (some (.file b a)))
    (hf : follow = true → follow' = true) : t'.locate cwd follow' p = .ok ⟨l, some (.file b a)⟩ := by
  have hg : t.Grows t' := ht.grows fun y hy => by simp [node?_of_locate hs hl] at hy
  have hloc : t'.locate cwd follow' p = .ok ⟨l, t'.at? l⟩ :=
    locate_grows hg hf hl fun _ x hx => by simp [ht.same] at hx
  rwa [at?_file.2 ht.same] at hloc

lemma stat_of_made (hs : t.Sound) {cwd : Place} {follow : Bool} {b : ByteArray} {a : Attrs}
    (hl : t.locate cwd follow p = .ok ⟨l, none⟩) (ht : t.Sets t' l (some (.file b a))) :
    t'.stat cwd p = .ok (l, .file b a) :=
  stat_eq_ok.2 (locate_of_made hs hl ht fun _ => rfl)

lemma sound_of_writeFile (hs : t.Sound) (h : writeFile who p bytes t = .ok t') : t'.Sound := by
  rcases writeFile_ok hs h with ⟨l, b, a, hl, -, ht⟩ | ⟨l, hl, -, ht⟩
  · have hst := stat_ok hs hl
    exact ht.sound_some hs hst.2 (Or.inl (not_isDirAt_of_file (node?_of_at? hst.1)))
  · exact ht.sound_some hs (locate_ok hs hl).2 (Or.inl (not_isDirAt_of_none (node?_of_locate hs hl)))

lemma sound_of_createFile (hs : t.Sound) (h : createFile who p bytes t = .ok t') : t'.Sound := by
  obtain ⟨l, -, hl, -, ht⟩ := createFile_ok hs h
  exact ht.sound_some hs (locate_ok hs hl).2 (Or.inl (not_isDirAt_of_none (node?_of_locate hs hl)))

lemma sound_of_removeFile (hs : t.Sound) (h : removeFile who p t = .ok t') : t'.Sound := by
  obtain ⟨d, n, x, -, -, hx, hd, -, ht⟩ := removeFile_ok h
  refine ht.sound_none hs fun m => hs.node?_below [m] (by simp) fun hdir => ?_
  obtain ⟨k, hk⟩ := isDirAt_iff.1 hdir
  rw [hx] at hk
  exact hd k (Option.some.inj hk)

lemma sound_of_removeDir (hs : t.Sound) (h : removeDir who p t = .ok t') : t'.Sound := by
  obtain ⟨d, n, k, -, -, -, hc, ht⟩ := removeDir_ok h
  exact ht.sound_none hs hc

end FileOrganizer.Tree
