import FileOrganizer.Proofs.Tree.Steady

/-! A file that is copied or moved keeps its time and its write protection. -/

namespace FileOrganizer.Disk

open FileOrganizer.Tree

section

variable {α β : Type} {t t' : Tree} {m : Disk α} {k : α → Disk β} {x : α} {y : β}

lemma bind_eq_ok (h : (m >>= k) t = (.ok y, t')) : ∃ x t₁, m t = (.ok x, t₁) ∧ k x t₁ = (.ok y, t') := by
  rw [run_bind] at h
  split at h
  · next x t₁ hm => exact ⟨x, t₁, hm, h⟩
  · cases h

lemma ask_eq_ok {f : Tree → Except OsError α} (h : ask f t = (.ok x, t')) : f t = .ok x ∧ t' = t := by
  unfold ask at h
  cases hf : f t with
  | ok y =>
    rw [hf] at h
    cases h
    exact ⟨rfl, rfl⟩
  | error e =>
    rw [hf] at h
    cases h

lemma change_eq_ok {f : Tree → Except OsError Tree} {u : Unit} (h : change f t = (.ok u, t')) : f t = .ok t' := by
  unfold change at h
  cases hf : f t with
  | ok t₁ =>
    rw [hf] at h
    cases h
    rfl
  | error e =>
    rw [hf] at h
    cases h

lemma explain_eq_ok {g : Fault → Fault} (h : explain g m t = (.ok x, t')) : m t = (.ok x, t') := by
  unfold explain at h
  split at h
  · cases h
  · exact h

end

variable {who : Actor} {t t' : Tree} {source target : Path} {l : Place} {b : ByteArray} {a : Attrs}

lemma duplicate_sets (hs : t.Sound) (hno : t.has who.cwd target = false)
    (hst : t.stat who.cwd source = .ok (l, .file b a)) (h : duplicate who source target t = (.ok (), t')) :
    ∃ l', t.locate who.cwd true target = .ok ⟨l', none⟩ ∧ t.Sets t' l' (some (.file b a)) := by
  obtain ⟨x, t₀, hask, h⟩ := bind_eq_ok h
  obtain ⟨hx, rfl⟩ := ask_eq_ok hask
  obtain rfl := Except.ok.inj (hst.symm.trans hx)
  obtain ⟨_, t₁, hwrite, h⟩ := bind_eq_ok h
  have hw := change_eq_ok hwrite
  rcases writeFile_ok hs hw with ⟨l', b', a', hl, -⟩ | ⟨l', hl, -, hset⟩
  · rw [has_iff.2 ⟨l', _, hl⟩] at hno
    cases hno
  · have hst₁ := stat_of_made hs hl hset
    exact ⟨l', hl, hset.again (setAttrs_file (sound_of_writeFile hs hw) hst₁ (change_eq_ok h))⟩

lemma copyFile_sets (hs : t.Sound) (hp : t.Plain) (hst : t.stat who.cwd source = .ok (l, .file b a))
    (h : copyFile who source target t = (.ok (), t')) : ∃ t₁, t.AddsDirs t₁ ∧ t₁.node? (target.place who.cwd) = none ∧
      t₁.Sets t' (target.place who.cwd) (some (.file b a)) := by
  obtain ⟨_, t₁, hclear, h⟩ := bind_eq_ok h
  obtain ⟨hs₁, hpaved, hno⟩ := clear_cases hs hclear
  have hadd := (hpaved.addsDirs hs).2
  obtain ⟨l', hl, hset⟩ := duplicate_sets hs₁ (hno rfl) (hadd.stat hs hp hst) h
  obtain rfl := locate_place (hadd.plain hp) hl
  exact ⟨t₁, hadd, node?_of_locate hs₁ hl, hset⟩

/-- At the target stands just what stood at the source. -/
lemma moveFile_node (hs : t.Sound) (hp : t.Plain) (hst : t.stat who.cwd source = .ok (l, .file b a))
    (h : moveFile who source target t = (.ok (), t')) : t'.node? (target.place who.cwd) = some (.file b a) := by
  obtain ⟨_, t₁, hclear, h⟩ := bind_eq_ok h
  obtain ⟨hs₁, hpaved, -⟩ := clear_cases hs hclear
  have hadd := (hpaved.addsDirs hs).2
  have hp₁ := hadd.plain hp
  have hst₁ := hadd.stat hs hp hst
  have hfile := at?_file.1 (stat_ok hs₁ hst₁).1
  rw [run_bind, run_get] at h
  dsimp only at h
  cases hren : Tree.rename who source target t₁ with
  | ok t₂ =>
    rw [hren] at h
    cases h
    obtain ⟨d, n, d', n', x, hsrc, hdst, hx, -, hcase⟩ := rename_ok hs₁ hren
    obtain rfl : l = d ++ [n] := (stat_place hp₁ hst₁).trans (parentOf_place hp₁ hsrc)
    obtain rfl : x = .file b a := Option.some.inj (hx.symm.trans hfile)
    rw [parentOf_place hp₁ hdst]
    rcases hcase with ⟨hsame, rfl⟩ | ⟨-, -, -, -, -, hcar⟩
    · exact hsame ▸ hfile
    · exact hcar.target.trans hfile
  | error e =>
    rw [hren] at h
    dsimp only at h
    split at h
    · obtain ⟨_, t₂, hcopy, hrem⟩ := bind_eq_ok h
      have hcop := explain_eq_ok hcopy
      obtain ⟨t₃, hadd₃, hfree, hset⟩ := copyFile_sets hs₁ hp₁ hst₁ hcop
      have hp₂ : t₂.Plain := hset.plain (hadd₃.plain hp₁) (by simp)
      obtain ⟨d, n, x, hsrc, -, -, -, -, hgone⟩ := removeFile_ok (change_eq_ok hrem)
      have hne : d ++ [n] ≠ target.place who.cwd := by
        rw [← parentOf_place hp₂ hsrc, ← stat_place hp₁ hst₁]
        rintro rfl
        rw [hadd₃.keep (by simp [hfile]), hfile] at hfree
        cases hfree
      exact (hgone.other hne).trans hset.same
    · cases h

end FileOrganizer.Disk
