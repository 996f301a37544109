import FileOrganizer.Proofs.Scan

/-! A tidy tree stays tidy: each change puts things under proper names and no name down twice, so that files can be
moved and copied in it as often as one likes. -/

namespace FileOrganizer

open FileOrganizer.Tree

variable {who : Actor} {t t' : Tree} {l l' d : Place} {p src dst : Path} {bytes : ByteArray}

namespace Tree

lemma single_touch {now : Instant} (h : t.entries.Single) : (t.touch d now).entries.Single := by
  unfold touch
  split
  · exact h.put
  · exact h

/-- Nothing is left at the target, so that what goes there meets nothing. -/
lemma single_relocate (h : t.entries.Single) : (t.relocate l l').entries.Single := by
  have hkeys : (t.relocate l l').entries.map (·.1) = ((t.entries.filter fun e => !l'.isPrefixOf e.1).map (·.1)).map
      fun p => if l.isPrefixOf p then l' ++ p.drop l.length else p := by
    unfold relocate
    rw [List.map_map, List.map_map]
    refine List.map_congr_left fun e _ => ?_
    dsimp only [Function.comp_apply]
    split <;> rfl
  rw [Table.Single, hkeys]
  refine List.Nodup.map_on ?_ (h.sublist (List.filter_sublist.map _))
  have hout : ∀ p ∈ (t.entries.filter fun e => !l'.isPrefixOf e.1).map (·.1), ¬l' <+: p := by
    intro p hp
    obtain ⟨e, he, rfl⟩ := List.mem_map.1 hp
    simpa [← List.isPrefixOf_iff_prefix] using (List.mem_filter.1 he).2
  intro p hp q hq heq
  simp only [List.isPrefixOf_iff_prefix] at heq
  split_ifs at heq with hlp hlq hlq
  · obtain ⟨r, rfl⟩ := hlp
    obtain ⟨r', rfl⟩ := hlq
    simpa using heq
  · exact absurd (heq ▸ List.prefix_append _ _) (hout q hq)
  · exact absurd (heq ▸ List.prefix_append _ _) (hout p hp)
  · exact heq

/-- The top is there whatever is put down for it. -/
lemma node?_put_nil {e : Entry} {q : Place} : (t.put [] e).node? q = t.node? q := by
  by_cases hq : q = []
  · subst hq
    rfl
  · unfold node?
    rw [at?_of_ne_nil hq, at?_of_ne_nil hq, put, Table.get?_put, if_neg fun heq => hq heq.symm]

lemma single_makeDir (h : t.entries.Single) (hmake : makeDir who p t = .ok t') : t'.entries.Single := by
  unfold makeDir at hmake
  split at hmake
  · cases hmake
  · split_ifs at hmake
    cases hmake
    exact single_touch h.put
  · cases hmake

lemma single_addFile (h : t.entries.Single) (hadd : t.addFile who l bytes = .ok t') : t'.entries.Single := by
  unfold addFile at hadd
  split_ifs at hadd
  cases hadd
  exact single_touch h.put

lemma single_writeFile (h : t.entries.Single) (hwrite : writeFile who p bytes t = .ok t') : t'.entries.Single := by
  unfold writeFile at hwrite
  split at hwrite
  · cases hwrite
  · split at hwrite
    · cases hwrite
    · split_ifs at hwrite
      cases hwrite
      exact h.put
    · cases hwrite
    · exact single_addFile h hwrite

lemma single_removeFile (h : t.entries.Single) (hremove : removeFile who p t = .ok t') : t'.entries.Single := by
  unfold removeFile at hremove
  split at hremove
  · cases hremove
  · split at hremove
    · cases hremove
    · split_ifs at hremove
      cases hremove
      exact single_touch h.erase
  · cases hremove

lemma single_rename (h : t.entries.Single) (hrename : rename who src dst t = .ok t') : t'.entries.Single := by
  unfold rename at hrename
  split at hrename
  · cases hrename
  · split at hrename
    · cases hrename
    · split at hrename
      · unfold renameAt at hrename
        split at hrename
        · cases hrename
        · split_ifs at hrename
          · cases hrename
            exact h
          · split at hrename
            · cases hrename
            · cases hrename
              exact single_touch (single_touch (single_relocate h))
      · cases hrename

namespace Tidy

variable (ht : t.Tidy)

include ht

lemma of_sets {x : Option Node} (hset : t.Sets t' l x) (hs' : t'.Sound) (hsingle : t'.entries.Single)
    (hx : ∀ s, x ≠ some (.link s)) (hl : ∀ n ∈ l, Proper n) : t'.Tidy where
  sound := hs'
  plain := hset.plain ht.plain hx
  single := hsingle
  proper q hq := by
    by_cases heq : l = q
    · exact heq ▸ hl
    · rw [hset.other heq] at hq
      exact ht.proper q hq

lemma congr (h : ∀ q, t'.node? q = t.node? q) (hsingle : t'.entries.Single) : t'.Tidy where
  sound q n hn := (isDirAt_congr (h q)).trans (ht.sound q n (h _ ▸ hn))
  plain q s hq := ht.plain q s (h q ▸ hq)
  single := hsingle
  proper q hq := ht.proper q (h q ▸ hq)

lemma setAttrs {f : Attrs → Attrs} (h : Tree.setAttrs who p f t = .ok t') : t'.Tidy := by
  unfold Tree.setAttrs at h
  split at h
  · cases h
  · next l b a hst =>
    cases h
    obtain ⟨hat, hup⟩ := stat_ok ht.sound hst
    have hfile := at?_file.1 hat
    have hset : t.Sets (t.put l (.file b (f a))) l (some (.file b (f a))) := fun q => by
      rw [node?_put (locate_place_ne_nil ht.sound (stat_eq_ok.1 hst) (by simp))]
      rfl
    exact ht.of_sets hset (hset.sound_some ht.sound hup (Or.inl (not_isDirAt_of_file hfile))) ht.single.put (by simp)
      (ht.proper l (by simp [hfile]))
  · next l a hst =>
    cases h
    obtain ⟨hat, hup⟩ := stat_ok ht.sound hst
    by_cases hnil : l = []
    · subst hnil
      exact ht.congr (fun q => node?_put_nil) ht.single.put
    · have hset : t.Sets (t.put l (.dir (f a))) l (some (.dir (f a).readOnly)) := fun q => by
        rw [node?_put hnil]
        rfl
      exact ht.of_sets hset (hset.sound_some ht.sound hup (Or.inr ⟨_, rfl⟩)) ht.single.put (by simp)
        (ht.proper l (by simp [node?_of_at? hat]))
  · cases h
    exact ht

lemma removeFile (h : Tree.removeFile who p t = .ok t') : t'.Tidy := by
  obtain ⟨d, n, x, -, -, hx, -, -, hset⟩ := removeFile_ok h
  exact ht.of_sets hset (sound_of_removeFile ht.sound h) (single_removeFile ht.single h) (by simp)
    (ht.proper _ (by simp [hx]))

section

variable (hcwd : ∀ n ∈ who.cwd, Proper n)

include hcwd

lemma makeDir (h : Tree.makeDir who p t = .ok t') : t'.Tidy := by
  obtain ⟨d, n, hpar, -, -, hset⟩ := makeDir_ok h
  exact ht.of_sets hset (sound_of_makeDir ht.sound h) (single_makeDir ht.single h) (by simp)
    (parentOf_place ht.plain hpar ▸ Path.proper_place hcwd)

lemma writeFile (h : Tree.writeFile who p bytes t = .ok t') : t'.Tidy := by
  have hs' := sound_of_writeFile ht.sound h
  have hsingle := single_writeFile ht.single h
  rcases writeFile_ok ht.sound h with ⟨l, b, a, hst, -, hset⟩ | ⟨l, hloc, -, hset⟩
  · exact ht.of_sets hset hs' hsingle (by simp) (stat_place ht.plain hst ▸ Path.proper_place hcwd)
  · obtain rfl : l = p.place who.cwd := locate_place ht.plain hloc
    exact ht.of_sets hset hs' hsingle (by simp) (Path.proper_place hcwd)

lemma rename (h : Tree.rename who src dst t = .ok t') : t'.Tidy := by
  have hs' := sound_of_rename ht.sound h
  have hsingle := single_rename ht.single h
  obtain ⟨d, n, d', n', x, -, hdst, -, -, ⟨-, rfl⟩ | ⟨-, -, -, hnot, hout, hcar⟩⟩ := rename_ok ht.sound h
  · exact ht
  · refine ⟨hs', hcar.plain ht.plain, hsingle, fun q hq m hm => ?_⟩
    rw [hcar q] at hq
    split_ifs at hq with hin hfrom
    · -- Below the target the names are those of the target, or of what was below the source.
      obtain ⟨r, rfl⟩ := hin
      rw [List.drop_left] at hq
      rcases List.mem_append.1 hm with hm | hm
      · exact (parentOf_place ht.plain hdst ▸ Path.proper_place hcwd) m hm
      · exact ht.proper _ hq m (List.mem_append_right _ hm)
    · exact absurd rfl hq
    · exact ht.proper q hq m hm

end

end Tidy

end Tree

namespace Disk

variable {α β : Type}

/-- The work leaves a tidy tree tidy, be it done or not. -/
def Tidies (work : Disk α) : Prop := ∀ t : Tree, t.Tidy → (work t).2.Tidy

lemma Tidies.bind {m : Disk α} {k : α → Disk β} (hm : Tidies m) (hk : ∀ a, Tidies (k a)) : Tidies (m >>= k) := by
  intro t ht
  have ht' := hm t ht
  rw [run_bind]
  rcases hrun : m t with ⟨e | a, t'⟩ <;> rw [hrun] at ht'
  · exact ht'
  · exact hk a t' ht'

lemma Tidies.change {f : Tree → Except OsError Tree} (h : ∀ t t', t.Tidy → f t = .ok t' → t'.Tidy) :
    Tidies (change f) := by
  intro t ht
  unfold Disk.change
  split
  · next t' hf => exact h t t' ht hf
  · exact ht

lemma tidies_ask (f : Tree → Except OsError α) : Tidies (ask f) := by
  intro t ht
  unfold ask
  split <;> exact ht

lemma tidies_stop (e : Fault) : Tidies (stop e : Disk α) := fun _ ht => ht

lemma Tidies.explain {work : Disk α} (h : Tidies work) (f : Fault → Fault) : Tidies (explain f work) := by
  intro t ht
  have ht' := h t ht
  unfold Disk.explain
  split
  · next hrun => rwa [hrun] at ht'
  · exact ht'

variable {target : Path} (hcwd : ∀ n ∈ who.cwd, Proper n)

include hcwd

lemma tidies_makeDirsFrom (fuel : Nat) (p : Path) : Tidies (makeDirsFrom who fuel p) := by
  induction fuel generalizing p with
  | zero => exact .change fun _ _ ht => ht.makeDir hcwd
  | succ fuel ih =>
    intro t ht
    unfold makeDirsFrom
    by_cases htext : p.text = ""
    · rwa [if_pos htext]
    rw [if_neg htext]
    split
    · next hmake => exact ht.makeDir hcwd hmake
    · split
      · exact ht
      · next q _ =>
        have ht' := ih q t ht
        split
        · next hrun => rwa [hrun] at ht'
        · next t₁ hrun =>
          rw [hrun] at ht'
          split
          · next hmake => exact ht'.makeDir hcwd hmake
          · exact ht'
    · exact ht

lemma tidies_makeParents (p : Path) : Tidies (makeParents who p) := by
  intro t ht
  unfold makeParents
  split
  · exact ht
  · exact tidies_makeDirsFrom hcwd _ _ t ht

lemma tidies_clear : Tidies (clear who target) := by
  refine (tidies_makeParents hcwd target).bind fun _ t ht => ?_
  rw [run_bind, run_get]
  dsimp only
  split_ifs
  · exact ht
  · exact ht

lemma tidies_duplicate : Tidies (duplicate who src target) := by
  refine (tidies_ask _).bind fun x => ?_
  split
  · exact (Tidies.change fun _ _ ht => ht.writeFile hcwd).bind fun _ => .change fun _ _ ht => ht.setAttrs
  · exact tidies_stop _

lemma tidies_copyFile : Tidies (copyFile who src target) :=
  (tidies_clear hcwd).bind fun _ => tidies_duplicate hcwd

lemma tidies_moveFile : Tidies (moveFile who src target) := by
  refine (tidies_clear hcwd).bind fun _ t ht => ?_
  rw [run_bind, run_get]
  dsimp only
  cases hrename : Tree.rename who src target t with
  | ok t' => exact ht.rename hcwd hrename
  | error e =>
    dsimp only
    split_ifs
    · exact (((tidies_copyFile hcwd).explain _).bind fun _ => .change fun _ _ ht => ht.removeFile) t ht
    · exact ht

end Disk

end FileOrganizer
