import FileOrganizer.Proofs.Tree.Change

/-! A renaming carries a thing with all that is below it to another place, where nothing was or nothing
is left. -/

namespace FileOrganizer.Tree

variable {who : Actor} {t t' : Tree} {src dst : Path} {l l' d d' q r : Place} {n n' : String}

lemma append_of_prefix_of_not {a b : Place} (h : a <+: b) (hne : a ≠ b) : ∃ r, r ≠ [] ∧ b = a ++ r := by
  obtain ⟨r, rfl⟩ := h
  exact ⟨r, fun hr => hne (by simp [hr]), rfl⟩

lemma prefix_dropLast {a b : Place} {m : String} (h : a <+: b ++ [m]) (hne : a ≠ b ++ [m]) : a <+: b := by
  rcases List.prefix_concat_iff.1 (by simpa using h) with h | h
  · exact absurd h hne
  · exact h

lemma comparable {a b c : Place} (h : a <+: c) (h' : b <+: c) : a <+: b ∨ b <+: a :=
  List.prefix_or_prefix_of_prefix h h'

lemma get?_relocate (es : Table Place Entry) (h : ¬l <+: l') (h' : ¬l' <+: l) :
    Table.get? ((es.filter (fun e => !l'.isPrefixOf e.1)).map fun (p, e) =>
        if l.isPrefixOf p then (l' ++ p.drop l.length, e) else (p, e)) q =
      if l' <+: q then es.get? (l ++ q.drop l'.length) else if l <+: q then none else es.get? q := by
  induction es with
  | nil => simp [Table.get?]
  | cons x es ih =>
    obtain ⟨p, e⟩ := x
    simp only [List.filter_cons]
    by_cases hp' : l' <+: p
    · have hpl : p ≠ l ++ q.drop l'.length := by
        rintro rfl
        rcases comparable hp' (List.prefix_append l _) with hc | hc
        · exact h' hc
        · exact h hc
      rw [if_neg (by simpa using hp'), ih]
      split
      · rw [Table.get?_cons, if_neg hpl]
      · next hq =>
        rw [Table.get?_cons, if_neg (show p ≠ q by rintro rfl; exact hq hp')]
    · rw [if_pos (by simpa [← List.isPrefixOf_iff_prefix] using hp'), List.map_cons, Table.get?_cons, ih]
      by_cases hp : l <+: p
      · obtain ⟨r, rfl⟩ := hp
        simp only [List.isPrefixOf_iff_prefix, List.prefix_append, if_true, List.drop_left]
        by_cases hq' : l' <+: q
        · obtain ⟨r', rfl⟩ := hq'
          simp [Table.get?_cons]
        · have hne : l' ++ r ≠ q := by
            rintro rfl
            exact hq' (List.prefix_append _ _)
          rw [if_neg hne, if_neg hq', if_neg hq']
          split
          · rfl
          · next hq =>
            rw [Table.get?_cons, if_neg (by rintro rfl; exact hq (List.prefix_append _ _))]
      · simp only [List.isPrefixOf_iff_prefix, hp, if_false]
        by_cases hpq : p = q
        · subst hpq
          simp [hp', hp, Table.get?_cons]
        · have hpl : p ≠ l ++ q.drop l'.length := by
            rintro rfl
            exact hp (List.prefix_append _ _)
          simp [Table.get?_cons, hpq, hpl]

lemma at?_relocate (hl : l ≠ []) (hl' : l' ≠ []) (h : ¬l <+: l') (h' : ¬l' <+: l) :
    (t.relocate l l').at? q =
      if l' <+: q then t.at? (l ++ q.drop l'.length) else if l <+: q then none else t.at? q := by
  by_cases hq : q = []
  · subst hq
    simp [at?, hl, hl']
  · rw [at?_of_ne_nil hq, relocate, get?_relocate _ h h']
    split
    · rw [at?_of_ne_nil (by simp [hl])]
    · split
      · rfl
      · rw [at?_of_ne_nil hq]

lemma node?_relocate (hl : l ≠ []) (hl' : l' ≠ []) (h : ¬l <+: l') (h' : ¬l' <+: l) :
    (t.relocate l l').node? q =
      if l' <+: q then t.node? (l ++ q.drop l'.length) else if l <+: q then none else t.node? q := by
  unfold node?
  rw [at?_relocate hl hl' h h']
  split
  · rfl
  · split <;> rfl

/-- What was at and below `l` is at and below `l'`. -/
def Carried (t t' : Tree) (l l' : Place) : Prop :=
  ∀ q, t'.node? q =
    if l' <+: q then t.node? (l ++ q.drop l'.length) else if l <+: q then none else t.node? q

lemma Carried.below (h : t.Carried t' l l') : t'.node? (l' ++ r) = t.node? (l ++ r) := by
  rw [h, if_pos (List.prefix_append _ _), List.drop_left]

lemma Carried.target (h : t.Carried t' l l') : t'.node? l' = t.node? l := by
  simpa using h.below (r := [])

lemma Carried.source (h : t.Carried t' l l') (hc : ¬l' <+: l ++ r) : t'.node? (l ++ r) = none := by
  rw [h, if_neg hc, if_pos (List.prefix_append _ _)]

lemma Carried.other (h : t.Carried t' l l') (hq' : ¬l' <+: q) (hq : ¬l <+: q) : t'.node? q = t.node? q := by
  rw [h, if_neg hq', if_neg hq]

lemma Carried.sound (h : t.Carried t' l (d' ++ [n'])) (hs : t.Sound) (hd : t.isDirAt d' = true)
    (hc : ¬l <+: d' ++ [n']) : t'.Sound := by
  intro p m hm
  by_cases hp' : d' ++ [n'] <+: p
  · obtain ⟨r, rfl⟩ := hp'
    rw [List.append_assoc _ r, h.below, ← List.append_assoc] at hm
    exact (isDirAt_congr h.below).trans (hs _ _ hm)
  · by_cases heq : d' ++ [n'] = p ++ [m]
    · obtain ⟨rfl, -⟩ := List.append_inj' heq rfl
      exact (isDirAt_congr (h.other hp' fun hl => hc (hl.trans (List.prefix_append _ _)))).trans hd
    · have hpm : ¬d' ++ [n'] <+: p ++ [m] := fun hp => hp' (prefix_dropLast hp heq)
      by_cases hl : l <+: p ++ [m]
      · rw [h, if_neg hpm, if_pos hl] at hm
        exact absurd rfl hm
      · rw [h.other hpm hl] at hm
        have hlp : ¬l <+: p := fun hp => hl (hp.trans (List.prefix_append _ _))
        exact (isDirAt_congr (h.other hp' hlp)).trans (hs _ _ hm)

/-- What may stand at the target of a renaming: nothing, or a thing of the same kind with nothing in it. -/
def Replaceable (t : Tree) (x : Node) (l : Place) : Prop :=
  t.node? l = none ∨
    (∀ k, x ≠ .dir k) ∧ (∃ y, t.node? l = some y ∧ ∀ k, y ≠ .dir k) ∨
    (∃ k, x = .dir k) ∧ t.isDirAt l = true ∧ ∀ m, t.node? (l ++ [m]) = none

lemma replaceable_ok {e : Entry} (h : t.replaceable e l = .ok ()) : t.Replaceable e.node l := by
  unfold replaceable at h
  cases hat : t.at? l with
  | none => exact Or.inl (at?_eq_none.1 hat)
  | some e' =>
    right
    rw [hat] at h
    cases hd : e.isDir with
    | true =>
      right
      cases e with
      | file b a => cases hd
      | link x => cases hd
      | dir a =>
        cases e' with
        | file b a => cases h
        | link x => cases h
        | dir a' =>
          dsimp only at h
          split at h
          · next hc => exact ⟨⟨_, rfl⟩, at?_dir hat, childPlaces_eq_nil.1 (by simpa using hc)⟩
          · cases h
    | false =>
      left
      refine ⟨isDir_eq_false.1 hd, e'.node, node?_of_at? hat, isDir_eq_false.1 ?_⟩
      cases e' with
      | file b a => rfl
      | link x => rfl
      | dir a' =>
        cases e with
        | dir a => cases hd
        | file b a => cases h
        | link x => cases h

lemma renameAt_ok {asDir : Bool} (h : renameAt who asDir d l d' l' t = .ok t') (hl : l ≠ []) (hl' : l' ≠ []) :
    ∃ x, t.node? l = some x ∧ ((∀ k, x ≠ .dir k) → asDir = false) ∧
      (l = l' ∧ t' = t ∨
        l ≠ l' ∧ t.isLocked d ≠ true ∧ t.isLocked d' ≠ true ∧ t.Replaceable x l' ∧
        ((∃ k, x = .dir k) → ¬l <+: l') ∧ ¬l' <+: l ∧ (¬l <+: l' → t.Carried t' l l')) := by
  unfold renameAt at h
  split at h
  · cases h
  · next e he =>
    refine ⟨e.node, node?_of_at? he, ?_⟩
    split at h
    · cases h
    · next hslash =>
      refine ⟨fun hk => by simpa [isDir_eq_false.2 hk] using hslash, ?_⟩
      split at h
      · next heq =>
        cases h
        exact Or.inl ⟨heq, rfl⟩
      · next hne =>
        split at h
        · cases h
        · next hin =>
          split at h
          · cases h
          · next hout =>
            split at h
            · cases h
            · next hlock =>
              split at h
              · cases h
              · next hrep =>
                cases h
                simp only [Bool.or_eq_true, not_or] at hlock
                have hout' : ¬l' <+: l := by simpa using hout
                refine Or.inr ⟨hne, hlock.1, hlock.2, replaceable_ok hrep, ?_, hout', ?_⟩
                · rintro ⟨k, hk⟩ hp
                  apply hin
                  cases e <;> simp_all [Entry.node, Entry.isDir]
                · intro hnot q
                  rw [node?_touch, node?_touch, node?_relocate hl hl' hnot hout']

/-- A place that is in a directory is not below something other than a directory. -/
lemma not_prefix_of_not_dir (hs : t.Sound) {x : Node} (hx : t.node? l = some x) (hk : ∀ k, x ≠ .dir k)
    (hd : t.isDirAt d' = true) (hne : l ≠ d' ++ [n']) : ¬l <+: d' ++ [n'] := by
  intro hp
  have hdir : t.isDirAt l = true := by
    obtain ⟨r, hr⟩ := prefix_dropLast hp hne
    by_cases hnil : r = []
    · subst hnil
      rw [List.append_nil] at hr
      exact hr ▸ hd
    · obtain ⟨k, hk⟩ := isDirAt_iff.1 hd
      exact hs.isDirAt_prefix r hnil (by simp [hr, hk])
  obtain ⟨k, hk'⟩ := isDirAt_iff.1 hdir
  rw [hx] at hk'
  exact hk k (Option.some.inj hk')

/-- What a renaming that succeeds has done: nothing, as both paths name one place, or carried the thing
over nothing or over a thing of its own kind. -/
lemma rename_ok (hs : t.Sound) (h : rename who src dst t = .ok t') :
    ∃ d n d' n' x, t.parentOf who.cwd src = .ok (d, .name n) ∧ t.parentOf who.cwd dst = .ok (d', .name n') ∧
      t.node? (d ++ [n]) = some x ∧
      ((∀ k, x ≠ .dir k) → src.endsInSlash ≠ true ∧ dst.endsInSlash ≠ true) ∧
      (d ++ [n] = d' ++ [n'] ∧ t' = t ∨
        t.isLocked d ≠ true ∧ t.isLocked d' ≠ true ∧ t.Replaceable x (d' ++ [n']) ∧
        ¬d ++ [n] <+: d' ++ [n'] ∧ ¬d' ++ [n'] <+: d ++ [n] ∧ t.Carried t' (d ++ [n]) (d' ++ [n'])) := by
  unfold rename at h
  split at h
  · cases h
  · next d s hsrc =>
    split at h
    · cases h
    · next d' s' hdst =>
      split at h
      · next n n' =>
        obtain ⟨x, hx, hslash, hcase⟩ := renameAt_ok h (by simp) (by simp)
        refine ⟨d, n, d', n', x, hsrc, hdst, hx, fun hk => by simpa using hslash hk, ?_⟩
        rcases hcase with hsame | ⟨hne, hlock, hlock', hrep, hdir, hout, hcar⟩
        · exact Or.inl hsame
        · have hnot : ¬d ++ [n] <+: d' ++ [n'] := by
            by_cases hk : ∃ k, x = .dir k
            · exact hdir hk
            · exact not_prefix_of_not_dir hs hx (fun k hk' => hk ⟨k, hk'⟩) (parentOf_isDirAt hs hdst) hne
          exact Or.inr ⟨hlock, hlock', hrep, hnot, hout, hcar hnot⟩
      · cases h

/-- What a renaming carries keeps its times, those of the directories in it as well. -/
lemma at?_of_rename (h : rename who src dst t = .ok t') (hsrc : t.parentOf who.cwd src = .ok (d, .name n))
    (hdst : t.parentOf who.cwd dst = .ok (d', .name n')) (hnot : ¬d ++ [n] <+: d' ++ [n'])
    (hout : ¬d' ++ [n'] <+: d ++ [n]) (r : Place) : t'.at? (d' ++ [n'] ++ r) = t.at? (d ++ [n] ++ r) := by
  have hd : d' ++ [n'] ++ r ≠ d := by
    rintro rfl
    exact hout (by simp)
  have hd' : d' ++ [n'] ++ r ≠ d' := by simp
  rw [rename, hsrc] at h
  dsimp only at h
  rw [hdst] at h
  dsimp only [renameAt] at h
  split at h
  · cases h
  · split at h
    · cases h
    · rw [if_neg (show d ++ [n] ≠ d' ++ [n'] from fun heq => hnot (heq ▸ List.prefix_rfl))] at h
      split at h
      · cases h
      · split at h
        · cases h
        · split at h
          · cases h
          · split at h
            · cases h
            · cases h
              rw [at?_touch hd', at?_touch hd, at?_relocate (by simp) (by simp) hnot hout,
                if_pos (List.prefix_append _ r), List.drop_left]

lemma sound_of_rename (hs : t.Sound) (h : rename who src dst t = .ok t') : t'.Sound := by
  obtain ⟨d, n, d', n', x, -, hdst, -, -, ⟨-, rfl⟩ | ⟨-, -, -, hnot, -, hcar⟩⟩ := rename_ok hs h
  · exact hs
  · exact hcar.sound hs (parentOf_isDirAt hs hdst) hnot

end FileOrganizer.Tree
