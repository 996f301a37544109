import FileOrganizer.Proofs.Tree.Descent

/-! The directories that are made on the way to a place, on a path without `..`. -/

namespace FileOrganizer

namespace Tree

variable {who : Actor} {t t₁ t' : Tree} {cwd d q m : Place} {p p' : Path} {l : List String} {n : String}
  {e : Entry}

lemma has_eq_false (hs : t.Sound) (hp : t.Plain) (h : t.node? (p.place cwd) = none) : t.has cwd p = false := by
  by_contra hhas
  obtain ⟨l, e, hst⟩ := has_iff.1 (by simpa using hhas)
  rw [← stat_place hp hst] at h
  simp [node?_of_at? (stat_ok hs hst).1] at h

/-- A path leads to what its last step names, a path that asks for a directory only if it is one. -/
lemma stat_of_parentOf (hp : t.Plain) (h : t.parentOf cwd p = .ok (d, .name n)) (he : t.at? (d ++ [n]) = some e)
    (hslash : p.endsInSlash = true → e.isDir = true) : t.stat cwd p = .ok (d ++ [n], e) := by
  rw [stat_eq_ok]
  by_cases hs : p.endsInSlash = true
  · obtain ⟨k, ⟨h1, h2, h3⟩, hk⟩ := locate_name h
    rw [hk, lastSteps, if_pos hs]
    cases e with
    | dir a => rw [walkLinks, walk_name h1 h2 h3, he, walk_dot, walk_nil, he]
    | file b a => cases hslash hs
    | link x => cases hslash hs
  · rw [locate_of_parentOf h hs fun _ x hx => hp _ x hx, he]

lemma Descent.segments_nil (h : Descent p []) : Tree.segments p.chars = [] := by
  have hfilter := Path.filter_segments h.body
  change (Tree.segments p.chars).filter (· ≠ ".") = [] at hfilter
  rw [List.filter_eq_nil_iff] at hfilter
  rcases List.eq_nil_or_concat (Tree.segments p.chars) with hnil | ⟨ns, m, hns⟩
  · exact hnil
  · have hm : m = "." := by simpa using hfilter m (by simp [hns])
    exact absurd (by simp [hns, hm]) h.last

lemma isDir_descent (hs : t.Sound) (hp : t.Plain) (h : Descent p l) (hd : t.isDirAt (start cwd p ++ l) = true) :
    t.isDir cwd p = true := by
  rw [isDir_iff]
  rcases List.eq_nil_or_concat l with rfl | ⟨l, n, rfl⟩
  · obtain ⟨a, ha⟩ := at?_of_isDirAt hd
    rw [List.append_nil] at ha hd
    refine ⟨start cwd p, a, stat_eq_ok.2 ((locate_eq_ok hp).2 ⟨h.taken, hd, ?_⟩)⟩
    rw [steps, h.segments_nil]
    split <;> simp [walk_dot, walk_nil, ha]
  · rw [List.concat_eq_append] at h hd
    obtain ⟨a, ha⟩ := at?_of_isDirAt hd
    rw [← List.append_assoc] at ha
    have hup : t.isDirAt (start cwd p ++ l) = true := hs.isDirAt_of_below (r := [n]) (by simpa using hd)
    exact ⟨_, a, stat_of_parentOf hp (parentOf_descent cwd hs hp h hup) ha fun _ => rfl⟩

lemma refused_eq_none : refused p = none ↔ '\x00' ∉ p.chars ∧ p.text ≠ "" ∧ p.text.utf8ByteSize < maxPath := by
  unfold refused
  split_ifs <;> simp_all

lemma refused_of_prefix (h : refused p = none) (hq : p'.chars <+: p.chars) (hne : p'.text ≠ "") :
    refused p' = none := by
  obtain ⟨r, hr⟩ := hq
  have htext : p.text = p'.text ++ String.ofList r := by
    rw [← String.toList_inj, String.toList_append, String.toList_ofList]
    exact hr.symm
  obtain ⟨hnul, -, hlen⟩ := refused_eq_none.1 h
  refine refused_eq_none.2 ⟨fun hc => hnul (by rw [← hr]; exact List.mem_append_left r hc), hne, ?_⟩
  rw [htext, String.utf8ByteSize_append] at hlen
  omega

lemma segments_above {xs : List (List Char)} (h : ∀ x ∈ xs, '/' ∉ x) :
    segments (Path.above xs).chars = (xs.filter (· ≠ [])).map String.ofList := by
  have hpieces := Path.pieces_above h
  rw [Path.pieces] at hpieces
  rw [segments, hpieces]
  split
  · next h0 => simp [h0]
  · simp

/-- The path before the last part leads down along the names before the last one. -/
lemma Descent.parent (h : Descent p (l ++ [n])) (ha : p.isAbsolute = true) :
    ∃ q, p.parent? = some q ∧ q.isAbsolute = true ∧ Descent q l := by
  have hbody : p.body = l.map Part.name ++ [.name n] := by simpa using h.body
  obtain ⟨rest, hq, hpre, hparts, hlast⟩ := Path.parent?_absolute ha hbody
  have hsep := Path.not_mem_of_prefix_tail hpre
  refine ⟨_, hq, Path.isAbsolute_above, (Path.body_above hsep).trans hparts,
    fun m hm => h.short m (by simp [hm]), ?_, ?_⟩
  · refine refused_of_prefix h.taken ?_ fun h0 => ?_
    · rw [Path.chars_above, Path.chars_absolute ha, List.prefix_cons_inj]
      by_cases hrest : rest = []
      · simp [hrest, Text.join]
      · exact Text.join_prefix hpre hrest
    · have habs : (Path.above rest).isAbsolute = true := Path.isAbsolute_above
      simp [Path.isAbsolute, Path.chars, h0] at habs
  · rw [segments_above hsep]
    intro hdot
    rw [List.getLast?_map, Option.map_eq_some_iff] at hdot
    obtain ⟨x, hx, hxdot⟩ := hdot
    have hx' : x = ['.'] := by simpa using congrArg String.toList hxdot
    rcases List.eq_nil_or_concat rest with rfl | ⟨ys, y, rfl⟩
    · simp at hx
    · obtain ⟨c, hc⟩ := hlast y (by simp)
      have hy : y ≠ [] := by
        rintro rfl
        simp [Path.part?] at hc
      obtain rfl : y = x := by simpa [hy] using hx
      simp [hx', Path.part?] at hc

/-- At this place nothing has changed, or there is a directory now that was made on the way to `l`. -/
def Laid (t t' : Tree) (l q : Place) : Prop :=
  t'.node? q = t.node? q ∨
    q <+: l ∧ t.node? q = none ∧ t'.node? q = some (.dir false) ∧ t.isLocked q.dropLast ≠ true

/-- Nothing has changed but that there are new directories on the way to `l`, and `l` perhaps. -/
def Lays (t t' : Tree) (l : Place) : Prop := ∀ q, t.Laid t' l q

lemma Lays.refl (t : Tree) (l : Place) : t.Lays t l := fun _ => Or.inl rfl

lemma Lays.addsDirs (h : t.Lays t' q) : t.AddsDirs t' := fun m =>
  (h m).imp id fun hm => ⟨hm.2.1, hm.2.2.1⟩

lemma AddsDirs.isLocked_ne (h : t.AddsDirs t') (hd : t'.isLocked d ≠ true) : t.isLocked d ≠ true := by
  rw [Ne, isLocked_iff] at hd ⊢
  intro hk
  exact hd ((h.keep (by simp [hk])).trans hk)

lemma Lays.trans_laid {t'' : Tree} {l l' : Place} (h : t.Lays t' l) (h' : t'.Laid t'' l' q) (hl : l <+: l') :
    t.Laid t'' l' q := by
  rcases h' with hq' | ⟨hpre', hn', hq', hlock'⟩
  · rcases h q with hq | ⟨hpre, hn, hq, hlock⟩
    · exact Or.inl (hq'.trans hq)
    · exact Or.inr ⟨hpre.trans hl, hn, hq'.trans hq, hlock⟩
  · rcases h q with hq | ⟨-, -, hq, -⟩
    · exact Or.inr ⟨hpre', hq ▸ hn', hq', h.addsDirs.isLocked_ne hlock'⟩
    · simp [hq] at hn'

lemma Lays.trans {t'' : Tree} {l l' : Place} (h : t.Lays t' l) (h' : t'.Lays t'' l') (hl : l <+: l') :
    t.Lays t'' l' :=
  fun q => h.trans_laid (h' q) hl

lemma Laid.congr {t'' : Tree} {l : Place} (h : t.Laid t' l q) (heq : t''.node? q = t'.node? q) : t.Laid t'' l q := by
  unfold Laid
  rw [heq]
  exact h

lemma Lays.longer {l l' : Place} (h : t.Lays t' l) (hl : l <+: l') : t.Lays t' l' := h.trans (.refl t' l') hl

/-- Nothing has changed, not even the time of a directory, but on the way to `l`, and at `l` perhaps. -/
def Still (t t' : Tree) (l : Place) : Prop := ∀ q, ¬q <+: l → t'.at? q = t.at? q

lemma Still.refl (t : Tree) (l : Place) : t.Still t l := fun _ _ => rfl

lemma Still.trans {t'' : Tree} {l l' : Place} (h : t.Still t' l) (h' : t'.Still t'' l') (hl : l <+: l') :
    t.Still t'' l' :=
  fun q hq => (h' q hq).trans (h q fun hpre => hq (hpre.trans hl))

lemma Lays.of_sets (h : t.Sets t' (d ++ [n]) (some (.dir false))) (hnone : t.node? (d ++ [n]) = none)
    (hlock : t.isLocked d ≠ true) : t.Lays t' (d ++ [n]) := by
  intro q
  by_cases hq : d ++ [n] = q
  · subst hq
    exact Or.inr ⟨List.prefix_rfl, hnone, h.same, by simpa using hlock⟩
  · exact Or.inl (h.other hq)

lemma makeDir_eq_ok (h : t.parentOf who.cwd p = .ok (d, .name n)) (hnone : t.node? (d ++ [n]) = none)
    (hlock : t.isLocked d ≠ true) :
    ∃ t', makeDir who p t = .ok t' ∧ t.Sets t' (d ++ [n]) (some (.dir false)) := by
  refine ⟨((t.put (d ++ [n]) (.dir ⟨who.now, false⟩)).touch d who.now), ?_, sets_put (by simp)⟩
  unfold makeDir
  simp [h, at?_eq_none.2 hnone, hlock]

lemma makeDir_occupied (h : t.parentOf who.cwd p = .ok (d, .name n)) (hsome : t.node? (d ++ [n]) ≠ none) :
    makeDir who p t = .error .occupied := by
  have hat : (t.at? (d ++ [n])).isSome = true := by
    rw [at?_isSome, Option.isSome_iff_ne_none]
    exact hsome
  unfold makeDir
  rw [h]
  dsimp only
  rw [if_pos hat]

end Tree

namespace Disk

open FileOrganizer.Tree

variable {who : Actor} {t t₁ t' : Tree} {d q : Place} {p : Path} {l : List String} {n : String}
  {r : Except Fault Unit} {fuel : Nat}

lemma makeDir_lays (hp : t.Plain) (hbody : p.body = l.map Part.name) (h : Tree.makeDir who p t = .ok t') :
    t.Lays t' (start who.cwd p ++ l) := by
  obtain ⟨d, n, hpar, hnone, hlock, hsets⟩ := makeDir_ok h
  rw [← Path.place_of_body hbody, parentOf_place hp hpar]
  exact .of_sets hsets hnone hlock

lemma makeDir_still (hp : t.Plain) (hbody : p.body = l.map Part.name) (h : Tree.makeDir who p t = .ok t') :
    t.Still t' (start who.cwd p ++ l) := by
  intro q hq
  unfold Tree.makeDir at h
  split at h
  · cases h
  · next d n hpar =>
    rw [← Path.place_of_body hbody, parentOf_place hp hpar] at hq
    split at h
    · cases h
    · split at h
      · cases h
      · cases h
        have hd : q ≠ d := by
          rintro rfl
          exact hq (List.prefix_append q [n])
        have hn : d ++ [n] ≠ q := by
          rintro rfl
          exact hq List.prefix_rfl
        rw [at?_touch hd, at?_put (by simp), if_neg hn]
  · cases h

section

variable {R : Tree → Tree → Place → Prop} (hrefl : ∀ t l, R t t l)
  (htrans : ∀ {t t₁ t' : Tree} {l l' : Place}, R t t₁ l → R t₁ t' l' → l <+: l' → R t t' l')
  (hmake : ∀ {p : Path} {l : List String} {t t' : Tree}, t.Plain → p.body = l.map Part.name →
    Tree.makeDir who p t = .ok t' → R t t' (start who.cwd p ++ l))

include hrefl htrans hmake

/-- What is kept whenever one of the directories on a way is made is kept when all of them are. -/
lemma DirsMade.along (h : DirsMade who p t t') (hs : t.Sound) (hp : t.Plain) (hbody : p.body = l.map Part.name) :
    R t t' (start who.cwd p ++ l) := by
  induction h with
  | refl t => exact hrefl _ _
  | @step q t t₁ t' absolute above made rest ih =>
    obtain ⟨m, hm, hqbody⟩ := List.prefix_map_iff.1 (hbody ▸ above)
    have hup : start who.cwd q ++ m <+: start who.cwd p ++ l := by
      rw [start, start, absolute]
      exact (List.prefix_append_right_inj _).2 hm
    obtain ⟨hs₁, hadd⟩ := makeDir_addsDirs hs made
    exact htrans (htrans (hmake hp hqbody made) (hrefl _ _) hup) (ih hs₁ (hadd.plain hp)) List.prefix_rfl

lemma makeDirsFrom_along (hs : t.Sound) (hp : t.Plain) (hbody : p.body = l.map Part.name)
    (h : makeDirsFrom who fuel p t = (r, t')) : R t t' (start who.cwd p ++ l) :=
  DirsMade.along hrefl htrans hmake (.of_makeDirsFrom h) hs hp hbody

lemma makeParents_along (hs : t.Sound) (hp : t.Plain) (hbody : p.body = l.map Part.name)
    (h : makeParents who p t = (r, t')) : R t t' (start who.cwd p ++ l.dropLast) := by
  unfold makeParents at h
  split at h
  · cases h
    exact hrefl _ _
  · next q hq =>
    obtain ⟨habs, hqbody⟩ := Path.parent?_body hq
    have hstart : start who.cwd q = start who.cwd p := by rw [start, start, habs]
    have hqnames : q.body = l.dropLast.map Part.name := by rw [hqbody, hbody, List.map_dropLast]
    exact hstart ▸ makeDirsFrom_along hrefl htrans hmake hs hp hqnames h

end

lemma makeDirsFrom_lays (hs : t.Sound) (hp : t.Plain) (hbody : p.body = l.map Part.name)
    (h : makeDirsFrom who fuel p t = (r, t')) : t.Lays t' (start who.cwd p ++ l) :=
  makeDirsFrom_along Lays.refl Lays.trans makeDir_lays hs hp hbody h

lemma makeDirs_lays (hs : t.Sound) (hp : t.Plain) (hbody : p.body = l.map Part.name)
    (h : makeDirs who p t = (r, t')) : t.Lays t' (start who.cwd p ++ l) := makeDirsFrom_lays hs hp hbody h

lemma makeParents_lays (hs : t.Sound) (hp : t.Plain) (hbody : p.body = l.map Part.name)
    (h : makeParents who p t = (r, t')) : t.Lays t' (start who.cwd p ++ l.dropLast) :=
  makeParents_along Lays.refl Lays.trans makeDir_lays hs hp hbody h

lemma makeParents_still (hs : t.Sound) (hp : t.Plain) (hbody : p.body = l.map Part.name)
    (h : makeParents who p t = (r, t')) : t.Still t' (start who.cwd p ++ l.dropLast) :=
  makeParents_along Still.refl Still.trans makeDir_still hs hp hbody h

/-- The way to a place can be laid: it is free as far as it is not there, and where it breaks off, a
directory can be made. -/
structure Passable (t : Tree) (l : Place) : Prop where
  way : ∀ m, m <+: l → t.node? m = none ∨ t.isDirAt m = true
  unlocked : ∀ m n, m ++ [n] <+: l → t.node? (m ++ [n]) = none → t.isLocked m ≠ true

lemma Passable.up (h : Passable t (l ++ [n])) : Passable t l where
  way m hm := h.way m (hm.trans (List.prefix_append l [n]))
  unlocked m k hm := h.unlocked m k (hm.trans (List.prefix_append l [n]))

lemma text_of_absolute (ha : p.isAbsolute = true) : p.text ≠ "" := by
  intro h0
  simp [Path.isAbsolute, Path.chars, h0] at ha

lemma start_absolute {cwd : Place} (ha : p.isAbsolute = true) : start cwd p = [] := by rw [start, if_pos ha]

section

variable (htext : p.text ≠ "")

include htext

lemma makeDirsFrom_made (h : Tree.makeDir who p t = .ok t') : makeDirsFrom who (fuel + 1) p t = (.ok (), t') := by
  unfold makeDirsFrom
  rw [if_neg htext, h]

lemma makeDirsFrom_there (h : Tree.makeDir who p t = .error .occupied) (hd : t.isDir who.cwd p = true) :
    makeDirsFrom who (fuel + 1) p t = (.ok (), t) := by
  unfold makeDirsFrom
  rw [if_neg htext, h]
  simp [hd]

lemma makeDirsFrom_below {p' : Path} (h : Tree.makeDir who p t = .error .notFound) (hq : p.parent? = some p')
    (hrec : makeDirsFrom who fuel p' t = (.ok (), t₁)) (hm : Tree.makeDir who p t₁ = .ok t') :
    makeDirsFrom who (fuel + 1) p t = (.ok (), t') := by
  unfold makeDirsFrom
  rw [if_neg htext, h]
  simp only [hq, hrec, hm]

end

/-- The directories on a way that can be laid are made. -/
lemma makeDirsFrom_succeeds (hs : t.Sound) (hp : t.Plain) (ha : p.isAbsolute = true) (h : Descent p l)
    (hfuel : l.length < fuel) (hl : Passable t l) :
    ∃ t', makeDirsFrom who fuel p t = (.ok (), t') ∧ t'.isDirAt l = true := by
  induction fuel generalizing p l with
  | zero => omega
  | succ fuel ih =>
    have htext := text_of_absolute ha
    have hstart : start who.cwd p = [] := start_absolute ha
    have hthere : t.isDirAt l = true → t.isDir who.cwd p = true := fun hd =>
      isDir_descent hs hp h (by simpa [hstart] using hd)
    rcases List.eq_nil_or_concat l with rfl | ⟨l, n, rfl⟩
    · have hmake : Tree.makeDir who p t = .error .occupied := by
        unfold Tree.makeDir parentOf
        simp [h.taken, h.segments_nil]
      exact ⟨t, makeDirsFrom_there htext hmake (hthere rfl), rfl⟩
    · rw [List.concat_eq_append] at h hl hthere hfuel ⊢
      by_cases hup : t.isDirAt l = true
      · have hpar : t.parentOf who.cwd p = .ok (l, .name n) := by
          simpa [hstart] using parentOf_descent who.cwd hs hp h (by simpa [hstart] using hup)
        rcases hl.way (l ++ [n]) List.prefix_rfl with hnone | hdir
        · obtain ⟨t', hm, hsets⟩ := makeDir_eq_ok hpar hnone (hl.unlocked l n List.prefix_rfl hnone)
          exact ⟨t', makeDirsFrom_made htext hm, isDirAt_iff.2 ⟨false, hsets.same⟩⟩
        · have hsome : t.node? (l ++ [n]) ≠ none := by
            obtain ⟨k, hk⟩ := isDirAt_iff.1 hdir
            simp [hk]
          exact ⟨t, makeDirsFrom_there htext (makeDir_occupied hpar hsome) (hthere hdir), hdir⟩
      · have hmiss : t.parentOf who.cwd p = .error .notFound := by
          refine parentOf_missing hp h (by rw [hstart]; rfl) (fun m hm => ?_) (by simpa [hstart] using hup)
          rw [hstart]
          exact hl.way m (hm.trans (List.prefix_append l [n]))
        have hmake : Tree.makeDir who p t = .error .notFound := by
          unfold Tree.makeDir
          rw [hmiss]
        have hlen : l.length < fuel := by
          rw [List.length_append] at hfuel
          simp at hfuel
          omega
        obtain ⟨q, hq, hqa, hqd⟩ := h.parent ha
        obtain ⟨t₁, hrec, hdir⟩ := ih hqa hqd hlen hl.up
        -- What is above `p` is there now, and `p` itself still is not.
        have hlays : t.Lays t₁ l := by
          simpa [start_absolute hqa] using makeDirsFrom_lays hs hp hqd.body hrec
        have hs₁ := (makeDirsFrom_addsDirs hs hrec).1
        have hpar : t₁.parentOf who.cwd p = .ok (l, .name n) := by
          simpa [hstart] using parentOf_descent who.cwd hs₁ (hlays.addsDirs.plain hp) h
            (by simpa [hstart] using hdir)
        have hnone : t₁.node? (l ++ [n]) = none := by
          rcases hlays (l ++ [n]) with hsame | ⟨hpre, -⟩
          · rw [hsame]
            exact hs.node?_below [n] (by simp) hup
          · have hlonger := hpre.length_le
            rw [List.length_append, List.length_singleton] at hlonger
            omega
        have hlock : t₁.isLocked l ≠ true := by
          rcases hlays l with hsame | ⟨-, -, hnew, -⟩
          · rw [Ne, isLocked_iff, hsame]
            intro hk
            exact hup (isDirAt_iff.2 ⟨true, hk⟩)
          · rw [Ne, isLocked_iff, hnew]
            simp
        obtain ⟨t', hm, hsets⟩ := makeDir_eq_ok hpar hnone hlock
        exact ⟨t', makeDirsFrom_below htext hmake hq hrec hm, isDirAt_iff.2 ⟨false, hsets.same⟩⟩

lemma makeDirs_succeeds (who : Actor) (hs : t.Sound) (hp : t.Plain) (ha : p.isAbsolute = true) (h : Descent p l)
    (hl : Passable t l) : ∃ t', makeDirs who p t = (.ok (), t') ∧ t'.isDirAt l = true := by
  refine makeDirsFrom_succeeds hs hp ha h ?_ hl
  rw [Path.parts_of_absolute ha, h.body, List.length_cons, List.length_map]
  omega

lemma makeParents_succeeds (who : Actor) (hs : t.Sound) (hp : t.Plain) (ha : p.isAbsolute = true) (h : Descent p (l ++ [n]))
    (hl : Passable t l) : ∃ t', makeParents who p t = (.ok (), t') ∧ t'.isDirAt l = true ∧ t.Lays t' l := by
  obtain ⟨q, hq, hqa, hqd⟩ := h.parent ha
  obtain ⟨t', hm, hd⟩ := makeDirs_succeeds who hs hp hqa hqd hl
  have hlays := makeDirs_lays hs hp hqd.body hm
  rw [start_absolute hqa] at hlays
  refine ⟨t', ?_, hd, hlays⟩
  unfold makeParents
  rw [hq]
  exact hm

end Disk

end FileOrganizer
