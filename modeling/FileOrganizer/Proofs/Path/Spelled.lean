import FileOrganizer.Proofs.Path.Absolute
import FileOrganizer.Proofs.Tree.Linked
import FileOrganizer.Proofs.Tree.Way
import Mathlib.Data.List.Flatten

/-! A path that is made absolute is no longer than before if it was absolute, and leads to where it led, through symbolic
links or not. -/

namespace FileOrganizer

open FileOrganizer.Tree FileOrganizer.Disk

variable {cwd here : Place} {t : Tree} {p q full : Path} {n : String} {follow : Bool}
  {xs : List (List Char)} {c : Part} {ps : List Part} {ms ns : List String}

namespace Text

lemma join_cons {sep x : List Char} : join sep (x :: xs) = x ++ (xs.map (sep ++ ·)).flatten := by
  induction xs generalizing x with
  | nil => simp [join]
  | cons y ys ih =>
    change x ++ sep ++ join sep (y :: ys) = _
    rw [ih]
    simp

lemma join_filter_sublist (sep : List Char) (xs : List (List Char)) (P : List Char → Bool) :
    (join sep (xs.filter P)).Sublist (join sep xs) := by
  have hflat : ∀ ys : List (List Char), (((ys.filter P).map (sep ++ ·)).flatten).Sublist ((ys.map (sep ++ ·)).flatten) :=
    fun ys => (List.filter_sublist.map _).flatten
  cases xs with
  | nil => exact .slnil
  | cons x xs =>
    rw [join_cons]
    by_cases hx : P x = true
    · rw [List.filter_cons_of_pos hx, join_cons]
      exact (List.Sublist.refl x).append (hflat xs)
    · rw [List.filter_cons_of_neg hx]
      refine .trans ?_ (List.sublist_append_right x _)
      refine .trans ?_ (hflat xs)
      cases xs.filter P with
      | nil => exact .slnil
      | cons y ys =>
        rw [join_cons, List.map_cons, List.flatten_cons, List.append_assoc]
        exact List.sublist_append_right sep _

lemma size_le_of_sublist {cs ds : List Char} (h : cs.Sublist ds) :
    (String.ofList cs).utf8ByteSize ≤ (String.ofList ds).utf8ByteSize := by
  induction h with
  | slnil => exact le_rfl
  | cons c h ih =>
    rw [String.ofList_cons, String.utf8ByteSize_append]
    omega
  | cons_cons c h ih =>
    rw [String.ofList_cons, String.ofList_cons, String.utf8ByteSize_append, String.utf8ByteSize_append]
    omega

end Text

namespace Path

lemma not_endsInSlash_join (hc : Ordinary c) (hp : p.text ≠ "") : (p.join ⟨c.text⟩).endsInSlash ≠ true := by
  obtain ⟨hne, hslash⟩ := text_toList hc
  have hjoin := chars_join hp (text_of_ordinary hc).2.2
  obtain ⟨ys, hys⟩ : ∃ ys, (p.join ⟨c.text⟩).chars = ys ++ c.text.toList := by
    rw [hjoin]
    split
    · exact ⟨_, rfl⟩
    · exact ⟨p.chars ++ ['/'], by simp [chars]⟩
  intro hend
  rw [endsInSlash, hys, List.getLast?_append_of_ne_nil _ hne, beq_iff_eq] at hend
  exact hslash (List.mem_of_getLast? hend)

/-- The spelling of a path that parts are put after one by one. -/
lemma chars_spelled (hps : ∀ c ∈ ps, Ordinary c) (hp : p.text ≠ "") (hend : p.endsInSlash ≠ true) :
    (p.spelled ps).chars = p.chars ++ (ps.map ('/' :: ·.text.toList)).flatten := by
  induction ps generalizing p with
  | nil => simp [spelled]
  | cons c ps ih =>
    have hc := hps c (by simp)
    have hjoin := chars_join hp (text_of_ordinary hc).2.2
    rw [if_neg hend] at hjoin
    rw [spelled, List.foldl_cons, ← spelled, ih (fun d hd => hps d (by simp [hd])) (join_text_ne hp)
      (not_endsInSlash_join hc hp), hjoin]
    simp [chars]

lemma chars_top (hps : ∀ c ∈ ps, Ordinary c) :
    (p.top.spelled ps).chars = p.top.chars ++ Text.join ['/'] (ps.map (·.text.toList)) := by
  obtain ⟨htext, hslash, -⟩ := top_cases p
  cases ps with
  | nil => simp [spelled, Text.join]
  | cons c ps =>
    have hc := hps c (by simp)
    have hjoin := chars_join htext (text_of_ordinary hc).2.2
    rw [if_pos hslash] at hjoin
    rw [spelled, List.foldl_cons, ← spelled, chars_spelled (fun d hd => hps d (by simp [hd])) (join_text_ne htext)
      (not_endsInSlash_join hc htext), hjoin, List.map_cons, Text.join_cons]
    simp [chars, Function.comp_def]

lemma segments_top (hps : ∀ c ∈ ps, Ordinary c) : Tree.segments (p.top.spelled ps).chars = ps.map Part.text := by
  have hslash : ∀ x ∈ ps.map (·.text.toList), '/' ∉ x := by
    intro x hx
    obtain ⟨c, hc, rfl⟩ := List.mem_map.1 hx
    exact (text_toList (hps c hc)).2
  have hne : ∀ x ∈ ps.map (·.text.toList), x ≠ [] := by
    intro x hx
    obtain ⟨c, hc, rfl⟩ := List.mem_map.1 hx
    exact (text_toList (hps c hc)).1
  have hsplit :
      (Text.split '/' (Text.join ['/'] (ps.map (·.text.toList)))).filter (· ≠ []) = ps.map (·.text.toList) := by
    by_cases hnil : ps = []
    · simp [hnil, Text.join, Text.split]
    · rw [Text.split_join (by simpa using hnil) hslash, List.filter_eq_self.2 (by simpa using hne)]
  have htop : ∀ cs, (Text.split '/' (p.top.chars ++ cs)).filter (· ≠ []) = (Text.split '/' cs).filter (· ≠ []) := by
    intro cs
    unfold top
    split <;> simp [chars, Text.split]
  rw [Tree.segments, chars_top hps, htop, hsplit]
  simp

lemma filterMap_part? : (xs.filterMap part?).map (·.text.toList) = xs.filter fun x => (part? x).isSome := by
  induction xs with
  | nil => rfl
  | cons x xs ih =>
    cases hx : part? x with
    | none => simpa [hx] using ih
    | some c =>
      have htext : c.text.toList = x := by
        unfold part? at hx
        split at hx
        · cases hx
        · split at hx
          · next h =>
            obtain rfl := Option.some.inj hx
            exact h.symm
          · obtain rfl := Option.some.inj hx
            exact String.toList_ofList
      simp [hx, htext, ih]

/-- Made absolute, an absolute path has no more to it than before. -/
lemma top_sublist (ha : p.isAbsolute = true) : (p.top.spelled p.body).chars.Sublist p.chars := by
  have hrest : ∀ cs : List Char,
      (Text.join ['/'] (((Text.split '/' cs).filterMap part?).map (·.text.toList))).Sublist cs := by
    intro cs
    rw [filterMap_part?]
    have hsub := Text.join_filter_sublist ['/'] (Text.split '/' cs) fun x => (part? x).isSome
    rwa [Text.join_split] at hsub
  obtain ⟨cs, hcs⟩ : ∃ cs, p.chars = '/' :: cs := ⟨_, chars_absolute ha⟩
  have hbody : p.body = (Text.split '/' cs).filterMap part? := by
    rw [body_absolute ha, pieces, hcs]
    simp [Text.split]
  rw [chars_top fun c hc => ordinary_of_mem_body hc, hbody, hcs, top]
  split
  · next htwo =>
    obtain ⟨ds, rfl⟩ : ∃ ds, cs = '/' :: ds := by
      rw [slashes, hcs] at htwo
      cases cs with
      | nil => simp at htwo
      | cons x xs =>
        by_cases hx : x = '/'
        · exact ⟨xs, by rw [hx]⟩
        · simp [hx] at htwo
    have hsplit : (Text.split '/' ('/' :: ds)).filterMap part? = (Text.split '/' ds).filterMap part? := by
      simp [Text.split, part?]
    rw [hsplit]
    exact ((hrest ds).cons_cons '/').cons_cons '/'
  · exact (hrest cs).cons_cons '/'

lemma refused_top (ha : p.isAbsolute = true) (h : refused p = none) : refused (p.top.spelled p.body) = none := by
  obtain ⟨hnul, -, hlen⟩ := refused_eq_none.1 h
  have hsub := top_sublist ha
  refine refused_eq_none.2 ⟨fun hmem => hnul (hsub.subset hmem),
    (spelled_top p fun c hc => ordinary_of_mem_body hc).2.2.2, lt_of_le_of_lt ?_ hlen⟩
  simpa [chars] using Text.size_le_of_sublist hsub

end Path

namespace Tree

/-- From the top a walk comes to a directory along the names of its place. -/
lemma walk_home (hs : t.Sound) (hms : ∀ m ∈ ms, Lookable m) (hd : t.isDirAt (here ++ ms) = true) :
    walk t follow here (ms ++ ns) = walk t follow (here ++ ms) ns := by
  induction ms generalizing here with
  | nil => simp
  | cons m ms ih =>
    obtain ⟨h1, h2, h3⟩ := hms m (by simp)
    rw [List.append_cons] at hd ⊢
    obtain ⟨a, ha⟩ := at?_of_isDirAt (hs.isDirAt_of_below hd)
    rw [List.cons_append, walk_name h1 h2 h3, ha]
    exact ih (fun k hk => hms k (by simp [hk])) hd

lemma EndsIn.body (h : EndsIn p n) : p.body.getLast? = some (.name n) := by
  obtain ⟨-, xs, hxs⟩ := h.steps
  have hlast : ((p.pieces.filter (· ≠ [])).map String.ofList).getLast? = some n := by
    change (segments p.chars).getLast? = some n
    rw [hxs, List.getLast?_concat]
  exact Path.getLast?_parts hlast h.2.1 h.2.2

lemma EndsIn.fileName (h : EndsIn p n) : p.fileName = n := by
  rw [Path.fileName, Path.fileName?, Path.parts_eq, List.getLast?_append, h.body]
  rfl

/-- The steps along a path that was made absolute, and the last of them. -/
lemma steps_absolute? (hcwd : ∀ m ∈ cwd, Proper m) (h : p.absolute? cwd = some full) (hpn : EndsIn p n) :
    steps full.chars = start cwd p ++ p.body.map Part.text ∧ full.isAbsolute = true ∧ EndsIn full n := by
  have hord := Path.ordinary_partsFrom (p := p) hcwd
  obtain ⟨r, hfull⟩ := Path.absolute?_cases hcwd h
  rw [if_neg hpn.slash] at hfull
  have hseg : segments full.chars = start cwd p ++ p.body.map Part.text := by
    rw [hfull, Path.segments_top hord, Path.partsFrom, List.map_append, List.map_map]
    exact congrArg (· ++ _) (List.map_id _)
  obtain ⟨ps, hps⟩ := List.getLast?_eq_some_iff.1 hpn.body
  have hslash : full.endsInSlash ≠ true := by
    have hfirst : ∀ c ∈ (start cwd p).map .name ++ ps, Path.Ordinary c := by
      intro c hc
      refine hord c ?_
      rw [Path.partsFrom, hps, ← List.append_assoc]
      exact List.mem_append_left _ hc
    have hspelled := (Path.spelled_top r hfirst).2.2.2
    rw [hfull, Path.partsFrom, hps, ← List.append_assoc, Path.spelled, List.foldl_concat, ← Path.spelled]
    exact Path.not_endsInSlash_join (hord (.name n) (by simp [Path.partsFrom, hps])) hspelled
  have hsteps : steps full.chars = segments full.chars := by
    rw [steps, if_neg (by simpa [Path.endsInSlash] using hslash)]
  refine ⟨hsteps.trans hseg, hfull ▸ (Path.spelled_top r hord).1, ?_, hpn.2⟩
  rw [hsteps, hseg, hps, List.map_append, ← List.append_assoc, List.map_singleton, List.getLast?_concat]
  rfl

/-- Made absolute, a path that ends in a name leads to where it led. -/
lemma locate_absolute? (hs : t.Sound) (hcwd : ∀ m ∈ cwd, Proper m ∧ m.utf8ByteSize ≤ maxName)
    (h : p.absolute? cwd = some full) (hp : refused p = none) (hf : refused full = none) (hpn : EndsIn p n)
    (hd : t.isDirAt (start cwd p) = true) : t.locate cwd follow full = t.locate cwd follow p := by
  obtain ⟨hsteps, habs, -⟩ := steps_absolute? (fun m hm => (hcwd m hm).1) h hpn
  obtain ⟨hpsteps, ns, hns⟩ := hpn.steps
  have hhome : ∀ m ∈ start cwd p, Lookable m := by
    intro m hm
    obtain ⟨hproper, hshort⟩ := hcwd m (Path.mem_start hm)
    exact ⟨hproper.2.1, hproper.2.2.1, hshort⟩
  have htext : ns.filter (· ≠ ".") ++ [n] = p.body.map Part.text := by
    have hfilter : (segments p.chars).filter (· ≠ ".") = p.body.map Part.text := Path.segments_text
    rwa [hns, List.filter_append, List.filter_cons_of_pos (by simpa using hpn.2.1), List.filter_nil] at hfilter
  have htop : t.isDirAt [] = true := rfl
  have hwalk : walkLinks t follow (maxLinks + 1) [] (start cwd p ++ p.body.map Part.text) =
      walkLinks t follow (maxLinks + 1) (start cwd p) (p.body.map Part.text) := by
    rw [walkLinks, walkLinks, walk_home hs hhome (by simpa using hd), List.nil_append]
  rw [locate_eq_resolve hf, locate_eq_resolve hp, resolve, resolve, start_absolute habs, if_pos htop, if_pos hd, hsteps,
    hpsteps, hns, hwalk, ← htext, ← walkLinks_dots_between (List.cons_ne_nil _ _)]

end Tree

end FileOrganizer
