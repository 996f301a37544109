import FileOrganizer.Proofs.Path.Places
import Mathlib.Data.List.Induction
import Mathlib.Data.List.TakeWhile

/-! A path that was made absolute is spelled as it is when it is made absolute once more. -/

namespace FileOrganizer.Path

variable {p q : Path} {cwd : Place} {c : Part} {ps : List Part}

/-- Where the spelling of an absolute path begins: exactly two slashes are kept. -/
def top (p : Path) : Path := if p.slashes = 2 then ⟨"//"⟩ else ⟨"/"⟩

lemma top_of_slashes (h : p.slashes = q.slashes) : p.top = q.top := by rw [top, top, h]

/-- The path with these parts put after it, one by one. -/
def spelled (p : Path) (ps : List Part) : Path := ps.foldl (fun q c => q.join ⟨c.text⟩) p

lemma absolute?_eq (h : p.isAbsolute = true) : p.absolute? cwd =
    some (if p.endsInSlash then (p.top.spelled p.body).join ⟨""⟩ else p.top.spelled p.body) := by
  have htext : p.text ≠ "" := by
    intro h0
    simp [isAbsolute, chars, h0] at h
  unfold absolute? top spelled
  rw [if_neg htext, filter_parts, if_pos h]
  dsimp only
  rw [if_pos h]
  by_cases hs : p.slashes = 2
  · simp [hs, ofParts_single]
  · simp [hs, ofParts_root]

lemma text_toList (hc : Ordinary c) : c.text.toList ≠ [] ∧ '/' ∉ c.text.toList := by
  cases c with
  | up => simp [Part.text]
  | name n => exact ⟨by simpa [Part.text] using hc.1, hc.2.2.2⟩
  | root => cases hc
  | here => cases hc

lemma text_of_ordinary (hc : Ordinary c) :
    c.text.toList.takeWhile (· == '/') = [] ∧ (∃ x ∈ c.text.toList, x ≠ '/') ∧
      (⟨c.text⟩ : Path).isAbsolute = false := by
  obtain ⟨hne, hslash⟩ := text_toList hc
  obtain ⟨x, xs, hx⟩ := List.exists_cons_of_ne_nil hne
  have hx' : x ≠ '/' := by
    rintro rfl
    exact hslash (by simp [hx])
  exact ⟨by simp [hx, hx'], ⟨x, by simp [hx], hx'⟩, by simp [isAbsolute, chars, hx, hx']⟩

lemma slashes_join (hp : p.text ≠ "") (hq : q.isAbsolute = false) (h : ∃ x ∈ p.chars, x ≠ '/') :
    (p.join q).slashes = p.slashes ∧ ∃ x ∈ (p.join q).chars, x ≠ '/' := by
  obtain ⟨ys, hys⟩ : ∃ ys, (p.join q).chars = p.chars ++ ys := by
    rw [chars_join hp hq]
    split
    · exact ⟨_, rfl⟩
    · exact ⟨_, rfl⟩
  have hlen : (p.chars.takeWhile (· == '/')).length ≠ p.chars.length := by
    intro heq
    obtain ⟨x, hx, hne⟩ := h
    have hall := List.takeWhile_eq_self_iff.1 ((List.takeWhile_prefix _).eq_of_length heq)
    exact hne (by simpa using hall x hx)
  obtain ⟨x, hx, hne⟩ := h
  refine ⟨?_, x, by simp [hys, hx], hne⟩
  unfold slashes
  rw [hys, List.takeWhile_append, if_neg hlen]

lemma slashes_spelled (hps : ∀ c ∈ ps, Ordinary c) (hp : p.text ≠ "") (h : ∃ x ∈ p.chars, x ≠ '/') :
    (p.spelled ps).slashes = p.slashes ∧ ∃ x ∈ (p.spelled ps).chars, x ≠ '/' := by
  induction ps generalizing p with
  | nil => exact ⟨rfl, h⟩
  | cons c ps ih =>
    obtain ⟨-, -, hc⟩ := text_of_ordinary (hps c (by simp))
    obtain ⟨hslashes, hsome⟩ := slashes_join hp hc h
    rw [← hslashes]
    exact ih (fun d hd => hps d (by simp [hd])) (join_text_ne hp) hsome

lemma top_cases (p : Path) : p.top.text ≠ "" ∧ p.top.endsInSlash = true ∧ p.top.parts = [.root] ∧
    (∀ x ∈ p.top.chars, x = '/') ∧ (p.top.slashes = 2 ↔ p.slashes = 2) := by
  have hone : (⟨"/"⟩ : Path).chars = ['/'] := by decide
  have htwo : (⟨"//"⟩ : Path).chars = ['/', '/'] := by decide
  unfold top slashes
  split
  · next h => exact ⟨by decide, by decide, parts_slashes, by simp [htwo], by simp [htwo, h]⟩
  · next h => exact ⟨by decide, by decide, parts_slash, by simp [hone], by simp [hone, h]⟩

/-- The path begins with as many slashes as its top, and then comes something else, if anything. -/
lemma slashes_top (hps : ∀ c ∈ ps, Ordinary c) : (p.top.spelled ps).slashes = p.top.slashes ∧
    (ps = [] ∨ ∃ x ∈ (p.top.spelled ps).chars, x ≠ '/') := by
  obtain ⟨htext, hslash, -, hall, -⟩ := top_cases p
  cases ps with
  | nil => exact ⟨rfl, Or.inl rfl⟩
  | cons c ps =>
    obtain ⟨hhead, ⟨x, hx, hne⟩, hrel⟩ := text_of_ordinary (hps c (by simp))
    have hchars : (p.top.join ⟨c.text⟩).chars = p.top.chars ++ c.text.toList := by
      rw [chars_join htext hrel, if_pos hslash]
      rfl
    have hsome : ∃ x ∈ (p.top.join ⟨c.text⟩).chars, x ≠ '/' := ⟨x, by simp [hchars, hx], hne⟩
    obtain ⟨hslashes, hsome'⟩ := slashes_spelled
      (show ∀ d ∈ ps, Ordinary d from fun d hd => hps d (by simp [hd])) (join_text_ne htext) hsome
    have htake : p.top.chars.takeWhile (· == '/') = p.top.chars := List.takeWhile_eq_self_iff.2 (by simpa using hall)
    refine ⟨hslashes.trans ?_, Or.inr hsome'⟩
    unfold slashes
    rw [hchars, List.takeWhile_append, if_pos (by rw [htake]), hhead, htake, List.append_nil]

lemma spelled_top (p : Path) (hps : ∀ c ∈ ps, Ordinary c) : (p.top.spelled ps).isAbsolute = true ∧
    (p.top.spelled ps).body = ps ∧ (p.top.spelled ps).top = p.top ∧ (p.top.spelled ps).text ≠ "" := by
  obtain ⟨htext, -, hparts, -, htop⟩ := top_cases p
  obtain ⟨hfold, hne⟩ := parts_foldl htext hps
  rw [hparts] at hfold
  have habs : (p.top.spelled ps).isAbsolute = true := by
    rw [isAbsolute_iff_head]
    exact hfold ▸ rfl
  refine ⟨habs, ?_, ?_, hne⟩
  · have hroot := parts_of_absolute habs
    exact (List.cons.inj (hroot.symm.trans hfold)).2
  · rw [top, (slashes_top hps).1]
    by_cases h : p.slashes = 2
    · rw [if_pos (htop.2 h), top, if_pos h]
    · rw [if_neg (htop.not.2 h), top, if_neg h]

lemma join_empty (hp : p.text ≠ "") (h : p.endsInSlash = true) : p.join ⟨""⟩ = p := by
  have hrel : (⟨""⟩ : Path).isAbsolute = false := by decide
  have hchars := chars_join hp hrel
  rw [if_pos h] at hchars
  have htext : (p.join ⟨""⟩).text = p.text := by
    rw [← String.toList_inj]
    exact hchars.trans (List.append_nil _)
  cases hj : p.join ⟨""⟩
  rw [hj] at htext
  cases p
  exact congrArg Path.mk htext

lemma join_empty_endsInSlash (hp : p.text ≠ "") : (p.join ⟨""⟩).endsInSlash = true := by
  by_cases h : p.endsInSlash = true
  · rw [join_empty hp h, h]
  · have hchars := chars_join (q := ⟨""⟩) hp (by decide)
    rw [if_neg h] at hchars
    exact endsInSlash_iff.2 ⟨p.chars, hchars⟩

/-- A path that is put together from its top, perhaps with a slash at its end, is absolute as it is spelled. -/
lemma absolute?_spelled (p : Path) (hps : ∀ c ∈ ps, Ordinary c) :
    (p.top.spelled ps).absolute? cwd = some (p.top.spelled ps) ∧
      ((p.top.spelled ps).join ⟨""⟩).absolute? cwd = some ((p.top.spelled ps).join ⟨""⟩) := by
  obtain ⟨habs, hbody, htop, hne⟩ := spelled_top p hps
  have habs' : ((p.top.spelled ps).join ⟨""⟩).isAbsolute = true := by rw [isAbsolute_join hne, habs]; rfl
  have hbody' : ((p.top.spelled ps).join ⟨""⟩).body = ps := by
    have hparts := parts_join_empty hne
    rw [parts_of_absolute habs', parts_of_absolute habs, hbody] at hparts
    exact (List.cons.inj hparts).2
  have htop' : ((p.top.spelled ps).join ⟨""⟩).top = p.top := by
    by_cases hend : (p.top.spelled ps).endsInSlash = true
    · rw [join_empty hne hend, htop]
    · rcases (slashes_top (p := p) hps).2 with rfl | hsome
      · exact absurd (top_cases p).2.1 hend
      · exact (top_of_slashes (slashes_join hne (by decide) hsome).1).trans htop
  constructor
  · rw [absolute?_eq habs, hbody, htop]
    split
    · next hend => rw [join_empty hne hend]
    · rfl
  · rw [absolute?_eq habs', hbody', htop', if_pos (join_empty_endsInSlash hne)]

lemma chars_join_concat {xs : List (List Char)} {x : List Char} (hne : xs ≠ []) :
    Text.join ['/'] (xs ++ [x]) = Text.join ['/'] xs ++ '/' :: x := by
  induction xs with
  | nil => exact absurd rfl hne
  | cons y ys ih =>
    cases ys with
    | nil => simp [Text.join]
    | cons z zs => simpa [Text.join] using ih (by simp)

lemma not_endsInSlash_ofPlace {l : Place} (hl : ∀ n ∈ l, Proper n) (hne : l ≠ []) :
    (ofPlace l).endsInSlash ≠ true := by
  intro hslash
  obtain ⟨xs, -, hxs⟩ := pieces_of_endsInSlash hslash
  obtain ⟨l, n, rfl⟩ := (List.eq_nil_or_concat l).resolve_left hne
  rw [List.concat_eq_append] at hl
  rw [List.concat_eq_append, pieces_ofPlace hl (by simp), List.map_append, ← List.cons_append] at hxs
  have hlast := List.singleton_inj.1 (List.append_inj' hxs rfl).2
  exact (hl n (by simp)).1 (by simpa using hlast)

lemma ofPlace_concat {l : Place} {n : String} (hl : ∀ m ∈ l ++ [n], Proper m) :
    ofPlace (l ++ [n]) = (ofPlace l).child n := by
  have hrel := (pieces_of_proper (hl n (by simp))).2.1
  have hl' : ∀ m ∈ l, Proper m := fun m hm => hl m (List.mem_append_left _ hm)
  have hchars : (ofPlace (l ++ [n])).chars = ((ofPlace l).child n).chars := by
    rw [child, chars_join (ofPlace_text l) hrel, chars_ofPlace, chars_ofPlace, List.map_append]
    rcases eq_or_ne l [] with rfl | hne
    · rfl
    · rw [if_neg (not_endsInSlash_ofPlace hl' hne), List.map_singleton, chars_join_concat (by simpa using hne)]
      rfl
  cases h : (ofPlace l).child n
  rw [h] at hchars
  exact congrArg Path.mk (String.toList_inj.1 hchars)

lemma ofPlace_spelled {l : Place} (hl : ∀ n ∈ l, Proper n) : ofPlace l = (⟨"/"⟩ : Path).spelled (l.map Part.name) := by
  induction l using List.reverseRecOn with
  | nil => rfl
  | append_singleton l n ih =>
    rw [ofPlace_concat hl, ih fun m hm => hl m (List.mem_append_left _ hm), List.map_append, spelled, spelled,
      List.foldl_append]
    rfl

/-- The ordinary parts of a path and before them, if it is relative, those of the directory it is seen from. -/
def partsFrom (cwd : Place) (p : Path) : List Part := (Tree.start cwd p).map .name ++ p.body

lemma ordinary_partsFrom (hcwd : ∀ n ∈ cwd, Proper n) : ∀ c ∈ partsFrom cwd p, Ordinary c := by
  intro c hc
  rcases List.mem_append.1 hc with hc | hc
  · obtain ⟨n, hn, rfl⟩ := List.mem_map.1 hc
    exact hcwd n (mem_start hn)
  · exact ordinary_of_mem_body hc

/-- Whatever is made absolute is put together from a top. -/
lemma absolute?_cases (hcwd : ∀ n ∈ cwd, Proper n) (h : p.absolute? cwd = some q) : ∃ r,
    q = if p.endsInSlash then ((top r).spelled (partsFrom cwd p)).join ⟨""⟩ else (top r).spelled (partsFrom cwd p) := by
  unfold partsFrom Tree.start
  cases ha : p.isAbsolute with
  | true =>
    rw [absolute?_eq ha] at h
    exact ⟨p, (Option.some.inj h).symm⟩
  | false =>
    have htop : top ⟨"/"⟩ = ⟨"/"⟩ := by decide
    unfold absolute? at h
    split at h
    · cases h
    · rw [filter_parts, ha, ofPlace_spelled hcwd] at h
      simp only [Bool.false_eq_true, if_false, List.nil_append, ofParts_single, Option.some.injEq] at h
      refine ⟨⟨"/"⟩, ?_⟩
      rw [if_neg Bool.false_ne_true, htop, spelled, List.foldl_append, ← spelled]
      exact h.symm

/-- Made absolute, a path is in the one spelling that making it absolute leaves alone. -/
theorem absolute?_settled (hcwd : ∀ n ∈ cwd, Proper n) (h : p.absolute? cwd = some q) : q.absolute? cwd = some q := by
  obtain ⟨r, rfl⟩ := absolute?_cases hcwd h
  split
  · exact (absolute?_spelled r (ordinary_partsFrom hcwd)).2
  · exact (absolute?_spelled r (ordinary_partsFrom hcwd)).1

lemma absolute?_absolute? (ha : p.isAbsolute = true) (h : p.absolute? cwd = some q) : q.absolute? cwd = some q := by
  rw [absolute?_eq ha] at h
  have hps : ∀ c ∈ p.body, Ordinary c := fun c => ordinary_of_mem_body
  split at h
  · exact Option.some.inj h ▸ (absolute?_spelled p hps).2
  · exact Option.some.inj h ▸ (absolute?_spelled p hps).1

lemma join_empty_join (hp : p.text ≠ "") (hq : q.isAbsolute = false) : (p.join ⟨""⟩).join q = p.join q := by
  by_cases hend : p.endsInSlash = true
  · rw [join_empty hp hend]
  · have hchars : ((p.join ⟨""⟩).join q).chars = (p.join q).chars := by
      rw [chars_join (join_text_ne hp) hq, if_pos (join_empty_endsInSlash hp), chars_join hp (by decide),
        chars_join hp hq, if_neg hend, if_neg hend, List.append_assoc]
      rfl
    cases h : p.join q
    rw [h] at hchars
    cases h' : (p.join ⟨""⟩).join q
    rw [h'] at hchars
    exact congrArg Path.mk (String.toList_inj.1 hchars)

/-- What is in a directory with such a spelling has such a spelling. -/
lemma absolute?_child {n : String} (hcwd : ∀ m ∈ cwd, Proper m) (hn : Proper n) (h : p.absolute? cwd = some q) :
    (q.child n).absolute? cwd = some (q.child n) := by
  obtain ⟨r, hq⟩ := absolute?_cases hcwd h
  have hps := ordinary_partsFrom (p := p) hcwd
  have hrel := (pieces_of_proper hn).2.1
  have hchild : q.child n = (top r).spelled (partsFrom cwd p ++ [.name n]) := by
    have hne := (spelled_top r hps).2.2.2
    rw [spelled, List.foldl_append, ← spelled, child, hq]
    split
    · rw [join_empty_join hne hrel]
      rfl
    · rfl
  rw [hchild]
  refine (absolute?_spelled r fun c hc => ?_).1
  rcases List.mem_append.1 hc with hc | hc
  · exact hps c hc
  · exact List.mem_singleton.1 hc ▸ hn

end FileOrganizer.Path
