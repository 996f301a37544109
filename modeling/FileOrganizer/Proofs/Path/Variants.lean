import FileOrganizer.File.Name
import FileOrganizer.Proofs.Path.Parts
import FileOrganizer.Tree.Basic
import FileOrganizer.Undo.Log
import Mathlib.Data.List.TakeDrop

/-! The numbered variants of a name: each has its number in it, so that no two of them make the same path in a
directory, whatever the name is. -/

namespace FileOrganizer

namespace Text

variable {sep : Char} {cs a b : List Char}

lemma splitLast_eq (h : splitLast sep cs = some (a, b)) : cs = a ++ sep :: b := by
  unfold splitLast at h
  have hspan : cs.reverse.span (· ≠ sep) = (cs.reverse.takeWhile (· ≠ sep), cs.reverse.dropWhile (· ≠ sep)) :=
    List.span_eq_takeWhile_dropWhile _ _
  rw [hspan] at h
  cases hdrop : cs.reverse.dropWhile (· ≠ sep) with
  | nil =>
    rw [hdrop] at h
    cases h
  | cons c before =>
    rw [hdrop] at h
    have hc : c = sep := by
      have hhead := List.head?_dropWhile_not (· ≠ sep) cs.reverse
      rw [hdrop] at hhead
      simpa using hhead
    obtain ⟨rfl, rfl⟩ : before.reverse = a ∧ (cs.reverse.takeWhile (· ≠ sep)).reverse = b := by simpa using h
    have happ := List.takeWhile_append_dropWhile (p := fun x => decide (x ≠ sep)) (l := cs.reverse)
    rw [hdrop, hc] at happ
    have hback := congrArg List.reverse happ
    simpa using hback.symm

end Text

namespace FileName

variable {name : String} {m n : Nat}

lemma toString_inj (h : toString m = toString n) : m = n := by
  have hd : Nat.toDigits 10 m = Nat.toDigits 10 n := by
    simpa [Nat.toString_eq_repr, Nat.toList_repr] using congrArg String.toList h
  rw [← Nat.ofDigitChars_ten_toDigits (n := m), hd, Nat.ofDigitChars_ten_toDigits]

/-- The number stands after an underscore, between two parts of the name. -/
lemma numbered_eq (name : String) : ∃ a b : String, name = a ++ b ∧
    ∀ n ≠ 0, numbered name n = a ++ "_" ++ toString n ++ b := by
  cases h : Text.splitLast '.' name.toList with
  | none => exact ⟨name, "", by simp, fun n hn => by simp [numbered, hn, h]⟩
  | some x =>
    obtain ⟨cs, ext⟩ := x
    have hname := Text.splitLast_eq h
    cases cs with
    | nil => exact ⟨name, "", by simp, fun n hn => by simp [numbered, hn, h]⟩
    | cons c cs =>
      refine ⟨String.ofList (c :: cs), "." ++ String.ofList ext, ?_, fun n hn => ?_⟩
      · rw [← String.toList_inj, hname]
        simp
      · simp [numbered, hn, h, String.append_assoc]

lemma not_mem_digits : '/' ∉ (toString n).toList := by
  rw [Nat.toString_eq_repr, Nat.toList_repr]
  intro h
  exact absurd (Nat.isDigit_of_mem_toDigits (by decide) (by decide) h) (by decide)

lemma proper_numbered (hname : '/' ∉ name.toList) (hn : n ≠ 0) : Proper (numbered name n) := by
  obtain ⟨a, b, hparts, heq⟩ := numbered_eq name
  have hmem : ∀ c ∈ a.toList ++ b.toList, c ∈ name.toList := by simp [hparts]
  have hlist : (numbered name n).toList = a.toList ++ '_' :: (toString n).toList ++ b.toList := by
    rw [heq n hn]
    simp
  have hbar : '_' ∈ (numbered name n).toList := by simp [hlist]
  refine ⟨?_, ?_, ?_, ?_⟩
  · rintro h
    simp [h] at hbar
  · rintro h
    simp [h] at hbar
  · rintro h
    simp [h] at hbar
  · rw [hlist]
    intro h
    rcases List.mem_append.1 h with h | h
    · rcases List.mem_append.1 h with h | h
      · exact hname (hmem _ (by simp [h]))
      · rcases List.mem_cons.1 h with h | h
        · cases h
        · exact not_mem_digits h
    · exact hname (hmem _ (by simp [h]))

lemma proper_variant (h : Proper name) (k : Nat) : Proper (numbered name k) := by
  by_cases hk : k = 0
  · rwa [numbered, if_pos hk]
  · exact proper_numbered h.2.2.2 hk

/-- The name of an archive can stand in a directory, whatever the stem. -/
lemma proper_zip {stem : String} (h : '/' ∉ stem.toList) : Proper (stem ++ ".zip") := by
  have hzip : 'z' ∈ (stem ++ ".zip").toList := by simp
  refine ⟨?_, ?_, ?_, by simp [h]⟩ <;>
  · intro heq
    rw [heq] at hzip
    simp at hzip

/-- The variants of a name have its characters, and those of a number. -/
lemma mem_numbered {c : Char} (hbar : c ≠ '_') (hdigit : c.isDigit = false) (i : ℕ) :
    c ∈ (numbered name i).toList ↔ c ∈ name.toList := by
  obtain ⟨a, b, hname, heq⟩ := numbered_eq name
  by_cases hi : i = 0
  · rw [hi, numbered, if_pos rfl]
  · have hno : c ∉ Nat.toDigits 10 i := by
      intro hmem
      rw [Nat.isDigit_of_mem_toDigits (by decide) (by decide) hmem] at hdigit
      cases hdigit
    rw [heq i hi, hname]
    simp [hbar, hno]

lemma numbered_ne_log (hname : name ≠ UndoLog.fileName) (k : ℕ) : numbered name k ≠ UndoLog.fileName := by
  by_cases hk : k = 0
  · rwa [hk, numbered, if_pos rfl]
  · obtain ⟨a, b, -, heq⟩ := numbered_eq name
    intro hlog
    have hbar : '_' ∈ (numbered name k).toList := by simp [heq k hk]
    rw [hlog] at hbar
    exact absurd hbar (by decide)

lemma size_digits (n : ℕ) : (toString n).utf8ByteSize = (Nat.toDigits 10 n).length := by
  have hsize : ∀ cs : List Char, (∀ c ∈ cs, c.isDigit = true) → (String.ofList cs).utf8ByteSize = cs.length := by
    intro cs hcs
    induction cs with
    | nil => rfl
    | cons c cs ih =>
      have hc : c.utf8Size = 1 := by
        have hdigit := hcs c List.mem_cons_self
        rw [Char.utf8Size_eq_one_iff]
        simp only [Char.isDigit, Bool.and_eq_true, decide_eq_true_eq] at hdigit
        exact Nat.le_trans hdigit.2 (by decide)
      rw [String.ofList_cons, String.utf8ByteSize_append, ih fun d hd => hcs d (List.mem_cons_of_mem _ hd),
        String.utf8ByteSize_singleton, hc, List.length_cons, Nat.add_comm]
  rw [Nat.toString_eq_ofList_toDigits]
  exact hsize _ fun c hc => Nat.isDigit_of_mem_toDigits (by decide) (by decide) hc

/-- A variant with a greater number is not shorter. -/
lemma size_numbered_le (name : String) (h : m ≤ n) :
    (numbered name m).utf8ByteSize ≤ (numbered name n).utf8ByteSize := by
  obtain ⟨a, b, hname, heq⟩ := numbered_eq name
  by_cases hn : n = 0
  · subst hn
    obtain rfl := Nat.le_zero.1 h
    exact Nat.le_refl _
  by_cases hm : m = 0
  · rw [hm, heq n hn, numbered, if_pos rfl]
    nth_rewrite 1 [hname]
    simp only [String.utf8ByteSize_append]
    omega
  · have hpos : 0 < (Nat.toDigits 10 n).length := Nat.length_toDigits_pos
    have hlt : m < 10 ^ (Nat.toDigits 10 n).length :=
      Nat.lt_of_le_of_lt h ((Nat.length_toDigits_le_iff (by decide) hpos).1 (Nat.le_refl _))
    have hle := (Nat.length_toDigits_le_iff (b := 10) (by decide) hpos).2 hlt
    rw [heq m hm, heq n hn]
    simp only [String.utf8ByteSize_append, size_digits]
    omega

end FileName

namespace Text

/-- A text without separators joins the pieces that it stands between. -/
lemma split_between (sep : Char) (A B : List Char) : ∃ P Q x y, ∀ m, sep ∉ m →
    split sep (A ++ m ++ B) = P ++ (x ++ m ++ y) :: Q := by
  induction A with
  | nil =>
    by_cases hB : sep ∈ B
    · obtain ⟨y, B', rfl, hy⟩ := List.eq_append_cons_of_mem hB
      refine ⟨[], split sep B', [], y, fun m hm => ?_⟩
      have hmy : sep ∉ m ++ y := by simp [hm, hy]
      rw [List.nil_append, ← List.append_assoc, split_append, split_of_not_mem hmy]
      simp
    · refine ⟨[], [], [], B, fun m hm => ?_⟩
      have hmB : sep ∉ m ++ B := by simp [hm, hB]
      simpa using split_of_not_mem hmB
  | cons c A ih =>
    obtain ⟨P, Q, x, y, hsplit⟩ := ih
    by_cases hc : c = sep
    · refine ⟨[] :: P, Q, x, y, fun m hm => ?_⟩
      rw [List.cons_append, List.cons_append, split, if_pos hc, hsplit m hm, List.cons_append]
    · cases P with
      | nil =>
        refine ⟨[], Q, c :: x, y, fun m hm => ?_⟩
        rw [List.cons_append, List.cons_append, split, if_neg hc, hsplit m hm]
        simp
      | cons p P =>
        refine ⟨(c :: p) :: P, Q, x, y, fun m hm => ?_⟩
        rw [List.cons_append, List.cons_append, split, if_neg hc, hsplit m hm]
        simp

end Text

namespace FileName

lemma numbered_zero (name : String) : numbered name 0 = name := if_pos rfl

/-- The number comes behind the first character. -/
lemma isAbsolute_numbered (name : String) (n : ℕ) :
    (⟨numbered name n⟩ : Path).isAbsolute = (⟨name⟩ : Path).isAbsolute := by
  have hbehind : (⟨name ++ "_" ++ toString n⟩ : Path).isAbsolute = (⟨name⟩ : Path).isAbsolute := by
    unfold Path.isAbsolute Path.chars
    cases hname : name.toList <;> simp [hname]
  by_cases hn : n = 0
  · rw [hn, numbered_zero]
  unfold numbered
  rw [if_neg hn]
  split
  · next c cs ext hsplit =>
    have hname := Text.splitLast_eq hsplit
    simp [Path.isAbsolute, Path.chars, hname]
  · exact hbehind

/-- How the variants of a name are spelled in a directory. -/
lemma chars_child (dir : Path) (name : String) : ∃ A B : List Char, (dir.child name).chars = A ++ B ∧
    ∀ n ≠ 0, (dir.child (numbered name n)).chars = A ++ ('_' :: (toString n).toList) ++ B := by
  obtain ⟨a, b, hname, heq⟩ := numbered_eq name
  have hplain : name.toList = a.toList ++ b.toList := by simp [hname]
  have hlist : ∀ n ≠ 0, (numbered name n).toList = a.toList ++ ('_' :: (toString n).toList) ++ b.toList := by
    intro n hn
    rw [heq n hn]
    simp
  by_cases habs : (⟨name⟩ : Path).isAbsolute = true
  · refine ⟨a.toList, b.toList, ?_, fun n hn => ?_⟩
    · rw [Path.child, Path.join, if_pos habs, Path.chars, hplain]
    · rw [Path.child, Path.join, if_pos ((isAbsolute_numbered name n).trans habs), Path.chars, hlist n hn]
  have hnot : ∀ n, ¬(⟨numbered name n⟩ : Path).isAbsolute = true := fun n => by rwa [isAbsolute_numbered]
  by_cases hjoin : (dir.text = "" || dir.endsInSlash) = true
  · refine ⟨dir.chars ++ a.toList, b.toList, ?_, fun n hn => ?_⟩
    · rw [Path.child, Path.join, if_neg habs, if_pos hjoin, Path.chars, String.toList_append, hplain]
      simp [Path.chars]
    · rw [Path.child, Path.join, if_neg (hnot n), if_pos hjoin, Path.chars, String.toList_append, hlist n hn]
      simp [Path.chars]
  · refine ⟨dir.chars ++ '/' :: a.toList, b.toList, ?_, fun n hn => ?_⟩
    · rw [Path.child, Path.join, if_neg habs, if_neg hjoin, Path.chars, String.toList_append, String.toList_append,
        hplain]
      simp [Path.chars]
    · rw [Path.child, Path.join, if_neg (hnot n), if_neg hjoin, Path.chars, String.toList_append, String.toList_append,
        hlist n hn]
      simp [Path.chars]

/-- The variants of a name in a directory differ in one piece, which holds the number. In its place the name itself
has the piece `z`. -/
structure Varies (dir : Path) (name : String) (absolute : Bool) (P Q : List (List Char)) (z : List Char)
    (w : ℕ → String) : Prop where
  absolute : ∀ n ≠ 0, (dir.child (numbered name n)).isAbsolute = absolute
  bare : (dir.child name).pieces = P ++ z :: Q
  pieces : ∀ n ≠ 0, (dir.child (numbered name n)).pieces = P ++ (w n).toList :: Q
  marked : ∀ n, '_' ∈ (w n).toList
  shorter : ∀ n, z.length < (w n).toList.length
  inj : ∀ m n, w m = w n → m = n

lemma varies (dir : Path) (name : String) : ∃ absolute P Q z w, Varies dir name absolute P Q z w := by
  obtain ⟨A, B, hname, hchars⟩ := chars_child dir name
  obtain ⟨P, Q, x, y, hsplit⟩ := Text.split_between '/' A B
  refine ⟨A.head? == some '/', P, Q, x ++ y, fun n => String.ofList (x ++ ('_' :: (toString n).toList) ++ y), ?_, ?_, ?_,
    ?_, ?_, ?_⟩
  · intro n hn
    rw [Path.isAbsolute, hchars n hn]
    cases A <;> simp
  · have hbare := hsplit [] List.not_mem_nil
    rwa [List.append_nil, List.append_nil, ← hname] at hbare
  · intro n hn
    have hnone : '/' ∉ '_' :: (toString n).toList := by
      rw [List.mem_cons, not_or]
      exact ⟨by decide, not_mem_digits⟩
    rw [Path.pieces, hchars n hn, hsplit _ hnone, String.toList_ofList]
  · intro n
    simp
  · intro n
    simp only [String.toList_ofList, List.length_append, List.length_cons]
    omega
  · intro m n h
    have hlist := congrArg String.toList h
    simp only [String.toList_ofList, List.append_assoc, List.append_cancel_left_eq] at hlist
    exact toString_inj (String.toList_inj.1 (List.append_cancel_right (List.cons.inj hlist).2))

namespace Varies

variable {dir : Path} {absolute : Bool} {P Q : List (List Char)} {z : List Char} {w : ℕ → String}

lemma ne_dot (h : Varies dir name absolute P Q z w) (n : ℕ) : w n ≠ "." ∧ w n ≠ ".." := by
  have hmark := h.marked n
  constructor <;> intro heq <;> simp [heq] at hmark

lemma segments (h : Varies dir name absolute P Q z w) (hn : n ≠ 0) :
    Tree.segments (dir.child (numbered name n)).chars =
      (P.filter (· ≠ [])).map String.ofList ++ w n :: (Q.filter (· ≠ [])).map String.ofList := by
  have hne : (w n).toList ≠ [] := List.ne_nil_of_mem (h.marked n)
  rw [Tree.segments, ← Path.pieces, h.pieces n hn]
  simp [hne]

lemma start (h : Varies dir name absolute P Q z w) (hn : n ≠ 0) (cwd : Place) :
    Tree.start cwd (dir.child (numbered name n)) = if absolute then [] else cwd := by
  rw [Tree.start, h.absolute n hn]

lemma body (h : Varies dir name absolute P Q z w) (hn : n ≠ 0) : (dir.child (numbered name n)).body =
    P.filterMap Path.part? ++ .name (w n) :: Q.filterMap Path.part? := by
  have hmark := h.marked n
  have hpart : Path.part? (w n).toList = some (.name (w n)) := by
    unfold Path.part?
    rw [if_neg, if_neg, String.ofList_toList]
    · intro heq
      simp [heq] at hmark
    · rintro (heq | heq) <;> simp [heq] at hmark
  rw [Path.body, h.pieces n hn, List.filterMap_append, List.filterMap_cons_some hpart]

/-- No variant with a number is the same path as the name itself. -/
lemma ne_bare (h : Varies dir name absolute P Q z w) (hn : n ≠ 0) :
    (dir.child name).body ≠ (dir.child (numbered name n)).body := by
  rw [h.body hn, Path.body, h.bare, List.filterMap_append]
  intro heq
  have htail := List.append_cancel_left heq
  cases hz : Path.part? z with
  | none =>
    rw [List.filterMap_cons_none hz] at htail
    exact List.ne_cons_self htail
  | some c =>
    rw [List.filterMap_cons_some hz] at htail
    obtain rfl := (List.cons.inj htail).1
    have hpiece : z = (w n).toList := by
      unfold Path.part? at hz
      split_ifs at hz
      · cases hz
      · rw [← Part.name.inj (Option.some.inj hz), String.toList_ofList]
    exact absurd (h.shorter n) (by simp [hpiece])

end Varies

/-- No two variants of a name are the same path. -/
lemma eq_of_parts {dir : Path} (hparts : (dir.child (numbered name m)).parts = (dir.child (numbered name n)).parts) :
    m = n := by
  obtain ⟨absolute, P, Q, z, w, h⟩ := varies dir name
  have hbody := Path.body_of_parts hparts
  by_cases hm : m = 0 <;> by_cases hn : n = 0
  · rw [hm, hn]
  · subst hm
    rw [numbered_zero] at hbody
    exact absurd hbody (h.ne_bare hn)
  · subst hn
    rw [numbered_zero] at hbody
    exact absurd hbody.symm (h.ne_bare hm)
  · rw [h.body hm, h.body hn] at hbody
    have hnames := List.append_cancel_left hbody
    exact h.inj m n (Part.name.inj (List.cons.inj hnames).1)

/-- The variants of a name are different names. -/
theorem numbered_injective (name : String) : Function.Injective (numbered name) := by
  intro m n h
  have hparts : ((⟨""⟩ : Path).child (numbered name m)).parts = ((⟨""⟩ : Path).child (numbered name n)).parts := by
    rw [h]
  exact eq_of_parts hparts

end FileName

end FileOrganizer
