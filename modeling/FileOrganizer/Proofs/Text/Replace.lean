import FileOrganizer.Text.Basic
import Mathlib.Data.List.Infix
import Mathlib.Tactic.Common

/-! What a replacement does: each place at which the old word stands is filled by the new one, and the text between
these places is kept. -/

namespace FileOrganizer.Text

variable {old new cs ds ds' : List Char} {a c : Char}

lemma replaceFrom_skip (n : ℕ) (cs : List Char) : replaceFrom old new n cs = replaceFrom old new 0 (cs.drop n) := by
  induction n generalizing cs with
  | zero => rfl
  | succ n ih =>
    cases cs with
    | nil => rw [replaceFrom, List.drop_nil, replaceFrom]
    | cons c cs => rw [replaceFrom, ih, List.drop_succ_cons]

lemma replaceFrom_word_append (hold : old ≠ []) :
    replaceFrom old new 0 (old ++ ds) = new ++ replaceFrom old new 0 ds := by
  obtain ⟨c, cs, rfl⟩ := List.exists_cons_of_ne_nil hold
  have hbegin : (c :: cs).isPrefixOf (c :: (cs ++ ds)) = true := List.isPrefixOf_iff_prefix.2 (List.prefix_append _ _)
  rw [List.cons_append, replaceFrom, if_pos hbegin, replaceFrom_skip, List.length_cons, Nat.add_sub_cancel,
    List.drop_left]

lemma replaceFrom_cons (h : ¬old <+: c :: cs) : replaceFrom old new 0 (c :: cs) = c :: replaceFrom old new 0 cs := by
  rw [replaceFrom, if_neg (mt List.isPrefixOf_iff_prefix.1 h)]

/-- Texts as a replacement reads them: it passes over the word where that stands, and otherwise over one character. -/
@[elab_as_elim]
lemma reading {motive : List Char → Prop} (hold : old ≠ []) (nil : motive [])
    (word : ∀ ds, motive ds → motive (old ++ ds))
    (other : ∀ c cs, ¬old <+: c :: cs → motive cs → motive (c :: cs)) (cs : List Char) : motive cs := by
  induction hn : cs.length using Nat.strong_induction_on generalizing cs with
  | _ n ih =>
    subst hn
    by_cases hbegin : old <+: cs
    · obtain ⟨ds, rfl⟩ := hbegin
      have hpos := List.length_pos_iff.2 hold
      exact word ds (ih ds.length (by rw [List.length_append]; omega) ds rfl)
    · cases cs with
      | nil => exact nil
      | cons c cs => exact other c cs hbegin (ih cs.length (by simp) cs rfl)

/-- At so many places of a text a word stands. -/
def hits (word : List Char) : List Char → ℕ
  | [] => 0
  | c :: cs => (if word <+: c :: cs then 1 else 0) + hits word cs

lemma hits_le_append (old cs ds : List Char) : hits old ds ≤ hits old (cs ++ ds) := by
  induction cs with
  | nil => exact le_rfl
  | cons c cs ih =>
    rw [List.cons_append, hits]
    omega

/-- Before `ds` nothing is replaced if no place is there. -/
lemma replaceFrom_append (h : hits old (cs ++ ds) = hits old ds) :
    replaceFrom old new 0 (cs ++ ds) = cs ++ replaceFrom old new 0 ds := by
  induction cs with
  | nil => rfl
  | cons c cs ih =>
    have hle := hits_le_append old cs ds
    rw [List.cons_append, hits] at h
    split at h
    · omega
    · next hnot => rw [List.cons_append, replaceFrom_cons hnot, ih (by omega), List.cons_append]

/-- Whatever `ds` begins with up to an `a`, so does `ds'`. -/
def BeginsLike (a : Char) (ds ds' : List Char) : Prop := ∀ ys, a ∉ ys → ys <+: ds → ys <+: ds'

lemma BeginsLike.append (h : BeginsLike a ds ds') (cs : List Char) : BeginsLike a (cs ++ ds) (cs ++ ds') := by
  intro ys hys hbegin
  rcases Nat.le_total ys.length cs.length with hle | hle
  · exact (List.prefix_of_prefix_length_le hbegin (List.prefix_append cs ds) hle).trans (List.prefix_append cs ds')
  · obtain ⟨zs, rfl⟩ := List.prefix_of_prefix_length_le (List.prefix_append cs ds) hbegin hle
    rw [List.prefix_append_right_inj] at hbegin ⊢
    exact h zs (fun hzs => hys (List.mem_append_right cs hzs)) hbegin

/-- The word begins with a character that it has nowhere else, so that no two places of it overlap. -/
structure Opens (a : Char) (word : List Char) : Prop where
  eq_cons : word = a :: word.tail
  tail : a ∉ word.tail

namespace Opens

lemma ne_nil (h : Opens a old) : old ≠ [] := by
  rw [h.eq_cons]
  exact List.cons_ne_nil _ _

/-- The word can only stand where its first character is. -/
lemma not_prefix (h : Opens a old) (hc : a ≠ c) : ¬old <+: c :: cs := by
  rw [h.eq_cons, List.cons_prefix_cons]
  exact fun hbegin => hc hbegin.1

lemma hits_append (h : Opens a old) (hcs : a ∉ cs) : hits old (cs ++ ds) = hits old ds := by
  induction cs with
  | nil => rfl
  | cons c cs ih =>
    obtain ⟨hc, hcs⟩ := List.ne_and_not_mem_of_not_mem_cons hcs
    rw [List.cons_append, hits, if_neg (h.not_prefix hc), Nat.zero_add, ih hcs]

lemma hits_word_append (h : Opens a old) : hits old (old ++ ds) = 1 + hits old ds := by
  have hbegin : old <+: a :: (old.tail ++ ds) := by
    rw [← List.cons_append, ← h.eq_cons]
    exact List.prefix_append _ _
  calc hits old (old ++ ds) = hits old (a :: (old.tail ++ ds)) := by rw [← List.cons_append, ← h.eq_cons]
    _ = 1 + hits old (old.tail ++ ds) := by rw [hits, if_pos hbegin]
    _ = 1 + hits old ds := by rw [h.hits_append h.tail]

lemma hits_append_other {word : List Char} (h : Opens a old) (hword : Opens a word) (hnot : ¬old <+: word ++ ds) :
    hits old (word ++ ds) = hits old ds := by
  rw [hword.eq_cons, List.cons_append] at hnot ⊢
  rw [hits, if_neg hnot, Nat.zero_add, h.hits_append hword.tail]

lemma replaceFrom_self (h : Opens a old) (cs : List Char) : replaceFrom old old 0 cs = cs := by
  induction cs using reading h.ne_nil with
  | nil => rfl
  | word ds ih => rw [replaceFrom_word_append h.ne_nil, ih]
  | other c cs hnot ih => rw [replaceFrom_cons hnot, ih]

/-- At each place the text becomes longer or shorter by as much as the words differ in length. -/
lemma length_replaceFrom (h : Opens a old) (new cs : List Char) :
    (replaceFrom old new 0 cs).length + hits old cs * old.length = cs.length + hits old cs * new.length := by
  induction cs using reading h.ne_nil with
  | nil => simp [replaceFrom, hits]
  | word ds ih =>
    rw [replaceFrom_word_append h.ne_nil, h.hits_word_append, List.length_append, List.length_append]
    grind
  | other c cs hnot ih =>
    rw [replaceFrom_cons hnot, hits, if_neg hnot, Nat.zero_add, List.length_cons, List.length_cons]
    omega

/-- If nothing is replaced in `cs` by another word of the same length, then no place is there. The text `ds'` is what
becomes of `ds`. -/
lemma hits_append_of_replaceFrom (h : Opens a old) (hlength : new.length = old.length) (hne : old ≠ new)
    (hbegins : BeginsLike a ds ds') (heq : replaceFrom old new 0 (cs ++ ds) = cs ++ ds') :
    hits old (cs ++ ds) = hits old ds ∧ replaceFrom old new 0 ds = ds' := by
  induction cs with
  | nil => exact ⟨rfl, heq⟩
  | cons c cs ih =>
    rw [List.cons_append] at heq ⊢
    by_cases hbegin : old <+: c :: (cs ++ ds)
    · -- what stands at this place afterwards is the new word, and it is still the old one
      have hnew : new <+: c :: (cs ++ ds') := by
        obtain ⟨rest, hrest⟩ := hbegin
        rw [← hrest, replaceFrom_word_append h.ne_nil, List.cons_append] at heq
        exact ⟨_, heq⟩
      have hold : old <+: c :: (cs ++ ds') := by
        rw [h.eq_cons, List.cons_prefix_cons] at hbegin ⊢
        exact ⟨hbegin.1, hbegins.append cs _ h.tail hbegin.2⟩
      exact absurd ((List.prefix_of_prefix_length_le hold hnew hlength.ge).eq_of_length hlength.symm) hne
    · rw [replaceFrom_cons hbegin, List.cons_append, List.cons.injEq] at heq
      obtain ⟨hhits, hrest⟩ := ih heq.2
      exact ⟨by rw [hits, if_neg hbegin, Nat.zero_add, hhits], hrest⟩

end Opens

end FileOrganizer.Text
