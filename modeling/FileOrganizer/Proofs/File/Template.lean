import FileOrganizer.File.Template
import FileOrganizer.Proofs.Text.Replace
import Mathlib.Data.List.Nodup
import Mathlib.Tactic.LinearCombination
import Mathlib.Tactic.Zify

/-! Templates are filled in one variable after the other. That is the same as filling in all of them at once, as long as
none turns up, by the time it is filled in, where the template does not have it. -/

namespace FileOrganizer.Template

open FileOrganizer.Text

/-- A piece of a template: a character that is kept, or a variable, which comes with its value. -/
inductive Piece
  | char (c : Char)
  | var (v : String × String)
  deriving DecidableEq

/-- The pieces of a text, read from left to right; `skip` characters more belong to the variable just read. -/
def piecesFrom (vars : List (String × String)) : ℕ → List Char → List Piece
  | _, [] => []
  | skip + 1, _ :: cs => piecesFrom vars skip cs
  | 0, c :: cs =>
    match vars.find? fun v => v.1.toList.isPrefixOf (c :: cs) with
    | some v => .var v :: piecesFrom vars (v.1.toList.length - 1) cs
    | none => .char c :: piecesFrom vars 0 cs

def pieces (template : String) (f : FileInfo) : List Piece := piecesFrom (values f) 0 template.toList

/-- What stands for a piece once the variables in `filled` are filled in. -/
def Piece.text (filled : List (String × String)) : Piece → List Char
  | char c => [c]
  | var v => if v ∈ filled then v.2.toList else v.1.toList

def spell (filled : List (String × String)) (ps : List Piece) : List Char := ps.flatMap (Piece.text filled)

/-- The template with each of its variables replaced by its value, and all else, the values too, as it is. -/
def fill (template : String) (f : FileInfo) : String := String.ofList (spell (values f) (pieces template f))

def inTurn (vars : List (String × String)) (template : String) : String :=
  vars.foldl (fun s v => replace v.1 v.2 s) template

/-- Each variable, by the time it is filled in, stands in the text at as many places as the template has it, unless it
stands for itself. -/
def Undisturbed (vars : List (String × String)) (ps : List Piece) : Prop :=
  ∀ k (h : k < vars.length), vars[k].1 = vars[k].2 ∨
    hits vars[k].1.toList (spell (vars.take k) ps) = ps.count (.var vars[k])

/-- Variables begin with a brace that they have nowhere else, and none is the beginning of another. -/
structure Variables (vars : List (String × String)) : Prop where
  nodup : vars.Nodup
  opens : ∀ v ∈ vars, Opens '\x7b' v.1.toList
  apart : ∀ v ∈ vars, ∀ w ∈ vars, v.1.toList <+: w.1.toList → v = w

variable {vars filled : List (String × String)} {v w : String × String} {p : Piece} {ps : List Piece} {cs : List Char}
  {template : String} {f : FileInfo} {k : ℕ}

lemma spell_cons : spell filled (p :: ps) = p.text filled ++ spell filled ps := List.flatMap_cons

lemma mem_piecesFrom (n : ℕ) (h : .var v ∈ piecesFrom vars n cs) : v ∈ vars := by
  induction cs generalizing n with
  | nil => simp [piecesFrom] at h
  | cons c cs ih =>
    cases n with
    | succ n => exact ih n h
    | zero =>
      rw [piecesFrom] at h
      split at h
      · next w hw =>
        rcases List.mem_cons.1 h with heq | h
        · cases heq
          exact List.mem_of_find?_eq_some hw
        · exact ih _ h
      · next =>
        rcases List.mem_cons.1 h with heq | h
        · cases heq
        · exact ih _ h

/-- Nothing of a text is lost in its pieces. -/
lemma Variables.spell_piecesFrom (hvars : Variables vars) (n : ℕ) (cs : List Char) :
    spell [] (piecesFrom vars n cs) = cs.drop n := by
  induction cs generalizing n with
  | nil => simp [piecesFrom, spell]
  | cons c cs ih =>
    cases n with
    | succ n => exact ih n
    | zero =>
      rw [piecesFrom]
      split
      · next v hv =>
        have hbegin := List.find?_some hv
        obtain ⟨ds, hds⟩ := List.isPrefixOf_iff_prefix.1 hbegin
        have hopens := hvars.opens v (List.mem_of_find?_eq_some hv)
        rw [spell_cons, ih, Piece.text, if_neg List.not_mem_nil]
        rw [hopens.eq_cons, List.cons_append, List.cons.injEq] at hds
        obtain ⟨rfl, rfl⟩ := hds
        rw [hopens.eq_cons]
        simp
      · next => rw [spell_cons, ih, Piece.text, List.drop_zero, List.drop_zero, List.singleton_append]

lemma text_var (hv : v ∉ filled) : (Piece.var v).text filled = v.1.toList := if_neg hv

lemma text_var_concat : (Piece.var v).text (filled ++ [v]) = v.2.toList := if_pos (by simp)

lemma text_concat (hp : p ≠ .var v) : p.text (filled ++ [v]) = p.text filled := by
  cases p with
  | char c => rfl
  | var w =>
    have hw : w ≠ v := by
      rintro rfl
      exact hp rfl
    simp [Piece.text, hw]

lemma beginsLike_spell (hopens : Opens '\x7b' v.1.toList) (hv : v ∉ filled) (ps : List Piece) :
    BeginsLike '\x7b' (spell filled ps) (spell (filled ++ [v]) ps) := by
  induction ps with
  | nil => exact fun _ _ => id
  | cons p ps ih =>
    rw [spell_cons, spell_cons]
    by_cases hp : p = .var v
    · subst hp
      rw [text_var hv, hopens.eq_cons, List.cons_append]
      intro ys hys hbegin
      cases ys with
      | nil => exact List.nil_prefix
      | cons y ys =>
        rw [(List.cons_prefix_cons.1 hbegin).1] at hys
        exact absurd List.mem_cons_self hys
    · rw [text_concat hp]
      exact ih.append _

lemma count_le_hits (hopens : Opens '\x7b' v.1.toList) (hv : v ∉ filled) (ps : List Piece) :
    ps.count (.var v) ≤ hits v.1.toList (spell filled ps) := by
  induction ps with
  | nil => exact le_rfl
  | cons p ps ih =>
    rw [spell_cons]
    by_cases hp : p = .var v
    · subst hp
      rw [text_var hv, hopens.hits_word_append, List.count_cons_self]
      omega
    · rw [List.count_cons_of_ne hp]
      exact ih.trans (hits_le_append _ _ _)

lemma replaceFrom_spell (hopens : Opens '\x7b' v.1.toList) (hv : v ∉ filled)
    (h : hits v.1.toList (spell filled ps) = ps.count (.var v)) :
    replaceFrom v.1.toList v.2.toList 0 (spell filled ps) = spell (filled ++ [v]) ps := by
  induction ps with
  | nil => rfl
  | cons p ps ih =>
    rw [spell_cons] at h ⊢
    rw [spell_cons]
    by_cases hp : p = .var v
    · subst hp
      rw [text_var hv, hopens.hits_word_append, List.count_cons_self] at h
      rw [text_var hv, text_var_concat, replaceFrom_word_append hopens.ne_nil, ih (by omega)]
    · rw [List.count_cons_of_ne hp] at h
      have hle := hits_le_append v.1.toList (p.text filled) (spell filled ps)
      have hcount := count_le_hits hopens hv ps
      rw [replaceFrom_append (by omega), ih (by omega), text_concat hp]

lemma length_spell (hv : v ∉ filled) (ps : List Piece) :
    (spell (filled ++ [v]) ps).length + ps.count (.var v) * v.1.toList.length =
      (spell filled ps).length + ps.count (.var v) * v.2.toList.length := by
  induction ps with
  | nil => simp [spell]
  | cons p ps ih =>
    rw [spell_cons, spell_cons, List.length_append, List.length_append]
    by_cases hp : p = .var v
    · subst hp
      rw [text_var hv, text_var_concat, List.count_cons_self]
      grind
    · rw [text_concat hp, List.count_cons_of_ne hp]
      omega

/-- A value as long as its variable shows by itself whether it has come in where the template does not have it. -/
lemma hits_of_length_eq (hopens : Opens '\x7b' v.1.toList) (hv : v ∉ filled) (hne : v.1 ≠ v.2)
    (hlength : v.2.toList.length = v.1.toList.length)
    (h : replaceFrom v.1.toList v.2.toList 0 (spell filled ps) = spell (filled ++ [v]) ps) :
    hits v.1.toList (spell filled ps) = ps.count (.var v) := by
  induction ps with
  | nil => rfl
  | cons p ps ih =>
    rw [spell_cons, spell_cons] at h
    rw [spell_cons]
    by_cases hp : p = .var v
    · subst hp
      rw [text_var hv, text_var_concat, replaceFrom_word_append hopens.ne_nil, List.append_cancel_left_eq] at h
      rw [text_var hv, hopens.hits_word_append, List.count_cons_self, ih h, Nat.add_comm]
    · rw [text_concat hp] at h
      obtain ⟨hhits, hrest⟩ := hopens.hits_append_of_replaceFrom hlength (fun heq => hne (String.toList_inj.1 heq))
        (beginsLike_spell hopens hv ps) h
      rw [hhits, List.count_cons_of_ne hp, ih hrest]

lemma spell_concat_self (hv : v ∉ filled) (h : v.1 = v.2) (ps : List Piece) :
    spell (filled ++ [v]) ps = spell filled ps := by
  refine List.flatMap_congr fun p _ => ?_
  by_cases hp : p = .var v
  · rw [hp, text_var_concat, text_var hv, h]
  · exact text_concat hp

/-- One variable more is filled in where the template has it and nowhere else if it stands nowhere else. Otherwise the
text becomes another one, unless the variable stands for itself. -/
lemma replaceFrom_spell_iff (hopens : Opens '\x7b' v.1.toList) (hv : v ∉ filled) :
    replaceFrom v.1.toList v.2.toList 0 (spell filled ps) = spell (filled ++ [v]) ps ↔
      v.1 = v.2 ∨ hits v.1.toList (spell filled ps) = ps.count (.var v) := by
  constructor
  · intro h
    rw [or_iff_not_imp_left]
    intro hne
    by_cases hlength : v.2.toList.length = v.1.toList.length
    · exact hits_of_length_eq hopens hv hne hlength h
    · -- the length tells how often the variable has been replaced
      have hreplaced := hopens.length_replaceFrom v.2.toList (spell filled ps)
      have hspelled := length_spell hv ps
      rw [h] at hreplaced
      zify at hreplaced hspelled hlength ⊢
      have hzero : (hits v.1.toList (spell filled ps) - ps.count (.var v) : ℤ) *
          (v.2.toList.length - v.1.toList.length) = 0 := by linear_combination hspelled - hreplaced
      exact sub_eq_zero.1 ((mul_eq_zero.1 hzero).resolve_right (sub_ne_zero.2 hlength))
  · rintro (heq | hhits)
    · rw [spell_concat_self hv heq, ← heq, hopens.replaceFrom_self]
    · exact replaceFrom_spell hopens hv hhits

lemma inTurn_succ (hk : k < vars.length) :
    inTurn (vars.take (k + 1)) template = replace vars[k].1 vars[k].2 (inTurn (vars.take k) template) := by
  rw [inTurn, List.take_succ_eq_append_getElem hk, List.foldl_append]
  rfl

lemma Variables.not_mem_take (hvars : Variables vars) (hk : k < vars.length) : vars[k] ∉ vars.take k := by
  have hnodup := hvars.nodup.sublist (List.take_sublist (k + 1) vars)
  rw [List.take_succ_eq_append_getElem hk, List.nodup_append_comm] at hnodup
  exact (List.nodup_cons.1 hnodup).1

/-- If the text is right before a variable is filled in, it is right afterwards exactly if that is done undisturbed. -/
lemma Variables.inTurn_succ_iff (hvars : Variables vars) (hk : k < vars.length)
    (hbefore : inTurn (vars.take k) template = String.ofList (spell (vars.take k) ps)) :
    inTurn (vars.take (k + 1)) template = String.ofList (spell (vars.take (k + 1)) ps) ↔
      vars[k].1 = vars[k].2 ∨ hits vars[k].1.toList (spell (vars.take k) ps) = ps.count (.var vars[k]) := by
  rw [inTurn_succ hk, hbefore, replace, String.toList_ofList, String.ofList_inj, List.take_succ_eq_append_getElem hk]
  exact replaceFrom_spell_iff (hvars.opens _ (List.getElem_mem hk)) (hvars.not_mem_take hk)

/-- The text is right after each of the variables exactly if all of them are filled in undisturbed. -/
theorem Variables.inTurn_iff (hvars : Variables vars) (template : String) :
    (∀ k ≤ vars.length, inTurn (vars.take k) template =
      String.ofList (spell (vars.take k) (piecesFrom vars 0 template.toList))) ↔
    Undisturbed vars (piecesFrom vars 0 template.toList) := by
  constructor
  · intro h k hk
    exact (hvars.inTurn_succ_iff hk (h k hk.le)).1 (h (k + 1) hk)
  · intro h k hk
    induction k with
    | zero =>
      rw [List.take_zero, hvars.spell_piecesFrom, List.drop_zero, String.ofList_toList]
      rfl
    | succ k ih => exact (hvars.inTurn_succ_iff hk (ih (Nat.le_of_succ_le hk))).2 (h k hk)

/-- Without other braces in the text, a variable stands where the template has it. -/
lemma Variables.hits_spell (hvars : Variables vars) (hv : v ∈ vars) (hfilled : v ∉ filled)
    (hvalues : ∀ w ∈ filled, '\x7b' ∉ w.2.toList) (hps : ∀ w, .var w ∈ ps → w ∈ vars) (hchars : .char '\x7b' ∉ ps) :
    hits v.1.toList (spell filled ps) = ps.count (.var v) := by
  have hopens := hvars.opens v hv
  induction ps with
  | nil => rfl
  | cons p ps ih =>
    replace ih := ih (fun w hw => hps w (List.mem_cons_of_mem _ hw)) (fun hmem => hchars (List.mem_cons_of_mem _ hmem))
    rw [spell_cons]
    by_cases hp : p = .var v
    · subst hp
      rw [text_var hfilled, hopens.hits_word_append, ih, List.count_cons_self, Nat.add_comm]
    rw [List.count_cons_of_ne hp, ← ih]
    cases p with
    | char c =>
      refine hopens.hits_append fun hmem => hchars ?_
      rw [List.mem_singleton.1 hmem]
      exact List.mem_cons_self
    | var w =>
      by_cases hw : w ∈ filled
      · rw [Piece.text, if_pos hw]
        exact hopens.hits_append (hvalues w hw)
      · have hmem := hps w List.mem_cons_self
        have hother : ¬v.1.toList <+: w.1.toList ++ spell filled ps := by
          intro hbegin
          rcases List.prefix_or_prefix_of_prefix hbegin (List.prefix_append _ _) with h | h
          · exact hp (by rw [hvars.apart v hv w hmem h])
          · exact hp (by rw [hvars.apart w hmem v hv h])
        rw [text_var hw]
        exact hopens.hits_append_other (hvars.opens w hmem) hother

theorem Variables.undisturbed (hvars : Variables vars) (hvalues : ∀ v ∈ vars.dropLast, '\x7b' ∉ v.2.toList)
    (hps : ∀ v, .var v ∈ ps → v ∈ vars) (hchars : .char '\x7b' ∉ ps) : Undisturbed vars ps := by
  intro k hk
  refine .inr (hvars.hits_spell (List.getElem_mem hk) (hvars.not_mem_take hk) (fun w hw => hvalues w ?_) hps hchars)
  rw [List.dropLast_eq_take]
  exact List.take_subset_take_left vars (by omega) hw

/-- The variables, whatever the file. -/
def names : List String :=
  ["\x7bname\x7d", "\x7bextension\x7d", "\x7bext\x7d", "\x7byear\x7d", "\x7bmonth\x7d", "\x7bday\x7d",
    "\x7bdate\x7d", "\x7bparent\x7d", "\x7bpath\x7d"]

lemma map_fst_values (f : FileInfo) : (values f).map Prod.fst = names := rfl

lemma variables_values (f : FileInfo) : Variables (values f) := by
  have hnodup : names.Nodup := by decide
  have hopens : ∀ s ∈ names, s.toList = '\x7b' :: s.toList.tail ∧ '\x7b' ∉ s.toList.tail := by decide
  have happart : ∀ s ∈ names, ∀ t ∈ names, s.toList <+: t.toList → s = t := by decide
  rw [← map_fst_values f] at hnodup hopens happart
  constructor
  · exact hnodup.of_map
  · intro v hv
    obtain ⟨hcons, htail⟩ := hopens v.1 (List.mem_map_of_mem hv)
    exact ⟨hcons, htail⟩
  · intro v hv w hw hbegin
    have hname := happart v.1 (List.mem_map_of_mem hv) w.1 (List.mem_map_of_mem hw) hbegin
    exact List.inj_on_of_nodup_map hnodup hv hw hname

/-- Each of the values but the path comes from the name of the file, its directory, or the day of its last change. -/
lemma values_cases (hv : v ∈ (values f).dropLast) :
    v = ("\x7bname\x7d", f.stem) ∨ v = ("\x7bextension\x7d", withoutDots f.ext) ∨ v = ("\x7bext\x7d", f.ext) ∨
    v = ("\x7byear\x7d", Date.yearText f.modified.date.year) ∨ v = ("\x7bmonth\x7d", padded 2 f.modified.date.month) ∨
    v = ("\x7bday\x7d", padded 2 f.modified.date.day) ∨ v = ("\x7bdate\x7d", f.modified.date.text) ∨
    v = ("\x7bparent\x7d", f.parent.fileName) := by
  simpa [values, List.dropLast_eq_take] using hv

section

variable {c : Char} (hc : c.isDigit = false)

include hc

lemma not_mem_padded (width n : ℕ) : c ∉ (padded width n).toList := by
  intro h
  rw [padded, String.toList_ofList, List.mem_append] at h
  rcases h with h | h
  · rw [List.eq_of_mem_replicate h] at hc
    exact absurd hc (by decide)
  · have hdigit := Nat.isDigit_of_mem_toDigits (by decide) (by decide) h
    exact absurd (hc.symm.trans hdigit) (by decide)

variable (hplus : c ≠ '+') (hminus : c ≠ '-')

include hplus hminus

lemma not_mem_yearText (y : ℤ) : c ∉ (Date.yearText y).toList := by
  rw [Date.yearText]
  split_ifs <;> simp [not_mem_padded hc, hplus, hminus]

lemma not_mem_text (d : Date) : c ∉ d.text.toList := by
  simp [Date.text, not_mem_padded hc, not_mem_yearText hc hplus hminus, hminus]

lemma not_mem_values (hstem : c ∉ f.stem.toList) (hext : c ∉ f.ext.toList) (hparent : c ∉ f.parent.fileName.toList)
    (hv : v ∈ (values f).dropLast) : c ∉ v.2.toList := by
  have hdots : c ∉ (withoutDots f.ext).toList := by
    rw [withoutDots, String.toList_ofList]
    exact fun h => hext ((List.dropWhile_sublist _).mem h)
  rcases values_cases hv with rfl | rfl | rfl | rfl | rfl | rfl | rfl | rfl <;> dsimp only
  · exact hstem
  · exact hdots
  · exact hext
  · exact not_mem_yearText hc hplus hminus _
  · exact not_mem_padded hc _ _
  · exact not_mem_padded hc _ _
  · exact not_mem_text hc hplus hminus _
  · exact hparent

end

lemma render_of_undisturbed (h : Undisturbed (values f) (pieces template f)) : render template f = fill template f := by
  have hlast := ((variables_values f).inTurn_iff template).2 h _ le_rfl
  rw [List.take_length] at hlast
  exact hlast

/-- Filling in one variable after the other gives the template with its variables replaced if each of them, when its
turn comes, stands only where the template has it; and this is what it takes for the text to be right after each of
them. It holds if neither the names of the file and its directory nor the text around the variables have an opening
brace. -/
theorem render_eq_fill (template : String) (f : FileInfo) :
    (Undisturbed (values f) (pieces template f) → render template f = fill template f) ∧
    (Undisturbed (values f) (pieces template f) ↔ ∀ k ≤ (values f).length,
      inTurn ((values f).take k) template = String.ofList (spell ((values f).take k) (pieces template f))) ∧
    ('\x7b' ∉ f.stem.toList → '\x7b' ∉ f.ext.toList → '\x7b' ∉ f.parent.fileName.toList →
      .char '\x7b' ∉ pieces template f → Undisturbed (values f) (pieces template f)) := by
  have hvars := variables_values f
  refine ⟨render_of_undisturbed, (hvars.inTurn_iff template).symm, fun hstem hext hparent hchars => ?_⟩
  have hvalues : ∀ v ∈ (values f).dropLast, '\x7b' ∉ v.2.toList := fun v hv =>
    not_mem_values rfl (by decide) (by decide) hstem hext hparent hv
  exact hvars.undisturbed hvalues (fun v hv => mem_piecesFrom 0 hv) hchars

section

/-- A file at the path, last changed at noon on 5 June 2024. -/
def named (path : String) : FileInfo := .described ⟨path⟩ 1 (.ofParts ⟨2024, 6, 5⟩ 12 0 0 0) false

/-- Braces in the name of a file do not matter as long as they make no variable. -/
theorem render_eq_fill_braces :
    render "\x7bdate\x7d_\x7bname\x7d\x7bext\x7d" (named "/in/inbox/scan.PDF") = "2024-06-05_scan.pdf" ∧
      '\x7b' ∈ (named "/in/\x7bx\x7d.txt").stem.toList ∧
      render "\x7bname\x7d-\x7byear\x7d\x7bext\x7d" (named "/in/\x7bx\x7d.txt") = "\x7bx\x7d-2024.txt" := by
  obtain ⟨hscan, -, hplain⟩ :=
    render_eq_fill "\x7bdate\x7d_\x7bname\x7d\x7bext\x7d" (named "/in/inbox/scan.PDF")
  obtain ⟨hbraced, -⟩ := render_eq_fill "\x7bname\x7d-\x7byear\x7d\x7bext\x7d" (named "/in/\x7bx\x7d.txt")
  refine ⟨?_, by decide +kernel, ?_⟩
  · rw [hscan (hplain (by decide +kernel) (by decide +kernel) (by decide +kernel) (by decide +kernel))]
    decide +kernel
  · rw [hbraced (by unfold Undisturbed; decide +kernel)]
    decide +kernel

/-- The stem of a file may be a variable itself, and then it is filled in too. -/
theorem render_eq_fill_fails : ¬∀ (template : String) (f : FileInfo), render template f = fill template f := by
  intro h
  have hempty := h "\x7bname\x7d" (named "/in/\x7bext\x7d.txt")
  exact absurd hempty (by decide +kernel)

end

end FileOrganizer.Template
