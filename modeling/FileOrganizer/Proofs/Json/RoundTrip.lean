import FileOrganizer.Json.Reader
import FileOrganizer.Json.Writer
import Mathlib.Data.List.DropRight
import Mathlib.Tactic.Lemma
import Mathlib.Tactic.NormNum.Basic

/-! What is written as JSON, on one line or with one member a line, is read back: a text is put together from the
texts of the parts of a value, with blanks between them, and is read back if these are. -/

namespace FileOrganizer.Json

variable {c : Char} {cs ds rest ws ws' : List Char} {s k : String} {j x v : Json} {xs : List Json}
  {ms : List (String × Json)} {fuel level n : Nat}

lemma hex4?_append (h : hex4? cs = some (n, [])) : hex4? (cs ++ rest) = some (n, rest) := by
  unfold hex4? at h
  split at h
  · next a b c d cs =>
    split at h
    · next hhex =>
      obtain ⟨rfl, rfl⟩ := Prod.mk.inj (Option.some.inj h)
      simp [hex4?, hhex]
    · cases h
  · cases h

lemma hex4?_hexDigits (h : n < 32) : hex4? (hexDigits n ++ rest) = some (n, rest) := by
  have hall : ∀ m < 32, hex4? (hexDigits m) = some (m, []) := by decide
  exact hex4?_append (hall n h)

/-- How a character is written within a string. -/
lemma escape_cases (c : Char) :
    (∃ e, escape c = ['\\', e] ∧ e ≠ 'u' ∧ simpleEscape? e = some c) ∨
      (c.toNat < 32 ∧ escape c = '\\' :: 'u' :: hexDigits c.toNat) ∨
      (32 ≤ c.toNat ∧ c ≠ '"' ∧ c ≠ '\\' ∧ escape c = [c]) := by
  unfold escape
  split
  case h_8 hquote hslash _ _ _ _ _ =>
    right
    split
    · next hlow => exact Or.inl ⟨hlow, rfl⟩
    · next hlow => exact Or.inr ⟨by omega, hquote, hslash, rfl⟩
  all_goals exact Or.inl ⟨_, rfl, by decide, rfl⟩

lemma numberEscape?_low (h : c.toNat < 32) : numberEscape? (hexDigits c.toNat ++ rest) = some (some c, rest) := by
  unfold numberEscape?
  rw [hex4?_hexDigits h]
  have h1 : ¬(0xD800 ≤ c.toNat ∧ c.toNat ≤ 0xDBFF) := by omega
  have h2 : ¬(0xDC00 ≤ c.toNat ∧ c.toNat ≤ 0xDFFF) := by omega
  simp [h1, h2]

/-- A character is read back. -/
lemma string?_escape (acc : List Char) :
    string? (fuel + 1) (some acc) (escape c ++ rest) = string? fuel (some (c :: acc)) rest := by
  rcases escape_cases c with ⟨e, he, hu, hsimple⟩ | ⟨hlow, he⟩ | ⟨hhigh, hquote, hslash, he⟩
  · rw [he]
    simp only [List.cons_append, List.nil_append]
    conv_lhs => unfold string?
    split
    · next h => cases h
    · next h => cases h
    · next h =>
      cases h
      exact absurd rfl hu
    · next h =>
      cases h
      simp only [hsimple, Option.map_some]
    · next h1 h2 h =>
      cases h
      exact (h2 _ _ rfl rfl).elim
  · rw [he]
    simp only [List.cons_append]
    rw [string?, numberEscape?_low hlow]
    simp only [Option.map_some]
  · rw [he]
    simp only [List.cons_append, List.nil_append]
    conv_lhs => unfold string?
    split
    · next h => cases h
    · next h =>
      cases h
      exact absurd rfl hquote
    · next h =>
      cases h
      exact absurd rfl hslash
    · next h =>
      cases h
      exact absurd rfl hslash
    · next h =>
      cases h
      rw [if_neg]
      · simp only [Option.map_some]
      · rintro (hlow | heq)
        · omega
        · exact hslash heq

lemma string?_escapes (acc : List Char) (h : cs.length < fuel) :
    string? fuel (some acc) (cs.flatMap escape ++ '"' :: rest) = some (some (String.ofList (acc.reverse ++ cs)), rest) := by
  induction cs generalizing fuel acc with
  | nil =>
    obtain ⟨fuel, rfl⟩ : ∃ k, fuel = k + 1 := ⟨fuel - 1, by omega⟩
    simp [string?]
  | cons c cs ih =>
    obtain ⟨fuel, rfl⟩ : ∃ k, fuel = k + 1 := ⟨fuel - 1, by omega⟩
    rw [List.flatMap_cons, List.append_assoc, string?_escape, ih _ (by simpa using h)]
    simp

lemma length_le_escapes (cs : List Char) : cs.length ≤ (cs.flatMap escape).length := by
  induction cs with
  | nil => simp
  | cons c cs ih =>
    have hpos : 1 ≤ (escape c).length := by
      rcases escape_cases c with ⟨e, he, -⟩ | ⟨-, he⟩ | ⟨-, -, -, he⟩
      all_goals simp [he]
    rw [List.flatMap_cons, List.length_append, List.length_cons]
    omega

lemma toList_quote (s : String) : (quote s).toList = '"' :: (s.toList.flatMap escape ++ ['"']) := by
  simp [quote]

/-- What follows the opening quote of a string is read back. -/
lemma string?_quote (s : String) (rest : List Char) :
    string? ((s.toList.flatMap escape ++ '"' :: rest).length + 1) (some []) (s.toList.flatMap escape ++ '"' :: rest) =
      some (some s, rest) := by
  have hlen := length_le_escapes s.toList
  rw [string?_escapes []]
  · simp
  · rw [List.length_append, List.length_cons]
    omega

lemma skipSpace_append (h : ∀ c ∈ ws, isSpace c = true) : skipSpace (ws ++ cs) = skipSpace cs := by
  induction ws with
  | nil => rfl
  | cons c ws ih =>
    have hc : isSpace c = true := h c (by simp)
    simp only [skipSpace] at ih ⊢
    rw [List.cons_append, List.dropWhile_cons_of_pos hc]
    exact ih fun d hd => h d (by simp [hd])

lemma skipSpace_cons (h : isSpace c = false) : skipSpace (c :: cs) = c :: cs := by
  simp [skipSpace, h]

lemma skipSpace_skipSpace (cs : List Char) : skipSpace (skipSpace cs) = skipSpace cs :=
  List.dropWhile_idempotent isSpace cs

/-- What stands between the parts of a value. -/
def Blank (ws : List Char) : Prop := ∀ c ∈ ws, isSpace c = true

lemma blank_nil : Blank [] := fun c hc => (by cases hc)

lemma blank_space : Blank [' '] := List.forall_mem_singleton.2 (by decide)

lemma blank_margin (n : Nat) : Blank (margin n).toList := by
  intro c hc
  simp only [margin, String.toList_append, String.toList_ofList, List.mem_append, List.mem_replicate] at hc
  rcases hc with hc | ⟨-, rfl⟩
  · have hc : c = '\n' := by simpa using hc
    simp [hc, isSpace]
  · simp [isSpace]

/-- No character that would go on with a number comes next. -/
def Ends (cs : List Char) : Prop := ∀ c, cs.head? = some c → isDigit c = false ∧ c ≠ '.' ∧ c ≠ 'e' ∧ c ≠ 'E'

lemma ends_nil : Ends [] := fun c hc => (by cases hc)

lemma ends_cons (h : isDigit c = false ∧ c ≠ '.' ∧ c ≠ 'e' ∧ c ≠ 'E') : Ends (c :: cs) := by
  intro d hd
  obtain rfl : c = d := by simpa using hd
  exact h

lemma ends_blank (hws : Blank ws) (h : Ends cs) : Ends (ws ++ cs) := by
  cases ws with
  | nil => exact h
  | cons c ws =>
    have hc := hws c List.mem_cons_self
    simp only [isSpace, Bool.or_eq_true, beq_iff_eq] at hc
    apply ends_cons
    rcases hc with ((rfl | rfl) | rfl) | rfl <;> decide

lemma value_skipSpace (fuel : Nat) (cs : List Char) : value fuel (skipSpace cs) = value fuel cs := by
  cases fuel with
  | zero => rfl
  | succ fuel => rw [value, value, skipSpace_skipSpace]

lemma items_skipSpace (fuel : Nat) (cs : List Char) : items fuel (skipSpace cs) = items fuel cs := by
  cases fuel with
  | zero => rfl
  | succ fuel => rw [items, items, value_skipSpace]

lemma members_skipSpace (fuel : Nat) (cs : List Char) : members fuel (skipSpace cs) = members fuel cs := by
  cases fuel with
  | zero => rfl
  | succ fuel => rw [members, members, skipSpace_skipSpace]

/-- A text begins with a character that is no blank and closes nothing. -/
def Opens (cs : List Char) : Prop := ∃ c ds, cs = c :: ds ∧ isSpace c = false ∧ c ≠ ']' ∧ c ≠ '\x7d'

/-- The value is read back from the text wherever it stands. -/
structure Reads (j : Json) (cs : List Char) : Prop where
  opens : Opens cs
  back : ∀ fuel ws rest, Blank ws → Ends rest → cs.length < fuel → value fuel (ws ++ cs ++ rest) = (j, some rest)

/-- The items are read back from the text, up to the bracket behind them. -/
structure ReadsAll (xs : List Json) (cs : List Char) : Prop where
  opens : ∃ ws ds, cs = ws ++ ds ∧ Blank ws ∧ Opens ds
  back : ∀ fuel ws rest, Blank ws → cs.length + 1 < fuel → items fuel (cs ++ (ws ++ ']' :: rest)) = (xs, some rest)

/-- The members are read back from the text, up to the brace behind them. -/
structure ReadsMembers (ms : List (String × Json)) (cs : List Char) : Prop where
  opens : ∃ ws ds, cs = ws ++ ds ∧ Blank ws ∧ Opens ds
  back : ∀ fuel ws rest, Blank ws → cs.length + 1 < fuel →
    members fuel (cs ++ (ws ++ '\x7d' :: rest)) = (ms, some rest)

lemma reads_str (s : String) : Reads (str s) (quote s).toList := by
  rw [toList_quote]
  refine ⟨⟨_, _, rfl, by decide, by decide, by decide⟩, fun fuel ws rest hws _ hfuel => ?_⟩
  obtain ⟨fuel, rfl⟩ : ∃ k, fuel = k + 1 := ⟨fuel - 1, by omega⟩
  rw [value, List.append_assoc, skipSpace_append hws, List.cons_append, skipSpace_cons (by decide)]
  simp only [List.append_assoc, List.singleton_append, string?_quote]

/-- Three words have a meaning of their own. -/
lemma reads_keyword (hopen : Opens cs) (hquote : cs.head? ≠ some '"') (harr : cs.head? ≠ some '[')
    (hobj : cs.head? ≠ some '\x7b') (h : ∀ rest, keyword? (cs ++ rest) = some (j, rest)) : Reads j cs := by
  refine ⟨hopen, fun fuel ws rest hws _ hfuel => ?_⟩
  obtain ⟨fuel, rfl⟩ : ∃ k, fuel = k + 1 := ⟨fuel - 1, by omega⟩
  obtain ⟨c, ds, rfl, hspace, -, -⟩ := hopen
  have hword := h rest
  rw [value, List.append_assoc, skipSpace_append hws]
  rw [List.cons_append] at hword ⊢
  rw [skipSpace_cons hspace]
  split
  · next heq =>
    cases heq
    exact absurd rfl hquote
  · next heq =>
    cases heq
    exact absurd rfl harr
  · next heq =>
    cases heq
    exact absurd rfl hobj
  · rw [hword]

lemma reads_null : Reads null ['n', 'u', 'l', 'l'] :=
  reads_keyword ⟨_, _, rfl, by decide, by decide, by decide⟩ (by decide) (by decide) (by decide) fun _ => rfl

lemma reads_bool (b : Bool) : Reads (bool b) (if b then "true" else "false" : String).toList := by
  cases b with
  | true =>
    exact reads_keyword ⟨_, _, rfl, by decide, by decide, by decide⟩ (by decide) (by decide) (by decide) fun _ => rfl
  | false =>
    exact reads_keyword ⟨_, _, rfl, by decide, by decide, by decide⟩ (by decide) (by decide) (by decide) fun _ => rfl

/-- The digits of a number: there is no zero in front. -/
structure Digits (n : Nat) (cs : List Char) : Prop where
  ne : cs ≠ []
  digit : ∀ c ∈ cs, isDigit c = true
  lead : cs.length > 1 → cs.head? ≠ some '0'
  value : natOf cs = n

lemma isDigit_eq (c : Char) : isDigit c = c.isDigit := by
  unfold isDigit Char.isDigit
  rw [Bool.eq_iff_iff]
  simp [Char.le_def, UInt32.le_iff_toNat_le]

lemma head?_toDigits (n : Nat) (hn : n ≠ 0) : (Nat.toDigits 10 n).head? ≠ some '0' := by
  induction n using Nat.strong_induction_on with
  | _ n ih =>
    by_cases hlow : n < 10
    · rw [Nat.toDigits_of_lt_base hlow]
      have hall : ∀ m < 10, m ≠ 0 → [Nat.digitChar m].head? ≠ some '0' := by decide
      exact hall n hlow hn
    · have hne : Nat.toDigits 10 (n / 10) ≠ [] := List.ne_nil_of_length_pos Nat.length_toDigits_pos
      rw [Nat.toDigits_of_base_le (by decide) (by omega), List.head?_append_of_ne_nil _ hne]
      exact ih _ (by omega) (by omega)

lemma digits_toString (n : Nat) : Digits n (toString n).toList := by
  rw [Nat.toString_eq_repr, Nat.toList_repr]
  refine ⟨List.ne_nil_of_length_pos Nat.length_toDigits_pos, fun c hc => ?_, fun hlen => ?_, ?_⟩
  · rw [isDigit_eq]
    exact Nat.isDigit_of_mem_toDigits (by decide) (by decide) hc
  · apply head?_toDigits
    rintro rfl
    simp at hlen
  · have hvalue := Nat.ofDigitChars_ten_toDigits (n := n)
    unfold Nat.ofDigitChars at hvalue
    unfold natOf
    simpa only [Nat.mul_comm, show '0'.toNat = 48 from rfl] using hvalue

/-- A number is read to its last digit. -/
lemma number?_digits (h : Digits n ds) (hrest : Ends rest) :
    number? (ds ++ rest) = some (classify false ds none none, rest) := by
  have hspan : (ds ++ rest).takeWhile isDigit = ds ∧ (ds ++ rest).dropWhile isDigit = rest := by
    rw [List.takeWhile_append_of_pos h.digit, List.dropWhile_append_of_pos h.digit]
    cases rest with
    | nil => simp
    | cons c rest => simp [(hrest c rfl).1]
  have hminus : ∀ cs, ds ++ rest ≠ '-' :: cs := by
    obtain ⟨c, cs, rfl⟩ := List.exists_cons_of_ne_nil h.ne
    rintro cs heq
    obtain ⟨rfl, -⟩ := List.cons.inj heq
    exact absurd (h.digit '-' List.mem_cons_self) (by decide)
  have hwhole : ¬(ds = [] ∨ ds.length > 1 ∧ ds.head? = some '0') := by
    rintro (hnil | ⟨hlen, hzero⟩)
    · exact h.ne hnil
    · exact h.lead hlen hzero
  unfold number?
  split
  next negative cs hsign =>
    obtain ⟨rfl, rfl⟩ : negative = false ∧ cs = ds ++ rest := by
      split at hsign
      · next heq => exact absurd heq (hminus _)
      · exact ⟨(Prod.mk.inj hsign).1.symm, (Prod.mk.inj hsign).2.symm⟩
    dsimp only
    rw [hspan.1, hspan.2, if_neg hwhole]
    cases rest with
    | nil => rfl
    | cons c rest =>
      obtain ⟨-, hpoint, hlow, hhigh⟩ := hrest c rfl
      split
      · next heq =>
        cases heq
        exact absurd rfl hpoint
      · simp [hlow, hhigh]

lemma keyword?_digit (h : isDigit c = true) : keyword? (c :: cs) = none := by
  unfold keyword?
  split
  · next heq => exact absurd ((List.cons.inj heq).1 ▸ h) (by decide)
  · next heq => exact absurd ((List.cons.inj heq).1 ▸ h) (by decide)
  · next heq => exact absurd ((List.cons.inj heq).1 ▸ h) (by decide)
  · rfl

/-- Natural numbers of 64 bits are read back. -/
lemma reads_nat (h : n < Nat.pow 2 64) : Reads (nat n) (toString n).toList := by
  have hdigits := digits_toString n
  have hclass : classify false (toString n).toList none none = .nat n := by
    simp only [classify, hdigits.value, Bool.false_eq_true, if_false, if_pos h]
  obtain ⟨c, cs, hcs⟩ := List.exists_cons_of_ne_nil hdigits.ne
  have hc : isDigit c = true := hdigits.digit c (hcs ▸ List.mem_cons_self)
  have hno : ∀ d, isDigit d = false → c ≠ d := by
    rintro d hd rfl
    rw [hc] at hd
    cases hd
  refine ⟨⟨c, cs, hcs, ?_, hno _ (by decide), hno _ (by decide)⟩, fun fuel ws rest hws hrest hfuel => ?_⟩
  · simp [isSpace, hno ' ' (by decide), hno '\n' (by decide), hno '\t' (by decide), hno '\r' (by decide)]
  · obtain ⟨fuel, rfl⟩ : ∃ k, fuel = k + 1 := ⟨fuel - 1, by omega⟩
    have hnumber := number?_digits hdigits hrest
    rw [value, List.append_assoc, skipSpace_append hws]
    rw [hclass, hcs, List.cons_append] at hnumber
    rw [hcs, List.cons_append, skipSpace_cons]
    · split
      · next heq => exact absurd (List.cons.inj heq).1 (hno _ (by decide))
      · next heq => exact absurd (List.cons.inj heq).1 (hno _ (by decide))
      · next heq => exact absurd (List.cons.inj heq).1 (hno _ (by decide))
      · rw [keyword?_digit hc, hnumber]
        rfl
    · simp [isSpace, hno ' ' (by decide), hno '\n' (by decide), hno '\t' (by decide), hno '\r' (by decide)]

lemma readsAll_single (hws : Blank ws) (h : Reads x cs) : ReadsAll [x] (ws ++ cs) := by
  refine ⟨⟨ws, cs, rfl, hws, h.opens⟩, fun fuel ws' rest hws' hfuel => ?_⟩
  obtain ⟨fuel, rfl⟩ : ∃ k, fuel = k + 1 := ⟨fuel - 1, by omega⟩
  have hlen : cs.length < fuel := by
    rw [List.length_append] at hfuel
    omega
  rw [items, h.back fuel ws _ hws (ends_blank hws' (ends_cons (by decide))) hlen]
  simp only [skipSpace_append hws', skipSpace_cons (show isSpace ']' = false by decide)]

lemma readsAll_cons (hws : Blank ws) (h : Reads x cs) (hxs : ReadsAll xs ds) :
    ReadsAll (x :: xs) (ws ++ (cs ++ ',' :: ds)) := by
  obtain ⟨c, cs', hcs, hopen⟩ := h.opens
  refine ⟨⟨ws, _, rfl, hws, c, cs' ++ ',' :: ds, by rw [hcs, List.cons_append], hopen⟩, fun fuel ws' rest hws' hfuel => ?_⟩
  obtain ⟨fuel, rfl⟩ : ∃ k, fuel = k + 1 := ⟨fuel - 1, by omega⟩
  simp only [List.length_append, List.length_cons] at hfuel
  have hrest : ws ++ (cs ++ ',' :: ds) ++ (ws' ++ ']' :: rest) = ws ++ cs ++ (',' :: (ds ++ (ws' ++ ']' :: rest))) := by
    simp
  rw [hrest, items, h.back fuel ws _ hws (ends_cons (by decide)) (by omega)]
  simp only [skipSpace_cons (show isSpace ',' = false by decide), hxs.back fuel ws' rest hws' (by omega)]

lemma reads_arr_nil : Reads (arr []) ['[', ']'] := by
  refine ⟨⟨_, _, rfl, by decide, by decide, by decide⟩, fun fuel ws rest hws _ hfuel => ?_⟩
  obtain ⟨fuel, rfl⟩ : ∃ k, fuel = k + 1 := ⟨fuel - 1, by omega⟩
  rw [value, List.append_assoc, skipSpace_append hws, List.cons_append, skipSpace_cons (by decide)]
  simp only [List.cons_append, List.nil_append, skipSpace_cons (show isSpace ']' = false by decide)]

lemma reads_arr (hws : Blank ws) (h : ReadsAll xs cs) : Reads (arr xs) ('[' :: (cs ++ (ws ++ [']']))) := by
  refine ⟨⟨_, _, rfl, by decide, by decide, by decide⟩, fun fuel ws' rest hws' _ hfuel => ?_⟩
  obtain ⟨fuel, rfl⟩ : ∃ k, fuel = k + 1 := ⟨fuel - 1, by omega⟩
  have hlen : cs.length + 1 < fuel := by
    simp only [List.length_cons, List.length_append, List.length_nil] at hfuel
    omega
  have hitems := h.back fuel ws rest hws hlen
  obtain ⟨ws₀, ds, rfl, hws₀, c, ds, rfl, hspace, hbracket, -⟩ := h.opens
  rw [value, List.append_assoc, skipSpace_append hws', List.cons_append, skipSpace_cons (by decide)]
  simp only [List.append_assoc, List.singleton_append]
  rw [← items_skipSpace, List.append_assoc, skipSpace_append hws₀, List.cons_append, skipSpace_cons hspace] at hitems
  rw [skipSpace_append hws₀, List.cons_append, skipSpace_cons hspace]
  split
  · next heq =>
    cases heq
    exact absurd rfl hbracket
  · rw [hitems]

lemma toList_member (k : String) (ws ws' cs rest : List Char) : ws ++ ((quote k).toList ++ ':' :: (ws' ++ cs)) ++ rest =
    ws ++ '"' :: (k.toList.flatMap escape ++ '"' :: ':' :: (ws' ++ cs ++ rest)) := by
  simp [toList_quote]

section

variable (hws : Blank ws) (hws' : Blank ws') (h : Reads v cs) (hrest : Ends rest) (hfuel : cs.length < fuel)

include hws hws' h hrest hfuel

/-- A member is read back, and those behind it. -/
lemma members_more (hcomma : skipSpace rest = ',' :: ds) :
    members (fuel + 1) (ws ++ ((quote k).toList ++ ':' :: (ws' ++ cs)) ++ rest) =
      ((k, v) :: (members fuel ds).1, (members fuel ds).2) := by
  rw [toList_member, members, skipSpace_append hws, skipSpace_cons (by decide)]
  simp only [string?_quote, skipSpace_cons (show isSpace ':' = false by decide), h.back fuel ws' rest hws' hrest hfuel,
    hcomma]

/-- The last member is read back. -/
lemma members_last (hbrace : skipSpace rest = '\x7d' :: ds) :
    members (fuel + 1) (ws ++ ((quote k).toList ++ ':' :: (ws' ++ cs)) ++ rest) = ([(k, v)], some ds) := by
  rw [toList_member, members, skipSpace_append hws, skipSpace_cons (by decide)]
  simp only [string?_quote, skipSpace_cons (show isSpace ':' = false by decide), h.back fuel ws' rest hws' hrest hfuel,
    hbrace]

end

lemma readsMembers_single (hws : Blank ws) (hws' : Blank ws') (h : Reads v cs) :
    ReadsMembers [(k, v)] (ws ++ ((quote k).toList ++ ':' :: (ws' ++ cs))) := by
  refine ⟨⟨ws, _, rfl, hws, '"', _, by rw [toList_quote, List.cons_append], by decide, by decide, by decide⟩,
    fun fuel ws₀ rest hws₀ hfuel => ?_⟩
  obtain ⟨fuel, rfl⟩ : ∃ k, fuel = k + 1 := ⟨fuel - 1, by omega⟩
  have hlen : cs.length < fuel := by
    simp only [List.length_append, List.length_cons] at hfuel
    omega
  have hbrace : skipSpace (ws₀ ++ '\x7d' :: rest) = '\x7d' :: rest := by
    rw [skipSpace_append hws₀, skipSpace_cons (by decide)]
  exact members_last hws hws' h (ends_blank hws₀ (ends_cons (by decide))) hlen hbrace

lemma readsMembers_cons (hws : Blank ws) (hws' : Blank ws') (h : Reads v cs) (hms : ReadsMembers ms ds) :
    ReadsMembers ((k, v) :: ms) (ws ++ ((quote k).toList ++ ':' :: (ws' ++ cs)) ++ ',' :: ds) := by
  refine ⟨⟨ws, _, List.append_assoc _ _ _, hws, '"', _, by rw [toList_quote, List.cons_append, List.cons_append], by decide,
    by decide, by decide⟩, fun fuel ws₀ rest hws₀ hfuel => ?_⟩
  obtain ⟨fuel, rfl⟩ : ∃ k, fuel = k + 1 := ⟨fuel - 1, by omega⟩
  simp only [List.length_append, List.length_cons] at hfuel
  rw [List.append_assoc, List.cons_append,
    members_more hws hws' h (ends_cons (by decide)) (by omega) (skipSpace_cons (by decide)),
    hms.back fuel ws₀ rest hws₀ (by omega)]

lemma reads_obj_nil : Reads (obj []) ['\x7b', '\x7d'] := by
  refine ⟨⟨_, _, rfl, by decide, by decide, by decide⟩, fun fuel ws rest hws _ hfuel => ?_⟩
  obtain ⟨fuel, rfl⟩ : ∃ k, fuel = k + 1 := ⟨fuel - 1, by omega⟩
  rw [value, List.append_assoc, skipSpace_append hws, List.cons_append, skipSpace_cons (by decide)]
  simp only [List.cons_append, List.nil_append, skipSpace_cons (show isSpace '\x7d' = false by decide)]

lemma reads_obj (hws : Blank ws) (h : ReadsMembers ms cs) : Reads (obj ms) ('\x7b' :: (cs ++ (ws ++ ['\x7d']))) := by
  refine ⟨⟨_, _, rfl, by decide, by decide, by decide⟩, fun fuel ws' rest hws' _ hfuel => ?_⟩
  obtain ⟨fuel, rfl⟩ : ∃ k, fuel = k + 1 := ⟨fuel - 1, by omega⟩
  have hlen : cs.length + 1 < fuel := by
    simp only [List.length_cons, List.length_append, List.length_nil] at hfuel
    omega
  have hmembers := h.back fuel ws rest hws hlen
  obtain ⟨ws₀, ds, rfl, hws₀, c, ds, rfl, hspace, -, hbrace⟩ := h.opens
  rw [value, List.append_assoc, skipSpace_append hws', List.cons_append, skipSpace_cons (by decide)]
  simp only [List.append_assoc, List.singleton_append]
  rw [← members_skipSpace, List.append_assoc, skipSpace_append hws₀, List.cons_append, skipSpace_cons hspace] at hmembers
  rw [skipSpace_append hws₀, List.cons_append, skipSpace_cons hspace]
  split
  · next heq =>
    cases heq
    exact absurd rfl hbrace
  · rw [hmembers]

/-- A text that spells a value is read as that value, and as a whole. -/
lemma ofText_of_reads {text : String} (h : Reads j text.toList) : ofText text = (j, true) := by
  have hback := h.back (text.toList.length + 1) [] [] blank_nil ends_nil (Nat.lt_succ_self _)
  rw [List.nil_append, List.append_nil] at hback
  simp only [ofText, hback]
  rfl

mutual

/-- Are all numbers in the value natural and of 64 bits, and all strings whole? -/
def Legible : Json → Prop
  | num (.nat n) => n < Nat.pow 2 64
  | num _ | halved | torn => False
  | arr xs => LegibleAll xs
  | obj ms => LegibleMembers ms
  | null | bool _ | str _ => True

def LegibleAll : List Json → Prop
  | [] => True
  | x :: xs => x.Legible ∧ LegibleAll xs

def LegibleMembers : List (String × Json) → Prop
  | [] => True
  | (_, v) :: ms => v.Legible ∧ LegibleMembers ms

end

lemma legibleAll_iff : LegibleAll xs ↔ ∀ x ∈ xs, x.Legible := by
  induction xs with
  | nil => simp [LegibleAll]
  | cons x xs ih => simp [LegibleAll, ih]

lemma legible_map {α : Type} {f : α → Json} {as : List α} (h : ∀ a ∈ as, (f a).Legible) : LegibleAll (as.map f) := by
  rw [legibleAll_iff, List.forall_mem_map]
  exact h

lemma legible_texts (ts : List String) : LegibleAll (ts.map str) := legible_map fun _ _ => trivial

lemma legible_ofOption (t : Option String) : (ofOption t).Legible := by
  cases t with
  | none => trivial
  | some t => trivial

mutual

theorem reads_compact : ∀ j : Json, j.Legible → Reads j j.compact.toList
  | null, _ => reads_null
  | bool b, _ => reads_bool b
  | num (.nat _), h => reads_nat h
  | str s, _ => reads_str s
  | arr [], _ => reads_arr_nil
  | arr (x :: xs), h => by
    have hread := reads_arr blank_nil (readsAll_compact (x :: xs) (List.cons_ne_nil x xs) h)
    simpa [compact] using hread
  | obj [], _ => reads_obj_nil
  | obj (m :: ms), h => by
    have hread := reads_obj blank_nil (readsMembers_compact (m :: ms) (List.cons_ne_nil m ms) h)
    simpa [compact] using hread

theorem readsAll_compact : ∀ xs : List Json, xs ≠ [] → LegibleAll xs → ReadsAll xs (compactAll xs).toList
  | [], hne, _ => absurd rfl hne
  | [x], _, h => by simpa [compactAll] using readsAll_single blank_nil (reads_compact x h.1)
  | x :: y :: xs, _, h => by
    have hrest := readsAll_compact (y :: xs) (List.cons_ne_nil y xs) h.2
    simpa [compactAll] using readsAll_cons blank_nil (reads_compact x h.1) hrest

theorem readsMembers_compact : ∀ ms : List (String × Json), ms ≠ [] → LegibleMembers ms →
    ReadsMembers ms (compactMembers ms).toList
  | [], hne, _ => absurd rfl hne
  | [(k, v)], _, h => by
    simpa [compactMembers] using readsMembers_single (k := k) blank_nil blank_nil (reads_compact v h.1)
  | (k, v) :: m :: ms, _, h => by
    have hrest := readsMembers_compact (m :: ms) (List.cons_ne_nil m ms) h.2
    simpa [compactMembers] using readsMembers_cons (k := k) blank_nil blank_nil (reads_compact v h.1) hrest

end

mutual

theorem reads_spread : ∀ (level : Nat) (j : Json), j.Legible → Reads j (j.spread level).toList
  | _, null, _ => by
    rw [spread]
    exact reads_null
  | _, bool b, _ => reads_bool b
  | _, num (.nat _), h => reads_nat h
  | _, str s, _ => reads_str s
  | _, arr [], _ => by
    rw [spread]
    exact reads_arr_nil
  | level, arr (x :: xs), h => by
    have hread := reads_arr (blank_margin level) (readsAll_spread (level + 1) (x :: xs) (List.cons_ne_nil x xs) h)
    simpa [spread] using hread
  | _, obj [], _ => by
    rw [spread]
    exact reads_obj_nil
  | level, obj (m :: ms), h => by
    have hread := reads_obj (blank_margin level) (readsMembers_spread (level + 1) (m :: ms) (List.cons_ne_nil m ms) h)
    simpa [spread] using hread

theorem readsAll_spread : ∀ (level : Nat) (xs : List Json), xs ≠ [] → LegibleAll xs →
    ReadsAll xs (spreadAll level xs).toList
  | _, [], hne, _ => absurd rfl hne
  | level, [x], _, h => by simpa [spreadAll] using readsAll_single (blank_margin level) (reads_spread level x h.1)
  | level, x :: y :: xs, _, h => by
    have hrest := readsAll_spread level (y :: xs) (List.cons_ne_nil y xs) h.2
    simpa [spreadAll] using readsAll_cons (blank_margin level) (reads_spread level x h.1) hrest

theorem readsMembers_spread : ∀ (level : Nat) (ms : List (String × Json)), ms ≠ [] → LegibleMembers ms →
    ReadsMembers ms (spreadMembers level ms).toList
  | _, [], hne, _ => absurd rfl hne
  | level, [(k, v)], _, h => by
    simpa [spreadMembers] using
      readsMembers_single (k := k) (blank_margin level) blank_space (reads_spread level v h.1)
  | level, (k, v) :: m :: ms, _, h => by
    have hrest := readsMembers_spread level (m :: ms) (List.cons_ne_nil m ms) h.2
    simpa [spreadMembers] using
      readsMembers_cons (k := k) (blank_margin level) blank_space (reads_spread level v h.1) hrest

end

/-- What is written on one line is read back. -/
theorem ofText_compact (h : j.Legible) : ofText j.compact = (j, true) := ofText_of_reads (reads_compact j h)

/-- What is written with one member a line is read back. -/
theorem ofText_pretty (h : j.Legible) : ofText j.pretty = (j, true) := ofText_of_reads (reads_spread 0 j h)

end FileOrganizer.Json
