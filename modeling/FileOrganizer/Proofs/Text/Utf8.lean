import FileOrganizer.Proofs.Text.Bytes
import FileOrganizer.Text.Utf8

/-! Reading bytes as UTF-8: a text is read back from its bytes, and bytes that are read without a replacement character
are those of what is read. -/

namespace FileOrganizer.Utf8

variable {s : Partial} {b n : Nat} {bs w : List UInt8}

/-- What is read from the bytes that come after `s`. -/
def charsFrom : Partial → List UInt8 → List Char
  | .none, [] => []
  | .begun .., [] => [replacement]
  | s, b :: bs => (next s b.toNat).1 ++ charsFrom (next s b.toNat).2 bs

lemma charsFrom_cons (s : Partial) (b : UInt8) (bs : List UInt8) :
    charsFrom s (b :: bs) = (next s b.toNat).1 ++ charsFrom (next s b.toNat).2 bs := by
  cases s <;> rfl

lemma foldl_feed (bs : List UInt8) (acc : List Char) (s : Partial) :
    (match bs.foldl feed (acc, s) with
      | (cs, .none) => cs.reverse
      | (cs, .begun ..) => (replacement :: cs).reverse) = acc.reverse ++ charsFrom s bs := by
  induction bs generalizing acc s with
  | nil =>
    cases s with
    | none => exact (List.append_nil _).symm
    | begun => exact List.reverse_cons
  | cons b bs ih =>
    have hfeed : feed (acc, s) b = ((next s b.toNat).1.reverse ++ acc, (next s b.toNat).2) := by
      rw [← List.reverseAux_eq]
      rfl
    rw [List.foldl_cons, hfeed, ih, charsFrom_cons, List.reverse_append, List.reverse_reverse, List.append_assoc]

lemma decodeLossy_eq (bs : List UInt8) : decodeLossy bs = charsFrom .none bs := foldl_feed bs [] .none

section

/-! What the first byte of a character says. -/

lemma first_one (h : b < 0x80) : first b = ([Char.ofNat b], .none) := if_pos h

lemma first_two (h : 0xC2 ≤ b ∧ b ≤ 0xDF) : first b = ([], .begun (b - 0xC0) 0x80 0xBF 0) := by
  unfold first
  rw [if_neg (by omega), if_pos h]

/-- Not every second byte will do after the first and the last but two of these. -/
lemma first_three (h : 0xE0 ≤ b ∧ b ≤ 0xEF) : first b =
    ([], .begun (b - 0xE0) (if b = 0xE0 then 0xA0 else 0x80) (if b = 0xED then 0x9F else 0xBF) 1) := by
  unfold first
  rw [if_neg (by omega), if_neg (by omega)]
  by_cases hlow : b = 0xE0
  · subst hlow; rfl
  by_cases hhigh : b = 0xED
  · subst hhigh; rfl
  rw [if_neg hlow, if_neg hhigh, if_pos (by omega), if_neg hlow, if_neg hhigh]

lemma first_four (h : 0xF0 ≤ b ∧ b ≤ 0xF4) : first b =
    ([], .begun (b - 0xF0) (if b = 0xF0 then 0x90 else 0x80) (if b = 0xF4 then 0x8F else 0xBF) 2) := by
  unfold first
  rw [if_neg (by omega), if_neg (by omega), if_neg (by omega), if_neg (by omega), if_neg (by omega)]
  by_cases hlow : b = 0xF0
  · subst hlow; rfl
  by_cases hhigh : b = 0xF4
  · subst hhigh; rfl
  rw [if_neg hlow, if_pos (by omega), if_neg hlow, if_neg hhigh]

lemma first_cases (b : Nat) : b < 0x80 ∨ (0xC2 ≤ b ∧ b ≤ 0xDF) ∨ (0xE0 ≤ b ∧ b ≤ 0xEF) ∨ (0xF0 ≤ b ∧ b ≤ 0xF4) ∨
    first b = ([replacement], .none) := by
  by_cases h : b < 0x80 ∨ (0xC2 ≤ b ∧ b ≤ 0xDF) ∨ (0xE0 ≤ b ∧ b ≤ 0xEF) ∨ (0xF0 ≤ b ∧ b ≤ 0xF4)
  · tauto
  · have hbad : first b = ([replacement], .none) := by
      unfold first
      rw [if_neg, if_neg, if_neg, if_neg, if_neg, if_neg, if_neg, if_neg] <;> omega
    tauto

end

lemma next_last {bits low high : Nat} (h : low ≤ b ∧ b ≤ high) :
    next (.begun bits low high 0) b = ([Char.ofNat (bits * 64 + (b - 0x80))], .none) := if_pos h

lemma next_more {bits low high more : Nat} (h : low ≤ b ∧ b ≤ high) :
    next (.begun bits low high (more + 1)) b = ([], .begun (bits * 64 + (b - 0x80)) 0x80 0xBF more) := if_pos h

lemma toNat_ofNat (h : n < 256) : (UInt8.ofNat n).toNat = n := by
  rw [UInt8.toNat_ofNat']
  exact Nat.mod_eq_of_lt h

section

variable {bits low high more : Nat} (hn : n < 256)

include hn

lemma charsFrom_first (h : first n = ([], s)) : charsFrom .none (UInt8.ofNat n :: bs) = charsFrom s bs := by
  rw [charsFrom_cons, toNat_ofNat hn, next, h]
  rfl

lemma charsFrom_more (h : low ≤ n ∧ n ≤ high) : charsFrom (.begun bits low high (more + 1)) (UInt8.ofNat n :: bs) =
    charsFrom (.begun (bits * 64 + (n - 0x80)) 0x80 0xBF more) bs := by
  rw [charsFrom_cons, toNat_ofNat hn, next_more h]
  rfl

lemma charsFrom_last (h : low ≤ n ∧ n ≤ high) : charsFrom (.begun bits low high 0) (UInt8.ofNat n :: bs) =
    Char.ofNat (bits * 64 + (n - 0x80)) :: charsFrom .none bs := by
  rw [charsFrom_cons, toNat_ofNat hn, next_last h]
  rfl

end

/-- The bytes of the character with the number `n`. -/
def encoding (n : Nat) : List UInt8 :=
  if n ≤ 127 then [UInt8.ofNat n]
  else if n ≤ 2047 then [UInt8.ofNat (n / 64 % 32 + 192), UInt8.ofNat (n % 64 + 128)]
  else if n ≤ 65535 then
    [UInt8.ofNat (n / 4096 % 16 + 224), UInt8.ofNat (n / 64 % 64 + 128), UInt8.ofNat (n % 64 + 128)]
  else [UInt8.ofNat (n / 262144 % 8 + 240), UInt8.ofNat (n / 4096 % 64 + 128), UInt8.ofNat (n / 64 % 64 + 128),
    UInt8.ofNat (n % 64 + 128)]

lemma utf8EncodeChar_eq (c : Char) : String.utf8EncodeChar c = encoding c.toNat := rfl

/-- A character is read back from its bytes, whatever comes behind them. -/
lemma charsFrom_encode (c : Char) (bs : List UInt8) :
    charsFrom .none (String.utf8EncodeChar c ++ bs) = c :: charsFrom .none bs := by
  have hvalid : c.toNat < 0xD800 ∨ 0xDFFF < c.toNat ∧ c.toNat < 0x110000 := c.valid
  have hchar : ∀ m, m = c.toNat → Char.ofNat m = c := fun m h => h ▸ Char.ofNat_toNat c
  rw [utf8EncodeChar_eq]
  unfold encoding
  generalize c.toNat = n at *
  split_ifs with hone htwo hthree
  · rw [List.singleton_append, charsFrom_cons, toNat_ofNat (by omega), next, first_one (by omega), hchar _ rfl]
    rfl
  · simp only [List.cons_append, List.nil_append]
    rw [charsFrom_first (by omega) (first_two (by omega)), charsFrom_last (by omega) (by omega), hchar _ (by omega)]
  · simp only [List.cons_append, List.nil_append]
    -- the second byte fits the first, because the number is no surrogate and too large for two bytes
    rw [charsFrom_first (by omega) (first_three (by omega)), charsFrom_more (by omega) (by split_ifs <;> omega),
      charsFrom_last (by omega) (by omega), hchar _ (by omega)]
  · simp only [List.cons_append, List.nil_append]
    rw [charsFrom_first (by omega) (first_four (by omega)), charsFrom_more (by omega) (by split_ifs <;> omega),
      charsFrom_more (by omega) (by omega), charsFrom_last (by omega) (by omega), hchar _ (by omega)]

theorem decodeLossy_encode (cs : List Char) : decodeLossy (cs.flatMap String.utf8EncodeChar) = cs := by
  rw [decodeLossy_eq]
  induction cs with
  | nil => rfl
  | cons c cs ih => rw [List.flatMap_cons, charsFrom_encode, ih]

/-- What the bytes `w` of a character that is begun still need, so that they are those of the character. -/
def Owes : Nat → Nat → Nat → Nat → List UInt8 → Prop
  | bits, low, high, 0, w => ∀ b : UInt8, low ≤ b.toNat ∧ b.toNat ≤ high →
      String.utf8EncodeChar (Char.ofNat (bits * 64 + (b.toNat - 0x80))) = w ++ [b]
  | bits, low, high, more + 1, w => ∀ b : UInt8, low ≤ b.toNat ∧ b.toNat ≤ high →
      Owes (bits * 64 + (b.toNat - 0x80)) 0x80 0xBF more (w ++ [b])

/-- The bytes `w` have been read since the last character. -/
def Begun : Partial → List UInt8 → Prop
  | .none, w => w = []
  | .begun bits low high more, w => Owes bits low high more w

lemma encode_ofNat (h : n.isValidChar) : String.utf8EncodeChar (Char.ofNat n) = encoding n := by
  have hnat : (Char.ofNat n).toNat = n := by
    rw [Char.ofNat, dif_pos h]
    rfl
  rw [utf8EncodeChar_eq, hnat]

lemma ofNat_of_toNat (a : UInt8) (h : n = a.toNat) : UInt8.ofNat n = a := by rw [h, UInt8.ofNat_toNat]

section

variable {a : UInt8}

lemma owes_two (ha : 0xC2 ≤ a.toNat ∧ a.toNat ≤ 0xDF) : Owes (a.toNat - 0xC0) 0x80 0xBF 0 [a] := by
  intro b hb
  rw [encode_ofNat (Or.inl (by omega)), encoding, if_neg (by omega), if_pos (by omega), ofNat_of_toNat a (by omega),
    ofNat_of_toNat b (by omega)]
  rfl

lemma owes_three (ha : 0xE0 ≤ a.toNat ∧ a.toNat ≤ 0xEF) :
    Owes (a.toNat - 0xE0) (if a.toNat = 0xE0 then 0xA0 else 0x80) (if a.toNat = 0xED then 0x9F else 0xBF) 1 [a] := by
  intro b hb c hc
  -- neither a number that two bytes can spell nor a surrogate
  have hrange : 2047 < ((a.toNat - 0xE0) * 64 + (b.toNat - 0x80)) * 64 + (c.toNat - 0x80) ∧
      (((a.toNat - 0xE0) * 64 + (b.toNat - 0x80)) * 64 + (c.toNat - 0x80)).isValidChar := by
    unfold Nat.isValidChar
    split_ifs at hb <;> omega
  have htail : 0x80 ≤ b.toNat ∧ b.toNat ≤ 0xBF := by split_ifs at hb <;> omega
  rw [encode_ofNat hrange.2, encoding, if_neg (by omega), if_neg (by omega), if_pos (by omega),
    ofNat_of_toNat a (by omega), ofNat_of_toNat b (by omega), ofNat_of_toNat c (by omega)]
  rfl

lemma owes_four (ha : 0xF0 ≤ a.toNat ∧ a.toNat ≤ 0xF4) :
    Owes (a.toNat - 0xF0) (if a.toNat = 0xF0 then 0x90 else 0x80) (if a.toNat = 0xF4 then 0x8F else 0xBF) 2 [a] := by
  intro b hb c hc d hd
  -- neither a number that three bytes can spell nor one beyond the last character
  have hrange : 65535 < (((a.toNat - 0xF0) * 64 + (b.toNat - 0x80)) * 64 + (c.toNat - 0x80)) * 64 + (d.toNat - 0x80) ∧
      ((((a.toNat - 0xF0) * 64 + (b.toNat - 0x80)) * 64 + (c.toNat - 0x80)) * 64 + (d.toNat - 0x80)).isValidChar := by
    unfold Nat.isValidChar
    split_ifs at hb <;> omega
  have htail : 0x80 ≤ b.toNat ∧ b.toNat ≤ 0xBF := by split_ifs at hb <;> omega
  rw [encode_ofNat hrange.2, encoding, if_neg (by omega), if_neg (by omega), if_neg (by omega),
    ofNat_of_toNat a (by omega), ofNat_of_toNat b (by omega), ofNat_of_toNat c (by omega), ofNat_of_toNat d (by omega)]
  rfl

end

/-- The first byte of a character is all of it, or owes the others. -/
lemma begun_first (a : UInt8) (h : replacement ∉ (first a.toNat).1) : ∃ w, Begun (first a.toNat).2 w ∧
    (first a.toNat).1.flatMap String.utf8EncodeChar ++ w = [a] := by
  rcases first_cases a.toNat with hone | htwo | hthree | hfour | hbad
  · rw [first_one hone]
    refine ⟨[], rfl, ?_⟩
    rw [List.flatMap_singleton, encode_ofNat (Or.inl (by omega)), encoding, if_pos (by omega), UInt8.ofNat_toNat,
      List.append_nil]
  · rw [first_two htwo]
    exact ⟨[a], owes_two htwo, rfl⟩
  · rw [first_three hthree]
    exact ⟨[a], owes_three hthree, rfl⟩
  · rw [first_four hfour]
    exact ⟨[a], owes_four hfour, rfl⟩
  · rw [hbad] at h
    exact absurd (List.mem_singleton_self _) h

/-- Where no replacement is read, no byte is lost. -/
lemma begun_next (hw : Begun s w) (a : UInt8) (h : replacement ∉ (next s a.toNat).1) :
    ∃ w', Begun (next s a.toNat).2 w' ∧ (next s a.toNat).1.flatMap String.utf8EncodeChar ++ w' = w ++ [a] := by
  cases s with
  | none =>
    obtain rfl := hw
    exact begun_first a h
  | begun bits low high more =>
    by_cases ha : low ≤ a.toNat ∧ a.toNat ≤ high
    · cases more with
      | zero =>
        rw [next_last ha]
        refine ⟨[], rfl, ?_⟩
        rw [List.flatMap_singleton, List.append_nil]
        exact hw a ha
      | succ more =>
        rw [next_more ha]
        exact ⟨w ++ [a], hw a ha, rfl⟩
    · -- what was begun is given up
      rw [next, if_neg ha] at h
      exact absurd List.mem_cons_self h

lemma encode_charsFrom (hw : Begun s w) (bs : List UInt8) (h : replacement ∉ charsFrom s bs) :
    (charsFrom s bs).flatMap String.utf8EncodeChar = w ++ bs := by
  induction bs generalizing s w with
  | nil =>
    cases s with
    | none =>
      obtain rfl := hw
      rfl
    | begun => exact absurd List.mem_cons_self h
  | cons b bs ih =>
    rw [charsFrom_cons, List.mem_append, not_or] at h
    obtain ⟨w', hw', hbytes⟩ := begun_next hw b h.1
    rw [charsFrom_cons, List.flatMap_append, ih hw' h.2, ← List.append_assoc, hbytes, List.append_assoc,
      List.singleton_append]

/-- What is read without a replacement character has the bytes from which it is read. -/
theorem encode_decodeLossy (h : replacement ∉ decodeLossy bs) :
    (decodeLossy bs).flatMap String.utf8EncodeChar = bs := by
  rw [decodeLossy_eq] at h ⊢
  have hbegun : Begun .none [] := rfl
  exact encode_charsFrom hbegun bs h

end FileOrganizer.Utf8
