import FileOrganizer.Proofs.Time.RoundTrip

/-! In the form that allows blanks a moment of any year is read back: a year with a sign has as many digits as it
needs. -/

namespace FileOrganizer

namespace Scan

variable {p : Scan Nat} {cs rest : List Char} {w n m : Nat} {y : Int}

lemma isBlank_digit {c : Char} (h : isDigit c = true) : Text.isBlank c = false := by
  simp only [isDigit, Bool.and_eq_true, decide_eq_true_eq, Char.le_def, UInt32.le_iff_toNat_le] at h
  have hlow : 48 ≤ c.toNat := h.1
  have hhigh : c.toNat ≤ 57 := h.2
  simp [Text.isBlank]
  omega

lemma blanks_of (h : ∀ c, cs.head? = some c → Text.isBlank c = false) : blanks cs = some ((), cs) := by
  have htrim : Text.trimLeft cs = cs := by
    cases cs with
    | nil => rfl
    | cons c cs => simp [Text.trimLeft, h c rfl]
  have hrun : blanks cs = some ((), Text.trimLeft cs) := rfl
  rw [hrun, htrim]

lemma blanks_cons {c : Char} (h : Text.isBlank c = false) : blanks (c :: cs) = some ((), c :: cs) :=
  blanks_of fun _ hc => Option.some.inj hc ▸ h

lemma Numeral.head (h : Numeral w n cs) (hw : 0 < w) : ∃ c ds, cs = c :: ds ∧ isDigit c = true := by
  cases cs with
  | nil =>
    rw [← h.length] at hw
    exact absurd hw (Nat.lt_irrefl 0)
  | cons c ds => exact ⟨c, ds, rfl, h.digit c List.mem_cons_self⟩

lemma Numeral.blanks (h : Numeral w n cs) (hw : 0 < w) (rest : List Char) :
    blanks (cs ++ rest) = some ((), cs ++ rest) := by
  obtain ⟨c, ds, rfl, hc⟩ := h.head hw
  exact blanks_cons (isBlank_digit hc)

lemma blankNumber_two (h : Numeral 2 n cs) (rest : List Char) : blankNumber (cs ++ rest) = some (n, rest) := by
  rw [blankNumber, bind_of (h.blanks (by decide) rest)]
  exact h.number (by decide) (Nat.le_refl 2) (Or.inl rfl)

lemma within_two (h : Numeral 2 n cs) (hn : n ≤ m) (rest : List Char) :
    within 0 m blankNumber (cs ++ rest) = some (n, rest) := by
  rw [within, bind_of (blankNumber_two h rest), if_pos ⟨Nat.zero_le n, hn⟩]
  rfl

/-- The digits of a year behind its sign are read up to the dash. -/
lemma number_year (n : Nat) (rest : List Char) :
    number 1 ((padded 4 n).toList ++ '-' :: rest).length ((padded 4 n).toList ++ '-' :: rest) = some (n, '-' :: rest) := by
  refine (numeral_padded_self 4 n).number ?_ ?_ (Or.inr ?_)
  · rw [length_padded]
    omega
  · rw [List.length_append]
    omega
  · rintro c ⟨⟩
    decide

lemma signedYear_minus (cs : List Char) :
    signedYear ('-' :: cs) = (do pure (-(← number 1 cs.length : Nat)) : Scan Int) cs := rfl

lemma signedYear_plus (cs : List Char) :
    signedYear ('+' :: cs) = (do pure (← number 1 cs.length : Nat) : Scan Int) cs := rfl

lemma signedYear_digit {c : Char} (hc : isDigit c = true) (cs : List Char) :
    signedYear (c :: cs) = (do pure (← number 1 4 : Nat) : Scan Int) (c :: cs) := by
  have hminus : c ≠ '-' := by
    rintro rfl
    exact absurd hc (by decide)
  have hplus : c ≠ '+' := by
    rintro rfl
    exact absurd hc (by decide)
  rw [signedYear, bind_of (blanks_cons (isBlank_digit hc)),
    bind_of (show (get : Scan (List Char)) (c :: cs) = some (c :: cs, c :: cs) from rfl)]
  simp only [List.cons.injEq, hminus, hplus, false_and, imp_self, implies_true]

/-- A year is read as it was written. -/
lemma signedYear_yearText (y : Int) (rest : List Char) :
    signedYear ((Date.yearText y).toList ++ '-' :: rest) = some (y, '-' :: rest) := by
  rw [Date.yearText]
  split
  · next hplain =>
    have hnumeral : Numeral 4 y.toNat (padded 4 y.toNat).toList :=
      numeral_padded (by decide) (show y.toNat < 10000 by omega)
    have hread : number 1 4 ((padded 4 y.toNat).toList ++ '-' :: rest) = some (y.toNat, '-' :: rest) :=
      hnumeral.number (by decide) (Nat.le_refl 4) (Or.inl rfl)
    obtain ⟨c, ds, hcs, hc⟩ := hnumeral.head (by decide)
    rw [hcs, List.cons_append] at hread ⊢
    rw [signedYear_digit hc, bind_of hread, Int.toNat_of_nonneg hplain.1]
    rfl
  split
  · next hneg =>
    have hvalue : (-(y.natAbs : Int)) = y := by omega
    rw [String.toList_append, List.append_assoc, show "-".toList = ['-'] from rfl, List.singleton_append,
      signedYear_minus, bind_of (number_year _ _), hvalue]
    rfl
  · have hvalue : (y.natAbs : Int) = y := by omega
    rw [String.toList_append, List.append_assoc, show "+".toList = ['+'] from rfl, List.singleton_append,
      signedYear_plus, bind_of (number_year _ _), hvalue]
    rfl

lemma stops_z : Stops ['Z'] := by
  rintro c ⟨⟩
  decide

/-- The form with blanks, part by part, where there are none. -/
lemma lenient_of {mo d h mi s ns : Nat} {mos dys hs mis ss fs : List Char} {date : Date} (hmo : Numeral 2 mo mos)
    (hd : Numeral 2 d dys) (hdate : Date.ofParts? y mo d = some date) (hh : Numeral 2 h hs) (hh23 : h ≤ 23)
    (hmi : Numeral 2 mi mis) (hmi59 : mi ≤ 59) (hsec : Numeral 2 s ss) (hsec60 : s ≤ 60)
    (hns : nanos (fs ++ ['Z']) = some (ns, ['Z'])) :
    lenient ((Date.yearText y).toList ++ '-' :: (mos ++ '-' :: (dys ++ 'T' :: (hs ++ ':' :: (mis ++ ':' ::
      (ss ++ (fs ++ ['Z']))))))) = some (shift date h mi s ns 0, []) := by
  have hdash : Text.isBlank '-' = false := by decide
  have hcolon : Text.isBlank ':' = false := by decide
  rw [lenient, bind_of (signedYear_yearText y _), bind_of (blanks_cons hdash), bind_of (literal_cons _ _),
    bind_of (blankNumber_two hmo _), bind_of (blanks_cons hdash), bind_of (literal_cons _ _),
    bind_of (blankNumber_two hd _), bind_of (ymd_of hdate), bind_of (discard_of (char_cons (by decide))),
    bind_of (within_two hh hh23 _), bind_of (blanks_cons hcolon), bind_of (literal_cons _ _),
    bind_of (within_two hmi hmi59 _), bind_of (blanks_cons hcolon), bind_of (literal_cons _ _),
    bind_of (within_two hsec hsec60 _), bind_of hns, bind_of (blanks_cons (by decide))]
  rfl

end Scan

namespace Instant

variable {t : Instant}

/-- A moment of any year that a date can lie in is read back. -/
theorem ofLenient?_text (h : t.Proper) (hyear : Date.minYear ≤ t.date.year ∧ t.date.year ≤ Date.maxYear) :
    ofLenient? (t.text "Z") = some t := by
  have hw := h.written
  have hdate : Date.ofParts? t.date.year t.date.month t.date.day = some t.date := Date.ofParts?_ofDays hyear
  have hread := Scan.lenient_of hw.month hw.day hdate hw.hour hw.clock.1 hw.minute hw.clock.2.1 hw.second hw.clock.2.2
    (Scan.nanos_fraction hw.fraction Scan.stops_z)
  rw [shift_parts h] at hread
  rw [ofLenient?, Scan.run?, toList_text, show "Z".toList = ['Z'] from rfl, hread]
  rfl

end Instant

end FileOrganizer
