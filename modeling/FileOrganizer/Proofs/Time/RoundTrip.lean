import FileOrganizer.Proofs.Time.Calendar
import FileOrganizer.Time.Reader

/-! A moment of the years 0 to 9999 is read back from its written form: each part has a fixed width, but for the
fraction of the second, which ends where the offset begins. -/

namespace FileOrganizer

namespace Scan

variable {α β : Type} {p : Scan α} {f : α → Scan β} {a : α} {c : Char} {ok : Char → Bool} {cs ds rest : List Char}
  {w n m least most : Nat}

lemma bind_of (h : p cs = some (a, ds)) : (p >>= f) cs = f a ds := by
  simp only [bind, StateT.bind, h, Option.bind_some]

lemma char_cons (h : ok c = true) : char ok (c :: cs) = some (c, cs) := by
  have hrun : char ok (c :: cs) = (if ok c = true then (do set cs; pure c : Scan Char) else failure) (c :: cs) := rfl
  rw [hrun, if_pos h]
  rfl

lemma discard_of (h : p cs = some (a, ds)) : (discard p) cs = some ((), ds) := by
  simp [discard, Functor.mapConst, StateT.map, h]

lemma literal_cons (c : Char) (cs : List Char) : literal c (c :: cs) = some ((), cs) :=
  discard_of (char_cons (beq_self_eq_true c))

lemma ending_nil : ending [] = some ((), []) := rfl

/-- `w` digits that make up the number `n`. -/
structure Numeral (w n : Nat) (cs : List Char) : Prop where
  length : cs.length = w
  digit : ∀ c ∈ cs, isDigit c = true
  value : cs.foldl (fun n d => n * 10 + (d.toNat - '0'.toNat)) 0 = n

lemma isDigit_eq (c : Char) : isDigit c = c.isDigit := by
  rw [isDigit, Char.isDigit, Bool.eq_iff_iff]
  simp [Char.le_def, UInt32.le_iff_toNat_le]

lemma foldl_zeros (k : Nat) : (List.replicate k '0').foldl (fun n d => n * 10 + (d.toNat - '0'.toNat)) 0 = 0 := by
  induction k with
  | zero => rfl
  | succ k ih => simpa [List.replicate_succ] using ih

lemma numeral_padded_self (w n : Nat) : Numeral (padded w n).toList.length n (padded w n).toList := by
  have hvalue := Nat.ofDigitChars_ten_toDigits (n := n)
  rw [Nat.ofDigitChars] at hvalue
  refine ⟨rfl, fun c hc => ?_, ?_⟩
  · rw [padded, String.toList_ofList] at hc
    rw [isDigit_eq]
    rcases List.mem_append.1 hc with hzero | hdigit
    · rw [List.eq_of_mem_replicate hzero]
      rfl
    · exact Nat.isDigit_of_mem_toDigits (by decide) (by decide) hdigit
  · rw [padded, String.toList_ofList, List.foldl_append, foldl_zeros]
    simpa only [Nat.mul_comm] using hvalue

lemma length_padded (w n : Nat) : (padded w n).toList.length = max w (Nat.toDigits 10 n).length := by
  rw [padded, String.toList_ofList, List.length_append, List.length_replicate]
  omega

lemma numeral_padded (hw : 0 < w) (h : n < Nat.pow 10 w) : Numeral w n (padded w n).toList := by
  have hlen : (Nat.toDigits 10 n).length ≤ w := (Nat.length_toDigits_le_iff (by decide) hw).2 h
  have hself := numeral_padded_self w n
  rwa [length_padded, Nat.max_eq_left hlen] at hself

lemma numeral_two (h : n < 100) : Numeral 2 n (padded 2 n).toList := numeral_padded (by decide) h

/-- The digits are read up to the last, or up to as many as are wanted. -/
lemma Numeral.digits (h : Numeral w n cs) (hmost : w ≤ most)
    (hrest : w = most ∨ ∀ c, rest.head? = some c → isDigit c = false) :
    ((cs ++ rest).take most).takeWhile isDigit = cs := by
  have hstop : (rest.take (most - w)).takeWhile isDigit = [] := by
    rcases hrest with rfl | hrest
    · simp
    · cases rest with
      | nil => simp
      | cons c rest =>
        cases most - w with
        | zero => rfl
        | succ k => simp [hrest c rfl]
  have hall : cs.take most = cs := List.take_of_length_le (h.length ▸ hmost)
  rw [List.take_append, h.length, hall, List.takeWhile_append_of_pos h.digit, hstop, List.append_nil]

lemma Numeral.number (h : Numeral w n cs) (hleast : least ≤ w) (hmost : w ≤ most)
    (hrest : w = most ∨ ∀ c, rest.head? = some c → isDigit c = false) :
    number least most (cs ++ rest) = some (n, rest) := by
  have hlen : ¬cs.length < least := by
    rw [h.length]
    omega
  simp only [Scan.number, h.digits hmost hrest, if_neg hlen, h.value, List.drop_left]

lemma number_fixed (h : Numeral w n cs) (rest : List Char) : number w w (cs ++ rest) = some (n, rest) :=
  h.number (Nat.le_refl w) (Nat.le_refl w) (Or.inl rfl)

lemma within_fixed (h : Numeral w n cs) (hn : n ≤ m) (rest : List Char) :
    within 0 m (number w w) (cs ++ rest) = some (n, rest) := by
  rw [within, bind_of (number_fixed h rest), if_pos ⟨Nat.zero_le n, hn⟩]
  rfl

/-- No fraction of a second goes on here. -/
def Stops (cs : List Char) : Prop := ∀ c, cs.head? = some c → isDigit c = false ∧ c ≠ '.'

lemma nanos_none (h : ∀ c, rest.head? = some c → c ≠ '.') : nanos rest = some (0, rest) := by
  cases rest with
  | nil => rfl
  | cons c cs =>
    have hpoint : c ≠ '.' := h c rfl
    unfold nanos
    rw [bind_of (show (get : Scan (List Char)) (c :: cs) = some (c :: cs, c :: cs) from rfl)]
    simp only [List.cons.injEq, hpoint, false_and, imp_self, implies_true]
    rfl

lemma nanos_point (h : Numeral w n cs) (hw : 0 < w ∧ w ≤ 9) (hrest : Stops rest) :
    nanos ('.' :: (cs ++ rest)) = some (n * Nat.pow 10 (9 - w), rest) := by
  have hend : ∀ c, rest.head? = some c → isDigit c = false := fun c hc => (hrest c hc).1
  have hnumber : number 1 9 (cs ++ rest) = some (n, rest) := h.number hw.1 hw.2 (Or.inr hend)
  have hdigits : ((cs ++ rest).take 9).takeWhile isDigit = cs := h.digits hw.2 (Or.inr hend)
  have hdrop : rest.dropWhile isDigit = rest := by
    cases rest with
    | nil => rfl
    | cons c cs => simp [hend c rfl]
  have hrun : nanos ('.' :: (cs ++ rest)) = (number 1 9 >>= fun n => do
      modify (·.dropWhile isDigit)
      pure (n * Nat.pow 10 (9 - (((cs ++ rest).take 9).takeWhile isDigit).length)) : Scan Nat) (cs ++ rest) := rfl
  have hlast : (do modify (·.dropWhile isDigit); pure (n * Nat.pow 10 (9 - w)) : Scan Nat) rest =
      some (n * Nat.pow 10 (9 - w), rest.dropWhile isDigit) := rfl
  rw [hrun, bind_of hnumber, hdigits, h.length, hlast, hdrop]

/-- A fraction is written with three, six or nine digits, and read as nanoseconds. -/
lemma nanos_fraction (h : n < 1000000000) (hrest : Stops rest) :
    nanos ((Instant.fraction n).toList ++ rest) = some (n, rest) := by
  rw [Instant.fraction]
  split
  · next hzero =>
    subst hzero
    exact nanos_none fun c hc => (hrest c hc).2
  split
  · next hmilli =>
    have hback : n / 1000000 * Nat.pow 10 (9 - 3) = n := Nat.div_mul_cancel (Nat.dvd_of_mod_eq_zero hmilli)
    have hsmall : n / 1000000 < 1000 := by omega
    have hread := nanos_point (numeral_padded (w := 3) (by decide) hsmall) (by decide) hrest
    rw [hback] at hread
    simpa using hread
  split
  · next hmicro =>
    have hback : n / 1000 * Nat.pow 10 (9 - 6) = n := Nat.div_mul_cancel (Nat.dvd_of_mod_eq_zero hmicro)
    have hsmall : n / 1000 < 1000000 := by omega
    have hread := nanos_point (numeral_padded (w := 6) (by decide) hsmall) (by decide) hrest
    rw [hback] at hread
    simpa using hread
  · have hread := nanos_point (numeral_padded (w := 9) (by decide) h) (by decide) hrest
    simpa using hread

/-- What is written behind a moment in universal time. -/
def zone : String := "+00:00"

lemma offset_zone : offset (literal ':') zone.toList = some (0, []) := by
  decide

lemma stops_zone : Stops zone.toList := by
  rintro c ⟨⟩
  decide

lemma ymd_of {y : Int} {d : Nat} {date : Date} (h : Date.ofParts? y m d = some date) :
    ymd y m d cs = some (date, cs) := by
  simp only [ymd, h, Option.map_some]

/-- The strict form, part by part. -/
lemma strict_of {y mo d h mi s ns : Nat} {ys mos dys hs mis ss fs : List Char} {date : Date} (hy : Numeral 4 y ys)
    (hmo : Numeral 2 mo mos) (hd : Numeral 2 d dys) (hdate : Date.ofParts? y mo d = some date) (hh : Numeral 2 h hs)
    (hh23 : h ≤ 23) (hmi : Numeral 2 mi mis) (hmi59 : mi ≤ 59) (hsec : Numeral 2 s ss) (hsec60 : s ≤ 60)
    (hns : nanos (fs ++ zone.toList) = some (ns, zone.toList)) :
    strict (ys ++ '-' :: (mos ++ '-' :: (dys ++ 'T' :: (hs ++ ':' :: (mis ++ ':' :: (ss ++ (fs ++ zone.toList))))))) =
      some (shift date h mi s ns 0, []) := by
  rw [strict, bind_of (number_fixed hy _), bind_of (literal_cons _ _), bind_of (number_fixed hmo _),
    bind_of (literal_cons _ _), bind_of (number_fixed hd _), bind_of (ymd_of hdate),
    bind_of (discard_of (char_cons (by decide))), bind_of (within_fixed hh hh23 _), bind_of (literal_cons _ _),
    bind_of (within_fixed hmi hmi59 _), bind_of (literal_cons _ _), bind_of (within_fixed hsec hsec60 _), bind_of hns,
    bind_of offset_zone]
  simp only [Int.natAbs_zero]
  rw [if_neg (by decide), bind_of ending_nil]
  rfl

end Scan

namespace Instant

variable {t : Instant}

/-- The nanoseconds are those of one second, or of a leap second at the end of a minute. -/
def Proper (t : Instant) : Prop := t.nanos < 1000000000 ∨ t.secs % 60 = 59 ∧ t.nanos < 2000000000

lemma Proper.nanos_lt (h : t.Proper) : t.nanos < 2000000000 := by
  rcases h with hplain | hleap
  · omega
  · exact hleap.2

lemma clock_lt (t : Instant) : t.clock < 86400 := by
  rw [clock]
  omega

/-- The parts of a moment make the moment up again; a leap second is second 60. -/
lemma shift_parts (h : t.Proper) : Scan.shift t.date (t.clock / 3600) (t.clock / 60 % 60)
    (t.clock % 60 + t.nanos / 1000000000) (t.nanos % 1000000000) 0 = t := by
  have hclock : (t.clock : Int) = t.secs % 86400 := by
    rw [clock]
    omega
  have hdays : t.date.toDays = t.secs / 86400 := Date.toDays_ofDays _
  obtain ⟨secs, nanos⟩ := t
  simp only [Scan.shift, ofParts, hdays]
  rcases h with hplain | ⟨hlast, hleap⟩
  · simp only [] at hplain hclock ⊢
    rw [if_neg (by omega)]
    simp only [Instant.mk.injEq]
    omega
  · simp only [] at hlast hleap hclock ⊢
    split
    · simp only [Instant.mk.injEq]
      omega
    · simp only [Instant.mk.injEq]
      omega

lemma toList_text (t : Instant) (zone : String) : (t.text zone).toList =
    (Date.yearText t.date.year).toList ++ '-' :: ((padded 2 t.date.month).toList ++ '-' ::
      ((padded 2 t.date.day).toList ++ 'T' :: ((padded 2 (t.clock / 3600)).toList ++ ':' ::
        ((padded 2 (t.clock / 60 % 60)).toList ++ ':' :: ((padded 2 (t.clock % 60 + t.nanos / 1000000000)).toList ++
          ((fraction (t.nanos % 1000000000)).toList ++ zone.toList)))))) := by
  simp [text, Date.text]

/-- Month, day and clock are written with two digits each, and the fraction of the second is read back. -/
structure Written (t : Instant) : Prop where
  month : Scan.Numeral 2 t.date.month (padded 2 t.date.month).toList
  day : Scan.Numeral 2 t.date.day (padded 2 t.date.day).toList
  hour : Scan.Numeral 2 (t.clock / 3600) (padded 2 (t.clock / 3600)).toList
  minute : Scan.Numeral 2 (t.clock / 60 % 60) (padded 2 (t.clock / 60 % 60)).toList
  second : Scan.Numeral 2 (t.clock % 60 + t.nanos / 1000000000) (padded 2 (t.clock % 60 + t.nanos / 1000000000)).toList
  clock : t.clock / 3600 ≤ 23 ∧ t.clock / 60 % 60 ≤ 59 ∧ t.clock % 60 + t.nanos / 1000000000 ≤ 60
  fraction : t.nanos % 1000000000 < 1000000000

lemma Proper.written (h : t.Proper) : t.Written := by
  have hvalid : t.date.Valid := Date.valid_ofDays _
  have hmonth := hvalid.month
  have hday := hvalid.day_le
  have hclock := t.clock_lt
  have hnanos := h.nanos_lt
  exact ⟨Scan.numeral_two (by omega), Scan.numeral_two (by omega), Scan.numeral_two (by omega),
    Scan.numeral_two (by omega), Scan.numeral_two (by omega), by omega, by omega⟩

/-- A moment of the years 0 to 9999 is read back. -/
theorem ofBound?_text (h : t.Proper) (hyear : 0 ≤ t.date.year ∧ t.date.year ≤ 9999) :
    ofBound? (t.text Scan.zone) = some t := by
  have hw := h.written
  have hdate : Date.ofParts? (t.date.year.toNat : Int) t.date.month t.date.day = some t.date := by
    rw [Int.toNat_of_nonneg hyear.1]
    exact Date.ofParts?_ofDays ⟨Int.le_trans (by decide) hyear.1, Int.le_trans hyear.2 (by decide)⟩
  have hdigits : t.date.year.toNat < 10000 := by omega
  have hread := Scan.strict_of (Scan.numeral_padded (w := 4) (by decide) hdigits) hw.month hw.day hdate hw.hour
    hw.clock.1 hw.minute hw.clock.2.1 hw.second hw.clock.2.2 (Scan.nanos_fraction hw.fraction Scan.stops_zone)
  have hfour : Date.yearText t.date.year = padded 4 t.date.year.toNat := if_pos hyear
  rw [shift_parts h, ← hfour, ← toList_text] at hread
  have hrun : Scan.strict.run? (t.text Scan.zone) = some t := by
    rw [Scan.run?, hread]
    rfl
  rw [ofBound?, hrun]
  rfl

end Instant

end FileOrganizer
