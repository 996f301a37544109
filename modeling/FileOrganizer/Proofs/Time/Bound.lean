import FileOrganizer.Proofs.Time.Lenient
import Mathlib.Algebra.Order.Ring.Nat

/-! What a date bound is read as, and when the text that is written for it is read again: a year beyond four digits
is written with a sign, which only the date alone may have. -/

namespace FileOrganizer

namespace Scan

variable {α β : Type} {p : Scan α} {f : α → Scan β} {P : α → Prop} {Q : β → Prop} {cs ds rest : List Char}

/-- Whatever `p` reads is of a kind. -/
def Gives (p : Scan α) (P : α → Prop) : Prop := ∀ ⦃cs a ds⦄, p cs = some (a, ds) → P a

lemma gives_any (p : Scan α) : p.Gives fun _ => True := fun _ _ _ _ => trivial

lemma gives_pure {a : α} (h : P a) : (pure a : Scan α).Gives P := by
  rintro cs _ _ ⟨⟩
  exact h

lemma Gives.bind (h : p.Gives P) (hf : ∀ a, P a → (f a).Gives Q) : (p >>= f).Gives Q := by
  intro cs b ds hrun
  obtain ⟨⟨a, es⟩, ha, hb⟩ := Option.bind_eq_some_iff.1 hrun
  exact hf a (h ha) hb

lemma Gives.then (h : ∀ a, (f a).Gives Q) : (p >>= f).Gives Q := (gives_any p).bind fun a _ => h a

lemma gives_failure : (failure : Scan α).Gives P := by
  rintro cs a ds ⟨⟩

lemma gives_failure_bind : (failure >>= f : Scan β).Gives Q := by
  rintro cs a ds ⟨⟩

lemma gives_ite {c : Prop} [Decidable c] {q : Scan α} (hp : c → p.Gives P) (hq : ¬c → q.Gives P) :
    (if c then p else q).Gives P := by
  by_cases hc : c
  · rw [if_pos hc]
    exact hp hc
  · rw [if_neg hc]
    exact hq hc

lemma gives_within {low high : Nat} {p : Scan Nat} : (within low high p).Gives fun n => low ≤ n ∧ n ≤ high :=
  Gives.then fun _ => gives_ite (fun hin => gives_pure hin) fun _ => gives_failure

lemma value_lt (hdigits : ∀ c ∈ cs, isDigit c = true) (n : Nat) :
    cs.foldl (fun n d => n * 10 + (d.toNat - '0'.toNat)) n < (n + 1) * 10 ^ cs.length := by
  induction cs generalizing n with
  | nil => simp
  | cons c cs ih =>
    have hc : c.toNat - '0'.toNat ≤ 9 := by
      have hdigit := hdigits c List.mem_cons_self
      simp only [isDigit, Bool.and_eq_true, decide_eq_true_eq, Char.le_def, UInt32.le_iff_toNat_le] at hdigit
      have hhigh : c.toNat ≤ 57 := hdigit.2
      have hzero : '0'.toNat = 48 := rfl
      omega
    have hrest := ih (fun d hd => hdigits d (List.mem_cons_of_mem c hd)) (n * 10 + (c.toNat - '0'.toNat))
    calc (c :: cs).foldl _ n < (n * 10 + (c.toNat - '0'.toNat) + 1) * 10 ^ cs.length := hrest
      _ ≤ (n + 1) * 10 * 10 ^ cs.length := Nat.mul_le_mul_right _ (by omega)
      _ = (n + 1) * 10 ^ (c :: cs).length := by rw [List.length_cons, Nat.pow_succ, Nat.mul_assoc, Nat.mul_comm 10]

lemma number_lt {least most n : Nat} (h : number least most cs = some (n, rest)) :
    n < 10 ^ ((cs.take most).takeWhile isDigit).length := by
  simp only [number] at h
  split at h
  · cases h
  · cases h
    simpa using value_lt (fun c hc => List.all_eq_true.1 List.all_takeWhile c hc) 0

/-- A fraction is less than a second, however many digits it has. -/
lemma gives_nanos : nanos.Gives (· < 1000000000) := by
  intro cs n ds hrun
  rcases cs with _ | ⟨c, cs⟩
  · cases hrun
    decide
  by_cases hpoint : c = '.'
  · subst hpoint
    have hunfold : nanos ('.' :: cs) = (number 1 9 >>= fun n => do
        modify (·.dropWhile isDigit)
        pure (n * Nat.pow 10 (9 - ((cs.take 9).takeWhile isDigit).length)) : Scan Nat) cs := rfl
    rw [hunfold] at hrun
    obtain ⟨⟨m, es⟩, hm, hn⟩ := Option.bind_eq_some_iff.1 hrun
    cases hn
    have hlength : ((cs.take 9).takeWhile isDigit).length ≤ 9 :=
      Nat.le_trans (List.takeWhile_prefix _).length_le (List.length_take_le 9 cs)
    calc m * 10 ^ (9 - ((cs.take 9).takeWhile isDigit).length)
      _ < 10 ^ ((cs.take 9).takeWhile isDigit).length * 10 ^ (9 - ((cs.take 9).takeWhile isDigit).length) :=
        Nat.mul_lt_mul_of_pos_right (number_lt hm) (Nat.pow_pos (by decide))
      _ = 10 ^ 9 := by rw [← Nat.pow_add, Nat.add_sub_cancel' hlength]
  · have hnone : nanos (c :: cs) = some (0, c :: cs) := nanos_none fun _ hc => Option.some.inj hc ▸ hpoint
    rw [hnone] at hrun
    cases hrun
    decide

/-- Offsets are whole minutes. -/
lemma gives_offset {between : Scan Unit} : (offset between).Gives (· % 60 = 0) := by
  have hclock (sign : Int) : (do
      let h ← number 2 2
      between
      let m ← within 0 59 (number 2 2)
      pure (sign * (h * 3600 + m * 60 : Nat)) : Scan Int).Gives (· % 60 = 0) := by
    refine Gives.then fun h => Gives.then fun _ => Gives.then fun m => gives_pure ?_
    have hwhole : ((h * 3600 + m * 60 : Nat) : Int) = 60 * (h * 60 + m : Nat) := by omega
    rw [hwhole, Int.mul_left_comm, Int.mul_emod_right]
  unfold offset
  refine Gives.then fun c => gives_ite (fun _ => gives_pure rfl) fun _ => ?_
  exact gives_ite (fun _ => Gives.then hclock) fun _ => gives_ite (fun _ => Gives.then hclock) fun _ => gives_failure_bind

lemma proper_shift {date : Date} {h mi s ns : Nat} {off : Int} (hs : s ≤ 60) (hns : ns < 1000000000)
    (hoff : off % 60 = 0) : (shift date h mi s ns off).Proper := by
  by_cases hleap : s = 60
  · subst hleap
    simp only [Instant.Proper, shift, Instant.ofParts, if_true]
    exact Or.inr ⟨by omega, by omega⟩
  · refine Or.inl ?_
    simp only [shift, Instant.ofParts]
    rwa [if_neg hleap]

lemma gives_strict : strict.Gives Instant.Proper := by
  unfold strict
  refine Gives.then fun y => Gives.then fun _ => Gives.then fun m => Gives.then fun _ => Gives.then fun d =>
    Gives.then fun date => Gives.then fun _ => Gives.then fun h => Gives.then fun _ => Gives.then fun mi =>
    Gives.then fun _ => gives_within.bind fun s hs => gives_nanos.bind fun ns hns => gives_offset.bind fun off hoff => ?_
  refine gives_ite (fun _ => gives_failure_bind) fun _ => Gives.then fun _ => gives_pure ?_
  exact proper_shift hs.2 hns hoff

lemma Gives.run? {s : String} {a : α} (hp : p.Gives P) (h : p.run? s = some a) : P a := by
  obtain ⟨⟨b, ds⟩, hb, rfl⟩ := Option.map_eq_some_iff.1 h
  exact hp hb

lemma bind_none (h : p cs = none) : (p >>= f) cs = none := by
  simp only [bind, StateT.bind, h, Option.bind_none]

/-- A year of more than four digits, or before the year 0, begins with its sign. -/
lemma strict_signed {y : Int} (hyear : ¬(0 ≤ y ∧ y ≤ 9999)) (rest : List Char) :
    strict ((Date.yearText y).toList ++ rest) = none := by
  have hdigits (ds : List Char) : strict ('-' :: ds) = none ∧ strict ('+' :: ds) = none := ⟨rfl, rfl⟩
  rw [Date.yearText, if_neg hyear]
  split
  · rw [String.toList_append]
    exact (hdigits _).1
  · rw [String.toList_append]
    exact (hdigits _).2

/-- Nothing may come after the day of a date. -/
lemma dateOnly_more {y : Int} {m d : Nat} {ms dys : List Char} (hm : Numeral 2 m ms) (hd : Numeral 2 d dys) {c : Char} :
    dateOnly ((Date.yearText y).toList ++ '-' :: (ms ++ '-' :: (dys ++ c :: rest))) = none := by
  rw [dateOnly, bind_of (signedYear_yearText y _), bind_of (literal_cons _ _), bind_of (blankNumber_two hm _),
    bind_of (literal_cons _ _), bind_of (blankNumber_two hd _)]
  cases hdate : Date.ofParts? y m d with
  | none =>
    refine bind_none ?_
    rw [ymd, hdate]
    rfl
  | some date =>
    rw [bind_of (ymd_of hdate)]
    rfl

end Scan

namespace Instant

variable {t : Instant}

/-- The year has four digits and no sign. -/
def Unsigned (t : Instant) : Prop := 0 ≤ t.date.year ∧ t.date.year ≤ 9999

instance (t : Instant) : Decidable t.Unsigned := inferInstanceAs (Decidable (_ ∧ _))

/-- A bound is a moment of the calendar, whichever form it was written in. -/
lemma ofBound?_proper {s : String} (h : ofBound? s = some t) : t.Proper := by
  rw [ofBound?] at h
  cases hstrict : Scan.strict.run? s with
  | some u =>
    rw [hstrict] at h
    cases h
    exact Scan.gives_strict.run? hstrict
  | none =>
    rw [hstrict] at h
    obtain ⟨date, -, rfl⟩ := Option.map_eq_some_iff.1 h
    exact Or.inl (show 0 < 1000000000 by decide)

lemma ofBound?_signed (h : t.Proper) (hyear : ¬t.Unsigned) :
    ofBound? (t.text Scan.zone) = none := by
  have hw := h.written
  have hstrict : Scan.strict.run? (t.text Scan.zone) = none := by
    rw [Scan.run?, toList_text, Scan.strict_signed hyear]
    rfl
  have hdate : Scan.dateOnly.run? (t.text Scan.zone) = none := by
    rw [Scan.run?, toList_text, Scan.dateOnly_more hw.month hw.day]
    rfl
  rw [ofBound?, hstrict, hdate]
  rfl

/-- What is written for a moment is read as that moment, if its year has four digits and no sign; else it is not
read. -/
theorem ofBound?_written (h : t.Proper) : ofBound? (t.text Scan.zone) = if t.Unsigned then some t else none := by
  split
  · next hyear => exact ofBound?_text h hyear
  · next hyear => exact ofBound?_signed h hyear

end Instant

end FileOrganizer
