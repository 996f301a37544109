import FileOrganizer.Time.Date
import Mathlib.Tactic.Lemma

/-! The calendar: every day has a date, and the date tells the day. Years are counted from March, so that a leap day is
the last day of its year. -/

namespace FileOrganizer.Date

variable {c q s r doe y n : Int} {d m : Nat}

/-- A day of 400 years that start in March, by the century, the four years in it, the year in these and the day of
the year: only the last year of four has a day more, and only the last century in its last four years. -/
structure Counts (c q s r doe : Int) : Prop where
  century : 0 ≤ c ∧ c ≤ 3
  four : 0 ≤ q ∧ q ≤ 24
  year : 0 ≤ s ∧ s ≤ 3
  day : 0 ≤ r ∧ (r ≤ 364 ∨ r = 365 ∧ s = 3 ∧ (q < 24 ∨ c = 3))
  sum : doe = 36524 * c + 1461 * q + 365 * s + r

lemma exists_counts (h : 0 ≤ doe ∧ doe < 146097) : ∃ c q s r, Counts c q s r doe := by
  obtain ⟨c, hc, ha⟩ : ∃ c : Int, (0 ≤ c ∧ c ≤ 3) ∧ 0 ≤ doe - 36524 * c ∧
      (doe - 36524 * c < 36524 ∨ c = 3 ∧ doe - 36524 * c = 36524) := ⟨min (doe / 36524) 3, by omega⟩
  obtain ⟨q, hq, hb⟩ : ∃ q : Int, (0 ≤ q ∧ q ≤ 24) ∧ 0 ≤ doe - 36524 * c - 1461 * q ∧
      doe - 36524 * c - 1461 * q < 1461 := ⟨(doe - 36524 * c) / 1461, by omega⟩
  obtain ⟨s, hs⟩ : ∃ s, s = min ((doe - 36524 * c - 1461 * q) / 365) 3 := ⟨_, rfl⟩
  exact ⟨c, q, s, doe - 36524 * c - 1461 * q - 365 * s, hc, hq, by omega, by omega, by omega⟩

/-- The closed formula for the year counts as the calendar does. -/
lemma Counts.yearOfEra (h : Counts c q s r doe) :
    (doe - doe / 1460 + doe / 36524 - doe / 146096) / 365 = 100 * c + 4 * q + s := by
  obtain ⟨hc, hq, hs, hr, hsum⟩ := h
  obtain ⟨t, ht⟩ : ∃ t, t = 1461 * q + 365 * s + r := ⟨_, rfl⟩
  have hrest : 0 ≤ t ∧ (t < 36524 ∨ c = 3 ∧ t = 36524) := by omega
  have hdoe : doe = 36524 * c + t := by omega
  have hcentury : doe / 36524 - doe / 146096 = c := by
    clear hsum ht
    omega
  have hfour : doe / 1460 = 25 * c + q + if 24 * c + q + 365 * s + r < 1460 then 0 else 1 := by
    split <;> omega
  split at hfour <;> omega

/-- The date of a day, counted from zero, in a year that starts in March. -/
def fromMarch (y : Int) (d : Nat) : Date :=
  let month := (5 * d + 2) / 153
  let day := d - (153 * month + 2) / 5 + 1
  if month < 10 then ⟨y, month + 3, day⟩ else ⟨y + 1, month - 9, day⟩

/-- The days from 1 March of the year 0 to 1 March of another year. -/
def daysBefore (y : Int) : Int := y / 400 * 146097 + (y % 400 * 365 + y % 400 / 4 - y % 400 / 100)

lemma daysBefore_eq (e : Int) (hc : 0 ≤ c ∧ c ≤ 3) (hq : 0 ≤ q ∧ q ≤ 24) (hs : 0 ≤ s ∧ s ≤ 3) :
    daysBefore (100 * c + 4 * q + s + e * 400) = e * 146097 + (36524 * c + 1461 * q + 365 * s) := by
  have hera : (100 * c + 4 * q + s + e * 400) / 400 = e := by omega
  have hyear : (100 * c + 4 * q + s + e * 400) % 400 = 100 * c + 4 * q + s := by omega
  rw [daysBefore, hera, hyear]
  omega

lemma isLeap_eq (e : Int) (hq : 0 ≤ q ∧ q ≤ 24) (hlast : q < 24 ∨ c = 3) :
    isLeap (100 * c + 4 * q + 3 + e * 400 + 1) = true := by
  simp only [isLeap, Bool.and_eq_true, Bool.or_eq_true, decide_eq_true_eq]
  omega

lemma ofDays_fromMarch (n : Int) : ∃ y d, ofDays n = fromMarch y d ∧ n + 719468 = daysBefore y + d ∧
    (d < 365 ∨ d = 365 ∧ isLeap (y + 1) = true) := by
  obtain ⟨z, hz⟩ : ∃ z, z = n + 719468 := ⟨_, rfl⟩
  obtain ⟨e, he⟩ : ∃ e, e = z / 146097 := ⟨_, rfl⟩
  obtain ⟨doe, hdoe⟩ : ∃ doe, doe = z - e * 146097 := ⟨_, rfl⟩
  obtain ⟨c, q, s, r, h⟩ : ∃ c q s r, Counts c q s r doe := exists_counts (by omega)
  have hday : doe - (365 * (100 * c + 4 * q + s) + (100 * c + 4 * q + s) / 4 - (100 * c + 4 * q + s) / 100) = r := by
    obtain ⟨hc, hq, hs, -, rfl⟩ := h
    clear hdoe
    omega
  refine ⟨100 * c + 4 * q + s + e * 400, r.toNat, ?_, ?_, ?_⟩
  · simp only [ofDays, fromMarch, ← hz, ← he, ← hdoe, h.yearOfEra, hday]
  · rw [daysBefore_eq e h.century h.four h.year, Int.toNat_of_nonneg h.day.1, ← hz]
    have hsum := h.sum
    omega
  · rcases h.day with ⟨hlow, hshort | ⟨rfl, rfl, hlast⟩⟩
    · left
      omega
    · exact Or.inr ⟨rfl, isLeap_eq e h.four hlast⟩

lemma toDays_late (y : Int) (m k : Nat) : toDays ⟨y, m + 3, k⟩ + 719468 = daysBefore y + ((153 * m + 2) / 5 + k - 1) := by
  have hm : ¬m + 3 ≤ 2 := by omega
  simp only [toDays, if_neg hm, daysBefore, Nat.add_sub_cancel, Int.emod_def]
  omega

lemma toDays_early (y : Int) (k : Nat) (hm : m ≤ 2) :
    toDays ⟨y + 1, m, k⟩ + 719468 = daysBefore y + ((153 * ((m + 9 : Nat) : Int) + 2) / 5 + k - 1) := by
  simp only [toDays, if_pos hm, daysBefore, Int.add_sub_cancel, Int.emod_def]
  omega

lemma toDays_fromMarch (hd : d < 366) : (fromMarch y d).toDays + 719468 = daysBefore y + d := by
  obtain ⟨m, hm⟩ : ∃ m, m = (5 * d + 2) / 153 := ⟨_, rfl⟩
  simp only [fromMarch, ← hm]
  split
  · rw [toDays_late]
    omega
  · rw [toDays_early y _ (by omega), Nat.sub_add_cancel (by omega)]
    omega

theorem toDays_ofDays (n : Int) : (ofDays n).toDays = n := by
  obtain ⟨y, d, hdate, hdays, hlast⟩ := ofDays_fromMarch n
  have hback := toDays_fromMarch (y := y) (show d < 366 by omega)
  rw [hdate]
  omega

/-- A date of the calendar. -/
structure Valid (d : Date) : Prop where
  month : 1 ≤ d.month ∧ d.month ≤ 12
  day : 1 ≤ d.day ∧ d.day ≤ monthLength d.year d.month

lemma valid_fromMarch (h : d < 365 ∨ d = 365 ∧ isLeap (y + 1) = true) : (fromMarch y d).Valid := by
  obtain ⟨m, hm⟩ : ∃ m, m = (5 * d + 2) / 153 := ⟨_, rfl⟩
  simp only [fromMarch, ← hm]
  split
  next hlate =>
    refine ⟨⟨by simp, by simp only []; omega⟩, by simp, ?_⟩
    have hfebruary : m + 3 ≠ 2 := by omega
    simp only [monthLength, if_neg hfebruary]
    split <;> omega
  next hearly =>
    obtain rfl | rfl : m = 10 ∨ m = 11 := by omega
    · refine ⟨by simp, by simp, ?_⟩
      change d - 306 + 1 ≤ 31
      omega
    · refine ⟨by simp, by simp, ?_⟩
      change d - 337 + 1 ≤ if isLeap (y + 1) = true then 29 else 28
      rcases h with hshort | ⟨rfl, hleap⟩
      · split <;> omega
      · simp [hleap]

lemma Valid.day_le {date : Date} (h : date.Valid) : date.day ≤ 31 := by
  have hlong : monthLength date.year date.month ≤ 31 := by
    simp only [monthLength]
    split
    · split <;> decide
    · split <;> decide
  exact Nat.le_trans h.day.2 hlong

theorem valid_ofDays (n : Int) : (ofDays n).Valid := by
  obtain ⟨y, d, hdate, -, hlast⟩ := ofDays_fromMarch n
  rw [hdate]
  exact valid_fromMarch hlast

/-- The parts of the date of a day make the date up again. -/
theorem ofParts?_ofDays (hyear : minYear ≤ (ofDays n).year ∧ (ofDays n).year ≤ maxYear) :
    ofParts? (ofDays n).year (ofDays n).month (ofDays n).day = some (ofDays n) := by
  obtain ⟨hmonth, hday⟩ := valid_ofDays n
  exact if_pos ⟨hyear.1, hyear.2, hmonth.1, hmonth.2, hday.1, hday.2⟩

end FileOrganizer.Date
