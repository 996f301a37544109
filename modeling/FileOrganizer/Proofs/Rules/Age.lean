import FileOrganizer.Proofs.Batch.Conservation
import Mathlib.Algebra.Group.Int.Defs
import Mathlib.Algebra.Group.Nat.Defs

/-! Limits of age. An age is a number of whole days. A limit is kept in a signed word: as long as it fits there it means
what it says, and beyond that it is taken for a negative number. -/

namespace FileOrganizer

namespace Instant

variable {t now : Instant} {age : ℤ}

/-- From `t` to `now`, in nanoseconds. -/
def nanosUntil (t now : Instant) : ℤ := (now.secs - t.secs) * 1000000000 + (now.nanos - t.nanos)

/-- The nanoseconds of a day. -/
def dayNanos : ℤ := 24 * 60 * 60 * 1000000000

/-- `age` is the time from `t` to `now` in days, less the part of a day at its end. -/
structure WholeDays (t now : Instant) (age : ℤ) : Prop where
  past : 0 ≤ t.nanosUntil now → age * dayNanos ≤ t.nanosUntil now ∧ t.nanosUntil now < (age + 1) * dayNanos
  future : t.nanosUntil now ≤ 0 → (age - 1) * dayNanos < t.nanosUntil now ∧ t.nanosUntil now ≤ age * dayNanos

lemma daysUntil_of_past (h : 0 ≤ t.nanosUntil now) : t.daysUntil now = t.nanosUntil now / dayNanos :=
  Int.tdiv_eq_ediv_of_nonneg h

lemma daysUntil_of_future (h : t.nanosUntil now ≤ 0) : t.daysUntil now = -(-t.nanosUntil now / dayNanos) := by
  have hneg : t.daysUntil now = (- -t.nanosUntil now).tdiv dayNanos := by
    rw [Int.neg_neg]
    rfl
  rw [hneg, Int.neg_tdiv, Int.tdiv_eq_ediv_of_nonneg (Int.neg_nonneg_of_nonpos h)]

/-- There is such an age for any two moments. -/
lemma wholeDays_daysUntil (t now : Instant) : t.WholeDays now (t.daysUntil now) := by
  constructor
  · intro h
    rw [daysUntil_of_past h]
    unfold dayNanos
    omega
  · intro h
    rw [daysUntil_of_future h]
    unfold dayNanos
    omega

lemma WholeDays.eq (h : t.WholeDays now age) : t.daysUntil now = age := by
  obtain ⟨hpast, hfuture⟩ := h
  rcases Int.le_total 0 (t.nanosUntil now) with hns | hns
  · obtain ⟨hreached, hmost⟩ := hpast hns
    rw [daysUntil_of_past hns]
    unfold dayNanos at *
    omega
  · obtain ⟨hmost, hreached⟩ := hfuture hns
    rw [daysUntil_of_future hns]
    unfold dayNanos at *
    omega

end Instant

variable {d : ℕ} {s : Sight} {f : FileInfo} {r : CategoryRule} {now : Instant} {age : ℤ}

lemma signed64_eq (hd : d < 2 ^ 64) : signed64 d = if d < 2 ^ 63 then (d : ℤ) else d - 2 ^ 64 := by
  unfold signed64
  rw [Int.bmod_def, Nat.pow_eq]
  split_ifs <;> omega

/-- The rule has no keyword, or one that the file has in its stem. -/
def CategoryRule.HasKeyword (r : CategoryRule) (f : FileInfo) : Prop :=
  r.keywords = [] ∨ ∃ k ∈ r.keywords, occursLower k f.stem = true

lemma Condition.holds_ageGreaterThan (hage : f.modified.WholeDays s.host.now age) :
    (ageGreaterThan d).holds s f = true ↔ signed64 d < age := by
  show decide (signed64 d < f.modified.daysUntil s.host.now) = true ↔ _
  rw [decide_eq_true_eq, hage.eq]

lemma CategoryRule.matches?_aged (hr : r.minAgeDays = some d) (hage : f.modified.WholeDays now age) :
    r.matches? f now = true ↔ r.HasKeyword f ∧ signed64 d ≤ age := by
  unfold matches? HasKeyword
  rw [hr, ← hage.eq]
  simp

/-- With the age counted in whole days, a limit below `2 ^ 63` is compared with it as the number it is: by a condition
it must be passed, by a rule of categories it must be reached. A larger one is compared as if it were `2 ^ 64` less.
A file that is over a limit is over any smaller one, of those that fit in a word and of the others. -/
theorem aged_iff (hd : d < 2 ^ 64) (hage : f.modified.WholeDays s.host.now age) :
    (d < 2 ^ 63 → ((Condition.ageGreaterThan d).holds s f = true ↔ d < age) ∧
        ∀ r : CategoryRule, r.minAgeDays = some d → (r.matches? f s.host.now = true ↔ r.HasKeyword f ∧ d ≤ age)) ∧
      (2 ^ 63 ≤ d → ((Condition.ageGreaterThan d).holds s f = true ↔ (d : ℤ) - 2 ^ 64 < age) ∧
        ∀ r : CategoryRule, r.minAgeDays = some d →
          (r.matches? f s.host.now = true ↔ r.HasKeyword f ∧ (d : ℤ) - 2 ^ 64 ≤ age)) ∧
      ∀ d' ≤ d, (d < 2 ^ 63 ∨ 2 ^ 63 ≤ d') →
        ((Condition.ageGreaterThan d).holds s f = true → (Condition.ageGreaterThan d').holds s f = true) ∧
          ∀ r : CategoryRule, { r with minAgeDays := some d }.matches? f s.host.now = true →
            { r with minAgeDays := some d' }.matches? f s.host.now = true := by
  have hlimit := signed64_eq hd
  refine ⟨fun hsmall => ?_, fun hlarge => ?_, fun d' hle hsame => ?_⟩
  · rw [if_pos hsmall] at hlimit
    refine ⟨?_, fun r hr => ?_⟩
    · rw [Condition.holds_ageGreaterThan hage, hlimit]
    · rw [CategoryRule.matches?_aged hr hage, hlimit]
  · rw [if_neg (by omega)] at hlimit
    refine ⟨?_, fun r hr => ?_⟩
    · rw [Condition.holds_ageGreaterThan hage, hlimit]
    · rw [CategoryRule.matches?_aged hr hage, hlimit]
  · have hlimits : signed64 d' ≤ signed64 d := by
      rw [hlimit, signed64_eq (by omega)]
      split_ifs <;> omega
    refine ⟨fun hover => ?_, fun r hover => ?_⟩
    · rw [Condition.holds_ageGreaterThan hage] at hover ⊢
      omega
    · rw [CategoryRule.matches?_aged rfl hage] at hover ⊢
      exact ⟨hover.1, by omega⟩

section

/-- What is seen on the first day, with no file anywhere. -/
def firstDay : Sight := ⟨Job.plainHost, .empty, ⟨.empty, none⟩⟩

/-- A file that was last changed two days and a half before the first day. -/
def twoDaysOld : FileInfo := .described ⟨"/r/a.txt"⟩ 0 ⟨-216000, 0⟩ false

lemma wholeDays_twoDaysOld : twoDaysOld.modified.WholeDays firstDay.host.now 2 := by
  constructor <;> decide

/-- Two days and a half are not more than two days, but they reach two; and they are more than the largest number of
days that there is a word for. -/
theorem aged_iff_twoDays :
    (Condition.ageGreaterThan 2).holds firstDay twoDaysOld = false ∧
      ({ minAgeDays := some 2, category := "Old" } : CategoryRule).matches? twoDaysOld firstDay.host.now = true ∧
      (Condition.ageGreaterThan (2 ^ 64 - 1)).holds firstDay twoDaysOld = true := by
  obtain ⟨hsmall, -⟩ := aged_iff (d := 2) (by decide) wholeDays_twoDaysOld
  obtain ⟨hcondition, hrule⟩ := hsmall (by decide)
  obtain ⟨-, hlarge, -⟩ := aged_iff (d := 2 ^ 64 - 1) (by decide) wholeDays_twoDaysOld
  refine ⟨?_, (hrule _ rfl).2 ⟨Or.inl rfl, by decide⟩, (hlarge (by decide)).1.2 (by decide)⟩
  rw [← Bool.not_eq_true, hcondition]
  decide

/-- A limit that no age reaches is passed, and reached, by any file of today, and a smaller one is not. -/
theorem aged_iff_fails :
    (¬∀ (d : ℕ) (s : Sight) (f : FileInfo) (age : ℤ), d < 2 ^ 64 → f.modified.WholeDays s.host.now age →
        ((Condition.ageGreaterThan d).holds s f = true ↔ d < age)) ∧
      (¬∀ (d : ℕ) (r : CategoryRule) (f : FileInfo) (now : Instant) (age : ℤ), d < 2 ^ 64 →
        f.modified.WholeDays now age → r.minAgeDays = some d →
          (r.matches? f now = true ↔ r.HasKeyword f ∧ d ≤ age)) ∧
      ¬∀ (d d' : ℕ) (s : Sight) (f : FileInfo), d' ≤ d → d < 2 ^ 64 →
        (Condition.ageGreaterThan d).holds s f = true → (Condition.ageGreaterThan d').holds s f = true := by
  refine ⟨fun h => ?_, fun h => ?_, fun h => ?_⟩
  · exact absurd (h (2 ^ 64 - 1) firstDay twoDaysOld 2 (by decide) wholeDays_twoDaysOld) (by decide)
  · have hreached := (h (2 ^ 64 - 1) { minAgeDays := some (2 ^ 64 - 1), category := "Old" } twoDaysOld
      firstDay.host.now 2 (by decide) wholeDays_twoDaysOld rfl).1 (by decide)
    exact absurd hreached.2 (by decide)
  · exact absurd (h (2 ^ 64 - 1) 2 firstDay twoDaysOld (by decide) (by decide) (by decide)) (by decide)

end

end FileOrganizer
