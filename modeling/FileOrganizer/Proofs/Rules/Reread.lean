import FileOrganizer.Proofs.Rules.Document
import FileOrganizer.Proofs.Table

/-! A profile that was read from a document is written and read again. Everything in it comes back but for a date whose
year needs a sign: the document may have such a date, alone or near the end of a year, but not with a time of day. -/

namespace FileOrganizer

open Decode

namespace Decode

variable {α β : Type} {d : Decoder α} {P : α → Prop} {Q : β → Prop} {name : String}

lemma required_eq_ok {m : Option α} {a : α} (h : required name m = .ok a) : m = some a := by
  cases m with
  | none => cases h
  | some b =>
    cases h
    rfl

lemma gives_single {make : α → β} (h : Gives d P) (hmake : ∀ a, P a → Q (make a)) : Gives (single name d make) Q := by
  refine Record.Keeps.ofMembers (I := fun m : Option α => ∀ a, m = some a → P a) ⟨by simp, ?_, ?_⟩
  · intro m k j b _ hrun
    obtain ⟨a, ha, rfl⟩ := map_eq_ok hrun
    rintro _ ⟨⟩
    exact h ha
  · intro m b hm hrun
    obtain ⟨a, ha, rfl⟩ := map_eq_ok hrun
    exact hmake a (hm a (required_eq_ok ha))

lemma gives_perhaps {make : Option α → β} (hmake : ∀ m, Q (make m)) : Gives (perhaps name d make) Q := by
  refine Record.Keeps.ofMembers (I := fun _ => True) ⟨trivial, fun _ _ _ _ _ _ => trivial, ?_⟩
  rintro m b - ⟨⟩
  exact hmake m

/-- A variant is found in a table of which every shape is of the kind. -/
lemma gives_shapes {shapes : Table String (Shape α)} (h : ∀ s ∈ shapes.map (·.2), s.Gives P) :
    Gives (tagged shapes.get?) P :=
  gives_tagged fun _ s hs => h s (List.mem_map.2 ⟨_, Table.mem_of_get? hs, rfl⟩)

end Decode

namespace Condition

lemma gives_date : Gives date Instant.Proper := by
  intro j t hrun
  obtain ⟨s, -, hs⟩ := bind_eq_ok hrun
  cases hbound : Instant.ofBound? s with
  | none =>
    simp only [hbound] at hs
    cases hs
  | some u =>
    simp only [hbound] at hs
    cases hs
    exact Instant.ofBound?_proper hbound

lemma gives_fieldValue : Gives fieldValue Loaded := by
  refine Record.Keeps.ofMembers (I := fun _ => True) ⟨trivial, fun _ _ _ _ _ _ => trivial, ?_⟩
  rintro ⟨f, v⟩ c - hrun
  obtain ⟨f, -, hrun⟩ := bind_eq_ok hrun
  obtain ⟨v, -, hrun⟩ := bind_eq_ok hrun
  cases hrun
  trivial

lemma gives_ofJson : Gives ofJson Loaded := by
  have hany {α : Type} {d : Decoder α} {make : α → Condition} {name : String} (h : ∀ a, (make a).Loaded) :
      Gives (single name d make) Loaded := gives_single (gives_any d) fun a _ => h a
  refine gives_shapes ?_
  simp only [shapes, List.map_cons, List.map_nil, List.forall_mem_cons, List.not_mem_nil, false_implies, implies_true,
    and_true, Shape.Gives]
  exact ⟨hany fun _ => trivial, hany fun _ => trivial, hany fun _ => trivial, hany fun _ => trivial,
    hany fun _ => trivial, hany fun _ => trivial, gives_single (gives_nat 64) fun _ h => h,
    gives_single (gives_nat 64) fun _ h => h, gives_single gives_date fun _ h => h, trivial, trivial, trivial,
    hany fun _ => trivial, hany fun _ => trivial, hany fun _ => trivial, hany fun _ => trivial, gives_fieldValue, trivial⟩

end Condition

namespace Action

lemma gives_command : Gives command Fits := by
  refine Record.Keeps.ofMembers (I := fun draft => draft.2.2 < Nat.pow 2 64) ⟨by decide, ?_, ?_⟩
  · rintro ⟨p, a, n⟩ k j b hn hrun
    simp only at hrun
    split at hrun
    · obtain ⟨_, -, rfl⟩ := map_eq_ok hrun
      exact hn
    split at hrun
    · obtain ⟨_, -, rfl⟩ := map_eq_ok hrun
      exact hn
    · obtain ⟨m, hm, rfl⟩ := map_eq_ok hrun
      exact gives_nat 64 hm
  · rintro ⟨p, a, n⟩ c hn hrun
    obtain ⟨_, -, rfl⟩ := map_eq_ok hrun
    exact hn

lemma gives_ofJson : Gives ofJson Fits := by
  have hany {make : String → Action} {name : String} (h : ∀ a, (make a).Fits) : Gives (single name text make) Fits :=
    gives_single (gives_any text) fun a _ => h a
  refine gives_shapes ?_
  simp only [shapes, List.map_cons, List.map_nil, List.forall_mem_cons, List.not_mem_nil, false_implies, implies_true,
    and_true, Shape.Gives]
  exact ⟨hany fun _ => trivial, hany fun _ => trivial, hany fun _ => trivial, hany fun _ => trivial, trivial, trivial,
    gives_command, gives_perhaps fun _ => trivial, gives_perhaps fun _ => trivial, hany fun _ => trivial,
    hany fun _ => trivial, hany fun _ => trivial, hany fun _ => trivial, gives_perhaps fun _ => trivial⟩

end Action

lemma Rule.gives_ofJson : Gives ofJson Loaded := by
  refine Record.Keeps.decode (I := fun draft => draft.2.Loaded) ⟨⟨by simp [record], by simp [record]⟩, ?_, ?_⟩
  · rintro ⟨n, r⟩ k j b hr hrun
    simp only [record] at hrun
    split at hrun
    · obtain ⟨_, -, rfl⟩ := map_eq_ok hrun
      exact hr
    split at hrun
    · obtain ⟨_, -, rfl⟩ := map_eq_ok hrun
      exact ⟨hr.conditions, hr.actions⟩
    split at hrun
    · obtain ⟨_, -, rfl⟩ := map_eq_ok hrun
      exact ⟨hr.conditions, hr.actions⟩
    split at hrun
    · obtain ⟨cs, hcs, rfl⟩ := map_eq_ok hrun
      exact ⟨gives_list Condition.gives_ofJson hcs, hr.actions⟩
    · obtain ⟨as, has, rfl⟩ := map_eq_ok hrun
      exact ⟨hr.conditions, gives_list Action.gives_ofJson has⟩
  · rintro ⟨n, r⟩ b hr hrun
    obtain ⟨_, -, rfl⟩ := map_eq_ok hrun
    exact ⟨hr.conditions, hr.actions⟩

lemma CategoryRule.gives_decode : Gives record.decode Fits := by
  refine Record.Keeps.decode (I := fun draft => draft.2.Fits) ⟨by simp [record, Fits], ?_, ?_⟩
  · rintro ⟨n, r⟩ k j b hr hrun
    simp only [record] at hrun
    split at hrun
    · obtain ⟨_, -, rfl⟩ := map_eq_ok hrun
      exact hr
    split at hrun
    · obtain ⟨m, hm, rfl⟩ := map_eq_ok hrun
      exact gives_optional (gives_nat 64) hm
    · obtain ⟨_, -, rfl⟩ := map_eq_ok hrun
      exact hr
  · rintro ⟨n, r⟩ b hr hrun
    obtain ⟨_, -, rfl⟩ := map_eq_ok hrun
    exact hr

namespace Profile

variable {p : Profile} {doc text : String}

lemma gives_ofJson : Gives ofJson Loaded := by
  refine Record.Keeps.decode (I := Loaded) ⟨⟨by simp [record], by simp [record]⟩, ?_, ?_⟩
  · rintro p k j b hp hrun
    simp only [record] at hrun
    split at hrun
    · obtain ⟨_, -, rfl⟩ := map_eq_ok hrun
      exact ⟨hp.rules, hp.smart⟩
    split at hrun
    · obtain ⟨rs, hrs, rfl⟩ := map_eq_ok hrun
      exact ⟨gives_list Rule.gives_ofJson hrs, hp.smart⟩
    split at hrun
    · obtain ⟨_, -, rfl⟩ := map_eq_ok hrun
      exact ⟨hp.rules, hp.smart⟩
    split at hrun
    · obtain ⟨rs, hrs, rfl⟩ := map_eq_ok hrun
      exact ⟨hp.rules, gives_list CategoryRule.gives_decode hrs⟩
    · obtain ⟨_, -, rfl⟩ := map_eq_ok hrun
      exact ⟨hp.rules, hp.smart⟩
  · rintro p b hp ⟨⟩
    exact hp

/-- A profile that a document gave passes its check, and each number and date in it is one that a document can give. -/
lemma loaded_of_ofText (h : ofText doc = .ok p) : p.Loaded ∧ p.validate = .ok () := by
  unfold ofText at h
  split at h
  · cases h
  · next q hq =>
    obtain ⟨u, hvalid, rfl⟩ : ∃ u, q.validate = .ok u ∧ q = p := by
      cases hvalid : q.validate with
      | error e =>
        rw [hvalid] at h
        cases h
      | ok u =>
        rw [hvalid] at h
        exact ⟨u, rfl, Except.ok.inj h⟩
    refine ⟨?_, hvalid⟩
    unfold document at hq
    split at hq
    split at hq
    · cases hq
    · next r hr =>
      split at hq
      · cases hq
        exact gives_ofJson hr
      · cases hq

/-- What is told of the profile that is read back: the first of its dates that is written with a sign, if there is one. -/
def again (p : Profile) : Except ProfileFault Profile :=
  match p.dates.find? (¬·.Unsigned) with
  | none => .ok p
  | some t => .error (.invalid (.badDate (t.text Scan.zone)))

lemma ofText_again (h : ofText doc = .ok p) (htext : Json.ofText text = (p.toJson, true)) : ofText text = p.again := by
  obtain ⟨hloaded, hvalid⟩ := loaded_of_ofText h
  rw [ofText, document_eq htext, ofJson_loaded hloaded, dated, again]
  cases p.dates.find? (¬·.Unsigned) with
  | none => simp only [hvalid, Except.map]
  | some t => rfl

lemma written_again (h : ofText doc = .ok p) : ofText p.toJson.compact = p.again ∧ ofText p.toJson.pretty = p.again := by
  have hlegible := legible_loaded (loaded_of_ofText h).1
  exact ⟨ofText_again h (Json.ofText_compact hlegible), ofText_again h (Json.ofText_pretty hlegible)⟩

/-- The text that is written for a date bound is read as the same moment, and a profile that was loaded is loaded again
from its document, if the years have four digits and no sign; else neither is read. -/
theorem dates_written_read {s : String} {t : Instant} (hdate : Instant.ofBound? s = some t) (hdoc : ofText doc = .ok p) :
    Instant.ofBound? (t.text Scan.zone) = (if t.Unsigned then some t else none) ∧
      ofText p.toJson.compact = p.again ∧ ofText p.toJson.pretty = p.again :=
  ⟨Instant.ofBound?_written (Instant.ofBound?_proper hdate), written_again hdoc⟩

/-- Two rules with a date each; the second is a minute before the year 10000, but behind universal time. -/
def lastMinute : String :=
  "\x7b\"rules\": [\x7b\"name\": \"a\", \"conditions\": [\x7b\"type\": \"LastModifiedBefore\", " ++
    "\"args\": \x7b\"date\": \"2016-12-31T23:59:60.5Z\"\x7d\x7d]\x7d, " ++
    "\x7b\"name\": \"b\", \"conditions\": [\x7b\"type\": \"LastModifiedBefore\", " ++
    "\"args\": \x7b\"date\": \"9999-12-31T23:59:59-00:01\"\x7d\x7d]\x7d]\x7d"

/-- The profile in `lastMinute`. -/
def untimely : Profile where
  rules := [
    { name := "a", conditions := [.modifiedBefore ⟨1483228799, 1500000000⟩] },
    { name := "b", conditions := [.modifiedBefore ⟨253402300859, 0⟩] }]

lemma ofText_lastMinute : ofText lastMinute = .ok untimely := by decide +kernel

lemma again_untimely : untimely.again = .error (.invalid (.badDate "+10000-01-01T00:00:59+00:00")) := by decide +kernel

theorem dates_written_read_untimely :
    (Instant.ofBound? "9999-12-31T23:59:59-00:01" = some ⟨253402300859, 0⟩ ∧ ofText lastMinute = .ok untimely) ∧
      Instant.ofBound? "+10000-01-01T00:00:59+00:00" = none ∧
      ofText untimely.toJson.pretty = .error (.invalid (.badDate "+10000-01-01T00:00:59+00:00")) := by
  have hdate : Instant.ofBound? "9999-12-31T23:59:59-00:01" = some ⟨253402300859, 0⟩ := by decide +kernel
  obtain ⟨hread, -, hpretty⟩ := dates_written_read hdate ofText_lastMinute
  refine ⟨⟨hdate, ofText_lastMinute⟩, ?_, ?_⟩
  · have htext : Instant.text ⟨253402300859, 0⟩ Scan.zone = "+10000-01-01T00:00:59+00:00" := by decide +kernel
    rw [← htext, hread, if_neg (by decide +kernel)]
  · rw [hpretty, again_untimely]

theorem dates_written_read_fails :
    ¬((∀ s t, Instant.ofBound? s = some t → Instant.ofBound? (t.text Scan.zone) = some t) ∨
      ∀ doc p, ofText doc = .ok p → ofText p.toJson.pretty = .ok p) := by
  rintro (hdates | hprofiles)
  · have hdate : Instant.ofBound? "+10000-01-01" = some ⟨253402300800, 0⟩ := by decide +kernel
    exact absurd (hdates _ _ hdate) (by decide +kernel)
  · have hsame := hprofiles _ _ ofText_lastMinute
    rw [(written_again ofText_lastMinute).2, again_untimely] at hsame
    cases hsame

end Profile

end FileOrganizer
