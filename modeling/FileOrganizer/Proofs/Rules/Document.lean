import FileOrganizer.Proofs.Json.Decode
import FileOrganizer.Proofs.Json.RoundTrip
import FileOrganizer.Proofs.Time.Bound
import FileOrganizer.Rules.Document

/-! A profile is read back from its document: every part by its own decoder, and the whole through its written form.
Where a date stands in it that cannot be read, that is what is told. -/

namespace FileOrganizer

namespace Decode

variable {α β : Type} {d : Decoder α} {a : α} {j : Json} {kind name : String} {find : String → Option (Shape α)}
  {ms : List (String × Json)} {make : List (String × Json) → Except DecodeError α}

lemma single_eq {make : α → β} : single name d make [(name, j)] = (d j).map make := by
  cases h : d j with
  | error e => simp [single, Record.ofMembers, Record.takeMembers, h, Except.map, Except.bind]
  | ok a => simp [single, Record.ofMembers, Record.takeMembers, h, Except.map, Except.bind, required]

lemma single_of {make : α → β} (h : d j = .ok a) : single name d make [(name, j)] = .ok (make a) := by
  rw [single_eq, h]
  rfl

lemma perhaps_of {make : Option α → β} {t : Option α} (h : optional d j = .ok t) :
    perhaps name d make [(name, j)] = .ok (make t) := by
  simp [perhaps, Record.ofMembers, Record.takeMembers, h, Except.bind]

lemma tagged_unit (h : find kind = some (.unit a)) : tagged find (.ofVariant kind []) = .ok a := by
  simp [tagged, Json.ofVariant, nextTagged, variant, variant.required', h, Shape.absent, bind, Except.bind]

lemma tagged_fields {m : String × Json} {r : Except DecodeError α} (h : find kind = some (.fields make))
    (hargs : make (m :: ms) = r) : tagged find (.ofVariant kind (m :: ms)) = r := by
  cases r with
  | error e =>
    simp [tagged, Json.ofVariant, nextTagged, variant, variant.required', h, Shape.decode, bind, Except.bind, hargs]
  | ok a =>
    simp [tagged, Json.ofVariant, nextTagged, variant, variant.required', h, Shape.decode, bind, Except.bind, hargs,
      noMore]

/-- `a`, unless a date stands in it that is written with a sign: that date is not read. -/
def dated (ts : List Instant) (a : α) : Except DecodeError α :=
  match ts.find? (¬·.Unsigned) with
  | none => .ok a
  | some t => .error (.badDate (t.text Scan.zone))

lemma map_dated (ts : List Instant) (f : α → β) : (dated ts a).map f = dated ts (f a) := by
  unfold dated
  cases ts.find? (¬·.Unsigned) with
  | none => rfl
  | some t => rfl

/-- The first date that is not read is that of the first item in which there is one. -/
lemma list_dated {f : α → Json} {dates : α → List Instant} {xs : List α} (h : ∀ x ∈ xs, d (f x) = dated (dates x) x) :
    list d (.arr (xs.map f)) = dated (xs.flatMap dates) xs := by
  show all d (xs.map f) = _
  induction xs with
  | nil => rfl
  | cons x xs ih =>
    have hx := h x List.mem_cons_self
    have hxs := ih fun y hy => h y (List.mem_cons_of_mem x hy)
    rw [List.map_cons, all, hx, hxs, List.flatMap_cons]
    simp only [dated, List.find?_append]
    cases (dates x).find? (¬·.Unsigned) with
    | some t => rfl
    | none =>
      cases (xs.flatMap dates).find? (¬·.Unsigned) with
      | some t => rfl
      | none => rfl

end Decode

lemma Json.legible_ofVariant {kind : String} {args : List (String × Json)} (h : Json.LegibleMembers args) :
    (Json.ofVariant kind args).Legible := by
  cases args with
  | nil => trivial
  | cons m ms => exact ⟨trivial, h, trivial⟩

open Decode

namespace Condition

/-- The numbers have 64 bits, and dates lie in the years 0 to 9999. -/
def Fits : Condition → Prop
  | sizeGreaterThan n | ageGreaterThan n => n < Nat.pow 2 64
  | modifiedBefore t => t.Proper ∧ 0 ≤ t.date.year ∧ t.date.year ≤ 9999
  | _ => True

/-- As it is read from a document: the numbers have 64 bits, and a date is a moment of the calendar. -/
def Loaded : Condition → Prop
  | sizeGreaterThan n | ageGreaterThan n => n < Nat.pow 2 64
  | modifiedBefore t => t.Proper
  | _ => True

def dates : Condition → List Instant
  | modifiedBefore t => [t]
  | _ => []

variable {c : Condition}

lemma Fits.loaded (h : c.Fits) : c.Loaded := by
  cases c with
  | modifiedBefore t => exact h.1
  | sizeGreaterThan n | ageGreaterThan n => exact h
  | _ => trivial

lemma Fits.unsigned (h : c.Fits) : ∀ t ∈ c.dates, t.Unsigned := by
  cases c with
  | modifiedBefore t => exact List.forall_mem_singleton.2 h.2
  | _ => simp [dates]

lemma pattern_text (p : Pattern) : pattern (.str p.text) = .ok p := by
  simp [pattern, text, bind, Except.bind, Pattern.ofText?_text]

lemma date_text {t : Instant} (h : t.Proper) : date (.str (t.text "+00:00")) = dated [t] t := by
  have hread : Instant.ofBound? (t.text "+00:00") = if t.Unsigned then some t else none := Instant.ofBound?_written h
  by_cases hyear : t.Unsigned
  · simp [date, text, bind, Except.bind, hread, dated, hyear]
  · simp [date, text, bind, Except.bind, hread, dated, hyear, Scan.zone]

lemma fieldValue_of (f v : String) : fieldValue [("field", .str f), ("value", .str v)] = .ok (.fieldEquals f v) := rfl

lemma ofJson_toJson (h : c.Loaded) : ofJson c.toJson = dated c.dates c := by
  cases c with
  | nameContains t | nameStartsWith t | nameEndsWith t | nameEquals t | parentContains t | contentContains t | colorIs t
  | hasTag t => exact tagged_fields rfl (single_of rfl)
  | regexMatch p => exact tagged_fields rfl (single_of (pattern_text p))
  | extensionIs es => exact tagged_fields rfl (single_of (list_text es))
  | sizeGreaterThan n | ageGreaterThan n => exact tagged_fields rfl (single_of (nat_of_lt h))
  | modifiedBefore t =>
    refine tagged_fields rfl ?_
    rw [single_eq, date_text h, map_dated]
    rfl
  | fieldEquals f v => exact tagged_fields rfl (fieldValue_of f v)
  | isHidden | isReadOnly | isDirectory | isDuplicate => exact tagged_unit rfl

lemma legible_toJson (h : c.Loaded) : c.toJson.Legible := by
  have hargs : Json.LegibleMembers c.args := by
    cases c with
    | extensionIs es => exact ⟨Json.legible_texts es, trivial⟩
    | sizeGreaterThan n | ageGreaterThan n => exact ⟨h, trivial⟩
    | _ => simp [args, Json.LegibleMembers, Json.Legible]
  exact Json.legible_ofVariant hargs

end Condition

namespace Action

/-- The time limit has 64 bits. -/
def Fits : Action → Prop
  | runCommand _ _ n => n < Nat.pow 2 64
  | _ => True

variable {a : Action}

lemma command_of {p : String} {as : List String} {n : Nat} (h : n < Nat.pow 2 64) :
    command [("program", .str p), ("args", .arr (as.map .str)), ("timeout_secs", .nat n)] = .ok (.runCommand p as n) := by
  simp [command, Record.ofMembers, Record.takeMembers, Decode.text, Except.map, Except.bind, required, list_text,
    nat_of_lt h]

lemma ofJson_toJson (h : a.Fits) : ofJson a.toJson = .ok a := by
  cases a with
  | rename t | tokenRename t | move t | copy t | createFolder t | addTag t | removeTag t | colorLabel t =>
    exact tagged_fields rfl (single_of rfl)
  | archive d | extract d | markAsDuplicate d => exact tagged_fields rfl (perhaps_of (optional_text d))
  | runCommand p as n => exact tagged_fields rfl (command_of h)
  | delete | deleteToTrash => exact tagged_unit rfl

lemma legible_toJson (h : a.Fits) : a.toJson.Legible := by
  have hargs : Json.LegibleMembers a.args := by
    cases a with
    | runCommand p as n => exact ⟨trivial, Json.legible_texts as, h, trivial⟩
    | archive d | extract d | markAsDuplicate d => exact ⟨Json.legible_ofOption d, trivial⟩
    | _ => simp [args, Json.LegibleMembers, Json.Legible]
  exact Json.legible_ofVariant hargs

end Action

lemma MatchMode.variant_text (m : MatchMode) : variant MatchMode.ofName? (.str m.text) = .ok m := by
  cases m with
  | all => rfl
  | any => rfl

namespace Rule

/-- Every number and every date in the rule can be told from its written form. -/
structure Fits (r : Rule) : Prop where
  conditions : ∀ c ∈ r.conditions, c.Fits
  actions : ∀ a ∈ r.actions, a.Fits

variable {r : Rule}

/-- As it is read from a document. -/
structure Loaded (r : Rule) : Prop where
  conditions : ∀ c ∈ r.conditions, c.Loaded
  actions : ∀ a ∈ r.actions, a.Fits

def dates (r : Rule) : List Instant := r.conditions.flatMap Condition.dates

lemma Fits.loaded (h : r.Fits) : r.Loaded := ⟨fun c hc => (h.conditions c hc).loaded, h.actions⟩

lemma Fits.unsigned (h : r.Fits) : ∀ t ∈ r.dates, t.Unsigned := by
  intro t ht
  obtain ⟨c, hc, htc⟩ := List.mem_flatMap.1 ht
  exact (h.conditions c hc).unsigned t htc

lemma ofJson_toJson (h : r.Loaded) : ofJson r.toJson = dated r.dates r := by
  have hmode := MatchMode.variant_text r.mode
  have hconditions : list Condition.ofJson (.arr (r.conditions.map Condition.toJson)) = dated r.dates r.conditions :=
    list_dated fun c hc => Condition.ofJson_toJson (h.conditions c hc)
  have hactions : list Action.ofJson (.arr (r.actions.map Action.toJson)) = .ok r.actions :=
    list_map fun a ha => Action.ofJson_toJson (h.actions a ha)
  unfold dated at hconditions ⊢
  cases hfirst : r.dates.find? (¬·.Unsigned) with
  | none =>
    simp only [hfirst] at hconditions ⊢
    simp [ofJson, toJson, Record.decode, Record.ofMembers, Record.takeMembers, record, Decode.text, Decode.bool,
      Except.map, Except.bind, required, hmode, hconditions, hactions]
  | some t =>
    simp only [hfirst] at hconditions ⊢
    simp [ofJson, toJson, Record.decode, Record.ofMembers, Record.takeMembers, record, Decode.text, Decode.bool,
      Except.map, Except.bind, hmode, hconditions]

lemma legible_toJson (h : r.Loaded) : r.toJson.Legible := by
  have hconditions : Json.LegibleAll (r.conditions.map Condition.toJson) :=
    Json.legible_map fun c hc => Condition.legible_toJson (h.conditions c hc)
  have hactions : Json.LegibleAll (r.actions.map Action.toJson) :=
    Json.legible_map fun a ha => Action.legible_toJson (h.actions a ha)
  simpa [toJson, Json.Legible, Json.LegibleMembers] using ⟨hconditions, hactions⟩

end Rule

namespace UserCategory

lemma decode_toJson (c : UserCategory) : record.decode c.toJson = .ok c := by
  simp [toJson, Record.decode, Record.ofMembers, Record.takeMembers, record, Decode.text, Decode.bool, Except.map,
    Except.bind, required, list_text]

lemma legible_toJson (c : UserCategory) : c.toJson.Legible := by
  simp [toJson, Json.Legible, Json.LegibleMembers, Json.legible_texts]

end UserCategory

namespace CategoryRule

/-- The age has 64 bits. -/
def Fits (r : CategoryRule) : Prop := ∀ n, r.minAgeDays = some n → n < Nat.pow 2 64

variable {r : CategoryRule}

lemma decode_toJson (h : r.Fits) : record.decode r.toJson = .ok r := by
  have hdays := optional_nat r.minAgeDays h
  simp [toJson, Record.decode, Record.ofMembers, Record.takeMembers, record, Decode.text, Except.map, Except.bind, required,
    list_text, hdays]

lemma legible_toJson (h : r.Fits) : r.toJson.Legible := by
  have hdays : ((r.minAgeDays.map Json.nat).getD .null).Legible := by
    cases hage : r.minAgeDays with
    | none => simp [Json.Legible]
    | some n => exact h n hage
  simp [toJson, Json.Legible, Json.LegibleMembers, Json.legible_texts, hdays]

end CategoryRule

namespace Profile

/-- Every number and every date in the profile can be told from its written form. -/
structure Fits (p : Profile) : Prop where
  rules : ∀ r ∈ p.rules, r.Fits
  smart : ∀ r ∈ p.categories.smart, r.Fits

variable {p : Profile}

/-- As it is read from a document. -/
structure Loaded (p : Profile) : Prop where
  rules : ∀ r ∈ p.rules, r.Loaded
  smart : ∀ r ∈ p.categories.smart, r.Fits

/-- The dates in the conditions, in the order of the document. -/
def dates (p : Profile) : List Instant := p.rules.flatMap Rule.dates

lemma Fits.loaded (h : p.Fits) : p.Loaded := ⟨fun r hr => (h.rules r hr).loaded, h.smart⟩

lemma Fits.unsigned (h : p.Fits) : ∀ t ∈ p.dates, t.Unsigned := by
  intro t ht
  obtain ⟨r, hr, htr⟩ := List.mem_flatMap.1 ht
  exact (h.rules r hr).unsigned t htr

lemma ofJson_loaded (h : p.Loaded) : ofJson p.toJson = dated p.dates p := by
  have hrules : list Rule.ofJson (.arr (p.rules.map Rule.toJson)) = dated p.dates p.rules :=
    list_dated fun r hr => Rule.ofJson_toJson (h.rules r hr)
  have hcustom : list UserCategory.record.decode (.arr (p.categories.custom.map UserCategory.toJson)) =
      .ok p.categories.custom := list_map fun c _ => c.decode_toJson
  have hsmart : list CategoryRule.record.decode (.arr (p.categories.smart.map CategoryRule.toJson)) =
      .ok p.categories.smart := list_map fun r hr => CategoryRule.decode_toJson (h.smart r hr)
  unfold dated at hrules ⊢
  cases hfirst : p.dates.find? (¬·.Unsigned) with
  | none =>
    simp only [hfirst] at hrules ⊢
    simp [ofJson, toJson, Record.decode, Record.ofMembers, Record.takeMembers, record, Decode.text, Except.map,
      Except.bind, hrules, hcustom, hsmart, list_text]
  | some t =>
    simp only [hfirst] at hrules ⊢
    simp [ofJson, toJson, Record.decode, Record.ofMembers, Record.takeMembers, record, Decode.text, Except.map,
      Except.bind, hrules]

lemma ofJson_toJson (h : p.Fits) : ofJson p.toJson = .ok p := by
  have hnone : p.dates.find? (¬·.Unsigned) = none := List.find?_eq_none.2 fun t ht => by simpa using h.unsigned t ht
  rw [ofJson_loaded h.loaded, dated, hnone]

lemma legible_loaded (h : p.Loaded) : p.toJson.Legible := by
  have hrules : Json.LegibleAll (p.rules.map Rule.toJson) :=
    Json.legible_map fun r hr => Rule.legible_toJson (h.rules r hr)
  have hcustom : Json.LegibleAll (p.categories.custom.map UserCategory.toJson) :=
    Json.legible_map fun c _ => c.legible_toJson
  have hsmart : Json.LegibleAll (p.categories.smart.map CategoryRule.toJson) :=
    Json.legible_map fun r hr => CategoryRule.legible_toJson (h.smart r hr)
  simp [toJson, Json.Legible, Json.LegibleMembers, hrules, hcustom, hsmart, Json.legible_texts]

lemma legible_toJson (h : p.Fits) : p.toJson.Legible := legible_loaded h.loaded

/-- A profile that passes its check is read back from its document, on one line or with one member a line. -/
theorem ofText_toJson (h : p.Fits) (hvalid : p.validate = .ok ()) :
    ofText p.toJson.compact = .ok p ∧ ofText p.toJson.pretty = .ok p := by
  have hread := ofJson_toJson h
  have hlegible := legible_toJson h
  have hcompact := document_of (Json.ofText_compact hlegible) hread
  have hpretty := document_of (Json.ofText_pretty hlegible) hread
  constructor
  · rw [ofText, hcompact]
    simp only [hvalid, Except.map]
  · rw [ofText, hpretty]
    simp only [hvalid, Except.map]

/-- Dates at both ends of the years and in a leap second, the largest number, and characters that are escaped. -/
def wide : Profile where
  name := "a \"quoted\" \\ name\n\u0001 of 文件"
  rules := [
    { name := "first", mode := .any, stopOnMatch := true
      conditions := [.modifiedBefore ⟨-62167219200, 0⟩, .modifiedBefore ⟨253402300799, 1999999999⟩,
        .modifiedBefore ⟨1483228799, 1500000000⟩, .sizeGreaterThan 18446744073709551615, .isHidden,
        .regexMatch ((Pattern.ofText? "^IMG_[0-9]+").get (by decide +kernel)), .fieldEquals "mime" "",
        .extensionIs [".a", ""]]
      actions := [.runCommand "tar" ["-x", "é"] 18446744073709551615, .archive none, .extract (some "/x"), .delete] },
    { name := "second", actions := [.markAsDuplicate none] }]
  categories := { custom := [{ name := "CAD", extensions := ["dwg"], enabled := false }]
                  smart := [{ minAgeDays := some 30, category := "Old" }, { keywords := ["tax"], category := "Tax" }]
                  disabled := ["PDF"] }

theorem ofText_toJson_wide : (wide.Fits ∧ wide.validate = .ok ()) ∧
    ofText wide.toJson.compact = .ok wide ∧ ofText wide.toJson.pretty = .ok wide := by
  have hfits : wide.Fits := by
    constructor
    · intro r hr
      simp only [wide, List.mem_cons, List.not_mem_nil, or_false] at hr
      rcases hr with rfl | rfl
      · refine ⟨?_, by simp [Action.Fits]⟩
        simp only [List.forall_mem_cons, List.not_mem_nil, false_implies, implies_true, Condition.Fits, Instant.Proper]
        decide
      · exact ⟨by simp, by simp [Action.Fits]⟩
    · simp [wide, CategoryRule.Fits]
  have hvalid : wide.validate = .ok () := by decide +kernel
  exact ⟨⟨hfits, hvalid⟩, ofText_toJson hfits hvalid⟩

end Profile

end FileOrganizer
