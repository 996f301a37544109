import FileOrganizer.Proofs.Ordered
import FileOrganizer.Proofs.Scan

/-! The category of a file is one of those that are known, so that a scan passes its directory by, and it is enabled,
unless it shares its name with one that is not. It is the same at any time as long as no rule asks for an age. -/

namespace FileOrganizer

variable {c : Categories} {f g : FileInfo} {n : String} {now now' : Instant}

namespace Categories

lemma mem_known : n ∈ c.known ↔ n = Category.fallback ∨ n ∈ Category.builtIn.map (·.1) ∨ n ∈ c.custom.map (·.name) ∨
    n ∈ c.smart.map (·.category) := by
  unfold known
  rw [mem_foldr_insertText]
  simp only [List.mem_append, List.mem_cons, List.not_mem_nil, or_false, or_assoc]

lemma byExtension?_known {ext : String} (h : c.byExtension? ext = some n) : n ∈ c.known := by
  unfold byExtension? at h
  split at h
  · cases h
  · obtain ⟨x, hx, rfl⟩ := Option.map_eq_some_iff.1 h
    exact mem_known.2 (Or.inr (Or.inr (Or.inl (List.mem_map_of_mem (List.mem_of_find?_eq_some hx)))))

lemma bySmartRule?_known (h : c.bySmartRule? f now = some n) : n ∈ c.known := by
  obtain ⟨r, hr, rfl⟩ := Option.map_eq_some_iff.1 h
  exact mem_known.2 (Or.inr (Or.inr (Or.inr (List.mem_map_of_mem (List.mem_of_find?_eq_some hr)))))

lemma builtIn?_known {ext : String} (h : c.builtIn? ext = some n) : n ∈ c.known := by
  obtain ⟨hn, -⟩ := Option.filter_eq_some_iff.1 h
  obtain ⟨x, hx, rfl⟩ := Option.map_eq_some_iff.1 hn
  exact mem_known.2 (Or.inr (Or.inl (List.mem_map_of_mem (List.mem_of_find?_eq_some hx))))

/-- Whatever the category of a file is, it is known. -/
lemma resolve_known (c : Categories) (f : FileInfo) (now : Instant) : c.resolve f now ∈ c.known := by
  unfold resolve
  cases hext : c.byExtension? f.ext with
  | some n => exact byExtension?_known hext
  | none =>
    cases hsmart : c.bySmartRule? f now with
    | some n => exact bySmartRule?_known hsmart
    | none =>
      cases hbuilt : c.builtIn? f.ext with
      | some n => exact builtIn?_known hbuilt
      | none => exact mem_known.2 (Or.inl rfl)

/-- Of the user's categories that are enabled, `x` is the first that has the extension. -/
def Takes (c : Categories) (ext : String) (x : UserCategory) : Prop :=
  ext ≠ "" ∧ (c.custom.find? fun x => x.enabled && x.extensions.any fun e => Category.normalExt e == ext) = some x

/-- Of the user's categories with the name of `x`, in any case, the first is disabled. -/
def Shadowed (c : Categories) (x : UserCategory) : Prop :=
  ∃ before y after, c.custom = before ++ y :: after ∧ (∀ z ∈ before, Text.sameLetters z.name x.name = false) ∧
    Text.sameLetters y.name x.name = true ∧ y.enabled = false

lemma byExtension?_eq_some {ext : String} : c.byExtension? ext = some n ↔ ∃ x, c.Takes ext x ∧ x.name = n := by
  unfold byExtension? Takes
  split <;> simp_all

/-- Whoever takes a file by its extension is one of the user's categories. -/
lemma Takes.mem {ext : String} {x : UserCategory} (h : c.Takes ext x) : x ∈ c.custom := List.mem_of_find?_eq_some h.2

lemma Takes.unique {ext : String} {x y : UserCategory} (h : c.Takes ext x) (h' : c.Takes ext y) : x = y :=
  Option.some.inj (h.2.symm.trans h'.2)

lemma custom?_isSome {x : UserCategory} (hx : x ∈ c.custom) : (c.custom? x.name).isSome := by
  unfold custom?
  exact List.find?_isSome.2 ⟨x, hx, by simp [Text.sameLetters]⟩

/-- The predicate asks the first of the user's categories that has the name. -/
lemma isEnabled_eq_false_iff {x : UserCategory} (hx : x ∈ c.custom) : c.isEnabled x.name = false ↔ c.Shadowed x := by
  obtain ⟨y, hy⟩ := Option.isSome_iff_exists.1 (custom?_isSome hx)
  have henabled : c.isEnabled x.name = y.enabled := by rw [isEnabled, hy]
  rw [henabled]
  constructor
  · intro hoff
    obtain ⟨hname, before, after, hsplit, hbefore⟩ := List.find?_eq_some_iff_append.1 hy
    exact ⟨before, y, after, hsplit, by simpa using hbefore, hname, hoff⟩
  · rintro ⟨before, z, after, hsplit, hbefore, hname, hoff⟩
    have hz : c.custom? x.name = some z :=
      List.find?_eq_some_iff_append.2 ⟨hname, before, after, hsplit, by simpa using hbefore⟩
    obtain rfl := Option.some.inj (hy.symm.trans hz)
    exact hoff

lemma bySmartRule?_enabled (h : c.bySmartRule? f now = some n) : c.isEnabled n = true := by
  obtain ⟨r, hr, rfl⟩ := Option.map_eq_some_iff.1 h
  have hadmits := List.find?_some hr
  rw [Bool.and_eq_true] at hadmits
  exact hadmits.2

lemma builtIn?_enabled {ext : String} (h : c.builtIn? ext = some n) : c.isEnabled n = true := by
  obtain ⟨-, hfree⟩ := Option.filter_eq_some_iff.1 h
  obtain ⟨hnone, hallowed⟩ := Bool.and_eq_true_iff.1 hfree
  rw [isEnabled, Option.isNone_iff_eq_none.1 hnone]
  exact hallowed

/-- The category of a file is known. If it is not the one for all others, it is enabled, but for one case: the file is
taken by its extension, and of the user's categories with that name the first is disabled. -/
theorem resolve_enabled_iff (c : Categories) (f : FileInfo) (now : Instant) :
    c.resolve f now ∈ c.known ∧ (c.resolve f now = Category.fallback ∨
      (c.isEnabled (c.resolve f now) = true ↔ ¬∃ x, c.Takes f.ext x ∧ c.Shadowed x)) := by
  refine ⟨c.resolve_known f now, ?_⟩
  unfold resolve
  cases hext : c.byExtension? f.ext with
  | some n =>
    right
    obtain ⟨x, hx, rfl⟩ := byExtension?_eq_some.1 hext
    show c.isEnabled x.name = true ↔ _
    rw [← Bool.not_eq_false, isEnabled_eq_false_iff hx.mem, not_iff_not]
    constructor
    · exact fun hshadow => ⟨x, hx, hshadow⟩
    · rintro ⟨y, hy, hshadow⟩
      rwa [hx.unique hy]
  | none =>
    have hnot : ¬∃ x, c.Takes f.ext x ∧ c.Shadowed x := by
      rintro ⟨x, hx, -⟩
      simp [byExtension?_eq_some.2 ⟨x, hx, rfl⟩] at hext
    cases hsmart : c.bySmartRule? f now with
    | some n => exact Or.inr (iff_of_true (bySmartRule?_enabled hsmart) hnot)
    | none =>
      cases hbuilt : c.builtIn? f.ext with
      | some n => exact Or.inr (iff_of_true (builtIn?_enabled hbuilt) hnot)
      | none => exact Or.inl rfl

/-- Two categories of one name, of which the first is disabled. -/
def scans : Categories := { custom := [⟨"Scans", [], false⟩, ⟨"Scans", [".pdf"], true⟩] }

/-- A file is sorted into a category that is disabled. -/
theorem resolve_disabled : ¬∀ (c : Categories) (f : FileInfo) (now : Instant), c.resolve f now ∈ c.known ∧
    (c.resolve f now = Category.fallback ∨ c.isEnabled (c.resolve f now) = true) := by
  intro h
  exact absurd (h scans (.described ⟨"/in/a.pdf"⟩ 0 ⟨0, 0⟩ false) ⟨0, 0⟩).2 (by decide +kernel)

/-- The names that the user makes up can stand in a directory. -/
def Named (c : Categories) : Prop := (∀ x ∈ c.custom, Proper x.name) ∧ ∀ r ∈ c.smart, Proper r.category

instance : Decidable c.Named := inferInstanceAs (Decidable (_ ∧ _))

/-- No rule asks for the age of a file. -/
def Timeless (c : Categories) : Prop := ∀ r ∈ c.smart, r.minAgeDays = none

instance : Decidable c.Timeless := inferInstanceAs (Decidable (∀ r ∈ c.smart, r.minAgeDays = none))

lemma Named.resolve (h : c.Named) (f : FileInfo) (now : Instant) : Proper (c.resolve f now) := by
  rcases mem_known.1 (c.resolve_known f now) with heq | hmem | hmem | hmem
  · rw [heq]
    decide
  · have hbuilt : ∀ n ∈ Category.builtIn.map (·.1), Proper n := by decide
    exact hbuilt _ hmem
  · obtain ⟨x, hx, heq⟩ := List.mem_map.1 hmem
    exact heq ▸ h.1 x hx
  · obtain ⟨r, hr, heq⟩ := List.mem_map.1 hmem
    exact heq ▸ h.2 r hr

lemma Timeless.bySmartRule? (h : c.Timeless) (hnames : f.toFileNames = g.toFileNames) :
    c.bySmartRule? f now = c.bySmartRule? g now' := by
  unfold Categories.bySmartRule?
  rw [← List.head?_filter, ← List.head?_filter, List.filter_congr fun r hr => ?_]
  rw [CategoryRule.matches?, CategoryRule.matches?, h r hr, show f.stem = g.stem by rw [hnames]]
  rfl

/-- The names of a file tell its category at any time. -/
lemma Timeless.resolve (h : c.Timeless) (hnames : f.toFileNames = g.toFileNames) :
    c.resolve f now = c.resolve g now' := by
  unfold Categories.resolve
  rw [h.bySmartRule? hnames, show f.ext = g.ext by rw [hnames]]

end Categories

namespace Profile

variable {who who' : Actor} {p : Profile} {root folder trash : Path} {recursive skipHidden : Bool}

/-- The scope depends on where the program runs, and on nothing else about it. -/
lemma scope_congr (h : who.cwd = who'.cwd) :
    p.scope who root trash recursive skipHidden = p.scope who' root trash recursive skipHidden := by
  unfold scope Scope.ofRoot
  rw [h]

lemma scope_root (h : root.absolute? who.cwd = some folder) :
    (p.scope who root trash recursive skipHidden).root = folder := by
  show (root.absolute? who.cwd).getD root = folder
  rw [h, Option.getD_some]

/-- A scan does not go into the directories of categories. -/
lemma scope_excludes (h : n ∈ p.categories.known) : (p.scope who root trash recursive skipHidden).excludesName n = true := by
  rw [Scope.excludesName, List.contains_iff_mem, scope]
  dsimp only
  exact List.mem_map_of_mem h

end Profile

end FileOrganizer
