/-!
Association tables: lists of keyed values, newest binding first. Main statements: what a look-up
returns after a binding is put, removed or carried to another key.
-/

namespace FileOrganizer

abbrev Table (κ : Type) (α : Type) := List (κ × α)

namespace Table

variable {κ α : Type} [DecidableEq κ]

def get? (t : Table κ α) (k : κ) : Option α :=
  (t.find? (fun e => e.1 = k)).map (·.2)

def has (t : Table κ α) (k : κ) : Bool := (t.get? k).isSome

def erase (t : Table κ α) (k : κ) : Table κ α := t.filter (fun e => e.1 ≠ k)

/-- A key has one binding at most: the old one goes when a new one comes. -/
def put (t : Table κ α) (k : κ) (a : α) : Table κ α := (k, a) :: t.erase k

/-- Changes what `k` is bound to, if it is bound. -/
def adjust (t : Table κ α) (k : κ) (f : α → α) : Table κ α :=
  match t.get? k with
  | none => t
  | some a => t.put k (f a)

/-- The binding of `k` becomes the binding of `l`, in the place of what `l` was bound to. Without a
binding of `k` nothing changes. -/
def carry (t : Table κ α) (k l : κ) : Table κ α :=
  match t.get? k with
  | none => t
  | some a => (t.erase k).put l a

theorem get?_nil (k : κ) : get? ([] : Table κ α) k = none := rfl

theorem get?_cons (e : κ × α) (t : Table κ α) (k : κ) :
    get? (e :: t) k = if e.1 = k then some e.2 else get? t k := by
  by_cases h : e.1 = k <;> simp [get?, h]

theorem get?_erase (t : Table κ α) (k l : κ) :
    (t.erase k).get? l = if k = l then none else t.get? l := by
  induction t with
  | nil => simp [erase, get?]
  | cons e t ih =>
    rw [erase] at ih
    by_cases h : e.1 = k
    · by_cases hl : k = l
      · subst hl
        simpa [erase, h] using ih
      · have hn : e.1 ≠ l := fun he => hl (h.symm.trans he)
        simpa [erase, h, get?_cons, hn, hl] using ih
    · by_cases hl : k = l
      · subst hl
        simpa [erase, h, get?_cons] using ih
      · have hk : ¬e.1 = k := h
        simp only [erase, List.filter_cons, hk, ne_eq, not_false_eq_true, decide_true, if_true,
          get?_cons, hl, if_false]
        rw [if_neg hl] at ih
        simp only [ne_eq] at ih
        rw [ih]

theorem get?_put (t : Table κ α) (k l : κ) (a : α) :
    (t.put k a).get? l = if k = l then some a else t.get? l := by
  rw [put, get?_cons]
  by_cases h : k = l <;> simp [h, get?_erase]

theorem get?_adjust (t : Table κ α) (k l : κ) (f : α → α) :
    (t.adjust k f).get? l = if k = l then (t.get? k).map f else t.get? l := by
  cases h : t.get? k with
  | none => by_cases hl : k = l <;> simp_all [adjust]
  | some a => simp [adjust, h, get?_put]

theorem get?_carry (t : Table κ α) (k l m : κ) (h : (t.get? k).isSome) :
    (t.carry k l).get? m = if l = m then t.get? k else if k = m then none else t.get? m := by
  obtain ⟨a, ha⟩ := Option.isSome_iff_exists.1 h
  simp [carry, ha, get?_put, get?_erase]

end Table

end FileOrganizer
