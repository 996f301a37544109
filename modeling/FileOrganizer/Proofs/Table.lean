import FileOrganizer.Table
import Mathlib.Data.List.Nodup
import Mathlib.Tactic.Lemma

/-! Which keys a table binds, and tables that bind no key twice. -/

namespace FileOrganizer.Table

variable {κ α : Type} [DecidableEq κ] {t : Table κ α} {k l m : κ} {a : α} {f : α → α}

lemma mem_keys : k ∈ t.map (·.1) ↔ t.get? k ≠ none := by
  induction t with
  | nil => simp [get?]
  | cons e t ih =>
    rw [get?_cons, List.map_cons, List.mem_cons, ih]
    by_cases h : e.1 = k
    · simp [h]
    · simp [h, Ne.symm h]

lemma mem_of_get? (h : t.get? k = some a) : (k, a) ∈ t := by
  induction t with
  | nil => cases h
  | cons e t ih =>
    rw [get?_cons] at h
    split at h
    · next hk =>
      obtain rfl := Option.some.inj h
      exact hk ▸ List.mem_cons_self
    · exact List.mem_cons_of_mem _ (ih h)

/-- No key is bound twice. -/
def Single (t : Table κ α) : Prop := (t.map (·.1)).Nodup

lemma Single.get? (h : t.Single) (hm : (k, a) ∈ t) : t.get? k = some a := by
  induction t with
  | nil => cases hm
  | cons e t ih =>
    obtain ⟨hne, hrest⟩ := List.nodup_cons.1 h
    rw [get?_cons]
    rcases List.mem_cons.1 hm with rfl | hm
    · simp
    · have hk : e.1 ≠ k := by
        rintro rfl
        exact hne (List.mem_map.2 ⟨_, hm, rfl⟩)
      rw [if_neg hk]
      exact ih hrest hm

lemma Single.erase (h : t.Single) : (t.erase k).Single := h.sublist (List.filter_sublist.map _)

lemma Single.put (h : t.Single) : (t.put k a).Single := by
  refine List.nodup_cons.2 ⟨?_, h.erase⟩
  rw [mem_keys, get?_erase]
  simp

lemma Single.adjust (h : t.Single) : (t.adjust k f).Single := by
  unfold Table.adjust
  split
  · exact h
  · exact h.put

lemma Single.carry (h : t.Single) : (t.carry k l).Single := by
  unfold Table.carry
  split
  · exact h
  · exact h.erase.put

lemma get?_filter (t : Table κ α) (S : κ → Prop) [DecidablePred S] (k : κ) :
    get? (t.filter fun e => S e.1) k = if S k then t.get? k else none := by
  induction t with
  | nil => simp [get?_nil]
  | cons e t ih =>
    by_cases hk : e.1 = k
    · subst hk
      by_cases he : S e.1 <;> simp [he, get?_cons, ih]
    · by_cases he : S e.1 <;> simp [he, get?_cons, hk, ih]

lemma get?_append (t u : Table κ α) (k : κ) : get? (t ++ u) k = (t.get? k).or (u.get? k) := by
  induction t with
  | nil => rfl
  | cons e t ih =>
    rw [List.cons_append, get?_cons, get?_cons, ih]
    split <;> rfl

/-- Carrying to a key without a binding moves whatever there is. -/
lemma get?_carry_free (hl : t.get? l = none) :
    (t.carry k l).get? m = if l = m then t.get? k else if k = m then none else t.get? m := by
  cases hk : t.get? k with
  | some a => rw [get?_carry _ _ _ _ (by simp [hk]), hk]
  | none =>
    rw [carry, hk]
    dsimp only
    split
    · next h => exact h ▸ hl
    · split
      · next h => exact h ▸ hk
      · rfl

end FileOrganizer.Table
