import FileOrganizer.Proofs.Ordered
import FileOrganizer.Proofs.Table
import FileOrganizer.Tags.Twins
import Mathlib.Data.Set.Insert

/-! What is on record about a file, as a whole, and how each change of the tag store changes it. -/

namespace FileOrganizer

@[ext] structure Facts where
  color : Option String
  print : Option Fingerprint
  tags : Set String
  fields : String → Option String

def Facts.none : Facts := ⟨Option.none, Option.none, ∅, fun _ => Option.none⟩

/-- What can be put on record about a file. -/
inductive Note
  | addTag (tag : String)
  | removeTag (tag : String)
  | setColor (color : String)
  | setField (name value : String)
  | index

/-- The facts after a note, about a file with this fingerprint. -/
def Facts.take (f : Facts) (print : Fingerprint) : Note → Facts
  | .addTag tag => { f with tags := {t | t = tag ∨ t ∈ f.tags} }
  | .removeTag tag => { f with tags := {t | t ∈ f.tags ∧ t ≠ tag} }
  | .setColor color => { f with color := some color }
  | .setField name value => { f with fields := fun n => if name = n then some value else f.fields n }
  | .index => { f with print := some print }

namespace TagStore

variable {s : TagStore} {who : Actor} {k l m : Path} {p : Path} {t : Tree} {host : Host}

def facts (s : TagStore) (k : Path) : Facts := ⟨s.color k, s.print k, {t | (k, t) ∈ s.tags}, s.field k⟩

lemma facts_congr {s' : TagStore} (hrow : s'.row l = s.row m) (htags : ∀ t, (l, t) ∈ s'.tags ↔ (m, t) ∈ s.tags)
    (hfields : ∀ n, s'.field l n = s.field m n) : s'.facts l = s.facts m := by
  ext x
  · simp [facts, color, hrow]
  · simp [facts, print, hrow]
  · exact htags x
  · simp [facts, hfields]

lemma row_ensure : (s.ensure k).row m = s.row m := by
  unfold ensure row
  split
  · rfl
  · next h =>
    rw [Table.get?_put]
    split
    · next hk =>
      subst hk
      have hn : s.files.get? k = none := by simpa [Table.has] using h
      simp [hn]
    · rfl

lemma get?_ensure : (s.ensure k).files.get? k = some (s.row k) := by
  unfold ensure row
  split
  · next h =>
    obtain ⟨r, hr⟩ := Option.isSome_iff_exists.1 h
    simp [hr]
  · next h =>
    have hn : s.files.get? k = none := by simpa [Table.has] using h
    simp [Table.get?_put, hn]

lemma tags_ensure : (s.ensure k).tags = s.tags := by
  unfold ensure
  split <;> rfl

lemma fields_ensure : (s.ensure k).fields = s.fields := by
  unfold ensure
  split <;> rfl

lemma field_ensure {n : String} : (s.ensure k).field m n = s.field m n := by
  unfold field
  rw [fields_ensure]

/-- A change of the row of one file. -/
lemma row_adjust {f : FileRow → FileRow} :
    (({ s.ensure k with files := (s.ensure k).files.adjust k f } : TagStore)).row m =
      if k = m then f (s.row m) else s.row m := by
  have hget : ((s.ensure k).files.adjust k f).get? m =
      if k = m then some (f (s.row k)) else (s.ensure k).files.get? m := by
    rw [Table.get?_adjust, get?_ensure]
    rfl
  unfold row
  dsimp only
  rw [hget]
  split
  · next h =>
    subst h
    rfl
  · exact row_ensure

lemma mem_addTag {tag x : String} :
    (m, x) ∈ (s.addTag k tag).2.tags ↔ k = m ∧ x = tag ∨ (m, x) ∈ s.tags := by
  unfold addTag
  dsimp only
  rw [tags_ensure]
  split
  · next h =>
    rw [tags_ensure]
    constructor
    · exact Or.inr
    · rintro (⟨rfl, rfl⟩ | hx)
      · simpa using h
      · exact hx
  · simp [eq_comm]

lemma row_addTag {tag : String} : (s.addTag k tag).2.row m = s.row m := by
  unfold addTag
  dsimp only
  split <;> exact row_ensure

lemma print_addTag {tag : String} : (s.addTag k tag).2.print m = s.print m := by
  rw [print, row_addTag, print]

lemma facts_addTag {tag : String} {f : Fingerprint} :
    (s.addTag k tag).2.facts m = if k = m then (s.facts m).take f (.addTag tag) else s.facts m := by
  have hrow : (s.addTag k tag).2.row m = s.row m := row_addTag
  have hfields : ∀ n, (s.addTag k tag).2.field m n = s.field m n := by
    intro n
    unfold addTag
    dsimp only
    split <;> exact field_ensure
  split
  · next h =>
    ext x
    · simp [facts, Facts.take, color, hrow]
    · simp [facts, Facts.take, print, hrow]
    · simp [facts, Facts.take, mem_addTag, h]
    · simp [facts, Facts.take, hfields]
  · next h => exact facts_congr hrow (fun x => by simp [mem_addTag, h]) hfields

lemma mem_removeTag {tag x : String} :
    (m, x) ∈ (s.removeTag k tag).2.tags ↔ (m, x) ∈ s.tags ∧ (m = k → x ≠ tag) := by
  simp [removeTag, imp_iff_not_or]

lemma facts_removeTag {tag : String} {f : Fingerprint} :
    (s.removeTag k tag).2.facts m = if k = m then (s.facts m).take f (.removeTag tag) else s.facts m := by
  split
  · next h =>
    ext x
    · rfl
    · rfl
    · simp [facts, Facts.take, mem_removeTag, h]
    · rfl
  · next h => exact facts_congr rfl (fun x => by simp [mem_removeTag, Ne.symm h]) fun _ => rfl

lemma facts_of_row {s' : TagStore} (htags : s'.tags = s.tags) (hfields : s'.fields = s.fields) :
    s'.facts m = { s.facts m with color := (s'.row m).color, print := (s'.row m).print } := by
  ext x
  · rfl
  · rfl
  · simp [facts, htags]
  · simp [facts, field, hfields]

lemma facts_setColor {color : String} {f : Fingerprint} :
    (s.setColor k (some color)).2.facts m = if k = m then (s.facts m).take f (.setColor color) else s.facts m := by
  have hrow : (s.setColor k (some color)).2.row m =
      if k = m then { s.row m with color := some color } else s.row m := row_adjust
  have htags : (s.setColor k (some color)).2.tags = s.tags := tags_ensure
  rw [facts_of_row htags fields_ensure, hrow]
  split <;> rfl

lemma tags_setPrint {f : Fingerprint} : (s.setPrint k f).2.tags = s.tags := by
  unfold setPrint
  dsimp only
  split <;> exact tags_ensure

lemma facts_setPrint {f : Fingerprint} (hf : f.size ≤ maxSize) :
    (s.setPrint k f).1 = .ok () ∧
      (s.setPrint k f).2.facts m = if k = m then (s.facts m).take f .index else s.facts m := by
  unfold setPrint
  rw [if_pos hf]
  refine ⟨rfl, ?_⟩
  dsimp only
  have hrow := @row_adjust s k m fun r => { r with print := some f }
  generalize hs' : ({ s.ensure k with
    files := (s.ensure k).files.adjust k fun r => { r with print := some f } } : TagStore) = s' at *
  have htags : s'.tags = s.tags := by rw [← hs', ← @tags_ensure s k]
  have hfields : s'.fields = s.fields := by rw [← hs', ← @fields_ensure s k]
  rw [facts_of_row htags hfields, hrow]
  split <;> rfl

lemma print_setPrint {f : Fingerprint} (hf : f.size ≤ maxSize) :
    (s.setPrint k f).2.print m = if k = m then some f else s.print m := by
  have hfacts := congrArg Facts.print (facts_setPrint (s := s) (k := k) (m := m) hf).2
  split at hfacts
  · next hkm => rwa [if_pos hkm]
  · next hkm => rwa [if_neg hkm]

lemma print_setField {name value : String} : (s.setField k name value).print m = s.print m := by
  unfold print
  rw [show (s.setField k name value).row m = (s.ensure k).row m from rfl, row_ensure]

lemma tags_setField {name value : String} : (s.setField k name value).tags = s.tags := tags_ensure

lemma facts_setField {name value : String} {f : Fingerprint} :
    (s.setField k name value).facts m = if k = m then (s.facts m).take f (.setField name value) else s.facts m := by
  have hrow : (s.setField k name value).row m = s.row m := row_ensure
  have htags : (s.setField k name value).tags = s.tags := tags_ensure
  have hfields : ∀ n, (s.setField k name value).field m n =
      if k = m ∧ name = n then some value else s.field m n := by
    intro n
    unfold setField field
    dsimp only
    rw [Table.get?_put, fields_ensure]
    simp only [Prod.mk.injEq]
  split
  · next h =>
    ext x
    · simp [facts, Facts.take, color, hrow]
    · simp [facts, Facts.take, print, hrow]
    · simp [facts, Facts.take, htags]
    · subst h
      simp [facts, Facts.take, hfields]
  · next h => exact facts_congr hrow (fun x => by rw [htags]) fun n => by simp [hfields, h]

lemma get?_redirect {fields : Table (Path × String) String} {n : String} (hne : k ≠ l) :
    Table.get? ((fields.filter (·.1.1 ≠ l)).map fun e => ((redirect k l e.1.1, e.1.2), e.2)) (m, n) =
      if l = m then fields.get? (k, n) else if k = m then none else fields.get? (m, n) := by
  induction fields with
  | nil => simp [Table.get?]
  | cons e fields ih =>
    obtain ⟨⟨p, n'⟩, v⟩ := e
    by_cases hl : p = l
    · subst hl
      have hskip : (((p, n'), v) :: fields).filter (·.1.1 ≠ p) = fields.filter (·.1.1 ≠ p) := by simp
      rw [hskip, ih]
      by_cases hm : p = m
      · simp [hm, Table.get?_cons, Ne.symm (hm ▸ hne)]
      · simp [hm, Table.get?_cons]
    · have hkeep : (((p, n'), v) :: fields).filter (·.1.1 ≠ l) = ((p, n'), v) :: fields.filter (·.1.1 ≠ l) := by
        simp [hl]
      rw [hkeep, List.map_cons, Table.get?_cons, ih]
      by_cases hk : p = k
      · subst hk
        by_cases hm : l = m
        · subst hm
          simp [redirect, Table.get?_cons]
        · by_cases hpm : p = m
          · subst hpm
            simp [redirect, hm]
          · simp [redirect, hm, hpm, Table.get?_cons]
      · by_cases hm : l = m
        · subst hm
          simp [redirect, hk, hl, Table.get?_cons]
        · by_cases hpm : k = m
          · subst hpm
            simp [redirect, hk, hm]
          · simp [redirect, hk, hm, hpm, Table.get?_cons]

/-- What is on record about a file goes to its new path, and nothing else is on record there. -/
lemma facts_rename (hne : k ≠ l) :
    (s.rename k l).facts m = if l = m then s.facts k else if k = m then .none else s.facts m := by
  have hrow : (s.rename k l).row m = if l = m then s.row k else if k = m then {} else s.row m := by
    unfold row rename
    dsimp only
    rw [Table.get?_carry_free (by simp [Table.get?_erase]), Table.get?_erase, Table.get?_erase, if_neg hne.symm]
    split
    · rfl
    · split
      · rfl
      · rfl
  have htags : ∀ t, (m, t) ∈ (s.rename k l).tags ↔
      if l = m then (k, t) ∈ s.tags else if k = m then False else (m, t) ∈ s.tags := by
    intro t
    have hmem : (m, t) ∈ (s.rename k l).tags ↔ ∃ p, (p, t) ∈ s.tags ∧ p ≠ l ∧ redirect k l p = m := by
      simp [rename, and_assoc]
    rw [hmem]
    constructor
    · rintro ⟨p, hp, hpl, rfl⟩
      by_cases hpk : p = k
      · subst hpk
        simpa [redirect] using hp
      · simpa [redirect, hpk, Ne.symm hpl, Ne.symm hpk] using hp
    · intro h
      split at h
      · next hl => exact ⟨k, h, hne, by simp [redirect, hl]⟩
      · next hl =>
        split at h
        · exact h.elim
        · next hk => exact ⟨m, h, Ne.symm hl, by simp [redirect, Ne.symm hk]⟩
  have hfields : ∀ n, (s.rename k l).field m n =
      if l = m then s.field k n else if k = m then none else s.field m n := fun n => get?_redirect hne
  split
  · next h =>
    subst h
    simp only [if_true] at hrow htags hfields
    exact facts_congr hrow htags hfields
  · next h =>
    simp only [h, if_false] at hrow htags hfields
    split
    · next hk =>
      subst hk
      simp only [if_true] at hrow htags hfields
      ext x
      · simp [facts, Facts.none, color, hrow]
      · simp [facts, Facts.none, print, hrow]
      · simp [facts, Facts.none, htags]
      · simp [facts, Facts.none, hfields]
    · next hk =>
      simp only [hk, if_false] at hrow htags hfields
      exact facts_congr hrow htags hfields

end TagStore

end FileOrganizer
