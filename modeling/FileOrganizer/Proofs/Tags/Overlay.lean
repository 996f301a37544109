import FileOrganizer.Proofs.Tags.Store
import FileOrganizer.Tags.Pending

/-! What changes that were only noted lay over the facts on record. -/

namespace FileOrganizer.Pending

variable {q : Pending} {k l m : Path} {print : Fingerprint} {f : Facts} {n : Note}

/-- The facts about a file that would be at `k`, of which `f` is on record. -/
def laid (q : Pending) (k : Path) (print : Fingerprint) (f : Facts) : Facts where
  color := q.colors.get? k <|> f.color
  print := if k ∈ q.indexed then some print else f.print
  tags := {t | t ∈ q.addedTo k ∨ t ∈ f.tags ∧ t ∉ q.removedFrom k}
  fields := fun n => (q.fields.get? k).bind (·.get? n) <|> f.fields n

/-- Nothing is laid over the facts at `k`. -/
structure Bare (q : Pending) (k : Path) : Prop where
  added : q.added.get? k = none
  removed : q.removed.get? k = none
  colors : q.colors.get? k = none
  fields : q.fields.get? k = none
  indexed : k ∉ q.indexed

lemma Bare.laid (h : q.Bare k) : q.laid k print f = f := by
  ext x
  · simp [Pending.laid, h.colors]
  · simp [Pending.laid, h.indexed]
  · simp [Pending.laid, addedTo, removedFrom, h.added, h.removed]
  · simp [Pending.laid, h.fields]

def note (q : Pending) (k : Path) : Note → Pending
  | .addTag tag => q.addTag k tag
  | .removeTag tag => q.removeTag k tag
  | .setColor color => q.setColor k color
  | .setField name value => q.setField k name value
  | .index => q.noteIndexed k

lemma addedTo_addTag {tag x : String} :
    x ∈ (q.addTag k tag).addedTo m ↔ k = m ∧ x = tag ∨ x ∈ q.addedTo m := by
  unfold addTag addedTo
  rw [Table.get?_put]
  split
  · next h => simp [h, mem_insertText]
  · next h => simp [h]

lemma removedFrom_addTag {tag x : String} :
    x ∈ (q.addTag k tag).removedFrom m ↔ x ∈ q.removedFrom m ∧ (k = m → x ≠ tag) := by
  unfold addTag removedFrom
  rw [Table.get?_adjust]
  split
  · next h =>
    subst h
    cases q.removed.get? k <;> simp
  · next h => simp [h]

lemma addedTo_removeTag {tag x : String} :
    x ∈ (q.removeTag k tag).addedTo m ↔ x ∈ q.addedTo m ∧ (k = m → x ≠ tag) := by
  unfold removeTag addedTo
  rw [Table.get?_adjust]
  split
  · next h =>
    subst h
    cases q.added.get? k <;> simp
  · next h => simp [h]

lemma removedFrom_removeTag {tag x : String} :
    x ∈ (q.removeTag k tag).removedFrom m ↔ k = m ∧ x = tag ∨ x ∈ q.removedFrom m := by
  unfold removeTag removedFrom
  rw [Table.get?_put]
  split
  · next h => simp [h, mem_insertText]
  · next h => simp [h]

/-- A note that is laid over the facts changes them as one that is put on record. -/
lemma laid_note : (q.note k n).laid m print f =
    if k = m then (q.laid m print f).take print n else q.laid m print f := by
  cases n with
  | addTag tag =>
    have htags : ((q.addTag k tag).laid m print f).tags =
        {x | k = m ∧ x = tag ∨ x ∈ (q.laid m print f).tags} := by
      ext x
      simp only [laid, Set.mem_ofPred_eq, addedTo_addTag, removedFrom_addTag]
      by_cases hx : k = m ∧ x = tag
      · simp [hx]
      · simp only [hx, false_or]
        have hkeep : k = m → x ≠ tag := fun hk he => hx ⟨hk, he⟩
        tauto
    have hrest : (q.note k (.addTag tag)).laid m print f =
        { q.laid m print f with tags := ((q.addTag k tag).laid m print f).tags } := rfl
    rw [hrest, htags]
    split
    · next h => simp [Facts.take, h]
    · next h => simp [h]
  | removeTag tag =>
    have htags : ((q.removeTag k tag).laid m print f).tags =
        {x | x ∈ (q.laid m print f).tags ∧ (k = m → x ≠ tag)} := by
      ext x
      simp only [laid, Set.mem_ofPred_eq, addedTo_removeTag, removedFrom_removeTag]
      by_cases hx : k = m ∧ x = tag
      · simp [hx]
      · have hkeep : k = m → x ≠ tag := fun hk he => hx ⟨hk, he⟩
        tauto
    have hrest : (q.note k (.removeTag tag)).laid m print f =
        { q.laid m print f with tags := ((q.removeTag k tag).laid m print f).tags } := rfl
    rw [hrest, htags]
    split
    · next h => simp [Facts.take, h]
    · next h => simp [h]
  | setColor color =>
    have hcolor : (q.setColor k color).colors.get? m = if k = m then some color else q.colors.get? m :=
      Table.get?_put _ _ _ _
    have hrest : (q.note k (.setColor color)).laid m print f =
        { q.laid m print f with color := (q.setColor k color).colors.get? m <|> f.color } := rfl
    rw [hrest, hcolor]
    split <;> rfl
  | setField name value =>
    have hfields : ((q.setField k name value).laid m print f).fields = fun x =>
        if k = m ∧ name = x then some value else (q.laid m print f).fields x := by
      ext1 x
      simp only [laid, setField, Table.get?_put]
      by_cases hk : k = m
      · subst hk
        simp only [if_true, Option.bind_some, Table.get?_put, true_and]
        split
        · simp
        · cases q.fields.get? k <;> simp [Table.get?_nil]
      · simp [hk]
    have hrest : (q.note k (.setField name value)).laid m print f =
        { q.laid m print f with fields := ((q.setField k name value).laid m print f).fields } := rfl
    rw [hrest, hfields]
    split
    · next h => simp [Facts.take, h]
    · next h => simp [h]
  | index =>
    have hindex : m ∈ (q.noteIndexed k).indexed ↔ m = k ∨ m ∈ q.indexed := mem_insertBy
    have hrest : (q.note k .index).laid m print f =
        { q.laid m print f with print := if m ∈ (q.noteIndexed k).indexed then some print else f.print } := rfl
    rw [hrest]
    by_cases h : k = m
    · subst h
      simp [hindex, Facts.take]
    · simp [hindex, Ne.symm h, h, laid]

lemma Bare.note (h : q.Bare m) (hne : k ≠ m) : (q.note k n).Bare m := by
  obtain ⟨ha, hr, hc, hf, hi⟩ := h
  cases n with
  | addTag tag =>
    refine ⟨?_, ?_, hc, hf, hi⟩
    · simp [Pending.note, addTag, Table.get?_put, hne, ha]
    · simp [Pending.note, addTag, Table.get?_adjust, hne, hr]
  | removeTag tag =>
    refine ⟨?_, ?_, hc, hf, hi⟩
    · simp [Pending.note, removeTag, Table.get?_adjust, hne, ha]
    · simp [Pending.note, removeTag, Table.get?_put, hne, hr]
  | setColor color => exact ⟨ha, hr, by simp [Pending.note, setColor, Table.get?_put, hne, hc], hf, hi⟩
  | setField name value => exact ⟨ha, hr, hc, by simp [Pending.note, setField, Table.get?_put, hne, hf], hi⟩
  | index => exact ⟨ha, hr, hc, hf, by simp [Pending.note, noteIndexed, mem_insertBy, Ne.symm hne, hi]⟩

lemma origins_note : (q.note k n).origins = q.origins := by
  cases n <;> rfl

lemma inOrder_note (h : Path.InOrder q.indexed) (hk : k.Canonical) : Path.InOrder (q.note k n).indexed := by
  cases n with
  | index => exact h.insertBy hk
  | addTag tag => exact h
  | removeTag tag => exact h
  | setColor color => exact h
  | setField name value => exact h

lemma origins_relocate : (q.relocate k l).origins.get? m =
    if l = m then some (q.origin k) else if k = m then none else q.origins.get? m := by
  rw [relocate, Table.get?_put, Table.get?_erase]

lemma mem_indexed_relocate (hne : k ≠ l) (hl : l ∉ q.indexed) (hnodup : q.indexed.Nodup) :
    m ∈ (q.relocate k l).indexed ↔
      if l = m then k ∈ q.indexed else if k = m then False else m ∈ q.indexed := by
  unfold relocate
  dsimp only
  by_cases hk : k ∈ q.indexed
  · rw [if_pos (by simpa using hk), mem_insertBy, hnodup.mem_erase_iff]
    split
    · next h => simp [h, hk]
    · next h =>
      split
      · next hkm => simp [← hkm, hne]
      · next hkm => simp [Ne.symm h, Ne.symm hkm]
  · rw [if_neg (by simpa using hk)]
    split
    · next h => simp [← h, hk, hl]
    · split
      · next hkm => simp [← hkm, hk]
      · rfl

lemma Bare.relocate (hne : k ≠ l) (hl : q.Bare l) (hnodup : q.indexed.Nodup) (hm : l ≠ m)
    (h : k ≠ m → q.Bare m) : (q.relocate k l).Bare m := by
  refine ⟨?_, ?_, ?_, ?_, ?_⟩
  · rw [Pending.relocate, Table.get?_carry_free hl.added, if_neg hm]
    split
    · rfl
    · next hk => exact (h hk).added
  · rw [Pending.relocate, Table.get?_carry_free hl.removed, if_neg hm]
    split
    · rfl
    · next hk => exact (h hk).removed
  · rw [Pending.relocate, Table.get?_carry_free hl.colors, if_neg hm]
    split
    · rfl
    · next hk => exact (h hk).colors
  · rw [Pending.relocate, Table.get?_carry_free hl.fields, if_neg hm]
    split
    · rfl
    · next hk => exact (h hk).fields
  · rw [mem_indexed_relocate hne hl.indexed hnodup, if_neg hm]
    split
    · exact id
    · next hk => exact (h hk).indexed

/-- What was laid over the facts at one path lies over those at the other one, and nothing at the first. -/
lemma laid_relocate (hne : k ≠ l) (hl : q.Bare l) (hnodup : q.indexed.Nodup) :
    (q.relocate k l).laid m print f =
      if l = m then q.laid k print f else if k = m then f else q.laid m print f := by
  have hindex := mem_indexed_relocate (m := m) hne hl.indexed hnodup
  have hadded : (q.relocate k l).added.get? m =
      if l = m then q.added.get? k else if k = m then none else q.added.get? m := Table.get?_carry_free hl.added
  have hremoved : (q.relocate k l).removed.get? m =
      if l = m then q.removed.get? k else if k = m then none else q.removed.get? m :=
    Table.get?_carry_free hl.removed
  have hcolors : (q.relocate k l).colors.get? m =
      if l = m then q.colors.get? k else if k = m then none else q.colors.get? m := Table.get?_carry_free hl.colors
  have hfields : (q.relocate k l).fields.get? m =
      if l = m then q.fields.get? k else if k = m then none else q.fields.get? m := Table.get?_carry_free hl.fields
  by_cases hlm : l = m
  · simp only [hlm, if_true] at *
    simp only [laid, addedTo, removedFrom, hindex, hadded, hremoved, hcolors, hfields]
  · rw [if_neg hlm]
    by_cases hkm : k = m
    · rw [if_pos hkm]
      exact (Bare.relocate hne hl hnodup hlm fun h => absurd hkm h).laid
    · simp only [hlm, hkm, if_false] at *
      simp only [laid, addedTo, removedFrom, hindex, hadded, hremoved, hcolors, hfields]

lemma inOrder_relocate (h : Path.InOrder q.indexed) (hl : l.Canonical) :
    Path.InOrder (q.relocate k l).indexed := by
  unfold relocate
  dsimp only
  split
  · exact h.erase.insertBy hl
  · exact h

end FileOrganizer.Pending
