import FileOrganizer.Proofs.Tags.Overlay

/-! What a view of the tag store tells about a file, with or without changes laid over the store. -/

namespace FileOrganizer

open FileOrganizer.Tree

variable {host : Host} {t : Tree} {s : TagStore} {q : Pending} {v v' : View} {p own c : Path} {b : ByteArray}
  {print : Fingerprint}

namespace View

/-- The facts that a view shows about a file with this fingerprint. -/
def facts (host : Host) (v : View) (p : Path) (print : Fingerprint) : Facts :=
  match v.pending with
  | none => v.store.facts (v.storeKey host p)
  | some q => q.laid (host.key p) print (v.store.facts (v.storeKey host p))

lemma mem_tagsOf {k : Path} {x : String} : x ∈ s.tagsOf k ↔ (k, x) ∈ s.tags := by
  rw [TagStore.tagsOf, mem_foldr_insertText, List.mem_filterMap]
  constructor
  · rintro (⟨⟨m, y⟩, hm, hy⟩ | hx)
    · dsimp only at hy
      split at hy
      · next hk =>
        cases hy
        exact hk ▸ hm
      · cases hy
    · cases hx
  · intro hx
    exact Or.inl ⟨(k, x), hx, by simp⟩

open Classical in
lemma isFiled_of_read (h : t.read host.cwd (v.origin host p) = .ok b) :
    v.isFiled host p t =
      .ok (decide (∃ f, (v.facts host p (Content.print host b)).print = some f ∧ f.Fits host b)) := by
  have hstore : v.store.isFiled host t (v.origin host p) =
      .ok (decide (∃ f, (v.store.facts (v.storeKey host p)).print = some f ∧ f.Fits host b)) :=
    TagStore.isFiled_of_read h
  unfold isFiled facts
  cases hv : v.pending with
  | none => simpa using hstore
  | some q =>
    simp only [Option.map_some, Option.getD_some, List.contains_iff_mem]
    by_cases hk : host.key p ∈ q.indexed
    · simp [hk, Pending.laid, Fingerprint.fits_print]
    · simpa [hk, Pending.laid] using hstore

lemma twin?_direct : (⟨s, none⟩ : View).twin? host p t = s.twin? host t p := by
  have horigin : (⟨s, none⟩ : View).origin host p = p := rfl
  rw [twin?, horigin]
  cases s.twin? host t p with
  | error e => rfl
  | ok x => cases x <;> rfl

end View

end FileOrganizer
