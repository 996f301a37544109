import FileOrganizer.Ordered
import FileOrganizer.Proofs.Path.Places
import Mathlib.Data.List.Lex
import Mathlib.Data.List.Sort
import Mathlib.Data.String.Basic

/-! Lists that are put in order element by element: they stay in order, and hold nothing twice. -/

namespace FileOrganizer

section

variable {α β : Type} [DecidableEq α] [LinearOrder β] {before : α → α → Bool} {f : α → β} {P : α → Prop}
  {a : α} {l : List α}

lemma pairwise_insertBy (hf : ∀ x y, P x → P y → f x = f y → x = y)
    (hb : ∀ x y, P x → P y → (before x y = true ↔ f x < f y)) (ha : P a) (hl : ∀ x ∈ l, P x)
    (h : l.Pairwise fun x y => f x < f y) : (insertBy before a l).Pairwise fun x y => f x < f y := by
  induction l with
  | nil => simp [insertBy]
  | cons b l ih =>
    have hpb : P b := hl b (by simp)
    have hpl : ∀ x ∈ l, P x := fun x hx => hl x (by simp [hx])
    obtain ⟨hbl, hsort⟩ := List.pairwise_cons.1 h
    rw [insertBy]
    split
    · exact h
    · next hne =>
      split
      · next hlt =>
        have hab : f a < f b := (hb a b ha hpb).1 hlt
        refine List.pairwise_cons.2 ⟨fun x hx => ?_, h⟩
        rcases List.mem_cons.1 hx with rfl | hx
        · exact hab
        · exact hab.trans (hbl x hx)
      · next hnot =>
        have hba : f b < f a := by
          rcases lt_trichotomy (f a) (f b) with hlt | heq | hgt
          · exact absurd ((hb a b ha hpb).2 hlt) hnot
          · exact absurd (hf a b ha hpb heq) hne
          · exact hgt
        refine List.pairwise_cons.2 ⟨fun x hx => ?_, ih hpl hsort⟩
        rcases mem_insertBy.1 hx with rfl | hx
        · exact hba
        · exact hbl x hx

end

lemma mem_insertText {s x : String} {l : List String} : x ∈ insertText s l ↔ x = s ∨ x ∈ l := mem_insertBy

lemma mem_foldr_insertText {x : String} {l m : List String} :
    x ∈ l.foldr insertText m ↔ x ∈ l ∨ x ∈ m := by
  induction l with
  | nil => simp
  | cons s l ih => simp [mem_insertText, ih, or_assoc]

namespace Path

variable {l m : Place}

lemma beforeParts_names : beforeParts (l.map Part.name) (m.map Part.name) = true ↔ l < m := by
  induction l generalizing m with
  | nil => cases m <;> simp [beforeParts]
  | cons a l ih =>
    cases m with
    | nil => simp [beforeParts]
    | cons b m => simp [beforeParts, List.cons_lt_cons_iff, ih]

/-- Paths that places are filed under come in the order of the places. -/
lemma before_ofPlace (hl : ∀ n ∈ l, Proper n) (hm : ∀ n ∈ m, Proper n) :
    (ofPlace l).before (ofPlace m) = true ↔ l < m := by
  rw [before, parts_ofPlace hl, parts_ofPlace hm, ← beforeParts_names]
  simp [beforeParts, Part.rank]

/-- The one spelling of the path to a place. -/
def Canonical (p : Path) : Prop := ∃ l : Place, (∀ n ∈ l, Proper n) ∧ p = ofPlace l

/-- Canonical paths in order, none of them twice. -/
def InOrder (ps : List Path) : Prop :=
  (∀ p ∈ ps, p.Canonical) ∧ ps.Pairwise fun p q => p.place [] < q.place []

variable {p : Path} {ps : List Path}

lemma InOrder.insertBy (h : InOrder ps) (hp : p.Canonical) : InOrder (insertBy before p ps) := by
  refine ⟨fun q hq => ?_, pairwise_insertBy (P := Canonical) ?_ ?_ hp h.1 h.2⟩
  · rcases mem_insertBy.1 hq with rfl | hq
    · exact hp
    · exact h.1 q hq
  · rintro _ _ ⟨l, hl, rfl⟩ ⟨m, hm, rfl⟩ heq
    rw [place_ofPlace hl, place_ofPlace hm] at heq
    rw [heq]
  · rintro _ _ ⟨l, hl, rfl⟩ ⟨m, hm, rfl⟩
    rw [before_ofPlace hl hm, place_ofPlace hl, place_ofPlace hm]

lemma InOrder.erase (h : InOrder ps) : InOrder (ps.erase p) :=
  ⟨fun q hq => h.1 q (List.mem_of_mem_erase hq), h.2.sublist List.erase_sublist⟩

lemma InOrder.nodup (h : InOrder ps) : ps.Nodup := by
  refine List.Pairwise.imp ?_ h.2
  rintro p _ hlt rfl
  exact lt_irrefl _ hlt

end Path

end FileOrganizer
