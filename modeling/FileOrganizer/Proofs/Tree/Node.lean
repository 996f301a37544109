import FileOrganizer.Tree.Change
import Mathlib.Data.List.Infix
import Mathlib.Tactic.Lemma

/-! What stands at each place of a tree, and how the single changes of a tree act on it. -/

namespace FileOrganizer

/-- The time of a directory is left out: it changes with everything that is put into the directory. -/
inductive Node
  | file (bytes : ByteArray) (attrs : Attrs)
  | dir (locked : Bool)
  | link (target : String)

def Entry.node : Entry → Node
  | .file b a => .file b a
  | .dir a => .dir a.readOnly
  | .link s => .link s

namespace Tree

variable {t : Tree} {p q d l : Place} {e : Entry} {now : Instant}

def node? (t : Tree) (p : Place) : Option Node := (t.at? p).map Entry.node

lemma at?_of_ne_nil (h : p ≠ []) : t.at? p = t.entries.get? p := by
  cases p with
  | nil => exact absurd rfl h
  | cons n p => rfl

lemma at?_put (h : p ≠ []) : (t.put p e).at? q = if p = q then some e else t.at? q := by
  by_cases hq : q = []
  · subst hq
    simp [at?, h]
  · rw [at?_of_ne_nil hq, at?_of_ne_nil hq]
    exact Table.get?_put _ _ _ _

lemma at?_erase (h : p ≠ []) : (t.erase p).at? q = if p = q then none else t.at? q := by
  by_cases hq : q = []
  · subst hq
    simp [at?, h]
  · rw [at?_of_ne_nil hq, at?_of_ne_nil hq]
    exact Table.get?_erase _ _ _

lemma node?_put (h : p ≠ []) :
    (t.put p e).node? q = if p = q then some e.node else t.node? q := by
  unfold node?
  rw [at?_put h]
  split <;> rfl

lemma node?_erase (h : p ≠ []) : (t.erase p).node? q = if p = q then none else t.node? q := by
  unfold node?
  rw [at?_erase h]
  split <;> rfl

lemma at?_touch (h : q ≠ d) : (t.touch d now).at? q = t.at? q := by
  unfold touch
  split
  · next n d a hat => rw [at?_put (List.cons_ne_nil n d), if_neg h.symm]
  · rfl

lemma node?_touch : (t.touch d now).node? q = t.node? q := by
  unfold touch
  split
  · next n d a h =>
    rw [node?_put (List.cons_ne_nil n d)]
    split
    · next hq =>
      rw [node?, ← hq, h]
      rfl
    · rfl
  · rfl

lemma at?_eq_none : t.at? p = none ↔ t.node? p = none := by
  simp [node?]

lemma at?_isSome : (t.at? p).isSome = (t.node? p).isSome := by
  simp [node?]

lemma node?_of_at? (h : t.at? p = some e) : t.node? p = some e.node := by
  simp [node?, h]

lemma at?_file {b : ByteArray} {a : Attrs} :
    t.at? p = some (.file b a) ↔ t.node? p = some (.file b a) := by
  cases h : t.at? p with
  | none => simp [node?, h]
  | some e => cases e <;> simp [node?, h, Entry.node]

lemma at?_link {s : String} : t.at? p = some (.link s) ↔ t.node? p = some (.link s) := by
  cases h : t.at? p with
  | none => simp [node?, h]
  | some e => cases e <;> simp [node?, h, Entry.node]

lemma isDirAt_iff : t.isDirAt p = true ↔ ∃ k, t.node? p = some (.dir k) := by
  unfold isDirAt node?
  cases h : t.at? p with
  | none => simp
  | some e => cases e <;> simp [Entry.node]

lemma at?_dir {a : Attrs} (h : t.at? p = some (.dir a)) : t.isDirAt p = true := by
  simp [isDirAt, h]

lemma isDirAt_nil : t.isDirAt [] = true := rfl

lemma isLocked_iff : t.isLocked p = true ↔ t.node? p = some (.dir true) := by
  unfold isLocked node?
  cases h : t.at? p with
  | none => simp
  | some e => cases e <;> simp [Entry.node]

lemma isDirAt_congr {t' : Tree} (h : t.node? p = t'.node? q) : t.isDirAt p = t'.isDirAt q := by
  rw [Bool.eq_iff_iff, isDirAt_iff, isDirAt_iff, h]

/-- The bytes of the file at a place. -/
def bytes? (t : Tree) (p : Place) : Option ByteArray :=
  match t.node? p with
  | some (.file b _) => some b
  | _ => none

lemma bytes?_eq_some {b : ByteArray} :
    t.bytes? p = some b ↔ ∃ a, t.node? p = some (.file b a) := by
  unfold bytes?
  split <;> simp_all

lemma bytes?_eq_none : t.bytes? p = none ↔ ∀ b a, t.node? p ≠ some (.file b a) := by
  unfold bytes?
  split <;> simp_all

lemma bytes?_congr {t' : Tree} (h : t.node? p = t'.node? q) : t.bytes? p = t'.bytes? q := by
  simp [bytes?, h]

/-- Whatever there is stands in a directory. -/
def Sound (t : Tree) : Prop := ∀ p n, t.node? (p ++ [n]) ≠ none → t.isDirAt p = true

lemma Sound.isDirAt_dropLast (hs : t.Sound) (h : t.node? p ≠ none) : t.isDirAt p.dropLast = true := by
  rcases List.eq_nil_or_concat p with rfl | ⟨q, n, rfl⟩
  · rfl
  · simpa using hs q n (by simpa using h)

lemma Sound.isDirAt_up (hs : t.Sound) (h : t.isDirAt p = true) : t.isDirAt p.dropLast = true := by
  obtain ⟨k, hk⟩ := isDirAt_iff.1 h
  exact hs.isDirAt_dropLast (by simp [hk])

/-- The places on the way to whatever there is are directories. -/
lemma Sound.isDirAt_prefix (hs : t.Sound) (r : Place) (hr : r ≠ []) (h : t.node? (p ++ r) ≠ none) :
    t.isDirAt p = true := by
  induction r using List.reverseRecOn with
  | nil => exact absurd rfl hr
  | append_singleton r n ih =>
    have hd : t.isDirAt (p ++ r) = true := hs _ n (by simpa using h)
    cases r with
    | nil => simpa using hd
    | cons m r =>
      obtain ⟨k, hk⟩ := isDirAt_iff.1 hd
      exact ih (by simp) (by simp [hk])

lemma Sound.isDirAt_of_below (hs : t.Sound) {r : Place} (h : t.isDirAt (p ++ r) = true) : t.isDirAt p = true := by
  by_cases hr : r = []
  · simpa [hr] using h
  · obtain ⟨k, hk⟩ := isDirAt_iff.1 h
    exact hs.isDirAt_prefix r hr (by simp [hk])

lemma Sound.node?_below (hs : t.Sound) (r : Place) (hr : r ≠ []) (h : t.isDirAt p ≠ true) :
    t.node? (p ++ r) = none := by
  by_contra hn
  exact h (hs.isDirAt_prefix r hr hn)

end Tree

end FileOrganizer
