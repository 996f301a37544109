import FileOrganizer.Json.Decode
import Mathlib.Tactic.Lemma

/-! What the decoders make of values in the form that the writer gives them: a list is read item by item, a document
by its one value. And of what kind the values are that they make of any JSON. -/

namespace FileOrganizer.Decode

variable {α : Type} {d : Decoder α} {f : α → Json} {a : α} {xs : List α} {j : Json} {n bits : Nat} {text : String}

lemma all_map (h : ∀ x ∈ xs, d (f x) = .ok x) : all d (xs.map f) = .ok xs := by
  induction xs with
  | nil => rfl
  | cons x xs ih =>
    have hx := h x List.mem_cons_self
    have hxs := ih fun y hy => h y (List.mem_cons_of_mem x hy)
    rw [List.map_cons, all, hx]
    simp only [hxs]
    rfl

lemma list_map (h : ∀ x ∈ xs, d (f x) = .ok x) : list d (.arr (xs.map f)) = .ok xs := all_map h

lemma list_text (ts : List String) : list Decode.text (.arr (ts.map .str)) = .ok ts := list_map fun _ _ => rfl

lemma nat_of_lt (h : n < Nat.pow 2 bits) : nat bits (.nat n) = .ok n := if_pos h

lemma optional_nat (m : Option Nat) (h : ∀ n, m = some n → n < Nat.pow 2 bits) :
    optional (nat bits) ((m.map Json.nat).getD .null) = .ok m := by
  cases m with
  | none => rfl
  | some n =>
    have hread : nat bits (.nat n) = .ok n := nat_of_lt (h n rfl)
    exact congrArg (Except.map some) hread

lemma optional_text (t : Option String) : optional Decode.text (Json.ofOption t) = .ok t := by
  cases t with
  | none => rfl
  | some t => rfl

lemma document_eq (htext : Json.ofText text = (j, true)) : document d text = d j := by
  rw [document, htext]
  cases h : d j with
  | error e => simp only [h]
  | ok a => simp only [h, if_true]

lemma document_of (htext : Json.ofText text = (j, true)) (h : d j = .ok a) : document d text = .ok a :=
  (document_eq htext).trans h

/-! ### What is made of any value -/

variable {ι β δ : Type} {D : ι → Except DecodeError α} {P : α → Prop} {Q : β → Prop}

lemma map_eq_ok {x : Except DecodeError α} {g : α → β} {b : β} (h : x.map g = .ok b) : ∃ a, x = .ok a ∧ g a = b := by
  cases x with
  | error e => cases h
  | ok a => exact ⟨a, rfl, Except.ok.inj h⟩

lemma bind_eq_ok {x : Except DecodeError α} {g : α → Except DecodeError β} {b : β} (h : x.bind g = .ok b) :
    ∃ a, x = .ok a ∧ g a = .ok b := by
  cases x with
  | error e => cases h
  | ok a => exact ⟨a, rfl, h⟩

/-- Whatever is made is of a kind. -/
def Gives (D : ι → Except DecodeError α) (P : α → Prop) : Prop := ∀ ⦃i a⦄, D i = .ok a → P a

lemma gives_any (D : ι → Except DecodeError α) : Gives D fun _ => True := fun _ _ _ => trivial

lemma gives_nat (bits : Nat) : Gives (nat bits) (· < Nat.pow 2 bits) := by
  intro j n hrun
  unfold nat at hrun
  split at hrun
  · split at hrun
    · next hn =>
      cases hrun
      exact hn
    · cases hrun
  · cases hrun

lemma gives_all (h : Gives d P) : Gives (all d) fun xs => ∀ x ∈ xs, P x := by
  intro js
  induction js with
  | nil =>
    rintro xs ⟨⟩
    simp
  | cons j js ih =>
    intro xs hrun
    rw [all] at hrun
    split at hrun
    · cases hrun
    · next a ha =>
      obtain ⟨as, has, rfl⟩ := map_eq_ok hrun
      exact List.forall_mem_cons.2 ⟨h ha, ih has⟩

lemma gives_list (h : Gives d P) : Gives (list d) fun xs => ∀ x ∈ xs, P x := by
  intro j xs hrun
  unfold list at hrun
  split at hrun
  · exact gives_all h hrun
  · cases hrun

lemma gives_optional (h : Gives d P) : Gives (optional d) fun m => ∀ a, m = some a → P a := by
  intro j m hrun
  unfold optional at hrun
  split at hrun
  · cases hrun
    simp
  · obtain ⟨a, ha, rfl⟩ := map_eq_ok hrun
    rintro _ ⟨⟩
    exact h ha

/-- The draft is of a kind to begin with and after each field, and so what it is closed to. -/
structure Record.Keeps (r : Record δ α) (I : δ → Prop) (P : α → Prop) : Prop where
  draft : I r.draft
  take : ∀ ⦃a k j b⦄, I a → r.take a k j = .ok b → I b
  close : ∀ ⦃a b⦄, I a → r.close a = .ok b → P b

namespace Record.Keeps

variable {r : Record δ α} {I : δ → Prop} {a b : δ}

lemma takeMembers (h : r.Keeps I P) {ms : List (String × Json)} :
    ∀ {seen a}, I a → r.takeMembers seen a ms = .ok b → I b := by
  induction ms with
  | nil =>
    rintro seen a ha ⟨⟩
    exact ha
  | cons m ms ih =>
    intro seen a ha hrun
    rw [Record.takeMembers] at hrun
    split at hrun
    · split at hrun
      · cases hrun
      · split at hrun
        · cases hrun
        · next c hc => exact ih (h.take ha hc) hrun
    · split at hrun
      · cases hrun
      · exact ih ha hrun

lemma takeItems (h : r.Keeps I P) {xs : List Json} : ∀ {ks a}, I a → r.takeItems ks a xs = .ok b → I b := by
  induction xs with
  | nil =>
    intro ks a ha hrun
    rw [Record.takeItems] at hrun
    cases hrun
    exact ha
  | cons x xs ih =>
    intro ks a ha hrun
    cases ks with
    | nil => cases hrun
    | cons k ks =>
      rw [Record.takeItems] at hrun
      split at hrun
      · cases hrun
      · next c hc => exact ih (h.take ha hc) hrun

lemma ofMembers (h : r.Keeps I P) : Gives r.ofMembers P := by
  intro ms x hrun
  obtain ⟨a, ha, hx⟩ := bind_eq_ok hrun
  exact h.close (h.takeMembers h.draft ha) hx

lemma decode (h : r.Keeps I P) : Gives r.decode P := by
  intro j x hrun
  unfold Record.decode at hrun
  split at hrun
  · exact h.ofMembers hrun
  · split at hrun
    · cases hrun
    · next a ha =>
      split at hrun
      · next y hy =>
        cases hrun
        exact h.close (h.takeItems h.draft ha) hy
      · cases hrun
  · cases hrun

end Record.Keeps

/-- A variant is of a kind, whatever its arguments are. -/
def Shape.Gives (P : α → Prop) : Shape α → Prop
  | .unit a => P a
  | .fields D => Decode.Gives D P

lemma Shape.Gives.decode {s : Shape α} (h : s.Gives P) : Decode.Gives s.decode P := by
  intro j a hrun
  unfold Shape.decode at hrun
  split at hrun
  · cases hrun
    exact h
  · exact h hrun
  · cases hrun

lemma Shape.Gives.absent {s : Shape α} (h : s.Gives P) {a : α} (hrun : s.absent = .ok a) : P a := by
  cases s with
  | unit b =>
    cases hrun
    exact h
  | fields D => cases hrun

lemma noMore_eq_ok {ms : List (String × Json)} {b : α} (h : noMore a ms = .ok b) : b = a := by
  unfold noMore at h
  split at h
  all_goals cases h
  rfl

lemma variant_eq_ok {find : String → Option α} (h : variant find j = .ok a) : ∃ k, find k = some a := by
  unfold variant at h
  split at h
  · next k =>
    cases hk : find k with
    | none =>
      rw [hk] at h
      cases h
    | some b =>
      rw [hk] at h
      cases h
      exact ⟨k, hk⟩
  · next k v ms =>
    split at h
    · split at h
      all_goals cases h
    · next b hb =>
      split at h
      · cases h
        exact ⟨k, hb⟩
      · cases h
  · cases h

lemma gives_tagged {find : String → Option (Shape α)} (h : ∀ k s, find k = some s → s.Gives P) :
    Gives (tagged find) P := by
  have hshape {t : Json} {s : Shape α} (hs : variant find t = .ok s) : s.Gives P := by
    obtain ⟨k, hk⟩ := variant_eq_ok hs
    exact h k s hk
  intro j b hrun
  unfold tagged at hrun
  split at hrun
  · split at hrun
    · cases hrun
    · cases hrun
    · obtain ⟨s, hs, hrun⟩ := bind_eq_ok hrun
      obtain ⟨next, -, hrun⟩ := bind_eq_ok hrun
      split at hrun
      · exact (hshape hs).absent hrun
      · cases hrun
      · obtain ⟨a, ha, hrun⟩ := bind_eq_ok hrun
        rw [noMore_eq_ok hrun]
        exact (hshape hs).decode ha
    · obtain ⟨v, -, hrun⟩ := bind_eq_ok hrun
      obtain ⟨next, -, hrun⟩ := bind_eq_ok hrun
      split at hrun
      · cases hrun
      · cases hrun
      · obtain ⟨s, hs, hrun⟩ := bind_eq_ok hrun
        obtain ⟨a, ha, hrun⟩ := bind_eq_ok hrun
        rw [noMore_eq_ok hrun]
        exact (hshape hs).decode ha
  · obtain ⟨s, hs, hrun⟩ := bind_eq_ok hrun
    obtain ⟨a, ha, hrun⟩ := bind_eq_ok hrun
    split at hrun
    · cases hrun
      exact (hshape hs).decode ha
    · cases hrun
  · obtain ⟨s, -, hrun⟩ := bind_eq_ok hrun
    cases hrun
  · cases hrun

end FileOrganizer.Decode
