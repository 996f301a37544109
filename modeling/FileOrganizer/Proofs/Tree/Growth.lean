import FileOrganizer.Proofs.Tree.Locate

/-! A tree that grows: what was there stays, of its kind. Whatever a path led to it still leads to. -/

namespace FileOrganizer

def Node.Alike : Node → Node → Prop
  | .file .., .file .. => True
  | .dir _, .dir _ => True
  | .link s, .link s' => s = s'
  | _, _ => False

lemma Node.alike_refl (n : Node) : n.Alike n := by
  cases n <;> simp [Node.Alike]

namespace Tree

variable {t t' : Tree} {cwd here l start : Place} {follow follow' : Bool} {names rest : List String}
  {s : Spot} {p : Path} {fuel : Nat}

def Grows (t t' : Tree) : Prop := ∀ q n, t.node? q = some n → ∃ n', t'.node? q = some n' ∧ n.Alike n'

lemma Grows.of_node? (h : ∀ q, t.node? q ≠ none → t'.node? q = t.node? q) : t.Grows t' :=
  fun q n hn => ⟨n, by rw [h q (by simp [hn]), hn], Node.alike_refl n⟩

lemma Grows.dir (h : t.Grows t') (hd : t.isDirAt l = true) : t'.isDirAt l = true := by
  obtain ⟨k, hk⟩ := isDirAt_iff.1 hd
  obtain ⟨n', hn', ha⟩ := h l _ hk
  cases n' with
  | dir k' => exact isDirAt_iff.2 ⟨k', hn'⟩
  | file b a => exact ha.elim
  | link s => exact ha.elim

lemma Grows.link (h : t.Grows t') {x : String} (hl : t.node? l = some (.link x)) :
    t'.node? l = some (.link x) := by
  obtain ⟨n', hn', ha⟩ := h l _ hl
  cases n' with
  | link s =>
    obtain rfl := ha
    exact hn'
  | dir k => exact ha.elim
  | file b a => exact ha.elim

lemma at?_of_isDirAt (h : t.isDirAt l = true) : ∃ a, t.at? l = some (.dir a) := by
  unfold isDirAt at h
  split at h
  · next a ha => exact ⟨a, ha⟩
  · cases h

/-- A walk to a place ends there in the larger tree, too, unless a link stands there by now that is to be
followed. -/
lemma walk_grows (hg : t.Grows t') (hf : follow = true → follow' = true)
    (h : walk t follow here names = .arrived s)
    (hl : follow' = true → ∀ x, t'.node? s.place ≠ some (.link x)) :
    walk t' follow' here names = .arrived ⟨s.place, t'.at? s.place⟩ := by
  induction names generalizing here with
  | nil =>
    cases h
    rfl
  | cons n rest ih =>
    rcases step_cases n with rfl | rfl | ⟨h1, h2, h3⟩ | ⟨h1, h2, h3⟩
    · rw [walk_dot] at h ⊢
      exact ih h
    · rw [walk_dots] at h ⊢
      exact ih h
    · rw [walk_name h1 h2 h3] at h
      have hlast : rest = [] → s.place = here ++ [n] →
          walk t' follow' here (n :: rest) = .arrived ⟨s.place, t'.at? s.place⟩ := by
        rintro rfl hplace
        rw [walk_name h1 h2 h3, hplace]
        split
        · next he => simp [he]
        · rfl
        · next he => simp [he]
        · next x he =>
          cases follow' with
          | false => simp [he]
          | true => exact absurd (at?_link.1 he) (hplace ▸ hl rfl x)
      split at h
      · next he =>
        split at h
        · next hr => exact hlast (List.isEmpty_iff.1 hr) (by cases h; rfl)
        · cases h
      · next a he =>
        obtain ⟨a', ha'⟩ := at?_of_isDirAt (hg.dir (at?_dir he))
        rw [walk_name h1 h2 h3, ha']
        exact ih h
      · next b a he =>
        split at h
        · next hr => exact hlast (List.isEmpty_iff.1 hr) (by cases h; rfl)
        · cases h
      · next x he =>
        split at h
        · next hr =>
          simp only [Bool.and_eq_true] at hr
          exact hlast (List.isEmpty_iff.1 hr.1) (by cases h; rfl)
        · cases h
    · rw [walk_long h1 h2 h3] at h
      cases h

lemma walk_grows_jump (hg : t.Grows t') (hf : follow = true → follow' = true)
    (h : walk t follow here names = .jump start rest) : walk t' follow' here names = .jump start rest := by
  induction names generalizing here with
  | nil => cases h
  | cons n names ih =>
    rcases step_cases n with rfl | rfl | ⟨h1, h2, h3⟩ | ⟨h1, h2, h3⟩
    · rw [walk_dot] at h ⊢
      exact ih h
    · rw [walk_dots] at h ⊢
      exact ih h
    · rw [walk_name h1 h2 h3] at h ⊢
      split at h
      · split at h <;> cases h
      · next he =>
        obtain ⟨a', ha'⟩ := at?_of_isDirAt (hg.dir (at?_dir he))
        rw [ha']
        exact ih h
      · split at h <;> cases h
      · next x he =>
        split at h
        · cases h
        · next hr =>
          rw [at?_link.2 (hg.link (at?_link.1 he))]
          have hr' : ¬(names.isEmpty && !follow') = true := fun hc => hr (by
            simp only [Bool.and_eq_true, Bool.not_eq_true'] at hc ⊢
            refine ⟨hc.1, ?_⟩
            by_contra hb
            simp [hf (by simpa using hb)] at hc)
          simpa [hr'] using h
    · rw [walk_long h1 h2 h3] at h
      cases h

lemma walkLinks_grows (hg : t.Grows t') (hf : follow = true → follow' = true)
    (h : walkLinks t follow fuel here names = .ok s)
    (hl : follow' = true → ∀ x, t'.node? s.place ≠ some (.link x)) :
    walkLinks t' follow' fuel here names = .ok ⟨s.place, t'.at? s.place⟩ := by
  induction fuel generalizing here names with
  | zero => cases h
  | succ fuel ih =>
    rw [walkLinks] at h ⊢
    split at h
    · next hw =>
      cases h
      rw [walk_grows hg hf hw hl]
    · cases h
    · next hw =>
      rw [walk_grows_jump hg hf hw]
      exact ih h

lemma locate_grows (hg : t.Grows t') (hf : follow = true → follow' = true)
    (h : t.locate cwd follow p = .ok s)
    (hl : follow' = true → ∀ x, t'.node? s.place ≠ some (.link x)) :
    t'.locate cwd follow' p = .ok ⟨s.place, t'.at? s.place⟩ := by
  have hr := refused_of_locate_ok h
  rw [locate_eq_resolve hr, resolve] at h ⊢
  split at h
  · next hd =>
    rw [if_pos (hg.dir hd)]
    exact walkLinks_grows hg hf h hl
  · cases h

lemma walk_not_link (hs : t.Sound) (hd : t.isDirAt here = true)
    (h : walk t true here names = .arrived s) : ∀ x, t.node? s.place ≠ some (.link x) := by
  induction names generalizing here with
  | nil =>
    cases h
    intro x hx
    obtain ⟨k, hk⟩ := isDirAt_iff.1 hd
    simp [hk] at hx
  | cons n rest ih =>
    rcases step_cases n with rfl | rfl | ⟨h1, h2, h3⟩ | ⟨h1, h2, h3⟩
    · rw [walk_dot] at h
      exact ih hd h
    · rw [walk_dots] at h
      exact ih (hs.isDirAt_up hd) h
    · rw [walk_name h1 h2 h3] at h
      split at h
      · next he =>
        split at h
        · cases h
          simp [at?_eq_none.1 he]
        · cases h
      · next he => exact ih (at?_dir he) h
      · next he =>
        split at h
        · cases h
          simp [at?_file.1 he]
        · cases h
      · simp at h
    · rw [walk_long h1 h2 h3] at h
      cases h

lemma walkLinks_not_link (hs : t.Sound) (hd : t.isDirAt here = true)
    (h : walkLinks t true fuel here names = .ok s) : ∀ x, t.node? s.place ≠ some (.link x) := by
  induction fuel generalizing here names with
  | zero => cases h
  | succ fuel ih =>
    rw [walkLinks] at h
    split at h
    · next hw =>
      cases h
      exact walk_not_link hs hd hw
    · cases h
    · next hw => exact ih (walk_jump hs hd hw) h

/-- What a path leads to in the end is no link. -/
lemma locate_not_link (hs : t.Sound) (h : t.locate cwd true p = .ok s) :
    ∀ x, t.node? s.place ≠ some (.link x) := by
  rw [locate_eq_resolve (refused_of_locate_ok h), resolve] at h
  split at h
  · next hd => exact walkLinks_not_link hs hd h
  · cases h

lemma stat_grows (hs : t.Sound) (hg : t.Grows t') {e : Entry} (h : t.stat cwd p = .ok (l, e)) :
    ∃ e', t'.stat cwd p = .ok (l, e') ∧ t'.at? l = some e' := by
  have hloc := stat_eq_ok.1 h
  obtain ⟨n', hn', ha⟩ := hg l _ (node?_of_at? (stat_ok hs h).1)
  have hl : ∀ x, t'.node? l ≠ some (.link x) := by
    intro x hx
    rw [hn'] at hx
    cases hx
    cases e with
    | link y =>
      refine locate_not_link hs hloc y ?_
      exact node?_of_at? (stat_ok hs h).1
    | file b a => exact ha.elim
    | dir a => exact ha.elim
  have hloc' := locate_grows hg id hloc fun _ => hl
  cases he : t'.at? l with
  | none => simp [node?, he] at hn'
  | some e' =>
    simp only [he] at hloc'
    exact ⟨e', stat_eq_ok.2 hloc', rfl⟩

end Tree

end FileOrganizer
