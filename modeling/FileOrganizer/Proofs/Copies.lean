import FileOrganizer.Proofs.Batch.Claims
import FileOrganizer.Proofs.Tags.Store
import FileOrganizer.Proofs.Tree.Steady

/-! The search for a copy of a file under the variants of a name: it goes as far as the names are taken, and what it
finds is found again as long as no file goes or changes. -/

namespace FileOrganizer

open FileOrganizer.Tree FileOrganizer.Disk

variable {host host' : Host} {t t' : Tree} {cwd : Place} {X : Set Place} {p q dir : Path} {name : String}
  {b c : ByteArray}
  {fuel n k : Nat}

namespace Tree

lemma Steady.has (h : t.Steady X t') (hs : t.Sound) (hp : t.Plain) (hq : p.place cwd ∉ X) (hhas : t.has cwd p = true) :
    t'.has cwd p = true := by
  obtain ⟨l, e, hstat⟩ := has_iff.1 hhas
  obtain rfl := stat_place hp hstat
  have hnode := node?_of_at? (stat_ok hs hstat).1
  have hloc : t'.locate cwd true p = .ok ⟨p.place cwd, t'.at? (p.place cwd)⟩ :=
    locate_steady hp h.plain h.dirs (stat_eq_ok.1 hstat)
  have hstill : t'.node? (p.place cwd) ≠ none := by
    cases e with
    | file b a =>
      obtain ⟨a', ha'⟩ := bytes?_eq_some.1 (h.bytes _ hq b (bytes?_eq_some.2 ⟨a, hnode⟩))
      simp [ha']
    | dir a =>
      obtain ⟨k, hk⟩ := isDirAt_iff.1 (h.dirs _ (isDirAt_iff.2 ⟨_, hnode⟩))
      simp [hk]
    | link x => exact absurd hnode (hp _ x)
  obtain ⟨e', he'⟩ := Option.ne_none_iff_exists'.1 fun hnone => hstill (at?_eq_none.1 hnone)
  exact has_iff.2 ⟨_, e', stat_eq_ok.2 (he' ▸ hloc)⟩

end Tree

namespace Content

/-- Another file, with the same bytes as far as can be seen. -/
def Copies (host : Host) (t : Tree) (p q : Path) : Prop := q.same p = false ∧ same host t p q = .ok true

lemma bind_eq_ok {ε α β : Type} {x : Except ε α} {k : α → Except ε β} {r : β} (h : x >>= k = .ok r) :
    ∃ a, x = .ok a ∧ k a = .ok r := by
  cases x with
  | error e => cases h
  | ok a => exact ⟨a, rfl, h⟩

lemma read_of_full {digest : String} (h : full host t p = .ok digest) :
    ∃ b, t.read host.cwd p = .ok b ∧ host.digest b = digest := by
  unfold full at h
  cases hread : t.read host.cwd p with
  | error e =>
    rw [hread] at h
    cases h
  | ok b =>
    rw [hread] at h
    exact ⟨b, rfl, Except.ok.inj h⟩

lemma same_eq_true : same host t p q = .ok true ↔ ∃ b c, t.read host.cwd p = .ok b ∧ t.read host.cwd q = .ok c ∧
    b.size = c.size ∧ host.digest b = host.digest c := by
  constructor
  · intro h
    unfold same at h
    obtain ⟨m, hm, hsizes⟩ := bind_eq_ok h
    obtain ⟨n, hn, hrest⟩ := bind_eq_ok hsizes
    split at hrest
    · cases hrest
    · next hmn =>
      obtain ⟨x, hx, hdigests⟩ := bind_eq_ok hrest
      obtain ⟨y, hy, hsame⟩ := bind_eq_ok hdigests
      obtain ⟨b, hb, rfl⟩ := read_of_full hx
      obtain ⟨c, hc, rfl⟩ := read_of_full hy
      have hm' := Except.ok.inj ((size_of_read hb).symm.trans hm)
      have hn' := Except.ok.inj ((size_of_read hc).symm.trans hn)
      exact ⟨b, c, hb, hc, by rw [hm', hn', not_not.1 hmn], by simpa using Except.ok.inj hsame⟩
  · rintro ⟨b, c, hb, hc, hsize, hdigest⟩
    rw [same_of_read hb hc, hsize, hdigest, decide_eq_true rfl, beq_self_eq_true, Bool.and_true]

/-- As many names as are asked for are tried, up to the first that is not taken. -/
lemma identicalFrom_isSome : (identicalFrom host t p dir name fuel n).isSome = true ↔
    ∃ k < fuel, (∀ j ≤ k, t.has host.cwd (dir.child (FileName.numbered name (n + j))) = true) ∧
      Copies host t p (dir.child (FileName.numbered name (n + k))) := by
  induction fuel generalizing n with
  | zero => simp [identicalFrom]
  | succ fuel ih =>
    rw [identicalFrom]
    by_cases hhas : t.has host.cwd (dir.child (FileName.numbered name n)) = true
    · rw [if_neg (by simp [hhas])]
      by_cases hhit : Copies host t p (dir.child (FileName.numbered name n))
      · rw [if_pos (by rw [hhit.1, hhit.2]; rfl)]
        refine ⟨fun _ => ⟨0, Nat.succ_pos fuel, fun j hj => ?_, hhit⟩, fun _ => rfl⟩
        rwa [Nat.le_zero.1 hj]
      · rw [if_neg ?_, ih]
        constructor
        · rintro ⟨k, hk, hall, hcopy⟩
          refine ⟨k + 1, Nat.succ_lt_succ hk, fun j hj => ?_, ?_⟩
          · cases j with
            | zero => exact hhas
            | succ j => simpa [Nat.add_assoc, Nat.add_comm 1] using hall j (Nat.le_of_succ_le_succ hj)
          · simpa [Nat.add_assoc, Nat.add_comm 1] using hcopy
        · rintro ⟨k, hk, hall, hcopy⟩
          cases k with
          | zero => exact absurd hcopy hhit
          | succ k =>
            refine ⟨k, Nat.lt_of_succ_lt_succ hk, fun j hj => ?_, ?_⟩
            · simpa [Nat.add_assoc, Nat.add_comm 1] using hall (j + 1) (Nat.succ_le_succ hj)
            · simpa [Nat.add_assoc, Nat.add_comm 1] using hcopy
        · rw [Bool.and_eq_true, Bool.not_eq_true']
          rintro ⟨hne, hsame⟩
          split at hsame
          · next heq => exact hhit ⟨hne, heq⟩
          · cases hsame
    · rw [if_pos (by simpa using hhas)]
      refine ⟨fun h => (by cases h), ?_⟩
      rintro ⟨k, -, hall, -⟩
      exact absurd (hall 0 (Nat.zero_le k)) hhas

/-- A copy is found if the names up to it are taken. -/
lemma identical?_isSome : (identical? host t p dir name).isSome = true ↔
    ∃ k, (∀ j ≤ k, t.has host.cwd (dir.child (FileName.numbered name j)) = true) ∧
      Copies host t p (dir.child (FileName.numbered name k)) := by
  unfold identical?
  rw [identicalFrom_isSome]
  simp only [Nat.zero_add]
  constructor
  · rintro ⟨k, -, hall, hcopy⟩
    exact ⟨k, hall, hcopy⟩
  · rintro ⟨k, hall, hcopy⟩
    have hle := Workspace.le_of_taken t [] host.cwd dir name fun j _ hj => Or.inl (hall j hj)
    rw [List.length_nil] at hle
    exact ⟨k, by omega, hall, hcopy⟩

/-- Of the machine, only where it is and its digest count. -/
lemma identical?_host (hcwd : host'.cwd = host.cwd) (hdigest : host'.digest = host.digest) :
    (identical? host' t p dir name).isSome = true ↔ (identical? host t p dir name).isSome = true := by
  rw [identical?_isSome, identical?_isSome]
  unfold Copies
  simp only [same_eq_true, hcwd, hdigest]

end Content

end FileOrganizer
