import FileOrganizer.Proofs.Batch.Conservation
import FileOrganizer.Proofs.Path.Variants
import FileOrganizer.Proofs.Tree.Descent
import Mathlib.Data.Set.Card
import Mathlib.Order.Interval.Finset.Nat

/-! A name that a batch claims is free: there are more numbered variants of it than could be taken. An archive
under such a name meets nothing in its place. -/

namespace FileOrganizer

open FileOrganizer.Tree FileOrganizer.Disk

namespace Workspace

variable {w : Workspace} {cwd : Place} {dir : Path} {name : String}

/-- The numbers under which variants of a name exist in a directory. -/
def taken (t : Tree) (cwd : Place) (dir : Path) (name : String) : Set ℕ :=
  {n | t.has cwd (dir.child (FileName.numbered name n)) = true}

lemma ncard_le_of_list {α : Type} [DecidableEq α] {S : Set ℕ} {l : List α} (f : ℕ → α) (hmem : ∀ n ∈ S, f n ∈ l)
    (hinj : ∀ m ∈ S, ∀ n ∈ S, f m = f n → m = n) : S.Finite ∧ S.ncard ≤ l.length := by
  have hmaps : ∀ n ∈ S, f n ∈ (l.toFinset : Set α) := fun n hn => by simpa using hmem n hn
  have hinj' : Set.InjOn f S := fun m hm n hn => hinj m hm n hn
  refine ⟨Set.Finite.of_injOn hmaps hinj' l.toFinset.finite_toSet, ?_⟩
  have hle := Set.ncard_le_ncard_of_injOn f hmaps hinj' l.toFinset.finite_toSet
  rw [Set.ncard_coe_finset] at hle
  exact hle.trans l.toFinset_card_le

/-- The name itself aside, each variant that exists has an entry of its own in the tree. -/
lemma ncard_taken_le (t : Tree) (cwd : Place) (dir : Path) (name : String) :
    (taken t cwd dir name \ {0}).Finite ∧ (taken t cwd dir name \ {0}).ncard ≤ t.entries.length := by
  obtain ⟨absolute, P, Q, z, v, hv⟩ := FileName.varies dir name
  obtain ⟨d, hd⟩ := at?_of_has t (if absolute then [] else cwd) ((P.filter (· ≠ [])).map String.ofList)
    ((Q.filter (· ≠ [])).map String.ofList)
  have hle := ncard_le_of_list (S := taken t cwd dir name \ {0}) (l := t.entries.map (·.1)) (fun n => d ++ [v n])
    (fun n ⟨hhas, hn⟩ => ?_) fun m _ n _ heq => hv.inj m n (by simpa using heq)
  · simpa using hle
  · have hat := hd cwd _ _ (hv.start hn cwd) (hv.segments hn) (hv.ne_dot n).1 (hv.ne_dot n).2 hhas
    rw [at?_of_ne_nil (by simp)] at hat
    exact Table.mem_keys.2 hat

lemma finite_taken (t : Tree) (cwd : Place) (dir : Path) (name : String) : (taken t cwd dir name).Finite :=
  ((ncard_taken_le t cwd dir name).1.insert 0).subset fun n hn => by
    by_cases h0 : n = 0
    · exact Or.inl h0
    · exact Or.inr ⟨hn, h0⟩

/-- No claim stands for two variants. -/
lemma ncard_claimed_le (claims : List Path) (dir : Path) (name : String) :
    {n | claims.any (dir.child (FileName.numbered name n)).same = true}.Finite ∧
      {n | claims.any (dir.child (FileName.numbered name n)).same = true}.ncard ≤ claims.length := by
  have hle := ncard_le_of_list (l := claims.map (·.parts)) (fun n => (dir.child (FileName.numbered name n)).parts)
    (S := {n | claims.any (dir.child (FileName.numbered name n)).same = true}) (fun n hn => ?_)
    fun m _ n _ => FileName.eq_of_parts
  · simpa using hle
  · obtain ⟨c, hc, hsame⟩ := List.any_eq_true.1 hn
    exact List.mem_map.2 ⟨c, hc, (eq_of_beq hsame).symm⟩

lemma le_ncard_of_cover {A B : Set ℕ} (hA : A.Finite) (hB : B.Finite) {i j : ℕ}
    (hcover : ∀ n, i ≤ n → n < j → n ∈ A ∨ n ∈ B) : j - i ≤ A.ncard + B.ncard := by
  have hsub : (Finset.Ico i j : Set ℕ) ⊆ A ∪ B := by
    intro n hn
    obtain ⟨hi, hj⟩ := Finset.mem_Ico.1 (Finset.mem_coe.1 hn)
    exact hcover n hi hj
  have hle := (Set.ncard_le_ncard hsub (hA.union hB)).trans (Set.ncard_union_le A B)
  rwa [Set.ncard_coe_finset, Nat.card_Ico] at hle

/-- As many variants of a name are taken as there are claims and entries, whatever the tree and the name. -/
lemma le_of_taken (t : Tree) (claims : List Path) (cwd : Place) (dir : Path) (name : String) {k : Nat}
    (htaken : ∀ n ≠ 0, n ≤ k → t.has cwd (dir.child (FileName.numbered name n)) = true ∨
      claims.any (dir.child (FileName.numbered name n)).same = true) : k ≤ claims.length + t.entries.length := by
  obtain ⟨hfin, hthere⟩ := ncard_taken_le t cwd dir name
  obtain ⟨hfin', hclaimed⟩ := ncard_claimed_le claims dir name
  have hle := le_ncard_of_cover hfin hfin' (i := 1) (j := k + 1) fun n hn hk =>
    (htaken n (by omega) (by omega)).imp_left fun hhas => ⟨hhas, fun h0 => absurd h0 (by simp; omega)⟩
  omega

/-- Of the names that are tried, the first free one is taken. -/
lemma claimFrom_first (w : Workspace) (cwd : Place) (dir : Path) (name : String) (fuel n : Nat) :
    ∃ k, n ≤ k ∧ w.claimFrom cwd dir name fuel n = ⟨dir.child (FileName.numbered name k), 0 < k⟩ ∧
      (∀ j, n ≤ j → j < k → w.isFree cwd (dir.child (FileName.numbered name j)) ≠ true) ∧
      (w.isFree cwd (dir.child (FileName.numbered name k)) = true ∨ k = n + fuel) := by
  induction fuel generalizing n with
  | zero => exact ⟨n, le_rfl, rfl, fun j hj hj' => absurd hj' (by omega), Or.inr rfl⟩
  | succ fuel ih =>
    rw [claimFrom]
    split
    · next hfree => exact ⟨n, le_rfl, rfl, fun j hj hj' => absurd hj' (by omega), Or.inl hfree⟩
    · next hfree =>
      obtain ⟨k, hk, hclaim, hfirst, hlast⟩ := ih (n + 1)
      refine ⟨k, by omega, hclaim, fun j hj hj' => ?_, hlast.imp_right (by omega)⟩
      rcases Nat.eq_or_lt_of_le hj with rfl | hlt
      · exact hfree
      · exact hfirst j hlt hj'

/-- The name that is claimed is the first one that is free: there are more than could be taken. -/
lemma claim_least (w : Workspace) (cwd : Place) (dir : Path) (name : String) :
    ∃ k, (w.claim cwd dir name).1 = ⟨dir.child (FileName.numbered name k), 0 < k⟩ ∧
      w.isFree cwd (dir.child (FileName.numbered name k)) = true ∧
      ∀ j < k, w.isFree cwd (dir.child (FileName.numbered name j)) ≠ true := by
  obtain ⟨k, -, hclaim, hfirst, hlast⟩ :=
    claimFrom_first w cwd dir name (w.claims.length + w.tree.entries.length + 2) 0
  refine ⟨k, hclaim, hlast.resolve_right fun hk => ?_, fun j hj => hfirst j (Nat.zero_le j) hj⟩
  have hle : w.claims.length + w.tree.entries.length + 1 ≤ w.claims.length + w.tree.entries.length := by
    apply le_of_taken w.tree w.claims cwd dir name
    intro n _ hn
    have hno := hfirst n (Nat.zero_le n) (by omega)
    by_contra hboth
    obtain ⟨hhas, hclaimed⟩ := not_or.1 hboth
    exact hno (by simp [isFree, isClaimed, hhas, Bool.eq_false_iff.2 hclaimed])
  omega

lemma claim_first (w : Workspace) (cwd : Place) (dir : Path) (name : String) :
    ∃ k, (w.claim cwd dir name).1.path = dir.child (FileName.numbered name k) ∧
      w.isFree cwd (dir.child (FileName.numbered name k)) = true ∧
      ∀ j < k, w.isFree cwd (dir.child (FileName.numbered name j)) ≠ true := by
  obtain ⟨k, hclaim, hfree, hfirst⟩ := w.claim_least cwd dir name
  exact ⟨k, congrArg Claim.path hclaim, hfree, hfirst⟩

lemma claim_path (w : Workspace) (cwd : Place) (dir : Path) (name : String) :
    ∃ k, (w.claim cwd dir name).1.path = dir.child (FileName.numbered name k) := by
  obtain ⟨k, hpath, -⟩ := w.claim_first cwd dir name
  exact ⟨k, hpath⟩

theorem claim_isFree (w : Workspace) (cwd : Place) (dir : Path) (name : String) :
    w.isFree cwd (w.claim cwd dir name).1.path = true := by
  obtain ⟨k, hpath, hfree, -⟩ := w.claim_first cwd dir name
  rw [hpath, hfree]

/-- A path that is claimed has not been claimed before. -/
lemma claim_new (w : Workspace) (cwd : Place) (dir : Path) (name : String) :
    ∀ q ∈ w.claims, (w.claim cwd dir name).1.path.same q = false := by
  have hfree := w.claim_isFree cwd dir name
  unfold isFree at hfree
  rw [Bool.and_eq_true, Bool.not_eq_true', Bool.not_eq_true'] at hfree
  simpa [isClaimed] using hfree.2

end Workspace

namespace Archive

variable {host : Host} {t : Tree} {target p : Path} {m n : String} {d : Place}

/-- A file in the way of an archive could have been seen before the directories above it were made, if the
directory that it is in was there. -/
lemma has_of_file (hs : t.Sound) (hp : t.Plain) (hslash : target.endsInSlash ≠ true) {l : Place} {b : ByteArray}
    {a : Attrs} (hloc : (makeParents host.toActor target t).2.locate host.cwd false target = .ok ⟨l, some (.file b a)⟩)
    (hpar : t.parentOf host.cwd target = .ok (d, .name n)) : t.has host.cwd target = true := by
  obtain ⟨hs₁, hadd⟩ := makeParents_addsDirs hs (show makeParents host.toActor target t = (_, _) from rfl)
  obtain rfl : l = d ++ [n] := (locate_place (hadd.plain hp) hloc).trans (parentOf_place hp hpar)
  have hfile₁ := at?_file.1 (locate_ok hs₁ hloc).1.symm
  have hfile : t.node? (d ++ [n]) = some (.file b a) := by
    rcases hadd (d ++ [n]) with heq | ⟨-, hdir⟩
    · rw [← heq, hfile₁]
    · rw [hfile₁] at hdir
      cases hdir
  have hthere := locate_of_parentOf hpar hslash (fun (_ : true = true) x => hp _ x)
  rw [at?_file.2 hfile] at hthere
  exact has_iff.2 ⟨_, _, stat_eq_ok.2 hthere⟩

lemma clear_of_level (hs : t.Sound) (hp : t.Plain) (hslash : target.endsInSlash ≠ true) (hup : Part.up ∉ target.parts)
    (hfree : t.has host.cwd target = false) : Clear host t target := by
  intro l b a hloc
  obtain ⟨hs₁, hadd⟩ := makeParents_addsDirs hs (show makeParents host.toActor target t = (_, _) from rfl)
  obtain ⟨d, n, hpar₁, rfl⟩ := parentOf_of_locate hs₁ hslash hloc (by simp)
  obtain ⟨l, hdesc, rfl⟩ := descent_of_parentOf (hadd.plain hp) hup hpar₁
  have hfile₁ := at?_file.1 (locate_ok hs₁ hloc).1.symm
  have hfile : t.node? (start host.cwd target ++ l ++ [n]) ≠ none := by
    intro hnone
    rcases hadd (start host.cwd target ++ l ++ [n]) with heq | ⟨-, hdir⟩
    · rw [hfile₁, hnone] at heq
      cases heq
    · rw [hfile₁] at hdir
      cases hdir
  rw [has_of_file hs hp hslash hloc (parentOf_descent _ hs hp hdesc (hs _ _ hfile))] at hfree
  cases hfree

lemma clear_of_sibling (hs : t.Sound) (hp : t.Plain) (hn : Proper n) (hpar : t.parentOf host.cwd p = .ok (d, .name m))
    (hfree : t.has host.cwd (p.parent.child n) = false) : Clear host t (p.parent.child n) := by
  intro l b a hloc
  have hslash := Path.endsInSlash_child (p := p.parent) hn
  obtain ⟨hs₁, hadd⟩ := makeParents_addsDirs hs (show makeParents host.toActor (p.parent.child n) t = (_, _) from rfl)
  obtain ⟨d', n', hpar₁, -⟩ := parentOf_of_locate hs₁ hslash hloc (by simp)
  obtain ⟨k, ⟨-, -, hshort⟩, -⟩ := locate_name hpar₁
  obtain rfl : n' = n := by
    have hplace := (parentOf_place (hadd.plain hp) hpar₁).symm.trans (place_child hn)
    exact List.singleton_inj.1 (List.append_inj' hplace rfl).2
  rw [has_of_file hs hp hslash hloc (parentOf_sibling hp hpar hn hshort (refused_of_locate_ok hloc))] at hfree
  cases hfree

end Archive

end FileOrganizer
