import FileOrganizer.Proofs.Batch.Claims

/-! Claims that are made one after the other, whatever becomes of the tree in between: each gets the least variant of
its name that is free by then, after few probes, and no path is given out twice. -/

namespace FileOrganizer

/-- Somebody asks for a name in a directory, in the tree as it is when the turn comes. -/
structure ClaimRequest where
  tree : Tree
  dir : Path
  name : String

/-- The path with number `n` that the request tries. -/
def ClaimRequest.candidate (r : ClaimRequest) (n : ℕ) : Path := r.dir.child (FileName.numbered r.name n)

namespace Workspace

variable {w : Workspace} {cwd : Place} {dir : Path} {name : String} {n k : ℕ}

/-- The search goes on from number `n` and ends with a claim after so many probes. Nothing but a free path ends it. -/
inductive Search (w : Workspace) (cwd : Place) (dir : Path) (name : String) : ℕ → Claim → ℕ → Prop
  | free {n : ℕ} (h : w.isFree cwd (dir.child (FileName.numbered name n)) = true) :
      Search w cwd dir name n ⟨dir.child (FileName.numbered name n), 0 < n⟩ 1
  | taken {n k : ℕ} {c : Claim} (h : w.isFree cwd (dir.child (FileName.numbered name n)) ≠ true)
      (rest : Search w cwd dir name (n + 1) c k) : Search w cwd dir name n c (k + 1)

lemma Search.of_first (hfree : w.isFree cwd (dir.child (FileName.numbered name (n + k))) = true)
    (hfirst : ∀ j, n ≤ j → j < n + k → w.isFree cwd (dir.child (FileName.numbered name j)) ≠ true) :
    Search w cwd dir name n ⟨dir.child (FileName.numbered name (n + k)), 0 < n + k⟩ (k + 1) := by
  induction k generalizing n with
  | zero => exact .free hfree
  | succ k ih =>
    have hnext : n + (k + 1) = n + 1 + k := by omega
    rw [hnext] at hfree hfirst ⊢
    exact .taken (hfirst n le_rfl (by omega)) (ih hfree fun j hj => hfirst j (by omega))

/-- The claim that is made is the one that the search ends with. -/
lemma claim_search (w : Workspace) (cwd : Place) (dir : Path) (name : String) :
    ∃ n, (w.claim cwd dir name).1 = ⟨dir.child (FileName.numbered name n), 0 < n⟩ ∧
      Search w cwd dir name 0 (w.claim cwd dir name).1 (n + 1) ∧
      IsLeast {n | w.isFree cwd (dir.child (FileName.numbered name n)) = true} n := by
  obtain ⟨n, hclaim, hfree, hfirst⟩ := w.claim_least cwd dir name
  have hleast : ∀ m, w.isFree cwd (dir.child (FileName.numbered name m)) = true → n ≤ m := by
    intro m hm
    by_contra hlt
    exact hfirst m (by omega) hm
  have hsearch := Search.of_first (n := 0) (k := n) (by rwa [Nat.zero_add]) fun j _ hj => hfirst j (by omega)
  rw [Nat.zero_add] at hsearch
  exact ⟨n, hclaim, hclaim ▸ hsearch, hfree, hleast⟩

/-- Each number below the first free one stands for a variant that exists or for a claim. -/
lemma le_of_first (hfirst : ∀ j < n, w.isFree cwd (dir.child (FileName.numbered name j)) ≠ true) :
    n ≤ (taken w.tree cwd dir name).ncard + w.claims.length := by
  obtain ⟨hfin, hclaimed⟩ := ncard_claimed_le w.claims dir name
  have hle := le_ncard_of_cover (finite_taken w.tree cwd dir name) hfin (i := 0) (j := n) fun j _ hj => by
    by_contra hboth
    obtain ⟨hhas, hclaimed'⟩ := not_or.1 hboth
    have hnone : w.isClaimed (dir.child (FileName.numbered name j)) = false := Bool.eq_false_iff.2 hclaimed'
    exact hfirst j hj (by rw [isFree, hnone, Bool.eq_false_iff.2 hhas]; rfl)
  omega

/-- The tree has become another one. -/
def amid (w : Workspace) (t : Tree) : Workspace := { w with tree := t }

/-- The request is answered in its tree. -/
def serve (cwd : Place) (w : Workspace) (r : ClaimRequest) : Claim × Workspace := (w.amid r.tree).claim cwd r.dir r.name

/-- The requests are answered one after the other. -/
def serveAll (cwd : Place) : List ClaimRequest → Workspace → List Claim × Workspace
  | [], w => ([], w)
  | r :: rs, w =>
    let (c, w) := w.serve cwd r
    let (cs, w) := serveAll cwd rs w
    (c :: cs, w)

lemma serveAll_concat (cwd : Place) (rs : List ClaimRequest) (r : ClaimRequest) (w : Workspace) :
    (serveAll cwd (rs ++ [r]) w).1 = (serveAll cwd rs w).1 ++ [((serveAll cwd rs w).2.serve cwd r).1] := by
  induction rs generalizing w with
  | nil => rfl
  | cons r' rs ih => exact congrArg (_ :: ·) (ih (w.serve cwd r').2)

lemma length_serveAll (cwd : Place) (rs : List ClaimRequest) (w : Workspace) :
    (serveAll cwd rs w).1.length = rs.length := by
  induction rs generalizing w with
  | nil => rfl
  | cons r rs ih => exact congrArg (· + 1) (ih (w.serve cwd r).2)

/-- What is held as claimed is what was given out. -/
lemma claims_serveAll (cwd : Place) (rs : List ClaimRequest) (w : Workspace) :
    (serveAll cwd rs w).2.claims = ((serveAll cwd rs w).1.map (·.path)).reverse ++ w.claims := by
  induction rs generalizing w with
  | nil => rfl
  | cons r rs ih =>
    refine (ih (w.serve cwd r).2).trans ?_
    simp [serveAll, serve, amid, claim]

/-- Nothing has been claimed. -/
def unclaimed (w : Workspace) : Workspace := { w with claims := [] }

/-- What the requests were given, when nothing had been claimed before them. -/
def answers (cwd : Place) (rs : List ClaimRequest) (w : Workspace) : List Claim := (serveAll cwd rs w.unclaimed).1

/-- The workspace when, after other requests, the turn of this one comes. -/
def turn (cwd : Place) (rs : List ClaimRequest) (w : Workspace) (r : ClaimRequest) : Workspace :=
  (serveAll cwd rs w.unclaimed).2.amid r.tree

lemma claims_turn (cwd : Place) (rs : List ClaimRequest) (w : Workspace) (r : ClaimRequest) :
    (turn cwd rs w r).claims = ((answers cwd rs w).map (·.path)).reverse :=
  (claims_serveAll cwd rs w.unclaimed).trans (List.append_nil _)

lemma same_comm (p q : Path) : p.same q = q.same p := by
  rw [Path.same, Path.same, Bool.beq_comm]

/-- Free is where nothing exists and nothing was given out. -/
lemma isFree_turn (cwd : Place) (rs : List ClaimRequest) (w : Workspace) (r : ClaimRequest) (p : Path) :
    (turn cwd rs w r).isFree cwd p = true ↔
      r.tree.has cwd p = false ∧ ∀ c ∈ answers cwd rs w, c.path.same p = false := by
  rw [isFree, isClaimed, claims_turn, Bool.and_eq_true, Bool.not_eq_true', Bool.not_eq_true', List.any_eq_false]
  refine and_congr_right fun _ => ⟨fun h c hc => ?_, fun h q hq => ?_⟩
  · rw [same_comm, ← Bool.not_eq_true]
    exact h c.path (by simpa using ⟨c, hc, rfl⟩)
  · obtain ⟨c, hc, rfl⟩ := List.mem_map.1 (List.mem_reverse.1 hq)
    rw [same_comm, h c hc]
    exact Bool.false_ne_true

lemma answers_concat (cwd : Place) (rs : List ClaimRequest) (w : Workspace) (r : ClaimRequest) :
    answers cwd (rs ++ [r]) w = answers cwd rs w ++ [((turn cwd rs w r).claim cwd r.dir r.name).1] :=
  serveAll_concat cwd rs r w.unclaimed

lemma pairwise_answers (cwd : Place) (rs : List ClaimRequest) (w : Workspace) :
    (answers cwd rs w).Pairwise fun c d => c.path.same d.path = false := by
  induction rs using List.reverseRecOn with
  | nil => exact .nil
  | append_singleton rs r ih =>
    rw [answers_concat, List.pairwise_append]
    refine ⟨ih, List.pairwise_singleton _ _, fun c hc d hd => ?_⟩
    rw [List.mem_singleton.1 hd]
    exact ((isFree_turn cwd rs w r _).1 (claim_isFree _ cwd r.dir r.name)).2 c hc

/-- Whoever asks, in whatever order, and whatever becomes of the tree in between: the path given out has the least
number under which nothing exists at that moment and nothing was given out before, and it is told whether that is
another name than the one asked for. It is found after no more probes than there are variants that exist, claims that
were made, and one. -/
theorem claims_fresh (cwd : Place) (rs : List ClaimRequest) (w : Workspace) (r : ClaimRequest) :
    (∃ n probes, ((turn cwd rs w r).claim cwd r.dir r.name).1 = ⟨r.candidate n, 0 < n⟩ ∧
      IsLeast {n | r.tree.has cwd (r.candidate n) = false ∧
        ∀ c ∈ answers cwd rs w, c.path.same (r.candidate n) = false} n ∧
      Search (turn cwd rs w r) cwd r.dir r.name 0 ((turn cwd rs w r).claim cwd r.dir r.name).1 probes ∧
      probes ≤ (taken r.tree cwd r.dir r.name).ncard + rs.length + 1) ∧
    (taken r.tree cwd r.dir r.name).Finite ∧ Function.Injective (FileName.numbered r.name) ∧
    answers cwd (rs ++ [r]) w = answers cwd rs w ++ [((turn cwd rs w r).claim cwd r.dir r.name).1] ∧
    (answers cwd (rs ++ [r]) w).Pairwise fun c d => c.path.same d.path = false := by
  refine ⟨?_, finite_taken _ _ _ _, FileName.numbered_injective _, answers_concat _ _ _ _, pairwise_answers _ _ _⟩
  obtain ⟨n, hclaim, hsearch, hfree, hfirst⟩ := claim_search (turn cwd rs w r) cwd r.dir r.name
  have hlength : (turn cwd rs w r).claims.length = rs.length := by
    rw [claims_turn, List.length_reverse, List.length_map]
    exact length_serveAll cwd rs w.unclaimed
  have hle : n ≤ (taken (turn cwd rs w r).tree cwd r.dir r.name).ncard + (turn cwd rs w r).claims.length :=
    le_of_first fun j hj hj' => absurd (hfirst hj') (by omega)
  rw [hlength] at hle
  have hleast : IsLeast {n | r.tree.has cwd (r.candidate n) = false ∧
      ∀ c ∈ answers cwd rs w, c.path.same (r.candidate n) = false} n :=
    ⟨(isFree_turn cwd rs w r (r.candidate n)).1 hfree,
      fun m hm => hfirst ((isFree_turn cwd rs w r (r.candidate m)).2 hm)⟩
  exact ⟨n, n + 1, hclaim, hleast, hsearch, Nat.succ_le_succ hle⟩

end Workspace

end FileOrganizer
