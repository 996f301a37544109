import FileOrganizer.Proofs.Batch.Placement

/-! What planned transfers leave behind when none has failed: every file is at its target, nothing else has come but the
log, and what was moved is no longer where it was, while what was copied is. -/

namespace FileOrganizer

open FileOrganizer.Tree FileOrganizer.Disk

variable {host : Host} {mode : TransferKind} {t u v : Tree} {cwd log q : Place} {source target : Path} {c : ByteArray}
  {m : PlannedTransfer} {ms : List PlannedTransfer} {b : Batch} {folder : Path}

namespace Disk

/-- Nothing but the copy has come. -/
lemma copyFile_other {who : Actor} (hs : t.Sound) (hp : t.Plain) (h : copyFile who source target t = (.ok (), u))
    (hq : q ≠ target.place who.cwd) : u.bytes? q = t.bytes? q := by
  rcases (copyFile_cases hs h).2 with ⟨⟨e, he⟩, -⟩ | ⟨t₁, -, hpaved, -, l, b, a, l', a', -, hloc, -, hset⟩
  · cases he
  · obtain ⟨-, hadd⟩ := hpaved.addsDirs hs
    obtain rfl : l' = target.place who.cwd := locate_place (hadd.plain hp) hloc
    rw [hset.bytes? (Ne.symm hq), hadd.bytes? q]

end Disk

/-- What has come of these transfers. -/
structure Sent (cwd log : Place) (mode : TransferKind) (ms : List PlannedTransfer) (t t' : Tree) : Prop where
  steady : t.Steady (insert log {q | q ∈ ms.map (·.source.place cwd)}) t'
  arrived : ∀ m ∈ ms, ∀ c, t.read cwd m.source = .ok c → t'.read cwd m.target = .ok c
  files : ∀ q, t'.bytes? q ≠ none → q = log ∨ q ∈ ms.map (·.target.place cwd) ∨
    t.bytes? q ≠ none ∧ (mode = .move → q ∉ ms.map (·.source.place cwd))
  kept : mode = .copy → ∀ q, q ≠ log → ∀ c, t.bytes? q = some c → t'.bytes? q = some c

lemma Sent.steady_one (h : Sent cwd log mode [m] t u) : t.Steady {m.source.place cwd, log} u := by
  refine h.steady.mono ?_
  rintro q (rfl | hq)
  · exact Or.inr rfl
  · exact Or.inl (List.mem_singleton.1 hq)

namespace Batch

lemma transferWork_files (hs : t.Sound) (hp : t.Plain) (hread : t.read host.cwd m.source = .ok c)
    (h : transferWork host mode m t = (.ok (), u)) (hq : u.bytes? q ≠ none) : q = m.target.place host.cwd ∨
      t.bytes? q ≠ none ∧ (mode = .move → q ≠ m.source.place host.cwd) := by
  by_cases hne : q = m.target.place host.cwd
  · exact Or.inl hne
  · refine Or.inr ?_
    cases mode with
    | move =>
      have hmoved := moved_of_moveFile hs hp hread h
      have hsource : q ≠ m.source.place host.cwd := by
        rintro rfl
        exact hq hmoved.gone
      rw [hmoved.other q (Ne.symm hne) hsource.symm] at hq
      exact ⟨hq, fun _ => hsource⟩
    | copy =>
      rw [copyFile_other hs hp h hne] at hq
      exact ⟨hq, fun hmode => by cases hmode⟩

/-- One transfer that has not failed, with the note that is made of it. -/
lemma transfer_sent (hs : b.work.tree.Sound) (hp : b.work.tree.Plain)
    (hlog : (UndoLog.file folder).place host.cwd = log)
    (hin : b.IsIn folder) (hread : ∃ c, b.work.tree.read host.cwd m.source = .ok c)
    (hapart : m.target.place host.cwd ≠ log)
    (hok : (transfer host mode m b).1 = none) :
    Sent host.cwd log mode [m] b.work.tree (transfer host mode m b).2.work.tree ∧
      b.work.tree.node? (m.target.place host.cwd) = none := by
  subst hlog
  obtain ⟨c, hc⟩ := hread
  rcases hwork : transferWork host mode m b.work.tree with ⟨e | ⟨⟩, u⟩
  · unfold transfer at hok
    rw [Workspace.disk_eq, hwork] at hok
    cases hok
  obtain ⟨hsteady, hwent⟩ := transferWork_follows hs hp hc hwork
  obtain ⟨hgot, hfree⟩ := (hwent.resolve_right fun h => h.1 rfl).2
  obtain ⟨b', rfl, hsession, htransfer⟩ := transfer_ok hwork
  have hin' := hin.of_session hsession
  have hnote := note_steady hsteady.sound hsteady.plain hin' host ⟨m.source, m.target, mode, host.now⟩
  have hother := fun {q} => note_other (q := q) hsteady.sound hsteady.plain hin' host
    ⟨m.source, m.target, mode, host.now⟩
  rw [htransfer]
  refine ⟨⟨?_, ?_, ?_, ?_⟩, hfree⟩
  · exact (hsteady.mono (by simp)).trans (hnote.mono (by simp))
  · intro n hn d hd
    obtain rfl := List.mem_singleton.1 hn
    obtain rfl : c = d := Except.ok.inj (hc.symm.trans hd)
    exact hnote.read hsteady.sound hsteady.plain (by simpa using hapart) hgot
  · intro q hq
    by_cases hne : q = (UndoLog.file folder).place host.cwd
    · exact Or.inl hne
    · rw [hother hne] at hq
      exact Or.inr (by simpa using transferWork_files hs hp hc hwork hq)
  · rintro rfl q hne d hd
    rw [hother hne]
    exact keeps_of_copyFile hs hwork q d hd

/-- First one transfer, then others, each of a file of its own to a place of its own. -/
lemma sent_cons (hs : t.Sound) (hp : t.Plain) (hsourced : Sourced cwd log t (m :: ms))
    (hfree : t.node? (m.target.place cwd) = none) (hapart : m.target.place cwd ≠ log) (h : Sent cwd log mode [m] t u)
    (h' : Sent cwd log mode ms u v) : Sent cwd log mode (m :: ms) t v := by
  have hone := h.steady_one
  refine ⟨?_, ?_, ?_, ?_⟩
  · refine (hone.mono ?_).trans (h'.steady.mono ?_)
    · rintro q (rfl | rfl) <;> simp
    · exact Set.insert_subset_insert fun q hq => List.mem_cons_of_mem _ hq
  · intro n hn d hd
    rcases List.mem_cons.1 hn with rfl | hn
    · -- The target was free before, so it is the source of no later transfer.
      refine h'.steady.read hone.sound hone.plain ?_ (h.arrived n (List.mem_singleton_self n) d hd)
      rintro (heq | hmem)
      · exact hapart heq
      · obtain ⟨k, hk, heq⟩ := List.mem_map.1 hmem
        obtain ⟨e, he⟩ := hsourced.read k (List.mem_cons_of_mem n hk)
        exact node?_of_read hs hp he (heq ▸ hfree)
    · exact h'.arrived n hn d (hone.read hs hp (by simpa using hsourced.apart_head hn) hd)
  · intro q hq
    rcases h'.files q hq with hlog | htarget | ⟨hmid, hgone⟩
    · exact Or.inl hlog
    · exact Or.inr (Or.inl (List.mem_cons_of_mem _ htarget))
    · rcases h.files q hmid with hlog | htarget | ⟨hthere, hleft⟩
      · exact Or.inl hlog
      · exact Or.inr (Or.inl (by simpa using Or.inl (List.mem_singleton.1 htarget)))
      · refine Or.inr (Or.inr ⟨hthere, fun hmode hmem => ?_⟩)
        rcases List.mem_cons.1 hmem with rfl | hmem
        · exact hleft hmode (List.mem_singleton_self _)
        · exact hgone hmode hmem
  · exact fun hmode q hq c hc => h'.kept hmode q hq c (h.kept hmode q hq c hc)

lemma transferAll_sent (hs : b.work.tree.Sound) (hp : b.work.tree.Plain)
    (hlog : (UndoLog.file folder).place host.cwd = log) (hin : b.IsIn folder)
    (hsourced : Sourced host.cwd log b.work.tree ms) (hapart : log ∉ ms.map (·.target.place host.cwd))
    (hok : ∀ x ∈ (transferAll host mode ms b).1, x.2 = none) :
    Sent host.cwd log mode ms b.work.tree (transferAll host mode ms b).2.work.tree := by
  induction ms generalizing b with
  | nil =>
    exact ⟨.refl hs hp, fun m hm => (by cases hm), fun q hq => Or.inr (Or.inr ⟨hq, by simp⟩), fun _ q _ c hc => hc⟩
  | cons m ms ih =>
    rw [transferAll] at hok ⊢
    dsimp only at hok ⊢
    have hne : m.target.place host.cwd ≠ log := fun heq => hapart (heq ▸ List.mem_cons_self)
    obtain ⟨hone, hfree⟩ := transfer_sent hs hp hlog hin (hsourced.read m List.mem_cons_self) hne
      (hok _ List.mem_cons_self)
    have hmid := hone.steady_one
    have hrest := ih hmid.sound hmid.plain (hin.transfer host m) (hsourced.tail hs hp hmid)
      (fun hmem => hapart (List.mem_cons_of_mem _ hmem)) fun x hx => hok x (List.mem_cons_of_mem _ hx)
    exact sent_cons hs hp hsourced hfree hne hone hrest

end Batch

end FileOrganizer
