import FileOrganizer.Proofs.Batch.Tracking

/-! The files of a batch at their places: those that a rule takes are where their outcomes say, those that are planned
for are at their targets, and the others have not been touched. -/

namespace FileOrganizer

open FileOrganizer.Tree FileOrganizer.Disk

variable {s : Setting} {mode : TransferKind} {t t' : Tree} {cwd log : Place} {c : ByteArray} {K : Set Place}
  {folder : Path} {b : Batch} {f : FileInfo} {fs : List FileInfo} {os : List Outcome} {ms : List PlannedTransfer}

namespace Batch

/-- Files that can be read, each at a place of its own, and the log is none of them. -/
structure Given (cwd log : Place) (t : Tree) (fs : List FileInfo) : Prop where
  read : ∀ f ∈ fs, ∃ c, t.read cwd f.path = .ok c
  named : ∀ f ∈ fs, f.Named
  ne_log : log ∉ places cwd fs
  apart : (places cwd fs).Nodup

namespace Given

lemma sublist {gs : List FileInfo} (h : Given cwd log t fs) (hsub : gs.Sublist fs) : Given cwd log t gs :=
  ⟨fun f hf => h.read f (hsub.subset hf), fun f hf => h.named f (hsub.subset hf),
    fun hmem => h.ne_log ((hsub.map _).subset hmem), h.apart.sublist (hsub.map _)⟩

lemma steady {X : Set Place} (h : Given cwd log t fs) (hs : t.Sound) (hp : t.Plain) (hst : t.Steady X t')
    (hX : ∀ q ∈ places cwd fs, q ∉ X) : Given cwd log t' fs :=
  ⟨fun f hf => (h.read f hf).imp fun _ => hst.read hs hp (hX _ (List.mem_map_of_mem hf)), h.named, h.ne_log, h.apart⟩

lemma cons (h : Given cwd log t (f :: fs)) : Given cwd log t fs ∧ f.path.place cwd ≠ log ∧
    ∀ q ∈ places cwd fs, q ≠ f.path.place cwd ∧ q ≠ log := by
  have htail := h.sublist (List.sublist_cons_self f fs)
  have hnot : f.path.place cwd ∉ places cwd fs := (List.nodup_cons.1 h.apart).1
  refine ⟨htail, fun heq => h.ne_log (heq ▸ List.mem_cons_self), fun q hq => ⟨?_, ?_⟩⟩
  · rintro rfl
    exact hnot hq
  · rintro rfl
    exact htail.ne_log hq

lemma bytes (h : Given cwd log t fs) (hs : t.Sound) (hp : t.Plain) {q : Place} (hq : q ∈ places cwd fs) :
    t.bytes? q ≠ none := by
  obtain ⟨f, hf, rfl⟩ := List.mem_map.1 hq
  obtain ⟨c, hc⟩ := h.read f hf
  simp [bytes?_of_read hs hp hc]

end Given

/-- The places of the files that a rule has taken. -/
def takenPlaces (cwd : Place) (fs : List FileInfo) (os : List Outcome) : Set Place :=
  {q | ∃ x ∈ fs.zip os, x.2.handled = true ∧ x.1.path.place cwd = q}

lemma takenPlaces_subset : takenPlaces cwd fs os ⊆ {q | q ∈ places cwd fs} := by
  rintro q ⟨x, hx, -, rfl⟩
  exact List.mem_map.2 ⟨x.1, (List.of_mem_zip hx).1, rfl⟩

lemma notMem_takenPlaces {x : FileInfo × Outcome} (hapart : (places cwd fs).Nodup) (hlen : os.length = fs.length)
    (hx : x ∈ fs.zip os) (hno : x.2.handled = false) : x.1.path.place cwd ∉ takenPlaces cwd fs os := by
  have hl : ((fs.zip os).map (·.1.path.place cwd)).Nodup := by
    rwa [places, ← List.map_fst_zip hlen.ge, List.map_map] at hapart
  rintro ⟨y, hy, hyes, hplace⟩
  obtain rfl : y = x := List.inj_on_of_nodup_map hl hy hx hplace
  simp [hno] at hyes

lemma Given.untaken (h : Given cwd log t fs) (hs : t.Sound) (hp : t.Plain) (hlen : os.length = fs.length)
    (hst : t.Steady (insert log (takenPlaces cwd fs os)) t') : Given cwd log t' (untaken fs os) := by
  refine (h.sublist (untaken_sublist hlen)).steady hs hp hst fun q hq => ?_
  obtain ⟨f, hf, rfl⟩ := List.mem_map.1 hq
  obtain ⟨x, hx, rfl⟩ := List.mem_map.1 hf
  obtain ⟨hx, hno⟩ := List.mem_filter.1 hx
  rintro (heq | hmem)
  · exact h.ne_log (heq ▸ List.mem_map_of_mem (List.of_mem_zip hx).1)
  · exact notMem_takenPlaces h.apart hlen hx (by simpa using hno) hmem

/-- The sources of planned transfers, each to be read at a place of its own. -/
structure Sourced (cwd log : Place) (t : Tree) (ms : List PlannedTransfer) : Prop where
  read : ∀ m ∈ ms, ∃ c, t.read cwd m.source = .ok c
  ne_log : log ∉ ms.map (·.source.place cwd)
  apart : (ms.map (·.source.place cwd)).Nodup

lemma Given.sources (h : Given cwd log t fs) (hsub : (ms.map (·.source)).Sublist (fs.map (·.path))) :
    Sourced cwd log t ms ∧ (ms.map (·.source.place cwd)).Sublist (places cwd fs) := by
  have hplaces : (ms.map (·.source.place cwd)).Sublist (places cwd fs) := by
    have hmap := hsub.map (Path.place cwd)
    rwa [List.map_map, List.map_map] at hmap
  refine ⟨⟨fun m hm => ?_, fun hmem => h.ne_log (hplaces.subset hmem), h.apart.sublist hplaces⟩, hplaces⟩
  obtain ⟨f, hf, heq⟩ := List.mem_map.1 (hsub.subset (List.mem_map_of_mem hm))
  exact heq ▸ h.read f hf

lemma Sourced.apart_head {m : PlannedTransfer} (h : Sourced cwd log t (m :: ms)) {n : PlannedTransfer} (hn : n ∈ ms) :
    n.source.place cwd ≠ m.source.place cwd ∧ n.source.place cwd ≠ log := by
  have hnot : m.source.place cwd ∉ ms.map (·.source.place cwd) := (List.nodup_cons.1 h.apart).1
  exact ⟨fun heq => hnot (heq ▸ List.mem_map_of_mem hn),
    fun heq => h.ne_log (List.mem_cons_of_mem _ (heq ▸ List.mem_map_of_mem hn))⟩

lemma Sourced.tail {m : PlannedTransfer} (h : Sourced cwd log t (m :: ms)) (hs : t.Sound) (hp : t.Plain)
    (hst : t.Steady {m.source.place cwd, log} t') : Sourced cwd log t' ms :=
  ⟨fun n hn => (h.read n (List.mem_cons_of_mem m hn)).imp fun _ => hst.read hs hp (by simpa using h.apart_head hn),
    fun hmem => h.ne_log (List.mem_cons_of_mem _ hmem), (List.nodup_cons.1 h.apart).2⟩

/-- What became of a file that has gone through the rules. A file that no rule has taken is as it was given. -/
structure Placed (cwd log : Place) (K : Set Place) (t t' : Tree) (x : FileInfo × Outcome) : Prop where
  origin : x.2.origin = x.1.path
  kept : x.2.deleted = false
  untaken : x.2.handled = false → x.2 = { origin := x.1.path, file := x.1 }
  taken : x.2.handled = true → ∀ c, t.read cwd x.1.path = .ok c → x.2.Found cwd (insert log K) c t'

lemma Placed.earlier {K' : Set Place} {u : Tree} {x : FileInfo × Outcome} (h : Placed cwd log K u t' x)
    (hread : ∀ c, t.read cwd x.1.path = .ok c → u.read cwd x.1.path = .ok c) (hK : K' ⊆ K) :
    Placed cwd log K' t t' x :=
  ⟨h.origin, h.kept, h.untaken, fun hx c hc =>
    (h.taken hx c (hread c hc)).mono (Set.insert_subset_insert hK)⟩

lemma takenPlaces_cons (o : Outcome) (ho : o.handled = true) :
    takenPlaces cwd (f :: fs) (o :: os) = insert (f.path.place cwd) (takenPlaces cwd fs os) := by
  ext q
  simp only [takenPlaces, List.zip_cons_cons, List.mem_cons, Set.mem_insert_iff, Set.mem_ofPred_eq]
  constructor
  · rintro ⟨x, rfl | hx, hhandled, rfl⟩
    · exact Or.inl rfl
    · exact Or.inr ⟨x, hx, hhandled, rfl⟩
  · rintro (rfl | ⟨x, hx, hhandled, rfl⟩)
    · exact ⟨(f, o), Or.inl rfl, ho, rfl⟩
    · exact ⟨x, Or.inr hx, hhandled, rfl⟩

lemma takenPlaces_cons_of_untaken (o : Outcome) (ho : o.handled = false) :
    takenPlaces cwd (f :: fs) (o :: os) = takenPlaces cwd fs os := by
  ext q
  simp [takenPlaces, ho]

lemma steady_cons {t₁ t₂ t₃ : Tree} (o : Outcome) (hfile : t.Steady {f.path.place cwd} t₁) (hnotes : t₁.Steady {log} t₂)
    (huntaken : o.handled = false → t₁ = t) (hrest : t₂.Steady (insert log (takenPlaces cwd fs os)) t₃) :
    t.Steady (insert log (takenPlaces cwd (f :: fs) (o :: os))) t₃ := by
  cases hhandled : o.handled with
  | true =>
    rw [takenPlaces_cons o hhandled]
    refine (hfile.mono ?_).trans ((hnotes.mono ?_).trans (hrest.mono (Set.insert_subset_insert (Set.subset_insert _ _))))
    · simp
    · simp
  | false =>
    rw [takenPlaces_cons_of_untaken o hhandled]
    exact ((huntaken hhandled ▸ hnotes).mono (by simp)).trans hrest

/-- The first file goes through the rules, its records go to the log, then the others follow. -/
lemma runRules_cons (rules : List Rule) (f : FileInfo) (fs : List FileInfo) (hin : b.IsIn folder) :
    ∃ b' : Batch, runRules s rules (f :: fs) b =
        ((Rule.runAll s rules f b.work).1 :: (runRules s rules fs b').1, (runRules s rules fs b').2) ∧
      b'.IsIn folder ∧
      (∀ st ∈ Outcome.ruleStages s rules { origin := f.path, file := f } b.work, st ∈ fileStages s rules (f :: fs) b) ∧
      (∀ st ∈ fileStages s rules fs b', st ∈ fileStages s rules (f :: fs) b) ∧
      b'.work.store = (Rule.runAll s rules f b.work).2.store ∧
      ((Rule.runAll s rules f b.work).2.tree.Sound → (Rule.runAll s rules f b.work).2.tree.Plain →
        (Rule.runAll s rules f b.work).2.tree.Steady {(UndoLog.file folder).place s.host.cwd} b'.work.tree) := by
  rcases hrun : Rule.runAll s rules f b.work with ⟨o, w⟩
  have hw : (o.log.foldl (fun (b : Batch) line => b.say s!"{f.name}: {line}") { b with work := w }).work = w :=
    foldl_say (fun line => s!"{f.name}: {line}") _ _
  refine ⟨_, by rw [runRules, hrun], (hin.file f o w).notes s.host o.records, fun st hmem => ?_, fun st hmem => ?_,
    by rw [notes_store, hw], fun hs hp => ?_⟩
  · rw [fileStages]
    exact List.mem_append_left _ (List.mem_append_left _ hmem)
  · rw [fileStages, hrun]
    exact List.mem_append_right _ hmem
  · have hnotes := notes_steady (b := o.log.foldl (fun (b : Batch) line => b.say s!"{f.name}: {line}") { b with work := w })
      (by rwa [hw]) (by rwa [hw]) (hin.file f o w) s.host o.records
    rwa [hw] at hnotes

/-- Files that the batch has passed by are still there, and none of them is still to come. -/
def Passed (cwd log : Place) (t : Tree) (fs : List FileInfo) (K : Set Place) : Prop :=
  ∀ q ∈ K, t.bytes? q ≠ none ∧ q ∉ places cwd fs ∧ q ≠ log

lemma Passed.tail (h : Passed cwd log t (f :: fs) K) (hst : t.Steady {f.path.place cwd, log} t') :
    Passed cwd log t' fs K := by
  intro q hq
  obtain ⟨hbytes, hout, hlog⟩ := h q hq
  obtain ⟨hne, hrest⟩ : q ≠ f.path.place cwd ∧ q ∉ places cwd fs := by simpa [places] using hout
  obtain ⟨d, hd⟩ := Option.ne_none_iff_exists'.1 hbytes
  exact ⟨by simp [hst.bytes q (by simp [hne, hlog]) d hd], hrest, hlog⟩

/-- A file that has gone to where none was is found there by those who come later. -/
lemma found_later {o : Outcome} {l : Place} {t₁ t₂ t₃ : Tree} {Z : Set Place} (hs : t₁.Sound) (hp : t₁.Plain)
    (h : o.Found cwd (Outcome.Taken log l t) c t₁) (hnotes : t₁.Steady {log} t₂) (hrest : t₂.Steady (insert log Z) t₃)
    (hZ : ∀ q ∈ Z, q ≠ l ∧ t.bytes? q ≠ none) (hK : ∀ q ∈ K, q ≠ l ∧ t.bytes? q ≠ none) :
    o.Found cwd (insert log K) c t₃ := by
  have hsub : ∀ {Y : Set Place}, (∀ q ∈ Y, q ≠ l ∧ t.bytes? q ≠ none) → insert log Y ⊆ Outcome.Taken log l t := by
    rintro Y hY q (rfl | hq)
    · exact Or.inl rfl
    · exact Or.inr (hY q hq)
  have hnoted : o.Found cwd (Outcome.Taken log l t) c t₂ := h.steady hs hp hnotes (by
    rintro q rfl
    exact Or.inl rfl)
  exact (hnoted.steady hnotes.sound hnotes.plain hrest (hsub hZ)).mono (hsub hK)

section

variable (hcwd : ∀ n ∈ s.host.cwd, Proper n) (hdry : s.config.dryRun = false)

include hcwd hdry

lemma file_placed {rules : List Rule} (hdel : ∀ r ∈ rules, .delete ∉ r.actions)
    (hlaunch : ∀ r ∈ rules, ∀ p as n, .runCommand p as n ∉ r.actions) {w : Workspace} (hs : w.tree.Sound)
    (hp : w.tree.Plain) (hread : w.tree.read s.host.cwd f.path = .ok c) (hnamed : f.Named)
    (hlog : f.path.place s.host.cwd ≠ log)
    (hst : ∀ st ∈ Outcome.ruleStages s rules { origin := f.path, file := f } w, st.Orderly s mode log) :
    (Rule.runAll s rules f w).1.Tracked s.host.cwd log c w.tree (Rule.runAll s rules f w).2.tree := by
  refine Outcome.Tracked.runRules hcwd hdry hdel hlaunch hst ⟨.refl hs hp, ?_, ?_, hnamed, by simp⟩
  · rintro p (rfl | hcopy)
    · refine ⟨hread, ?_⟩
      rintro (heq | ⟨hne, -⟩)
      · exact hlog heq
      · exact hne rfl
    · simp [Outcome.copy?] at hcopy
  · intro p hcopy
    simp [Outcome.copy?] at hcopy

lemma runRules_placed {rules : List Rule} (hdel : ∀ r ∈ rules, .delete ∉ r.actions)
    (hlaunch : ∀ r ∈ rules, ∀ p as n, .runCommand p as n ∉ r.actions) (hs : b.work.tree.Sound) (hp : b.work.tree.Plain)
    (hlog : (UndoLog.file folder).place s.host.cwd = log) (hin : b.IsIn folder)
    (hgiven : Given s.host.cwd log b.work.tree fs) (hK : Passed s.host.cwd log b.work.tree fs K)
    (hst : ∀ st ∈ fileStages s rules fs b, st.Orderly s mode log) :
    b.work.tree.Steady (insert log (takenPlaces s.host.cwd fs (runRules s rules fs b).1)) (runRules s rules fs b).2.work.tree ∧
      ∀ x ∈ fs.zip (runRules s rules fs b).1, Placed s.host.cwd log
        (K ∪ {q | q ∈ places s.host.cwd (untaken fs (runRules s rules fs b).1)}) b.work.tree
        (runRules s rules fs b).2.work.tree x := by
  -- The induction is on the files still to come; at `K` are those that no rule has taken by then.
  induction fs generalizing b K with
  | nil => exact ⟨.refl hs hp, by simp⟩
  | cons f fs ih =>
    obtain ⟨b', hrun, hin', hrules, hrest, -, hnotes⟩ := runRules_cons (s := s) rules f fs hin
    obtain ⟨hgiven', hne_log, hother⟩ := hgiven.cons
    have htracked := fun c hread => file_placed (c := c) hcwd hdry hdel hlaunch hs hp hread
      (hgiven.named f List.mem_cons_self) hne_log fun st hmem => hst st (hrules st hmem)
    have horigin : (Rule.runAll s rules f b.work).1.origin = f.path := Outcome.runRules_origin _ _ _
    have huntaken : (Rule.runAll s rules f b.work).1.handled = false →
        Rule.runAll s rules f b.work = ({ origin := f.path, file := f }, b.work) := Outcome.runRules_unhandled
    rw [hrun]
    rw [hlog] at hnotes
    generalize Rule.runAll s rules f b.work = x at *
    obtain ⟨o, w⟩ := x
    dsimp only at *
    obtain ⟨c, hread⟩ := hgiven.read f List.mem_cons_self
    have hsteady : b.work.tree.Steady {f.path.place s.host.cwd} w.tree := horigin ▸ (htracked c hread).steady
    have hsteady' := hnotes hsteady.sound hsteady.plain
    have hboth : b.work.tree.Steady {f.path.place s.host.cwd, log} b'.work.tree :=
      (hsteady.mono (by simp)).trans (hsteady'.mono (by simp))
    have hgiven₂ := hgiven'.steady hs hp hboth fun q hq => by simpa using hother q hq
    have hread₂ : ∀ x ∈ fs.zip (runRules s rules fs b').1, ∀ c, b.work.tree.read s.host.cwd x.1.path = .ok c →
        b'.work.tree.read s.host.cwd x.1.path = .ok c := fun x hx c hc =>
      hboth.read hs hp (by simpa using hother _ (List.mem_map_of_mem (List.of_mem_zip hx).1)) hc
    have hrecur := fun {K'} (hK' : Passed s.host.cwd log b'.work.tree fs K') =>
      ih hboth.sound hboth.plain hin' hgiven₂ hK' fun st hmem => hst st (hrest st hmem)
    rw [untaken_cons]
    cases hhandled : o.handled with
    | true =>
      obtain ⟨hlater, hplaced⟩ := hrecur (hK.tail hboth)
      refine ⟨steady_cons o hsteady hsteady' (by simp [hhandled]) hlater, fun x hx => ?_⟩
      rw [if_pos rfl]
      rw [List.zip_cons_cons] at hx
      rcases List.mem_cons.1 hx with rfl | hx
      · refine ⟨horigin, Outcome.deleted_eq_false (htracked c hread).kept, fun hno => ?_, fun _ c hc => ?_⟩
        · rw [hhandled] at hno
          cases hno
        · have hpresent : ∀ {q}, q ∈ places s.host.cwd fs → q ≠ f.path.place s.host.cwd ∧ b.work.tree.bytes? q ≠ none :=
            fun hq => ⟨(hother _ hq).1, hgiven'.bytes hs hp hq⟩
          have hfound := (htracked c hc).found
          rw [horigin] at hfound
          refine found_later hsteady.sound hsteady.plain hfound hsteady' hlater
            (fun q hq => hpresent (takenPlaces_subset hq)) ?_
          rintro q (hq | hq)
          · exact ⟨fun heq => (hK q hq).2.1 (heq ▸ List.mem_cons_self), (hK q hq).1⟩
          · exact hpresent (((untaken_sublist (runRules_length rules fs b')).map _).subset hq)
      · exact (hplaced x hx).earlier (hread₂ x hx) le_rfl
    | false =>
      obtain ⟨rfl, rfl⟩ := Prod.mk.inj (huntaken hhandled)
      -- The file is passed by, and what the others do must not be where it still is.
      have hK₂ : Passed s.host.cwd log b'.work.tree fs (insert (f.path.place s.host.cwd) K) := by
        rintro q (rfl | hq)
        · refine ⟨?_, fun hmem => (hother _ hmem).1 rfl, hne_log⟩
          simp [hsteady'.bytes _ (by simpa using hne_log) c (bytes?_of_read hs hp hread)]
        · exact hK.tail hboth q hq
      obtain ⟨hlater, hplaced⟩ := hrecur hK₂
      refine ⟨steady_cons _ hsteady hsteady' (fun _ => rfl) hlater, fun x hx => ?_⟩
      rw [if_neg (by simp)]
      rw [List.zip_cons_cons] at hx
      rcases List.mem_cons.1 hx with rfl | hx
      · exact ⟨rfl, rfl, fun _ => rfl, fun hyes => by cases hyes⟩
      · refine (hplaced x hx).earlier (hread₂ x hx) ?_
        rintro q (hq | hq)
        · exact Or.inl (Or.inr hq)
        · rcases List.mem_cons.1 hq with rfl | hq
          · exact Or.inl (Or.inl rfl)
          · exact Or.inr hq

end

section

variable {host : Host} {m : PlannedTransfer}

lemma transferWork_follows {r : Except Fault Unit} (hs : t.Sound) (hp : t.Plain)
    (hread : t.read host.cwd m.source = .ok c) (h : transferWork host mode m t = (r, t')) :
    t.Steady {m.source.place host.cwd} t' ∧ (r = .ok () ∧ Receives host.cwd m.target c t t' ∨ r ≠ .ok () ∧ t.Steady ∅ t') := by
  cases mode with
  | move =>
    refine ⟨moveFile_steady hs hp hread h, ?_⟩
    rcases r with e | _
    · obtain ⟨hs', hadd⟩ := moveFile_adds hs h
      exact Or.inr ⟨by simp, hadd.steady hp hs'⟩
    · exact Or.inl ⟨rfl, (moved_of_moveFile hs hp hread h).read, moveFile_free hs hp hread h⟩
  | copy =>
    obtain ⟨hs', hadd⟩ := copyFile_adds hs h
    refine ⟨hadd.steady hp hs', ?_⟩
    rcases r with e | _
    · exact Or.inr ⟨by simp, hadd.steady hp hs'⟩
    · exact Or.inl ⟨rfl, copyFile_read hs hp hread h⟩

lemma transfer_cases (hin : b.IsIn folder) (hs : (transferWork host mode m b.work.tree).2.Sound)
    (hp : (transferWork host mode m b.work.tree).2.Plain) :
    (transferWork host mode m b.work.tree).2.Steady {(UndoLog.file folder).place host.cwd}
        (transfer host mode m b).2.work.tree ∧
      ((transfer host mode m b).1 = none → (transferWork host mode m b.work.tree).1 = .ok ()) := by
  rcases hwork : transferWork host mode m b.work.tree with ⟨e | _, t'⟩
  · rw [hwork] at hs hp
    unfold transfer
    rw [Workspace.disk_eq, hwork]
    exact ⟨.refl hs hp, fun hnone => by cases hnone⟩
  · obtain ⟨b', rfl, hsession, htransfer⟩ := transfer_ok hwork
    rw [hwork] at hs hp
    rw [htransfer]
    exact ⟨note_steady hs hp (hin.of_session hsession) host _, fun _ => rfl⟩

/-- Each file for which a transfer was planned is at its target, unless the transfer has failed. -/
lemma transferAll_placed (hs : b.work.tree.Sound) (hp : b.work.tree.Plain)
    (hlog : (UndoLog.file folder).place s.host.cwd = log) (hin : b.IsIn folder)
    (hsourced : Sourced s.host.cwd log b.work.tree ms)
    (hst : ∀ st ∈ transferStages s mode ms b, st.Orderly s mode log) :
    b.work.tree.Steady (insert log {q | q ∈ ms.map (·.source.place s.host.cwd)})
        (transferAll s.host mode ms b).2.work.tree ∧
      ∀ x ∈ (transferAll s.host mode ms b).1, x.2 = none → ∀ c, b.work.tree.read s.host.cwd x.1.source = .ok c →
        (transferAll s.host mode ms b).2.work.tree.read s.host.cwd x.1.target = .ok c := by
  induction ms generalizing b with
  | nil => exact ⟨.refl hs hp, by simp [transferAll]⟩
  | cons m ms ih =>
    obtain ⟨c, hc⟩ := hsourced.read m List.mem_cons_self
    rw [transferStages] at hst
    have horder : (⟨.transfer m, b.work⟩ : Stage).Orderly s mode log := hst _ (List.mem_append_left _ List.mem_cons_self)
    have hlogged : b.work.tree.node? log = none → (transferWork s.host mode m b.work.tree).2.node? log = none :=
      horder.log (by simp)
    obtain ⟨hsteady, -⟩ := transferWork_follows hs hp hc (Prod.mk.eta (p := transferWork s.host mode m b.work.tree)).symm
    obtain ⟨hnote, hdone⟩ := transfer_cases hin hsteady.sound hsteady.plain
    rw [hlog] at hnote
    have hboth : b.work.tree.Steady {m.source.place s.host.cwd, log} (transfer s.host mode m b).2.work.tree :=
      (hsteady.mono (by simp)).trans (hnote.mono (by simp))
    obtain ⟨hsteady', hplaced⟩ := ih hboth.sound hboth.plain (hin.transfer s.host m) (hsourced.tail hs hp hboth)
      fun st hmem => hst st (List.mem_append_right _ hmem)
    rw [transferAll]
    refine ⟨(hboth.mono ?_).trans (hsteady'.mono ?_), fun x hx => ?_⟩
    · rintro q (rfl | rfl) <;> simp
    · exact Set.insert_subset_insert fun q hq => List.mem_cons_of_mem _ hq
    rcases List.mem_cons.1 hx with rfl | hx
    · intro hnone d hd
      obtain ⟨-, hgot, hfree⟩ := (transferWork_follows hs hp hd
        (Prod.mk.eta (p := transferWork s.host mode m b.work.tree)).symm).2.resolve_right fun h => h.1 (hdone hnone)
      have hne_log : m.target.place s.host.cwd ≠ log := fun heq =>
        node?_of_read hsteady.sound hsteady.plain hgot (heq ▸ hlogged (heq ▸ hfree))
      -- The target was free before, so it is the source of no later transfer, and what comes later leaves it alone.
      refine hsteady'.read hboth.sound hboth.plain ?_ (hnote.read hsteady.sound hsteady.plain (by simpa using hne_log) hgot)
      rintro (heq | hmem)
      · exact hne_log heq
      · obtain ⟨n, hn, heq⟩ := List.mem_map.1 hmem
        obtain ⟨e, he⟩ := hsourced.read n (List.mem_cons_of_mem m hn)
        exact node?_of_read hs hp he (heq ▸ hfree)
    · intro hnone d hd
      have hmem : x.1 ∈ ms := by
        rw [← transferAll_moves s.host ms]
        exact List.mem_map_of_mem hx
      exact hplaced x hx hnone d (hboth.read hs hp (by simpa using hsourced.apart_head hmem) hd)

end

end Batch

end FileOrganizer
