import FileOrganizer.Proofs.Batch.Landing
import FileOrganizer.Proofs.Batch.Rounds

/-! A file on its way through a batch: where it is by now, and where the newest copy of it is, there are its
bytes, and neither is in the way of what comes later. -/

namespace FileOrganizer

open FileOrganizer.Tree FileOrganizer.Disk

variable {s : Setting} {mode : TransferKind} {t t' t₀ : Tree} {w : Workspace} {cwd log : Place} {c : ByteArray}
  {X Y Z : Set Place} {p q : Path} {a : Action} {o : Outcome}

/-- No action and no planned transfer puts anything where the log is to be, and no archive is sent to a directory by a
path with `..`. -/
structure Stage.Orderly (s : Setting) (mode : TransferKind) (log : Place) (st : Stage) : Prop where
  log : (∀ session r, st.deed ≠ .note session r) → st.work.tree.node? log = none → (st.after s mode).node? log = none
  down : ∀ f a, st.deed = .act f a → a.SendsDown s f

/-- The stem of a name is all of it, or what stands before its last dot. -/
lemma FileName.cut_cases (n : String) : (cut n).1 = n ∨
    ∃ stem ext, stem ≠ [] ∧ Text.splitLast '.' n.toList = some (stem, ext) ∧ (cut n).1 = String.ofList stem := by
  unfold cut
  split
  · exact Or.inl rfl
  · split
    · exact Or.inl rfl
    · exact Or.inl rfl
    · next stem ext hne heq => exact Or.inr ⟨stem, ext, by simpa using hne, heq, rfl⟩

namespace FileInfo

variable {f : FileInfo}

/-- The names of the file are those of its path. -/
def Named (f : FileInfo) : Prop := f.toFileNames = FileNames.of f.path f.isDir

/-- The stem of a file is that of its name; a directory has none but its name. -/
lemma Named.stem_cases (h : f.Named) : f.stem = f.path.fileName ∨ f.stem = (FileName.cut f.path.fileName).1 := by
  rw [show f.stem = (FileNames.of f.path f.isDir).stem by rw [← h]]
  unfold FileNames.of Path.fileName
  cases f.isDir with
  | true => exact Or.inl rfl
  | false =>
    cases f.path.fileName? with
    | none => exact Or.inl rfl
    | some n =>
      right
      rcases hcut : FileName.cut n with ⟨stem, _ | ext⟩ <;> simp [hcut]

lemma Named.name_eq (h : f.Named) : f.name = f.path.fileName := by
  rw [show f.name = (FileNames.of f.path f.isDir).name by rw [← h]]
  unfold FileNames.of Path.fileName
  cases f.isDir with
  | true => rfl
  | false =>
    cases f.path.fileName? with
    | none => rfl
    | some n => rcases hcut : FileName.cut n with ⟨stem, _ | ext⟩ <;> simp [hcut]

lemma Named.stem (h : f.Named) : '/' ∉ f.stem.toList := by
  have hname : '/' ∉ f.path.fileName.toList := by
    rcases f.path.fileName_cases with heq | hproper
    · simp [heq]
    · exact hproper.2.2.2
  rcases h.stem_cases with hstem | hstem <;> rw [hstem]
  · exact hname
  · rcases FileName.cut_cases f.path.fileName with hcut | ⟨stem, ext, -, heq, hcut⟩ <;> rw [hcut]
    · exact hname
    · rw [Text.splitLast_eq heq] at hname
      exact fun hmem => hname (List.mem_append_left _ (by simpa using hmem))

lemma Named.stem_ne_of_name (h : f.Named) (hname : f.path.fileName ≠ "") : f.stem ≠ "" := by
  rcases h.stem_cases with hstem | hstem <;> rw [hstem]
  · exact hname
  · rcases FileName.cut_cases f.path.fileName with hcut | ⟨stem, ext, hne, -, hcut⟩ <;> rw [hcut]
    · exact hname
    · simpa using hne

lemma named_relocated (f : FileInfo) (p : Path) : (f.relocated p).Named := rfl

lemma named_read {who : Actor} (h : FileInfo.read who t p = .ok f) : f.Named := by
  unfold FileInfo.read at h
  split at h
  · cases h
  · split at h
    · cases h
    · next e _ =>
      cases h
      cases e <;> rfl

end FileInfo

namespace Outcome

lemma refresh_named (h : o.file.Named) : (refresh s w o.file).Named := by
  unfold refresh
  split
  · exact h
  · split
    · next hread => exact FileInfo.named_read hread
    · exact h

lemma refresh_read (hcwd : ∀ n ∈ s.host.cwd, Proper n) (hs : w.tree.Sound) (hp : w.tree.Plain)
    (h : w.tree.read s.host.cwd o.file.path = .ok c) : w.tree.read s.host.cwd (refresh s w o.file).path = .ok c := by
  unfold refresh
  split
  · exact h
  · split
    · next g hread =>
      unfold FileInfo.read at hread
      split at hread
      · cases hread
      · next full hfull =>
        split at hread
        · cases hread
        · next l e hstat =>
          cases hread
          refine (read_eq_ok hs hp).2 ⟨⟨_, stat_eq_ok.1 hstat⟩, ?_⟩
          dsimp only
          rw [Path.place_absolute? hcwd hfull]
          exact bytes?_of_read hs hp h
    · exact h

/-- The bytes are where the file is, and where the newest copy of it is, and nothing of that is at a place in `Y`. -/
def Found (cwd : Place) (Y : Set Place) (c : ByteArray) (t : Tree) (o : Outcome) : Prop :=
  ∀ p, p = o.file.path ∨ o.copy? = some p → t.read cwd p = .ok c ∧ p.place cwd ∉ Y

lemma Found.mono (h : o.Found cwd Y c t) (hZ : Z ⊆ Y) : o.Found cwd Z c t := fun p hp =>
  ⟨(h p hp).1, fun hz => (h p hp).2 (hZ hz)⟩

lemma Found.steady (h : o.Found cwd Y c t) (hs : t.Sound) (hp : t.Plain) (hst : t.Steady X t') (hX : X ⊆ Y) :
    o.Found cwd Y c t' := fun p hp' =>
  ⟨hst.read hs hp (fun hx => (h p hp').2 (hX hx)) (h p hp').1, (h p hp').2⟩

/-- The places at which there are other files than the one at `l`, and the place of the log. -/
def Taken (log l : Place) (t : Tree) : Set Place := {q | q = log ∨ q ≠ l ∧ t.bytes? q ≠ none}

/-- The file has gone from where it was to where nothing was, if it has gone anywhere, and so has its newest copy. -/
structure Tracked (cwd log : Place) (c : ByteArray) (t₀ t : Tree) (o : Outcome) : Prop where
  steady : t₀.Steady {o.origin.place cwd} t
  found : o.Found cwd (Taken log (o.origin.place cwd) t₀) c t
  apart : ∀ p, o.copy? = some p → p.place cwd ≠ o.file.path.place cwd
  named : o.file.Named
  kept : ∀ x ∈ o.steps, x.action ≠ .delete

lemma copy?_concat {x : Step} {g : FileInfo} (h : ({ o with file := g, steps := o.steps ++ [x] } : Outcome).copy? = some p) :
    o.copy? = some p ∨ (∃ d, x.action = .copy d) ∧ x.effect.output = some p := by
  unfold copy? at h ⊢
  dsimp only at h
  rw [List.filterMap_append] at h
  obtain ⟨rule, a, r⟩ := x
  cases a with
  | copy d =>
    cases hout : r.output with
    | none => exact Or.inl (by simpa [hout] using h)
    | some q => exact Or.inr ⟨⟨d, rfl⟩, by simpa [hout] using h⟩
  | _ => exact Or.inl (by simpa using h)

lemma notMem_taken_of_free {l : Place} (hst : t₀.Steady {l} t) (hfree : t.node? (p.place cwd) = none)
    (hlog : p.place cwd ≠ log) : p.place cwd ∉ Taken log l t₀ := by
  rintro (heq | ⟨hne, hbytes⟩)
  · exact hlog heq
  · obtain ⟨b, hb⟩ := Option.ne_none_iff_exists'.1 hbytes
    have hstill := hst.bytes _ hne b hb
    simp [Tree.bytes?, hfree] at hstill

namespace Tracked

variable {r : Effect} {g : FileInfo} (h : o.Tracked cwd log c t₀ t)

include h

lemma notMem_taken (hs' : t'.Sound) (hp' : t'.Plain) (hlog : t.node? log = none → t'.node? log = none)
    (hr : Receives cwd p c t t') : p.place cwd ∉ Taken log (o.origin.place cwd) t₀ :=
  notMem_taken_of_free h.steady hr.2 fun heq => node?_of_read hs' hp' hr.1 (heq ▸ hlog (heq ▸ hr.2))

/-- The first copies stay as long as the file alone goes away. -/
lemma copy_stays (hst : t.Steady {o.file.path.place cwd} t') (hcopy : o.copy? = some p) :
    t'.read cwd p = .ok c ∧ p.place cwd ∉ Taken log (o.origin.place cwd) t₀ :=
  ⟨hst.read h.steady.sound h.steady.plain (h.apart p hcopy) (h.found p (Or.inr hcopy)).1,
    (h.found p (Or.inr hcopy)).2⟩

lemma steady_next (hst : t.Steady {o.file.path.place cwd} t') : t₀.Steady {o.origin.place cwd} t' := by
  refine ⟨hst.sound, hst.plain, fun q hq => hst.dirs q (h.steady.dirs q hq), fun q hq b hb => ?_⟩
  refine hst.bytes q ?_ b (h.steady.bytes q hq b hb)
  rintro rfl
  exact (h.found _ (Or.inl rfl)).2 (Or.inr ⟨hq, by simp [hb]⟩)

/-- An action leaves the file where it is or takes it to another place, and may make a copy of it. -/
lemma next (rule : String) (hdel : a ≠ .delete) (hfile : t.read cwd g.path = .ok c)
    (hplace : g.path.place cwd = o.file.path.place cwd) (hfollow : r.Follows cwd g.path c t t')
    (hlog : t.node? log = none → t'.node? log = none)
    (hcopied : ∀ d p, a = .copy d → r.output = some p → r.newPath = none ∧ Receives cwd p c t t')
    {g' : FileInfo} (hnamed : g'.Named) (hg' : g'.path = r.newPath.getD g.path) :
    ({ o with file := g', steps := o.steps ++ [⟨rule, a, r⟩] } : Outcome).Tracked cwd log c t₀ t' := by
  have hs := h.steady.sound
  have hp := h.steady.plain
  have hst : t.Steady {o.file.path.place cwd} t' := hplace ▸ hfollow.steady
  have hfree : ∀ {p}, Receives cwd p c t t' → p.place cwd ∉ Taken log (o.origin.place cwd) t₀ := fun hr =>
    h.notMem_taken hfollow.steady.sound hfollow.steady.plain hlog hr
  have hkept : ∀ x ∈ o.steps ++ [⟨rule, a, r⟩], Step.action x ≠ .delete := by
    intro x hx
    rcases List.mem_append.1 hx with hx | hx
    · exact h.kept x hx
    · rwa [List.mem_singleton.1 hx]
  refine ⟨h.steady_next hst, ?_, ?_, hnamed, hkept⟩
  · rintro p (rfl | hcopy)
    · dsimp only
      rw [hg']
      cases hnew : r.newPath with
      | none =>
        exact ⟨(hfollow.stays hnew).read hs hp (Set.notMem_empty _) hfile, hplace ▸ (h.found _ (Or.inl rfl)).2⟩
      | some q => exact ⟨(hfollow.lands q hnew).1, hfree (hfollow.lands q hnew)⟩
    · -- The newest copy is the one made now, if one was made, else the one from before.
      rcases copy?_concat hcopy with hold | ⟨⟨d, hd⟩, hout⟩
      · exact h.copy_stays hst hold
      · have hr := (hcopied d p hd hout).2
        exact ⟨hr.1, hfree hr⟩
  · intro p hcopy
    dsimp only
    rw [hg']
    rcases copy?_concat hcopy with hold | ⟨⟨d, hd⟩, hout⟩
    · cases hnew : r.newPath with
      | none => exact hplace ▸ h.apart p hold
      | some q =>
        exact fun heq => node?_of_read hs hp (h.found p (Or.inr hold)).1 (heq ▸ (hfollow.lands q hnew).2)
    · obtain ⟨hnone, hr⟩ := hcopied d p hd hout
      rw [hnone]
      exact fun heq => node?_of_read hs hp hfile (heq ▸ hr.2)

end Tracked

section

variable (hcwd : ∀ n ∈ s.host.cwd, Proper n) (hdry : s.config.dryRun = false)

include hcwd hdry

lemma Tracked.runAction (rule : String) (hdel : a ≠ .delete) (hlaunch : ∀ p as n, a ≠ .runCommand p as n)
    (hst : (⟨.act (refresh s w o.file) a, w⟩ : Stage).Orderly s mode log)
    (h : o.Tracked s.host.cwd log c t₀ w.tree) :
    (o.runAction s rule a w).1.Tracked s.host.cwd log c t₀ (o.runAction s rule a w).2.tree := by
  have hs := h.steady.sound
  have hp := h.steady.plain
  have hread := refresh_read hcwd hs hp (h.found _ (Or.inl rfl)).1
  have hnamed := refresh_named (s := s) (w := w) h.named
  have hplace := (refresh_path hcwd w o.file).1
  have hfollow := Action.run_follows hs hp hread hdry hdel hlaunch hnamed.stem (hst.down _ _ rfl)
  have hlog : w.tree.node? log = none → (a.run s (refresh s w o.file) w).2.tree.node? log = none :=
    hst.log (by simp)
  have hcopied : ∀ d p, a = .copy d → (a.run s (refresh s w o.file) w).1.output = some p →
      (a.run s (refresh s w o.file) w).1.newPath = none ∧
        Receives s.host.cwd p c w.tree (a.run s (refresh s w o.file) w).2.tree := by
    rintro d p rfl hout
    exact Action.run_copy_receives hs hp hread hdry hout
  unfold Outcome.runAction
  dsimp only
  cases hnew : (a.run s (refresh s w o.file) w).1.newPath with
  | none => exact h.next rule hdel hread hplace hfollow hlog hcopied hnamed (by rw [hnew]; rfl)
  | some q =>
    dsimp only
    rw [if_neg (by simp [hdry])]
    exact h.next rule hdel hread hplace hfollow hlog hcopied (FileInfo.named_relocated _ _) (by rw [hnew]; rfl)

lemma Tracked.runRules {rules : List Rule} (hdel : ∀ r ∈ rules, .delete ∉ r.actions)
    (hlaunch : ∀ r ∈ rules, ∀ p as n, .runCommand p as n ∉ r.actions)
    (hst : ∀ st ∈ ruleStages s rules o w, st.Orderly s mode log) (h : o.Tracked s.host.cwd log c t₀ w.tree) :
    (Outcome.runRules s rules o w).1.Tracked s.host.cwd log c t₀ (Outcome.runRules s rules o w).2.tree := by
  refine runRules_keeps (I := fun o w => o.Tracked s.host.cwd log c t₀ w.tree) h ?_ ?_
  · exact fun r _ o w h => ⟨h.steady, h.found, h.apart, h.named, h.kept⟩
  · exact fun r hr a ha o w hmem h => h.runAction hcwd hdry r.name (fun heq => hdel r hr (heq ▸ ha))
      (fun p as n heq => hlaunch r hr p as n (heq ▸ ha)) (hst _ hmem)

end

lemma runRules_origin (rules : List Rule) (o : Outcome) (w : Workspace) :
    (runRules s rules o w).1.origin = o.origin := by
  refine runRules_keeps (I := fun o' _ => o'.origin = o.origin) rfl (fun _ _ _ _ h => h) fun r _ a _ o' w' _ h => ?_
  rw [← h]
  unfold runAction
  dsimp only
  split <;> rfl

lemma deleted_eq_false (h : ∀ x ∈ o.steps, x.action ≠ .delete) : o.deleted = false := by
  unfold deleted
  rw [List.any_eq_false]
  intro x hx
  simp [h x hx]

end Outcome

namespace Tree

variable {l : Place} {b : ByteArray}

lemma Sets.steady {at' : Attrs} (h : t.Sets t' l (some (.file b at'))) (hs : t.Sound) (hp : t.Plain)
    (hup : t.isDirAt l.dropLast = true) (hl : t.isDirAt l ≠ true) : t.Steady {l} t' :=
  ⟨h.sound_some hs hup (Or.inl hl), h.plain hp (by simp), fun _ => h.isDirAt hl,
    fun q hq b hb => (h.bytes? fun heq => hq heq.symm).trans hb⟩

end Tree

/-- A log is written into its file, if its directory can be made. -/
lemma UndoLog.save_cases {who : Actor} {l : UndoLog} {r : Except Fault Unit} {folder : Path} (hs : t.Sound) (hp : t.Plain)
    (hfolder : l.folder = folder) (h : l.save who t = (r, t')) :
    ∃ t₁, t₁.Sound ∧ t.AddsDirs t₁ ∧ (t' = t₁ ∨ ∃ b a, t₁.Sets t' ((file folder).place who.cwd) (some (.file b a)) ∧
      t₁.isDirAt ((file folder).place who.cwd).dropLast = true ∧ t₁.isDirAt ((file folder).place who.cwd) ≠ true) := by
  subst hfolder
  unfold save at h
  rw [run_bind] at h
  rcases hmk : makeDirs who l.folder t with ⟨rm, t₁⟩
  obtain ⟨hs₁, hadd⟩ := makeDirs_addsDirs hs hmk
  have hp₁ := hadd.plain hp
  refine ⟨t₁, hs₁, hadd, ?_⟩
  rw [hmk] at h
  cases rm with
  | error e =>
    cases h
    exact Or.inl rfl
  | ok a =>
    dsimp only [change] at h
    cases hw : writeFile who (file l.folder) l.toJson.pretty.toUTF8 t₁ with
    | error e =>
      rw [hw] at h
      cases h
      exact Or.inl rfl
    | ok t₂ =>
      rw [hw] at h
      cases h
      rcases writeFile_ok hs₁ hw with ⟨q, b, a, hstat, -, hset⟩ | ⟨q, hloc, -, hset⟩
      · obtain ⟨hat, hup⟩ := stat_ok hs₁ hstat
        obtain rfl := stat_place hp₁ hstat
        exact Or.inr ⟨_, _, hset, hup, not_isDirAt_of_file (at?_file.1 hat)⟩
      · obtain rfl : q = (file l.folder).place who.cwd := locate_place hp₁ hloc
        exact Or.inr ⟨_, _, hset, (locate_ok hs₁ hloc).2, not_isDirAt_of_none (node?_of_locate hs₁ hloc)⟩

lemma UndoLog.save_steady {who : Actor} {l : UndoLog} {r : Except Fault Unit} {folder : Path} (hs : t.Sound)
    (hp : t.Plain) (hfolder : l.folder = folder) (h : l.save who t = (r, t')) :
    t.Steady {(file folder).place who.cwd} t' := by
  obtain ⟨t₁, hs₁, hadd, rfl | ⟨b, a, hset, hup, hno⟩⟩ := save_cases hs hp hfolder h
  · exact hadd.adds.steady hp hs₁
  · exact (hadd.adds.steady hp hs₁).trans (hset.steady hs₁ (hadd.plain hp) hup hno)

/-- No other file is written. -/
lemma UndoLog.save_other {who : Actor} {l : UndoLog} {r : Except Fault Unit} {folder : Path} {q : Place} (hs : t.Sound)
    (hp : t.Plain) (hfolder : l.folder = folder) (h : l.save who t = (r, t')) (hq : q ≠ (file folder).place who.cwd) :
    t'.bytes? q = t.bytes? q := by
  obtain ⟨t₁, -, hadd, rfl | ⟨b, a, hset, -, -⟩⟩ := save_cases hs hp hfolder h
  · exact hadd.bytes? q
  · rw [hset.bytes? (Ne.symm hq), hadd.bytes? q]

namespace Batch

variable {folder : Path} {b : Batch}

lemma note_steady (hs : b.work.tree.Sound) (hp : b.work.tree.Plain) (hin : b.IsIn folder) (host : Host)
    (r : UndoRecord) : b.work.tree.Steady {(UndoLog.file folder).place host.cwd} (note host b r).work.tree := by
  cases hsession : b.session with
  | none =>
    unfold note
    rw [hsession]
    exact .refl hs hp
  | some session =>
    rw [note_eq host hsession]
    exact UndoLog.save_steady hs hp ((hin session hsession).add host r) rfl

lemma note_other {q : Place} (hs : b.work.tree.Sound) (hp : b.work.tree.Plain) (hin : b.IsIn folder) (host : Host)
    (r : UndoRecord) (hq : q ≠ (UndoLog.file folder).place host.cwd) :
    (note host b r).work.tree.bytes? q = b.work.tree.bytes? q := by
  cases hsession : b.session with
  | none =>
    unfold note
    rw [hsession]
  | some session =>
    rw [note_eq host hsession]
    exact UndoLog.save_other hs hp ((hin session hsession).add host r) rfl hq

lemma notes_steady (hs : b.work.tree.Sound) (hp : b.work.tree.Plain) (hin : b.IsIn folder) (host : Host)
    (rs : List UndoRecord) :
    b.work.tree.Steady {(UndoLog.file folder).place host.cwd} (rs.foldl (note host) b).work.tree := by
  induction rs generalizing b with
  | nil => exact .refl hs hp
  | cons r rs ih =>
    have hone := note_steady hs hp hin host r
    exact hone.trans (ih hone.sound hone.plain (hin.note host r))

lemma notes_other {q : Place} (hs : b.work.tree.Sound) (hp : b.work.tree.Plain) (hin : b.IsIn folder) (host : Host)
    (hq : q ≠ (UndoLog.file folder).place host.cwd) (rs : List UndoRecord) :
    (rs.foldl (note host) b).work.tree.bytes? q = b.work.tree.bytes? q := by
  induction rs generalizing b with
  | nil => rfl
  | cons r rs ih =>
    have hone := note_steady hs hp hin host r
    exact (ih hone.sound hone.plain (hin.note host r)).trans (note_other hs hp hin host r hq)

lemma notes_store (host : Host) (rs : List UndoRecord) (b : Batch) : (rs.foldl (note host) b).work.store = b.work.store := by
  induction rs generalizing b with
  | nil => rfl
  | cons r rs ih =>
    rw [List.foldl_cons, ih]
    unfold note
    split <;> rfl

end Batch

end FileOrganizer
