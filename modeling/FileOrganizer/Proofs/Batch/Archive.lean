import FileOrganizer.Batch.Archive
import FileOrganizer.Proofs.Tree.Steady

/-! Writing and unpacking archives: what comes into being, and what the clean-up takes away. -/

namespace FileOrganizer.Archive

open FileOrganizer.Tree FileOrganizer.Disk

variable {host : Host} {t t' : Tree} {source target dir : Path} {name : String} {r : Except Fault Unit}

/-- What `write` has done to the tree: the directories above the target are made, and then either
nothing or the archive, whole or not. -/
lemma write_cases (hs : t.Sound) (h : write host source name target t = (r, t')) :
    t'.Sound ∧ ∃ t₁, t₁ = (makeParents host.toActor target t).2 ∧ t₁.Sound ∧ t.AddsDirs t₁ ∧
      ((∃ e, r = .error e) ∧ t' = t₁ ∨
        ∃ l x, target.endsInSlash ≠ true ∧ t₁.locate host.cwd false target = .ok ⟨l, none⟩ ∧
          t₁.isLocked l.dropLast ≠ true ∧ t₁.Sets t' l (some x) ∧ ∃ b a, x = .file b a) := by
  unfold write at h
  rw [run_bind] at h
  rcases hmk : makeParents host.toActor target t with ⟨rm, t₁⟩
  obtain ⟨hs₁, hadd⟩ := makeParents_addsDirs hs hmk
  rw [hmk] at h
  cases rm with
  | error e =>
    cases h
    exact ⟨hs₁, _, rfl, hs₁, hadd, Or.inl ⟨⟨e, rfl⟩, rfl⟩⟩
  | ok a =>
    dsimp only at h
    rw [run_bind, change] at h
    cases hcr : Tree.createFile host.toActor target .empty t₁ with
    | error e =>
      rw [hcr] at h
      cases h
      exact ⟨hs₁, _, rfl, hs₁, hadd, Or.inl ⟨⟨_, rfl⟩, rfl⟩⟩
    | ok t₂ =>
      rw [hcr] at h
      dsimp only at h
      obtain ⟨l, hslash, hl, hk, ht⟩ := createFile_ok hs₁ hcr
      have hs₂ := sound_of_createFile hs₁ hcr
      rw [run_bind, ask] at h
      cases hrd : t₂.read host.cwd source with
      | error e =>
        rw [hrd] at h
        cases h
        exact ⟨hs₂, t₁, rfl, hs₁, hadd, Or.inr ⟨l, _, hslash, hl, hk, ht, _, _, rfl⟩⟩
      | ok bytes =>
        rw [hrd] at h
        dsimp only [change] at h
        cases hw : Tree.writeFile host.toActor target (host.pack name bytes) t₂ with
        | error e =>
          rw [hw] at h
          cases h
          exact ⟨hs₂, t₁, rfl, hs₁, hadd, Or.inr ⟨l, _, hslash, hl, hk, ht, _, _, rfl⟩⟩
        | ok t₃ =>
          rw [hw] at h
          cases h
          have hst : t₂.stat host.cwd target = .ok (l, .file .empty ⟨host.now, false⟩) := stat_of_made hs₁ hl ht
          rcases writeFile_ok hs₂ hw with ⟨l', b₀, a₀, hl', -, ht'⟩ | ⟨l', hl', -, -⟩
          · obtain rfl : l' = l := by
              rw [show host.toActor.cwd = host.cwd from rfl, hst] at hl'
              cases hl'
              rfl
            exact ⟨sound_of_writeFile hs₂ hw, t₁, rfl, hs₁, hadd,
              Or.inr ⟨l', _, hslash, hl, hk, ht.again ht', _, _, rfl⟩⟩
          · rw [show host.toActor.cwd = host.cwd from rfl, stat_eq_ok.1 hst] at hl'
            cases hl'

/-- Where an archive is to go there is no file, by the time the directories above it are made, unless it
is one that cannot be removed. -/
def Clear (host : Host) (t : Tree) (target : Path) : Prop :=
  ∀ l b a, (makeParents host.toActor target t).2.locate host.cwd false target = .ok ⟨l, some (.file b a)⟩ →
    (makeParents host.toActor target t).2.isLocked l.dropLast = true

lemma adds_of_write (hs : t.Sound) (h : write host source name target t = (r, t')) : t.Adds t' := by
  obtain ⟨-, t₁, -, hs₁, hadd, ⟨-, rfl⟩ | ⟨l, x, -, hl, -, ht, b, a, rfl⟩⟩ := write_cases hs h
  · exact hadd.adds
  · exact hadd.adds.trans (.of_sets ht (node?_of_locate hs₁ hl))

lemma keeps_of_write (hs : t.Sound) (h : write host source name target t = (r, t')) : t.Keeps t' :=
  (adds_of_write hs h).keeps

/-- The clean-up after a failure takes away what was made, as long as no file was in its place. -/
lemma keeps_of_cleanUp (hs : t.Sound) (hc : Clear host t target) {t'' : Tree}
    (h : write host source name target t = (r, t')) (hrem : removeFile host.toActor target t' = .ok t'') :
    t.Keeps t'' := by
  obtain ⟨d, n, x, hp, hslash, hx, -, hlock, ht'⟩ := removeFile_ok hrem
  obtain ⟨hs', t₁, rfl, hs₁, hadd, ⟨-, rfl⟩ | ⟨l, y, -, hl, -, ht, b, a, rfl⟩⟩ := write_cases hs h
  · have hnone : (makeParents host.toActor target t).2.bytes? (d ++ [n]) = none := by
      rw [bytes?_eq_none]
      intro b a hf
      have hloc := locate_of_parentOf hp hslash (fun (h : false = true) => by cases h)
      rw [at?_file.2 hf] at hloc
      have hlocked := hc _ _ _ hloc
      rw [List.dropLast_concat] at hlocked
      exact hlock hlocked
    exact hadd.keeps.trans (ht'.keeps hnone)
  · have hnone := node?_of_locate hs₁ hl
    intro q c hq
    have hq₁ := hadd.keeps q c hq
    have hlq : l ≠ q := by
      rintro rfl
      simp [Tree.bytes?, hnone] at hq₁
    -- What is removed is the archive that was begun.
    have hplace : d ++ [n] = l := by
      have hloc := locate_of_parentOf hp hslash (fun (h : false = true) => by cases h)
      have hmade := locate_of_made hs₁ hl ht (fun h => h)
      exact (locate_inj hloc hmade).1
    rw [hplace] at ht'
    rwa [bytes?_congr ((ht'.other hlq).trans (ht.other hlq))]

lemma cleanUp_keeps (hs : t.Sound) (hc : Clear host t target) (h : write host source name target t = (r, t')) :
    (change (removeFile host.toActor target) t').2.Sound ∧
      t.Keeps (change (removeFile host.toActor target) t').2 := by
  have hs' := (write_cases hs h).1
  unfold change
  cases hrem : removeFile host.toActor target t' with
  | error e => exact ⟨hs', keeps_of_write hs h⟩
  | ok t'' => exact ⟨sound_of_removeFile hs' hrem, keeps_of_cleanUp hs hc h hrem⟩

/-- Where there are no links, nothing but directories and the archive is new, and the clean-up takes away nothing else. -/
lemma cleanUp_adds (hs : t.Sound) (hp : t.Plain) (hc : Clear host t target)
    (h : write host source name target t = (r, t')) : t.Adds (change (removeFile host.toActor target) t').2 := by
  unfold change
  cases hrem : removeFile host.toActor target t' with
  | error e => exact adds_of_write hs h
  | ok t'' =>
    obtain ⟨d, n, x, hpar, hslash, hx, hdir, hlock, ht'⟩ := removeFile_ok hrem
    obtain ⟨hs', t₁, rfl, hs₁, hadd, ⟨-, rfl⟩ | ⟨l, y, -, hl, -, ht, b, a, rfl⟩⟩ := write_cases hs h
    · have hloc := locate_of_parentOf hpar hslash (fun (h : false = true) => by cases h)
      cases x with
      | file b a =>
        rw [at?_file.2 hx] at hloc
        have hlocked := hc _ _ _ hloc
        rw [List.dropLast_concat] at hlocked
        exact absurd hlocked hlock
      | dir k => exact absurd rfl (hdir k)
      | link s => exact absurd hx (hadd.plain hp _ s)
    · have hnone := node?_of_locate hs₁ hl
      have hplace : d ++ [n] = l := by
        have hloc := locate_of_parentOf hpar hslash (fun (h : false = true) => by cases h)
        exact (locate_inj hloc (locate_of_made hs₁ hl ht (fun h => h))).1
      rw [hplace] at ht'
      refine hadd.adds.trans fun q => Or.inl ?_
      by_cases hq : l = q
      · subst hq
        exact ht'.same.trans hnone.symm
      · exact (ht'.other hq).trans (ht.other hq)

/-- Without this, the clean-up takes away one file that stood there before, and nothing comes in its place. -/
theorem cleanUp_loses (hs : t.Sound) (hslash : target.endsInSlash ≠ true) (hc : ¬Clear host t target) :
    ∃ l, t.bytes? l ≠ none ∧ (∃ e, (write host source name target t).1 = .error e) ∧
      ∀ q, (change (removeFile host.toActor target) (write host source name target t).2).2.bytes? q =
        if l = q then none else t.bytes? q := by
  unfold Clear at hc
  push Not at hc
  obtain ⟨l, b, a, hloc, hlock⟩ := hc
  rcases hmk : makeParents host.toActor target t with ⟨rm, t₁⟩
  obtain ⟨hs₁, hadd⟩ := makeParents_addsDirs hs hmk
  rw [hmk] at hloc hlock
  have hfile : t₁.node? l = some (.file b a) := at?_file.1 (locate_ok hs₁ hloc).1.symm
  have hwrite : (∃ e, (write host source name target t).1 = .error e) ∧
      (write host source name target t).2 = t₁ := by
    unfold write
    rw [run_bind, hmk]
    cases rm with
    | error e => exact ⟨⟨e, rfl⟩, rfl⟩
    | ok x =>
      have hcr : Tree.createFile host.toActor target .empty t₁ = .error .occupied := by
        unfold Tree.createFile
        rw [if_neg hslash, hloc]
      dsimp only
      rw [run_bind]
      unfold change
      rw [hcr]
      exact ⟨⟨_, rfl⟩, rfl⟩
  have hrem : ∃ t₂, removeFile host.toActor target t₁ = .ok t₂ ∧ t₁.Sets t₂ l none := by
    obtain ⟨d, n, hp, rfl⟩ := parentOf_of_locate hs₁ hslash hloc (by simp)
    rw [List.dropLast_concat] at hlock
    exact removeFile_eq_ok hp hslash hfile (by simp) hlock
  obtain ⟨t₂, ht₂, hsets⟩ := hrem
  refine ⟨l, ?_, hwrite.1, fun q => ?_⟩
  · rw [← hadd.bytes?, bytes?_eq_some.2 ⟨a, hfile⟩]
    simp
  · rw [hwrite.2]
    unfold change
    rw [ht₂]
    dsimp only
    split
    · next hq =>
      subst hq
      rw [bytes?_eq_none, hsets.same]
      simp
    · next hq => rw [bytes?_congr (hsets.other hq), hadd.bytes?]

variable {x : Except Fault Unit × List Path}

/-- A file was made at a path where nothing was, when the directories above it were made. -/
def Makes (host : Host) (path : Path) (b : ByteArray) (t t' : Tree) : Prop :=
  ∃ t₁ l, t₁.Sound ∧ t.AddsDirs t₁ ∧ path.endsInSlash ≠ true ∧ t₁.locate host.cwd false path = .ok ⟨l, none⟩ ∧
    t₁.Sets t' l (some (.file b ⟨host.now, false⟩))

lemma Makes.adds {path : Path} {b : ByteArray} (h : Makes host path b t t') : t.Adds t' := by
  obtain ⟨t₁, l, hs₁, hadd, -, hl, hset⟩ := h
  exact hadd.adds.trans (.of_sets hset (node?_of_locate hs₁ hl))

lemma makeNew_cases (hs : t.Sound) {path : Path} {bytes : ByteArray}
    (h : (makeParents host.toActor path >>= fun _ =>
      change (Tree.createFile host.toActor path bytes)) t = (r, t')) :
    t'.Sound ∧ ((∃ e, r = .error e) ∧ t.AddsDirs t' ∨ r = .ok () ∧ Makes host path bytes t t') := by
  rw [run_bind] at h
  rcases hmk : makeParents host.toActor path t with ⟨rm, t₁⟩
  obtain ⟨hs₁, hadd⟩ := makeParents_addsDirs hs hmk
  rw [hmk] at h
  cases rm with
  | error e =>
    cases h
    exact ⟨hs₁, Or.inl ⟨⟨e, rfl⟩, hadd⟩⟩
  | ok a =>
    dsimp only [change] at h
    cases hcr : Tree.createFile host.toActor path bytes t₁ with
    | error e =>
      rw [hcr] at h
      cases h
      exact ⟨hs₁, Or.inl ⟨⟨_, rfl⟩, hadd⟩⟩
    | ok t₂ =>
      rw [hcr] at h
      cases h
      obtain ⟨l, hslash, hl, -, ht⟩ := createFile_ok hs₁ hcr
      exact ⟨sound_of_createFile hs₁ hcr, Or.inr ⟨rfl, t₁, l, hs₁, hadd, hslash, hl, ht⟩⟩

lemma isReadable_of_ne {m : Member} (h : m.content = .unreadable → False) : isReadable m = true := by
  unfold isReadable
  split
  · next hc => exact (h hc).elim
  · rfl

/-- A member gives one file or none. There is none where its name is unsafe, or it is a directory, or something
stops the work before the file is made. -/
lemma extractMember_cases (hs : t.Sound) {m : Member} {made : List Path}
    (h : extractMember host dir m t = ((r, made), t')) :
    t'.Sound ∧ (r = .ok () → isReadable m = true) ∧ (made = [] ∧ t.AddsDirs t' ∧
        (r = .ok () → inside? m = none ∨
          ∃ p, inside? m = some p ∧ isDir m = true ∧ makeDirs host.toActor (dir.join p) t = (r, t')) ∨
      ∃ p b, inside? m = some p ∧ isDir m = false ∧ made = [dir.join p] ∧ Makes host (dir.join p) b t t' ∧
        (r = .ok () → m.content = .intact b)) := by
  unfold extractMember at h
  split at h
  · cases h
    exact ⟨hs, fun hr => (by cases hr), Or.inl ⟨rfl, .refl _, fun hr => by cases hr⟩⟩
  · next hin hopen =>
    cases h
    exact ⟨hs, fun _ => isReadable_of_ne hopen, Or.inl ⟨rfl, .refl _, fun _ => Or.inl hin⟩⟩
  · next p hin hopen =>
    dsimp only at h
    split at h
    · next hdir =>
      rcases hmk : makeDirs host.toActor (dir.join p) t with ⟨rm, t₁⟩
      rw [hmk] at h
      cases h
      obtain ⟨hs₁, hadd⟩ := makeDirs_addsDirs hs hmk
      exact ⟨hs₁, fun _ => isReadable_of_ne hopen, Or.inl ⟨rfl, hadd, fun _ => Or.inr ⟨p, hin, hdir, hmk⟩⟩⟩
    · next hfile =>
      split at h
      · next hmk =>
        cases h
        obtain ⟨hs', ⟨-, hadd⟩ | ⟨hr, -⟩⟩ := makeNew_cases hs hmk
        · exact ⟨hs', fun hr => (by cases hr), Or.inl ⟨rfl, hadd, fun hr => by cases hr⟩⟩
        · cases hr
      · next hmk =>
        cases h
        obtain ⟨hs', ⟨⟨e, he⟩, -⟩ | ⟨-, hmakes⟩⟩ := makeNew_cases hs hmk
        · cases he
        · refine ⟨hs', fun _ => isReadable_of_ne hopen,
            Or.inr ⟨p, _, hin, by simpa using hfile, rfl, hmakes, fun hr => ?_⟩⟩
          cases hc : m.content <;> rw [hc] at hr <;> first | rfl | cases hr

lemma extractMember_adds (hs : t.Sound) {m : Member} (h : extractMember host dir m t = (x, t')) :
    t'.Sound ∧ t.Adds t' := by
  obtain ⟨hs', -, ⟨-, hadd, -⟩ | ⟨p, b, -, -, -, hmakes, -⟩⟩ := extractMember_cases hs h
  · exact ⟨hs', hadd.adds⟩
  · exact ⟨hs', hmakes.adds⟩

lemma extractAll_adds (hs : t.Sound) {ms : List Member} (h : extractAll host dir ms t = (x, t')) :
    t'.Sound ∧ t.Adds t' := by
  induction ms generalizing t x with
  | nil =>
    cases h
    exact ⟨hs, .refl _⟩
  | cons m ms ih =>
    rw [extractAll] at h
    split at h
    · next hm =>
      cases h
      exact extractMember_adds hs hm
    · next made t₁ hm =>
      obtain ⟨hs₁, hk⟩ := extractMember_adds hs hm
      rcases hrest : extractAll host dir ms t₁ with ⟨y, t₂⟩
      rw [hrest] at h
      cases h
      obtain ⟨hs₂, hk'⟩ := ih hs₁ hrest
      exact ⟨hs₂, hk.trans hk'⟩

/-- Unpacking adds directories and files, and changes nothing that was there. -/
lemma extract_adds (hs : t.Sound) {archive : Path} (h : extract host archive dir t = (x, t')) :
    t'.Sound ∧ t.Adds t' := by
  unfold extract at h
  split at h
  · cases h
    exact ⟨hs, .refl _⟩
  · split at h
    · next hmk =>
      cases h
      obtain ⟨hs₁, hadd⟩ := makeDirs_addsDirs hs hmk
      exact ⟨hs₁, hadd.adds⟩
    · next ms t₁ hmk =>
      obtain ⟨hs₁, hadd⟩ := makeDirs_addsDirs hs hmk
      obtain ⟨hs₂, hk⟩ := extractAll_adds hs₁ h
      exact ⟨hs₂, hadd.adds.trans hk⟩

end FileOrganizer.Archive
