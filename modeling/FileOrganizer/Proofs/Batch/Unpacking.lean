import FileOrganizer.Proofs.Batch.Claims
import FileOrganizer.Proofs.Tree.Shift

/-! Unpacking tells of just the files that it makes, in the order in which it makes them, however it ends. -/

namespace FileOrganizer

open FileOrganizer.Tree FileOrganizer.Disk

variable {host : Host} {who : Actor} {cwd l q : Place} {t t₁ t' : Tree} {p dir : Path} {ps qs : List Path} {m : Member}
  {ms : List Member} {r : Except Fault Unit}

namespace Tree

/-- What is new is the files at these paths, each at a place of its own, and directories. -/
structure Gains (cwd : Place) (ps : List Path) (t t' : Tree) : Prop where
  apart : (ps.map (·.place cwd)).Nodup
  files : ∀ q, q ∈ ps.map (·.place cwd) ↔ t.bytes? q = none ∧ t'.bytes? q ≠ none
  adds : t.Adds t'

namespace Gains

lemma of_addsDirs (h : t.AddsDirs t') : Gains cwd [] t t' where
  apart := List.nodup_nil
  files q := by simp [h.bytes?]
  adds := h.adds

lemma of_file {b : ByteArray} {a : Attrs} (hadd : t.AddsDirs t₁) (hnone : t₁.node? (p.place cwd) = none)
    (hset : t₁.Sets t' (p.place cwd) (some (.file b a))) : Gains cwd [p] t t' where
  apart := List.nodup_singleton _
  files q := by
    rw [List.map_singleton, List.mem_singleton, ← hadd.bytes?]
    constructor
    · rintro rfl
      exact ⟨by simp [Tree.bytes?, hnone], by simp [Tree.bytes?, hset.same]⟩
    · rintro ⟨hq, hq'⟩
      by_contra hne
      exact hq' ((hset.bytes? (Ne.symm hne)).trans hq)
  adds := hadd.adds.trans (.of_sets hset hnone)

lemma trans (h : Gains cwd ps t t₁) (h' : Gains cwd qs t₁ t') : Gains cwd (ps ++ qs) t t' where
  apart := by
    rw [List.map_append, List.nodup_append]
    refine ⟨h.apart, h'.apart, fun q hq q' hq' heq => ?_⟩
    subst heq
    exact ((h.files q).1 hq).2 ((h'.files q).1 hq').1
  files q := by
    rw [List.map_append, List.mem_append, h.files, h'.files]
    constructor
    · rintro (⟨hq, hq'⟩ | ⟨hq, hq'⟩)
      · obtain ⟨b, hb⟩ := Option.ne_none_iff_exists'.1 hq'
        exact ⟨hq, by simp [h'.adds.keeps q b hb]⟩
      · exact ⟨h.adds.keeps.bytes?_eq_none hq, hq'⟩
    · rintro ⟨hq, hq'⟩
      by_cases hq₁ : t₁.bytes? q = none
      · exact Or.inr ⟨hq₁, hq'⟩
      · exact Or.inl ⟨hq, hq₁⟩
  adds := h.adds.trans h'.adds

end Gains

end Tree

namespace Archive

section

variable (n : ℕ) (cs : List Part)

@[simp] lemma depth?_nil : depth? n [] = some n := by cases n <;> rfl

@[simp] lemma depth?_root : depth? n (.root :: cs) = none := by cases n <;> rfl

@[simp] lemma depth?_here : depth? n (.here :: cs) = depth? n cs := by cases n <;> rfl

@[simp] lemma depth?_name (x : String) : depth? n (.name x :: cs) = depth? (n + 1) cs := by cases n <;> rfl

@[simp] lemma depth?_up_zero : depth? 0 (.up :: cs) = none := rfl

@[simp] lemma depth?_up_succ : depth? (n + 1) (.up :: cs) = depth? n cs := rfl

end

/-- What is never above the start leads to a place at or below it, as far down as its depth. -/
lemma reduce_depth (base : Place) {cs : List Part} {n k : ℕ} (h : depth? n cs = some k) (xs : Place)
    (hxs : xs.length = n) : ∃ ys, ys.length = k ∧ Path.reduce (xs ++ base) cs = ys ++ base := by
  induction cs generalizing n xs with
  | nil => exact ⟨xs, by simpa [hxs] using h, rfl⟩
  | cons c cs ih =>
    cases c with
    | root => simp at h
    | here => exact ih (by simpa using h) xs hxs
    | name x => exact ih (by simpa using h) (x :: xs) (by simp [hxs])
    | up =>
      subst hxs
      cases xs with
      | nil => simp at h
      | cons x xs => exact ih (by simpa using h) xs rfl

/-- What is never above the start is not in between. -/
lemma depth?_prefix {cs ds : List Part} {n k : ℕ} (h : depth? n cs = some k) (hds : ds <+: cs) :
    ∃ k', depth? n ds = some k' := by
  induction cs generalizing n ds with
  | nil => exact ⟨n, by simp [List.prefix_nil.1 hds]⟩
  | cons c cs ih =>
    rcases ds with _ | ⟨d, ds⟩
    · exact ⟨n, by simp⟩
    · obtain ⟨rfl, hrest⟩ := List.cons_prefix_cons.1 hds
      cases d with
      | root => simp at h
      | here => simpa using ih (by simpa using h) hrest
      | name x => simpa using ih (by simpa using h) hrest
      | up =>
        cases n with
        | zero => simp at h
        | succ n => simpa using ih (by simpa using h) hrest

/-- The way to a member is relative, and none of its parts leads above its start. -/
lemma depth?_inside (h : inside? m = some p) : p.isAbsolute = false ∧ ∃ k, depth? 0 p.body = some k := by
  unfold inside? at h
  dsimp only at h
  split at h
  · cases h
  · obtain ⟨k, hk, rfl⟩ := Option.map_eq_some_iff.1 h
    cases ha : (⟨m.name⟩ : Path).isAbsolute with
    | true =>
      rw [Path.parts_of_absolute ha] at hk
      cases hk
    | false =>
      rcases Path.parts_of_relative ha with hparts | hparts <;> rw [hparts] at hk <;> exact ⟨rfl, k, hk⟩

/-- The way to a member does not leave the directory that the archive is unpacked in. -/
lemma place_inside (h : inside? m = some p) : dir.place cwd <+: (dir.join p).place cwd := by
  obtain ⟨ha, k, hk⟩ := depth?_inside h
  obtain ⟨ys, -, hys⟩ := reduce_depth (dir.place cwd).reverse hk [] List.length_nil
  rw [Path.place_join ha, ← List.nil_append (dir.place cwd).reverse, hys]
  simp

end Archive

namespace Archive

/-- The place is below that of the directory. -/
def Under (cwd : Place) (dir p : Path) : Prop := dir.place cwd <+: p.place cwd ∧ dir.place cwd ≠ p.place cwd

section

variable (hp : t.Plain)

include hp

/-- Where a file was made is below a directory that is there, if the way to it does not leave that. -/
lemma Makes.gains {b : ByteArray} (hin : inside? m = some p) (hdir : dir.text = "" ∨ t.isDirAt (dir.place host.cwd) = true)
    (h : Makes host (dir.join p) b t t') :
    Gains host.cwd [dir.join p] t t' ∧ Under host.cwd dir (dir.join p) := by
  obtain ⟨t₁, l, hs₁, hadd, -, hloc, hset⟩ := h
  have hp₁ := hadd.plain hp
  have hnone := node?_of_locate hs₁ hloc
  obtain rfl : l = (dir.join p).place host.cwd := locate_place hp₁ hloc
  refine ⟨.of_file hadd hnone hset, place_inside hin, fun heq => ?_⟩
  have hthere : t₁.isDirAt (dir.place host.cwd) = true := by
    rcases hdir with htext | hdir
    · -- An empty path stands for the working directory, from which the way to the member was found.
      obtain ⟨-, hstart, -⟩ := (locate_eq_ok hp₁).1 hloc
      obtain ⟨text⟩ := dir
      subst htext
      have hjoin : (⟨""⟩ : Path).join p = p := by simp [Path.join, (depth?_inside hin).1]
      rw [hjoin, start, (depth?_inside hin).1] at hstart
      exact hstart
    · exact hadd.isDirAt hdir
  rw [heq] at hthere
  exact not_isDirAt_of_none hnone hthere

lemma extractMember_gains (hs : t.Sound) (hdir : dir.text = "" ∨ t.isDirAt (dir.place host.cwd) = true)
    (h : extractMember host dir m t = ((r, ps), t')) :
    t'.Sound ∧ Gains host.cwd ps t t' ∧ ∀ p ∈ ps, Under host.cwd dir p := by
  obtain ⟨hs', -, ⟨rfl, hadd, -⟩ | ⟨p, b, hin, -, rfl, hmakes, -⟩⟩ := extractMember_cases hs h
  · exact ⟨hs', .of_addsDirs hadd, by simp⟩
  · obtain ⟨hgains, hunder⟩ := hmakes.gains hp hin hdir
    exact ⟨hs', hgains, List.forall_mem_singleton.2 hunder⟩

lemma extractAll_gains (hs : t.Sound) (hdir : dir.text = "" ∨ t.isDirAt (dir.place host.cwd) = true)
    (h : extractAll host dir ms t = ((r, ps), t')) :
    t'.Sound ∧ Gains host.cwd ps t t' ∧ ∀ p ∈ ps, Under host.cwd dir p := by
  induction ms generalizing t r ps t' with
  | nil =>
    cases h
    exact ⟨hs, .of_addsDirs (.refl t), by simp⟩
  | cons m ms ih =>
    rw [extractAll] at h
    split at h
    · next hm =>
      cases h
      exact extractMember_gains hp hs hdir hm
    · next made t₁ hm =>
      obtain ⟨hs₁, hgains, hunder⟩ := extractMember_gains hp hs hdir hm
      rcases hrest : extractAll host dir ms t₁ with ⟨⟨r', more⟩, t₂⟩
      rw [hrest] at h
      cases h
      obtain ⟨hs', hgains', hunder'⟩ := ih (hgains.adds.plain hp) hs₁ (hdir.imp_right hgains.adds.isDirAt) hrest
      exact ⟨hs', hgains.trans hgains', fun p hp => (List.mem_append.1 hp).elim (hunder p) (hunder' p)⟩

end

lemma isDirAt_of_makeDirs (hs : t.Sound) (hp : t.Plain) (h : makeDirs who p t = (.ok (), t')) :
    p.text = "" ∨ t'.isDirAt (p.place who.cwd) = true :=
  or_iff_not_imp_left.2 fun htext => isDirAt_of_makeDirsFrom hs hp htext h

/-- What the first members give comes first. -/
lemma extractAll_take (k : ℕ) : (extractAll host dir (ms.take k) t).1.2 <+: (extractAll host dir ms t).1.2 := by
  induction ms generalizing k t with
  | nil => simp
  | cons m ms ih =>
    cases k with
    | zero => exact List.nil_prefix
    | succ k =>
      rw [List.take_succ_cons, extractAll, extractAll]
      split
      · exact List.prefix_rfl
      · exact (List.prefix_append_right_inj _).2 (ih k)

lemma extract_gains (hs : t.Sound) (hp : t.Plain) {archive : Path} (h : extract host archive dir t = ((r, ps), t')) :
    t'.Sound ∧ Gains host.cwd ps t t' ∧ ∀ p ∈ ps, Under host.cwd dir p := by
  unfold extract at h
  split at h
  · cases h
    exact ⟨hs, .of_addsDirs (.refl t), by simp⟩
  · split at h
    · next hmk =>
      cases h
      obtain ⟨hs', hadd⟩ := makeDirs_addsDirs hs hmk
      exact ⟨hs', .of_addsDirs hadd, by simp⟩
    · next hmk =>
      obtain ⟨hs₁, hadd⟩ := makeDirs_addsDirs hs hmk
      obtain ⟨hs', hgains, hunder⟩ := extractAll_gains (hadd.plain hp) hs₁ (isDirAt_of_makeDirs hs hp hmk) h
      exact ⟨hs', (Gains.of_addsDirs hadd).trans hgains, hunder⟩

end Archive

namespace Action

variable {s : Setting} {f : FileInfo} {w : Workspace}

/-- The directory that is claimed for what is in an archive. -/
def unpacksInto (s : Setting) (f : FileInfo) (w : Workspace) (destination : Option String) : Path :=
  (w.claim s.host.cwd (extractTo s f destination).1 (extractTo s f destination).2).1.path

lemma run_extract (hdry : s.config.dryRun = false) (destination : Option String) :
    ((∃ e, (extract destination).judge s w f = .error e) ∧ ((extract destination).run s f w).1.records = [] ∧
        ((extract destination).run s f w).2.tree = w.tree) ∨
      ∃ r ps t', Archive.extract s.host f.path (unpacksInto s f w destination) w.tree = ((r, ps), t') ∧
        (((extract destination).run s f w).1.status = .applied → r = .ok ()) ∧
        ((extract destination).run s f w).1.records = ps.map (Task.record s f · .copy) ∧
        ((extract destination).run s f w).2.tree = t' := by
  unfold run
  cases hj : (extract destination).judge s w f with
  | error e => exact Or.inl ⟨⟨e, rfl⟩, (judge_barren hj).idle.1, rfl⟩
  | ok task =>
    obtain ⟨rfl, -⟩ := judgeExtract_ok (by rwa [judge] at hj)
    refine Or.inr ?_
    dsimp only
    rw [if_neg (by simp [hdry]), Task.perform_tree]
    unfold Task.perform Task.treeAfter unpacksInto
    dsimp only
    rw [Workspace.claim_tree]
    rcases Archive.extract s.host f.path _ w.tree with ⟨⟨e | _, ps⟩, t'⟩
    · exact ⟨_, ps, t', rfl, fun happ => (by cases happ), rfl, rfl⟩
    · exact ⟨_, ps, t', rfl, fun _ => rfl, rfl, rfl⟩

/-- However unpacking ends, the targets that it takes down are the files that it has made, each once, all of them
below the directory that was claimed, and what was there stays. They stand in the order in which they were made: what
is new after so many members is the first of them. -/
theorem run_extract_records (hs : w.tree.Sound) (hp : w.tree.Plain) (hdry : s.config.dryRun = false)
    (destination : Option String) :
    Gains s.host.cwd (((extract destination).run s f w).1.records.map (·.target)) w.tree
        ((extract destination).run s f w).2.tree ∧
      (∀ r ∈ ((extract destination).run s f w).1.records,
        Archive.Under s.host.cwd (unpacksInto s f w destination) r.target) ∧
      ∀ task ms t₁, (extract destination).judge s w f = .ok task → Archive.members s.host w.tree f.path = .ok ms →
        makeDirs s.host.toActor (unpacksInto s f w destination) w.tree = (.ok (), t₁) → ∀ k,
          (Archive.extractAll s.host (unpacksInto s f w destination) (ms.take k) t₁).1.2 <+:
              ((extract destination).run s f w).1.records.map (·.target) ∧
            Gains s.host.cwd (Archive.extractAll s.host (unpacksInto s f w destination) (ms.take k) t₁).1.2 w.tree
              (Archive.extractAll s.host (unpacksInto s f w destination) (ms.take k) t₁).2 := by
  rcases run_extract hdry destination with ⟨⟨e, he⟩, hrecords, htree⟩ | ⟨r, ps, t', hextract, -, hrecords, htree⟩
  · rw [hrecords, htree]
    refine ⟨.of_addsDirs (.refl _), by simp, fun task ms t₁ hj => ?_⟩
    rw [he] at hj
    cases hj
  · have htargets : ((extract destination).run s f w).1.records.map (·.target) = ps := by
      rw [hrecords, List.map_map]
      exact List.map_id ps
    obtain ⟨-, hgains, hunder⟩ := Archive.extract_gains hs hp hextract
    rw [htargets, htree]
    refine ⟨hgains, ?_, fun task ms t₁ _ hmembers hmake k => ?_⟩
    · rw [hrecords]
      exact List.forall_mem_map.2 hunder
    · obtain ⟨hs₁, hadd⟩ := makeDirs_addsDirs hs hmake
      have hps : (Archive.extractAll s.host (unpacksInto s f w destination) ms t₁).1.2 = ps := by
        unfold Archive.extract at hextract
        rw [hmembers] at hextract
        dsimp only at hextract
        rw [hmake] at hextract
        dsimp only at hextract
        rw [hextract]
      refine ⟨hps ▸ Archive.extractAll_take k, (Gains.of_addsDirs hadd).trans ?_⟩
      exact (Archive.extractAll_gains (hadd.plain hp) hs₁ (Archive.isDirAt_of_makeDirs hs hp hmake) rfl).2.1

/-- Every archive has a file, one with a name that leads out, one that would have to be in the first, and another. -/
def crooked : Setting where
  host := { Job.plainHost with
    unpack := fun _ => some [⟨"x/../a", 1, .intact ⟨#[1]⟩⟩, ⟨"../b", 1, .intact ⟨#[2]⟩⟩, ⟨"a/c", 1, .intact ⟨#[3]⟩⟩,
      ⟨"d", 1, .intact ⟨#[4]⟩⟩] }
  root := ⟨"/r"⟩
  trash := ⟨"/trash"⟩
  config := {}

/-- Unpacking stops at the third member, and the first one is new. -/
theorem run_extract_records_stopped :
    ((extract none).run crooked (Job.found "/r/a.zip") ⟨Job.twoFiles, .empty, [], .empty⟩).1.status = .failed ∧
      ∀ q, q = ["r", "a", "a"] ↔ Job.twoFiles.bytes? q = none ∧
        ((extract none).run crooked (Job.found "/r/a.zip") ⟨Job.twoFiles, .empty, [], .empty⟩).2.tree.bytes? q ≠ none := by
  refine ⟨by decide +kernel, fun q => ?_⟩
  have htargets : (((extract none).run crooked (Job.found "/r/a.zip") ⟨Job.twoFiles, .empty, [], .empty⟩).1.records.map
      (·.target)).map (·.place crooked.host.cwd) = [["r", "a", "a"]] := by decide +kernel
  rw [← (run_extract_records (s := crooked) (f := Job.found "/r/a.zip") (w := ⟨Job.twoFiles, .empty, [], .empty⟩)
    Job.sound_twoFiles (plain_of_entries (by decide)) rfl none).1.files, htargets, List.mem_singleton]

end Action

end FileOrganizer
