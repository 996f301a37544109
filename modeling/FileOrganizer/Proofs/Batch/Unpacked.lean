import FileOrganizer.Proofs.Batch.Unpacking
import FileOrganizer.Proofs.Bytes.Zip
import FileOrganizer.Proofs.Tree.Lasting

/-! An archive that was unpacked without a fault has been unpacked: its members are found in the directory, and are still
found there when other things have changed. -/

namespace FileOrganizer

open FileOrganizer.Tree FileOrganizer.Disk

variable {host host' : Host} {cwd l : Place} {t u t' : Tree} {archive p dir : Path} {ps : List Path} {m : Member}
  {ms : List Member} {xs : List String}

namespace Archive

/-- The way to a member is along the places above the directory, and then below it. -/
lemma way_inside (hup : Part.up ∉ dir.parts) (hdir : dir.text ≠ "") (hin : inside? m = some p)
    (hxs : xs <+: steps (dir.join p).chars) :
    xs.foldl Path.step (start cwd (dir.join p)) <+: dir.place cwd ∨
      dir.place cwd <+: xs.foldl Path.step (start cwd (dir.join p)) := by
  obtain ⟨ha, k, hk⟩ := depth?_inside hin
  have hstart : start cwd (dir.join p) = start cwd dir := by
    rw [start, start, Path.isAbsolute_join hdir, ha, Bool.or_false]
  obtain ⟨cs, hcs, hplace⟩ := Path.way_of_prefix (l := start cwd (dir.join p)) hxs
  rw [Path.body_join hdir ha] at hcs
  rw [hplace, hstart]
  rcases List.prefix_or_prefix_of_prefix hcs (List.prefix_append dir.body p.body) with hshort | ⟨ds, rfl⟩
  · left
    obtain ⟨l, hbody⟩ := Path.body_of_level hup
    rw [hbody] at hshort
    obtain ⟨l', hl', rfl⟩ := List.prefix_map_iff.1 hshort
    rw [Path.reduce_names, Path.place_of_body hbody]
    simpa using hl'
  · right
    obtain ⟨k', hk'⟩ := depth?_prefix hk ((List.prefix_append_right_inj _).1 hcs)
    obtain ⟨ys, -, hys⟩ := reduce_depth (dir.place cwd).reverse hk' [] List.length_nil
    have hbase : Path.reduce (start cwd dir).reverse dir.body = (dir.place cwd).reverse := by
      rw [Path.place_eq, List.reverse_reverse]
    rw [Path.reduce_append, hbase, ← List.nil_append (dir.place cwd).reverse, hys]
    simp

lemma allOut_eq_true :
    allOut host t dir ms = .ok true ↔
      ∀ m ∈ ms, isReadable m = true ∧ ∀ p, inside? m = some p → isOut host t dir m p = true := by
  induction ms with
  | nil => simp [allOut]
  | cons m ms ih =>
    rw [allOut, List.forall_mem_cons]
    cases hm : isReadable m with
    | false => simp
    | true => cases hin : inside? m with
      | none => simp [ih]
      | some p => cases hout : isOut host t dir m p <;> simp [ih, hout]

lemma isExtracted_eq_true :
    isExtracted host t archive dir = .ok true ↔
      t.isDir host.cwd dir = true ∧ ∃ ms, members host t archive = .ok ms ∧
        ∀ m ∈ ms, isReadable m = true ∧ ∀ p, inside? m = some p → isOut host t dir m p = true := by
  unfold isExtracted
  cases t.isDir host.cwd dir with
  | false => simp
  | true => cases members host t archive <;> simp [allOut_eq_true]

section

variable (hs : t.Sound) (hp : t.Plain) (hs' : u.Sound) (hp' : u.Plain) (hup : Part.up ∉ dir.parts) (hdir : dir.text ≠ "")
  (h : Lasts (dir.place host.cwd) t u)

include hs hp hs' hp' hup hdir h

/-- A path to a member leads to it still. -/
lemma stat_lasts (hthere : u.isDirAt (dir.place host.cwd) = true) (hin : inside? m = some p) {e : Entry}
    (hstat : t.stat host.cwd (dir.join p) = .ok (l, e)) :
    ∃ e', u.stat host.cwd (dir.join p) = .ok (l, e') ∧ (e.isDir = true → e'.isDir = true) ∧ e'.size = e.size := by
  have hnode : u.node? (dir.place host.cwd) ≠ none := by
    obtain ⟨k, hk⟩ := isDirAt_iff.1 hthere
    simp [hk]
  have hloc : u.locate host.cwd true (dir.join p) = .ok ⟨l, u.at? l⟩ := locate_along hp hp'
    (fun xs hxs => h.isDirAt_line hs' hnode (way_inside hup hdir hin hxs)) (stat_eq_ok.1 hstat)
  obtain rfl := stat_place hp hstat
  have hat := (stat_ok hs hstat).1
  have hbelow : dir.place host.cwd <+: (dir.join p).place host.cwd := place_inside hin
  obtain ⟨hdirs, hfiles⟩ := h _ hbelow
  cases e with
  | link x => exact absurd (at?_link.1 hat) (hp _ x)
  | dir a =>
    obtain ⟨a', ha'⟩ := at?_of_isDirAt (hdirs (at?_dir hat))
    exact ⟨.dir a', stat_eq_ok.2 (hloc.trans (by rw [ha'])), fun _ => rfl, rfl⟩
  | file b a =>
    obtain ⟨a', ha'⟩ := bytes?_eq_some.1 (hfiles b (bytes?_eq_some.2 ⟨a, at?_file.1 hat⟩))
    exact ⟨.file b a', stat_eq_ok.2 (hloc.trans (by rw [at?_file.2 ha'])), fun hd => (by cases hd), rfl⟩

/-- A member that is out is out still. -/
lemma isOut_lasts (hthere : u.isDirAt (dir.place host.cwd) = true) (hin : inside? m = some p)
    (hout : isOut host t dir m p = true) : isOut host u dir m p = true := by
  unfold isOut at hout ⊢
  split at hout
  · next hm =>
    obtain ⟨l, a, hstat⟩ := isDir_iff.1 hout
    obtain ⟨e, hstat', hd, -⟩ := stat_lasts hs hp hs' hp' hup hdir h hthere hin hstat
    cases e with
    | dir a' => simpa [hm] using isDir_iff.2 ⟨l, a', hstat'⟩
    | file b a' => cases hd rfl
    | link x => cases hd rfl
  · next hm =>
    split at hout
    · next l e hstat =>
      obtain ⟨e', hstat', -, hsize⟩ := stat_lasts hs hp hs' hp' hup hdir h hthere hin hstat
      rw [if_neg hm, hstat']
      simpa [hsize] using hout
    · cases hout

lemma isExtracted_lasts (hread : u.read host.cwd archive = t.read host.cwd archive)
    (hout : isExtracted host t archive dir = .ok true) : isExtracted host u archive dir = .ok true := by
  obtain ⟨hthere, ms, hms, hall⟩ := isExtracted_eq_true.1 hout
  have hthere' := isDir_lasts hp hs hs' hp' hup h hthere
  refine isExtracted_eq_true.2 ⟨hthere', ms, ?_, fun m hm => ⟨(hall m hm).1, fun p hin => ?_⟩⟩
  · rwa [members, hread]
  · exact isOut_lasts hs hp hs' hp' hup hdir h (isDirAt_of_isDir hs' hp' hthere') hin ((hall m hm).2 p hin)

end

lemma isExtracted_isOk (dir : Path) (hms : members host t archive = .ok ms) (hall : ∀ m ∈ ms, isReadable m = true) :
    ∃ out, isExtracted host t archive dir = .ok out := by
  have hout : ∃ out, allOut host t dir ms = .ok out := by
    clear hms
    induction ms with
    | nil => exact ⟨true, rfl⟩
    | cons m ms ih =>
      obtain ⟨hm, hrest⟩ := List.forall_mem_cons.1 hall
      obtain ⟨out, hout⟩ := ih hrest
      cases hin : inside? m with
      | none => exact ⟨out, by simpa [allOut, hm, hin]⟩
      | some p => cases hp : isOut host t dir m p with
        | true => exact ⟨out, by simpa [allOut, hm, hin, hp]⟩
        | false => exact ⟨false, by simp [allOut, hm, hin, hp]⟩
  unfold isExtracted
  rw [hms]
  split
  · exact hout
  · exact ⟨false, rfl⟩

lemma extractAll_readable (hs : t.Sound) (h : extractAll host dir ms t = ((.ok (), ps), t')) :
    ∀ m ∈ ms, isReadable m = true := by
  induction ms generalizing t ps t' with
  | nil => simp
  | cons m ms ih =>
    rw [extractAll] at h
    split at h
    · cases h
    · next made t₁ hm =>
      rcases hrest : extractAll host dir ms t₁ with ⟨⟨r, more⟩, t₂⟩
      rw [hrest] at h
      cases h
      obtain ⟨hs₁, hreadable, -⟩ := extractMember_cases hs hm
      exact List.forall_mem_cons.2 ⟨hreadable rfl, ih hs₁ hrest⟩

lemma extract_readable (hs : t.Sound) (h : extract host archive dir t = ((.ok (), ps), t')) :
    ∃ ms, members host t archive = .ok ms ∧ ∀ m ∈ ms, isReadable m = true := by
  unfold extract at h
  split at h
  · cases h
  · next ms hms =>
    split at h
    · cases h
    · next hmake => exact ⟨ms, hms, extractAll_readable (makeDirs_addsDirs hs hmake).1 h⟩

section

variable (hs : t.Sound) (hp : t.Plain) (hup : Part.up ∉ dir.parts) (hdir : dir.text ≠ "")
  (hthere : t.isDirAt (dir.place host.cwd) = true)

include hs hdir

/-- A member that was taken out without a fault is out. -/
lemma extractMember_out (hsize : ∀ b, m.content = .intact b → b.size = m.size)
    (hin : inside? m = some p) (h : extractMember host dir m t = ((.ok (), ps), t')) :
    isOut host t' dir m p = true := by
  obtain ⟨-, -, hcase⟩ := extractMember_cases hs h
  rcases hcase with ⟨-, -, hmade⟩ | ⟨p', b, hin', hfile, -, ⟨t₁, l, hs₁, -, -, hloc, hset⟩, hcontent⟩
  · rcases hmade rfl with hnone | ⟨p', hin', hm, hmake⟩
    · rw [hnone] at hin
      cases hin
    · obtain rfl : p' = p := Option.some.inj (hin'.symm.trans hin)
      rw [isOut, if_pos hm]
      exact isDir_of_makeDirsFrom hs (Path.join_text_ne hdir) hmake
  · obtain rfl : p' = p := Option.some.inj (hin'.symm.trans hin)
    have hstat : t'.stat host.cwd (dir.join p') = .ok (l, _) := stat_of_made hs₁ hloc hset
    rw [isOut, if_neg (by simp [hfile]), hstat]
    simp [Entry.size, hsize b (hcontent rfl)]

include hp hup hthere

lemma extractAll_out (hsizes : ∀ m ∈ ms, ∀ b, m.content = .intact b → b.size = m.size)
    (h : extractAll host dir ms t = ((.ok (), ps), t')) :
    ∀ m ∈ ms, ∀ p, inside? m = some p → isOut host t' dir m p = true := by
  induction ms generalizing t ps t' with
  | nil => simp
  | cons m ms ih =>
    rw [extractAll] at h
    split at h
    · cases h
    · next made t₁ hm =>
      rcases hrest : extractAll host dir ms t₁ with ⟨⟨r, more⟩, t₂⟩
      rw [hrest] at h
      cases h
      obtain ⟨hs₁, hadd⟩ := extractMember_adds hs hm
      obtain ⟨hs₂, hadd'⟩ := extractAll_adds hs₁ hrest
      have hp₁ := hadd.plain hp
      have hthere₁ := hadd.isDirAt hthere
      obtain ⟨hsize, hsizes⟩ := List.forall_mem_cons.1 hsizes
      refine List.forall_mem_cons.2 ⟨fun p hin => ?_, ih hs₁ hp₁ hthere₁ hsizes hrest⟩
      have hout := extractMember_out hs hdir hsize hin hm
      exact isOut_lasts hs₁ hp₁ hs₂ (hadd'.plain hp₁) hup hdir hadd'.lasts (hadd'.isDirAt hthere₁) hin hout

end

/-- The members of an archive tell the sizes of their contents. -/
def Honest (host : Host) (t : Tree) (archive : Path) : Prop :=
  ∀ ms, members host t archive = .ok ms → ∀ m ∈ ms, ∀ b, m.content = .intact b → b.size = m.size

lemma members_ok (h : members host t archive = .ok ms) :
    ∃ b, t.read host.cwd archive = .ok b ∧ host.unpack b = some ms := by
  unfold members at h
  split at h
  · cases h
  · next b hread =>
    split at h
    · cases h
    · next hunpack =>
      cases h
      exact ⟨b, hread, hunpack⟩

lemma honest_zip {name : String} {b : ByteArray} (hunpack : host.unpack = Zip.members?)
    (hread : t.read host.cwd archive = .ok (Zip.pack name b)) (hname : name.toUTF8.size < 256 ^ 2)
    (hsize : 30 + name.toUTF8.size + b.size < 256 ^ 4) : Honest host t archive := by
  intro ms hms m hm c hc
  obtain ⟨b', hread', hms'⟩ := members_ok hms
  obtain rfl := Except.ok.inj (hread.symm.trans hread')
  rw [hunpack, Zip.members?_pack hname hsize] at hms'
  cases hms'
  obtain rfl := List.mem_singleton.1 hm
  cases hc
  rfl

/-- An archive that was unpacked without a fault has been unpacked. -/
lemma extract_out (hs : t.Sound) (hp : t.Plain) (hup : Part.up ∉ dir.parts) (hdir : dir.text ≠ "")
    (hsizes : Honest host t archive) (h : extract host archive dir t = ((.ok (), ps), t')) :
    isExtracted host t' archive dir = .ok true := by
  unfold extract at h
  split at h
  · cases h
  · next ms hms =>
    split at h
    · cases h
    · next t₁ hmake =>
      obtain ⟨hs₁, hadd₁⟩ := makeDirs_addsDirs hs hmake
      have hp₁ := hadd₁.plain hp
      obtain ⟨hs', hadd⟩ := extractAll_adds hs₁ h
      have hp' := hadd.plain hp₁
      have hthere := (isDirAt_of_makeDirs hs hp hmake).resolve_left hdir
      have hall := extractAll_out hs₁ hp₁ hup hdir hthere (hsizes ms hms) h
      obtain ⟨b, hread, hunpack⟩ := members_ok hms
      have hreadable := extractAll_readable hs₁ h
      refine isExtracted_eq_true.2 ⟨?_, ms, ?_, fun m hm => ⟨hreadable m hm, hall m hm⟩⟩
      · exact isDir_lasts hp₁ hs₁ hs' hp' hup hadd.lasts (isDir_of_makeDirsFrom hs hdir hmake)
      · rw [members, ((hadd₁.adds.trans hadd).steady hp hs').read hs hp (Set.notMem_empty _) hread]
        dsimp only
        rw [hunpack]

/-- Of the host, nothing but the working directory and the reader counts. -/
lemma isExtracted_congr (hcwd : host'.cwd = host.cwd) (hunpack : host'.unpack = host.unpack) :
    isExtracted host' t archive dir = isExtracted host t archive dir := by
  have hall : ∀ ms, allOut host' t dir ms = allOut host t dir ms := by
    intro ms
    induction ms with
    | nil => rfl
    | cons m ms ih =>
      simp only [allOut, isOut, hcwd, ih]
      rfl
  simp only [isExtracted, members, hcwd, hunpack, hall]

end Archive

end FileOrganizer
