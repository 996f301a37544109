import FileOrganizer.Proofs.Batch.Plan
import FileOrganizer.Proofs.Batch.Unpacked

/-! Archives that are made or unpacked once more, in a later batch. What was made under the name that was asked for is
found again, and nothing more is done; what had to take another name is not looked for. -/

namespace FileOrganizer

open FileOrganizer.Tree FileOrganizer.Disk

variable {host host' : Host} {t u t' : Tree}

namespace Archive

variable {archive : Path} {name : String} {b : ByteArray}

/-- The file is in the archive that was made of it. -/
lemma read_of_write {source target : Path} (hs : t.Sound) (hp : t.Plain)
    (hread : t.read host.cwd source = .ok b) (h : write host source name target t = (.ok (), t')) :
    t'.read host.cwd target = .ok (host.pack name b) := by
  obtain ⟨_, t₁, hmake, hrest⟩ := bind_eq_ok h
  obtain ⟨_, t₂, hcreate, hrest'⟩ := bind_eq_ok hrest
  obtain ⟨b', t₃, hask, hwrite⟩ := bind_eq_ok hrest'
  obtain ⟨hread', rfl⟩ := ask_eq_ok hask
  replace hwrite := change_eq_ok hwrite
  obtain ⟨hs₁, hadd₁⟩ := makeParents_addsDirs hs hmake
  obtain ⟨l, -, hloc, -, hset⟩ := createFile_ok hs₁ (change_eq_ok hcreate)
  have hs₂ := sound_of_createFile hs₁ (change_eq_ok hcreate)
  have hadd := hadd₁.adds.trans (.of_sets hset (node?_of_locate hs₁ hloc))
  have hp₂ := hadd.plain hp
  obtain rfl : b' = b := by
    rw [(hadd.steady hp hs₂).read hs hp (Set.notMem_empty _) hread] at hread'
    exact (Except.ok.inj hread').symm
  have hstat : t₃.stat host.cwd target = .ok (l, .file .empty ⟨host.now, false⟩) := stat_of_made hs₁ hloc hset
  obtain rfl := stat_place hp₂ hstat
  -- The file is written where it was made.
  rcases writeFile_ok hs₂ hwrite with ⟨l', c, a, hstat', -, hset'⟩ | ⟨l', hloc', -, -⟩
  · obtain rfl := stat_place hp₂ hstat'
    have hfile := at?_file.1 (stat_ok hs₂ hstat').1
    have hdirs : ∀ q, t₃.isDirAt q = true → t'.isDirAt q = true := fun q =>
      hset'.isDirAt (not_isDirAt_of_file hfile)
    have hp' := hset'.plain hp₂ (by simp)
    refine (read_eq_ok (sound_of_writeFile hs₂ hwrite) hp').2 ⟨⟨_, locate_steady hp₂ hp' hdirs (stat_eq_ok.1 hstat)⟩, ?_⟩
    exact bytes?_eq_some.2 ⟨_, hset'.same⟩
  · rw [show host.toActor.cwd = host.cwd from rfl, stat_eq_ok.1 hstat] at hloc'
    cases hloc'

/-- What is packed can be unpacked: there is one member, with its name and size. -/
def ReadsBack (host : Host) (name : String) (b : ByteArray) : Prop :=
  ∃ m, host.unpack (host.pack name b) = some [m] ∧ m.name = name ∧ m.size = b.size ∧ isReadable m = true

lemma readsBack_zip (hpack : host.pack = Zip.pack) (hunpack : host.unpack = Zip.members?)
    (hname : name.toUTF8.size < 256 ^ 2) (hsize : 30 + name.toUTF8.size + b.size < 256 ^ 4) : ReadsBack host name b :=
  ⟨⟨name, b.size, .intact b⟩, by rw [hpack, hunpack, Zip.members?_pack hname hsize], rfl, rfl, rfl⟩

lemma contains_of_read (hback : ReadsBack host name b)
    (hread : t.read host.cwd archive = .ok (host.pack name b)) : contains host t archive name b.size = true := by
  obtain ⟨m, hunpack, hname, hsize, hreadable⟩ := hback
  unfold contains members
  rw [hread]
  simp [hunpack, hname, hsize, hreadable]

lemma contains_of_error {size : Nat} {e : OsError} (hread : t.read host.cwd archive = .error e) :
    contains host t archive name size = false := by
  unfold contains members
  rw [hread]

lemma contains_congr {size : Nat} (hcwd : host'.cwd = host.cwd) (hunpack : host'.unpack = host.unpack)
    (hread : u.read host.cwd archive = t.read host.cwd archive) :
    contains host' u archive name size = contains host t archive name size := by
  simp only [contains, members, hcwd, hunpack, hread]

end Archive

/-- A later batch on the same machine, in which the file is as it was. -/
structure Later (s : Setting) (f : FileInfo) (w : Workspace) (s' : Setting) (w' : Workspace) : Prop where
  cwd : s'.host.cwd = s.host.cwd
  kindOf : s'.host.kindOf = s.host.kindOf
  unpack : s'.host.unpack = s.host.unpack
  root : s'.root = s.root
  sound : w'.tree.Sound
  plain : w'.tree.Plain
  origin : (w'.view s').origin s'.host f.path = f.path
  read : w'.tree.read s.host.cwd f.path = w.tree.read s.host.cwd f.path

namespace Action

variable {s s' : Setting} {f : FileInfo} {w w' : Workspace} {b : ByteArray}

/-- The directory that is asked for what is in an archive. -/
def unpacksTo (s : Setting) (f : FileInfo) (destination : Option String) : Path :=
  (extractTo s f destination).1.child (extractTo s f destination).2

lemma origin_of_apply (hdry : s.config.dryRun = false) (p : Path) : (w.view s).origin s.host p = p := by
  simp [Workspace.view, View.origin, hdry]

lemma extractTo_congr (hroot : s'.root = s.root) (destination : Option String) :
    extractTo s' f destination = extractTo s f destination := by
  cases destination <;> simp only [extractTo, hroot]

lemma unpacksTo_ne (hstem : f.stem ≠ "") (destination : Option String) : (unpacksTo s f destination).text ≠ "" := by
  have hname : (extractTo s f destination).2 ≠ "" := by
    cases destination with
    | none => exact hstem
    | some d =>
      unfold extractTo
      cases hn : (Template.directory d f s.root).fileName? with
      | none => simpa [hn] using hstem
      | some n => simpa [hn] using (Path.proper_fileName hn).1
  unfold unpacksTo Path.child Path.join
  split
  · exact hname
  · split <;> simp [hname]

/-- An archive that is there is judged by whether it has been unpacked. -/
lemma judgeExtract_eq (destination : Option String) (hfile : f.isDir = false) (hzip : isArchive s w f = true)
    (horigin : (w.view s).origin s.host f.path = f.path) (hthere : w.tree.has s.host.cwd f.path = true) :
    judgeExtract s w f destination =
      match Archive.isExtracted s.host w.tree f.path (unpacksTo s f destination) with
      | .ok true => .error (.skipped s!"{f.name} 已解压到 {unpacksTo s f destination}")
      | .ok false => .ok (.extract (extractTo s f destination).1 (extractTo s f destination).2)
      | .error e => .error (.failed s!"读取压缩包 {f.name} 失败: {e.message}") := by
  unfold judgeExtract unpacksTo
  rw [horigin]
  exact (if_neg (by simp [hfile, hzip])).trans (if_pos hthere)

lemma isArchive_later (h : Later s f w s' w') (horigin : (w.view s).origin s.host f.path = f.path) :
    isArchive s' w' f = isArchive s w f := by
  simp only [Action.isArchive, FileKind.ofPath?, h.origin, horigin, h.cwd, h.kindOf, h.read]

/-- An archive that was unpacked under the name that was asked for is not unpacked once more, as long as what came out of
it is there. One that had to be unpacked under another name is: what is looked for is what stands under the name that
was asked for, and so, if that is as before, the archive is unpacked each time. -/
theorem extract_settles (hs : w.tree.Sound) (hp : w.tree.Plain) (destination : Option String) (hnamed : f.Named)
    (hup : Part.up ∉ (unpacksTo s f destination).parts) (hsizes : Archive.Honest s.host w.tree f.path)
    (happ : ((extract destination).run s f w).1.status = .applied) (hlater : Later s f w s' w') :
    (unpacksInto s f w destination = unpacksTo s f destination →
        Lasts ((unpacksTo s f destination).place s.host.cwd) ((extract destination).run s f w).2.tree w'.tree →
          (extract destination).run s' f w' = (.skipped s!"{f.name} 已解压到 {unpacksTo s f destination}", w')) ∧
      (Lasts ((unpacksTo s f destination).place s.host.cwd) w'.tree w.tree →
        (extract destination).judge s' w' f =
          .ok (.extract (extractTo s f destination).1 (extractTo s f destination).2)) := by
  obtain ⟨task, hj, hdry, -⟩ := run_applied happ
  obtain ⟨-, hfile, hzip⟩ := judgeExtract_ok (by rwa [judge] at hj)
  have horigin := origin_of_apply (s := s) (w := w) hdry f.path
  rcases run_extract hdry destination with ⟨⟨e, he⟩, -⟩ | ⟨r, ps, t', hextract, hr, -, htree⟩
  · rw [he] at hj
    cases hj
  obtain rfl := hr happ
  obtain ⟨ms, hms, hreadable⟩ := Archive.extract_readable hs hextract
  obtain ⟨b, hread, hunpack⟩ := Archive.members_ok hms
  have hread' := hlater.read.trans hread
  have htext := unpacksTo_ne (s := s) (hnamed.stem_ne hs hp hread) destination
  -- What a later batch does is decided by what it finds under the name that was asked for.
  have hjudge := judgeExtract_eq (s := s') (w := w') destination hfile ((isArchive_later hlater horigin).trans hzip) hlater.origin
    (by rw [hlater.cwd]; exact has_of_read hlater.sound hlater.plain hread')
  rw [Archive.isExtracted_congr hlater.cwd hlater.unpack, unpacksTo, extractTo_congr hlater.root, ← unpacksTo] at hjudge
  constructor
  · intro hname hlasts
    rw [htree] at hlasts
    rw [hname] at hextract
    have hout := Archive.extract_out hs hp hup htext hsizes hextract
    obtain ⟨hs', hadd⟩ := Archive.extract_adds hs hextract
    have hp' := hadd.plain hp
    have hsame : w'.tree.read s.host.cwd f.path = t'.read s.host.cwd f.path := by
      rw [hread', (hadd.steady hp hs').read hs hp (Set.notMem_empty _) hread]
    rw [Archive.isExtracted_lasts hs' hp' hlater.sound hlater.plain hup htext hlasts hsame hout] at hjudge
    rw [run, judge, hjudge]
  · intro hlasts
    have hms' : Archive.members s.host w'.tree f.path = .ok ms := by
      rw [Archive.members, hlater.read, ← Archive.members, hms]
    obtain ⟨out, hout⟩ := Archive.isExtracted_isOk (unpacksTo s f destination) hms' hreadable
    rw [hout] at hjudge
    cases out with
    | false => rw [judge, hjudge]
    | true =>
      have hbefore := Archive.isExtracted_lasts hlater.sound hlater.plain hs hp hup htext hlasts hlater.read.symm hout
      have hfirst := judgeExtract_eq destination hfile hzip horigin (has_of_read hs hp hread)
      rw [hbefore] at hfirst
      rw [judge, hfirst] at hj
      cases hj

section

/-- A machine with archives as they are. -/
def zipping : Setting where
  host := { Job.plainHost with pack := Zip.pack, unpack := Zip.members? }
  root := ⟨"/r"⟩
  trash := ⟨"/trash"⟩
  config := {}

/-- A batch that begins with this tree. -/
def fresh (t : Tree) : Workspace := ⟨t, .empty, [], .empty⟩

lemma named_found (p : String) : (Job.found p).Named := rfl

/-- The next batch begins with what the last one left. -/
lemma later_fresh {t u : Tree} (hs : t.Sound) (hp : t.Plain) (hs' : u.Sound) (hadd : t.Adds u)
    (hread : t.read zipping.host.cwd f.path = .ok b) : Later zipping f (fresh t) zipping (fresh u) where
  cwd := rfl
  kindOf := rfl
  unpack := rfl
  root := rfl
  sound := hs'
  plain := hadd.plain hp
  origin := rfl
  read := ((hadd.steady hp hs').read hs hp (Set.notMem_empty _) hread).trans hread.symm

/-- An archive of one file, and what else there is. -/
def boxed (more : List (Place × Entry)) : Tree :=
  ⟨(["r"], .dir ⟨⟨0, 0⟩, false⟩) :: more ++ [(["r", "a.zip"], .file (Zip.pack "b" ⟨#[1]⟩) ⟨⟨0, 0⟩, false⟩)]⟩

/-- A directory with the name of the archive. -/
def inTheWay : List (Place × Entry) := [(["r", "a"], .dir ⟨⟨0, 0⟩, false⟩)]

/-- What is left when it has been unpacked. -/
def unboxed (more : List (Place × Entry)) : Tree :=
  ((extract none).run zipping (Job.found "/r/a.zip") (fresh (boxed more))).2.tree

section

variable {more : List (Place × Entry)} (hs : (boxed more).Sound) (hp : (boxed more).Plain)
  (hread : (boxed more).read zipping.host.cwd ⟨"/r/a.zip"⟩ = .ok (Zip.pack "b" ⟨#[1]⟩))

include hread in
lemma honest_boxed : Archive.Honest zipping.host (boxed more) ⟨"/r/a.zip"⟩ :=
  Archive.honest_zip rfl hread (by decide) (by decide)

include hs hp hread in
lemma later_unboxed : Later zipping (Job.found "/r/a.zip") (fresh (boxed more)) zipping (fresh (unboxed more)) := by
  have hgrown : (unboxed more).Sound ∧ (boxed more).Adds (unboxed more) := by
    unfold unboxed
    rcases run_extract (s := zipping) (f := Job.found "/r/a.zip") (w := fresh (boxed more)) rfl none with
      ⟨-, -, htree⟩ | ⟨r, ps, t', hextract, -, -, htree⟩
    · rw [htree]
      exact ⟨hs, .refl _⟩
    · rw [htree]
      exact Archive.extract_adds hs hextract
  exact later_fresh hs hp hgrown.1 hgrown.2 hread

lemma lasts_unboxed (l : Place) : Lasts l ((extract none).run zipping (Job.found "/r/a.zip") (fresh (boxed more))).2.tree
    (fresh (unboxed more)).tree := by
  unfold fresh unboxed
  exact (Adds.refl _).lasts

end

/-- It is unpacked once. -/
theorem extract_settles_boxed : (extract none).run zipping (Job.found "/r/a.zip") (fresh (unboxed [])) =
    (.skipped "a.zip 已解压到 /r/a", fresh (unboxed [])) := by
  have hs : (boxed []).Sound := sound_of_entries (by decide +kernel)
  have hp : (boxed []).Plain := plain_of_entries (by decide +kernel)
  have hread : (boxed []).read zipping.host.cwd ⟨"/r/a.zip"⟩ = .ok (Zip.pack "b" ⟨#[1]⟩) := by decide +kernel
  have hname : unpacksInto zipping (Job.found "/r/a.zip") (fresh (boxed [])) none =
      unpacksTo zipping (Job.found "/r/a.zip") none := by decide +kernel
  exact (extract_settles (s := zipping) (f := Job.found "/r/a.zip") (w := fresh (boxed [])) hs hp none (named_found _)
    (by decide) (honest_boxed hread) (by decide +kernel) (later_unboxed hs hp hread)).1 hname (lasts_unboxed _)

/-- Where a directory has its name, it is unpacked each time. -/
theorem extract_settles_fails : ¬∀ (s s' : Setting) (f : FileInfo) (w w' : Workspace) (destination : Option String),
    w.tree.Sound → w.tree.Plain → f.Named → Part.up ∉ (unpacksTo s f destination).parts →
      Archive.Honest s.host w.tree f.path → ((extract destination).run s f w).1.status = .applied → Later s f w s' w' →
        Lasts ((unpacksInto s f w destination).place s.host.cwd) ((extract destination).run s f w).2.tree w'.tree →
          ∃ message, (extract destination).run s' f w' = (.skipped message, w') := by
  intro h
  have hs : (boxed inTheWay).Sound := sound_of_entries (by decide +kernel)
  have hp : (boxed inTheWay).Plain := plain_of_entries (by decide +kernel)
  have hread : (boxed inTheWay).read zipping.host.cwd ⟨"/r/a.zip"⟩ = .ok (Zip.pack "b" ⟨#[1]⟩) := by decide +kernel
  obtain ⟨message, hrun⟩ := h zipping zipping (Job.found "/r/a.zip") (fresh (boxed inTheWay)) (fresh (unboxed inTheWay))
    none hs hp (named_found _) (by decide) (honest_boxed hread) (by decide +kernel) (later_unboxed hs hp hread)
    (lasts_unboxed _)
  have hagain : ((extract none).run zipping (Job.found "/r/a.zip") (fresh (unboxed inTheWay))).1.status = .applied := by
    decide +kernel
  have hskipped := congrArg (·.1.status) hrun
  cases hagain.symm.trans hskipped

end

/-- The path that is asked for the archive of a file. -/
def archivesTo (s : Setting) (f : FileInfo) (destination : Option String) : Path :=
  (archiveDir s f destination).child (f.stem ++ ".zip")

/-- The path that is claimed for the archive of a file. -/
def archivesInto (s : Setting) (f : FileInfo) (w : Workspace) (destination : Option String) : Path :=
  (w.claim s.host.cwd (archiveDir s f destination) (f.stem ++ ".zip")).1.path

lemma archiveDir_congr (hroot : s'.root = s.root) (destination : Option String) :
    archiveDir s' f destination = archiveDir s f destination := by
  cases destination <;> simp only [archiveDir, hroot]

lemma run_archive (destination : Option String) (happ : ((archive destination).run s f w).1.status = .applied) :
    Archive.write s.host f.path f.name (archivesInto s f w destination) w.tree =
      (.ok (), ((archive destination).run s f w).2.tree) := by
  obtain ⟨task, hj, -, hrun⟩ := run_applied happ
  obtain ⟨rfl, -⟩ := judgeArchive_ok (by rwa [judge] at hj)
  rw [hrun] at happ ⊢
  rw [Task.perform_tree]
  unfold Task.perform at happ
  unfold Task.treeAfter
  dsimp only at happ ⊢
  rw [Workspace.disk_eq, Workspace.claim_tree] at happ
  unfold archivesInto
  rcases hwrite : Archive.write s.host f.path f.name
    (w.claim s.host.cwd (archiveDir s f destination) (f.stem ++ ".zip")).1.path w.tree with ⟨e | _, t'⟩
  · rw [hwrite] at happ
    cases happ
  · rfl

/-- A file that was archived under the name that was asked for is not archived once more, as long as the archive is as it
was made. One whose archive had to take another name is: what is looked for is the archive under the name that was asked
for, and so, if that is as before, another archive is made each time. -/
theorem archive_settles (hs : w.tree.Sound) (hp : w.tree.Plain) (destination : Option String)
    (hup : Part.up ∉ (archivesTo s f destination).parts) (hread : w.tree.read s.host.cwd f.path = .ok b)
    (hsize : f.size = b.size) (hback : Archive.ReadsBack s.host f.name b)
    (happ : ((archive destination).run s f w).1.status = .applied) (hlater : Later s f w s' w') :
    (archivesInto s f w destination = archivesTo s f destination →
        w'.tree.bytes? ((archivesTo s f destination).place s.host.cwd) =
          ((archive destination).run s f w).2.tree.bytes? ((archivesTo s f destination).place s.host.cwd) →
          (archive destination).run s' f w' =
            (.skipped s!"压缩包 {archivesTo s f destination} 已包含 {f.name}", w')) ∧
      (w'.tree.bytes? ((archivesTo s f destination).place s.host.cwd) =
          w.tree.bytes? ((archivesTo s f destination).place s.host.cwd) →
        (archive destination).judge s' w' f = .ok (.archive (archiveDir s f destination) (f.stem ++ ".zip"))) := by
  obtain ⟨task, hj, -⟩ := run_applied happ
  obtain ⟨-, hfile, hext, hbefore, -⟩ := judgeArchive_ok (by rwa [judge] at hj)
  have hwrite := run_archive destination happ
  have hjudge : (archive destination).judge s' w' f =
      if Archive.contains s'.host w'.tree (archivesTo s f destination) f.name f.size then
        .error (.skipped s!"压缩包 {archivesTo s f destination} 已包含 {f.name}")
      else .ok (.archive (archiveDir s f destination) (f.stem ++ ".zip")) := by
    have hthere : w'.isThere s' f = true := by
      rw [Workspace.isThere, hlater.origin, hlater.cwd]
      exact has_of_read hlater.sound hlater.plain (hlater.read.trans hread)
    rw [judge, judgeArchive, archiveDir_congr hlater.root]
    simp only [hfile, hext, hthere, archivesTo, Bool.not_true, Bool.false_eq_true, if_false]
    rfl
  constructor
  · intro hname hbytes
    rw [hname] at hwrite
    have hs' := (Archive.write_cases hs hwrite).1
    have hp' := (Archive.adds_of_write hs hwrite).plain hp
    have hmade := Archive.read_of_write hs hp hread hwrite
    have hthere := read_lasts hs' hp' hlater.sound hlater.plain hup hmade (hbytes.trans (bytes?_of_read hs' hp' hmade))
    have hin := Archive.contains_of_read hback hthere
    rw [Archive.contains_congr hlater.cwd hlater.unpack rfl, hsize, hin, if_pos rfl] at hjudge
    rw [run, hjudge]
  · intro hbytes
    have hout : Archive.contains s'.host w'.tree (archivesTo s f destination) f.name f.size = false := by
      rw [Archive.contains_congr hlater.cwd hlater.unpack rfl]
      cases hthere : w'.tree.read s.host.cwd (archivesTo s f destination) with
      | error e => exact Archive.contains_of_error hthere
      | ok c =>
        have hc := bytes?_of_read hlater.sound hlater.plain hthere
        have hc' := read_lasts hlater.sound hlater.plain hs hp hup hthere (hbytes.symm.trans hc)
        rw [Archive.contains_congr (t := w.tree) rfl rfl (hthere.trans hc'.symm), archivesTo, hbefore]
    rw [hjudge, hout, if_neg Bool.false_ne_true]

section

/-- What is left when a file has been archived. -/
def archived (destination : Option String) : Tree :=
  ((archive destination).run zipping (Job.found "/r/a.txt") (fresh Job.twoFiles)).2.tree

lemma later_archived {destination : Option String}
    (happ : ((archive destination).run zipping (Job.found "/r/a.txt") (fresh Job.twoFiles)).1.status = .applied) :
    Later zipping (Job.found "/r/a.txt") (fresh Job.twoFiles) zipping (fresh (archived destination)) := by
  have hwrite := run_archive destination happ
  exact later_fresh (b := ⟨#[1]⟩) Job.sound_twoFiles (plain_of_entries (by decide))
    (Archive.write_cases Job.sound_twoFiles hwrite).1 (Archive.adds_of_write Job.sound_twoFiles hwrite) rfl

lemma tree_archived (destination : Option String) : (fresh (archived destination)).tree =
    ((archive destination).run zipping (Job.found "/r/a.txt") (fresh Job.twoFiles)).2.tree := by
  unfold fresh archived
  rfl

/-- In another directory it is archived once. -/
theorem archive_settles_elsewhere :
    (archive (some "/z")).run zipping (Job.found "/r/a.txt") (fresh (archived (some "/z"))) =
      (.skipped "压缩包 /z/a.zip 已包含 a.txt", fresh (archived (some "/z"))) := by
  have happ : ((archive (some "/z")).run zipping (Job.found "/r/a.txt") (fresh Job.twoFiles)).1.status = .applied := by
    decide +kernel
  have hname : archivesInto zipping (Job.found "/r/a.txt") (fresh Job.twoFiles) (some "/z") =
      archivesTo zipping (Job.found "/r/a.txt") (some "/z") := by decide +kernel
  have hthere : archivesTo zipping (Job.found "/r/a.txt") (some "/z") = ⟨"/z/a.zip"⟩ := by decide +kernel
  have hrun := (archive_settles (s := zipping) (f := Job.found "/r/a.txt") (w := fresh Job.twoFiles) (b := ⟨#[1]⟩)
    Job.sound_twoFiles (plain_of_entries (by decide)) (some "/z") (by decide +kernel) rfl rfl
    (Archive.readsBack_zip rfl rfl (by decide) (by decide)) happ (later_archived happ)).1 hname (by rw [tree_archived])
  rw [hthere] at hrun
  exact hrun

/-- Where another archive has its name, it is archived each time. -/
theorem archive_settles_fails : ¬∀ (s s' : Setting) (f : FileInfo) (w w' : Workspace) (b : ByteArray)
    (destination : Option String), w.tree.Sound → w.tree.Plain → Part.up ∉ (archivesTo s f destination).parts →
      w.tree.read s.host.cwd f.path = .ok b → f.size = b.size → Archive.ReadsBack s.host f.name b →
        ((archive destination).run s f w).1.status = .applied → Later s f w s' w' →
          ((archive destination).run s f w).2.tree.Adds w'.tree →
            ∃ message, (archive destination).run s' f w' = (.skipped message, w') := by
  intro h
  have happ : ((archive none).run zipping (Job.found "/r/a.txt") (fresh Job.twoFiles)).1.status = .applied := by
    decide +kernel
  obtain ⟨message, hrun⟩ := h zipping zipping (Job.found "/r/a.txt") (fresh Job.twoFiles) (fresh (archived none)) ⟨#[1]⟩
    none Job.sound_twoFiles (plain_of_entries (by decide)) (by decide) rfl rfl
    (Archive.readsBack_zip rfl rfl (by decide) (by decide)) happ (later_archived happ)
    (by rw [tree_archived]; exact .refl _)
  have hagain : ((archive none).run zipping (Job.found "/r/a.txt") (fresh (archived none))).1.status = .applied := by
    decide +kernel
  have hskipped := congrArg (·.1.status) hrun
  cases hagain.symm.trans hskipped

end

end Action

end FileOrganizer
