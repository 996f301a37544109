import FileOrganizer.Proofs.Batch.Settled

/-! What can be said of an archive that is not made, or not unpacked, because that has been done already: what is there
has the name and the size that are looked for. Its bytes are not compared. -/

namespace FileOrganizer

open FileOrganizer.Tree FileOrganizer.Disk

namespace Archive

variable {host : Host} {t : Tree} {archive : Path} {name : String} {size : Nat}

lemma contains_eq_true (h : contains host t archive name size = true) :
    ∃ ms m, members host t archive = .ok ms ∧ m ∈ ms ∧ m.name = name ∧ m.size = size ∧ isReadable m = true := by
  unfold contains at h
  split at h
  · cases h
  next ms hms =>
    split at h
    · cases h
    next m hm =>
      rw [Bool.and_eq_true, decide_eq_true_eq] at h
      exact ⟨ms, m, hms, List.mem_of_find?_eq_some hm, by simpa using List.find?_some hm, h.2, h.1⟩

/-- Where a member is looked for, there is a directory if it is one, and else something of its size. -/
def StandsIn (host : Host) (t : Tree) (dir : Path) (m : Member) : Prop :=
  ∀ p, inside? m = some p →
    if isDir m then t.isDir host.cwd (dir.join p) = true
    else ∃ l e, t.stat host.cwd (dir.join p) = .ok (l, e) ∧ e.size = m.size

lemma standsIn_of_isOut {dir : Path} {m : Member} (h : ∀ p, inside? m = some p → isOut host t dir m p = true) :
    StandsIn host t dir m := by
  intro p hp
  have hout := h p hp
  unfold isOut at hout
  split_ifs at hout ⊢
  · exact hout
  · split at hout
    next l e hstat => exact ⟨l, e, hstat, by simpa using hout⟩
    next => cases hout

end Archive

/-- Does the task take a name? -/
def Task.isNaming : Task → Bool
  | rename .. | transfer .. | discard | archive .. | extract .. => true
  | _ => false

section

variable {s : Setting} {f : FileInfo} {w : Workspace} {task : Task}

lemma Task.moveTo_ne_skipped (target : Path) (told : String) (why : Fault → String) :
    (moveTo s f w target told why).1.status ≠ .skipped := by
  unfold moveTo
  rw [Workspace.disk_eq]
  cases (moveFile s.host.toActor f.path target w.tree).1 <;> exact Status.noConfusion

/-- A task that takes a name is done, or fails. -/
lemma Task.perform_ne_skipped (hnaming : task.isNaming = true) : (task.perform s f w).1.status ≠ .skipped := by
  cases task with
  | rename newName template =>
    unfold perform
    dsimp only
    exact moveTo_ne_skipped _ _ _
  | transfer mode dir =>
    cases mode with
    | move =>
      unfold perform
      dsimp only
      exact moveTo_ne_skipped _ _ _
    | copy =>
      unfold perform
      dsimp only
      rw [Workspace.disk_eq]
      cases (copyFile s.host.toActor f.path (w.claim s.host.cwd dir f.name).1.path
        (w.claim s.host.cwd dir f.name).2.tree).1 <;> exact Status.noConfusion
  | discard =>
    unfold perform
    dsimp only
    exact moveTo_ne_skipped _ _ _
  | archive dir name =>
    unfold perform
    dsimp only
    rw [Workspace.disk_eq]
    cases (Archive.write s.host f.path f.name (w.claim s.host.cwd dir name).1.path
      (w.claim s.host.cwd dir name).2.tree).1 <;> exact Status.noConfusion
  | extract dir name =>
    unfold perform
    dsimp only
    cases (Archive.extract s.host f.path (w.claim s.host.cwd dir name).1.path
      (w.claim s.host.cwd dir name).2.tree).1.1 <;> exact Status.noConfusion
  | _ => cases hnaming

lemma Task.trial_ne_skipped (hnaming : task.isNaming = true) : (task.trial s f w).1.status ≠ .skipped := by
  cases task with
  | rename | discard | archive | extract => exact Status.noConfusion
  | transfer mode => cases mode <;> exact Status.noConfusion
  | _ => cases hnaming

end

namespace Action

variable {s : Setting} {f : FileInfo} {w : Workspace}

/-- An action that would take a name is skipped by the judgement, if at all. -/
lemma run_skipped {a : Action} (hnaming : ∀ task, a.judge s w f = .ok task → task.isNaming = true)
    (h : (a.run s f w).1.status = .skipped) : ∃ r, a.judge s w f = .error r ∧ r.status = .skipped := by
  unfold run at h
  cases hj : a.judge s w f with
  | error r =>
    rw [hj] at h
    exact ⟨r, rfl, h⟩
  | ok task =>
    rw [hj] at h
    dsimp only at h
    split_ifs at h
    · exact absurd h (Task.trial_ne_skipped (hnaming task hj))
    · exact absurd h (Task.perform_ne_skipped (hnaming task hj))

/-- A file that is not archived since it has been archived is told of by an archive of the name that was asked for: it
has a member with the name of the file, and with the size that the file is said to have. An archive that is not unpacked
since it has been unpacked has all its members in the directory that was asked for, with the sizes that it tells of. -/
theorem skipped_tells (hfile : f.isDir = false) (destination : Option String) :
    (f.ext ≠ ".zip" → ((archive destination).run s f w).1.status = .skipped →
        ∃ ms m, Archive.members s.host w.tree (archivesTo s f destination) = .ok ms ∧ m ∈ ms ∧ m.name = f.name ∧
          m.size = f.size ∧ Archive.isReadable m = true) ∧
      (isArchive s w f = true → ((extract destination).run s f w).1.status = .skipped →
        w.tree.isDir s.host.cwd (unpacksTo s f destination) = true ∧
          ∃ ms, Archive.members s.host w.tree ((w.view s).origin s.host f.path) = .ok ms ∧
            ∀ m ∈ ms, Archive.StandsIn s.host w.tree (unpacksTo s f destination) m) := by
  constructor
  · intro hext hskip
    obtain ⟨r, hj, hr⟩ := run_skipped (fun task hj => by obtain ⟨rfl, -⟩ := judgeArchive_ok (by rwa [judge] at hj); rfl)
      hskip
    refine Archive.contains_eq_true ?_
    rw [judge, judgeArchive] at hj
    simp only [hfile, hext, Bool.false_eq_true, if_false] at hj
    by_contra hout
    rw [archivesTo] at hout
    rw [if_neg hout] at hj
    split_ifs at hj
    cases hj
    cases hr
  · intro hzip hskip
    obtain ⟨r, hj, hr⟩ := run_skipped (fun task hj => by obtain ⟨rfl, -⟩ := judgeExtract_ok (by rwa [judge] at hj); rfl)
      hskip
    rw [judge, judgeExtract] at hj
    simp only [hfile, hzip, Bool.not_true, Bool.or_self, Bool.false_eq_true, if_false] at hj
    split_ifs at hj
    split at hj
    next hout =>
      obtain ⟨hdir, ms, hms, hall⟩ := Archive.isExtracted_eq_true.1 hout
      exact ⟨hdir, ms, hms, fun m hm => Archive.standsIn_of_isOut (hall m hm).2⟩
    next => cases hj
    next =>
      cases hj
      cases hr

section

/-- A file, an archive made of it before it was changed, and what came out of that archive and was changed as well. -/
def stale : Tree := ⟨[
  (["r"], .dir ⟨⟨0, 0⟩, false⟩),
  (["r", "a.txt"], .file ⟨#[1]⟩ ⟨⟨0, 0⟩, false⟩),
  (["r", "a.zip"], .file (Zip.pack "a.txt" ⟨#[2]⟩) ⟨⟨0, 0⟩, false⟩),
  (["r", "a"], .dir ⟨⟨0, 0⟩, false⟩),
  (["r", "a", "a.txt"], .file ⟨#[3]⟩ ⟨⟨0, 0⟩, false⟩)]⟩

lemma members_stale : Archive.members zipping.host stale ⟨"/r/a.zip"⟩ = .ok [⟨"a.txt", 1, .intact ⟨#[2]⟩⟩] := by
  have hread : stale.read zipping.host.cwd ⟨"/r/a.zip"⟩ = .ok (Zip.pack "a.txt" ⟨#[2]⟩) := by decide +kernel
  have hunpack : Zip.members? (Zip.pack "a.txt" ⟨#[2]⟩) = some [⟨"a.txt", 1, .intact ⟨#[2]⟩⟩] :=
    Zip.members?_pack (by decide) (by decide)
  unfold Archive.members
  rw [hread]
  simp only [zipping, hunpack]

lemma archive_stale : ((archive none).run zipping (Job.found "/r/a.txt") (fresh stale)).1.status = .skipped := by
  decide +kernel

lemma extract_stale : ((extract none).run zipping (Job.found "/r/a.zip") (fresh stale)).1.status = .skipped := by
  decide +kernel

/-- The archive is found by its name and the size of its member, and so is what came out of it. -/
theorem skipped_tells_stale :
    (∃ ms m, Archive.members zipping.host stale ⟨"/r/a.zip"⟩ = .ok ms ∧ m ∈ ms ∧ m.name = "a.txt" ∧ m.size = 1 ∧
        Archive.isReadable m = true) ∧
      stale.isDir zipping.host.cwd ⟨"/r/a"⟩ = true ∧ ∃ ms, Archive.members zipping.host stale ⟨"/r/a.zip"⟩ = .ok ms ∧
        ∀ m ∈ ms, Archive.StandsIn zipping.host stale ⟨"/r/a"⟩ m :=
  ⟨(skipped_tells (s := zipping) (f := Job.found "/r/a.txt") (w := fresh stale) rfl none).1 (by decide) archive_stale,
    (skipped_tells (s := zipping) (f := Job.found "/r/a.zip") (w := fresh stale) rfl none).2 (by decide) extract_stale⟩

/-- Neither need be what is in the file, or in the archive. -/
theorem skipped_tells_fails :
    (¬∀ (s : Setting) (f : FileInfo) (w : Workspace) (b : ByteArray) (destination : Option String), w.tree.Sound →
        w.tree.Plain → f.isDir = false → f.ext ≠ ".zip" → w.tree.read s.host.cwd f.path = .ok b → f.size = b.size →
          ((archive destination).run s f w).1.status = .skipped →
            ∃ ms m, Archive.members s.host w.tree (archivesTo s f destination) = .ok ms ∧ m ∈ ms ∧ m.name = f.name ∧
              m.content = .intact b) ∧
      ¬∀ (s : Setting) (f : FileInfo) (w : Workspace) (ms : List Member) (destination : Option String), w.tree.Sound →
        w.tree.Plain → f.isDir = false → isArchive s w f = true → Archive.members s.host w.tree f.path = .ok ms →
          ((extract destination).run s f w).1.status = .skipped →
            ∀ m ∈ ms, ∀ p b, Archive.inside? m = some p → Archive.isDir m = false → m.content = .intact b →
              w.tree.read s.host.cwd ((unpacksTo s f destination).join p) = .ok b := by
  have hs : stale.Sound := sound_of_entries (by decide +kernel)
  have hp : stale.Plain := plain_of_entries (by decide +kernel)
  constructor
  · intro h
    obtain ⟨ms, m, hms, hm, -, hcontent⟩ := h zipping (Job.found "/r/a.txt") (fresh stale) ⟨#[1]⟩ none hs hp rfl (by decide)
      (by decide +kernel) (by decide) archive_stale
    obtain rfl := Except.ok.inj (members_stale.symm.trans hms)
    obtain rfl := List.mem_singleton.1 hm
    cases Content.intact.inj hcontent
  · intro h
    have hread := h zipping (Job.found "/r/a.zip") (fresh stale) _ none hs hp rfl (by decide) members_stale extract_stale _
      (List.mem_singleton_self _) ⟨"a.txt"⟩ ⟨#[2]⟩ (by decide +kernel) (by decide +kernel) rfl
    exact absurd hread (by decide +kernel)

end

end Action

end FileOrganizer
