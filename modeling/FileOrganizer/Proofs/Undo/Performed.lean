import FileOrganizer.Proofs.Batch.Archive
import FileOrganizer.Proofs.Batch.Task
import FileOrganizer.Proofs.Undo.Written

/-! What was done when a file was moved, copied or packed, or a directory was made: just what its record
tells of. -/

namespace FileOrganizer

open FileOrganizer.Tree FileOrganizer.Disk

variable {who : Actor} {cwd l : Place} {t t₁ t₂ t' : Tree} {p source target : Path} {b : ByteArray} {a : Attrs}
  {x : Node} {gone : Set Place}

namespace Tree

/-- Directories were made on the way to the target, then something came into being there and what is in
`gone` went. -/
lemma Arrived.of_lays (hs : t.Sound) (hs' : t'.Sound) (hp : t.Plain) (hdesc : ∃ k n, Descent target (k ++ [n]))
    (hlays : t.Lays t₁ (target.place cwd)) (hfree : t₁.node? (target.place cwd) = none)
    (hhere : t'.node? (target.place cwd) = some x) (hlock : t'.isLocked (target.place cwd).dropLast ≠ true)
    (hgone : ∀ q ∈ gone, (∃ b a, t.node? q = some (.file b a)) ∧ t'.node? q = none)
    (hother : ∀ q, q ≠ target.place cwd → q ∉ gone → t'.node? q = t₁.node? q) :
    Arrived cwd target x gone t t' where
  sound := hs
  sound' := hs'
  plain := hp
  descent := hdesc
  free := by
    by_contra hne
    exact hne ((hlays.addsDirs.keep hne).symm.trans hfree)
  here := hhere
  unlocked := hlock
  files := hgone
  laid q hq hg := by
    rcases hlays q with h | ⟨hpre, hnone, hdir, hopen⟩
    · exact Or.inl ((hother q hq hg).trans h)
    · exact Or.inr ⟨hpre, hnone, (hother q hq hg).trans hdir, hopen⟩

/-- Something came into being where a path leads. -/
lemma Arrived.of_sets (hs : t.Sound) (hs₁ : t₁.Sound) (hs' : t'.Sound) (hp : t.Plain) (hup : Part.up ∉ target.parts)
    (hlays : t.Lays t₁ (target.place cwd)) {follow : Bool}
    (hloc : t₁.locate cwd follow target = .ok ⟨l, none⟩) (hlock : t₁.isLocked l.dropLast ≠ true)
    (hset : t₁.Sets t' l (some x)) : Arrived cwd target x ∅ t t' := by
  have hp₁ := hlays.addsDirs.plain hp
  have hfree := node?_of_locate hs₁ hloc
  have hslash := slash_of_locate hs₁ hp₁ hloc (not_isDirAt_of_none hfree)
  obtain rfl : l = target.place cwd := locate_place hp₁ hloc
  have hloc' : t₁.locate cwd false target = .ok ⟨target.place cwd, none⟩ := by
    rw [locate_steady hp₁ hp₁ (fun _ => id) hloc, at?_eq_none.2 hfree]
  obtain ⟨d, n, hpar, hplace⟩ := parentOf_of_locate hs₁ hslash hloc' (by simp)
  obtain ⟨k, hdesc, -⟩ := descent_of_parentOf hp₁ hup hpar
  have hne : target.place cwd ≠ (target.place cwd).dropLast := by
    rw [hplace, List.dropLast_concat]
    simp
  refine .of_lays hs hs' hp ⟨k, n, hdesc⟩ hlays hfree hset.same ?_ (by simp) fun q hq _ => hset.other (Ne.symm hq)
  rwa [Ne, isLocked_iff, hset.other hne, ← isLocked_iff]

end Tree

namespace Disk

lemma Paved.lays (h : Paved who p t t') (hs : t.Sound) (hp : t.Plain) (hup : Part.up ∉ p.parts) :
    t.Lays t' (p.place who.cwd) := by
  obtain ⟨l, hbody⟩ := Path.body_of_level hup
  rw [Path.place_of_body hbody]
  induction h with
  | refl t => exact .refl t _
  | step made rest ih =>
    obtain ⟨hs₁, hadd⟩ := makeParents_addsDirs hs made
    have hlays := (makeParents_lays hs hp hbody made).longer
      ((List.prefix_append_right_inj _).2 (List.dropLast_prefix l))
    exact hlays.trans (ih hs₁ (hadd.plain hp)) List.prefix_rfl

/-- A copy is what its record tells of. -/
lemma copyFile_did (hs : t.Sound) (hp : t.Plain) (hup : Part.up ∉ target.parts)
    (h : copyFile who source target t = (.ok (), t')) (time : Instant) :
    UndoRecord.Did who.cwd ⟨source, target, .copy, time⟩ t t' := by
  obtain ⟨hs', ⟨⟨e, he⟩, -⟩ | ⟨t₁, hs₁, hpaved, -, ls, b, a, l, a', -, hloc, hlock, hset⟩⟩ := copyFile_cases hs h
  · cases he
  · have hslash := slash_of_locate hs₁ ((hpaved.addsDirs hs).2.plain hp) hloc
        (not_isDirAt_of_none (node?_of_locate hs₁ hloc))
    exact .made (Or.inr ⟨⟨b, a', rfl⟩, hslash⟩)
      (.of_sets hs hs₁ hs' hp hup (hpaved.lays hs hp hup) hloc hlock hset)

section

variable (hs : t.Sound) (hp : t.Plain) (hfile : t.node? (source.place who.cwd) = some (.file b a))

include hs hp hfile

/-- A renaming onto a free place carries the file there and nothing else. -/
lemma rename_arrived (hup : Part.up ∉ source.parts) (hup' : Part.up ∉ target.parts) (hs₁ : t₁.Sound) (hpaved : Paved who target t t₁)
    (hno : t₁.has who.cwd target = false) (h : Tree.rename who source target t₁ = .ok t') :
    (source.endsInSlash ≠ true ∧ target.endsInSlash ≠ true) ∧
      (∃ k n, Descent source (k ++ [n]) ∧ t.isLocked (start who.cwd source ++ k) ≠ true) ∧
      Arrived who.cwd target (.file b a) {source.place who.cwd} t t' := by
  have hadd := (hpaved.addsDirs hs).2
  have hp₁ := hadd.plain hp
  obtain ⟨d, n, d', n', y, hsrc, hdst, hy, hslash, hcase⟩ := rename_ok hs₁ h
  have hplace := parentOf_place hp₁ hsrc
  have hplace' := parentOf_place hp₁ hdst
  have hfile₁ : t₁.node? (d ++ [n]) = some (.file b a) := by
    rw [← hplace, hadd.keep (by simp [hfile]), hfile]
  obtain rfl : y = .file b a := Option.some.inj (hy.symm.trans hfile₁)
  obtain ⟨hs_slash, ht_slash⟩ := hslash (by simp)
  have hloc : t₁.locate who.cwd true target = .ok ⟨d' ++ [n'], t₁.at? (d' ++ [n'])⟩ :=
    locate_of_parentOf hdst ht_slash fun _ z => hp₁ _ z
  -- Nothing is at the target, since the path does not lead to anything.
  have hfree : t₁.node? (d' ++ [n']) = none := by
    by_contra hne
    obtain ⟨e, he⟩ := Option.ne_none_iff_exists'.1 (mt at?_eq_none.1 hne)
    rw [he] at hloc
    rw [has_iff.2 ⟨_, _, stat_eq_ok.2 hloc⟩] at hno
    cases hno
  rcases hcase with ⟨hsame, -⟩ | ⟨hlock, hlock', -, -, -, hcar⟩
  · rw [← hsame, hfile₁] at hfree
    cases hfree
  · have hne : d ++ [n] ≠ d' ++ [n'] := by
      intro heq
      rw [← heq, hfile₁] at hfree
      cases hfree
    obtain ⟨htarget, hsource, hother⟩ := hcar.file hs₁ hfile₁ hfree
    have hdir' := parentOf_isDirAt hs₁ hdst
    have hkeep : t'.node? d' = t₁.node? d' := by
      refine hother d' ?_ (by simp)
      rintro rfl
      exact not_isDirAt_of_file hfile₁ hdir'
    obtain ⟨k, hdesc, rfl⟩ := descent_of_parentOf hp₁ hup hsrc
    obtain ⟨k', hdesc', -⟩ := descent_of_parentOf hp₁ hup' hdst
    refine ⟨⟨hs_slash, ht_slash⟩, ⟨k, n, hdesc, hadd.isLocked_ne hlock⟩, .of_lays hs (sound_of_rename hs₁ h) hp
      ⟨k', n', hdesc'⟩ (hpaved.lays hs hp hup') (hplace' ▸ hfree) (hplace' ▸ htarget) ?_ ?_ ?_⟩
    · rwa [hplace', List.dropLast_concat, Ne, isLocked_iff, hkeep, ← isLocked_iff]
    · rintro q rfl
      exact ⟨⟨b, a, hfile⟩, hplace ▸ hsource⟩
    · intro q hq hq'
      exact hother q (hplace ▸ hq') (hplace' ▸ hq)

/-- A copy whose source was removed is a move. -/
lemma copied_arrived (hup : Part.up ∉ source.parts) (hup' : Part.up ∉ target.parts)
    (hs₁ : t₁.Sound) (hpaved : Paved who target t t₁)
    (hcop : Copied who.cwd source target t₁ t₂) (h : Tree.removeFile who source t₂ = .ok t') :
    source.endsInSlash ≠ true ∧ (∃ k n, Descent source (k ++ [n]) ∧ t.isLocked (start who.cwd source ++ k) ≠ true) ∧
      ∃ a', Arrived who.cwd target (.file b a') {source.place who.cwd} t t' := by
  have hadd := (hpaved.addsDirs hs).2
  have hp₁ := hadd.plain hp
  have hs₂ := hcop.sound hs₁
  have hp₂ := hcop.plain hp₁
  obtain ⟨ls, c, ac, l, a', hst, hloc, hlock, hset⟩ := hcop
  obtain ⟨d, n, y, hsrc, hs_slash, hy, hk, hlockd, hrem⟩ := removeFile_ok h
  have hplace := parentOf_place hp₂ hsrc
  have hfile₁ : t₁.node? (source.place who.cwd) = some (.file b a) := by
    rw [hadd.keep (by simp [hfile]), hfile]
  obtain ⟨rfl, rfl⟩ : c = b ∧ ac = a := by
    have hnode := node?_of_at? (stat_ok hs₁ hst).1
    rw [stat_place hp₁ hst, hfile₁] at hnode
    cases hnode
    exact ⟨rfl, rfl⟩
  have hmade := Arrived.of_sets hs hs₁ hs₂ hp hup' (hpaved.lays hs hp hup') hloc hlock hset
  have hfree := node?_of_locate hs₁ hloc
  obtain rfl : l = target.place who.cwd := locate_place hp₁ hloc
  have hne : d ++ [n] ≠ target.place who.cwd := by
    intro heq
    rw [hplace, heq, hfree] at hfile₁
    cases hfile₁
  -- The directory around the target is still as it was, as the source is no directory.
  have hdir : t'.node? (target.place who.cwd).dropLast = t₂.node? (target.place who.cwd).dropLast := by
    refine hrem.other ?_
    intro heq
    have hup₂ := Rollback.isDirAt_up hs₂ (q := target.place who.cwd) (by simp [hmade.here])
    rw [← heq] at hup₂
    exact not_isDirAt_of_node hy hk hup₂
  obtain ⟨k, hdesc, rfl⟩ := descent_of_parentOf hp₂ hup hsrc
  refine ⟨hs_slash, ⟨k, n, hdesc, ?_⟩, a', ?_⟩
  · intro hl
    have hl₁ : t₁.isLocked (start who.cwd source ++ k) = true := by
      rw [isLocked_iff] at hl ⊢
      rw [hadd.keep (by simp [hl]), hl]
    refine hlockd ?_
    rw [isLocked_iff] at hl₁ ⊢
    rw [hset.other, hl₁]
    intro heq
    rw [← heq, hfree] at hl₁
    cases hl₁
  · refine .of_lays hs (sound_of_removeFile hs₂ h) hp hmade.descent (hpaved.lays hs hp hup') hfree
      ((hrem.other hne).trans hset.same) ?_ ?_ ?_
    · rw [Ne, isLocked_iff, hdir, ← isLocked_iff]
      exact hmade.unlocked
    · rintro q rfl
      exact ⟨⟨c, ac, hfile⟩, hplace ▸ hrem.same⟩
    · intro q hq hq'
      rw [hrem.other (fun heq => hq' (hplace.trans heq).symm), hset.other (Ne.symm hq)]

/-- A move is what its record tells of. -/
lemma moveFile_did (habs : source.isAbsolute = true) (hup : Part.up ∉ source.parts) (hup' : Part.up ∉ target.parts)
    (h : moveFile who source target t = (.ok (), t')) (time : Instant) :
    UndoRecord.Did who.cwd ⟨source, target, .move, time⟩ t t' := by
  obtain ⟨hs', ⟨⟨e, he⟩, -⟩ | ⟨t₁, hs₁, hpaved, hno, ⟨-, hren⟩ | ⟨⟨e, he⟩, -⟩ | ⟨-, t₂, hcop, hrem⟩⟩⟩ := moveFile_cases hs h
  · cases he
  · obtain ⟨hslash, ⟨k, n, hdesc, hlock⟩, harr⟩ := rename_arrived hs hp hfile hup hup' hs₁ hpaved hno hren
    have hplace := hdesc.place who.cwd
    rw [start_absolute habs, List.nil_append] at hplace hlock
    rw [hplace] at harr hfile
    exact .moved habs hdesc hslash hlock ⟨a, hfile⟩ harr
  · cases he
  · obtain ⟨hs_slash, ⟨k, n, hdesc, hlock⟩, a', harr⟩ := copied_arrived hs hp hfile hup hup' hs₁ hpaved hcop hrem
    have ht_slash : target.endsInSlash ≠ true := by
      obtain ⟨ls, c, ac, l, a', -, hloc, -⟩ := hcop
      exact slash_of_locate hs₁ ((hpaved.addsDirs hs).2.plain hp) hloc
        (not_isDirAt_of_none (node?_of_locate hs₁ hloc))
    have hplace := hdesc.place who.cwd
    rw [start_absolute habs, List.nil_append] at hplace hlock
    rw [hplace] at harr hfile
    exact .moved habs hdesc ⟨hs_slash, ht_slash⟩ hlock ⟨a, hfile⟩ harr

end

/-- A directory that was made after those on its way. -/
lemma makeDir_arrived (hs : t.Sound) (hp : t.Plain) (hup : Part.up ∉ p.parts) (hs₁ : t₁.Sound)
    (hlays : t.Lays t₁ (p.place who.cwd)) (h : Tree.makeDir who p t₁ = .ok t') :
    Arrived who.cwd p (.dir false) ∅ t t' := by
  have hp₁ := hlays.addsDirs.plain hp
  obtain ⟨d, n, hpar, hnone, hlock, hset⟩ := makeDir_ok h
  have hplace := parentOf_place hp₁ hpar
  obtain ⟨k, hdesc, -⟩ := descent_of_parentOf hp₁ hup hpar
  refine .of_lays hs (sound_of_makeDir hs₁ h) hp ⟨k, n, hdesc⟩ hlays (hplace ▸ hnone) (hplace ▸ hset.same) ?_
    (by simp) fun q hq _ => hset.other fun heq => hq (hplace.trans heq).symm
  rwa [hplace, List.dropLast_concat, Ne, isLocked_iff, hset.other (by simp), ← isLocked_iff]

/-- The directories on the way to a path do not make it a path to a directory. -/
lemma isDir_of_lays (hs : t.Sound) (hp : t.Plain) {l : List String} (hbody : p.body = l.map Part.name)
    (hstart : t.isDirAt (start who.cwd p) = true) (hlays : t.Lays t' (start who.cwd p ++ l.dropLast)) (hs' : t'.Sound)
    (h : t'.isDir who.cwd p = true) : t.isDir who.cwd p = true := by
  have hp' := hlays.addsDirs.plain hp
  obtain ⟨k, a, hst⟩ := isDir_iff.1 h
  have hplace : k = start who.cwd p ++ l := (stat_place hp' hst).trans (Path.place_of_body hbody)
  obtain ⟨htaken, -, hwalk⟩ := (locate_eq_ok hp').1 (stat_eq_ok.1 hst)
  refine isDir_level hs hp hbody (fun n hn => ?_) htaken ?_
  · have hmem : n ∈ steps p.chars := by
      have hn' := hn
      rw [← Path.filter_segments hbody] at hn'
      have hin : n ∈ (steps p.chars).filter (· ≠ ".") := by
        rw [filter_steps]
        exact hn'
      exact (List.mem_filter.1 hin).1
    have hprop : Proper n := Path.ordinary_of_mem_body (c := .name n) (by rw [hbody]; exact List.mem_map_of_mem hn)
    exact (walk_place hp' hwalk).2 n hmem hprop.2.1 hprop.2.2.1
  · have hdir := at?_dir (stat_ok hs' hst).1
    rw [hplace] at hdir
    rcases hlays (start who.cwd p ++ l) with hsame | ⟨hpre, hnone, -⟩
    · rwa [← isDirAt_congr hsame]
    · -- Only a path without names is as long as the way to it.
      obtain rfl : l = [] := by
        by_contra hl
        have hlen := hpre.length_le
        have hpos := List.length_pos_of_ne_nil hl
        rw [List.length_append, List.length_append, List.length_dropLast] at hlen
        omega
      rwa [List.append_nil]

/-- A directory that was not there is there now: it was made last, and those on the way to it before. -/
lemma makeDirsFrom_arrived {fuel : Nat} (hs : t.Sound) (hp : t.Plain) (hup : Part.up ∉ p.parts)
    (htext : p.text ≠ "") (hstart : t.isDirAt (start who.cwd p) = true) (hno : t.isDir who.cwd p = false)
    (h : makeDirsFrom who fuel p t = (.ok (), t')) :
    Arrived who.cwd p (.dir false) ∅ t t' := by
  cases fuel with
  | zero =>
    rw [makeDirsFrom, change] at h
    cases hmake : Tree.makeDir who p t with
    | ok u =>
      rw [hmake] at h
      cases h
      exact makeDir_arrived hs hp hup hs (.refl t _) hmake
    | error e =>
      rw [hmake] at h
      cases h
  | succ fuel =>
    simp only [makeDirsFrom, if_neg htext] at h
    split at h
    · next u hmake =>
      cases h
      exact makeDir_arrived hs hp hup hs (.refl t _) hmake
    · next hmake =>
      split at h
      · cases h
      · next q hq =>
        split at h
        · cases h
        · next t₁ hrec =>
          obtain ⟨l, hbody⟩ := Path.body_of_level hup
          obtain ⟨habs, hbodyq⟩ := Path.parent?_body hq
          rw [hbody, ← List.map_dropLast] at hbodyq
          have hs₁ := (makeDirsFrom_addsDirs hs hrec).1
          have hlays := makeDirsFrom_lays hs hp hbodyq hrec
          rw [show start who.cwd q = start who.cwd p by rw [start, start, habs]] at hlays
          have hplace : p.place who.cwd = start who.cwd p ++ l := Path.place_of_body hbody
          split at h
          · next u hmake' =>
            cases h
            refine makeDir_arrived hs hp hup hs₁ (hlays.longer ?_) hmake'
            rw [hplace]
            exact (List.prefix_append_right_inj _).2 (List.dropLast_prefix l)
          · obtain ⟨hr, rfl⟩ := Prod.mk.inj h
            split at hr
            · next hd =>
              rw [isDir_of_lays hs hp hbody hstart hlays hs₁ hd] at hno
              cases hno
            · cases hr
    · rw [hno] at h
      cases h

/-- A directory that was made with those on its way is what its record tells of. -/
lemma makeDirs_did (hs : t.Sound) (hp : t.Plain) (hup : Part.up ∉ target.parts)
    (habs : target.isAbsolute = true) (hno : t.isDir who.cwd target = false)
    (h : makeDirs who target t = (.ok (), t')) (source : Path) (time : Instant) :
    UndoRecord.Did who.cwd ⟨source, target, .copy, time⟩ t t' := by
  refine .made (Or.inl rfl) (makeDirsFrom_arrived hs hp hup (text_of_absolute habs) ?_ hno h)
  rw [start_absolute habs]
  exact isDirAt_nil

end Disk

/-- An archive that was made is what its record tells of. -/
lemma Archive.write_did {host : Host} {name : String} (hs : t.Sound) (hp : t.Plain) (hup : Part.up ∉ target.parts)
    (h : Archive.write host source name target t = (.ok (), t')) (time : Instant) :
    UndoRecord.Did host.cwd ⟨source, target, .copy, time⟩ t t' := by
  obtain ⟨hs', t₁, ht₁, hs₁, hadd, ⟨⟨e, he⟩, -⟩ | ⟨l, x, hslash, hloc, hlock, hset, b, a, rfl⟩⟩ := write_cases hs h
  · cases he
  · obtain ⟨k, hbody⟩ := Path.body_of_level hup
    have hlays : t.Lays t₁ (target.place host.cwd) := by
      rw [Path.place_of_body hbody, ht₁]
      exact (makeParents_lays hs hp hbody rfl).longer ((List.prefix_append_right_inj _).2 (List.dropLast_prefix k))
    exact .made (Or.inr ⟨⟨b, a, rfl⟩, hslash⟩) (.of_sets hs hs₁ hs' hp hup hlays hloc hlock hset)

end FileOrganizer
