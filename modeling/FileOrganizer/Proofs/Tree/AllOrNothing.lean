import FileOrganizer.Proofs.Tree.Attributes
import FileOrganizer.Proofs.Tree.Return

/-! Moving and copying are all or nothing: what is taken to a place arrives there as it was, or nothing has changed
but that there are new directories on the way to it. -/

namespace FileOrganizer

open FileOrganizer.Tree FileOrganizer.Disk

namespace Tree

variable {t t₁ t' : Tree} {l src dst q : Place} {b : ByteArray} {a : Attrs}

/-- Nothing has changed but that there are new directories on the way to `l`, and with them the times of others. -/
structure OnlyWay (t t' : Tree) (l : Place) : Prop where
  lays : t.Lays t' l
  still : t.Still t' l

lemma OnlyWay.refl (t : Tree) (l : Place) : t.OnlyWay t l := ⟨.refl t l, .refl t l⟩

lemma OnlyWay.trans (h : t.OnlyWay t₁ l) (h' : t₁.OnlyWay t' l) : t.OnlyWay t' l :=
  ⟨h.lays.trans h'.lays List.prefix_rfl, h.still.trans h'.still List.prefix_rfl⟩

/-- What stood at and below `src` stands at and below `dst`, where nothing was, just as it stood, and nothing is left
behind. Apart from that there are only new directories on the way. -/
structure MovedWhole (t t' : Tree) (src dst : Place) : Prop where
  vacant : t.node? dst = none
  there : t.node? src ≠ none
  arrived : ∀ r, t'.at? (dst ++ r) = t.at? (src ++ r)
  gone : ∀ r, t'.node? (src ++ r) = none
  other : ∀ q, ¬src <+: q → ¬dst <+: q → t.Laid t' dst.dropLast q

/-- The file at `src` is there still, and once more, with its bytes and its time, at `dst`, where nothing was. Apart
from that there are only new directories on the way. -/
structure CopiedWhole (t t' : Tree) (src dst : Place) : Prop where
  vacant : t.node? dst = none
  file : ∃ b a, t.at? src = some (.file b a) ∧ t'.at? src = some (.file b a) ∧ t'.at? dst = some (.file b a)
  other : ∀ q, q ≠ dst → t.Laid t' dst.dropLast q

lemma AddsDirs.vacant (h : t.AddsDirs t') (hq : t'.node? q = none) : t.node? q = none := by
  rcases h q with hsame | ⟨hnone, -⟩
  · exact hsame ▸ hq
  · exact hnone

lemma AddsDirs.file (h : t.AddsDirs t') (hq : t'.node? q = some (.file b a)) : t.node? q = some (.file b a) := by
  rcases h q with hsame | ⟨-, hdir⟩
  · exact hsame ▸ hq
  · rw [hdir] at hq
    cases hq

/-- A place that is not above another is not on the way to it. -/
lemma not_prefix_dropLast (h : ¬src <+: dst) (r : Place) : ¬src ++ r <+: dst.dropLast :=
  fun hpre => h ((List.prefix_append src r).trans (hpre.trans (List.dropLast_prefix dst)))

lemma MovedWhole.not_prefix (h : t.MovedWhole t' src dst) : ¬src <+: dst := by
  rintro ⟨r, rfl⟩
  have harrived := h.arrived []
  rw [List.append_nil, List.append_nil, at?_eq_none.2 (h.gone r)] at harrived
  exact h.there (at?_eq_none.1 harrived.symm)

lemma MovedWhole.after (hway : t.OnlyWay t₁ dst.dropLast) (h : t₁.MovedWhole t' src dst) : t.MovedWhole t' src dst := by
  have hstill : ∀ r, t₁.at? (src ++ r) = t.at? (src ++ r) := fun r => hway.still _ (not_prefix_dropLast h.not_prefix r)
  refine ⟨hway.lays.addsDirs.vacant h.vacant, ?_, fun r => (h.arrived r).trans (hstill r), h.gone, fun q hsrc hdst => ?_⟩
  · have hsrc := hstill []
    rw [List.append_nil] at hsrc
    rw [Ne, ← at?_eq_none, ← hsrc, at?_eq_none]
    exact h.there
  · exact hway.lays.trans_laid (h.other q hsrc hdst) List.prefix_rfl

lemma CopiedWhole.after (hway : t.OnlyWay t₁ dst.dropLast) (h : t₁.CopiedWhole t' src dst) :
    t.CopiedWhole t' src dst := by
  obtain ⟨b, a, hsrc, hkept, hdst⟩ := h.file
  have hsrc' : t.at? src = some (.file b a) := at?_file.2 (hway.lays.addsDirs.file (at?_file.1 hsrc))
  exact ⟨hway.lays.addsDirs.vacant h.vacant, ⟨b, a, hsrc', hkept, hdst⟩,
    fun q hq => hway.lays.trans_laid (h.other q hq) List.prefix_rfl⟩

lemma CopiedWhole.plain (h : t.CopiedWhole t' src dst) (hp : t.Plain) : t'.Plain := by
  obtain ⟨b, a, -, -, hdst⟩ := h.file
  refine hp.of_node? fun q => ?_
  by_cases hq : q = dst
  · exact Or.inr (Or.inr (Or.inr (Or.inl ⟨b, a, hq ▸ at?_file.1 hdst⟩)))
  · rcases h.other q hq with hsame | ⟨-, -, hnew, -⟩
    · exact Or.inl hsame
    · exact Or.inr (Or.inr (Or.inl ⟨false, hnew⟩))

lemma CopiedWhole.isDirAt (h : t.CopiedWhole t' src dst) (hd : t.isDirAt q = true) : t'.isDirAt q = true := by
  have hq : q ≠ dst := by
    rintro rfl
    exact not_isDirAt_of_none h.vacant hd
  rcases h.other q hq with hsame | ⟨-, -, hnew, -⟩
  · rwa [isDirAt_congr hsame]
  · exact isDirAt_iff.2 ⟨false, hnew⟩

/-- A directory that is protected afterwards was protected before. -/
lemma CopiedWhole.isLocked (h : t.CopiedWhole t' src dst) (hd : t'.isLocked q = true) : t.isLocked q = true := by
  obtain ⟨b, a, -, -, hdst⟩ := h.file
  rw [isLocked_iff] at hd ⊢
  have hq : q ≠ dst := by
    rintro rfl
    simp [at?_file.1 hdst] at hd
  rcases h.other q hq with hsame | ⟨-, -, hnew, -⟩
  · exact hsame ▸ hd
  · simp [hnew] at hd

end Tree

namespace Disk

variable {who : Actor} {t t₁ t' : Tree} {source target : Path} {e : Fault} {r : Except Fault Unit}

lemma clear_made (h : clear who target t = (r, t')) : ∃ r₀, makeParents who target t = (r₀, t') := by
  unfold clear at h
  rw [run_bind] at h
  split at h
  · next t₁ hmake =>
    refine ⟨.ok (), ?_⟩
    rw [run_bind, run_get] at h
    dsimp only at h
    split at h <;> cases h <;> exact hmake
  · next e t₁ hmake =>
    cases h
    exact ⟨_, hmake⟩

section

variable (hs : t.Sound) (hp : t.Plain) (ha : target.isAbsolute = true) (hup : Part.up ∉ target.parts)

include hs hp ha hup

lemma onlyWay_of_clear (h : clear who target t = (r, t')) : t.OnlyWay t' (target.place who.cwd).dropLast := by
  obtain ⟨l, hbody⟩ := Path.body_of_level hup
  obtain ⟨r₀, hmake⟩ := clear_made h
  have hway : (target.place who.cwd).dropLast = start who.cwd target ++ l.dropLast := by
    rw [Path.place_of_body hbody, start_absolute ha, List.nil_append, List.nil_append]
  rw [hway]
  exact ⟨makeParents_lays hs hp hbody hmake, makeParents_still hs hp hbody hmake⟩

end

/-- The content of a file is written as a whole or not at all. -/
lemma duplicate_error (hs : t.Sound) (hno : t.has who.cwd target = false)
    (h : duplicate who source target t = (.error e, t')) : t' = t := by
  unfold duplicate at h
  rw [run_bind, ask] at h
  cases hst : t.stat who.cwd source with
  | error e =>
    rw [hst] at h
    cases h
    rfl
  | ok x =>
    obtain ⟨l, x⟩ := x
    rw [hst] at h
    cases x with
    | dir a =>
      cases h
      rfl
    | link x =>
      cases h
      rfl
    | file b a =>
      dsimp only at h
      rw [run_bind, change] at h
      cases hw : Tree.writeFile who target b t with
      | error e =>
        rw [hw] at h
        cases h
        rfl
      | ok t₁ =>
        rw [hw] at h
        dsimp only [change] at h
        -- The file that was made is there, so that its time can be set.
        rcases writeFile_ok hs hw with ⟨l, b₀, a₀, hl, -, -⟩ | ⟨l, hl, -, ht⟩
        · rw [has_iff.2 ⟨l, _, hl⟩] at hno
          cases hno
        · rw [Tree.setAttrs, stat_of_made hs hl ht] at h
          cases h

lemma duplicate_file (h : duplicate who source target t = (.ok (), t')) :
    ∃ l b a, t.stat who.cwd source = .ok (l, .file b a) := by
  obtain ⟨⟨l, x⟩, t₀, hask, h⟩ := bind_eq_ok h
  obtain ⟨hst, rfl⟩ := ask_eq_ok hask
  cases x with
  | file b a => exact ⟨l, b, a, hst⟩
  | dir a => cases h
  | link x => cases h

lemma copiedWhole_of_duplicate (hs : t.Sound) (hp : t.Plain) (hno : t.has who.cwd target = false)
    (h : duplicate who source target t = (.ok (), t')) :
    t.CopiedWhole t' (source.place who.cwd) (target.place who.cwd) := by
  obtain ⟨l, b, a, hst⟩ := duplicate_file h
  obtain ⟨l', hl, hset⟩ := duplicate_sets hs hno hst h
  obtain rfl := stat_place hp hst
  obtain rfl : l' = target.place who.cwd := locate_place hp hl
  have hvacant := node?_of_locate hs hl
  have hsrc := (stat_ok hs hst).1
  have hne : target.place who.cwd ≠ source.place who.cwd := by
    intro heq
    rw [heq, at?_file.1 hsrc] at hvacant
    cases hvacant
  refine ⟨hvacant, ⟨b, a, hsrc, ?_, at?_file.2 hset.same⟩, fun q hq => Or.inl (hset.other (Ne.symm hq))⟩
  exact at?_file.2 ((hset.other hne).trans (at?_file.1 hsrc))

lemma vacant_of_rename (hs : t.Sound) (hp : t.Plain) (hno : t.has who.cwd target = false)
    (h : Tree.rename who source target t = .ok t') : t.node? (target.place who.cwd) = none := by
  obtain ⟨d, n, d', n', x, hsrc, hdst, hx, hslash, hcase⟩ := rename_ok hs h
  rw [parentOf_place hp hdst, ← at?_eq_none]
  by_contra hat
  obtain ⟨y, hy⟩ := Option.ne_none_iff_exists'.1 hat
  have hstat := stat_of_parentOf hp hdst hy fun hend => by
    -- A target that is spelled as a directory is one, as only directories are renamed to such a path.
    by_contra hfile
    have hydir : ∀ k, t.node? (d' ++ [n']) ≠ some (.dir k) := by
      intro k hk
      rw [node?_of_at? hy] at hk
      exact isDir_eq_false.1 (by simpa using hfile) k (Option.some.inj hk)
    have hxdir : ∃ k, x = .dir k := by
      by_contra hk
      exact (hslash fun k hx => hk ⟨k, hx⟩).2 hend
    obtain ⟨k, rfl⟩ := hxdir
    rcases hcase with ⟨hsame, -⟩ | ⟨-, -, hnone | ⟨hk, -⟩ | ⟨-, hdir, -⟩, -⟩
    · exact hydir k (hsame ▸ hx)
    · rw [← at?_eq_none, hy] at hnone
      cases hnone
    · exact hk k rfl
    · obtain ⟨k', hk'⟩ := isDirAt_iff.1 hdir
      exact hydir k' hk'
  rw [has_iff.2 ⟨_, _, hstat⟩] at hno
  cases hno

lemma movedWhole_of_rename (hs : t.Sound) (hp : t.Plain) (hno : t.has who.cwd target = false)
    (h : Tree.rename who source target t = .ok t') :
    t.MovedWhole t' (source.place who.cwd) (target.place who.cwd) := by
  have hvacant := vacant_of_rename hs hp hno h
  obtain ⟨d, n, d', n', x, hsrc, hdst, hx, -, hcase⟩ := rename_ok hs h
  rw [parentOf_place hp hdst] at hvacant ⊢
  rw [parentOf_place hp hsrc]
  rcases hcase with ⟨hsame, -⟩ | ⟨-, -, -, hnot, hout, hcar⟩
  · rw [← hsame, hx] at hvacant
    cases hvacant
  · refine ⟨hvacant, by simp [hx], at?_of_rename h hsrc hdst hnot hout, fun r => hcar.source fun hpre => ?_,
      fun q hq hq' => Or.inl (hcar.other hq' hq)⟩
    rcases comparable hpre (List.prefix_append (d ++ [n]) r) with hc | hc
    · exact hout hc
    · exact hnot hc

/-- A copy whose original is removed is a thing that has been moved. -/
lemma movedWhole_of_copy {t₂ : Tree} (hs₂ : t₂.Sound) (hp : t.Plain) (hs : t.Sound)
    (hcopy : t.CopiedWhole t₂ (source.place who.cwd) (target.place who.cwd))
    (h : Tree.removeFile who source t₂ = .ok t') :
    t.MovedWhole t' (source.place who.cwd) (target.place who.cwd) := by
  have hs' := sound_of_removeFile hs₂ h
  obtain ⟨d, n, x, hpar, -, -, -, -, hset⟩ := removeFile_ok h
  rw [← parentOf_place (hcopy.plain hp) hpar] at hset
  obtain ⟨b, a, hsrc, -, hdst⟩ := hcopy.file
  have hne : source.place who.cwd ≠ target.place who.cwd := by
    intro heq
    have hvacant := hcopy.vacant
    rw [← heq, at?_file.1 hsrc] at hvacant
    cases hvacant
  have hfile : t'.node? (target.place who.cwd) = some (.file b a) := (hset.other hne).trans (at?_file.1 hdst)
  refine ⟨hcopy.vacant, by simp [at?_file.1 hsrc], fun r => ?_, fun r => ?_, fun q hq hq' => ?_⟩
  · rcases eq_or_ne r [] with rfl | hr
    · rw [List.append_nil, List.append_nil, hsrc, at?_file.2 hfile]
    · rw [at?_eq_none.2 (hs'.node?_below r hr (not_isDirAt_of_file hfile)),
        at?_eq_none.2 (hs.node?_below r hr (not_isDirAt_of_file (at?_file.1 hsrc)))]
  · rcases eq_or_ne r [] with rfl | hr
    · rw [List.append_nil, hset.same]
    · exact hs'.node?_below r hr (not_isDirAt_of_none hset.same)
  · have hsq : source.place who.cwd ≠ q := by
      rintro rfl
      exact hq List.prefix_rfl
    have hdq : q ≠ target.place who.cwd := by
      rintro rfl
      exact hq' List.prefix_rfl
    exact (hcopy.other q hdq).congr (hset.other hsq)

/-- An original that is a file can be removed but where its directory is protected. -/
lemma locked_of_copy {t₂ : Tree} {x : OsError} (hs₂ : t₂.Sound) (hp : t.Plain) (hhas : t.has who.cwd source = true)
    (hcopy : t.CopiedWhole t₂ (source.place who.cwd) (target.place who.cwd))
    (h : Tree.removeFile who source t₂ = .error x) : t.isLocked (source.place who.cwd).dropLast = true := by
  obtain ⟨l, y, hstat⟩ := has_iff.1 hhas
  obtain rfl := stat_place hp hstat
  obtain ⟨b, a, -, hkept, -⟩ := hcopy.file
  have hp₂ := hcopy.plain hp
  have hloc : t₂.locate who.cwd true source = .ok ⟨source.place who.cwd, some (.file b a)⟩ :=
    hkept ▸ locate_steady hp hp₂ (fun _ => hcopy.isDirAt) (stat_eq_ok.1 hstat)
  have hnode := at?_file.1 hkept
  have hslash := slash_of_locate hs₂ hp₂ hloc (not_isDirAt_of_file hnode)
  obtain ⟨d, n, hpar⟩ := parentOf_of_read hs₂ hp₂
    ((read_eq_ok hs₂ hp₂).2 ⟨⟨_, hloc⟩, bytes?_eq_some.2 ⟨a, hnode⟩⟩)
  rw [parentOf_place hp₂ hpar] at hnode ⊢
  rw [List.dropLast_concat]
  apply hcopy.isLocked
  by_contra hopen
  obtain ⟨t', hok, -⟩ := removeFile_eq_ok hpar hslash hnode (by simp) hopen
  rw [hok] at h
  cases h

section

variable (hs : t.Sound) (hp : t.Plain) (ha : target.isAbsolute = true) (hup : Part.up ∉ target.parts)

include hs hp ha hup

lemma copyFile_whole (h : copyFile who source target t = (.ok (), t')) :
    t.CopiedWhole t' (source.place who.cwd) (target.place who.cwd) := by
  obtain ⟨_, t₁, hclear, h⟩ := bind_eq_ok h
  have hway := onlyWay_of_clear hs hp ha hup hclear
  obtain ⟨hs₁, -, hno⟩ := clear_cases hs hclear
  exact (copiedWhole_of_duplicate hs₁ (hway.lays.addsDirs.plain hp) (hno rfl) h).after hway

lemma copyFile_nothing (h : copyFile who source target t = (.error e, t')) :
    t.OnlyWay t' (target.place who.cwd).dropLast := by
  unfold copyFile at h
  rw [run_bind] at h
  split at h
  · next t₁ hclear =>
    obtain ⟨hs₁, -, hno⟩ := clear_cases hs hclear
    obtain rfl := duplicate_error hs₁ (hno rfl) h
    exact onlyWay_of_clear hs hp ha hup hclear
  · next e t₁ hclear =>
    cases h
    exact onlyWay_of_clear hs hp ha hup hclear

lemma moveFile_whole (h : moveFile who source target t = (.ok (), t')) :
    t.MovedWhole t' (source.place who.cwd) (target.place who.cwd) := by
  obtain ⟨_, t₁, hclear, h⟩ := bind_eq_ok h
  have hway := onlyWay_of_clear hs hp ha hup hclear
  have hp₁ := hway.lays.addsDirs.plain hp
  obtain ⟨hs₁, -, hno⟩ := clear_cases hs hclear
  rw [run_bind, run_get] at h
  dsimp only at h
  cases hren : Tree.rename who source target t₁ with
  | ok t₂ =>
    rw [hren] at h
    cases h
    exact (movedWhole_of_rename hs₁ hp₁ (hno rfl) hren).after hway
  | error e =>
    rw [hren] at h
    dsimp only at h
    split at h
    · obtain ⟨_, t₂, hexplain, hremove⟩ := bind_eq_ok h
      have hcopy := explain_eq_ok hexplain
      exact (movedWhole_of_copy (copyFile_cases hs₁ hcopy).1 hp₁ hs₁ (copyFile_whole hs₁ hp₁ ha hup hcopy)
        (change_eq_ok hremove)).after hway
    · cases h

/-- A file that was copied and could not be removed was in a protected directory. -/
lemma moveFile_nothing (h : moveFile who source target t = (.error e, t')) :
    t.OnlyWay t' (target.place who.cwd).dropLast ∨ t.isLocked (source.place who.cwd).dropLast = true ∧
      t.CopiedWhole t' (source.place who.cwd) (target.place who.cwd) := by
  unfold moveFile at h
  rw [run_bind] at h
  split at h
  · next t₁ hclear =>
    have hway := onlyWay_of_clear hs hp ha hup hclear
    have hp₁ := hway.lays.addsDirs.plain hp
    have hs₁ := (clear_cases hs hclear).1
    rw [run_bind, run_get] at h
    dsimp only at h
    cases hren : Tree.rename who source target t₁ with
    | ok t₂ =>
      rw [hren] at h
      cases h
    | error x =>
      rw [hren] at h
      dsimp only at h
      split at h
      · next hhas =>
        rw [run_bind, explain] at h
        rcases hcopy : copyFile who source target t₁ with ⟨r, t₂⟩
        rw [hcopy] at h
        cases r with
        | error x' =>
          cases h
          exact Or.inl (hway.trans (copyFile_nothing hs₁ hp₁ ha hup hcopy))
        | ok u =>
          have hwhole := copyFile_whole hs₁ hp₁ ha hup hcopy
          dsimp only [change] at h
          split at h
          · cases h
          · next y hremove =>
            cases h
            have hlock := locked_of_copy (copyFile_cases hs₁ hcopy).1 hp₁ hhas hwhole hremove
            refine Or.inr ⟨?_, hwhole.after hway⟩
            by_contra hopen
            exact hway.lays.unlocked hopen hlock
      · cases h
        exact Or.inl hway
  · next x t₁ hclear =>
    cases h
    exact Or.inl (onlyWay_of_clear hs hp ha hup hclear)

/-- Moving and copying are all or nothing. What stops leaves new directories at most, but for a move out of a protected
directory: there the original can be copied and not removed, and then the whole copy is left beside it. -/
theorem transfer_all_or_nothing :
    (∀ t', moveFile who source target t = (.ok (), t') →
      t.MovedWhole t' (source.place who.cwd) (target.place who.cwd)) ∧
    (∀ t', copyFile who source target t = (.ok (), t') →
      t.CopiedWhole t' (source.place who.cwd) (target.place who.cwd)) ∧
    (∀ e t', moveFile who source target t = (.error e, t') →
      t.OnlyWay t' (target.place who.cwd).dropLast ∨ t.isLocked (source.place who.cwd).dropLast = true ∧
        t.CopiedWhole t' (source.place who.cwd) (target.place who.cwd)) ∧
    ∀ e t', copyFile who source target t = (.error e, t') → t.OnlyWay t' (target.place who.cwd).dropLast :=
  ⟨fun _ => moveFile_whole hs hp ha hup, fun _ => copyFile_whole hs hp ha hup,
    fun _ _ => moveFile_nothing hs hp ha hup, fun _ _ => copyFile_nothing hs hp ha hup⟩

end

/-- A folder with a file in it. -/
def folder : Tree := ⟨[
  (["r"], .dir ⟨⟨0, 0⟩, false⟩),
  (["r", "a"], .dir ⟨⟨0, 0⟩, false⟩),
  (["r", "a", "f"], .file ⟨#[1]⟩ ⟨⟨0, 0⟩, false⟩)]⟩

/-- The folder goes as a whole to a place whose directory is made for it; it does not go into itself, where no more
than that directory is left. -/
theorem transfer_all_or_nothing_folder : folder.Sound ∧ folder.Plain ∧
    (∃ t', moveFile ⟨[], ⟨1, 0⟩⟩ ⟨"/r/a"⟩ ⟨"/n/b"⟩ folder = (.ok (), t') ∧ folder.MovedWhole t' ["r", "a"] ["n", "b"]) ∧
    ∃ e t', moveFile ⟨[], ⟨1, 0⟩⟩ ⟨"/r/a"⟩ ⟨"/r/a/n/b"⟩ folder = (.error e, t') ∧
      folder.OnlyWay t' ["r", "a", "n"] ∧ t'.isDirAt ["r", "a", "n"] = true := by
  have hs : folder.Sound := sound_of_entries (by decide)
  have hp : folder.Plain := plain_of_entries (by decide)
  refine ⟨hs, hp, ?_, ?_⟩
  · have hok : (moveFile ⟨[], ⟨1, 0⟩⟩ ⟨"/r/a"⟩ ⟨"/n/b"⟩ folder).1.isOk = true := by decide +kernel
    rcases hrun : moveFile ⟨[], ⟨1, 0⟩⟩ ⟨"/r/a"⟩ ⟨"/n/b"⟩ folder with ⟨e | u, t'⟩
    · rw [hrun] at hok
      cases hok
    · have hwhole := (transfer_all_or_nothing hs hp (by decide +kernel) (by decide +kernel)).1 t' hrun
      rw [show Path.place [] ⟨"/r/a"⟩ = ["r", "a"] by decide +kernel,
        show Path.place [] ⟨"/n/b"⟩ = ["n", "b"] by decide +kernel] at hwhole
      exact ⟨t', rfl, hwhole⟩
  · have hdir : (moveFile ⟨[], ⟨1, 0⟩⟩ ⟨"/r/a"⟩ ⟨"/r/a/n/b"⟩ folder).1.isOk = false ∧
      (moveFile ⟨[], ⟨1, 0⟩⟩ ⟨"/r/a"⟩ ⟨"/r/a/n/b"⟩ folder).2.isDirAt ["r", "a", "n"] = true := by decide +kernel
    rcases hrun : moveFile ⟨[], ⟨1, 0⟩⟩ ⟨"/r/a"⟩ ⟨"/r/a/n/b"⟩ folder with ⟨e | u, t'⟩
    · rw [hrun] at hdir
      have hway := (transfer_all_or_nothing hs hp (by decide +kernel) (by decide +kernel)).2.2.1 e t' hrun
      rw [show Path.place [] ⟨"/r/a/n/b"⟩ = ["r", "a", "n", "b"] by decide +kernel] at hway
      exact ⟨e, t', rfl, hway.resolve_right fun hlock => absurd hlock.1 (by decide +kernel), hdir.2⟩
    · rw [hrun] at hdir
      cases hdir.1

/-- A file in a protected directory. -/
def guarded : Tree := ⟨[(["r"], .dir ⟨⟨0, 0⟩, true⟩), (["r", "f"], .file ⟨#[1]⟩ ⟨⟨0, 0⟩, false⟩)]⟩

/-- The file cannot be renamed, but it can be read, and so there is a copy when its removal fails. -/
theorem transfer_all_or_nothing_fails : ¬∀ (who : Actor) (t t' : Tree) (source target : Path) (e : Fault), t.Sound →
    t.Plain → source.isAbsolute = true → Part.up ∉ source.parts → target.isAbsolute = true → Part.up ∉ target.parts →
    moveFile who source target t = (.error e, t') → t.OnlyWay t' (target.place who.cwd).dropLast := by
  intro hall
  have hrun : (moveFile ⟨[], ⟨1, 0⟩⟩ ⟨"/r/f"⟩ ⟨"/n/g"⟩ guarded).1.isOk = false ∧
      (moveFile ⟨[], ⟨1, 0⟩⟩ ⟨"/r/f"⟩ ⟨"/n/g"⟩ guarded).2.bytes? ["n", "g"] = some ⟨#[1]⟩ := by decide +kernel
  rcases hmove : moveFile ⟨[], ⟨1, 0⟩⟩ ⟨"/r/f"⟩ ⟨"/n/g"⟩ guarded with ⟨e | u, t'⟩
  · rw [hmove] at hrun
    have hway := hall ⟨[], ⟨1, 0⟩⟩ guarded t' ⟨"/r/f"⟩ ⟨"/n/g"⟩ e (sound_of_entries (by decide))
      (plain_of_entries (by decide)) (by decide) (by decide) (by decide) (by decide) hmove
    obtain ⟨a, hcopy⟩ := bytes?_eq_some.1 hrun.2
    -- nothing new is a file
    have hbefore := hway.lays.addsDirs.file hcopy
    rw [show guarded.node? ["n", "g"] = none by decide +kernel] at hbefore
    cases hbefore
  · rw [hmove] at hrun
    cases hrun.1

end Disk

end FileOrganizer
