import FileOrganizer.Machine
import FileOrganizer.Proofs.Path.Resolution
import FileOrganizer.Proofs.Tags.View
import Mathlib.Logic.Function.Basic
import Mathlib.Logic.Relation

/-! Tracked files that are changed and moved, once for real and once only noted: the tag store tells the
same about them in both runs. -/

namespace FileOrganizer

open FileOrganizer.Tree FileOrganizer.Disk

/-- Where the tracked files are by now, what was noted of the changes, and what they have done to the tree
and the tag store. -/
structure Trial (ι : Type) where
  path : ι → Path
  pending : Pending
  tree : Tree
  store : TagStore

variable {ι : Type} {host : Host} {t t' : Tree} {s s' : TagStore} {w w' : Trial ι} {p : ι → Path}
  {b : ι → ByteArray} {i : ι} {source target : Path} {c : ByteArray} {l : Place} {n : Note}

namespace Trial

/-- One change, noted and made: something is put on record about a tracked file, or the file is moved to
where nothing was at first and no tracked file is now. -/
inductive Step [DecidableEq ι] (host : Host) (t : Tree) (w : Trial ι) : Trial ι → Prop
  | note (i : ι) (n : Note) (s' : TagStore) (h : w.store.note host w.tree (w.path i) n = .ok s') :
    Step host t w { w with
      pending := w.pending.note (host.key (w.path i)) n
      store := s' }
  | relocate (i : ι) (target : Path) (t' : Tree) (hfree : t.has host.cwd (host.key target) = false)
      (hshort : Addressable (target.place host.cwd)) (hother : ∀ j, host.key (w.path j) ≠ host.key target)
      (h : moveFile host.toActor (w.path i) target w.tree = (.ok (), t')) :
    Step host t w {
      path := Function.update w.path i target
      pending := w.pending.relocate (host.key (w.path i)) (host.key target)
      tree := t'
      store := w.store.rename (host.key (w.path i)) (host.key target) }

/-- The trial that begins with these files, before any change. -/
def start (t : Tree) (s : TagStore) (p : ι → Path) : Trial ι := ⟨p, .empty, t, s⟩

end Trial

lemma key_eq (hcwd : ∀ n ∈ host.cwd, Proper n) (h : t.read host.cwd source = .ok c) :
    host.key source = Path.ofPlace (source.place host.cwd) := Actor.key_place hcwd (text_of_read h)

lemma canonical_key (hcwd : ∀ n ∈ host.cwd, Proper n) (h : t.read host.cwd source = .ok c) :
    (host.key source).Canonical := Actor.canonical_key hcwd (text_of_read h)

lemma key_key (hcwd : ∀ n ∈ host.cwd, Proper n) (h : t.read host.cwd source = .ok c) :
    host.key (host.key source) = host.key source := Actor.key_key hcwd (text_of_read h)

lemma key_eq_iff (hcwd : ∀ n ∈ host.cwd, Proper n) {t' : Tree} {c' : ByteArray}
    (h : t.read host.cwd source = .ok c) (h' : t'.read host.cwd target = .ok c') :
    host.key source = host.key target ↔ source.place host.cwd = target.place host.cwd :=
  Actor.key_inj hcwd (text_of_read h) (text_of_read h')

lemma bytes?_of_not_has (hs : t.Sound) (hp : t.Plain) (hcwd : ∀ n ∈ host.cwd, Proper n)
    (ha : Addressable (source.place host.cwd)) (htext : source.text ≠ "")
    (h : t.has host.cwd (host.key source) = false) : t.bytes? (source.place host.cwd) = none := by
  have hkey : host.key source = Path.ofPlace (source.place host.cwd) := Actor.key_place hcwd htext
  cases hb : t.bytes? (source.place host.cwd) with
  | none => rfl
  | some c =>
    have hread : t.read host.cwd (Path.ofPlace (source.place host.cwd)) = .ok c :=
      (read_ofPlace hs hp (Path.proper_place hcwd)).2 ⟨ha, hb⟩
    rw [← hkey] at hread
    rw [TagStore.has_of_read hread] at h
    cases h

/-- Files that are tracked: regular files with these contents in a tree without links, filed under
different paths, none of them too long for the system. -/
structure Tracked (host : Host) (t : Tree) (p : ι → Path) (b : ι → ByteArray) : Prop where
  cwd : ∀ n ∈ host.cwd, Proper n
  sound : t.Sound
  plain : t.Plain
  read : ∀ i, t.read host.cwd (p i) = .ok (b i)
  short : ∀ i, Addressable ((p i).place host.cwd)
  apart : Function.Injective fun i => host.key (p i)

namespace Tracked

variable (h : Tracked host t p b)
include h

lemma canonical (i : ι) : (host.key (p i)).Canonical := canonical_key h.cwd (h.read i)

lemma read_key (i : ι) : t.read host.cwd (host.key (p i)) = .ok (b i) := by
  rw [key_eq h.cwd (h.read i), read_ofPlace h.sound h.plain (Path.proper_place h.cwd)]
  exact ⟨h.short i, ((read_eq_ok h.sound h.plain).1 (h.read i)).2⟩

lemma place_ne {j : ι} (hij : i ≠ j) : (p i).place host.cwd ≠ (p j).place host.cwd := fun hp =>
  hij (h.apart ((key_eq_iff h.cwd (h.read i) (h.read j)).2 hp))

end Tracked

namespace Trial

/-- The tracked files are where they went, and the other files are where they were. -/
structure Placed (host : Host) (t : Tree) (p : ι → Path) (b : ι → ByteArray) (w : Trial ι) : Prop
    extends Tracked host w.tree w.path b where
  fresh : ∀ i, host.key (w.path i) = host.key (p i) ∨ t.has host.cwd (host.key (w.path i)) = false
  other : ∀ l, (∀ i, (w.path i).place host.cwd ≠ l) → ∀ c,
    (w.tree.bytes? l = some c ↔ t.bytes? l = some c ∧ ∀ i, (p i).place host.cwd ≠ l)

/-- The facts on record are those that were on record with what was noted laid over them. -/
structure Noted (host : Host) (t : Tree) (s : TagStore) (p : ι → Path) (b : ι → ByteArray) (w : Trial ι) :
    Prop where
  bare : ∀ k, (∀ i, host.key (w.path i) ≠ k) → w.pending.Bare k
  origin : ∀ i, w.pending.origins.get? (host.key (w.path i)) = some (host.key (p i)) ∨
    w.pending.origins.get? (host.key (w.path i)) = none ∧ w.path i = p i
  order : Path.InOrder w.pending.indexed
  sound : w.store.Sound host.toActor
  facts : ∀ i, w.store.facts (host.key (w.path i)) =
    w.pending.laid (host.key (w.path i)) (Content.print host (b i)) (s.facts (host.key (p i)))
  other : ∀ k, (∀ i, host.key (w.path i) ≠ k) → (∀ i, host.key (p i) ≠ k) → t.has host.cwd k = true →
    w.store.facts k = s.facts k

lemma Noted.origin_eq (h : Noted host t s p b w) (i : ι) :
    w.pending.origin (host.key (w.path i)) = host.key (p i) := by
  unfold Pending.origin
  rcases h.origin i with horigin | ⟨horigin, hpath⟩
  · rw [horigin]
    rfl
  · rw [horigin, hpath]
    rfl

lemma Noted.note (hw : Tracked host w.tree w.path b) (h : Noted host t s p b w)
    (hnote : w.store.note host w.tree (w.path i) n = .ok s') :
    Noted host t s p b { w with pending := w.pending.note (host.key (w.path i)) n, store := s' } where
  bare k hk := (h.bare k hk).note (hk i)
  origin j := by
    rw [Pending.origins_note]
    exact h.origin j
  order := Pending.inOrder_note h.order (hw.canonical i)
  sound := h.sound.note (key_key hw.cwd (hw.read i)) (hw.read i) hnote
  facts j := by
    dsimp only
    rw [TagStore.facts_note (hw.read i) hnote, Pending.laid_note, h.facts j]
    split
    · next hij => rw [hw.apart hij]
    · rfl
  other k hk hk' hhas := by
    dsimp only
    rw [TagStore.facts_note (hw.read i) hnote, if_neg (hk i)]
    exact h.other k hk hk' hhas

section

variable [DecidableEq ι]

/-- The trial after a tracked file went to another path. -/
def moved (host : Host) (w : Trial ι) (i : ι) (target : Path) (t' : Tree) : Trial ι where
  path := Function.update w.path i target
  pending := w.pending.relocate (host.key (w.path i)) (host.key target)
  tree := t'
  store := w.store.rename (host.key (w.path i)) (host.key target)

lemma path_self : (w.moved host i target t').path i = target := by simp [moved]

lemma path_other {j : ι} (hj : j ≠ i) : (w.moved host i target t').path j = w.path j := by simp [moved, hj]

lemma Placed.tracked_moved (hw : Placed host t p b w) (hshort : Addressable (target.place host.cwd))
    (hother : ∀ j, host.key (w.path j) ≠ host.key target)
    (hmove : Moved host.cwd (w.path i) target (b i) w.tree t') :
    Tracked host t' (w.moved host i target t').path b := by
  refine ⟨hw.cwd, hmove.sound, hmove.plain, fun j => ?_, fun j => ?_, fun j k hjk => ?_⟩
  · by_cases hj : j = i
    · subst hj
      rw [path_self]
      exact hmove.read
    · have hplace : target.place host.cwd ≠ (w.path j).place host.cwd := fun h =>
        hother j ((key_eq_iff hw.cwd (hw.read j) hmove.read).2 h.symm)
      rw [path_other hj]
      exact read_steady hw.sound hw.plain hmove.sound hmove.plain hmove.dirs
        (hmove.other _ hplace (hw.place_ne (Ne.symm hj))) (hw.read j)
  · by_cases hj : j = i
    · subst hj
      rwa [path_self]
    · rw [path_other hj]
      exact hw.short j
  · dsimp only at hjk
    by_cases hj : j = i
    · subst hj
      by_cases hk : k = j
      · exact hk.symm
      · rw [path_self, path_other hk] at hjk
        exact absurd hjk.symm (hother k)
    · rw [path_other hj] at hjk
      by_cases hk : k = i
      · subst hk
        rw [path_self] at hjk
        exact absurd hjk (hother j)
      · rw [path_other hk] at hjk
        exact hw.apart hjk

lemma Placed.relocate (h₀ : Tracked host t p b) (hw : Placed host t p b w)
    (hfree : t.has host.cwd (host.key target) = false) (hshort : Addressable (target.place host.cwd))
    (hother : ∀ j, host.key (w.path j) ≠ host.key target)
    (hmove : Moved host.cwd (w.path i) target (b i) w.tree t') :
    Placed host t p b (w.moved host i target t') where
  toTracked := hw.tracked_moved hshort hother hmove
  fresh j := by
    by_cases hj : j = i
    · subst hj
      rw [path_self]
      exact Or.inr hfree
    · rw [path_other hj]
      exact hw.fresh j
  other l hl c := by
    have htarget : target.place host.cwd ≠ l := by
      have hli := hl i
      rwa [path_self] at hli
    have hrest : ∀ j, j ≠ i → (w.path j).place host.cwd ≠ l := by
      intro j hj
      have hlj := hl j
      rwa [path_other hj] at hlj
    have htree : (w.moved host i target t').tree = t' := rfl
    rw [htree]
    by_cases hli : (w.path i).place host.cwd = l
    · -- The file has left the place empty; at first it was empty too, or the file was there then.
      subst hli
      refine iff_of_false (by simp [hmove.gone]) fun ⟨hc, hfirst⟩ => ?_
      rcases hw.fresh i with hkey | hnone
      · exact hfirst i ((key_eq_iff hw.cwd (hw.read i) (h₀.read i)).1 hkey).symm
      · have hempty := bytes?_of_not_has h₀.sound h₀.plain hw.cwd (hw.short i) (text_of_read (hw.read i)) hnone
        rw [hempty] at hc
        cases hc
    · rw [hmove.other l htarget hli]
      refine hw.other l (fun j => ?_) c
      by_cases hj : j = i
      · exact hj ▸ hli
      · exact hrest j hj

lemma Noted.relocate (hw : Placed host t p b w) (h : Noted host t s p b w)
    (hother : ∀ j, host.key (w.path j) ≠ host.key target)
    (hmove : Moved host.cwd (w.path i) target (b i) w.tree t') :
    Noted host t s p b (w.moved host i target t') := by
  have hne := hother i
  have hbare : w.pending.Bare (host.key target) := h.bare _ hother
  have hnodup := h.order.nodup
  have hkeys : ∀ j, j ≠ i → host.key (w.path i) ≠ host.key (w.path j) := fun j hj hij => hj (hw.apart hij).symm
  have hfacts : ∀ m, (w.moved host i target t').store.facts m =
      if host.key target = m then w.store.facts (host.key (w.path i))
        else if host.key (w.path i) = m then .none else w.store.facts m := fun m => TagStore.facts_rename hne
  refine ⟨fun k hk => ?_, fun j => ?_, ?_, ?_, fun j => ?_, fun k hk hk' hhas => ?_⟩
  · have htarget : host.key target ≠ k := by
      have hki := hk i
      rwa [path_self] at hki
    refine hbare.relocate hne hnodup htarget fun hik => h.bare k fun j => ?_
    by_cases hj : j = i
    · exact hj ▸ hik
    · have hkj := hk j
      rwa [path_other hj] at hkj
  · have horigins : ∀ m, (w.moved host i target t').pending.origins.get? m =
        if host.key target = m then some (w.pending.origin (host.key (w.path i)))
          else if host.key (w.path i) = m then none else w.pending.origins.get? m :=
      fun m => Pending.origins_relocate
    rw [horigins]
    by_cases hj : j = i
    · subst hj
      rw [path_self, if_pos rfl, h.origin_eq]
      exact Or.inl rfl
    · rw [path_other hj, if_neg (hother j).symm, if_neg (hkeys j hj)]
      exact h.origin j
  · exact Pending.inOrder_relocate h.order (canonical_key hw.cwd hmove.read)
  · exact h.sound.rename (key_key hw.cwd hmove.read)
  · have hover : ∀ m print f, (w.moved host i target t').pending.laid m print f =
        if host.key target = m then w.pending.laid (host.key (w.path i)) print f
          else if host.key (w.path i) = m then f else w.pending.laid m print f :=
      fun m print f => Pending.laid_relocate hne hbare hnodup
    rw [hfacts, hover]
    by_cases hj : j = i
    · subst hj
      rw [path_self, if_pos rfl, if_pos rfl]
      exact h.facts j
    · rw [path_other hj, if_neg (hother j).symm, if_neg (hkeys j hj), if_neg (hother j).symm, if_neg (hkeys j hj)]
      exact h.facts j
  · have htarget : host.key target ≠ k := by
      have hki := hk i
      rwa [path_self] at hki
    have hik : host.key (w.path i) ≠ k := by
      rintro rfl
      rcases hw.fresh i with hkey | hnone
      · exact hk' i hkey.symm
      · rw [hnone] at hhas
        cases hhas
    rw [hfacts, if_neg htarget, if_neg hik]
    refine h.other k (fun j => ?_) hk' hhas
    by_cases hj : j = i
    · exact hj ▸ hik
    · have hkj := hk j
      rwa [path_other hj] at hkj

end

/-- The view of the store as it was, with what was noted laid over it. -/
def overlay (s : TagStore) (w : Trial ι) : View := ⟨s, some w.pending⟩

section

variable (h₀ : Tracked host t p b) (hw : Placed host t p b w) (h : Noted host t s p b w)
include h₀

lemma content_eq (hdigest : Set.InjOn host.digest {c | ∃ l, t.bytes? l = some c}) {i : ι}
    (hc : ∃ l, t.bytes? l = some c) (hd : host.digest (b i) = host.digest c) : b i = c :=
  hdigest ⟨_, ((read_eq_ok h₀.sound h₀.plain).1 (h₀.read i)).2⟩ hc hd

omit h₀ in
lemma key_of_print {k : Path} {f : Fingerprint} (hs : s.Sound host.toActor) (h : s.print k = some f) :
    host.key k = k := by
  obtain ⟨r, hr, -⟩ := TagStore.print_eq_some.1 h
  exact hs.2 k (by simp [hr])

include hw in
/-- What is read under a path that no tracked file has now is what was read there at first. -/
lemma read_other {k : Path} (hk : host.key k = k) (hother : ∀ j, host.key (w.path j) ≠ k) :
    w.tree.read host.cwd k = .ok c ↔ t.read host.cwd k = .ok c ∧ ∀ j, host.key (p j) ≠ k := by
  by_cases htext : k.text = ""
  · exact iff_of_false (fun hread => text_of_read hread htext) fun hread => text_of_read hread.1 htext
  · have hplace : k = Path.ofPlace (k.place host.cwd) := hk.symm.trans (Actor.key_place h₀.cwd htext)
    have hproper : ∀ n ∈ k.place host.cwd, Proper n := Path.proper_place h₀.cwd
    have hfar : ∀ j, (w.path j).place host.cwd ≠ k.place host.cwd := fun j hj =>
      hother j (((Actor.key_inj h₀.cwd (text_of_read (hw.read j)) htext).2 hj).trans hk)
    have hfirst : (∀ j, (p j).place host.cwd ≠ k.place host.cwd) ↔ ∀ j, host.key (p j) ≠ k := by
      refine forall_congr' fun j => not_congr ?_
      rw [← Actor.key_inj h₀.cwd (text_of_read (h₀.read j)) htext]
      exact ⟨fun he => he.trans hk, fun he => he.trans hk.symm⟩
    generalize k.place host.cwd = l at *
    subst hplace
    rw [read_ofPlace hw.sound hw.plain hproper, read_ofPlace h₀.sound h₀.plain hproper, hw.other l hfar c, hfirst,
      and_assoc]

include hw h in
/-- A file has a twin on record in the end just if it had one at first, or one was noted on the way. -/
lemma hasTwin_iff (hstore : s.Sound host.toActor)
    (hdigest : Set.InjOn host.digest {c | ∃ l, t.bytes? l = some c}) (i : ι) :
    w.store.HasTwin host w.tree (host.key (w.path i)) (b i) ↔
      s.HasTwin host t (host.key (p i)) (b i) ∨
        ∃ j, j ≠ i ∧ host.key (w.path j) ∈ w.pending.indexed ∧ b i = b j := by
  have hprint : ∀ j, w.store.print (host.key (w.path j)) =
      if host.key (w.path j) ∈ w.pending.indexed then some (Content.print host (b j))
        else s.print (host.key (p j)) := fun j => congrArg Facts.print (h.facts j)
  have hbytes : ∀ j, ∃ l, t.bytes? l = some (b j) := fun j =>
    ⟨_, ((read_eq_ok h₀.sound h₀.plain).1 (h₀.read j)).2⟩
  constructor
  · rintro ⟨k, hk, ⟨f, hf, hfit⟩, c, hread, hd⟩
    by_cases htracked : ∃ j, host.key (w.path j) = k
    · obtain ⟨j, rfl⟩ := htracked
      obtain rfl : b j = c := Except.ok.inj ((hw.read_key j).symm.trans hread)
      have hb : b i = b j := content_eq h₀ hdigest (hbytes j) hd
      have hij : j ≠ i := by
        rintro rfl
        exact hk rfl
      rw [hprint j] at hf
      split at hf
      · next hidx => exact Or.inr ⟨j, hij, hidx, hb⟩
      · exact Or.inl ⟨host.key (p j), fun he => hij (h₀.apart he), ⟨f, hf, hfit⟩, b j, h₀.read_key j, hd⟩
    · push Not at htracked
      obtain ⟨hfirst, huntracked⟩ := (read_other h₀ hw (key_of_print h.sound hf) htracked).1 hread
      have hfacts := h.other k htracked huntracked (TagStore.has_of_read hfirst)
      have hsame : w.store.print k = s.print k := congrArg Facts.print hfacts
      exact Or.inl ⟨k, (huntracked i).symm, ⟨f, hsame ▸ hf, hfit⟩, c, hfirst, hd⟩
  · rintro (⟨k, hk, ⟨f, hf, hfit⟩, c, hread, hd⟩ | ⟨j, hij, hidx, hb⟩)
    · by_cases htracked : ∃ j, host.key (p j) = k
      · obtain ⟨j, rfl⟩ := htracked
        obtain rfl : b j = c := Except.ok.inj ((h₀.read_key j).symm.trans hread)
        have hb : b i = b j := content_eq h₀ hdigest (hbytes j) hd
        have hij : j ≠ i := by
          rintro rfl
          exact hk rfl
        refine ⟨host.key (w.path j), fun he => hij (hw.apart he), ?_, b j, hw.read_key j, hd⟩
        rw [hprint j]
        split
        · exact ⟨_, rfl, hb ▸ Fingerprint.fits_print⟩
        · exact ⟨f, hf, hfit⟩
      · push Not at htracked
        have hnow : ∀ j, host.key (w.path j) ≠ k := by
          rintro j rfl
          rcases hw.fresh j with hkey | hnone
          · exact htracked j hkey.symm
          · rw [TagStore.has_of_read hread] at hnone
            cases hnone
        have hlast := (read_other h₀ hw (key_of_print hstore hf) hnow).2 ⟨hread, htracked⟩
        have hfacts := h.other k hnow htracked (TagStore.has_of_read hread)
        have hsame : w.store.print k = s.print k := congrArg Facts.print hfacts
        exact ⟨k, (hnow i).symm, ⟨f, hsame.trans hf, hfit⟩, c, hlast, hd⟩
    · refine ⟨host.key (w.path j), fun he => hij (hw.apart he), ?_, b j, hw.read_key j, by rw [hb]⟩
      rw [hprint j, if_pos hidx]
      exact ⟨_, rfl, hb ▸ Fingerprint.fits_print⟩

end

section

def copies : Tree := ⟨[
  (["r"], .dir ⟨⟨0, 0⟩, false⟩),
  (["r", "a"], .file ⟨#[1]⟩ ⟨⟨0, 0⟩, false⟩),
  (["r", "b"], .file ⟨#[1]⟩ ⟨⟨0, 0⟩, false⟩)]⟩

end

end Trial

end FileOrganizer
