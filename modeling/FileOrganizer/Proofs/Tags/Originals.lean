import FileOrganizer.Proofs.Tags.Trial
import FileOrganizer.Proofs.Tree.Steady

/-! Of the files with the same content that are on record, exactly one is not tagged as a duplicate. That holds on when
files go elsewhere and their records with them, and when one more content is put on record. -/

namespace FileOrganizer

open FileOrganizer.Tree

variable {host : Host} {tag : String} {t t' : Tree} {s s' : TagStore} {p q : Place} {b c : ByteArray} {g : Place → Place}

/-- The places of the files with these bytes, as far as a path from the root leads to them. -/
def Tree.copies (t : Tree) (c : ByteArray) : Set Place :=
  {q | Addressable q ∧ t.bytes? q = some c}

namespace TagStore

/-- The content of the file at this place is on record. -/
def Filed (s : TagStore) (q : Place) : Prop := s.print (.ofPlace q) ≠ none

def Tagged (s : TagStore) (tag : String) (q : Place) : Prop := (Path.ofPlace q, tag) ∈ s.tags

lemma ofPlace_inj (hp : ∀ n ∈ p, Proper n) (hq : ∀ n ∈ q, Proper n) : Path.ofPlace p = .ofPlace q ↔ p = q := by
  refine ⟨fun h => ?_, fun h => h ▸ rfl⟩
  have hplace := congrArg (Path.place []) h
  rwa [Path.place_ofPlace hp, Path.place_ofPlace hq] at hplace

/-- What is on record of the files is right, only files on record are tagged, and for each content on record there is
exactly one file on record that is not tagged. -/
structure OneOriginal (host : Host) (tag : String) (t : Tree) (s : TagStore) : Prop where
  sound : t.Sound
  plain : t.Plain
  store : s.Sound host.toActor
  print : ∀ c, ∀ q ∈ t.copies c, ∀ f, s.print (.ofPlace q) = some f → f = Content.print host c
  tagged : ∀ c, ∀ q ∈ t.copies c, s.Tagged tag q → s.Filed q
  original : ∀ c, ∀ q ∈ t.copies c, s.Filed q → ∃! u, u ∈ t.copies c ∧ s.Filed u ∧ ¬s.Tagged tag u

/-- The files have gone to where `g` says, and what is on record about them with them. Other files are not on record. -/
structure Carried (tag : String) (g : Place → Place) (t : Tree) (s : TagStore) (t' : Tree) (s' : TagStore) : Prop where
  mem : ∀ c, ∀ q ∈ t.copies c, g q ∈ t'.copies c
  print : ∀ c, ∀ q ∈ t.copies c, s'.print (.ofPlace (g q)) = s.print (.ofPlace q)
  tagged : ∀ c, ∀ q ∈ t.copies c, (s'.Tagged tag (g q) ↔ s.Tagged tag q)
  back : ∀ c, ∀ q ∈ t'.copies c, (∃ q₀ ∈ t.copies c, g q₀ = q) ∨ ¬s'.Filed q ∧ ¬s'.Tagged tag q

/-- The files on record have gone to where `g` says. They are on record there, and none of them has got the tag. -/
def Stays (tag : String) (g : Place → Place) (t : Tree) (s : TagStore) (t' : Tree) (s' : TagStore) : Prop :=
  ∀ c, ∀ q ∈ t.copies c, s.Filed q → g q ∈ t'.copies c ∧ s'.Filed (g q) ∧ (s'.Tagged tag (g q) → s.Tagged tag q)

lemma Stays.trans {g' : Place → Place} {t'' : Tree} {s'' : TagStore} (h : Stays tag g t s t' s')
    (h' : Stays tag g' t' s' t'' s'') : Stays tag (fun q => g' (g q)) t s t'' s'' := by
  intro c q hq hf
  obtain ⟨hg, hfg, htg⟩ := h c q hq hf
  obtain ⟨hgg, hfgg, htgg⟩ := h' c (g q) hg hfg
  exact ⟨hgg, hfgg, fun ht => htg (htgg ht)⟩

lemma Carried.filed (h : Carried tag g t s t' s') (hq : q ∈ t.copies c) : s'.Filed (g q) ↔ s.Filed q := by
  rw [Filed, Filed, h.print c q hq]

lemma Carried.stays (h : Carried tag g t s t' s') : Stays tag g t s t' s' := fun c q hq hf =>
  ⟨h.mem c q hq, (h.filed hq).2 hf, (h.tagged c q hq).1⟩

lemma Carried.of_adds (hadd : t.Adds t')
    (hnew : ∀ q, t.bytes? q = none → t'.bytes? q ≠ none → ¬s.Filed q ∧ ¬s.Tagged tag q) : Carried tag id t s t' s where
  mem c q hq := ⟨hq.1, hadd.keeps q c hq.2⟩
  print _ _ _ := rfl
  tagged _ _ _ := Iff.rfl
  back c q hq := by
    cases hbytes : t.bytes? q with
    | none => exact Or.inr (hnew q hbytes (by simp [hq.2]))
    | some d =>
      obtain rfl : d = c := Option.some.inj ((hadd.keeps q d hbytes).symm.trans hq.2)
      exact Or.inl ⟨q, ⟨hq.1, hbytes⟩, rfl⟩

lemma mem_tags_of_facts {k m : Path} (h : s'.facts k = s.facts m) : (k, tag) ∈ s'.tags ↔ (m, tag) ∈ s.tags :=
  Set.ext_iff.1 (congrArg Facts.tags h) tag

lemma Carried.of_moved {source target : Path} (hcwd : ∀ n ∈ host.cwd, Proper n) (hs : t.Sound) (hp : t.Plain)
    (hread : t.read host.cwd source = .ok b) (hmoved : Moved host.cwd source target b t t')
    (hfrom : Addressable (source.place host.cwd)) (hto : Addressable (target.place host.cwd))
    (hprint : ∀ k, s'.print k = (s.rename (host.key source) (host.key target)).print k)
    (htags : ∀ k, (k, tag) ∈ s'.tags ↔ (k, tag) ∈ (s.rename (host.key source) (host.key target)).tags) :
    Carried tag (fun q => if q = source.place host.cwd then target.place host.cwd else q) t s t' s' := by
  have hbytes := bytes?_of_read hs hp hread
  have hgot := bytes?_of_read hmoved.sound hmoved.plain hmoved.read
  have hne : target.place host.cwd ≠ source.place host.cwd := fun heq => by
    rw [← heq, hmoved.free] at hbytes
    cases hbytes
  have hsource : ∀ n ∈ source.place host.cwd, Proper n := Path.proper_place hcwd
  have htarget : ∀ n ∈ target.place host.cwd, Proper n := Path.proper_place hcwd
  rw [key_eq hcwd hread, key_eq hcwd hmoved.read] at hprint htags
  have hkeys : Path.ofPlace (source.place host.cwd) ≠ .ofPlace (target.place host.cwd) := fun heq =>
    hne ((ofPlace_inj hsource htarget).1 heq).symm
  have hfacts := fun m => facts_rename (s := s) (m := m) hkeys
  have hmiss : ∀ c, ∀ q ∈ t.copies c, q ≠ target.place host.cwd := by
    rintro c q hq rfl
    have hfile := hq.2
    rw [hmoved.free] at hfile
    cases hfile
  -- Away from both places the facts are as they were.
  have hrest : ∀ c, ∀ q ∈ t.copies c, q ≠ source.place host.cwd →
      (s.rename (.ofPlace (source.place host.cwd)) (.ofPlace (target.place host.cwd))).facts (.ofPlace q) =
        s.facts (.ofPlace q) := by
    intro c q hq hqs
    rw [hfacts, if_neg fun heq => hmiss c q hq ((ofPlace_inj htarget hq.1.proper).1 heq).symm,
      if_neg fun heq => hqs ((ofPlace_inj hsource hq.1.proper).1 heq).symm]
  have hself : (s.rename (.ofPlace (source.place host.cwd)) (.ofPlace (target.place host.cwd))).facts
      (.ofPlace (target.place host.cwd)) = s.facts (.ofPlace (source.place host.cwd)) := by
    rw [hfacts, if_pos rfl]
  refine ⟨fun c q hq => ?_, fun c q hq => ?_, fun c q hq => ?_, fun c q hq => ?_⟩
  · split
    · next heq =>
      subst heq
      exact ⟨hto, hgot.trans (hbytes.symm.trans hq.2)⟩
    · next hqs => exact ⟨hq.1, (hmoved.other q (hmiss c q hq).symm fun heq => hqs heq.symm).trans hq.2⟩
  · rw [hprint]
    split
    · next heq =>
      subst heq
      exact congrArg Facts.print hself
    · next hqs => exact congrArg Facts.print (hrest c q hq hqs)
  · rw [Tagged, htags]
    split
    · next heq =>
      subst heq
      exact mem_tags_of_facts hself
    · next hqs => exact mem_tags_of_facts (hrest c q hq hqs)
  · left
    by_cases heq : q = target.place host.cwd
    · subst heq
      exact ⟨source.place host.cwd, ⟨hfrom, hbytes.trans (hgot.symm.trans hq.2)⟩, if_pos rfl⟩
    · have hqs : q ≠ source.place host.cwd := by
        rintro rfl
        have hfile := hq.2
        rw [hmoved.gone] at hfile
        cases hfile
      refine ⟨q, ⟨hq.1, ?_⟩, if_neg hqs⟩
      exact (hmoved.other q (fun h => heq h.symm) fun h => hqs h.symm).symm.trans hq.2

namespace OneOriginal

variable (h : OneOriginal host tag t s)

include h

lemma carried (hc : Carried tag g t s t' s') (hs' : t'.Sound) (hp' : t'.Plain) (hstore' : s'.Sound host.toActor) :
    OneOriginal host tag t' s' where
  sound := hs'
  plain := hp'
  store := hstore'
  print c q hq f hf := by
    rcases hc.back c q hq with ⟨q₀, hq₀, rfl⟩ | ⟨hno, -⟩
    · exact h.print c q₀ hq₀ f ((hc.print c q₀ hq₀).symm.trans hf)
    · exact absurd (show s'.Filed q by simp [Filed, hf]) hno
  tagged c q hq ht := by
    rcases hc.back c q hq with ⟨q₀, hq₀, rfl⟩ | ⟨-, hno⟩
    · exact (hc.filed hq₀).2 (h.tagged c q₀ hq₀ ((hc.tagged c q₀ hq₀).1 ht))
    · exact absurd ht hno
  original c q hq hf := by
    have hold : ∀ v ∈ t'.copies c, s'.Filed v → ∃ v₀ ∈ t.copies c, g v₀ = v := fun v hv hfv =>
      (hc.back c v hv).resolve_right fun hno => hno.1 hfv
    obtain ⟨q₀, hq₀, rfl⟩ := hold q hq hf
    obtain ⟨u, ⟨hu, hfu, hnu⟩, huniq⟩ := h.original c q₀ hq₀ ((hc.filed hq₀).1 hf)
    refine ⟨g u, ⟨hc.mem c u hu, (hc.filed hu).2 hfu, fun ht => hnu ((hc.tagged c u hu).1 ht)⟩, ?_⟩
    rintro v ⟨hv, hfv, hnv⟩
    obtain ⟨v₀, hv₀, rfl⟩ := hold v hv hfv
    rw [huniq v₀ ⟨hv₀, (hc.filed hv₀).1 hfv, fun ht => hnv ((hc.tagged c v₀ hv₀).2 ht)⟩]

lemma hasTwin_iff (hcwd : ∀ n ∈ host.cwd, Proper n) (hdigest : Set.InjOn host.digest {c | ∃ q, t.bytes? q = some c})
    (hp : p ∈ t.copies b) : s.HasTwin host t (.ofPlace p) b ↔ ∃ q ∈ t.copies b, q ≠ p ∧ s.Filed q := by
  constructor
  · -- A twin is found by its digest, which tells the contents in the tree apart.
    rintro ⟨m, hne, ⟨f, hf, -⟩, c, hread, hd⟩
    have hbytes := bytes?_of_read h.sound h.plain hread
    obtain rfl : b = c := hdigest ⟨p, hp.2⟩ ⟨_, hbytes⟩ hd
    have hm : m = .ofPlace (m.place host.cwd) := (Trial.key_of_print h.store hf).symm.trans (key_eq hcwd hread)
    have hproper : ∀ n ∈ m.place host.cwd, Proper n := Path.proper_place hcwd
    rw [hm, read_ofPlace h.sound h.plain hproper] at hread
    refine ⟨m.place host.cwd, ⟨hread.1, hbytes⟩, ?_, ?_⟩
    · rintro rfl
      exact hne hm
    · rw [Filed, ← hm]
      simp [hf]
  · rintro ⟨q, hq, hne, hfiled⟩
    obtain ⟨f, hf⟩ := Option.ne_none_iff_exists'.1 hfiled
    refine ⟨.ofPlace q, fun heq => hne ((ofPlace_inj hq.1.proper hp.1.proper).1 heq), ⟨f, hf, ?_⟩, b,
      (read_ofPlace h.sound h.plain hq.1.proper).2 hq, rfl⟩
    rw [h.print b q hq f hf]
    exact Fingerprint.fits_print

lemma filed {twin : Prop} (hp : p ∈ t.copies b) (hnew : ¬s.Filed p) (hstore' : s'.Sound host.toActor)
    (hself : s'.print (.ofPlace p) = some (Content.print host b))
    (hprint : ∀ k, k ≠ Path.ofPlace p → s'.print k = s.print k)
    (htags : ∀ k, (k, tag) ∈ s'.tags ↔ (k, tag) ∈ s.tags ∨ k = Path.ofPlace p ∧ twin)
    (htwin : twin ↔ ∃ q ∈ t.copies b, q ≠ p ∧ s.Filed q) : OneOriginal host tag t s' := by
  have hfiled : ∀ c, ∀ q ∈ t.copies c, (s'.Filed q ↔ s.Filed q ∨ q = p) := by
    intro c q hq
    by_cases heq : q = p
    · simp [heq, Filed, hself]
    · rw [Filed, hprint _ fun hk => heq ((ofPlace_inj hq.1.proper hp.1.proper).1 hk)]
      simp [heq, Filed]
  have htagged : ∀ c, ∀ q ∈ t.copies c, (s'.Tagged tag q ↔ s.Tagged tag q ∨ q = p ∧ twin) := by
    intro c q hq
    rw [Tagged, htags, ofPlace_inj hq.1.proper hp.1.proper]
    rfl
  have hbare : ¬s.Tagged tag p := fun ht => hnew (h.tagged b p hp ht)
  refine ⟨h.sound, h.plain, hstore', fun c q hq f hf => ?_, fun c q hq ht => ?_, fun c q hq hf => ?_⟩
  · by_cases heq : q = p
    · subst heq
      obtain rfl : b = c := Option.some.inj (hp.2.symm.trans hq.2)
      exact (Option.some.inj (hself.symm.trans hf)).symm
    · rw [hprint _ fun hk => heq ((ofPlace_inj hq.1.proper hp.1.proper).1 hk)] at hf
      exact h.print c q hq f hf
  · rcases (htagged c q hq).1 ht with ht | ⟨rfl, -⟩
    · exact (hfiled c q hq).2 (Or.inl (h.tagged c q hq ht))
    · exact (hfiled c q hq).2 (Or.inr rfl)
  · by_cases hother : p ∈ t.copies c
    · obtain rfl : b = c := Option.some.inj (hp.2.symm.trans hother.2)
      by_cases htw : twin
      · -- The one that was the original so far is so still.
        obtain ⟨q₁, hq₁, -, hf₁⟩ := htwin.1 htw
        obtain ⟨u, ⟨hu, hfu, hnu⟩, huniq⟩ := h.original b q₁ hq₁ hf₁
        have hne : u ≠ p := fun heq => hnew (heq ▸ hfu)
        refine ⟨u, ⟨hu, (hfiled b u hu).2 (Or.inl hfu), fun ht => ?_⟩, ?_⟩
        · exact ((htagged b u hu).1 ht).elim hnu fun heq => hne heq.1
        · rintro v ⟨hv, hfv, hnv⟩
          have hvp : v ≠ p := fun heq => hnv ((htagged b v hv).2 (Or.inr ⟨heq, htw⟩))
          exact huniq v ⟨hv, ((hfiled b v hv).1 hfv).resolve_right hvp, fun ht => hnv ((htagged b v hv).2 (Or.inl ht))⟩
      · -- The first one on record becomes the original.
        refine ⟨p, ⟨hp, (hfiled b p hp).2 (Or.inr rfl), fun ht => ?_⟩, ?_⟩
        · exact ((htagged b p hp).1 ht).elim hbare fun heq => htw heq.2
        · rintro v ⟨hv, hfv, -⟩
          by_contra hvp
          exact htw (htwin.2 ⟨v, hv, hvp, ((hfiled b v hv).1 hfv).resolve_right hvp⟩)
    · have hne : ∀ v ∈ t.copies c, v ≠ p := fun v hv heq => hother (heq ▸ hv)
      obtain ⟨u, ⟨hu, hfu, hnu⟩, huniq⟩ := h.original c q hq (((hfiled c q hq).1 hf).resolve_right (hne q hq))
      refine ⟨u, ⟨hu, (hfiled c u hu).2 (Or.inl hfu), fun ht => ?_⟩, ?_⟩
      · exact ((htagged c u hu).1 ht).elim hnu fun heq => hne u hu heq.1
      · rintro v ⟨hv, hfv, hnv⟩
        exact huniq v ⟨hv, ((hfiled c v hv).1 hfv).resolve_right (hne v hv), fun ht => hnv ((htagged c v hv).2 (Or.inl ht))⟩

omit h in
lemma stays_filed {twin : Prop} (hp : p ∈ t.copies b) (hnew : ¬s.Filed p)
    (hprint : ∀ k, k ≠ Path.ofPlace p → s'.print k = s.print k)
    (htags : ∀ k, (k, tag) ∈ s'.tags ↔ (k, tag) ∈ s.tags ∨ k = Path.ofPlace p ∧ twin) : Stays tag id t s t s' := by
  intro c q hq hf
  have hne : q ≠ p := fun heq => hnew (heq ▸ hf)
  have hkey : Path.ofPlace q ≠ .ofPlace p := fun heq => hne ((ofPlace_inj hq.1.proper hp.1.proper).1 heq)
  refine ⟨hq, ?_, fun ht => ?_⟩
  · rwa [id, Filed, hprint _ hkey]
  · exact ((htags _).1 ht).resolve_right fun heq => hkey heq.1

/-- A file that is not on record with its content comes on record, and gets the tag if it has a twin. -/
lemma marked {source : Path} (hcwd : ∀ n ∈ host.cwd, Proper n) (hdigest : Set.InjOn host.digest {c | ∃ q, t.bytes? q = some c})
    (hread : t.read host.cwd source = .ok b) (hsize : b.size ≤ maxSize) (hshort : Addressable (source.place host.cwd))
    (hnofit : ∀ f, s.print (host.key source) = some f → ¬f.Fits host b)
    (hs' : s' = (s.setPrint (host.key source) (Content.print host b)).2 ∧ ¬s.HasTwin host t (host.key source) b ∨
      s' = ((s.setPrint (host.key source) (Content.print host b)).2.addTag (host.key source) tag).2 ∧
        s.HasTwin host t (host.key source) b) :
    OneOriginal host tag t s' ∧ Stays tag id t s t s' ∧ s'.Filed (source.place host.cwd) := by
  have hp : source.place host.cwd ∈ t.copies b :=
    ⟨hshort, bytes?_of_read h.sound h.plain hread⟩
  -- What is on record about a file fits it, so about this one there is nothing.
  have hnew : ¬s.Filed (source.place host.cwd) := by
    intro hf
    obtain ⟨f, hf⟩ := Option.ne_none_iff_exists'.1 hf
    refine hnofit f (by rw [key_eq hcwd hread, hf]) ?_
    rw [h.print b _ hp f hf]
    exact Fingerprint.fits_print
  have hprint : ∀ k, s'.print k =
      if host.key source = k then some (Content.print host b) else s.print k := by
    intro k
    rcases hs' with ⟨rfl, -⟩ | ⟨rfl, -⟩
    · exact print_setPrint hsize
    · rw [print_addTag]
      exact print_setPrint hsize
  have htags : ∀ k, (k, tag) ∈ s'.tags ↔
      (k, tag) ∈ s.tags ∨ k = host.key source ∧ s.HasTwin host t (host.key source) b := by
    intro k
    rcases hs' with ⟨rfl, hno⟩ | ⟨rfl, htwin⟩
    · simp [tags_setPrint, hno]
    · simp [mem_addTag, tags_setPrint, htwin, or_comm, eq_comm]
  have hindexed : (s.setPrint (host.key source) (Content.print host b)).2.Sound host.toActor :=
    h.store.note (key_key hcwd hread) hread ((index_eq_ok hread).2 ⟨hsize, rfl⟩)
  have hstore' : s'.Sound host.toActor := by
    rcases hs' with ⟨rfl, -⟩ | ⟨rfl, -⟩
    · exact hindexed
    · exact hindexed.note (n := .addTag tag) (key_key hcwd hread) hread rfl
  rw [key_eq hcwd hread] at hprint htags
  have hself := (hprint _).trans (if_pos rfl)
  have hother : ∀ k, k ≠ Path.ofPlace (source.place host.cwd) → s'.print k = s.print k := fun k hk =>
    (hprint k).trans (if_neg hk.symm)
  exact ⟨h.filed hp hnew hstore' hself hother htags (h.hasTwin_iff hcwd hdigest hp), stays_filed hp hnew hother htags,
    by simp [Filed, hself]⟩

end OneOriginal

end TagStore

end FileOrganizer
