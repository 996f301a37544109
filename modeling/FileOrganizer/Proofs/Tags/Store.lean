import FileOrganizer.Proofs.Tags.Facts
import FileOrganizer.Proofs.Tree.Moved

/-! Files on record by their content: when the store takes a note, when a file counts as filed, and when
it has a twin. -/

namespace FileOrganizer

variable {host : Host} {t : Tree} {s s' : TagStore} {p k l m : Path} {b : ByteArray}

namespace Content

/-- The fingerprint of a content. -/
def print (host : Host) (b : ByteArray) : Fingerprint :=
  ⟨b.size, host.digest (beginning quickLength b), some (host.digest b)⟩

lemma size_of_read (h : t.read host.cwd p = .ok b) : size host t p = .ok b.size := by
  unfold Tree.read at h
  unfold size
  split at h
  · cases h
  · next hst =>
    cases h
    rw [hst]
    rfl
  · cases h

lemma quick_of_read (h : t.read host.cwd p = .ok b) : quick host t p = .ok (print host b).quick := by
  rw [quick, h]
  rfl

lemma full_of_read (h : t.read host.cwd p = .ok b) : full host t p = .ok (host.digest b) := by
  rw [full, h]
  rfl

lemma fingerprint_of_read (h : t.read host.cwd p = .ok b) : fingerprint host t p = .ok (print host b) := by
  rw [fingerprint, size_of_read h, quick_of_read h, full_of_read h]
  rfl

lemma same_of_read {q : Path} {c : ByteArray} (h : t.read host.cwd p = .ok b) (hq : t.read host.cwd q = .ok c) :
    same host t p q = .ok (decide (b.size = c.size) && host.digest b == host.digest c) := by
  rw [same, size_of_read h, size_of_read hq, full_of_read h, full_of_read hq]
  by_cases hs : b.size = c.size
  · simp [hs, bind, Except.bind, pure, Except.pure]
  · simp [hs, bind, Except.bind, pure, Except.pure]

end Content

/-- Is this a fingerprint of a content of that size and beginning? -/
def Fingerprint.Fits (host : Host) (f : Fingerprint) (b : ByteArray) : Prop :=
  f.size = b.size ∧ f.quick = (Content.print host b).quick

lemma Fingerprint.fits_print : (Content.print host b).Fits host b := ⟨rfl, rfl⟩

namespace TagStore

lemma single_ensure (h : s.files.Single) : (s.ensure k).files.Single := by
  unfold ensure
  split
  · exact h
  · exact h.put

lemma single_setPrint {f : Fingerprint} (h : s.files.Single) : (s.setPrint k f).2.files.Single := by
  unfold setPrint
  dsimp only
  split
  · exact (single_ensure h).adjust
  · exact single_ensure h

lemma single_addTag {tag : String} (h : s.files.Single) : (s.addTag k tag).2.files.Single := by
  unfold addTag
  dsimp only
  split <;> exact single_ensure h

/-- A store as it is kept: a file has one row at most, under the one spelling of its path. -/
def Sound (who : Actor) (s : TagStore) : Prop :=
  s.files.Single ∧ ∀ k, s.files.get? k ≠ none → who.key k = k

lemma Sound.ensure {who : Actor} (h : s.Sound who) (hk : who.key k = k) : (s.ensure k).Sound who := by
  unfold TagStore.ensure
  split
  · exact h
  · refine ⟨h.1.put, fun m hm => ?_⟩
    dsimp only at hm
    rw [Table.get?_put] at hm
    split at hm
    · next hkm => exact hkm ▸ hk
    · exact h.2 m hm

lemma Sound.adjust {who : Actor} (h : s.Sound who) {f : FileRow → FileRow} (hs : s'.files = s.files.adjust k f) :
    s'.Sound who := by
  refine ⟨by rw [hs]; exact h.1.adjust, fun m hm => h.2 m fun hn => hm ?_⟩
  rw [hs, Table.get?_adjust]
  split
  · next hkm =>
    subst hkm
    simp [hn]
  · exact hn

lemma Sound.of_files {who : Actor} (h : s.Sound who) (hs : s'.files = s.files) : s'.Sound who := by
  unfold Sound
  rwa [hs]

lemma Sound.rename {who : Actor} (h : s.Sound who) (hl : who.key l = l) : (s.rename k l).Sound who := by
  refine ⟨h.1.erase.carry, fun m hm => ?_⟩
  by_cases hlm : l = m
  · exact hlm ▸ hl
  · refine h.2 m fun hn => hm ?_
    unfold TagStore.rename
    dsimp only
    rw [Table.get?_carry_free (by simp [Table.get?_erase]), if_neg hlm]
    split
    · rfl
    · rw [Table.get?_erase, if_neg hlm, hn]

/-- Puts a note on record about a file. -/
def note (host : Host) (t : Tree) (p : Path) (s : TagStore) : Note → Except Fault TagStore
  | .addTag tag => .ok (s.addTag (host.key p) tag).2
  | .removeTag tag => .ok (s.removeTag (host.key p) tag).2
  | .setColor color => .ok (s.setColor (host.key p) (some color)).2
  | .setField name value => .ok (s.setField (host.key p) name value)
  | .index =>
    match s.index host t p with
    | (.ok _, s) => .ok s
    | (.error e, _) => .error e

lemma setPrint_of_large {f : Fingerprint} (hf : ¬f.size ≤ maxSize) : (s.setPrint k f).1 = .error .badDatabase := by
  unfold setPrint
  dsimp only
  rw [if_neg hf]

lemma index_of_read (h : t.read host.cwd p = .ok b) (hb : b.size ≤ maxSize) :
    s.index host t p = (.ok (Content.print host b), (s.setPrint (host.key p) (Content.print host b)).2) := by
  have hset := (facts_setPrint (s := s) (k := host.key p) (m := p) (f := Content.print host b) hb).1
  unfold index
  rw [Content.fingerprint_of_read h]
  dsimp only
  rcases hs : s.setPrint (host.key p) (Content.print host b) with ⟨r, s₁⟩
  rw [hs] at hset
  dsimp only at hset
  rw [hset]

/-- Contents of files can be put on record up to the largest size that is kept. -/
lemma index_eq_ok (h : t.read host.cwd p = .ok b) :
    s.note host t p .index = .ok s' ↔
      b.size ≤ maxSize ∧ s' = (s.setPrint (host.key p) (Content.print host b)).2 := by
  by_cases hb : b.size ≤ maxSize
  · unfold note
    rw [index_of_read h hb]
    simp [hb, eq_comm]
  · unfold note index
    rw [Content.fingerprint_of_read h]
    dsimp only
    have hset : (s.setPrint (host.key p) (Content.print host b)).1 = .error .badDatabase := setPrint_of_large hb
    rcases hs : s.setPrint (host.key p) (Content.print host b) with ⟨r, s₁⟩
    rw [hs] at hset
    dsimp only at hset
    subst hset
    simp [hb]

lemma facts_note {n : Note} (hread : t.read host.cwd p = .ok b) (h : s.note host t p n = .ok s') :
    s'.facts m = if host.key p = m then (s.facts m).take (Content.print host b) n else s.facts m := by
  cases n with
  | addTag tag =>
    cases h
    exact facts_addTag
  | removeTag tag =>
    cases h
    exact facts_removeTag
  | setColor color =>
    cases h
    exact facts_setColor
  | setField name value =>
    cases h
    exact facts_setField
  | index =>
    obtain ⟨hb, rfl⟩ := (index_eq_ok hread).1 h
    exact (facts_setPrint hb).2

lemma Sound.note {n : Note} (hs : s.Sound host.toActor) (hk : host.key (host.key p) = host.key p)
    (hread : t.read host.cwd p = .ok b) (h : s.note host t p n = .ok s') : s'.Sound host.toActor := by
  have hens : (s.ensure (host.key p)).Sound host.toActor := hs.ensure hk
  cases n with
  | addTag tag =>
    cases h
    refine hens.of_files ?_
    unfold addTag
    dsimp only
    split <;> rfl
  | removeTag tag =>
    cases h
    exact hs.of_files rfl
  | setColor color =>
    cases h
    exact hens.adjust rfl
  | setField name value =>
    cases h
    exact hens.of_files rfl
  | index =>
    obtain ⟨hb, rfl⟩ := (index_eq_ok hread).1 h
    have hsize : (Content.print host b).size ≤ maxSize := hb
    unfold setPrint
    dsimp only
    rw [if_pos hsize]
    exact hens.adjust rfl

lemma print_eq_some {f : Fingerprint} :
    s.print k = some f ↔ ∃ r, s.files.get? k = some r ∧ r.print = some f := by
  unfold print row
  cases h : s.files.get? k <;> simp

lemma agrees_iff {n : ℕ} {quick : String} {r : FileRow} :
    agrees n quick r = true ↔ ∃ f, r.print = some f ∧ f.size = n ∧ f.quick = quick := by
  unfold agrees
  cases r.print <;> simp

lemma alike_eq_ok {n : ℕ} {quick : String} (hs : s.files.Single) (hn : n ≤ maxSize) :
    ∃ ks, s.alike k n quick = .ok ks ∧
      ∀ m, m ∈ ks ↔ m ≠ k ∧ ∃ f, s.print m = some f ∧ f.size = n ∧ f.quick = quick := by
  unfold alike
  rw [if_pos hn]
  refine ⟨_, rfl, fun m => ?_⟩
  simp only [List.mem_mergeSort, List.mem_map, List.mem_filter, Bool.and_eq_true, decide_eq_true_eq, agrees_iff]
  constructor
  · rintro ⟨e, ⟨he, hne, f, hf, hfit⟩, rfl⟩
    exact ⟨hne, f, print_eq_some.2 ⟨e.2, hs.get? he, hf⟩, hfit⟩
  · rintro ⟨hne, f, hf, hfit⟩
    obtain ⟨r, hr, hrf⟩ := print_eq_some.1 hf
    exact ⟨(m, r), ⟨Table.mem_of_get? hr, hne, f, hrf, hfit⟩, rfl⟩

lemma mem_alike (hs : s.files.Single) (hb : b.size ≤ maxSize) :
    ∃ ks, s.alike k b.size (Content.print host b).quick = .ok ks ∧
      ∀ m, m ∈ ks ↔ m ≠ k ∧ ∃ f, s.print m = some f ∧ f.Fits host b := alike_eq_ok hs hb

/-- A file on record under another path, and still there, whose content has the same digest. -/
def HasTwin (host : Host) (t : Tree) (s : TagStore) (k : Path) (b : ByteArray) : Prop :=
  ∃ m, m ≠ k ∧ (∃ f, s.print m = some f ∧ f.Fits host b) ∧
    ∃ c, t.read host.cwd m = .ok c ∧ host.digest b = host.digest c

lemma isOk_full : isOk (host.digest b) (Content.full host t m) = true ↔
    ∃ c, t.read host.cwd m = .ok c ∧ host.digest b = host.digest c := by
  unfold Content.full
  cases t.read host.cwd m <;> simp [isOk, Except.map]

lemma has_of_read {c : ByteArray} (h : t.read host.cwd m = .ok c) : t.has host.cwd m = true := by
  unfold Tree.read at h
  unfold Tree.has
  split at h
  · cases h
  · next hst => rw [hst]; rfl
  · cases h

lemma twin?_eq_find? {ks : List Path} (h : t.read host.cwd p = .ok b)
    (hks : s.alike (host.key p) b.size (Content.print host b).quick = .ok ks) : s.twin? host t p =
      .ok (ks.find? fun o => t.has host.cwd o && isOk (host.digest b) (Content.full host t o)) := by
  unfold twin?
  rw [Content.size_of_read h, Content.quick_of_read h, Content.full_of_read h]
  simp only [Except.mapError, bind, Except.bind, hks]
  rfl

/-- A candidate is taken for a twin by the digest of its content. -/
lemma taken_iff : (t.has host.cwd m && isOk (host.digest b) (Content.full host t m)) = true ↔
    ∃ c, t.read host.cwd m = .ok c ∧ host.digest b = host.digest c := by
  rw [Bool.and_eq_true, isOk_full]
  exact and_iff_right_of_imp fun ⟨_, hc, _⟩ => has_of_read hc

lemma twin?_of_read (hs : s.files.Single) (h : t.read host.cwd p = .ok b) :
    b.size ≤ maxSize ∧ (∃ x, s.twin? host t p = .ok x ∧ (x.isSome = true ↔ s.HasTwin host t (host.key p) b)) ∨
      ¬b.size ≤ maxSize ∧ s.twin? host t p = .error .badDatabase := by
  by_cases hb : b.size ≤ maxSize
  · left
    obtain ⟨ks, hks, hmem⟩ := @mem_alike host s (host.key p) b hs hb
    refine ⟨hb, _, twin?_eq_find? h hks, ?_⟩
    rw [List.find?_isSome]
    constructor
    · rintro ⟨m, hm, hc⟩
      exact ⟨m, ((hmem m).1 hm).1, ((hmem m).1 hm).2, taken_iff.1 hc⟩
    · rintro ⟨m, hne, hf, hc⟩
      exact ⟨m, (hmem m).2 ⟨hne, hf⟩, taken_iff.2 hc⟩
  · right
    refine ⟨hb, ?_⟩
    unfold twin?
    rw [Content.size_of_read h, Content.quick_of_read h]
    simp only [Except.mapError, bind, Except.bind, alike]
    rw [if_neg hb]

open Classical in
lemma isFiled_of_read (h : t.read host.cwd p = .ok b) :
    s.isFiled host t p = .ok (decide (∃ f, s.print (host.key p) = some f ∧ f.Fits host b)) := by
  unfold isFiled
  cases hf : s.print (host.key p) with
  | none => simp
  | some f =>
    dsimp only
    rw [Content.size_of_read h, Content.quick_of_read h]
    simp only [Except.mapError, bind, Except.bind, Option.some.injEq, exists_eq_left', Fingerprint.Fits]
    by_cases hn : f.size = b.size
    · simp [hn, pure, Except.pure, beq_eq_decide]
    · simp [hn, pure, Except.pure]

end TagStore

end FileOrganizer
