import FileOrganizer.Proofs.Batch.Conservation
import FileOrganizer.Proofs.Tags.View
import Mathlib.Data.Set.Function

/-! A file whose content is on record, and that has been written to since. It counts as on record as long as its size
and its first bytes are those of the content that was put there: a change of any of these bytes is seen, and a change
of others is not. -/

namespace FileOrganizer

variable {host : Host} {t t' : Tree} {s s' : TagStore} {p : Path} {b b' c : ByteArray} {g : Fingerprint} {n : ℕ}

namespace Content

lemma toList_beginning (n : ℕ) (b : ByteArray) : (beginning n b).data.toList = b.data.toList.take n := by
  rw [beginning, ByteArray.data_extract, Array.toList_extract, List.extract_eq_take_drop]
  rfl

lemma beginning_eq_iff : beginning n b = beginning n c ↔ ∀ i < n, b.data[i]? = c.data[i]? := by
  rw [ByteArray.ext_iff, ← Array.toList_inj, toList_beginning, toList_beginning]
  constructor
  · intro h i hi
    rw [← Array.getElem?_toList, ← Array.getElem?_toList, ← List.getElem?_take_of_lt hi, h, List.getElem?_take_of_lt hi]
  · intro h
    apply List.ext_getElem?
    intro i
    rw [List.getElem?_take, List.getElem?_take]
    split
    · next hi => rw [Array.getElem?_toList, Array.getElem?_toList, h i hi]
    · rfl

/-- The beginning of a content that is no longer is all of it. -/
lemma beginning_of_size_le (h : b.size ≤ n) : beginning n b = b := by
  rw [ByteArray.ext_iff, ← Array.toList_inj, toList_beginning]
  exact List.take_of_length_le h

/-- Where the digest tells contents apart, so does the fingerprint. -/
lemma print_eq_iff (h : host.digest b = host.digest c → b = c) : print host b = print host c ↔ b = c := by
  constructor
  · intro heq
    exact h (Option.some.inj (congrArg Fingerprint.full heq))
  · rintro rfl
    rfl

end Content

open Content

namespace TagStore

/-- A content that could be put on record is there. -/
lemma index_ok (hread : t.read host.cwd p = .ok b) (h : (s.index host t p).1 = .ok g) :
    g = Content.print host b ∧ (s.index host t p).2.print (host.key p) = some (Content.print host b) := by
  have hnote : s.note host t p .index = .ok (s.index host t p).2 := by
    unfold note
    rcases hindex : s.index host t p with ⟨r, s₁⟩
    rw [hindex] at h
    dsimp only at h
    rw [h]
  have hsize := ((index_eq_ok hread).1 hnote).1
  rw [index_of_read hread hsize] at h ⊢
  refine ⟨(Except.ok.inj h).symm, ?_⟩
  dsimp only
  rw [print_setPrint hsize, if_pos rfl]

end TagStore

/-- A file counts as on record if what is on record has its size and the digest of its beginning. -/
lemma View.isFiled_of_print (hprint : s.print (host.key p) = some (print host b)) (hread : t.read host.cwd p = .ok c) :
    (⟨s, none⟩ : View).isFiled host p t =
      .ok (decide (c.size = b.size ∧
        host.digest (beginning quickLength b) = host.digest (beginning quickLength c))) := by
  show s.isFiled host t p = _
  rw [TagStore.isFiled_of_read hread, hprint]
  congr 1
  simp [Fingerprint.Fits, print, eq_comm]

/-- A file was put on record, and what was stored is still there; meanwhile the file may have been written to. It
counts as on record if and only if it has the size that it had, and at each place below `quickLength` the byte that was
there. A fingerprint made of it now is the stored one only if it has the old content as a whole, which is the same if
that content was no longer than `quickLength`. -/
theorem isFiled_indexed (hread : t.read host.cwd p = .ok b) (hindex : (s.index host t p).1 = .ok g)
    (hkept : s'.print (host.key p) = (s.index host t p).2.print (host.key p)) (hread' : t'.read host.cwd p = .ok b')
    (hdigest : Set.InjOn host.digest {b, b', beginning quickLength b, beginning quickLength b'}) :
    (⟨s', none⟩ : View).isFiled host p t' =
        .ok (decide (b'.size = b.size ∧ ∀ i < quickLength, b'.data[i]? = b.data[i]?)) ∧
      (∃ g', fingerprint host t' p = .ok g' ∧ (g' = g ↔ b' = b)) ∧
      (b.size ≤ quickLength → ((⟨s', none⟩ : View).isFiled host p t' = .ok true ↔ b' = b)) := by
  obtain ⟨rfl, hstored⟩ := TagStore.index_ok hread hindex
  have hfiled := View.isFiled_of_print (hkept.trans hstored) hread'
  have hquick : host.digest (beginning quickLength b) = host.digest (beginning quickLength b') ↔
      ∀ i < quickLength, b'.data[i]? = b.data[i]? := by
    rw [hdigest.eq_iff (by simp) (by simp), eq_comm, beginning_eq_iff]
  rw [hfiled]
  refine ⟨?_, ⟨_, fingerprint_of_read hread', print_eq_iff fun h => hdigest (by simp) (by simp) h⟩, fun hshort => ?_⟩
  · simp only [hquick]
  · -- both contents are their beginnings, the new one because it is no longer than the old one
    rw [Except.ok.injEq, decide_eq_true_eq, hdigest.eq_iff (by simp) (by simp), beginning_of_size_le hshort]
    constructor
    · rintro ⟨hsize, hsame⟩
      rw [hsame, beginning_of_size_le (by omega)]
    · rintro rfl
      exact ⟨rfl, (beginning_of_size_le hshort).symm⟩

section

/-- A host whose digest of a content is the content, with a letter for each byte. -/
def spellingHost : Host := { Job.plainHost with digest := fun b => String.ofList (b.data.toList.map Char.ofUInt8) }

lemma digest_injective : Function.Injective spellingHost.digest := by
  intro b c h
  have hbytes : Function.Injective Char.ofUInt8 := fun x y hxy => UInt8.toUInt32_inj.1 (congrArg Char.val hxy)
  rw [ByteArray.ext_iff, ← Array.toList_inj]
  exact List.map_injective_iff.2 hbytes (String.ofList_injective h)

/-- A content with one byte more than the beginning has. -/
def endingIn (x : UInt8) : ByteArray := ⟨(Array.replicate quickLength 0).push x⟩

def holding (c : ByteArray) : Tree := ⟨[(["r"], .dir ⟨⟨0, 0⟩, false⟩), (["r", "a"], .file c ⟨⟨0, 0⟩, false⟩)]⟩

lemma read_holding (c : ByteArray) : (holding c).read spellingHost.cwd ⟨"/r/a"⟩ = .ok c := rfl

lemma size_endingIn (x : UInt8) : (endingIn x).size = quickLength + 1 := by
  simp [endingIn, ByteArray.size]

lemma endingIn_ne : endingIn 2 ≠ endingIn 1 := by
  intro h
  have hlast : (endingIn 2).data.back? = (endingIn 1).data.back? := by rw [h]
  simp [endingIn] at hlast

lemma getElem?_endingIn {i : ℕ} (hi : i < quickLength) (x : UInt8) : (endingIn x).data[i]? = some 0 := by
  simp [endingIn, Array.getElem?_push, hi, hi.ne]

lemma index_endingIn : (TagStore.empty.index spellingHost (holding (endingIn 1)) ⟨"/r/a"⟩).1 =
    .ok (print spellingHost (endingIn 1)) := by
  rw [TagStore.index_of_read (read_holding _) (by rw [size_endingIn]; decide)]

/-- The last byte of a file is changed after the file was put on record and tagged. -/
theorem isFiled_indexed_lastByte :
    View.isFiled spellingHost
        ⟨((TagStore.empty.index spellingHost (holding (endingIn 1)) ⟨"/r/a"⟩).2.addTag ⟨"/r/a"⟩ "kept").2, none⟩
        ⟨"/r/a"⟩ (holding (endingIn 2)) = .ok true ∧
      ∃ g', fingerprint spellingHost (holding (endingIn 2)) ⟨"/r/a"⟩ = .ok g' ∧
        g' ≠ print spellingHost (endingIn 1) := by
  have hkept (s : TagStore) : (s.addTag ⟨"/r/a"⟩ "kept").2.print (spellingHost.key ⟨"/r/a"⟩) =
      s.print (spellingHost.key ⟨"/r/a"⟩) := TagStore.print_addTag
  obtain ⟨hfiled, ⟨g', hg', hne⟩, -⟩ := isFiled_indexed (read_holding (endingIn 1)) index_endingIn (hkept _)
    (read_holding (endingIn 2)) digest_injective.injOn
  refine ⟨?_, g', hg', fun h => endingIn_ne (hne.1 h)⟩
  rw [hfiled, decide_eq_true]
  exact ⟨by rw [size_endingIn, size_endingIn], fun i hi => by rw [getElem?_endingIn hi, getElem?_endingIn hi]⟩

/-- A file can count as on record with another content than the one that was put there. -/
theorem isFiled_indexed_fails : ¬∀ (host : Host) (t t' : Tree) (s s' : TagStore) (p : Path) (b b' : ByteArray)
    (g : Fingerprint), Function.Injective host.digest → t.read host.cwd p = .ok b → (s.index host t p).1 = .ok g →
    s'.print (host.key p) = (s.index host t p).2.print (host.key p) → t'.read host.cwd p = .ok b' →
    ((⟨s', none⟩ : View).isFiled host p t' = .ok true ↔ b' = b) := by
  intro h
  refine endingIn_ne ((h spellingHost (holding (endingIn 1)) (holding (endingIn 2)) .empty _ ⟨"/r/a"⟩ _ _ _
    digest_injective (read_holding _) index_endingIn rfl (read_holding _)).1 ?_)
  rw [View.isFiled_of_print (TagStore.index_ok (read_holding _) index_endingIn).2 (read_holding _), decide_eq_true]
  refine ⟨by rw [size_endingIn, size_endingIn], congrArg spellingHost.digest (beginning_eq_iff.2 fun i hi => ?_)⟩
  rw [getElem?_endingIn hi, getElem?_endingIn hi]

end

end FileOrganizer
