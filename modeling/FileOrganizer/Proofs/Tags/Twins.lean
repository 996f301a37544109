import FileOrganizer.Proofs.Batch.Conservation
import FileOrganizer.Proofs.Tags.Store
import FileOrganizer.Proofs.Text.Bytes

/-! The twin that the store names: of all the files on record that have the same bytes, the one whose path comes
first. -/

namespace FileOrganizer.TagStore

open FileOrganizer.Tree

variable {host : Host} {t : Tree} {s : TagStore} {p q q' : Path} {b : ByteArray} {ks : List Path}

/-- A file on record under another path, with the size and the beginning of the content `b` of `p`, whose own content
is `b`. -/
structure Twin (host : Host) (t : Tree) (s : TagStore) (p : Path) (b : ByteArray) (q : Path) : Prop where
  other : q ≠ host.key p
  print : ∃ f, s.print q = some f ∧ f.Fits host b
  bytes : t.read host.cwd q = .ok b

/-- In byte order, `q` comes before `q'` or is the same. -/
def Upto (q q' : Path) : Prop := q.text.toUTF8.data.toList ≤ q'.text.toUTF8.data.toList

lemma Upto.antisymm (h : Upto q q') (h' : Upto q' q) : q = q' :=
  congrArg Path.mk (le_antisymm (Text.toUTF8_le.1 h) (Text.toUTF8_le.1 h'))

lemma pairwise_alike {n : ℕ} {quick : String} (h : s.alike p n quick = .ok ks) : ks.Pairwise Upto := by
  unfold alike at h
  split at h
  · cases h
    have htrans : ∀ x y z : Path, decide (x.text ≤ y.text) = true → decide (y.text ≤ z.text) = true →
        decide (x.text ≤ z.text) = true :=
      fun x y z hxy hyz => decide_eq_true (le_trans (of_decide_eq_true hxy) (of_decide_eq_true hyz))
    have htotal : ∀ x y : Path, (decide (x.text ≤ y.text) || decide (y.text ≤ x.text)) = true :=
      fun x y => by simpa using le_total x.text y.text
    exact (List.pairwise_mergeSort htrans htotal _).imp fun h => Text.toUTF8_le.2 (of_decide_eq_true h)
  · cases h

/-- The first in a list that is in order is the least. -/
lemma find?_eq_some_least {c : Path → Bool} (h : ks.Pairwise Upto) :
    ks.find? c = some q ↔ (q ∈ ks ∧ c q = true) ∧ ∀ q', q' ∈ ks ∧ c q' = true → Upto q q' := by
  induction ks with
  | nil => simp
  | cons k ks ih =>
    obtain ⟨hk, hks⟩ := List.pairwise_cons.1 h
    cases hc : c k with
    | true =>
      rw [List.find?_cons_of_pos hc]
      constructor
      · rintro ⟨⟩
        refine ⟨⟨List.mem_cons_self, hc⟩, ?_⟩
        rintro q' ⟨hq', -⟩
        rcases List.mem_cons.1 hq' with rfl | hq'
        · exact Text.toUTF8_le.2 le_rfl
        · exact hk q' hq'
      · rintro ⟨⟨hq, -⟩, hleast⟩
        rcases List.mem_cons.1 hq with rfl | hq
        · rfl
        · exact congrArg some ((hk q hq).antisymm (hleast k ⟨List.mem_cons_self, hc⟩))
    | false =>
      have hmem : ∀ q', q' ∈ k :: ks ∧ c q' = true ↔ q' ∈ ks ∧ c q' = true := by
        intro q'
        rw [List.mem_cons]
        constructor
        · rintro ⟨rfl | hq', hcq⟩
          · rw [hc] at hcq
            cases hcq
          · exact ⟨hq', hcq⟩
        · exact fun h => ⟨Or.inr h.1, h.2⟩
      rw [List.find?_cons_of_neg (by simp [hc]), ih hks, hmem]
      simp only [hmem]

/-- Among the candidates, in their order, those are taken for twins that are. -/
lemma twin?_candidates (hs : s.files.Single) (hread : t.read host.cwd p = .ok b) (hb : b.size ≤ maxSize)
    (hinj : ∀ q c, t.read host.cwd q = .ok c → host.digest b = host.digest c → b = c) :
    ∃ (ks : List Path) (c : Path → Bool), s.twin? host t p = .ok (ks.find? c) ∧ ks.Pairwise Upto ∧
      ∀ q, q ∈ ks ∧ c q = true ↔ Twin host t s p b q := by
  obtain ⟨ks, hks, hmem⟩ := @mem_alike host s (host.key p) b hs hb
  refine ⟨ks, _, twin?_eq_find? hread hks, pairwise_alike hks, fun q => ?_⟩
  rw [hmem q, taken_iff]
  constructor
  · rintro ⟨⟨hne, hprint⟩, c, hc, hd⟩
    obtain rfl := hinj q c hc hd
    exact ⟨hne, hprint, hc⟩
  · intro h
    exact ⟨⟨h.other, h.print⟩, b, h.bytes, rfl⟩

/-- Where contents with the same digest are the same, and the file is no larger than files can be, a twin is named if
there is one, and of all of them the one that comes first in byte order. -/
theorem twin?_least (hs : s.files.Single) (hread : t.read host.cwd p = .ok b) (hb : b.size ≤ maxSize)
    (hinj : ∀ q c, t.read host.cwd q = .ok c → host.digest b = host.digest c → b = c) :
    (∀ q, s.twin? host t p = .ok (some q) ↔
        Twin host t s p b q ∧ ∀ q', Twin host t s p b q' → Upto q q') ∧
      (s.twin? host t p = .ok none ↔ ∀ q, ¬Twin host t s p b q) := by
  obtain ⟨ks, c, htwin, hsorted, hmem⟩ := twin?_candidates hs hread hb hinj
  rw [htwin]
  refine ⟨fun q => ?_, ?_⟩
  · rw [Except.ok.injEq, find?_eq_some_least hsorted]
    simp only [hmem]
  · rw [Except.ok.injEq, List.find?_eq_none]
    simp only [← hmem, not_and]

/-- Three files with the same bytes, and one with others. -/
def triplets : Tree := ⟨[
  (["r"], .dir ⟨⟨0, 0⟩, false⟩),
  (["r", "a"], .file ⟨#[1]⟩ ⟨⟨0, 0⟩, false⟩),
  (["r", "b"], .file ⟨#[2]⟩ ⟨⟨0, 0⟩, false⟩),
  (["r", "c"], .file ⟨#[1]⟩ ⟨⟨0, 0⟩, false⟩),
  (["r", "d"], .file ⟨#[1]⟩ ⟨⟨0, 0⟩, false⟩)]⟩

/-- What is on record of the second file is out of date, and one file is gone. -/
def noted : TagStore where
  files := ["/r/d", "/r/b", "/r/a", "/r/0", "/r/c"].map fun p =>
    (⟨p⟩, { print := some (Content.print Job.plainHost ⟨#[1]⟩) })

lemma bytes_triplets {c : ByteArray} (h : triplets.read [] q = .ok c) : c = ⟨#[1]⟩ ∨ c = ⟨#[2]⟩ := by
  have hplain : triplets.Plain := plain_of_entries (by decide)
  obtain ⟨a, ha⟩ := mem_of_bytes? (bytes?_of_read (sound_of_entries (by decide)) hplain h)
  simp [triplets] at ha
  tauto

theorem twin?_triplets : triplets.read [] ⟨"/r/a"⟩ = .ok ⟨#[1]⟩ ∧
    noted.twin? Job.plainHost triplets ⟨"/r/a"⟩ = .ok (some ⟨"/r/c"⟩) := by
  have hsingle : noted.files.Single := by unfold Table.Single; decide
  have hinj : ∀ q c, triplets.read [] q = .ok c → Job.plainHost.digest ⟨#[1]⟩ = Job.plainHost.digest c →
      ⟨#[1]⟩ = c := by
    intro q c hc hd
    rcases bytes_triplets hc with rfl | rfl
    · rfl
    · exact absurd hd (by decide +kernel)
  refine ⟨rfl, ((twin?_least hsingle rfl (by decide) hinj).1 _).2 ⟨⟨by decide +kernel, ⟨_, rfl, rfl, rfl⟩, rfl⟩, ?_⟩⟩
  -- of the files on record, one is the file itself, and two do not have its bytes
  rintro q ⟨hother, ⟨f, hf, -⟩, hbytes⟩
  obtain ⟨r, hr, -⟩ := print_eq_some.1 hf
  have hq : q ∈ noted.files.map (·.1) := List.mem_map_of_mem (Table.mem_of_get? hr)
  apply Text.toUTF8_le.2
  simp only [noted, List.map_cons, List.map_nil, List.mem_cons, List.not_mem_nil, or_false] at hq
  rcases hq with rfl | rfl | rfl | rfl | rfl
  · decide
  · cases hbytes
  · have hown : Job.plainHost.key ⟨"/r/a"⟩ = ⟨"/r/a"⟩ := by decide +kernel
    exact absurd hown.symm hother
  · cases hbytes
  · decide

end FileOrganizer.TagStore
