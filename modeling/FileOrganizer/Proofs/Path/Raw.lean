import FileOrganizer.Proofs.Path.Recoded
import FileOrganizer.Proofs.Text.Utf8
import FileOrganizer.Tags.Store

/-! Paths of bytes are resolved as texts are, and what is a text is filed under its own resolution. -/

namespace FileOrganizer

namespace RawPath

variable {p q : RawPath} {cwd : List (List UInt8)} {c : Char}

/-- A character as its bytes, with a letter for each. -/
def spelling (c : Char) : List Char := (String.utf8EncodeChar c).map Char.ofUInt8

/-- Letters that stand for no byte are replaced. -/
def narrow (c : Char) : List Char := if c.toNat < 256 then [c] else ['?']

/-- Only the bytes of a character below 128 are themselves below 128. -/
lemma mem_encode {b : UInt8} (h : b ∈ String.utf8EncodeChar c) : c.toNat = b.toNat ∨ 128 ≤ b.toNat := by
  rw [Utf8.utf8EncodeChar_eq, Utf8.encoding] at h
  generalize c.toNat = n at *
  split_ifs at h
  all_goals
    simp only [List.mem_cons, List.not_mem_nil, or_false, ← UInt8.toNat_inj, UInt8.toNat_ofNat'] at h
    omega

lemma not_mem_spelling {d : Char} (hd : d.toNat < 128) (h : c ≠ d) : d ∉ spelling c := by
  intro hmem
  obtain ⟨b, hb, rfl⟩ := List.mem_map.1 hmem
  rcases mem_encode hb with hsame | hlarge
  · exact h (Char.toNat_inj.1 hsame)
  · exact absurd hd (not_lt.2 hlarge)

lemma recoding_spelling : Recoding spelling where
  slash := rfl
  dot := rfl
  other c hslash hdot := by
    refine ⟨?_, not_mem_spelling (by decide) hslash, not_mem_spelling (by decide) hdot⟩
    rw [spelling, Ne, List.map_eq_nil_iff]
    exact String.utf8EncodeChar_ne_nil

lemma recoding_narrow : Recoding narrow where
  slash := rfl
  dot := rfl
  other c hslash hdot := by
    unfold narrow
    split_ifs
    · simpa using ⟨Ne.symm hslash, Ne.symm hdot⟩
    · decide

lemma letters_utf8 (s : String) : letters (utf8 s) = recoded spelling s := by
  rw [letters, utf8, Text.toUTF8_toList, List.map_flatMap]
  rfl

lemma path_ofText (p : Path) : (ofText p).path = p.recode spelling := congrArg Path.mk (letters_utf8 p.text)

lemma ofPath_path (p : RawPath) : ofPath p.path = p := by
  have hbytes : (p.path.chars.map fun c => UInt8.ofNat c.toNat) = p.bytes := by
    rw [Path.chars, path, letters, String.toList_ofList, List.map_map]
    exact List.map_id'' (fun b => UInt8.ofNat_toNat) _
  exact congrArg RawPath.mk hbytes

lemma path_inj : p.path = q.path ↔ p = q :=
  (Function.LeftInverse.injective ofPath_path).eq_iff

lemma path_text : p.path.text ≠ "" ↔ p.bytes ≠ [] := by
  rw [← String.toList_inj.ne, path, letters, String.toList_ofList]
  exact List.map_eq_nil_iff.not

lemma path_ofPath {p : Path} (h : ∀ c ∈ p.chars, c.toNat < 256) : (ofPath p).path = p := by
  have hchars : (ofPath p).path.chars = p.chars := by
    rw [Path.chars, path, letters, String.toList_ofList, ofPath, List.map_map]
    refine (List.map_congr_left fun c hc => ?_).trans (List.map_id _)
    exact Char.toNat_inj.1 (Utf8.toNat_ofNat (h c hc))
  exact congrArg Path.mk (String.toList_inj.1 hchars)

lemma narrow_lt {d : Char} (h : d ∈ narrow c) : d.toNat < 256 := by
  unfold narrow at h
  split_ifs at h with hlt
  · exact List.mem_singleton.1 h ▸ hlt
  · exact List.mem_singleton.1 h ▸ (by decide)

lemma lt_of_mem_letters {bytes : List UInt8} (h : c ∈ (letters bytes).toList) : c.toNat < 256 := by
  rw [letters, String.toList_ofList] at h
  obtain ⟨b, -, rfl⟩ := List.mem_map.1 h
  exact b.toNat_lt

lemma letters_narrow (bytes : List UInt8) : recoded narrow (letters bytes) = letters bytes := by
  rw [← String.toList_inj, toList_recoded]
  have hkeep : ∀ c ∈ (letters bytes).toList, narrow c = [c] := fun c hc => if_pos (lt_of_mem_letters hc)
  rw [List.flatMap_congr hkeep, List.flatMap_singleton']

/-- What is made of letters that stand for bytes is made of such letters. -/
lemma path_normalize (hcwd : ∀ n ∈ cwd.map letters, Proper n) (hp : p.bytes ≠ []) :
    (p.normalize cwd).path = p.path.normalize (cwd.map letters) := by
  have hnarrow : (cwd.map letters).map (recoded narrow) = cwd.map letters := by
    rw [List.map_map]
    exact List.map_congr_left fun n _ => letters_narrow n
  have hpath : p.path.recode narrow = p.path := congrArg Path.mk (letters_narrow p.bytes)
  have hnormal := recoding_narrow.normalize_recode hcwd (path_text.2 hp)
  rw [hnarrow, hpath] at hnormal
  refine path_ofPath fun c hc => ?_
  rw [hnormal, Path.chars, Path.recode, toList_recoded] at hc
  obtain ⟨d, -, hd⟩ := List.mem_flatMap.1 hc
  exact narrow_lt hd

lemma ofPath_spelling (p : Path) : ofPath (p.recode spelling) = ofText p := by
  rw [← path_ofText, ofPath_path]

/-- A text is resolved as a text. -/
lemma normalize_ofText {cwd : Place} (hcwd : ∀ n ∈ cwd, Proper n) (p : Path) :
    (ofText p).normalize (cwd.map utf8) = ofText (p.normalize cwd) := by
  by_cases hp : p.text = ""
  · obtain rfl : p = ⟨""⟩ := congrArg Path.mk hp
    rfl
  · have hcwd' : (cwd.map utf8).map letters = cwd.map (recoded spelling) := by
      rw [List.map_map]
      exact List.map_congr_left fun n _ => letters_utf8 n
    rw [normalize, path_ofText, hcwd', recoding_spelling.normalize_recode hcwd hp, ofPath_spelling]

lemma decodeLossy_ofText (p : Path) : String.ofList (Utf8.decodeLossy (ofText p).bytes) = p.text := by
  rw [ofText, utf8, Text.toUTF8_toList, Utf8.decodeLossy_encode, String.ofList_toList]

end RawPath

/-- A file whose path is a text is filed under the resolution of its path. -/
theorem Actor.key_eq (who : Actor) (hcwd : ∀ n ∈ who.cwd, Proper n) (p : Path) : who.key p = p.normalize who.cwd := by
  rw [Actor.key, RawPath.key, RawPath.normalize_ofText hcwd, RawPath.decodeLossy_ofText]

end FileOrganizer
