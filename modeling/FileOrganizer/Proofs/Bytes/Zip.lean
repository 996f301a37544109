import FileOrganizer.Bytes.Zip
import FileOrganizer.Proofs.Text.Bytes
import Mathlib.Algebra.Order.Ring.Nat
import Mathlib.Data.List.Basic
import Mathlib.Tactic.Lemma

/-! What is packed can be unpacked: an archive of one file has one member, with its name and its bytes. -/

namespace FileOrganizer.Zip

variable {data : ByteArray} {i k n w : ℕ} {x : UInt8} {xs ys : List UInt8} {fields : List (ℕ × ℕ)}

/-- The bytes stand in the data from a place on. -/
def Holds (data : ByteArray) (i : ℕ) (xs : List UInt8) : Prop := xs <+: data.data.toList.drop i

namespace Holds

lemma self (data : ByteArray) : Holds data 0 data.data.toList := List.prefix_rfl

lemma left (h : Holds data i (xs ++ ys)) : Holds data i xs := (List.prefix_append xs ys).trans h

lemma right (h : Holds data i (xs ++ ys)) : Holds data (i + xs.length) ys := by
  obtain ⟨zs, hzs⟩ := h
  refine ⟨zs, ?_⟩
  rw [← List.drop_drop, ← hzs, List.append_assoc, List.drop_left]

lemma head (h : Holds data i (x :: xs)) : data[i]? = some x := by
  obtain ⟨zs, hzs⟩ := h
  have hget : (data.data.toList.drop i)[0]? = some x := by rw [← hzs]; rfl
  rw [List.getElem?_drop, Nat.add_zero, Array.getElem?_toList] at hget
  exact hget

lemma tail (h : Holds data i (x :: xs)) : Holds data (i + 1) xs :=
  (show Holds data i ([x] ++ xs) from h).right

lemma signature {a b : UInt8} (h : Holds data i [0x50, 0x4B, a, b]) : signature data i a b = true := by
  have h₁ := h.tail
  have h₂ := h₁.tail
  have h₃ := h₂.tail
  rw [Zip.signature, h.head, h₁.head, h₂.head, h₃.head]
  simp

lemma extract {b : ByteArray} (h : Holds data i b.data.toList) : data.extract i (i + b.size) = b := by
  obtain ⟨zs, hzs⟩ := h
  apply ByteArray.ext
  apply Array.toList_inj.1
  rw [ByteArray.data_extract, Array.toList_extract, List.extract_eq_take_drop, ← hzs, Nat.add_sub_cancel_left,
    ← ByteArray.size_data, ← Array.length_toList, List.take_left]

end Holds

/-- The low bytes of a number, the lowest first. -/
def low : ℕ → ℕ → List UInt8
  | _, 0 => []
  | n, k + 1 => (n % 256).toUInt8 :: low (n / 256) k

@[simp] lemma length_low (n k : ℕ) : (low n k).length = k := by
  induction k generalizing n with
  | zero => rfl
  | succ k ih => rw [low, List.length_cons, ih]

lemma Holds.le (h : Holds data i (low n k)) (hn : n < 256 ^ k) : le data i k = n := by
  induction k generalizing i n with
  | zero => rw [Zip.le]; omega
  | succ k ih =>
    have hdiv : n / 256 < 256 ^ k := by
      rw [Nat.div_lt_iff_lt_mul (by decide), ← pow_succ]
      exact hn
    rw [low] at h
    rw [Zip.le, h.head, ih h.tail hdiv]
    have hbyte : (n % 256).toUInt8.toNat = n % 256 := by simp
    rw [Option.getD_some, hbyte]
    omega

lemma leBytes_toList (n k : ℕ) (out : ByteArray) : (leBytes n k out).data.toList = out.data.toList ++ low n k := by
  induction k generalizing n out with
  | zero => simp [leBytes, low]
  | succ k ih => simp [leBytes, low, ih]

lemma record_toList (fields : List (ℕ × ℕ)) :
    (record fields).data.toList = fields.flatMap fun f => low f.1 f.2 := by
  have hfold : ∀ out : ByteArray, (fields.foldl (fun out f => leBytes f.1 f.2 out) out).data.toList =
      out.data.toList ++ fields.flatMap fun f => low f.1 f.2 := by
    induction fields with
    | nil => simp
    | cons f fields ih => simp [ih, leBytes_toList]
  exact hfold .empty

lemma length_record (fields : List (ℕ × ℕ)) : (record fields).data.toList.length = (fields.map Prod.snd).sum := by
  rw [record_toList, List.length_flatMap]
  simp

/-- A field of a record is read after the widths of those before it. -/
lemma Holds.le_field (h : Holds data i (record fields).data.toList) (j : ℕ) (hj : fields[j]? = some (n, k))
    (hw : ((fields.take j).map Prod.snd).sum = w) (hn : n < 256 ^ k) : Zip.le data (i + w) k = n := by
  obtain ⟨hlt, hget⟩ := List.getElem?_eq_some_iff.1 hj
  have hsplit : fields = fields.take j ++ (n, k) :: fields.drop (j + 1) := by
    rw [← hget, ← List.drop_eq_getElem_cons hlt, List.take_append_drop]
  rw [hsplit, record_toList, List.flatMap_append, List.flatMap_cons] at h
  have hfield := h.right.left
  rw [← record_toList, length_record, hw] at hfield
  exact hfield.le hn

lemma Holds.first (h : Holds data i (record ((n, k) :: fields)).data.toList) : Holds data i (low n k) := by
  rw [record_toList, List.flatMap_cons] at h
  exact h.left

lemma closing?_of_signature (h : signature data i 5 6 = true) (hi : i ≠ 0) : closing? data i = some i := by
  cases i with
  | zero => exact absurd rfl hi
  | succ i => rw [closing?, if_pos h]

section

variable (name : String) (bytes : ByteArray)

/-- Is the name marked as UTF-8? -/
def flags : ℕ := if name.toList.all (·.toNat < 128) then 0 else 2048

/-- What the header of a member and its entry in the directory both tell. -/
def shared : List (ℕ × ℕ) :=
  [(20, 2), (flags name, 2), (0, 2), (0, 2), (33, 2),
    ((Crc32.checksum bytes).toNat, 4), (bytes.size, 4), (bytes.size, 4), (name.toUTF8.size, 2), (0, 2)]

def header : List (ℕ × ℕ) := (0x04034b50, 4) :: shared name bytes

def entry : List (ℕ × ℕ) :=
  (0x02014b50, 4) :: (0x0314, 2) :: shared name bytes ++ [(0, 2), (0, 2), (0, 2), (0o100644 * 65536, 4), (0, 4)]

def closing : List (ℕ × ℕ) :=
  [(0x06054b50, 4), (0, 2), (0, 2), (1, 2), (1, 2), (46 + name.toUTF8.size, 4),
    (30 + name.toUTF8.size + bytes.size, 4), (0, 2)]

lemma length_toList (b : ByteArray) : b.data.toList.length = b.size := by rw [Array.length_toList, ByteArray.size_data]

lemma size_record (fields : List (ℕ × ℕ)) : (record fields).size = (fields.map Prod.snd).sum := by
  rw [← length_record, length_toList]

lemma size_header : (record (header name bytes)).size = 30 := by simp [size_record, header, shared]

lemma size_entry : (record (entry name bytes)).size = 46 := by simp [size_record, entry, shared]

lemma size_closing : (record (closing name bytes)).size = 22 := by simp [size_record, closing]

lemma pack_eq : pack name bytes = record (header name bytes) ++ name.toUTF8 ++ bytes ++
    (record (entry name bytes) ++ name.toUTF8) ++ record (closing name bytes) := by
  unfold closing
  rw [← size_header name bytes, ← size_entry name bytes, ← ByteArray.size_append, ← ByteArray.size_append]
  rfl

/-- The place of the directory in an archive of one file. -/
def directoryAt : ℕ := 30 + name.toUTF8.size + bytes.size

/-- The parts of an archive of one file, each in its place. -/
structure Laid (data : ByteArray) : Prop where
  headed : Holds data 0 (record (header name bytes)).data.toList
  kept : Holds data (30 + name.toUTF8.size) bytes.data.toList
  listed : Holds data (directoryAt name bytes) (record (entry name bytes)).data.toList
  named : Holds data (directoryAt name bytes + 46) name.toUTF8.data.toList
  closed : Holds data (directoryAt name bytes + 46 + name.toUTF8.size) (record (closing name bytes)).data.toList
  size : data.size = directoryAt name bytes + 46 + name.toUTF8.size + 22

lemma laid_pack : Laid name bytes (pack name bytes) := by
  have hlist : (pack name bytes).data.toList = (record (header name bytes)).data.toList ++ (name.toUTF8.data.toList ++
      (bytes.data.toList ++ ((record (entry name bytes)).data.toList ++ (name.toUTF8.data.toList ++
        (record (closing name bytes)).data.toList)))) := by
    rw [pack_eq]
    simp only [ByteArray.data_append, Array.toList_append, List.append_assoc]
  have hall := Holds.self (pack name bytes)
  rw [hlist] at hall
  have hname := hall.right
  rw [length_toList, size_header, Nat.zero_add] at hname
  have hbytes := hname.right
  rw [length_toList] at hbytes
  have hlisted := hbytes.right
  rw [length_toList] at hlisted
  have hnamed := hlisted.right
  rw [length_toList, size_entry] at hnamed
  have hclosed := hnamed.right
  rw [length_toList] at hclosed
  refine ⟨hall.left, hbytes.left, hlisted.left, hnamed.left, hclosed, ?_⟩
  rw [← length_toList, hlist]
  simp only [List.length_append, length_toList, size_header, size_entry, size_closing, directoryAt]
  omega

end

variable {name : String} {bytes : ByteArray}

lemma flags_lt (name : String) : flags name < 256 ^ 2 := by
  unfold flags
  split <;> decide

lemma toUTF8_ascii (h : ∀ c ∈ name.toList, c.toNat < 128) : name.toUTF8.data.toList.map oemChar = name.toList := by
  rw [Text.toUTF8_toList]
  generalize name.toList = cs at h
  induction cs with
  | nil => rfl
  | cons c cs ih =>
    obtain ⟨hc, hcs⟩ := List.forall_mem_cons.1 h
    have hbyte : String.utf8EncodeChar c = [UInt8.ofNat c.toNat] := by
      unfold String.utf8EncodeChar
      exact if_pos (Nat.le_of_lt_succ hc)
    have hchar : oemChar (UInt8.ofNat c.toNat) = c := by
      have hval : (UInt8.ofNat c.toNat).toNat = c.toNat := Nat.mod_eq_of_lt (by omega)
      have hlt : UInt8.ofNat c.toNat < 128 := UInt8.lt_iff_toNat_lt.2 (by rw [hval]; exact hc)
      rw [oemChar, if_pos hlt, hval, Char.ofNat_toNat]
    rw [List.flatMap_cons, List.map_append, ih hcs, hbyte, List.map_singleton, hchar, List.singleton_append]

/-- A name that is not marked as UTF-8 has no characters but those that are one byte in either way of writing. -/
lemma nameOf_toUTF8 (name : String) : nameOf (flags name / 2048 % 2 = 1) name.toUTF8 = name := by
  have hutf8 : String.fromUTF8? name.toUTF8 = some name := by
    rw [String.fromUTF8?, dif_pos (show name.toUTF8.IsValidUTF8 from name.isValidUTF8)]
    rfl
  unfold nameOf flags
  by_cases hascii : name.toList.all (·.toNat < 128)
  · have hall : ∀ c ∈ name.toList, c.toNat < 128 := by simpa using hascii
    rw [if_pos hascii, toUTF8_ascii hall]
    exact String.ofList_toList
  · rw [if_neg hascii, hutf8]
    rfl

section

variable (h : Laid name bytes data) (hname : name.toUTF8.size < 256 ^ 2)
  (hsize : 30 + name.toUTF8.size + bytes.size < 256 ^ 4)

include h hname

lemma Laid.content : contentAt data 0 (flags name) 0 (Crc32.checksum bytes).toNat bytes.size = .intact bytes := by
  have hsign : signature data 0 3 4 = true := h.headed.first.signature
  have hlength : le data (0 + 26) 2 = name.toUTF8.size := h.headed.le_field 9 rfl (by simp [header, shared]) hname
  have hextra : le data (0 + 28) 2 = 0 := h.headed.le_field 10 rfl (by simp [header, shared]) (by decide)
  have heven : flags name % 2 = 0 := by
    unfold flags
    split <;> rfl
  unfold contentAt
  rw [if_neg (by simp [hsign, heven]), hlength, hextra]
  dsimp only
  rw [if_pos rfl, Nat.add_zero, Nat.zero_add, h.kept.extract]
  dsimp only
  rw [if_pos rfl]

include hsize

lemma Laid.directory : directory data 0 1 (directoryAt name bytes) = some [⟨name, bytes.size, .intact bytes⟩] := by
  have hsign : signature data (directoryAt name bytes) 1 2 = true := h.listed.first.signature
  have hflags : le data (directoryAt name bytes + 8) 2 = flags name :=
    h.listed.le_field 3 rfl (by simp [entry, shared]) (flags_lt name)
  have hmethod : le data (directoryAt name bytes + 10) 2 = 0 :=
    h.listed.le_field 4 rfl (by simp [entry, shared]) (by decide)
  have hcrc : le data (directoryAt name bytes + 16) 4 = (Crc32.checksum bytes).toNat :=
    h.listed.le_field 7 rfl (by simp [entry, shared]) (Crc32.checksum bytes).toNat_lt
  have hpacked : le data (directoryAt name bytes + 20) 4 = bytes.size :=
    h.listed.le_field 8 rfl (by simp [entry, shared]) (by omega)
  have hwhole : le data (directoryAt name bytes + 24) 4 = bytes.size :=
    h.listed.le_field 9 rfl (by simp [entry, shared]) (by omega)
  have hlength : le data (directoryAt name bytes + 28) 2 = name.toUTF8.size :=
    h.listed.le_field 10 rfl (by simp [entry, shared]) hname
  have hoffset : le data (directoryAt name bytes + 42) 4 = 0 :=
    h.listed.le_field 16 rfl (by simp [entry, shared]) (by decide)
  unfold Zip.directory
  rw [if_neg (by simp [hsign, h.size]; omega), hflags, hmethod, hcrc, hpacked, hwhole, hlength, hoffset]
  dsimp only
  rw [← length_toList name.toUTF8, length_toList, h.named.extract, nameOf_toUTF8, h.content hname]
  rfl

end

/-- An archive of one file has it as its one member. -/
theorem members?_pack (hname : name.toUTF8.size < 256 ^ 2) (hsize : 30 + name.toUTF8.size + bytes.size < 256 ^ 4) :
    members? (pack name bytes) = some [⟨name, bytes.size, .intact bytes⟩] := by
  have h := laid_pack name bytes
  set data := pack name bytes
  -- The closing record has no comment, so it is found where it is looked for first.
  have hend : data.size - 22 = directoryAt name bytes + 46 + name.toUTF8.size := by
    rw [h.size]
    omega
  have hcount : le data (data.size - 22 + 10) 2 = 1 := by
    rw [hend]
    exact h.closed.le_field 4 rfl (by simp [closing]) (by decide)
  have hlength : le data (data.size - 22 + 12) 4 = 46 + name.toUTF8.size := by
    rw [hend]
    exact h.closed.le_field 5 rfl (by simp [closing]) (by omega)
  have hoffset : le data (data.size - 22 + 16) 4 = directoryAt name bytes := by
    rw [hend]
    exact h.closed.le_field 6 rfl (by simp [closing]) hsize
  have hclosing : closing? data (data.size - 22) = some (data.size - 22) := by
    refine closing?_of_signature ?_ (by omega)
    rw [hend]
    exact h.closed.first.signature
  have hshift : data.size - 22 - (directoryAt name bytes + (46 + name.toUTF8.size)) = 0 := by omega
  unfold members?
  rw [if_neg (by rw [h.size]; omega), hclosing]
  dsimp only [Option.bind_eq_bind, Option.bind_some]
  rw [hcount, hlength, hoffset, if_neg (by omega), hshift, Nat.add_zero, h.directory hname hsize]
  rfl

end FileOrganizer.Zip
