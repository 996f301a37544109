import FileOrganizer.Proofs.Ordered
import FileOrganizer.Proofs.Path.Absolute
import FileOrganizer.Proofs.Path.Raw
import FileOrganizer.Proofs.Tree.Descent

/-!
What is kept about a file is kept under its path resolved by the text alone: absolute, without dots, and one and the
same for two spellings just if the rules of spelling lead from the one to the other.
-/

namespace FileOrganizer

namespace Path

variable {p q : Path} {cwd l : Place} {ps : List Part}

/-- Two spellings of one path, seen from `cwd`, as far as it can be told without a look at the tree. -/
inductive Respelled (cwd : Place) : Path → Path → Prop
  | same {p q : Path} (h : p.same q = true) : Respelled cwd p q
  | dot (q : Path) : Respelled cwd (q.child ".") q
  | back (q : Path) {n : String} (hn : Proper n) : Respelled cwd ((q.child n).child "..") q
  -- Above the top there is nothing.
  | top : Respelled cwd ⟨"/.."⟩ ⟨"/"⟩
  -- An absolute path stands alone, so that this says something of relative ones only.
  | home (q : Path) : Respelled cwd ((ofPlace cwd).join q) q
  | join {p q : Path} (h : Respelled cwd p q) (r : Path) : Respelled cwd (p.join r) (q.join r)
  | symm {p q : Path} (h : Respelled cwd p q) : Respelled cwd q p
  | trans {p q r : Path} (hpq : Respelled cwd p q) (hqr : Respelled cwd q r) : Respelled cwd p r

lemma Respelled.refl (p : Path) : Respelled cwd p p := .same (beq_self_eq_true _)

/-- The place of a joined path hangs on the place of what it is joined to, and not on its spelling. -/
lemma place_join_place (p r : Path) : (p.join r).place cwd = r.place (p.place cwd) := by
  cases hr : r.isAbsolute with
  | true =>
    have hjoin : p.join r = r := by rw [join, if_pos hr]
    rw [hjoin, place, place, Tree.start, Tree.start, if_pos hr, if_pos hr]
  | false => rw [place_join hr, place_eq (p := r), Tree.start, hr, if_neg Bool.false_ne_true]

lemma place_child_up (p : Path) : (p.child "..").place cwd = (p.place cwd).dropLast := by
  rw [child, place_join_place]
  rfl

lemma place_child_dot (p : Path) : (p.child ".").place cwd = p.place cwd := by
  rw [child, place_join_place]
  rfl

/-- No rule changes the place that is spelled. -/
lemma Respelled.place_eq (hcwd : ∀ n ∈ cwd, Proper n) (h : Respelled cwd p q) : p.place cwd = q.place cwd := by
  induction h with
  | same h => exact place_of_same h
  | dot q => exact place_child_dot q
  | back q hn => rw [place_child_up, Tree.place_child hn, List.dropLast_concat]
  | top => rfl
  | home q => rw [place_join_place, place_ofPlace hcwd]
  | join _ r ih => rw [place_join_place, place_join_place, ih]
  | symm _ ih => exact ih.symm
  | trans _ _ ih₁ ih₂ => exact ih₁.trans ih₂

lemma Respelled.spelled (h : Respelled cwd p q) (ps : List Part) : Respelled cwd (p.spelled ps) (q.spelled ps) := by
  induction ps generalizing p q with
  | nil => exact h
  | cons c ps ih => exact ih (h.join ⟨c.text⟩)

lemma respelled_up (hl : ∀ n ∈ l, Proper n) : Respelled cwd ((ofPlace l).child "..") (ofPlace l.dropLast) := by
  rcases List.eq_nil_or_concat l with rfl | ⟨m, n, rfl⟩
  · exact .top
  · rw [List.concat_eq_append] at hl
    rw [List.concat_eq_append, ofPlace_concat hl, List.dropLast_concat]
    exact .back _ (hl n (by simp))

/-- Part by part the rules take a path to the spelling of its place. -/
lemma respelled_spelled (hl : ∀ n ∈ l, Proper n) (hps : ∀ c ∈ ps, Ordinary c) :
    Respelled cwd ((ofPlace l).spelled ps) (ofPlace (reduce l.reverse ps).reverse) := by
  induction ps generalizing l with
  | nil =>
    rw [reduce, List.reverse_reverse]
    exact .refl _
  | cons c ps ih =>
    have hrest : ∀ d ∈ ps, Ordinary d := fun d hd => hps d (List.mem_cons_of_mem c hd)
    have hc := hps c List.mem_cons_self
    cases c with
    | root => exact hc.elim
    | here => exact hc.elim
    | up =>
      have hreduce : reduce l.reverse (.up :: ps) = reduce l.dropLast.reverse ps := by
        rw [reduce, List.tail_reverse]
      rw [hreduce]
      exact ((respelled_up hl).spelled ps).trans (ih (fun n hn => hl n (List.mem_of_mem_dropLast hn)) hrest)
    | name n =>
      have hname : ∀ m ∈ l ++ [n], Proper m := by
        intro m hm
        rcases List.mem_append.1 hm with hm | hm
        · exact hl m hm
        · exact List.mem_singleton.1 hm ▸ hc
      have hreduce : reduce l.reverse (.name n :: ps) = reduce (l ++ [n]).reverse ps := by
        rw [reduce, List.reverse_concat]
      have hspelled : (ofPlace l).spelled (.name n :: ps) = (ofPlace (l ++ [n])).spelled ps := by
        rw [ofPlace_concat hname]
        rfl
      rw [hreduce, hspelled]
      exact ih hname hrest

lemma respelled_start (p : Path) : Respelled cwd p ((ofPlace (Tree.start cwd p)).spelled p.body) := by
  have hord : ∀ c ∈ p.body, Ordinary c := fun c => ordinary_of_mem_body
  have hparts : ∀ l : Place, ((ofPlace l).spelled p.body).parts = (ofPlace l).parts ++ p.body :=
    fun l => (parts_foldl (ofPlace_text l) hord).1
  unfold Tree.start
  cases ha : p.isAbsolute with
  | true =>
    refine .same ?_
    rw [same, hparts, parts_of_absolute ha, if_pos rfl, parts_ofPlace (l := []) (by simp)]
    exact beq_self_eq_true _
  | false =>
    refine .trans (.symm (.home p)) (.same ?_)
    rw [same, hparts, parts_join (ofPlace_text cwd) ha]
    exact beq_self_eq_true _

lemma respelled_ofPlace (hcwd : ∀ n ∈ cwd, Proper n) (p : Path) : Respelled cwd p (ofPlace (p.place cwd)) := by
  have hstart : ∀ n ∈ Tree.start cwd p, Proper n := fun n hn => hcwd n (mem_start hn)
  rw [Path.place_eq]
  exact (respelled_start p).trans (respelled_spelled hstart fun c => ordinary_of_mem_body)

/-- The rules lead from one spelling to another just if the two spell one place. -/
theorem respelled_iff (hcwd : ∀ n ∈ cwd, Proper n) : Respelled cwd p q ↔ p.place cwd = q.place cwd := by
  constructor
  · exact Respelled.place_eq hcwd
  · intro h
    have hq := (respelled_ofPlace hcwd q).symm
    rw [← h] at hq
    exact (respelled_ofPlace hcwd p).trans hq

lemma canonical_normalize (hcwd : ∀ n ∈ cwd, Proper n) (hp : p.text ≠ "") : (p.normalize cwd).Canonical :=
  ⟨p.place cwd, proper_place hcwd, normalize_eq hcwd hp⟩

namespace Canonical

lemma absolute (h : p.Canonical) : p.isAbsolute = true := by
  obtain ⟨l, -, rfl⟩ := h
  exact isAbsolute_ofPlace l

lemma undotted (h : p.Canonical) : ∀ s ∈ Tree.segments p.chars, s ≠ "." ∧ s ≠ ".." := by
  obtain ⟨l, hl, rfl⟩ := h
  rw [segments_ofPlace hl]
  exact fun s hs => ⟨(hl s hs).2.1, (hl s hs).2.2.1⟩

lemma level (h : p.Canonical) : .up ∉ p.parts := by
  obtain ⟨l, hl, rfl⟩ := h
  rw [parts_ofPlace hl]
  simp

/-- An absolute path is filed alike wherever it is seen from. -/
lemma settled (h : p.Canonical) (cwd : Place) : p.normalize cwd = p := by
  have habs := h.absolute
  obtain ⟨l, hl, rfl⟩ := h
  have htop : (ofPlace l).normalize [] = ofPlace l := normalize_ofPlace (by simp) hl
  rw [normalize, absolute?_eq habs] at htop ⊢
  exact htop

end Canonical

/-- Of the absolute spellings of a path one is without dots. -/
lemma same_normalize (hcwd : ∀ n ∈ cwd, Proper n) (hp : p.text ≠ "") (hq : q.isAbsolute = true) (hup : .up ∉ q.parts)
    (h : Respelled cwd p q) : q.same (p.normalize cwd) = true := by
  have hcanonical := canonical_normalize hcwd hp
  have hplace : q.place cwd = (p.normalize cwd).place cwd := by rw [place_normalize hcwd hp, h.place_eq hcwd]
  exact same_of_place hq hcanonical.absolute hup hcanonical.level hplace

end Path

open FileOrganizer.Path

namespace RawPath

variable {p q : RawPath} {cwd : List (List UInt8)} {n : List UInt8}

def child (p : RawPath) (name : List UInt8) : RawPath := ofPath (p.path.child (letters name))

/-- The place that a path spells, with a letter for each byte. -/
def place (cwd : List (List UInt8)) (p : RawPath) : Place := p.path.place (cwd.map letters)

def IsText (p : RawPath) : Prop := ∃ t : Path, p = ofText t

lemma path_child (p : RawPath) (n : List UInt8) : (p.child n).path = p.path.child (letters n) := by
  refine path_ofPath fun c hc => ?_
  have hmem : c ∈ (letters p.bytes).toList ∨ c ∈ ['/'] ∨ c ∈ (letters n).toList := by
    rw [Path.child, Path.join] at hc
    split_ifs at hc
    · exact Or.inr (Or.inr hc)
    · rw [chars, String.toList_append, List.mem_append] at hc
      exact hc.imp id Or.inr
    · rw [chars, String.toList_append, String.toList_append, List.append_assoc, List.mem_append, List.mem_append] at hc
      exact hc
  rcases hmem with hp | hslash | hn
  · exact lt_of_mem_letters hp
  · exact List.mem_singleton.1 hslash ▸ (by decide)
  · exact lt_of_mem_letters hn

lemma child_ne (hp : p.bytes ≠ []) : (p.child n).bytes ≠ [] := by
  rw [← path_text, path_child]
  exact join_text_ne (path_text.2 hp)

/-- Of texts no two are read alike. -/
lemma IsText.eq (hp : p.IsText) (hq : q.IsText) (h : Utf8.decodeLossy p.bytes = Utf8.decodeLossy q.bytes) : p = q := by
  obtain ⟨t, rfl⟩ := hp
  obtain ⟨u, rfl⟩ := hq
  have htext := congrArg String.ofList h
  rw [decodeLossy_ofText, decodeLossy_ofText] at htext
  rw [ofText, ofText, htext]

/-- A key without a replacement character tells that nothing was replaced. -/
lemma isText_of_key (h : Utf8.replacement ∉ (p.key cwd).toList) : (p.normalize cwd).IsText := by
  rw [key, String.toList_ofList] at h
  have hbytes : utf8 (p.key cwd) = (p.normalize cwd).bytes := by
    rw [utf8, Text.toUTF8_toList, key, String.toList_ofList, Utf8.encode_decodeLossy h]
  exact ⟨⟨p.key cwd⟩, congrArg RawPath.mk hbytes.symm⟩

lemma key_congr (h : p.normalize cwd = q.normalize cwd) : p.key cwd = q.key cwd := by rw [key, key, h]

section

variable (hcwd : ∀ n ∈ cwd.map letters, Proper n)

include hcwd

lemma path_normalize_eq (hp : p.bytes ≠ []) : (p.normalize cwd).path = ofPlace (p.place cwd) := by
  rw [path_normalize hcwd hp]
  exact normalize_eq hcwd (path_text.2 hp)

lemma canonical_path (hp : p.bytes ≠ []) : (p.normalize cwd).path.Canonical :=
  ⟨p.place cwd, proper_place hcwd, path_normalize_eq hcwd hp⟩

lemma normalize_inj (hp : p.bytes ≠ []) (hq : q.bytes ≠ []) :
    p.normalize cwd = q.normalize cwd ↔ p.place cwd = q.place cwd := by
  rw [← path_inj, path_normalize hcwd hp, path_normalize hcwd hq]
  exact Path.normalize_inj hcwd (path_text.2 hp) (path_text.2 hq)

lemma normalize_respelled (hp : p.bytes ≠ []) (hq : q.bytes ≠ []) (h : Respelled (cwd.map letters) p.path q.path) :
    p.normalize cwd = q.normalize cwd := (normalize_inj hcwd hp hq).2 (h.place_eq hcwd)

lemma normalize_child (hq : q.bytes ≠ []) (hn : Proper (letters n)) :
    (q.child n).normalize cwd = (q.normalize cwd).child n := by
  have hplace : (q.child n).place cwd = q.place cwd ++ [letters n] := by
    rw [place, path_child]
    exact Tree.place_child hn
  have hproper : ∀ m ∈ (q.child n).place cwd, Proper m := proper_place hcwd
  rw [hplace] at hproper
  rw [← path_inj, path_child, path_normalize_eq hcwd (child_ne hq), path_normalize_eq hcwd hq, hplace, ofPlace_concat hproper]

/-- Of texts only those with one place share a key. -/
lemma key_iff (hp : p.bytes ≠ []) (hq : q.bytes ≠ []) (htext : (p.normalize cwd).IsText) (htext' : (q.normalize cwd).IsText) :
    p.key cwd = q.key cwd ↔ p.place cwd = q.place cwd := by
  rw [← normalize_inj hcwd hp hq]
  refine ⟨fun h => htext.eq htext' ?_, key_congr⟩
  rw [key, key] at h
  exact String.ofList_injective h

lemma key_iff_of_key (hp : p.bytes ≠ []) (hq : q.bytes ≠ []) (h : Utf8.replacement ∉ (p.key cwd).toList) :
    p.key cwd = q.key cwd ↔ p.place cwd = q.place cwd := by
  refine ⟨fun hkey => ?_, fun hplace => key_congr ((normalize_inj hcwd hp hq).2 hplace)⟩
  have h' := h
  rw [hkey] at h'
  exact (key_iff hcwd hp hq (isText_of_key h) (isText_of_key h')).1 hkey

end

/-- Whatever the current directory, a path is resolved to one that is absolute, has no dots, is its own resolution, and is
where the path leads by its bytes, as no other absolute path without dots is. A dot adds nothing to it, a name is added
at its end and is taken back by two dots behind it. So two paths are resolved alike just if they spell one place, which
is just if the rules of spelling lead from the one to the other. The key is the resolution read as a text, so that for
texts it is as good as the resolution; where nothing had to be replaced in a key, it belongs to one place alone. -/
theorem key_canonical (hcwd : ∀ n ∈ cwd.map letters, Proper n) :
    (∀ p : RawPath, p.bytes ≠ [] →
      (p.normalize cwd).path.isAbsolute = true ∧
      (∀ s ∈ Tree.segments (p.normalize cwd).path.chars, s ≠ "." ∧ s ≠ "..") ∧
      (∀ cwd', (p.normalize cwd).normalize cwd' = p.normalize cwd) ∧
      (p.normalize cwd).path = ofPlace (p.place cwd) ∧
      ∀ q : RawPath, q.path.isAbsolute = true → .up ∉ q.path.parts → Respelled (cwd.map letters) p.path q.path →
        q.path.same (p.normalize cwd).path = true) ∧
    (∀ q : RawPath, q.bytes ≠ [] → ∀ n, Proper (letters n) →
      ((q.child n).child (utf8 "..")).normalize cwd = q.normalize cwd ∧
      (q.child (utf8 ".")).normalize cwd = q.normalize cwd ∧
      (q.child n).normalize cwd = (q.normalize cwd).child n) ∧
    ∀ p q : RawPath, p.bytes ≠ [] → q.bytes ≠ [] →
      (p.normalize cwd = q.normalize cwd ↔ p.place cwd = q.place cwd) ∧
      (p.normalize cwd = q.normalize cwd ↔ Respelled (cwd.map letters) p.path q.path) ∧
      (p.place cwd = q.place cwd → p.key cwd = q.key cwd) ∧
      ((p.normalize cwd).IsText → (q.normalize cwd).IsText → (p.key cwd = q.key cwd ↔ p.place cwd = q.place cwd)) ∧
      (Utf8.replacement ∉ (p.key cwd).toList → (p.key cwd = q.key cwd ↔ p.place cwd = q.place cwd)) := by
  refine ⟨?_, ?_, ?_⟩
  · intro p hp
    have hcanonical := canonical_path hcwd hp
    refine ⟨hcanonical.absolute, hcanonical.undotted, fun cwd' => ?_, path_normalize_eq hcwd hp, fun q hq hup h => ?_⟩
    · rw [normalize, hcanonical.settled, ofPath_path]
    · rw [path_normalize hcwd hp]
      exact same_normalize hcwd (path_text.2 hp) hq hup h
  · intro q hq n hn
    have hdots : letters (utf8 "..") = ".." := by decide
    have hdot : letters (utf8 ".") = "." := by decide
    refine ⟨?_, ?_, normalize_child hcwd hq hn⟩
    · apply normalize_respelled hcwd (child_ne (child_ne hq)) hq
      rw [path_child, path_child, hdots]
      exact .back q.path hn
    · apply normalize_respelled hcwd (child_ne hq) hq
      rw [path_child, hdot]
      exact .dot q.path
  · intro p q hp hq
    have hplace := normalize_inj hcwd hp hq
    exact ⟨hplace, hplace.trans (respelled_iff hcwd).symm, fun h => key_congr (hplace.2 h), key_iff hcwd hp hq,
      key_iff_of_key hcwd hp hq⟩

/-- The directory `/tmp/w`. -/
def home : List (List UInt8) := [utf8 "tmp", utf8 "w"]

/-- Relative paths, of which one is no text. -/
theorem key_canonical_relative :
    (ofText ⟨"../w2//./a"⟩).normalize home = ofText ⟨"/tmp/w2/a"⟩ ∧
    (((ofText ⟨"../w2//./a"⟩).child (utf8 "b")).child (utf8 "..")).normalize home = ofText ⟨"/tmp/w2/a"⟩ ∧
    Respelled (home.map letters) (ofText ⟨"../w2//./a"⟩).path (ofText ⟨"/tmp/w2/b/../a/"⟩).path ∧
    (⟨[0xFF]⟩ : RawPath).key home = (⟨[0x2E, 0x2F, 0xFF]⟩ : RawPath).key home ∧
    (ofText ⟨"a"⟩).key home ≠ (⟨[0xFF]⟩ : RawPath).key home := by
  have hcwd : ∀ n ∈ home.map letters, Proper n := by decide
  obtain ⟨-, hextend, hkey⟩ := key_canonical hcwd
  have hplain : (ofText ⟨"../w2//./a"⟩).normalize home = ofText ⟨"/tmp/w2/a"⟩ := by decide +kernel
  obtain ⟨hback, -, -⟩ := hextend (ofText ⟨"../w2//./a"⟩) (by decide) (utf8 "b") (by decide)
  obtain ⟨-, hspelled, -⟩ := hkey (ofText ⟨"../w2//./a"⟩) (ofText ⟨"/tmp/w2/b/../a/"⟩) (by decide) (by decide)
  obtain ⟨-, -, hshared, -⟩ := hkey ⟨[0xFF]⟩ ⟨[0x2E, 0x2F, 0xFF]⟩ (by decide) (by decide)
  obtain ⟨-, -, -, -, hapart⟩ := hkey (ofText ⟨"a"⟩) ⟨[0xFF]⟩ (by decide) (by decide)
  refine ⟨hplain, hback.trans hplain, hspelled.1 (by decide +kernel), hshared (by decide +kernel), fun h => ?_⟩
  exact absurd ((hapart (by decide +kernel)).1 h) (by decide +kernel)

/-- A file whose name is no text shares its key with one that has the replacement character in its name. -/
theorem key_canonical_fails : ¬∀ (cwd : List (List UInt8)) (p q : RawPath), (∀ n ∈ cwd.map letters, Proper n) →
    p.bytes ≠ [] → q.bytes ≠ [] → (p.key cwd = q.key cwd ↔ p.place cwd = q.place cwd) := by
  intro hall
  have hkey : (⟨[0x2F, 0x64, 0x2F, 0xE9]⟩ : RawPath).key [] = (ofText ⟨"/d/\uFFFD"⟩).key [] := by decide +kernel
  have hplace := (hall [] _ _ (by simp) (by decide) (by decide)).1 hkey
  exact absurd hplace (by decide +kernel)

end RawPath

namespace Actor

variable {who : Actor} {p q : Path}

variable (hcwd : ∀ n ∈ who.cwd, Proper n) (hp : p.text ≠ "")

include hcwd hp

lemma key_place : who.key p = ofPlace (p.place who.cwd) := by rw [who.key_eq hcwd, normalize_eq hcwd hp]

lemma canonical_key : (who.key p).Canonical := by
  rw [who.key_eq hcwd]
  exact canonical_normalize hcwd hp

lemma key_key : who.key (who.key p) = who.key p := by
  rw [who.key_eq hcwd (who.key p)]
  exact (canonical_key hcwd hp).settled who.cwd

/-- Two paths that are texts have one key just if they spell one place. -/
lemma key_inj (hq : q.text ≠ "") : who.key p = who.key q ↔ p.place who.cwd = q.place who.cwd := by
  rw [who.key_eq hcwd, who.key_eq hcwd, normalize_inj hcwd hp hq]

end Actor

end FileOrganizer
