import FileOrganizer.File.Template
import FileOrganizer.Proofs.Batch.Tracking

/-! What the stem and the extension of a file can be. A name is cut at its last dot, unless that is its first character;
nothing but small letters comes of the extension, so it has no dot but its first. -/

namespace FileOrganizer

namespace Text

variable {c d sep : Char} {cs as bs before : List Char} {s : String}

set_option maxRecDepth 4000 in
lemma capitals_high : ∀ e ∈ capitals, 65 ≤ (e.1 : ℤ) + e.2.2.2 := by decide

lemma toLower_low : ∀ n < 128, (Char.ofNat n).toLower.toNat < 65 → (Char.ofNat n).toLower = Char.ofNat n := by
  decide

lemma toNat_ofNat_cases (n : ℕ) : (Char.ofNat n).toNat = n ∨ (Char.ofNat n).toNat = 0 := by
  by_cases h : n.isValidChar
  · left
    rw [Char.ofNat, dif_pos h]
    rfl
  · right
    rw [Char.ofNat, dif_neg h]
    rfl

/-- No character that stands before the letters comes of another one. -/
lemma eq_of_mem_lowerChar (hpos : 0 < d.toNat) (hd : d.toNat < 65) (h : d ∈ lowerChar c) : d = c := by
  unfold lowerChar at h
  split at h
  · next hc =>
    rw [List.mem_singleton] at h
    have hlow := toLower_low c.toNat hc
    rw [Char.ofNat_toNat, ← h] at hlow
    exact hlow hd
  · split at h
    · rcases List.mem_cons.1 h with rfl | h
      · exact absurd hd (by decide)
      · rw [List.mem_singleton.1 h] at hd
        exact absurd hd (by decide)
    · split at h
      · next lo hi step δ hfound =>
        rw [List.mem_singleton] at h
        have hmin : 65 ≤ (lo : ℤ) + δ := capitals_high _ (List.mem_of_find?_eq_some hfound)
        have hlo : lo ≤ c.toNat := by
          have hin := List.find?_some hfound
          simp only [Bool.and_eq_true, decide_eq_true_eq] at hin
          exact hin.1.1
        rcases toNat_ofNat_cases (c.toNat + δ).toNat with heq | heq <;> rw [← h] at heq <;> omega
      · exact List.mem_singleton.1 h

lemma mem_lowerFrom (hpos : 0 < d.toNat) (hd : d.toNat < 65) (h : d ∈ lowerFrom before cs) : d ∈ cs := by
  induction cs generalizing before with
  | nil => exact absurd h List.not_mem_nil
  | cons c cs ih =>
    rw [lowerFrom, List.mem_append] at h
    rcases h with h | h
    · split at h
      · rw [List.mem_singleton] at h
        split at h <;> exact absurd (h ▸ hd) (by decide)
      · rw [eq_of_mem_lowerChar hpos hd h]
        exact List.mem_cons_self
    · exact List.mem_cons_of_mem _ (ih h)

lemma mem_lower (hpos : 0 < d.toNat) (hd : d.toNat < 65) (h : d ∈ (lower s).toList) : d ∈ s.toList := by
  rw [lower, String.toList_ofList] at h
  exact mem_lowerFrom hpos hd h

lemma lowerChar_ne_nil (c : Char) : lowerChar c ≠ [] := by
  unfold lowerChar
  split
  · simp
  · split
    · simp
    · split <;> simp

lemma lower_eq_empty : lower s = "" ↔ s = "" := by
  rw [lower, String.ofList_eq_empty_iff]
  constructor
  · intro h
    cases hs : s.toList with
    | nil => exact String.toList_eq_nil_iff.1 hs
    | cons c cs =>
      rw [hs, lowerFrom, List.append_eq_nil_iff] at h
      split at h
      · cases h.1
      · exact absurd h.1 (lowerChar_ne_nil c)
  · rintro rfl
    rfl

lemma splitLast_append (h : sep ∉ bs) : splitLast sep (as ++ sep :: bs) = some (as, bs) := by
  have hbs : ∀ c ∈ bs.reverse, decide (c ≠ sep) = true := by
    intro c hc
    exact decide_eq_true fun heq => h (heq ▸ List.mem_reverse.1 hc)
  unfold splitLast
  rw [List.span_eq_takeWhile_dropWhile, List.reverse_append, List.reverse_cons, List.append_assoc,
    List.takeWhile_append_of_pos hbs, List.dropWhile_append_of_pos hbs]
  simp

/-- A text has no separator but perhaps at its front, or there is a last one of those behind. -/
lemma last_cases (sep : Char) (cs : List Char) :
    sep ∉ cs.tail ∨ ∃ as bs, as ≠ [] ∧ sep ∉ bs ∧ cs = as ++ sep :: bs := by
  by_cases h : sep ∈ cs.tail
  · obtain ⟨xs, ys, hrev, hxs⟩ := List.eq_append_cons_of_mem (List.mem_reverse.2 h)
    obtain ⟨c, ds, rfl⟩ : ∃ c ds, cs = c :: ds := by
      cases cs with
      | nil => cases h
      | cons c ds => exact ⟨c, ds, rfl⟩
    have htail : ds = ys.reverse ++ sep :: xs.reverse := by simpa using congrArg List.reverse hrev
    exact Or.inr ⟨c :: ys.reverse, xs.reverse, List.cons_ne_nil _ _, by simpa using hxs, by rw [htail, List.cons_append]⟩
  · exact Or.inl h

end Text

namespace FileName

variable {n : String} {as bs : List Char}

lemma cut_of_not_mem (h : '.' ∉ n.toList.tail) : cut n = (n, none) := by
  unfold cut
  split
  · rfl
  · split
    · rfl
    · rfl
    · next stem ext hne heq =>
      have hsplit := Text.splitLast_eq heq
      obtain ⟨c, cs, rfl⟩ := List.exists_cons_of_ne_nil (by simpa using hne : stem ≠ [])
      exact absurd (by simp [hsplit]) h

lemma cut_append (hn : n ≠ "..") (has : as ≠ []) (hbs : '.' ∉ bs) (h : n.toList = as ++ '.' :: bs) :
    cut n = (String.ofList as, some (String.ofList bs)) := by
  obtain ⟨c, cs, rfl⟩ := List.exists_cons_of_ne_nil has
  unfold cut
  rw [if_neg hn, h, Text.splitLast_append hbs]

end FileName

namespace FileInfo

variable {f : FileInfo} {n : String}

/-- Stem and extension of a file: there is a dot in the name behind its first character, or there is none. -/
lemma Named.cut_cases (hf : f.Named) (hfile : f.isDir = false) (hn : f.path.fileName? = some n) :
    f.name = n ∧ ('.' ∉ n.toList.tail ∧ f.stem = n ∧ f.ext = "" ∨
      ∃ as bs, as ≠ [] ∧ '.' ∉ bs ∧ n.toList = as ++ '.' :: bs ∧ f.stem = String.ofList as ∧
        f.ext = "." ++ Text.lower (String.ofList bs)) := by
  have hproper := Path.proper_fileName hn
  have hnames : f.toFileNames = FileNames.of f.path false := hfile ▸ hf
  rcases Text.last_cases '.' n.toList with htail | ⟨as, bs, has, hbs, hsplit⟩
  · have hof : FileNames.of f.path false = ⟨n, n, ""⟩ := by
      simp [FileNames.of, hn, FileName.cut_of_not_mem htail]
    rw [hof] at hnames
    exact ⟨congrArg FileNames.name hnames,
      Or.inl ⟨htail, congrArg FileNames.stem hnames, congrArg FileNames.ext hnames⟩⟩
  · have hof : FileNames.of f.path false = ⟨n, String.ofList as, "." ++ Text.lower (String.ofList bs)⟩ := by
      simp [FileNames.of, hn, FileName.cut_append hproper.2.2.1 has hbs hsplit]
    rw [hof] at hnames
    exact ⟨congrArg FileNames.name hnames,
      Or.inr ⟨as, bs, has, hbs, hsplit, congrArg FileNames.stem hnames, congrArg FileNames.ext hnames⟩⟩

section

variable (hf : f.Named) (hfile : f.isDir = false) (hn : f.path.fileName? = some n)

include hf hfile hn

/-- The stem is two dots if three dots stand before all others in the name. -/
lemma Named.stem_eq_dots : f.stem = ".." ↔ ∃ e : String, '.' ∉ e.toList ∧ f.name = "..." ++ e := by
  have hproper := Path.proper_fileName hn
  obtain ⟨hname, ⟨htail, hstem, -⟩ | ⟨as, bs, -, hbs, hsplit, hstem, -⟩⟩ := hf.cut_cases hfile hn
  · rw [hstem, hname]
    refine ⟨fun heq => absurd heq hproper.2.2.1, ?_⟩
    rintro ⟨e, -, rfl⟩
    simp at htail
  · rw [hstem, hname]
    constructor
    · intro heq
      obtain rfl : as = ['.', '.'] := by simpa using congrArg String.toList heq
      refine ⟨String.ofList bs, by simpa using hbs, ?_⟩
      rw [← String.toList_inj, hsplit]
      simp
    · rintro ⟨e, he, rfl⟩
      have hchars : ("..." ++ e).toList = ['.', '.'] ++ '.' :: e.toList := by simp
      have hcut : some (as, bs) = some (['.', '.'], e.toList) := by
        rw [← Text.splitLast_append hbs, ← hsplit, hchars, Text.splitLast_append he]
      obtain ⟨rfl, -⟩ := Prod.mk.inj (Option.some.inj hcut)
      rfl

/-- There is no extension if there is no dot behind the first character. -/
lemma Named.ext_eq_empty : f.ext = "" ↔ '.' ∉ f.name.toList.tail := by
  obtain ⟨hname, ⟨htail, -, hext⟩ | ⟨as, bs, has, -, hsplit, -, hext⟩⟩ := hf.cut_cases hfile hn
  · rw [hname, hext]
    exact ⟨fun _ => htail, fun _ => rfl⟩
  · obtain ⟨c, cs, rfl⟩ := List.exists_cons_of_ne_nil has
    simp [hname, hext, hsplit]

/-- Nothing is left of the extension without its dot if there is no dot behind the first character, or one at the end. -/
lemma Named.withoutDots_eq_empty : Template.withoutDots f.ext = "" ↔
    '.' ∉ f.name.toList.tail ∨ f.name.toList.getLast? = some '.' := by
  obtain ⟨hname, ⟨htail, -, hext⟩ | ⟨as, bs, has, hbs, hsplit, -, hext⟩⟩ := hf.cut_cases hfile hn
  · rw [hname, hext]
    exact ⟨fun _ => Or.inl htail, fun _ => rfl⟩
  · have hdot : '.' ∉ (Text.lower (String.ofList bs)).toList := fun h =>
      hbs (by simpa using Text.mem_lower (by decide) (by decide) h)
    have htail : '.' ∈ n.toList.tail := by
      obtain ⟨c, cs, rfl⟩ := List.exists_cons_of_ne_nil has
      simp [hsplit]
    have hrest : (Text.lower (String.ofList bs)).toList.dropWhile (· == '.') = (Text.lower (String.ofList bs)).toList :=
      List.dropWhile_eq_self_iff.2 fun hpos hfirst => hdot (eq_of_beq hfirst ▸ List.getElem_mem hpos)
    have hwithout : Template.withoutDots f.ext = Text.lower (String.ofList bs) := by
      rw [hext, Template.withoutDots, String.toList_append, show ".".toList = ['.'] from rfl, List.singleton_append,
        List.dropWhile_cons_of_pos (by decide), hrest, String.ofList_toList]
    rw [hwithout, Text.lower_eq_empty, String.ofList_eq_empty_iff, hname, hsplit]
    constructor
    · rintro rfl
      exact Or.inr (by simp)
    · rintro (h | h)
      · exact absurd (hsplit ▸ htail) h
      · by_contra hne
        rw [List.getLast?_append, List.getLast?_cons, List.getLast?_eq_some_getLast hne] at h
        exact hbs ((Option.some.inj h) ▸ List.getLast_mem hne)

/-- The extension has no slash, and no dot but its first character. -/
lemma Named.ext_chars : '/' ∉ f.ext.toList ∧ '.' ∉ f.ext.toList.tail := by
  have hproper := Path.proper_fileName hn
  obtain ⟨-, ⟨-, -, hext⟩ | ⟨as, bs, -, hbs, hsplit, -, hext⟩⟩ := hf.cut_cases hfile hn
  · simp [hext]
  · have hlower : ∀ d : Char, 0 < d.toNat → d.toNat < 65 → d ∉ bs → d ∉ (Text.lower (String.ofList bs)).toList :=
      fun d hpos hlow hd h => hd (by simpa using Text.mem_lower hpos hlow h)
    have hslash : '/' ∉ bs := fun h => hproper.2.2.2 (by rw [hsplit]; simp [h])
    rw [hext, String.toList_append]
    exact ⟨by simpa using hlower '/' (by decide) (by decide) hslash,
      by simpa using hlower '.' (by decide) (by decide) hbs⟩

end

end FileInfo

end FileOrganizer
