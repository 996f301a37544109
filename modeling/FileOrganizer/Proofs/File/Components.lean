import FileOrganizer.Proofs.Batch.Confined
import FileOrganizer.Proofs.File.Names
import FileOrganizer.Proofs.File.Template
import Mathlib.Data.List.Find

/-! The directory that a template names is inside the root unless the template brings out an absolute path or leads up.
Where each variable is a component of the template by itself, it is seen from the name of the file whether it does. -/

namespace FileOrganizer

open FileOrganizer.Text FileOrganizer.Tree FileOrganizer.Disk

namespace Template

variable {vars : List (String × String)} {v : String × String} {template : String} {f : FileInfo} {root : Path}
  {sep x : Char}
  {c cs ds xs : List Char} {ps : List (List Char)} {n : ℕ}

lemma piecesFrom_skip (n : ℕ) (cs : List Char) : piecesFrom vars n cs = piecesFrom vars 0 (cs.drop n) := by
  induction n generalizing cs with
  | zero => rfl
  | succ n ih =>
    cases cs with
    | nil => rw [piecesFrom, List.drop_nil, piecesFrom]
    | cons c cs => rw [piecesFrom, ih, List.drop_succ_cons]

lemma begins_of_find? (h : vars.find? (fun v => v.1.toList.isPrefixOf cs) = some v) : v ∈ vars ∧ v.1.toList <+: cs := by
  have hbegin := List.find?_some h
  exact ⟨List.mem_of_find?_eq_some h, List.isPrefixOf_iff_prefix.1 hbegin⟩

lemma piecesFrom_char (h : ∀ v ∈ vars, ¬v.1.toList <+: x :: cs) :
    piecesFrom vars 0 (x :: cs) = .char x :: piecesFrom vars 0 cs := by
  have hnone : vars.find? (fun v => v.1.toList.isPrefixOf (x :: cs)) = none := by
    rw [List.find?_eq_none]
    exact fun v hv hbegin => h v hv (List.isPrefixOf_iff_prefix.1 hbegin)
  rw [piecesFrom, hnone]

/-- A word without a separator does not go on behind one. -/
lemma prefix_append_sep (h : sep ∉ xs) : xs <+: cs ++ sep :: ds ↔ xs <+: cs := by
  constructor
  · intro hbegin
    rcases List.prefix_or_prefix_of_prefix hbegin (List.prefix_append cs (sep :: ds)) with hpre | ⟨ys, rfl⟩
    · exact hpre
    · cases ys with
      | nil => simp
      | cons y ys =>
        rw [List.prefix_append_right_inj, List.cons_prefix_cons] at hbegin
        exact absurd (hbegin.1 ▸ List.mem_append_right cs List.mem_cons_self) h
  · exact fun hbegin => hbegin.trans (List.prefix_append _ _)

/-- The pieces on both sides of a separator that no variable has. -/
lemma piecesFrom_append_sep (hsep : ∀ v ∈ vars, v.1.toList ≠ [] ∧ sep ∉ v.1.toList) (hn : n ≤ cs.length) :
    piecesFrom vars n (cs ++ sep :: ds) = piecesFrom vars n cs ++ .char sep :: piecesFrom vars 0 ds := by
  induction cs generalizing n with
  | nil =>
    obtain rfl := Nat.le_zero.1 hn
    refine piecesFrom_char fun v hv hbegin => (hsep v hv).1 (List.prefix_nil.1 ?_)
    exact (prefix_append_sep (hsep v hv).2).1 hbegin
  | cons c cs ih =>
    cases n with
    | succ n => exact ih (Nat.le_of_succ_le_succ hn)
    | zero =>
      have hfind : vars.find? (fun v => v.1.toList.isPrefixOf (c :: cs ++ sep :: ds)) =
          vars.find? (fun v => v.1.toList.isPrefixOf (c :: cs)) := by
        refine List.find?_congr fun v hv => ?_
        rw [Bool.eq_iff_iff, List.isPrefixOf_iff_prefix, List.isPrefixOf_iff_prefix, prefix_append_sep (hsep v hv).2]
      rw [List.cons_append, piecesFrom, ← List.cons_append, hfind, piecesFrom]
      split
      · next v hv =>
        have hlen := (begins_of_find? hv).2.length_le
        rw [List.length_cons] at hlen
        rw [ih (by omega), List.cons_append]
      · rw [ih (Nat.zero_le _), List.cons_append]

lemma Variables.piecesFrom_variable (hvars : Variables vars) (hv : v ∈ vars) :
    piecesFrom vars 0 v.1.toList = [.var v] := by
  have hopens := hvars.opens v hv
  rw [hopens.eq_cons, piecesFrom, ← hopens.eq_cons]
  split
  · next w hw =>
    obtain ⟨hmem, hbegin⟩ := begins_of_find? hw
    obtain rfl := hvars.apart w hmem v hv hbegin
    rw [piecesFrom_skip, List.drop_of_length_le (by simp), piecesFrom]
  · next hnone => exact absurd (List.isPrefixOf_iff_prefix.2 List.prefix_rfl) (List.find?_eq_none.1 hnone v hv)

/-- Without variables there is nothing but characters. -/
lemma piecesFrom_plain (h : ∀ v ∈ vars, ¬v.1.toList <:+: cs) : piecesFrom vars 0 cs = cs.map .char := by
  induction cs with
  | nil => rfl
  | cons c cs ih =>
    rw [piecesFrom_char fun v hv hbegin => h v hv hbegin.isInfix, List.map_cons,
      ih fun v hv hin => h v hv (hin.trans (List.suffix_cons c cs).isInfix)]

/-- What stands for a component of a template once the variables are replaced by their values. -/
def component (f : FileInfo) (c : List Char) : List Char := spell (values f) (piecesFrom (values f) 0 c)

lemma component_variable (hv : v ∈ values f) : component f v.1.toList = v.2.toList := by
  rw [component, (variables_values f).piecesFrom_variable hv]
  simp [spell, Piece.text, hv]

lemma component_plain (h : ∀ s ∈ names, ¬s.toList <:+: c) : component f c = c := by
  rw [← map_fst_values f] at h
  rw [component, piecesFrom_plain fun v hv => h v.1 (List.mem_map_of_mem hv), spell, List.flatMap_map]
  simp [Piece.text]

lemma no_slash_values : ∀ v ∈ values f, v.1.toList ≠ [] ∧ '/' ∉ v.1.toList := by
  have hnames : ∀ s ∈ names, s.toList ≠ [] ∧ '/' ∉ s.toList := by decide
  rw [← map_fst_values f] at hnames
  exact fun v hv => hnames v.1 (List.mem_map_of_mem hv)

lemma component_join (hps : ps ≠ []) : component f (join ['/'] ps) = join ['/'] (ps.map (component f)) := by
  induction ps with
  | nil => exact absurd rfl hps
  | cons p ps ih =>
    cases ps with
    | nil => rfl
    | cons q qs =>
      have hrest := ih (List.cons_ne_nil q qs)
      rw [component] at hrest
      have hjoin : join ['/'] (p :: q :: qs) = p ++ '/' :: join ['/'] (q :: qs) := by simp [join]
      rw [hjoin, component, piecesFrom_append_sep no_slash_values (Nat.zero_le _), spell, List.flatMap_append,
        List.flatMap_cons, ← spell, ← spell, hrest]
      simp [join, component, Piece.text]

lemma toList_fill (template : String) (f : FileInfo) :
    (fill template f).toList = join ['/'] ((⟨template⟩ : Path).pieces.map (component f)) := by
  rw [← component_join Path.pieces_ne_nil]
  unfold Path.pieces
  rw [join_split, fill, String.toList_ofList]
  rfl

/-- The variables that a destination may have. -/
def tokens : List String := names.dropLast

/-- The template is relative, and each of its components is one of the tokens, or it has no variable and is not `..`. -/
def Separate (template : String) : Prop :=
  (⟨template⟩ : Path).isAbsolute = false ∧ ∀ c ∈ (⟨template⟩ : Path).pieces,
    String.ofList c ∈ tokens ∨ c ≠ ['.', '.'] ∧ ∀ s ∈ names, ¬s.toList <:+: c

/-- Nothing is filled in for the component: the file has no extension, or none but a dot, or it lies at the top. -/
def Vanishes (f : FileInfo) (c : List Char) : Prop :=
  String.ofList c = "\x7bext\x7d" ∧ '.' ∉ f.name.toList.tail ∨
  String.ofList c = "\x7bextension\x7d" ∧ ('.' ∉ f.name.toList.tail ∨ f.name.toList.getLast? = some '.') ∨
  String.ofList c = "\x7bparent\x7d" ∧ f.path.parts = [.root, .name f.name]

lemma Separate.component_cases (h : Separate template) (hc : c ∈ (⟨template⟩ : Path).pieces) :
    (∃ v ∈ (values f).dropLast, c = v.1.toList ∧ component f c = v.2.toList) ∨
      c ≠ ['.', '.'] ∧ String.ofList c ∉ tokens ∧ component f c = c := by
  by_cases htoken : String.ofList c ∈ tokens
  · rw [tokens, ← map_fst_values f, ← List.map_dropLast] at htoken
    obtain ⟨v, hv, heq⟩ := List.mem_map.1 htoken
    obtain rfl : c = v.1.toList := by rw [heq, String.toList_ofList]
    exact Or.inl ⟨v, hv, rfl, component_variable (List.mem_of_mem_dropLast hv)⟩
  · obtain ⟨hdots, hplain⟩ := (h.2 c hc).resolve_left htoken
    exact Or.inr ⟨hdots, htoken, component_plain hplain⟩

lemma padded_ne_empty (width n : ℕ) : padded width n ≠ "" := by
  rw [padded, ne_eq, String.ofList_eq_empty_iff, List.append_eq_nil_iff]
  exact fun h => Nat.toDigits_ne_nil h.2

lemma yearText_ne_empty (y : ℤ) : Date.yearText y ≠ "" := by
  rw [Date.yearText]
  split_ifs <;> simp [padded_ne_empty]

/-- The directory of a file has a name unless the file lies at the top. -/
lemma fileName_parent_eq_empty (habs : f.path.isAbsolute = true) (hup : .up ∉ f.path.parts)
    (hn : f.path.fileName? = some f.name) : f.parent.fileName = "" ↔ f.path.parts = [.root, .name f.name] := by
  obtain ⟨l, hl⟩ := Path.body_of_level hup
  have hparts := Path.parts_of_absolute habs
  rw [hl] at hparts
  rw [Path.fileName?, hparts] at hn
  rcases List.eq_nil_or_concat l with rfl | ⟨l, n, rfl⟩
  · cases hn
  obtain ⟨q, hq⟩ : ∃ q, f.path.parent? = some q := Path.parent?_isSome (by simp [hl])
  obtain ⟨habs', hbody⟩ := Path.parent?_body hq
  have hparent : f.parent.parts = .root :: l.map Part.name := by
    rw [FileInfo.parent, Path.parent, hq, Option.getD_some, Path.parts_of_absolute (habs'.trans habs), hbody, hl]
    simp
  obtain rfl : n = f.name := by simpa [List.getLast?_cons] using hn
  rw [hparts, Path.fileName, Path.fileName?, hparent]
  rcases List.eq_nil_or_concat l with rfl | ⟨l, m, rfl⟩
  · simp
  · have hproper : Proper m := Path.proper_of_mem_parts (p := f.parent) (by simp [hparent])
    have hlong : l.map Part.name ++ [.name m, .name f.name] ≠ [.name f.name] := fun heq => by
      simpa using congrArg List.length heq
    simpa [List.getLast?_cons, hproper.1] using hlong

section

variable (hf : f.Named) (hfile : f.isDir = false) (hn : f.path.fileName? = some f.name)

include hf hfile hn

lemma no_slash_value (hv : v ∈ (values f).dropLast) : '/' ∉ v.2.toList := by
  refine not_mem_values rfl (by decide) (by decide) hf.stem (hf.ext_chars hfile hn).1 ?_ hv
  rcases f.parent.fileName_cases with heq | hproper
  · simp [heq]
  · exact hproper.2.2.2

/-- Of the values only the stem can be two dots. -/
lemma value_eq_dots (hv : v ∈ (values f).dropLast) (hdots : v.2 = "..") :
    v.1 = "\x7bname\x7d" ∧ ∃ e : String, '.' ∉ e.toList ∧ f.name = "..." ++ e := by
  have hno : ∀ {s : String}, s = ".." → '.' ∉ s.toList → False := fun heq h => h (heq ▸ (by decide : '.' ∈ "..".toList))
  have hext := (hf.ext_chars hfile hn).2
  rcases values_cases hv with rfl | rfl | rfl | rfl | rfl | rfl | rfl | rfl
  · exact ⟨rfl, (hf.stem_eq_dots hfile hn).1 hdots⟩
  · have hsuffix : (withoutDots f.ext).toList <:+ f.ext.toList := by
      rw [withoutDots, String.toList_ofList]
      exact List.dropWhile_suffix _
    obtain ⟨xs, hxs⟩ := hsuffix
    rw [show withoutDots f.ext = ".." from hdots] at hxs
    cases xs <;> simp [← hxs] at hext
  · rw [show f.ext = ".." from hdots] at hext
    exact absurd (by decide) hext
  · exact (hno hdots (not_mem_yearText rfl (by decide) (by decide) _)).elim
  · exact (hno hdots (not_mem_padded rfl _ _)).elim
  · exact (hno hdots (not_mem_padded rfl _ _)).elim
  · exact (hno hdots (not_mem_text rfl (by decide) (by decide) _)).elim
  · dsimp only at hdots
    rcases f.parent.fileName_cases with heq | hproper
    · exact absurd (heq.symm.trans hdots) (by decide)
    · exact absurd hdots hproper.2.2.1

/-- The template brings out what its components do. -/
lemma Separate.pieces_render (h : Separate template) (hundisturbed : Undisturbed (values f) (pieces template f)) :
    (⟨render template f⟩ : Path).pieces = (⟨template⟩ : Path).pieces.map (component f) := by
  have hslash : ∀ d ∈ (⟨template⟩ : Path).pieces.map (component f), '/' ∉ d := by
    intro d hd
    obtain ⟨c, hc, rfl⟩ := List.mem_map.1 hd
    rcases h.component_cases hc with ⟨v, hv, -, heq⟩ | ⟨-, -, heq⟩ <;> rw [heq]
    · exact no_slash_value hf hfile hn hv
    · exact mem_split hc
  rw [render_of_undisturbed hundisturbed, Path.pieces, Path.chars, toList_fill]
  exact split_join (by simpa using Path.pieces_ne_nil) hslash

/-- It leads up only if the stem of the file does. -/
lemma Separate.inner_render (h : Separate template) (hundisturbed : Undisturbed (values f) (pieces template f))
    (hdots : ¬("\x7bname\x7d".toList ∈ (⟨template⟩ : Path).pieces ∧
      ∃ e : String, '.' ∉ e.toList ∧ f.name = "..." ++ e)) :
    Path.Inner (⟨render template f⟩ : Path).body := by
  have hup : Part.up ∉ (⟨render template f⟩ : Path).body := by
    intro hmem
    rw [Path.body, h.pieces_render hf hfile hn hundisturbed] at hmem
    obtain ⟨d, hd, hpart⟩ := List.mem_filterMap.1 hmem
    obtain ⟨c, hc, rfl⟩ := List.mem_map.1 hd
    have heq : component f c = ['.', '.'] := by
      unfold Path.part? at hpart
      split_ifs at hpart with _ hup
      · exact hup
      · cases hpart
    rcases h.component_cases hc with ⟨v, hv, rfl, hvalue⟩ | ⟨hne, -, hplain⟩
    · obtain ⟨hname, hfile⟩ := value_eq_dots hf hfile hn hv (String.toList_inj.1 (hvalue.symm.trans heq))
      exact hdots ⟨hname ▸ hc, hfile⟩
    · exact hne (hplain.symm.trans heq)
  obtain ⟨l, hl⟩ := Path.names_of_body hup
  rw [hl]
  exact Path.inner_names l

variable (habs : f.path.isAbsolute = true) (hup : .up ∉ f.path.parts)

include habs hup

lemma value_eq_empty (hv : v ∈ (values f).dropLast) : v.2 = "" ↔ Vanishes f v.1.toList := by
  have hstem : f.stem ≠ "" := hf.stem_ne_of_name (by rw [Path.fileName, hn]; exact (Path.proper_fileName hn).1)
  unfold Vanishes
  rcases values_cases hv with rfl | rfl | rfl | rfl | rfl | rfl | rfl | rfl
  · simpa using hstem
  · simpa using hf.withoutDots_eq_empty hfile hn
  · simpa using hf.ext_eq_empty hfile hn
  · simpa using yearText_ne_empty _
  · simpa using padded_ne_empty _ _
  · simpa using padded_ne_empty _ _
  · simp [Date.text]
  · simpa using fileName_parent_eq_empty habs hup hn

/-- What a relative template brings out is absolute if its first component vanishes. -/
lemma Separate.isAbsolute_render (h : Separate template) (hundisturbed : Undisturbed (values f) (pieces template f)) :
    (⟨render template f⟩ : Path).isAbsolute = true ↔
      ∃ c d cs, (⟨template⟩ : Path).pieces = c :: d :: cs ∧ Vanishes f c := by
  have hpieces := h.pieces_render hf hfile hn hundisturbed
  have hfirst : ∀ {c d cs}, (⟨template⟩ : Path).pieces = c :: d :: cs → (component f c = [] ↔ Vanishes f c) := by
    intro c d cs hcs
    have hc : c ∈ (⟨template⟩ : Path).pieces := by simp [hcs]
    have hne : c ≠ [] := by
      rintro rfl
      exact absurd h.1 (by simpa using Path.isAbsolute_iff.2 ⟨d, cs, hcs⟩)
    rcases h.component_cases hc with ⟨v, hv, rfl, hvalue⟩ | ⟨-, hother, hplain⟩
    · rw [hvalue, String.toList_eq_nil_iff]
      exact value_eq_empty hf hfile hn habs hup hv
    · refine ⟨fun heq => absurd (hplain.symm.trans heq) hne, fun hvanish => absurd ?_ hother⟩
      rcases hvanish with ⟨hc, -⟩ | ⟨hc, -⟩ | ⟨hc, -⟩ <;> rw [hc] <;> decide
  rw [Path.isAbsolute_iff, hpieces]
  constructor
  · rintro ⟨q, qs, hq⟩
    obtain ⟨c, ds, hcs, hc, hds⟩ := List.map_eq_cons_iff.1 hq
    obtain ⟨d, cs, rfl, -⟩ := List.map_eq_cons_iff.1 hds
    exact ⟨c, d, cs, hcs, (hfirst hcs).1 hc⟩
  · rintro ⟨c, d, cs, hcs, hvanish⟩
    exact ⟨component f d, cs.map (component f), by rw [hcs, List.map_cons, List.map_cons, (hfirst hcs).2 hvanish]⟩

end

/-- Whatever the names, a relative path that does not come back above where it begins is the directory of a task inside
the root. -/
lemma enters_directory (hroot : root.isAbsolute = true) (habs : (⟨render template f⟩ : Path).isAbsolute = false)
    (hin : Path.Inner (⟨render template f⟩ : Path).body) :
    root.Enters (directory template f root) ∧
      (directory template f root).body = root.body ++ (⟨render template f⟩ : Path).body := by
  have htext := text_of_absolute hroot
  have hbody : (directory template f root).body = root.body ++ (⟨render template f⟩ : Path).body :=
    Path.body_join htext habs
  refine ⟨⟨?_, _, hbody, hin⟩, hbody⟩
  rw [directory, Path.isAbsolute_join htext, habs, Bool.or_false]

lemma lexical_of_enters {p : Path} (hroot : root.isAbsolute = true) (h : root.Enters p) :
    ∃ l, p.lexical = root.lexical ++ l := by
  obtain ⟨habs, ps, hps, hin⟩ := h
  have hparts : p.parts = root.parts ++ ps := by
    rw [Path.parts_of_absolute (habs.trans hroot), Path.parts_of_absolute hroot, hps, List.cons_append]
  obtain ⟨l, hl⟩ := hin root.lexical ps List.prefix_rfl
  refine ⟨l, ?_⟩
  rw [hl, Path.lexical, Path.lexical, List.reverse_reverse, hparts, Path.reduce_append]

/-- What an action does along a template stays inside the root if the template brings out a relative path that does not
come back above where it begins; where links in the root lead out of it, only the spelling does. An archive is unpacked
beside the root, though, if the template comes to the root itself. For a template of separate components the name of
the file tells whether it is so, as long as none of the values brings in another variable: the first component must not
vanish before others, and the stem must not be two dots where it is a component. -/
theorem directory_confined {ns : List String} (hroot : root.isAbsolute = true) (hup : .up ∉ root.parts) (hf : f.Named)
    (hfile : f.isDir = false) (hns : ns ≠ []) (hpath : f.path.parts = root.parts ++ ns.map .name)
    (hseparate : Separate template) :
    ((⟨render template f⟩ : Path).isAbsolute = false → Path.Inner (⟨render template f⟩ : Path).body →
      (∃ l, (directory template f root).lexical = root.lexical ++ l) ∧
      ∀ (s : Setting) (w : Workspace) (a : Action), s.root = root → a.directory? = some template →
        (a = .extract (some template) → (⟨render template f⟩ : Path).body ≠ []) →
        (∀ task, a.judge s w f = .ok task → task.Into root) ∧
        ∀ R, w.tree.Site s.host.cwd root R → w.tree.ChangesBelow (a.run s f w).2.tree R) ∧
    (Undisturbed (values f) (pieces template f) →
      ((⟨render template f⟩ : Path).isAbsolute = true ↔
        ∃ c d cs, (⟨template⟩ : Path).pieces = c :: d :: cs ∧ Vanishes f c) ∧
      (¬("\x7bname\x7d".toList ∈ (⟨template⟩ : Path).pieces ∧ ∃ e : String, '.' ∉ e.toList ∧ f.name = "..." ++ e) →
        Path.Inner (⟨render template f⟩ : Path).body)) := by
  obtain ⟨ms, n, rfl⟩ := (List.eq_nil_or_concat ns).resolve_left hns
  rw [List.concat_eq_append, List.map_append] at hpath
  have habs : f.path.isAbsolute = true := by
    rw [Path.isAbsolute_iff_head, hpath, Path.parts_of_absolute hroot]
    rfl
  have hn : f.path.fileName? = some n := by
    rw [Path.fileName?, hpath, ← List.append_assoc, List.getLast?_append]
    rfl
  obtain rfl : f.name = n := by rw [hf.name_eq, Path.fileName, hn, Option.getD_some]
  have hbelow : root.Below f.path := by
    refine ⟨habs.trans hroot.symm, ms.map .name, f.name, ?_, Path.inner_names ms⟩
    rw [Path.parts_of_absolute habs, Path.parts_of_absolute hroot, List.cons_append] at hpath
    exact (List.cons.inj hpath).2
  have hlevel : Part.up ∉ f.path.parts := by simp [hpath, hup]
  refine ⟨fun hrel hin => ?_, fun hundisturbed => ⟨?_, ?_⟩⟩
  · obtain ⟨hdir, hbody⟩ := enters_directory hroot hrel hin
    refine ⟨lexical_of_enters hroot hdir, ?_⟩
    rintro s w a rfl ha hne
    have hnew : a = .extract (some template) → (directory template f s.root).body ≠ s.root.body := fun heq => by
      simpa [hbody] using hne heq
    exact ⟨fun task htask => Action.into_of_judge hf hbelow hroot ha hdir hnew htask,
      fun R hsite => Action.run_changesBelow hsite hf hbelow hroot ha hdir hnew⟩
  · exact hseparate.isAbsolute_render hf hfile hn habs hlevel hundisturbed
  · exact hseparate.inner_render hf hfile hn hundisturbed

section

open FileOrganizer.Job

def separate : String := "\x7bext\x7d/\x7byear\x7d"

lemma separate_separate : Separate separate := by
  unfold Separate
  decide

lemma site_twoFiles : twoFiles.Site [] ⟨"/r"⟩ ["r"] where
  sound := sound_twoFiles
  leads := ⟨_, rfl⟩
  bare q x _ := plain_of_entries (by decide) q x

theorem directory_confined_dated :
    (directory separate (found "/r/a.txt") ⟨"/r"⟩).text = "/r/.txt/1970" ∧
    (∃ l, (directory separate (found "/r/a.txt") ⟨"/r"⟩).lexical = ["r"] ++ l) ∧
    twoFiles.ChangesBelow ((Action.move separate).run ((plainJob []).setting ⟨"/r"⟩) (found "/r/a.txt")
      ⟨twoFiles, .empty, [], .empty⟩).2.tree ["r"] := by
  have hpath : (found "/r/a.txt").path.parts = (⟨"/r"⟩ : Path).parts ++ ["a.txt"].map .name := by decide
  obtain ⟨hconfined, hnames⟩ := directory_confined (f := found "/r/a.txt") (by decide) (by decide) rfl rfl (by simp) hpath
    separate_separate
  obtain ⟨habs, hin⟩ := hnames (by unfold Undisturbed; decide)
  obtain ⟨hlexical, hrun⟩ := hconfined (by decide) (hin fun h => absurd h.1 (by decide))
  obtain ⟨-, htree⟩ := hrun ((plainJob []).setting ⟨"/r"⟩) ⟨twoFiles, .empty, [], .empty⟩ (.move separate) rfl rfl nofun
  exact ⟨by decide, hlexical, htree _ site_twoFiles⟩

set_option maxRecDepth 2000 in
/-- For a file without an extension the components behind it are taken from the top. -/
theorem directory_confined_fails : ¬∀ (root : Path) (f : FileInfo) (template : String) (ns : List String),
    root.isAbsolute = true → .up ∉ root.parts → f.Named → f.isDir = false → ns ≠ [] →
    f.path.parts = root.parts ++ ns.map .name → Separate template →
    ∃ l, (directory template f root).lexical = root.lexical ++ l := by
  intro hall
  obtain ⟨l, hl⟩ := hall ⟨"/r"⟩ (found "/r/noext") separate ["noext"] (by decide) (by decide) rfl rfl (by simp)
    (by decide) separate_separate
  have htop : (directory separate (found "/r/noext") ⟨"/r"⟩).lexical = ["1970"] ∧ (⟨"/r"⟩ : Path).lexical = ["r"] := by
    decide
  rw [htop.1, htop.2] at hl
  exact absurd hl (by simp)

end

end Template

end FileOrganizer
