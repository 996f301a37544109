import FileOrganizer.Proofs.Scope
import FileOrganizer.Proofs.Tree.Descent
import FileOrganizer.Settings

/-! What lies in the trash is not organized. It is left out by the spelling of its path, so the paths have to be spelled
along with that of the trash: a trash that is given as a relative path is not left out at all. -/

namespace FileOrganizer

open FileOrganizer.Tree

variable {who : Actor} {t : Tree} {cwd l m : Place} {p q root trash home : Path} {names : List String} {e e' : Entry}
  {settings : Settings} {profile : Profile} {recursive skipHidden : Bool}

namespace Tree

/-- The two paths lead to these places, down along names from where the parts lead that both begin with. -/
structure Along (t : Tree) (cwd : Place) (p q : Path) (l m : Place) : Prop where
  leads : ∃ e, t.stat cwd p = .ok (l, e)
  leads' : ∃ e, t.stat cwd q = .ok (m, e)
  spelled : ∃ (first : List Part) (fork : Place) (ks ns : List String), p.parts = first ++ ks.map .name ∧
    q.parts = first ++ ns.map .name ∧ l = fork ++ ks ∧ m = fork ++ ns

/-- Where there are no links, all paths without `..` lead along with each other. -/
lemma along_of_plain (hp : t.Plain) (hpa : p.isAbsolute = true) (hqa : q.isAbsolute = true) (hpup : Part.up ∉ p.parts)
    (hqup : Part.up ∉ q.parts) (h : t.stat cwd p = .ok (l, e)) (h' : t.stat cwd q = .ok (m, e')) :
    t.Along cwd p q l m := by
  have hspelled : ∀ {r : Path} {k : Place} {x : Entry}, r.isAbsolute = true → Part.up ∉ r.parts →
      t.stat cwd r = .ok (k, x) → r.parts = [Part.root] ++ k.map .name := by
    intro r k x hra hup hstat
    obtain ⟨ns, hns⟩ := Path.body_of_level hup
    have hplace := (stat_place hp hstat).trans (Path.place_of_body hns)
    rw [start, if_pos hra, List.nil_append] at hplace
    rw [Path.parts_of_absolute hra, hns, hplace]
    rfl
  exact ⟨⟨e, h⟩, ⟨e', h'⟩, [.root], [], l, m, hspelled hpa hpup h, hspelled hqa hqup h', rfl, rfl⟩

lemma Along.below (h : t.Along cwd p q l m) (hn : ∀ n ∈ names, Proper n)
    (hstat : t.stat cwd (q.below names) = .ok (m ++ names, e)) : t.Along cwd p (q.below names) l (m ++ names) := by
  obtain ⟨first, fork, ks, ns, hp, hq, rfl, rfl⟩ := h.spelled
  refine ⟨h.leads, ⟨e, hstat⟩, first, fork, ks, ns ++ names, hp, ?_, rfl, List.append_assoc _ _ _⟩
  rw [Path.parts_below hn, hq, List.map_append, List.append_assoc]

/-- What lies at or below the place of the one path is spelled below it. -/
lemma Along.startsWith (h : t.Along cwd p q l m) (hlm : l <+: m) : q.startsWith p = true := by
  obtain ⟨first, fork, ks, ns, hp, hq, rfl, rfl⟩ := h.spelled
  rw [Path.startsWith, hp, hq, List.isPrefixOf_iff_prefix, List.prefix_append_right_inj]
  exact List.IsPrefix.map _ ((List.prefix_append_right_inj fork).1 hlm)

end Tree

namespace Profile

lemma not_startsWith_of_accepts (h : (profile.scope who root trash recursive skipHidden).accepts p = true) :
    p.startsWith trash = false := by
  have hexcl : (profile.scope who root trash recursive skipHidden).excludesPath p = false := by
    unfold Scope.accepts at h
    simp only [Bool.and_eq_true, Bool.not_eq_true'] at h
    exact h.1.2
  simpa [Scope.excludesPath, scope] using hexcl

/-- Of what is spelled from the top a relative path leaves out nothing. -/
lemma not_startsWith_of_relative (htrash : trash.isAbsolute = false) (hne : trash.parts ≠ []) (ha : p.isAbsolute = true) :
    p.startsWith trash = false := by
  by_contra hstarts
  rw [Bool.not_eq_false, Path.startsWith, List.isPrefixOf_iff_prefix] at hstarts
  obtain ⟨c, ps, hps⟩ := List.exists_cons_of_ne_nil hne
  rw [hps, Path.parts_of_absolute ha, List.cons_prefix_cons] at hstarts
  have habs : trash.isAbsolute = true := by
    rw [Path.isAbsolute_iff_head, hps, hstarts.1]
    rfl
  rw [htrash] at habs
  cases habs

lemma accepts_of_relative (htrash : trash.isAbsolute = false) (hne : trash.parts ≠ []) (ha : p.isAbsolute = true) :
    (profile.scope who root trash recursive skipHidden).accepts p =
      { profile.scope who root trash recursive skipHidden with excludedPaths := [] }.accepts p := by
  have hexcl : (profile.scope who root trash recursive skipHidden).excludesPath p = false := by
    simp [Scope.excludesPath, scope, not_startsWith_of_relative htrash hne ha]
  have hnone : { profile.scope who root trash recursive skipHidden with excludedPaths := [] }.excludesPath p = false := rfl
  simp only [Scope.accepts, hexcl, hnone, Scope.below?, Scope.excludesName]

lemma root_scope (profile : Profile) :
    (profile.scope who root trash recursive skipHidden).root = (Scope.ofRoot who root).root := rfl

/-- What is found and what is accepted is never spelled below the trash; so it does not lie there, as far as the root, or
the path, is spelled along with the trash. And a relative trash changes nothing. -/
theorem trash_spared (hs : t.Sound) (hnames : ∀ q, t.node? q ≠ none → ∀ n ∈ q, Proper n) (hcwd : ∀ n ∈ who.cwd, Proper n)
    (profile : Profile) (settings : Settings) (home root : Path) (recursive skipHidden : Bool) :
    (∀ f ∈ (profile.scope who root (settings.trashDir home) recursive skipHidden).scan who t,
      f.path.startsWith (settings.trashDir home) = false ∧ ∃ l b a, t.stat who.cwd f.path = .ok (l, .file b a) ∧
        ∀ T place, t.Along who.cwd (settings.trashDir home) (Scope.ofRoot who root).root T place → ¬T <+: l) ∧
    (∀ p T l, t.Along who.cwd (settings.trashDir home) p T l → T <+: l →
      (profile.scope who root (settings.trashDir home) recursive skipHidden).accepts p = false) ∧
    ((settings.trashDir home).isAbsolute = false → (settings.trashDir home).parts ≠ [] → ∀ p, p.isAbsolute = true →
      (profile.scope who root (settings.trashDir home) recursive skipHidden).accepts p =
        { profile.scope who root (settings.trashDir home) recursive skipHidden with excludedPaths := [] }.accepts p) := by
  refine ⟨fun f hf => ?_, fun p T l halong hin => ?_, fun hrel hne p ha => accepts_of_relative hrel hne ha⟩
  · obtain ⟨hacc, ds, n, place, a, b, c, hpath, hroot, hstat, hn, -⟩ :=
      Scope.path_of_mem_scan hs hnames hcwd (root_scope profile) hf
    have hout := not_startsWith_of_accepts hacc
    refine ⟨hout, place ++ ds ++ [n], b, c, hstat, fun T place' halong hin => ?_⟩
    obtain ⟨e, he⟩ := halong.leads'
    obtain rfl : place = place' := congrArg Prod.fst (Except.ok.inj (hroot.symm.trans he))
    rw [hpath, root_scope] at hout hstat
    rw [List.append_assoc] at hstat hin
    rw [(halong.below hn hstat).startsWith hin] at hout
    cases hout
  · by_contra hacc
    have hout := not_startsWith_of_accepts (Bool.not_eq_false _ ▸ hacc)
    rw [halong.startsWith hin] at hout
    cases hout

/-- A file in the trash, and one beside it. -/
def littered : Tree := ⟨[
  (["r"], .dir default),
  (["r", "trash"], .dir default),
  (["r", "trash", "a.txt"], .file ⟨#[1]⟩ default),
  (["r", "b.txt"], .file ⟨#[2]⟩ default)]⟩

lemma sound_littered : littered.Sound := sound_of_entries (by decide)

lemma plain_littered : littered.Plain := plain_of_entries (by decide)

lemma proper_littered : ∀ q, littered.node? q ≠ none → ∀ n ∈ q, Proper n := proper_of_entries (by decide)

theorem trash_spared_absolute :
    (scope ⟨[], default⟩ {} ⟨"/r"⟩ ⟨"/r/trash"⟩ true false).accepts ⟨"/r/trash/a.txt"⟩ = false ∧
    ∃ f ∈ (scope ⟨[], default⟩ {} ⟨"/r"⟩ ⟨"/r/trash"⟩ true false).scan ⟨[], default⟩ littered,
      f.path.same ⟨"/r/b.txt"⟩ = true ∧ ∃ l b a, littered.stat [] f.path = .ok (l, .file b a) ∧ ¬["r", "trash"] <+: l := by
  have hcwd : ∀ n ∈ (⟨[], default⟩ : Actor).cwd, Proper n := by simp
  have hroot : littered.stat [] ⟨"/r"⟩ = .ok (["r"], .dir default) := rfl
  have htrash : littered.stat [] ⟨"/r/trash"⟩ = .ok (["r", "trash"], .dir default) := rfl
  have hinside : littered.stat [] ⟨"/r/trash/a.txt"⟩ = .ok (["r", "trash", "a.txt"], .file ⟨#[1]⟩ default) := rfl
  obtain ⟨hfound, haccepted, -⟩ := trash_spared sound_littered proper_littered hcwd {} { trash := some ⟨"/r/trash"⟩ }
    ⟨"/home"⟩ ⟨"/r"⟩ true false
  refine ⟨haccepted _ _ _ (along_of_plain plain_littered (by decide) (by decide) (by decide) (by decide) htrash hinside)
    (by decide), ?_⟩
  have hacc : (scope ⟨[], default⟩ {} ⟨"/r"⟩ ⟨"/r/trash"⟩ true false).accepts ⟨"/r/b.txt"⟩ = true := by decide
  have hholds : (scope ⟨[], default⟩ {} ⟨"/r"⟩ ⟨"/r/trash"⟩ true false).Holds [] littered [] "b.txt" ⟨"/r/b.txt"⟩ :=
    ⟨by decide, ["r"], default, ⟨#[2]⟩, default, rfl, rfl⟩
  obtain ⟨f, hf, hsame⟩ := Scope.mem_scan_of_accepts sound_littered proper_littered hcwd (root_scope {}) hacc hholds
    (by decide)
  obtain ⟨-, l, b, a, hstat, hout⟩ := hfound f hf
  have halong := along_of_plain plain_littered (by decide) (by decide) (by decide) (by decide) htrash hroot
  exact ⟨f, hf, hsame, l, b, a, hstat, hout _ ["r"] halong⟩

/-- Seen from the top, `r/trash` is the trash, and what lies in it is found. -/
theorem trash_spared_fails : ¬∀ (who : Actor) (t : Tree) (profile : Profile) (settings : Settings) (home root : Path)
    (recursive skipHidden : Bool) (T l : Place) (a c : Attrs) (b : ByteArray) (f : FileInfo), t.Sound → t.Plain →
    (∀ q, t.node? q ≠ none → ∀ n ∈ q, Proper n) → (∀ n ∈ who.cwd, Proper n) →
    t.stat who.cwd (settings.trashDir home) = .ok (T, .dir a) →
    f ∈ (profile.scope who root (settings.trashDir home) recursive skipHidden).scan who t →
    t.stat who.cwd f.path = .ok (l, .file b c) → ¬T <+: l := by
  intro hall
  have hcwd : ∀ n ∈ (⟨[], default⟩ : Actor).cwd, Proper n := by simp
  have hacc : (scope ⟨[], default⟩ {} ⟨"/r"⟩ ⟨"r/trash"⟩ true false).accepts ⟨"/r/trash/a.txt"⟩ = true := by decide
  have hholds : (scope ⟨[], default⟩ {} ⟨"/r"⟩ ⟨"r/trash"⟩ true false).Holds [] littered ["trash"] "a.txt"
      ⟨"/r/trash/a.txt"⟩ := ⟨by decide, ["r"], default, ⟨#[1]⟩, default, rfl, rfl⟩
  obtain ⟨f, hf, hsame⟩ := Scope.mem_scan_of_accepts sound_littered proper_littered hcwd (root_scope {}) hacc hholds
    (by decide)
  obtain ⟨-, ds, n, place, a, b, c, hpath, hroot, hstat, hproper, -⟩ :=
    Scope.path_of_mem_scan sound_littered proper_littered hcwd (root_scope {}) hf
  have hplace : place = ["r"] := congrArg Prod.fst (Except.ok.inj (hroot.symm.trans
    (show littered.stat [] ⟨"/r"⟩ = .ok (["r"], .dir default) from rfl)))
  have hnames : ds ++ [n] = ["trash", "a.txt"] := by
    have hparts : f.path.parts = _ := eq_of_beq hsame
    rw [hpath, Path.parts_below hproper] at hparts
    exact Path.name_injective.list_map (List.append_cancel_left (hparts.trans (show _ = [Part.root, .name "r"] ++
      ["trash", "a.txt"].map .name by decide)))
  refine hall ⟨[], default⟩ littered {} { trash := some ⟨"r/trash"⟩ } ⟨"/home"⟩ ⟨"/r"⟩ true false ["r", "trash"] _
    default _ _ f sound_littered plain_littered proper_littered hcwd rfl hf hstat ?_
  rw [hplace, List.append_assoc, hnames]
  decide

end Profile

end FileOrganizer
