import FileOrganizer.Proofs.Tree.Descent
import FileOrganizer.Proofs.Tree.Steady

/-! What stands at and below a place, and the paths to it, in a tree in which other things have changed. -/

namespace FileOrganizer

open FileOrganizer.Tree

namespace Path

variable {p : Path} {cwd l : Place} {cs : List Part} {xs : List String}

/-- On the way along a path, one is where its first parts lead. -/
lemma way_of_prefix (hxs : xs <+: steps p.chars) :
    ∃ cs, cs <+: p.body ∧ xs.foldl step l = (reduce l.reverse cs).reverse := by
  have hfilter : xs.filter (· ≠ ".") <+: p.body.map Part.text := by
    rw [show p.body.map Part.text = (steps p.chars).filter (· ≠ ".") by rw [filter_steps]; exact segments_text.symm]
    exact hxs.filter _
  obtain ⟨cs, hcs, hmap⟩ := List.prefix_map_iff.1 hfilter
  refine ⟨cs, hcs, ?_⟩
  rw [foldl_step_filter, hmap, foldl_step_text fun c hc => ordinary_of_mem_body (hcs.subset hc)]

/-- Without `..`, the way is along the places above the one that the path leads to. -/
lemma way_level (hup : Part.up ∉ p.parts) (hxs : xs <+: steps p.chars) :
    xs.foldl step (start cwd p) <+: p.place cwd := by
  obtain ⟨l, hbody⟩ := body_of_level hup
  obtain ⟨cs, hcs, hplace⟩ := way_of_prefix (l := start cwd p) hxs
  rw [hbody] at hcs
  obtain ⟨m, hm, rfl⟩ := List.prefix_map_iff.1 hcs
  rw [hplace, reduce_names, place_of_body hbody]
  simpa using hm

end Path

namespace Tree

variable {t u : Tree} {cwd l q : Place} {p : Path} {b : ByteArray}

/-- The files and directories at and below the place `l` are still there, with their bytes. -/
def Lasts (l : Place) (t u : Tree) : Prop :=
  ∀ q, l <+: q → (t.isDirAt q = true → u.isDirAt q = true) ∧ ∀ b, t.bytes? q = some b → u.bytes? q = some b

namespace Lasts

variable (h : Lasts l t u)

include h

/-- Where what is at `l` still is, so are the directories above it. -/
lemma isDirAt_line (hs : u.Sound) (hthere : u.node? l ≠ none) (hq : q <+: l ∨ l <+: q) (hd : t.isDirAt q = true) :
    u.isDirAt q = true := by
  rcases hq with ⟨r, rfl⟩ | hq
  · by_cases hr : r = []
    · subst hr
      rw [List.append_nil] at h
      exact (h q List.prefix_rfl).1 hd
    · exact hs.isDirAt_prefix r hr hthere
  · exact (h q hq).1 hd

end Lasts

lemma Adds.lasts (h : t.Adds u) : Lasts l t u := fun q _ => ⟨h.isDirAt, h.keeps q⟩

/-- A file is one that can be read along the same path, if it has the same bytes. -/
lemma read_lasts (hs : t.Sound) (hp : t.Plain) (hs' : u.Sound) (hp' : u.Plain) (hup : Part.up ∉ p.parts)
    (hread : t.read cwd p = .ok b) (hb : u.bytes? (p.place cwd) = some b) : u.read cwd p = .ok b := by
  obtain ⟨⟨s, hloc⟩, hbytes⟩ := (read_eq_ok hs hp).1 hread
  obtain ⟨a, hfile⟩ := bytes?_eq_some.1 hbytes
  obtain ⟨a', hfile'⟩ := bytes?_eq_some.1 hb
  refine (read_eq_ok hs' hp').2 ⟨⟨_, locate_along hp hp' (fun xs hxs hd => ?_) hloc⟩, hb⟩
  have hway : xs.foldl Path.step (start cwd p) <+: p.place cwd := Path.way_level hup hxs
  obtain ⟨r, hr⟩ := hway
  have hne : r ≠ [] := by
    rintro rfl
    rw [List.append_nil] at hr
    exact not_isDirAt_of_file hfile (hr ▸ hd)
  exact hs'.isDirAt_prefix r hne (by rw [hr, hfile']; simp)

lemma isDir_lasts (hp : t.Plain) (hs : t.Sound) (hs' : u.Sound) (hp' : u.Plain) (hup : Part.up ∉ p.parts)
    (h : Lasts (p.place cwd) t u) (hdir : t.isDir cwd p = true) : u.isDir cwd p = true := by
  obtain ⟨l, a, hstat⟩ := isDir_iff.1 hdir
  obtain rfl := stat_place hp hstat
  have hd := (h _ List.prefix_rfl).1 (at?_dir (stat_ok hs hstat).1)
  obtain ⟨k, hk⟩ := isDirAt_iff.1 hd
  obtain ⟨a', ha'⟩ := at?_of_isDirAt hd
  refine isDir_iff.2 ⟨p.place cwd, a', stat_eq_ok.2 ?_⟩
  rw [locate_along hp hp' (fun xs hxs => h.isDirAt_line hs' (by rw [hk]; simp) (Or.inl (Path.way_level hup hxs)))
    (stat_eq_ok.1 hstat), ha']

end Tree

end FileOrganizer
