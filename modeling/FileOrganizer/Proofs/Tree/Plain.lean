import FileOrganizer.Proofs.Path.Places
import FileOrganizer.Proofs.Tree.Content

/-! Trees without symbolic links, where a path leads to the place that it spells if it leads anywhere. -/

namespace FileOrganizer.Tree

variable {who : Actor} {t t' : Tree} {cwd here l l' d q : Place} {follow follow' : Bool}
  {names : List String} {n : String} {s : Spot} {p source target : Path} {fuel : Nat}

def Plain (t : Tree) : Prop := ∀ q x, t.node? q ≠ some (.link x)

/-- That there are no links can be seen from the entries. -/
lemma plain_of_entries (h : ∀ e ∈ t.entries, (e.2 matches .link _) = false) : t.Plain := by
  intro q s hq
  have hlink := at?_link.2 hq
  have hne : q ≠ [] := by
    rintro rfl
    cases hlink
  rw [at?_of_ne_nil hne] at hlink
  exact absurd (h _ (Table.mem_of_get? hlink)) (by simp)

lemma Plain.of_node? (hp : t.Plain) (h : ∀ q, t'.node? q = t.node? q ∨ t'.node? q = none ∨
    (∃ k, t'.node? q = some (.dir k)) ∨ (∃ b a, t'.node? q = some (.file b a)) ∨
    ∃ r, t'.node? q = t.node? r) : t'.Plain := by
  intro q x hx
  rcases h q with h | h | ⟨k, h⟩ | ⟨b, a, h⟩ | ⟨r, h⟩
  · exact hp q x (h ▸ hx)
  · simp [h] at hx
  · simp [h] at hx
  · simp [h] at hx
  · exact hp r x (h ▸ hx)

/-- None of the steps from a place leads to a link. -/
def Straight (t : Tree) (here : Place) (names : List String) : Prop :=
  ∀ xs, xs <+: names → ∀ x, t.node? (xs.foldl Path.step here) ≠ some (.link x)

lemma Plain.straight (hp : t.Plain) : t.Straight here names := fun _ _ => hp _

lemma Straight.tail (h : t.Straight here (n :: names)) : t.Straight (Path.step here n) names :=
  fun xs hxs => h (n :: xs) (List.cons_prefix_cons.2 ⟨rfl, hxs⟩)

/-- A dot at the end is no step. -/
lemma Straight.dot (h : t.Straight here names) : t.Straight here (names ++ ["."]) := by
  intro xs hxs
  rcases List.prefix_concat_iff.1 hxs with rfl | hxs
  · rw [List.foldl_append]
    exact h names List.prefix_rfl
  · exact h xs hxs

lemma Straight.walk_place (hst : t.Straight here names) (h : walk t follow here names = .arrived s) :
    s.place = names.foldl Path.step here ∧
      ∀ n ∈ names, n ≠ "." → n ≠ ".." → n.utf8ByteSize ≤ maxName := by
  induction names generalizing here with
  | nil =>
    cases h
    exact ⟨rfl, by simp⟩
  | cons n names ih =>
    have hrest := hst.tail
    rcases step_cases n with rfl | rfl | ⟨h1, h2, h3⟩ | ⟨h1, h2, h3⟩
    · rw [walk_dot] at h
      obtain ⟨hplace, hsize⟩ := ih hrest h
      exact ⟨hplace, by simpa using hsize⟩
    · rw [walk_dots] at h
      obtain ⟨hplace, hsize⟩ := ih hrest h
      exact ⟨hplace, by simpa using hsize⟩
    · have hstep : Path.step here n = here ++ [n] := by simp [Path.step, h1, h2]
      rw [hstep] at hrest
      rw [walk_name h1 h2 h3] at h
      rw [List.foldl_cons, hstep]
      split at h
      · split at h
        · next hr =>
          obtain rfl := List.isEmpty_iff.1 hr
          cases h
          exact ⟨rfl, by simpa using fun _ _ => h3⟩
        · cases h
      · obtain ⟨hplace, hsize⟩ := ih hrest h
        refine ⟨hplace, fun m hm => ?_⟩
        rcases List.mem_cons.1 hm with rfl | hm
        · exact fun _ _ => h3
        · exact hsize m hm
      · split at h
        · next hr =>
          obtain rfl := List.isEmpty_iff.1 hr
          cases h
          exact ⟨rfl, by simpa using fun _ _ => h3⟩
        · cases h
      · next x hx => exact absurd (at?_link.1 hx) (hrest [] List.nil_prefix x)
    · rw [walk_long h1 h2 h3] at h
      cases h

lemma walk_place (hp : t.Plain) (h : walk t follow here names = .arrived s) :
    s.place = names.foldl Path.step here ∧
      ∀ n ∈ names, n ≠ "." → n ≠ ".." → n.utf8ByteSize ≤ maxName := hp.straight.walk_place h

lemma Straight.walk_ne_jump (hst : t.Straight here names) {start : Place} {rest : List String} :
    walk t follow here names ≠ .jump start rest := by
  intro h
  induction names generalizing here with
  | nil => cases h
  | cons n names ih =>
    have hrest := hst.tail
    rcases step_cases n with rfl | rfl | ⟨h1, h2, h3⟩ | ⟨h1, h2, h3⟩
    · rw [walk_dot] at h
      exact ih hrest h
    · rw [walk_dots] at h
      exact ih hrest h
    · have hstep : Path.step here n = here ++ [n] := by simp [Path.step, h1, h2]
      rw [hstep] at hrest
      rw [walk_name h1 h2 h3] at h
      split at h
      · split at h <;> cases h
      · exact ih hrest h
      · split at h <;> cases h
      · next x hx => exact absurd (at?_link.1 hx) (hrest [] List.nil_prefix x)
    · rw [walk_long h1 h2 h3] at h
      cases h

lemma Straight.walkLinks_eq_ok (hst : t.Straight here names) :
    walkLinks t follow (fuel + 1) here names = .ok s ↔ walk t follow here names = .arrived s := by
  rw [walkLinks]
  split
  · next s' h => simp [h]
  · next e h => simp [h]
  · next start rest h => exact absurd h hst.walk_ne_jump

lemma walkLinks_eq_ok (hp : t.Plain) :
    walkLinks t follow (fuel + 1) here names = .ok s ↔ walk t follow here names = .arrived s :=
  hp.straight.walkLinks_eq_ok

lemma steps_foldl (cs : List Char) : (steps cs).foldl Path.step here = (segments cs).foldl Path.step here := by
  have hdot : ∀ l, Path.step l "." = l := fun _ => rfl
  unfold steps
  split
  · simp [List.foldl_append, hdot]
  · rfl

lemma Straight.steps (h : t.Straight (start cwd p) (segments p.chars)) : t.Straight (start cwd p) (steps p.chars) := by
  unfold Tree.steps
  split
  · exact h.dot
  · exact h

lemma Straight.locate_eq_ok (hst : t.Straight (start cwd p) (segments p.chars)) :
    t.locate cwd follow p = .ok s ↔ refused p = none ∧ t.isDirAt (start cwd p) = true ∧
      walk t follow (start cwd p) (Tree.steps p.chars) = .arrived s := by
  rw [locate]
  cases hr : refused p with
  | some e => simp
  | none =>
    rw [resolve]
    by_cases hd : t.isDirAt (start cwd p)
    · simp [hd, hst.steps.walkLinks_eq_ok]
    · simp [hd]

lemma locate_eq_ok (hp : t.Plain) :
    t.locate cwd follow p = .ok s ↔ refused p = none ∧ t.isDirAt (start cwd p) = true ∧
      walk t follow (start cwd p) (steps p.chars) = .arrived s := hp.straight.locate_eq_ok

/-- A path that leads anywhere without links leads to the place that it spells. -/
lemma Straight.locate_place (hst : t.Straight (start cwd p) (segments p.chars)) (h : t.locate cwd follow p = .ok s) :
    s.place = p.place cwd := by
  obtain ⟨-, -, hw⟩ := hst.locate_eq_ok.1 h
  rw [(hst.steps.walk_place hw).1, steps_foldl, Path.place]

lemma locate_place (hp : t.Plain) (h : t.locate cwd follow p = .ok s) : s.place = p.place cwd :=
  hp.straight.locate_place h

/-- A path that asks for a directory leads to nothing else. -/
lemma slash_of_locate (hs : t.Sound) (hp : t.Plain) {e : Option Entry} (h : t.locate cwd follow p = .ok ⟨l, e⟩)
    (hl : t.isDirAt l ≠ true) : p.endsInSlash ≠ true := by
  intro hslash
  obtain ⟨-, hd, hwalk⟩ := (locate_eq_ok hp).1 h
  rw [steps, if_pos (by simpa [Path.endsInSlash] using hslash)] at hwalk
  exact hl (walk_dot_arrived hd hwalk fun _ => hs.isDirAt_up)

lemma stat_place (hp : t.Plain) {e : Entry} (h : t.stat cwd p = .ok (l, e)) : l = p.place cwd :=
  locate_place hp (stat_eq_ok.1 h)

lemma isDirAt_of_isDir (hs : t.Sound) (hp : t.Plain) (h : t.isDir cwd p = true) : t.isDirAt (p.place cwd) = true := by
  obtain ⟨k, a, hst⟩ := isDir_iff.1 h
  rw [← stat_place hp hst]
  exact at?_dir (stat_ok hs hst).1

/-- A walk passes directories only, so it goes the same way as long as those on the way are there. -/
lemma walk_along (hp : t.Plain) (hp' : t'.Plain)
    (hway : ∀ xs, xs <+: names → t.isDirAt (xs.foldl Path.step here) = true → t'.isDirAt (xs.foldl Path.step here) = true)
    (h : walk t follow here names = .arrived s) :
    walk t' follow' here names = .arrived ⟨s.place, t'.at? s.place⟩ := by
  induction names generalizing here with
  | nil =>
    cases h
    rfl
  | cons n names ih =>
    have hrest : ∀ xs, xs <+: names → t.isDirAt (xs.foldl Path.step (Path.step here n)) = true →
        t'.isDirAt (xs.foldl Path.step (Path.step here n)) = true :=
      fun xs hxs => hway (n :: xs) (by simpa using hxs)
    rcases step_cases n with rfl | rfl | ⟨h1, h2, h3⟩ | ⟨h1, h2, h3⟩
    · rw [walk_dot] at h ⊢
      exact ih hrest h
    · rw [walk_dots] at h ⊢
      exact ih hrest h
    · have hstep : Path.step here n = here ++ [n] := by simp [Path.step, h1, h2]
      rw [hstep] at hrest
      rw [walk_name h1 h2 h3] at h
      have hlast : names = [] → walk t' follow' here (n :: names) =
          .arrived ⟨here ++ [n], t'.at? (here ++ [n])⟩ := by
        rintro rfl
        rw [walk_name h1 h2 h3]
        split
        · next he => simp [he]
        · next a he => rw [walk_nil, he]
        · next he => simp [he]
        · next x he => exact absurd (at?_link.1 he) (hp' _ _)
      split at h
      · split at h
        · next hr =>
          cases h
          exact hlast (List.isEmpty_iff.1 hr)
        · cases h
      · next a he =>
        obtain ⟨a', ha'⟩ := at?_of_isDirAt (hrest [] List.nil_prefix (at?_dir he))
        rw [List.foldl_nil] at ha'
        rw [walk_name h1 h2 h3, ha']
        exact ih hrest h
      · split at h
        · next hr =>
          cases h
          exact hlast (List.isEmpty_iff.1 hr)
        · cases h
      · next x hx => exact absurd (at?_link.1 hx) (hp _ _)
    · rw [walk_long h1 h2 h3] at h
      cases h

lemma locate_along (hp : t.Plain) (hp' : t'.Plain)
    (hway : ∀ xs, xs <+: steps p.chars → t.isDirAt (xs.foldl Path.step (start cwd p)) = true →
      t'.isDirAt (xs.foldl Path.step (start cwd p)) = true)
    (h : t.locate cwd follow p = .ok s) : t'.locate cwd follow' p = .ok ⟨s.place, t'.at? s.place⟩ := by
  obtain ⟨hr, hd, hw⟩ := (locate_eq_ok hp).1 h
  exact (locate_eq_ok hp').2 ⟨hr, hway [] List.nil_prefix hd, walk_along hp hp' hway hw⟩

lemma locate_steady (hp : t.Plain) (hp' : t'.Plain) (hdirs : ∀ q, t.isDirAt q = true → t'.isDirAt q = true)
    (h : t.locate cwd follow p = .ok s) : t'.locate cwd follow' p = .ok ⟨s.place, t'.at? s.place⟩ :=
  locate_along hp hp' (fun _ _ => hdirs _) h

lemma Straight.parentOf_place (hst : t.Straight (start cwd p) (segments p.chars))
    (h : t.parentOf cwd p = .ok (d, .name n)) : p.place cwd = d ++ [n] := by
  unfold parentOf at h
  split at h
  · cases h
  · dsimp only at h
    split at h
    · cases h
    · next m hm =>
      split at h
      · cases h
      · next d' e hres =>
        have hd : d' = (segments p.chars).dropLast.foldl Path.step (start cwd p) := by
          rw [resolve] at hres
          split at hres
          · have hinit : t.Straight (start cwd p) ((segments p.chars).dropLast ++ ["."]) :=
              Straight.dot fun xs hxs => hst xs (hxs.trans (List.dropLast_prefix _))
            have hplace := (hinit.walk_place (hinit.walkLinks_eq_ok.1 hres)).1
            rw [List.foldl_append] at hplace
            exact hplace
          · cases hres
        have hseg : segments p.chars = (segments p.chars).dropLast ++ [m] := by
          obtain ⟨hne, hlast⟩ := List.mem_getLast?_eq_getLast hm
          rw [hlast]
          exact (List.dropLast_append_getLast hne).symm
        split at h
        · cases h
        · next h1 =>
          split at h
          · cases h
          · next h2 =>
            split at h
            · cases h
            · cases h
              rw [Path.place, hseg, List.foldl_append, ← hd]
              simp [Path.step, h1, h2]

lemma parentOf_place (hp : t.Plain) (h : t.parentOf cwd p = .ok (d, .name n)) : p.place cwd = d ++ [n] :=
  hp.straight.parentOf_place h

/-- A place with a path that the system takes. -/
def Addressable (l : Place) : Prop :=
  (∀ n ∈ l, Proper n ∧ n.utf8ByteSize ≤ maxName) ∧ refused (Path.ofPlace l) = none

instance : Decidable (Addressable l) := inferInstanceAs (Decidable (_ ∧ _))

lemma Addressable.proper (h : Addressable l) : ∀ n ∈ l, Proper n := fun n hn => (h.1 n hn).1

lemma steps_ofPlace (hl : ∀ n ∈ l, Proper n) (hne : l ≠ []) : steps (Path.ofPlace l).chars = l := by
  have hlast : (Path.ofPlace l).chars.getLast? ≠ some '/' := by
    intro h
    have hslash : (Path.ofPlace l).endsInSlash = true := by simpa [Path.endsInSlash] using h
    obtain ⟨xs, -, hxs⟩ := Path.pieces_of_endsInSlash hslash
    rw [Path.pieces_ofPlace hl hne] at hxs
    have hmem : [] ∈ l.map String.toList := by
      have hlast := congrArg List.getLast? hxs
      rw [List.getLast?_append, List.getLast?_cons] at hlast
      have hne' : l.map String.toList ≠ [] := by simpa using hne
      rw [List.getLast?_eq_some_getLast hne'] at hlast
      have hval : (l.map String.toList).getLast hne' = [] := by simpa using hlast
      rw [← hval]
      exact List.getLast_mem hne'
    obtain ⟨n, hn, h0⟩ := List.mem_map.1 hmem
    exact (hl n hn).1 (by simpa using h0)
  rw [steps, if_neg hlast, Path.segments_ofPlace hl]

lemma walk_below (hs : t.Sound) (hp : t.Plain) (hn : ∀ n ∈ names, Proper n ∧ n.utf8ByteSize ≤ maxName)
    (hne : names ≠ []) (h : t.isDirAt (here ++ names.dropLast) = true) :
    walk t follow here names = .arrived ⟨here ++ names, t.at? (here ++ names)⟩ := by
  induction names generalizing here with
  | nil => exact absurd rfl hne
  | cons n names ih =>
    obtain ⟨⟨-, h1, h2, -⟩, h3⟩ := hn n (by simp)
    rw [walk_name h1 h2 h3]
    by_cases hnil : names = []
    · subst hnil
      cases he : t.at? (here ++ [n]) with
      | none => rfl
      | some e =>
        cases e with
        | link x => exact absurd (at?_link.1 he) (hp _ _)
        | dir a => simp [walk_nil, he]
        | file b a => rfl
    · have hrest := @ih (here ++ [n]) (fun m hm => hn m (by simp [hm])) hnil
      rw [List.append_assoc, List.append_assoc, List.singleton_append, List.singleton_append,
        ← List.dropLast_cons_of_ne_nil hnil] at hrest
      have hdir : t.isDirAt (here ++ [n]) = true := by
        rw [List.dropLast_cons_of_ne_nil hnil, List.append_cons] at h
        by_cases hd : names.dropLast = []
        · simpa [hd] using h
        · obtain ⟨k, hk⟩ := isDirAt_iff.1 h
          exact hs.isDirAt_prefix _ hd (by rw [hk]; simp)
      obtain ⟨a, ha⟩ := at?_of_isDirAt hdir
      rw [ha]
      exact hrest h

/-- The path of a place leads there if what is around it is a directory. -/
lemma locate_ofPlace (hs : t.Sound) (hp : t.Plain) (ha : Addressable l)
    (h : t.isDirAt l.dropLast = true) : t.locate cwd follow (Path.ofPlace l) = .ok ⟨l, t.at? l⟩ := by
  rw [locate_eq_ok hp]
  have hstart : start cwd (Path.ofPlace l) = [] := by simp [start, Path.isAbsolute_ofPlace]
  refine ⟨ha.2, by rw [hstart]; rfl, ?_⟩
  rw [hstart]
  by_cases hne : l = []
  · subst hne
    rfl
  · rw [steps_ofPlace ha.proper hne]
    simpa using @walk_below t [] follow l hs hp ha.1 hne (by simpa using h)

lemma addressable_of_locate (hp : t.Plain) (hl : ∀ n ∈ l, Proper n)
    (h : t.locate cwd follow (Path.ofPlace l) = .ok s) : Addressable l := by
  obtain ⟨hr, -, hw⟩ := (locate_eq_ok hp).1 h
  refine ⟨fun n hn => ⟨hl n hn, ?_⟩, hr⟩
  have hne : l ≠ [] := by
    rintro rfl
    cases hn
  rw [steps_ofPlace hl hne] at hw
  exact (walk_place hp hw).2 n hn (hl n hn).2.1 (hl n hn).2.2.1

end FileOrganizer.Tree
