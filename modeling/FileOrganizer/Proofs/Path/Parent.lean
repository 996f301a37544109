import FileOrganizer.Proofs.Path.Places

/-! The path before the last part of a path, for paths without `..`. -/

namespace FileOrganizer

namespace Text

variable {sep : Char} {ps qs : List (List Char)}

lemma join_prefix (h : ps <+: qs) (hne : ps ≠ []) : join [sep] ps <+: join [sep] qs := by
  induction ps generalizing qs with
  | nil => exact absurd rfl hne
  | cons p ps ih =>
    obtain ⟨rest, rfl⟩ := h
    cases ps with
    | nil => cases rest <;> simp [join]
    | cons q ps => simpa [join] using ih (List.prefix_append (q :: ps) rest) (by simp)

end Text

namespace Path

variable {p q : Path} {cwd : Place} {l : List String} {n : String} {xs ys : List (List Char)} {x : List Char}
  {c : Part} {ps : List Part}

lemma trimPieces_initial : trimPieces xs <+: xs := by
  obtain ⟨ys, hys⟩ := List.dropWhile_suffix (l := xs.reverse) fun x => (part? x).isNone
  refine ⟨ys.reverse, ?_⟩
  rw [trimPieces, ← List.reverse_append, hys, List.reverse_reverse]

lemma part?_of_getLast?_trimPieces (h : (trimPieces xs).getLast? = some x) : ∃ c, part? x = some c := by
  rw [trimPieces, List.getLast?_reverse] at h
  have hnot := List.head?_dropWhile_not (fun x => (part? x).isNone) xs.reverse
  rw [h] at hnot
  exact Option.isSome_iff_exists.1 (by simpa using hnot)

lemma part?_last_trimPieces {b : List Char} {bs : List (List Char)} (h : trimPieces xs = b :: bs) :
    ∃ c, part? ((b :: bs).getLast (by simp)) = some c := by
  have hlast : (trimPieces xs).getLast? = some ((b :: bs).getLast (by simp)) := by
    rw [h]
    exact List.getLast?_eq_some_getLast (by simp)
  exact part?_of_getLast?_trimPieces hlast

lemma filterMap_trimPieces : (trimPieces xs).filterMap part? = xs.filterMap part? := by
  have hrev : ∀ ys : List (List Char),
      (ys.dropWhile fun x => (part? x).isNone).filterMap part? = ys.filterMap part? := by
    intro ys
    induction ys with
    | nil => rfl
    | cons y ys ih =>
      cases hy : part? y with
      | none => simpa [hy] using ih
      | some c => simp [hy]
  have h := congrArg List.reverse (hrev xs.reverse)
  rw [← List.filterMap_reverse, ← List.filterMap_reverse, List.reverse_reverse] at h
  exact h

/-- Without the pieces at the end that are no parts, the last piece is the last part. -/
lemma trimPieces_of_parts (h : xs.filterMap part? = ps ++ [c]) :
    ∃ b bs, trimPieces xs = b :: bs ∧ (b :: bs).dropLast.filterMap part? = ps := by
  have hparts : (trimPieces xs).filterMap part? = ps ++ [c] := filterMap_trimPieces.trans h
  cases ht : trimPieces xs with
  | nil => simp [ht] at hparts
  | cons b bs =>
    refine ⟨b, bs, rfl, ?_⟩
    have hlast : (b :: bs).dropLast ++ [(b :: bs).getLast (by simp)] = b :: bs :=
      List.dropLast_append_getLast (by simp)
    obtain ⟨c', hc'⟩ := part?_last_trimPieces ht
    rw [ht, ← hlast, List.filterMap_append] at hparts
    simp only [List.filterMap_cons, hc', List.filterMap_nil] at hparts
    exact (List.append_inj' hparts rfl).1

lemma trimPieces_eq_nil (h : xs.filterMap part? = []) : trimPieces xs = [] := by
  cases ht : trimPieces xs with
  | nil => rfl
  | cons b bs =>
    obtain ⟨c, hc⟩ := part?_last_trimPieces ht
    have hmem : c ∈ (trimPieces xs).filterMap part? :=
      List.mem_filterMap.2 ⟨_, by rw [ht]; exact List.getLast_mem _, hc⟩
    rw [filterMap_trimPieces, h] at hmem
    cases hmem

lemma body_absolute (h : p.isAbsolute = true) : p.body = p.pieces.tail.filterMap part? := by
  obtain ⟨y, ys, hp⟩ := isAbsolute_iff.1 h
  simp [body, hp, part?]

lemma chars_absolute (h : p.isAbsolute = true) : p.chars = '/' :: Text.join ['/'] p.pieces.tail := by
  obtain ⟨y, ys, hp⟩ := isAbsolute_iff.1 h
  have hj : Text.join ['/'] p.pieces = p.chars := Text.join_split _ _
  rw [hp] at hj ⊢
  simpa [Text.join] using hj.symm

/-- An absolute path that is put together from pieces. -/
def above (rest : List (List Char)) : Path := ⟨"/" ++ String.ofList (Text.join ['/'] rest)⟩

lemma chars_above : (above xs).chars = '/' :: Text.join ['/'] xs := by
  simp [above, chars]

lemma isAbsolute_above : (above xs).isAbsolute = true := by
  simp [isAbsolute, chars_above]

lemma pieces_above (h : ∀ x ∈ xs, '/' ∉ x) : (above xs).pieces = [] :: if xs = [] then [[]] else xs := by
  rw [pieces, chars_above]
  split
  · next h0 => simp [h0, Text.join, Text.split]
  · next h0 => simp [Text.split, Text.split_join h0 h]

lemma body_above (h : ∀ x ∈ xs, '/' ∉ x) : (above xs).body = xs.filterMap part? := by
  rw [body_absolute isAbsolute_above, pieces_above h]
  split
  · next h0 => simp [h0, part?]
  · rfl

/-- The path before the last part of an absolute path has the pieces before it. -/
lemma parent?_absolute (ha : p.isAbsolute = true) (hp : p.body = ps ++ [c]) :
    ∃ rest, p.parent? = some (above rest) ∧ rest <+: p.pieces.tail ∧ rest.filterMap part? = ps ∧
      ∀ x, rest.getLast? = some x → ∃ c, part? x = some c := by
  rw [body_absolute ha] at hp
  obtain ⟨b, bs, ht, hinit⟩ := trimPieces_of_parts hp
  refine ⟨trimPieces (b :: bs).dropLast, ?_, ?_, filterMap_trimPieces.trans hinit,
    fun x => part?_of_getLast?_trimPieces⟩
  · simp [parent?, lead, ha, ht, above]
  · have hpre : b :: bs <+: p.pieces.tail := ht ▸ trimPieces_initial
    exact trimPieces_initial.trans ((List.dropLast_prefix _).trans hpre)

lemma parent?_root (ha : p.isAbsolute = true) (hp : p.body = []) : p.parent? = none := by
  rw [body_absolute ha] at hp
  simp [parent?, lead, ha, trimPieces_eq_nil hp]

lemma not_mem_of_prefix_tail (h : xs <+: p.pieces.tail) : ∀ x ∈ xs, '/' ∉ x :=
  fun _ hx => Text.mem_split (List.mem_of_mem_tail (h.subset hx))

lemma pieces_of_list (h : ∀ x ∈ xs, '/' ∉ x) (hne : xs ≠ []) :
    (⟨String.ofList (Text.join ['/'] xs)⟩ : Path).pieces = xs := by
  simpa [pieces, chars] using Text.split_join hne h

lemma body_of_list (h : ∀ x ∈ xs, '/' ∉ x) :
    (⟨String.ofList (Text.join ['/'] xs)⟩ : Path).body = xs.filterMap part? := by
  by_cases h0 : xs = []
  · simp [h0, Text.join, body, pieces, chars, Text.split, part?]
  · rw [body, pieces_of_list h h0]

lemma not_isAbsolute_initial (ha : p.isAbsolute = false) (hx : xs <+: p.pieces) :
    (⟨String.ofList (Text.join ['/'] xs)⟩ : Path).isAbsolute = false := by
  by_contra habs
  obtain ⟨y, ys, hpieces⟩ := isAbsolute_iff.1 (by simpa using habs)
  by_cases h0 : xs = []
  · simp [h0, Text.join, isAbsolute, chars] at habs
  · rw [pieces_of_list (fun x hx' => Text.mem_split (hx.subset hx')) h0] at hpieces
    obtain ⟨zs, hzs⟩ := hx
    have : p.isAbsolute = true := isAbsolute_iff.2 ⟨y, ys ++ zs, by rw [← hzs, hpieces]; rfl⟩
    simp [ha] at this

/-- What is left of the pieces of a path when those from its last part on are taken away. -/
lemma rest_of_pieces {b : List Char} {bs : List (List Char)} (h : trimPieces xs = b :: bs) :
    trimPieces (b :: bs).dropLast <+: xs ∧
      (trimPieces (b :: bs).dropLast).filterMap part? = (xs.filterMap part?).dropLast := by
  have hpre : b :: bs <+: xs := h ▸ trimPieces_initial
  refine ⟨trimPieces_initial.trans ((List.dropLast_prefix _).trans hpre), ?_⟩
  rcases List.eq_nil_or_concat (xs.filterMap part?) with hnil | ⟨ps, c, hps⟩
  · rw [trimPieces_eq_nil hnil] at h
    cases h
  · obtain ⟨b', bs', ht, hinit⟩ := trimPieces_of_parts (by simpa using hps)
    rw [h] at ht
    obtain ⟨rfl, rfl⟩ := List.cons.inj ht
    rw [filterMap_trimPieces, hinit, hps]
    simp

/-- The path before the last part begins where the path does, and has the parts before it. -/
lemma parent?_body (h : p.parent? = some q) : q.isAbsolute = p.isAbsolute ∧ q.body = p.body.dropLast := by
  have hsep : ∀ {xs}, xs <+: p.pieces → ∀ x ∈ xs, '/' ∉ x := fun hx x hx' => Text.mem_split (hx.subset hx')
  cases ha : p.isAbsolute with
  | true =>
    rcases List.eq_nil_or_concat p.body with hp | ⟨ps, c, hp⟩
    · simp [parent?_root ha hp] at h
    · obtain ⟨rest, hq, hrest, hparts, -⟩ := parent?_absolute ha (by simpa using hp)
      obtain rfl : above rest = q := Option.some.inj (hq.symm.trans h)
      refine ⟨isAbsolute_above, ?_⟩
      rw [body_above (not_mem_of_prefix_tail hrest), hparts, hp]
      simp
  | false =>
    have hlist : ∀ xs, xs <+: p.pieces → (⟨String.ofList (Text.join ['/'] xs)⟩ : Path).isAbsolute = false ∧
        (⟨String.ofList (Text.join ['/'] xs)⟩ : Path).body = xs.filterMap part? := fun _ hx =>
      ⟨not_isAbsolute_initial ha hx, body_of_list (hsep hx)⟩
    by_cases hhere : ∃ xs, p.pieces = ['.'] :: xs
    · obtain ⟨xs, hpieces⟩ := hhere
      have hbody : p.body = xs.filterMap part? := by simp [body, hpieces, part?]
      cases ht : trimPieces xs with
      | nil =>
        obtain rfl : (⟨""⟩ : Path) = q := by simpa [parent?, lead, ha, hpieces, ht] using h
        have hnil : p.body = [] := by rw [hbody, ← filterMap_trimPieces, ht]; rfl
        exact ⟨rfl, by rw [hnil]; rfl⟩
      | cons b bs =>
        obtain ⟨hpre, hparts⟩ := rest_of_pieces ht
        obtain rfl : (⟨String.ofList (Text.join ['/'] (['.'] :: trimPieces (b :: bs).dropLast))⟩ : Path) = q := by
          cases hr : trimPieces (b :: bs).dropLast with
          | nil => simpa [parent?, lead, ha, hpieces, ht, hr, Text.join] using h
          | cons x xs =>
            have hdot : "./" = String.ofList ['.', '/'] := rfl
            have h' : (⟨"./" ++ String.ofList (Text.join ['/'] (x :: xs))⟩ : Path) = q := by
              simpa [parent?, lead, ha, hpieces, ht, hr] using h
            rw [← h', hdot, ← String.ofList_append]
            simp [Text.join]
        obtain ⟨hq, hqbody⟩ := hlist (['.'] :: trimPieces (b :: bs).dropLast)
          (by rw [hpieces]; exact (List.prefix_cons_inj _).2 hpre)
        refine ⟨hq, ?_⟩
        rw [hqbody, hbody, ← hparts]
        simp [part?]
    · have hlead : p.lead = (none, p.pieces) := by
        unfold lead
        rw [ha]
        simp only [Bool.false_eq_true, if_false]
        split
        · next ps hps => exact absurd ⟨ps, hps⟩ hhere
        · rfl
      cases ht : trimPieces p.pieces with
      | nil => simp [parent?, hlead, ht] at h
      | cons b bs =>
        obtain ⟨hpre, hparts⟩ := rest_of_pieces ht
        obtain rfl : (⟨String.ofList (Text.join ['/'] (trimPieces (b :: bs).dropLast))⟩ : Path) = q := by
          simpa [parent?, hlead, ht] using h
        obtain ⟨hq, hqbody⟩ := hlist _ hpre
        exact ⟨hq, hqbody.trans hparts⟩

lemma trimPieces_ne_nil {xs : List (List Char)} (h : xs.filterMap part? ≠ []) : trimPieces xs ≠ [] := by
  intro hnil
  rw [← filterMap_trimPieces, hnil] at h
  exact h rfl

/-- There is something before the last part of a path, be it nothing but the start. -/
lemma parent?_isSome (h : p.body ≠ []) : ∃ q, p.parent? = some q := by
  have hlead : p.lead.2.filterMap part? ≠ [] := by
    unfold lead
    split
    · next ha => rwa [body_absolute ha] at h
    · split
      · next ps hps => simpa [body, hps, part?] using h
      · exact h
  unfold parent?
  rcases hl : p.lead with ⟨first, body⟩
  rw [hl] at hlead
  cases ht : trimPieces body with
  | nil => exact absurd ht (trimPieces_ne_nil hlead)
  | cons b bs =>
    dsimp only
    rw [ht]
    dsimp only
    split <;> exact ⟨_, rfl⟩

lemma parent_body (h : p.body ≠ []) : p.parent.isAbsolute = p.isAbsolute ∧ p.parent.body = p.body.dropLast := by
  obtain ⟨q, hq⟩ := parent?_isSome h
  rw [parent, hq]
  exact parent?_body hq

end Path

end FileOrganizer
