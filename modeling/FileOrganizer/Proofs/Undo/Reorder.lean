import FileOrganizer.Proofs.Undo.Account

/-! What was done in one order could have been done in another: a move can be put before the moves of other files as
long as it does not go where one of them has made room. -/

namespace FileOrganizer

open FileOrganizer.Tree

variable {cwd root a c q : Place} {t t₁ t₂ u u' v : Tree} {p p' : Path} {x x' : Node} {gone : Set Place}
  {r r' m : UndoRecord} {rs rs' front done log : List UndoRecord}

namespace Tree

/-- What the tree `u` has, but at the places in `S` what `t` has. -/
def graft (t u : Tree) (S : Place → Prop) [DecidablePred S] : Tree :=
  ⟨(t.entries.filter fun e => S e.1) ++ u.entries.filter fun e => ¬S e.1⟩

lemma node?_graft (S : Place → Prop) [DecidablePred S] :
    (t.graft u S).node? q = if S q then t.node? q else u.node? q := by
  have hat : (t.graft u S).at? q = if S q then t.at? q else u.at? q := by
    by_cases hq : q = []
    · subst hq
      simp [at?]
    · rw [at?_of_ne_nil hq, at?_of_ne_nil hq, at?_of_ne_nil hq, graft, Table.get?_append,
        Table.get?_filter t.entries S, Table.get?_filter u.entries fun q => ¬S q]
      by_cases hS : S q <;> simp [hS]
  unfold node?
  rw [hat]
  split <;> rfl

end Tree

namespace Tree.Arrived

section

variable (h : Arrived cwd p x gone u u') (hlog : ¬UndoLog.place root <+: p.place cwd) (hgone : UndoLog.place root ∉ gone)

include h hlog hgone

/-- Something else could be in the log. -/
lemma relog (hsame : UndoLog.Same root v u) (hs : v.Sound) (hp : v.Plain) (hdir : u.isDirAt (UndoLog.place root) ≠ true)
    (hdir' : u'.isDirAt (UndoLog.place root) ≠ true) :
    ∃ v', Arrived cwd p x gone v v' ∧ UndoLog.Same root v' u' := by
  let v' := v.graft u' (· = UndoLog.place root)
  have hv' : ∀ q, q ≠ UndoLog.place root → v'.node? q = u'.node? q := fun q hq => by
    rw [node?_graft, if_neg hq]
  have hvlog : v'.node? (UndoLog.place root) = v.node? (UndoLog.place root) := by
    rw [node?_graft, if_pos rfl]
  have hway : ∀ q, q <+: p.place cwd → q ≠ UndoLog.place root := by
    rintro q hq rfl
    exact hlog hq
  refine ⟨v', ?_, fun q hq => (hv' q hq).symm⟩
  refine
    { sound := hs, sound' := fun q n hn => ?_, plain := hp, descent := h.descent, free := ?_, here := ?_, unlocked := ?_,
      files := fun q hq => ?_, laid := fun q hne hq => ?_ }
  · by_cases hqn : q ++ [n] = UndoLog.place root
    · obtain rfl : q = root := (List.append_inj' hqn rfl).1
      rw [isDirAt_congr (hv' q UndoLog.ne_place)]
      rw [hqn, hvlog, ← hqn] at hn
      refine h.isDirAt ?_
      rw [isDirAt_congr (hsame q UndoLog.ne_place)]
      exact hs q n hn
    · rw [hv' _ hqn] at hn
      have hq := h.sound' q n hn
      have hne : q ≠ UndoLog.place root := fun heq => hdir' (heq ▸ hq)
      rwa [isDirAt_congr (hv' q hne)]
  · rw [← hsame _ (hway _ List.prefix_rfl)]
    exact h.free
  · rw [hv' _ (hway _ List.prefix_rfl)]
    exact h.here
  · rw [Ne, isLocked_iff, hv' _ (hway _ (List.dropLast_prefix _)), ← isLocked_iff]
    exact h.unlocked
  · have hne : q ≠ UndoLog.place root := fun heq => hgone (heq ▸ hq)
    rw [← hsame q hne, hv' q hne]
    exact h.files q hq
  · by_cases hql : q = UndoLog.place root
    · exact Or.inl (hql ▸ hvlog)
    · unfold Laid
      rw [hv' q hql, ← hsame q hql]
      refine (h.laid q hne hq).imp_right fun ⟨hpre, hnone, hnew, hlock⟩ => ⟨hpre, hnone, hnew, ?_⟩
      rwa [Ne, isLocked_iff, ← hsame _ (hway _ ((List.dropLast_prefix q).trans hpre)), ← isLocked_iff]

end

section

variable {b b' : ByteArray} {k k' : Attrs} (h : Arrived cwd p (.file b k) {a} t t₁)
  (h' : Arrived cwd p' (.file b' k') {c} t₁ t₂) (hc : c ≠ p.place cwd) (ha : ¬a <+: p'.place cwd)

include h

lemma locked_before (hq : t₁.isLocked q = true) : t.isLocked q = true := by
  by_contra hopen
  obtain rfl := h.isLocked hopen hq
  rw [isLocked_iff, h.here] at hq
  cases hq

include h'

/-- What was there before either file went is there still. -/
lemma keep_both (hq : t.node? q ≠ none) (hqa : q ≠ a) (hqc : q ≠ c) : t₂.node? q = t.node? q := by
  have hsame := h.keep hq hqa
  rw [h'.keep (hsame ▸ hq) hqc, hsame]

lemma isDirAt_both (hd : t.isDirAt q = true) : t₂.isDirAt q = true := h'.isDirAt (h.isDirAt hd)

/-- What came into being off the way of the second file did so for the first one. -/
lemma laid_first (hqp : q ≠ p.place cwd) (hqa : q ≠ a) (hqc : q ≠ c) (hq : ¬q <+: p'.place cwd) :
    t.Laid t₂ (p.place cwd) q := by
  unfold Laid
  rcases h'.laid q (fun heq => hq (heq ▸ List.prefix_rfl)) hqc with hsame | ⟨hpre, -⟩
  · rw [hsame]
    exact h.laid q hqp hqa
  · exact absurd hpre hq

variable (hc : c ≠ p.place cwd) (ha : ¬a <+: p'.place cwd)

include hc

lemma here_both : t₂.node? (p.place cwd) = some (.file b k) := by
  rw [h'.keep (by simp [h.here]) (Ne.symm hc), h.here]

/-- The first file does not stand in the way of the second one. -/
lemma aside : ¬p.place cwd <+: p'.place cwd := by
  rintro ⟨l, hl⟩
  rcases eq_or_ne l [] with rfl | hl0
  · have hfree := h'.free
    rw [← hl, List.append_nil, h.here] at hfree
    cases hfree
  · exact not_isDirAt_of_file (h.here_both h' hc) (h'.sound'.isDirAt_prefix l hl0 (by rw [hl, h'.here]; simp))

/-- On the way of the second file there is only what was there, or was made. -/
lemma laid_second (hqp : q ≠ p'.place cwd) (hqa : q ≠ a) (hqc : q ≠ c) (hq : q <+: p'.place cwd) :
    t.Laid t₂ (p'.place cwd) q := by
  have hqb : q ≠ p.place cwd := by
    rintro rfl
    exact h.aside h' hc hq
  by_cases hn : t.node? q = none
  · rcases h'.laid q hqp hqc with hsame | ⟨-, -, hnew, hlock⟩
    · unfold Laid
      rw [hsame]
      exact (h.laid q hqb hqa).imp_right fun ⟨_, hnone, hnew, hlock⟩ => ⟨hq, hnone, hnew, hlock⟩
    · refine Or.inr ⟨hq, hn, hnew, fun hl => hlock ?_⟩
      rw [isLocked_iff] at hl ⊢
      exact (h.keep_dir (isDirAt_iff.2 ⟨_, hl⟩)).trans hl
  · exact Or.inl (h.keep_both h' hn hqa hqc)

/-- The file that goes second was there before the first one went. -/
lemma waits : c ≠ a ∧ t₁.node? c = t.node? c := by
  obtain ⟨⟨b, k, hfile⟩, -⟩ := h'.files c rfl
  have hne : c ≠ a := by
    rintro rfl
    rw [(h.files c rfl).2] at hfile
    cases hfile
  refine ⟨hne, ?_⟩
  rcases h.laid c hc hne with hsame | ⟨-, -, hnew, -⟩
  · exact hsame
  · rw [hfile] at hnew
    cases hnew

include ha

/-- Where the first file was nothing comes to be. -/
lemma vacant : t₂.node? a = none := by
  rcases h'.laid a (fun heq => ha (heq ▸ List.prefix_rfl)) (h.waits h' hc).1.symm with hsame | ⟨hpre, -⟩
  · exact hsame.trans (h.files a rfl).2
  · exact absurd hpre ha

/-- The two files could have gone the other way round. -/
theorem swap : ∃ v, Arrived cwd p' (.file b' k') {c} t v ∧ Arrived cwd p (.file b k) {a} v t₂ ∧
    v.node? a = t.node? a ∧ ∀ q, v.isLocked q = true → t.isLocked q = true := by
  classical
  -- On the way of the second file all is as in the end, and elsewhere as it was.
  let v := t₂.graft t fun q => q <+: p'.place cwd ∨ q = c
  have hnew : ∀ q, q <+: p'.place cwd ∨ q = c → v.node? q = t₂.node? q := fun q hq => by rw [node?_graft, if_pos hq]
  have hold : ∀ q, ¬(q <+: p'.place cwd ∨ q = c) → v.node? q = t.node? q := fun q hq => by rw [node?_graft, if_neg hq]
  have hway : ∀ q, q <+: p'.place cwd → v.node? q = t₂.node? q := fun q hq => hnew q (Or.inl hq)
  obtain ⟨hca, hwait⟩ := h.waits h' hc
  obtain ⟨hfile, hgone⟩ := h'.files c rfl
  rw [hwait] at hfile
  have hva : v.node? a = t.node? a := hold a (not_or.2 ⟨ha, hca.symm⟩)
  have hvc : v.node? c = none := (hnew c (Or.inr rfl)).trans hgone
  have hlocked : ∀ q, v.isLocked q = true → t.isLocked q = true := by
    intro q hq
    by_cases hS : q <+: p'.place cwd ∨ q = c
    · rw [isLocked_iff, hnew q hS, ← isLocked_iff] at hq
      exact h.locked_before (h'.locked_before hq)
    · rwa [isLocked_iff, hold q hS, ← isLocked_iff] at hq
  have hsound : v.Sound := by
    intro q n hn
    by_cases hS : q ++ [n] <+: p'.place cwd ∨ q ++ [n] = c
    · rcases hS with hpre | heq
      · rw [hway _ hpre] at hn
        rw [isDirAt_congr (hway q ((List.prefix_append q [n]).trans hpre))]
        exact h'.sound' q n hn
      · exact absurd (heq ▸ hvc) hn
    · rw [hold _ hS] at hn
      have hd := h.sound q n hn
      by_cases hS' : q <+: p'.place cwd ∨ q = c
      · rw [isDirAt_congr (hnew q hS')]
        exact h.isDirAt_both h' hd
      · rwa [isDirAt_congr (hold q hS')]
  have hplain : v.Plain := by
    intro q s hq
    by_cases hS : q <+: p'.place cwd ∨ q = c
    · exact h'.plain_after (by simp) q s ((hnew q hS).symm.trans hq)
    · exact h.plain q s ((hold q hS).symm.trans hq)
  refine ⟨v, ?_, ?_, hva, hlocked⟩
  · refine
      { sound := h.sound, sound' := hsound, plain := h.plain, descent := h'.descent, free := ?_,
        here := (hway _ List.prefix_rfl).trans h'.here, unlocked := ?_, files := ?_, laid := fun q hq hqc => ?_ }
    · by_contra hne
      exact hne ((h.keep hne fun heq => ha (heq ▸ List.prefix_rfl)).symm.trans h'.free)
    · rw [Ne, isLocked_iff, hway _ (List.dropLast_prefix _), ← isLocked_iff]
      exact h'.unlocked
    · rintro q rfl
      exact ⟨hfile, hvc⟩
    · by_cases hpre : q <+: p'.place cwd
      · unfold Laid
        rw [hway q hpre]
        exact h.laid_second h' hc hq (fun heq => ha (heq ▸ hpre)) hqc hpre
      · exact Or.inl (hold q (not_or.2 ⟨hpre, hqc⟩))
  · refine
      { sound := hsound, sound' := h'.sound', plain := hplain, descent := h.descent, free := ?_, here := h.here_both h' hc,
        unlocked := fun hl => h.unlocked (h'.locked_before hl), files := ?_, laid := fun q hq hqa => ?_ }
    · rw [hold _ (not_or.2 ⟨h.aside h' hc, Ne.symm hc⟩)]
      exact h.free
    · rintro q rfl
      rw [hva]
      exact ⟨(h.files q rfl).1, h.vacant h' hc ha⟩
    · by_cases hS : q <+: p'.place cwd ∨ q = c
      · exact Or.inl (hnew q hS).symm
      · obtain ⟨hpre, hqc⟩ := not_or.1 hS
        unfold Laid
        rw [hold q hS]
        exact (h.laid_first h' hq hqa hqc hpre).imp_right fun ⟨hp, hnone, hdir, hlock⟩ =>
          ⟨hp, hnone, hdir, fun hl => hlock (hlocked _ hl)⟩

end

end Tree.Arrived

namespace UndoRecord

/-- The second record is not that of the first one's file, nor of a file that goes where that one has made room. -/
structure Apart (cwd : Place) (r r' : UndoRecord) : Prop where
  other : r'.source.place cwd ≠ r.target.place cwd
  clear : ¬r.source.place cwd <+: r'.target.place cwd

/-- Two moves that are apart could have been made the other way round. -/
lemma Did.swap (h : r.Did cwd t t₁) (h' : r'.Did cwd t₁ t₂) (hmode : r.mode = .move) (hmode' : r'.mode = .move)
    (hapart : r.Apart cwd r') : ∃ v, r'.Did cwd t v ∧ r.Did cwd v t₂ := by
  cases h with
  | made kind arrived => cases hmode
  | @moved source target time l n b k _ _ absolute descent slash unlocked same arrived =>
    cases h' with
    | made kind' arrived' => cases hmode'
    | @moved source' target' time' l' n' b' k' _ _ absolute' descent' slash' unlocked' same' arrived' =>
      have hplace := descent.place_absolute absolute cwd
      have hplace' := descent'.place_absolute absolute' cwd
      have hother : l' ++ [n'] ≠ target.place cwd := hplace' ▸ hapart.other
      have hclear : ¬l ++ [n] <+: target'.place cwd := hplace ▸ hapart.clear
      obtain ⟨v, hsecond, hfirst, hva, hlocked⟩ := arrived.swap arrived' hother hclear
      obtain ⟨-, hwait⟩ := arrived.waits arrived' hother
      rw [hwait] at same'
      refine ⟨v, .moved absolute' descent' slash' (fun hl => unlocked' ?_) same' hsecond,
        .moved absolute descent slash (fun hl => unlocked (hlocked _ hl)) (hva ▸ same) hfirst⟩
      rw [isLocked_iff] at hl ⊢
      exact (arrived.keep_dir (isDirAt_iff.2 ⟨_, hl⟩)).trans hl

/-- Something else could be in the log. -/
lemma Did.relog (h : r.Did cwd u u') (hclear : ¬UndoLog.place root <+: r.target.place cwd)
    (hsource : r.source.place cwd ≠ UndoLog.place root) (hdir : u.isDirAt (UndoLog.place root) ≠ true)
    (hsame : UndoLog.Same root v u) (hs : v.Sound) (hp : v.Plain) :
    ∃ v', r.Did cwd v v' ∧ UndoLog.Same root v' u' := by
  have hdir' := h.not_isDirAt hclear hdir
  cases h with
  | made kind arrived =>
    obtain ⟨v', harr, hsame'⟩ := arrived.relog hclear (Set.notMem_empty _) hsame hs hp hdir hdir'
    exact ⟨v', .made kind harr, hsame'⟩
  | @moved source target time l n b k _ _ absolute descent slash unlocked same arrived =>
    have hplace := descent.place_absolute absolute cwd
    have hne : l ++ [n] ≠ UndoLog.place root := hplace ▸ hsource
    obtain ⟨v', harr, hsame'⟩ := arrived.relog hclear (Ne.symm hne) hsame hs hp hdir hdir'
    obtain ⟨k', hfile⟩ := same
    have hup : l ≠ UndoLog.place root := by
      rintro rfl
      exact hdir (arrived.sound _ n (by simp [hfile]))
    refine ⟨v', .moved absolute descent slash ?_ ⟨k', (hsame _ hne).symm.trans hfile⟩ harr, hsame'⟩
    rwa [Ne, isLocked_iff, ← hsame l hup, ← isLocked_iff]

/-- The records tell in their order of all that was done from one tree to the other. -/
inductive Trail (cwd : Place) : Tree → List UndoRecord → Tree → Prop
  | nothing {t : Tree} : Trail cwd t [] t
  | next {t t₁ t' : Tree} {r : UndoRecord} {rs : List UndoRecord} (did : r.Did cwd t t₁) (rest : Trail cwd t₁ rs t') :
      Trail cwd t (r :: rs) t'

/-- The log left aside, all that the records tell of was done without a break. -/
lemma Tell.trail (h : Tell cwd root t rs u) (hstraight : ∀ r ∈ rs, r.Straight cwd root)
    (hsources : ∀ r ∈ rs, r.source.place cwd ≠ UndoLog.place root) (hsame : UndoLog.Same root v t) (hs : v.Sound)
    (hp : v.Plain) : ∃ v', Trail cwd v rs v' ∧ UndoLog.Same root v' u := by
  induction h generalizing v with
  | nothing same => exact ⟨v, .nothing, hsame.trans same⟩
  | next same hlog did rest ih =>
    obtain ⟨hr, hrs⟩ := List.forall_mem_cons.1 hstraight
    obtain ⟨hsource, hsources⟩ := List.forall_mem_cons.1 hsources
    obtain ⟨v₁, hdid, hsame₁⟩ := did.relog hr.clear hsource hlog (hsame.trans same) hs hp
    obtain ⟨v', hrest, hsame'⟩ := ih hrs hsources hsame₁ hdid.sound hdid.plain
    exact ⟨v', .next hdid hrest, hsame'⟩

lemma Trail.tell (h : Trail cwd t rs u) (hstraight : ∀ r ∈ rs, r.Straight cwd root)
    (hlog : t.isDirAt (UndoLog.place root) ≠ true) : Tell cwd root t rs u := by
  induction h with
  | nothing => exact .nothing (.refl root _)
  | next did rest ih =>
    obtain ⟨hr, hrs⟩ := List.forall_mem_cons.1 hstraight
    exact .next (.refl root _) hlog did (ih hrs (did.not_isDirAt hr.clear hlog))

/-- A move could have been made before all those that it is apart from. -/
lemma Trail.advance (h : Trail cwd t (front ++ m :: rs) u) (hmoves : ∀ r ∈ front ++ m :: rs, r.mode = .move)
    (hapart : ∀ r ∈ front, r.Apart cwd m) : Trail cwd t (m :: front ++ rs) u := by
  induction front generalizing t with
  | nil => exact h
  | cons r front ih =>
    obtain ⟨hr, hfront⟩ := List.forall_mem_cons.1 hapart
    obtain ⟨hmode, hmodes⟩ := List.forall_mem_cons.1 hmoves
    cases h with
    | next did rest =>
      cases ih rest hmodes hfront with
      | next did' rest' =>
        obtain ⟨v, hm, hr⟩ := did.swap did' hmode (hmodes m (by simp)) hr
        exact .next hm (.next hr rest')

/-- What was done in one order could have been done in another one, if each move is apart from those that it comes to be
put before. -/
theorem Trail.reorder (h : Trail cwd t done u) (hperm : done.Perm log) (hmoves : ∀ r ∈ done, r.mode = .move)
    (hapart : ∀ r m, r ≠ m → [r, m].Sublist done → [m, r].Sublist log → r.Apart cwd m) : Trail cwd t log u := by
  induction log generalizing done t with
  | nil => rwa [hperm.eq_nil] at h
  | cons m log ih =>
    obtain ⟨front, rest, rfl, hfirst⟩ := List.eq_append_cons_of_mem (hperm.symm.subset List.mem_cons_self)
    have hrest : (front ++ rest).Perm log := (List.perm_cons m).1 (List.perm_middle.symm.trans hperm)
    have hfront : ∀ r ∈ front, r.Apart cwd m := by
      intro r hr
      refine hapart r m (fun heq => hfirst (heq ▸ hr)) ?_ ?_
      · exact List.Sublist.append (List.singleton_sublist.2 hr) (List.singleton_sublist.2 List.mem_cons_self)
      · exact (List.singleton_sublist.2 (hrest.subset (List.mem_append_left _ hr))).cons_cons m
    cases h.advance hmoves hfront with
    | next did rest' =>
      have hsub : (front ++ rest).Sublist (front ++ m :: rest) := (List.sublist_cons_self m rest).append_left front
      exact .next did (ih rest' hrest (fun r hr => hmoves r (hsub.subset hr))
        fun r x hne hdone hlog => hapart r x hne (hdone.trans hsub) (hlog.trans (List.sublist_cons_self m log)))

end UndoRecord

end FileOrganizer
