import FileOrganizer.Proofs.Undo.TakeBack

/-! Taking back all records of a log, the last one first. -/

namespace FileOrganizer

open FileOrganizer.Tree FileOrganizer.Disk

variable {who : Actor} {cwd root : Place} {stop : Path} {O : Leeway} {t t₁ t' t'' u : Tree}
  {rs rs' : List UndoRecord} {r : UndoRecord} {p : Rollback.Progress} {store : TagStore}

/-- The trees are the same, except for the log. -/
def UndoLog.Same (root : Place) (t t' : Tree) : Prop := ∀ q, q ≠ UndoLog.place root → t'.node? q = t.node? q

/-- The records tell in their order of all that was done from one tree to the other, except for the log. -/
inductive UndoRecord.Tell (cwd root : Place) : Tree → List UndoRecord → Tree → Prop
  | nothing {t t' : Tree} (same : UndoLog.Same root t t') : Tell cwd root t [] t'
  | next {t t₁ t₂ t' : Tree} {r : UndoRecord} {rs : List UndoRecord} (same : UndoLog.Same root t t₁)
      (log : t₁.isDirAt (UndoLog.place root) ≠ true) (did : r.Did cwd t₁ t₂) (rest : Tell cwd root t₂ rs t') :
      Tell cwd root t (r :: rs) t'

namespace UndoLog

lemma Same.refl (root : Place) (t : Tree) : Same root t t := fun _ _ => rfl

lemma Same.trans (h : Same root t t') (h' : Same root t' t'') : Same root t t'' := fun q hq =>
  (h' q hq).trans (h q hq)

lemma ne_place : root ≠ place root := by simp [place]

end UndoLog

namespace UndoRecord

lemma Tell.of_same (h : UndoLog.Same root t t') (ht : Tell cwd root t' rs t'') : Tell cwd root t rs t'' := by
  cases ht with
  | nothing same => exact .nothing (h.trans same)
  | next same log did rest => exact .next (h.trans same) log did rest

lemma Tell.append (h : Tell cwd root t rs t') (h' : Tell cwd root t' rs' t'') : Tell cwd root t (rs ++ rs') t'' := by
  induction h with
  | nothing same => exact h'.of_same same
  | next same log did rest ih => exact .next same log did (ih h')

lemma Did.isDirAt (h : r.Did cwd t t') {q : Place} (hd : t.isDirAt q = true) : t'.isDirAt q = true := by
  cases h with
  | made kind arrived => exact arrived.isDirAt hd
  | moved absolute descent slash unlocked same arrived => exact arrived.isDirAt hd

lemma Did.arrived (h : r.Did cwd t t') : ∃ x gone, Arrived cwd r.target x gone t t' := by
  cases h with
  | made kind arrived => exact ⟨_, _, arrived⟩
  | moved absolute descent slash unlocked same arrived => exact ⟨_, _, arrived⟩

/-- The log does not become a directory. -/
lemma Did.not_isDirAt (h : r.Did cwd t t') {q : Place} (hq : ¬q <+: r.target.place cwd)
    (hd : t.isDirAt q ≠ true) : t'.isDirAt q ≠ true := by
  obtain ⟨x, gone, ha⟩ := h.arrived
  have hne : q ≠ r.target.place cwd := fun heq => hq (heq ▸ List.prefix_rfl)
  by_cases hg : q ∈ gone
  · exact not_isDirAt_of_none (ha.files q hg).2
  · rcases ha.laid q hne hg with hsame | ⟨hpre, -⟩
    · rwa [isDirAt_congr hsame]
    · exact absurd hpre hq

end UndoRecord

namespace Rollback

lemma Back.of_same (hlog : t.isDirAt (UndoLog.place root) ≠ true) (h : UndoLog.Same root t t')
    (hb : Back O root t' u) : Back O root t u := by
  refine ⟨hb.sound, hb.plain, hb.log, fun q hq => ?_, fun q hin hne hO hd hl he n => ?_⟩
  · rcases hb.agrees q hq with h' | ⟨h₁, h₂⟩ | ⟨h₁, h₂, h₃, h₄⟩ | ⟨h₁, h₂, h₃⟩
    · exact .same (h'.trans (h q hq))
    · exact .file ((h q hq).symm.trans h₁) h₂
    · refine .gone ((h q hq).symm.trans h₁) h₂ (fun hlock => h₃ ?_) h₄
      rw [isLocked_iff] at hlock ⊢
      have hup : q.dropLast ≠ UndoLog.place root := fun heq => hlog (heq ▸ isDirAt_iff.2 ⟨_, hlock⟩)
      exact (h _ hup).trans hlock
    · exact .left ((h q hq).symm.trans h₁) h₂ h₃
  · have hlog' : q ++ [n] ≠ UndoLog.place root := fun heq => hne (List.append_inj' heq rfl).1.symm
    exact (h _ hlog').symm.trans (hb.bare q hin hne hO hd hl he n)

lemma Back.refl (hs : t.Sound) (hp : t.Plain) (hlog : ∃ b a, t.node? (UndoLog.place root) = some (.file b a)) :
    Back O root t t :=
  ⟨hs, hp, hlog, fun _ _ => .same rfl, fun _ _ _ _ _ _ he n => he n⟩

lemma steps_cons : steps who stop (r :: rs) p = step who stop (steps who stop rs p) r := by
  simp [steps, List.foldl_append]

/-- What the records tell of is taken back, from the last one to the first. -/
theorem steps_back (hO : Rising O) (hstop : stop.parts = .root :: root.map Part.name)
    (hroot : t.isDirAt root = true) (hlog : t.isDirAt (UndoLog.place root) ≠ true)
    (h : UndoRecord.Tell who.cwd root t rs t') (hapt : ∀ r ∈ rs, Apt O who.cwd root stop r)
    (hb : Back O root t' p.tree) :
    Back O root t (steps who stop rs p).tree ∧ (steps who stop rs p).report.errors = p.report.errors := by
  induction h with
  | nothing same => exact ⟨hb.of_same hlog same, rfl⟩
  | @next t t₁ t₂ t' r rs same hlog₁ did rest ih =>
    have hroot₁ : t₁.isDirAt root = true := by rwa [isDirAt_congr (same root UndoLog.ne_place)]
    obtain ⟨x, gone, harr⟩ := did.arrived
    have hr := hapt r (by simp)
    obtain ⟨hback, herrors⟩ := ih (did.isDirAt hroot₁) (did.not_isDirAt hr.log hlog₁)
      (fun r' hr' => hapt r' (by simp [hr'])) hb
    obtain ⟨hback', herrors'⟩ := step_back hO hstop hroot₁ hlog₁ did hr hback
    rw [steps_cons]
    exact ⟨hback'.of_same hlog same, herrors'.trans herrors⟩

end Rollback

end FileOrganizer
