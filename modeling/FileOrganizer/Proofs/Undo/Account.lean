import FileOrganizer.Proofs.Undo.Written

/-! The log of a session, and what is yet to be noted in it, account for all that was done. -/

namespace FileOrganizer

open FileOrganizer.Tree FileOrganizer.Disk

variable {host : Host} {cwd root : Place} {folder : Path} {t t' u u' : Tree} {session : OpenSession}
  {due : List UndoRecord} {r : UndoRecord}

/-- What came into being is the only thing that could be a link. -/
lemma Tree.Arrived.plain_after {p : Path} {x : Node} {gone : Set Place} (h : Arrived cwd p x gone t t')
    (hx : ∀ s, x ≠ .link s) : t'.Plain := by
  intro q s hq
  by_cases hp : q = p.place cwd
  · rw [hp, h.here] at hq
    exact hx s (Option.some.inj hq)
  · by_cases hg : q ∈ gone
    · simp [(h.files q hg).2] at hq
    · rcases h.laid q hp hg with hsame | ⟨-, -, hnew, -⟩
      · exact h.plain q s (hsame.symm.trans hq)
      · simp [hnew] at hq

namespace UndoRecord

/-- What the record tells of has no `..` in its target and leaves the log alone, and what was moved is known
by an absolute path. -/
structure Straight (cwd root : Place) (r : UndoRecord) : Prop where
  level : Part.up ∉ r.target.parts
  clear : ¬UndoLog.place root <+: r.target.place cwd
  absolute : r.mode = .move → r.source.isAbsolute = true

instance : Decidable (r.Straight cwd root) :=
  decidable_of_iff (Part.up ∉ r.target.parts ∧ ¬UndoLog.place root <+: r.target.place cwd ∧
    (r.mode = .move → r.source.isAbsolute = true)) ⟨fun ⟨h, h', h''⟩ => ⟨h, h', h''⟩, fun ⟨h, h', h''⟩ => ⟨h, h', h''⟩⟩

section

variable (h : r.Did cwd t t')

include h

lemma Did.sound : t'.Sound := by
  obtain ⟨x, gone, ha⟩ := h.arrived
  exact ha.sound'

lemma Did.plain : t'.Plain := by
  obtain ⟨x, gone, ha, hx⟩ : ∃ x gone, Arrived cwd r.target x gone t t' ∧ ∀ s, x ≠ .link s := by
    cases h with
    | made kind arrived =>
      refine ⟨_, _, arrived, ?_⟩
      rcases kind with rfl | ⟨⟨b, a, rfl⟩, -⟩ <;> simp
    | moved absolute descent slash unlocked same arrived => exact ⟨_, _, arrived, by simp⟩
  exact ha.plain_after hx

variable {q : Place} (hsrc : r.mode = .move → r.source.place cwd ≠ q)

include hsrc

/-- Only what was moved is not where it was. -/
lemma Did.keep (hq : t.node? q ≠ none) : t'.node? q = t.node? q := by
  cases h with
  | made kind arrived => exact arrived.keep hq (Set.notMem_empty q)
  | @moved source target time k n b a _ _ absolute descent slash unlocked same arrived =>
    refine arrived.keep hq fun hg => hsrc rfl ?_
    have hplace := descent.place cwd
    rw [start_absolute absolute, List.nil_append] at hplace
    exact hplace.trans hg.symm

lemma Did.bytes? (hq : t.bytes? q ≠ none) : t'.bytes? q = t.bytes? q :=
  bytes?_congr (h.keep hsrc fun hn => hq (by simp [Tree.bytes?, hn]))

/-- Off the way to the target nothing came into being. -/
lemma Did.other (hq : ¬q <+: r.target.place cwd) : t'.node? q = t.node? q := by
  by_cases hn : t.node? q = none
  · obtain ⟨x, gone, ha⟩ := h.arrived
    have hg : q ∉ gone := by
      intro hg
      obtain ⟨⟨b, a, hf⟩, -⟩ := ha.files q hg
      simp [hf] at hn
    rcases ha.laid q (fun heq => hq (heq ▸ List.prefix_rfl)) hg with hsame | ⟨hpre, -⟩
    · exact hsame
    · exact absurd hpre hq
  · exact h.keep hsrc hn

end

end UndoRecord

namespace OpenSession

lemma append_records (s : OpenSession) (host : Host) (r : UndoRecord) (t : Tree) :
    (s.append host r t).2.1.records = s.records ++ [r] := by
  unfold append add records
  cases s.log <;> rfl

/-- The session is one that can be undone, and its log is in its place as soon as there is one. -/
structure Kept (folder : Path) (root : Place) (session : OpenSession) (t : Tree) : Prop where
  home : session.folder = folder
  mode : session.mode = .move
  writable : UndoLog.Writable root t
  log : ∀ l, session.log = some l → l.folder = folder ∧ l.mode = .move ∧ l.Legible ∧
    ∃ a, t.node? (UndoLog.place root) = some (.file l.bytes a)

lemma Kept.of_node? (h : session.Kept folder root t) (hroot : t'.node? root = t.node? root)
    (hlog : t'.node? (UndoLog.place root) = t.node? (UndoLog.place root)) : session.Kept folder root t' :=
  ⟨h.home, h.mode, h.writable.of_node? hroot hlog, by rw [hlog]; exact h.log⟩

lemma Kept.add (h : session.Kept folder root t) (hnow : host.now.Legible) (hr : r.time.Legible) :
    (session.add host r).folder = folder ∧ (session.add host r).mode = .move ∧ (session.add host r).Legible := by
  have hold : (session.log.getD ⟨host.sessionId, session.folder, session.mode, host.now, []⟩).folder = folder ∧
      (session.log.getD ⟨host.sessionId, session.folder, session.mode, host.now, []⟩).mode = .move ∧
      (session.log.getD ⟨host.sessionId, session.folder, session.mode, host.now, []⟩).Legible := by
    cases hlog : session.log with
    | none => exact ⟨h.home, h.mode, hnow, by simp⟩
    | some l =>
      obtain ⟨hfolder, hmode, hlegible, -⟩ := h.log l hlog
      exact ⟨hfolder, hmode, hlegible⟩
  obtain ⟨hfolder, hmode, hcreated, hrecords⟩ := hold
  unfold OpenSession.add
  refine ⟨hfolder, ?_, hcreated, fun m hm => ?_⟩
  · dsimp only
    split
    · rfl
    · exact hmode
  · rcases List.mem_append.1 hm with hm | hm
    · exact hrecords m hm
    · exact List.mem_singleton.1 hm ▸ hr

/-- A record is written to the log, and nothing else is changed. -/
lemma Kept.append (hreach : UndoLog.Reachable folder root) (h : session.Kept folder root t) (hs : t.Sound) (hp : t.Plain)
    (hnow : host.now.Legible) (hr : r.time.Legible) {res : Except Fault Unit} {session' : OpenSession}
    (happ : session.append host r t = (res, session', t')) :
    session'.Kept folder root t' ∧ UndoLog.Same root t t' ∧ t'.Sound ∧ t'.Plain := by
  obtain ⟨hfolder, hmode, hlegible⟩ := h.add hnow hr
  obtain ⟨a, t₁, hsave, hro, hset⟩ := hreach.save host.toActor hfolder hs hp h.writable
  simp only [OpenSession.append, hsave] at happ
  cases happ
  have hother : ∀ q, q ≠ UndoLog.place root → t'.node? q = t.node? q := fun q hq => hset.other (Ne.symm hq)
  have hdir : t.isDirAt (UndoLog.place root).dropLast = true := by
    rw [UndoLog.place, List.dropLast_concat]
    exact h.writable.dir
  refine ⟨⟨h.home, h.mode, ⟨?_, ?_, Or.inr ⟨_, a, hset.same, hro⟩⟩, ?_⟩, hother,
    hset.sound_some hs hdir (Or.inl h.writable.not_isDirAt), hset.plain hp (by simp)⟩
  · rw [isDirAt_congr (hother root UndoLog.ne_place), h.writable.dir]
  · rw [Ne, isLocked_iff, hother root UndoLog.ne_place, ← isLocked_iff]
    exact h.writable.unlocked
  · rintro l ⟨⟩
    exact ⟨hfolder, hmode, hlegible, a, hset.same⟩

end OpenSession

/-- The records of the session, and those that are due, tell in their order of all that was done since the
tree was `t`. -/
structure Account (cwd root : Place) (folder : Path) (t : Tree) (session : OpenSession) (due : List UndoRecord)
    (u : Tree) : Prop where
  sound : u.Sound
  plain : u.Plain
  kept : session.Kept folder root u
  told : UndoRecord.Tell cwd root t (session.records ++ due) u
  sources : ∀ r ∈ session.records ++ due, r.source.place cwd ≠ UndoLog.place root
  legible : ∀ r ∈ due, r.time.Legible

namespace Account

lemma start (hs : t.Sound) (hp : t.Plain) (hw : UndoLog.Writable root t) :
    Account cwd root folder t { folder := folder, mode := .move } [] t where
  sound := hs
  plain := hp
  kept := ⟨rfl, rfl, hw, by simp⟩
  told := .nothing (.refl root t)
  sources := by simp [OpenSession.records]
  legible := by simp

/-- Something was done, and its record is due. -/
lemma did (h : Account cwd root folder t session due u) (hd : r.Did cwd u u') (hr : r.Straight cwd root)
    (hsrc : r.source.place cwd ≠ UndoLog.place root) (htime : r.time.Legible) :
    Account cwd root folder t session (due ++ [r]) u' where
  sound := hd.sound
  plain := hd.plain
  kept := by
    have hroot : u'.node? root = u.node? root := by
      obtain ⟨x, gone, ha⟩ := hd.arrived
      exact ha.keep_dir h.kept.writable.dir
    exact h.kept.of_node? hroot (hd.other (fun _ => hsrc) hr.clear)
  told := by
    rw [← List.append_assoc]
    exact h.told.append (.next (.refl root u) h.kept.writable.not_isDirAt hd (.nothing (.refl root u')))
  sources m hm := by
    rw [← List.append_assoc] at hm
    rcases List.mem_append.1 hm with hm | hm
    · exact h.sources m hm
    · exact List.mem_singleton.1 hm ▸ hsrc
  legible m hm := by
    rcases List.mem_append.1 hm with hm | hm
    · exact h.legible m hm
    · exact List.mem_singleton.1 hm ▸ htime

/-- The first record that is due is noted. -/
lemma note (hreach : UndoLog.Reachable folder root) (h : Account cwd root folder t session (r :: due) u)
    (hnow : host.now.Legible) :
    Account cwd root folder t (session.append host r u).2.1 due (session.append host r u).2.2 ∧
      UndoLog.Same root u (session.append host r u).2.2 := by
  obtain ⟨hkept, hsame, hs, hp⟩ := h.kept.append hreach h.sound h.plain hnow (h.legible r List.mem_cons_self)
    (show session.append host r u = (_, _, _) from rfl)
  have hrecords : (session.append host r u).2.1.records ++ due = session.records ++ r :: due := by
    rw [OpenSession.append_records, List.append_assoc, List.singleton_append]
  refine ⟨⟨hs, hp, hkept, ?_, hrecords ▸ h.sources, fun m hm => h.legible m (List.mem_cons_of_mem r hm)⟩, hsame⟩
  rw [hrecords, ← List.append_nil (session.records ++ r :: due)]
  exact h.told.append (.nothing hsame)

end Account

end FileOrganizer
