import FileOrganizer.Proofs.Batch.Conservation
import FileOrganizer.Proofs.Time.Lenient
import FileOrganizer.Proofs.Tree.Attributes
import FileOrganizer.Proofs.Undo.Kept

/-! The log on disk tells of the session so far: after every append it is read back with all the records that were
appended, in their order, whatever the log before it was. -/

namespace FileOrganizer

open FileOrganizer.Tree

variable {who : Actor} {cwd : Place} {p folder : Path} {t t' t₀ : Tree} {bytes : ByteArray}

namespace Tree

lemma read_of_stat {l : Place} {a : Attrs} (h : t.stat cwd p = .ok (l, .file bytes a)) : t.read cwd p = .ok bytes := by
  rw [Tree.read, h]

/-- What was written by a path is read by that path, also where a link leads elsewhere. -/
lemma read_of_writeFile (hs : t.Sound) (h : writeFile who p bytes t = .ok t') : t'.read who.cwd p = .ok bytes := by
  rcases writeFile_ok hs h with ⟨l, b, a, hl, -, ht⟩ | ⟨l, hl, -, ht⟩
  · have hthere : t.node? l = some (.file b a) := node?_of_at? (stat_ok hs hl).1
    have hgrows : t.Grows t' := ht.grows fun y hy => by
      rw [hthere] at hy
      cases hy
      trivial
    obtain ⟨e, hstat, he⟩ := stat_grows hs hgrows hl
    obtain rfl : e = .file bytes { a with mtime := who.now } := Option.some.inj (he.symm.trans (at?_file.2 ht.same))
    exact read_of_stat hstat
  · exact read_of_stat (stat_of_made hs hl ht)

end Tree

/-- A moment that a date of the calendar can hold. -/
structure Instant.Representable (t : Instant) : Prop where
  proper : t.Proper
  year : Date.minYear ≤ t.date.year ∧ t.date.year ≤ Date.maxYear

lemma Instant.Representable.legible {t : Instant} (h : t.Representable) : t.Legible := ofLenient?_text h.proper h.year

/-- One call: the machine as it is then, and what is appended. -/
abbrev OpenSession.Call := Host × UndoRecord

namespace UndoLog

open OpenSession (Call)

/-- The log of a session that was begun by the first of the calls. -/
structure Tells (folder : Path) (mode : TransferKind) (calls : List Call) (l : UndoLog) : Prop where
  home : l.folder = folder
  records : l.records = calls.map (·.2)
  session : ∀ c, calls.head? = some c → l.sessionId = c.1.sessionId ∧ l.created = c.1.now
  mode : l.mode = .move ↔ mode = .move ∨ ∃ c ∈ calls, c.2.mode = .move

variable {l : UndoLog} {mode : TransferKind} {calls : List Call}

lemma Tells.legible (h : l.Tells folder mode calls) (hne : calls ≠ [])
    (htimes : ∀ c ∈ calls, c.1.now.Representable ∧ c.2.time.Representable) : l.Legible := by
  obtain ⟨c, cs, rfl⟩ := List.exists_cons_of_ne_nil hne
  constructor
  · rw [(h.session c rfl).2]
    exact (htimes c List.mem_cons_self).1.legible
  · intro r hr
    rw [h.records] at hr
    obtain ⟨c, hc, rfl⟩ := List.mem_map.1 hr
    exact (htimes c hc).2.legible

/-- A log that was saved is in its place, whatever was there. -/
lemma save_ok (hs : t.Sound) (h : l.save who t = (.ok (), t')) :
    t'.Sound ∧ t'.read who.cwd (file l.folder) = .ok l.bytes := by
  obtain ⟨_, t₁, hmake, hwrite⟩ := Disk.bind_eq_ok h
  have hs₁ : t₁.Sound := (Disk.makeDirs_addsDirs hs hmake).1
  have hwritten := Disk.change_eq_ok hwrite
  exact ⟨sound_of_writeFile hs₁ hwritten, read_of_writeFile hs₁ hwritten⟩

end UndoLog

namespace OpenSession

variable {mode : TransferKind} {calls : List Call} {s : OpenSession} {host : Host} {r : UndoRecord}

/-- Where a session stands after calls that all went through. Between them anything may be done to the tree by others,
but for the log. -/
inductive Appends (cwd : Place) (folder : Path) (mode : TransferKind) (t₀ : Tree) : List Call → OpenSession → Tree → Prop
  | opened : Appends cwd folder mode t₀ [] ⟨folder, mode, none⟩ t₀
  | append {calls : List Call} {s : OpenSession} {t : Tree} {host : Host} {r : UndoRecord}
      (before : Appends cwd folder mode t₀ calls s t) (here : host.cwd = cwd) (went : (s.append host r t).1 = .ok ()) :
      Appends cwd folder mode t₀ (calls ++ [(host, r)]) (s.append host r t).2.1 (s.append host r t).2.2
  | others {calls : List Call} {s : OpenSession} {t u : Tree} (before : Appends cwd folder mode t₀ calls s t)
      (sound : u.Sound) (same : u.read cwd (UndoLog.file folder) = t.read cwd (UndoLog.file folder)) :
      Appends cwd folder mode t₀ calls s u

/-- What is in memory of a session tells of the calls; nothing is before the first. -/
structure Tells (folder : Path) (mode : TransferKind) (calls : List Call) (s : OpenSession) : Prop where
  home : s.folder = folder
  meant : s.mode = mode
  unbegun : calls = [] → s.log = none
  begun : calls ≠ [] → ∃ l, s.log = some l ∧ l.Tells folder mode calls

lemma add_mode {l : UndoLog} (h : s.log.getD ⟨host.sessionId, s.folder, s.mode, host.now, []⟩ = l) :
    (s.add host r).mode = .move ↔ l.mode = .move ∨ r.mode = .move := by
  simp only [add, h]
  by_cases hr : r.mode = .move
  · simp [hr]
  · simp [hr]

/-- One more call is told of, the first one as those after it. -/
lemma Tells.add (h : s.Tells folder mode calls) (host : Host) (r : UndoRecord) :
    (s.add host r).Tells folder mode (calls ++ [(host, r)]) := by
  rcases eq_or_ne calls [] with rfl | hne
  · have hlog := h.unbegun rfl
    have hold : s.log.getD ⟨host.sessionId, s.folder, s.mode, host.now, []⟩ =
        ⟨host.sessionId, s.folder, s.mode, host.now, []⟩ := by rw [hlog, Option.getD_none]
    exact
      { home := by
          simp only [OpenSession.add, hold]
          exact h.home
        records := by simp only [OpenSession.add, hold, List.nil_append, List.map_cons, List.map_nil]
        session := by
          rintro c ⟨⟩
          simp only [OpenSession.add, hold, and_self]
        mode := by simp [add_mode hold, h.meant] }
  · obtain ⟨l, hlog, htells⟩ := h.begun hne
    have hold : s.log.getD ⟨host.sessionId, s.folder, s.mode, host.now, []⟩ = l := by rw [hlog, Option.getD_some]
    exact
      { home := by simp only [OpenSession.add, hold, htells.home]
        records := by simp only [OpenSession.add, hold, htells.records, List.map_append, List.map_cons, List.map_nil]
        session := by
          intro c hc
          rw [List.head?_append_of_ne_nil _ hne] at hc
          simpa only [OpenSession.add, hold] using htells.session c hc
        mode := by
          rw [add_mode hold, htells.mode]
          simp only [List.mem_append, List.mem_singleton, or_and_right, exists_or, exists_eq_left, or_assoc] }

lemma Tells.append (h : s.Tells folder mode calls) (host : Host) (r : UndoRecord) (t : Tree) :
    (s.append host r t).2.1.Tells folder mode (calls ++ [(host, r)]) where
  home := h.home
  meant := h.meant
  unbegun := by simp
  begun _ := ⟨_, rfl, h.add host r⟩

/-- The log on disk is that in memory, or the one before the session as long as nothing was appended. -/
structure OnDisk (cwd : Place) (folder : Path) (t₀ : Tree) (s : OpenSession) (t : Tree) : Prop where
  sound : t.Sound
  earlier : s.log = none → t.read cwd (UndoLog.file folder) = t₀.read cwd (UndoLog.file folder)
  current : ∀ l, s.log = some l → t.read cwd (UndoLog.file folder) = .ok l.bytes

lemma OnDisk.append (h : s.OnDisk cwd folder t₀ t) (hfolder : (s.add host r).folder = folder) (hcwd : host.cwd = cwd)
    (hok : (s.append host r t).1 = .ok ()) : (s.append host r t).2.1.OnDisk cwd folder t₀ (s.append host r t).2.2 := by
  have hsave : (s.add host r).save host.toActor t = (.ok (), (s.append host r t).2.2) := Prod.ext hok rfl
  obtain ⟨hsound, hread⟩ := UndoLog.save_ok h.sound hsave
  rw [hfolder, hcwd] at hread
  refine ⟨hsound, nofun, ?_⟩
  rintro l ⟨⟩
  exact hread

/-- After every run of calls memory tells of them, and the disk of the memory. -/
lemma Appends.tells (ht₀ : t₀.Sound) (h : Appends cwd folder mode t₀ calls s t) :
    s.Tells folder mode calls ∧ s.OnDisk cwd folder t₀ t := by
  induction h with
  | opened => exact ⟨⟨rfl, rfl, fun _ => rfl, fun hne => absurd rfl hne⟩, ⟨ht₀, fun _ => rfl, nofun⟩⟩
  | append before here went ih =>
    obtain ⟨htells, hdisk⟩ := ih
    exact ⟨htells.append _ _ _, hdisk.append (htells.add _ _).home here went⟩
  | others before sound same ih =>
    obtain ⟨htells, hdisk⟩ := ih
    exact ⟨htells, ⟨sound, fun hnone => same.trans (hdisk.earlier hnone), fun l hl => same.trans (hdisk.current l hl)⟩⟩

/-- As long as nothing was appended, the log on disk is byte for byte what it was; from the first record on it is read
as the log of this session, with all records so far. -/
theorem appended_log_loaded (who : Actor) (ht₀ : t₀.Sound) (h : Appends cwd folder mode t₀ calls s t)
    (htimes : ∀ c ∈ calls, c.1.now.Representable ∧ c.2.time.Representable) (hcwd : who.cwd = cwd) :
    (calls = [] → t.read cwd (UndoLog.file folder) = t₀.read cwd (UndoLog.file folder)) ∧
      (calls ≠ [] → ∃ l : UndoLog, UndoLog.load who t folder = .ok (some l) ∧ l.Tells folder mode calls) := by
  obtain ⟨htells, hdisk⟩ := h.tells ht₀
  refine ⟨fun hnil => hdisk.earlier (htells.unbegun hnil), fun hne => ?_⟩
  obtain ⟨l, hlog, hl⟩ := htells.begun hne
  exact ⟨l, UndoLog.load_of_read (hl.legible hne htimes) (hcwd ▸ hdisk.current l hlog), hl⟩

/-- A directory with the log of an earlier session in it. -/
def earlier : Tree := ⟨[(["r"], .dir ⟨⟨0, 0⟩, false⟩), (["r", UndoLog.fileName], .file ⟨#[91, 93]⟩ ⟨⟨0, 0⟩, false⟩)]⟩

/-- A copy, then a move to a directory of another name. -/
def twoCalls : List Call := [
  (Job.plainHost, ⟨⟨"/r/a.txt"⟩, ⟨"/r/文档/a.txt"⟩, .copy, ⟨1483228799, 1500000000⟩⟩),
  (Job.plainHost, ⟨⟨"/r/\"b\"\n"⟩, ⟨"/r/b"⟩, .move, ⟨253402300800, 1⟩⟩)]

lemma appends_twoCalls : ∃ s t, Appends [] ⟨"/r"⟩ .copy earlier twoCalls s t := by
  have hfirst : Appends [] ⟨"/r"⟩ .copy earlier (twoCalls.take 1) _ _ := .append .opened rfl (by rfl)
  exact ⟨_, _, hfirst.append rfl (by rfl)⟩

theorem appended_log_loaded_two : (earlier.Sound ∧ ∀ c ∈ twoCalls, c.1.now.Representable ∧ c.2.time.Representable) ∧
    ∃ s t, Appends [] ⟨"/r"⟩ .copy earlier twoCalls s t ∧ ∃ l : UndoLog,
      UndoLog.load Job.plainHost.toActor t ⟨"/r"⟩ = .ok (some l) ∧ l.records = twoCalls.map (·.2) ∧ l.mode = .move := by
  have hsound : earlier.Sound := sound_of_entries (by decide)
  have htimes : ∀ c ∈ twoCalls, c.1.now.Representable ∧ c.2.time.Representable := by
    simp only [twoCalls, List.forall_mem_cons, List.not_mem_nil, false_implies, implies_true, and_true]
    have hnow : Job.plainHost.now.Representable := ⟨Or.inl (by decide), by decide +kernel⟩
    exact ⟨⟨hnow, Or.inr (by decide), by decide +kernel⟩, hnow, Or.inl (by decide), by decide +kernel⟩
  obtain ⟨s, t, hrun⟩ := appends_twoCalls
  obtain ⟨l, hload, htells⟩ := (appended_log_loaded Job.plainHost.toActor hsound hrun htimes rfl).2 (by decide)
  have hmoved : ∃ c ∈ twoCalls, c.2.mode = .move := ⟨_, List.mem_cons_of_mem _ List.mem_cons_self, rfl⟩
  exact ⟨⟨hsound, htimes⟩, s, t, hrun, l, hload, htells.records, htells.mode.2 (Or.inr hmoved)⟩

end OpenSession

end FileOrganizer
