import FileOrganizer.Proofs.Batch.Placement
import FileOrganizer.Proofs.Tags.Trial

/-! A rule that takes away duplicates leaves a copy of every content, as long as no copy that it counts is in the trash
or is the log. -/

namespace FileOrganizer

open FileOrganizer.Tree FileOrganizer.Disk

variable {s : Setting} {mode : TransferKind} {t t' : Tree} {cwd log : Place} {c : ByteArray} {C : Set ByteArray}
  {X Y : Set Place} {p : Path} {folder : Path} {f : FileInfo} {a : Action} {w : Workspace} {b : Batch} {rule : Rule}
  {fs : List FileInfo} {ms : List PlannedTransfer}

namespace Tree

/-- Each of the contents is that of a file outside of `X`. -/
def Holds (X : Set Place) (C : Set ByteArray) (t : Tree) : Prop := ∀ c ∈ C, ∃ q ∉ X, t.bytes? q = some c

lemma Holds.step {l : Place} (h : t.Holds X C) (hst : t.Steady {l} t')
    (hl : ∀ c, t.bytes? l = some c → ∃ q ∉ X, t'.bytes? q = some c) : t'.Holds X C := by
  intro c hc
  obtain ⟨q, hq, hbytes⟩ := h c hc
  by_cases heq : q = l
  · exact hl c (heq ▸ hbytes)
  · exact ⟨q, hq, hst.bytes q heq c hbytes⟩

lemma Holds.steady (h : t.Holds X C) (hst : t.Steady Y t') (hY : Y ⊆ X) : t'.Holds X C := fun c hc =>
  (h c hc).imp fun _ hq => ⟨hq.1, hst.bytes _ (fun hy => hq.1 (hY hy)) c hq.2⟩

end Tree

/-- The places at which a copy is as good as lost: those in the trash, and that of the log. -/
def Setting.lost (s : Setting) (log : Place) : Set Place := {q | q = log ∨ s.trash.place s.host.cwd <+: q}

/-- What counts as a copy of the file of an action is not as good as lost, and no planned transfer leads to where it
would be. -/
structure Stage.Lasts (s : Setting) (log : Place) (st : Stage) : Prop where
  digest : Set.InjOn s.host.digest {c | ∃ l, st.work.tree.bytes? l = some c}
  twin : ∀ f a, st.deed = .act f a → ∀ o c, st.work.store.print o ≠ none → st.work.tree.read s.host.cwd o = .ok c →
    st.work.tree.read s.host.cwd f.path = .ok c → o.place s.host.cwd ≠ f.path.place s.host.cwd →
      o.place s.host.cwd ∉ s.lost log
  target : ∀ m, st.deed = .transfer m → m.target.place s.host.cwd ∉ s.lost log

namespace Condition

lemma twin_of_isDuplicate (hcwd : ∀ n ∈ s.host.cwd, Proper n) (hdry : s.config.dryRun = false) (hs : w.tree.Sound)
    (hp : w.tree.Plain) (hstore : w.store.Sound s.host.toActor)
    (hdigest : Set.InjOn s.host.digest {c | ∃ l, w.tree.bytes? l = some c})
    (hread : w.tree.read s.host.cwd f.path = .ok c) (h : isDuplicate.holds (w.sight s) f = true) :
    ∃ o, w.store.print o ≠ none ∧ w.tree.read s.host.cwd o = .ok c ∧
      o.place s.host.cwd ≠ f.path.place s.host.cwd := by
  have hview : (w.sight s).view = ⟨w.store, none⟩ := by
    unfold Workspace.sight Workspace.view
    rw [if_neg (by simp [hdry])]
  unfold holds at h
  rw [hview, View.twin?_direct] at h
  rcases @TagStore.twin?_of_read s.host _ _ _ _ hstore.1 hread with ⟨-, x, hx, hsome⟩ | ⟨-, herror⟩
  · have hx' : w.store.twin? (w.sight s).host (w.sight s).tree f.path = .ok x := hx
    rw [hx'] at h
    obtain ⟨o, hne, ⟨print, hprint, -⟩, d, hd, hdd⟩ := hsome.1 (by cases x <;> simp_all)
    obtain rfl : c = d := hdigest ⟨_, bytes?_of_read hs hp hread⟩ ⟨_, bytes?_of_read hs hp hd⟩ hdd
    -- A twin is known under another path; that it is at another place needs that a file is on record under one path only.
    refine ⟨o, by simp [hprint], hd, fun hplace => hne ?_⟩
    have hkey := (key_eq_iff hcwd hd hread).2 hplace
    rwa [Trial.key_of_print hstore hprint] at hkey
  · have herror' : w.store.twin? (w.sight s).host (w.sight s).tree f.path = .error .badDatabase := herror
    rw [herror'] at h
    simp at h

end Condition

namespace Action

lemma run_deletes (ha : a = .delete ∨ a = .deleteToTrash) (hcwd : ∀ n ∈ s.host.cwd, Proper n)
    (hdry : s.config.dryRun = false) (hs : w.tree.Sound) (hp : w.tree.Plain) (hstore : w.store.Sound s.host.toActor)
    (hread : w.tree.read s.host.cwd f.path = .ok c) :
    w.tree.Steady {f.path.place s.host.cwd} (a.run s f w).2.tree ∧ (a.run s f w).2.store.Sound s.host.toActor := by
  unfold run
  cases hj : a.judge s w f with
  | error r => exact ⟨.refl hs hp, hstore⟩
  | ok task =>
    dsimp only
    rw [if_neg (by simp [hdry])]
    rcases ha with rfl | rfl
    · obtain ⟨rfl, -⟩ := judgeDelete_ok hj
      unfold Task.perform
      dsimp only
      rw [Workspace.disk_eq]
      unfold Disk.change
      cases hremove : removeFile s.host.toActor f.path w.tree with
      | error e => exact ⟨.refl hs hp, hstore⟩
      | ok t' => exact ⟨removeFile_steady hs hp hremove, hstore⟩
    · obtain ⟨rfl, -⟩ := judgeDiscard_ok hj
      unfold Task.perform
      dsimp only
      rcases Task.moveTo_cases (w := (w.claim s.host.cwd s.trash f.name).2) hs hp hread _ _ _ with
        ⟨-, hs', hadd, heq⟩ | ⟨-, hmoved, -, heq⟩
      · rw [heq]
        exact ⟨hadd.steady hp hs', hstore⟩
      · rw [heq]
        exact ⟨hmoved.steady, hstore.rename (key_key hcwd hmoved.read)⟩

end Action

namespace Rule

variable {cond : Condition} (hcond : rule.conditions = [cond]) (hact : rule.actions = [a])

include hcond

lemma matches?_single : rule.matches? (w.sight s) f = cond.holds (w.sight s) f := by
  unfold matches?
  cases rule.mode <;> simp [hcond]

include hact

lemma runAll_single : runAll s [rule] f w =
    if cond.holds (w.sight s) f then
      ({ origin := f.path, file := f, matched := [rule.name] } : Outcome).runAction s rule.name a w
    else ({ origin := f.path, file := f }, w) := by
  unfold runAll
  rw [Outcome.runRules]
  dsimp only
  rw [matches?_single hcond, hact]
  split
  · rw [Outcome.runActions]
    dsimp only
    split
    · rw [if_pos (by simp)]
      rfl
    · rw [Outcome.runActions]
      dsimp only
      split <;> rfl
  · rfl

lemma mem_ruleStages_single (h : cond.holds (w.sight s) f = true) :
    ⟨.act (Outcome.refresh s w f) a, w⟩ ∈ Outcome.ruleStages s [rule] { origin := f.path, file := f } w := by
  rw [Outcome.ruleStages, if_pos (by rwa [matches?_single hcond])]
  dsimp only
  rw [hact, Outcome.actionStages]
  exact List.mem_append_left _ List.mem_cons_self

end Rule

namespace Batch

section

variable (ha : a = .delete ∨ a = .deleteToTrash) (hcond : rule.conditions = [.isDuplicate]) (hact : rule.actions = [a])
  (hcwd : ∀ n ∈ s.host.cwd, Proper n) (hdry : s.config.dryRun = false)

include ha hcond hact hcwd hdry

/-- The rule takes away a file only if there is another one that has its bytes, and that one stays. -/
lemma file_holds (hs : w.tree.Sound) (hp : w.tree.Plain) (hstore : w.store.Sound s.host.toActor)
    (hread : w.tree.read s.host.cwd f.path = .ok c)
    (hst : ∀ st ∈ Outcome.ruleStages s [rule] { origin := f.path, file := f } w, st.Lasts s log)
    (h : w.tree.Holds (s.lost log) C) :
    w.tree.Steady {f.path.place s.host.cwd} (Rule.runAll s [rule] f w).2.tree ∧
      (Rule.runAll s [rule] f w).2.store.Sound s.host.toActor ∧
      (Rule.runAll s [rule] f w).2.tree.Holds (s.lost log) C := by
  rw [Rule.runAll_single hcond hact]
  split
  · next hdup =>
    have hlasts := hst _ (Rule.mem_ruleStages_single hcond hact hdup)
    obtain ⟨o, hprint, ho, hne⟩ := Condition.twin_of_isDuplicate hcwd hdry hs hp hstore hlasts.digest hread hdup
    have hread' := Outcome.refresh_read (o := { origin := f.path, file := f }) hcwd hs hp hread
    have hplace : (Outcome.refresh s w f).path.place s.host.cwd = f.path.place s.host.cwd := (Outcome.refresh_path hcwd w f).1
    obtain ⟨hsteady, hstore'⟩ := Action.run_deletes ha hcwd hdry hs hp hstore hread'
    have hkept := hlasts.twin _ _ rfl o c hprint ho hread' (by rwa [hplace])
    rw [hplace] at hsteady
    obtain ⟨g, -, hrun⟩ := Outcome.runAction_eq hdry { origin := f.path, file := f, matched := [rule.name] } rule.name a w
    rw [hrun]
    -- The one content that may be gone from its place is that of the file, and its twin has it still.
    refine ⟨hsteady, hstore', h.step hsteady fun d hd => ?_⟩
    obtain rfl : c = d := Option.some.inj ((bytes?_of_read hs hp hread).symm.trans hd)
    exact ⟨_, hkept, hsteady.bytes _ hne c (bytes?_of_read hs hp ho)⟩
  · exact ⟨.refl hs hp, hstore, h⟩

lemma runRules_holds (hs : b.work.tree.Sound) (hp : b.work.tree.Plain) (hstore : b.work.store.Sound s.host.toActor)
    (hlog : (UndoLog.file folder).place s.host.cwd = log) (hin : b.IsIn folder)
    (hgiven : Given s.host.cwd log b.work.tree fs) (hst : ∀ st ∈ fileStages s [rule] fs b, st.Lasts s log)
    (h : b.work.tree.Holds (s.lost log) C) :
    b.work.tree.Steady (insert log (takenPlaces s.host.cwd fs (runRules s [rule] fs b).1))
        (runRules s [rule] fs b).2.work.tree ∧
      (runRules s [rule] fs b).2.work.tree.Holds (s.lost log) C := by
  induction fs generalizing b with
  | nil => exact ⟨.refl hs hp, h⟩
  | cons f fs ih =>
    obtain ⟨b', hrun, hin', hrules, hrest, hstore', hnotes⟩ := runRules_cons (s := s) [rule] f fs hin
    obtain ⟨c, hread⟩ := hgiven.read f List.mem_cons_self
    obtain ⟨hsteady, hsound, hholds⟩ := file_holds ha hcond hact hcwd hdry hs hp hstore hread
      (fun st hmem => hst st (hrules st hmem)) h
    have huntaken : (Rule.runAll s [rule] f b.work).1.handled = false →
        Rule.runAll s [rule] f b.work = ({ origin := f.path, file := f }, b.work) := Outcome.runRules_unhandled
    rw [hlog] at hnotes
    have hsteady' := hnotes hsteady.sound hsteady.plain
    have hboth : b.work.tree.Steady {f.path.place s.host.cwd, log} b'.work.tree :=
      (hsteady.mono (by simp)).trans (hsteady'.mono (by simp))
    obtain ⟨hgiven', -, hother⟩ := hgiven.cons
    have hnext := hgiven'.steady hs hp hboth fun q hq => by simpa using hother q hq
    obtain ⟨hlater, hend⟩ := ih hboth.sound hboth.plain (hstore' ▸ hsound) hin' hnext (fun st hmem => hst st (hrest st hmem))
      (hholds.steady hsteady' fun q hq => Or.inl hq)
    rw [hrun]
    exact ⟨steady_cons _ hsteady hsteady' (fun hno => by rw [huntaken hno]) hlater, hend⟩

end

lemma transferAll_holds (hs : b.work.tree.Sound) (hp : b.work.tree.Plain)
    (hlog : (UndoLog.file folder).place s.host.cwd = log) (hin : b.IsIn folder)
    (hsourced : Sourced s.host.cwd log b.work.tree ms)
    (hst : ∀ st ∈ transferStages s mode ms b, st.Lasts s log) (h : b.work.tree.Holds (s.lost log) C) :
    (transferAll s.host mode ms b).2.work.tree.Holds (s.lost log) C := by
  induction ms generalizing b with
  | nil => exact h
  | cons m ms ih =>
    obtain ⟨c, hc⟩ := hsourced.read m List.mem_cons_self
    rw [transferStages] at hst
    have hlasts : (⟨.transfer m, b.work⟩ : Stage).Lasts s log := hst _ (List.mem_append_left _ List.mem_cons_self)
    obtain ⟨hsteady, hwork⟩ := transferWork_follows hs hp hc (Prod.mk.eta (p := transferWork s.host mode m b.work.tree)).symm
    obtain ⟨hnote, -⟩ := transfer_cases hin hsteady.sound hsteady.plain
    rw [hlog] at hnote
    have hmoved : (transferWork s.host mode m b.work.tree).2.Holds (s.lost log) C := by
      rcases hwork with ⟨-, hgot, -⟩ | ⟨-, hstay⟩
      · refine h.step hsteady fun d hd => ?_
        obtain rfl : c = d := Option.some.inj ((bytes?_of_read hs hp hc).symm.trans hd)
        exact ⟨_, hlasts.target m rfl, bytes?_of_read hsteady.sound hsteady.plain hgot⟩
      · exact h.steady hstay (Set.empty_subset _)
    have hboth : b.work.tree.Steady {m.source.place s.host.cwd, log} (transfer s.host mode m b).2.work.tree :=
      (hsteady.mono (by simp)).trans (hnote.mono (by simp))
    exact ih hboth.sound hboth.plain (hin.transfer s.host m) (hsourced.tail hs hp hboth)
      (fun st hmem => hst st (List.mem_append_right _ hmem)) (hmoved.steady hnote fun q hq => Or.inl hq)

lemma run_holds {profile : Profile} {files : List FileInfo} (ha : a = .delete ∨ a = .deleteToTrash)
    (hrules : profile.rules = [rule]) (hcond : rule.conditions = [.isDuplicate]) (hact : rule.actions = [a])
    (hcwd : ∀ n ∈ s.host.cwd, Proper n) (hdry : s.config.dryRun = false) (hs : b.work.tree.Sound) (hp : b.work.tree.Plain)
    (hstore : b.work.store.Sound s.host.toActor) (hlog : (UndoLog.file folder).place s.host.cwd = log)
    (hin : b.IsIn folder) (hgiven : Given s.host.cwd log b.work.tree files)
    (hst : ∀ st ∈ stages s mode profile files b, st.Lasts s log) (h : b.work.tree.Holds (s.lost log) C) :
    (b.run s profile mode files).2.work.tree.Holds (s.lost log) C := by
  have hseen := hgiven.sublist (List.filter_sublist (p := fun f => !(s.config.skipHidden && f.hidden)))
  unfold stages at hst
  unfold Batch.run
  dsimp only at hst ⊢
  generalize files.filter (fun f => !(s.config.skipHidden && f.hidden)) = visible at hseen hst ⊢
  rw [hrules] at hst ⊢
  have hlen := runRules_length (s := s) [rule] visible b
  obtain ⟨hsteady, hholds⟩ := runRules_holds ha hcond hact hcwd hdry hs hp hstore hlog hin hseen
    (fun st hmem => hst st (List.mem_append_left _ hmem)) h
  have hin' := hin.runRules (s := s) [rule] visible
  generalize runRules s [rule] visible b = x at *
  obtain ⟨os, b'⟩ := x
  dsimp only at *
  have htree : (planRest s profile.categories mode visible os b'.work).2.tree = b'.work.tree := planRest_tree _ _ _ _
  have hsources : ((planRest s profile.categories mode visible os b'.work).1.map (·.source)).Sublist
      ((untaken visible os).map (·.path)) := planRest_sources _ _ _ _
  generalize planRest s profile.categories mode visible os b'.work = y at *
  obtain ⟨moves, w⟩ := y
  dsimp only at *
  rw [runPlan, if_neg (by simp [hdry])]
  rw [if_neg (by simp [hdry])] at hst
  rw [← htree] at hsteady hholds
  obtain ⟨hsourced, -⟩ := (hseen.untaken hs hp hlen hsteady).sources hsources
  exact transferAll_holds (b := { b' with work := w }) hsteady.sound hsteady.plain hlog (hin'.of_session rfl) hsourced
    (fun st hmem => hst st (List.mem_append_right _ hmem)) hholds

end Batch

/-- Do different contents have different digests, and is no copy that counts in the trash or the log? -/
def Stage.isLasting (s : Setting) (log : Place) (st : Stage) : Bool :=
  let isLost (q : Place) : Bool := q = log || s.trash.place s.host.cwd <+: q
  (st.work.tree.entries.all fun e => st.work.tree.entries.all fun e' => match e.2, e'.2 with
    | .file b _, .file b' _ => s.host.digest b ≠ s.host.digest b' || b.data = b'.data
    | _, _ => true) &&
  match st.deed with
  | .act f _ => st.work.store.files.all fun e =>
      e.2.print = none || (st.work.tree.read s.host.cwd e.1).toOption.map ByteArray.data ≠
        (st.work.tree.read s.host.cwd f.path).toOption.map ByteArray.data ||
        e.1.place s.host.cwd = f.path.place s.host.cwd || !isLost (e.1.place s.host.cwd)
  | .transfer m => !isLost (m.target.place s.host.cwd)
  | .note .. => true

lemma Stage.lasts_of_isLasting {st : Stage} (h : st.isLasting s log = true) : st.Lasts s log := by
  unfold isLasting at h
  rw [Bool.and_eq_true] at h
  obtain ⟨hdigest, hdeed⟩ := h
  refine ⟨?_, ?_, ?_⟩
  · rintro c ⟨l, hc⟩ d ⟨m, hd⟩ heq
    obtain ⟨_, hc⟩ := mem_of_bytes? hc
    obtain ⟨_, hd⟩ := mem_of_bytes? hd
    have hone := List.all_eq_true.1 (List.all_eq_true.1 hdigest _ hc) _ hd
    exact ByteArray.ext (by simpa [heq] using hone)
  · intro f a hact o c hprint ho hf hne
    rw [hact] at hdeed
    obtain ⟨print, hprint⟩ := Option.ne_none_iff_exists'.1 hprint
    obtain ⟨row, hrow, hr⟩ := TagStore.print_eq_some.1 hprint
    have hone := List.all_eq_true.1 hdeed _ (Table.mem_of_get? hrow)
    simpa [Setting.lost, hr, ho, hf, hne] using hone
  · intro m hm
    rw [hm] at hdeed
    simpa [Setting.lost] using hdeed

namespace Job

variable {j : Job} {root folder root' : Path} {files : List FileInfo} {store : TagStore}

/-- Taking away duplicates leaves a file outside of the trash for every content that a file of the batch had, as long
as no copy that counts is in the trash or is the log, and nothing is moved to there by plan. -/
theorem apply_keeps_last (hs : t.Sound) (hp : t.Plain) (hcwd : ∀ n ∈ j.host.cwd, Proper n)
    (hfolder : j.absoluteRoot root = .ok folder) (hroot : j.absoluteRoot folder = .ok root')
    (hvalid : j.profile.validate = .ok ()) (hstore : store.Sound j.host.toActor) (hrules : j.profile.rules = [rule])
    (hcond : rule.conditions = [.isDuplicate]) (hact : rule.actions = [a]) (ha : a = .delete ∨ a = .deleteToTrash)
    (hlog : (UndoLog.file folder).place j.host.cwd = log) (hgiven : Batch.Given j.host.cwd log t files)
    (hout : ∀ f ∈ files, ¬j.trash.place j.host.cwd <+: f.path.place j.host.cwd)
    (hst : ∀ st ∈ j.stages folder root' files t store, st.Lasts (j.setting root') log) :
    ∃ rs b, j.apply root files t store = .ok (rs, b) ∧ ∀ f ∈ files, ∀ c, t.read j.host.cwd f.path = .ok c →
      ∃ q, q ≠ log ∧ ¬j.trash.place j.host.cwd <+: q ∧ b.work.tree.bytes? q = some c := by
  obtain ⟨b₀, rfl, rfl, hin, hstages, happly⟩ := apply_run files t store hfolder hroot hvalid
  rw [hstages] at hst
  have hholds : b₀.work.tree.Holds ((j.setting root').lost log)
      {c | ∃ f ∈ files, b₀.work.tree.read j.host.cwd f.path = .ok c} := by
    rintro c ⟨f, hf, hc⟩
    refine ⟨f.path.place j.host.cwd, ?_, bytes?_of_read hs hp hc⟩
    rintro (heq | htrash)
    · exact hgiven.ne_log (heq ▸ List.mem_map_of_mem hf)
    · exact hout f hf htrash
  have hend : (b₀.run (j.setting root') j.profile j.mode files).2.work.tree.Holds ((j.setting root').lost log)
      {c | ∃ f ∈ files, b₀.work.tree.read j.host.cwd f.path = .ok c} := by
    cases hdry : j.config.dryRun with
    | true =>
      rw [(Batch.run_dry (s := j.setting root') hdry j.profile files b₀).1.1]
      exact hholds
    | false =>
      exact Batch.run_holds ha hrules hcond hact hcwd hdry hs hp hstore hlog hin hgiven hst hholds
  refine ⟨_, _, happly, fun f hf c hc => ?_⟩
  obtain ⟨q, hq, hbytes⟩ := hend c ⟨f, hf, hc⟩
  exact ⟨q, fun heq => hq (Or.inl heq), fun htrash => hq (Or.inr htrash), hbytes⟩

section

/-- Two files with the same bytes. -/
def twins : Tree := ⟨[
  (["r"], .dir ⟨⟨0, 0⟩, false⟩),
  (["r", "a.txt"], .file ⟨#[1]⟩ ⟨⟨0, 0⟩, false⟩),
  (["r", "b.txt"], .file ⟨#[1]⟩ ⟨⟨0, 0⟩, false⟩)]⟩

/-- The bytes of the two files are on record for these paths. -/
def onRecord (paths : List String) : TagStore where
  files := paths.map fun p => (⟨p⟩, { print := some (Content.print plainHost ⟨#[1]⟩) })

def tidyJob (a : Action) : Job :=
  { plainJob [] with profile := { rules := [{ name := "rule", conditions := [.isDuplicate], actions := [a] }] } }

end

lemma sound_onRecord {paths : List String} (hsingle : paths.Nodup) (hkeys : ∀ p ∈ paths, plainHost.key ⟨p⟩ = ⟨p⟩) :
    (onRecord paths).Sound plainHost.toActor := by
  refine ⟨?_, fun k hk => ?_⟩
  · unfold Table.Single onRecord
    rw [List.map_map]
    exact hsingle.map fun p q h => congrArg Path.text h
  · obtain ⟨e, he, rfl⟩ := List.mem_map.1 (Table.mem_keys.2 hk)
    obtain ⟨p, hp, rfl⟩ := List.mem_map.1 he
    exact hkeys p hp

lemma given_twins : Batch.Given [] ["r", ".sortkeeper-undo.json"] twins [found "/r/a.txt", found "/r/b.txt"] where
  read := List.forall_mem_cons.2 ⟨⟨⟨#[1]⟩, rfl⟩, List.forall_mem_singleton.2 ⟨⟨#[1]⟩, rfl⟩⟩
  named := List.forall_mem_cons.2 ⟨rfl, List.forall_mem_singleton.2 rfl⟩
  ne_log := by decide
  apart := by decide

/-- Of two files with the same bytes one is on record: the other goes to the trash. -/
theorem apply_keeps_last_discard : ∃ rs b,
    (tidyJob .deleteToTrash).apply ⟨"/r"⟩ [found "/r/a.txt", found "/r/b.txt"] twins (onRecord ["/r/b.txt"]) =
        .ok (rs, b) ∧
      ∀ f ∈ [found "/r/a.txt", found "/r/b.txt"], ∀ c, twins.read [] f.path = .ok c →
        ∃ q, q ≠ ["r", ".sortkeeper-undo.json"] ∧ ¬["trash"] <+: q ∧ b.work.tree.bytes? q = some c := by
  have hlog : (UndoLog.file ⟨"/r"⟩).place [] = ["r", ".sortkeeper-undo.json"] := by decide +kernel
  refine apply_keeps_last (j := tidyJob .deleteToTrash) (a := .deleteToTrash) (sound_of_entries (by decide))
    (plain_of_entries (by decide)) (by simp [tidyJob, plainJob, plainHost]) rfl rfl rfl
    (sound_onRecord (by decide) (by decide +kernel)) rfl rfl rfl (Or.inr rfl) hlog given_twins (by decide +kernel) ?_
  have hlasting : ((tidyJob .deleteToTrash).stages ⟨"/r"⟩ ⟨"/r"⟩ [found "/r/a.txt", found "/r/b.txt"] twins
      (onRecord ["/r/b.txt"])).all (Stage.isLasting ((tidyJob .deleteToTrash).setting ⟨"/r"⟩)
        ["r", ".sortkeeper-undo.json"]) = true := by decide +kernel
  exact fun st hst => Stage.lasts_of_isLasting (List.all_eq_true.1 hlasting st hst)

/-- With both files on record the first one goes to the trash, is still on record there, and counts as a copy of the
second one, which follows it. -/
theorem apply_keeps_last_fails : ¬∀ (j : Job) (root folder root' : Path) (files : List FileInfo) (t : Tree)
    (store : TagStore) (log : Place) (rule : Rule) (a : Action), t.Sound → t.Plain → (∀ n ∈ j.host.cwd, Proper n) →
    j.absoluteRoot root = .ok folder → j.absoluteRoot folder = .ok root' → j.profile.validate = .ok () →
    store.Sound j.host.toActor → j.profile.rules = [rule] → rule.conditions = [.isDuplicate] → rule.actions = [a] →
    (a = .delete ∨ a = .deleteToTrash) → j.config.safeMode = false → (UndoLog.file folder).place j.host.cwd = log →
    Batch.Given j.host.cwd log t files → (∀ f ∈ files, ¬j.trash.place j.host.cwd <+: f.path.place j.host.cwd) →
    ∃ rs b, j.apply root files t store = .ok (rs, b) ∧ ∀ f ∈ files, ∀ c, t.read j.host.cwd f.path = .ok c →
      ∃ q, ¬j.trash.place j.host.cwd <+: q ∧ b.work.tree.bytes? q = some c := by
  intro h
  obtain ⟨rs, b, happly, hkept⟩ := h (tidyJob .deleteToTrash) ⟨"/r"⟩ ⟨"/r"⟩ ⟨"/r"⟩ [found "/r/a.txt", found "/r/b.txt"] twins
    (onRecord ["/r/a.txt", "/r/b.txt"]) ["r", ".sortkeeper-undo.json"] _ .deleteToTrash (sound_of_entries (by decide))
    (plain_of_entries (by decide)) (by simp [tidyJob, plainJob, plainHost]) rfl rfl rfl
    (sound_onRecord (by decide) (by decide +kernel)) rfl rfl rfl (Or.inr rfl) rfl (by decide +kernel) given_twins
    (by decide +kernel)
  obtain ⟨q, hq, hbytes⟩ := hkept (found "/r/a.txt") List.mem_cons_self ⟨#[1]⟩ rfl
  have hlost : ((tidyJob .deleteToTrash).apply ⟨"/r"⟩ [found "/r/a.txt", found "/r/b.txt"] twins
      (onRecord ["/r/a.txt", "/r/b.txt"])).toOption.map (fun x => x.2.work.tree.entries.all fun e =>
        lacks #[1] e.2 || ["trash"] <+: e.1) = some true := by decide +kernel
  rw [happly] at hlost
  obtain ⟨attrs, hmem⟩ := mem_of_bytes? hbytes
  have hentry := List.all_eq_true.1 (Option.some.inj hlost) _ hmem
  have htrash : ["trash"] <+: q := by simpa [lacks] using hentry
  exact hq htrash

end Job

end FileOrganizer
