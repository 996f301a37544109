import FileOrganizer.Proofs.Batch.Conservation
import FileOrganizer.Proofs.Tree.Displaced

/-! What the transfers of a batch find where they go, be they actions on a file or planned by its category. -/

namespace FileOrganizer

open FileOrganizer.Tree FileOrganizer.Disk

variable {s : Setting} {f : FileInfo} {w : Workspace} {b : Batch} {a : Action} {mode : TransferKind} {p : Path}

namespace Task

lemma moveTo_applied {told : String} {why : Fault → String} (h : (moveTo s f w p told why).1.status = .applied) :
    (moveTo s f w p told why).1.records = [record s f p .move] ∧
      moveFile s.host.toActor f.path p w.tree = (.ok (), (moveTo s f w p told why).2.tree) := by
  unfold moveTo at h ⊢
  rw [Workspace.disk_eq] at h ⊢
  rcases hmove : moveFile s.host.toActor f.path p w.tree with ⟨e | _, t'⟩
  · rw [hmove] at h
    cases h
  · exact ⟨rfl, rfl⟩

/-- How a task takes its file to another place, if it is one that does. -/
def takes? : Task → Option TransferKind
  | rename .. | discard => some .move
  | transfer mode _ => some mode
  | _ => none

/-- Such a task, when it is done, is one transfer, which it takes down. -/
lemma perform_takes {task : Task} (htask : task.takes? = some mode) (happ : (task.perform s f w).1.status = .applied) :
    ∃ p, (task.perform s f w).1.records = [record s f p mode] ∧
      Batch.transferWork s.host mode ⟨f.path, p, ""⟩ w.tree = (.ok (), (task.perform s f w).2.tree) := by
  cases task with
  | rename newName template =>
    cases htask
    unfold perform at happ ⊢
    dsimp only at happ ⊢
    rw [noteTemplate_tree]
    exact ⟨_, moveTo_applied (w := (w.claim s.host.cwd f.parent newName).2) happ⟩
  | transfer mode' dir =>
    cases htask
    cases mode with
    | move =>
      unfold perform at happ ⊢
      dsimp only at happ ⊢
      exact ⟨_, moveTo_applied (w := (w.claim s.host.cwd dir f.name).2) happ⟩
    | copy =>
      unfold perform at happ ⊢
      dsimp only at happ ⊢
      rw [Workspace.disk_eq, Workspace.claim_tree] at happ ⊢
      rcases hcopy : copyFile s.host.toActor f.path (w.claim s.host.cwd dir f.name).1.path w.tree with ⟨e | _, t'⟩
      · rw [hcopy] at happ
        cases happ
      · exact ⟨_, rfl, hcopy⟩
  | discard =>
    cases htask
    unfold perform at happ ⊢
    dsimp only at happ ⊢
    exact ⟨_, moveTo_applied (w := (w.claim s.host.cwd s.trash f.name).2) happ⟩
  | _ => cases htask

end Task

namespace Action

/-- How an action takes its file to another place, if it is one that does. -/
def takes? : Action → Option TransferKind
  | rename _ | tokenRename _ | move _ | deleteToTrash => some .move
  | copy _ => some .copy
  | _ => none

lemma takes_of_judge {task : Task} (ha : a.takes? = some mode) (h : a.judge s w f = .ok task) :
    task.takes? = some mode := by
  rw [← ha]
  cases a <;> cases ha <;> rw [judge] at h
  case rename => obtain ⟨rfl, -⟩ := judgeRename_ok h; rfl
  case tokenRename => obtain ⟨rfl, -⟩ := judgeRename_ok h; rfl
  case move => obtain ⟨rfl, -⟩ := judgeTransfer_ok h; rfl
  case copy => obtain ⟨rfl, -⟩ := judgeTransfer_ok h; rfl
  case deleteToTrash => obtain ⟨rfl, -⟩ := judgeDiscard_ok h; rfl

lemma run_takes (ha : a.takes? = some mode) (happ : (a.run s f w).1.status = .applied) :
    ∃ p, (a.run s f w).1.records = [Task.record s f p mode] ∧
      Batch.transferWork s.host mode ⟨f.path, p, ""⟩ w.tree = (.ok (), (a.run s f w).2.tree) := by
  obtain ⟨task, hj, -, hrun⟩ := run_applied happ
  rw [hrun] at happ ⊢
  exact Task.perform_takes (takes_of_judge ha hj) happ

end Action

namespace Disk

lemma transferWork_displaced {host : Host} {m : PlannedTransfer} {t t' : Tree} (hs : t.Sound)
    (h : Batch.transferWork host mode m t = (.ok (), t')) :
    ∃ t₁ src dst, Paved host.toActor m.target t t₁ ∧ Displaced host.cwd mode m.source m.target t t₁ t' src dst := by
  cases mode with
  | move => exact moveFile_displaced hs h
  | copy => exact copyFile_displaced hs h

end Disk

namespace Batch

/-- A transfer that comes off, be it an action or planned, has found at the entry that its target names nothing, or a
symbolic link through which nothing was to be reached. All the entries that there were stay, but for that link and for
what is moved. -/
theorem transfers_displace (hs : b.work.tree.Sound) :
    (∀ s f a mode, Action.takes? a = some mode → (a.run s f b.work).1.status = .applied →
      ∃ p t₁ src dst, (a.run s f b.work).1.records = [Task.record s f p mode] ∧
        Paved s.host.toActor p b.work.tree t₁ ∧
        Displaced s.host.cwd mode f.path p b.work.tree t₁ (a.run s f b.work).2.tree src dst) ∧
    ∀ host mode m, (transfer host mode m b).1 = none →
      ∃ t' t₁ src dst, transferWork host mode m b.work.tree = (.ok (), t') ∧
        Paved host.toActor m.target b.work.tree t₁ ∧
        Displaced host.cwd mode m.source m.target b.work.tree t₁ t' src dst := by
  refine ⟨fun s f a mode ha happ => ?_, fun host mode m hnone => ?_⟩
  · obtain ⟨p, hrecords, hwork⟩ := Action.run_takes ha happ
    obtain ⟨t₁, src, dst, hdisp⟩ := transferWork_displaced hs hwork
    exact ⟨p, t₁, src, dst, hrecords, hdisp⟩
  · rcases hwork : transferWork host mode m b.work.tree with ⟨e | _, t'⟩
    · unfold transfer at hnone
      rw [Workspace.disk_eq, hwork] at hnone
      cases hnone
    · obtain ⟨t₁, src, dst, hdisp⟩ := transferWork_displaced hs hwork
      exact ⟨t', t₁, src, dst, rfl, hdisp⟩

/-- A link that leads nowhere has the name of the file beside its directory. -/
def blind : Batch := { work := ⟨⟨[
  (["r"], .dir ⟨⟨0, 0⟩, false⟩),
  (["r", "a.txt"], .file ⟨#[1]⟩ ⟨⟨0, 0⟩, false⟩),
  (["r", "docs"], .dir ⟨⟨0, 0⟩, false⟩),
  (["r", "docs", "a.txt"], .link "/gone")]⟩, .empty, [], .empty⟩, session := none }

lemma sound_blind : blind.work.tree.Sound := sound_of_entries (by decide)

/-- Moved by an action or by its category, the file takes the place of the link and of nothing else. -/
theorem transfers_displace_blind :
    Leaves .move ["r", "a.txt"] ["r", "docs", "a.txt"] blind.work.tree
      ((Action.move "docs").run ((Job.plainJob []).setting ⟨"/r"⟩) (Job.found "/r/a.txt") blind.work).2.tree ∧
    ∃ t', transferWork Job.plainHost .move ⟨⟨"/r/a.txt"⟩, ⟨"/r/docs/a.txt"⟩, ""⟩ blind.work.tree = (.ok (), t') ∧
      Leaves .move ["r", "a.txt"] ["r", "docs", "a.txt"] blind.work.tree t' := by
  have hsource : blind.work.tree.Names [] ⟨"/r/a.txt"⟩ ["r", "a.txt"] := ⟨["r"], "a.txt", by rfl, rfl⟩
  have htarget : blind.work.tree.Names [] ⟨"/r/docs/a.txt"⟩ ["r", "docs", "a.txt"] := ⟨["r", "docs"], "a.txt", by rfl, rfl⟩
  have hleaves : ∀ {t₁ t' : Tree} {src dst : Place}, Paved Job.plainHost.toActor ⟨"/r/docs/a.txt"⟩ blind.work.tree t₁ →
      Displaced [] .move ⟨"/r/a.txt"⟩ ⟨"/r/docs/a.txt"⟩ blind.work.tree t₁ t' src dst →
      Leaves .move ["r", "a.txt"] ["r", "docs", "a.txt"] blind.work.tree t' := by
    intro t₁ t' src dst hpaved hdisp
    have hgrows := (hpaved.addsDirs sound_blind).2.grows
    rw [(hsource.grows sound_blind hgrows).inj hdisp.names, (htarget.grows sound_blind hgrows).inj hdisp.names_target]
    exact hdisp.leaves
  obtain ⟨p, t₁, src, dst, hrecords, hpaved, hdisp⟩ := (transfers_displace sound_blind).1
    ((Job.plainJob []).setting ⟨"/r"⟩) (Job.found "/r/a.txt") (.move "docs") .move rfl (by decide +kernel)
  obtain ⟨t', t₁', src', dst', hwork, hpaved', hdisp'⟩ := (transfers_displace sound_blind).2 Job.plainHost .move
    ⟨⟨"/r/a.txt"⟩, ⟨"/r/docs/a.txt"⟩, ""⟩ (by decide +kernel)
  have hp : [Task.record ((Job.plainJob []).setting ⟨"/r"⟩) (Job.found "/r/a.txt") p .move] =
      [⟨⟨"/r/a.txt"⟩, ⟨"/r/docs/a.txt"⟩, .move, ⟨0, 0⟩⟩] := hrecords.symm.trans (by decide +kernel)
  obtain rfl : p = ⟨"/r/docs/a.txt"⟩ := congrArg UndoRecord.target (List.singleton_inj.1 hp)
  exact ⟨hleaves hpaved hdisp, t', hwork, hleaves hpaved' hdisp'⟩

/-- The link is an entry as well, and it is lost. -/
theorem transfers_displace_fails : ¬∀ (s : Setting) (f : FileInfo) (a : Action) (mode : TransferKind) (w : Workspace),
    w.tree.Sound → a.takes? = some mode → (a.run s f w).1.status = .applied → ∀ r ∈ (a.run s f w).1.records,
      (∀ l, w.tree.Names s.host.cwd r.target l → w.tree.node? l = none) ∧
      ∀ q, (∀ l, w.tree.Names s.host.cwd r.source l → ¬l <+: q) → w.tree.node? q ≠ none →
        (a.run s f w).2.tree.node? q = w.tree.node? q := by
  intro h
  have hrecords : ((Action.move "docs").run ((Job.plainJob []).setting ⟨"/r"⟩) (Job.found "/r/a.txt") blind.work).1.records =
      [⟨⟨"/r/a.txt"⟩, ⟨"/r/docs/a.txt"⟩, .move, ⟨0, 0⟩⟩] := by decide +kernel
  have hfree := (h ((Job.plainJob []).setting ⟨"/r"⟩) (Job.found "/r/a.txt") (.move "docs") .move blind.work sound_blind rfl
    (by decide +kernel) _ (by rw [hrecords]; exact List.mem_singleton_self _)).1 ["r", "docs", "a.txt"]
    ⟨["r", "docs"], "a.txt", by rfl, rfl⟩
  cases hfree

end Batch

end FileOrganizer
