import FileOrganizer.Proofs.Tags.Store
import Mathlib.Data.Finset.Card

/-! The three tables of a tag store are one map: no call leaves a tag or a value without a row for its file, not even
one that the database stops on its way, and a cleaning takes the files that are gone out of all three. -/

namespace FileOrganizer.TagStore

variable {host : Host} {t : Tree} {s : TagStore} {k m : Path} {there : Path → Bool}

/-- A call that may change the store. -/
inductive Call
  | addTag (p : Path) (tag : String)
  | removeTag (p : Path) (tag : String)
  | setColor (p : Path) (color : Option String)
  | setPrint (p : Path) (f : Fingerprint)
  | setField (p : Path) (name value : String)
  | index (p : Path)
  | rename (source target : Path)
  | cleanup

namespace Call

/-- The store after a call, whatever the answer was. -/
def run (host : Host) (t : Tree) (s : TagStore) : Call → TagStore
  | addTag p tag => (s.addTag (host.key p) tag).2
  | removeTag p tag => (s.removeTag (host.key p) tag).2
  | setColor p color => (s.setColor (host.key p) color).2
  | setPrint p f => (s.setPrint (host.key p) f).2
  | setField p name value => s.setField (host.key p) name value
  | index p => (s.index host t p).2
  | rename source target => s.rename (host.key source) (host.key target)
  | cleanup => (s.cleanup (t.has host.cwd)).2

/-- The file that gets a row before anything else is written. -/
def opens? (host : Host) : Call → Option Path
  | addTag p _ | setColor p _ | setPrint p _ | setField p .. | index p => some (host.key p)
  | removeTag .. | rename .. | cleanup => none

end Call

/-- How far a call comes. The database may stop it before the first statement or after the one that makes the row;
a renaming and a cleaning are done as a whole or not at all. -/
inductive Reach | nowhere | row | through

/-- A call at some moment: the tree may be another one each time. -/
structure Attempt where
  host : Host
  tree : Tree
  call : Call
  reach : Reach

def Attempt.next (s : TagStore) (x : Attempt) : TagStore :=
  match x.reach with
  | .nowhere => s
  | .row => ((x.call.opens? x.host).map s.ensure).getD s
  | .through => x.call.run x.host x.tree s

def runAll (xs : List Attempt) : TagStore := xs.foldl Attempt.next empty

/-- Is there a row about the file in any of the tables? -/
def Mentions (s : TagStore) (k : Path) : Prop :=
  k ∈ s.files.map (·.1) ∨ k ∈ s.tags.map (·.1) ∨ k ∈ s.fields.map (·.1.1)

/-- Files have one row at most, and one if there is anything else about them. -/
structure Joined (s : TagStore) : Prop where
  single : s.files.Single
  tags : ∀ e ∈ s.tags, s.files.get? e.1 ≠ none
  fields : ∀ e ∈ s.fields, s.files.get? e.1.1 ≠ none

lemma joined_empty : empty.Joined := ⟨List.nodup_nil, by simp [empty], by simp [empty]⟩

lemma Joined.mentions (h : s.Joined) : s.Mentions k ↔ s.files.get? k ≠ none := by
  unfold Mentions
  rw [Table.mem_keys]
  constructor
  · rintro (hk | hk | hk)
    · exact hk
    · obtain ⟨e, he, rfl⟩ := List.mem_map.1 hk
      exact h.tags e he
    · obtain ⟨e, he, rfl⟩ := List.mem_map.1 hk
      exact h.fields e he
  · exact Or.inl

lemma record?_eq_none : s.record? k = none ↔ s.files.get? k = none := by
  simp [record?]

/-- Rows may come, if nothing is said of files without one. -/
lemma Joined.of_rows {s' : TagStore} (h : s.Joined) (hs : s'.files.Single)
    (hrows : ∀ m, s.files.get? m ≠ none → s'.files.get? m ≠ none)
    (htags : ∀ e ∈ s'.tags, e ∈ s.tags ∨ s'.files.get? e.1 ≠ none)
    (hfields : ∀ e ∈ s'.fields, e ∈ s.fields ∨ s'.files.get? e.1.1 ≠ none) : s'.Joined where
  single := hs
  tags e he := (htags e he).elim (fun he => hrows _ (h.tags e he)) id
  fields e he := (hfields e he).elim (fun he => hrows _ (h.fields e he)) id

lemma ensure_ne_none : (s.ensure k).files.get? k ≠ none := by
  rw [get?_ensure]
  simp

lemma ensure_keeps (hm : s.files.get? m ≠ none) : (s.ensure k).files.get? m ≠ none := by
  unfold ensure
  split
  · exact hm
  · dsimp only
    rw [Table.get?_put]
    split
    · simp
    · exact hm

lemma Joined.ensure (h : s.Joined) (k : Path) : (s.ensure k).Joined :=
  h.of_rows (single_ensure h.single) (fun _ => ensure_keeps) (fun _ he => Or.inl (tags_ensure ▸ he))
    fun _ he => Or.inl (fields_ensure ▸ he)

lemma Joined.adjust (h : s.Joined) (f : FileRow → FileRow) :
    ({ s with files := s.files.adjust k f } : TagStore).Joined := by
  refine h.of_rows h.single.adjust (fun m hm => ?_) (fun e he => Or.inl he) fun e he => Or.inl he
  dsimp only
  rw [Table.get?_adjust]
  split
  · next hkm => simpa [hkm] using hm
  · exact hm

lemma Joined.addTag (h : s.Joined) (k : Path) (tag : String) : (s.addTag k tag).2.Joined := by
  have hrow := h.ensure k
  unfold TagStore.addTag
  dsimp only
  split
  · exact hrow
  · refine hrow.of_rows hrow.single (fun m hm => hm) (fun e he => ?_) fun e he => Or.inl he
    rcases List.mem_cons.1 he with rfl | he
    · exact Or.inr ensure_ne_none
    · exact Or.inl he

lemma Joined.removeTag (h : s.Joined) (k : Path) (tag : String) : (s.removeTag k tag).2.Joined :=
  h.of_rows h.single (fun _ hm => hm) (fun _ he => Or.inl (List.mem_of_mem_filter he)) fun _ he => Or.inl he

lemma Joined.setColor (h : s.Joined) (k : Path) (color : Option String) : (s.setColor k color).2.Joined :=
  (h.ensure k).adjust _

lemma Joined.setPrint (h : s.Joined) (k : Path) (f : Fingerprint) : (s.setPrint k f).2.Joined := by
  unfold TagStore.setPrint
  dsimp only
  split
  · exact (h.ensure k).adjust _
  · exact h.ensure k

lemma Joined.setField (h : s.Joined) (k : Path) (name value : String) : (s.setField k name value).Joined := by
  have hrow := h.ensure k
  refine hrow.of_rows hrow.single (fun m hm => hm) (fun e he => Or.inl he) fun e he => ?_
  rcases List.mem_cons.1 he with rfl | he
  · exact Or.inr ensure_ne_none
  · exact Or.inl (List.mem_of_mem_filter he)

lemma Joined.index (h : s.Joined) (p : Path) : (s.index host t p).2.Joined := by
  unfold TagStore.index
  split
  · exact h
  · next f _ =>
    have hset := h.setPrint (host.key p) f
    split
    all_goals
      next hs =>
        rw [hs] at hset
        exact hset

/-- Where a row goes, there is a row. -/
lemma rename_row (hm : s.files.get? m ≠ none) (hne : m ≠ k) (l : Path) :
    (s.rename l k).files.get? (redirect l k m) ≠ none := by
  have hm' : (s.files.erase k).get? m ≠ none := by
    rwa [Table.get?_erase, if_neg hne.symm]
  unfold TagStore.rename
  dsimp only
  rw [Table.get?_carry_free (by simp [Table.get?_erase])]
  unfold redirect
  split
  · next h => rwa [if_pos rfl, ← h]
  · next h => rwa [if_neg hne.symm, if_neg (Ne.symm h)]

lemma Joined.rename (h : s.Joined) (k l : Path) : (s.rename k l).Joined where
  single := h.single.erase.carry
  tags e he := by
    obtain ⟨x, hx, rfl⟩ := List.mem_map.1 he
    obtain ⟨hx, hne⟩ := List.mem_filter.1 hx
    exact rename_row (h.tags x hx) (by simpa using hne) k
  fields e he := by
    obtain ⟨x, hx, rfl⟩ := List.mem_map.1 he
    obtain ⟨hx, hne⟩ := List.mem_filter.1 hx
    exact rename_row (h.fields x hx) (by simpa using hne) k

/-- The files that a cleaning takes out. -/
def gone (s : TagStore) (there : Path → Bool) : List Path := (s.files.map (·.1)).filter fun p => !there p

lemma mem_gone (h : s.Joined) : k ∈ s.gone there ↔ s.Mentions k ∧ there k = false := by
  rw [gone, List.mem_filter, Table.mem_keys, h.mentions, Bool.not_eq_true']

lemma mem_map_left {α : Type} {rows : List α} {key : α → Path} {ks : List Path} :
    k ∈ (rows.filter fun e => !ks.contains (key e)).map key ↔ k ∈ rows.map key ∧ k ∉ ks := by
  constructor
  · intro hk
    obtain ⟨e, he, rfl⟩ := List.mem_map.1 hk
    obtain ⟨he, hin⟩ := List.mem_filter.1 he
    exact ⟨List.mem_map_of_mem he, by simpa using hin⟩
  · rintro ⟨hk, hin⟩
    obtain ⟨e, he, rfl⟩ := List.mem_map.1 hk
    exact List.mem_map_of_mem (List.mem_filter.2 ⟨he, by simpa using hin⟩)

/-- A cleaning takes all rows about a file or none. -/
lemma mentions_cleanup : (s.cleanup there).2.Mentions k ↔ s.Mentions k ∧ k ∉ s.gone there := by
  have hfiles : k ∈ (s.cleanup there).2.files.map (·.1) ↔ k ∈ s.files.map (·.1) ∧ k ∉ s.gone there := mem_map_left
  have htags : k ∈ (s.cleanup there).2.tags.map (·.1) ↔ k ∈ s.tags.map (·.1) ∧ k ∉ s.gone there := mem_map_left
  have hfields : k ∈ (s.cleanup there).2.fields.map (·.1.1) ↔ k ∈ s.fields.map (·.1.1) ∧ k ∉ s.gone there :=
    mem_map_left
  unfold Mentions
  rw [hfiles, htags, hfields, or_and_right, or_and_right]

lemma get?_cleanup (hk : k ∉ s.gone there) : (s.cleanup there).2.files.get? k = s.files.get? k := by
  have hfilter := Table.get?_filter s.files (fun p => p ∉ s.gone there) k
  rw [if_pos hk] at hfilter
  rw [← hfilter]
  unfold cleanup gone
  simp

lemma record?_cleanup (hk : k ∉ s.gone there) : (s.cleanup there).2.record? k = s.record? k := by
  have htags : (s.cleanup there).2.tagsOf k = s.tagsOf k := by
    unfold tagsOf
    rw [show (s.cleanup there).2.tags = s.tags.filter fun e => !(s.gone there).contains e.1 from rfl,
      List.filterMap_filter]
    congr 1
    refine List.filterMap_congr fun e _ => ?_
    by_cases he : e.1 = k
    · simp [he, hk]
    · simp [he]
  have hfields : (s.cleanup there).2.fieldsOf k = s.fieldsOf k := by
    unfold fieldsOf
    rw [show (s.cleanup there).2.fields = s.fields.filter fun e => !(s.gone there).contains e.1.1 from rfl,
      List.filterMap_filter]
    refine List.filterMap_congr fun e _ => ?_
    by_cases he : e.1.1 = k
    · simp [he, hk]
    · simp [he]
  unfold record?
  rw [get?_cleanup hk, htags, hfields]

lemma Joined.cleanup (h : s.Joined) (there : Path → Bool) : (s.cleanup there).2.Joined where
  single := h.single.sublist (List.filter_sublist.map _)
  tags e he := by
    obtain ⟨he, hin⟩ := List.mem_filter.1 he
    rw [Bool.not_eq_true', List.contains_eq_mem, decide_eq_false_iff_not] at hin
    rw [get?_cleanup hin]
    exact h.tags e he
  fields e he := by
    obtain ⟨he, hin⟩ := List.mem_filter.1 he
    rw [Bool.not_eq_true', List.contains_eq_mem, decide_eq_false_iff_not] at hin
    rw [get?_cleanup hin]
    exact h.fields e he

lemma Joined.run (h : s.Joined) (c : Call) : (c.run host t s).Joined := by
  cases c with
  | addTag p tag => exact h.addTag _ tag
  | removeTag p tag => exact h.removeTag _ tag
  | setColor p color => exact h.setColor _ color
  | setPrint p f => exact h.setPrint _ f
  | setField p name value => exact h.setField _ name value
  | index p => exact h.index p
  | rename source target => exact h.rename _ _
  | cleanup => exact h.cleanup _

lemma Joined.next (h : s.Joined) (x : Attempt) : (x.next s).Joined := by
  unfold Attempt.next
  split
  · exact h
  · cases x.call.opens? x.host with
    | none => exact h
    | some k => exact h.ensure k
  · exact h.run x.call

lemma joined_runAll (xs : List Attempt) : (runAll xs).Joined :=
  List.foldlRecOn xs Attempt.next joined_empty fun _ h x _ => h.next x

/-- Whatever calls there were, and however far they came: a file that any table speaks of has its row, so that a file
without a record is one that no table speaks of, and a cleaning tells how many files with a record are gone, takes out
all that is said of them and leaves the records of the others as they are. -/
theorem runAll_tables (xs : List Attempt) :
    (∀ k, (runAll xs).Mentions k → k ∈ (runAll xs).files.map (·.1)) ∧
      (∀ k, (runAll xs).record? k = none ↔ ¬(runAll xs).Mentions k) ∧
      ∀ (t : Tree) (cwd : Place), ∃ gone : Finset Path,
        (∀ k, k ∈ gone ↔ (runAll xs).Mentions k ∧ t.has cwd k = false) ∧
          ((runAll xs).cleanup (t.has cwd)).1 = gone.card ∧
          (∀ k ∈ gone, ¬((runAll xs).cleanup (t.has cwd)).2.Mentions k) ∧
          ∀ k ∉ gone, ((runAll xs).cleanup (t.has cwd)).2.record? k = (runAll xs).record? k := by
  have h := joined_runAll xs
  generalize runAll xs = s at h
  refine ⟨fun k hk => Table.mem_keys.2 (h.mentions.1 hk), fun k => ?_, fun t cwd => ?_⟩
  · rw [record?_eq_none, h.mentions, not_not]
  · have hmem : ∀ k, k ∈ (s.gone (t.has cwd)).toFinset ↔ k ∈ s.gone (t.has cwd) := fun k => List.mem_toFinset
    refine ⟨(s.gone (t.has cwd)).toFinset, fun k => (hmem k).trans (mem_gone h), ?_, fun k hk hm => ?_, fun k hk => ?_⟩
    · exact (List.toFinset_card_of_nodup (h.single.filter _)).symm
    · exact (mentions_cleanup.1 hm).2 ((hmem k).1 hk)
    · exact record?_cleanup fun hin => hk ((hmem k).2 hin)

end FileOrganizer.TagStore
