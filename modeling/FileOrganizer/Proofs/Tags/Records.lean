import FileOrganizer.Proofs.Batch.Conservation
import FileOrganizer.Proofs.Tags.Tables

/-! The record of a file as a whole. A renaming carries it to the new path, with the place that the file has among the
files that look the same. A call that fails leaves the records as they are, except that it may have opened an empty one
for its own file, or have come as far as all but the time. -/

namespace FileOrganizer.TagStore

variable {host : Host} {who : Actor} {t : Tree} {s s' : TagStore} {k l m : Path} {n : ℕ} {quick : String}

/-- The path at which a renaming finds what it leaves at `p`. -/
def cameFrom (source target p : Path) : Option Path :=
  if p = target then (if source = target then none else some source) else if p = source then none else some p

lemma redirect_eq_iff {p : Path} (hp : p ≠ l) : redirect k l p = m ↔ cameFrom k l m = some p := by
  unfold redirect cameFrom
  split_ifs <;> grind

lemma cameFrom_ne_target : cameFrom k l m ≠ some l := by
  unfold cameFrom
  split_ifs <;> grind

lemma cameFrom_target (hne : k ≠ l) : cameFrom k l l = some k := by
  rw [cameFrom, if_pos rfl, if_neg hne]

lemma cameFrom_source (hne : k ≠ l) : cameFrom k l k = none := by
  rw [cameFrom, if_neg hne, if_pos rfl]

lemma cameFrom_other (hk : m ≠ k) (hl : m ≠ l) : cameFrom k l m = some m := by
  rw [cameFrom, if_neg hl, if_neg hk]

lemma get?_rename : (s.rename k l).files.get? m = (cameFrom k l m).bind s.files.get? := by
  unfold rename
  dsimp only
  rw [Table.get?_carry_free (by simp [Table.get?_erase])]
  unfold cameFrom
  by_cases hm : l = m
  · subst hm
    by_cases hk : k = l
    · simp [hk, Table.get?_erase]
    · simp [hk, Ne.symm hk, Table.get?_erase]
  · by_cases hk : k = m
    · simp [hm, Ne.symm hm, hk]
    · simp [hm, Ne.symm hm, hk, Ne.symm hk, Table.get?_erase]

/-- Of the rows that say something of a file, a renaming leaves at `m` those that were where `m` came from. -/
lemma filterMap_rename {α β : Type} {rows : List α} {key : α → Path} {move : α → α} {value : α → β}
    (hkey : ∀ e, key (move e) = redirect k l (key e)) (hvalue : ∀ e, value (move e) = value e) :
    (((rows.filter fun e => key e ≠ l).map move).filterMap fun e => if key e = m then some (value e) else none) =
      ((cameFrom k l m).map fun p => rows.filterMap fun e => if key e = p then some (value e) else none).getD [] := by
  have hrows : (((rows.filter fun e => key e ≠ l).map move).filterMap fun e =>
      if key e = m then some (value e) else none) =
        rows.filterMap fun e => if cameFrom k l m = some (key e) then some (value e) else none := by
    rw [List.filterMap_map, List.filterMap_filter]
    apply List.filterMap_congr
    intro e _
    dsimp only [Function.comp]
    rw [hkey, hvalue]
    by_cases he : key e = l
    · simp [he, cameFrom_ne_target]
    · simp [he, redirect_eq_iff he]
  rw [hrows]
  cases cameFrom k l m with
  | none => simp
  | some p =>
    apply List.filterMap_congr
    intro e _
    simp only [Option.some.injEq, eq_comm]

lemma tagsOf_rename : (s.rename k l).tagsOf m = ((cameFrom k l m).map s.tagsOf).getD [] := by
  have hrows : ((s.rename k l).tags.filterMap fun e => if e.1 = m then some e.2 else none) =
      ((cameFrom k l m).map fun p => s.tags.filterMap fun e => if e.1 = p then some e.2 else none).getD [] :=
    filterMap_rename (fun _ => rfl) fun _ => rfl
  rw [tagsOf, hrows]
  cases cameFrom k l m <;> rfl

lemma fieldsOf_rename : (s.rename k l).fieldsOf m = ((cameFrom k l m).map s.fieldsOf).getD [] :=
  filterMap_rename (fun _ => rfl) fun _ => rfl

lemma record?_rename : (s.rename k l).record? m = (cameFrom k l m).bind s.record? := by
  unfold record?
  rw [get?_rename, tagsOf_rename, fieldsOf_rename]
  cases cameFrom k l m <;> rfl

lemma print_rename : (s.rename k l).print m = (cameFrom k l m).bind s.print := by
  unfold print row
  rw [get?_rename]
  cases cameFrom k l m <;> rfl

/-- Asked for the other files with this size and beginning, the store names `m` to `k`. -/
def Lists (s : TagStore) (k : Path) (n : ℕ) (quick : String) (m : Path) : Prop :=
  ∃ ks, s.alike k n quick = .ok ks ∧ m ∈ ks

lemma lists_iff (hs : s.files.Single) :
    s.Lists k n quick m ↔ n ≤ maxSize ∧ m ≠ k ∧ ∃ f, s.print m = some f ∧ f.size = n ∧ f.quick = quick := by
  unfold Lists
  by_cases hn : n ≤ maxSize
  · obtain ⟨ks, hks, hmem⟩ := alike_eq_ok (k := k) hs hn
    rw [hks, ← hmem m]
    simp [hn]
  · have hlarge : s.alike k n quick = .error .badDatabase := by rw [alike, if_neg hn]
    simp [hlarge, hn]

/-- What a renaming leaves at `m` is listed for others like what was where `m` came from. -/
lemma lists_rename (hs : s.files.Single) {p : Path} (hp : cameFrom k l m = some p) {q : Path} (hq : p ≠ q) (hm : m ≠ q) :
    (s.rename k l).Lists q n quick m ↔ s.Lists q n quick p := by
  have hsingle : (s.rename k l).files.Single := hs.erase.carry
  rw [lists_iff hsingle, lists_iff hs, print_rename, hp, Option.bind_some]
  simp only [hq, hm, ne_eq, not_false_eq_true]

/-- A renaming to another path carries the record there, and nothing is left where it was; the records of the other
files stay. The renamed file is listed among those that look the same as another file wherever it was listed, and the
others are listed as before. -/
theorem rename_carries (hs : s.files.Single) {source target : Path} (hne : who.key source ≠ who.key target) :
    (s.rename (who.key source) (who.key target)).record? (who.key target) = s.record? (who.key source) ∧
      (s.rename (who.key source) (who.key target)).record? (who.key source) = none ∧
      (∀ p, who.key p ≠ who.key source → who.key p ≠ who.key target →
        (s.rename (who.key source) (who.key target)).record? (who.key p) = s.record? (who.key p)) ∧
      (∀ p n quick, who.key p ≠ who.key target → s.Lists (who.key p) n quick (who.key source) →
        (s.rename (who.key source) (who.key target)).Lists (who.key p) n quick (who.key target)) ∧
      ∀ p n quick q, q ≠ who.key source → q ≠ who.key target →
        ((s.rename (who.key source) (who.key target)).Lists (who.key p) n quick q ↔
          s.Lists (who.key p) n quick q) := by
  generalize who.key source = k at *
  generalize who.key target = l at *
  refine ⟨?_, ?_, fun p hk hl => ?_, fun p n quick hp h => ?_, fun p n quick q hk hl => ?_⟩
  · rw [record?_rename, cameFrom_target hne, Option.bind_some]
  · rw [record?_rename, cameFrom_source hne, Option.bind_none]
  · rw [record?_rename, cameFrom_other hk hl, Option.bind_some]
  · have hself : k ≠ who.key p := ((lists_iff hs).1 h).2.1
    exact (lists_rename hs (cameFrom_target hne) hself hp.symm).2 h
  · by_cases hq : q = who.key p
    · have hsingle : (s.rename k l).files.Single := hs.erase.carry
      rw [lists_iff hsingle, lists_iff hs]
      simp [hq]
    · exact lists_rename hs (cameFrom_other hk hl) hq hq

/-- All that can be on record about a file but a named value. -/
def marked : TagStore := (((empty.addTag ⟨"/r/a"⟩ "work").2.setColor ⟨"/r/a"⟩ (some "red")).2.setPrint ⟨"/r/a"⟩
  ⟨1, "q", none⟩).2

lemma joined_marked : marked.Joined := ((joined_empty.addTag _ _).setColor _ _).setPrint _ _

theorem rename_carries_marked :
    (marked.rename ⟨"/r/a"⟩ ⟨"/r/b"⟩).record? ⟨"/r/b"⟩ = some ⟨some "red", some ⟨1, "q", none⟩, ["work"], []⟩ ∧
      (marked.rename ⟨"/r/a"⟩ ⟨"/r/b"⟩).record? ⟨"/r/a"⟩ = none := by
  have hsource : Job.plainHost.key ⟨"/r/./a"⟩ = ⟨"/r/a"⟩ := by decide +kernel
  have htarget : Job.plainHost.key ⟨"/r/b"⟩ = ⟨"/r/b"⟩ := by decide +kernel
  have hne : Job.plainHost.key ⟨"/r/./a"⟩ ≠ Job.plainHost.key ⟨"/r/b"⟩ := by decide +kernel
  obtain ⟨hcarried, hleft, -⟩ := rename_carries joined_marked.single hne
  rw [hsource, htarget] at hcarried hleft
  exact ⟨hcarried, hleft⟩

/-- Renamed to another spelling of its own path, a file loses its record. -/
theorem rename_loses : ¬∀ (who : Actor) (s : TagStore) (source target : Path), s.files.Single →
    (s.rename (who.key source) (who.key target)).record? (who.key target) = s.record? (who.key source) := by
  intro h
  exact absurd (h Job.plainHost.toActor marked ⟨"/r/a"⟩ ⟨"/r/./a"⟩ joined_marked.single) (by decide +kernel)

lemma ensure_of_row (h : s.files.get? k ≠ none) : s.ensure k = s := by
  have hrow : s.files.has k = true := by
    rw [Table.has, Option.isSome_iff_ne_none]
    exact h
  rw [ensure, if_pos hrow]

lemma get?_ensure_other (hm : k ≠ m) : (s.ensure k).files.get? m = s.files.get? m := by
  unfold ensure
  split
  · rfl
  · exact (Table.get?_put _ _ _ _).trans (if_neg hm)

lemma record?_congr (hfiles : s'.files.get? m = s.files.get? m) (htags : s'.tagsOf m = s.tagsOf m)
    (hfields : s'.fieldsOf m = s.fieldsOf m) : s'.record? m = s.record? m := by
  rw [record?, record?, hfiles, htags, hfields]

lemma tagsOf_ensure : (s.ensure k).tagsOf m = s.tagsOf m := by rw [tagsOf, tags_ensure, tagsOf]

lemma fieldsOf_ensure : (s.ensure k).fieldsOf m = s.fieldsOf m := by rw [fieldsOf, fields_ensure, fieldsOf]

/-- What is opened for a file without a record is empty: nothing else was said of the file. -/
lemma Joined.record?_ensure (h : s.Joined) (hk : s.record? k = none) :
    (s.ensure k).record? m = if k = m then some ⟨none, none, [], []⟩ else s.record? m := by
  split
  · next hm =>
    subst hm
    have hrow : s.files.get? k = none := record?_eq_none.1 hk
    have htags : s.tagsOf k = [] := by
      have hnone : (s.tags.filterMap fun e => if e.1 = k then some e.2 else none) = [] := by
        apply List.filterMap_eq_nil_iff.2
        intro e he
        refine if_neg ?_
        rintro rfl
        exact h.tags e he hrow
      rw [tagsOf, hnone, List.foldr_nil]
    have hfields : s.fieldsOf k = [] := by
      apply List.filterMap_eq_nil_iff.2
      intro e he
      refine if_neg ?_
      rintro rfl
      exact h.fields e he hrow
    rw [record?, get?_ensure, tagsOf_ensure, fieldsOf_ensure, htags, hfields, row, hrow]
    rfl
  · next hm => exact record?_congr (get?_ensure_other hm) tagsOf_ensure fieldsOf_ensure

lemma record?_addTag_other {tag : String} (hm : k ≠ m) : (s.addTag k tag).2.record? m = s.record? m := by
  have hrow : (s.ensure k).record? m = s.record? m :=
    record?_congr (get?_ensure_other hm) tagsOf_ensure fieldsOf_ensure
  unfold addTag
  dsimp only
  split
  · exact hrow
  · rw [← hrow]
    refine record?_congr rfl ?_ rfl
    unfold tagsOf
    rw [List.filterMap_cons, if_neg hm]

lemma record?_removeTag_other {tag : String} (hm : k ≠ m) : (s.removeTag k tag).2.record? m = s.record? m := by
  refine record?_congr rfl ?_ rfl
  unfold removeTag tagsOf
  rw [List.filterMap_filter]
  congr 1
  apply List.filterMap_congr
  intro e _
  by_cases he : e.1 = m
  · have hne : e ≠ (k, tag) := by
      rintro rfl
      exact hm he
    simp [he, hne]
  · simp [he]

lemma record?_setField_other {name value : String} (hm : k ≠ m) :
    (s.setField k name value).record? m = s.record? m := by
  refine record?_congr (get?_ensure_other hm) tagsOf_ensure ?_
  unfold setField fieldsOf Table.put Table.erase
  rw [List.filterMap_cons, if_neg hm, List.filterMap_filter, fields_ensure]
  apply List.filterMap_congr
  intro e _
  by_cases he : e.1.1 = m
  · have hne : e.1 ≠ (k, name) := by
      intro heq
      exact hm ((congrArg Prod.fst heq).symm.trans he)
    simp [he, hne]
  · simp [he]

lemma setPrint_of_error {f : Fingerprint} {e : Fault} (h : (s.setPrint k f).1 = .error e) :
    (s.setPrint k f).2 = s.ensure k := by
  unfold setPrint at h ⊢
  dsimp only at h ⊢
  split at h
  · cases h
  · next hsize => rw [if_neg hsize]

lemma index_of_error {p : Path} {e : Fault} (h : (s.index host t p).1 = .error e) :
    (s.index host t p).2 = s ∨ (s.index host t p).2 = s.ensure (host.key p) := by
  unfold index at h ⊢
  cases hread : Content.fingerprint host t p with
  | error => exact Or.inl rfl
  | ok f =>
    rw [hread] at h
    rcases hset : s.setPrint (host.key p) f with ⟨a, s₁⟩
    dsimp only at h ⊢
    rw [hset] at h ⊢
    cases a with
    | ok => cases h
    | error e =>
      have hleft := setPrint_of_error (by rw [hset] : (s.setPrint (host.key p) f).1 = .error e)
      rw [hset] at hleft
      exact Or.inr hleft

namespace Call

/-- The call answers with an error of its own. -/
def Refuses (host : Host) (t : Tree) (s : TagStore) : Call → Prop
  | setPrint p f => ∃ e, (s.setPrint (host.key p) f).1 = .error e
  | index p => ∃ e, (s.index host t p).1 = .error e
  | addTag .. | removeTag .. | setColor .. | setField .. | rename .. | cleanup => False

/-- The file whose time is written in a statement of its own, after all else. -/
def stamps? (host : Host) (s : TagStore) : Call → Option Path
  | addTag p tag => if (s.addTag (host.key p) tag).1 then some (host.key p) else none
  | removeTag p tag => if (s.removeTag (host.key p) tag).1 then some (host.key p) else none
  | setField p _ _ => some (host.key p)
  | setColor .. | setPrint .. | index .. | rename .. | cleanup => none

/-- Where a call that fails ends. -/
inductive Stop | refused | nowhere | row | time
  deriving DecidableEq

/-- A failed call, with what it leaves. It answers with an error of its own, or the database stops it: before the first
statement, after the one that makes the row, or with nothing left to write but the time. -/
inductive Fails (host : Host) (t : Tree) (s : TagStore) (c : Call) : Stop → TagStore → Prop
  | refused (h : c.Refuses host t s) : Fails host t s c .refused (c.run host t s)
  | nowhere : Fails host t s c .nowhere s
  | row {k : Path} (h : c.opens? host = some k) : Fails host t s c .row (s.ensure k)
  | time {k : Path} (h : c.stamps? host s = some k) : Fails host t s c .time (c.run host t s)

variable {c : Call} {stop : Stop}

lemma run_of_refuses (h : c.Refuses host t s) :
    c.run host t s = s ∨ ∃ k, c.opens? host = some k ∧ c.run host t s = s.ensure k := by
  cases c with
  | setPrint p f =>
    obtain ⟨e, he⟩ := h
    exact Or.inr ⟨_, rfl, setPrint_of_error he⟩
  | index p =>
    obtain ⟨e, he⟩ := h
    exact (index_of_error he).imp_right fun hrow => ⟨_, rfl, hrow⟩
  | addTag | removeTag | setColor | setField | rename | cleanup => exact h.elim

lemma record?_run_other (h : c.stamps? host s = some k) (hm : k ≠ m) : (c.run host t s).record? m = s.record? m := by
  cases c with
  | addTag p tag =>
    obtain ⟨-, hk⟩ := Option.ite_none_right_eq_some.1 h
    cases hk
    exact record?_addTag_other hm
  | removeTag p tag =>
    obtain ⟨-, hk⟩ := Option.ite_none_right_eq_some.1 h
    cases hk
    exact record?_removeTag_other hm
  | setField p name value =>
    cases h
    exact record?_setField_other hm
  | setColor | setPrint | index | rename | cleanup => cases h

/-- With more than the time missing, a failed call has done nothing or opened a row. -/
lemma Fails.cases (h : c.Fails host t s stop s') (hstop : stop ≠ .time) :
    s' = s ∨ ∃ k, c.opens? host = some k ∧ s' = s.ensure k := by
  cases h with
  | refused h => exact run_of_refuses h
  | nowhere => exact Or.inl rfl
  | row h => exact Or.inr ⟨_, h, rfl⟩
  | time => exact absurd rfl hstop

/-- A failed call whose file has a record already leaves the store as it is, unless only the time is missing. Where the
file has none, it may have an empty one afterwards. Only the time can be missing of a call that has changed anything
else, and then it has done all of the rest, and to no other file. -/
theorem fails_keeps (hs : s.Joined) (h : c.Fails host t s stop s') :
    (stop ≠ .time → (∀ k, c.opens? host = some k → s.record? k ≠ none) → s' = s) ∧
      (stop ≠ .time → ∀ m, s'.record? m = s.record? m ∨
        c.opens? host = some m ∧ s.record? m = none ∧ s'.record? m = some ⟨none, none, [], []⟩) ∧
      (stop = .time → s' = c.run host t s ∧ ∃ k, c.stamps? host s = some k ∧
        ∀ m, k ≠ m → s'.record? m = s.record? m) := by
  refine ⟨fun hstop hrow => ?_, fun hstop m => ?_, fun hstop => ?_⟩
  · rcases h.cases hstop with rfl | ⟨k, hk, rfl⟩
    · rfl
    · exact ensure_of_row fun hnone => hrow k hk (record?_eq_none.2 hnone)
  · rcases h.cases hstop with rfl | ⟨k, hk, rfl⟩
    · exact Or.inl rfl
    · cases hrec : s.record? k with
      | some r =>
        have hrow : s.files.get? k ≠ none := fun hnone => by simp [record?_eq_none.2 hnone] at hrec
        exact Or.inl (by rw [ensure_of_row hrow])
      | none =>
        rw [hs.record?_ensure hrec]
        split
        · next hm => exact Or.inr (hm ▸ ⟨hk, hrec, rfl⟩)
        · exact Or.inl rfl
  · subst hstop
    cases h with
    | time hk => exact ⟨rfl, _, hk, fun m hm => record?_run_other hk hm⟩

lemma refuses_large {s : TagStore} : (setPrint ⟨"/r/a"⟩ ⟨2 ^ 63, "q", none⟩).Refuses Job.plainHost .empty s :=
  ⟨.badDatabase, setPrint_of_large (by decide)⟩

theorem fails_keeps_large :
    (setPrint ⟨"/r/a"⟩ ⟨2 ^ 63, "q", none⟩).run Job.plainHost .empty marked = marked := by
  refine (fails_keeps joined_marked (.refused refuses_large)).1 (by decide) fun k hk => ?_
  rw [← Option.some.inj hk]
  decide +kernel

/-- A file may get an empty record from a call that fails. -/
theorem fails_opens : ¬∀ (host : Host) (t : Tree) (s : TagStore) (c : Call) (stop : Stop) (s' : TagStore), s.Joined →
    c.Fails host t s stop s' → ∀ m, s'.record? m = s.record? m := by
  intro h
  exact absurd (h Job.plainHost .empty .empty _ _ _ joined_empty (.refused refuses_large) ⟨"/r/a"⟩) (by decide +kernel)

end Call

end FileOrganizer.TagStore
