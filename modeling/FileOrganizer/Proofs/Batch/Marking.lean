import FileOrganizer.Proofs.Batch.Originals

/-! Files with the same content are looked at for duplicates by several workers at once, call by call on the tag store:
no tag is left to the files that were looked at before the first content was put on record. -/

namespace FileOrganizer

open FileOrganizer.Tree

/-- What a worker has still to do for its file. Each step is one call on the tag store, and other workers may take theirs
in between. -/
inductive Marking
  | tags
  | filed
  | twin
  | index (twin : Option Path)
  | tag (twin : Path)
  | through (r : Effect)

namespace Marking

open Effect

variable {ι : Type} [DecidableEq ι]

def start (f : FileInfo) : Marking := if f.isDir then .through (skipped s!"{f.name} 是目录") else .tags

def isOver : Marking → Bool
  | through _ => true
  | _ => false

section

variable (s : Setting) (mark : String) (t : Tree)

def step (f : FileInfo) (store : TagStore) : Marking → Marking × TagStore
  | tags =>
    (if ((⟨store, none⟩ : View).tags s.host f.path).contains mark then .through (skipped s!"{f.name} 已标记为重复")
      else .filed, store)
  | filed =>
    (match (⟨store, none⟩ : View).isFiled s.host f.path t with
      | .error e => .through (failed s!"读取内容指纹失败 {f.name}: {e.message}")
      | .ok true => .through (skipped s!"{f.name} 已登记，视为原件")
      | .ok false => .twin, store)
  | twin =>
    (match (⟨store, none⟩ : View).twin? s.host f.path t with
      | .error e => .through (failed s!"重复检测失败 {f.name}: {e.message}")
      | .ok found => .index found, store)
  | index found =>
    match store.index s.host t f.path with
    | (.error e, store) => (.through (failed s!"登记内容指纹失败 {f.name}: {e.message}"), store)
    | (.ok _, store) =>
      (match found with
        | none => .through (skipped s!"{f.name} 没有重复")
        | some p => .tag p, store)
  | tag p => (.through (applied s!"已标记为重复: {f.name}（与 {p} 相同）"), (store.addTag (s.host.key f.path) mark).2)
  | through r => (.through r, store)

/-- A store that several workers use, each of which looks at one file. -/
structure Shared (ι : Type) where
  store : TagStore
  work : ι → Marking

variable (files : ι → FileInfo)

def begin (store : TagStore) : Shared ι := ⟨store, fun i => start (files i)⟩

/-- One worker takes its next step. -/
def next (x : Shared ι) (i : ι) : Shared ι :=
  let (m, store) := (x.work i).step s mark t (files i) x.store
  ⟨store, Function.update x.work i m⟩

def run (x : Shared ι) (schedule : List ι) : Shared ι := schedule.foldl (next s mark t files) x

end

variable {s : Setting} {mark : String} {t : Tree} {files : ι → FileInfo} {store : TagStore} {c : ByteArray}
  {schedule : List ι} {i j k : ι} {x : Shared ι}

/-- Left alone, a worker does what the action does. -/
theorem step_alone {f : FileInfo} {w : Workspace} {o : Option String} (hdry : s.config.dryRun = false) :
    (fun y : Marking × TagStore => y.1.step s (o.getD Action.defaultTag) w.tree f y.2)^[5] (start f, w.store) =
      (.through ((Action.markAsDuplicate o).run s f w).1, ((Action.markAsDuplicate o).run s f w).2.store) := by
  have hview := Workspace.view_real (w := w) hdry
  generalize hg : (fun y : Marking × TagStore => y.1.step s (o.getD Action.defaultTag) w.tree f y.2) = g
  have hturn : ∀ m store, g (m, store) = m.step s (o.getD Action.defaultTag) w.tree f store := fun m store => by
    rw [← hg]
  change g (g (g (g (g (start f, w.store))))) = _
  unfold Action.run Action.judge Action.judgeMark start
  dsimp only
  rw [hview]
  by_cases hdir : f.isDir = true
  · simp only [if_pos hdir, hturn, step]
  by_cases htag : ((⟨w.store, none⟩ : View).tags s.host f.path).contains (o.getD Action.defaultTag) = true
  · simp only [if_neg hdir, if_pos htag, hturn, step]
  simp only [if_neg hdir, if_neg htag, hturn, step]
  cases hfiled : (⟨w.store, none⟩ : View).isFiled s.host f.path w.tree with
  | error e => rfl
  | ok known =>
    cases known with
    | true => rfl
    | false =>
      dsimp only [step]
      cases htwin : (⟨w.store, none⟩ : View).twin? s.host f.path w.tree with
      | error e => rfl
      | ok found =>
        dsimp only [step]
        rw [hdry, if_neg Bool.false_ne_true]
        unfold Task.perform
        dsimp only
        rcases hindex : w.store.index s.host w.tree f.path with ⟨e | print, store'⟩
        · rfl
        · cases found <;> rfl

/-- The worker looks for a twin, which is its third step, when no worker has taken its fourth and put a content on
record. -/
def LooksFirst (schedule : List ι) (i : ι) : Prop :=
  ∃ before after, schedule = before ++ i :: after ∧ before.count i = 2 ∧ ∀ j, before.count j < 4

lemma LooksFirst.count (h : LooksFirst schedule i) : 3 ≤ schedule.count i := by
  obtain ⟨before, after, rfl, htwo, -⟩ := h
  rw [List.count_append, List.count_cons_self]
  omega

lemma looksFirst_concat : LooksFirst (schedule ++ [k]) i ↔
    LooksFirst schedule i ∨ k = i ∧ schedule.count i = 2 ∧ ∀ j, schedule.count j < 4 := by
  constructor
  · rintro ⟨before, after, heq, htwo, hfour⟩
    rcases List.eq_nil_or_concat after with rfl | ⟨after, x, rfl⟩
    · obtain ⟨rfl, hk⟩ := List.append_inj' heq rfl
      exact Or.inr ⟨List.singleton_inj.1 hk, htwo, hfour⟩
    · rw [List.concat_eq_append, ← List.cons_append, ← List.append_assoc] at heq
      exact Or.inl ⟨before, after, (List.append_inj' heq rfl).1, htwo, hfour⟩
  · rintro (⟨before, after, rfl, h⟩ | ⟨rfl, h⟩)
    · exact ⟨before, after ++ [k], by simp, h⟩
    · exact ⟨schedule, [], rfl, h⟩

/-- The first worker to look for a twin is one of them. -/
lemma exists_looksFirst (h : ∃ j, 3 ≤ schedule.count j) : ∃ i, LooksFirst schedule i := by
  induction schedule using List.reverseRecOn with
  | nil => simp at h
  | append_singleton schedule k ih =>
    by_cases hbefore : ∃ j, 3 ≤ schedule.count j
    · obtain ⟨i, hi⟩ := ih hbefore
      exact ⟨i, looksFirst_concat.2 (Or.inl hi)⟩
    · push Not at hbefore
      obtain ⟨j, hj⟩ := h
      have hlt := hbefore j
      rw [List.count_append, List.count_singleton] at hj
      split at hj
      · next hkj =>
        obtain rfl : k = j := by simpa using hkj
        exact ⟨k, looksFirst_concat.2 (Or.inr ⟨rfl, by omega, fun i => (hbefore i).trans (by omega)⟩)⟩
      · omega

/-- Files with the same content, filed under different paths, that neither are on record nor have the tag, as there is
nothing else on record with their content. -/
structure Fresh (s : Setting) (mark : String) (t : Tree) (files : ι → FileInfo) (store : TagStore) (c : ByteArray) :
    Prop where
  regular : ∀ i, (files i).isDir = false
  read : ∀ i, t.read s.host.cwd (files i).path = .ok c
  filedAs : ∀ i, t.read s.host.cwd (s.host.key (files i).path) = .ok c
  apart : Function.Injective fun i => s.host.key (files i).path
  size : c.size ≤ TagStore.maxSize
  single : store.files.Single
  unfiled : ∀ i, store.print (s.host.key (files i).path) = none
  untagged : ∀ i, (s.host.key (files i).path, mark) ∉ store.tags
  alone : ∀ i, ¬store.HasTwin s.host t (s.host.key (files i).path) c

/-- What a worker is at after so many steps. -/
def Reaches (schedule : List ι) (i : ι) : Marking → Prop
  | tags => schedule.count i = 0
  | filed => schedule.count i = 1
  | twin => schedule.count i = 2
  | index found => schedule.count i = 3 ∧ (found = none ↔ LooksFirst schedule i)
  | tag _ => schedule.count i = 4 ∧ ¬LooksFirst schedule i
  | through _ => schedule.count i = 4 ∧ LooksFirst schedule i ∨ 5 ≤ schedule.count i

/-- What the store and the workers have come to after a schedule. -/
structure Along (s : Setting) (mark : String) (files : ι → FileInfo) (store : TagStore) (c : ByteArray)
    (schedule : List ι) (x : Shared ι) : Prop where
  single : x.store.files.Single
  print : ∀ i, 4 ≤ schedule.count i → x.store.print (s.host.key (files i).path) = some (Content.print s.host c)
  rest : ∀ m, (∀ i, 4 ≤ schedule.count i → s.host.key (files i).path ≠ m) → x.store.print m = store.print m
  tagged : ∀ i, (s.host.key (files i).path, mark) ∈ x.store.tags ↔ 5 ≤ schedule.count i ∧ ¬LooksFirst schedule i
  work : ∀ i, Reaches schedule i (x.work i)

lemma Fresh.along (h : Fresh s mark t files store c) : Along s mark files store c [] (begin files store) where
  single := h.single
  print i hi := by simp at hi
  rest m _ := rfl
  tagged i := by simpa [begin] using h.untagged i
  work i := by simp [begin, start, h.regular, Reaches]

/-- Steps of others do not matter for what a worker is at. -/
lemma Reaches.concat {m : Marking} (h : Reaches schedule i m) (hne : k ≠ i) : Reaches (schedule ++ [k]) i m := by
  have hcount : (schedule ++ [k]).count i = schedule.count i := by simp [List.count_append, hne]
  have hlooks : LooksFirst (schedule ++ [k]) i ↔ LooksFirst schedule i := by simp [looksFirst_concat, hne]
  cases m <;> simpa only [Reaches, hcount, hlooks] using h

lemma count_next : (schedule ++ [k]).count i = if k = i then schedule.count i + 1 else schedule.count i := by
  rw [List.count_append, List.count_singleton]
  by_cases h : k = i <;> simp [h]

/-- A worker's step, told by what it puts on record, whom it gives the tag, and what the worker is at after it. -/
lemma Along.extend (h : Along s mark files store c schedule x) {m : Marking} {store' : TagStore}
    (hsingle : store'.files.Single)
    (hprint : ∀ p, store'.print p = if schedule.count k = 3 ∧ s.host.key (files k).path = p then
      some (Content.print s.host c) else x.store.print p)
    (htag : ∀ i, (s.host.key (files i).path, mark) ∈ store'.tags ↔ (s.host.key (files i).path, mark) ∈ x.store.tags ∨
      (schedule.count k = 4 ∧ ¬LooksFirst schedule k) ∧ k = i)
    (hwork : Reaches (schedule ++ [k]) k m) :
    Along s mark files store c (schedule ++ [k]) ⟨store', Function.update x.work k m⟩ where
  single := hsingle
  print i hi := by
    dsimp only
    rw [hprint]
    split
    · rfl
    · next hno =>
      refine h.print i ?_
      rw [count_next] at hi
      split at hi
      · next hki =>
        subst hki
        have hne : schedule.count k ≠ 3 := fun heq => hno ⟨heq, rfl⟩
        omega
      · exact hi
  rest p hp := by
    dsimp only
    rw [hprint]
    split
    · next hnow => exact absurd hnow.2 (hp k (by rw [count_next, if_pos rfl]; omega))
    · refine h.rest p fun i hi => hp i ?_
      rw [count_next]
      split <;> omega
  tagged i := by
    dsimp only
    rw [htag, h.tagged, count_next, looksFirst_concat]
    by_cases hki : k = i
    · subst hki
      by_cases hfirst : LooksFirst schedule k
      · simp [hfirst]
      · simp only [hfirst, not_false_eq_true, and_true, if_true, true_and, false_or]
        constructor
        · intro hcount
          exact ⟨by omega, fun htwo => by omega⟩
        · rintro ⟨hfour, -⟩
          omega
    · simp [hki]
  work i := by
    dsimp only
    by_cases hki : k = i
    · subst hki
      rwa [Function.update_self]
    · rw [Function.update_of_ne (Ne.symm hki)]
      exact (h.work i).concat hki

section

variable (hfresh : Fresh s mark t files store c)

include hfresh

/-- A worker that has put nothing on record yet finds a twin if another has. -/
lemma Along.hasTwin_iff (h : Along s mark files store c schedule x) (hcount : schedule.count k < 4) :
    x.store.HasTwin s.host t (s.host.key (files k).path) c ↔ ∃ j, 4 ≤ schedule.count j := by
  constructor
  · rintro ⟨m, hne, ⟨f, hf, hfits⟩, b, hread, hdigest⟩
    by_contra hno
    push Not at hno
    rw [h.rest m fun i hi => absurd hi (by have := hno i; omega)] at hf
    exact hfresh.alone k ⟨m, hne, ⟨f, hf, hfits⟩, b, hread, hdigest⟩
  · rintro ⟨j, hj⟩
    refine ⟨s.host.key (files j).path, fun heq => ?_, ⟨_, h.print j hj, Fingerprint.fits_print⟩, c, hfresh.filedAs j, rfl⟩
    have hjk : j = k := hfresh.apart heq
    subst hjk
    omega

/-- One step of one worker. -/
lemma Along.concat (h : Along s mark files store c schedule x) :
    Along s mark files store c (schedule ++ [k]) (next s mark t files x k) := by
  classical
  have hat := h.work k
  have hread := hfresh.read k
  have hsame : ∀ p, schedule.count k ≠ 3 → x.store.print p = if schedule.count k = 3 ∧ s.host.key (files k).path = p then
      some (Content.print s.host c) else x.store.print p := fun p hne => (if_neg fun hand => hne hand.1).symm
  have hkeep : ∀ i, schedule.count k ≠ 4 → ((s.host.key (files i).path, mark) ∈ x.store.tags ↔
      (s.host.key (files i).path, mark) ∈ x.store.tags ∨ (schedule.count k = 4 ∧ ¬LooksFirst schedule k) ∧ k = i) :=
    fun i hne => by simp [hne]
  have hcount : (schedule ++ [k]).count k = schedule.count k + 1 := by rw [count_next, if_pos rfl]
  have hlater : schedule.count k ≠ 2 → (LooksFirst (schedule ++ [k]) k ↔ LooksFirst schedule k) := fun hne => by
    simp [looksFirst_concat, hne]
  unfold next
  cases hm : x.work k with
  | tags =>
    replace hat : schedule.count k = 0 := by rwa [hm] at hat
    have hno : ¬((⟨x.store, none⟩ : View).tags s.host (files k).path).contains mark = true := by
      rw [List.contains_iff_mem]
      exact fun htag => absurd ((h.tagged k).1 (View.mem_tagsOf.1 htag)).1 (by omega)
    dsimp only [step]
    rw [if_neg hno]
    exact h.extend h.single (fun p => hsame p (by omega)) (fun i => hkeep i (by omega))
      (show (schedule ++ [k]).count k = 1 by omega)
  | filed =>
    replace hat : schedule.count k = 1 := by rwa [hm] at hat
    have hnone : x.store.print (s.host.key (files k).path) = none := by
      rw [h.rest _ fun i hi heq => ?_]
      · exact hfresh.unfiled k
      · have hik : i = k := hfresh.apart heq
        subst hik
        omega
    have hfiled : (⟨x.store, none⟩ : View).isFiled s.host (files k).path t = .ok false := by
      refine (TagStore.isFiled_of_read (s := x.store) hread).trans ?_
      simp [hnone]
    dsimp only [step]
    rw [hfiled]
    exact h.extend h.single (fun p => hsame p (by omega)) (fun i => hkeep i (by omega))
      (show (schedule ++ [k]).count k = 2 by omega)
  | twin =>
    replace hat : schedule.count k = 2 := by rwa [hm] at hat
    obtain ⟨-, found, htwin, hfound⟩ :=
      (TagStore.twin?_of_read (s := x.store) h.single hread).resolve_right fun hno => hno.1 hfresh.size
    dsimp only [step]
    rw [View.twin?_direct, htwin]
    refine h.extend h.single (fun p => hsame p (by omega)) (fun i => hkeep i (by omega)) ⟨by omega, ?_⟩
    have hfirst : ¬LooksFirst schedule k := fun hfirst => by
      have := hfirst.count
      omega
    rw [h.hasTwin_iff hfresh (by omega)] at hfound
    rw [looksFirst_concat, ← Option.not_isSome_iff_eq_none, hfound]
    simp [hfirst, hat]
  | index found =>
    obtain ⟨hthree, hfound⟩ : schedule.count k = 3 ∧ (found = none ↔ LooksFirst schedule k) := by rwa [hm] at hat
    dsimp only [step]
    rw [TagStore.index_of_read hread hfresh.size]
    refine h.extend (TagStore.single_setPrint h.single) (fun p => ?_) (fun i => ?_) ?_
    · rw [TagStore.print_setPrint hfresh.size]
      simp [hthree]
    · rw [TagStore.tags_setPrint]
      exact hkeep i (by omega)
    · cases found with
      | none => exact Or.inl ⟨by omega, (hlater (by omega)).2 (hfound.1 rfl)⟩
      | some p => exact ⟨by omega, fun hfirst => by simpa using hfound.2 ((hlater (by omega)).1 hfirst)⟩
  | tag p =>
    obtain ⟨hfour, hfirst⟩ : schedule.count k = 4 ∧ ¬LooksFirst schedule k := by rwa [hm] at hat
    refine h.extend (TagStore.single_addTag h.single) (fun p => ?_) (fun i => ?_) (Or.inr (by omega))
    · rw [TagStore.print_addTag]
      exact hsame p (by omega)
    · rw [TagStore.mem_addTag]
      simp [hfour, hfirst, hfresh.apart.eq_iff, or_comm]
  | through r =>
    have hend : schedule.count k = 4 ∧ LooksFirst schedule k ∨ 5 ≤ schedule.count k := by rwa [hm] at hat
    refine h.extend h.single (fun p => hsame p (by omega)) (fun i => ?_) (Or.inr (by omega))
    rcases hend with ⟨-, hfirst⟩ | hfive
    · simp [hfirst]
    · exact hkeep i (by omega)

/-- Any schedule. -/
lemma Fresh.run : Along s mark files store c schedule (run s mark t files (begin files store) schedule) := by
  induction schedule using List.reverseRecOn with
  | nil => exact hfresh.along
  | append_singleton schedule k ih =>
    rw [Marking.run, List.foldl_append, ← Marking.run]
    exact ih.concat hfresh

/-- When all workers have finished, the files without the tag are those that were looked at before any content was put on
record; so there is at least one, and just one if the others were looked at later. -/
theorem untagged_iff
    (hover : ∀ i, ((run s mark t files (begin files store) schedule).work i).isOver = true) :
    (Nonempty ι → ∃ i, (s.host.key (files i).path, mark) ∉ (run s mark t files (begin files store) schedule).store.tags) ∧
      ∀ i, (s.host.key (files i).path, mark) ∉ (run s mark t files (begin files store) schedule).store.tags ↔
        LooksFirst schedule i := by
  have halong : Along s mark files store c schedule (run s mark t files (begin files store) schedule) := hfresh.run
  have hend : ∀ i, schedule.count i = 4 ∧ LooksFirst schedule i ∨ 5 ≤ schedule.count i := by
    intro i
    have hat := halong.work i
    have hdone := hover i
    cases hm : (run s mark t files (begin files store) schedule).work i with
    | through r =>
      rw [hm] at hat
      exact hat
    | _ =>
      rw [hm] at hdone
      cases hdone
  have hiff : ∀ i, (s.host.key (files i).path, mark) ∉ (run s mark t files (begin files store) schedule).store.tags ↔
      LooksFirst schedule i := by
    intro i
    rw [halong.tagged i]
    rcases hend i with ⟨hfour, hfirst⟩ | hfive
    · simp [hfirst]
    · simp [hfive]
  refine ⟨fun ⟨j⟩ => ?_, hiff⟩
  obtain ⟨i, hi⟩ := exists_looksFirst ⟨j, show 3 ≤ schedule.count j by rcases hend j with h | h <;> omega⟩
  exact ⟨i, (hiff i).2 hi⟩

end

section

/-- Two files with the same content. -/
def pair (second : Bool) : FileInfo := Job.found (if second then "/r/b.txt" else "/r/a.txt")

lemma key_pair (i : Bool) : Job.plainHost.key (pair i).path = (pair i).path := by
  cases i <;> decide +kernel

lemma fresh_pair : Fresh ((Job.plainJob []).setting ⟨"/r"⟩) "t" Job.twins pair .empty ⟨#[1]⟩ where
  regular := by decide
  read i := by cases i <;> rfl
  filedAs i := by
    show Job.twins.read Job.plainHost.cwd (Job.plainHost.key (pair i).path) = .ok ⟨#[1]⟩
    rw [key_pair]
    cases i <;> rfl
  apart := Bool.injective_iff.2 (by decide +kernel)
  size := by decide
  single := List.nodup_nil
  unfiled _ := rfl
  untagged _ := by simp [TagStore.empty]
  alone _ := by
    rintro ⟨m, -, ⟨f, hf, -⟩, -⟩
    cases hf

/-- The second file is looked at when the first is on record. -/
theorem untagged_iff_turns : LooksFirst [false, false, false, false, true, true, true, true, true] false ∧
    (Job.plainHost.key (pair false).path, "t") ∉ (run ((Job.plainJob []).setting ⟨"/r"⟩) "t" Job.twins pair
      (begin pair .empty) [false, false, false, false, true, true, true, true, true]).store.tags := by
  have hfirst : LooksFirst [false, false, false, false, true, true, true, true, true] false :=
    ⟨[false, false], _, rfl, by decide, by decide⟩
  exact ⟨hfirst, ((untagged_iff fresh_pair (by decide +kernel)).2 false).2 hfirst⟩

/-- Both files are looked at before either is on record. -/
theorem untagged_iff_fails : ¬∀ (ι : Type) [DecidableEq ι] [Nonempty ι] (s : Setting) (mark : String) (t : Tree)
    (files : ι → FileInfo) (store : TagStore) (c : ByteArray), Fresh s mark t files store c → ∀ schedule : List ι,
    (∀ i, ((run s mark t files (begin files store) schedule).work i).isOver = true) →
      ∃! i, (s.host.key (files i).path, mark) ∉ (run s mark t files (begin files store) schedule).store.tags := by
  intro h
  obtain ⟨i, -, honly⟩ := h Bool _ _ _ pair _ _ fresh_pair
    [false, true, false, true, false, true, false, true] (by decide +kernel)
  have hboth : ∀ i, ((Job.plainHost.key (pair i).path, "t") ∉ (run ((Job.plainJob []).setting ⟨"/r"⟩) "t" Job.twins pair
    (begin pair .empty) [false, true, false, true, false, true, false, true]).store.tags) := by decide +kernel
  have hfalse := honly false (hboth false)
  have htrue := honly true (hboth true)
  rw [← htrue] at hfalse
  cases hfalse

end

end Marking

end FileOrganizer
