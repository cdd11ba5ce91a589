import Mathlib.Algebra.Ring.Nat
import BeamSocket.Lib.OrdSet

/-!
# Tasks that share a state

Any number of tasks take atomic steps on a shared state, one at a time. A task is
what it has left to do. A `Discipline` says what a task relies on between two of
its steps (`Ok`), which tasks can be at work together (`Compatible`), and which
resources a task has left in disorder (`Pending`); a resource that no task has
left in disorder is `Settled`.

* `Tasks.count_set`, `Tasks.sum_insert`: what a step does to the number of tasks of a
  kind, and to a sum over the tasks.
* `Tasks.owned_set_gain`, `Tasks.owned_set_lose`, `Tasks.Apart.set`: what a step does to
  what the tasks own.
* `Discipline.Inv.step`: a step that keeps to the discipline keeps the invariant
  for all tasks.
* `Discipline.Inv.spawn`: so does starting a task.
-/

namespace BeamSocket.Lib

/-- The tasks at work, by a number for each. -/
abbrev Tasks (τ : Type*) := AList fun _ : ℕ => τ

namespace Tasks

variable {τ : Type*}

/-- The tasks after number `i` has stepped to `next`, or has finished. -/
def set (tasks : Tasks τ) (i : ℕ) : Option τ → Tasks τ
  | none => tasks.erase i
  | some T => tasks.insert i T

theorem lookup_set (tasks : Tasks τ) (i j : ℕ) (next : Option τ) :
    (tasks.set i next).lookup j = if j = i then next else tasks.lookup j := by
  cases next with
  | none => exact lookup_erase tasks i j
  | some T => exact lookup_insert tasks i j T

/-- The tasks after `f` at number `i`, if there is one. -/
def modify (tasks : Tasks τ) (i : ℕ) (f : τ → τ) : Tasks τ :=
  tasks.set i ((tasks.lookup i).map f)

theorem lookup_modify (tasks : Tasks τ) (i j : ℕ) (f : τ → τ) :
    (tasks.modify i f).lookup j = if j = i then (tasks.lookup i).map f else tasks.lookup j :=
  lookup_set tasks i j _

theorem modify_of_lookup_none {tasks : Tasks τ} {i : ℕ} (h : tasks.lookup i = none) (f : τ → τ) :
    tasks.modify i f = tasks := by
  rw [modify, h]
  exact AList.ext (List.kerase_of_notMem_keys (AList.lookup_eq_none.mp h))

/-! ## Counting tasks -/

/-- How many tasks are as `p` says. -/
def count (tasks : Tasks τ) (p : τ → Bool) : ℕ := tasks.entries.countP fun e => p e.2

/-- 1 for a task that is as `p` says. -/
def weight (p : τ → Bool) : Option τ → ℕ
  | none => 0
  | some T => if p T then 1 else 0

variable {tasks : Tasks τ} {i : ℕ}

/-- A task with the tasks around it. -/
theorem exists_split (hi : i ∈ tasks.entries.keys) :
    ∃ T before after, tasks.entries = before ++ ⟨i, T⟩ :: after ∧
      tasks.entries.kerase i = before ++ after ∧ tasks.lookup i = some T := by
  obtain ⟨T, before, after, hbefore, hentries, herase⟩ := List.exists_of_kerase hi
  refine ⟨T, before, after, hentries, herase, ?_⟩
  show List.dlookup i tasks.entries = some T
  rw [hentries, List.dlookup_append, List.dlookup_eq_none.mpr hbefore, Option.none_or,
    List.dlookup_cons_eq]

theorem count_erase (p : τ → Bool) (tasks : Tasks τ) (i : ℕ) :
    count (tasks.erase i) p + weight p (tasks.lookup i) = tasks.count p := by
  by_cases hi : i ∈ tasks.entries.keys
  · obtain ⟨T, before, after, hentries, herase, hlookup⟩ := exists_split hi
    show List.countP _ (tasks.entries.kerase i) + _ = List.countP _ tasks.entries
    rw [herase, hlookup, hentries, List.countP_append, List.countP_append, List.countP_cons]
    simp only [weight]
    omega
  · have hlookup : tasks.lookup i = none := AList.lookup_eq_none.mpr hi
    rw [hlookup]
    show List.countP _ (tasks.entries.kerase i) = List.countP _ tasks.entries
    rw [List.kerase_of_notMem_keys hi]

theorem count_insert (p : τ → Bool) (tasks : Tasks τ) (i : ℕ) (T : τ) :
    count (tasks.insert i T) p + weight p (tasks.lookup i) =
      tasks.count p + weight p (some T) := by
  rw [← count_erase p tasks i]
  show List.countP _ (⟨i, T⟩ :: tasks.entries.kerase i) + _ = _
  rw [List.countP_cons, show weight p (some T) = if p T then 1 else 0 from rfl]
  show List.countP _ (tasks.entries.kerase i) + (if p T then 1 else 0) + _ =
    List.countP _ (tasks.entries.kerase i) + _ + _
  omega

/-- A step of task `i` changes the count by what it was and what it is. -/
theorem count_set (p : τ → Bool) (tasks : Tasks τ) (i : ℕ) (next : Option τ) :
    (tasks.set i next).count p + weight p (tasks.lookup i) = tasks.count p + weight p next := by
  cases next with
  | none => exact count_erase p tasks i
  | some T => exact count_insert p tasks i T

/-- Starting task `i`. -/
theorem count_set_of_lookup_none (p : τ → Bool) (h : tasks.lookup i = none) (next : Option τ) :
    (tasks.set i next).count p = tasks.count p + weight p next := by
  rw [← count_set, h]
  rfl

theorem count_eq_zero {p : τ → Bool} (h : ∀ i T, tasks.lookup i = some T → p T = false) :
    tasks.count p = 0 := by
  refine List.countP_eq_zero.mpr fun e he => ?_
  rw [h e.1 e.2 ((List.mem_dlookup_iff tasks.nodupKeys).mpr he)]
  exact Bool.false_ne_true

theorem count_pos (p : τ → Bool) {T : τ} (hi : tasks.lookup i = some T) (hT : p T = true) :
    0 < tasks.count p := by
  have h := count_erase p tasks i
  rw [hi, weight, if_pos hT] at h
  omega

/-- The sum of `f` over the tasks. -/
def sum (tasks : Tasks τ) (f : τ → ℕ) : ℕ := (tasks.entries.map fun e => f e.2).sum

theorem sum_erase (f : τ → ℕ) (tasks : Tasks τ) (i : ℕ) :
    sum (tasks.erase i) f + ((tasks.lookup i).map f).getD 0 = tasks.sum f := by
  by_cases hi : i ∈ tasks.entries.keys
  · obtain ⟨T, before, after, hentries, herase, hlookup⟩ := exists_split hi
    show (List.map _ (tasks.entries.kerase i)).sum + _ = (List.map _ tasks.entries).sum
    rw [herase, hlookup, hentries]
    simp only [List.map_append, List.map_cons, List.sum_append, List.sum_cons, Option.map_some,
      Option.getD_some]
    omega
  · rw [AList.lookup_eq_none.mpr hi]
    show (List.map _ (tasks.entries.kerase i)).sum = (List.map _ tasks.entries).sum
    rw [List.kerase_of_notMem_keys hi]

theorem sum_insert (f : τ → ℕ) (tasks : Tasks τ) (i : ℕ) (T : τ) :
    sum (tasks.insert i T) f + ((tasks.lookup i).map f).getD 0 = tasks.sum f + f T := by
  rw [← sum_erase f tasks i]
  show (List.map _ (⟨i, T⟩ :: tasks.entries.kerase i)).sum + _ = _
  rw [List.map_cons, List.sum_cons]
  show f T + (List.map _ (tasks.entries.kerase i)).sum + _ =
    (List.map _ (tasks.entries.kerase i)).sum + _ + f T
  omega

/-- A table whose entries are tasks that are as `p` says, each under its own key, has at
    most as many entries as there are such tasks. -/
theorem length_entries_le_count {κ : Type*} [DecidableEq κ] (p : τ → Bool) (key : τ → Option κ)
    (table : AList fun _ : κ => ℕ)
    (h : ∀ k i, table.lookup k = some i →
      ∃ T, tasks.lookup i = some T ∧ p T = true ∧ key T = some k) :
    table.entries.length ≤ tasks.count p := by
  have hentry : ∀ e ∈ table.entries,
      ∃ T, tasks.lookup e.2 = some T ∧ p T = true ∧ key T = some e.1 := by
    intro e he
    exact h e.1 e.2 ((List.mem_dlookup_iff table.nodupKeys).mpr he)
  have hnodup : (table.entries.map fun e => e.2).Nodup := by
    apply (List.nodup_map_iff_inj_on table.nodupKeys.nodup).mpr
    intro e he e' he' heq
    obtain ⟨T, hT, -, hkey⟩ := hentry e he
    obtain ⟨T', hT', -, hkey'⟩ := hentry e' he'
    rw [heq, hT'] at hT
    cases hT
    have hfst : e.1 = e'.1 := Option.some.inj (hkey.symm.trans hkey')
    obtain ⟨k, i⟩ := e
    obtain ⟨k', i'⟩ := e'
    cases hfst
    cases heq
    rfl
  have hsubset : (table.entries.map fun e => e.2) ⊆
      (tasks.entries.filter fun e => p e.2).map fun e => e.1 := by
    intro i hi
    obtain ⟨e, he, rfl⟩ := List.mem_map.mp hi
    obtain ⟨T, hT, hp, -⟩ := hentry e he
    have hmem : ⟨e.2, T⟩ ∈ tasks.entries := (List.mem_dlookup_iff tasks.nodupKeys).mp hT
    exact List.mem_map.mpr ⟨⟨e.2, T⟩, List.mem_filter.mpr ⟨hmem, hp⟩, rfl⟩
  have hle := (List.subperm_of_subset hnodup hsubset).length_le
  rw [List.length_map, List.length_map] at hle
  rw [count, List.countP_eq_length_filter]
  exact hle

/-! ## What tasks own -/

section

variable {α : Type*} {a : τ → Option α} {next : Option τ} {x y : α}

/-- Some task owns `x`; `a` is what a task owns, if anything. -/
def Owned (tasks : Tasks τ) (a : τ → Option α) (x : α) : Prop :=
  ∃ i T, tasks.lookup i = some T ∧ a T = some x

/-- No two tasks own the same. -/
def Apart (tasks : Tasks τ) (a : τ → Option α) : Prop :=
  ∀ i j T U x, tasks.lookup i = some T → tasks.lookup j = some U → a T = some x → a U = some x →
    i = j

theorem owned_iff_any [DecidableEq α] (tasks : Tasks τ) (a : τ → Option α) (x : α) :
    (tasks.entries.any fun e => decide (a e.2 = some x)) = true ↔ tasks.Owned a x := by
  rw [List.any_eq_true]
  constructor
  · rintro ⟨⟨i, T⟩, he, hT⟩
    exact ⟨i, T, (List.mem_dlookup_iff tasks.nodupKeys).mpr he, of_decide_eq_true hT⟩
  · rintro ⟨i, T, hi, hT⟩
    exact ⟨⟨i, T⟩, (List.mem_dlookup_iff tasks.nodupKeys).mp hi, decide_eq_true hT⟩

instance Owned.instDecidable [DecidableEq α] (tasks : Tasks τ) (a : τ → Option α) (x : α) :
    Decidable (tasks.Owned a x) := decidable_of_iff _ (owned_iff_any tasks a x)

theorem not_owned_empty : ¬ Owned (∅ : Tasks τ) a x := by
  rintro ⟨i, T, hi, -⟩
  cases hi

theorem apart_empty : Apart (∅ : Tasks τ) a := by
  intro i j T U x hi
  cases hi

theorem owned_set_iff : (tasks.set i next).Owned a x ↔
    next.bind a = some x ∨ ∃ j T, j ≠ i ∧ tasks.lookup j = some T ∧ a T = some x := by
  constructor
  · rintro ⟨j, T, hj, hT⟩
    rw [lookup_set] at hj
    split_ifs at hj with hji
    · exact .inl (Option.bind_eq_some_iff.mpr ⟨T, hj, hT⟩)
    · exact .inr ⟨j, T, hji, hj, hT⟩
  · rintro (h | ⟨j, T, hji, hj, hT⟩)
    · obtain ⟨T, hnext, hT⟩ := Option.bind_eq_some_iff.mp h
      exact ⟨i, T, by rw [lookup_set, if_pos rfl, hnext], hT⟩
    · exact ⟨j, T, by rw [lookup_set, if_neg hji, hj], hT⟩

theorem owned_iff_bind : tasks.Owned a x ↔
    (tasks.lookup i).bind a = some x ∨ ∃ j T, j ≠ i ∧ tasks.lookup j = some T ∧ a T = some x := by
  constructor
  · rintro ⟨j, T, hj, hT⟩
    by_cases hji : j = i
    · rw [hji] at hj
      exact .inl (Option.bind_eq_some_iff.mpr ⟨T, hj, hT⟩)
    · exact .inr ⟨j, T, hji, hj, hT⟩
  · rintro (h | ⟨j, T, -, hj, hT⟩)
    · obtain ⟨T, hi, hT⟩ := Option.bind_eq_some_iff.mp h
      exact ⟨i, T, hi, hT⟩
    · exact ⟨j, T, hj, hT⟩

/-- A step that keeps what the task owns. -/
theorem owned_set_of_eq (h : next.bind a = (tasks.lookup i).bind a) :
    (tasks.set i next).Owned a x ↔ tasks.Owned a x := by
  rw [owned_set_iff, h, ← owned_iff_bind]

/-- A step by which a task comes to own `y`. -/
theorem owned_set_gain (h : (tasks.lookup i).bind a = none) (hnext : next.bind a = some y) :
    (tasks.set i next).Owned a x ↔ x = y ∨ tasks.Owned a x := by
  rw [owned_set_iff, hnext, @owned_iff_bind _ tasks i, h, Option.some.injEq, eq_comm]
  simp

/-- A step by which a task gives up `y`, which no other task owns. -/
theorem owned_set_lose (happart : tasks.Apart a) (h : (tasks.lookup i).bind a = some y)
    (hnext : next.bind a = none) :
    (tasks.set i next).Owned a x ↔ x ≠ y ∧ tasks.Owned a x := by
  obtain ⟨T, hi, hT⟩ := Option.bind_eq_some_iff.mp h
  rw [owned_set_iff, hnext, @owned_iff_bind _ tasks i, h, Option.some.injEq]
  constructor
  · rintro (hx | ⟨j, U, hji, hj, hU⟩)
    · cases hx
    · refine ⟨?_, .inr ⟨j, U, hji, hj, hU⟩⟩
      rintro rfl
      exact hji (happart j i U T x hj hi hU hT)
  · rintro ⟨hne, rfl | hother⟩
    · exact absurd rfl hne
    · exact .inr hother

/-- What determines something that no two tasks own is not owned by two tasks. -/
theorem Apart.of_determines {β : Type*} {b : τ → Option β} (h : tasks.Apart b) (f : α → β)
    (hf : ∀ T x, a T = some x → b T = some (f x)) : tasks.Apart a := by
  intro i j T U x hi hj hT hU
  exact h i j T U (f x) hi hj (hf T x hT) (hf U x hU)

/-- A step keeps the tasks apart if what it comes to own is new. -/
theorem Apart.set (h : tasks.Apart a)
    (hnext : ∀ x, next.bind a = some x → (tasks.lookup i).bind a = some x ∨ ¬ tasks.Owned a x) :
    (tasks.set i next).Apart a := by
  -- what the task owns after the step, no other task owns
  have hother : ∀ j T U x, j ≠ i → next = some T → tasks.lookup j = some U → a T = some x →
      a U ≠ some x := by
    intro j T U x hji hT hj hx hU
    rcases hnext x (Option.bind_eq_some_iff.mpr ⟨T, hT, hx⟩) with hold | hnew
    · obtain ⟨T', hi, hx'⟩ := Option.bind_eq_some_iff.mp hold
      exact hji (h j i U T' x hj hi hU hx')
    · exact hnew ⟨j, U, hj, hU⟩
  intro j k T U x hj hk hT hU
  rw [lookup_set] at hj hk
  split_ifs at hj hk with hji hki hki
  · rw [hji, hki]
  · exact absurd hU (hother k T U x hki hj hk hT)
  · exact absurd hT (hother j U T x hji hk hj hU)
  · exact h j k T U x hj hk hT hU

end

end Tasks

/-- What tasks rely on and what each of them may leave in disorder, as a rule for their
    interleavings: a task keeps what the others rely on, and what is in disorder is some task's
    to repair. -/
structure Discipline (σ τ ρ : Type*) where
  /-- What the task relies on. -/
  Ok : σ → τ → Prop
  /-- Tasks that can be at work together. -/
  Compatible : τ → τ → Prop
  symm : ∀ T U, Compatible T U → Compatible U T
  /-- The task has left the resource in disorder. -/
  Pending : τ → ρ → Prop
  /-- The resource is in order. -/
  Settled : σ → ρ → Prop

namespace Discipline

variable {σ τ ρ : Type*} (D : Discipline σ τ ρ)

/-- Every task can rely on what it relies on, they can all be at work together,
    and what none has left in disorder is in order. -/
structure Inv (s : σ) (tasks : Tasks τ) : Prop where
  ok : ∀ i, ∀ T ∈ tasks.lookup i, D.Ok s T
  compatible : ∀ i j, i ≠ j → ∀ T ∈ tasks.lookup i, ∀ U ∈ tasks.lookup j, D.Compatible T U
  settled : ∀ r, (∀ i, ∀ T ∈ tasks.lookup i, ¬ D.Pending T r) → D.Settled s r

/-- The step of `T` from `s` to `s'`, with `next` left to do, keeps to the
    discipline when every other task is among `Other`. -/
structure Step (Other : τ → Prop) (s : σ) (T : τ) (s' : σ) (next : Option τ) : Prop where
  ok : ∀ T' ∈ next, D.Ok s' T'
  other : ∀ U, Other U → D.Ok s U → D.Compatible T U →
    D.Ok s' U ∧ ∀ T' ∈ next, D.Compatible T' U
  settled : ∀ r, (¬ D.Pending T r → D.Settled s r) → (∀ T' ∈ next, ¬ D.Pending T' r) →
    D.Settled s' r

variable {D} {Other : τ → Prop} {s s' : σ} {tasks : Tasks τ} {T : τ} {next : Option τ} {i : ℕ}

theorem Inv.empty (h : ∀ r, D.Settled s r) : D.Inv s ∅ where
  ok i T hT := by cases hT
  compatible i j _ T hT := by cases hT
  settled r _ := h r

theorem Inv.step (h : D.Inv s tasks) (hT : T ∈ tasks.lookup i) (hstep : D.Step Other s T s' next)
    (hother : ∀ j, j ≠ i → ∀ U ∈ tasks.lookup j, Other U) : D.Inv s' (tasks.set i next) := by
  have hU : ∀ j, j ≠ i → ∀ U ∈ tasks.lookup j, D.Ok s' U ∧ ∀ T' ∈ next, D.Compatible T' U := by
    intro j hj U hU
    exact hstep.other U (hother j hj U hU) (h.ok j U hU) (h.compatible i j (Ne.symm hj) T hT U hU)
  refine ⟨?_, ?_, ?_⟩
  · intro j U hj
    rw [Tasks.lookup_set] at hj
    split_ifs at hj with heq
    · exact hstep.ok U hj
    · exact (hU j heq U hj).1
  · intro j k hjk U hj V hk
    rw [Tasks.lookup_set] at hj hk
    split_ifs at hj hk with hji hki hki
    · exact absurd (hji.trans hki.symm) hjk
    · exact (hU k hki V hk).2 U hj
    · exact D.symm _ _ ((hU j hji U hj).2 V hk)
    · exact h.compatible j k hjk U hj V hk
  · intro r hfree
    have hnext : ∀ T' ∈ next, ¬ D.Pending T' r := by
      intro T' hT'
      apply hfree i T'
      rw [Tasks.lookup_set, if_pos rfl]
      exact hT'
    refine hstep.settled r (fun hmine => h.settled r fun j U hj => ?_) hnext
    by_cases heq : j = i
    · subst heq
      rw [Option.mem_unique hj hT]
      exact hmine
    · apply hfree j U
      rw [Tasks.lookup_set, if_neg heq]
      exact hj

theorem Inv.spawn (h : D.Inv s tasks) (hi : tasks.lookup i = none) (hok : D.Ok s T)
    (hcompatible : ∀ U, D.Compatible T U) : D.Inv s (tasks.insert i T) := by
  refine ⟨?_, ?_, ?_⟩
  · intro j U hj
    rw [lookup_insert] at hj
    split_ifs at hj
    · cases hj
      exact hok
    · exact h.ok j U hj
  · intro j k hjk U hj V hk
    rw [lookup_insert] at hj hk
    split_ifs at hj hk
    · cases hj
      exact hcompatible V
    · cases hj
      exact hcompatible V
    · cases hk
      exact D.symm _ _ (hcompatible U)
    · exact h.compatible j k hjk U hj V hk
  · intro r hfree
    refine h.settled r fun j U hj => hfree j U ?_
    have hne : j ≠ i := by
      intro heq
      rw [heq, hi] at hj
      cases hj
    rw [lookup_insert, if_neg hne]
    exact hj

end Discipline

end BeamSocket.Lib
