import Mathlib.Data.List.Induction
import Mathlib.Data.List.Sort

/-!
# Bounded selection with a heap

The first `n` of many elements, by pushing one element after another on a heap and popping the
greatest when there are more than `n`. Orders are comparison functions, as in Rust: `cmp a b` is
how `a` compares to `b`.

`HeapApi` is what is documented of a binary heap: which items `push` adds and `pop` removes. The
order in which a heap hands out its items is left open, and so is for which capacities there is
memory.

* `Selects.replace`: what is kept comes before what is not.
* `map_sortBy_select`: what is kept, sorted, is the beginning of all elements sorted.
* `getLast?_candidates`, `length_le_of_mem_candidates`: what is kept are the last candidates of the
  loop, and there are never more than `n + 1`.
-/

namespace BeamSocket.Lib

variable {α : Type*}

/-- `std::cmp::Reverse`. -/
def reversed (cmp : α → α → Ordering) : α → α → Ordering := fun a b => cmp b a

instance reversed.instTransCmp (cmp : α → α → Ordering) [Std.TransCmp cmp] :
    Std.TransCmp (reversed cmp) := inferInstanceAs (Std.TransCmp fun a b => cmp b a)

/-- `slice::sort_by`: a stable sort. -/
def sortBy (cmp : α → α → Ordering) (xs : List α) : List α :=
  xs.mergeSort fun a b => (cmp a b).isLE

/-- A binary heap whose greatest item by `cmp` is popped first. `intoIter` is in any order.
    `withCapacity` is `none` where it does not return: it panics for more bytes than can be
    addressed, and the process is aborted if they cannot be allocated. -/
structure HeapApi (cmp : α → α → Ordering) where
  Heap : Type
  withCapacity : ℕ → Option Heap
  push : Heap → α → Heap
  pop : Heap → Heap
  intoIter : Heap → List α
  intoIter_withCapacity : ∀ {capacity h}, withCapacity capacity = some h → intoIter h = []
  push_perm : ∀ h x, (intoIter (push h x)).Perm (x :: intoIter h)
  pop_perm : ∀ h, intoIter h ≠ [] → ∃ m, (∀ x ∈ intoIter h, (cmp x m).isLE) ∧
    (intoIter h).Perm (m :: intoIter (pop h))

section

variable {cmp : α → α → Ordering}

@[simp] theorem sortBy_nil : sortBy cmp [] = [] := List.mergeSort_nil

theorem sortBy_perm (xs : List α) : (sortBy cmp xs).Perm xs := List.mergeSort_perm ..

theorem mem_sortBy {xs : List α} {a : α} : a ∈ sortBy cmp xs ↔ a ∈ xs := (sortBy_perm xs).mem_iff

theorem pairwise_sortBy [Std.TransCmp cmp] (xs : List α) :
    (sortBy cmp xs).Pairwise fun a b => (cmp a b).isLE = true := by
  refine List.pairwise_mergeSort (fun _ _ _ => Std.TransCmp.isLE_trans) ?_ xs
  intro a b
  rw [@Std.OrientedCmp.eq_swap _ cmp _ b a]
  cases cmp a b <;> rfl

/-- Where only equal elements compare as equal there is one way to sort them. -/
theorem eq_sortBy [Std.TransCmp cmp] {xs ys : List α} (hperm : ys.Perm xs)
    (hsorted : ys.Pairwise fun a b => (cmp a b).isLE = true)
    (heq : ∀ a ∈ xs, ∀ b ∈ xs, cmp a b = .eq → a = b) : ys = sortBy cmp xs := by
  refine List.Perm.eq_of_pairwise ?_ hsorted (pairwise_sortBy xs)
    (hperm.trans (sortBy_perm xs).symm)
  intro a b ha hb hab hba
  refine heq a (hperm.mem_iff.mp ha) b (mem_sortBy.mp hb) ?_
  exact Std.OrientedCmp.isLE_antisymm hab hba

end

/-- A heap that is sorted whenever an item is popped, where there is memory for `limit` items. -/
def sortingHeap {α : Type} (cmp : α → α → Ordering) [Std.TransCmp cmp] (limit : ℕ) :
    HeapApi cmp where
  Heap := List α
  withCapacity capacity := if capacity ≤ limit then some [] else none
  push h x := x :: h
  pop h := (sortBy (reversed cmp) h).tail
  intoIter h := h
  intoIter_withCapacity h := by
    split_ifs at h
    exact (Option.some.inj h).symm
  push_perm _ _ := List.Perm.refl _
  pop_perm h hne := by
    have hperm : (sortBy (reversed cmp) h).Perm h := sortBy_perm h
    have hsorted : (sortBy (reversed cmp) h).Pairwise _ := pairwise_sortBy h
    cases hsort : sortBy (reversed cmp) h with
    | nil =>
      rw [hsort] at hperm
      exact absurd hperm.nil_eq.symm hne
    | cons m rest =>
      rw [hsort] at hperm hsorted
      refine ⟨m, ?_, hperm.symm⟩
      intro x hx
      obtain rfl | hrest := List.mem_cons.mp (hperm.mem_iff.mpr hx)
      · exact Std.ReflCmp.isLE_rfl
      · exact (List.pairwise_cons.mp hsorted).1 x hrest

namespace HeapApi

variable {cmp : α → α → Ordering} (api : HeapApi cmp) (n : ℕ)

/-- An element is pushed, and the greatest popped when there are more than `n`. -/
def offer (h : api.Heap) (x : α) : api.Heap :=
  if (api.intoIter (api.push h x)).length > n then api.pop (api.push h x) else api.push h x

/-- The heap behind the elements `xs`. -/
def keep (start : api.Heap) (xs : List α) : api.Heap := xs.foldl (api.offer n) start

/-- The heaps of the loop: before each element, between its push and the pop, and at the end. -/
def trace (h : api.Heap) : List α → List api.Heap
  | [] => [h]
  | x :: xs => h :: api.push h x :: trace (api.offer n h x) xs

/-- The selection, in any order: a heap is made, the elements are offered to it, and what is left is
    handed out. -/
def select (capacity : ℕ) (xs : List α) : Option (List α) :=
  (api.withCapacity capacity).map fun start => api.intoIter (api.keep n start xs)

/-- The candidates of the selection, at each moment of its loop. -/
def candidates (capacity : ℕ) (xs : List α) : List (List α) :=
  match api.withCapacity capacity with
  | none => []
  | some start => (api.trace n start xs).map api.intoIter

end HeapApi

/-- Of `xs` the elements `kept` are kept: `n` of them if any is not, and they come before it. -/
def Selects (cmp : α → α → Ordering) (n : ℕ) (xs kept : List α) : Prop :=
  ∃ dropped, (kept ++ dropped).Perm xs ∧
    (∀ a ∈ kept, ∀ b ∈ dropped, (cmp a b).isLE) ∧ kept.length ≤ n ∧
    (dropped ≠ [] → kept.length = n)

section

variable {cmp : α → α → Ordering} {n : ℕ} {xs kept : List α} {x : α}

theorem Selects.push (h : Selects cmp n xs kept) {kept' : List α} (hpush : kept'.Perm (x :: kept))
    (hroom : kept'.length ≤ n) : Selects cmp n (xs ++ [x]) kept' := by
  obtain ⟨dropped, hperm, -, -, hfull⟩ := h
  have hlength := hpush.length_eq
  rw [List.length_cons] at hlength
  have hnone : dropped = [] := by
    by_contra hne
    have := hfull hne
    omega
  subst hnone
  rw [List.append_nil] at hperm
  refine ⟨[], ?_, fun _ _ b hb => absurd hb List.not_mem_nil, hroom, absurd rfl⟩
  rw [List.append_nil]
  exact hpush.trans ((hperm.cons x).trans (List.perm_append_singleton x xs).symm)

variable [Std.TransCmp cmp]

/-- The greatest of the kept elements and a new one gives way. -/
theorem Selects.replace (h : Selects cmp n xs kept) {m : α} {kept' : List α}
    (hlast : ∀ a ∈ x :: kept, (cmp a m).isLE) (hpop : (x :: kept).Perm (m :: kept'))
    (hover : n < kept.length + 1) : Selects cmp n (xs ++ [x]) kept' := by
  obtain ⟨dropped, hperm, hbefore, hle, -⟩ := h
  have hlength : kept.length = kept'.length := Nat.succ.inj hpop.length_eq
  refine ⟨m :: dropped, ?_, ?_, by omega, fun _ => by omega⟩
  · calc
      (kept' ++ m :: dropped).Perm ((m :: kept') ++ dropped) := List.perm_middle
      List.Perm _ ((x :: kept) ++ dropped) := hpop.symm.append_right dropped
      List.Perm _ (x :: xs) := hperm.cons x
      List.Perm _ (xs ++ [x]) := (List.perm_append_singleton x xs).symm
  · intro a ha b hb
    have ha' : a ∈ x :: kept := hpop.mem_iff.mpr (List.mem_cons_of_mem m ha)
    obtain rfl | hb := List.mem_cons.mp hb
    · exact hlast a ha'
    obtain rfl | ha' := List.mem_cons.mp ha'
    · -- The new element stays: either an old one gives way, or its double does.
      obtain rfl | hm := List.mem_cons.mp (hpop.mem_iff.mpr List.mem_cons_self)
      · exact hbefore m (hpop.cons_inv.mem_iff.mpr ha) b hb
      · exact Std.TransCmp.isLE_trans (hlast a List.mem_cons_self) (hbefore m hm b hb)
    · exact hbefore a ha' b hb

theorem selects_keep (api : HeapApi cmp) (n : ℕ) {start : api.Heap}
    (hstart : api.intoIter start = []) (xs : List α) :
    Selects cmp n xs (api.intoIter (api.keep n start xs)) := by
  induction xs using List.reverseRecOn with
  | nil =>
    show Selects cmp n [] (api.intoIter start)
    rw [hstart]
    exact ⟨[], List.Perm.refl _, by simp, Nat.zero_le n, absurd rfl⟩
  | append_singleton xs x ih =>
    have hpush := api.push_perm (api.keep n start xs) x
    unfold HeapApi.keep at ih hpush ⊢
    rw [List.foldl_append, List.foldl_cons, List.foldl_nil, HeapApi.offer]
    split_ifs with hover
    · have hne : api.intoIter (api.push (xs.foldl (api.offer n) start) x) ≠ [] := by
        intro hnil
        rw [hnil] at hover
        exact absurd hover (Nat.not_lt_zero n)
      obtain ⟨m, hlast, hpop⟩ := api.pop_perm _ hne
      refine ih.replace ?_ (hpush.symm.trans hpop) ?_
      · intro a ha
        exact hlast a (hpush.mem_iff.mpr ha)
      · rw [hpush.length_eq] at hover
        exact hover
    · exact ih.push hpush (Nat.le_of_not_lt hover)

/-- What is selected, sorted, is the beginning of all elements sorted. -/
theorem Selects.sortBy_eq (h : Selects cmp n xs kept)
    (heq : ∀ a ∈ xs, ∀ b ∈ xs, cmp a b = .eq → a = b) :
    sortBy cmp kept = (sortBy cmp xs).take n := by
  obtain ⟨dropped, hperm, hbefore, hle, hfull⟩ := h
  have hlength : (sortBy cmp kept).length = kept.length := (sortBy_perm kept).length_eq
  have hall : sortBy cmp kept ++ sortBy cmp dropped = sortBy cmp xs := by
    refine eq_sortBy (((sortBy_perm kept).append (sortBy_perm dropped)).trans hperm) ?_ heq
    rw [List.pairwise_append]
    refine ⟨pairwise_sortBy kept, pairwise_sortBy dropped, ?_⟩
    intro a ha b hb
    exact hbefore a (mem_sortBy.mp ha) b (mem_sortBy.mp hb)
  rw [← hall]
  by_cases hnone : dropped = []
  · rw [hnone, sortBy_nil, List.append_nil, List.take_of_length_le]
    exact hlength.trans_le hle
  · rw [List.take_left' (hlength.trans (hfull hnone))]

/-- In whatever order the elements of `ys` are offered. -/
theorem map_sortBy_select (api : HeapApi cmp) (n : ℕ) {capacity : ℕ} {xs ys : List α}
    (hroom : (api.withCapacity capacity).isSome) (hperm : ys.Perm xs)
    (heq : ∀ a ∈ xs, ∀ b ∈ xs, cmp a b = .eq → a = b) :
    (api.select n capacity ys).map (sortBy cmp) = some ((sortBy cmp xs).take n) := by
  obtain ⟨start, hstart⟩ := Option.isSome_iff_exists.mp hroom
  have heq' : ∀ a ∈ ys, ∀ b ∈ ys, cmp a b = .eq → a = b := fun a ha b hb =>
    heq a (hperm.mem_iff.mp ha) b (hperm.mem_iff.mp hb)
  have hselects := selects_keep api n (api.intoIter_withCapacity hstart) ys
  rw [HeapApi.select, hstart, Option.map_some, Option.map_some, hselects.sortBy_eq heq',
    eq_sortBy ((sortBy_perm ys).trans hperm) (pairwise_sortBy ys) heq]

end

section

variable {cmp : α → α → Ordering} (api : HeapApi cmp) (n : ℕ)

theorem getLast?_trace (h : api.Heap) (xs : List α) :
    (api.trace n h xs).getLast? = some (api.keep n h xs) := by
  induction xs generalizing h with
  | nil => rfl
  | cons x xs ih =>
    rw [HeapApi.trace, List.getLast?_cons, List.getLast?_cons, ih]
    rfl

theorem length_offer_le {h : api.Heap} (x : α) (hle : (api.intoIter h).length ≤ n) :
    (api.intoIter (api.offer n h x)).length ≤ n := by
  have hpush := (api.push_perm h x).length_eq
  rw [List.length_cons] at hpush
  unfold HeapApi.offer
  split_ifs with hover
  · have hne : api.intoIter (api.push h x) ≠ [] := List.ne_nil_of_length_pos (by omega)
    obtain ⟨m, -, hpop⟩ := api.pop_perm _ hne
    have hlength := hpop.length_eq
    rw [List.length_cons] at hlength
    omega
  · exact Nat.le_of_not_lt hover

/-- Between the push and the pop there is one more than are kept. -/
theorem length_le_of_mem_trace {h : api.Heap} {xs : List α}
    (hle : (api.intoIter h).length ≤ n) :
    ∀ g ∈ api.trace n h xs, (api.intoIter g).length ≤ n + 1 := by
  induction xs generalizing h with
  | nil =>
    intro g hg
    rw [HeapApi.trace, List.mem_singleton] at hg
    rw [hg]
    exact Nat.le_succ_of_le hle
  | cons x xs ih =>
    intro g hg
    rw [HeapApi.trace, List.mem_cons, List.mem_cons] at hg
    rcases hg with rfl | rfl | hg
    · exact Nat.le_succ_of_le hle
    · rw [(api.push_perm h x).length_eq]
      exact Nat.succ_le_succ hle
    · exact ih (length_offer_le api n x hle) g hg

/-- What is selected are the last candidates. -/
theorem getLast?_candidates (capacity : ℕ) (xs : List α) :
    (api.candidates n capacity xs).getLast? = api.select n capacity xs := by
  unfold HeapApi.candidates HeapApi.select
  cases api.withCapacity capacity with
  | none => rfl
  | some start =>
    dsimp only
    rw [List.getLast?_map, getLast?_trace]
    rfl

theorem length_le_of_mem_candidates {capacity : ℕ} {xs cs : List α}
    (h : cs ∈ api.candidates n capacity xs) : cs.length ≤ n + 1 := by
  unfold HeapApi.candidates at h
  cases hstart : api.withCapacity capacity with
  | none =>
    rw [hstart] at h
    cases h
  | some start =>
    rw [hstart] at h
    obtain ⟨g, hg, rfl⟩ := List.mem_map.mp h
    refine length_le_of_mem_trace api n ?_ g hg
    rw [api.intoIter_withCapacity hstart]
    exact Nat.zero_le n

end

end BeamSocket.Lib
