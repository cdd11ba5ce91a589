import Mathlib.Data.List.Nodup
import Mathlib.Data.List.Perm.Basic

/-!
# Taking turns over a shuffled list

A rotation walks once through an order of elements and then through a new one. Before each turn
the elements that are no longer there are dropped from the order, whereas the position stays
what it was.

* `shuffle_perm`: the Fisher–Yates shuffle permutes, whatever is drawn.
* `passed_turn`: a turn passes the element it yields and no other if those before are spared.
* `mem_passed_of_ends`: an order that ends has passed every element that is left.
* `skipped_of_not_spared`: a turn that does not spare one passes over another.
* `behind_turn`: what is before the position when a turn is taken is not yielded.
* `Due`, `due_turn`: a bound on the turns that an element waits for its own, which each turn
  lowers.
-/

namespace BeamSocket.Lib

variable {α : Type*}

/-- Fisher–Yates: from the last position down to the second, each is swapped with one up to it.
    `draw i` is what is drawn at position `i`. -/
def shuffle (draw : ℕ → ℕ) (v : List α) : List α :=
  (List.range' 1 (v.length - 1)).reverse.foldl (fun v i => v.swap i (draw i % (i + 1))) v

theorem foldl_swap_perm (target : ℕ → ℕ) (positions : List ℕ) (v : List α) :
    (positions.foldl (fun v i => v.swap i (target i)) v).Perm v := by
  induction positions generalizing v with
  | nil => exact List.Perm.refl v
  | cons i positions ih => exact (ih _).trans (List.swap_perm v i (target i))

theorem shuffle_perm (draw : ℕ → ℕ) (v : List α) : (shuffle draw v).Perm v :=
  foldl_swap_perm (fun i => draw i % (i + 1)) _ v

/-- An order, and the position of the next turn. -/
structure Rotation (α : Type*) where
  order : List α
  idx : ℕ

namespace Rotation

section

variable (r : Rotation α)

/-- The part of the order before the position. -/
def passed : List α := r.order.take r.idx

/-- What the cursor has still to pass. -/
def ahead : List α := r.order.drop r.idx

theorem passed_append_ahead : r.passed ++ r.ahead = r.order := List.take_append_drop ..

theorem length_passed_le : r.passed.length ≤ r.idx := List.length_take_le ..

end

variable [DecidableEq α] (r : Rotation α) (live fresh : List α)

/-- The order without the elements that are no longer there. -/
def retained : List α := r.order.filter live.contains

/-- There is nothing left behind the position. -/
def Ends : Prop := (r.retained live).length ≤ r.idx

instance : Decidable (r.Ends live) := inferInstanceAs (Decidable (_ ≤ _))

/-- The rotation behind a turn; `fresh` is the next order. -/
def turn : Rotation α := if r.Ends live then ⟨fresh, 1⟩ else ⟨r.retained live, r.idx + 1⟩

/-- Whose turn it is. -/
def yield : Option α := if r.Ends live then fresh[0]? else (r.retained live)[r.idx]?

/-- Every element that was passed is still there, or none that is ahead. -/
def Spared : Prop := (∀ a ∈ r.passed, a ∈ live) ∨ ∀ a ∈ r.ahead, a ∉ live

instance : Decidable (r.Spared live) := inferInstanceAs (Decidable (_ ∨ _))

variable {r live fresh} {a : α}

theorem mem_retained : a ∈ r.retained live ↔ a ∈ r.order ∧ a ∈ live := by
  simp [retained]

theorem retained_eq :
    r.retained live = r.passed.filter live.contains ++ r.ahead.filter live.contains := by
  rw [← List.filter_append, passed_append_ahead]
  rfl

/-- The position is one of the order, unless there is no order to go on with. -/
theorem isSome_yield (r : Rotation α) (live : List α) (hfresh : fresh ≠ []) :
    (r.yield live fresh).isSome := by
  unfold yield
  split_ifs with hends
  · exact isSome_getElem? _ _ |>.mpr (List.length_pos_of_ne_nil hfresh)
  · exact isSome_getElem? _ _ |>.mpr (Nat.lt_of_not_le hends)

theorem nodup_turn (h : r.order.Nodup) (hfresh : fresh.Nodup) :
    (r.turn live fresh).order.Nodup := by
  unfold turn
  split_ifs
  · exact hfresh
  · exact h.filter _

/-- A turn that does not end the order, with every element before the position still there. -/
theorem retained_of_spared (hspared : r.Spared live) (hends : ¬r.Ends live) :
    r.retained live = r.passed ++ r.ahead.filter live.contains := by
  rw [retained_eq]
  obtain hpassed | hahead := hspared
  · rw [List.filter_eq_self.mpr fun a ha => List.contains_iff_mem.mpr (hpassed a ha)]
  · refine absurd ?_ hends
    have hnone : r.ahead.filter live.contains = [] := by
      simpa using hahead
    have hle := Nat.le_trans (List.length_filter_le live.contains r.passed) r.length_passed_le
    unfold Ends
    rwa [retained_eq, hnone, List.append_nil]

/-- A turn in the middle of an order passes the element that it yields and no other. -/
theorem passed_turn (hidx : r.idx ≤ r.order.length) (hspared : r.Spared live)
    (hends : ¬r.Ends live) :
    (r.turn live fresh).passed = r.passed ++ (r.yield live fresh).toList := by
  have hlength : r.passed.length = r.idx := List.length_take_of_le hidx
  have hkept : (r.retained live).take r.idx = r.passed := by
    rw [retained_of_spared hspared hends, List.take_left' hlength]
  unfold turn yield
  rw [if_neg hends, if_neg hends, ← hkept]
  exact List.take_add_one

theorem mem_passed_of_ends (hspared : r.Spared live) (hends : r.Ends live)
    (hidx : r.idx ≤ r.order.length) (horder : a ∈ r.order) (hlive : a ∈ live) : a ∈ r.passed := by
  rw [← passed_append_ahead, List.mem_append] at horder
  refine horder.resolve_right fun hahead => ?_
  obtain hpassed | hnone := hspared
  · have hall := List.filter_eq_self.mpr fun a ha => List.contains_iff_mem.mpr (hpassed a ha)
    have hlength : r.passed.length = r.idx := List.length_take_of_le hidx
    have hmem : a ∈ r.ahead.filter live.contains := by simp [hahead, hlive]
    have hpos := List.length_pos_of_mem hmem
    unfold Ends at hends
    rw [retained_eq, hall, List.length_append] at hends
    omega
  · exact hnone a hahead hlive

/-- What is before the position when a turn is taken stays there, and it is not its turn. -/
theorem behind_turn (h : r.order.Nodup) (hends : ¬r.Ends live)
    (ha : a ∈ (r.retained live).take r.idx) :
    a ∈ (r.turn live fresh).passed ∧ r.yield live fresh ≠ some a := by
  unfold turn yield
  rw [if_neg hends, if_neg hends]
  constructor
  · exact List.take_subset_take_left _ (Nat.le_succ _) ha
  · intro hget
    have hnodup : (r.retained live).Nodup := h.filter _
    obtain ⟨i, hi, hia⟩ := List.mem_take_iff_getElem.mp ha
    obtain ⟨hidx, hidxa⟩ := List.getElem?_eq_some_iff.mp hget
    have heq := (hnodup.getElem_inj_iff).mp (hia.trans hidxa.symm)
    omega

theorem mem_take_retained (hpassed : a ∈ r.passed) (hlive : a ∈ live) :
    a ∈ (r.retained live).take r.idx := by
  rw [retained_eq, List.take_append]
  refine List.mem_append_left _ ?_
  rw [List.take_of_length_le (Nat.le_trans (List.length_filter_le _ _) r.length_passed_le)]
  simp [hpassed, hlive]

/-- A turn that finds a passed element gone and another one ahead passes over an element. -/
theorem skipped_of_not_spared (hspared : ¬r.Spared live) :
    ∃ a ∈ r.ahead, a ∈ live ∧ a ∈ (r.retained live).take r.idx := by
  unfold Spared at hspared
  push Not at hspared
  obtain ⟨⟨b, hb, hgone⟩, c, hc, hlive⟩ := hspared
  have hless : (r.passed.filter live.contains).length < r.idx := by
    refine Nat.lt_of_lt_of_le (List.length_filter_lt_length_iff_exists.mpr ⟨b, hb, ?_⟩)
      r.length_passed_le
    simpa using hgone
  cases hahead : r.ahead.filter live.contains with
  | nil =>
    have hmem : c ∈ r.ahead.filter live.contains := by simp [hc, hlive]
    rw [hahead] at hmem
    exact absurd hmem List.not_mem_nil
  | cons a rest =>
    have hmem : a ∈ r.ahead.filter live.contains := by
      rw [hahead]
      exact List.mem_cons_self
    rw [List.mem_filter, List.contains_iff_mem] at hmem
    refine ⟨a, hmem.1, hmem.2, ?_⟩
    -- The first that is ahead moves up to where the passed ones were.
    rw [retained_eq, hahead, List.take_append]
    refine List.mem_append_right _ ?_
    rw [← Nat.succ_pred_eq_of_pos (Nat.sub_pos_of_lt hless), List.take_succ_cons]
    exact List.mem_cons_self

/-! ## Waiting for a turn -/

theorem idx_turn_le (hfresh : fresh ≠ []) :
    (r.turn live fresh).idx ≤ (r.turn live fresh).order.length := by
  unfold turn
  split_ifs with hends
  · exact List.length_pos_of_ne_nil hfresh
  · exact Nat.lt_of_not_le hends

theorem ahead_turn_of_ends (hends : r.Ends live) : (r.turn live fresh).ahead = fresh.tail := by
  unfold turn
  rw [if_pos hends]
  exact List.drop_one

theorem length_ahead_turn (hends : ¬r.Ends live) :
    (r.turn live fresh).ahead.length + 1 ≤ r.ahead.length := by
  have hlt : r.idx < (r.retained live).length := Nat.lt_of_not_le hends
  have hle : (r.retained live).length ≤ r.order.length := List.length_filter_le ..
  unfold turn
  rw [if_neg hends]
  show ((r.retained live).drop (r.idx + 1)).length + 1 ≤ (r.order.drop r.idx).length
  rw [List.length_drop, List.length_drop]
  omega

/-- In an order that spares those before it, it is the turn of the first one ahead. -/
theorem turn_of_spared (hidx : r.idx ≤ r.order.length) (hspared : r.Spared live)
    (hends : ¬r.Ends live) :
    r.yield live fresh = (r.ahead.filter live.contains).head? ∧
      (r.turn live fresh).ahead = (r.ahead.filter live.contains).tail := by
  have hlength : r.passed.length = r.idx := List.length_take_of_le hidx
  unfold turn yield
  rw [if_neg hends, if_neg hends]
  constructor
  · rw [retained_of_spared hspared hends, ← hlength, List.getElem?_append_right (Nat.le_refl _),
      Nat.sub_self, List.head?_eq_getElem?]
  · show (r.retained live).drop (r.idx + 1) = _
    rw [retained_of_spared hspared hends, ← hlength, List.drop_append,
      List.drop_eq_nil_of_le (Nat.le_succ _), Nat.add_sub_cancel_left, List.nil_append,
      List.drop_one]

/-- The element `a` has its turn among the next `k`, if there are never more than `n`. -/
def Due (n : ℕ) (a : α) (k : ℕ) (r : Rotation α) : Prop :=
  (∃ l₁ l₂, r.ahead = l₁ ++ a :: l₂ ∧ l₁.length < k) ∨ r.ahead.length + n ≤ k

/-- It is the turn of `a`, or `a` waits for one turn less. -/
theorem due_turn {n k : ℕ} (hdue : Due n a (k + 1) r) (hidx : r.idx ≤ r.order.length)
    (hspared : r.Spared live) (hfresh : fresh.length ≤ n) (hlive : a ∈ live) (ha : a ∈ fresh) :
    r.yield live fresh = some a ∨ Due n a k (r.turn live fresh) := by
  by_cases hends : r.Ends live
  · -- `a` was passed or is not in the order; it is in the next one
    have hlater : r.ahead.length + n ≤ k + 1 := by
      refine hdue.resolve_left ?_
      rintro ⟨l₁, l₂, hahead, -⟩
      have hmem : a ∈ r.ahead := by simp [hahead]
      obtain hpassed | hnone := hspared
      · have hall := List.filter_eq_self.mpr fun b hb => List.contains_iff_mem.mpr (hpassed b hb)
        have hlength : r.passed.length = r.idx := List.length_take_of_le hidx
        have hpos : 0 < (r.ahead.filter live.contains).length :=
          List.length_pos_of_mem (a := a) (by simp [hmem, hlive])
        unfold Ends at hends
        rw [retained_eq, hall, List.length_append] at hends
        omega
      · exact hnone a hmem hlive
    cases fresh with
    | nil => cases ha
    | cons b rest =>
      obtain rfl | hrest := List.mem_cons.mp ha
      · refine .inl ?_
        unfold yield
        rw [if_pos hends]
        rfl
      · refine .inr (.inl ?_)
        obtain ⟨l₁, l₂, rfl⟩ := List.append_of_mem hrest
        refine ⟨l₁, l₂, ahead_turn_of_ends hends, ?_⟩
        simp only [List.length_cons, List.length_append] at hfresh
        omega
  · obtain ⟨l₁, l₂, hahead, hlt⟩ | hlater := hdue
    · obtain ⟨hyield, hturn⟩ : r.yield live fresh = _ ∧ _ := turn_of_spared hidx hspared hends
      have hfilter : r.ahead.filter live.contains =
          l₁.filter live.contains ++ a :: l₂.filter live.contains := by
        rw [hahead, List.filter_append, List.filter_cons_of_pos (List.contains_iff_mem.mpr hlive)]
      have hle : (l₁.filter live.contains).length ≤ l₁.length := List.length_filter_le ..
      rw [hfilter] at hyield hturn
      cases hfirst : l₁.filter live.contains with
      | nil =>
        rw [hfirst] at hyield
        exact .inl hyield
      | cons b rest =>
        rw [hfirst] at hturn hle
        refine .inr (.inl ⟨rest, _, hturn, ?_⟩)
        rw [List.length_cons] at hle
        omega
    · have hless : (r.turn live fresh).ahead.length + 1 ≤ _ := length_ahead_turn hends
      refine .inr (.inr ?_)
      omega

end Rotation

end BeamSocket.Lib
