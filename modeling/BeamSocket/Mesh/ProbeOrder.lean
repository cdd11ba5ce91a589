import BeamSocket.Lib.Rotation
import BeamSocket.Mesh.ProbePlane

/-!
# The probe order

`next_probe_target` (`crates/mesh/src/swim.rs`, lines 413–434) between changes of the table. A
round is the run of calls from one reshuffle up to the next.

* `nextProbeTarget_eq`: a call is a turn of the rotation over the non-Dead members.
* `Walks.run`: while every id before the cursor stays non-Dead, the ids before the cursor are
  those that the round has returned.
* `probe_rounds_fair`: a round then returns every member that stays non-Dead once.
* `missed_of_not_spares`: when one of them has died, another member misses its turn.
-/

namespace BeamSocket.Mesh

open BeamSocket.Lib

namespace Membership

/-- The ids of the non-Dead members (lines 416–421). -/
def live (m : Membership) : List NodeId :=
  (m.members.entries.filter fun e => e.2.state ≠ .dead).map Sigma.fst

/-- A member that is not Dead. -/
def NonDead (m : Membership) (id : NodeId) : Prop :=
  ∃ mb, m.members.lookup id = some mb ∧ mb.state ≠ .dead

variable {m : Membership} {id : NodeId}

theorem mem_live : id ∈ m.live ↔ m.NonDead id := by
  unfold live NonDead
  rw [List.mem_map]
  constructor
  · rintro ⟨⟨_, mb⟩, hmem, rfl⟩
    rw [List.mem_filter, decide_eq_true_iff] at hmem
    exact ⟨mb, AList.mem_lookup_iff.mpr hmem.1, hmem.2⟩
  · rintro ⟨mb, hmb, hstate⟩
    refine ⟨⟨id, mb⟩, ?_, rfl⟩
    rw [List.mem_filter, decide_eq_true_iff]
    exact ⟨AList.mem_lookup_iff.mp hmb, hstate⟩

instance : Decidable (m.NonDead id) :=
  decidable_of_iff (m.live.contains id = true) (List.contains_iff_mem.trans mem_live)

theorem nodup_live (m : Membership) : m.live.Nodup :=
  m.members.nodupKeys.sublist List.filter_sublist

end Membership

/-- `probe_order` and `probe_idx` of a table. -/
structure ProbeOrder extends Rotation NodeId where
  table : Membership

namespace ProbeOrder

/-- The next order; `draw i` is what `rng.next` returns at position `i` of the shuffle. -/
def reshuffled (draw : ℕ → UInt64) (m : Membership) : List NodeId :=
  shuffle (fun i => (draw i).toNat) m.live

/-- `next_probe_target` (lines 415–434). -/
def nextProbeTarget (s : ProbeOrder) (draw : ℕ → UInt64) :
    ProbeOrder × Outcome Empty (Option (NodeId × SocketAddr)) :=
  if s.table.live = [] then (s, .ok none)
  else
    let order := s.order.filter s.table.live.contains
    let (order, idx) :=
      if s.idx ≥ order.length then (reshuffled draw s.table, 0) else (order, s.idx)
    match order[idx]? with
    | none => ({ s with order := order, idx := idx }, .panicked)
    | some id =>
      ({ s with order := order, idx := idx + 1 },
        .ok ((s.table.members.lookup id).map fun mb => (id, mb.addr)))

/-- The call begins a new order. -/
def Reshuffles (s : ProbeOrder) : Prop := s.table.live ≠ [] ∧ s.Ends s.table.live

instance (s : ProbeOrder) : Decidable s.Reshuffles := inferInstanceAs (Decidable (_ ∧ _))

variable {s : ProbeOrder} {id : NodeId} {draw : ℕ → UInt64}

theorem reshuffled_perm (draw : ℕ → UInt64) (m : Membership) :
    (reshuffled draw m).Perm m.live := shuffle_perm ..

theorem nodup_reshuffled (draw : ℕ → UInt64) (m : Membership) : (reshuffled draw m).Nodup :=
  (reshuffled_perm draw m).nodup_iff.mpr m.nodup_live

theorem live_of_yield (h : s.yield s.table.live (reshuffled draw s.table) = some id) :
    id ∈ s.table.live := by
  unfold Rotation.yield at h
  split_ifs at h
  · exact (reshuffled_perm draw s.table).mem_iff.mp (List.mem_of_getElem? h)
  · exact (Rotation.mem_retained.mp (List.mem_of_getElem? h)).2

/-- With a non-Dead member a call is a turn of the rotation, and returns whose turn it is. -/
theorem nextProbeTarget_eq (draw : ℕ → UInt64) (hlive : s.table.live ≠ []) :
    ∃ id mb, s.yield s.table.live (reshuffled draw s.table) = some id ∧
      s.table.members.lookup id = some mb ∧ mb.state ≠ .dead ∧
      s.nextProbeTarget draw =
        ({ s with toRotation := s.turn s.table.live (reshuffled draw s.table) },
          .ok (some (id, mb.addr))) := by
  have hfresh : reshuffled draw s.table ≠ [] := by
    intro hnil
    have hperm := reshuffled_perm draw s.table
    rw [hnil] at hperm
    exact hlive hperm.nil_eq.symm
  obtain ⟨id, hid⟩ :=
    Option.isSome_iff_exists.mp (Rotation.isSome_yield s.toRotation s.table.live hfresh)
  obtain ⟨mb, hmb, hstate⟩ := Membership.mem_live.mp (live_of_yield hid)
  refine ⟨id, mb, hid, hmb, hstate, ?_⟩
  unfold nextProbeTarget
  rw [if_neg hlive]
  unfold Rotation.yield at hid
  unfold Rotation.turn
  by_cases hends : s.Ends s.table.live
  · have hidx : s.idx ≥ (s.order.filter s.table.live.contains).length := hends
    rw [if_pos hends] at hid
    simp only [if_pos hidx, if_pos hends, hid, hmb, Option.map_some]
  · have hidx : ¬s.idx ≥ (s.order.filter s.table.live.contains).length := hends
    have hget : (s.order.filter s.table.live.contains)[s.idx]? = some id := by
      rwa [if_neg hends] at hid
    simp only [if_neg hidx, if_neg hends, hget, hmb, Option.map_some]
    rfl

/-- The index is one of the order in every call. -/
theorem nextProbeTarget_ne_panicked (s : ProbeOrder) (draw : ℕ → UInt64) :
    (s.nextProbeTarget draw).2 ≠ .panicked := by
  by_cases hlive : s.table.live = []
  · rw [nextProbeTarget, if_pos hlive]
    exact Outcome.ok_ne_panicked _
  · obtain ⟨id, mb, -, -, -, heq⟩ := nextProbeTarget_eq draw hlive
    rw [heq]
    exact Outcome.ok_ne_panicked _

/-- The probe loop takes what a call returns: with no target it goes back to sleep. -/
theorem loop_choose (params : SwimParams) {p : ProbePlane} (hprobe : p.probe = .choosing)
    (htable : p.membership = s.table) {target : Option (NodeId × SocketAddr)}
    (hcall : (s.nextProbeTarget draw).2 = .ok target) :
    (p.loop params (.choose (target.map Prod.fst))).1 =
      { p with probe := target.elim .sleeping fun t => .chosen t.1 t.2 } := by
  by_cases hlive : s.table.live = []
  · rw [nextProbeTarget, if_pos hlive] at hcall
    cases hcall
    have hdead : p.membership.members.entries.all (fun e => e.2.state = .dead) := by
      rw [List.all_eq_true]
      intro e he
      by_contra hstate
      have hmem : e.1 ∈ s.table.live := by
        rw [Membership.mem_live, ← htable]
        exact ⟨e.2, AList.mem_lookup_iff.mpr he, fun heq => hstate (decide_eq_true heq)⟩
      rw [hlive] at hmem
      exact absurd hmem List.not_mem_nil
    dsimp only [ProbePlane.loop, Option.map_none, Option.elim_none]
    rw [if_pos hprobe, if_pos hdead]
  · obtain ⟨id, mb, -, hmb, hstate, heq⟩ := nextProbeTarget_eq draw hlive
    rw [heq] at hcall
    cases hcall
    dsimp only [ProbePlane.loop, Option.map_some, Option.elim_some]
    rw [if_pos hprobe, htable, hmb]
    dsimp only
    rw [if_pos hstate]

/-! ## Runs -/

/-- A call of `next_probe_target`, or another use of the table. -/
inductive Event
  /-- A call of `next_probe_target`. -/
  | call (draw : ℕ → UInt64)
  /-- Another operation leaves the table `m`. -/
  | change (m : Membership)

/-- One event; what a call returns is not kept. -/
def step (s : ProbeOrder) : Event → ProbeOrder
  | .call draw => (s.nextProbeTarget draw).1
  | .change m => { s with table := m }

/-- The id that a call returns. -/
def returned (s : ProbeOrder) : Event → Option NodeId
  | .call draw =>
    match (s.nextProbeTarget draw).2 with
    | .ok target => target.map Prod.fst
    | _ => none
  | .change _ => none

/-- The ids that the calls of a run return, in order. -/
def returns (s : ProbeOrder) : List Event → List NodeId
  | [] => []
  | e :: evs => (s.returned e).toList ++ (s.step e).returns evs

/-- A call that does not begin a new order. -/
def Continues (s : ProbeOrder) : Event → Prop
  | .call _ => ¬s.Reshuffles
  | .change _ => True

instance (s : ProbeOrder) : ∀ e, Decidable (s.Continues e)
  | .call _ => inferInstanceAs (Decidable (¬_))
  | .change _ => isTrue trivial

/-- When it is called, every id before the cursor is non-Dead, or no id from the cursor on. -/
def Spares (s : ProbeOrder) : Event → Prop
  | .call _ => s.Spared s.table.live
  | .change _ => True

instance (s : ProbeOrder) : ∀ e, Decidable (s.Spares e)
  | .call _ => inferInstanceAs (Decidable (s.Spared _))
  | .change _ => isTrue trivial

/-- The member `id` is non-Dead in every state of the run. -/
def Stays (id : NodeId) (s : ProbeOrder) : List Event → Prop
  | [] => s.table.NonDead id
  | e :: evs => s.table.NonDead id ∧ (s.step e).Stays id evs

instance Stays.instDecidable (id : NodeId) :
    ∀ (s : ProbeOrder) (evs : List Event), Decidable (s.Stays id evs)
  | s, [] => inferInstanceAs (Decidable (s.table.NonDead id))
  | s, e :: evs =>
    have := Stays.instDecidable id (s.step e) evs
    inferInstanceAs (Decidable (s.table.NonDead id ∧ (s.step e).Stays id evs))

/-- Behind the reshuffling call in `s` come `mid` and then the next reshuffling call. -/
structure Round (s : ProbeOrder) (draw : ℕ → UInt64) (mid : List Event) : Prop where
  first : s.Reshuffles
  between : StepsMeet step Continues (s.step (.call draw)) mid
  last : (run step (s.step (.call draw)) mid).Reshuffles

variable {e : Event} {evs : List Event}

theorem step_call (draw : ℕ → UInt64) (hlive : s.table.live ≠ []) :
    s.step (.call draw) =
        { s with toRotation := s.turn s.table.live (reshuffled draw s.table) } ∧
      s.returned (.call draw) = s.yield s.table.live (reshuffled draw s.table) := by
  obtain ⟨id, mb, hid, -, -, heq⟩ := nextProbeTarget_eq draw hlive
  dsimp only [step, returned]
  rw [heq, hid]
  exact ⟨rfl, rfl⟩

theorem step_call_of_nil (draw : ℕ → UInt64) (hlive : s.table.live = []) :
    s.step (.call draw) = s ∧ s.returned (.call draw) = none := by
  dsimp only [step, returned]
  rw [nextProbeTarget, if_pos hlive]
  exact ⟨rfl, rfl⟩

/-! ## Rounds -/

/-- A round that has returned `ids` so far, and passed no other. -/
structure Walks (ids : List NodeId) (s : ProbeOrder) : Prop where
  passed : s.passed = ids
  nodup : s.order.Nodup
  idx_le : s.idx ≤ s.order.length

theorem walks_first (draw : ℕ → UInt64) (h : s.Reshuffles) :
    Walks (s.returned (.call draw)).toList (s.step (.call draw)) := by
  obtain ⟨hstep, hreturned⟩ := step_call draw h.1
  have hperm := reshuffled_perm draw s.table
  rw [hstep, hreturned]
  unfold Rotation.turn Rotation.yield
  rw [if_pos h.2, if_pos h.2]
  refine ⟨?_, ?_, ?_⟩
  · exact List.take_one.trans (congrArg Option.toList List.head?_eq_getElem?)
  · exact nodup_reshuffled draw s.table
  · rw [hperm.length_eq]
    exact List.length_pos_of_ne_nil h.1

theorem Walks.step {ids : List NodeId} (h : Walks ids s) (hcont : s.Continues e)
    (hspares : s.Spares e) : Walks (ids ++ (s.returned e).toList) (s.step e) := by
  cases e with
  | change m =>
    rw [show s.returned (.change m) = none from rfl, Option.toList_none, List.append_nil]
    exact ⟨h.passed, h.nodup, h.idx_le⟩
  | call draw =>
    by_cases hlive : s.table.live = []
    · obtain ⟨hstep, hreturned⟩ := step_call_of_nil draw hlive
      rw [hstep, hreturned, Option.toList_none, List.append_nil]
      exact h
    · obtain ⟨hstep, hreturned⟩ := step_call draw hlive
      have hends : ¬s.Ends s.table.live := fun hends => hcont ⟨hlive, hends⟩
      rw [hstep, hreturned]
      refine ⟨?_, ?_, ?_⟩
      · rw [← h.passed]
        exact Rotation.passed_turn h.idx_le hspares hends
      · exact Rotation.nodup_turn h.nodup (nodup_reshuffled draw s.table)
      · show (s.turn _ _).idx ≤ (s.turn _ _).order.length
        rw [Rotation.turn, if_neg hends]
        exact Nat.lt_of_not_le hends

theorem Walks.run {ids : List NodeId} (h : Walks ids s)
    (hcont : StepsMeet ProbeOrder.step Continues s evs)
    (hspares : StepsMeet ProbeOrder.step Spares s evs) :
    Walks (ids ++ s.returns evs) (Lib.run ProbeOrder.step s evs) := by
  induction evs generalizing s ids with
  | nil => rwa [returns, List.append_nil]
  | cons e evs ih =>
    rw [returns, ← List.append_assoc]
    exact ih (h.step hcont.1 hspares.1) hcont.2 hspares.2

theorem mem_order_step (h : id ∈ s.order) (hcont : s.Continues e) (hid : s.table.NonDead id) :
    id ∈ (s.step e).order := by
  cases e with
  | change m => exact h
  | call draw =>
    have hmem := Membership.mem_live.mpr hid
    have hlive : s.table.live ≠ [] := List.ne_nil_of_mem hmem
    have hends : ¬s.Ends s.table.live := fun hends => hcont ⟨hlive, hends⟩
    rw [(step_call draw hlive).1]
    show id ∈ (s.turn _ _).order
    rw [Rotation.turn, if_neg hends]
    exact Rotation.mem_retained.mpr ⟨h, hmem⟩

/-- An id of the order that stays non-Dead stays in it. -/
theorem mem_order_run (h : id ∈ s.order) (hcont : StepsMeet step Continues s evs)
    (hid : s.Stays id evs) :
    id ∈ (run step s evs).order ∧ (run step s evs).table.NonDead id := by
  induction evs generalizing s with
  | nil => exact ⟨h, hid⟩
  | cons e evs ih => exact ih (mem_order_step h hcont.1 hid.1) hcont.2 hid.2

theorem mem_order_first (draw : ℕ → UInt64) (h : s.Reshuffles) (hid : s.table.NonDead id) :
    id ∈ (s.step (.call draw)).order := by
  rw [(step_call draw h.1).1]
  show id ∈ (s.turn _ _).order
  rw [Rotation.turn, if_pos h.2]
  exact (reshuffled_perm draw s.table).mem_iff.mpr (Membership.mem_live.mpr hid)

/-- A call always finds its index in the order. In a round all of whose calls find every id
    before the cursor non-Dead, or none behind it, every member that stays non-Dead is returned
    once. -/
theorem probe_rounds_fair (s : ProbeOrder) (draw : ℕ → UInt64) (mid : List Event)
    (draw' : ℕ → UInt64) :
    (s.nextProbeTarget draw).2 ≠ .panicked ∧
      (s.Round draw mid →
        StepsMeet step Spares (s.step (.call draw)) (mid ++ [.call draw']) →
        ∀ id, s.Stays id (.call draw :: mid) →
          (s.returns (.call draw :: mid)).count id = 1) := by
  refine ⟨nextProbeTarget_ne_panicked s draw, ?_⟩
  intro hround hspares id hid
  rw [stepsMeet_append] at hspares
  have hwalks := (walks_first draw hround.first).run hround.between hspares.1
  obtain ⟨horder, hlast⟩ :=
    mem_order_run (mem_order_first draw hround.first hid.1) hround.between hid.2
  have hpassed := Rotation.mem_passed_of_ends hspares.2.1 hround.last.2 hwalks.idx_le horder
    (Membership.mem_live.mpr hlast)
  rw [hwalks.passed] at hpassed
  refine List.count_eq_one_of_mem ?_ hpassed
  show ((s.returned (.call draw)).toList ++ returns _ mid).Nodup
  rw [← hwalks.passed]
  exact hwalks.nodup.sublist (List.take_sublist _ _)

/-! ## Members that miss their turn -/

theorem not_returned_of_behind (hnodup : s.order.Nodup)
    (hbehind : id ∈ (s.retained s.table.live).take s.idx) (hcont : s.Continues (.call draw))
    (hid : s.table.NonDead id) :
    s.returned (.call draw) ≠ some id ∧ (s.step (.call draw)).order.Nodup ∧
      id ∈ (s.step (.call draw)).passed := by
  have hlive : s.table.live ≠ [] := List.ne_nil_of_mem (Membership.mem_live.mpr hid)
  have hends : ¬s.Ends s.table.live := fun hends => hcont ⟨hlive, hends⟩
  obtain ⟨hstep, hreturned⟩ := step_call draw hlive
  obtain ⟨hpassed, hne⟩ := Rotation.behind_turn hnodup hends hbehind
  rw [hstep, hreturned]
  exact ⟨hne, Rotation.nodup_turn hnodup (nodup_reshuffled draw s.table), hpassed⟩

theorem behind_step (hnodup : s.order.Nodup) (hid : id ∈ s.passed) (hcont : s.Continues e)
    (hnonDead : s.table.NonDead id) :
    s.returned e ≠ some id ∧ (s.step e).order.Nodup ∧ id ∈ (s.step e).passed := by
  cases e with
  | change m => exact ⟨Option.some_ne_none id |>.symm, hnodup, hid⟩
  | call draw =>
    have hbehind := Rotation.mem_take_retained hid (Membership.mem_live.mpr hnonDead)
    exact not_returned_of_behind hnodup hbehind hcont hnonDead

/-- An id that is behind the cursor is not returned before the next reshuffle. -/
theorem not_mem_returns (hnodup : s.order.Nodup) (hid : id ∈ s.passed)
    (hcont : StepsMeet step Continues s evs) (hstays : s.Stays id evs) : id ∉ s.returns evs := by
  induction evs generalizing s with
  | nil => exact List.not_mem_nil
  | cons e evs ih =>
    obtain ⟨hne, hnodup', hid'⟩ := behind_step hnodup hid hcont.1 hstays.1
    rw [returns, List.mem_append, Option.mem_toList]
    rintro (hreturned | hlater)
    · exact hne hreturned
    · exact ih hnodup' hid' hcont.2 hstays.2 hlater

/-- The first call of a round that finds an id before the cursor Dead, and another one behind it
    non-Dead, passes over a member: the round has not returned it and will not, as long as it is
    non-Dead. -/
theorem missed_of_not_spares {ids : List NodeId} (h : Walks ids s)
    (hspares : ¬s.Spares (.call draw)) :
    ∃ id, s.table.NonDead id ∧ id ∉ ids ∧
      ∀ evs, StepsMeet step Continues s (.call draw :: evs) → s.Stays id (.call draw :: evs) →
        id ∉ s.returns (.call draw :: evs) := by
  obtain ⟨id, hahead, hlive, hbehind⟩ := Rotation.skipped_of_not_spared hspares
  refine ⟨id, Membership.mem_live.mp hlive, ?_, ?_⟩
  · have hnodup := h.nodup
    rw [← Rotation.passed_append_ahead, List.nodup_append] at hnodup
    rw [← h.passed]
    intro hpassed
    exact hnodup.2.2 id hpassed id hahead rfl
  · intro evs hcont hstays
    obtain ⟨hne, hnodup, hpassed⟩ :=
      not_returned_of_behind h.nodup hbehind hcont.1 hstays.1
    rw [returns, List.mem_append, Option.mem_toList]
    rintro (hreturned | hlater)
    · exact hne hreturned
    · exact not_mem_returns hnodup hpassed hcont.2 hstays.2 hlater

/-! ## Two members -/

namespace TwoMembers

/-- Node 1 has heard of nodes 2 and 3. -/
def table : Membership :=
  (Membership.new 1 (homeAddr 1)).mergeAll 4
    [(⟨2, homeAddr 2, .alive, 0⟩, 0), (⟨3, homeAddr 3, .alive, 0⟩, 0)]

/-- Before the first call. -/
def idle : ProbeOrder := { order := [], idx := 0, table := table }

/-- Draws that are all 0. -/
def zeros (_ : ℕ) : UInt64 := 0

/-- Node 2 is declared Dead. -/
def twoDead : Membership := (table.merge ⟨2, homeAddr 2, .dead, 0⟩ 4 1).1

theorem round_of_two : idle.Round zeros [.call zeros] where
  first := by decide +kernel
  between := by decide +kernel
  last := by decide +kernel

/-- With both members alive a round returns node 3 once. -/
theorem three_returned : (idle.returns [.call zeros, .call zeros]).count 3 = 1 :=
  (probe_rounds_fair idle zeros [.call zeros] zeros).2 round_of_two (by decide +kernel) 3
    (by decide +kernel)

/-- Node 2 is returned and dies. The next call begins a new order: node 3, alive all the time, was
    not returned in the round. -/
theorem three_skipped :
    idle.Round zeros [.change twoDead] ∧ idle.Stays 3 [.call zeros, .change twoDead] ∧
      (idle.returns [.call zeros, .change twoDead]).count 3 = 0 := by
  refine ⟨⟨?_, ?_, ?_⟩, ?_, ?_⟩
  · decide +kernel
  · decide +kernel
  · decide +kernel
  · decide +kernel
  · decide +kernel

end TwoMembers

end ProbeOrder

end BeamSocket.Mesh
