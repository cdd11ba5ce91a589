import BeamSocket.Mesh.MembershipSync

/-!
# The failure detector's side of the table

Model of the rest of `crates/mesh/src/swim.rs`: `note_direct_ack`, `expire_suspects` and
`take_piggyback`. The map of members is iterated in an arbitrary order, here that of its
entries.

* `Mentions`: a node holds an incarnation of a member somewhere, in the table, in the gossip
  buffer or as its own.
* `mentions_merge`, `mentions_noteDirectAck`, `mentions_takePiggyback`: where an incarnation
  that a node holds comes from.
* `counted_mergeAll`, `bounded_mergeAll`: updates without an incarnation of the node above its
  own raise it by one at most, and keep a bound on what the node holds.
* `standing_noteDirectAck_of_dead`, `standing_suspect_of_dead`,
  `standing_expireSuspects_of_dead`: a dead member stays dead.
-/

namespace BeamSocket.Mesh

open BeamSocket.Lib

/-- `struct SwimParams` (lines 30–44) without the times to wait. -/
structure SwimParams where
  indirectK : ℕ
  suspicionTimeout : ℕ
  gossipMax : ℕ
  retransmit : ℕ
  deriving DecidableEq, Repr

namespace Membership

variable (m : Membership)

/-- `note_direct_ack` (lines 341–368) at time `now`. -/
def noteDirectAck (sender : NodeId) (retransmit : ℕ) (now : Instant) : Membership × Bool :=
  match m.members.lookup sender with
  | none => (m, false)
  | some mb =>
    if mb.state = .suspect then
      let m := { m with
        members := m.members.insert sender { mb with state := .alive, since := now }
        counters := { m.counters with revived := m.counters.revived + 1 } }
      (m.enqueue ⟨sender, mb.addr, .alive, mb.inc⟩ retransmit, true)
    else (m, false)

/-- The `expired` of `expire_suspects`, as the updates it merges. -/
def expired (timeout : ℕ) (now : Instant) : List Update :=
  (m.members.entries.filter fun e => e.2.state = .suspect ∧ now - e.2.since > timeout).map
    fun e => ⟨e.1, e.2.addr, .dead, e.2.inc⟩

/-- `expire_suspects` (lines 390–411) at time `now`, the merges at the times of `clock`. -/
def expireSuspects (timeout retransmit : ℕ) (now : Instant) (clock : ℕ → Instant) :
    Membership × List NodeId :=
  (stamped clock (m.expired timeout now)).foldl
    (fun r e =>
      let merged := r.1.merge e.1 retransmit e.2
      (merged.1, if merged.2 then r.2 ++ [e.1.id] else r.2))
    (m, [])

/-- The loop of `take_piggyback` (lines 266–275): what goes out, and what stays. -/
def drainGossip (max : ℕ) : List Update → List (Update × ℕ) → List Update × List (Update × ℕ)
  | out, [] => (out, [])
  | out, (u, n) :: gossip =>
    if out.length < max then
      let rest := drainGossip max (out ++ [u]) gossip
      (rest.1, if n > 1 then (u, n - 1) :: rest.2 else rest.2)
    else
      let rest := drainGossip max out gossip
      (rest.1, (u, n) :: rest.2)

/-- `take_piggyback` (lines 263–279). -/
def takePiggyback (max : ℕ) : Membership × List Update :=
  let drained := drainGossip max [m.selfUpdate] m.gossip
  ({ m with gossip := drained.2 }, drained.1)

/-! ## Where incarnations are held -/

/-- The node holds incarnation `inc` of the node `id`. -/
inductive Mentions (m : Membership) : NodeId → UInt32 → Prop
  | member {id : NodeId} {mb : Member} (h : m.members.lookup id = some mb) : Mentions m id mb.inc
  | self : Mentions m m.selfId m.selfInc
  | gossip {u : Update} {n : ℕ} (h : (u, n) ∈ m.gossip) : Mentions m u.id u.inc

variable {m} {u : Update} {retransmit : ℕ} {now : Instant} {id : NodeId} {inc : UInt32}

theorem mentions_of_mem_fullState (h : u ∈ m.fullState) : m.Mentions u.id u.inc := by
  obtain ⟨mb, hmb, hu⟩ | hu := mem_fullState.mp h
  · rw [hu]
    exact .member hmb
  · rw [hu]
    exact .self

theorem mem_gossip_enqueue {g : Update × ℕ} (h : g ∈ (m.enqueue u retransmit).gossip) :
    (g ∈ m.gossip ∧ g.1.id ≠ u.id) ∨ g = (u, retransmit) := by
  unfold enqueue at h
  dsimp only at h
  obtain hg | hg := List.mem_append.mp (List.mem_of_mem_drop h)
  · obtain ⟨hmem, hid⟩ := List.mem_filter.mp hg
    exact .inl ⟨hmem, of_decide_eq_true hid⟩
  · exact .inr (List.mem_singleton.mp hg)

/-- What a `merge` can do. -/
inductive Merged (m : Membership) (u : Update) (retransmit : ℕ) (now : Instant) :
    Membership → Prop
  | refuted (hid : u.id = m.selfId) (hstate : u.state ≠ .alive) (hinc : m.selfInc ≤ u.inc) :
    Merged m u retransmit now
      ({ m with
          selfInc := u.inc + 1
          counters := { m.counters with refuted := m.counters.refuted + 1 } }.enqueue
        ⟨m.selfId, m.selfAddr, .alive, u.inc + 1⟩ retransmit)
  | accepted (hid : u.id ≠ m.selfId) (hacc : m.accepts u = true) :
    Merged m u retransmit now
      ({ m with
          members := m.members.insert u.id ⟨u.addr, u.state, u.inc, now⟩
          counters := countTransition m.counters ((m.members.lookup u.id).map Member.state)
            u.state }.enqueue u retransmit)
  | ignored : Merged m u retransmit now m

theorem merged (m : Membership) (u : Update) (retransmit : ℕ) (now : Instant) :
    Merged m u retransmit now (m.merge u retransmit now).1 := by
  unfold merge
  split_ifs with hid href hacc
  · exact .refuted hid href.1 href.2
  · exact .ignored
  · exact .accepted hid hacc
  · exact .ignored

theorem refuted_countTransition (c : MembershipCounters) (prev : Option MState) (next : MState) :
    (countTransition c prev next).refuted = c.refuted := by
  cases prev with
  | none => cases next <;> rfl
  | some p =>
    show (if p ≠ next then _ else c : MembershipCounters).refuted = c.refuted
    split_ifs
    · cases next <;> rfl
    · rfl

/-- A `merge` brings in the update and, when it refutes, the own new incarnation. -/
theorem mentions_merge (h : (m.merge u retransmit now).1.Mentions id inc) :
    m.Mentions id inc ∨ (id = u.id ∧ inc = u.inc) ∨
      (id = m.selfId ∧ inc = (m.merge u retransmit now).1.selfInc) := by
  have hm := merged m u retransmit now
  generalize (m.merge u retransmit now).1 = m' at h hm
  cases hm with
  | ignored => exact .inl h
  | refuted hid hstate hinc =>
    cases h with
    | member hmb => exact .inl (.member hmb)
    | self => exact .inr (.inr ⟨rfl, rfl⟩)
    | gossip hg =>
      obtain ⟨hg, -⟩ | hg := mem_gossip_enqueue hg
      · exact .inl (.gossip hg)
      · cases hg
        exact .inr (.inr ⟨rfl, rfl⟩)
  | accepted hid hacc =>
    cases h with
    | @member _ mb hmb =>
      replace hmb : (m.members.insert u.id ⟨u.addr, u.state, u.inc, now⟩).lookup id = some mb := hmb
      by_cases hne : id = u.id
      · subst hne
        rw [AList.lookup_insert] at hmb
        cases hmb
        exact .inr (.inl ⟨rfl, rfl⟩)
      · rw [AList.lookup_insert_ne hne] at hmb
        exact .inl (.member hmb)
    | self => exact .inl .self
    | gossip hg =>
      obtain ⟨hg, -⟩ | hg := mem_gossip_enqueue hg
      · exact .inl (.gossip hg)
      · cases hg
        exact .inr (.inl ⟨rfl, rfl⟩)

/-- Proof of life changes the state of a member, not its incarnation. -/
theorem mentions_noteDirectAck {sender : NodeId}
    (h : (m.noteDirectAck sender retransmit now).1.Mentions id inc) : m.Mentions id inc := by
  unfold noteDirectAck at h
  split at h
  · exact h
  · rename_i mb hmb
    split_ifs at h
    · cases h with
      | @member _ mb' hmb' =>
        replace hmb' : (m.members.insert sender { mb with state := .alive, since := now }).lookup
          id = some mb' := hmb'
        by_cases hne : id = sender
        · subst hne
          rw [AList.lookup_insert] at hmb'
          cases hmb'
          show m.Mentions id mb.inc
          exact .member hmb
        · rw [AList.lookup_insert_ne hne] at hmb'
          exact .member hmb'
      | self => exact .self
      | gossip hg =>
        obtain ⟨hg, -⟩ | hg := mem_gossip_enqueue hg
        · exact .gossip hg
        · cases hg
          exact .member hmb
    · exact h

/-- An entry that is sent once: what stays of it. -/
def sentOnce (g : Update × ℕ) : Option (Update × ℕ) := if g.2 > 1 then some (g.1, g.2 - 1) else none

/-- The entries that there is room for are sent, and the others stay behind them. -/
theorem drainGossip_eq (max : ℕ) (out : List Update) (gossip : List (Update × ℕ)) :
    drainGossip max out gossip =
      (out ++ (gossip.take (max - out.length)).map Prod.fst,
        (gossip.take (max - out.length)).filterMap sentOnce ++ gossip.drop (max - out.length)) := by
  induction gossip generalizing out with
  | nil => simp [drainGossip]
  | cons g gossip ih =>
    obtain ⟨v, n⟩ := g
    unfold drainGossip
    by_cases hroom : out.length < max
    · have hone : max - out.length = max - (out ++ [v]).length + 1 := by
        simp only [List.length_append, List.length_singleton]
        omega
      rw [if_pos hroom, ih, hone]
      by_cases hn : n > 1
      · simp [sentOnce, hn]
      · simp [sentOnce, hn]
    · have hnone : max - out.length = 0 := by omega
      rw [if_neg hroom, ih, hnone]
      simp

theorem sentOnce_eq_some {g g' : Update × ℕ} :
    sentOnce g = some g' ↔ 1 < g.2 ∧ (g.1, g.2 - 1) = g' := by
  unfold sentOnce
  split_ifs with hn
  · simp [hn]
  · simp [hn]

/-- What is drained and what stays was in the buffer. -/
theorem drainGossip_subset (max : ℕ) (out : List Update) (gossip : List (Update × ℕ)) :
    (∀ u ∈ (drainGossip max out gossip).1, u ∈ out ∨ ∃ n, (u, n) ∈ gossip) ∧
      ∀ g ∈ (drainGossip max out gossip).2, ∃ n, (g.1, n) ∈ gossip := by
  rw [drainGossip_eq]
  constructor
  · intro u hu
    refine (List.mem_append.mp hu).imp id fun hu => ?_
    obtain ⟨⟨v, n⟩, hg, rfl⟩ := List.mem_map.mp hu
    exact ⟨n, List.mem_of_mem_take hg⟩
  · intro g hg
    obtain hg | hg := List.mem_append.mp hg
    · obtain ⟨⟨v, n⟩, hv, hsent⟩ := List.mem_filterMap.mp hg
      obtain ⟨-, rfl⟩ := sentOnce_eq_some.mp hsent
      exact ⟨n, List.mem_of_mem_take hv⟩
    · exact ⟨g.2, List.mem_of_mem_drop hg⟩

theorem mem_drainGossip {max : ℕ} {out : List Update} {gossip : List (Update × ℕ)}
    (h : u ∈ out) : u ∈ (drainGossip max out gossip).1 := by
  rw [drainGossip_eq]
  exact List.mem_append_left _ h

theorem mentions_takePiggyback {max : ℕ} (h : (m.takePiggyback max).1.Mentions id inc) :
    m.Mentions id inc := by
  cases h with
  | member hmb => exact .member hmb
  | self => exact .self
  | gossip hg =>
    obtain ⟨n, hn⟩ := (drainGossip_subset max _ _).2 _ hg
    exact .gossip hn

theorem mentions_of_mem_takePiggyback {max : ℕ} (h : u ∈ (m.takePiggyback max).2) :
    m.Mentions u.id u.inc := by
  obtain hu | ⟨n, hn⟩ := (drainGossip_subset max _ _).1 u h
  · rw [List.mem_singleton.mp hu]
    exact .self
  · exact .gossip hn

theorem mem_of_stamped {clock : ℕ → Instant} {us : List Update} {e : Update × Instant}
    (h : e ∈ stamped clock us) : e.1 ∈ us := by
  obtain ⟨⟨u, i⟩, hu, rfl⟩ := List.mem_map.mp h
  show u ∈ us
  exact List.fst_mem_of_mem_zipIdx hu

theorem exists_mem_stamped {us : List Update} (clock : ℕ → Instant) (h : u ∈ us) :
    ∃ now, (u, now) ∈ stamped clock us := by
  have hreceived : u ∈ received (stamped clock us) := by
    rw [received_stamped]
    exact List.mem_toFinset.mpr h
  obtain ⟨⟨v, now⟩, he, rfl⟩ := List.mem_map.mp (List.mem_toFinset.mp hreceived)
  exact ⟨now, he⟩

theorem lookup_of_mem_expired {timeout : ℕ} (h : u ∈ m.expired timeout now) :
    ∃ mb, m.members.lookup u.id = some mb ∧ mb.state = .suspect ∧ u.inc = mb.inc ∧
      u.addr = mb.addr ∧ timeout < now - mb.since := by
  obtain ⟨⟨id', mb⟩, he, rfl⟩ := List.mem_map.mp h
  obtain ⟨hmem, hcond⟩ := List.mem_filter.mp he
  rw [decide_eq_true_eq] at hcond
  exact ⟨mb, AList.mem_lookup_iff.mpr hmem, hcond.1, rfl, rfl, hcond.2⟩

theorem expireSuspects_fst {timeout : ℕ} {clock : ℕ → Instant} :
    (m.expireSuspects timeout retransmit now clock).1 =
      m.mergeAll retransmit (stamped clock (m.expired timeout now)) := by
  have hfold : ∀ (us : List (Update × Instant)) (m : Membership) (dead : List NodeId),
      (us.foldl (fun r e =>
        let merged := r.1.merge e.1 retransmit e.2
        (merged.1, if merged.2 then r.2 ++ [e.1.id] else r.2)) (m, dead)).1 =
          m.mergeAll retransmit us := by
    intro us
    induction us with
    | nil => intro m dead; rfl
    | cons e us ih => intro m dead; exact ih _ _
  exact hfold _ m []

theorem response_ne_digest {msg resp : MembershipMsg} {clock : ℕ → Instant}
    (h : (m.apply msg retransmit clock).2 = some resp) (es : List (NodeId × UInt32)) :
    resp ≠ .digest es := by
  rintro rfl
  cases msg with
  | sync reply us =>
    cases reply with
    | false => cases h
    | true => cases h
  | gossip us => cases h
  | digest entries =>
    unfold apply at h
    dsimp only at h
    split_ifs at h
    cases h

/-! ## Refutations -/

/-- The own incarnation counts the refutations, from one on. -/
def Counted (m : Membership) : Prop := m.selfInc.toNat = 1 + m.counters.refuted

theorem refuted_merge_le : m.counters.refuted ≤ (m.merge u retransmit now).1.counters.refuted := by
  have hm := merged m u retransmit now
  generalize (m.merge u retransmit now).1 = m' at hm
  cases hm with
  | ignored => exact le_rfl
  | refuted hid hstate hinc => exact Nat.le_succ _
  | accepted hid hacc => exact (refuted_countTransition ..).ge

theorem refuted_mergeAll_le (m : Membership) (retransmit : ℕ) (us : List (Update × Instant)) :
    m.counters.refuted ≤ (m.mergeAll retransmit us).counters.refuted := by
  refine run_invariant (I := fun m' : Membership => m.counters.refuted ≤ m'.counters.refuted) ?_
    le_rfl
  intro m' e h
  exact h.trans refuted_merge_le

/-- As long as nobody claims an incarnation of the node above its own, a `merge` counts a
    refutation, of a claim at the own incarnation, or nothing. -/
theorem counted_merge (hm : m.Counted) (hu : u.id = m.selfId → u.inc ≤ m.selfInc)
    (hbound : (m.merge u retransmit now).1.counters.refuted < 2 ^ 32 - 1) :
    (m.merge u retransmit now).1.Counted ∧
      ((m.merge u retransmit now).1.counters.refuted = m.counters.refuted ∨
        (m.merge u retransmit now).1.counters.refuted = m.counters.refuted + 1 ∧
          u.id = m.selfId ∧ u.state ≠ .alive ∧ u.inc = m.selfInc) := by
  have hcase := merged m u retransmit now
  generalize (m.merge u retransmit now).1 = m' at hbound hcase
  cases hcase with
  | ignored => exact ⟨hm, .inl rfl⟩
  | accepted hid hacc =>
    have hsame : (countTransition m.counters ((m.members.lookup u.id).map Member.state)
        u.state).refuted = m.counters.refuted := refuted_countTransition ..
    refine ⟨?_, .inl hsame⟩
    show m.selfInc.toNat = 1 + (countTransition _ _ _).refuted
    rw [hsame]
    exact hm
  | refuted hid hstate hinc =>
    have heq : u.inc = m.selfInc := UInt32.le_antisymm (hu hid) hinc
    refine ⟨?_, .inr ⟨rfl, hid, hstate, heq⟩⟩
    replace hbound : m.counters.refuted + 1 < 2 ^ 32 - 1 := hbound
    unfold Counted at hm
    show (u.inc + 1).toNat = 1 + (m.counters.refuted + 1)
    rw [heq, UInt32.toNat_add, hm]
    exact Nat.mod_eq_of_lt (by simpa using by omega)

theorem selfInc_eq_of_refuted {m' : Membership} (h : m.Counted) (h' : m'.Counted)
    (heq : m'.counters.refuted = m.counters.refuted) : m'.selfInc = m.selfInc := by
  apply UInt32.toNat_inj.mp
  rw [h, h', heq]

/-- A list of updates that claim no incarnation above the own one makes at most one
    refutation. -/
theorem counted_mergeAll {us : List (Update × Instant)} (hm : m.Counted)
    (hus : ∀ e ∈ us, e.1.id = m.selfId → e.1.inc ≤ m.selfInc)
    (hbound : (m.mergeAll retransmit us).counters.refuted < 2 ^ 32 - 1) :
    (m.mergeAll retransmit us).Counted ∧
      ((m.mergeAll retransmit us).counters.refuted = m.counters.refuted ∨
        (m.mergeAll retransmit us).counters.refuted = m.counters.refuted + 1 ∧
          ∃ e ∈ us, e.1.id = m.selfId ∧ e.1.state ≠ .alive ∧ e.1.inc = m.selfInc) := by
  induction us generalizing m with
  | nil => exact ⟨hm, .inl rfl⟩
  | cons e us ih =>
    have hfirst := hus e (List.mem_cons_self ..)
    have hrest := fun e' he' => hus e' (List.mem_cons_of_mem e he')
    have hle : (m.merge e.1 retransmit e.2).1.counters.refuted ≤
        (m.mergeAll retransmit (e :: us)).counters.refuted :=
          refuted_mergeAll_le _ _ us
    have hself : (m.merge e.1 retransmit e.2).1.selfId = m.selfId := selfId_merge ..
    obtain ⟨hcounted, hcase⟩ := counted_merge hm hfirst (lt_of_le_of_lt hle hbound)
    have hrun : m.mergeAll retransmit (e :: us) =
        (m.merge e.1 retransmit e.2).1.mergeAll retransmit us := rfl
    rw [hrun] at hbound ⊢
    generalize (m.merge e.1 retransmit e.2).1 = m₁ at *
    obtain hsame | ⟨hsucc, hid, hstate, hinc⟩ := hcase
    · have hinc := selfInc_eq_of_refuted hm hcounted hsame
      rw [← hself, ← hinc] at hrest
      obtain ⟨hlast, hcase⟩ := ih hcounted hrest hbound
      refine ⟨hlast, ?_⟩
      rw [hsame, hself, hinc] at hcase
      refine hcase.imp_right ?_
      rintro ⟨hcount, e', he', hclaim⟩
      exact ⟨hcount, e', List.mem_cons_of_mem e he', hclaim⟩
    · -- the rest is below the incarnation that the first update brought about
      have hlt : m.selfInc.toNat < m₁.selfInc.toNat := by
        rw [hm, hcounted, hsucc]
        omega
      have hrest₁ : ∀ e ∈ us, e.1.id = m₁.selfId → e.1.inc ≤ m₁.selfInc := by
        intro e' he' hid'
        have hle' : e'.1.inc.toNat ≤ m.selfInc.toNat := hrest e' he' (hid'.trans hself)
        exact hle'.trans hlt.le
      obtain ⟨hlast, hcase⟩ := ih hcounted hrest₁ hbound
      refine ⟨hlast, .inr ⟨?_, e, List.mem_cons_self .., hid, hstate, hinc⟩⟩
      obtain hcase | ⟨-, e', he', hid', -, hinc'⟩ := hcase
      · rw [hcase, hsucc]
      · have hle' : e'.1.inc.toNat ≤ m.selfInc.toNat := hrest e' he' (hid'.trans hself)
        rw [hinc'] at hle'
        omega

/-- An incarnation between one and `top` of its node. -/
def Bounded (top : NodeId → ℕ) (id : NodeId) (inc : UInt32) : Prop :=
  1 ≤ inc.toNat ∧ inc.toNat ≤ top id

/-- A bound on the incarnations that a node holds and hears holds behind a list of updates, if
    it is one for the own incarnation then. -/
theorem bounded_mergeAll {top : NodeId → ℕ} {us : List (Update × Instant)}
    (hheld : ∀ id inc, m.Mentions id inc → Bounded top id inc)
    (hheard : ∀ e ∈ us, Bounded top e.1.id e.1.inc) (hm : m.Counted)
    (hus : ∀ e ∈ us, e.1.id = m.selfId → e.1.inc ≤ m.selfInc)
    (hbound : (m.mergeAll retransmit us).counters.refuted < 2 ^ 32 - 1)
    (htop : 1 + (m.mergeAll retransmit us).counters.refuted ≤ top m.selfId) :
    ∀ id inc, (m.mergeAll retransmit us).Mentions id inc → Bounded top id inc := by
  induction us generalizing m with
  | nil => exact hheld
  | cons e us ih =>
    have hle : (m.merge e.1 retransmit e.2).1.counters.refuted ≤
        (m.mergeAll retransmit (e :: us)).counters.refuted :=
          refuted_mergeAll_le _ _ us
    have hself : (m.merge e.1 retransmit e.2).1.selfId = m.selfId := selfId_merge ..
    obtain ⟨hcounted, -⟩ := counted_merge hm (hus e (List.mem_cons_self ..))
      (lt_of_le_of_lt hle hbound)
    have hgrows : m.selfInc.toNat ≤ (m.merge e.1 retransmit e.2).1.selfInc.toNat := by
      have hcount : m.counters.refuted ≤ (m.merge e.1 retransmit e.2).1.counters.refuted :=
        refuted_merge_le
      rw [hm, hcounted]
      omega
    refine ih (m := (m.merge e.1 retransmit e.2).1) ?_
      (fun e' he' => hheard e' (List.mem_cons_of_mem e he')) hcounted ?_ hbound
      (by rw [hself]; exact htop)
    · intro id inc h
      obtain h | ⟨rfl, rfl⟩ | ⟨rfl, rfl⟩ := mentions_merge h
      · exact hheld id inc h
      · exact hheard e (List.mem_cons_self ..)
      · unfold Bounded
        rw [hcounted]
        omega
    · intro e' he' hid
      have hle' : e'.1.inc.toNat ≤ m.selfInc.toNat :=
        hus e' (List.mem_cons_of_mem e he') (hid.trans hself)
      exact hle'.trans hgrows

/-! ## The own entry -/

/-- A node is not a member of its own table. -/
def Absent (m : Membership) : Prop := m.standing m.selfId = ⊥

theorem Absent.merge (h : m.Absent) : (m.merge u retransmit now).1.Absent := by
  unfold Absent
  rw [selfId_merge, standing_merge, h, if_neg fun hid => hid.2 rfl, sup_bot_eq]

theorem Absent.mergeAll (h : m.Absent) (us : List (Update × Instant)) :
    (m.mergeAll retransmit us).Absent :=
  run_invariant (I := Absent) (fun _ _ h' => h'.merge) h

theorem Absent.lookup (h : m.Absent) (mb : Member) : m.members.lookup m.selfId ≠ some mb := by
  intro hmb
  unfold Absent standing at h
  rw [hmb] at h
  cases h

theorem selfId_noteDirectAck {sender : NodeId} :
    (m.noteDirectAck sender retransmit now).1.selfId = m.selfId := by
  unfold noteDirectAck
  split
  · rfl
  · split_ifs <;> rfl

theorem Absent.noteDirectAck (h : m.Absent) {sender : NodeId} :
    (m.noteDirectAck sender retransmit now).1.Absent := by
  unfold Membership.noteDirectAck
  split
  · exact h
  · rename_i mb hmb
    split_ifs
    · have hne : m.selfId ≠ sender := by
        rintro rfl
        exact h.lookup mb hmb
      unfold Absent standing enqueue
      dsimp only
      rw [AList.lookup_insert_ne hne]
      exact h
    · exact h

theorem Absent.suspect (h : m.Absent) {target : NodeId} :
    (m.suspect target retransmit now).1.Absent := by
  unfold Membership.suspect
  split
  · exact h
  · split_ifs
    · exact h
    · exact h.merge

/-- What the table says of `id`. -/
def stateOf (m : Membership) (id : NodeId) : Option MState := (m.members.lookup id).map Member.state

/-! ## Suspicion and death -/

theorem lookup_of_standing {s : Standing} (h : m.standing id = s) :
    ∃ mb, m.members.lookup id = some mb ∧ mb.standing = s := by
  unfold standing at h
  split at h
  · cases h
  · rename_i mb hmb
    exact ⟨mb, hmb, WithBot.coe_injective h⟩

theorem stateOf_suspect_of_alive {target : NodeId} (h : m.Absent)
    (halive : m.stateOf target = some .alive) :
    (m.suspect target retransmit now).1.stateOf target = some .suspect := by
  obtain ⟨mb, hmb, hstate⟩ := Option.map_eq_some_iff.mp halive
  have hne : target ≠ m.selfId := by
    rintro rfl
    exact h.lookup mb hmb
  have hstanding : m.standing target = (⟨mb.inc, .alive⟩ : Standing) := by
    unfold standing
    rw [hmb, ← hstate]
    rfl
  have hlt : (⟨mb.inc, .alive⟩ : Standing) < ⟨mb.inc, .suspect⟩ :=
    Standing.lt_iff.mpr (.inr ⟨rfl, by show precedence .alive < precedence .suspect; decide⟩)
  have hsuspect : (m.suspect target retransmit now).1.standing target =
      (⟨mb.inc, .suspect⟩ : Standing) := by
    unfold suspect
    rw [hmb]
    dsimp only
    rw [if_neg (not_not.mpr hstate), standing_merge, if_pos ⟨rfl, hne⟩, hstanding]
    exact sup_eq_right.mpr (WithBot.coe_le_coe.mpr hlt.le)
  obtain ⟨mb', hmb', hst⟩ := lookup_of_standing hsuspect
  exact Option.map_eq_some_iff.mpr ⟨mb', hmb', congrArg Standing.state hst⟩

theorem ne_of_dead {id' : NodeId} {mb : Member} (h : m.standing id = (⟨inc, .dead⟩ : Standing))
    (hmb : m.members.lookup id' = some mb) (hstate : mb.state ≠ .dead) : id ≠ id' := by
  rintro rfl
  obtain ⟨mb', hmb', hst⟩ := lookup_of_standing h
  rw [hmb] at hmb'
  cases hmb'
  exact hstate (congrArg Standing.state hst)

/-- Proof of life does not raise the dead. -/
theorem standing_noteDirectAck_of_dead {sender : NodeId}
    (h : m.standing id = (⟨inc, .dead⟩ : Standing)) :
    (m.noteDirectAck sender retransmit now).1.standing id = m.standing id := by
  unfold noteDirectAck
  split
  · rfl
  · rename_i mb hmb
    split_ifs with hsus
    · have hne : id ≠ sender := ne_of_dead h hmb (by rw [hsus]; decide)
      unfold standing enqueue
      dsimp only
      rw [AList.lookup_insert_ne hne]
    · rfl

theorem standing_suspect_of_dead {target : NodeId}
    (h : m.standing id = (⟨inc, .dead⟩ : Standing)) :
    (m.suspect target retransmit now).1.standing id = m.standing id := by
  unfold suspect
  split
  · rfl
  · rename_i mb hmb
    split_ifs with halive
    · rfl
    · have hne : id ≠ target := ne_of_dead h hmb (by rw [not_not.mp halive]; decide)
      rw [standing_merge, if_neg fun hid => hne hid.1.symm, sup_bot_eq]

theorem standing_expireSuspects_of_dead {timeout : ℕ} {clock : ℕ → Instant}
    (h : m.standing id = (⟨inc, .dead⟩ : Standing)) :
    (m.expireSuspects timeout retransmit now clock).1.standing id = m.standing id := by
  have hnone : (m.expired timeout now).toFinset.filter
      (fun u => u.id = id ∧ id ≠ m.selfId) = ∅ := by
    refine Finset.filter_eq_empty_iff.mpr ?_
    rintro u hu ⟨hid, -⟩
    obtain ⟨mb, hmb, hsus, -⟩ := lookup_of_mem_expired (List.mem_toFinset.mp hu)
    exact ne_of_dead h hmb (by rw [hsus]; decide) hid.symm
  rw [expireSuspects_fst, standing_mergeAll, received_stamped, hnone, Finset.sup_empty, sup_bot_eq]

end Membership

end BeamSocket.Mesh
