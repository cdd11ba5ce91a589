import BeamSocket.Mesh.PushPull

/-!
# Anti-entropy by digests

Two linked nodes exchange digests (`build_digest`) and the answers to them. A
digest lists `(id, incarnation)` for every member, and is answered with the
members that it misses or lists with a smaller incarnation. So a member that
both know at one incarnation in different states, such as alive and suspect, is
in no answer: `merge` would take the state of higher precedence, but never gets
to see it.

* `Repairing.moves`: why a member the other side knows better is repaired.
* `Stalled.moves`: a member in conflict stays as it is.
* `antiEntropy_agrees_iff`: the two agree on third members after an exchange of
  digests if and only if no third member was in conflict.
-/

namespace BeamSocket.Mesh

open BeamSocket.Lib

namespace PushPull

/-- Both first tables know `c` at one incarnation, in different states. -/
def Conflict (m₀ : Bool → Membership) (c : NodeId) : Prop :=
  ∃ i st st', (m₀ true).standing c = (⟨i, st⟩ : Standing) ∧
    (m₀ false).standing c = (⟨i, st'⟩ : Standing) ∧ st ≠ st'

section

variable {m₀ : Bool → Membership} {x y : Pair} {s : Bool} {e : Event} {m : Membership}
  {msg : MembershipMsg} {u : Update} {c : NodeId} {n : Node} {es : List (NodeId × UInt32)}

theorem conflict_iff (s : Bool) : Conflict m₀ c ↔
    ∃ i st st', (m₀ s).standing c = (⟨i, st⟩ : Standing) ∧
      (m₀ !s).standing c = (⟨i, st'⟩ : Standing) ∧ st ≠ st' := by
  cases s with
  | true => rfl
  | false =>
    constructor
    · rintro ⟨i, st, st', h, h', hne⟩
      exact ⟨i, st', st, h', h, hne.symm⟩
    · rintro ⟨i, st, st', h, h', hne⟩
      exact ⟨i, st', st, h', h, hne.symm⟩

/-! ## Members known better by the peer -/

/-- The digest lists `c`, if at all, below what `s` first held of it. -/
def Lacks (m₀ : Bool → Membership) (s : Bool) (c : NodeId) (es : List (NodeId × UInt32)) : Prop :=
  ∀ i d, (Membership.peerIncs es).lookup c = some i →
    (m₀ s).standing c = (d : Standing) → i < d.inc

/-- Why `s` holds of `c` at least what its peer first held, or will: a digest
    that lacks it, or an answer that has it, is under way. -/
inductive Repairing (m₀ : Bool → Membership) (x : Pair) (s : Bool) (c : NodeId) : Prop
  | repaired (h : (m₀ !s).standing c ≤ (x.node s).mem.standing c)
  | asked (es : List (NodeId × UInt32)) (hmsg : Heading x s (.digest es)) (h : Lacks m₀ (!s) c es)
  | answered (msg : MembershipMsg) (u : Update) (hmsg : Heading x (!s) msg)
      (hu : u ∈ msg.updates) (hid : u.id = c) (h : (m₀ !s).standing c ≤ u.standing)

theorem NodeMoves.synced (hm : NodeMoves x s n) (h : (x.node s).join = .synced) :
    n.join = .synced := by
  cases hm with
  | idle => exact h
  | register hjoin => rw [h] at hjoin; cases hjoin
  | snapshot hjoin => rfl
  | tick => exact h
  | sent t => exact h
  | received msg clock hmsg => exact h

/-- The digest of a node that knows `c` less than its peer first did lacks
    `c`, unless the two are in conflict. -/
theorem lacks_fullState (hm : Holds m₀ s m) (hc : Third m₀ c) (hconf : ¬ Conflict m₀ c)
    (hlt : ¬ (m₀ !s).standing c ≤ m.standing c) :
    Lacks m₀ (!s) c (m.fullState.map fun u => (u.id, u.inc)) := by
  intro i d hi hd
  have hself : c ≠ m.selfId := hm.selfId ▸ hc s
  obtain ⟨st, hst⟩ := (Membership.lookup_peerIncs_iff hm.unlisted hself).mp hi
  -- what the node holds is its own first standing, not its peer's
  have hfirst : m.standing c = (m₀ s).standing c := by
    obtain ⟨t, ht⟩ := hm.third c hc
    rcases Bool.eq_or_eq_not t s with rfl | rfl
    · exact ht
    · exact absurd ht.ge hlt
  rw [not_le, hst, hd, WithBot.coe_lt_coe, Standing.lt_iff] at hlt
  rcases hlt with hinc | ⟨hinc, hprec⟩
  · exact hinc
  · refine absurd ((conflict_iff s).mpr ⟨i, st, d.state, hfirst.symm.trans hst, ?_, ?_⟩) hconf
    · rw [hd, show i = d.inc from hinc]
    · rintro rfl
      exact UInt8.lt_irrefl _ hprec

/-- The answer to a digest that lacks `c` has it. -/
theorem mem_newer_of_lacks {d : Standing} (hst : m.standing c = d)
    (hd : (m₀ s).standing c = d) (h : Lacks m₀ s c es) :
    ∃ u ∈ m.newer es, u.id = c ∧ u.standing = d := by
  obtain ⟨u, hu, hid, hust⟩ := Membership.exists_mem_fullState hst
  refine ⟨u, Membership.mem_newer.mpr ⟨hu, fun i hi => ?_⟩, hid, hust⟩
  rw [hid] at hi
  have hinc : u.inc = d.inc := congrArg Standing.inc hust
  rw [hinc]
  exact h i d hi hd

theorem Repairing.moves (hi : Inv m₀ x) (hm : Moves x e y) (hfits : Fits x e)
    (hjoin : (x.node !s).join = .synced) (hc : Third m₀ c) (hr : Repairing m₀ x s c) :
    Repairing m₀ y s c := by
  cases hr with
  | repaired h => exact .repaired (h.trans ((node_moves hm s).standing_le c))
  | asked es hmsg h =>
    rcases hmsg.moves hm hfits with hmsg' | ⟨clock, hy⟩
    · exact .asked es hmsg' h
    · by_cases hle : (m₀ !s).standing c ≤ (x.node s).mem.standing c
      · exact .repaired (hle.trans ((node_moves hm s).standing_le c))
      · -- the peer still holds what it first held, which is not nothing
        have hpeer : (x.node !s).mem.standing c = (m₀ !s).standing c := by
          obtain ⟨t, ht⟩ := (hi.holds !s).third c hc
          rcases Bool.eq_or_eq_not t s with rfl | rfl
          · have hback := (hi.holds !t).third_le c
            rw [ht] at hback
            exact absurd (hback.trans ((hi.holds t).third_le c)) hle
          · exact ht
        obtain ⟨d, hd⟩ := WithBot.ne_bot_iff_exists.mp (ne_bot_of_gt (not_le.mp hle))
        obtain ⟨u, hu, hid, hust⟩ := mem_newer_of_lacks (hpeer.trans hd.symm) hd.symm h
        refine .answered (.gossip _) u (.inl ⟨.reader, ?_, ?_⟩) hu hid (by rw [hust, hd])
        · rw [hy, receive_held_reader]
          exact Membership.apply_digest_snd hu
        · show (y.node !s).join ≠ .unlinked
          rw [(node_moves hm !s).synced hjoin]
          decide
  | answered msg u hmsg hu hid h =>
    rcases hmsg.moves hm hfits with hmsg' | ⟨clock, hy⟩
    · exact .answered msg u hmsg' hu hid h
    · rw [Bool.not_not] at hy
      refine .repaired (h.trans ?_)
      rw [hy, ← hid]
      refine Membership.update_standing_le_apply hu ?_
      rw [hid, (hi.holds s).selfId]
      exact hc s

/-- A digest that waits to be sent lacks `c`, unless `c` is repaired. -/
def DigestReady (m₀ : Bool → Membership) (s : Bool) (c : NodeId) (n : Node) : Prop :=
  ∀ msg, n.held .digest = some msg →
    ∃ es, msg = .digest es ∧ ((m₀ !s).standing c ≤ n.mem.standing c ∨ Lacks m₀ (!s) c es)

/-- What holds throughout an exchange of digests. -/
structure Exchange (m₀ : Bool → Membership) (c : NodeId) (x : Pair) : Prop where
  inv : Inv m₀ x
  synced : ∀ s, (x.node s).join = .synced
  ready : ∀ s, DigestReady m₀ s c (x.node s)

theorem NodeMoves.digestReady (hi : Inv m₀ x) (hm : NodeMoves x s n) (hc : Third m₀ c)
    (hconf : ¬ Conflict m₀ c) (hr : DigestReady m₀ s c (x.node s)) : DigestReady m₀ s c n := by
  intro msg hheld
  have hle := hm.standing_le c
  have hkept : (x.node s).held .digest = some msg →
      ∃ es, msg = .digest es ∧ ((m₀ !s).standing c ≤ n.mem.standing c ∨ Lacks m₀ (!s) c es) := by
    intro h
    obtain ⟨es, hes, hor⟩ := hr msg h
    exact ⟨es, hes, hor.imp_left fun h => h.trans hle⟩
  cases hm with
  | idle => exact hkept hheld
  | register hjoin => exact hkept hheld
  | snapshot hjoin =>
    rw [hold_held_of_ne (by decide)] at hheld
    exact hkept hheld
  | tick =>
    rw [hold_held, Option.some_inj] at hheld
    refine ⟨_, hheld.symm, ?_⟩
    by_cases hknown : (m₀ !s).standing c ≤ (x.node s).mem.standing c
    · exact .inl hknown
    · exact .inr (lacks_fullState (hi.holds s) hc hconf hknown)
  | sent t =>
    rcases held_hold hheld with hold | hnone
    · exact hkept hold
    · cases hnone
  | received msg' clock hmsg =>
    rw [receive_held_of_ne (by decide)] at hheld
    exact hkept hheld

theorem Exchange.moves (h : Tables m₀) (hc : Third m₀ c) (hconf : ¬ Conflict m₀ c)
    (hx : Exchange m₀ c x) (hm : Moves x e y) (hfits : Fits x e) : Exchange m₀ c y where
  inv := hx.inv.moves h hm hfits
  synced s := (node_moves hm s).synced (hx.synced s)
  ready s := (node_moves hm s).digestReady hx.inv hc hconf (hx.ready s)

/-- Once a node has built a digest, the repair is under way. -/
theorem Exchange.repairing_tick (h : Tables m₀) (hc : Third m₀ c) (hconf : ¬ Conflict m₀ c)
    (hx : Exchange m₀ c x) : Repairing m₀ (step x (.tick s)) s c := by
  have hy : Exchange m₀ c (step x (.tick s)) :=
    hx.moves h hc hconf (moves_step x (.tick s)) trivial
  have hheld : ∃ msg, ((step x (.tick s)).node s).held .digest = some msg := by
    unfold step
    dsimp only
    split_ifs with hnone
    · exact ⟨_, by rw [setNode_node, hold_held]⟩
    · exact Option.ne_none_iff_exists'.mp hnone
  obtain ⟨msg, hmsg⟩ := hheld
  obtain ⟨es, rfl, hle | hlacks⟩ := hy.ready s msg hmsg
  · exact .repaired hle
  · refine .asked es (.inl ⟨.digest, hmsg, ?_⟩) hlacks
    show ((step x (.tick s)).node s).join ≠ .unlinked
    rw [hy.synced s]
    decide

/-- After a run in which `s` has sent a digest and nothing is left in flight,
    `s` holds of `c` at least what its peer first held. -/
theorem repaired_of_tick_mem {retransmit : Bool → ℕ} {evs : List Event} (h : Tables m₀)
    (hfits : StepsMeet step Fits (start m₀ retransmit .synced) evs)
    (hquiet : Quiescent (run step (start m₀ retransmit .synced) evs))
    (hc : Third m₀ c) (hconf : ¬ Conflict m₀ c) (htick : .tick s ∈ evs) :
    (m₀ !s).standing c ≤
      ((run step (start m₀ retransmit .synced) evs).node s).mem.standing c := by
  obtain ⟨pre, post, rfl⟩ := List.append_of_mem htick
  obtain ⟨hpre, hfitsTick, hpost⟩ := (stepsMeet_append ..).mp hfits
  have hstep : ∀ x e, Exchange m₀ c x → Fits x e → Exchange m₀ c (step x e) :=
    fun x e hx hfits => hx.moves h hc hconf (moves_step x e) hfits
  have hx : Exchange m₀ c (run step (start m₀ retransmit .synced) pre) := by
    refine run_invariant_of_stepsMeet hstep ?_ hpre
    exact ⟨inv_start h retransmit .synced, fun _ => rfl, fun s msg hheld => nomatch hheld⟩
  have hlast : Exchange m₀ c (run step (start m₀ retransmit .synced) (pre ++ .tick s :: post)) ∧
      Repairing m₀ (run step (start m₀ retransmit .synced) (pre ++ .tick s :: post)) s c := by
    rw [run_append, run_cons]
    refine run_invariant_of_stepsMeet (I := fun x => Exchange m₀ c x ∧ Repairing m₀ x s c)
      ?_ ⟨hstep _ _ hx hfitsTick, hx.repairing_tick h hc hconf⟩ hpost
    rintro x e ⟨hx, hr⟩ hfits
    exact ⟨hstep x e hx hfits, hr.moves hx.inv (moves_step x e) hfits (hx.synced !s) hc⟩
  cases hlast.2 with
  | repaired hle => exact hle
  | asked es hmsg => exact absurd hmsg (not_heading_of_quiescent hquiet)
  | answered msg u hmsg => exact absurd hmsg (not_heading_of_quiescent hquiet)

/-! ## Members in conflict -/

/-- A message that tells nothing of `c`, or a digest that lists it at `i`. -/
def Mute (c : NodeId) (i : UInt32) : MembershipMsg → Prop
  | .sync _ _ => False
  | .gossip us => ∀ u ∈ us, u.id ≠ c
  | .digest es => (Membership.peerIncs es).lookup c = some i

/-- Both nodes hold `c` as they first did, and no message speaks of it. -/
structure Stalled (m₀ : Bool → Membership) (c : NodeId) (i : UInt32) (x : Pair) : Prop where
  inv : Inv m₀ x
  synced : ∀ s, (x.node s).join = .synced
  standing : ∀ s, (x.node s).mem.standing c = (m₀ s).standing c
  mute : ∀ s msg, OnTheWay x s msg → Mute c i msg

theorem Mute.updates {i : UInt32} (h : Mute c i msg) : ∀ u ∈ msg.updates, u.id ≠ c := by
  cases msg with
  | sync reply us => cases h
  | gossip us => exact h
  | digest es => exact fun u hu => absurd hu List.not_mem_nil

/-- A node that holds `c` at `i` and hears only mute messages answers so. -/
theorem NodeMoves.mute {i : UInt32} {st : MState} {t : Task} (hx : Stalled m₀ c i x)
    (hm : NodeMoves x s n) (hc : Third m₀ c) (hst : (m₀ s).standing c = (⟨i, st⟩ : Standing))
    (hheld : n.held t = some msg) : Mute c i msg := by
  have hhold := hx.inv.holds s
  have hself : c ≠ (x.node s).mem.selfId := hhold.selfId ▸ hc s
  have hcur : (x.node s).mem.standing c = (⟨i, st⟩ : Standing) := (hx.standing s).trans hst
  have hkept : (x.node s).held t = some msg → Mute c i msg := fun h => hx.mute s msg (.inl ⟨t, h⟩)
  cases hm with
  | idle => exact hkept hheld
  | register hjoin => exact hkept hheld
  | snapshot hjoin =>
    rw [hx.synced s] at hjoin
    cases hjoin
  | tick =>
    rcases held_hold hheld with hold | hnew
    · exact hkept hold
    · cases hnew
      exact (Membership.lookup_peerIncs_iff hhold.unlisted hself).mpr ⟨st, hcur⟩
  | sent t' =>
    rcases held_hold hheld with hold | hnone
    · exact hkept hold
    · cases hnone
  | received msg' clock hmsg =>
    rcases held_hold hheld with hold | hnew
    · exact hkept hold
    · have hmute := hx.mute (!s) msg' hmsg
      cases msg' with
      | sync reply us => cases hmute
      | gossip us => cases hnew
      | digest es =>
        -- the digest lists `c` at the incarnation held here, so `c` is not newer
        have hlookup : (Membership.peerIncs es).lookup c = some i := hmute
        unfold Membership.apply at hnew
        dsimp only at hnew
        split_ifs at hnew
        cases hnew
        intro u hu hid
        obtain ⟨hfull, hnewer⟩ := Membership.mem_newer.mp hu
        rw [hid] at hnewer
        have hlt := hnewer i hlookup
        rcases Membership.standing_of_mem_fullState hfull with hust | rfl
        · rw [hid, hcur, WithBot.coe_inj] at hust
          have hinc : i = u.inc := congrArg Standing.inc hust
          rw [hinc] at hlt
          exact UInt32.lt_irrefl _ hlt
        · exact hself hid.symm

theorem Stalled.moves {i : UInt32} {st : Bool → MState} (h : Tables m₀) (hc : Third m₀ c)
    (hst : ∀ s, (m₀ s).standing c = (⟨i, st s⟩ : Standing)) (hx : Stalled m₀ c i x)
    (hm : Moves x e y) (hfits : Fits x e) : Stalled m₀ c i y where
  inv := hx.inv.moves h hm hfits
  synced s := (node_moves hm s).synced (hx.synced s)
  standing s := by
    rcases (node_moves hm s).mem with hmem | ⟨msg, clock, hmsg, hmem⟩
    · rw [hmem, hx.standing]
    · rw [hmem]
      rcases Membership.standing_apply_cases c with hkeep | ⟨-, u, hu, hid, -⟩
      · rw [hkeep, hx.standing]
      · exact absurd hid ((hx.mute (!s) msg hmsg).updates u hu)
  mute s := onTheWay_moves hm hfits (hx.mute s) fun t msg hheld =>
    (node_moves hm s).mute hx hc (hst s) hheld

/-! ## Runs -/

/-- In every run in which each node sends a digest and no message has 65536
    entries: when nothing is left in flight, the two agree on all third members
    if and only if no third member was known to both at one incarnation in
    different states. -/
theorem antiEntropy_agrees_iff (m₀ : Bool → Membership) (retransmit : Bool → ℕ)
    (evs : List Event) (h : Tables m₀)
    (hfits : StepsMeet step Fits (start m₀ retransmit .synced) evs)
    (hticks : ∀ s, .tick s ∈ evs)
    (hquiet : Quiescent (run step (start m₀ retransmit .synced) evs)) :
    let x := run step (start m₀ retransmit .synced) evs
    (∀ c, Third m₀ c → (x.node true).mem.standing c = (x.node false).mem.standing c) ↔
      ∀ c, Third m₀ c → ¬ Conflict m₀ c := by
  set x := run step (start m₀ retransmit .synced) evs with hx
  constructor
  · rintro hagree c hc ⟨i, st, st', htrue, hfalse, hne⟩
    have hst : ∀ s, (m₀ s).standing c = (⟨i, if s then st else st'⟩ : Standing) := by
      intro s
      cases s with
      | true => exact htrue
      | false => exact hfalse
    have hstalled : Stalled m₀ c i x := by
      refine run_invariant_of_stepsMeet
        (fun x e hx hfits => hx.moves h hc hst (moves_step x e) hfits) ?_ hfits
      refine ⟨inv_start h retransmit .synced, fun _ => rfl, fun _ => rfl, fun s msg hmsg => ?_⟩
      rcases hmsg with ⟨t, ht⟩ | ⟨body, hbody, -⟩
      · cases ht
      · cases hbody
    have heq := hagree c hc
    rw [hstalled.standing, hstalled.standing, htrue, hfalse, WithBot.coe_inj] at heq
    exact hne (congrArg Standing.state heq)
  · intro hconf c hc
    have hinv : Inv m₀ x := run_invariant_of_stepsMeet
      (fun x e hi hfits => hi.moves h (moves_step x e) hfits) (inv_start h retransmit .synced) hfits
    refine hinv.agree hc fun s => ?_
    have hrepaired : (m₀ !(!s)).standing c ≤ (x.node !s).mem.standing c :=
      repaired_of_tick_mem h hfits hquiet hc (hconf c hc) (hticks !s)
    rwa [Bool.not_not] at hrepaired

/-- Node 1 missed that node 3 is dead, node 2 missed node 4: both are
    repaired. -/
theorem antiEntropy_agrees_missed :
    let m₀ (s : Bool) : Membership :=
      if s then heardOf 1
        [⟨2, homeAddr 2, .alive, 1⟩, ⟨3, homeAddr 3, .alive, 2⟩, ⟨4, homeAddr 4, .alive, 1⟩]
      else heardOf 2 [⟨1, homeAddr 1, .alive, 1⟩, ⟨3, homeAddr 3, .dead, 3⟩]
    let clock (i : ℕ) : Instant := 100 + i
    let evs : List Event := [.tick true, .tick false, .send true .digest, .send false .digest,
      .deliver true clock, .deliver false clock, .send true .reader, .send false .reader,
      .deliver true clock, .deliver false clock]
    let x := run step (start m₀ (fun _ => 4) .synced) evs
    (x.node true).mem.standing 3 = (⟨3, .dead⟩ : Standing) ∧
    ((∀ c, Third m₀ c → (x.node true).mem.standing c = (x.node false).mem.standing c) ↔
      ∀ c, Third m₀ c → ¬ Conflict m₀ c) :=
  ⟨by decide +kernel,
    antiEntropy_agrees_iff _ _ _ ⟨by decide +kernel, by decide +kernel, by decide +kernel⟩
      (by decide +kernel) (by intro s; cases s <;> simp) (by decide +kernel)⟩

/-- Node 1 holds node 3 as alive, node 2 holds it as suspect at the same
    incarnation: an exchange of digests changes neither. -/
theorem antiEntropy_misses_suspicion :
    let m₀ (s : Bool) : Membership :=
      if s then heardOf 1 [⟨2, homeAddr 2, .alive, 1⟩, ⟨3, homeAddr 3, .alive, 1⟩]
      else heardOf 2 [⟨1, homeAddr 1, .alive, 1⟩, ⟨3, homeAddr 3, .suspect, 1⟩]
    let clock (i : ℕ) : Instant := 100 + i
    let evs : List Event := [.tick true, .tick false, .send true .digest, .send false .digest,
      .deliver true clock, .deliver false clock]
    let x := run step (start m₀ (fun _ => 4) .synced) evs
    Tables m₀ ∧ Quiescent x ∧ Third m₀ 3 ∧
    (x.node true).mem.standing 3 = (⟨1, .alive⟩ : Standing) ∧
    (x.node false).mem.standing 3 = (⟨1, .suspect⟩ : Standing) :=
  ⟨⟨by decide +kernel, by decide +kernel, by decide +kernel⟩, by decide +kernel,
    by intro s; cases s <;> decide, by decide +kernel, by decide +kernel⟩

end

end PushPull

end BeamSocket.Mesh
