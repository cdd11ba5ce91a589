import BeamSocket.Lib.OrdSet
import BeamSocket.Lib.Run
import BeamSocket.Mesh.Interest
import Mathlib.Data.Prod.Lex
import Mathlib.Order.WithBot

/-!
# The membership table

Model of the membership table of `crates/mesh/src/swim.rs` and of `merge`, the
rule by which a node takes over a disseminated fact. `Instant` is a natural
number handed to `merge`, where the source reads the clock; counters (`u64`) and
the retransmit budget are natural numbers; the incarnation is a `u32`.

* `Standing`: state and incarnation of a member, ordered as `merge` compares
  them.
* `Membership.standing_merge`, `Membership.selfInc_merge`: one `merge` joins the
  received standing, or one more than a non-alive claim about the node itself.
* `Membership.mergeAll_eq_of_same_updates`: the outcome of a list of updates
  depends on the set of updates only.
-/

namespace BeamSocket.Mesh

open BeamSocket.Lib

/-- `std::net::IpAddr`. -/
inductive IpAddr
  | v4 (octets : BitVec 32)
  | v6 (octets : BitVec 128)
  deriving DecidableEq, Repr

/-- `std::net::SocketAddr`: address and port. -/
structure SocketAddr where
  ip : IpAddr
  port : UInt16
  deriving DecidableEq, Repr

/-- Addresses to run the model with: one host, and the id of a node as its port. -/
def homeAddr (c : NodeId) : SocketAddr := ⟨.v4 0x0a000001, c⟩

/-- A reading of the monotonic clock. -/
abbrev Instant := ℕ

/-- `enum MState` (lines 89–93). -/
inductive MState
  | alive
  | suspect
  | dead
  deriving DecidableEq, Repr

/-- `fn precedence` (lines 95–101). -/
def precedence : MState → UInt8
  | .alive => 0
  | .suspect => 1
  | .dead => 2

/-- `struct Update` (lines 106–111). -/
structure Update where
  id : NodeId
  addr : SocketAddr
  state : MState
  inc : UInt32
  deriving DecidableEq, Repr

/-- `struct Member` (lines 116–121). -/
structure Member where
  addr : SocketAddr
  state : MState
  inc : UInt32
  since : Instant
  deriving DecidableEq, Repr

/-- `struct MembershipCounters` (lines 127–138). -/
structure MembershipCounters where
  joined : ℕ
  suspected : ℕ
  dead : ℕ
  refuted : ℕ
  revived : ℕ
  deriving DecidableEq, Repr

/-- `const GOSSIP_CAP`. -/
def gossipCap : ℕ := 256

/-- `struct Membership` (lines 157–170), without the probe order. -/
structure Membership where
  selfId : NodeId
  selfAddr : SocketAddr
  selfInc : UInt32
  members : AList fun _ : NodeId => Member
  /-- Updates to piggyback, each with its remaining retransmissions. -/
  gossip : List (Update × ℕ)
  counters : MembershipCounters

namespace Membership

/-- `Membership::new`. -/
def new (selfId : NodeId) (selfAddr : SocketAddr) : Membership :=
  { selfId, selfAddr, selfInc := 1, members := ∅, gossip := [], counters := ⟨0, 0, 0, 0, 0⟩ }

/-- `self_update`. -/
def selfUpdate (m : Membership) : Update :=
  { id := m.selfId, addr := m.selfAddr, state := .alive, inc := m.selfInc }

/-- `full_state`: the members and the node itself. -/
def fullState (m : Membership) : List Update :=
  m.members.entries.map (fun e => ⟨e.1, e.2.addr, e.2.state, e.2.inc⟩) ++ [m.selfUpdate]

/-- `enqueue` (lines 252–259): one entry per id, the newest `GOSSIP_CAP` of
    them. -/
def enqueue (m : Membership) (u : Update) (retransmit : ℕ) : Membership :=
  let gossip := m.gossip.filter (fun g => g.1.id ≠ u.id) ++ [(u, retransmit)]
  { m with gossip := gossip.drop (gossip.length - gossipCap) }

/-- `count_transition` (lines 323–336). -/
def countTransition (c : MembershipCounters) (prev : Option MState) (next : MState) :
    MembershipCounters :=
  match prev, next with
  | none, .alive => { c with joined := c.joined + 1 }
  | none, .suspect => { c with suspected := c.suspected + 1 }
  | none, .dead => { c with dead := c.dead + 1 }
  | some p, n =>
    if p ≠ n then
      match n with
      | .alive => { c with revived := c.revived + 1 }
      | .suspect => { c with suspected := c.suspected + 1 }
      | .dead => { c with dead := c.dead + 1 }
    else c

/-- The comparison by which `merge` accepts an update about another node. -/
def accepts (m : Membership) (u : Update) : Bool :=
  match m.members.lookup u.id with
  | none => true
  | some old => u.inc > old.inc || (u.inc == old.inc && precedence u.state > precedence old.state)

/-- `merge` (lines 286–321) at time `now`: the new table and whether it
    changed. -/
def merge (m : Membership) (u : Update) (retransmit : ℕ) (now : Instant) : Membership × Bool :=
  if u.id = m.selfId then
    if u.state ≠ .alive ∧ u.inc ≥ m.selfInc then
      let m := { m with
        selfInc := u.inc + 1
        counters := { m.counters with refuted := m.counters.refuted + 1 } }
      (m.enqueue m.selfUpdate retransmit, true)
    else (m, false)
  else if m.accepts u then
    let prev := (m.members.lookup u.id).map Member.state
    let m := { m with
      members := m.members.insert u.id
        { addr := u.addr, state := u.state, inc := u.inc, since := now }
      counters := countTransition m.counters prev u.state }
    (m.enqueue u retransmit, true)
  else (m, false)

/-- `suspect` (lines 372–386) at time `now`: an alive member becomes suspect. -/
def suspect (m : Membership) (target : NodeId) (retransmit : ℕ) (now : Instant) :
    Membership × Bool :=
  match m.members.lookup target with
  | none => (m, false)
  | some mb =>
    if mb.state ≠ .alive then (m, false)
    else m.merge ⟨target, mb.addr, .suspect, mb.inc⟩ retransmit now

/-- `merge` of a list of updates, each at its own time. -/
def mergeAll (m : Membership) (retransmit : ℕ) (us : List (Update × Instant)) : Membership :=
  run (fun m e => (m.merge e.1 retransmit e.2).1) m us

end Membership

/-! ## Standings -/

/-- Incarnation and state of a member. -/
@[ext] structure Standing where
  inc : UInt32
  state : MState
  deriving DecidableEq, Repr

/-- The two numbers that `merge` compares, the incarnation first. -/
def Standing.key (s : Standing) : ℕ ×ₗ ℕ := toLex (s.inc.toNat, (precedence s.state).toNat)

theorem precedence_toNat_injective : Function.Injective fun s => (precedence s).toNat := by
  intro s t h
  cases s <;> cases t <;> first | rfl | cases h

theorem Standing.key_injective : Function.Injective Standing.key := by
  intro s t h
  have h' : (s.inc.toNat, (precedence s.state).toNat) = (t.inc.toNat, (precedence t.state).toNat) :=
    h
  obtain ⟨hinc, hstate⟩ := Prod.mk.inj h'
  exact Standing.ext (UInt32.toNat_inj.mp hinc) (precedence_toNat_injective hstate)

/-- Incarnation first, then dead over suspect over alive. -/
instance : LinearOrder Standing := LinearOrder.lift' Standing.key Standing.key_injective

theorem Standing.lt_iff {s t : Standing} :
    s < t ↔ s.inc < t.inc ∨ s.inc = t.inc ∧ precedence s.state < precedence t.state := by
  rw [← UInt32.toNat_inj]
  exact Prod.Lex.toLex_lt_toLex

theorem Standing.mk_le_mk {i j : UInt32} {st : MState} (h : i.toNat ≤ j.toNat) :
    (⟨i, st⟩ : Standing) ≤ ⟨j, st⟩ := by
  refine le_of_not_gt fun hgt => ?_
  rcases Standing.lt_iff.mp hgt with hlt | ⟨-, hlt⟩
  · have hlt' : j.toNat < i.toNat := hlt
    omega
  · exact UInt8.lt_irrefl _ hlt

/-- What an update says of a member. -/
def Update.standing (u : Update) : Standing := ⟨u.inc, u.state⟩

/-- What the table says of a member. -/
def Member.standing (mb : Member) : Standing := ⟨mb.inc, mb.state⟩

namespace Membership

variable (m : Membership) (u : Update) (retransmit : ℕ) (now : Instant)

/-- What the table holds of `id`; `⊥` for an unknown node. -/
def standing (id : NodeId) : WithBot Standing :=
  match m.members.lookup id with
  | none => ⊥
  | some mb => mb.standing

theorem accepts_iff : m.accepts u = true ↔ m.standing u.id < u.standing := by
  unfold accepts standing
  cases m.members.lookup u.id with
  | none => simp
  | some old =>
    simp only [Bool.or_eq_true, Bool.and_eq_true, decide_eq_true_eq, beq_iff_eq,
      WithBot.coe_lt_coe, Standing.lt_iff, Member.standing, Update.standing, gt_iff_lt]
    rw [eq_comm (a := u.inc)]

theorem selfId_merge : (m.merge u retransmit now).1.selfId = m.selfId := by
  unfold merge
  split_ifs <;> rfl

/-- One `merge` joins the standing it received, unless it is about the node
    itself. -/
theorem standing_merge (id : NodeId) : (m.merge u retransmit now).1.standing id =
    m.standing id ⊔ if u.id = id ∧ id ≠ m.selfId then (u.standing : WithBot Standing) else ⊥ := by
  unfold merge
  split_ifs with hself href hid hid hacc hid hid
  · exact absurd (hid.1.symm.trans hself) hid.2
  · rw [sup_bot_eq]; rfl
  · exact absurd (hid.1.symm.trans hself) hid.2
  · rw [sup_bot_eq]
  · -- an accepted update is above what the table held
    obtain ⟨rfl, -⟩ := hid
    have hlt := (m.accepts_iff u).mp hacc
    rw [sup_eq_right.mpr hlt.le]
    unfold standing enqueue
    dsimp only
    rw [AList.lookup_insert]
    rfl
  · rw [sup_bot_eq]
    have hne : id ≠ u.id := fun h => hid ⟨h.symm, h ▸ hself⟩
    unfold standing enqueue
    dsimp only
    rw [AList.lookup_insert_ne hne]
  · obtain ⟨rfl, -⟩ := hid
    rw [m.accepts_iff u, not_lt] at hacc
    rw [sup_eq_left.mpr hacc]
  · rw [sup_bot_eq]

/-- One `merge` raises the own incarnation above a non-alive claim about the
    node itself. -/
theorem selfInc_merge (hinc : u.state ≠ .alive → u.inc.toNat < 2 ^ 32 - 1) :
    (m.merge u retransmit now).1.selfInc.toNat =
      m.selfInc.toNat ⊔ if u.id = m.selfId ∧ u.state ≠ .alive then u.inc.toNat + 1 else 0 := by
  by_cases hself : u.id = m.selfId
  · unfold merge
    rw [if_pos hself]
    split_ifs with href hclaim hclaim
    · have hge : m.selfInc.toNat ≤ u.inc.toNat := href.2
      have hlt := hinc href.1
      have hsucc : (u.inc + 1).toNat = u.inc.toNat + 1 := by
        rw [UInt32.toNat_add]
        exact Nat.mod_eq_of_lt (by simpa using by omega)
      show (u.inc + 1).toNat = _
      rw [hsucc, sup_eq_right.mpr (by omega)]
    · exact absurd ⟨hself, href.1⟩ hclaim
    · have hlt : u.inc.toNat < m.selfInc.toNat := by
        by_contra hge
        exact href ⟨hclaim.2, not_lt.mp hge⟩
      show m.selfInc.toNat = _
      rw [sup_eq_left.mpr hlt]
    · exact (sup_bot_eq _).symm
  · have hsame : (m.merge u retransmit now).1.selfInc = m.selfInc := by
      unfold merge
      rw [if_neg hself]
      split_ifs <;> rfl
    rw [hsame, if_neg fun h => hself h.1]
    exact (sup_bot_eq _).symm

/-! ## Suspicion -/

theorem selfId_suspect (target : NodeId) :
    (m.suspect target retransmit now).1.selfId = m.selfId := by
  unfold suspect
  cases m.members.lookup target with
  | none => rfl
  | some mb =>
    dsimp only
    split_ifs
    · rfl
    · exact m.selfId_merge ..

/-- A suspected node is not held as alive. -/
theorem standing_suspect_ne_alive {target : NodeId} (htarget : target ≠ m.selfId) (i : UInt32) :
    (m.suspect target retransmit now).1.standing target ≠ (⟨i, .alive⟩ : Standing) := by
  unfold suspect
  cases hmb : m.members.lookup target with
  | none =>
    rw [standing, hmb]
    exact WithBot.bot_ne_coe
  | some mb =>
    have hst : m.standing target = (mb.standing : WithBot Standing) := by rw [standing, hmb]
    dsimp only
    split_ifs with halive
    · intro h
      rw [hst, WithBot.coe_inj] at h
      exact halive (congrArg Standing.state h)
    · set sus : Update := ⟨target, mb.addr, .suspect, mb.inc⟩
      have hlt : mb.standing < sus.standing := by
        refine Standing.lt_iff.mpr (.inr ⟨rfl, ?_⟩)
        show precedence mb.state < precedence .suspect
        rw [not_not.mp halive]
        decide
      rw [standing_merge, if_pos ⟨rfl, htarget⟩, hst,
        sup_eq_right.mpr (WithBot.coe_le_coe.mpr hlt.le)]
      intro h
      cases congrArg Standing.state (WithBot.coe_inj.mp h)

/-! ## The full state -/

section

variable {m u}

theorem mem_fullState : u ∈ m.fullState ↔
    (∃ mb, m.members.lookup u.id = some mb ∧ u = ⟨u.id, mb.addr, mb.state, mb.inc⟩) ∨
      u = m.selfUpdate := by
  rw [fullState, List.mem_append, List.mem_singleton, List.mem_map]
  refine or_congr_left ?_
  constructor
  · rintro ⟨⟨id, mb⟩, hmem, rfl⟩
    exact ⟨mb, AList.mem_lookup_iff.mpr hmem, rfl⟩
  · rintro ⟨mb, hmb, hu⟩
    exact ⟨⟨u.id, mb⟩, AList.mem_lookup_iff.mp hmb, hu.symm⟩

theorem selfUpdate_mem_fullState : m.selfUpdate ∈ m.fullState := mem_fullState.mpr (.inr rfl)

/-- Every entry but the own one is a standing of the table. -/
theorem standing_of_mem_fullState (h : u ∈ m.fullState) :
    m.standing u.id = u.standing ∨ u = m.selfUpdate := by
  rcases mem_fullState.mp h with ⟨mb, hmb, hu⟩ | hu
  · left
    rw [standing, hmb, hu]
    rfl
  · exact .inr hu

theorem exists_mem_fullState {id : NodeId} {s : Standing} (h : m.standing id = s) :
    ∃ u ∈ m.fullState, u.id = id ∧ u.standing = s := by
  unfold standing at h
  cases hmb : m.members.lookup id with
  | none =>
    rw [hmb] at h
    cases h
  | some mb =>
    rw [hmb] at h
    exact ⟨⟨id, mb.addr, mb.state, mb.inc⟩, mem_fullState.mpr (.inl ⟨mb, hmb, rfl⟩), rfl,
      WithBot.coe_injective h⟩

end

/-! ## Lists of updates -/

variable {m retransmit} {us vs : List (Update × Instant)}

/-- The updates of a list, without order and repetition. -/
def received (us : List (Update × Instant)) : Finset Update := (us.map Prod.fst).toFinset

theorem standing_mergeAll (id : NodeId) : (m.mergeAll retransmit us).standing id =
    m.standing id ⊔ ((received us).filter fun u => u.id = id ∧ id ≠ m.selfId).sup
      fun u => (u.standing : WithBot Standing) := by
  have hjoin : (m.mergeAll retransmit us).standing id = m.standing id ⊔ (received us).sup
      fun u => if u.id = id ∧ id ≠ m.selfId then (u.standing : WithBot Standing) else ⊥ := by
    refine run_join (I := fun m' : Membership => m'.selfId = m.selfId)
      (g := fun m' : Membership => m'.standing id) rfl ?_
    intro m' hself e _
    refine ⟨(m'.selfId_merge ..).trans hself, ?_⟩
    rw [← hself]
    exact m'.standing_merge ..
  rw [hjoin, Finset.sup_ite, Finset.sup_bot, sup_bot_eq]

theorem selfInc_mergeAll
    (hinc : ∀ e ∈ us, e.1.state ≠ .alive → e.1.inc.toNat < 2 ^ 32 - 1) :
    (m.mergeAll retransmit us).selfInc.toNat = m.selfInc.toNat ⊔
      ((received us).filter fun u => u.id = m.selfId ∧ u.state ≠ .alive).sup
        fun u => u.inc.toNat + 1 := by
  have hjoin : (m.mergeAll retransmit us).selfInc.toNat = m.selfInc.toNat ⊔ (received us).sup
      fun u => if u.id = m.selfId ∧ u.state ≠ .alive then u.inc.toNat + 1 else 0 := by
    refine run_join (I := fun m' : Membership => m'.selfId = m.selfId)
      (g := fun m' : Membership => m'.selfInc.toNat) rfl ?_
    intro m' hself e he
    refine ⟨(m'.selfId_merge ..).trans hself, ?_⟩
    rw [← hself]
    exact m'.selfInc_merge _ _ _ (hinc e he)
  rw [hjoin, Finset.sup_ite]
  congr 1
  exact sup_eq_left.mpr (Finset.sup_le fun _ _ => Nat.zero_le _)

theorem mem_members_iff (id : NodeId) : id ∈ m.members ↔ m.standing id ≠ ⊥ := by
  unfold standing
  rw [← AList.lookup_isSome]
  cases m.members.lookup id with
  | none => simp
  | some mb => simp

/-- The table after a list of updates with incarnations below `u32::MAX` is, up
    to addresses and times, the join of the table before and of the set of
    updates received; so it is the same for every list with the same updates,
    in any order and with any repetition. -/
theorem mergeAll_eq_of_same_updates (m : Membership) (retransmit : ℕ)
    (us vs : List (Update × Instant)) (hinc : ∀ e ∈ us, e.1.inc.toNat < 2 ^ 32 - 1)
    (hsame : ∀ u, u ∈ us.map Prod.fst ↔ u ∈ vs.map Prod.fst) :
    (∀ id, (m.mergeAll retransmit us).standing id = m.standing id ⊔
      ((received us).filter fun u => u.id = id ∧ id ≠ m.selfId).sup
        fun u => (u.standing : WithBot Standing)) ∧
    (m.mergeAll retransmit us).selfInc.toNat = max m.selfInc.toNat
      (((received us).filter fun u => u.id = m.selfId ∧ u.state ≠ .alive).sup
        fun u => u.inc.toNat + 1) ∧
    (∀ id, id ∈ (m.mergeAll retransmit vs).members ↔ id ∈ (m.mergeAll retransmit us).members) ∧
    (∀ id, (m.mergeAll retransmit vs).standing id = (m.mergeAll retransmit us).standing id) ∧
    (m.mergeAll retransmit vs).selfInc = (m.mergeAll retransmit us).selfInc := by
  have hreceived : received vs = received us := by
    ext u
    rw [received, received, List.mem_toFinset, List.mem_toFinset, hsame]
  have hinc' : ∀ e ∈ vs, e.1.inc.toNat < 2 ^ 32 - 1 := by
    intro e he
    obtain ⟨e', he', hfst⟩ := List.mem_map.mp ((hsame e.1).mpr (List.mem_map_of_mem he))
    rw [← hfst]
    exact hinc e' he'
  have hstanding : ∀ id,
      (m.mergeAll retransmit vs).standing id = (m.mergeAll retransmit us).standing id := by
    intro id
    rw [standing_mergeAll, standing_mergeAll, hreceived]
  refine ⟨fun id => standing_mergeAll id, selfInc_mergeAll fun e he _ => hinc e he,
    fun id => ?_, hstanding, ?_⟩
  · rw [mem_members_iff, mem_members_iff, hstanding]
  · apply UInt32.toNat_inj.mp
    rw [selfInc_mergeAll fun e he _ => hinc' e he, selfInc_mergeAll fun e he _ => hinc e he,
      hreceived]

/-- Node 1 hears about node 2 and twice about its own death. -/
theorem mergeAll_rumours :
    let m := Membership.new 1 ⟨.v4 0x0a000001, 7000⟩
    let claim (id : NodeId) (state : MState) (inc : UInt32) : Update :=
      ⟨id, ⟨.v4 0x0a000002, 7000⟩, state, inc⟩
    let us := [(claim 2 .dead 4, 10), (claim 1 .dead 6, 11), (claim 2 .alive 5, 12)]
    let vs := [(claim 2 .alive 5, 20), (claim 2 .dead 4, 21), (claim 1 .dead 6, 22),
      (claim 1 .dead 6, 23)]
    (m.mergeAll 4 vs).selfInc = (m.mergeAll 4 us).selfInc ∧ (m.mergeAll 4 us).selfInc = 7 :=
  ⟨(mergeAll_eq_of_same_updates _ 4 _ _ (by simp) (by simp; tauto)).2.2.2.2, by decide +kernel⟩

end Membership

end BeamSocket.Mesh
