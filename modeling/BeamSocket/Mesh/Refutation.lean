import BeamSocket.Mesh.Detector

/-!
# Refuting a rumour

A node applies the MEMBERSHIP frames that it receives one after another
(`crates/mesh/src/node.rs`, lines 187–198). `merge` answers a claim that the node itself is
suspect or dead with an incarnation one above the claim's, in `u32` arithmetic: it wraps
in a release build (a debug build panics instead).

* `Own.receive`: what the node holds of itself is its current incarnation.
* `selfInc_receive`: below `u32::MAX`, a claim raises the own incarnation above it.
* `refutes_iff`: the node refutes every claim it hears, for good, iff none of them is at
  `u32::MAX`.
-/

namespace BeamSocket.Mesh

open BeamSocket.Lib

namespace Membership

/-- `u32::MAX`. -/
def maxInc : UInt32 := 4294967295

/-- What `on_inbound` does to the table, with the times of the merges. -/
def receive (retransmit : ℕ) (m : Membership) (frame : Bytes × (ℕ → Instant)) : Membership :=
  match MembershipMsg.decode frame.1 with
  | none => m
  | some msg => (m.apply msg retransmit frame.2).1

/-- The claims in a frame that node `id` is not alive. -/
def claimsAbout (id : NodeId) (frame : Bytes × (ℕ → Instant)) : List Update :=
  match MembershipMsg.decode frame.1 with
  | none => []
  | some msg => msg.updates.filter fun u => u.id = id ∧ u.state ≠ .alive

/-- An alive `v` of a higher incarnation than `u`, which a peer that holds `u` takes over. -/
structure Overrides (v u : Update) : Prop where
  alive : v.state = .alive
  inc : u.inc < v.inc
  accepted : ∀ (peer : Membership) (retransmit : ℕ) (now : Instant), v.id ≠ peer.selfId →
    peer.standing v.id = u.standing → (peer.merge v retransmit now).1.standing v.id = v.standing

/-- The entry of the node itself, in its full state and in what it gossips, overrides `u`. -/
structure Refuted (m : Membership) (u : Update) : Prop where
  fullState : m.selfUpdate ∈ m.fullState ∧ ∀ v ∈ m.fullState, v.id = m.selfId → Overrides v u
  gossip : ∀ max, m.selfUpdate ∈ (m.takePiggyback max).2 ∧
    ∀ v ∈ (m.takePiggyback max).2, v.id = m.selfId → Overrides v u

/-- All the node holds of itself is its current incarnation. -/
structure Own (m : Membership) : Prop where
  absent : m.Absent
  gossip : ∀ g ∈ m.gossip, g.1.id = m.selfId → g.1 = m.selfUpdate

variable {m : Membership} {u v : Update} {retransmit : ℕ} {now : Instant}

theorem own_new (id : NodeId) (addr : SocketAddr) : (new id addr).Own where
  absent := rfl
  gossip g hg := by cases hg

theorem Own.merge (h : m.Own) : (m.merge u retransmit now).1.Own := by
  refine ⟨h.absent.merge, ?_⟩
  intro g hg hid
  have hm := merged m u retransmit now
  generalize (m.merge u retransmit now).1 = m' at hg hid hm
  cases hm with
  | ignored => exact h.gossip g hg hid
  | refuted hself hstate hinc =>
    obtain ⟨-, hne⟩ | rfl := mem_gossip_enqueue hg
    · exact absurd hid hne
    · rfl
  | accepted hself hacc =>
    obtain ⟨hg, -⟩ | rfl := mem_gossip_enqueue hg
    · exact h.gossip g hg hid
    · exact absurd hid hself

theorem Own.receive (h : m.Own) (frame : Bytes × (ℕ → Instant)) :
    (m.receive retransmit frame).Own := by
  unfold Membership.receive
  split
  · exact h
  · rw [apply_fst]
    exact run_invariant (I := Own) (fun m' e h' => h'.merge) h

theorem selfId_receive (m : Membership) (frame : Bytes × (ℕ → Instant)) :
    (m.receive retransmit frame).selfId = m.selfId := by
  unfold receive
  split
  · rfl
  · exact selfId_apply

/-! ## Raising the own incarnation -/

theorem lt_succ_of_ne_maxInc {i : UInt32} (h : i ≠ maxInc) : i < i + 1 := by
  have hne : i.toNat ≠ 4294967295 := fun heq => h (UInt32.toNat_inj.mp heq)
  have hlt := i.toNat_lt
  show i.toNat < (i + 1).toNat
  rw [UInt32.toNat_add, Nat.mod_eq_of_lt (by simpa using by omega)]
  exact Nat.lt_succ_self _

/-- Below `u32::MAX`, the own incarnation is raised above a claim, and never lowered. -/
theorem selfInc_lt_merge (retransmit : ℕ) (now : Instant)
    (hu : u.id = m.selfId → u.state ≠ .alive → u.inc ≠ maxInc) :
    m.selfInc ≤ (m.merge u retransmit now).1.selfInc ∧
      (u.id = m.selfId → u.state ≠ .alive → u.inc < (m.merge u retransmit now).1.selfInc) := by
  by_cases hid : u.id = m.selfId
  swap
  · have hsame : (m.merge u retransmit now).1.selfInc = m.selfInc := by
      unfold merge
      rw [if_neg hid]
      split_ifs <;> rfl
    rw [hsame]
    exact ⟨UInt32.le_refl _, fun h => absurd h hid⟩
  unfold merge
  rw [if_pos hid]
  split_ifs with href
  · have hsucc := lt_succ_of_ne_maxInc (hu hid href.1)
    exact ⟨UInt32.le_trans href.2 (UInt32.le_of_lt hsucc), fun _ _ => hsucc⟩
  · refine ⟨UInt32.le_refl _, fun _ hstate => ?_⟩
    exact UInt32.not_le.mp fun hle => href ⟨hstate, hle⟩

theorem selfInc_lt_mergeAll (m : Membership) (retransmit : ℕ) (us : List (Update × Instant))
    (hus : ∀ e ∈ us, e.1.id = m.selfId → e.1.state ≠ .alive → e.1.inc ≠ maxInc) :
    m.selfInc ≤ (m.mergeAll retransmit us).selfInc ∧
      ∀ e ∈ us, e.1.id = m.selfId → e.1.state ≠ .alive →
        e.1.inc < (m.mergeAll retransmit us).selfInc := by
  induction us generalizing m with
  | nil => exact ⟨UInt32.le_refl _, by simp⟩
  | cons e us ih =>
    have hself : (m.merge e.1 retransmit e.2).1.selfId = m.selfId := selfId_merge ..
    obtain ⟨hle, hlt⟩ := selfInc_lt_merge retransmit e.2 (hus e (List.mem_cons_self ..))
    have hrest : ∀ e' ∈ us, e'.1.id = (m.merge e.1 retransmit e.2).1.selfId →
        e'.1.state ≠ .alive → e'.1.inc ≠ maxInc := by
      rw [hself]
      exact fun e' he' => hus e' (List.mem_cons_of_mem e he')
    obtain ⟨hle', hlt'⟩ := ih _ hrest
    rw [hself] at hlt'
    refine ⟨UInt32.le_trans hle hle', ?_⟩
    intro e' he' hid hstate
    obtain rfl | he' := List.mem_cons.mp he'
    · exact UInt32.lt_of_lt_of_le (hlt hid hstate) hle'
    · exact hlt' e' he' hid hstate

theorem mem_claimsAbout {id : NodeId} {frame : Bytes × (ℕ → Instant)} :
    u ∈ claimsAbout id frame ↔ ∃ msg, MembershipMsg.decode frame.1 = some msg ∧
      u ∈ msg.updates ∧ u.id = id ∧ u.state ≠ .alive := by
  unfold claimsAbout
  cases MembershipMsg.decode frame.1 with
  | none => simp
  | some msg => simp [List.mem_filter]

/-- The same for a frame. -/
theorem selfInc_lt_receive {frame : Bytes × (ℕ → Instant)} (retransmit : ℕ)
    (h : ∀ u ∈ claimsAbout m.selfId frame, u.inc ≠ maxInc) :
    m.selfInc ≤ (m.receive retransmit frame).selfInc ∧
      ∀ u ∈ claimsAbout m.selfId frame, u.inc < (m.receive retransmit frame).selfInc := by
  unfold receive
  cases hmsg : MembershipMsg.decode frame.1 with
  | none =>
    refine ⟨UInt32.le_refl _, ?_⟩
    intro u hu
    obtain ⟨msg, hmsg', -⟩ := mem_claimsAbout.mp hu
    rw [hmsg] at hmsg'
    cases hmsg'
  | some msg =>
    dsimp only
    rw [apply_fst]
    obtain ⟨hle, hlt⟩ := m.selfInc_lt_mergeAll retransmit (stamped frame.2 msg.updates)
      fun e he hid hstate => h e.1 (mem_claimsAbout.mpr ⟨msg, hmsg, mem_of_stamped he, hid, hstate⟩)
    refine ⟨hle, ?_⟩
    intro u hu
    obtain ⟨msg', hmsg', hmem, hid, hstate⟩ := mem_claimsAbout.mp hu
    rw [hmsg] at hmsg'
    cases hmsg'
    obtain ⟨now, hnow⟩ := exists_mem_stamped frame.2 hmem
    exact hlt (u, now) hnow hid hstate

/-! ## Overriding a claim -/

theorem overrides_of_lt (hv : v.state = .alive) (hinc : u.inc < v.inc) : Overrides v u := by
  refine ⟨hv, hinc, ?_⟩
  intro peer retransmit now hne hst
  have hlt : u.standing < v.standing := Standing.lt_iff.mpr (.inl hinc)
  rw [standing_merge, hst, if_pos ⟨rfl, hne⟩]
  exact sup_eq_right.mpr (WithBot.coe_le_coe.mpr hlt.le)

/-- A node whose own incarnation is above that of a claim refutes it. -/
theorem Own.refuted (h : m.Own) (hinc : u.inc < m.selfInc) : Refuted m u := by
  have hself : Overrides m.selfUpdate u := overrides_of_lt rfl hinc
  refine ⟨⟨selfUpdate_mem_fullState, ?_⟩,
    fun max => ⟨mem_drainGossip (List.mem_singleton_self _), ?_⟩⟩
  · intro v hv hid
    obtain ⟨mb, hmb, -⟩ | rfl := mem_fullState.mp hv
    · rw [hid] at hmb
      exact absurd hmb (h.absent.lookup mb)
    · exact hself
  · intro v hv hid
    obtain hv | ⟨n, hv⟩ := (drainGossip_subset max _ _).1 v hv
    · rw [List.mem_singleton.mp hv]
      exact hself
    · have hown : v = m.selfUpdate := h.gossip (v, n) hv hid
      rw [hown]
      exact hself

/-! ## Runs -/

variable {frames : List (Bytes × (ℕ → Instant))}

theorem selfId_run (m : Membership) (retransmit : ℕ) (frames : List (Bytes × (ℕ → Instant))) :
    (run (receive retransmit) m frames).selfId = m.selfId := by
  refine run_invariant (I := fun m' : Membership => m'.selfId = m.selfId) ?_ rfl
  intro m' frame h
  exact (m'.selfId_receive frame).trans h

theorem selfInc_lt_run (retransmit : ℕ)
    (h : ∀ f ∈ frames, ∀ u ∈ claimsAbout m.selfId f, u.inc ≠ maxInc) :
    ∀ f ∈ frames, ∀ u ∈ claimsAbout m.selfId f,
      u.inc < (run (receive retransmit) m frames).selfInc := by
  induction frames using List.reverseRecOn with
  | nil => simp
  | append_singleton frames frame ih =>
    have hframe : ∀ u ∈ claimsAbout (run (receive retransmit) m frames).selfId frame,
        u.inc ≠ maxInc := by
      rw [selfId_run]
      exact h frame (by simp)
    obtain ⟨hle, hlt⟩ := selfInc_lt_receive retransmit hframe
    rw [selfId_run] at hlt
    rw [run_append]
    intro f hf u hu
    obtain hf | hf := List.mem_append.mp hf
    · exact UInt32.lt_of_lt_of_le (ih (fun f hf => h f (List.mem_append_left _ hf)) f hf u hu) hle
    · rw [List.mem_singleton.mp hf] at hu
      exact hlt u hu

/-- Of the frames a node receives, its own incarnation never decreases, and it refutes every
    claim it has heard that it is not alive, iff no claim is at incarnation `u32::MAX`. -/
theorem refutes_iff (m : Membership) (hm : m.Own) (retransmit : ℕ)
    (frames : List (Bytes × (ℕ → Instant))) :
    ((∀ pre f post, frames = pre ++ f :: post →
        (run (receive retransmit) m pre).selfInc ≤
          (run (receive retransmit) m (pre ++ [f])).selfInc) ∧
      ∀ pre post, frames = pre ++ post → ∀ f ∈ pre, ∀ u ∈ claimsAbout m.selfId f,
        Refuted (run (receive retransmit) m pre) u) ↔
    ∀ f ∈ frames, ∀ u ∈ claimsAbout m.selfId f, u.inc ≠ maxInc := by
  constructor
  · rintro ⟨-, hrefuted⟩ f hf u hu hmax
    -- no incarnation is above the largest one
    have hr := hrefuted frames [] (by simp) f hf u hu
    have hlt : u.inc.toNat < _ := (hr.fullState.2 _ hr.fullState.1 rfl).inc
    have hbound := (run (receive retransmit) m frames).selfInc.toNat_lt
    rw [hmax] at hlt
    replace hlt : 4294967295 < (run (receive retransmit) m frames).selfInc.toNat := hlt
    omega
  · intro h
    constructor
    · rintro pre f post rfl
      rw [run_append]
      refine (selfInc_lt_receive retransmit ?_).1
      rw [selfId_run]
      exact h f (by simp)
    · rintro pre post rfl f hf u hu
      have hown : (run (receive retransmit) m pre).Own :=
        run_invariant (I := Own) (fun m' frame h' => h'.receive frame) hm
      exact hown.refuted
        (selfInc_lt_run retransmit (fun f hf => h f (List.mem_append_left _ hf)) f hf u hu)

namespace Rumour

/-- Node 1, which has just started. -/
def node : Membership := new 1 ⟨.v4 0x0a000001, 7000⟩

/-- A frame that says that node 1 is dead. -/
def dead (inc : UInt32) : Bytes × (ℕ → Instant) :=
  ((MembershipMsg.gossip [⟨1, ⟨.v4 0x0a000001, 7000⟩, .dead, inc⟩]).encode, fun _ => 10)

theorem refutes_dead_seven : Refuted (run (receive 4) node [dead 7, dead 3])
    ⟨1, ⟨.v4 0x0a000001, 7000⟩, .dead, 7⟩ :=
  ((refutes_iff node (own_new ..) 4 [dead 7, dead 3]).mpr (by decide +kernel)).2 [dead 7, dead 3] []
    rfl (dead 7) (List.mem_cons_self ..) _ (by decide +kernel)

/-- A claim at `u32::MAX` takes the node back to incarnation 0, and the claim stands. -/
theorem max_claim_not_refuted :
    node.selfInc = 1 ∧ (run (receive 4) node [dead maxInc]).selfInc = 0 ∧
      ∃ u ∈ claimsAbout node.selfId (dead maxInc),
        ¬Refuted (run (receive 4) node [dead maxInc]) u := by
  have hinc : (run (receive 4) node [dead maxInc]).selfInc = 0 := by decide +kernel
  refine ⟨rfl, hinc, ⟨1, ⟨.v4 0x0a000001, 7000⟩, .dead, maxInc⟩, by decide +kernel, ?_⟩
  intro hr
  have hlt : maxInc < (run (receive 4) node [dead maxInc]).selfInc :=
    (hr.fullState.2 _ hr.fullState.1 rfl).inc
  rw [hinc] at hlt
  exact absurd hlt (by decide)

end Rumour

end Membership

end BeamSocket.Mesh
