import BeamSocket.Mesh.Incarnations

/-!
# Addresses in a cluster

An address is told with the id it belongs to, from the node itself on: in tables, gossip
buffers and MEMBERSHIP frames. So in a cluster of nodes that keep their addresses nobody holds
another address of a node than its own.

* `Membership.Located`: all addresses that a node holds are right.
* `Located.merge`, `Located.noteDirectAck`, `Located.suspect`, `Located.expireSuspects`,
  `Located.takePiggyback`: every operation on the table keeps that.
* `SwimCluster.Located.step`: so does every step of the cluster.
-/

namespace BeamSocket.Mesh

open BeamSocket.Lib

namespace Membership

/-- Every address that the node holds is the one that `home` gives. -/
structure Located (home : NodeId → SocketAddr) (m : Membership) : Prop where
  self : m.selfAddr = home m.selfId
  member : ∀ id mb, m.members.lookup id = some mb → mb.addr = home id
  gossip : ∀ g ∈ m.gossip, g.1.addr = home g.1.id

variable {home : NodeId → SocketAddr} {m : Membership} {u : Update} {retransmit : ℕ}
  {now : Instant}

theorem located_new (c : NodeId) : (Membership.new c (home c)).Located home where
  self := rfl
  member id mb h := by cases h
  gossip g h := by cases h

theorem Located.fullState (h : m.Located home) (hu : u ∈ m.fullState) : u.addr = home u.id := by
  obtain ⟨mb, hmb, heq⟩ | rfl := mem_fullState.mp hu
  · rw [show u.addr = mb.addr from congrArg Update.addr heq]
    exact h.member u.id mb hmb
  · exact h.self

theorem Located.gossip_enqueue (h : m.Located home) (hu : u.addr = home u.id) :
    ∀ g ∈ (m.enqueue u retransmit).gossip, g.1.addr = home g.1.id := by
  intro g hg
  obtain ⟨hg, -⟩ | rfl := mem_gossip_enqueue hg
  · exact h.gossip g hg
  · exact hu

theorem Located.member_insert (h : m.Located home) {id : NodeId} {mb : Member}
    (hmb : mb.addr = home id) (id' : NodeId) (mb' : Member)
    (hlookup : (m.members.insert id mb).lookup id' = some mb') : mb'.addr = home id' := by
  by_cases hid : id' = id
  · subst hid
    rw [AList.lookup_insert] at hlookup
    cases hlookup
    exact hmb
  · rw [AList.lookup_insert_ne hid] at hlookup
    exact h.member id' mb' hlookup

theorem Located.merge (h : m.Located home) (hu : u.addr = home u.id) :
    (m.merge u retransmit now).1.Located home := by
  have hm := merged m u retransmit now
  generalize (m.merge u retransmit now).1 = m' at hm ⊢
  cases hm with
  | refuted hid hstate hinc => exact ⟨h.self, h.member, h.gossip_enqueue h.self⟩
  | accepted hid hacc => exact ⟨h.self, h.member_insert hu, h.gossip_enqueue hu⟩
  | ignored => exact h

theorem Located.mergeAll (h : m.Located home) {us : List (Update × Instant)}
    (hus : ∀ e ∈ us, e.1.addr = home e.1.id) : (m.mergeAll retransmit us).Located home := by
  induction us generalizing m with
  | nil => exact h
  | cons e us ih =>
    exact ih (h.merge (hus e (List.mem_cons_self ..))) fun e' he' =>
      hus e' (List.mem_cons_of_mem e he')

theorem Located.noteDirectAck (h : m.Located home) {sender : NodeId} :
    (m.noteDirectAck sender retransmit now).1.Located home := by
  unfold Membership.noteDirectAck
  split
  · exact h
  · rename_i mb hmb
    split_ifs
    · have haddr : mb.addr = home sender := h.member sender mb hmb
      exact ⟨h.self, h.member_insert haddr, h.gossip_enqueue haddr⟩
    · exact h

theorem Located.suspect (h : m.Located home) {target : NodeId} :
    (m.suspect target retransmit now).1.Located home := by
  unfold Membership.suspect
  split
  · exact h
  · rename_i mb hmb
    split_ifs
    · exact h
    · exact h.merge (h.member target mb hmb)

theorem Located.expireSuspects (h : m.Located home) {timeout : ℕ} {clock : ℕ → Instant} :
    (m.expireSuspects timeout retransmit now clock).1.Located home := by
  rw [expireSuspects_fst]
  refine h.mergeAll fun e he => ?_
  obtain ⟨mb, hmb, -, -, haddr, -⟩ := lookup_of_mem_expired (mem_of_stamped he)
  rw [haddr]
  exact h.member e.1.id mb hmb

theorem Located.apply (h : m.Located home) {msg : MembershipMsg} {clock : ℕ → Instant}
    (hmsg : ∀ u ∈ msg.updates, u.addr = home u.id) :
    (m.apply msg retransmit clock).1.Located home := by
  rw [apply_fst]
  exact h.mergeAll fun e he => hmsg e.1 (mem_of_stamped he)

theorem Located.takePiggyback (h : m.Located home) (max : ℕ) :
    (m.takePiggyback max).1.Located home ∧
      ∀ u ∈ (m.takePiggyback max).2, u.addr = home u.id := by
  obtain ⟨hout, hrest⟩ := drainGossip_subset max [m.selfUpdate] m.gossip
  refine ⟨⟨h.self, h.member, ?_⟩, ?_⟩
  · rintro ⟨u, n⟩ hg
    obtain ⟨n', hn'⟩ := hrest _ hg
    exact h.gossip (u, n') hn'
  · intro u hu
    obtain hself | ⟨n, hn⟩ := hout u hu
    · rw [List.mem_singleton.mp hself]
      exact h.self
    · exact h.gossip (u, n) hn

end Membership

namespace SwimCluster

/-- A frame that tells the right addresses. -/
def Tells (home : NodeId → SocketAddr) (p : Packet) : Prop :=
  ∃ msg : MembershipMsg, p.body = msg.encode ∧ ∀ u ∈ msg.updates, u.addr = home u.id

/-- Every address in the cluster is right. -/
structure Located (home : NodeId → SocketAddr) (x : SwimCluster) : Prop where
  node : ∀ c, (x.node c).Located home
  flight : ∀ p ∈ x.flight, Tells home p

variable {params : NodeId → SwimParams} {home : NodeId → SocketAddr} {x : SwimCluster} {a : NodeId}
  {m : Membership}

theorem located_start : (start home).Located home where
  node c := Membership.located_new c
  flight p hp := by cases hp

theorem Located.act (hx : x.Located home) (hm : m.Located home) {sent : List Packet}
    (hsent : ∀ p ∈ sent, Tells home p) : (x.act a m sent).Located home where
  node := forall_act (P := fun _ m => m.Located home) hm fun c _ => hx.node c
  flight p hp := by
    obtain hp | hp := List.mem_append.mp hp
    · exact hx.flight p hp
    · exact hsent p hp

theorem Tells.decode {p : Packet} (hp : Tells home p) {msg : MembershipMsg}
    (hmsg : MembershipMsg.decode p.body = some msg) : ∀ u ∈ msg.updates, u.addr = home u.id := by
  obtain ⟨sent, hbody, hsent⟩ := hp
  rw [hbody, MembershipMsg.decode_encode_take] at hmsg
  cases hmsg
  intro u hu
  exact hsent u (MembershipMsg.mem_updates_take hu)

theorem Located.step (hx : x.Located home) (e : Event) : (x.step params e).Located home := by
  cases e with
  | push a d =>
    refine hx.act (hx.node a) fun p hp => ?_
    rw [List.mem_singleton.mp hp]
    exact ⟨.sync true (x.node a).fullState, rfl, fun u hu => (hx.node a).fullState hu⟩
  | gossip a links =>
    obtain ⟨htable, hout⟩ := (hx.node a).takePiggyback (params a).gossipMax
    refine hx.act htable fun p hp => ?_
    obtain ⟨d, -, rfl⟩ := List.mem_map.mp hp
    exact ⟨.gossip ((x.node a).takePiggyback (params a).gossipMax).2, rfl, hout⟩
  | digest a links =>
    refine hx.act (hx.node a) fun p hp => ?_
    obtain ⟨d, -, rfl⟩ := List.mem_map.mp hp
    refine ⟨(x.node a).buildDigest, rfl, fun u hu => ?_⟩
    cases hu
  | deliver i clock =>
    simp only [SwimCluster.step]
    split
    · exact hx
    · rename_i p hp
      split
      · exact hx
      · rename_i msg hmsg
        have htold := (hx.flight p (List.mem_of_getElem? hp)).decode hmsg
        have htable : ((x.node p.dst).apply msg (params p.dst).retransmit clock).1.Located home :=
          (hx.node p.dst).apply htold
        refine hx.act htable fun q hq => ?_
        obtain ⟨r, hr, rfl⟩ := List.mem_map.mp hq
        have hresp := Option.mem_toList.mp hr
        exact ⟨r, rfl, fun u hu =>
          htable.fullState (Membership.mem_fullState_of_response hresp hu)⟩
  | ack a sender now => exact hx.act (hx.node a).noteDirectAck (by simp)
  | suspect a target now => exact hx.act (hx.node a).suspect (by simp)
  | expire a now clock => exact hx.act (hx.node a).expireSuspects (by simp)

end SwimCluster

end BeamSocket.Mesh
