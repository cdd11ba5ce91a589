import BeamSocket.Mesh.Detector

/-!
# Incarnations in a cluster

Nodes that run `crates/mesh/src/node.rs` and never restart exchange MEMBERSHIP frames:
`register` pushes the full state (lines 272–295), `gossip_loop` and `digest_loop` send to all
links (lines 677–709), `on_inbound` applies what arrives and answers (lines 187–198). A frame
that was sent may arrive at its destination at any time, again, or never. The probe plane acts
on the tables between them at any moment: `note_direct_ack`, `suspect` and `expire_suspects`.

* `SwimCluster.Inv`: nobody holds an incarnation of a node above its own, in a table, a gossip
  buffer or a frame; a node's own incarnation counts its refutations.
* `Inv.step`: every step keeps it, while there are fewer than `2 ^ 32 - 1` refutations.
* `incarnations_own`: so it holds in every run, and who was dead comes back only with an
  incarnation that it reached itself.
-/

namespace BeamSocket.Mesh

open BeamSocket.Lib

/-- The members that a message names, with their incarnations. -/
def MembershipMsg.claims : MembershipMsg → List (NodeId × UInt32)
  | .sync _ updates => updates.map fun u => (u.id, u.inc)
  | .gossip updates => updates.map fun u => (u.id, u.inc)
  | .digest entries => entries

/-- A MEMBERSHIP frame on a link. -/
structure Packet where
  src : NodeId
  dst : NodeId
  body : Bytes
  deriving DecidableEq, Repr

/-- The tables, and all frames that were ever sent. -/
structure SwimCluster where
  node : NodeId → Membership
  flight : List Packet

namespace SwimCluster

/-- The steps of the nodes (`node.rs`, lines 182–303 and 677–711), and the arrival of a frame.
    -/
inductive Event
  /-- `register` on a new link to `d`. -/
  | push (a d : NodeId)
  /-- A round of `gossip_loop`. -/
  | gossip (a : NodeId) (links : List NodeId)
  /-- A round of `digest_loop`. -/
  | digest (a : NodeId) (links : List NodeId)
  /-- The `i`-th frame arrives. -/
  | deliver (i : ℕ) (clock : ℕ → Instant)
  /-- `note_direct_ack`. -/
  | ack (a sender : NodeId) (now : Instant)
  /-- `suspect`. -/
  | suspect (a target : NodeId) (now : Instant)
  /-- `expire_suspects`. -/
  | expire (a : NodeId) (now : Instant) (clock : ℕ → Instant)

/-- Node `a` has a new table and sends frames. -/
def act (x : SwimCluster) (a : NodeId) (m : Membership) (sent : List Packet) : SwimCluster :=
  { node := Function.update x.node a m, flight := x.flight ++ sent }

section

variable (params : NodeId → SwimParams)

/-- One event; a frame can arrive at any time, more than once or never. -/
def step (x : SwimCluster) : Event → SwimCluster
  | .push a d =>
    x.act a (x.node a) [⟨a, d, (MembershipMsg.sync true (x.node a).fullState).encode⟩]
  | .gossip a links =>
    let taken := (x.node a).takePiggyback (params a).gossipMax
    x.act a taken.1 (links.map fun d => ⟨a, d, (MembershipMsg.gossip taken.2).encode⟩)
  | .digest a links =>
    x.act a (x.node a) (links.map fun d => ⟨a, d, (x.node a).buildDigest.encode⟩)
  | .deliver i clock =>
    match x.flight[i]? with
    | none => x
    | some p =>
      match MembershipMsg.decode p.body with
      | none => x
      | some msg =>
        let applied := (x.node p.dst).apply msg (params p.dst).retransmit clock
        x.act p.dst applied.1 (applied.2.toList.map fun r => ⟨p.dst, p.src, r.encode⟩)
  | .ack a sender now =>
    x.act a ((x.node a).noteDirectAck sender (params a).retransmit now).1 []
  | .suspect a target now =>
    x.act a ((x.node a).suspect target (params a).retransmit now).1 []
  | .expire a now clock =>
    x.act a ((x.node a).expireSuspects (params a).suspicionTimeout (params a).retransmit now
      clock).1 []

end

/-- Nodes that have just started. -/
def start (addr : NodeId → SocketAddr) : SwimCluster where
  node c := .new c (addr c)
  flight := []

/-! ## What a step can do -/

/-- What becomes of the table of `a` in a step. -/
inductive Acts (params : NodeId → SwimParams) (x : SwimCluster) (a : NodeId) :
    Event → Membership → Prop
  | push {d : NodeId} : Acts params x a (.push a d) (x.node a)
  | digest {links : List NodeId} : Acts params x a (.digest a links) (x.node a)
  | gossip {links : List NodeId} :
    Acts params x a (.gossip a links) ((x.node a).takePiggyback (params a).gossipMax).1
  | ack {sender : NodeId} {now : Instant} : Acts params x a (.ack a sender now)
      ((x.node a).noteDirectAck sender (params a).retransmit now).1
  | suspect {target : NodeId} {now : Instant} : Acts params x a (.suspect a target now)
      ((x.node a).suspect target (params a).retransmit now).1
  | expire {now : Instant} {clock : ℕ → Instant} : Acts params x a (.expire a now clock)
      ((x.node a).expireSuspects (params a).suspicionTimeout (params a).retransmit now clock).1
  | deliver {i : ℕ} {clock : ℕ → Instant} {p : Packet} {msg : MembershipMsg}
      (hp : x.flight[i]? = some p) (hdst : p.dst = a)
      (hmsg : MembershipMsg.decode p.body = some msg) : Acts params x a (.deliver i clock)
        ((x.node a).apply msg (params a).retransmit clock).1

/-- A frame carries what its sender held before the step, with table `m`, or holds behind it,
    with table `m'`. -/
def Sends (m m' : Membership) (p : Packet) : Prop :=
  ∃ msg : MembershipMsg, p.body = msg.encode ∧
    ∀ e ∈ msg.claims, m.Mentions e.1 e.2 ∨ m'.Mentions e.1 e.2

variable {params : NodeId → SwimParams} {x : SwimCluster} {e : Event} {a : NodeId} {m : Membership}

theorem mentions_claims_fullState (m : Membership) :
    ∀ e ∈ m.fullState.map (fun u => (u.id, u.inc)), m.Mentions e.1 e.2 := by
  intro e he
  obtain ⟨u, hu, rfl⟩ := List.mem_map.mp he
  exact Membership.mentions_of_mem_fullState hu

theorem claims_of_updates {msg : MembershipMsg} {e : NodeId × UInt32}
    (hmsg : ∀ es, msg ≠ .digest es) (he : e ∈ msg.claims) :
    ∃ u ∈ msg.updates, (u.id, u.inc) = e := by
  cases msg with
  | sync reply us => exact List.mem_map.mp he
  | gossip us => exact List.mem_map.mp he
  | digest es => exact absurd rfl (hmsg es)

theorem step_acts (params : NodeId → SwimParams) (x : SwimCluster) (e : Event) :
    x.step params e = x ∨ ∃ a m sent, x.step params e = x.act a m sent ∧
      Acts params x a e m ∧ ∀ p ∈ sent, Sends (x.node a) m p := by
  cases e with
  | push a d =>
    refine .inr ⟨a, _, _, rfl, .push, ?_⟩
    intro p hp
    rw [List.mem_singleton.mp hp]
    refine ⟨.sync true (x.node a).fullState, rfl, ?_⟩
    intro e he
    exact .inl (mentions_claims_fullState _ e he)
  | gossip a links =>
    refine .inr ⟨a, _, _, rfl, .gossip, ?_⟩
    intro p hp
    obtain ⟨d, -, rfl⟩ := List.mem_map.mp hp
    refine ⟨.gossip ((x.node a).takePiggyback (params a).gossipMax).2, rfl, ?_⟩
    intro e he
    obtain ⟨u, hu, rfl⟩ := List.mem_map.mp he
    exact .inl (Membership.mentions_of_mem_takePiggyback hu)
  | digest a links =>
    refine .inr ⟨a, _, _, rfl, .digest, ?_⟩
    intro p hp
    obtain ⟨d, -, rfl⟩ := List.mem_map.mp hp
    refine ⟨(x.node a).buildDigest, rfl, ?_⟩
    intro e he
    exact .inl (mentions_claims_fullState _ e he)
  | deliver i clock =>
    simp only [step]
    split
    · exact .inl rfl
    · rename_i p hp
      split
      · exact .inl rfl
      · rename_i msg hmsg
        refine .inr ⟨p.dst, _, _, rfl, .deliver hp rfl hmsg, ?_⟩
        intro q hq
        obtain ⟨r, hr, rfl⟩ := List.mem_map.mp hq
        have hresp := Option.mem_toList.mp hr
        refine ⟨r, rfl, ?_⟩
        intro e he
        obtain ⟨u, hu, rfl⟩ := claims_of_updates (Membership.response_ne_digest hresp) he
        exact .inr (Membership.mentions_of_mem_fullState
          (Membership.mem_fullState_of_response hresp hu))
  | ack a sender now => exact .inr ⟨a, _, [], rfl, .ack, by simp⟩
  | suspect a target now => exact .inr ⟨a, _, [], rfl, .suspect, by simp⟩
  | expire a now clock => exact .inr ⟨a, _, [], rfl, .expire, by simp⟩

/-! ## The invariant -/

/-- `c` has reached incarnation `i`. -/
def Reached (x : SwimCluster) (c : NodeId) (i : UInt32) : Prop :=
  Membership.Bounded (fun c => (x.node c).selfInc.toNat) c i

/-- No node is ahead of the one it speaks of: whatever a table or a frame says of `c` has an
    incarnation that `c` has reached. -/
structure Inv (x : SwimCluster) : Prop where
  selfId : ∀ c, (x.node c).selfId = c
  absent : ∀ c, (x.node c).Absent
  counted : ∀ c, (x.node c).Counted
  held : ∀ a c i, (x.node a).Mentions c i → x.Reached c i
  flight : ∀ p ∈ x.flight, ∃ msg : MembershipMsg, p.body = msg.encode ∧
    ∀ e ∈ msg.claims, x.Reached e.1 e.2

theorem inv_start (addr : NodeId → SocketAddr) : Inv (start addr) where
  selfId c := rfl
  absent c := rfl
  counted c := rfl
  held a c i h := by
    cases h with
    | member hmb => cases hmb
    | self => exact ⟨le_rfl, le_rfl⟩
    | gossip hg => cases hg
  flight p hp := by cases hp

theorem claims_take {msg : MembershipMsg} {n : ℕ} {e : NodeId × UInt32}
    (h : e ∈ (msg.take n).claims) : e ∈ msg.claims := by
  cases msg with
  | digest es => exact List.mem_of_mem_take h
  | sync reply us =>
    obtain ⟨u, hu, rfl⟩ := List.mem_map.mp h
    exact List.mem_map_of_mem (List.mem_of_mem_take hu)
  | gossip us =>
    obtain ⟨u, hu, rfl⟩ := List.mem_map.mp h
    exact List.mem_map_of_mem (List.mem_of_mem_take hu)

/-- What is decoded from a frame are claims that it was sent with. -/
theorem Inv.reached_of_decode (hx : Inv x) {p : Packet} {msg : MembershipMsg} (hp : p ∈ x.flight)
    (hmsg : MembershipMsg.decode p.body = some msg) :
    ∀ e ∈ msg.claims, x.Reached e.1 e.2 := by
  obtain ⟨sent, hbody, hreached⟩ := hx.flight p hp
  rw [hbody, MembershipMsg.decode_encode_take] at hmsg
  cases hmsg
  intro e he
  exact hreached e (claims_take he)

theorem mem_claims_of_mem_updates {msg : MembershipMsg} {u : Update} (h : u ∈ msg.updates) :
    (u.id, u.inc) ∈ msg.claims := by
  cases msg with
  | sync reply us => exact List.mem_map_of_mem h
  | gossip us => exact List.mem_map_of_mem h
  | digest es => cases h

theorem Inv.lookup_self (hx : Inv x) {c : NodeId} (hc : c = a) (mb : Member) :
    (x.node a).members.lookup c ≠ some mb := by
  have habsent := (hx.absent a).lookup mb
  rw [hx.selfId] at habsent
  rw [hc]
  exact habsent

/-- The step applies the update `u`, from a frame that has arrived, at node `a`. -/
def Hears (x : SwimCluster) (e : Event) (a : NodeId) (u : Update) : Prop :=
  ∃ i clock p msg, e = .deliver i clock ∧ x.flight[i]? = some p ∧ p.dst = a ∧
    MembershipMsg.decode p.body = some msg ∧ u ∈ msg.updates

/-- A table that holds no more incarnations than before, and the same own one. -/
structure Quiet (m m' : Membership) : Prop where
  selfId : m'.selfId = m.selfId
  selfInc : m'.selfInc = m.selfInc
  refuted : m'.counters.refuted = m.counters.refuted
  absent : m.Absent → m'.Absent
  held : ∀ c i, m'.Mentions c i → m.Mentions c i

theorem Quiet.refl (m : Membership) : Quiet m m := ⟨rfl, rfl, rfl, id, fun _ _ => id⟩

theorem quiet_noteDirectAck (m : Membership) (sender : NodeId) (retransmit : ℕ) (now : Instant) :
    Quiet m (m.noteDirectAck sender retransmit now).1 := by
  have hheld : ∀ c i, (m.noteDirectAck sender retransmit now).1.Mentions c i → m.Mentions c i :=
    fun c i => Membership.mentions_noteDirectAck
  refine ⟨Membership.selfId_noteDirectAck, ?_, ?_, fun h => h.noteDirectAck, hheld⟩
  · unfold Membership.noteDirectAck
    split
    · rfl
    · split_ifs <;> rfl
  · unfold Membership.noteDirectAck
    split
    · rfl
    · split_ifs <;> rfl

/-- A step changes nothing about incarnations, or it merges updates with incarnations that
    were reached; those about the node itself come from a frame. -/
theorem Inv.acts_cases (hx : Inv x) (h : Acts params x a e m) :
    Quiet (x.node a) m ∨ ∃ us, m = (x.node a).mergeAll (params a).retransmit us ∧
      (∀ u ∈ us, x.Reached u.1.id u.1.inc) ∧ ∀ u ∈ us, u.1.id = a → Hears x e a u.1 := by
  cases h with
  | push => exact .inl (.refl _)
  | digest => exact .inl (.refl _)
  | gossip => exact .inl ⟨rfl, rfl, rfl, id, fun _ _ => Membership.mentions_takePiggyback⟩
  | ack => exact .inl (quiet_noteDirectAck ..)
  | @suspect target now =>
    unfold Membership.suspect
    split
    · exact .inl (.refl _)
    · rename_i mb hmb
      split_ifs
      · exact .inl (.refl _)
      · refine .inr ⟨[(⟨target, mb.addr, .suspect, mb.inc⟩, now)], rfl, ?_, ?_⟩
        · intro u hu
          rw [List.mem_singleton.mp hu]
          exact hx.held a target mb.inc (.member hmb)
        · intro u hu hid
          rw [List.mem_singleton.mp hu] at hid
          exact absurd hmb (hx.lookup_self hid mb)
  | @expire now clock =>
    refine .inr ⟨_, Membership.expireSuspects_fst, ?_, ?_⟩
    · intro u hu
      obtain ⟨mb, hmb, -, hinc, -⟩ :=
        Membership.lookup_of_mem_expired (Membership.mem_of_stamped hu)
      rw [hinc]
      exact hx.held a _ mb.inc (.member hmb)
    · intro u hu hid
      obtain ⟨mb, hmb, -⟩ := Membership.lookup_of_mem_expired (Membership.mem_of_stamped hu)
      exact absurd hmb (hx.lookup_self hid mb)
  | @deliver i clock p msg hp hdst hmsg =>
    have hreached := hx.reached_of_decode (List.mem_of_getElem? hp) hmsg
    refine .inr ⟨_, Membership.apply_fst, ?_, ?_⟩
    · intro u hu
      exact hreached _ (mem_claims_of_mem_updates (Membership.mem_of_stamped hu))
    · intro u hu _
      exact ⟨i, clock, p, msg, rfl, hp, hdst, hmsg, Membership.mem_of_stamped hu⟩

/-- The node that acts behind the step. -/
structure Behind (x : SwimCluster) (e : Event) (a : NodeId) (m : Membership) : Prop where
  selfId : m.selfId = a
  absent : m.Absent
  counted : m.Counted
  grows : (x.node a).selfInc.toNat ≤ m.selfInc.toNat
  held : ∀ c i, m.Mentions c i → Membership.Bounded
    (fun c => if c = a then m.selfInc.toNat else (x.node c).selfInc.toNat) c i
  /-- The own incarnation is raised by one when the node hears a claim about itself. -/
  raised : m.selfInc = (x.node a).selfInc ∨
    m.selfInc.toNat = (x.node a).selfInc.toNat + 1 ∧
      ∃ u, Hears x e a u ∧ u.id = a ∧ u.state ≠ .alive ∧ u.inc = (x.node a).selfInc

theorem Reached.mono {c : NodeId} {i : UInt32} (h : x.Reached c i)
    (hgrows : (x.node a).selfInc.toNat ≤ m.selfInc.toNat) : Membership.Bounded
      (fun c => if c = a then m.selfInc.toNat else (x.node c).selfInc.toNat) c i := by
  refine ⟨h.1, ?_⟩
  have hle : i.toNat ≤ (x.node c).selfInc.toNat := h.2
  dsimp only
  split_ifs with hc
  · subst hc
    omega
  · exact hle

theorem Inv.behind (hx : Inv x) (h : Acts params x a e m)
    (hbound : m.counters.refuted < 2 ^ 32 - 1) : Behind x e a m := by
  obtain hq | ⟨us, rfl, hreached, hhears⟩ := hx.acts_cases h
  · have hgrows : (x.node a).selfInc.toNat ≤ m.selfInc.toNat := by rw [hq.selfInc]
    refine ⟨hq.selfId.trans (hx.selfId a), hq.absent (hx.absent a), ?_, hgrows, ?_,
      .inl hq.selfInc⟩
    · unfold Membership.Counted
      rw [hq.selfInc, hq.refuted]
      exact hx.counted a
    · intro c i hc
      exact (hx.held a c i (hq.held c i hc)).mono hgrows
  · have hclaims : ∀ u ∈ us, u.1.id = (x.node a).selfId → u.1.inc ≤ (x.node a).selfInc := by
      intro u hu hid
      rw [hx.selfId] at hid
      have hle := (hreached u hu).2
      rw [hid] at hle
      exact hle
    obtain ⟨hcounted, hcase⟩ := Membership.counted_mergeAll (hx.counted a) hclaims hbound
    have hgrows : (x.node a).selfInc.toNat ≤
        ((x.node a).mergeAll (params a).retransmit us).selfInc.toNat := by
      have hcount := (x.node a).refuted_mergeAll_le (params a).retransmit us
      rw [hx.counted a, hcounted]
      omega
    refine ⟨(Membership.selfId_mergeAll us).trans (hx.selfId a), (hx.absent a).mergeAll us,
      hcounted, hgrows, ?_, ?_⟩
    · refine Membership.bounded_mergeAll (fun c i hc => (hx.held a c i hc).mono hgrows)
        (fun u hu => (hreached u hu).mono hgrows) (hx.counted a) hclaims hbound ?_
      rw [hx.selfId, if_pos rfl, hcounted]
    · obtain hsame | ⟨hsucc, u, hu, hid, hstate, hinc⟩ := hcase
      · exact .inl (Membership.selfInc_eq_of_refuted (hx.counted a) hcounted hsame)
      · rw [hx.selfId] at hid
        refine .inr ⟨?_, u.1, hhears u hu hid, hid, hstate, hinc⟩
        rw [hcounted, hx.counted a, hsucc, Nat.add_assoc]

theorem node_act_self (m : Membership) (sent : List Packet) : (x.act a m sent).node a = m :=
  Function.update_self ..

theorem node_act_of_ne {c : NodeId} (h : c ≠ a) (m : Membership) (sent : List Packet) :
    (x.act a m sent).node c = x.node c := Function.update_of_ne h ..

theorem forall_act {P : NodeId → Membership → Prop} {sent : List Packet} (hself : P a m)
    (hother : ∀ c, c ≠ a → P c (x.node c)) : ∀ c, P c ((x.act a m sent).node c) := by
  intro c
  by_cases hc : c = a
  · rw [hc, node_act_self]
    exact hself
  · rw [node_act_of_ne hc]
    exact hother c hc

/-- Every step keeps the invariant, while there are fewer than `2 ^ 32 - 1` refutations. -/
theorem Inv.step (hx : Inv x)
    (hbound : ∀ c, ((x.step params e).node c).counters.refuted < 2 ^ 32 - 1) :
    Inv (x.step params e) := by
  obtain heq | ⟨a, m, sent, heq, hacts, hsends⟩ := step_acts params x e
  · rw [heq]
    exact hx
  rw [heq] at hbound ⊢
  have hm : Behind x e a m := by
    have hba := hbound a
    rw [node_act_self] at hba
    exact hx.behind hacts hba
  have htop : (fun c => ((x.act a m sent).node c).selfInc.toNat) =
      fun c => if c = a then m.selfInc.toNat else (x.node c).selfInc.toNat := by
    funext c
    by_cases hc : c = a
    · rw [if_pos hc, hc, node_act_self]
    · rw [if_neg hc, node_act_of_ne hc]
  have hkeep : ∀ c i, x.Reached c i → (x.act a m sent).Reached c i := by
    intro c i h
    unfold Reached
    rw [htop]
    exact h.mono hm.grows
  have hnew : ∀ c i, m.Mentions c i → (x.act a m sent).Reached c i := by
    intro c i h
    unfold Reached
    rw [htop]
    exact hm.held c i h
  refine ⟨forall_act (P := fun c m => m.selfId = c) hm.selfId fun c _ => hx.selfId c,
    forall_act (P := fun _ m => m.Absent) hm.absent fun c _ => hx.absent c,
    forall_act (P := fun _ m => m.Counted) hm.counted fun c _ => hx.counted c,
    forall_act (P := fun _ m' => ∀ c i, m'.Mentions c i → (x.act a m sent).Reached c i) hnew
      fun b _ c i h => hkeep c i (hx.held b c i h), ?_⟩
  intro p hp
  obtain hp | hp := List.mem_append.mp hp
  · obtain ⟨msg, hbody, hmsg⟩ := hx.flight p hp
    exact ⟨msg, hbody, fun e he => hkeep e.1 e.2 (hmsg e he)⟩
  · obtain ⟨msg, hbody, hmsg⟩ := hsends p hp
    refine ⟨msg, hbody, ?_⟩
    intro e he
    obtain h | h := hmsg e he
    · exact hkeep e.1 e.2 (hx.held a e.1 e.2 h)
    · exact hnew e.1 e.2 h

/-! ## Runs -/

theorem refuted_le_step (params : NodeId → SwimParams) (x : SwimCluster) (e : Event) (c : NodeId) :
    (x.node c).counters.refuted ≤ ((x.step params e).node c).counters.refuted := by
  obtain heq | ⟨a, m, sent, heq, hacts, -⟩ := step_acts params x e
  · rw [heq]
  rw [heq]
  refine forall_act (P := fun c m => (x.node c).counters.refuted ≤ m.counters.refuted) ?_
    (fun c _ => le_rfl) c
  cases hacts with
  | push => exact le_rfl
  | digest => exact le_rfl
  | gossip => exact le_rfl
  | ack => exact (quiet_noteDirectAck ..).refuted.ge
  | suspect =>
    unfold Membership.suspect
    split
    · exact le_rfl
    · split_ifs
      · exact le_rfl
      · exact Membership.refuted_merge_le
  | expire =>
    rw [Membership.expireSuspects_fst]
    exact Membership.refuted_mergeAll_le ..
  | deliver hp hdst hmsg =>
    rw [Membership.apply_fst]
    exact Membership.refuted_mergeAll_le ..

theorem refuted_le_run (params : NodeId → SwimParams) (x : SwimCluster) (evs : List Event)
    (c : NodeId) :
    (x.node c).counters.refuted ≤ ((run (step params) x evs).node c).counters.refuted := by
  refine run_invariant
    (I := fun y : SwimCluster => (x.node c).counters.refuted ≤ (y.node c).counters.refuted) ?_
    le_rfl
  intro y e h
  exact h.trans (refuted_le_step params y e c)

variable {addr : NodeId → SocketAddr} {evs : List Event}

theorem inv_run (hbound : ∀ c, ((run (step params) (start addr) evs).node c).counters.refuted <
    2 ^ 32 - 1) : Inv (run (step params) (start addr) evs) := by
  induction evs using List.reverseRecOn with
  | nil => exact inv_start addr
  | append_singleton evs e ih =>
    rw [run_append] at hbound ⊢
    refine (ih fun c => ?_).step hbound
    exact lt_of_le_of_lt (refuted_le_step params _ e c) (hbound c)

/-- An incarnation is raised by one, by a node that hears a claim about itself. -/
theorem Inv.raised (hx : Inv x)
    (hbound : ∀ c, ((x.step params e).node c).counters.refuted < 2 ^ 32 - 1) (c : NodeId) :
    ((x.step params e).node c).selfInc = (x.node c).selfInc ∨
      ((x.step params e).node c).selfInc.toNat = (x.node c).selfInc.toNat + 1 ∧
        ∃ u, Hears x e c u ∧ u.id = c ∧ u.state ≠ .alive ∧ u.inc = (x.node c).selfInc := by
  obtain heq | ⟨a, m, sent, heq, hacts, -⟩ := step_acts params x e
  · rw [heq]
    exact .inl rfl
  rw [heq] at hbound ⊢
  by_cases hc : c = a
  · have hba := hbound a
    rw [node_act_self] at hba
    rw [hc, node_act_self]
    exact (hx.behind hacts hba).raised
  · rw [node_act_of_ne hc]
    exact .inl rfl

/-- In the course of `evs`, node `c` reaches incarnation `j` by refuting a claim about itself at
    the incarnation before. -/
def RefutedTo (params : NodeId → SwimParams) (addr : NodeId → SocketAddr) (evs : List Event)
    (c : NodeId) (j : UInt32) : Prop :=
  ∃ pre e post, evs = pre ++ e :: post ∧
    let y := run (step params) (start addr) pre
    (y.node c).selfInc.toNat + 1 = j.toNat ∧ ((y.step params e).node c).selfInc = j ∧
      ∃ u, Hears y e c u ∧ u.id = c ∧ u.state ≠ .alive ∧ u.inc = (y.node c).selfInc

/-- All incarnations but the first are reached by refuting. -/
theorem refutedTo_of_le {c : NodeId} {j : UInt32}
    (hbound : ∀ c, ((run (step params) (start addr) evs).node c).counters.refuted < 2 ^ 32 - 1)
    (hj : 1 < j.toNat)
    (hle : j.toNat ≤ ((run (step params) (start addr) evs).node c).selfInc.toNat) :
    RefutedTo params addr evs c j := by
  induction evs using List.reverseRecOn with
  | nil =>
    replace hle : j.toNat ≤ 1 := hle
    omega
  | append_singleton evs e ih =>
    rw [run_append] at hbound hle
    have hprev : ∀ c, ((run (step params) (start addr) evs).node c).counters.refuted < 2 ^ 32 - 1 :=
      fun c => lt_of_le_of_lt (refuted_le_step params _ e c) (hbound c)
    by_cases hold : j.toNat ≤ ((run (step params) (start addr) evs).node c).selfInc.toNat
    · obtain ⟨pre, e', post, rfl, hreach⟩ := ih hprev hold
      exact ⟨pre, e', post ++ [e], by simp, hreach⟩
    · obtain hsame | ⟨hsucc, hhears⟩ := (inv_run hprev).raised hbound c
      · rw [run_cons, run_nil, hsame] at hle
        exact absurd hle hold
      · rw [run_cons, run_nil, hsucc] at hle
        refine ⟨evs, e, [], rfl, by omega, ?_, hhears⟩
        apply UInt32.toNat_inj.mp
        omega

/-- Only a frame changes what a node holds of a dead member. -/
theorem Acts.delivers {c : NodeId} {i : UInt32} (h : Acts params x a e m)
    (hdead : (x.node a).standing c = (⟨i, .dead⟩ : Standing))
    (hne : m.standing c ≠ (x.node a).standing c) :
    ∃ k clock p msg, e = .deliver k clock ∧ x.flight[k]? = some p ∧ p.dst = a ∧
      MembershipMsg.decode p.body = some msg ∧
        m = ((x.node a).apply msg (params a).retransmit clock).1 := by
  cases h with
  | push => exact absurd rfl hne
  | digest => exact absurd rfl hne
  | gossip => exact absurd rfl hne
  | ack => exact absurd (Membership.standing_noteDirectAck_of_dead hdead) hne
  | suspect => exact absurd (Membership.standing_suspect_of_dead hdead) hne
  | expire => exact absurd (Membership.standing_expireSuspects_of_dead hdead) hne
  | deliver hp hdst hmsg => exact ⟨_, _, _, _, rfl, hp, hdst, hmsg, rfl⟩

theorem not_precedence_dead_lt (s : MState) : ¬precedence .dead < precedence s := by
  cases s <;> decide

/-- A dead member comes back on the node that hears of a higher incarnation of it. -/
theorem Inv.back_from_dead (hx : Inv x) {b c : NodeId} {i j : UInt32} {s : MState}
    (hdead : (x.node b).standing c = (⟨i, .dead⟩ : Standing))
    (hback : ((x.step params e).node b).standing c = (⟨j, s⟩ : Standing)) (hs : s ≠ .dead) :
    i < j ∧ x.Reached c j ∧ ∃ u, Hears x e b u ∧ u.id = c ∧ u.inc = j ∧ u.state = s := by
  have hne : ((x.step params e).node b).standing c ≠ (x.node b).standing c := by
    rw [hback, hdead]
    intro heq
    exact hs (congrArg Standing.state (WithBot.coe_injective heq))
  obtain heq | ⟨a, m, sent, heq, hacts, -⟩ := step_acts params x e
  · rw [heq] at hne
    exact absurd rfl hne
  rw [heq] at hback hne
  by_cases hb : b = a
  swap
  · rw [node_act_of_ne hb] at hne
    exact absurd rfl hne
  subst hb
  rw [node_act_self] at hback hne
  obtain ⟨i', clock, p, msg, rfl, hp, hdst, hmsg, rfl⟩ := hacts.delivers hdead hne
  obtain hsame | ⟨-, u, hu, hid, hst⟩ := @Membership.standing_apply_cases (x.node b) msg
    (params b).retransmit clock c
  · exact absurd hsame hne
  have hstanding : u.standing = ⟨j, s⟩ := WithBot.coe_injective (hst.symm.trans hback)
  have hinc : u.inc = j := congrArg Standing.inc hstanding
  have hstate : u.state = s := congrArg Standing.state hstanding
  have hlt : (⟨i, .dead⟩ : Standing) < ⟨j, s⟩ := by
    have hle := @Membership.standing_le_apply (x.node b) msg (params b).retransmit clock c
    rw [← WithBot.coe_lt_coe, ← hdead, ← hback]
    exact lt_of_le_of_ne hle (Ne.symm hne)
  refine ⟨?_, ?_, u, ⟨i', clock, p, msg, rfl, hp, hdst, hmsg, hu⟩, hid, hinc, hstate⟩
  · -- at the same incarnation, nothing is above dead
    obtain hlt | ⟨-, hlt⟩ := Standing.lt_iff.mp hlt
    · exact hlt
    · exact absurd hlt (not_precedence_dead_lt s)
  · rw [← hinc, ← hid]
    exact hx.reached_of_decode (List.mem_of_getElem? hp) hmsg _ (mem_claims_of_mem_updates hu)

/-- In every run of nodes that never restart, with fewer than `2 ^ 32 - 1` refutations of each,
    no table, gossip buffer or frame has an incarnation of a node above its own. A member that
    is dead on some node is alive or suspect there again only through an update with a higher
    incarnation, which the member has reached before by refuting a claim about itself. -/
theorem incarnations_own (params : NodeId → SwimParams) (addr : NodeId → SocketAddr)
    (evs : List Event)
    (hbound : ∀ c, ((run (step params) (start addr) evs).node c).counters.refuted < 2 ^ 32 - 1) :
    let x := run (step params) (start addr) evs
    (∀ a c mb, (x.node a).members.lookup c = some mb → mb.inc ≤ (x.node c).selfInc) ∧
      (∀ a g, g ∈ (x.node a).gossip → g.1.inc ≤ (x.node g.1.id).selfInc) ∧
      (∀ p ∈ x.flight, ∃ msg : MembershipMsg, p.body = msg.encode ∧
        ∀ e ∈ msg.claims, e.2 ≤ (x.node e.1).selfInc) ∧
      ∀ pre e post, evs = pre ++ e :: post →
        let y := run (step params) (start addr) pre
        ∀ b c i j s, (y.node b).standing c = (⟨i, .dead⟩ : Standing) →
          ((y.step params e).node b).standing c = (⟨j, s⟩ : Standing) → s ≠ .dead →
          i < j ∧ (∃ u, Hears y e b u ∧ u.id = c ∧ u.inc = j ∧ u.state = s) ∧
            RefutedTo params addr pre c j := by
  have hx := inv_run hbound
  refine ⟨fun a c mb hmb => (hx.held a c mb.inc (.member hmb)).2,
    fun a g hg => (hx.held a g.1.id g.1.inc (.gossip hg)).2, ?_, ?_⟩
  · intro p hp
    obtain ⟨msg, hbody, hmsg⟩ := hx.flight p hp
    exact ⟨msg, hbody, fun e he => (hmsg e he).2⟩
  · intro pre e post hevs y b c i j s hdead hback hs
    have hpre : ∀ c, (y.node c).counters.refuted < 2 ^ 32 - 1 := by
      intro c
      refine lt_of_le_of_lt ?_ (hbound c)
      rw [hevs, run_append]
      exact refuted_le_run ..
    have hy : Inv y := inv_run hpre
    obtain ⟨hlt, hreached, hhears⟩ := hy.back_from_dead hdead hback hs
    have hfirst : 1 ≤ i.toNat := by
      obtain ⟨mb, hmb, hst⟩ := Membership.lookup_of_standing hdead
      rw [← show mb.inc = i from congrArg Standing.inc hst]
      exact (hy.held b c mb.inc (.member hmb)).1
    have hlt' : i.toNat < j.toNat := hlt
    exact ⟨hlt, hhears, refutedTo_of_le hpre (by omega) hreached.2⟩

/-! ## A member comes back -/

/-- The node that acts in a step. -/
def actor (x : SwimCluster) : Event → Option NodeId
  | .push a _ => some a
  | .gossip a _ => some a
  | .digest a _ => some a
  | .deliver i _ => x.flight[i]?.map Packet.dst
  | .ack a _ _ => some a
  | .suspect a _ _ => some a
  | .expire a _ _ => some a

theorem Acts.actor (h : Acts params x a e m) : x.actor e = some a := by
  cases h with
  | deliver hp hdst hmsg => rw [SwimCluster.actor, hp, Option.map_some, hdst]
  | _ => rfl

theorem node_run_of_actors (nodes : List NodeId) {c : NodeId} (hc : c ∉ nodes)
    (hactors : StepsMeet (step params) (fun x e => (x.actor e).all (· ∈ nodes)) x evs) :
    (run (step params) x evs).node c = x.node c := by
  refine run_invariant_of_stepsMeet (I := fun y : SwimCluster => y.node c = x.node c) ?_ rfl hactors
  intro y e hy hactor
  obtain heq | ⟨a, m, sent, heq, hacts, -⟩ := step_acts params y e
  · rw [heq, hy]
  · have hne : c ≠ a := by
      rintro rfl
      rw [hacts.actor, Option.all_some, decide_eq_true_eq] at hactor
      exact hc hactor
    rw [heq, node_act_of_ne hne, hy]

namespace Revival

/-- Parameters with a short suspicion. -/
def quick (_ : NodeId) : SwimParams :=
  { indirectK := 3, suspicionTimeout := 5, gossipMax := 8, retransmit := 8 }

/-- Nodes 1 and 2 meet, and 1 gives up on 2. It pushes its state over a new link, and 2 answers
    with a higher incarnation. -/
def before : List Event :=
  [.push 1 2, .deliver 0 fun _ => 10, .deliver 1 fun _ => 11, .suspect 1 2 20,
    .expire 1 30 fun _ => 30, .push 1 2, .deliver 2 fun _ => 40]

theorem refuted_lt (c : NodeId) :
    ((run (step quick) (start homeAddr)
      (before ++ [.deliver 3 fun _ => 41])).node c).counters.refuted < 2 ^ 32 - 1 := by
  by_cases h1 : c = 1
  · subst h1
    decide +kernel
  by_cases h2 : c = 2
  · subst h2
    decide +kernel
  · rw [node_run_of_actors [1, 2] (by simp [h1, h2]) (by decide +kernel)]
    exact Nat.zero_lt_succ _

theorem revived : RefutedTo quick homeAddr before 2 2 :=
  ((incarnations_own quick homeAddr (before ++ [.deliver 3 fun _ => 41]) refuted_lt).2.2.2
    before (.deliver 3 fun _ => 41) [] rfl 1 2 1 2 .alive (by decide +kernel) (by decide +kernel)
    (by decide)).2.2

end Revival

end SwimCluster

end BeamSocket.Mesh
