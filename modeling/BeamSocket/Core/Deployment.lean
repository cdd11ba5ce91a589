import BeamSocket.Core.ClusterBroadcast
import BeamSocket.Mesh.InterestRound

/-!
# A cluster at work

Nodes that serve connections and tell each other what they host: engine operations
(`crates/core/src/engine.rs`, lines 416–449, 954–1008 and 1245–1295) publish edges, a
new link carries a snapshot (`crates/mesh/src/node.rs`, lines 297–300), digests are
answered (lines 213–221), stale origins are swept (lines 711–735), broadcasts and relay
frames come and go. An INTEREST frame may arrive at any node at any later time, any
number of times, or never; links, denied peers and the peers held alive change at will.

* `Deployment.sound_run`: whatever happens, every node advertises what it hosts, and
  nothing that is recorded or on the wire is ahead of the node it is about.
* `Deployment.broadcast_reaches`: so one round of digests is enough for a broadcast on
  any node to reach every recipient of the cluster once, and nobody else.
-/

namespace BeamSocket.Core

open BeamSocket.Lib BeamSocket.Mesh

namespace Engine

/-! ## What an operation is made of -/

section

variable {R : Engine → Engine → Prop} (hrefl : ∀ e, R e e)
  (hinterest : ∀ e t b, R e (e.setLocalInterest t b))
include hrefl hinterest

theorem rel_withdraw (e : Engine) (t : Target) : R e (e.withdraw t) := by
  unfold withdraw
  split_ifs
  · exact hinterest e t false
  · exact hrefl e

theorem rel_advertise (e : Engine) (t : Target) : R e (e.advertise t) := by
  unfold advertise
  split_ifs
  · exact hinterest e t true
  · exact hrefl e

variable (htrans : ∀ e₁ e₂ e₃, R e₁ e₂ → R e₂ e₃ → R e₁ e₃)
  (htables : ∀ e rooms conns identity, R e { e with rooms, conns, identity })
include htrans htables

theorem rel_teardown (e : Engine) (id : ConnectionId) (user : Option UserId) :
    R e (e.teardown id user) := by
  have hwithdraw := rel_withdraw hrefl hinterest
  have hfold : ∀ (ts : List Target) e, R e (ts.foldl withdraw e) := by
    intro ts
    induction ts with
    | nil => exact hrefl
    | cons t ts ih => exact fun e => htrans _ _ _ (hwithdraw e t) (ih _)
  have hremove : R e (e.removeConn id) := by
    unfold removeConn
    split
    · exact hrefl e
    · exact htrans _ _ _ (htables e _ _ e.identity) (hfold _ _)
  unfold teardown
  generalize e.removeConn id = r at hremove
  cases user with
  | none => exact hremove
  | some u =>
    have hunbind := htables r r.rooms r.conns (r.identity.unbind u id)
    exact htrans _ _ _ hremove (htrans _ _ _ hunbind (hwithdraw _ _))

/-- An operation is made of changes to the tables and of `set_local_interest`. What these
    keep, and composes, every operation keeps. -/
theorem rel_step (e : Engine) (op : Op) : R e (e.step op) := by
  have hadvertise := rel_advertise hrefl hinterest
  have hfinish : ∀ e id, R e (e.finish id) := by
    intro e id
    unfold finish
    split
    · exact hrefl e
    · exact rel_teardown hrefl hinterest htrans htables e id _
  have hfold : ∀ (ids : List ConnectionId) e, R e (ids.foldl finish e) := by
    intro ids
    induction ids with
    | nil => exact hrefl
    | cons id ids ih => exact fun e => htrans _ _ _ (hfinish e id) (ih _)
  cases op with
  | connect id user =>
    unfold step setUp
    cases user with
    | none => exact htables e e.rooms _ e.identity
    | some u => exact htrans _ _ _ (htables e e.rooms _ _) (hadvertise _ _)
  | join id room =>
    show R e (e.join id room).1
    rw [join_eq]
    dsimp only
    split_ifs
    · exact htrans _ _ _ (htables e _ _ e.identity) (hadvertise _ _)
    · exact htables e _ _ e.identity
  | leave id room =>
    show R e (e.leave id room).1
    rw [leave_eq]
    dsimp only
    split_ifs
    · exact htrans _ _ _ (htables e _ _ e.identity) (rel_withdraw hrefl hinterest _ _)
    · exact htables e _ _ e.identity
  | closeRoom room => exact htables e _ _ e.identity
  | disconnectSocket id code => exact htrans _ _ _ (htables e e.rooms _ e.identity) (hfinish _ _)
  | disconnectUser user code => exact htrans _ _ _ (htables e e.rooms _ e.identity) (hfold _ _)
  | disconnect id => exact hfinish e id

end

/-- From `e` to `e'` the node's own interest has not gone back, nothing was recorded of
    others, and the edges that were published are of this node and not ahead of it. -/
structure Publishes (e e' : Engine) : Prop where
  selfId : e'.interest.selfId = e.interest.selfId
  entry : ∀ c, e'.interest.entry c = e.interest.entry c
  seq : e.interest.localInterest.seq ≤ e'.interest.localInterest.seq
  edges : ∀ x ∈ e'.edges, x ∈ e.edges ∨
    x.origin = e'.interest.selfId ∧ x.seq ≤ e'.interest.localInterest.seq

theorem Publishes.trans {e₁ e₂ e₃ : Engine} (h₁ : Publishes e₁ e₂) (h₂ : Publishes e₂ e₃) :
    Publishes e₁ e₃ where
  selfId := h₂.selfId.trans h₁.selfId
  entry c := (h₂.entry c).trans (h₁.entry c)
  seq := h₁.seq.trans h₂.seq
  edges x hx := by
    rcases h₂.edges x hx with hx | hx
    · refine (h₁.edges x hx).imp_right ?_
      rintro ⟨horigin, hseq⟩
      exact ⟨horigin.trans h₂.selfId.symm, hseq.trans h₂.seq⟩
    · exact .inr hx

theorem publishes_setLocalInterest (e : Engine) (t : Target) (b : Bool) :
    Publishes e (e.setLocalInterest t b) := by
  have hlocal : (e.setLocalInterest t b).interest.localInterest = _ :=
    InterestState.localInterest_localSet t b
  have hedges : (e.setLocalInterest t b).edges =
    e.edges ++ (e.interest.localSet t b).2.toList := rfl
  have hself : (e.setLocalInterest t b).interest.selfId = e.interest.selfId :=
    InterestState.selfId_localSet t b
  rw [InterestState.edge_localSet] at hedges
  refine ⟨hself, InterestState.entry_localSet t b, ?_, ?_⟩
  · rw [hlocal]
    split_ifs
    · exact le_rfl
    · exact Nat.le_succ _
  · intro x hx
    rw [hedges] at hx
    rw [hlocal]
    split_ifs at hx ⊢ with hsame
    · exact .inl (by simpa using hx)
    · refine (List.mem_append.mp hx).imp_right fun hx => ?_
      rw [List.mem_singleton.mp hx]
      exact ⟨hself.symm, le_rfl⟩

theorem publishes_step (e : Engine) (op : Op) : Publishes e (e.step op) :=
  rel_step (fun _ => ⟨rfl, fun _ => rfl, le_rfl, fun _ => .inl⟩) publishes_setLocalInterest
    (fun _ _ _ => .trans) (fun _ _ _ _ => ⟨rfl, fun _ => rfl, le_rfl, fun _ => .inl⟩) e op

end Engine

/-! ## What each step leaves alone -/

theorem Engine.Matches.congr {e e' : Engine} (h : e.Matches)
    (hlocal : e'.interest.localInterest = e.interest.localInterest)
    (hcount : ∀ t, e'.count t = e.count t) : e'.Matches := by
  intro t
  rw [hcount, ← h t]
  unfold Engine.hosts
  rw [hlocal]

/-- The engines host the same and have recorded and published the same. -/
structure Engine.Alike (e e' : Engine) : Prop where
  interest : e'.interest = e.interest
  edges : e'.edges = e.edges
  count : ∀ t, e'.count t = e.count t

theorem Engine.Alike.refl (e : Engine) : e.Alike e := ⟨rfl, rfl, fun _ => rfl⟩

namespace ClusterNode

theorem alike_fanOut (n : ClusterNode) (target : FanoutTarget) (payload : Bytes) (isBinary : Bool)
    (except : List ConnectionId) :
    n.engine.Alike (n.fanOut target payload isBinary except).1.engine := by
  refine ⟨rfl, rfl, fun t => ?_⟩
  cases t with
  | room room =>
    exact congrArg OrdSet.card (memberSet_broadcast n.engine.rooms n.engine.identity target payload
      isBinary except room)
  | user user => rfl

theorem alike_broadcastTo (n : ClusterNode) (target : FanoutTarget) (data : Bytes)
    (isBinary : Bool) (except : List ConnectionId) (remoteExcept : List NodeConnId) :
    n.engine.Alike (n.broadcastTo target data isBinary except remoteExcept).1.engine := by
  rw [broadcastTo_eq, engine_relayTo]
  exact n.alike_fanOut target data isBinary except

theorem alike_deliverLocal (n : ClusterNode) (kind : RelayKind) (isBinary : Bool) (body : Bytes) :
    n.engine.Alike (n.deliverLocal kind isBinary body).engine := by
  have hfanOut := alike_fanOut { n with relayIn := n.relayIn + 1 }
  unfold deliverLocal
  dsimp only
  split
  · exact .refl n.engine
  · exact hfanOut _ _ _ _
  · exact hfanOut _ _ _ _
  · exact hfanOut _ _ _ _
  · exact ⟨rfl, rfl, fun t => by cases t <;> rfl⟩

theorem alike_receive (n : ClusterNode) (peer : NodeId) (bytes : Bytes) :
    n.engine.Alike (n.receive peer bytes).engine := by
  have hinbound : ∀ frame, n.engine.Alike (n.onInbound peer frame).engine := by
    intro frame
    unfold onInbound
    split_ifs
    · exact .refl n.engine
    · split
      · exact .refl n.engine
      · exact n.alike_deliverLocal ..
  unfold receive
  split
  · exact .refl n.engine
  · split
    · exact .refl n.engine
    · split
      · exact hinbound _
      · exact .refl n.engine

end ClusterNode

/-- An update raises what is recorded of its origin to its own number, at most. -/
theorem recordedSeq_applyUpdate (st : InterestState) (u : InterestUpdate) (c : NodeId) :
    (st.applyUpdate u).recordedSeq c = st.recordedSeq c ∨
      c = u.origin ∧ (st.applyUpdate u).recordedSeq c = u.seq := by
  unfold InterestState.recordedSeq
  cases u with
  | edge e =>
    have hentry : (st.applyUpdate (.edge e)).entry c = _ := InterestState.entry_applyEdge e c
    rw [hentry]
    dsimp only
    split_ifs with hc
    · rw [hc.1]
      cases st.entry e.origin <;> exact .inl rfl
    · refine .inr ⟨hc.1, ?_⟩
      show (OriginInterest.put _ _ _).seq = e.seq
      rw [OriginInterest.seq_put]
    · exact .inl rfl
  | snapshot s =>
    have hentry : (st.applyUpdate (.snapshot s)).entry c = _ :=
      InterestState.entry_applySnapshot s c
    rw [hentry]
    split_ifs with hc
    · exact .inr ⟨hc.1, rfl⟩
    · exact .inl rfl

/-! ## The system -/

/-- The nodes of a cluster, each under its own id, and the bodies of the INTEREST frames
    sent so far. -/
structure Deployment where
  node : NodeId → ClusterNode
  selfId_node : ∀ p, (node p).selfId = p
  wire : List InterestUpdate

/-- What can happen. -/
inductive DeploymentEvent
  /-- An operation of the engine of `p` completes. -/
  | op (p : NodeId) (op : Engine.Op)
  /-- A link of `p` comes up and carries its snapshot. -/
  | announce (p : NodeId)
  /-- A digest arrives at `p`. -/
  | digest (p : NodeId) (entries : List DigestEntry)
  /-- An INTEREST frame arrives at `p`. -/
  | interest (p : NodeId) (update : InterestUpdate)
  | sweep (p origin : NodeId)
  | setRouting (p : NodeId) (routing : Routing)
  /-- The membership and the links of `p` change. -/
  | mesh (p : NodeId) (alive deny : OrdSet NodeId) (links : Links)
  | broadcast (p : NodeId) (target : FanoutTarget) (data : Bytes) (isBinary : Bool)
    (except : List ConnectionId) (remoteExcept : List NodeConnId)
  /-- The bytes of a frame arrive at `p` on its link to `peer`. -/
  | relayed (p peer : NodeId) (bytes : Bytes)

/-- The node with another state of its engine. -/
def ClusterNode.setEngine (n : ClusterNode) (engine : Engine) : ClusterNode := { n with engine }

/-- The node with another interest table. -/
def ClusterNode.setInterest (n : ClusterNode) (interest : InterestState) : ClusterNode :=
  n.setEngine { n.engine with interest }

namespace Deployment

/-- Engines that have just started. -/
def start (config : NodeId → EngineConfig) (routing : NodeId → Routing) : Deployment where
  node p :=
    { engine := .new (config p) p (routing p), alive := ∅, deny := ∅, links := ∅
      relayOut := 0, relayDrops := 0, relayIn := 0 }
  selfId_node _ := rfl
  wire := []

/-- What each node knows of the rooms and users of the others. -/
def interest (d : Deployment) : InterestNet := fun p => (d.node p).engine.interest

theorem selfId_update {node : NodeId → ClusterNode} (hnode : ∀ p, (node p).selfId = p) {p : NodeId}
    {n : ClusterNode} (hn : n.selfId = p) (q : NodeId) :
    (Function.update node p n q).selfId = q := by
  by_cases hq : q = p
  · rw [hq, Function.update_self]
    exact hn
  · rw [Function.update_of_ne hq]
    exact hnode q

/-- Node `p` is now `n`. -/
def set (d : Deployment) (p : NodeId) (n : ClusterNode) (hn : n.selfId = p) : Deployment :=
  { d with node := Function.update d.node p n, selfId_node := selfId_update d.selfId_node hn }

/-- The frames that are queued. -/
def send (d : Deployment) (updates : List InterestUpdate) : Deployment :=
  { d with wire := d.wire ++ updates }

theorem selfId_setEngine (d : Deployment) {p : NodeId} {e : Engine}
    (h : e.interest.selfId = (d.interest p).selfId) : ((d.node p).setEngine e).selfId = p :=
  h.trans (d.selfId_node p)

theorem selfId_op (d : Deployment) (p : NodeId) (op : Engine.Op) :
    ((d.node p).setEngine ((d.node p).engine.step op)).selfId = p :=
  d.selfId_setEngine (Engine.publishes_step _ op).selfId

theorem selfId_setInterest (d : Deployment) (p : NodeId) {st : InterestState}
    (h : st.selfId = (d.interest p).selfId) : ((d.node p).setInterest st).selfId = p :=
  d.selfId_setEngine h

theorem selfId_of_alike (d : Deployment) {p : NodeId} {n : ClusterNode}
    (h : (d.node p).engine.Alike n.engine) : n.selfId = p := by
  unfold ClusterNode.selfId
  rw [h.interest]
  exact d.selfId_node p

/-- One event of the deployment. What a node hands to `broadcast_frame` goes on the wire, and a
    frame that is not on the wire cannot arrive. -/
def step (d : Deployment) : DeploymentEvent → Deployment
  | .op p op =>
    let engine := (d.node p).engine.step op
    (d.set p ((d.node p).setEngine engine) (d.selfId_op p op)).send (engine.edges.map .edge)
  | .announce p => d.send [.snapshot (d.interest p).localSnapshot]
  | .digest p entries => d.send (((d.interest p).respondToDigest entries).map .snapshot)
  | .interest p update =>
    if update ∈ d.wire then
      d.set p ((d.node p).setInterest ((d.interest p).applyUpdate update))
        (d.selfId_setInterest p ((d.interest p).applyUpdate_frame update).1)
    else d
  | .sweep p origin =>
    d.set p ((d.node p).setInterest ((d.interest p).sweepOrigin origin))
      (d.selfId_setInterest p rfl)
  | .setRouting p routing =>
    d.set p ((d.node p).setInterest { d.interest p with routing }) (d.selfId_setInterest p rfl)
  | .mesh p alive deny links =>
    d.set p { d.node p with alive, deny, links } (d.selfId_of_alike (.refl (d.node p).engine))
  | .broadcast p target data isBinary except remoteExcept =>
    d.set p ((d.node p).broadcastTo target data isBinary except remoteExcept).1
      (d.selfId_of_alike ((d.node p).alike_broadcastTo target data isBinary except remoteExcept))
  | .relayed p peer bytes =>
    d.set p ((d.node p).receive peer bytes)
      (d.selfId_of_alike ((d.node p).alike_receive peer bytes))

/-- No room with members is closed by `admin_close_room`. -/
def ClosesNoMembers (d : Deployment) : DeploymentEvent → Prop
  | .op p op => (d.node p).engine.ClosesNoMembers op
  | _ => True

/-- The digest of `p.1` is answered by `p.2`, and the answers arrive. -/
def exchange (d : Deployment) (p : NodeId × NodeId) : Deployment :=
  d.set p.1 ((d.node p.1).setInterest (Mesh.exchange d.interest p p.1))
    (d.selfId_setInterest p.1 (exchange_frame d.interest p p.1).1)

end Deployment

namespace Deployment

variable {d : Deployment} {p : NodeId} {n : ClusterNode} {hn : n.selfId = p}

theorem interest_set :
    (d.set p n hn).interest = Function.update d.interest p n.engine.interest := by
  funext q
  show (Function.update d.node p n q).engine.interest = _
  by_cases hq : q = p
  · rw [hq, Function.update_self, Function.update_self]
  · rw [Function.update_of_ne hq, Function.update_of_ne hq]
    rfl

/-! ## Nothing is ahead of the node it is about -/

/-- Every node advertises what it hosts; what is recorded, published or on the wire is
    not ahead of the node it is about. -/
structure Sound (d : Deployment) : Prop where
  hosts : ∀ p, (d.node p).engine.Matches
  recorded : ∀ p c, (d.interest p).recordedSeq c ≤ (d.interest c).localInterest.seq
  edges : ∀ p, ∀ x ∈ (d.node p).engine.edges,
    x.origin = p ∧ x.seq ≤ (d.interest p).localInterest.seq
  wire : ∀ u ∈ d.wire, u.seq ≤ (d.interest u.origin).localInterest.seq

theorem sound_start (config : NodeId → EngineConfig) (routing : NodeId → Routing) :
    (start config routing).Sound where
  hosts p := Engine.matches_new (config p) p (routing p)
  recorded _ _ := le_rfl
  edges := by simp [start, Engine.new]
  wire := by simp [start]

/-- A node changes, and its own interest does not go back. -/
theorem Sound.set (h : d.Sound) (hhosts : n.engine.Matches)
    (hseq : (d.interest p).localInterest.seq ≤ n.engine.interest.localInterest.seq)
    (hrecorded : ∀ c, n.engine.interest.recordedSeq c ≤ (d.interest c).localInterest.seq)
    (hedges : ∀ x ∈ n.engine.edges,
      x.origin = p ∧ x.seq ≤ n.engine.interest.localInterest.seq) : (d.set p n hn).Sound := by
  have hle : ∀ c, (d.interest c).localInterest.seq ≤
      ((d.set p n hn).interest c).localInterest.seq := by
    intro c
    rw [interest_set]
    by_cases hc : c = p
    · rw [hc, Function.update_self]
      exact hseq
    · rw [Function.update_of_ne hc]
  refine ⟨?_, ?_, ?_, fun u hu => (h.wire u hu).trans (hle _)⟩
  · intro q
    show (Function.update d.node p n q).engine.Matches
    by_cases hq : q = p
    · rw [hq, Function.update_self]
      exact hhosts
    · rw [Function.update_of_ne hq]
      exact h.hosts q
  · intro q c
    refine le_trans ?_ (hle c)
    rw [interest_set]
    by_cases hq : q = p
    · rw [hq, Function.update_self]
      exact hrecorded c
    · rw [Function.update_of_ne hq]
      exact h.recorded q c
  · intro q x hx
    rw [interest_set]
    replace hx : x ∈ (Function.update d.node p n q).engine.edges := hx
    by_cases hq : q = p
    · rw [hq, Function.update_self] at hx
      rw [hq, Function.update_self]
      exact hedges x hx
    · rw [Function.update_of_ne hq] at hx
      rw [Function.update_of_ne hq]
      exact h.edges q x hx

theorem Sound.set_alike (h : d.Sound) (halike : (d.node p).engine.Alike n.engine) :
    (d.set p n (d.selfId_of_alike halike)).Sound := by
  refine h.set ((h.hosts p).congr (by rw [halike.interest]) halike.count) ?_ ?_ ?_
  · rw [halike.interest]
    exact le_rfl
  · rw [halike.interest]
    exact h.recorded p
  · rw [halike.interest, halike.edges]
    exact h.edges p

/-- The table of others changes. -/
theorem Sound.setInterest (h : d.Sound) (st : InterestState)
    (hst : ((d.node p).setInterest st).selfId = p)
    (hlocal : st.localInterest = (d.interest p).localInterest)
    (hrecorded : ∀ c, st.recordedSeq c ≤ (d.interest c).localInterest.seq) :
    (d.set p ((d.node p).setInterest st) hst).Sound := by
  refine h.set ((h.hosts p).congr hlocal fun t => ?_) (congrArg OriginInterest.seq hlocal).ge
    hrecorded ?_
  · cases t <;> rfl
  · intro x hx
    show _ ∧ x.seq ≤ st.localInterest.seq
    rw [hlocal]
    exact h.edges p x hx

theorem Sound.send (h : d.Sound) {updates : List InterestUpdate}
    (hu : ∀ u ∈ updates, u.seq ≤ (d.interest u.origin).localInterest.seq) :
    (d.send updates).Sound where
  hosts := h.hosts
  recorded := h.recorded
  edges := h.edges
  wire u hmem := (List.mem_append.mp hmem).elim (h.wire u) (hu u)

theorem sound_op (h : d.Sound) (p : NodeId) {op : Engine.Op}
    (hop : (d.node p).engine.ClosesNoMembers op) : (d.step (.op p op)).Sound := by
  obtain ⟨hself, hentry, hseq, hpublished⟩ := Engine.publishes_step (d.node p).engine op
  have hedges : ∀ x ∈ ((d.node p).engine.step op).edges, x.origin = p ∧
      x.seq ≤ ((d.node p).engine.step op).interest.localInterest.seq := by
    intro x hx
    rcases hpublished x hx with hold | ⟨horigin, hle⟩
    · obtain ⟨horigin, hle⟩ := h.edges p x hold
      exact ⟨horigin, hle.trans hseq⟩
    · exact ⟨horigin.trans (hself.trans (d.selfId_node p)), hle⟩
  have hrecorded : ∀ c, ((d.node p).engine.step op).interest.recordedSeq c ≤
      (d.interest c).localInterest.seq := by
    intro c
    unfold InterestState.recordedSeq
    rw [hentry]
    exact h.recorded p c
  have hset :
      (d.set p ((d.node p).setEngine ((d.node p).engine.step op)) (d.selfId_op p op)).Sound :=
    h.set (Engine.matches_step (h.hosts p) hop).1 hseq hrecorded hedges
  refine hset.send fun u hu => ?_
  obtain ⟨x, hx, rfl⟩ := List.mem_map.mp hu
  obtain ⟨horigin, hle⟩ := hedges x hx
  rw [interest_set]
  show x.seq ≤ (Function.update d.interest p _ x.origin).localInterest.seq
  rw [horigin, Function.update_self]
  exact hle

theorem sound_interest (h : d.Sound) (p : NodeId) {u : InterestUpdate} (hu : u ∈ d.wire) :
    (d.set p ((d.node p).setInterest ((d.interest p).applyUpdate u))
      (d.selfId_setInterest p ((d.interest p).applyUpdate_frame u).1)).Sound := by
  refine h.setInterest _ _ ((d.interest p).applyUpdate_frame u).2.1 fun c => ?_
  rcases recordedSeq_applyUpdate (d.interest p) u c with hseq | ⟨rfl, hseq⟩
  · rw [hseq]
    exact h.recorded p c
  · rw [hseq]
    exact h.wire u hu

theorem sound_step (h : d.Sound) {ev : DeploymentEvent} (hev : d.ClosesNoMembers ev) :
    (d.step ev).Sound := by
  -- what a node sends of its own table is not ahead of the node it is about
  have hsnapshot : ∀ p c o, (d.interest p).entry c = some o →
      o.seq ≤ (d.interest c).localInterest.seq := by
    intro p c o ho
    have hle := h.recorded p c
    unfold InterestState.recordedSeq at hle
    rw [ho] at hle
    exact hle
  have hlocal : ∀ p, (d.interest p).localSnapshot.seq ≤
      (d.interest (d.interest p).localSnapshot.origin).localInterest.seq := by
    intro p
    have hself : (d.interest p).selfId = p := d.selfId_node p
    show _ ≤ (d.interest (d.interest p).selfId).localInterest.seq
    rw [hself]
    exact le_rfl
  cases ev with
  | op p op => exact sound_op h p hev
  | announce p =>
    refine h.send fun u hu => ?_
    rw [List.mem_singleton.mp hu]
    exact hlocal p
  | digest p entries =>
    refine h.send fun u hu => ?_
    obtain ⟨s, hs, rfl⟩ := List.mem_map.mp hu
    rcases InterestState.mem_respondToDigest.mp hs with ⟨-, rfl⟩ | ⟨c, o, ho, -, rfl⟩
    · exact hlocal p
    · exact hsnapshot p c o ho
  | interest p u =>
    unfold step
    dsimp only
    split_ifs with hu
    · exact sound_interest h p hu
    · exact h
  | sweep p origin =>
    have hrecorded : ∀ c, ((d.interest p).sweepOrigin origin).recordedSeq c ≤
        (d.interest c).localInterest.seq := by
      intro c
      unfold InterestState.recordedSeq
      rw [InterestState.entry_sweepOrigin]
      split_ifs
      · exact Nat.zero_le _
      · exact h.recorded p c
    exact h.setInterest ((d.interest p).sweepOrigin origin) (d.selfId_setInterest p rfl) rfl
      hrecorded
  | setRouting p routing =>
    exact h.setInterest { d.interest p with routing } (d.selfId_setInterest p rfl) rfl
      (h.recorded p)
  | mesh p alive deny links =>
    exact h.set_alike (n := { d.node p with alive, deny, links }) (.refl (d.node p).engine)
  | broadcast p target data isBinary except remoteExcept =>
    exact h.set_alike ((d.node p).alike_broadcastTo target data isBinary except remoteExcept)
  | relayed p peer bytes => exact h.set_alike ((d.node p).alike_receive peer bytes)

theorem sound_run (config : NodeId → EngineConfig) (routing : NodeId → Routing)
    {evs : List DeploymentEvent}
    (hevs : StepsMeet step ClosesNoMembers (start config routing) evs) :
    (run step (start config routing) evs).Sound :=
  run_invariant_of_stepsMeet (fun _ _ h hev => sound_step h hev) (sound_start config routing) hevs

/-! ## One round of digests -/

theorem interest_exchange (d : Deployment) (p : NodeId × NodeId) :
    (d.exchange p).interest = Mesh.exchange d.interest p := by
  funext q
  unfold exchange
  rw [interest_set]
  by_cases hq : q = p.1
  · rw [hq, Function.update_self]
    rfl
  · rw [Function.update_of_ne hq]
    exact (exchange_of_ne hq).symm

theorem interest_round (d : Deployment) (pairs : List (NodeId × NodeId)) :
    (run exchange d pairs).interest = run Mesh.exchange d.interest pairs := by
  induction pairs generalizing d with
  | nil => rfl
  | cons p pairs ih => rw [run_cons, run_cons, ih, interest_exchange]

/-- An exchange changes interest tables only. -/
theorem node_exchange (d : Deployment) (p : NodeId × NodeId) (q : NodeId) :
    (d.exchange p).node q = (d.node q).setInterest ((d.exchange p).interest q) := by
  show Function.update d.node p.1 _ q =
    (d.node q).setInterest (Function.update d.node p.1 _ q).engine.interest
  by_cases hq : q = p.1
  · rw [hq, Function.update_self]
    rfl
  · rw [Function.update_of_ne hq]
    rfl

theorem node_round (d : Deployment) (pairs : List (NodeId × NodeId)) (q : NodeId) :
    (run exchange d pairs).node q = (d.node q).setInterest ((run exchange d pairs).interest q) := by
  induction pairs generalizing d with
  | nil => rfl
  | cons p pairs ih =>
    rw [run_cons, ih, node_exchange]
    rfl

/-- The nodes of `ids` as a cluster. -/
def cluster (d : Deployment) (ids : OrdSet NodeId) : Cluster :=
  { ids, node := d.node, selfId_node := fun p _ => d.selfId_node p }

end Deployment

namespace LostEdges

open Deployment

/-- Every node has the same limits. -/
def config (_ : NodeId) : EngineConfig := .unlimited

/-- Nodes 1 and 2 are linked; connection 0 of node 2 joins `lobby`, and node 1 never gets the
    edge. -/
def evs : List DeploymentEvent :=
  [.mesh 1 (.ofList [2]) ∅ ((∅ : Links).insert 2 (WrappedExcepts.link 2)),
    .mesh 2 (.ofList [1]) ∅ ((∅ : Links).insert 1 (WrappedExcepts.link 1)),
    .op 2 (.connect 0 none), .op 2 (.join 0 "lobby")]

/-- The deployment behind `evs`. -/
def deployment : Deployment := run step (start config fun _ => .interest) evs

/-- The two directions of the link. -/
def pairs : List (NodeId × NodeId) := [(1, 2), (2, 1)]

theorem linked : (deployment.cluster (.ofList [1, 2])).Linked 1
    (FanoutTarget.msg (Cluster.allExcepts 1 [] []) [1, 2, 3] (.room "lobby")) false := by
  have hname : (asBytes "lobby").length < 65536 := by decide +kernel
  refine ⟨by decide, hname, ?_, ?_, ?_⟩
  · intro p hp hne
    rw [WrappedExcepts.eq_two hp hne]
    decide +kernel
  · intro p hp hne
    rw [WrappedExcepts.eq_two hp hne]
    exact ⟨WrappedExcepts.link 2, by decide +kernel, by decide, by decide +kernel⟩
  · intro p hp hne
    rw [WrappedExcepts.eq_two hp hne]
    exact ⟨by decide +kernel, WrappedExcepts.link 1, by decide +kernel, by decide,
      by decide +kernel⟩

end LostEdges

end BeamSocket.Core
