import BeamSocket.Core.ClusterBroadcast

/-!
# Single sends and closes over a cluster

`Engine::send`, `send_node` (`crates/core/src/engine.rs`, lines 595–603 and
1022–1033) and `admin_disconnect_socket` on one node of a cluster, followed by
the handling of the frames it relayed. Each result says what becomes of every
connection of every node.

* `Cluster.sends_broadcast`, `sends_sendNode`, `sends_send`: which connections the
  frame is pushed to.
* `Cluster.sends_iff`: a set of recipients is determined on the live connections.
* `Cluster.lookup_adminDisconnectSocket`: closing a connection of a node.
-/

namespace BeamSocket.Core

open BeamSocket.Lib BeamSocket.Mesh

namespace ClusterNode

variable (n : ClusterNode)

/-- `Engine::send` (lines 1022–1033). -/
def send (id : ConnectionId) (data : Bytes) (isBinary : Bool) : ClusterNode :=
  let conns := (n.engine.conns.push id ⟨data, isBinary⟩).1
  { n with engine := n.engine.setTables n.engine.rooms conns }

/-- `Engine::send_node` (lines 595–603) with a cluster. -/
def sendNode (target : NodeConnId) (data : Bytes) (isBinary : Bool) : ClusterNode :=
  if target.node ≠ n.selfId then n.relaySocket target data isBinary
  else n.send target.conn data isBinary

/-- `admin_disconnect_socket` on the node's engine. -/
def adminDisconnectSocket (id : ConnectionId) (code : UInt16) : ClusterNode :=
  { n with engine := n.engine.adminDisconnectSocket id code }

end ClusterNode

namespace Engine

/-- Withdrawing interest touches no connection. -/
theorem conns_foldl_withdraw (ts : List Target) (e : Engine) :
    (ts.foldl withdraw e).conns = e.conns := by
  induction ts generalizing e with
  | nil => rfl
  | cons t ts ih =>
    rw [List.foldl_cons, ih, withdraw]
    split_ifs
    · rfl
    · rfl

theorem lookup_removeConn (e : Engine) (id id' : ConnectionId) :
    (e.removeConn id).conns.lookup id' = if id' = id then none else e.conns.lookup id' := by
  unfold removeConn Registry.removeFull
  cases hid : e.conns.lookup id with
  | none =>
    dsimp only [Option.map_none]
    split_ifs with h
    · rw [h, hid]
    · rfl
  | some entry =>
    dsimp only [Option.map_some]
    rw [conns_foldl_withdraw]
    exact lookup_erase ..

theorem lookup_finish (e : Engine) (id id' : ConnectionId) :
    (e.finish id).conns.lookup id' = if id' = id then none else e.conns.lookup id' := by
  unfold finish
  cases hid : e.conns.lookup id with
  | none =>
    dsimp only
    split_ifs with h
    · rw [h, hid]
    · rfl
  | some entry =>
    dsimp only
    unfold teardown
    cases entry.user with
    | none => exact e.lookup_removeConn id id'
    | some u =>
      have hconns := conns_foldl_withdraw [.user u]
        { e.removeConn id with identity := (e.removeConn id).identity.unbind u id }
      rw [List.foldl_cons, List.foldl_nil] at hconns
      dsimp only
      rw [hconns]
      exact e.lookup_removeConn id id'

theorem lookup_adminDisconnectSocket (e : Engine) (id : ConnectionId) (code : UInt16)
    (id' : ConnectionId) : (e.adminDisconnectSocket id code).conns.lookup id' =
      if id' = id then none else e.conns.lookup id' := by
  unfold adminDisconnectSocket
  rw [lookup_finish]
  split_ifs with h
  · rfl
  · show (e.conns.initiateClose id code "admin disconnect" true).lookup id' = _
    unfold Registry.initiateClose
    split
    · rfl
    · rw [lookup_insert, if_neg h]

end Engine

namespace Cluster

variable {c : Cluster} {o : NodeId}

/-- An operation that relays nothing leaves the other nodes alone. -/
theorem after_of_links {sent : ClusterNode} (hlinks : sent.links = (c.node o).links) {p : NodeId}
    (hpo : p ≠ o) : c.after o sent p = c.node p := by
  have hframes : newFrames (c.node o) sent p = [] := by
    unfold newFrames framesFor
    rw [hlinks]
    exact List.drop_length
  rw [after_of_ne sent hpo, hframes, List.foldl_nil]

/-- The connection is live. -/
def Live (c : Cluster) (k : NodeConnId) : Prop :=
  k.node ∈ c.ids ∧ k.conn ∈ (c.node k.node).engine.conns

/-- Exactly the connections in `R` have had the frame pushed, once, and nothing
    else has happened to any connection. -/
def Sends (c : Cluster) (nodes : NodeId → ClusterNode) (frame : OutboundFrame)
    (R : NodeConnId → Prop) : Prop :=
  ∀ p ∈ c.ids, ∀ id,
    (R ⟨p, id⟩ → (nodes p).engine.conns.lookup id =
      ((c.node p).engine.conns.lookup id).map fun e => e.push frame) ∧
    (¬ R ⟨p, id⟩ → (nodes p).engine.conns.lookup id = (c.node p).engine.conns.lookup id)

theorem Sends.of_lookup {nodes : NodeId → ClusterNode} {frame : OutboundFrame}
    {R : NodeConnId → Prop} [DecidablePred R]
    (h : ∀ p ∈ c.ids, ∀ id, (nodes p).engine.conns.lookup id =
      ((c.node p).engine.conns.lookup id).map fun e => if R ⟨p, id⟩ then e.push frame else e) :
    Sends c nodes frame R := by
  intro p hp id
  rw [h p hp id]
  constructor
  · intro hR
    simp [hR]
  · intro hR
    simp [hR]

theorem Sends.congr {nodes : NodeId → ClusterNode} {frame : OutboundFrame}
    {R R' : NodeConnId → Prop} (h : Sends c nodes frame R) (hR : ∀ k, R k ↔ R' k) :
    Sends c nodes frame R' := by
  intro p hp id
  rw [← hR]
  exact h p hp id

/-- The recipients are determined on the live connections. -/
theorem sends_iff {nodes : NodeId → ClusterNode} {frame : OutboundFrame}
    {R R' : NodeConnId → Prop} (h : Sends c nodes frame R) :
    Sends c nodes frame R' ↔ ∀ k, Live c k → (R k ↔ R' k) := by
  constructor
  · rintro h' ⟨p, id⟩ ⟨hp, hlive⟩
    obtain ⟨e, he⟩ := Option.isSome_iff_exists.mp (AList.lookup_isSome.mpr hlive)
    obtain ⟨hpush, hkeep⟩ := h p hp id
    obtain ⟨hpush', hkeep'⟩ := h' p hp id
    rw [he, Option.map_some] at hpush hpush'
    rw [he] at hkeep hkeep'
    constructor
    · intro hR
      by_contra hR'
      have heq := (hpush hR).symm.trans (hkeep' hR')
      exact push_ne_self e frame (Option.some.inj heq)
    · intro hR'
      by_contra hR
      have heq := (hpush' hR').symm.trans (hkeep hR)
      exact push_ne_self e frame (Option.some.inj heq)
  · intro hsame p hp id
    obtain ⟨hpush, hkeep⟩ := h p hp id
    cases he : (c.node p).engine.conns.lookup id with
    | none =>
      rw [he] at hpush hkeep
      refine ⟨fun _ => ?_, fun _ => ?_⟩
      · by_cases hR : R ⟨p, id⟩
        · exact hpush hR
        · exact hkeep hR
      · by_cases hR : R ⟨p, id⟩
        · exact hpush hR
        · exact hkeep hR
    | some e =>
      have hlive : Live c ⟨p, id⟩ := ⟨hp, AList.lookup_isSome.mp (by rw [he]; rfl)⟩
      rw [he] at hpush hkeep
      rw [← hsame _ hlive]
      exact ⟨hpush, hkeep⟩

/-! ## The operations -/

theorem sends_nothing {frame : OutboundFrame} :
    Sends c (c.after o (c.node o)) frame fun _ => False := by
  intro p hp id
  refine ⟨False.elim, fun _ => ?_⟩
  by_cases hpo : p = o
  · rw [hpo, after_self]
  · rw [after_of_links rfl hpo]

/-- A send to a connection of the sending node. -/
theorem sends_send (id : ConnectionId) (data : Bytes) (isBinary : Bool) :
    Sends c (c.after o ((c.node o).send id data isBinary)) ⟨data, isBinary⟩ (· = ⟨o, id⟩) := by
  refine Sends.of_lookup fun p hp id' => ?_
  by_cases hpo : p = o
  · subst hpo
    rw [after_self]
    show ((c.node p).engine.conns.push id ⟨data, isBinary⟩).1.lookup id' = _
    rw [Registry.lookup_push]
    simp
  · have hlinks : ((c.node o).send id data isBinary).links = (c.node o).links := rfl
    rw [after_of_links hlinks hpo]
    simp [hpo]

/-- What the sender queues for each peer. -/
theorem newFrames_relaySocket {target : NodeConnId} {data : Bytes} {isBinary : Bool}
    (hr : Ready c o (.socket target.conn data) isBinary) (hne : target.node ≠ o) {p : NodeId}
    (hp : p ∈ c.ids) (hpo : p ≠ o) :
    newFrames (c.node o) ((c.node o).relaySocket target data isBinary) p =
      if p = target.node then [(RelayMsg.socket target.conn data).frame isBinary] else [] := by
  obtain ⟨h, hlink, hrelays, hroom⟩ := hr.link p hp hpo
  have hself : (c.node o).selfId = o := c.selfId_node o hr.origin
  have hbefore : framesFor (c.node o) p = h.queue.frames := by rw [framesFor, hlink]; rfl
  have hlinks : ((c.node o).relaySocket target data isBinary).links.lookup p =
      ((c.node o).links.lookup p).map fun h =>
        if p ∈ [target.node] then (h.trySendEncoded RelayKind.socket.frameKind
          ((RelayMsg.socket target.conn data).frame isBinary)).1
        else h := by
    unfold ClusterNode.relaySocket
    rw [hself, if_neg hne]
    exact lookup_relay (List.nodup_singleton _) (c.node o).links _ _ _ _ p
  unfold newFrames
  rw [hbefore]
  unfold framesFor
  rw [hlinks, hlink]
  simp only [List.mem_singleton]
  split_ifs with hmem
  · show (LinkHandle.trySendEncoded ..).1.queue.frames.drop _ = _
    rw [LinkHandle.frames_trySendEncoded (hrelays.mayEmit .socket) hroom, List.drop_left]
  · exact List.drop_length

/-- A send to a connection of any node. -/
theorem sends_sendNode {target : NodeConnId} {data : Bytes} {isBinary : Bool}
    (hr : Ready c o (.socket target.conn data) isBinary) :
    Sends c (c.after o ((c.node o).sendNode target data isBinary)) ⟨data, isBinary⟩
      (· = target) := by
  have hself : (c.node o).selfId = o := c.selfId_node o hr.origin
  unfold ClusterNode.sendNode
  rw [hself]
  split_ifs with hne
  · refine Sends.of_lookup fun p hp id' => ?_
    by_cases hpo : p = o
    · -- the sender itself only queues the frame
      subst hpo
      have hengine : ((c.node p).relaySocket target data isBinary).engine = (c.node p).engine := by
        unfold ClusterNode.relaySocket
        split_ifs
        · rfl
        · rfl
      have hnot : ¬ NodeConnId.mk p id' = target := by
        rintro rfl
        exact hne rfl
      rw [after_self, hengine]
      simp [hnot]
    · rw [after_of_ne _ hpo, newFrames_relaySocket hr hne hp hpo]
      by_cases hmem : p = target.node
      · obtain ⟨hdeny, h, hlink, hrelays, hmax⟩ := hr.peer p hp hpo
        rw [if_pos hmem, List.foldl_cons, List.foldl_nil,
          ClusterNode.receive_frame _ hlink
            (hrelays.mayEmit (RelayMsg.socket target.conn data).kind) hmax hdeny]
        have hdecode : decodeRelay .socket (RelayMsg.socket target.conn data).body =
            some (.socket target.conn data) :=
          RelayMsg.decodeRelay_body (show (RelayMsg.socket target.conn data).NameFits from trivial)
        unfold ClusterNode.deliverLocal
        dsimp only
        rw [show (RelayMsg.socket target.conn data).kind = .socket from rfl, hdecode]
        show ((c.node p).engine.conns.push target.conn ⟨data, isBinary⟩).1.lookup id' = _
        rw [Registry.lookup_push]
        have hiff : NodeConnId.mk p id' = target ↔ id' = target.conn := by
          rw [NodeConnId.ext_iff]
          exact and_iff_right hmem
        simp only [hiff]
      · have hnot : ¬ NodeConnId.mk p id' = target := by
          rintro rfl
          exact hmem rfl
        rw [if_neg hmem, List.foldl_nil]
        simp [hnot]
  · have htarget : target = ⟨o, target.conn⟩ := NodeConnId.ext (not_not.mp hne) rfl
    rw [htarget]
    exact sends_send target.conn data isBinary

/-- What the except lists of the originating node mean for a connection. -/
def Excepted (o : NodeId) (except : List ConnectionId) (remoteExcept : List NodeConnId)
    (k : NodeConnId) : Prop :=
  if k.node = o then k.conn ∈ except else k ∈ remoteExcept

instance (o : NodeId) (except : List ConnectionId) (remoteExcept : List NodeConnId) :
    DecidablePred (Excepted o except remoteExcept) := fun k =>
  inferInstanceAs (Decidable (if k.node = o then k.conn ∈ except else k ∈ remoteExcept))

theorem excepted_append (except : List ConnectionId) (remoteExcept : List NodeConnId)
    (id : ConnectionId) (k : NodeConnId) : Excepted o (except ++ [id]) remoteExcept k ↔
      Excepted o except remoteExcept k ∨ k = ⟨o, id⟩ := by
  unfold Excepted
  rw [NodeConnId.ext_iff]
  by_cases h : k.node = o
  · simp [h]
  · simp [h]

theorem excepted_append_remote (except : List ConnectionId) (remoteExcept : List NodeConnId)
    {e : NodeConnId} (he : e.node ≠ o) (k : NodeConnId) :
    Excepted o except (remoteExcept ++ [e]) k ↔ Excepted o except remoteExcept k ∨ k = e := by
  unfold Excepted
  by_cases h : k.node = o
  · have hne : k ≠ e := by
      rintro rfl
      exact he h
    simp [h, hne]
  · simp [h]

/-- A broadcast on `o`, while the except list fits its count. -/
theorem sends_broadcast {target : FanoutTarget} {data : Bytes} {isBinary : Bool}
    {except : List ConnectionId} {remoteExcept : List NodeConnId}
    (hr : Ready c o (target.msg (allExcepts o except remoteExcept) data) isBinary)
    (hfits : except.length + remoteExcept.length < 65536) :
    Sends c (c.after o ((c.node o).broadcastTo target data isBinary except remoteExcept).1)
      ⟨data, isBinary⟩ fun k => TargetedAt (c.node k.node) target k.conn ∧
        ¬ Excepted o except remoteExcept k := by
  refine Sends.of_lookup fun p hp id => ?_
  show (c.broadcast o target data isBinary except remoteExcept p).engine.conns.lookup id = _
  by_cases hpo : p = o
  · rw [hpo, lookup_broadcast_origin]
    simp [Excepted]
  · have hread : exceptsRead (allExcepts o except remoteExcept) data =
        (allExcepts o except remoteExcept, data) :=
      (exceptsRead_eq_iff _ data).mpr (by rw [length_allExcepts]; exact hfits)
    have hmem : NodeConnId.mk p id ∈ allExcepts o except remoteExcept ↔
        NodeConnId.mk p id ∈ remoteExcept := by
      unfold allExcepts nodeExcepts
      rw [List.mem_append, or_iff_right]
      rw [List.mem_map]
      rintro ⟨id', -, heq⟩
      exact hpo (NodeConnId.mk.inj heq).1.symm
    rw [lookup_broadcast_remote hr hp hpo, hread]
    simp only [hmem, Excepted, if_neg hpo]

/-- Closing a connection of `o` takes it out of the registry, and leaves every
    other connection of every node as it is. -/
theorem lookup_adminDisconnectSocket (id : ConnectionId) (code : UInt16) {p : NodeId}
    (id' : ConnectionId) :
    (c.after o ((c.node o).adminDisconnectSocket id code) p).engine.conns.lookup id' =
      if NodeConnId.mk p id' = ⟨o, id⟩ then none else (c.node p).engine.conns.lookup id' := by
  by_cases hpo : p = o
  · subst hpo
    rw [after_self]
    show ((c.node p).engine.adminDisconnectSocket id code).conns.lookup id' = _
    rw [Engine.lookup_adminDisconnectSocket]
    simp
  · have hlinks : ((c.node o).adminDisconnectSocket id code).links = (c.node o).links := rfl
    rw [after_of_links hlinks hpo]
    simp [hpo]

end Cluster

end BeamSocket.Core
