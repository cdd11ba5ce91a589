import BeamSocket.Core.Broadcast
import BeamSocket.Core.Engine
import BeamSocket.Core.RelayBody

/-!
# Relaying between engines

Model of the clustered half of the broadcast verbs: `broadcast_room`,
`broadcast_user` and `broadcast_all` (`crates/core/src/engine.rs`, lines 463–578)
fan out locally and then relay to the peers that host the target; the relay
senders and `deliver_local` (`crates/core/src/cluster.rs`, lines 153–308); and the
path of a relay frame from the receiver's link to `deliver_local`.

* `ClusterNode.pushed_fanOut`: a local fan-out, as a set of pushes.
* `ClusterNode.links_receive`: handling a frame from a peer sends nothing.
* `ClusterNode.receive_frame`, `pushed_deliverLocal`: a relay frame reaches
  `deliver_local`, and what that pushes.
-/

namespace BeamSocket.Core

open BeamSocket.Lib BeamSocket.Mesh

/-- A node of a cluster: its engine, the peers `alive_peer_ids` lists, the peers
    it denies, its links and the `RelayCounters`. -/
structure ClusterNode where
  engine : Engine
  alive : OrdSet NodeId
  deny : OrdSet NodeId
  links : Links
  relayOut : ℕ
  relayDrops : ℕ
  relayIn : ℕ

/-- `node_excepts` (`engine.rs`, lines 1181–1186). -/
def nodeExcepts (node : NodeId) (except : List ConnectionId) : List NodeConnId :=
  except.map (NodeConnId.mk node)

namespace ClusterNode

variable (n : ClusterNode)

/-- The id under which the node knows itself. -/
def selfId : NodeId := n.engine.interest.selfId

/-- `broadcast` over the node's own tables. -/
def fanOut (target : FanoutTarget) (payload : Bytes) (isBinary : Bool)
    (except : List ConnectionId) : ClusterNode × FanoutReport :=
  let (conns, rooms, report) :=
    broadcast n.engine.conns n.engine.rooms n.engine.identity target payload isBinary except
  ({ n with engine := n.engine.setTables rooms conns }, report)

/-! ## Sending -/

/-- `do_relay` (`cluster.rs`, lines 203–216). -/
def doRelay (peers : List NodeId) (kind : RelayKind) (isBinary : Bool)
    (metadata payload : Bytes) : ClusterNode :=
  let (links, report) := relay n.links peers kind isBinary metadata payload
  { n with
    links
    relayOut := n.relayOut + report.sent
    relayDrops := n.relayDrops + report.dropped + report.noLink }

/-- A relay sender: nothing is built when there is no peer. -/
def relayTo (peers : List NodeId) (msg : RelayMsg) (isBinary : Bool) : ClusterNode :=
  if peers.isEmpty then n else n.doRelay peers msg.kind isBinary msg.metadata msg.payload

/-- `interested_peers` (`node.rs`, lines 507–514). -/
def interestedPeers (t : Target) : List NodeId := n.engine.interest.interestedPeers t n.alive

/-- `relay_room` (lines 153–162). -/
def relayRoom (room : RoomId) (payload : Bytes) (isBinary : Bool) (except : List NodeConnId) :
    ClusterNode :=
  n.relayTo (n.interestedPeers (.room room)) (.room room except payload) isBinary

/-- `relay_user` (lines 164–173). -/
def relayUser (user : UserId) (payload : Bytes) (isBinary : Bool) (except : List NodeConnId) :
    ClusterNode :=
  n.relayTo (n.interestedPeers (.user user)) (.user user except payload) isBinary

/-- `relay_all` (lines 177–190), to the ids of `peer_pressures` (`node.rs`, lines
    581–592), which sorts them. -/
def relayAll (payload : Bytes) (isBinary : Bool) (except : List NodeConnId) : ClusterNode :=
  n.relayTo (n.links.keys.insertionSort (· ≤ ·)) (.all except payload) isBinary

/-- `relay_socket` (lines 195–201): a local target is not relayed. -/
def relaySocket (target : NodeConnId) (payload : Bytes) (isBinary : Bool) : ClusterNode :=
  if target.node = n.selfId then n
  else
    let msg := RelayMsg.socket target.conn payload
    n.doRelay [target.node] msg.kind isBinary msg.metadata msg.payload

/-- `broadcast_room` (`engine.rs`, lines 463–499) with a cluster. -/
def broadcastRoom (room : RoomId) (data : Bytes) (isBinary : Bool) (except : List ConnectionId)
    (remoteExcept : List NodeConnId) : ClusterNode × FanoutReport :=
  let (n, report) := n.fanOut (.room room) data isBinary except
  (n.relayRoom room data isBinary (nodeExcepts n.selfId except ++ remoteExcept), report)

/-- `broadcast_all` (lines 503–536) with a cluster. -/
def broadcastAll (data : Bytes) (isBinary : Bool) (except : List ConnectionId)
    (remoteExcept : List NodeConnId) : ClusterNode × FanoutReport :=
  let (n, report) := n.fanOut .all data isBinary except
  (n.relayAll data isBinary (nodeExcepts n.selfId except ++ remoteExcept), report)

/-- `broadcast_user` (lines 544–578) with a cluster. -/
def broadcastUser (user : UserId) (data : Bytes) (isBinary : Bool) (except : List ConnectionId)
    (remoteExcept : List NodeConnId) : ClusterNode × FanoutReport :=
  let (n, report) := n.fanOut (.user user) data isBinary except
  (n.relayUser user data isBinary (nodeExcepts n.selfId except ++ remoteExcept), report)

/-- The broadcast verb of a target. -/
def broadcastTo (target : FanoutTarget) (data : Bytes) (isBinary : Bool)
    (except : List ConnectionId) (remoteExcept : List NodeConnId) : ClusterNode × FanoutReport :=
  match target with
  | .room room => n.broadcastRoom room data isBinary except remoteExcept
  | .user user => n.broadcastUser user data isBinary except remoteExcept
  | .all => n.broadcastAll data isBinary except remoteExcept

/-! ## Receiving -/

/-- `deliver_local` (`cluster.rs`, lines 221–308): a body that does not decode is
    counted and dropped. -/
def deliverLocal (kind : RelayKind) (isBinary : Bool) (body : Bytes) : ClusterNode :=
  let n := { n with relayIn := n.relayIn + 1 }
  match decodeRelay kind body with
  | none => n
  | some (.room room excepts payload) =>
    (n.fanOut (.room room) payload isBinary (exceptsFor n.selfId excepts)).1
  | some (.user user excepts payload) =>
    (n.fanOut (.user user) payload isBinary (exceptsFor n.selfId excepts)).1
  | some (.all excepts payload) =>
    (n.fanOut .all payload isBinary (exceptsFor n.selfId excepts)).1
  | some (.socket id payload) =>
    let conns := (n.engine.conns.push id ⟨payload, isBinary⟩).1
    { n with engine := n.engine.setTables n.engine.rooms conns }

/-- The relay arm of `on_inbound` (`node.rs`, lines 182–236). Frames of other
    kinds change neither a mailbox nor a room and are not modelled here. -/
def onInbound (peer : NodeId) (frame : Frame) : ClusterNode :=
  if peer ∈ n.deny then n
  else
    match RelayKind.fromFrameKind frame.kind with
    | none => n
    | some kind => n.deliverLocal kind (Flags.has frame.flags flagBinary) frame.body

/-- The bytes of one frame arrive on the link to `peer`. -/
def receive (peer : NodeId) (bytes : Bytes) : ClusterNode :=
  match n.links.lookup peer with
  | none => n
  | some h =>
    match readRawFrame bytes h.negotiated.maxFrame.toNat with
    | .error _ => n
    | .ok ((kind, flags, body), _) =>
      match dispatch h.negotiated kind flags body with
      | .inbound frame => n.onInbound peer frame
      | _ => n

end ClusterNode

/-! ## One verb for all targets -/

/-- The relay message for a target. -/
def FanoutTarget.msg (excepts : List NodeConnId) (payload : Bytes) : FanoutTarget → RelayMsg
  | .room name => .room name excepts payload
  | .user name => .user name excepts payload
  | .all => .all excepts payload

/-- The frame on the wire. -/
def RelayMsg.frame (msg : RelayMsg) (isBinary : Bool) : Bytes :=
  relayFrame msg.kind isBinary msg.metadata msg.payload

theorem mem_exceptsFor {node : NodeId} {excepts : List NodeConnId} {id : ConnectionId} :
    id ∈ exceptsFor node excepts ↔ NodeConnId.mk node id ∈ excepts := by
  unfold exceptsFor
  rw [List.mem_map]
  constructor
  · rintro ⟨⟨node', id'⟩, hmem, rfl⟩
    obtain ⟨hmem, hnode⟩ := List.mem_filter.mp hmem
    have heq : node' = node := by simpa using hnode
    rw [← heq]
    exact hmem
  · intro h
    exact ⟨⟨node, id⟩, List.mem_filter.mpr ⟨h, by simp⟩, rfl⟩

namespace ClusterNode

variable (n : ClusterNode)

/-- The peers that a broadcast to the target is relayed to. -/
def relayPeers : FanoutTarget → List NodeId
  | .room room => n.interestedPeers (.room room)
  | .user user => n.interestedPeers (.user user)
  | .all => n.links.keys.insertionSort (· ≤ ·)

theorem broadcastTo_eq (target : FanoutTarget) (data : Bytes) (isBinary : Bool)
    (except : List ConnectionId) (remoteExcept : List NodeConnId) :
    (n.broadcastTo target data isBinary except remoteExcept).1 =
      (n.fanOut target data isBinary except).1.relayTo (n.relayPeers target)
        (target.msg (nodeExcepts n.selfId except ++ remoteExcept) data) isBinary := by
  cases target <;> rfl

theorem nodup_relayPeers (target : FanoutTarget) : (n.relayPeers target).Nodup := by
  cases target with
  | room room => exact (InterestState.sortedLT_interestedPeers ..).nodup
  | user user => exact (InterestState.sortedLT_interestedPeers ..).nodup
  | all =>
    unfold relayPeers
    rw [(List.perm_insertionSort _ _).nodup_iff]
    exact n.links.keys_nodup

theorem pushed_fanOut (target : FanoutTarget) (payload : Bytes) (isBinary : Bool)
    (except : List ConnectionId) :
    Pushed (fun id => Targeted n.engine.rooms n.engine.identity target id ∧ id ∉ except)
      ⟨payload, isBinary⟩ n.engine.conns
      (n.fanOut target payload isBinary except).1.engine.conns :=
  pushed_broadcast n.engine.conns n.engine.rooms n.engine.identity target payload isBinary except

/-! ### The sender -/

theorem engine_relayTo (peers : List NodeId) (msg : RelayMsg) (isBinary : Bool) :
    (n.relayTo peers msg isBinary).engine = n.engine := by
  unfold relayTo
  split_ifs <;> rfl

/-- Every peer's link gets the frame once, and no other link does. -/
theorem lookup_relayTo {peers : List NodeId} (hnd : peers.Nodup) (msg : RelayMsg)
    (isBinary : Bool) (q : NodeId) :
    (n.relayTo peers msg isBinary).links.lookup q = (n.links.lookup q).map fun h =>
      if q ∈ peers then (h.trySendEncoded msg.kind.frameKind (msg.frame isBinary)).1 else h := by
  unfold relayTo
  by_cases hempty : peers.isEmpty = true
  · rw [if_pos hempty, List.isEmpty_iff.mp hempty]
    simp
  · rw [if_neg hempty]
    exact lookup_relay hnd n.links msg.kind isBinary msg.metadata msg.payload q

/-! ### The receiver -/

theorem links_fanOut (target : FanoutTarget) (payload : Bytes) (isBinary : Bool)
    (except : List ConnectionId) :
    (n.fanOut target payload isBinary except).1.links = n.links := rfl

theorem links_deliverLocal (kind : RelayKind) (isBinary : Bool) (body : Bytes) :
    (n.deliverLocal kind isBinary body).links = n.links := by
  unfold deliverLocal
  dsimp only
  split <;> rfl

/-- Handling a frame, whatever it is, puts no frame into any queue. -/
theorem links_receive (peer : NodeId) (bytes : Bytes) :
    (n.receive peer bytes).links = n.links := by
  have hinbound : ∀ frame, (n.onInbound peer frame).links = n.links := by
    intro frame
    unfold onInbound
    split_ifs
    · rfl
    · split
      · rfl
      · exact n.links_deliverLocal ..
  unfold receive
  split
  · rfl
  · split
    · rfl
    · split
      · exact hinbound _
      · rfl

theorem has_flagBinary (isBinary : Bool) :
    Flags.has (if isBinary then flagBinary else flagNone) flagBinary = isBinary := by
  cases isBinary <;> rfl

/-- A relay frame that fits the link reaches `deliver_local`. -/
theorem receive_frame {peer : NodeId} {h : LinkHandle} (hlink : n.links.lookup peer = some h)
    {msg : RelayMsg} (hemit : h.negotiated.mayEmit msg.kind.frameKind = true)
    (hmax : 2 + msg.body.length ≤ h.negotiated.maxFrame.toNat) (hdeny : peer ∉ n.deny)
    (isBinary : Bool) :
    n.receive peer (msg.frame isBinary) = n.deliverLocal msg.kind isBinary msg.body := by
  have hlt : 2 + msg.body.length < 2 ^ 32 := lt_of_le_of_lt hmax h.negotiated.maxFrame.toNat_lt
  have hread := readRawFrame_encode ⟨msg.kind.frameKind, if isBinary then flagBinary else flagNone,
    msg.body⟩ [] h.negotiated.maxFrame.toNat hmax hlt
  rw [List.append_nil] at hread
  have hframe : msg.frame isBinary = (Frame.mk msg.kind.frameKind
    (if isBinary then flagBinary else flagNone) msg.body).encode := relayFrame_eq_encode ..
  unfold receive
  rw [hlink, hframe]
  dsimp only
  rw [hread]
  dsimp only
  rw [dispatch_of_mayEmit hemit]
  dsimp only [onInbound]
  rw [if_neg hdeny, RelayKind.fromFrameKind_frameKind, has_flagBinary]

/-- What `deliver_local` does with a relayed broadcast: it fans out what was read
    of the except list and the payload. -/
theorem pushed_deliverLocal (target : FanoutTarget) (excepts : List NodeConnId) (payload : Bytes)
    (isBinary : Bool) (hname : (target.msg excepts payload).NameFits) :
    Pushed (fun id => Targeted n.engine.rooms n.engine.identity target id ∧
        NodeConnId.mk n.selfId id ∉ (exceptsRead excepts payload).1)
      ⟨(exceptsRead excepts payload).2, isBinary⟩ n.engine.conns
      (n.deliverLocal (target.msg excepts payload).kind isBinary
        (target.msg excepts payload).body).engine.conns := by
  have hdecode := RelayMsg.decodeRelay_body hname
  have hpush := n.pushed_fanOut target (exceptsRead excepts payload).2 isBinary
    (exceptsFor n.selfId (exceptsRead excepts payload).1)
  have hpush' := hpush.congr (Q := fun id => Targeted n.engine.rooms n.engine.identity target id ∧
    NodeConnId.mk n.selfId id ∉ (exceptsRead excepts payload).1)
    fun id _ => by rw [mem_exceptsFor]
  unfold deliverLocal
  dsimp only
  rw [hdecode]
  cases target <;> exact hpush'

end ClusterNode

end BeamSocket.Core
