import BeamSocket.Core.ClusterNode

/-!
# A broadcast over a cluster

A broadcast on one node, followed by the handling of every frame it relayed, is
compared with one single-node `broadcast` over the disjoint union of the nodes'
connections, keyed by node and id.

* `Cluster.lookup_union`: the single-node broadcast over the union, seen from
  each node.
* `Cluster.lookup_broadcast_origin`, `lookup_broadcast_remote`: the broadcast over
  the cluster, on the originating node and on every other one.
* `Cluster.agrees_iff`: the two push the same frames exactly when the combined
  except list fits its 16-bit count, or when what is left of it on the wire still
  excepts every remote recipient.
* `WrappedExcepts.not_agrees`: two except lists that fit, and together do not.
-/

namespace BeamSocket.Core

open BeamSocket.Lib BeamSocket.Mesh

/-- The nodes of a cluster, each under its own id. -/
structure Cluster where
  ids : OrdSet NodeId
  node : NodeId → ClusterNode
  selfId_node : ∀ p ∈ ids, (node p).selfId = p

namespace Cluster

variable (c : Cluster)

/-! ## The disjoint union -/

/-- The union of one set of connections of each node. -/
def unionSet (f : ClusterNode → OrdSet ConnectionId) : OrdSet NodeConnId :=
  OrdSet.ofList (c.ids.toList.flatMap fun p => (f (c.node p)).toList.map (NodeConnId.mk p))

theorem mem_unionSet {f : ClusterNode → OrdSet ConnectionId} {p : NodeId} {id : ConnectionId} :
    NodeConnId.mk p id ∈ c.unionSet f ↔ p ∈ c.ids ∧ id ∈ f (c.node p) := by
  rw [unionSet, OrdSet.mem_ofList, List.mem_flatMap]
  constructor
  · rintro ⟨q, hq, hmem⟩
    obtain ⟨id', hid, heq⟩ := List.mem_map.mp hmem
    obtain ⟨rfl, rfl⟩ := NodeConnId.mk.inj heq
    exact ⟨hq, hid⟩
  · rintro ⟨hp, hid⟩
    exact ⟨p, hp, List.mem_map_of_mem hid⟩

/-- All connections. -/
def unionConns : Registry NodeConnId :=
  tabulate (c.ids.toList.flatMap fun p => (c.node p).engine.conns.keys.map (NodeConnId.mk p))
    fun k => (c.node k.node).engine.conns.lookup k.conn

/-- All rooms, each with its members on every node. -/
def unionRooms : RoomRegistry NodeConnId :=
  tabulate (c.ids.toList.flatMap fun p => (c.node p).engine.rooms.keys) fun room =>
    some ⟨c.unionSet fun n => n.engine.rooms.memberSet room,
      (c.ids.toList.map fun p =>
        ((c.node p).engine.rooms.lookup room).elim 0 RoomEntry.messages).sum⟩

/-- All users, each with the devices on every node. -/
def unionIdentity : IdentityRegistry NodeConnId :=
  tabulate (c.ids.toList.flatMap fun p => (c.node p).engine.identity.keys) fun user =>
    some (c.unionSet fun n => n.engine.identity.devices user)

variable {c} {p : NodeId}

theorem lookup_unionConns (hp : p ∈ c.ids) (id : ConnectionId) :
    c.unionConns.lookup ⟨p, id⟩ = (c.node p).engine.conns.lookup id := by
  rw [unionConns, lookup_tabulate]
  split_ifs with h
  · rfl
  · symm
    rw [AList.lookup_eq_none]
    intro hid
    apply h
    rw [List.mem_flatMap]
    exact ⟨p, hp, List.mem_map_of_mem (AList.mem_keys.mp hid)⟩

/-- A key of a table over all nodes has its entry there, or no node has it. -/
theorem lookup_union_table {ν ν' : Type} {m : ClusterNode → AList fun _ : String => ν}
    {f : String → Option ν'} (hp : p ∈ c.ids) (k : String) :
    let t := tabulate (c.ids.toList.flatMap fun p => (m (c.node p)).keys) f
    t.lookup k = f k ∨ t.lookup k = none ∧ (m (c.node p)).lookup k = none := by
  dsimp only
  rw [lookup_tabulate]
  split_ifs with h
  · exact .inl rfl
  · refine .inr ⟨rfl, AList.lookup_eq_none.mpr fun hk => h ?_⟩
    exact List.mem_flatMap.mpr ⟨p, hp, AList.mem_keys.mp hk⟩

theorem mem_memberSet_unionRooms (hp : p ∈ c.ids) (room : RoomId) (id : ConnectionId) :
    NodeConnId.mk p id ∈ c.unionRooms.memberSet room ↔
      id ∈ (c.node p).engine.rooms.memberSet room := by
  unfold RoomRegistry.memberSet unionRooms
  rcases lookup_union_table (m := fun n => n.engine.rooms) hp room with h | ⟨h, hnone⟩
  · rw [h]
    exact (mem_unionSet c).trans (and_iff_right hp)
  · rw [h, hnone]
    exact iff_of_false OrdSet.notMem_empty OrdSet.notMem_empty

theorem mem_devices_unionIdentity (hp : p ∈ c.ids) (user : UserId) (id : ConnectionId) :
    NodeConnId.mk p id ∈ c.unionIdentity.devices user ↔
      id ∈ (c.node p).engine.identity.devices user := by
  unfold IdentityRegistry.devices unionIdentity
  rcases lookup_union_table (m := fun n => n.engine.identity) hp user with h | ⟨h, hnone⟩
  · rw [h]
    rw [Option.getD_some, mem_unionSet]
    exact and_iff_right hp
  · rw [h, hnone]
    exact iff_of_false OrdSet.notMem_empty OrdSet.notMem_empty

variable (c) in
/-- One single-node broadcast over the union. -/
def unionBroadcast (target : FanoutTarget) (data : Bytes) (isBinary : Bool)
    (excepts : List NodeConnId) : Registry NodeConnId :=
  (Core.broadcast c.unionConns c.unionRooms c.unionIdentity target data isBinary excepts).1

/-- Whether a connection of the node is a recipient of the target. -/
abbrev TargetedAt (n : ClusterNode) (target : FanoutTarget) (id : ConnectionId) : Prop :=
  Targeted n.engine.rooms n.engine.identity target id

theorem targeted_union (hp : p ∈ c.ids) (target : FanoutTarget) (id : ConnectionId) :
    Targeted c.unionRooms c.unionIdentity target ⟨p, id⟩ ↔ TargetedAt (c.node p) target id := by
  cases target with
  | all => exact Iff.rfl
  | room room => exact mem_memberSet_unionRooms hp room id
  | user user => exact mem_devices_unionIdentity hp user id

theorem lookup_union (hp : p ∈ c.ids) (target : FanoutTarget) (data : Bytes) (isBinary : Bool)
    (excepts : List NodeConnId) (id : ConnectionId) :
    (c.unionBroadcast target data isBinary excepts).lookup ⟨p, id⟩ =
      ((c.node p).engine.conns.lookup id).map fun e =>
        if TargetedAt (c.node p) target id ∧ NodeConnId.mk p id ∉ excepts then
          e.push ⟨data, isBinary⟩
        else e := by
  have hpush := pushed_broadcast c.unionConns c.unionRooms c.unionIdentity target data isBinary
    excepts ⟨p, id⟩
  rw [unionBroadcast, hpush, lookup_unionConns hp]
  simp only [targeted_union hp]

/-! ## The broadcast over the cluster -/

/-- The frames queued for a peer. -/
def framesFor (n : ClusterNode) (p : NodeId) : List Bytes :=
  (n.links.lookup p).elim [] fun h => h.queue.frames

/-- What the broadcast on `sent` queued for a peer. -/
def newFrames (before sent : ClusterNode) (p : NodeId) : List Bytes :=
  (framesFor sent p).drop (framesFor before p).length

/-- Everything the except lists name, as the originating node puts it together. -/
def allExcepts (o : NodeId) (except : List ConnectionId) (remoteExcept : List NodeConnId) :
    List NodeConnId := nodeExcepts o except ++ remoteExcept

/-- The nodes after an operation that took `o` to `sent`, and the handling of
    every frame it relayed. -/
def after (c : Cluster) (o : NodeId) (sent : ClusterNode) (p : NodeId) : ClusterNode :=
  if p = o then sent
  else (newFrames (c.node o) sent p).foldl (fun n bytes => n.receive o bytes) (c.node p)

theorem after_self (o : NodeId) (sent : ClusterNode) : c.after o sent o = sent := if_pos rfl

theorem after_of_ne {o : NodeId} (sent : ClusterNode) (hpo : p ≠ o) : c.after o sent p =
    (newFrames (c.node o) sent p).foldl (fun n bytes => n.receive o bytes) (c.node p) := if_neg hpo

variable (c) in
/-- The nodes after a broadcast on `o` and the handling of every relayed frame. -/
def broadcast (o : NodeId) (target : FanoutTarget) (data : Bytes) (isBinary : Bool)
    (except : List ConnectionId) (remoteExcept : List NodeConnId) (p : NodeId) : ClusterNode :=
  c.after o ((c.node o).broadcastTo target data isBinary except remoteExcept).1 p

/-- The link carries relay frames. -/
def Relays (h : LinkHandle) : Prop := h.negotiated.features &&& featureRelay ≠ 0

instance (h : LinkHandle) : Decidable (Relays h) :=
  inferInstanceAs (Decidable (h.negotiated.features &&& featureRelay ≠ 0))

/-- The origin holds every node alive, and there is a link in both directions with
    room for the frame. -/
structure Linked (c : Cluster) (o : NodeId) (msg : RelayMsg) (isBinary : Bool) : Prop where
  origin : o ∈ c.ids
  name : msg.NameFits
  alive : ∀ p ∈ c.ids, p ≠ o → p ∈ (c.node o).alive
  link : ∀ p ∈ c.ids, p ≠ o → ∃ h, (c.node o).links.lookup p = some h ∧ Relays h ∧
    h.queue.queuedBytes + (msg.frame isBinary).length ≤ h.queue.hwmBytes
  peer : ∀ p ∈ c.ids, p ≠ o → o ∉ (c.node p).deny ∧
    ∃ h, (c.node p).links.lookup o = some h ∧ Relays h ∧
      2 + msg.body.length ≤ h.negotiated.maxFrame.toNat

/-- What a broadcast of `msg` on `o` relies on: the links, and that the origin knows
    what every node hosts. That it knows nothing else is not needed. -/
structure Ready (c : Cluster) (o : NodeId) (msg : RelayMsg) (isBinary : Bool) : Prop
    extends Linked c o msg isBinary where
  interest : ∀ p ∈ c.ids, p ≠ o → ∀ t, (c.node p).engine.count t ≠ 0 →
    ∃ i, (c.node o).engine.interest.entry p = some i ∧ i.hosts t = true

theorem Relays.mayEmit {h : LinkHandle} (hr : Relays h) (kind : RelayKind) :
    h.negotiated.mayEmit kind.frameKind = true := by
  have hbit : (h.negotiated.features &&& featureRelay != 0) = true := bne_iff_ne.mpr hr
  cases kind <;> exact hbit

variable {o : NodeId} {target : FanoutTarget} {data : Bytes} {isBinary : Bool}
  {except : List ConnectionId} {remoteExcept : List NodeConnId}

/-- A node with a recipient is one that the origin relays to. -/
theorem mem_relayPeers
    (hr : Ready c o (target.msg (allExcepts o except remoteExcept) data) isBinary) (hp : p ∈ c.ids)
    (hpo : p ≠ o) {id : ConnectionId} (hid : TargetedAt (c.node p) target id) :
    p ∈ (c.node o).relayPeers target := by
  -- for a room or a user, by the interest table or, when flooding, by being alive
  have hinterested : ∀ t, (c.node p).engine.count t ≠ 0 → p ∈ (c.node o).interestedPeers t := by
    intro t hcount
    refine InterestState.mem_interestedPeers.mpr ⟨hr.alive p hp hpo, ?_⟩
    have hself : (c.node o).engine.interest.selfId = o := c.selfId_node o hr.origin
    cases (c.node o).engine.interest.routing with
    | flood =>
      show p ≠ _
      rw [hself]
      exact hpo
    | interest => exact hr.interest p hp hpo t hcount
  cases target with
  | all =>
    obtain ⟨h, hlink, -⟩ := hr.link p hp hpo
    show p ∈ (c.node o).links.keys.insertionSort (· ≤ ·)
    rw [List.mem_insertionSort, ← AList.mem_keys, ← AList.lookup_isSome, hlink]
    rfl
  | room room =>
    apply hinterested (.room room)
    intro hzero
    exact OrdSet.card_eq_zero.mp hzero id hid
  | user user =>
    apply hinterested (.user user)
    intro hzero
    exact OrdSet.card_eq_zero.mp hzero id hid

/-- The origin queues the frame once for every peer it relays to. -/
theorem newFrames_broadcastTo
    (hr : Ready c o (target.msg (allExcepts o except remoteExcept) data) isBinary)
    (hp : p ∈ c.ids) (hpo : p ≠ o) :
    newFrames (c.node o) ((c.node o).broadcastTo target data isBinary except remoteExcept).1 p =
      if p ∈ (c.node o).relayPeers target then
        [(target.msg (allExcepts o except remoteExcept) data).frame isBinary]
      else [] := by
  obtain ⟨h, hlink, hrelays, hroom⟩ := hr.link p hp hpo
  have hself : (c.node o).selfId = o := c.selfId_node o hr.origin
  have hbefore : framesFor (c.node o) p = h.queue.frames := by rw [framesFor, hlink]; rfl
  rw [ClusterNode.broadcastTo_eq, hself, ← allExcepts]
  unfold newFrames
  rw [hbefore]
  unfold framesFor
  rw [ClusterNode.lookup_relayTo _ ((c.node o).nodup_relayPeers target), ClusterNode.links_fanOut,
    hlink]
  split_ifs with hmem
  · show (LinkHandle.trySendEncoded ..).1.queue.frames.drop _ = _
    rw [LinkHandle.frames_trySendEncoded (hrelays.mayEmit _) hroom, List.drop_left]
  · exact List.drop_length

/-! ## Both broadcasts at each connection -/

/-- On the originating node: the local fan-out. -/
theorem lookup_broadcast_origin (id : ConnectionId) :
    (c.broadcast o target data isBinary except remoteExcept o).engine.conns.lookup id =
      ((c.node o).engine.conns.lookup id).map fun e =>
        if TargetedAt (c.node o) target id ∧ id ∉ except then e.push ⟨data, isBinary⟩ else e := by
  unfold broadcast
  rw [after_self, ClusterNode.broadcastTo_eq, ClusterNode.engine_relayTo]
  exact (c.node o).pushed_fanOut target data isBinary except id

/-- On every other node: the fan-out of what it reads from the frame. -/
theorem lookup_broadcast_remote
    (hr : Ready c o (target.msg (allExcepts o except remoteExcept) data) isBinary)
    (hp : p ∈ c.ids) (hpo : p ≠ o) (id : ConnectionId) :
    (c.broadcast o target data isBinary except remoteExcept p).engine.conns.lookup id =
      ((c.node p).engine.conns.lookup id).map fun e =>
        if TargetedAt (c.node p) target id ∧
            NodeConnId.mk p id ∉ (exceptsRead (allExcepts o except remoteExcept) data).1 then
          e.push ⟨(exceptsRead (allExcepts o except remoteExcept) data).2, isBinary⟩
        else e := by
  unfold broadcast
  rw [after_of_ne _ hpo, newFrames_broadcastTo hr hp hpo]
  by_cases hmem : p ∈ (c.node o).relayPeers target
  · obtain ⟨hdeny, h, hlink, hrelays, hmax⟩ := hr.peer p hp hpo
    have hself : (c.node p).selfId = p := c.selfId_node p hp
    have hpush := (c.node p).pushed_deliverLocal target (allExcepts o except remoteExcept) data
      isBinary hr.name id
    rw [hself] at hpush
    rw [if_pos hmem, List.foldl_cons, List.foldl_nil,
      ClusterNode.receive_frame _ hlink (hrelays.mayEmit _) hmax hdeny, hpush]
  · -- nothing was sent, and there is no recipient
    have hnone : ¬ TargetedAt (c.node p) target id := fun hid => hmem (mem_relayPeers hr hp hpo hid)
    rw [if_neg hmem, List.foldl_nil]
    simp [hnone]

theorem links_broadcast_remote (hpo : p ≠ o) :
    (c.broadcast o target data isBinary except remoteExcept p).links = (c.node p).links := by
  unfold broadcast
  rw [after_of_ne _ hpo]
  generalize newFrames _ _ p = frames
  -- by induction on the frames, each of which leaves the links alone
  generalize c.node p = n
  induction frames generalizing n with
  | nil => rfl
  | cons bytes frames ih => rw [List.foldl_cons, ih, ClusterNode.links_receive]

/-- Both broadcasts do the same to every connection of every node. The entries
    carry the log of all pushes to them. -/
def Agrees (c : Cluster) (o : NodeId) (target : FanoutTarget) (data : Bytes) (isBinary : Bool)
    (except : List ConnectionId) (remoteExcept : List NodeConnId) : Prop :=
  ∀ p ∈ c.ids, ∀ id,
    (c.broadcast o target data isBinary except remoteExcept p).engine.conns.lookup id =
      (c.unionBroadcast target data isBinary (allExcepts o except remoteExcept)).lookup ⟨p, id⟩

theorem length_allExcepts (o : NodeId) (except : List ConnectionId)
    (remoteExcept : List NodeConnId) :
    (allExcepts o except remoteExcept).length = except.length + remoteExcept.length := by
  simp [allExcepts, nodeExcepts]

theorem mem_allExcepts_origin (hremote : ∀ e ∈ remoteExcept, e.node ≠ o) {id : ConnectionId} :
    NodeConnId.mk o id ∈ allExcepts o except remoteExcept ↔ id ∈ except := by
  unfold allExcepts nodeExcepts
  rw [List.mem_append, List.mem_map]
  constructor
  · rintro (⟨id', hid, heq⟩ | hmem)
    · obtain ⟨-, rfl⟩ := NodeConnId.mk.inj heq
      exact hid
    · exact absurd rfl (hremote _ hmem)
  · intro hid
    exact .inl ⟨id, hid, rfl⟩

/-- A push shows in the log of the entry. -/
theorem push_injective (e : Entry) {f f' : OutboundFrame} (h : e.push f = e.push f') : f = f' := by
  have hlog : (e.handle.push f).1.pushes = (e.handle.push f').1.pushes :=
    congrArg (fun e : Entry => e.handle.pushes) h
  rw [ConnHandle.pushes_push, ConnHandle.pushes_push] at hlog
  exact List.singleton_inj.mp (List.append_cancel_left hlog)

theorem push_ne_self (e : Entry) (f : OutboundFrame) : e.push f ≠ e := by
  intro h
  have hlog : (e.handle.push f).1.pushes = e.handle.pushes :=
    congrArg (fun e : Entry => e.handle.pushes) h
  rw [ConnHandle.pushes_push] at hlog
  exact absurd hlog (by simp)

/-- A list that wrapped leaves its tail in front of the payload. -/
theorem exceptsRead_payload_ne {excepts : List NodeConnId} (h : ¬ excepts.length < 65536) :
    (exceptsRead excepts data).2 ≠ data := by
  intro heq
  have hlen := congrArg List.length heq
  rw [exceptsRead, List.length_append, length_flatMap_putExcept, List.length_drop] at hlen
  have hmod : excepts.length % 65536 < 65536 := Nat.mod_lt _ (by decide)
  omega

/-- The relayed broadcast agrees with the broadcast over the union exactly when
    the combined except list fits its count, or every remote recipient is excepted
    by what the count leaves of it. -/
theorem agrees_iff (hr : Ready c o (target.msg (allExcepts o except remoteExcept) data) isBinary)
    (hremote : ∀ e ∈ remoteExcept, e.node ≠ o) :
    Agrees c o target data isBinary except remoteExcept ↔
      except.length + remoteExcept.length < 65536 ∨
      ∀ p ∈ c.ids, p ≠ o → ∀ id ∈ (c.node p).engine.conns, TargetedAt (c.node p) target id →
        NodeConnId.mk p id ∈ (allExcepts o except remoteExcept).take
          ((except.length + remoteExcept.length) % 65536) := by
  rw [← length_allExcepts o]
  have horigin : ∀ id,
      (c.broadcast o target data isBinary except remoteExcept o).engine.conns.lookup id =
        (c.unionBroadcast target data isBinary (allExcepts o except remoteExcept)).lookup
          ⟨o, id⟩ := by
    intro id
    rw [lookup_broadcast_origin, lookup_union hr.origin]
    simp only [mem_allExcepts_origin hremote]
  constructor
  · intro hagrees
    by_cases hfits : (allExcepts o except remoteExcept).length < 65536
    · exact .inl hfits
    · right
      intro p hp hpo id hid htarget
      by_contra hnot
      obtain ⟨e, he⟩ := Option.isSome_iff_exists.mp (AList.lookup_isSome.mpr hid)
      have hboth := hagrees p hp id
      rw [lookup_broadcast_remote hr hp hpo, lookup_union hp, he, Option.map_some, Option.map_some,
        if_pos ⟨htarget, hnot⟩] at hboth
      have hentry := Option.some.inj hboth
      split_ifs at hentry
      · have hframe := push_injective e hentry
        exact exceptsRead_payload_ne hfits (congrArg OutboundFrame.data hframe)
      · exact push_ne_self e _ hentry
  · intro h p hp id
    by_cases hpo : p = o
    · rw [hpo]
      exact horigin id
    · rw [lookup_broadcast_remote hr hp hpo, lookup_union hp]
      rcases h with hfits | hexcepted
      · rw [(exceptsRead_eq_iff _ data).mpr hfits]
      · cases he : (c.node p).engine.conns.lookup id with
        | none => rfl
        | some e =>
          have hid : id ∈ (c.node p).engine.conns := AList.lookup_isSome.mp (by rw [he]; rfl)
          by_cases htarget : TargetedAt (c.node p) target id
          · have htake := hexcepted p hp hpo id hid htarget
            have hread : NodeConnId.mk p id ∈
              (exceptsRead (allExcepts o except remoteExcept) data).1 := htake
            simp [hread, List.mem_of_mem_take htake]
          · simp [htarget]

/-- A broadcast on one node of a ready cluster, followed by the handling of every
    relayed frame, does to every connection what one broadcast over the disjoint
    union does, and no handling of a relayed frame sends a frame, exactly when
    both except lists together have fewer than 65536 entries or what is read of
    them excepts every remote recipient. -/
theorem broadcast_refines_union_iff (c : Cluster) (o : NodeId) (target : FanoutTarget)
    (data : Bytes) (isBinary : Bool) (except : List ConnectionId) (remoteExcept : List NodeConnId)
    (hr : Ready c o (target.msg (allExcepts o except remoteExcept) data) isBinary)
    (hremote : ∀ e ∈ remoteExcept, e.node ≠ o) :
    (Agrees c o target data isBinary except remoteExcept ∧
      ∀ p ∈ c.ids, p ≠ o →
        (c.broadcast o target data isBinary except remoteExcept p).links = (c.node p).links) ↔
      except.length + remoteExcept.length < 65536 ∨
      ∀ p ∈ c.ids, p ≠ o → ∀ id ∈ (c.node p).engine.conns, TargetedAt (c.node p) target id →
        NodeConnId.mk p id ∈ (allExcepts o except remoteExcept).take
          ((except.length + remoteExcept.length) % 65536) := by
  rw [← agrees_iff hr hremote]
  constructor
  · exact fun h => h.1
  · exact fun h => ⟨h, fun p _ hpo => links_broadcast_remote hpo⟩

end Cluster

namespace WrappedExcepts

open Cluster

/-- A link with the relay feature, an empty queue and the default limits. -/
def link (peer : NodeId) : LinkHandle :=
  { negotiated := ⟨1, featureRelay, 16777216, .initiator, peer, 0⟩
    queue := .new 1048576
    suppressedEmits := 0 }

/-- The engine of a node, before anything happens there. -/
def engine (p : NodeId) : Engine := .new .unlimited p .interest

/-- Node 1 has no connection, node 2 has the connection 0. -/
def node (p : NodeId) : ClusterNode :=
  let other : NodeId := if p = 1 then 2 else 1
  { engine := if p = 1 then engine p else (engine p).setUp 0 none
    alive := OrdSet.ofList [other]
    deny := ∅
    links := (∅ : Links).insert other (link other)
    relayOut := 0
    relayDrops := 0
    relayIn := 0 }

theorem selfId_node (p : NodeId) : (node p).selfId = p := by
  unfold ClusterNode.selfId node
  dsimp only
  split_ifs <;> rfl

/-- Both nodes, linked with each other. -/
def cluster : Cluster :=
  { ids := OrdSet.ofList [1, 2], node, selfId_node := fun p _ => selfId_node p }

theorem eq_two {p : NodeId} (hp : p ∈ OrdSet.ofList [1, 2]) (hpo : p ≠ 1) : p = 2 := by
  have hmem : p ∈ ([1, 2] : List NodeId) := OrdSet.mem_ofList.mp hp
  simpa [hpo] using hmem

/-- The cluster is ready for any except list of up to 65536 entries. -/
theorem ready {excepts : List NodeConnId} (h : excepts.length ≤ 65536) :
    Ready cluster 1 (FanoutTarget.all.msg excepts [1, 2, 3]) false := by
  have hbody : (FanoutTarget.all.msg excepts [1, 2, 3]).body.length = 5 + 10 * excepts.length := by
    show (putExcepts excepts ++ [1, 2, 3]).length = _
    simp [putExcepts]
    omega
  have hframe : ((FanoutTarget.all.msg excepts [1, 2, 3]).frame false).length =
      11 + 10 * excepts.length := by
    show (relayFrame .all false (putExcepts excepts) [1, 2, 3]).length = _
    simp [relayFrame, putExcepts]
    omega
  refine ⟨⟨by decide, trivial, ?_, ?_, ?_⟩, ?_⟩
  · intro p hp hpo
    rw [eq_two hp hpo]
    decide
  · intro p hp hpo
    rw [eq_two hp hpo, hframe]
    refine ⟨link 2, by decide, by decide, ?_⟩
    show 0 + _ ≤ 1048576
    omega
  · intro p hp hpo
    rw [eq_two hp hpo, hbody]
    refine ⟨by decide, link 1, by decide, by decide, ?_⟩
    show 2 + _ ≤ 16777216
    omega
  · intro p hp hpo t hcount
    rw [eq_two hp hpo] at hcount
    cases t <;> exact absurd rfl hcount

/-- With two short lists the connection on node 2 gets the payload once. -/
theorem agrees_short :
    Agrees cluster 1 .all [1, 2, 3] false [0] [⟨2, 1⟩] :=
  ((broadcast_refines_union_iff cluster 1 .all [1, 2, 3] false [0] [⟨2, 1⟩] (ready (by decide))
    (by decide)).mpr (.inl (by decide))).1

/-- 65535 local excepts, and one remote except that is not the connection 0. -/
def except : List ConnectionId := List.replicate 65535 7

/-- Connection 1 of node 2. -/
def remoteExcept : List NodeConnId := [⟨2, 1⟩]

theorem length_except : except.length = 65535 := List.length_replicate

theorem length_wrapped : (allExcepts 1 except remoteExcept).length = 65536 := by
  rw [length_allExcepts, length_except]
  rfl

/-- Both lists are short enough, but their count wraps to zero: node 2 excepts
    nobody and pushes all entries as part of the payload. -/
theorem not_agrees :
    except.length < 65536 ∧ remoteExcept.length < 65536 ∧ (∀ e ∈ remoteExcept, e.node ≠ 1) ∧
      Ready cluster 1 (FanoutTarget.all.msg (allExcepts 1 except remoteExcept) [1, 2, 3]) false ∧
      ((cluster.broadcast 1 .all [1, 2, 3] false except remoteExcept 2).engine.conns.lookup 0).map
        (fun e => e.handle.pushes) =
          some [⟨(allExcepts 1 except remoteExcept).flatMap putExcept ++ [1, 2, 3], false⟩] ∧
      ¬ Agrees cluster 1 .all [1, 2, 3] false except remoteExcept := by
  have hr := ready length_wrapped.le
  have hremote : ∀ e ∈ remoteExcept, e.node ≠ 1 := by decide
  have hread : exceptsRead (allExcepts 1 except remoteExcept) [1, 2, 3] =
      ([], (allExcepts 1 except remoteExcept).flatMap putExcept ++ [1, 2, 3]) := by
    rw [exceptsRead, length_wrapped]
    rfl
  obtain ⟨e, he, hlog⟩ : ∃ e, (cluster.node 2).engine.conns.lookup 0 = some e ∧
      e.handle.pushes = [] := ⟨_, rfl, rfl⟩
  refine ⟨by rw [length_except]; decide, by decide, hremote, hr, ?_, ?_⟩
  · rw [lookup_broadcast_remote hr (by decide) (by decide), he, Option.map_some, hread,
      if_pos ⟨trivial, List.not_mem_nil⟩, Option.map_some]
    show some (e.handle.push _).1.pushes = _
    rw [ConnHandle.pushes_push, hlog]
    rfl
  · rw [agrees_iff hr hremote, length_except]
    rintro (hfits | hexcepted)
    · exact absurd hfits (by decide)
    · have hmem := hexcepted 2 (by decide) (by decide) 0
        (AList.lookup_isSome.mp (by rw [he]; rfl)) trivial
      exact absurd hmem List.not_mem_nil

end WrappedExcepts

end BeamSocket.Core
