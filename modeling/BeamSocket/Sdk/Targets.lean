import BeamSocket.Core.ClusterSend
import BeamSocket.Sdk.SocketId

/-!
# Targets and the ids that name sockets

Model of the SDK's targeting (`packages/beamsocket/src/rooms.ts`;
`toSocket` and `disconnectSocket`, `server.ts`, lines 229–241 and 408–415), of the
native calls behind it (`crates/node/src/binding.rs`), and of the places that hand
out socket ids: `socket.id` carries the node of the server, the ids of
`presence(room).list()`, `user(id).connections()` and `backpressureReport()` do
not. An id without a node means the server it is used on.

* `addressed`: the connection a decoded id stands for on a node.
* `Target.sends_send`: whom a target reaches, over the whole cluster.
* `recipient_except`: `except` takes out the connection the id stands for.
* `socketId_uses_iff`: when an id does what it should, for each of its uses.
-/

namespace BeamSocket.Sdk

open BeamSocket.Lib BeamSocket.Mesh BeamSocket.Core

/-! ## Targets -/

/-- `TargetKind` (`rooms.ts`, lines 19–23); rooms, users and all connections are
    the fan-outs of the engine. -/
inductive TargetKind
  | socket (node : Option ℕ) (hi lo : ℕ)
  | fanout (target : FanoutTarget)

/-- `class Target` (lines 25–42), the flat arrays as lists of their groups. -/
structure Target where
  kind : TargetKind
  selfNode : Option NodeId
  excluded : List (ℕ × ℕ)
  excludedRemote : List (ℕ × ℕ × ℕ)

/-- The node of an id that names another server:
    `node !== undefined && node !== this.#selfNode`. -/
def remoteNode (selfNode : Option NodeId) (node : Option ℕ) : Option ℕ :=
  match node with
  | none => none
  | some k => if some k = selfNode.map UInt16.toNat then none else some k

/-- A target without exceptions: `toRoom`, `toUser` and `broadcast`. -/
def Target.new (selfNode : Option NodeId) (target : FanoutTarget) : Target :=
  ⟨.fanout target, selfNode, [], []⟩

/-- `toSocket` (`server.ts`, lines 229–241). -/
def toSocket (js : ParseIntApi 36) (selfNode : Option NodeId) (socketId : String) : Target :=
  match decodeSocketId js socketId with
  | some parsed => ⟨.socket parsed.node parsed.hi parsed.lo, selfNode, [], []⟩
  | none => ⟨.socket none 0xffffffff 0xffffffff, selfNode, [], []⟩

namespace Target

/-- `except` (lines 44–55). -/
def except (js : ParseIntApi 36) (t : Target) (socketId : String) : Target :=
  match decodeSocketId js socketId with
  | none => t
  | some parsed =>
    match remoteNode t.selfNode parsed.node with
    | some node =>
      { t with excludedRemote := t.excludedRemote ++ [(node, parsed.hi, parsed.lo)] }
    | none => { t with excluded := t.excluded ++ [(parsed.hi, parsed.lo)] }

end Target

/-- `conn_id` on two numbers, which the native layer takes modulo `2 ^ 32`. -/
def nativeId (hi lo : ℕ) : ConnectionId := connId (UInt32.ofNat hi) (UInt32.ofNat lo)

/-- `except_ids` (`binding.rs`, lines 971–978). -/
def exceptIds (pairs : List (ℕ × ℕ)) : List ConnectionId := pairs.map fun p => nativeId p.1 p.2

/-- `except_ids_remote` (lines 983–993); the node is cut to 16 bits. -/
def exceptIdsRemote (triples : List (ℕ × ℕ × ℕ)) : List NodeConnId :=
  triples.map fun t => ⟨UInt16.ofNat t.1, nativeId t.2.1 t.2.2⟩

namespace Target

/-- `send` (lines 58–126) on the server's node; a string is sent as text, a
    buffer as binary. -/
def send (t : Target) (n : ClusterNode) (data : Bytes) (isBinary : Bool) : ClusterNode :=
  match t.kind with
  | .socket node hi lo =>
    match remoteNode t.selfNode node with
    | some node =>
      if (node, hi, lo) ∈ t.excludedRemote then n
      else n.sendNode ⟨UInt16.ofNat node, nativeId hi lo⟩ data isBinary
    | none =>
      if (hi, lo) ∈ t.excluded then n else n.send (nativeId hi lo) data isBinary
  | .fanout target =>
    (n.broadcastTo target data isBinary (exceptIds t.excluded)
      (exceptIdsRemote t.excludedRemote)).1

end Target

/-- `disconnectSocket` (`server.ts`, lines 408–415): the node of the id is not
    looked at. -/
def disconnectSocket (js : ParseIntApi 36) (n : ClusterNode) (socketId : String) (code : UInt16) :
    ClusterNode :=
  match decodeSocketId js socketId with
  | none => n
  | some parsed => n.adminDisconnectSocket (nativeId parsed.hi parsed.lo) code

/-- The ids a server hands out for a connection of its node. -/
inductive HandsOut (n : ClusterNode) (selfNode : Option NodeId) (id : ConnectionId) : String → Prop
  /-- `socket.id` (`socket.ts`, line 49). -/
  | socketId : HandsOut n selfNode id (encodeSocketId (idHi id) (idLo id) selfNode)
  /-- `presence(room).list()` (`presence.ts`, lines 34–41). -/
  | presence {room : RoomId} (h : id ∈ n.engine.rooms.memberSet room) :
      HandsOut n selfNode id (encodeSocketId (idHi id) (idLo id) none)
  /-- `user(id).connections()` (`server.ts`, lines 372–382). -/
  | connections {user : UserId} (h : id ∈ n.engine.identity.devices user) :
      HandsOut n selfNode id (encodeSocketId (idHi id) (idLo id) none)
  /-- `backpressureReport()` (`server.ts`, lines 352–364). -/
  | backpressureReport : HandsOut n selfNode id (encodeSocketId (idHi id) (idLo id) none)

/-! ## What an id stands for -/

/-- The connection that a decoded id stands for on node `m`. -/
def addressed (m : NodeId) (node : Option ℕ) (hi lo : ℕ) : NodeConnId :=
  ⟨((remoteNode (some m) node).map UInt16.ofNat).getD m, nativeId hi lo⟩

theorem nativeId_halves (id : ConnectionId) : nativeId (idHi id).toNat (idLo id).toNat = id := by
  unfold nativeId
  rw [UInt32.ofNat_toNat, UInt32.ofNat_toNat, connId_halves]

/-- An id without a node means `m`. -/
theorem remoteNode_map (m : NodeId) (node : Option NodeId) :
    remoteNode (some m) (node.map UInt16.toNat) =
      if node.getD m = m then none else some (node.getD m).toNat := by
  unfold remoteNode
  cases node with
  | none => simp
  | some q => simp [UInt16.toNat_inj]

theorem addressed_encoded (m : NodeId) (node : Option NodeId) (hi lo : UInt32) :
    addressed m (node.map UInt16.toNat) hi.toNat lo.toNat = ⟨node.getD m, connId hi lo⟩ := by
  unfold addressed nativeId
  rw [remoteNode_map, UInt32.ofNat_toNat, UInt32.ofNat_toNat]
  split_ifs with h
  · rw [h]
    rfl
  · simp

theorem addressed_map (m : NodeId) (node : Option NodeId) (id : ConnectionId) :
    addressed m (node.map UInt16.toNat) (idHi id).toNat (idLo id).toNat = ⟨node.getD m, id⟩ := by
  rw [addressed_encoded, connId_halves]

theorem HandsOut.exists_node {n : ClusterNode} {q : NodeId} {id : ConnectionId} {s : String}
    (h : HandsOut n (some q) id s) :
    ∃ node, (node = none ∨ node = some q) ∧ s = encodeSocketId (idHi id) (idLo id) node := by
  cases h with
  | socketId => exact ⟨some q, .inr rfl, rfl⟩
  | presence _ => exact ⟨none, .inl rfl, rfl⟩
  | connections _ => exact ⟨none, .inl rfl, rfl⟩
  | backpressureReport => exact ⟨none, .inl rfl, rfl⟩

/-- The halves determine the id. -/
theorem halves_inj {id id' : ConnectionId} :
    ((idHi id).toNat, (idLo id).toNat) = ((idHi id').toNat, (idLo id').toNat) ↔ id = id' := by
  constructor
  · intro h
    obtain ⟨hhi, hlo⟩ := Prod.mk.inj h
    rw [← nativeId_halves id, hhi, hlo, nativeId_halves]
  · rintro rfl
    rfl

/-! ## Whom a target reaches -/

namespace Target

/-- The numbers of a socket target are among its exceptions. -/
def ExceptsSelf (t : Target) (node : Option ℕ) (hi lo : ℕ) : Prop :=
  match remoteNode t.selfNode node with
  | some node => (node, hi, lo) ∈ t.excludedRemote
  | none => (hi, lo) ∈ t.excluded

/-- Whether a target of node `m` reaches the connection. -/
def Recipient (c : Cluster) (m : NodeId) (t : Target) (k : NodeConnId) : Prop :=
  match t.kind with
  | .socket node hi lo => k = addressed m node hi lo ∧ ¬ t.ExceptsSelf node hi lo
  | .fanout target => Cluster.TargetedAt (c.node k.node) target k.conn ∧
      ¬ Cluster.Excepted m (exceptIds t.excluded) (exceptIdsRemote t.excludedRemote) k

/-- What a send of the target relays. -/
def msg (t : Target) (m : NodeId) (data : Bytes) : RelayMsg :=
  match t.kind with
  | .socket _ hi lo => .socket (nativeId hi lo) data
  | .fanout target => target.msg (Cluster.allExcepts m (exceptIds t.excluded)
      (exceptIdsRemote t.excludedRemote)) data

variable {c : Cluster} {m : NodeId} {t : Target} {data : Bytes} {isBinary : Bool}

theorem sends_send (hself : t.selfNode = some m) (hr : Cluster.Ready c m (t.msg m data) isBinary)
    (hfits : t.excluded.length + t.excludedRemote.length < 65536) :
    Cluster.Sends c (c.after m (t.send (c.node m) data isBinary)) ⟨data, isBinary⟩
      (t.Recipient c m) := by
  unfold send Recipient
  unfold msg at hr
  cases hkind : t.kind with
  | socket node hi lo =>
    rw [hkind] at hr
    unfold ExceptsSelf addressed
    rw [hself]
    dsimp only
    cases remoteNode (some m) node with
    | some k =>
      dsimp only
      split_ifs with hmem
      · exact Cluster.sends_nothing.congr fun k => by simp [hmem]
      · exact (Cluster.sends_sendNode hr).congr fun k => by simp [hmem]
    | none =>
      dsimp only
      split_ifs with hmem
      · exact Cluster.sends_nothing.congr fun k => by simp [hmem]
      · exact (Cluster.sends_send _ data isBinary).congr fun k => by simp [hmem]
  | fanout target =>
    rw [hkind] at hr
    exact Cluster.sends_broadcast hr (by simpa [exceptIds, exceptIdsRemote] using hfits)

theorem kind_except (js : ParseIntApi 36) (t : Target) (s : String) :
    (t.except js s).kind = t.kind := by
  unfold except
  split
  · rfl
  · split
    · rfl
    · rfl

theorem selfNode_except (js : ParseIntApi 36) (t : Target) (s : String) :
    (t.except js s).selfNode = t.selfNode := by
  unfold except
  split
  · rfl
  · split
    · rfl
    · rfl

end Target

/-- The targets that can be built on node `m`, those of single sockets from ids
    that were handed out. -/
inductive Built (js : ParseIntApi 36) (c : Cluster) (m : NodeId) : Target → Prop
  | fanout (target : FanoutTarget) : Built js c m (Target.new (some m) target)
  | socket {q : NodeId} {id : ConnectionId} {s : String} (hs : HandsOut (c.node q) (some q) id s) :
      Built js c m (toSocket js (some m) s)
  | except {t : Target} (s : String) (ht : Built js c m t) : Built js c m (t.except js s)

section

variable {js : ParseIntApi 36} {c : Cluster} {m : NodeId} {t : Target}

theorem Built.selfNode (h : Built js c m t) : t.selfNode = some m := by
  induction h with
  | fanout target => rfl
  | socket hs =>
    unfold toSocket
    split
    · rfl
    · rfl
  | except s _ ih => rw [Target.selfNode_except, ih]

/-- The numbers of a socket target come from a connection id. -/
theorem Built.kind (h : Built js c m t) : (∃ target, t.kind = .fanout target) ∨
    ∃ (node : Option NodeId) (id : ConnectionId),
      t.kind = .socket (node.map UInt16.toNat) (idHi id).toNat (idLo id).toNat := by
  induction h with
  | fanout target => exact .inl ⟨target, rfl⟩
  | @socket q id s hs =>
    obtain ⟨node, -, rfl⟩ := hs.exists_node
    refine .inr ⟨node, id, ?_⟩
    unfold toSocket
    rw [decodeSocketId_encodeSocketId]
  | except s _ ih =>
    rw [Target.kind_except]
    exact ih

/-- What `except` adds to the lists. -/
theorem except_encodeSocketId (hself : t.selfNode = some m) (id : ConnectionId)
    (node : Option NodeId) :
    t.except js (encodeSocketId (idHi id) (idLo id) node) =
      if node.getD m = m then
        { t with excluded := t.excluded ++ [((idHi id).toNat, (idLo id).toNat)] }
      else
        { t with
          excludedRemote := t.excludedRemote ++
            [((node.getD m).toNat, (idHi id).toNat, (idLo id).toNat)] } := by
  unfold Target.except
  rw [decodeSocketId_encodeSocketId]
  dsimp only
  rw [hself, remoteNode_map]
  split_ifs with h
  · rfl
  · rfl

/-- The comparison of a socket target with its exceptions, by node and id. -/
theorem exceptsSelf_iff (hself : t.selfNode = some m) (node : Option NodeId) (id : ConnectionId) :
    t.ExceptsSelf (node.map UInt16.toNat) (idHi id).toNat (idLo id).toNat ↔
      if node.getD m = m then ((idHi id).toNat, (idLo id).toNat) ∈ t.excluded
      else ((node.getD m).toNat, (idHi id).toNat, (idLo id).toNat) ∈ t.excludedRemote := by
  unfold Target.ExceptsSelf
  rw [hself, remoteNode_map]
  split_ifs with h
  · exact Iff.rfl
  · exact Iff.rfl

/-- A socket target is excepted by the id that stands for the same connection. -/
theorem exceptsSelf_except (hself : t.selfNode = some m) (node₀ node : Option NodeId)
    (id₀ id : ConnectionId) :
    (t.except js (encodeSocketId (idHi id) (idLo id) node)).ExceptsSelf (node₀.map UInt16.toNat)
        (idHi id₀).toNat (idLo id₀).toNat ↔
      t.ExceptsSelf (node₀.map UInt16.toNat) (idHi id₀).toNat (idLo id₀).toNat ∨
        NodeConnId.mk (node₀.getD m) id₀ = ⟨node.getD m, id⟩ := by
  rw [exceptsSelf_iff ((t.selfNode_except js _).trans hself), exceptsSelf_iff hself,
    except_encodeSocketId hself, NodeConnId.mk.injEq]
  generalize node₀.getD m = q₀
  generalize node.getD m = q
  by_cases hq : q = m
  · rw [if_pos hq, hq]
    by_cases hq₀ : q₀ = m
    · rw [if_pos hq₀, if_pos hq₀, List.mem_append, List.mem_singleton, halves_inj]
      simp [hq₀]
    · rw [if_neg hq₀, if_neg hq₀]
      simp [hq₀]
  · rw [if_neg hq]
    by_cases hq₀ : q₀ = m
    · have hne : ¬ m = q := fun h => hq h.symm
      rw [if_pos hq₀, if_pos hq₀, hq₀]
      simp [hne]
    · rw [if_neg hq₀, if_neg hq₀, List.mem_append, List.mem_singleton, Prod.mk.injEq, halves_inj,
        UInt16.toNat_inj]

/-- `except` takes out the connection that the id stands for, and no other. -/
theorem recipient_except (hb : Built js c m t) (id : ConnectionId) (node : Option NodeId)
    (k : NodeConnId) :
    (t.except js (encodeSocketId (idHi id) (idLo id) node)).Recipient c m k ↔
      t.Recipient c m k ∧ k ≠ ⟨node.getD m, id⟩ := by
  have hself := hb.selfNode
  unfold Target.Recipient
  rw [Target.kind_except]
  rcases hb.kind with ⟨target, hkind⟩ | ⟨node₀, id₀, hkind⟩
  · -- a fan-out: the lists of the native call grow by the id
    have hexcepted : Cluster.Excepted m
        (exceptIds (t.except js (encodeSocketId (idHi id) (idLo id) node)).excluded)
        (exceptIdsRemote (t.except js (encodeSocketId (idHi id) (idLo id) node)).excludedRemote) k ↔
        Cluster.Excepted m (exceptIds t.excluded) (exceptIdsRemote t.excludedRemote) k ∨
          k = ⟨node.getD m, id⟩ := by
      rw [except_encodeSocketId hself]
      split_ifs with hq
      · rw [hq, ← nativeId_halves id, ← Cluster.excepted_append]
        simp [exceptIds, nativeId_halves]
      · rw [← Cluster.excepted_append_remote _ _ hq]
        simp [exceptIdsRemote, nativeId_halves]
    rw [hkind]
    dsimp only
    rw [hexcepted, not_or, and_assoc]
  · -- a socket: its numbers are compared with those of the id
    rw [hkind]
    dsimp only
    rw [exceptsSelf_except hself, addressed_map, not_or, and_assoc]
    constructor
    · rintro ⟨rfl, hnot, hne⟩
      exact ⟨rfl, hnot, hne⟩
    · rintro ⟨rfl, hnot, hne⟩
      exact ⟨rfl, hnot, hne⟩

/-! ## The uses of an id -/

/-- An id stands for its connection on the node that handed it out, and anywhere
    if it carries the node. -/
theorem getD_eq_iff {q : NodeId} {id : ConnectionId} {node : Option NodeId}
    (hnode : node = none ∨ node = some q) :
    node.getD m = q ↔ m = q ∨
      encodeSocketId (idHi id) (idLo id) node = encodeSocketId (idHi id) (idLo id) (some q) := by
  rcases hnode with rfl | rfl
  · constructor
    · exact .inl
    · rintro (h | h)
      · exact h
      · cases (encodeSocketId_inj h).1
  · exact iff_of_true rfl (.inr rfl)

theorem toSocket_encodeSocketId (id : ConnectionId) (node : Option NodeId) :
    toSocket js (some m) (encodeSocketId (idHi id) (idLo id) node) =
      ⟨.socket (node.map UInt16.toNat) (idHi id).toNat (idLo id).toNat, some m, [], []⟩ := by
  unfold toSocket
  rw [decodeSocketId_encodeSocketId]

theorem recipient_toSocket (id : ConnectionId) (node : Option NodeId) (k : NodeConnId) :
    (toSocket js (some m) (encodeSocketId (idHi id) (idLo id) node)).Recipient c m k ↔
      k = ⟨node.getD m, id⟩ := by
  rw [toSocket_encodeSocketId]
  show k = addressed m _ _ _ ∧ ¬ Target.ExceptsSelf _ _ _ _ ↔ _
  rw [addressed_map, exceptsSelf_iff rfl]
  simp

variable {q : NodeId} {id : ConnectionId} {s : String} {data : Bytes} {isBinary : Bool}

/-- A send reaches the connection if and only if the id was handed out on `m` or
    carries the node. -/
theorem toSocket_send_iff (hlive : Cluster.Live c ⟨q, id⟩) (hs : HandsOut (c.node q) (some q) id s)
    (hr : Cluster.Ready c m (.socket id data) isBinary) :
    Cluster.Sends c (c.after m ((toSocket js (some m) s).send (c.node m) data isBinary))
        ⟨data, isBinary⟩ (· = ⟨q, id⟩) ↔
      m = q ∨ s = encodeSocketId (idHi id) (idLo id) (some q) := by
  obtain ⟨node, hnode, rfl⟩ := hs.exists_node
  have hsends : Cluster.Sends c (c.after m ((toSocket js (some m)
      (encodeSocketId (idHi id) (idLo id) node)).send (c.node m) data isBinary))
      ⟨data, isBinary⟩ (· = ⟨node.getD m, id⟩) := by
    refine (Target.sends_send (Built.socket hs).selfNode ?_ ?_).congr (recipient_toSocket id node)
    · rw [toSocket_encodeSocketId]
      show Cluster.Ready c m (.socket (nativeId _ _) data) isBinary
      rw [nativeId_halves]
      exact hr
    · rw [toSocket_encodeSocketId]
      exact Nat.zero_lt_succ _
  rw [Cluster.sends_iff hsends, ← getD_eq_iff hnode]
  constructor
  · intro hsame
    exact congrArg NodeConnId.node ((hsame ⟨q, id⟩ hlive).mpr rfl).symm
  · intro hq k _
    rw [hq]

/-- An exception takes out the connection if and only if the same holds, or
    nothing that the id can stand for is a recipient. -/
theorem except_send_iff (hs : HandsOut (c.node q) (some q) id s) {t : Target} (hb : Built js c m t)
    (hr : Cluster.Ready c m ((t.except js s).msg m data) isBinary)
    (hfits : (t.except js s).excluded.length + (t.except js s).excludedRemote.length < 65536) :
    Cluster.Sends c (c.after m ((t.except js s).send (c.node m) data isBinary)) ⟨data, isBinary⟩
        (fun k => t.Recipient c m k ∧ k ≠ ⟨q, id⟩) ↔
      m = q ∨ s = encodeSocketId (idHi id) (idLo id) (some q) ∨
        ∀ p ∈ [q, m], Cluster.Live c ⟨p, id⟩ → ¬ t.Recipient c m ⟨p, id⟩ := by
  obtain ⟨node, hnode, rfl⟩ := hs.exists_node
  have hself := (t.selfNode_except js (encodeSocketId (idHi id) (idLo id) node)).trans hb.selfNode
  have hsends := (Target.sends_send hself hr hfits).congr (recipient_except hb id node)
  rw [Cluster.sends_iff hsends, ← or_assoc, ← getD_eq_iff hnode]
  have hgetD : node.getD m = q ∨ node.getD m = m := by
    rcases hnode with rfl | rfl
    · exact .inr rfl
    · exact .inl rfl
  constructor
  · intro hsame
    refine or_iff_not_imp_left.mpr fun hq p hp hlive hrec => ?_
    -- without its node the id stands for the connection on `m`
    have hm : node.getD m = m := hgetD.resolve_left hq
    have hiff := hsame ⟨p, id⟩ hlive
    rw [hm] at hiff hq
    simp only [NodeConnId.mk.injEq, ne_eq, and_true, hrec, true_and, not_iff_not] at hiff
    rcases List.mem_pair.mp hp with rfl | rfl
    · exact hq (hiff.mpr rfl).symm
    · exact hq (hiff.mp rfl)
  · rintro (hq | hnone) k hk
    · rw [hq]
    · rw [and_congr_right_iff]
      intro hrec
      have hne : ∀ p ∈ [q, m], k ≠ ⟨p, id⟩ := by
        rintro p hp rfl
        exact hnone p hp hk hrec
      exact iff_of_true (hne _ (List.mem_pair.mpr hgetD)) (hne q (List.mem_cons_self ..))

/-- A disconnect leaves every other connection alone if and only if the id was
    handed out on `m` or names no connection of `m`. -/
theorem disconnectSocket_iff (hm : m ∈ c.ids) (hs : HandsOut (c.node q) (some q) id s)
    (code : UInt16) :
    (∀ p ∈ c.ids, ∀ id', NodeConnId.mk p id' ≠ ⟨q, id⟩ →
        (c.after m (disconnectSocket js (c.node m) s code) p).engine.conns.lookup id' =
          (c.node p).engine.conns.lookup id') ↔
      m = q ∨ id ∉ (c.node m).engine.conns := by
  obtain ⟨node, hnode, rfl⟩ := hs.exists_node
  have hclose : disconnectSocket js (c.node m) (encodeSocketId (idHi id) (idLo id) node) code =
      (c.node m).adminDisconnectSocket id code := by
    unfold disconnectSocket
    rw [decodeSocketId_encodeSocketId]
    dsimp only
    rw [nativeId_halves]
  simp only [hclose, Cluster.lookup_adminDisconnectSocket]
  constructor
  · intro hothers
    refine or_iff_not_imp_left.mpr fun hmq => ?_
    have hlookup := hothers m hm id (by simpa using hmq)
    rw [if_pos rfl] at hlookup
    exact AList.lookup_eq_none.mp hlookup.symm
  · rintro (rfl | hmem) p hp id' hne
    · rw [if_neg hne]
    · split_ifs with heq
      · obtain ⟨rfl, rfl⟩ := NodeConnId.mk.inj heq
        exact (AList.lookup_eq_none.mpr hmem).symm
      · rfl

end

namespace TwinIds

open Cluster

/-- The JavaScript implementation of both nodes. -/
def js : ParseIntApi 36 := .rounding 36

/-- A node with one connection, which has the local id 0, and a link to the other
    node. -/
def node (p : NodeId) : ClusterNode :=
  { WrappedExcepts.node p with engine := (WrappedExcepts.engine p).setUp 0 none }

/-- Both nodes. -/
def cluster : Cluster :=
  { ids := OrdSet.ofList [1, 2], node, selfId_node := fun _ _ => rfl }

theorem ready : Ready cluster 1 (.socket 0 [104, 105]) false := by
  refine ⟨⟨by decide, trivial, ?_, ?_, ?_⟩, ?_⟩
  · intro p hp hpo
    rw [WrappedExcepts.eq_two hp hpo]
    decide
  · intro p hp hpo
    rw [WrappedExcepts.eq_two hp hpo]
    exact ⟨WrappedExcepts.link 2, by decide, by decide, by decide⟩
  · intro p hp hpo
    rw [WrappedExcepts.eq_two hp hpo]
    exact ⟨by decide, WrappedExcepts.link 1, by decide, by decide, by decide⟩
  · intro p hp hpo t hcount
    rw [WrappedExcepts.eq_two hp hpo] at hcount
    cases t <;> exact absurd rfl hcount

theorem live (p : NodeId) (hp : p ∈ cluster.ids) : Live cluster ⟨p, 0⟩ := by
  refine ⟨hp, ?_⟩
  by_cases h : p = 1
  · rw [h]
    decide
  · rw [WrappedExcepts.eq_two hp h]
    decide

end TwinIds

end BeamSocket.Sdk
