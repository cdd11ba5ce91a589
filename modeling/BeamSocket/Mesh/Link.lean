import BeamSocket.Lib.OrdSet
import BeamSocket.Mesh.Handshake

/-!
# Links

Model of the sending and receiving halves of an established link: the bounded
outbound queue (`crates/mesh/src/queue.rs`), sender suppression and `dispatch`
(`crates/mesh/src/link.rs`), and `MeshNode::relay` (`crates/mesh/src/node.rs`,
lines 534–572), which builds one frame and enqueues it to every peer.

* `relayFrame_eq_encode`: the frame `relay` builds by hand is the encoding of the
  frame with that body.
* `lookup_relay`: what relaying to distinct peers does to every link.
* `dispatch_of_mayEmit`: a relay frame on a link that negotiated the feature is
  handed to the inbound hook.
-/

namespace BeamSocket.Mesh

open BeamSocket.Lib

/-! ## The outbound queue -/

/-- `enum PushOutcome` (`queue.rs`, lines 33–36). -/
inductive EnqueueOutcome
  | enqueued
  | dropped
  deriving DecidableEq, Repr

/-- `struct PeerQueue` (lines 40–54). -/
structure PeerQueue where
  frames : List Bytes
  queuedBytes : ℕ
  hwmBytes : ℕ
  drops : ℕ
  closed : Bool
  deriving DecidableEq, Repr

/-- `PeerQueue::new`. -/
def PeerQueue.new (hwmBytes : ℕ) : PeerQueue :=
  { frames := [], queuedBytes := 0, hwmBytes, drops := 0, closed := false }

/-- `PeerQueue::push` (lines 74–86). -/
def PeerQueue.push (q : PeerQueue) (frame : Bytes) : PeerQueue × EnqueueOutcome :=
  if q.queuedBytes + frame.length > q.hwmBytes then ({ q with drops := q.drops + 1 }, .dropped)
  else
    ({ q with frames := q.frames ++ [frame], queuedBytes := q.queuedBytes + frame.length },
      .enqueued)

/-- `enum LinkState` (`link.rs`, lines 48–53). -/
inductive LinkState
  | up
  | closing
  | closed
  | refused
  deriving DecidableEq, Repr

/-- `struct LinkHandle` (`link.rs`, lines 107–115), with the counter that sender
    suppression advances. -/
structure LinkHandle where
  negotiated : Negotiated
  queue : PeerQueue
  suppressedEmits : ℕ
  deriving DecidableEq, Repr

/-- `try_send_encoded` (lines 160–170); `none` is `Err(Suppressed)`. -/
def LinkHandle.trySendEncoded (h : LinkHandle) (kind : FrameKind) (frame : Bytes) :
    LinkHandle × Option EnqueueOutcome :=
  if h.negotiated.mayEmit kind then
    let (queue, outcome) := h.queue.push frame
    ({ h with queue }, some outcome)
  else ({ h with suppressedEmits := h.suppressedEmits + 1 }, none)

theorem LinkHandle.frames_trySendEncoded {h : LinkHandle} {kind : FrameKind} {frame : Bytes}
    (hemit : h.negotiated.mayEmit kind = true)
    (hroom : h.queue.queuedBytes + frame.length ≤ h.queue.hwmBytes) :
    (h.trySendEncoded kind frame).1.queue.frames = h.queue.frames ++ [frame] := by
  unfold trySendEncoded PeerQueue.push
  rw [if_pos hemit, if_neg (not_lt.mpr hroom)]

/-! ## Relaying -/

/-- `enum RelayKind` (`node.rs`, lines 50–55). -/
inductive RelayKind
  | room
  | user
  | all
  | socket
  deriving DecidableEq, Repr

/-- `RelayKind::frame_kind`. -/
def RelayKind.frameKind : RelayKind → FrameKind
  | .room => .relayRoom
  | .user => .relayUser
  | .all => .relayAll
  | .socket => .relaySocket

/-- `RelayKind::from_frame_kind`. -/
def RelayKind.fromFrameKind : FrameKind → Option RelayKind
  | .relayRoom => some .room
  | .relayUser => some .user
  | .relayAll => some .all
  | .relaySocket => some .socket
  | _ => none

@[simp] theorem RelayKind.fromFrameKind_frameKind (k : RelayKind) :
    RelayKind.fromFrameKind k.frameKind = some k := by cases k <;> rfl

/-- `struct RelaySendReport` (lines 85–95). -/
structure RelaySendReport where
  sent : ℕ
  dropped : ℕ
  suppressed : ℕ
  noLink : ℕ
  deriving DecidableEq, Repr

/-- The frame `relay` builds (lines 542–552). -/
def relayFrame (kind : RelayKind) (isBinary : Bool) (metadata payload : Bytes) : Bytes :=
  let bodyLen := metadata.length + payload.length
  toLe 4 (2 + bodyLen) ++ [kind.frameKind.asU8, if isBinary then flagBinary else flagNone] ++
    metadata ++ payload

theorem relayFrame_eq_encode (kind : RelayKind) (isBinary : Bool) (metadata payload : Bytes) :
    relayFrame kind isBinary metadata payload =
      (Frame.mk kind.frameKind (if isBinary then flagBinary else flagNone)
        (metadata ++ payload)).encode := by
  simp [relayFrame, Frame.encode]

/-- The links of a node, by peer. -/
abbrev Links := AList fun _ : NodeId => LinkHandle

/-- One peer of `relay` (lines 561–570). -/
def relayStep (kind : RelayKind) (frame : Bytes) (st : Links × RelaySendReport) (p : NodeId) :
    Links × RelaySendReport :=
  match st.1.lookup p with
  | none => (st.1, { st.2 with noLink := st.2.noLink + 1 })
  | some h =>
    let (h, outcome) := h.trySendEncoded kind.frameKind frame
    (st.1.insert p h,
      match outcome with
      | some .enqueued => { st.2 with sent := st.2.sent + 1 }
      | some .dropped => { st.2 with dropped := st.2.dropped + 1 }
      | none => { st.2 with suppressed := st.2.suppressed + 1 })

/-- `MeshNode::relay` (lines 534–572) on the node's links. -/
def relay (links : Links) (peers : List NodeId) (kind : RelayKind) (isBinary : Bool)
    (metadata payload : Bytes) : Links × RelaySendReport :=
  peers.foldl (relayStep kind (relayFrame kind isBinary metadata payload)) (links, ⟨0, 0, 0, 0⟩)

theorem lookup_relayStep (kind : RelayKind) (frame : Bytes) (st : Links × RelaySendReport)
    (p q : NodeId) :
    (relayStep kind frame st p).1.lookup q = (st.1.lookup q).map
      fun h => if q = p then (h.trySendEncoded kind.frameKind frame).1 else h := by
  unfold relayStep
  cases hp : st.1.lookup p with
  | none =>
    by_cases h : q = p
    · rw [h, hp]; rfl
    · simp [h]
  | some h =>
    dsimp only
    rw [lookup_insert]
    split_ifs with hq
    · rw [hq, hp]; rfl
    · simp

/-- Relaying to distinct peers tries to send the frame once on each of their
    links, and on no other. -/
theorem lookup_relay {peers : List NodeId} (hnd : peers.Nodup) (links : Links) (kind : RelayKind)
    (isBinary : Bool) (metadata payload : Bytes) (q : NodeId) :
    (relay links peers kind isBinary metadata payload).1.lookup q = (links.lookup q).map fun h =>
      if q ∈ peers then
        (h.trySendEncoded kind.frameKind (relayFrame kind isBinary metadata payload)).1
      else h := by
  have hfold := lookup_foldl_update (f := fun _ h =>
    (h.trySendEncoded kind.frameKind (relayFrame kind isBinary metadata payload)).1)
    (lookup_relayStep kind (relayFrame kind isBinary metadata payload)) hnd
    (links, ⟨0, 0, 0, 0⟩) q
  exact hfold

/-! ## Receiving -/

/-- `is_feature_gated` (`link.rs`, lines 646–656). -/
def isFeatureGated : FrameKind → Bool
  | .interest | .interestDigest | .relayRoom | .relayUser | .relayAll | .relaySocket => true
  | .hello | .challenge | .auth | .membership | .ping => false

/-- What `dispatch` does with a frame. -/
inductive Dispatched
  /-- Counted in `unknown_frames`. -/
  | unknown
  | pongReceived
  /-- A PONG is queued. -/
  | answerPing
  /-- Handed to the inbound hook. -/
  | inbound (frame : Frame)
  /-- A handshake kind after the handshake. -/
  | ignored
  deriving DecidableEq

/-- `dispatch` (lines 512–557). -/
def dispatch (negotiated : Negotiated) (kindByte flags : UInt8) (body : Bytes) : Dispatched :=
  match FrameKind.fromU8 kindByte with
  | none => .unknown
  | some kind =>
    if isFeatureGated kind && !negotiated.mayEmit kind then .unknown
    else
      match kind with
      | .ping => if Flags.has flags flagPong then .pongReceived else .answerPing
      | .membership | .interest | .interestDigest | .relayRoom | .relayUser | .relayAll
      | .relaySocket => .inbound ⟨kind, flags, body⟩
      | .hello | .challenge | .auth => .ignored

theorem dispatch_of_mayEmit {negotiated : Negotiated} {kind : RelayKind}
    (h : negotiated.mayEmit kind.frameKind = true) (flags : UInt8) (body : Bytes) :
    dispatch negotiated kind.frameKind.asU8 flags body =
      .inbound ⟨kind.frameKind, flags, body⟩ := by
  unfold dispatch
  rw [FrameKind.fromU8_asU8]
  cases kind <;> simp [h] <;> rfl

end BeamSocket.Mesh
