import BeamSocket.Core.ClusterNode
import BeamSocket.Core.Config
import BeamSocket.Mesh.Linkup

/-!
# Links between configured nodes

What an accepted configuration guarantees of the links it leads to. Four bounds
meet here that are chosen independently: the length of the cluster name, the
frame sizes of the link, the payload limit of the server and the high-water mark
of the outbound queue.

* `accepted_completes_iff`: nodes with accepted configurations complete their
  handshake if and only if the HELLO fits. `LinkConfig::validate` bounds the name
  and the frame size, but not their sum; `Config::validate` bounds no name.
* `crosses_iff`: a relayed message is sent and accepted if and only if its frame
  fits the empty queue.
* `payloads_cross_iff`: every message within the limits of the server crosses if
  and only if the payload limit leaves 1265 bytes of the queue's 1 MiB, which the
  default payload limit does not.
-/

namespace BeamSocket.Core

open BeamSocket.Lib BeamSocket.Mesh

variable {ν : Type} {parseCidr : String → Except String ν} {hmac : Hmac}

/-! ## Linking -/

/-- The two ways a link configuration is accepted at startup: it passes
    `LinkConfig::validate`, or `link_cfg` builds it from a cluster block of an
    accepted server configuration. -/
def Accepted (parseCidr : String → Except String ν) (cfg : Bool → LinkConfig) : Prop :=
  (∀ s, (cfg s).validate = .ok ()) ∨
    ∃ (core : Bool → Config) (cluster : Bool → ClusterConfig), ∀ s,
      (core s).validate parseCidr = .ok () ∧ (core s).cluster = some (cluster s) ∧
        cfg s = (cluster s).linkCfg

theorem le_maxFrame_of_validate {c : LinkConfig} (h : c.validate = .ok ()) :
    minFrameFloor ≤ c.maxFrame := by
  unfold LinkConfig.validate at h
  split_ifs at h with h1 h2 h3
  exact UInt32.not_lt.mp fun hlt => h3 (.inl hlt)

theorem Accepted.floor {cfg : Bool → LinkConfig} (h : Accepted parseCidr cfg) (s : Bool) :
    minFrameFloor ≤ (cfg s).maxFrame := by
  rcases h with hvalid | ⟨core, cluster, hcore⟩
  · exact le_maxFrame_of_validate (hvalid s)
  · rw [(hcore s).2.2]
    show minFrameFloor ≤ defaultMaxFrame
    decide

/-- Two nodes of one cluster, at most one protocol version apart, whose
    configurations are accepted complete their handshake if and only if the
    cluster name has at most 255 bytes and the HELLO frame fits both frame
    sizes. -/
theorem accepted_completes_iff {cfg : Bool → LinkConfig} (haccepted : Accepted parseCidr cfg)
    (hsecret : (cfg true).secret = (cfg false).secret)
    (hname : (cfg true).clusterName = (cfg false).clusterName)
    (hid : (cfg true).nodeId ≠ (cfg false).nodeId)
    (hversion : Nat.dist (cfg true).protocolVersion.toNat (cfg false).protocolVersion.toNat ≤ 1)
    (fresh : Bool → Bytes32) :
    Linkup.Completes hmac cfg (Linkup.start cfg fresh) ↔ Linkup.HelloFits cfg :=
  Linkup.completes_iff ⟨hsecret, hname, hid, hversion, haccepted.floor⟩

/-- A CIDR parser that accepts every text. -/
def acceptAnyCidr : String → Except String Unit := fun _ => .ok ()

/-- Two nodes with the given cluster name and frame size. -/
def namedLink (name : String) (maxFrame : UInt32) (s : Bool) : LinkConfig :=
  { LinkConfig.new (if s then 1 else 2) name [1, 2, 3] with maxFrame := maxFrame }

theorem accepted_completes_production :
    Accepted acceptAnyCidr (namedLink "production" 1024) ∧
      Linkup.Completes zeroMac (namedLink "production" 1024)
        (Linkup.start (namedLink "production" 1024) fun _ => constDraw 0) := by
  have haccepted : Accepted acceptAnyCidr (namedLink "production" 1024) :=
    .inl (by decide +kernel)
  refine ⟨haccepted, ?_⟩
  refine (accepted_completes_iff haccepted rfl rfl (by decide) (by decide) _).mpr ?_
  constructor
  · decide +kernel
  · decide +kernel

/-- Two pairs of accepted configurations with which no link comes up. With
    `max_frame` at its floor, the HELLO of a name of ten bytes is oversize for
    either reader. A server configuration may have a cluster name of 256 bytes,
    which either decoder refuses. -/
theorem accepted_cannot_link :
    let link := namedLink "production" 64
    let cluster : Bool → ClusterConfig := fun s =>
      ⟨if s then 1 else 2, [1, 2, 3], String.ofList (List.replicate 256 'a')⟩
    let named : Bool → LinkConfig := fun s => (cluster s).linkCfg
    let evs := [(true, constDraw 0), (false, constDraw 0)]
    (∀ s, (link s).validate = .ok ()) ∧
    (∀ s,
      ((run (Linkup.step zeroMac) (Linkup.start link fun _ => constDraw 0) evs).side s).outcome =
        some (.error (.read (.oversize 70 64)))) ∧
    (∀ s, ({ cluster := some (cluster s) } : Config).validate acceptAnyCidr = .ok ()) ∧
    ∀ s,
      ((run (Linkup.step zeroMac) (Linkup.start named fun _ => constDraw 0) evs).side s).outcome =
        some (.error (.refused (.malformedHello (.clusterNameTooLong 256)))) := by
  decide +kernel

/-! ## Relaying -/

namespace RelayMsg

/-- A message within the payload limit of the server, with a name of at most 255
    bytes and at most 100 excepts. -/
def Within (limits : Limits) : RelayMsg → Prop
  | room name excepts payload => (asBytes name).length ≤ 255 ∧ excepts.length ≤ 100 ∧
      payload.length ≤ limits.maxPayloadBytes
  | user name excepts payload => (asBytes name).length ≤ 255 ∧ excepts.length ≤ 100 ∧
      payload.length ≤ limits.maxPayloadBytes
  | all excepts payload => excepts.length ≤ 100 ∧ payload.length ≤ limits.maxPayloadBytes
  | socket _ payload => payload.length ≤ limits.maxPayloadBytes

theorem length_putExcepts (es : List NodeConnId) : (putExcepts es).length = 2 + 10 * es.length := by
  rw [putExcepts, List.length_append, length_toLe, length_flatMap_putExcept]

theorem length_putStr (s : String) : (putStr s).length = 2 + (asBytes s).length := by
  rw [putStr, List.length_append, length_toLe]

theorem length_frame (msg : RelayMsg) (isBinary : Bool) :
    (msg.frame isBinary).length = 6 + (msg.metadata.length + msg.payload.length) := by
  rw [frame, relayFrame]
  simp only [List.length_append, length_toLe, List.length_cons, List.length_nil]
  omega

/-- The envelope of a message within the limits has at most 1265 bytes. -/
theorem length_frame_le {msg : RelayMsg} {limits : Limits} (h : msg.Within limits)
    (isBinary : Bool) : (msg.frame isBinary).length ≤ limits.maxPayloadBytes + 1265 := by
  rw [length_frame]
  cases msg with
  | room name excepts payload =>
    obtain ⟨hname, hexcepts, hpayload⟩ := h
    rw [metadata, List.length_append, length_putStr, length_putExcepts, RelayMsg.payload]
    omega
  | user name excepts payload =>
    obtain ⟨hname, hexcepts, hpayload⟩ := h
    rw [metadata, List.length_append, length_putStr, length_putExcepts, RelayMsg.payload]
    omega
  | all excepts payload =>
    obtain ⟨hexcepts, hpayload⟩ := h
    rw [metadata, length_putExcepts, RelayMsg.payload]
    omega
  | socket id payload =>
    have hpayload : payload.length ≤ limits.maxPayloadBytes := h
    rw [metadata, length_le64, RelayMsg.payload]
    omega

/-- The message within the limits with the longest frame. -/
def longest (limits : Limits) : RelayMsg :=
  room (String.ofList (List.replicate 255 'a')) (List.replicate 100 ⟨0, 0⟩)
    (List.replicate limits.maxPayloadBytes 0)

theorem within_longest (limits : Limits) : (longest limits).Within limits := by
  refine ⟨?_, ?_, ?_⟩
  · decide +kernel
  · rw [List.length_replicate]
  · rw [List.length_replicate]

theorem length_frame_longest (limits : Limits) (isBinary : Bool) :
    ((longest limits).frame isBinary).length = limits.maxPayloadBytes + 1265 := by
  have hname : (asBytes (String.ofList (List.replicate 255 'a'))).length = 255 := by decide +kernel
  rw [length_frame, longest, metadata, List.length_append, length_putStr, length_putExcepts, hname,
    RelayMsg.payload, List.length_replicate, List.length_replicate]
  omega

end RelayMsg

/-- The link configurations of two nodes. -/
def linkCfgs (cluster : Bool → ClusterConfig) (s : Bool) : LinkConfig := (cluster s).linkCfg

/-- `h` is the handle of side `s` on a link that came up, with nothing queued;
    `remote` is what the reader of the other side works with. -/
def UpAndIdle (hmac : Hmac) (cfg : Bool → LinkConfig) (s : Bool) (h : LinkHandle)
    (remote : Negotiated) : Prop :=
  (∃ fresh evs, let x := run (Linkup.step hmac) (Linkup.start cfg fresh) evs
    (x.side s).outcome = some (.ok h.negotiated) ∧ (x.side !s).outcome = some (.ok remote)) ∧
    h.queue.queuedBytes = 0 ∧ h.queue.hwmBytes = (cfg s).queueHwmBytes

/-- Relaying the message to the peer reports it as sent, and the reader of the
    peer takes it from the stream and hands it on. -/
def Crosses (links : Links) (peer : NodeId) (remote : Negotiated) (msg : RelayMsg)
    (isBinary : Bool) : Prop :=
  (relay links [peer] msg.kind isBinary msg.metadata msg.payload).2 = ⟨1, 0, 0, 0⟩ ∧
    ∀ rest, ∃ kind flags,
      readRawFrame (msg.frame isBinary ++ rest) remote.maxFrame.toNat =
        .ok ((kind, flags, msg.body), rest) ∧
      dispatch remote kind flags msg.body = .inbound ⟨msg.kind.frameKind, flags, msg.body⟩

/-- Two nodes of one cluster that were started with accepted configurations. -/
structure Started (parseCidr : String → Except String ν) (core : Bool → Config)
    (cluster : Bool → ClusterConfig) : Prop where
  accepted : ∀ s, (core s).validate parseCidr = .ok ()
  block : ∀ s, (core s).cluster = some (cluster s)
  secret : (cluster true).secret = (cluster false).secret
  name : (cluster true).clusterName = (cluster false).clusterName
  nodeId : (cluster true).nodeId ≠ (cluster false).nodeId

section

variable {core : Bool → Config} {cluster : Bool → ClusterConfig} {s : Bool} {h : LinkHandle}
  {remote : Negotiated}

theorem Started.compatible (hstarted : Started parseCidr core cluster) :
    Linkup.Compatible (linkCfgs cluster) where
  secret := hstarted.secret
  name := hstarted.name
  nodeId := hstarted.nodeId
  version := by
    show Nat.dist 1 1 ≤ 1
    decide
  floor s := by
    show minFrameFloor ≤ defaultMaxFrame
    decide

/-- Both ends of the link work with the default frame size and may relay. -/
theorem UpAndIdle.negotiated (hstarted : Started parseCidr core cluster)
    (hup : UpAndIdle hmac (linkCfgs cluster) s h remote) :
    h.negotiated = Linkup.negotiated (linkCfgs cluster) s ∧
      remote = Linkup.negotiated (linkCfgs cluster) !s := by
  obtain ⟨⟨fresh, evs, hown, hother⟩, -⟩ := hup
  have hout : ∀ t, ((run (Linkup.step hmac) (Linkup.start (linkCfgs cluster) fresh) evs).side
      t).outcome = some (.ok (if t = s then h.negotiated else remote)) := by
    intro t
    rcases Bool.eq_or_eq_not t s with rfl | rfl
    · rw [if_pos rfl]
      exact hown
    · rw [if_neg (by simp)]
      exact hother
  have hest := Linkup.established_of_outcome hstarted.compatible hout
  have hs := hest s
  have ht := hest !s
  rw [hown] at hs
  rw [hother] at ht
  exact ⟨Except.ok.inj (Option.some.inj hs), Except.ok.inj (Option.some.inj ht)⟩

theorem mayEmit_negotiated (s : Bool) (kind : RelayKind) :
    (Linkup.negotiated (linkCfgs cluster) s).mayEmit kind.frameKind = true := by
  have hfeature : ((featureInterestRouting ||| featureRelay) &&&
      (featureInterestRouting ||| featureRelay) &&& featureRelay != 0) = true := by decide
  cases kind <;> exact hfeature

/-- What relaying a message on an idle link reports. -/
theorem report_relay (hstarted : Started parseCidr core cluster)
    (hup : UpAndIdle hmac (linkCfgs cluster) s h remote) {links : Links}
    {peer : NodeId} (hlink : links.lookup peer = some h) (msg : RelayMsg) (isBinary : Bool) :
    (relay links [peer] msg.kind isBinary msg.metadata msg.payload).2 =
      if (msg.frame isBinary).length > 1048576 then ⟨0, 1, 0, 0⟩ else ⟨1, 0, 0, 0⟩ := by
  have hemit : h.negotiated.mayEmit msg.kind.frameKind = true := by
    rw [(hup.negotiated hstarted).1]
    exact mayEmit_negotiated s msg.kind
  have hqueued : h.queue.queuedBytes = 0 := hup.2.1
  have hhwm : h.queue.hwmBytes = 1048576 := hup.2.2
  show (relayStep msg.kind (msg.frame isBinary) (links, ⟨0, 0, 0, 0⟩) peer).2 = _
  unfold relayStep LinkHandle.trySendEncoded PeerQueue.push
  simp only [hlink, hemit, hqueued, hhwm, if_true, Nat.zero_add]
  split_ifs with hlen
  · rfl
  · rfl

/-- A frame that fits the queue is far below the frame size of the link. -/
theorem accepts_of_length_le (hstarted : Started parseCidr core cluster)
    (hup : UpAndIdle hmac (linkCfgs cluster) s h remote) {msg : RelayMsg} {isBinary : Bool}
    (hlen : (msg.frame isBinary).length ≤ 1048576) (rest : Bytes) :
    ∃ kind flags, readRawFrame (msg.frame isBinary ++ rest) remote.maxFrame.toNat =
        .ok ((kind, flags, msg.body), rest) ∧
      dispatch remote kind flags msg.body = .inbound ⟨msg.kind.frameKind, flags, msg.body⟩ := by
  have hremote := (hup.negotiated hstarted).2
  have hmax : remote.maxFrame.toNat = 16777216 := by
    rw [hremote]
    rfl
  have haccepts : remote.mayEmit msg.kind.frameKind = true := by
    rw [hremote]
    exact mayEmit_negotiated (!s) msg.kind
  have hbody : msg.body.length = msg.metadata.length + msg.payload.length := List.length_append
  rw [RelayMsg.length_frame] at hlen
  refine ⟨msg.kind.frameKind.asU8, if isBinary then flagBinary else flagNone, ?_,
    dispatch_of_mayEmit haccepts _ _⟩
  rw [RelayMsg.frame, relayFrame_eq_encode]
  refine readRawFrame_encode ⟨_, _, msg.body⟩ rest _ ?_ ?_
  · show 2 + msg.body.length ≤ _
    omega
  · show 2 + msg.body.length < _
    omega

/-- A message crosses an idle link if and only if its frame fits the empty
    queue. -/
theorem crosses_iff (hstarted : Started parseCidr core cluster)
    (hup : UpAndIdle hmac (linkCfgs cluster) s h remote) {links : Links}
    {peer : NodeId} (hlink : links.lookup peer = some h) (msg : RelayMsg) (isBinary : Bool) :
    Crosses links peer remote msg isBinary ↔ (msg.frame isBinary).length ≤ 1048576 := by
  have hreport := report_relay hstarted hup hlink msg isBinary
  constructor
  · intro hcross
    by_contra hlen
    have hsent := hcross.1
    rw [hreport, if_pos (Nat.lt_of_not_le hlen)] at hsent
    cases hsent
  · intro hlen
    refine ⟨?_, accepts_of_length_le hstarted hup hlen⟩
    rw [hreport, if_neg (Nat.not_lt.mpr hlen)]

/-- Every message within the limits of a server crosses its idle links if and
    only if the payload limit and an envelope of 1265 bytes fit the queue. -/
theorem payloads_cross_iff (hstarted : Started parseCidr core cluster)
    (hup : UpAndIdle hmac (linkCfgs cluster) s h remote) {links : Links}
    {peer : NodeId} (hlink : links.lookup peer = some h) :
    (∀ msg isBinary, RelayMsg.Within (core s).limits msg →
      Crosses links peer remote msg isBinary) ↔
        (core s).limits.maxPayloadBytes + 1265 ≤ 1048576 := by
  constructor
  · intro hall
    have hcross := hall _ false (RelayMsg.within_longest (core s).limits)
    rw [crosses_iff hstarted hup hlink, RelayMsg.length_frame_longest] at hcross
    exact hcross
  · intro hlimit msg isBinary hwithin
    have hlen := RelayMsg.length_frame_le hwithin isBinary
    exact (crosses_iff hstarted hup hlink msg isBinary).mpr (hlen.trans hlimit)

end

/-- Two nodes of the cluster `prod`. -/
def prodCluster (s : Bool) : ClusterConfig := ⟨if s then 1 else 2, [1, 2, 3], "prod"⟩

/-- The servers of `prod`, with the given payload limit and defaults otherwise. -/
def prodServer (maxPayloadBytes : ℕ) (s : Bool) : Config :=
  { limits := { maxPayloadBytes }, cluster := some (prodCluster s) }

/-- The handle of a link of `prod` that has just come up. -/
def prodHandle (s : Bool) : LinkHandle :=
  ⟨Linkup.negotiated (linkCfgs prodCluster) s, PeerQueue.new defaultQueueHwmBytes, 0⟩

theorem started_prod {maxPayloadBytes : ℕ} (h : 0 < maxPayloadBytes) :
    Started acceptAnyCidr (prodServer maxPayloadBytes) prodCluster where
  accepted s := by
    have hdefault : ({} : Config).validate acceptAnyCidr = .ok () := Config.validate_default
    have hlimits : ({ limits := { maxPayloadBytes } } : Config).validate acceptAnyCidr = .ok () :=
      Config.validate_eq_ok_iff.mpr ⟨h, (Config.validate_eq_ok_iff.mp hdefault).2⟩
    exact Config.validate_cluster hlimits (by cases s <;> decide)
  block _ := rfl
  secret := rfl
  name := rfl
  nodeId := by decide

theorem upAndIdle_prod (s : Bool) : UpAndIdle zeroMac (linkCfgs prodCluster) s (prodHandle s)
    (Linkup.negotiated (linkCfgs prodCluster) !s) := by
  have hfits : Linkup.HelloFits (linkCfgs prodCluster) := by
    constructor
    · decide +kernel
    · decide +kernel
  have hcompatible := (started_prod (show 0 < 1 by decide)).compatible
  obtain ⟨evs, hevs⟩ := Linkup.exists_established zeroMac (fun _ => constDraw 0) hcompatible hfits
  exact ⟨⟨fun _ => constDraw 0, evs, hevs s, hevs !s⟩, rfl, rfl⟩

/-- The links of node 1 of `prod`. -/
def prodLinks : Links := (∅ : Links).insert 2 (prodHandle true)

theorem payloads_cross_64k :
    Started acceptAnyCidr (prodServer 65536) prodCluster ∧
      ∀ msg isBinary, RelayMsg.Within (prodServer 65536 true).limits msg →
        Crosses prodLinks 2 (Linkup.negotiated (linkCfgs prodCluster) false) msg isBinary := by
  have hstarted := started_prod (show 0 < 65536 by decide)
  refine ⟨hstarted, ?_⟩
  exact (payloads_cross_iff hstarted (upAndIdle_prod true) (AList.lookup_insert _)).mpr (by decide)

/-- Two servers with the default payload limit. A payload of exactly that limit
    does not fit the queue of an idle link together with its envelope, and is
    dropped. -/
theorem default_payload_dropped :
    Started acceptAnyCidr (prodServer ({} : Limits).maxPayloadBytes) prodCluster ∧
      UpAndIdle zeroMac (linkCfgs prodCluster) true (prodHandle true)
        (Linkup.negotiated (linkCfgs prodCluster) false) ∧
      let msg := RelayMsg.room "lobby" [] (List.replicate ({} : Limits).maxPayloadBytes 0)
      msg.Within {} ∧
        (relay prodLinks [2] msg.kind false msg.metadata msg.payload).2 = ⟨0, 1, 0, 0⟩ := by
  have hstarted := started_prod (show 0 < ({} : Limits).maxPayloadBytes by decide)
  have hname : (asBytes "lobby").length = 5 := by decide +kernel
  refine ⟨hstarted, upAndIdle_prod true, ?_, ?_⟩
  · refine ⟨?_, ?_, ?_⟩
    · rw [hname]
      decide
    · decide
    · rw [List.length_replicate]
  · have hlink : prodLinks.lookup 2 = some (prodHandle true) := AList.lookup_insert _
    rw [report_relay hstarted (upAndIdle_prod true) hlink, if_pos]
    rw [RelayMsg.length_frame, RelayMsg.payload, List.length_replicate]
    have hlimit : ({} : Limits).maxPayloadBytes = 1048576 := rfl
    omega

end BeamSocket.Core
