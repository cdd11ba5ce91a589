import BeamSocket.Mesh.Config

/-!
# The handshake state machine

Model of `crates/mesh/src/handshake.rs`: one machine per link, fed with control
frames. `random_nonce` is a draw passed in from outside, HMAC-SHA256 a
parameter. The two `expect`s of the source become the step `panicked`.

* `Handshake.step_onFrame`: feeding a frame is one of the transitions of
  `Handshake.Step`, one constructor per accepted frame and one for refusals.
* `Handshake.Inv`, `inv_start`, `Step.inv`: what the fields of a started
  machine hold in each state.
* `Handshake.onFrame_ne_panicked`: neither `expect` fires.
* `authInput_inj`: label, nonce and transcript are read off a MAC input.
-/

namespace BeamSocket.Mesh

open BeamSocket.Lib

/-- `features::INTEREST_ROUTING`. -/
def featureInterestRouting : UInt32 := 1

/-- `features::RELAY`. -/
def featureRelay : UInt32 := 2

/-- `INITIATOR_LABEL`: the ASCII bytes of `bsmh-initiator`. -/
def initiatorLabel : Bytes :=
  [0x62, 0x73, 0x6d, 0x68, 0x2d, 0x69, 0x6e, 0x69, 0x74, 0x69, 0x61, 0x74, 0x6f, 0x72]

/-- `RESPONDER_LABEL`: the ASCII bytes of `bsmh-responder`. -/
def responderLabel : Bytes :=
  [0x62, 0x73, 0x6d, 0x68, 0x2d, 0x72, 0x65, 0x73, 0x70, 0x6f, 0x6e, 0x64, 0x65, 0x72]

/-- `enum Role` (lines 57–60). -/
inductive Role
  | initiator
  | responder
  deriving DecidableEq, Repr

/-- `Role::my_label`. -/
def Role.myLabel : Role → Bytes
  | .initiator => initiatorLabel
  | .responder => responderLabel

/-- `Role::peer_label`. -/
def Role.peerLabel : Role → Bytes
  | .initiator => responderLabel
  | .responder => initiatorLabel

/-- `struct Negotiated` (lines 96–108). -/
structure Negotiated where
  protocolVersion : UInt16
  features : UInt32
  maxFrame : UInt32
  role : Role
  peerNodeId : UInt16
  peerIncarnation : UInt64
  deriving DecidableEq, Repr

/-- `Negotiated::may_emit` (lines 116–126). -/
def Negotiated.mayEmit (n : Negotiated) : FrameKind → Bool
  | .hello | .challenge | .auth | .ping | .membership => true
  | .interest | .interestDigest => n.features &&& featureInterestRouting != 0
  | .relayRoom | .relayUser | .relayAll | .relaySocket => n.features &&& featureRelay != 0

/-- `enum RefuseReason` (lines 133–156). -/
inductive RefuseReason
  | protocolViolation (what : String)
  | notMeshPeer
  | malformedHello (e : HelloError)
  | clusterMismatch (localName peerName : String)
  | incompatibleVersion (localVersion peerVersion : UInt16)
  | nodeIdCollision (id : UInt16)
  | maxFrameTooSmall (negotiated floor : UInt32)
  | authFailed
  deriving DecidableEq, Repr

/-- `enum HandshakeStep` (lines 79–91). -/
inductive HandshakeStep
  | continue (send : List Frame)
  | established (send : List Frame) (negotiated : Negotiated)
  | refused (reason : RefuseReason)
  /-- An `expect` on a missing field. -/
  | panicked (message : String)
  deriving DecidableEq

/-- `enum State` (lines 201–212). -/
inductive HandshakeState
  | awaitingHello
  | awaitingChallenge
  | awaitingAuth
  | done
  | refused
  deriving DecidableEq, Repr

/-- `struct Handshake` (lines 218–228). -/
structure Handshake where
  role : Role
  cfg : LinkConfig
  state : HandshakeState
  myHelloRaw : Bytes
  peerHelloRaw : Option Bytes
  nonce : Option Bytes32
  negotiated : Option Negotiated
  deriving DecidableEq

namespace Handshake

/-- `Handshake::new`. -/
def new (role : Role) (cfg : LinkConfig) : Handshake :=
  ⟨role, cfg, .awaitingHello, [], none, none, none⟩

end Handshake

/-- The HELLO `Handshake::start` builds from a configuration and a fresh nonce. -/
def LinkConfig.hello (cfg : LinkConfig) (fresh : Bytes32) : Hello where
  protocolVersion := cfg.protocolVersion
  nodeId := cfg.nodeId
  incarnation := cfg.incarnation
  maxFrame := cfg.maxFrame
  features := cfg.features
  fresh := fresh
  clusterName := cfg.clusterName

/-- The MAC input `role_label ‖ responder_nonce ‖ transcript` (lines 281–284). -/
def authInput (label : Bytes) (nonce : Bytes32) (transcript : Bytes) : Bytes :=
  label ++ nonce.val ++ transcript

namespace Handshake

/-- `Handshake::start` (lines 246–262). -/
def start (hs : Handshake) (fresh : Bytes32) : Handshake × Frame :=
  let raw := (hs.cfg.hello fresh).encode
  ({ hs with myHelloRaw := raw }, Frame.new .hello raw)

/-- `Handshake::transcript` (lines 265–275). -/
def transcript (hs : Handshake) : Bytes :=
  let peer := hs.peerHelloRaw.getD []
  match hs.role with
  | .initiator => hs.myHelloRaw ++ peer
  | .responder => peer ++ hs.myHelloRaw

/-- The MAC `auth_mac` computes over a nonce. -/
def mac (hmac : Hmac) (hs : Handshake) (label : Bytes) (nonce : Bytes32) : Bytes32 :=
  hmac hs.cfg.secret (authInput label nonce hs.transcript)

/-- `Handshake::auth_mac` (lines 277–286); `none` is the `expect` on the
    nonce. -/
def authMac (hmac : Hmac) (hs : Handshake) (label : Bytes) : Option Bytes32 :=
  hs.nonce.map (hs.mac hmac label)

/-- `Handshake::validate_peer_hello` (lines 291–335). -/
def validatePeerHello (hs : Handshake) (body : Bytes) : Except RefuseReason Negotiated :=
  match Hello.decode body with
  | .error .badMagic => .error .notMeshPeer
  | .error e => .error (.malformedHello e)
  | .ok hello =>
    if hello.clusterName ≠ hs.cfg.clusterName then
      .error (.clusterMismatch hs.cfg.clusterName hello.clusterName)
    else if hello.nodeId = hs.cfg.nodeId then .error (.nodeIdCollision hello.nodeId)
    else if Nat.dist hs.cfg.protocolVersion.toNat hello.protocolVersion.toNat > 1 then
      .error (.incompatibleVersion hs.cfg.protocolVersion hello.protocolVersion)
    else
      let maxFrame := min hs.cfg.maxFrame hello.maxFrame
      if maxFrame < minFrameFloor then .error (.maxFrameTooSmall maxFrame minFrameFloor)
      else .ok
        { protocolVersion := min hs.cfg.protocolVersion hello.protocolVersion
          features := hs.cfg.features &&& hello.features
          maxFrame := maxFrame
          role := hs.role
          peerNodeId := hello.nodeId
          peerIncarnation := hello.incarnation }

/-- `Handshake::refuse` (lines 430–433). -/
def refuse (hs : Handshake) (reason : RefuseReason) : Handshake × HandshakeStep :=
  ({ hs with state := .refused }, .refused reason)

/-- `Handshake::on_hello` (lines 349–374). -/
def onHello (hs : Handshake) (frame : Frame) (drawn : Bytes32) : Handshake × HandshakeStep :=
  if frame.kind ≠ .hello then hs.refuse (.protocolViolation "expected HELLO")
  else
    -- the raw body is stored before it is validated
    let hs := { hs with peerHelloRaw := some frame.body }
    match hs.validatePeerHello frame.body with
    | .error reason => hs.refuse reason
    | .ok negotiated =>
      let hs := { hs with negotiated := some negotiated }
      match hs.role with
      | .responder =>
        ({ hs with nonce := some drawn, state := .awaitingAuth },
          .continue [Frame.new .challenge drawn.val])
      | .initiator => ({ hs with state := .awaitingChallenge }, .continue [])

/-- `Handshake::on_challenge` (lines 376–394). -/
def onChallenge (hmac : Hmac) (hs : Handshake) (frame : Frame) : Handshake × HandshakeStep :=
  if frame.kind ≠ .challenge then hs.refuse (.protocolViolation "expected CHALLENGE")
  else if hlen : frame.body.length ≠ 32 then
    hs.refuse (.protocolViolation "CHALLENGE nonce must be 32 bytes")
  else
    let hs := { hs with nonce := some ⟨frame.body, not_not.mp hlen⟩ }
    match hs.authMac hmac hs.role.myLabel with
    | none => (hs, .panicked "nonce set before AUTH")
    | some mac => ({ hs with state := .awaitingAuth }, .continue [Frame.new .auth mac.val])

/-- `Handshake::on_auth` (lines 396–428). -/
def onAuth (hmac : Hmac) (hs : Handshake) (frame : Frame) : Handshake × HandshakeStep :=
  if frame.kind ≠ .auth then hs.refuse (.protocolViolation "expected AUTH")
  else if frame.body.length ≠ 32 then
    hs.refuse (.protocolViolation "AUTH MAC must be 32 bytes")
  else
    match hs.authMac hmac hs.role.peerLabel with
    | none => (hs, .panicked "nonce set before AUTH")
    | some expected =>
      if !constantTimeEq frame.body expected.val then hs.refuse .authFailed
      else
        match hs.negotiated with
        | none => (hs, .panicked "negotiated set at HELLO")
        | some negotiated =>
          let hs := { hs with state := .done }
          match hs.role with
          | .responder =>
            match hs.authMac hmac responderLabel with
            | none => (hs, .panicked "nonce set before AUTH")
            | some mac => (hs, .established [Frame.new .auth mac.val] negotiated)
          | .initiator => (hs, .established [] negotiated)

/-- `Handshake::on_frame` (lines 338–347); `drawn` is what `random_nonce`
    returns if this call draws. -/
def onFrame (hmac : Hmac) (hs : Handshake) (frame : Frame) (drawn : Bytes32) :
    Handshake × HandshakeStep :=
  match hs.state with
  | .awaitingHello => hs.onHello frame drawn
  | .awaitingChallenge => hs.onChallenge hmac frame
  | .awaitingAuth => hs.onAuth hmac frame
  | .done | .refused => hs.refuse (.protocolViolation "frame after handshake terminal")

/-! ## Inversion of the transitions -/

/-- What `validate_peer_hello` has checked when it accepts. -/
theorem validatePeerHello_eq_ok_iff {hs : Handshake} {body : Bytes} {neg : Negotiated} :
    hs.validatePeerHello body = .ok neg ↔ ∃ hello, Hello.decode body = .ok hello ∧
      hello.clusterName = hs.cfg.clusterName ∧ hello.nodeId ≠ hs.cfg.nodeId ∧
      Nat.dist hs.cfg.protocolVersion.toNat hello.protocolVersion.toNat ≤ 1 ∧
      minFrameFloor ≤ min hs.cfg.maxFrame hello.maxFrame ∧
      neg = { protocolVersion := min hs.cfg.protocolVersion hello.protocolVersion
              features := hs.cfg.features &&& hello.features
              maxFrame := min hs.cfg.maxFrame hello.maxFrame
              role := hs.role
              peerNodeId := hello.nodeId
              peerIncarnation := hello.incarnation } := by
  unfold validatePeerHello
  cases hd : Hello.decode body with
  | error e => cases e <;> simp
  | ok hello =>
    simp only [Except.ok.injEq, exists_eq_left', ne_eq]
    by_cases h1 : hello.clusterName = hs.cfg.clusterName
    · by_cases h2 : hello.nodeId = hs.cfg.nodeId
      · simp [h1, h2]
      · by_cases h3 : Nat.dist hs.cfg.protocolVersion.toNat hello.protocolVersion.toNat > 1
        · simp [h1, h2, h3]
        · by_cases h4 : min hs.cfg.maxFrame hello.maxFrame < minFrameFloor
          · simp [h1, h2, h3, h4]
          · have h3' := Nat.not_lt.mp h3
            have h4' := UInt32.not_lt.mp h4
            simp [h1, h2, h3, h4, h3', h4', eq_comm]
    · simp [h1]

/-- The transitions of the machine on `frame`. A refusal changes `state`, and
    `peerHelloRaw` when the HELLO itself was refused. -/
inductive Step (hmac : Hmac) (drawn : Bytes32) (frame : Frame) (hs : Handshake) :
    Handshake → HandshakeStep → Prop
  | refused {raw : Option Bytes} {reason : RefuseReason}
      (hraw : raw = hs.peerHelloRaw ∨ hs.state = .awaitingHello) :
      Step hmac drawn frame hs { hs with peerHelloRaw := raw, state := .refused }
        (.refused reason)
  | helloResponder {neg : Negotiated} (hstate : hs.state = .awaitingHello)
      (hkind : frame.kind = .hello) (hrole : hs.role = .responder)
      (hval : hs.validatePeerHello frame.body = .ok neg) :
      Step hmac drawn frame hs
        { hs with
          peerHelloRaw := some frame.body, negotiated := some neg, nonce := some drawn,
          state := .awaitingAuth }
        (.continue [Frame.new .challenge drawn.val])
  | helloInitiator {neg : Negotiated} (hstate : hs.state = .awaitingHello)
      (hkind : frame.kind = .hello) (hrole : hs.role = .initiator)
      (hval : hs.validatePeerHello frame.body = .ok neg) :
      Step hmac drawn frame hs
        { hs with
          peerHelloRaw := some frame.body, negotiated := some neg, state := .awaitingChallenge }
        (.continue [])
  | challenge {nonce : Bytes32} (hstate : hs.state = .awaitingChallenge)
      (hkind : frame.kind = .challenge) (hbody : frame.body = nonce.val) :
      Step hmac drawn frame hs { hs with nonce := some nonce, state := .awaitingAuth }
        (.continue [Frame.new .auth (hs.mac hmac hs.role.myLabel nonce).val])
  | authResponder {nonce : Bytes32} {neg : Negotiated} (hstate : hs.state = .awaitingAuth)
      (hkind : frame.kind = .auth) (hrole : hs.role = .responder)
      (hnonce : hs.nonce = some nonce) (hneg : hs.negotiated = some neg)
      (hbody : frame.body = (hs.mac hmac hs.role.peerLabel nonce).val) :
      Step hmac drawn frame hs { hs with state := .done }
        (.established [Frame.new .auth (hs.mac hmac responderLabel nonce).val] neg)
  | authInitiator {nonce : Bytes32} {neg : Negotiated} (hstate : hs.state = .awaitingAuth)
      (hkind : frame.kind = .auth) (hrole : hs.role = .initiator)
      (hnonce : hs.nonce = some nonce) (hneg : hs.negotiated = some neg)
      (hbody : frame.body = (hs.mac hmac hs.role.peerLabel nonce).val) :
      Step hmac drawn frame hs { hs with state := .done } (.established [] neg)

/-- What the fields of a started machine hold in each state; `fresh` is the
    nonce its HELLO carries. -/
structure Inv (hs : Handshake) (fresh : Bytes32) : Prop where
  hello : hs.myHelloRaw = (hs.cfg.hello fresh).encode
  valid : ∀ neg, hs.negotiated = some neg →
    ∃ p, hs.peerHelloRaw = some p ∧ hs.validatePeerHello p = .ok neg
  ofNonce : ∀ n, hs.nonce = some n → ∃ neg, hs.negotiated = some neg
  ofAwaitingHello : hs.state = .awaitingHello → hs.nonce = none ∧ hs.negotiated = none
  ofAwaitingChallenge : hs.state = .awaitingChallenge →
    hs.role = .initiator ∧ hs.nonce = none ∧ ∃ neg, hs.negotiated = some neg
  ofAuth : hs.state = .awaitingAuth ∨ hs.state = .done → ∃ n, hs.nonce = some n

theorem inv_start (role : Role) (cfg : LinkConfig) (fresh : Bytes32) :
    Inv ((new role cfg).start fresh).1 fresh where
  hello := rfl
  valid := by intro neg h; cases h
  ofNonce := by intro n h; cases h
  ofAwaitingHello := by intro _; exact ⟨rfl, rfl⟩
  ofAwaitingChallenge := by intro h; cases h
  ofAuth := by rintro (h | h) <;> cases h

variable {hmac : Hmac} {drawn fresh : Bytes32} {frame : Frame} {hs hs' : Handshake}
  {out : HandshakeStep}

theorem authMac_of_nonce {n : Bytes32} {label : Bytes} (hn : hs.nonce = some n) :
    hs.authMac hmac label = some (hs.mac hmac label n) := by
  rw [authMac, hn, Option.map_some]

theorem step_onHello (hstate : hs.state = .awaitingHello) :
    Step hmac drawn frame hs (hs.onHello frame drawn).1 (hs.onHello frame drawn).2 := by
  unfold onHello
  split_ifs with hkind
  · exact .refused (.inl rfl)
  · rw [not_not] at hkind
    dsimp only
    split
    · exact .refused (.inr hstate)
    · next neg hval =>
      split
      · next hrole => exact .helloResponder hstate hkind hrole hval
      · next hrole => exact .helloInitiator hstate hkind hrole hval

theorem step_onChallenge (hstate : hs.state = .awaitingChallenge) :
    Step hmac drawn frame hs (hs.onChallenge hmac frame).1 (hs.onChallenge hmac frame).2 := by
  unfold onChallenge
  split_ifs with hkind hlen
  · exact .refused (.inl rfl)
  · exact .refused (.inl rfl)
  · exact .challenge hstate (not_not.mp hkind) rfl

theorem step_onAuth (inv : hs.Inv fresh) (hstate : hs.state = .awaitingAuth) :
    Step hmac drawn frame hs (hs.onAuth hmac frame).1 (hs.onAuth hmac frame).2 := by
  obtain ⟨n, hn⟩ := inv.ofAuth (.inl hstate)
  obtain ⟨neg, hneg⟩ := inv.ofNonce n hn
  unfold onAuth
  split_ifs with hkind hlen
  · exact .refused (.inl rfl)
  · exact .refused (.inl rfl)
  · rw [not_not] at hkind
    rw [authMac_of_nonce hn]
    dsimp only
    split_ifs with hver
    · exact .refused (.inl rfl)
    · have hbody := (constantTimeEq_iff _ _).mp (by simpa using hver)
      split
      · next hnone => rw [hnone] at hneg; cases hneg
      · next hneg =>
        split
        · next hrole =>
          have hn' : { hs with state := .done }.nonce = some n := hn
          rw [authMac_of_nonce hn']
          exact .authResponder hstate hkind hrole hn hneg hbody
        · next hrole => exact .authInitiator hstate hkind hrole hn hneg hbody

/-- Feeding a frame to a started machine is one of the transitions; in
    particular no `expect` fires. -/
theorem step_onFrame (inv : hs.Inv fresh) :
    Step hmac drawn frame hs (hs.onFrame hmac frame drawn).1 (hs.onFrame hmac frame drawn).2 := by
  unfold onFrame
  split
  · next hstate => exact step_onHello hstate
  · next hstate => exact step_onChallenge hstate
  · next hstate => exact step_onAuth inv hstate
  · exact .refused (.inl rfl)
  · exact .refused (.inl rfl)

theorem onFrame_ne_panicked (inv : hs.Inv fresh) (message : String) :
    (hs.onFrame hmac frame drawn).2 ≠ .panicked message := by
  have hstep : Step hmac drawn frame hs _ (hs.onFrame hmac frame drawn).2 := step_onFrame inv
  generalize (hs.onFrame hmac frame drawn).1 = hs' at hstep
  rintro h
  rw [h] at hstep
  cases hstep

theorem Step.inv (step : Step hmac drawn frame hs hs' out) (inv : hs.Inv fresh) :
    hs'.Inv fresh := by
  cases step with
  | refused hraw =>
    refine ⟨inv.hello, ?_, inv.ofNonce, by simp, by simp, by simp⟩
    intro neg hneg
    rcases hraw with rfl | hstate
    · exact inv.valid neg hneg
    · exact absurd hneg (by simp [(inv.ofAwaitingHello hstate).2])
  | helloResponder hstate hkind hrole hval =>
    exact ⟨inv.hello, by rintro neg ⟨⟩; exact ⟨_, rfl, hval⟩, by simp, by simp, by simp, by simp⟩
  | helloInitiator hstate hkind hrole hval =>
    exact ⟨inv.hello, by rintro neg ⟨⟩; exact ⟨_, rfl, hval⟩, by simp, by simp,
      by simp [hrole, inv.ofAwaitingHello hstate], by simp⟩
  | challenge hstate hkind hbody =>
    obtain ⟨_, _, hneg⟩ := inv.ofAwaitingChallenge hstate
    exact ⟨inv.hello, inv.valid, fun _ _ => hneg, by simp, by simp, by simp⟩
  | authResponder hstate hkind hrole hnonce hneg hbody =>
    exact ⟨inv.hello, inv.valid, inv.ofNonce, by simp, by simp, fun _ => ⟨_, hnonce⟩⟩
  | authInitiator hstate hkind hrole hnonce hneg hbody =>
    exact ⟨inv.hello, inv.valid, inv.ofNonce, by simp, by simp, fun _ => ⟨_, hnonce⟩⟩

end Handshake

/-! ## What a MAC input determines -/

theorem Role.length_myLabel (r : Role) : r.myLabel.length = 14 := by cases r <;> rfl

theorem Role.length_peerLabel (r : Role) : r.peerLabel.length = 14 := by cases r <;> rfl

/-- Labels and nonces have fixed lengths, so a MAC input splits in one way. -/
theorem authInput_inj {l l' : Bytes} {n n' : Bytes32} {t t' : Bytes} (hl : l.length = l'.length)
    (h : authInput l n t = authInput l' n' t') : l = l' ∧ n = n' ∧ t = t' := by
  unfold authInput at h
  rw [List.append_assoc, List.append_assoc] at h
  obtain ⟨hlabel, hrest⟩ := List.append_inj h hl
  obtain ⟨hn, ht⟩ := List.append_inj hrest (n.property.trans n'.property.symm)
  exact ⟨hlabel, Subtype.ext hn, ht⟩

end BeamSocket.Mesh
