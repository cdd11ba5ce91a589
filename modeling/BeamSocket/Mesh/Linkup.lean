import BeamSocket.Mesh.HandshakeNet

/-!
# Two ends of a byte stream

`run_handshake` (`crates/mesh/src/link.rs`, lines 387–431) of an initiator and a
responder connected by a lossless ordered byte stream in each direction. A turn
of a side reads the next frame from its stream, if all of it has arrived, feeds
it to the session and writes the answers; a side that has an outcome takes no
more turns.

* `Progress.step`, `Progress.run`: a handshake whose HELLO fits goes from stage
  to stage of `Stage`, whichever side takes the next turn.
* `established_of_outcome`: where both sides succeed, they hold the negotiated
  parameters.
* `completes_iff`: two sides that agree on secret and cluster name, differ in
  node id, and are at most one protocol version apart, both end established
  with the negotiated parameters if and only if the HELLO fits: its name the
  limit of the decoder, and its frame the read bound of either side.
-/

namespace BeamSocket.Mesh

open BeamSocket.Lib

/-- The two sessions and the bytes on their way to each; `true` is the
    initiator. -/
structure Linkup where
  side : Bool → Session
  wire : Bool → Bytes

namespace Linkup

/-- The role of a side. -/
def role (s : Bool) : Role := if s then .initiator else .responder

/-- Both sides have written their HELLO. -/
def start (cfg : Bool → LinkConfig) (fresh : Bool → Bytes32) : Linkup where
  side s := Session.start (role s) (cfg s) (fresh s)
  wire s := (Frame.new .hello ((cfg !s).hello (fresh !s)).encode).encode

/-- One turn of the loop of `run_handshake` on the bytes that have arrived: the
    session, the bytes left, and the bytes written. A short read waits for
    more. -/
def turn (hmac : Hmac) (s : Session) (stream : Bytes) (drawn : Bytes32) :
    Session × Bytes × Bytes :=
  if s.outcome.isSome then (s, stream, [])
  else
    match readRawFrame stream s.hs.cfg.maxFrame.toNat with
    | .error .eof => (s, stream, [])
    | .error e => (s.fail (.read e), stream, [])
    | .ok ((kind, flags, body), rest) =>
      let s' := s.onRaw hmac kind flags body drawn
      (s', rest, (s'.sent.drop s.sent.length).flatMap Frame.encode)

/-- Side `e.1` takes a turn; `e.2` is the nonce it draws if it draws one. -/
def step (hmac : Hmac) (x : Linkup) (e : Bool × Bytes32) : Linkup :=
  let (session, rest, out) := turn hmac (x.side e.1) (x.wire e.1) e.2
  { side := Function.update x.side e.1 session
    wire := Function.update (Function.update x.wire e.1 rest) (!e.1) (x.wire (!e.1) ++ out) }

/-- No side can take a turn. -/
def Settled (hmac : Hmac) (x : Linkup) : Prop := ∀ e, step hmac x e = x

/-- The parameters `s` has to end with. -/
def negotiated (cfg : Bool → LinkConfig) (s : Bool) : Negotiated where
  protocolVersion := min (cfg s).protocolVersion (cfg !s).protocolVersion
  features := (cfg s).features &&& (cfg !s).features
  maxFrame := min (cfg s).maxFrame (cfg !s).maxFrame
  role := role s
  peerNodeId := (cfg !s).nodeId
  peerIncarnation := (cfg !s).incarnation

/-- Both sides have ended with the negotiated parameters. -/
def Established (cfg : Bool → LinkConfig) (x : Linkup) : Prop :=
  ∀ s, (x.side s).outcome = some (.ok (negotiated cfg s))

/-- Every run can be continued until no side can take a turn, and then both
    sides have ended with the negotiated parameters. -/
def Completes (hmac : Hmac) (cfg : Bool → LinkConfig) (x : Linkup) : Prop :=
  (∀ evs, ∃ more, Settled hmac (run (step hmac) x (evs ++ more))) ∧
    ∀ evs, Settled hmac (run (step hmac) x evs) → Established cfg (run (step hmac) x evs)

/-! ## One turn -/

section

variable {hmac : Hmac} {s : Session} {stream : Bytes} {drawn : Bytes32}

theorem turn_of_outcome (h : s.outcome.isSome = true) :
    turn hmac s stream drawn = (s, stream, []) :=
  if_pos h

/-- Nothing has arrived. -/
theorem turn_nil : turn hmac s [] drawn = (s, [], []) := by
  unfold turn
  split_ifs with h
  · rfl
  · rfl

/-- A turn on a frame that fits the read bound. -/
theorem turn_encode (h : s.outcome = none) (f : Frame) (rest : Bytes)
    (hmax : 2 + f.body.length ≤ s.hs.cfg.maxFrame.toNat) :
    turn hmac s (f.encode ++ rest) drawn =
      (s.feed hmac f drawn, rest,
        ((s.feed hmac f drawn).sent.drop s.sent.length).flatMap Frame.encode) := by
  have hlt := s.hs.cfg.maxFrame.toNat_lt
  have hread := readRawFrame_encode f rest _ hmax (by omega)
  have hdec : decodeLen (2 + f.body.length) s.hs.cfg.maxFrame.toNat = .ok (2 + f.body.length) := by
    rw [decodeLen, if_neg (by omega), if_neg (by omega)]
  have hraw : s.onRaw hmac f.kind.asU8 f.flags f.body drawn = s.feed hmac f drawn := by
    unfold Session.onRaw
    simp only [h, hdec, FrameKind.fromU8_asU8]
    rfl
  unfold turn
  rw [if_neg (by simp [h]), hread]
  simp only [hraw]

end

/-! ## The handshake that goes through -/

/-- What two configurations agree on and differ in for a link, with frames of at
    least the floor allowed. -/
structure Compatible (cfg : Bool → LinkConfig) : Prop where
  secret : (cfg true).secret = (cfg false).secret
  name : (cfg true).clusterName = (cfg false).clusterName
  nodeId : (cfg true).nodeId ≠ (cfg false).nodeId
  version : Nat.dist (cfg true).protocolVersion.toNat (cfg false).protocolVersion.toNat ≤ 1
  floor : ∀ s, minFrameFloor ≤ (cfg s).maxFrame

/-- The length of a cluster name in bytes. -/
def nameLen (cfg : Bool → LinkConfig) : ℕ := (asBytes (cfg true).clusterName).length

/-- The name fits the decoder, and the HELLO frame the read bounds. -/
def HelloFits (cfg : Bool → LinkConfig) : Prop :=
  nameLen cfg ≤ maxClusterNameLen ∧
    ∀ s, 2 + (fixedPrefix + nameLen cfg) ≤ (cfg s).maxFrame.toNat

/-- How far a handshake that goes through has come. -/
inductive Stage
  | opened
  | helloRead
  | challenged
  | bothRead
  | answered
  | confirmed
  | finished
  deriving DecidableEq, Repr

/-- The stage after a turn of the initiator (`true`) or the responder. A side
    with nothing to read stays. -/
def Stage.next : Stage → Bool → Stage
  | .opened, true => .helloRead
  | .opened, false => .challenged
  | .helloRead, false => .bothRead
  | .challenged, true => .bothRead
  | .bothRead, true => .answered
  | .answered, false => .confirmed
  | .confirmed, true => .finished
  | stage, _ => stage

/-- Five alternating turns finish from every stage. -/
theorem Stage.run_next_alternating (stage : Stage) :
    run Stage.next stage [true, false, true, false, true] = .finished := by
  cases stage <;> rfl

section

variable (hmac : Hmac) (cfg : Bool → LinkConfig) (fresh : Bool → Bytes32)

/-- The HELLO body of a side. -/
def hello (s : Bool) : Bytes := ((cfg s).hello (fresh s)).encode

/-- The HELLO frame of a side. -/
def helloFrame (s : Bool) : Frame := Frame.new .hello (hello cfg fresh s)

/-- The CHALLENGE frame with the nonce `n`. -/
def challengeFrame (n : Bytes32) : Frame := Frame.new .challenge n.val

/-- The AUTH of the side with the given label. -/
def authFrame (label : Bytes) (n : Bytes32) : Frame :=
  Frame.new .auth
    (hmac (cfg true).secret (authInput label n (hello cfg fresh true ++ hello cfg fresh false))).val

/-- The machine of a side that has seen the HELLO of its peer. -/
def machine (s : Bool) (state : HandshakeState) (nonce : Option Bytes32) : Handshake :=
  ⟨role s, cfg s, state, hello cfg fresh s, some (hello cfg fresh !s), nonce,
    some (negotiated cfg s)⟩

/-- The initiator behind the HELLO of its peer. -/
def initiatorAtChallenge : Session :=
  ⟨machine cfg fresh true .awaitingChallenge none, fresh true, [helloFrame cfg fresh true],
    none, none⟩

/-- The initiator behind the CHALLENGE, which it has answered. -/
def initiatorAtAuth (n : Bytes32) : Session :=
  ⟨machine cfg fresh true .awaitingAuth (some n), fresh true,
    [helloFrame cfg fresh true, authFrame hmac cfg fresh initiatorLabel n], none, none⟩

/-- The initiator behind the AUTH of the responder. -/
def initiatorDone (n : Bytes32) : Session :=
  ⟨machine cfg fresh true .done (some n), fresh true,
    [helloFrame cfg fresh true, authFrame hmac cfg fresh initiatorLabel n],
    some (authFrame hmac cfg fresh responderLabel n).body, some (.ok (negotiated cfg true))⟩

/-- The responder behind the HELLO of its peer, which it has challenged. -/
def responderAtAuth (n : Bytes32) : Session :=
  ⟨machine cfg fresh false .awaitingAuth (some n), fresh false,
    [helloFrame cfg fresh false, challengeFrame n], none, none⟩

/-- The responder behind the AUTH of the initiator, which it has answered. -/
def responderDone (n : Bytes32) : Session :=
  ⟨machine cfg fresh false .done (some n), fresh false,
    [helloFrame cfg fresh false, challengeFrame n, authFrame hmac cfg fresh responderLabel n],
    some (authFrame hmac cfg fresh initiatorLabel n).body, some (.ok (negotiated cfg false))⟩

/-- The states of a handshake that goes through, with what is in flight. -/
inductive Progress : Stage → Linkup → Prop
  | opened {x : Linkup} (hi : x.side true = Session.start .initiator (cfg true) (fresh true))
      (hr : x.side false = Session.start .responder (cfg false) (fresh false))
      (hwi : x.wire true = (helloFrame cfg fresh false).encode)
      (hwr : x.wire false = (helloFrame cfg fresh true).encode) : Progress .opened x
  | helloRead {x : Linkup} (hi : x.side true = initiatorAtChallenge cfg fresh)
      (hr : x.side false = Session.start .responder (cfg false) (fresh false))
      (hwi : x.wire true = []) (hwr : x.wire false = (helloFrame cfg fresh true).encode) :
      Progress .helloRead x
  | challenged {x : Linkup} (n : Bytes32)
      (hi : x.side true = Session.start .initiator (cfg true) (fresh true))
      (hr : x.side false = responderAtAuth cfg fresh n)
      (hwi : x.wire true = (helloFrame cfg fresh false).encode ++ (challengeFrame n).encode)
      (hwr : x.wire false = []) : Progress .challenged x
  | bothRead {x : Linkup} (n : Bytes32) (hi : x.side true = initiatorAtChallenge cfg fresh)
      (hr : x.side false = responderAtAuth cfg fresh n)
      (hwi : x.wire true = (challengeFrame n).encode) (hwr : x.wire false = []) :
      Progress .bothRead x
  | answered {x : Linkup} (n : Bytes32) (hi : x.side true = initiatorAtAuth hmac cfg fresh n)
      (hr : x.side false = responderAtAuth cfg fresh n) (hwi : x.wire true = [])
      (hwr : x.wire false = (authFrame hmac cfg fresh initiatorLabel n).encode) :
      Progress .answered x
  | confirmed {x : Linkup} (n : Bytes32) (hi : x.side true = initiatorAtAuth hmac cfg fresh n)
      (hr : x.side false = responderDone hmac cfg fresh n)
      (hwi : x.wire true = (authFrame hmac cfg fresh responderLabel n).encode)
      (hwr : x.wire false = []) : Progress .confirmed x
  | finished {x : Linkup} (n : Bytes32) (hi : x.side true = initiatorDone hmac cfg fresh n)
      (hr : x.side false = responderDone hmac cfg fresh n)
      (hwi : x.wire true = []) (hwr : x.wire false = []) : Progress .finished x

end

section

variable {hmac : Hmac} {cfg : Bool → LinkConfig} {fresh : Bool → Bytes32}

theorem Compatible.asBytes_name (h : Compatible cfg) (s : Bool) :
    (asBytes (cfg s).clusterName).length = nameLen cfg := by
  cases s with
  | true => rfl
  | false => rw [nameLen, h.name]

theorem length_hello (h : Compatible cfg) (s : Bool) :
    (hello cfg fresh s).length = fixedPrefix + nameLen cfg := by
  rw [hello, Hello.length_encode]
  show fixedPrefix + (asBytes (cfg s).clusterName).length = _
  rw [h.asBytes_name]

/-- Each side accepts the HELLO of the other. -/
theorem validatePeerHello_hello (h : Compatible cfg) (hfits : HelloFits cfg) (s : Bool)
    (hs : Handshake) (hcfg : hs.cfg = cfg s) (hrole : hs.role = role s) :
    hs.validatePeerHello (hello cfg fresh !s) = .ok (negotiated cfg s) := by
  refine Handshake.validatePeerHello_eq_ok_iff.mpr ⟨(cfg !s).hello (fresh !s), ?_, ?_⟩
  · refine Hello.decode_eq_ok_iff.mpr ⟨?_, List.prefix_refl _⟩
    show (asBytes (cfg !s).clusterName).length ≤ _
    rw [h.asBytes_name]
    exact hfits.1
  · rw [hcfg, hrole]
    refine ⟨?_, ?_, ?_, ?_, rfl⟩
    · cases s with
      | true => exact h.name.symm
      | false => exact h.name
    · cases s with
      | true => exact h.nodeId.symm
      | false => exact h.nodeId
    · cases s with
      | true => exact h.version
      | false =>
        show Nat.dist _ (cfg true).protocolVersion.toNat ≤ 1
        rw [Nat.dist_comm]
        exact h.version
    · show minFrameFloor ≤ if (cfg s).maxFrame ≤ (cfg !s).maxFrame then _ else _
      split_ifs
      · exact h.floor s
      · exact h.floor !s

/-! ### The transitions -/

/-- The side that dialled waits for the challenge, the other one sends it. -/
theorem feed_hello (h : Compatible cfg) (hfits : HelloFits cfg) (s : Bool) (drawn : Bytes32) :
    (Session.start (role s) (cfg s) (fresh s)).feed hmac (helloFrame cfg fresh !s) drawn =
      if s then initiatorAtChallenge cfg fresh else responderAtAuth cfg fresh drawn := by
  have hkind : ¬ (helloFrame cfg fresh !s).kind ≠ .hello := not_not.mpr rfl
  have hon : (Session.start (role s) (cfg s) (fresh s)).hs.onFrame hmac
      (helloFrame cfg fresh !s) drawn =
      Handshake.onHello (Session.start (role s) (cfg s) (fresh s)).hs
        (helloFrame cfg fresh !s) drawn := rfl
  unfold Session.feed
  rw [hon]
  unfold Handshake.onHello
  rw [if_neg hkind]
  dsimp only
  rw [show Handshake.validatePeerHello _ (helloFrame cfg fresh !s).body = _ from
    validatePeerHello_hello h hfits s _ rfl rfl]
  cases s <;> rfl

theorem feed_initiator_challenge (n drawn : Bytes32) :
    (initiatorAtChallenge cfg fresh).feed hmac (challengeFrame n) drawn =
      initiatorAtAuth hmac cfg fresh n := by
  have hkind : ¬ (challengeFrame n).kind ≠ .challenge := not_not.mpr rfl
  have hlen : ¬ (challengeFrame n).body.length ≠ 32 := not_not.mpr n.property
  have hon : (initiatorAtChallenge cfg fresh).hs.onFrame hmac (challengeFrame n) drawn =
      (machine cfg fresh true .awaitingAuth (some n),
        .continue [authFrame hmac cfg fresh initiatorLabel n]) := by
    show Handshake.onChallenge hmac _ _ = _
    unfold Handshake.onChallenge
    rw [if_neg hkind, dif_neg hlen]
    rfl
  unfold Session.feed
  rw [hon]
  rfl

/-- A machine that waits for the AUTH of its peer accepts the code it computes itself. -/
theorem onAuth_mac {hs : Handshake} {mac : Bytes32} {neg : Negotiated}
    (hown : hs.authMac hmac hs.role.peerLabel = some mac) (hneg : hs.negotiated = some neg) :
    hs.onAuth hmac (Frame.new .auth mac.val) =
      match hs.role with
      | .responder =>
        match hs.authMac hmac responderLabel with
        | none => ({ hs with state := .done }, .panicked "nonce set before AUTH")
        | some mac => ({ hs with state := .done }, .established [Frame.new .auth mac.val] neg)
      | .initiator => ({ hs with state := .done }, .established [] neg) := by
  have hkind : ¬ (Frame.new .auth mac.val).kind ≠ .auth := not_not.mpr rfl
  have hlen : ¬ (Frame.new .auth mac.val).body.length ≠ 32 := not_not.mpr mac.property
  have hsame : ¬ (!constantTimeEq (Frame.new .auth mac.val).body mac.val) = true := by
    show ¬ (!constantTimeEq mac.val mac.val) = true
    rw [(constantTimeEq_iff _ _).mpr rfl]
    decide
  unfold Handshake.onAuth
  rw [if_neg hkind, if_neg hlen, hown]
  dsimp only
  rw [if_neg hsame, hneg]
  rfl

theorem feed_responder_auth (h : Compatible cfg) (n drawn : Bytes32) :
    (responderAtAuth cfg fresh n).feed hmac (authFrame hmac cfg fresh initiatorLabel n) drawn =
      responderDone hmac cfg fresh n := by
  have hmacs : ∀ label, (responderAtAuth cfg fresh n).hs.authMac hmac label =
      some (hmac (cfg true).secret
        (authInput label n (hello cfg fresh true ++ hello cfg fresh false))) := by
    intro label
    rw [h.secret]
    rfl
  have hon : (responderAtAuth cfg fresh n).hs.onFrame hmac
      (authFrame hmac cfg fresh initiatorLabel n) drawn =
      (machine cfg fresh false .done (some n),
        .established [authFrame hmac cfg fresh responderLabel n] (negotiated cfg false)) := by
    show Handshake.onAuth hmac _ _ = _
    rw [show Handshake.onAuth hmac _ (authFrame hmac cfg fresh initiatorLabel n) = _ from
      onAuth_mac (hmacs _) rfl]
    rw [hmacs responderLabel]
    rfl
  unfold Session.feed
  rw [hon]
  rfl

theorem feed_initiator_auth (n drawn : Bytes32) :
    (initiatorAtAuth hmac cfg fresh n).feed hmac (authFrame hmac cfg fresh responderLabel n) drawn =
      initiatorDone hmac cfg fresh n := by
  have hon : (initiatorAtAuth hmac cfg fresh n).hs.onFrame hmac
      (authFrame hmac cfg fresh responderLabel n) drawn =
      (machine cfg fresh true .done (some n), .established [] (negotiated cfg true)) := by
    show Handshake.onAuth hmac _ _ = _
    rw [authFrame, onAuth_mac (by rfl) rfl]
    rfl
  unfold Session.feed
  rw [hon]
  rfl

/-! ### The turns -/

variable (hmac fresh) in
theorem turn_hello (h : Compatible cfg) (hfits : HelloFits cfg) (s : Bool) (rest : Bytes)
    (drawn : Bytes32) :
    turn hmac (Session.start (role s) (cfg s) (fresh s))
        ((helloFrame cfg fresh !s).encode ++ rest) drawn =
      if s then (initiatorAtChallenge cfg fresh, rest, [])
      else (responderAtAuth cfg fresh drawn, rest, (challengeFrame drawn).encode) := by
  have hlen : 2 + (hello cfg fresh !s).length ≤ (cfg s).maxFrame.toNat := by
    rw [length_hello h]
    exact hfits.2 s
  rw [turn_encode rfl _ _ hlen, feed_hello h hfits]
  cases s with
  | true => rfl
  | false => exact congrArg (fun out => (_, _, out)) (List.append_nil _)

/-- A frame with a body of 32 bytes is under the floor of the frame sizes. -/
theorem Compatible.le_maxFrame (h : Compatible cfg) (s : Bool) (b : Bytes32) :
    2 + b.val.length ≤ (cfg s).maxFrame.toNat := by
  have hfloor : minFrameFloor.toNat ≤ (cfg s).maxFrame.toNat := h.floor s
  have hval : minFrameFloor.toNat = 64 := rfl
  rw [b.property]
  omega

variable (hmac fresh) in
theorem turn_initiator_challenge (h : Compatible cfg) (n : Bytes32) (rest : Bytes)
    (drawn : Bytes32) :
    turn hmac (initiatorAtChallenge cfg fresh) ((challengeFrame n).encode ++ rest) drawn =
      (initiatorAtAuth hmac cfg fresh n, rest,
        (authFrame hmac cfg fresh initiatorLabel n).encode) := by
  rw [turn_encode rfl _ _ (h.le_maxFrame true n), feed_initiator_challenge]
  exact congrArg (fun out => (_, _, out)) (List.append_nil _)

variable (hmac fresh) in
theorem turn_responder_auth (h : Compatible cfg) (n : Bytes32) (rest : Bytes) (drawn : Bytes32) :
    turn hmac (responderAtAuth cfg fresh n)
        ((authFrame hmac cfg fresh initiatorLabel n).encode ++ rest) drawn =
      (responderDone hmac cfg fresh n, rest,
        (authFrame hmac cfg fresh responderLabel n).encode) := by
  rw [turn_encode rfl _ _ (h.le_maxFrame false _), feed_responder_auth h]
  exact congrArg (fun out => (_, _, out)) (List.append_nil _)

variable (hmac fresh) in
theorem turn_initiator_auth (h : Compatible cfg) (n : Bytes32) (rest : Bytes) (drawn : Bytes32) :
    turn hmac (initiatorAtAuth hmac cfg fresh n)
        ((authFrame hmac cfg fresh responderLabel n).encode ++ rest) drawn =
      (initiatorDone hmac cfg fresh n, rest, []) := by
  rw [turn_encode rfl _ _ (h.le_maxFrame true _), feed_initiator_auth]
  rfl

/-! ### Progress -/

/-- What a turn of `s` changes. -/
theorem step_of_turn {x : Linkup} {s : Bool} {drawn : Bytes32} {before session : Session}
    {bytes rest out : Bytes} (hside : x.side s = before) (hwire : x.wire s = bytes)
    (h : turn hmac before bytes drawn = (session, rest, out)) :
    step hmac x (s, drawn) =
      { side := Function.update x.side s session
        wire := Function.update (Function.update x.wire s rest) (!s) (x.wire (!s) ++ out) } := by
  unfold step
  rw [hside, hwire, h]

/-- A turn that reads nothing changes nothing. -/
theorem step_of_idle {x : Linkup} {s : Bool} {drawn : Bytes32}
    (h : turn hmac (x.side s) (x.wire s) drawn = (x.side s, x.wire s, [])) :
    step hmac x (s, drawn) = x := by
  rw [step_of_turn rfl rfl h, Function.update_eq_self, Function.update_eq_self, List.append_nil,
    Function.update_eq_self]

theorem step_of_wire_nil {x : Linkup} {s : Bool} {drawn : Bytes32} (h : x.wire s = []) :
    step hmac x (s, drawn) = x := by
  refine step_of_idle ?_
  rw [h]
  exact turn_nil

variable (hmac cfg fresh) in
theorem progress_start : Progress hmac cfg fresh .opened (start cfg fresh) :=
  .opened rfl rfl rfl rfl

theorem Progress.step_initiator (h : Compatible cfg) (hfits : HelloFits cfg) {x : Linkup}
    {stage : Stage} (hx : Progress hmac cfg fresh stage x) (drawn : Bytes32) :
    Progress hmac cfg fresh (stage.next true) (step hmac x (true, drawn)) := by
  cases hx with
  | opened hi hr hwi hwr =>
    have ht := turn_hello hmac fresh h hfits true [] drawn
    rw [List.append_nil] at ht
    rw [step_of_turn hi hwi ht]
    exact .helloRead rfl hr rfl (by simpa using hwr)
  | helloRead hi hr hwi hwr =>
    rw [step_of_wire_nil hwi]
    exact .helloRead hi hr hwi hwr
  | challenged n hi hr hwi hwr =>
    have ht := turn_hello hmac fresh h hfits true (challengeFrame n).encode drawn
    rw [step_of_turn hi hwi ht]
    exact .bothRead n rfl hr rfl (by simpa using hwr)
  | bothRead n hi hr hwi hwr =>
    have ht := turn_initiator_challenge hmac fresh h n [] drawn
    rw [List.append_nil] at ht
    rw [step_of_turn hi hwi ht]
    exact .answered n rfl hr rfl (by simp [hwr])
  | answered n hi hr hwi hwr =>
    rw [step_of_wire_nil hwi]
    exact .answered n hi hr hwi hwr
  | confirmed n hi hr hwi hwr =>
    have ht := turn_initiator_auth hmac fresh h n [] drawn
    rw [List.append_nil] at ht
    rw [step_of_turn hi hwi ht]
    exact .finished n rfl hr rfl (by simpa using hwr)
  | finished n hi hr hwi hwr =>
    rw [step_of_wire_nil hwi]
    exact .finished n hi hr hwi hwr

theorem Progress.step_responder (h : Compatible cfg) (hfits : HelloFits cfg) {x : Linkup}
    {stage : Stage} (hx : Progress hmac cfg fresh stage x) (drawn : Bytes32) :
    Progress hmac cfg fresh (stage.next false) (step hmac x (false, drawn)) := by
  cases hx with
  | opened hi hr hwi hwr =>
    have ht := turn_hello hmac fresh h hfits false [] drawn
    rw [List.append_nil] at ht
    rw [step_of_turn hr hwr ht]
    exact .challenged drawn hi rfl (by simp [hwi]) rfl
  | helloRead hi hr hwi hwr =>
    have ht := turn_hello hmac fresh h hfits false [] drawn
    rw [List.append_nil] at ht
    rw [step_of_turn hr hwr ht]
    exact .bothRead drawn hi rfl (by simp [hwi]) rfl
  | challenged n hi hr hwi hwr =>
    rw [step_of_wire_nil hwr]
    exact .challenged n hi hr hwi hwr
  | bothRead n hi hr hwi hwr =>
    rw [step_of_wire_nil hwr]
    exact .bothRead n hi hr hwi hwr
  | answered n hi hr hwi hwr =>
    have ht := turn_responder_auth hmac fresh h n [] drawn
    rw [List.append_nil] at ht
    rw [step_of_turn hr hwr ht]
    exact .confirmed n hi rfl (by simp [hwi]) rfl
  | confirmed n hi hr hwi hwr =>
    rw [step_of_wire_nil hwr]
    exact .confirmed n hi hr hwi hwr
  | finished n hi hr hwi hwr =>
    rw [step_of_wire_nil hwr]
    exact .finished n hi hr hwi hwr

/-- Every turn moves the handshake from stage to stage. -/
theorem Progress.step (h : Compatible cfg) (hfits : HelloFits cfg) {x : Linkup} {stage : Stage}
    (hx : Progress hmac cfg fresh stage x) (e : Bool × Bytes32) :
    Progress hmac cfg fresh (stage.next e.1) (step hmac x e) := by
  obtain ⟨s, drawn⟩ := e
  cases s with
  | true => exact hx.step_initiator h hfits drawn
  | false => exact hx.step_responder h hfits drawn

theorem Progress.run (h : Compatible cfg) (hfits : HelloFits cfg) {x : Linkup} {stage : Stage}
    (hx : Progress hmac cfg fresh stage x) (evs : List (Bool × Bytes32)) :
    Progress hmac cfg fresh (run Stage.next stage (evs.map Prod.fst))
      (run (Linkup.step hmac) x evs) := by
  induction evs generalizing x stage with
  | nil => exact hx
  | cons e evs ih => exact ih (hx.step h hfits e)

theorem Progress.established {x : Linkup} (hx : Progress hmac cfg fresh .finished x) :
    Established cfg x := by
  cases hx with
  | finished n hi hr hwi hwr =>
    intro s
    cases s with
    | true => rw [hi]; rfl
    | false => rw [hr]; rfl

theorem Progress.settled {x : Linkup} (hx : Progress hmac cfg fresh .finished x) :
    Settled hmac x := by
  cases hx with
  | finished n hi hr hwi hwr =>
    rintro ⟨s, drawn⟩
    cases s with
    | true => exact step_of_wire_nil hwi
    | false => exact step_of_wire_nil hwr

/-- A settled state is the end of every run. -/
theorem Settled.run {x : Linkup} (hx : Settled hmac x) (evs : List (Bool × Bytes32)) :
    Lib.run (step hmac) x evs = x := by
  induction evs with
  | nil => rfl
  | cons e evs ih => rw [run_cons, hx e, ih]

/-- From every stage the handshake can be finished, whatever was drawn. -/
theorem Progress.exists_finished (h : Compatible cfg) (hfits : HelloFits cfg) {x : Linkup}
    {stage : Stage} (hx : Progress hmac cfg fresh stage x) :
    ∃ more, Progress hmac cfg fresh .finished (Lib.run (Linkup.step hmac) x more) := by
  refine ⟨[true, false, true, false, true].map fun s => (s, fresh true), ?_⟩
  have hrun := hx.run h hfits ([true, false, true, false, true].map fun s => (s, fresh true))
  rwa [List.map_map, show Prod.fst ∘ (fun s => (s, fresh true)) = id from rfl, List.map_id,
    stage.run_next_alternating] at hrun

theorem completes_of_helloFits (h : Compatible cfg) (hfits : HelloFits cfg) :
    Completes hmac cfg (start cfg fresh) := by
  constructor
  · intro evs
    have hx := (progress_start hmac cfg fresh).run h hfits evs
    obtain ⟨more, hmore⟩ := hx.exists_finished h hfits
    refine ⟨more, ?_⟩
    rw [run_append]
    exact hmore.settled
  · intro evs hsettled
    have hx := (progress_start hmac cfg fresh).run h hfits evs
    obtain ⟨more, hmore⟩ := hx.exists_finished h hfits
    rw [hsettled.run] at hmore
    exact hmore.established

/-! ## The handshake that fails at the HELLO -/

/-- Side `s` can neither read nor accept the HELLO. -/
def Refuses (cfg : Bool → LinkConfig) (s : Bool) : Prop :=
  maxClusterNameLen < nameLen cfg ∨
    (cfg s).maxFrame.toNat < 2 + (fixedPrefix + nameLen cfg)

variable (hmac fresh) in
/-- A side whose own name is too long accepts no HELLO at all: no name that
    decodes is equal to it. -/
theorem onFrame_start_refused (h : Compatible cfg) (hlong : maxClusterNameLen < nameLen cfg)
    (s : Bool) (frame : Frame) (drawn : Bytes32) :
    ∃ hs reason, (Session.start (role s) (cfg s) (fresh s)).hs.onFrame hmac frame drawn =
      (hs, .refused reason) := by
  have hval : ∀ hs : Handshake, hs.cfg = cfg s → ∀ neg,
      hs.validatePeerHello frame.body ≠ .ok neg := by
    intro hs hcfg neg hok
    obtain ⟨hello, hdec, hname, -⟩ := Handshake.validatePeerHello_eq_ok_iff.mp hok
    have hfits : (asBytes hello.clusterName).length ≤ maxClusterNameLen :=
      (Hello.decode_eq_ok_iff.mp hdec).1
    rw [hname, hcfg, h.asBytes_name] at hfits
    omega
  show ∃ hs reason, Handshake.onHello _ frame drawn = (hs, .refused reason)
  unfold Handshake.onHello
  split_ifs with hkind
  · exact ⟨_, _, rfl⟩
  · dsimp only
    split
    · exact ⟨_, _, rfl⟩
    · next hok => exact absurd hok (hval _ rfl _)

variable (hmac) in
/-- The first turn of such a side reads nothing or fails. -/
theorem turn_start_of_refuses (h : Compatible cfg) {s : Bool} (hrefuses : Refuses cfg s)
    {stream : Bytes} (hwire : (helloFrame cfg fresh !s).encode <+: stream) (drawn : Bytes32) :
    turn hmac (Session.start (role s) (cfg s) (fresh s)) stream drawn =
        (Session.start (role s) (cfg s) (fresh s), stream, []) ∨
      ∃ e, (turn hmac (Session.start (role s) (cfg s) (fresh s)) stream drawn).1.outcome =
        some (.error e) := by
  obtain ⟨rest, rfl⟩ := hwire
  have hlen : (helloFrame cfg fresh !s).body.length = fixedPrefix + nameLen cfg := length_hello h !s
  by_cases hlong : maxClusterNameLen < nameLen cfg
  · unfold turn
    rw [if_neg (by simp [Session.start])]
    split
    · exact .inl rfl
    · exact .inr ⟨_, rfl⟩
    · right
      dsimp only
      unfold Session.onRaw
      rw [if_neg (by simp [Session.start])]
      split
      · exact ⟨_, rfl⟩
      · exact ⟨_, rfl⟩
      · split
        · exact ⟨_, rfl⟩
        · next k _ =>
          obtain ⟨hs, reason, hon⟩ := onFrame_start_refused hmac fresh h hlong s ⟨k, _, _⟩ drawn
          refine ⟨.refused reason, ?_⟩
          unfold Session.feed
          rw [hon]
  · have hover := hrefuses.resolve_left hlong
    rw [← hlen] at hover
    have hmax : maxClusterNameLen = 255 := rfl
    have hpre : fixedPrefix = 58 := rfl
    have hread := readRawFrame_oversize (helloFrame cfg fresh !s) rest _ hover (by omega)
    right
    unfold turn
    rw [if_neg (by simp [Session.start]), show readRawFrame _ (Session.start (role s) (cfg s)
      (fresh s)).hs.cfg.maxFrame.toNat = _ from hread]
    exact ⟨_, rfl⟩

/-- The side is still at its start with the HELLO in front of it, or has
    failed. -/
def Doomed (cfg : Bool → LinkConfig) (fresh : Bool → Bytes32) (s : Bool) (x : Linkup) : Prop :=
  (x.side s = Session.start (role s) (cfg s) (fresh s) ∧
      (helloFrame cfg fresh !s).encode <+: x.wire s) ∨
    ∃ e, (x.side s).outcome = some (.error e)

theorem doomed_start (s : Bool) : Doomed cfg fresh s (start cfg fresh) :=
  .inl ⟨rfl, List.prefix_refl _⟩

theorem Doomed.step (h : Compatible cfg) {s : Bool} (hrefuses : Refuses cfg s) {x : Linkup}
    (hx : Doomed cfg fresh s x) (e : Bool × Bytes32) : Doomed cfg fresh s (step hmac x e) := by
  obtain ⟨t, drawn⟩ := e
  rcases ht : turn hmac (x.side t) (x.wire t) drawn with ⟨session, rest, out⟩
  rw [step_of_turn rfl rfl ht]
  rcases Bool.eq_or_eq_not t s with rfl | rfl
  · -- its own turn
    rcases hx with ⟨hside, hwire⟩ | ⟨err, herr⟩
    · have hturn := turn_start_of_refuses hmac h hrefuses hwire drawn
      rw [← hside, ht] at hturn
      rcases hturn with hidle | ⟨err, herr⟩
      · cases hidle
        refine .inl ⟨?_, ?_⟩
        · simpa using hside
        · simpa using hwire
      · exact .inr ⟨err, by simpa using herr⟩
    · rw [turn_of_outcome (by rw [herr]; rfl)] at ht
      cases ht
      exact .inr ⟨err, by simpa using herr⟩
  · -- the other side only adds to the stream
    rcases hx with ⟨hside, hwire⟩ | ⟨err, herr⟩
    · refine .inl ⟨?_, ?_⟩
      · simpa using hside
      · simpa using hwire.trans (List.prefix_append _ _)
    · exact .inr ⟨err, by simpa using herr⟩

theorem exists_refuses (hfits : ¬ HelloFits cfg) : ∃ s, Refuses cfg s := by
  by_contra hnone
  refine hfits ⟨Nat.le_of_not_lt fun hlong => hnone ⟨true, .inl hlong⟩, fun s => ?_⟩
  exact Nat.le_of_not_lt fun hover => hnone ⟨s, .inr hover⟩

variable (hmac fresh) in
/-- Without a HELLO that fits, no run ends well for both sides. -/
theorem outcome_ne_ok (h : Compatible cfg) (hfits : ¬ HelloFits cfg)
    (evs : List (Bool × Bytes32)) :
    ∃ s, ∀ neg, ((run (step hmac) (start cfg fresh) evs).side s).outcome ≠ some (.ok neg) := by
  obtain ⟨s, hs⟩ := exists_refuses hfits
  refine ⟨s, fun neg hout => ?_⟩
  have hdoomed : Doomed cfg fresh s (run (step hmac) (start cfg fresh) evs) :=
    run_invariant (fun x e hx => hx.step h hs e) (doomed_start s)
  rcases hdoomed with ⟨hside, -⟩ | ⟨err, herr⟩
  · rw [hside] at hout
    cases hout
  · rw [herr] at hout
    cases hout

/-- Compatible sides complete their handshake if and only if the HELLO fits. -/
theorem completes_iff (h : Compatible cfg) :
    Completes hmac cfg (start cfg fresh) ↔ HelloFits cfg := by
  constructor
  · intro hcompletes
    by_contra hfits
    obtain ⟨more, hsettled⟩ := hcompletes.1 []
    obtain ⟨s, hs⟩ := outcome_ne_ok hmac fresh h hfits ([] ++ more)
    exact hs _ (hcompletes.2 _ hsettled s)
  · exact completes_of_helloFits h

variable (hmac fresh) in
/-- Some run establishes the link. -/
theorem exists_established (h : Compatible cfg) (hfits : HelloFits cfg) :
    ∃ evs, Established cfg (run (step hmac) (start cfg fresh) evs) := by
  obtain ⟨evs, hevs⟩ := (progress_start hmac cfg fresh).exists_finished h hfits
  exact ⟨evs, hevs.established⟩

/-- Where both sides have succeeded, they have the negotiated parameters. -/
theorem established_of_outcome (h : Compatible cfg) {evs : List (Bool × Bytes32)}
    {neg : Bool → Negotiated}
    (hout : ∀ s, ((run (step hmac) (start cfg fresh) evs).side s).outcome = some (.ok (neg s))) :
    Established cfg (run (step hmac) (start cfg fresh) evs) := by
  by_cases hfits : HelloFits cfg
  · have hx := (progress_start hmac cfg fresh).run h hfits evs
    have hinitiator := hout true
    generalize run (step hmac) (start cfg fresh) evs = x at hx hinitiator
    generalize run Stage.next .opened (evs.map Prod.fst) = stage at hx
    cases hx with
    | finished n hi hr hwi hwr => exact Progress.established (.finished n hi hr hwi hwr)
    -- before the end the initiator is still waiting
    | _ => simp_all [Session.start, initiatorAtChallenge, initiatorAtAuth]
  · obtain ⟨s, hs⟩ := outcome_ne_ok hmac fresh h hfits evs
    exact absurd (hout s) (hs _)

end

end Linkup

end BeamSocket.Mesh
