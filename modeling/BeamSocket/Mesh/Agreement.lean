import BeamSocket.Mesh.HandshakeNet

/-!
# Agreement on the negotiated parameters

The MAC covers the plain concatenation of the two HELLO bodies, and
`Hello::decode` ignores what follows the cluster name. A body delivered to the
responder may therefore carry the initiator's HELLO followed by a tail `t`, and
the same `t` may be put in front of the responder's HELLO on its way to the
initiator: both sides then authenticate one transcript, cut in two places.

* `Session.decode_initiator_peer`: what the initiator of such a pair decoded is
  the HELLO that starts at the tail, and the responder's own without a tail.
* `Net.agreement_of_noSecondHello`: the two sides agree in every run in which
  no HELLO delivered to a responder hides a second one.
* `SecondHelloRun.disagreement`: a run in which one does, and they disagree.
-/

namespace BeamSocket.Mesh

open BeamSocket.Lib

/-- The HELLO that starts behind the one `body` decodes to, once the receiver's
    own HELLO `own` is put after it in the transcript. -/
def secondHello (body own : Bytes) : Option Hello :=
  match Hello.decode body with
  | .error _ => none
  | .ok h =>
    if body.drop h.encode.length = [] then none
    else (Hello.decode (body.drop h.encode.length ++ own)).toOption

/-- Both sessions completed, and each accepted an AUTH the other wrote. -/
structure MutuallyAccepted (i r : Session) (negI negR : Negotiated) : Prop where
  initiator : i.hs.role = .initiator
  responder : r.hs.role = .responder
  initiatorOutcome : i.outcome = some (.ok negI)
  responderOutcome : r.outcome = some (.ok negR)
  responderAccepted : ∃ b ∈ r.accepted, Frame.new .auth b ∈ i.sent
  initiatorAccepted : ∃ b ∈ i.accepted, Frame.new .auth b ∈ r.sent

/-- The two sides hold the same parameters, and each knows the other by the ids
    of the HELLO the other sent. -/
structure Agree (i r : Session) (negI negR : Negotiated) : Prop where
  protocolVersion : negI.protocolVersion = negR.protocolVersion
  features : negI.features = negR.features
  maxFrame : negI.maxFrame = negR.maxFrame
  responderId : negI.peerNodeId = r.hello.nodeId ∧ negI.peerIncarnation = r.hello.incarnation
  initiatorId : negR.peerNodeId = i.hello.nodeId ∧ negR.peerIncarnation = i.hello.incarnation

/-- The event delivers no HELLO with a second one behind it to a responder. -/
def NoSecondHello (net : Net) : NetEvent → Prop
  | .deliver i kind _ body _ => kind = FrameKind.hello.asU8 →
      ∀ r ∈ net[i]?, r.hs.role = .responder → secondHello body r.hs.myHelloRaw = none
  | _ => True

instance (net : Net) : ∀ e, Decidable (NoSecondHello net e)
  | .start .. => isTrue trivial
  | .deliver i kind _ body _ => inferInstanceAs (Decidable (kind = FrameKind.hello.asU8 →
      ∀ r ∈ net[i]?, r.hs.role = .responder → secondHello body r.hs.myHelloRaw = none))
  | .fail .. => isTrue trivial

/-! ## The two cuts of one transcript -/

namespace Session

variable {hmac : Hmac} {i r : Session}

/-- With one transcript on both sides, the initiator decodes the second HELLO of
    the responder's body if there is one, and the responder's HELLO otherwise. -/
theorem decode_initiator_peer (hi : i.Inv hmac) (hr : r.Inv hmac)
    (hri : i.hs.role = .initiator) (hrr : r.hs.role = .responder) {n : Bytes32}
    (hni : i.hs.nonce = some n) (hnr : r.hs.nonce = some n)
    (ht : i.hs.transcript = r.hs.transcript) :
    ∃ pI pR, i.hs.peerHelloRaw = some pI ∧ r.hs.peerHelloRaw = some pR ∧
      Hello.decode pI = .ok ((secondHello pR r.hs.myHelloRaw).getD r.hello) := by
  obtain ⟨pR, hpR, hdecR⟩ := hi.decode_peer hr hri hrr hni hnr ht
  obtain ⟨neg, pI, -, hpI, hval, -⟩ := hi.ofNonce hni
  obtain ⟨k, hk, -⟩ := Handshake.validatePeerHello_eq_ok_iff.mp hval
  refine ⟨pI, pR, hpI, hpR, ?_⟩
  obtain ⟨-, t, rfl⟩ := Hello.decode_eq_ok_iff.mp hdecR
  -- the transcripts `hI ‖ pI` and `hI ‖ t ‖ hR` are equal, so `pI = t ‖ hR`
  have hcut : pI = t ++ r.hs.myHelloRaw := by
    unfold Handshake.transcript at ht
    simp only [hri, hrr, hpI, hpR, Option.getD_some, hi.machine.hello, List.append_assoc] at ht
    exact List.append_cancel_left ht
  have htail : (i.hello.encode ++ t).drop i.hello.encode.length = t := List.drop_left
  simp only [secondHello, hdecR, htail]
  by_cases hnil : t = []
  · rw [if_pos hnil, hcut, hnil, List.nil_append]
    have hown := hr.decode_own hnr []
    rwa [List.append_nil] at hown
  · rw [if_neg hnil, ← hcut, hk]
    rfl

/-- The body a responder accepted hides no second HELLO. -/
def Clean (s : Session) : Prop :=
  s.hs.role = .responder → s.hs.negotiated ≠ none →
    ∀ p ∈ s.hs.peerHelloRaw, secondHello p s.hs.myHelloRaw = none

theorem Clean.fail {s : Session} (h : s.Clean) (e : LinkError) : (s.fail e).Clean := by
  unfold Session.fail
  split_ifs
  · exact h
  · exact h

theorem Clean.feed {s : Session} (inv : s.Inv hmac) (h : s.Clean) {frame : Frame}
    {drawn : Bytes32} (hframe : frame.kind = .hello → s.hs.role = .responder →
      secondHello frame.body s.hs.myHelloRaw = none) : (s.feed hmac frame drawn).Clean := by
  have hstep : Handshake.Step hmac drawn frame s.hs (s.hs.onFrame hmac frame drawn).1
      (s.hs.onFrame hmac frame drawn).2 := Handshake.step_onFrame inv.machine
  unfold Session.feed
  generalize s.hs.onFrame hmac frame drawn = res at hstep
  obtain ⟨hs', out⟩ := res
  cases hstep with
  | refused hraw =>
    rcases hraw with rfl | hstate
    · exact h
    · intro _ hneg
      exact absurd (inv.machine.ofAwaitingHello hstate).2 hneg
  | helloResponder hstate hkind hrole hval =>
    rintro _ _ p ⟨⟩
    exact hframe hkind hrole
  | helloInitiator hstate hkind hrole hval =>
    intro hrole'
    exact absurd (hrole.symm.trans hrole') (by decide)
  | challenge hstate hkind hbody => exact h
  | authResponder hstate hkind hrole hnonce hneg hbody => exact h
  | authInitiator hstate hkind hrole hnonce hneg hbody => exact h

theorem Clean.onRaw {s : Session} (inv : s.Inv hmac) (h : s.Clean) {kind flags : UInt8}
    {body : Bytes} {drawn : Bytes32} (hbody : kind = FrameKind.hello.asU8 →
      s.hs.role = .responder → secondHello body s.hs.myHelloRaw = none) :
    (s.onRaw hmac kind flags body drawn).Clean := by
  unfold Session.onRaw
  split_ifs
  · exact h
  · split
    · exact h.fail _
    · exact h.fail _
    · split
      · exact h.fail _
      · next k hk => exact h.feed inv fun hkind => hbody (FrameKind.asU8_of_fromU8 (hkind ▸ hk))

end Session

namespace Net

variable {hmac : Hmac} {secret : Bytes} {evs : List NetEvent} {i r : Session}
  {negI negR : Negotiated}

theorem clean_run (hmeet : StepsMeet (step hmac) NoSecondHello [] evs) :
    ∀ s ∈ after hmac evs, s.Clean := by
  have hboth : ∀ s ∈ after hmac evs, s.Inv hmac ∧ s.Clean := by
    refine run_invariant_of_stepsMeet (I := fun net : Net => ∀ s ∈ net, s.Inv hmac ∧ s.Clean)
      (C := NoSecondHello) ?_ (by simp) hmeet
    intro net e h hc
    refine forall_mem_step h (fun role cfg fresh => ⟨Session.inv_start hmac role cfg fresh, ?_⟩)
      ?_ (fun s e hs => ⟨hs.1.fail e, hs.2.fail e⟩)
    · intro _ hneg; exact absurd rfl hneg
    · rintro i k f b d rfl s hs ⟨inv, hclean⟩
      exact ⟨inv.onRaw k f b d, hclean.onRaw inv fun hk => hc hk s hs⟩
  exact fun s hs => (hboth s hs).2

/-- What the two sides of an established pair negotiated from: the responder the
    initiator's HELLO, the initiator the one `decode_initiator_peer` names. -/
theorem validated_of_mutuallyAccepted (ideal : Ideal hmac secret (after hmac evs))
    (hi : i ∈ after hmac evs) (hr : r ∈ after hmac evs) (h : MutuallyAccepted i r negI negR) :
    ∃ pI pR, i.hs.validatePeerHello pI = .ok negI ∧ r.hs.validatePeerHello pR = .ok negR ∧
      r.hs.peerHelloRaw = some pR ∧ Hello.decode pR = .ok i.hello ∧
      Hello.decode pI = .ok ((secondHello pR r.hs.myHelloRaw).getD r.hello) := by
  have invI := inv_run hmac evs i hi
  have invR := inv_run hmac evs r hr
  obtain ⟨b, hb, hsent⟩ := h.responderAccepted
  obtain ⟨-, htr, n, hnr, hni⟩ := sender_of_accepted ideal hr hi hb hsent
  obtain ⟨pI, pR, hpI, hpR, hdec⟩ :=
    Session.decode_initiator_peer invI invR h.initiator h.responder hni hnr htr
  obtain ⟨p, hp, hdecR⟩ := invI.decode_peer invR h.initiator h.responder hni hnr htr
  obtain rfl : p = pR := by simpa [hpR] using hp.symm
  obtain ⟨q, hq, hvalI⟩ := invI.machine.valid negI (invI.ofEstablished negI h.initiatorOutcome).1
  obtain rfl : q = pI := by simpa [hpI] using hq.symm
  obtain ⟨q, hq, hvalR⟩ := invR.machine.valid negR (invR.ofEstablished negR h.responderOutcome).1
  obtain rfl : q = p := by simpa [hpR] using hq.symm
  exact ⟨_, _, hvalI, hvalR, hpR, hdecR, hdec⟩

/-- In every run in which no HELLO delivered to a responder hides a second one,
    an initiator and a responder that accepted each other's AUTH agree. -/
theorem agreement_of_noSecondHello (hmac : Hmac) (secret : Bytes) (evs : List NetEvent)
    (ideal : Ideal hmac secret (after hmac evs))
    (hmeet : StepsMeet (step hmac) NoSecondHello [] evs) :
    ∀ i ∈ after hmac evs, ∀ r ∈ after hmac evs, ∀ negI negR,
      MutuallyAccepted i r negI negR → Agree i r negI negR := by
  intro i hi r hr negI negR h
  obtain ⟨pI, pR, hvalI, hvalR, hpR, hdecR, hdecI⟩ := validated_of_mutuallyAccepted ideal hi hr h
  obtain ⟨hello, hh, -, -, -, -, rfl⟩ := Handshake.validatePeerHello_eq_ok_iff.mp hvalR
  obtain rfl : hello = i.hello := by simpa [hdecR] using hh.symm
  have hclean : secondHello pR r.hs.myHelloRaw = none :=
    clean_run hmeet r hr h.responder
      (by rw [((inv_run hmac evs r hr).ofEstablished _ h.responderOutcome).1]; simp) pR hpR
  rw [hclean, Option.getD_none] at hdecI
  obtain ⟨hello, hh, -, -, -, -, rfl⟩ := Handshake.validatePeerHello_eq_ok_iff.mp hvalI
  obtain rfl : hello = r.hello := by simpa [hdecI] using hh.symm
  have hversion : min i.hs.cfg.protocolVersion r.hs.cfg.protocolVersion =
      min r.hs.cfg.protocolVersion i.hs.cfg.protocolVersion := Std.Commutative.comm _ _
  have hframe : min i.hs.cfg.maxFrame r.hs.cfg.maxFrame =
      min r.hs.cfg.maxFrame i.hs.cfg.maxFrame := Std.Commutative.comm _ _
  exact ⟨hversion, UInt32.and_comm _ _, hframe, ⟨rfl, rfl⟩, ⟨rfl, rfl⟩⟩

end Net

/-- The honest run meets the condition, and its two sides agree. -/
theorem HonestRun.agree_events :
    ∃ i ∈ Net.after hmac events, ∃ r ∈ Net.after hmac events, ∃ negI negR,
      MutuallyAccepted i r negI negR ∧ Agree i r negI negR := by
  let i := (Net.after hmac events).get ⟨0, by decide +kernel⟩
  let r := (Net.after hmac events).get ⟨1, by decide +kernel⟩
  have hacc : MutuallyAccepted i r ⟨1, 3, defaultMaxFrame, .initiator, 2, 0⟩
      ⟨1, 3, defaultMaxFrame, .responder, 1, 0⟩ :=
    ⟨by decide +kernel, by decide +kernel, by decide +kernel, by decide +kernel,
      by decide +kernel, by decide +kernel⟩
  exact ⟨i, List.get_mem _ _, r, List.get_mem _ _, _, _, hacc,
    Net.agreement_of_noSecondHello hmac sharedSecret events
      ⟨by decide +kernel, by decide +kernel, by decide +kernel, by decide +kernel,
        by decide +kernel⟩
      (by decide +kernel) i (List.get_mem _ _) r (List.get_mem _ _) _ _ hacc⟩

/-! ## A run with a second HELLO -/

namespace SecondHelloRun

open HonestRun (hello1 hello2)

/-- A HELLO the attacker makes up: node 9 without features. No secret is needed
    to write it. -/
def tail : Bytes :=
  ({ LinkConfig.new 9 "prod" [] with features := 0 }.hello (constDraw 0x44)).encode

/-- HMAC-SHA256 of the initiator's input under `sharedSecret`. -/
def initiatorMac : Bytes32 :=
  ⟨[0xd5, 0x59, 0x61, 0x56, 0x69, 0x92, 0x22, 0x02, 0xc8, 0xab, 0x1c, 0xf9, 0x16, 0x9e, 0xa6, 0xd0,
    0x63, 0xf6, 0x6c, 0x39, 0x5d, 0x45, 0xe7, 0xf0, 0xbe, 0x40, 0xc9, 0x38, 0xcc, 0xb6, 0xc5, 0x98],
    rfl⟩

/-- HMAC-SHA256 of the responder's input under `sharedSecret`. -/
def responderMac : Bytes32 :=
  ⟨[0x9a, 0x8f, 0x23, 0x2d, 0x70, 0x03, 0x1b, 0xda, 0x99, 0x97, 0xe2, 0x3f, 0xc8, 0xf4, 0x57, 0x9c,
    0xe5, 0xc9, 0xec, 0x75, 0x59, 0xc4, 0xc1, 0xfb, 0x45, 0x4f, 0x0f, 0xd8, 0x6f, 0xa4, 0x89, 0xf7],
    rfl⟩

/-- The MAC function, as far as the run calls it. -/
def hmac : Hmac := tableMac (constDraw 0x33) (hello1 ++ tail ++ hello2) initiatorMac responderMac

/-- `tail` is appended to the HELLO on its way to node 2 and put before the one
    on its way to node 1; every other frame arrives as it was sent. -/
def events : List NetEvent :=
  dialEvents prodConfig (hello1 ++ tail) (tail ++ hello2) initiatorMac responderMac

/-- Both sides are established and accepted each other's AUTH, but node 1
    believes it is linked to node 9 without features. -/
theorem disagreement : Net.Ideal hmac sharedSecret (Net.after hmac events) ∧
    ∃ i ∈ Net.after hmac events, ∃ r ∈ Net.after hmac events, ∃ negI negR,
      MutuallyAccepted i r negI negR ∧ negI.features = 0 ∧ negR.features = 3 ∧
      negI.peerNodeId = 9 ∧ r.hello.nodeId = 2 ∧ ¬ Agree i r negI negR := by
  refine ⟨⟨by decide +kernel, by decide +kernel, by decide +kernel, by decide +kernel,
    by decide +kernel⟩, (Net.after hmac events).get ⟨0, by decide +kernel⟩, List.get_mem _ _,
    (Net.after hmac events).get ⟨1, by decide +kernel⟩, List.get_mem _ _,
    ⟨1, 0, defaultMaxFrame, .initiator, 9, 0⟩, ⟨1, 3, defaultMaxFrame, .responder, 1, 0⟩,
    ⟨by decide +kernel, by decide +kernel, by decide +kernel, by decide +kernel,
      by decide +kernel, by decide +kernel⟩, rfl, rfl, rfl, by decide +kernel, ?_⟩
  intro h
  exact absurd h.features (by decide)

end SecondHelloRun

end BeamSocket.Mesh
