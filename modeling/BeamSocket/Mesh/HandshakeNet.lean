import BeamSocket.Mesh.Handshake
import BeamSocket.Lib.Run

/-!
# Handshake sessions against a network attacker

Any number of handshake sessions of honest nodes. Each is driven by
`run_handshake` (`crates/mesh/src/link.rs`, lines 387–431): it writes the
opening HELLO, feeds every frame it reads to the machine and stops at the first
outcome. The attacker is the network: an event delivers any frame to any
session at any time, so frames are dropped, altered, replayed, reflected and
injected at will.

The MAC is idealised by hypotheses on the state reached (`Net.Ideal`): it is
injective on the inputs that occurred, and an AUTH body that verified was
emitted by some session.

* `Session.Inv`, `Net.inv_run`: what every session of every run satisfies.
* `Net.sender_of_accepted`: an accepted AUTH was emitted by a session of the
  other role with the same nonce and the same transcript.
* `Net.injective_mutual_authentication`: the matching of sessions.
-/

namespace BeamSocket.Mesh

open BeamSocket.Lib

/-- The `LinkError`s a handshake ends with. -/
inductive LinkError
  | read (e : ReadError)
  | protocol (what : String)
  | refused (reason : RefuseReason)
  | authTimeout
  | panicked (message : String)
  deriving DecidableEq

/-- One handshake under `run_handshake`: the machine, the fresh nonce of its
    HELLO, every frame it has written, the AUTH body that verified, and the
    outcome once there is one. -/
structure Session where
  hs : Handshake
  fresh : Bytes32
  sent : List Frame
  accepted : Option Bytes
  outcome : Option (Except LinkError Negotiated)
  deriving DecidableEq

namespace Session

/-- The start of `run_handshake`: the machine is made and its HELLO written. -/
def start (role : Role) (cfg : LinkConfig) (fresh : Bytes32) : Session :=
  let (hs, opening) := (Handshake.new role cfg).start fresh
  ⟨hs, fresh, [opening], none, none⟩

/-- The HELLO a session has sent. -/
def hello (s : Session) : Hello := s.hs.cfg.hello s.fresh

/-- The `match` on `on_frame` in the loop of `run_handshake`. -/
def feed (hmac : Hmac) (s : Session) (frame : Frame) (drawn : Bytes32) : Session :=
  match s.hs.onFrame hmac frame drawn with
  | (hs, .continue send) => { s with hs := hs, sent := s.sent ++ send }
  | (hs, .established send negotiated) =>
    { s with
      hs := hs, sent := s.sent ++ send, accepted := some frame.body,
      outcome := some (.ok negotiated) }
  | (hs, .refused reason) => { s with hs := hs, outcome := some (.error (.refused reason)) }
  | (hs, .panicked message) => { s with hs := hs, outcome := some (.error (.panicked message)) }

/-- The session ends without an outcome of the machine. -/
def fail (s : Session) (e : LinkError) : Session :=
  if s.outcome.isSome then s else { s with outcome := some (.error e) }

/-- One turn of the loop of `run_handshake` on the frame read next. Reads are
    bounded by the session's own `max_frame`; nothing is read after an
    outcome. -/
def onRaw (hmac : Hmac) (s : Session) (kind flags : UInt8) (body : Bytes) (drawn : Bytes32) :
    Session :=
  if s.outcome.isSome then s
  else
    match decodeLen (2 + body.length) s.hs.cfg.maxFrame.toNat with
    | .error (.oversize len max) => s.fail (.read (.oversize len max))
    | .error _ => s.fail (.read .malformedLength)
    | .ok _ =>
      match FrameKind.fromU8 kind with
      | none => s.fail (.protocol "unknown frame kind during handshake")
      | some k => s.feed hmac ⟨k, flags, body⟩ drawn

end Session

/-- The sessions opened so far, oldest first. -/
abbrev Net := List Session

/-- What can happen next: a node opens a session; the network hands a frame to
    a session; a session's stream ends or times out. -/
inductive NetEvent
  | start (role : Role) (cfg : LinkConfig) (fresh : Bytes32)
  | deliver (i : ℕ) (kind flags : UInt8) (body : Bytes) (drawn : Bytes32)
  | fail (i : ℕ) (e : LinkError)

namespace Net

/-- One event. -/
def step (hmac : Hmac) (net : Net) : NetEvent → Net
  | .start role cfg fresh => net ++ [Session.start role cfg fresh]
  | .deliver i kind flags body drawn => net.modify i (·.onRaw hmac kind flags body drawn)
  | .fail i e => net.modify i (·.fail e)

/-- The sessions after the events of a run that starts with none. -/
def after (hmac : Hmac) (evs : List NetEvent) : Net := run (step hmac) [] evs

end Net

/-! ## The invariant of a session -/

namespace Session

/-- What every session of a run satisfies. -/
structure Inv (hmac : Hmac) (s : Session) : Prop where
  machine : s.hs.Inv s.fresh
  helloSent : ∀ raw, Frame.new .hello raw ∈ s.sent ↔ raw = s.hello.encode
  /-- Every AUTH written is the MAC under the session's own label; a responder
      writes one only after it has accepted one. -/
  authSent : ∀ b, Frame.new .auth b ∈ s.sent → ∃ n, s.hs.nonce = some n ∧
    b = (s.hs.mac hmac s.hs.role.myLabel n).val ∧
    (s.hs.role = .responder → ∃ b', s.accepted = some b')
  initiatorAuth : s.hs.role = .initiator → ∀ n, s.hs.nonce = some n →
    Frame.new .auth (s.hs.mac hmac s.hs.role.myLabel n).val ∈ s.sent
  accepted : ∀ b, s.accepted = some b → ∃ n, s.hs.nonce = some n ∧
    b = (s.hs.mac hmac s.hs.role.peerLabel n).val
  ofAccepted : ∀ b, s.accepted = some b → ∃ neg, s.outcome = some (.ok neg)
  ofEstablished : ∀ neg, s.outcome = some (.ok neg) →
    s.hs.negotiated = some neg ∧ ∃ b, s.accepted = some b

theorem inv_start (hmac : Hmac) (role : Role) (cfg : LinkConfig) (fresh : Bytes32) :
    (Session.start role cfg fresh).Inv hmac where
  machine := Handshake.inv_start role cfg fresh
  helloSent := by
    intro raw
    rw [start, Handshake.start, List.mem_singleton, Frame.new, Frame.new, Frame.mk.injEq]
    simp only [true_and]
    exact Iff.rfl
  authSent := by
    intro b hb
    cases List.mem_singleton.mp hb
  initiatorAuth := by intro _ n h; cases h
  accepted := by intro b h; cases h
  ofAccepted := by intro b h; cases h
  ofEstablished := by intro neg h; cases h

variable {hmac : Hmac} {s : Session}

theorem Inv.fail (inv : s.Inv hmac) (e : LinkError) : (s.fail e).Inv hmac := by
  unfold Session.fail
  split_ifs with hout
  · exact inv
  · refine ⟨inv.machine, inv.helloSent, inv.authSent, inv.initiatorAuth, inv.accepted, ?_, ?_⟩
    · intro b hb
      obtain ⟨neg, hneg⟩ := inv.ofAccepted b hb
      exact absurd (by rw [hneg]; rfl) hout
    · intro neg h
      cases h

/-- A session still running has accepted no AUTH, so a responder has written
    none. -/
theorem Inv.accepted_eq_none (inv : s.Inv hmac) (hout : s.outcome = none) :
    s.accepted = none := by
  cases hacc : s.accepted with
  | none => rfl
  | some b =>
    obtain ⟨neg, hneg⟩ := inv.ofAccepted b hacc
    rw [hout] at hneg
    cases hneg

theorem Inv.helloSent_append (inv : s.Inv hmac) {send : List Frame}
    (hsend : ∀ f ∈ send, f.kind ≠ .hello) (raw : Bytes) :
    Frame.new .hello raw ∈ s.sent ++ send ↔ raw = s.hello.encode := by
  rw [List.mem_append, inv.helloSent raw]
  refine or_iff_left fun h => ?_
  exact hsend _ h rfl

theorem Inv.feed (inv : s.Inv hmac) (hout : s.outcome = none) (frame : Frame) (drawn : Bytes32) :
    (s.feed hmac frame drawn).Inv hmac := by
  have hacc := inv.accepted_eq_none hout
  have hstep : Handshake.Step hmac drawn frame s.hs (s.hs.onFrame hmac frame drawn).1
      (s.hs.onFrame hmac frame drawn).2 := Handshake.step_onFrame inv.machine
  have hmach := hstep.inv inv.machine
  unfold Session.feed
  generalize s.hs.onFrame hmac frame drawn = res at hstep hmach
  obtain ⟨hs', out⟩ := res
  -- before the nonce is set no AUTH has been written
  have hnoAuth : s.hs.nonce = none → ∀ b, Frame.new .auth b ∉ s.sent := by
    intro hn b hb
    obtain ⟨n, hn', -⟩ := inv.authSent b hb
    rw [hn] at hn'
    cases hn'
  cases hstep with
  | refused hraw =>
    refine ⟨hmach, inv.helloSent, ?_, ?_, ?_, ?_, ?_⟩
    · intro b hb
      rcases hraw with rfl | hstate
      · exact inv.authSent b hb
      · exact absurd hb (hnoAuth (inv.machine.ofAwaitingHello hstate).1 b)
    · intro hrole n hn
      rcases hraw with rfl | hstate
      · exact inv.initiatorAuth hrole n hn
      · exact absurd hn (by simp [(inv.machine.ofAwaitingHello hstate).1])
    · intro b hb; exact absurd hb (by simp [hacc])
    · intro b hb; exact absurd hb (by simp [hacc])
    · intro neg h; cases h
  | helloResponder hstate hkind hrole hval =>
    have hno := hnoAuth (inv.machine.ofAwaitingHello hstate).1
    refine ⟨hmach, inv.helloSent_append (by simp), ?_, ?_, ?_, ?_, ?_⟩
    · intro b hb
      rcases List.mem_append.mp hb with hb | hb
      · exact absurd hb (hno b)
      · cases List.mem_singleton.mp hb
    · intro hrole'; exact absurd (hrole.symm.trans hrole') (by decide)
    · intro b hb; exact absurd hb (by simp [hacc])
    · intro b hb; exact absurd hb (by simp [hacc])
    · intro neg h; exact absurd h (by simp [hout])
  | helloInitiator hstate hkind hrole hval =>
    have hnonce := (inv.machine.ofAwaitingHello hstate).1
    refine ⟨hmach, inv.helloSent_append (by simp), ?_, ?_, ?_, ?_, ?_⟩
    · intro b hb
      simp only [List.append_nil] at hb
      exact absurd hb (hnoAuth hnonce b)
    · intro _ n hn; exact absurd hn (by simp [hnonce])
    · intro b hb; exact absurd hb (by simp [hacc])
    · intro b hb; exact absurd hb (by simp [hacc])
    · intro neg h; exact absurd h (by simp [hout])
  | challenge hstate hkind hbody =>
    obtain ⟨hrole, hnonce, -⟩ := inv.machine.ofAwaitingChallenge hstate
    refine ⟨hmach, inv.helloSent_append (by simp), ?_, ?_, ?_, ?_, ?_⟩
    · intro b hb
      rcases List.mem_append.mp hb with hb | hb
      · exact absurd hb (hnoAuth hnonce b)
      · cases List.mem_singleton.mp hb
        exact ⟨_, rfl, rfl, fun h => absurd (hrole.symm.trans h) (by decide)⟩
    · rintro _ n ⟨⟩
      exact List.mem_append_right _ (List.mem_singleton.mpr rfl)
    · intro b hb; exact absurd hb (by simp [hacc])
    · intro b hb; exact absurd hb (by simp [hacc])
    · intro neg h; exact absurd h (by simp [hout])
  | authResponder hstate hkind hrole hnonce hneg hbody =>
    have hlabel : responderLabel = s.hs.role.myLabel := by rw [hrole]; rfl
    refine ⟨hmach, inv.helloSent_append (by simp), ?_, ?_, ?_, ?_, ?_⟩
    · intro b hb
      rcases List.mem_append.mp hb with hb | hb
      · obtain ⟨n, hn, hb, -⟩ := inv.authSent b hb
        exact ⟨n, hn, hb, fun _ => ⟨_, rfl⟩⟩
      · cases List.mem_singleton.mp hb
        exact ⟨_, hnonce, congrArg (fun l => (s.hs.mac hmac l _).val) hlabel, fun _ => ⟨_, rfl⟩⟩
    · intro hrole'; exact absurd (hrole.symm.trans hrole') (by decide)
    · rintro b ⟨⟩; exact ⟨_, hnonce, hbody⟩
    · intro b _; exact ⟨_, rfl⟩
    · rintro neg ⟨⟩; exact ⟨hneg, _, rfl⟩
  | authInitiator hstate hkind hrole hnonce hneg hbody =>
    refine ⟨hmach, inv.helloSent_append (by simp), ?_, ?_, ?_, ?_, ?_⟩
    · intro b hb
      simp only [List.append_nil] at hb
      obtain ⟨n, hn, hb, -⟩ := inv.authSent b hb
      exact ⟨n, hn, hb, fun _ => ⟨_, rfl⟩⟩
    · intro _ n hn; exact List.mem_append_left _ (inv.initiatorAuth hrole n hn)
    · rintro b ⟨⟩; exact ⟨_, hnonce, hbody⟩
    · intro b _; exact ⟨_, rfl⟩
    · rintro neg ⟨⟩; exact ⟨hneg, _, rfl⟩

theorem Inv.onRaw (inv : s.Inv hmac) (kind flags : UInt8) (body : Bytes) (drawn : Bytes32) :
    (s.onRaw hmac kind flags body drawn).Inv hmac := by
  unfold Session.onRaw
  split_ifs with hout
  · exact inv
  · split
    · exact inv.fail _
    · exact inv.fail _
    · split
      · exact inv.fail _
      · exact inv.feed (by simpa using hout) _ _

end Session

namespace Net

variable {hmac : Hmac} {net : Net}

theorem forall_mem_modify {P : Session → Prop} {f : Session → Session} {i : ℕ}
    (h : ∀ s ∈ net, P s) (hf : ∀ s ∈ net[i]?, P s → P (f s)) : ∀ s ∈ net.modify i f, P s := by
  intro s hs
  obtain ⟨j, hj, rfl⟩ := List.getElem_of_mem hs
  have hj' : j < net.length := by simpa using hj
  rw [List.getElem_modify]
  split_ifs with hij
  · subst hij
    exact hf _ (List.getElem?_eq_getElem hj') (h _ (List.getElem_mem hj'))
  · exact h _ (List.getElem_mem hj')

/-- A property true of every new session and kept by what an event does to the
    session it is about is kept by the event. -/
theorem forall_mem_step {P : Session → Prop} {e : NetEvent} (h : ∀ s ∈ net, P s)
    (hstart : ∀ role cfg fresh, P (.start role cfg fresh))
    (hraw : ∀ i k f b d, e = .deliver i k f b d → ∀ s ∈ net[i]?, P s → P (s.onRaw hmac k f b d))
    (hfail : ∀ s e, P s → P (s.fail e)) : ∀ s ∈ net.step hmac e, P s := by
  cases e with
  | start role cfg fresh =>
    intro s hs
    rcases List.mem_append.mp hs with hs | hs
    · exact h s hs
    · rw [List.mem_singleton.mp hs]; exact hstart role cfg fresh
  | deliver i kind flags body drawn => exact forall_mem_modify h (hraw i kind flags body drawn rfl)
  | fail i e => exact forall_mem_modify h fun s _ => hfail s e

/-- Every session of every run satisfies the invariant. -/
theorem inv_run (hmac : Hmac) (evs : List NetEvent) :
    ∀ s ∈ after hmac evs, s.Inv hmac := by
  refine run_invariant (I := fun net : Net => ∀ s ∈ net, s.Inv hmac) ?_ (by simp)
  intro net e h
  exact forall_mem_step h (fun role cfg fresh => Session.inv_start hmac role cfg fresh)
    (fun i k f b d _ s _ inv => inv.onRaw k f b d) (fun s e inv => inv.fail e)

end Net

/-! ## The ideal MAC and the matching of sessions -/

/-- The MAC inputs a machine has formed once its nonce is set. -/
def Handshake.macInputs (hs : Handshake) : List Bytes :=
  match hs.nonce with
  | none => []
  | some n => [authInput initiatorLabel n hs.transcript, authInput responderLabel n hs.transcript]

/-- The session's handshake completed. -/
def Session.IsEstablished (s : Session) : Prop := ∃ neg, s.outcome = some (.ok neg)

/-- One secret, an ideal MAC under it and draws that never repeat, over the
    sessions of `net`. -/
structure Net.Ideal (hmac : Hmac) (secret : Bytes) (net : Net) : Prop where
  oneSecret : ∀ s ∈ net, s.hs.cfg.secret = secret
  /-- No two MAC inputs that occurred collide. -/
  injective : ∀ s ∈ net, ∀ t ∈ net, ∀ x ∈ s.hs.macInputs, ∀ y ∈ t.hs.macInputs,
    hmac secret x = hmac secret y → x = y
  /-- Only a session computes MACs: an AUTH that verified was written by one. -/
  unforgeable : ∀ s ∈ net, ∀ b ∈ s.accepted, ∃ t ∈ net, Frame.new .auth b ∈ t.sent
  fresh : ∀ i j : Fin net.length, (net.get i).fresh = (net.get j).fresh → i = j
  /-- Responders draw the nonces. -/
  nonce : ∀ i j : Fin net.length, (net.get i).hs.role = .responder →
    (net.get j).hs.role = .responder → ∀ n ∈ (net.get i).hs.nonce, n ∈ (net.get j).hs.nonce →
    i = j

/-- Initiator session `i` is the one responder session `r` authenticated: `i`
    was given `r`'s nonce, wrote the AUTH `r` accepted, and sent a HELLO that
    decodes to what `r` decoded. -/
structure Matched (i r : Session) : Prop where
  initiator : i.hs.role = .initiator
  responder : r.hs.role = .responder
  nonce : ∃ n, r.hs.nonce = some n ∧ i.hs.nonce = some n
  auth : ∃ b, r.accepted = some b ∧ Frame.new .auth b ∈ i.sent
  hello : ∃ raw p h, Frame.new .hello raw ∈ i.sent ∧ r.hs.peerHelloRaw = some p ∧
    Hello.decode p = .ok h ∧ Hello.decode raw = .ok h

/-- Injective mutual authentication of the sessions of `net`, each named by its
    position. -/
structure Net.Authentic (net : Net) : Prop where
  /-- An established responder has exactly one matching initiator. -/
  ofResponder : ∀ r : Fin net.length, (net.get r).hs.role = .responder →
    (net.get r).IsEstablished → ∃! i : Fin net.length, Matched (net.get i) (net.get r)
  /-- No initiator matches two responders. -/
  injective : ∀ i r s : Fin net.length, Matched (net.get i) (net.get r) →
    Matched (net.get i) (net.get s) → r = s
  /-- An established initiator matches an established responder. -/
  ofInitiator : ∀ i : Fin net.length, (net.get i).hs.role = .initiator →
    (net.get i).IsEstablished →
    ∃ r : Fin net.length, (net.get r).IsEstablished ∧ Matched (net.get i) (net.get r)
  /-- Whoever wrote an accepted AUTH is another session, matched with the one
      that accepted it. -/
  ofAccepted : ∀ s t : Fin net.length, ∀ b, (net.get s).accepted = some b →
    Frame.new .auth b ∈ (net.get t).sent → s ≠ t ∧
      ((net.get s).hs.role = .responder → Matched (net.get t) (net.get s)) ∧
      ((net.get s).hs.role = .initiator → Matched (net.get s) (net.get t))
  /-- An AUTH is accepted once. -/
  acceptedOnce : ∀ s t : Fin net.length, ∀ b, (net.get s).accepted = some b →
    (net.get t).accepted = some b → s = t

theorem Handshake.mem_macInputs {hs : Handshake} {n : Bytes32} (hn : hs.nonce = some n)
    (r : Role) : authInput r.myLabel n hs.transcript ∈ hs.macInputs ∧
      authInput r.peerLabel n hs.transcript ∈ hs.macInputs := by
  unfold macInputs
  rw [hn]
  cases r <;> simp [Role.myLabel, Role.peerLabel]

theorem Role.myLabel_eq_peerLabel {r r' : Role} (h : r.myLabel = r'.peerLabel) : r ≠ r' := by
  cases r <;> cases r' <;> simp_all [Role.myLabel, Role.peerLabel, initiatorLabel, responderLabel]

namespace Session

variable {hmac : Hmac} {s : Session}

/-- Once its nonce is set a session has accepted a HELLO, whose cluster name is
    its own; so its own name fits the limit. -/
theorem Inv.ofNonce (inv : s.Inv hmac) {n : Bytes32} (hn : s.hs.nonce = some n) :
    ∃ neg p, s.hs.negotiated = some neg ∧ s.hs.peerHelloRaw = some p ∧
      s.hs.validatePeerHello p = .ok neg ∧ s.hello.NameFits := by
  obtain ⟨neg, hneg⟩ := inv.machine.ofNonce n hn
  obtain ⟨p, hp, hval⟩ := inv.machine.valid neg hneg
  obtain ⟨h, hdec, hname, -⟩ := Handshake.validatePeerHello_eq_ok_iff.mp hval
  refine ⟨neg, p, hneg, hp, hval, ?_⟩
  have hfits := (Hello.decode_eq_ok_iff.mp hdec).1
  unfold Hello.NameFits at hfits ⊢
  rwa [hname] at hfits

/-- Such a session's own HELLO decodes to what it encoded, under any tail. -/
theorem Inv.decode_own (inv : s.Inv hmac) {n : Bytes32} (hn : s.hs.nonce = some n) (t : Bytes) :
    Hello.decode (s.hs.myHelloRaw ++ t) = .ok s.hello := by
  obtain ⟨-, -, -, -, -, hfits⟩ := inv.ofNonce hn
  rw [inv.machine.hello]
  exact Hello.decode_encode_append _ hfits t

/-- Sessions of opposite roles with one transcript: the responder decoded the
    HELLO the initiator sent. -/
theorem Inv.decode_peer {i r : Session} (hi : i.Inv hmac) (hr : r.Inv hmac)
    (hri : i.hs.role = .initiator) (hrr : r.hs.role = .responder) {n : Bytes32}
    (hni : i.hs.nonce = some n) (hnr : r.hs.nonce = some n)
    (ht : i.hs.transcript = r.hs.transcript) :
    ∃ p, r.hs.peerHelloRaw = some p ∧ Hello.decode p = .ok i.hello := by
  obtain ⟨neg, p, -, hp, hval, -⟩ := hr.ofNonce hnr
  obtain ⟨h, hdec, -⟩ := Handshake.validatePeerHello_eq_ok_iff.mp hval
  refine ⟨p, hp, ?_⟩
  -- the transcript starts with the initiator's HELLO on one side and with `p` on the other
  have hown := hi.decode_own hni (i.hs.peerHelloRaw.getD [])
  have hpeer := Hello.decode_append hdec r.hs.myHelloRaw
  unfold Handshake.transcript at ht
  simp only [hri, hrr, hp, Option.getD_some] at ht
  rw [ht, hpeer] at hown
  rw [hdec, hown]

/-- Sessions that agree on nonce and transcript, the responder having accepted,
    are matched. -/
theorem Inv.matched {i r : Session} (hi : i.Inv hmac) (hr : r.Inv hmac)
    (hsecret : i.hs.cfg.secret = r.hs.cfg.secret) (hri : i.hs.role = .initiator)
    (hrr : r.hs.role = .responder) {n : Bytes32} (hni : i.hs.nonce = some n)
    (hnr : r.hs.nonce = some n) (ht : i.hs.transcript = r.hs.transcript) {b : Bytes}
    (hb : r.accepted = some b) : Matched i r := by
  refine ⟨hri, hrr, ⟨n, hnr, hni⟩, ⟨b, hb, ?_⟩, ?_⟩
  · -- the AUTH `i` wrote is the MAC `r` expected
    obtain ⟨n', hn', hmac⟩ := hr.accepted b hb
    obtain rfl : n = n' := by simpa [hnr] using hn'
    have hsent := hi.initiatorAuth hri n hni
    rw [Handshake.mac, hri, ht, hsecret] at hsent
    rwa [hmac, Handshake.mac, hrr]
  · obtain ⟨p, hp, hdec⟩ := hi.decode_peer hr hri hrr hni hnr ht
    have hown := hi.decode_own hni []
    rw [List.append_nil, hi.machine.hello] at hown
    exact ⟨_, p, i.hello, (hi.helloSent _).mpr rfl, hp, hdec, hown⟩

/-- The HELLO of a matched initiator is the one the responder decoded. -/
theorem Inv.decode_of_matched {i r : Session} (hi : i.Inv hmac) (h : Matched i r) :
    ∃ p, r.hs.peerHelloRaw = some p ∧ Hello.decode p = .ok i.hello := by
  obtain ⟨raw, p, hello, hsent, hp, hdec, hraw⟩ := h.hello
  obtain ⟨n, -, hn⟩ := h.nonce
  have hown := hi.decode_own hn []
  rw [List.append_nil, hi.machine.hello] at hown
  rw [(hi.helloSent raw).mp hsent] at hraw
  exact ⟨p, hp, by rw [hdec, ← hraw]; exact hown⟩

end Session

namespace Net

variable {hmac : Hmac} {secret : Bytes} {evs : List NetEvent}

/-- An accepted AUTH was written by a session of the other role that holds the
    same nonce and the same transcript. -/
theorem sender_of_accepted (ideal : Ideal hmac secret (after hmac evs)) {s t : Session}
    (hs : s ∈ after hmac evs) (ht : t ∈ after hmac evs) {b : Bytes}
    (hacc : s.accepted = some b) (hsent : Frame.new .auth b ∈ t.sent) :
    t.hs.role ≠ s.hs.role ∧ t.hs.transcript = s.hs.transcript ∧
      ∃ n, s.hs.nonce = some n ∧ t.hs.nonce = some n := by
  obtain ⟨n, hn, hb⟩ := (inv_run hmac evs s hs).accepted b hacc
  obtain ⟨n', hn', hb', -⟩ := (inv_run hmac evs t ht).authSent b hsent
  have hmacs : hmac secret (authInput t.hs.role.myLabel n' t.hs.transcript) =
      hmac secret (authInput s.hs.role.peerLabel n s.hs.transcript) := by
    have h := hb'.symm.trans hb
    rw [Handshake.mac, Handshake.mac, ideal.oneSecret t ht, ideal.oneSecret s hs] at h
    exact Subtype.ext h
  have hin := ideal.injective t ht s hs _ (Handshake.mem_macInputs hn' _).1 _
    (Handshake.mem_macInputs hn _).2 hmacs
  obtain ⟨hlabel, rfl, htr⟩ := authInput_inj
    ((Role.length_myLabel _).trans (Role.length_peerLabel _).symm) hin
  exact ⟨Role.myLabel_eq_peerLabel hlabel, htr, _, hn, hn'⟩

theorem matched_of_responder_accepted (ideal : Ideal hmac secret (after hmac evs)) {s t : Session}
    (hs : s ∈ after hmac evs) (ht : t ∈ after hmac evs) {b : Bytes} (hacc : s.accepted = some b)
    (hsent : Frame.new .auth b ∈ t.sent) (hrole : s.hs.role = .responder) : Matched t s := by
  obtain ⟨hne, htr, n, hn, hn'⟩ := sender_of_accepted ideal hs ht hacc hsent
  have hrole' : t.hs.role = .initiator := by
    cases h : t.hs.role with
    | initiator => rfl
    | responder => exact absurd (h.trans hrole.symm) hne
  exact (inv_run hmac evs t ht).matched (inv_run hmac evs s hs)
    ((ideal.oneSecret t ht).trans (ideal.oneSecret s hs).symm) hrole' hrole hn' hn htr hacc

theorem matched_of_initiator_accepted (ideal : Ideal hmac secret (after hmac evs)) {s t : Session}
    (hs : s ∈ after hmac evs) (ht : t ∈ after hmac evs) {b : Bytes} (hacc : s.accepted = some b)
    (hsent : Frame.new .auth b ∈ t.sent) (hrole : s.hs.role = .initiator) :
    t.IsEstablished ∧ Matched s t := by
  obtain ⟨hne, htr, n, hn, hn'⟩ := sender_of_accepted ideal hs ht hacc hsent
  have hrole' : t.hs.role = .responder := by
    cases h : t.hs.role with
    | initiator => exact absurd (h.trans hrole.symm) hne
    | responder => rfl
  -- a responder writes its AUTH only when it has accepted one
  obtain ⟨-, -, -, hresp⟩ := (inv_run hmac evs t ht).authSent b hsent
  obtain ⟨b', hb'⟩ := hresp hrole'
  exact ⟨(inv_run hmac evs t ht).ofAccepted b' hb', (inv_run hmac evs s hs).matched
    (inv_run hmac evs t ht) ((ideal.oneSecret s hs).trans (ideal.oneSecret t ht).symm)
    hrole hrole' hn hn' htr.symm hb'⟩

theorem initiator_unique (ideal : Ideal hmac secret (after hmac evs)) {r : Session}
    {i j : Fin (after hmac evs).length} (hi : Matched ((after hmac evs).get i) r)
    (hj : Matched ((after hmac evs).get j) r) : i = j := by
  obtain ⟨p, hp, hdi⟩ := (inv_run hmac evs _ (List.get_mem _ i)).decode_of_matched hi
  obtain ⟨q, hq, hdj⟩ := (inv_run hmac evs _ (List.get_mem _ j)).decode_of_matched hj
  obtain rfl : p = q := by simpa [hp] using hq
  have heq : ((after hmac evs).get i).hello = ((after hmac evs).get j).hello := by
    simpa [hdi] using hdj
  exact ideal.fresh i j (congrArg Hello.fresh heq)

theorem responder_unique (ideal : Ideal hmac secret (after hmac evs)) {i : Session}
    {r s : Fin (after hmac evs).length} (hr : Matched i ((after hmac evs).get r))
    (hs : Matched i ((after hmac evs).get s)) : r = s := by
  obtain ⟨n, hnr, hni⟩ := hr.nonce
  obtain ⟨m, hns, hmi⟩ := hs.nonce
  obtain rfl : n = m := by simpa [hni] using hmi
  exact ideal.nonce r s hr.responder hs.responder n hnr hns

/-- Injective mutual authentication, over any number of interleaved sessions
    and any deliveries. -/
theorem injective_mutual_authentication (hmac : Hmac) (secret : Bytes) (evs : List NetEvent)
    (ideal : Ideal hmac secret (after hmac evs)) : Authentic (after hmac evs) := by
  have inv := inv_run hmac evs
  refine ⟨?_, fun i r s hr hs => responder_unique ideal hr hs, ?_, ?_, ?_⟩
  · rintro r hrole ⟨neg, hneg⟩
    obtain ⟨-, b, hb⟩ := (inv _ (List.get_mem _ r)).ofEstablished neg hneg
    obtain ⟨t, ht, hsent⟩ := ideal.unforgeable _ (List.get_mem _ r) b hb
    have hm := matched_of_responder_accepted ideal (List.get_mem _ r) ht hb hsent hrole
    obtain ⟨i, rfl⟩ := List.get_of_mem ht
    exact ⟨i, hm, fun j hj => initiator_unique ideal hj hm⟩
  · rintro i hrole ⟨neg, hneg⟩
    obtain ⟨-, b, hb⟩ := (inv _ (List.get_mem _ i)).ofEstablished neg hneg
    obtain ⟨t, ht, hsent⟩ := ideal.unforgeable _ (List.get_mem _ i) b hb
    have hm := matched_of_initiator_accepted ideal (List.get_mem _ i) ht hb hsent hrole
    obtain ⟨r, rfl⟩ := List.get_of_mem ht
    exact ⟨r, hm⟩
  · intro s t b hb hsent
    refine ⟨?_, fun hrole => ?_, fun hrole => ?_⟩
    · rintro rfl
      exact (sender_of_accepted ideal (List.get_mem _ s) (List.get_mem _ s) hb hsent).1 rfl
    · exact matched_of_responder_accepted ideal (List.get_mem _ s) (List.get_mem _ t) hb hsent hrole
    · exact (matched_of_initiator_accepted ideal (List.get_mem _ s) (List.get_mem _ t) hb hsent
        hrole).2
  · intro s t b hs ht
    obtain ⟨u, hu, hsent⟩ := ideal.unforgeable _ (List.get_mem _ s) b hs
    have hroles : ∀ v : Fin (after hmac evs).length, ((after hmac evs).get v).accepted = some b →
        (((after hmac evs).get v).hs.role = .responder → Matched u ((after hmac evs).get v)) ∧
        (((after hmac evs).get v).hs.role = .initiator → Matched ((after hmac evs).get v) u) :=
      fun v hv => ⟨matched_of_responder_accepted ideal (List.get_mem _ v) hu hv hsent,
        fun h => (matched_of_initiator_accepted ideal (List.get_mem _ v) hu hv hsent h).2⟩
    -- the writer has one role, so the two acceptors have the other one
    cases hrs : ((after hmac evs).get s).hs.role <;> cases hrt : ((after hmac evs).get t).hs.role
    · exact initiator_unique ideal ((hroles s hs).2 hrs) ((hroles t ht).2 hrt)
    · exact absurd (((hroles s hs).2 hrs).responder.symm.trans ((hroles t ht).1 hrt).initiator)
        (by decide)
    · exact absurd (((hroles t ht).2 hrt).responder.symm.trans ((hroles s hs).1 hrs).initiator)
        (by decide)
    · exact responder_unique ideal ((hroles s hs).1 hrs) ((hroles t ht).1 hrt)

end Net

/-! ## A run between two nodes -/

/-- The bytes of `shared-secret`. -/
def sharedSecret : Bytes :=
  [0x73, 0x68, 0x61, 0x72, 0x65, 0x64, 0x2d, 0x73, 0x65, 0x63, 0x72, 0x65, 0x74]

/-- A node of the cluster `prod` with both features on. -/
def prodConfig (nodeId : UInt16) : LinkConfig :=
  { LinkConfig.new nodeId "prod" sharedSecret with features := 3 }

/-- A MAC known at the two inputs of one nonce and transcript. -/
def tableMac (n : Bytes32) (transcript : Bytes) (initiatorMac responderMac : Bytes32) : Hmac :=
  fun _ input =>
    if input = authInput initiatorLabel n transcript then initiatorMac
    else if input = authInput responderLabel n transcript then responderMac
    else constDraw 0

/-- Node 1 dials node 2; the HELLOs arrive as given. -/
def dialEvents (config : UInt16 → LinkConfig) (toResponder toInitiator : Bytes)
    (initiatorMac responderMac : Bytes32) : List NetEvent :=
  [.start .initiator (config 1) (constDraw 0x11),
   .start .responder (config 2) (constDraw 0x22),
   .deliver 1 0x01 0 toResponder (constDraw 0x33),
   .deliver 0 0x01 0 toInitiator (constDraw 0),
   .deliver 0 0x02 0 (constDraw 0x33).val (constDraw 0),
   .deliver 1 0x03 0 initiatorMac.val (constDraw 0),
   .deliver 0 0x03 0 responderMac.val (constDraw 0)]

namespace HonestRun

/-- The HELLO of node 1. -/
def hello1 : Bytes := ((prodConfig 1).hello (constDraw 0x11)).encode

/-- The HELLO of node 2. -/
def hello2 : Bytes := ((prodConfig 2).hello (constDraw 0x22)).encode

/-- HMAC-SHA256 of the initiator's input under `sharedSecret`. -/
def initiatorMac : Bytes32 :=
  ⟨[0x9c, 0x4c, 0x78, 0x4c, 0x0c, 0xf8, 0x62, 0xb0, 0xf5, 0x70, 0x5b, 0xad, 0x8b, 0xfa, 0xba, 0xb4,
    0xea, 0xdd, 0x38, 0x7e, 0x11, 0x1c, 0xa1, 0x5c, 0x2d, 0x55, 0x66, 0x35, 0x68, 0x95, 0xe3, 0x0d],
    rfl⟩

/-- HMAC-SHA256 of the responder's input under `sharedSecret`. -/
def responderMac : Bytes32 :=
  ⟨[0x12, 0x21, 0x2c, 0x90, 0xb9, 0xa6, 0x19, 0x4f, 0x61, 0x5f, 0x75, 0x2d, 0x6c, 0x0c, 0xb7, 0x3a,
    0xde, 0xd2, 0x50, 0xc3, 0xf8, 0x8b, 0x24, 0x80, 0x19, 0x19, 0xb3, 0x17, 0x4a, 0xb6, 0x20, 0x36],
    rfl⟩

/-- The MAC function, as far as the run calls it. -/
def hmac : Hmac := tableMac (constDraw 0x33) (hello1 ++ hello2) initiatorMac responderMac

/-- Node 1 dials node 2 and every frame arrives. -/
def events : List NetEvent := dialEvents prodConfig hello1 hello2 initiatorMac responderMac

/-- Both sessions of this run are established, and the hypotheses on the MAC and
    the draws hold of it. -/
theorem authentic_events :
    (Net.after hmac events).map (fun s => (s.hs.role, s.hs.state)) =
      [(.initiator, .done), (.responder, .done)] ∧ Net.Authentic (Net.after hmac events) :=
  ⟨by decide +kernel, Net.injective_mutual_authentication hmac sharedSecret events
    ⟨by decide +kernel, by decide +kernel, by decide +kernel, by decide +kernel,
      by decide +kernel⟩⟩

end HonestRun

end BeamSocket.Mesh
