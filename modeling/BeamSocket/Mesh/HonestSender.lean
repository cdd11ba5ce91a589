import BeamSocket.Mesh.HandshakeNet
import BeamSocket.Mesh.Writer

/-!
# A sender and the reader of its peer

The sender of a link tests the feature of a frame's kind and the bytes it has queued
(`try_send` and `try_send_encoded`, `crates/mesh/src/link.rs`, lines 148–171). The peer's
reader tests the length against the negotiated `max_frame` (`decode_len`) and then the
feature (`dispatch`, lines 512–557). No test of the sender is about `max_frame`.

* `WriterLink.received_iff`: over a link with the same negotiated values at both ends, the
  frames that are written are all read and known iff each is within `max_frame`.
* `TightLink.frame_refused`: a frame that is sent over a valid link and breaks it.
-/

namespace BeamSocket.Mesh

open BeamSocket.Lib

/-- Two sessions with valid configurations that are established with the same values. -/
structure Linked (net : Net) (s p : Session) (negS negP : Negotiated) : Prop where
  sender : s ∈ net
  peer : p ∈ net
  senderValid : s.hs.cfg.validate = .ok ()
  peerValid : p.hs.cfg.validate = .ok ()
  senderOutcome : s.outcome = some (.ok negS)
  peerOutcome : p.outcome = some (.ok negP)
  protocolVersion : negS.protocolVersion = negP.protocolVersion
  features : negS.features = negP.features
  maxFrame : negS.maxFrame = negP.maxFrame

theorem Negotiated.mayEmit_of_features {n n' : Negotiated} (h : n.features = n'.features)
    (kind : FrameKind) : n.mayEmit kind = n'.mayEmit kind := by
  cases kind <;> simp [mayEmit, h]

/-- What may be emitted is known to the reader. -/
theorem dispatch_ne_unknown {negotiated : Negotiated} {f : Frame}
    (h : negotiated.mayEmit f.kind = true) :
    dispatch negotiated f.kind.asU8 f.flags f.body ≠ .unknown := by
  obtain ⟨kind, flags, body⟩ := f
  unfold dispatch
  rw [FrameKind.fromU8_asU8]
  cases kind <;> simp [h]
  split_ifs <;> simp

namespace WriterLink

variable {l : WriterLink} {neg : Negotiated}

/-- Only frames that may be emitted are enqueued. -/
structure Emits (neg : Negotiated) (l : WriterLink) : Prop where
  negotiated : l.handle.negotiated = neg
  enqueued : ∀ f ∈ l.enqueued, neg.mayEmit f.kind = true

theorem emits_send (h : l.Emits neg) (i : ℕ) (relay : Bool) (frame : Frame) :
    (l.send i relay frame).Emits neg := by
  unfold send
  by_cases hfits : l.Fits frame
  · rw [trySend_of_fits hfits]
    refine ⟨h.negotiated, ?_⟩
    intro f hf
    have hmem : f ∈ l.enqueued ∨ f = frame := by
      simpa [enqueued, List.filter_append] using hf
    rcases hmem with hmem | rfl
    · exact h.enqueued f hmem
    · rw [← h.negotiated]
      exact hfits.1
  · rcases trySend_of_not_fits hfits with heq | heq
    all_goals
      rw [heq]
      refine ⟨h.negotiated, ?_⟩
      intro f hf
      apply h.enqueued
      simpa [enqueued, List.filter_append] using hf

theorem emits_step (l : WriterLink) (e : WriterEvent) (h : l.Emits neg) :
    (l.step e).Emits neg := by
  rcases step_cases l e with heq | ⟨i, relay, frame, -, -, heq⟩ | ⟨i, -, heq⟩ |
    ⟨i, task, -, heq⟩ | heq <;> rw [heq]
  · exact h
  · exact emits_send h i relay frame
  · exact ⟨h.negotiated, h.enqueued⟩
  · refine ⟨?_, ?_⟩
    · rw [handle_go]
      exact h.negotiated
    · rw [enqueued, sends_go]
      exact h.enqueued
  · refine ⟨?_, ?_⟩
    · rw [(write_keeps l).2.1]
      exact h.negotiated
    · rw [enqueued, sends_write]
      exact h.enqueued

/-- For every two valid configurations whose sessions are established with the same values
    and every run of the sender: the peer's reader reads the frames that are written, each
    as it was sent, and knows their kinds, iff each of them is within `max_frame`. -/
theorem received_iff (hmac : Hmac) (netEvs : List NetEvent) {s p : Session}
    {negS negP : Negotiated} (h : Linked (Net.after hmac netEvs) s p negS negP)
    (evs : List WriterEvent) :
    let l := run step (new negS s.hs.cfg.queueHwmBytes) evs
    let sent := l.enqueued.take l.framesOut
    (readAll negP.maxFrame.toNat l.stream = (sent.map Frame.raw, .eof) ∧
        ∀ f ∈ sent, dispatch negP f.kind.asU8 f.flags f.body ≠ .unknown) ↔
      ∀ f ∈ sent, 2 + f.body.length ≤ negS.maxFrame.toNat := by
  intro l sent
  have hexact : l.Exact := run_invariant exact_step (exact_new negS _)
  have hemits : l.Emits negS :=
    run_invariant emits_step ⟨rfl, fun f hf => absurd hf List.not_mem_nil⟩
  obtain ⟨written, batch, queued, henqueued, hstream, hframesOut, -, -⟩ := hexact.flow
  have hsent : sent = written := by
    show l.enqueued.take l.framesOut = written
    rw [henqueued, hframesOut, List.append_assoc, List.take_left]
  have hknown : ∀ f ∈ sent, dispatch negP f.kind.asU8 f.flags f.body ≠ .unknown := by
    intro f hf
    apply dispatch_ne_unknown
    rw [← Negotiated.mayEmit_of_features h.features]
    exact hemits.enqueued f (List.mem_of_mem_take hf)
  have hfield : negS.maxFrame.toNat < 2 ^ 32 := negS.maxFrame.toNat_lt
  rw [and_iff_left hknown, hstream, hsent, ← h.maxFrame, readAll_flatMap_encode]
  constructor
  · intro hfits f hf
    exact (hfits f hf).2
  · intro hfits f hf
    exact ⟨lt_of_le_of_lt (hfits f hf) hfield, hfits f hf⟩

end WriterLink

/-- A relay of one byte between two nodes with the default limits. -/
theorem HonestRun.relay_received :
    ∃ s p negS negP, Linked (Net.after hmac events) s p negS negP ∧
      readAll negP.maxFrame.toNat
        (run WriterLink.step (.new negS s.hs.cfg.queueHwmBytes)
          [.send 0 true ⟨.relayAll, flagBinary, [7]⟩, .write, .write]).stream =
        ([(0x09, 1, [7])], .eof) := by
  let s := (Net.after hmac events).get ⟨0, by decide +kernel⟩
  let p := (Net.after hmac events).get ⟨1, by decide +kernel⟩
  have hlinked : Linked (Net.after hmac events) s p ⟨1, 3, defaultMaxFrame, .initiator, 2, 0⟩
      ⟨1, 3, defaultMaxFrame, .responder, 1, 0⟩ :=
    ⟨List.get_mem _ _, List.get_mem _ _, by decide +kernel, by decide +kernel, by decide +kernel,
      by decide +kernel, rfl, rfl, rfl⟩
  refine ⟨s, p, _, _, hlinked, ?_⟩
  have hreceived := (WriterLink.received_iff hmac events hlinked
    [.send 0 true ⟨.relayAll, flagBinary, [7]⟩, .write, .write]).mpr (by decide +kernel)
  rw [hreceived.1]
  decide +kernel

/-! ## Two nodes with the smallest `max_frame` -/

namespace TightLink

/-- A node that declares `MIN_FRAME_FLOOR`; its queue has the default mark. -/
def config (nodeId : UInt16) : LinkConfig := { prodConfig nodeId with maxFrame := minFrameFloor }

/-- The HELLO of node 1. -/
def hello1 : Bytes := ((config 1).hello (constDraw 0x11)).encode

/-- The HELLO of node 2. -/
def hello2 : Bytes := ((config 2).hello (constDraw 0x22)).encode

/-- HMAC-SHA256 of the initiator's input under `sharedSecret`. -/
def initiatorMac : Bytes32 :=
  ⟨[0xf2, 0x51, 0xea, 0x96, 0xc0, 0xdd, 0xcb, 0x20, 0x50, 0x6a, 0x3b, 0x36, 0xd7, 0xf6, 0x2e, 0xa6,
    0x6a, 0x0a, 0x23, 0xae, 0x6c, 0xb9, 0x15, 0x0a, 0xe8, 0x1c, 0xf9, 0xb9, 0x35, 0x6a, 0x94, 0xaa],
    rfl⟩

/-- HMAC-SHA256 of the responder's input under `sharedSecret`. -/
def responderMac : Bytes32 :=
  ⟨[0x81, 0x1b, 0xfa, 0x68, 0x4f, 0xe9, 0x11, 0xf0, 0x92, 0x14, 0x4e, 0x2f, 0xda, 0x51, 0xd9, 0x07,
    0x6f, 0xe4, 0xac, 0x57, 0xd4, 0x59, 0x33, 0x7d, 0x72, 0x1c, 0x26, 0xf7, 0xcd, 0xbe, 0xeb, 0xcc],
    rfl⟩

/-- The MAC function, as far as the run calls it. -/
def hmac : Hmac := tableMac (constDraw 0x33) (hello1 ++ hello2) initiatorMac responderMac

/-- Node 1 dials node 2 and every frame arrives. -/
def events : List NetEvent := dialEvents config hello1 hello2 initiatorMac responderMac

/-- A body of 63 bytes: with kind and flags, one more than `max_frame`. -/
def frame : Frame := ⟨.relayAll, flagBinary, List.replicate 63 7⟩

/-- The frame is enqueued and written, and the reader closes the link on its length. -/
theorem frame_refused :
    ∃ s p negS negP, Linked (Net.after hmac events) s p negS negP ∧
      let l := run WriterLink.step (.new negS s.hs.cfg.queueHwmBytes)
        [.send 0 true frame, .write, .write]
      l.enqueued = [frame] ∧ l.framesOut = 1 ∧
        readAll negP.maxFrame.toNat l.stream = ([], .oversize 65 64) := by
  refine ⟨(Net.after hmac events).get ⟨0, by decide +kernel⟩,
    (Net.after hmac events).get ⟨1, by decide +kernel⟩, ⟨1, 3, 64, .initiator, 2, 0⟩,
    ⟨1, 3, 64, .responder, 1, 0⟩, ?_, by decide +kernel, by decide +kernel, by decide +kernel⟩
  exact ⟨List.get_mem _ _, List.get_mem _ _, by decide +kernel, by decide +kernel,
    by decide +kernel, by decide +kernel, rfl, rfl, rfl⟩

end TightLink

end BeamSocket.Mesh
