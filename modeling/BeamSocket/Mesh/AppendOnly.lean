import BeamSocket.Mesh.InterestCodec
import BeamSocket.Mesh.Probe

/-!
# Append-only bodies

A later version of the protocol may append fields to a body, so every decoder has to read
what it knows and ignore a tail: HELLO (`crates/mesh/src/hello.rs`), MEMBERSHIP
(`membership_sync.rs`), the interest digest (`interest.rs`) and the probe packets
(`probe.rs`). None of them may trust the bytes. The MEMBERSHIP and digest decoders read
through `get` only; `Hello::decode` and `ProbePacket::decode` index their input behind length
checks.

* `Hello.decodeIndexed_eq`: HELLO is decoded without an access out of bounds.
* `append_only_bodies`: all of it.
-/

namespace BeamSocket.Mesh

open BeamSocket.Lib

/-- `try_into().unwrap()` into a `[u8; 32]`. -/
def toBytes32 {ε : Type} (b : Bytes) : Outcome ε Bytes32 :=
  if h : b.length = 32 then .ok ⟨b, h⟩ else .panicked

/-- `Hello::decode` (`hello.rs`, lines 68–105) with the accesses it makes. -/
def Hello.decodeIndexed (body : Bytes) : Outcome HelloError Hello :=
  if body.length < fixedPrefix then .error .truncated
  else do
    let magic ← .range body 0 4
    if magic ≠ meshMagic then .error .badMagic
    else do
      let protocolVersion ← .range body 4 2
      let nodeId ← .range body 6 2
      let incarnation ← .range body 8 8
      let maxFrame ← .range body 16 4
      let features ← .range body 20 4
      let freshBytes ← .range body 24 32
      let fresh ← toBytes32 freshBytes
      let nameLen ← .range body 56 2
      if fromLe nameLen > maxClusterNameLen then .error (.clusterNameTooLong (fromLe nameLen))
      else if body.length < fixedPrefix + fromLe nameLen then .error .truncated
      else do
        let name ← .range body fixedPrefix (fromLe nameLen)
        let clusterName ← .okOr .clusterNameNotUtf8 (fromUtf8 name)
        .ok
          { protocolVersion := ofLe16 protocolVersion
            nodeId := ofLe16 nodeId
            incarnation := ofLe64 incarnation
            maxFrame := ofLe32 maxFrame
            features := ofLe32 features
            fresh
            clusterName }

/-- Every access is in bounds. -/
theorem Hello.decodeIndexed_eq (body : Bytes) :
    Hello.decodeIndexed body = .ofExcept (Hello.decode body) := by
  unfold Hello.decodeIndexed Hello.decode
  by_cases hlen : body.length < fixedPrefix
  · rw [if_pos hlen, dif_pos hlen]
    rfl
  have hlong : 58 ≤ body.length := not_lt.mp hlen
  rw [if_neg hlen, dif_neg hlen, Outcome.range_of_le (by omega), Outcome.ok_bind]
  by_cases hmagic : slice body 0 4 ≠ meshMagic
  · rw [if_pos hmagic, if_pos hmagic]
    rfl
  rw [if_neg hmagic, if_neg hmagic, Outcome.range_of_le (by omega), Outcome.ok_bind,
    Outcome.range_of_le (by omega), Outcome.ok_bind, Outcome.range_of_le (by omega),
    Outcome.ok_bind, Outcome.range_of_le (by omega), Outcome.ok_bind,
    Outcome.range_of_le (by omega), Outcome.ok_bind, Outcome.range_of_le (by omega),
    Outcome.ok_bind, toBytes32, dif_pos (length_slice (by omega)), Outcome.ok_bind,
    Outcome.range_of_le (by omega), Outcome.ok_bind]
  dsimp only
  split_ifs with hname hshort
  · rfl
  · rfl
  · rw [Outcome.range_of_le (by omega), Outcome.ok_bind]
    cases fromUtf8 (slice body fixedPrefix (fromLe (slice body 56 2))) with
    | none => rfl
    | some clusterName => rfl

/-- Every HELLO with a name the protocol allows, every MEMBERSHIP message and interest digest
    with at most 65535 entries and every probe packet is read back from its encoding and any
    tail (for a probe packet, with the HMAC over both). On any bytes, the decoders end with a
    value or an error; their offsets stay within the input. Sequence numbers are `u64`s. -/
theorem append_only_bodies :
    (∀ h : Hello, (asBytes h.clusterName).length ≤ 255 → ∀ t,
      Hello.decodeIndexed (h.encode ++ t) = .ok h) ∧
    (∀ msg : MembershipMsg, msg.count ≤ 65535 → ∀ t,
      MembershipMsg.decode (msg.encode ++ t) = some msg) ∧
    (∀ entries : List DigestEntry, entries.length ≤ 65535 → (∀ e ∈ entries, e.2.1 < 2 ^ 64) →
      ∀ t, decodeDigest (encodeDigest entries ++ t) = some entries) ∧
    (∀ (hmac : Hmac) secret (p : ProbePacket) t,
      p.encode hmac secret = p.body ++ (hmac secret p.body).val ∧
      ProbePacket.decode hmac (p.body ++ t ++ (hmac secret (p.body ++ t)).val) secret = .ok p) ∧
    (∀ body, Hello.decodeIndexed body ≠ .panicked) ∧
    (∀ (hmac : Hmac) buf secret, ProbePacket.decode hmac buf secret ≠ .panicked) ∧
    InRange getUpdates ∧ InRange (getCounted getEntry) ∧ InRange (getCounted getDigestEntry) := by
  refine ⟨?_, ?_, ?_, ?_, ?_, ProbePacket.decode_ne_panicked, inRange_getUpdate.counted,
    inRange_getEntry.counted, inRange_getDigestEntry.counted⟩
  · intro h hname t
    rw [Hello.decodeIndexed_eq, h.decode_encode_append hname t]
    rfl
  · intro msg hcount t
    rw [msg.decode_encode_append, Nat.mod_eq_of_lt (by omega), msg.take_count]
  · intro entries hlen hseq t
    exact decodeDigest_append (by omega) hseq t
  · intro hmac secret p t
    exact ⟨rfl, p.decode_body_append hmac secret t⟩
  · intro body
    rw [Hello.decodeIndexed_eq]
    cases Hello.decode body with
    | ok h => exact Outcome.ok_ne_panicked h
    | error e => exact Outcome.error_ne_panicked e

/-- The HELLO of node 7 of the cluster `prod`. -/
def prodHello : Hello where
  protocolVersion := 1
  nodeId := 7
  incarnation := 3
  maxFrame := 65536
  features := 3
  fresh := constDraw 0x11
  clusterName := "prod"

/-- A SYNC with two members, one of them suspected and with an IPv6 address. -/
def twoMembers : MembershipMsg :=
  .sync true [⟨2, homeAddr 2, .alive, 1⟩, ⟨3, ⟨.v6 1, 4000⟩, .suspect, 4⟩]

/-- A PING-REQ of node 7 for node 2. -/
def pingTwo : ProbePacket := .pingReq 7 12 3 (homeAddr 7) 2 (homeAddr 2)

theorem appended_bytes_ignored :
    Hello.decodeIndexed (prodHello.encode ++ [9, 0]) = .ok prodHello ∧
      MembershipMsg.decode (twoMembers.encode ++ [9, 0]) = some twoMembers ∧
      decodeDigest (encodeDigest [(7, 3, 0), (2, 1, 0xcbf2)] ++ [9, 0]) =
        some [(7, 3, 0), (2, 1, 0xcbf2)] ∧
      ProbePacket.decode zeroMac (pingTwo.body ++ [9, 0] ++ (constDraw 0).val) [] = .ok pingTwo :=
  ⟨append_only_bodies.1 prodHello (by decide) [9, 0],
    append_only_bodies.2.1 twoMembers (by decide) [9, 0],
    append_only_bodies.2.2.1 [(7, 3, 0), (2, 1, 0xcbf2)] (by decide) (by decide) [9, 0],
    (append_only_bodies.2.2.2.1 zeroMac [] pingTwo [9, 0]).2⟩

end BeamSocket.Mesh
