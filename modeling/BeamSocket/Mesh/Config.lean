import BeamSocket.Mesh.Hello

/-!
# Link configuration and MAC comparison

Models of `crates/mesh/src/config.rs` (the fields a link negotiates and bounds
itself with; durations in milliseconds, the reconnect backoff left out) and of
`constant_time_eq` (`crates/mesh/src/crypto.rs`).

HMAC-SHA256 is the `hmac` crate's; a MAC function is a parameter of the
handshake model.
-/

namespace BeamSocket.Mesh

open BeamSocket.Lib

/-- `hmac_sha256(key, msg)`: the type of the MAC function. -/
abbrev Hmac := Bytes → Bytes → Bytes32

/-- A draw of 32 equal bytes. -/
def constDraw (x : UInt8) : Bytes32 := ⟨List.replicate 32 x, List.length_replicate⟩

/-- A MAC function to run the model with: every message has the same code. -/
def zeroMac : Hmac := fun _ _ => constDraw 0

/-- `constant_time_eq` (`crypto.rs`, lines 44–53): the byte differences of two
    slices of equal length, or-ed together. -/
def constantTimeEq (a b : Bytes) : Bool :=
  if a.length ≠ b.length then false
  else (a.zip b).foldl (fun diff p => diff ||| (p.1 ^^^ p.2)) (0 : UInt8) = 0

theorem foldl_or_eq_zero (l : List (UInt8 × UInt8)) (d : UInt8) :
    l.foldl (fun diff p => diff ||| (p.1 ^^^ p.2)) d = 0 ↔ d = 0 ∧ ∀ p ∈ l, p.1 = p.2 := by
  induction l generalizing d with
  | nil => simp
  | cons p l ih =>
    rw [List.foldl_cons, ih, UInt8.or_eq_zero_iff, UInt8.xor_eq_zero_iff]
    simp only [List.mem_cons, forall_eq_or_imp, and_assoc]

theorem forall_zip_eq_iff {a b : Bytes} (h : a.length = b.length) :
    (∀ p ∈ a.zip b, p.1 = p.2) ↔ a = b := by
  induction a generalizing b with
  | nil => cases b with
    | nil => simp
    | cons y b => simp at h
  | cons x a ih =>
    cases b with
    | nil => simp at h
    | cons y b =>
      have := ih (b := b) (by simpa using h)
      simp [List.zip_cons_cons, ← this]

theorem constantTimeEq_iff (a b : Bytes) : constantTimeEq a b = true ↔ a = b := by
  unfold constantTimeEq
  split_ifs with h
  · constructor
    · intro hf; cases hf
    · rintro rfl; exact absurd rfl h
  · rw [decide_eq_true_iff, foldl_or_eq_zero, forall_zip_eq_iff (not_not.mp h)]
    simp

/-- `struct LinkConfig` (lines 24–62). -/
structure LinkConfig where
  protocolVersion : UInt16
  nodeId : UInt16
  incarnation : UInt64
  clusterName : String
  secret : Bytes
  maxFrame : UInt32
  features : UInt32
  authTimeout : ℕ
  idlePingInterval : ℕ
  idleDeadAfter : ℕ
  queueHwmBytes : ℕ
  deriving DecidableEq

/-- `PROTOCOL_VERSION` (`lib.rs`, line 65). -/
def meshProtocolVersion : UInt16 := 1

/-- `LinkConfig::DEFAULT_MAX_FRAME`: `16 << 20`. -/
def defaultMaxFrame : UInt32 := (16 : UInt32) <<< (20 : UInt32)

/-- `LinkConfig::DEFAULT_QUEUE_HWM_BYTES`: `1 << 20`. -/
def defaultQueueHwmBytes : ℕ := 1 <<< 20

/-- `LinkConfig::new` (lines 93–108). -/
def LinkConfig.new (nodeId : UInt16) (clusterName : String) (secret : Bytes) : LinkConfig where
  protocolVersion := meshProtocolVersion
  nodeId := nodeId
  incarnation := 0
  clusterName := clusterName
  secret := secret
  maxFrame := defaultMaxFrame
  features := 0
  authTimeout := 5000
  idlePingInterval := 15000
  idleDeadAfter := 45000
  queueHwmBytes := defaultQueueHwmBytes

/-- The `ConfigError`s of `LinkConfig::validate`, with the numbers their texts
    carry. -/
inductive LinkConfigError
  | emptySecret
  | clusterNameTooLong (len : ℕ)
  | maxFrameOutOfRange (maxFrame : UInt32)
  | deadAfterNotAbovePing
  deriving DecidableEq

/-- The message of a `ConfigError` (lines 115–134). -/
def LinkConfigError.message : LinkConfigError → String
  | .emptySecret => "cluster secret must not be empty (§4.7)"
  | .clusterNameTooLong len => "cluster name too long: " ++ toString len ++ " > 255"
  | .maxFrameOutOfRange m =>
    "max_frame " ++ toString m.toNat ++ " out of range [64, 67108864]"
  | .deadAfterNotAbovePing =>
    "idle_dead_after must exceed idle_ping_interval so a PONG can reset it"

/-- `LinkConfig::validate` (lines 113–137). -/
def LinkConfig.validate (c : LinkConfig) : Except LinkConfigError Unit :=
  if c.secret.isEmpty then .error .emptySecret
  else if (asBytes c.clusterName).length > maxClusterNameLen then
    .error (.clusterNameTooLong (asBytes c.clusterName).length)
  else if c.maxFrame < minFrameFloor ∨ c.maxFrame > maxFrameCeiling then
    .error (.maxFrameOutOfRange c.maxFrame)
  else if c.idleDeadAfter ≤ c.idlePingInterval then .error .deadAfterNotAbovePing
  else .ok ()

end BeamSocket.Mesh
