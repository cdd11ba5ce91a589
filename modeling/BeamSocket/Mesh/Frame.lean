import BeamSocket.Lib.Bytes

/-!
# Mesh wire framing

Model of `crates/mesh/src/frame.rs` and of `read_raw_frame`
(`crates/mesh/src/link.rs`, lines 615–642). A frame is
`[len: u32 LE][kind: u8][flags: u8][body]`, where `len` counts kind, flags and
body.

* `FrameKind.fromU8_asU8`: every kind is classified back from its wire byte.
* `readRawFrame_encode`: a frame whose length field fits the negotiated maximum
  is read back from the front of a stream, whatever follows it.
-/

namespace BeamSocket.Mesh

open BeamSocket.Lib

/-- `type NodeId = u16`. -/
abbrev NodeId := UInt16

/-- `HEADER_LEN`: `len` (4) + `kind` (1) + `flags` (1). -/
def headerLen : ℕ := 6

/-- `MIN_FRAME_FLOOR`. -/
def minFrameFloor : UInt32 := 64

/-- `MAX_FRAME_CEILING`. -/
def maxFrameCeiling : UInt32 := (64 : UInt32) <<< (20 : UInt32)

/-- `enum FrameKind` (lines 37–62). -/
inductive FrameKind
  | hello | challenge | auth | membership | interest | interestDigest
  | relayRoom | relayUser | relayAll | relaySocket | ping
  deriving DecidableEq, Repr

/-- `FrameKind::as_u8`: the discriminants of the catalog. -/
def FrameKind.asU8 : FrameKind → UInt8
  | .hello => 0x01
  | .challenge => 0x02
  | .auth => 0x03
  | .membership => 0x04
  | .interest => 0x05
  | .interestDigest => 0x06
  | .relayRoom => 0x07
  | .relayUser => 0x08
  | .relayAll => 0x09
  | .relaySocket => 0x0A
  | .ping => 0x0B

/-- `FrameKind::from_u8` (lines 69–84). -/
def FrameKind.fromU8 (b : UInt8) : Option FrameKind :=
  if b = 0x01 then some .hello
  else if b = 0x02 then some .challenge
  else if b = 0x03 then some .auth
  else if b = 0x04 then some .membership
  else if b = 0x05 then some .interest
  else if b = 0x06 then some .interestDigest
  else if b = 0x07 then some .relayRoom
  else if b = 0x08 then some .relayUser
  else if b = 0x09 then some .relayAll
  else if b = 0x0A then some .relaySocket
  else if b = 0x0B then some .ping
  else none

@[simp] theorem FrameKind.fromU8_asU8 (k : FrameKind) : FrameKind.fromU8 k.asU8 = some k := by
  cases k <;> rfl

theorem FrameKind.asU8_of_fromU8 {b : UInt8} {k : FrameKind} (h : FrameKind.fromU8 b = some k) :
    b = k.asU8 := by
  have hall : ∀ n < 256, ∀ k ∈ FrameKind.fromU8 (UInt8.ofNat n), UInt8.ofNat n = k.asU8 := by
    decide +kernel
  have hb := hall b.toNat b.toNat_lt k
  rw [UInt8.ofNat_toNat] at hb
  exact hb h

/-- `struct Flags(pub u8)`. -/
abbrev Flags := UInt8

/-- `Flags::NONE`. -/
def flagNone : Flags := 0

/-- `Flags::BINARY`: on a `Relay*` frame, the payload is binary. -/
def flagBinary : Flags := 0x01

/-- `Flags::PONG`: on a `Ping` frame, this is the reply. -/
def flagPong : Flags := 0x01

/-- `Flags::has`. -/
def Flags.has (f bit : UInt8) : Bool := f &&& bit != 0

/-- `struct Frame` (lines 115–119). -/
structure Frame where
  kind : FrameKind
  flags : Flags
  body : Bytes
  deriving DecidableEq, Repr

/-- `Frame::new`. -/
def Frame.new (kind : FrameKind) (body : Bytes) : Frame := ⟨kind, flagNone, body⟩

@[simp] theorem Frame.new_kind (k : FrameKind) (b : Bytes) : (Frame.new k b).kind = k := rfl

/-- `Frame::encode` (lines 141–149). `toLe 4` keeps the low 32 bits, as
    `(2 + self.body.len()) as u32` does. -/
def Frame.encode (f : Frame) : Bytes :=
  toLe 4 (2 + f.body.length) ++ [f.kind.asU8, f.flags] ++ f.body

/-- `enum FrameError` (lines 207–220). -/
inductive FrameError
  | truncated
  | malformed
  | oversize (len max : ℕ)
  | unknownKind (b : UInt8)
  deriving DecidableEq, Repr

/-- `decode_len` (lines 191–202). -/
def decodeLen (len maxFrame : ℕ) : Except FrameError ℕ :=
  if len < 2 then .error .malformed
  else if len > maxFrame then .error (.oversize len maxFrame)
  else .ok len

/-- The `LinkError`s `read_raw_frame` can end with on a byte stream without
    socket errors. -/
inductive ReadError
  | eof
  | oversize (len max : ℕ)
  | malformedLength
  deriving DecidableEq, Repr

/-- `read_raw_frame` (`link.rs`, lines 615–642) on the bytes still to be read:
    `(kind, flags, body)` and the rest of the stream. Both `read_exact` calls
    end in `Eof` when the stream is too short. -/
def readRawFrame (stream : Bytes) (maxFrame : ℕ) :
    Except ReadError ((UInt8 × UInt8 × Bytes) × Bytes) :=
  match slice? stream 0 4 with
  | none => .error .eof
  | some len4 =>
    match decodeLen (fromLe len4) maxFrame with
    | .error (.oversize len max) => .error (.oversize len max)
    | .error _ => .error .malformedLength
    | .ok bodyLen =>
      match slice? stream 4 bodyLen with
      | some (kind :: flags :: body) => .ok ((kind, flags, body), stream.drop (4 + bodyLen))
      -- `decode_len` guarantees two bytes, so a shorter buffer is a short read
      | _ => .error .eof

/-- The length field in front of an encoded frame. -/
theorem slice?_encode (f : Frame) (rest : Bytes) :
    slice? (f.encode ++ rest) 0 4 = some (toLe 4 (2 + f.body.length)) := by
  have := slice?_append (p := []) (x := toLe 4 (2 + f.body.length))
    (r := [f.kind.asU8, f.flags] ++ f.body ++ rest) (n := 4) rfl (by simp)
  simpa [Frame.encode] using this

/-- A frame that fits the negotiated maximum is read back, and the reader stops
    exactly behind it. -/
theorem readRawFrame_encode (f : Frame) (rest : Bytes) (maxFrame : ℕ)
    (hmax : 2 + f.body.length ≤ maxFrame) (hlen : 2 + f.body.length < 2 ^ 32) :
    readRawFrame (f.encode ++ rest) maxFrame = .ok ((f.kind.asU8, f.flags, f.body), rest) := by
  have hbody : slice? (f.encode ++ rest) 4 (2 + f.body.length) =
      some (f.kind.asU8 :: f.flags :: f.body) := by
    have := slice?_append (p := toLe 4 (2 + f.body.length)) (x := f.kind.asU8 :: f.flags :: f.body)
      (r := rest) (n := 2 + f.body.length) rfl (by simp; omega)
    simpa [Frame.encode] using this
  have hval : fromLe (toLe 4 (2 + f.body.length)) = 2 + f.body.length :=
    fromLe_toLe_of_lt (by omega)
  have hdrop : (f.encode ++ rest).drop (4 + (2 + f.body.length)) = rest := by
    rw [List.drop_append_of_le_length (by simp [Frame.encode]; omega), List.drop_of_length_le]
    · rfl
    · simp [Frame.encode]; omega
  have hdec : decodeLen (2 + f.body.length) maxFrame = .ok (2 + f.body.length) := by
    rw [decodeLen, if_neg (by omega), if_neg (by omega)]
  rw [readRawFrame, slice?_encode]
  simp only [hval, hdec, hbody, hdrop]

/-- A frame over the maximum is refused at its length field. -/
theorem readRawFrame_oversize (f : Frame) (rest : Bytes) (maxFrame : ℕ)
    (hmax : maxFrame < 2 + f.body.length) (hlen : 2 + f.body.length < 2 ^ 32) :
    readRawFrame (f.encode ++ rest) maxFrame = .error (.oversize (2 + f.body.length) maxFrame) := by
  have hval : fromLe (toLe 4 (2 + f.body.length)) = 2 + f.body.length :=
    fromLe_toLe_of_lt (by omega)
  have hdec : decodeLen (2 + f.body.length) maxFrame =
      .error (.oversize (2 + f.body.length) maxFrame) := by
    rw [decodeLen, if_neg (by omega), if_pos (by omega)]
  rw [readRawFrame, slice?_encode]
  simp only [hval, hdec]

/-- `ping_frame` (`handshake.rs`, lines 439–446). -/
def pingFrame (isPong : Bool) : Frame :=
  ⟨.ping, if isPong then flagPong else flagNone, []⟩

end BeamSocket.Mesh
