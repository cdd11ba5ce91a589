import BeamSocket.Lib.Access
import BeamSocket.Mesh.Config
import BeamSocket.Mesh.MembershipSync

/-!
# Probe packets

Model of the packets of the UDP probe plane (`crates/mesh/src/probe.rs`, lines 26–233). A
packet is a body and an HMAC over it; bytes of the body behind the known fields are ignored.
The HMAC is a parameter.

* `ProbePacket.decode_body_append`: a packet is read back from its body, any tail of it and
  the HMAC over both.
* `ProbePacket.decode_ne_panicked`: no byte string makes the decoder index out of bounds.
-/

namespace BeamSocket.Mesh

open BeamSocket.Lib

/-- `enum ProbePacket` (lines 47–68). `sender` is the field `from`. -/
inductive ProbePacket
  | ping (sender : NodeId) (seq : UInt64) (inc : UInt32) (replyTo : Option SocketAddr)
  | ack (sender : NodeId) (seq : UInt64) (inc : UInt32)
  | pingReq (sender : NodeId) (seq : UInt64) (inc : UInt32) (fromAddr : SocketAddr)
      (target : NodeId) (targetAddr : SocketAddr)
  deriving DecidableEq

/-- `enum ProbeError` (lines 237–244). -/
inductive ProbeError
  | badMagic
  | badVersion (v : UInt8)
  | forged
  | malformed
  | unknownKind (k : UInt8)
  deriving DecidableEq

namespace ProbePacket

/-- `PROBE_MAGIC`: the ASCII bytes `BSMP`. -/
def magic : Bytes := [0x42, 0x53, 0x4D, 0x50]

/-- `PROBE_VERSION`. -/
def version : UInt8 := 1

/-- `TAG_LEN`. -/
def tagLen : ℕ := 32

/-- `HEADER_LEN`: magic, version, kind, sender, `seq` and `inc`. -/
def headerLen : ℕ := 20

/-- `ProbePacket::kind`. -/
def kind : ProbePacket → UInt8
  | ping .. => 1
  | ack .. => 2
  | pingReq .. => 3

/-- `ProbePacket::from`. -/
def sender : ProbePacket → NodeId
  | ping sender .. | ack sender .. | pingReq sender .. => sender

/-- The `seq` of a packet. -/
def seq : ProbePacket → UInt64
  | ping _ seq .. | ack _ seq .. | pingReq _ seq .. => seq

/-- The `inc` of a packet. -/
def inc : ProbePacket → UInt32
  | ping _ _ inc .. | ack _ _ inc | pingReq _ _ inc .. => inc

/-- `ProbePacket::stamp`. -/
def stamp (p : ProbePacket) : UInt32 × UInt64 := (p.inc, p.seq)

/-- The fields behind the header. -/
def fields : ProbePacket → Bytes
  | ping _ _ _ none => [0]
  | ping _ _ _ (some a) => 1 :: putAddr a
  | ack .. => []
  | pingReq _ _ _ fromAddr target targetAddr =>
    putAddr fromAddr ++ (le16 target ++ putAddr targetAddr)

/-- The bytes the HMAC is computed over. -/
def body (p : ProbePacket) : Bytes :=
  magic ++ ([version, p.kind] ++ (le16 p.sender ++ (le64 p.seq ++ (le32 p.inc ++ p.fields))))

/-- `ProbePacket::encode` (lines 98–129). -/
def encode (hmac : Hmac) (secret : Bytes) (p : ProbePacket) : Bytes :=
  p.body ++ (hmac secret p.body).val

/-- The `match` on the kind in `decode`, on the body behind the header. -/
def decodeFields (kind : UInt8) (sender : NodeId) (seq : UInt64) (inc : UInt32) (body : Bytes) :
    Outcome ProbeError ProbePacket :=
  if kind = 1 then do
    let hasReply ← .okOr .malformed body[headerLen]?
    if hasReply ≠ 0 then do
      let (a, _) ← .okOr .malformed (getAddr body (headerLen + 1))
      .ok (ping sender seq inc (some a))
    else .ok (ping sender seq inc none)
  else if kind = 2 then .ok (ack sender seq inc)
  else if kind = 3 then do
    let (fromAddr, off) ← .okOr .malformed (getAddr body headerLen)
    let target ← .okOr .malformed (slice? body off 2)
    let (targetAddr, _) ← .okOr .malformed (getAddr body (off + 2))
    .ok (pingReq sender seq inc fromAddr (ofLe16 target) targetAddr)
  else .error (.unknownKind kind)

/-- `ProbePacket::decode` (lines 134–194). -/
def decode (hmac : Hmac) (buf secret : Bytes) : Outcome ProbeError ProbePacket :=
  if buf.length < headerLen + tagLen then .error .malformed
  else do
    let m ← .range buf 0 4
    if m ≠ magic then .error .badMagic
    else do
      let v ← .index buf 4
      if v ≠ version then .error (.badVersion v)
      else do
        let (body, tag) ← .splitAt buf (buf.length - tagLen)
        if constantTimeEq tag (hmac secret body).val = false then .error .forged
        else do
          let kind ← .index body 5
          let sender ← .range body 6 2
          let seq ← .range body 8 8
          let inc ← .range body 16 4
          decodeFields kind (ofLe16 sender) (ofLe64 seq) (ofLe32 inc) body

/-! ## Reading back -/

theorem decodeFields_append (p : ProbePacket) (header t : Bytes)
    (hheader : header.length = headerLen) :
    decodeFields p.kind p.sender p.seq p.inc (header ++ (p.fields ++ t)) = .ok p := by
  cases p with
  | ping sender seq inc replyTo =>
    cases replyTo with
    | none =>
      have hflag : (header ++ (0 :: t))[headerLen]? = some 0 := getElem?_append_cons hheader.symm
      simp [decodeFields, kind, fields, hflag, ProbePacket.sender, ProbePacket.seq, ProbePacket.inc]
    | some a =>
      have hflag : (header ++ (1 :: (putAddr a ++ t)))[headerLen]? = some 1 :=
        getElem?_append_cons hheader.symm
      have haddr := readsBack_putAddr a (header ++ [1]) t
      simp only [List.append_assoc, List.length_append, List.length_singleton, hheader,
        List.singleton_append] at haddr
      simp [decodeFields, kind, fields, hflag, haddr, ProbePacket.sender, ProbePacket.seq,
        ProbePacket.inc]
  | ack sender seq inc => rfl
  | pingReq sender seq inc fromAddr target targetAddr =>
    have hfrom := readsBack_putAddr fromAddr header (le16 target ++ (putAddr targetAddr ++ t))
    have htarget : slice?
        (header ++ (putAddr fromAddr ++ (le16 target ++ (putAddr targetAddr ++ t))))
        (headerLen + (putAddr fromAddr).length) 2 = some (le16 target) := by
      rw [← List.append_assoc]
      exact slice?_append (by rw [List.length_append, hheader]) (length_le16 _).symm
    have haddr := readsBack_putAddr targetAddr (header ++ (putAddr fromAddr ++ le16 target)) t
    rw [hheader] at hfrom
    simp only [List.append_assoc, List.length_append, length_le16, hheader] at haddr
    simp [decodeFields, kind, fields, hfrom, htarget, haddr, Nat.add_assoc, ProbePacket.sender,
      ProbePacket.seq, ProbePacket.inc]

theorem length_header (p : ProbePacket) :
    (magic ++ ([version, p.kind] ++ (le16 p.sender ++ (le64 p.seq ++ le32 p.inc)))).length =
      headerLen := by
  simp [magic, headerLen]

/-- With any tail of the body under the HMAC, a packet is read back. -/
theorem decode_body_append (hmac : Hmac) (secret : Bytes) (p : ProbePacket) (t : Bytes) :
    decode hmac (p.body ++ t ++ (hmac secret (p.body ++ t)).val) secret = .ok p := by
  let tag := (hmac secret (p.body ++ t)).val
  have htag : tag.length = tagLen := (hmac secret (p.body ++ t)).property
  have hbody : p.body ++ t = magic ++ ([version, p.kind] ++ (le16 p.sender ++ (le64 p.seq ++
      (le32 p.inc ++ (p.fields ++ t))))) := by
    simp [body]
  have hsplit : p.body ++ t =
      (magic ++ ([version, p.kind] ++ (le16 p.sender ++ (le64 p.seq ++ le32 p.inc)))) ++
        (p.fields ++ t) := by
    simp [hbody]
  have hlen : headerLen ≤ (p.body ++ t).length := by
    rw [hsplit, List.length_append, length_header]
    exact Nat.le_add_right ..
  -- the tests in front of the fields
  have hlong : ¬(p.body ++ t ++ tag).length < headerLen + tagLen := by
    rw [List.length_append, htag]
    omega
  have hmagic : (Outcome.range (p.body ++ t ++ tag) 0 4 : Outcome ProbeError Bytes) =
      .ok magic := by
    rw [hbody, List.append_assoc]
    exact Outcome.range_append (p := []) (x := magic) rfl rfl
  have hversion : (Outcome.index (p.body ++ t ++ tag) 4 : Outcome ProbeError UInt8) =
      .ok version := by
    rw [hbody, List.append_assoc, List.append_assoc]
    exact Outcome.index_append rfl
  have hmid : (p.body ++ t ++ tag).length - tagLen = (p.body ++ t).length := by
    rw [List.length_append, htag]
    omega
  have hcut : (Outcome.splitAt (p.body ++ t ++ tag) ((p.body ++ t ++ tag).length - tagLen) :
      Outcome ProbeError (Bytes × Bytes)) = .ok (p.body ++ t, tag) := by
    rw [hmid, Outcome.splitAt_of_le (by simp), List.take_left, List.drop_left]
  have hequal : constantTimeEq tag tag = true := (constantTimeEq_iff tag tag).mpr rfl
  -- the fields of the header
  have hkind : (Outcome.index (p.body ++ t) 5 : Outcome ProbeError UInt8) = .ok p.kind := by
    rw [hbody]
    exact Outcome.index_append (p := magic ++ [version]) rfl
  have hsender : (Outcome.range (p.body ++ t) 6 2 : Outcome ProbeError Bytes) =
      .ok (le16 p.sender) := by
    rw [hbody]
    exact Outcome.range_append (p := magic ++ [version, p.kind]) rfl (length_le16 _).symm
  have hseq : (Outcome.range (p.body ++ t) 8 8 : Outcome ProbeError Bytes) = .ok (le64 p.seq) := by
    have hfield : p.body ++ t = (magic ++ ([version, p.kind] ++ le16 p.sender)) ++
        (le64 p.seq ++ (le32 p.inc ++ (p.fields ++ t))) := by
      simp [hbody]
    rw [hfield]
    exact Outcome.range_append (by simp [magic]) (length_le64 _).symm
  have hinc : (Outcome.range (p.body ++ t) 16 4 : Outcome ProbeError Bytes) = .ok (le32 p.inc) := by
    have hfield : p.body ++ t = (magic ++ ([version, p.kind] ++ (le16 p.sender ++ le64 p.seq))) ++
        (le32 p.inc ++ (p.fields ++ t)) := by
      simp [hbody]
    rw [hfield]
    exact Outcome.range_append (by simp [magic]) (length_le32 _).symm
  show decode hmac (p.body ++ t ++ tag) secret = .ok p
  rw [decode, if_neg hlong, hmagic, Outcome.ok_bind, if_neg (not_not.mpr rfl), hversion,
    Outcome.ok_bind, if_neg (not_not.mpr rfl), hcut, Outcome.ok_bind]
  dsimp only
  rw [if_neg (by simp [hequal, tag]), hkind, Outcome.ok_bind, hsender, Outcome.ok_bind, hseq,
    Outcome.ok_bind, hinc, Outcome.ok_bind, ofLe16_le16, ofLe64_le64, ofLe32_le32, hsplit]
  exact decodeFields_append p _ t (length_header p)

theorem decode_encode (hmac : Hmac) (secret : Bytes) (p : ProbePacket) :
    decode hmac (p.encode hmac secret) secret = .ok p := by
  have h := decode_body_append hmac secret p []
  rwa [List.append_nil] at h

/-! ## No access out of bounds -/

theorem decodeFields_ne_panicked (kind : UInt8) (sender : NodeId) (seq : UInt64) (inc : UInt32)
    (body : Bytes) : decodeFields kind sender seq inc body ≠ .panicked := by
  unfold decodeFields
  split_ifs
  · refine Outcome.bind_ne_panicked (Outcome.okOr_ne_panicked _ _) fun hasReply _ => ?_
    split_ifs
    · refine Outcome.bind_ne_panicked (Outcome.okOr_ne_panicked _ _) fun a _ => ?_
      exact Outcome.ok_ne_panicked _
    · exact Outcome.ok_ne_panicked _
  · exact Outcome.ok_ne_panicked _
  · refine Outcome.bind_ne_panicked (Outcome.okOr_ne_panicked _ _) fun a _ => ?_
    refine Outcome.bind_ne_panicked (Outcome.okOr_ne_panicked _ _) fun target _ => ?_
    refine Outcome.bind_ne_panicked (Outcome.okOr_ne_panicked _ _) fun b _ => ?_
    exact Outcome.ok_ne_panicked _
  · exact Outcome.error_ne_panicked _

theorem decode_ne_panicked (hmac : Hmac) (buf secret : Bytes) :
    decode hmac buf secret ≠ .panicked := by
  unfold decode
  by_cases hlen : buf.length < headerLen + tagLen
  · rw [if_pos hlen]
    exact Outcome.error_ne_panicked _
  have hlong : 52 ≤ buf.length := not_lt.mp hlen
  have hmid : buf.length - tagLen ≤ buf.length := Nat.sub_le ..
  rw [if_neg hlen, Outcome.range_of_le (by omega), Outcome.ok_bind]
  split_ifs
  · exact Outcome.error_ne_panicked _
  rw [Outcome.index_of_lt (by omega), Outcome.ok_bind]
  split_ifs
  · exact Outcome.error_ne_panicked _
  rw [Outcome.splitAt_of_le hmid, Outcome.ok_bind]
  dsimp only
  split_ifs
  · exact Outcome.error_ne_panicked _
  have hbody : 20 ≤ (buf.take (buf.length - tagLen)).length := by
    rw [List.length_take, min_eq_left hmid, tagLen]
    omega
  rw [Outcome.index_of_lt (by omega), Outcome.ok_bind, Outcome.range_of_le (by omega),
    Outcome.ok_bind, Outcome.range_of_le (by omega), Outcome.ok_bind,
    Outcome.range_of_le (by omega), Outcome.ok_bind]
  exact decodeFields_ne_panicked _ _ _ _ _

end ProbePacket

end BeamSocket.Mesh
