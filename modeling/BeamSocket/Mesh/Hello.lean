import BeamSocket.Mesh.Frame

/-!
# The HELLO body

Model of `crates/mesh/src/hello.rs`. The encoder writes the fields in a fixed
order, the cluster name last behind a 16-bit length; the decoder ignores what
follows the name (append-only bodies).

* `Hello.decode_eq_ok_iff`: the decoder returns `h` exactly on the bodies that
  start with `h.encode`, when the name has at most 255 bytes. In particular the
  decoded fields do not depend on the bytes behind the name.
* `Hello.decode_encode_append`: what was encoded is decoded under any tail.
-/

namespace BeamSocket.Mesh

open BeamSocket.Lib

/-- `MESH_MAGIC` (`lib.rs`, line 70): the ASCII bytes `BSMH`. -/
def meshMagic : Bytes := [0x42, 0x53, 0x4D, 0x48]

/-- `[u8; 32]`: a nonce or a MAC. -/
abbrev Bytes32 := { b : Bytes // b.length = 32 }

/-- `struct Hello` (lines 21–35). -/
structure Hello where
  protocolVersion : UInt16
  nodeId : UInt16
  incarnation : UInt64
  maxFrame : UInt32
  features : UInt32
  fresh : Bytes32
  clusterName : String
  deriving DecidableEq

/-- `FIXED_PREFIX` (line 40). -/
def fixedPrefix : ℕ := 4 + 2 + 2 + 8 + 4 + 4 + 32 + 2

/-- `MAX_CLUSTER_NAME_LEN` (line 45). -/
def maxClusterNameLen : ℕ := 255

/-- `enum HelloError` (lines 112–121). -/
inductive HelloError
  | badMagic
  | truncated
  | clusterNameTooLong (n : ℕ)
  | clusterNameNotUtf8
  deriving DecidableEq, Repr

/-- `Hello::encode` (lines 50–63). `toLe 2` keeps the low 16 bits of the name
    length, as `name.len() as u16` does. -/
def Hello.encode (h : Hello) : Bytes :=
  let name := asBytes h.clusterName
  meshMagic ++ le16 h.protocolVersion ++ le16 h.nodeId ++ le64 h.incarnation ++
    le32 h.maxFrame ++ le32 h.features ++ h.fresh.val ++ toLe 2 name.length ++ name

/-- `Hello::decode` (lines 68–105). -/
def Hello.decode (body : Bytes) : Except HelloError Hello :=
  if hlen : body.length < fixedPrefix then .error .truncated
  else if slice body 0 4 ≠ meshMagic then .error .badMagic
  else
    let nameLen := fromLe (slice body 56 2)
    if nameLen > maxClusterNameLen then .error (.clusterNameTooLong nameLen)
    else if body.length < fixedPrefix + nameLen then .error .truncated
    else
      match fromUtf8 (slice body fixedPrefix nameLen) with
      | none => .error .clusterNameNotUtf8
      | some clusterName => .ok
          { protocolVersion := ofLe16 (slice body 4 2)
            nodeId := ofLe16 (slice body 6 2)
            incarnation := ofLe64 (slice body 8 8)
            maxFrame := ofLe32 (slice body 16 4)
            features := ofLe32 (slice body 20 4)
            fresh := ⟨slice body 24 32,
              length_slice (by unfold fixedPrefix at hlen; omega)⟩
            clusterName := clusterName }

/-- The cluster name fits the limit the decoder enforces. -/
def Hello.NameFits (h : Hello) : Prop := (asBytes h.clusterName).length ≤ maxClusterNameLen

theorem Hello.length_encode (h : Hello) :
    h.encode.length = fixedPrefix + (asBytes h.clusterName).length := by
  simp [Hello.encode, meshMagic, fixedPrefix, h.fresh.property]; omega

/-! ## The decoder accepts exactly the extensions of an encoding -/

/-- Every field is read back from an encoding, whatever follows it. -/
theorem Hello.decode_encode_append (h : Hello) (hn : h.NameFits) (t : Bytes) :
    Hello.decode (h.encode ++ t) = .ok h := by
  have hn' : (asBytes h.clusterName).length ≤ 255 := hn
  have hf : h.fresh.val.length = 32 := h.fresh.property
  have hlen : (h.encode ++ t).length = 58 + (asBytes h.clusterName).length + t.length := by
    rw [List.length_append, h.length_encode]; rfl
  -- each field sits behind the concatenation of the fields before it
  have hfields : slice (h.encode ++ t) 0 4 = meshMagic ∧
      slice (h.encode ++ t) 4 2 = le16 h.protocolVersion ∧
      slice (h.encode ++ t) 6 2 = le16 h.nodeId ∧
      slice (h.encode ++ t) 8 8 = le64 h.incarnation ∧
      slice (h.encode ++ t) 16 4 = le32 h.maxFrame ∧
      slice (h.encode ++ t) 20 4 = le32 h.features ∧
      slice (h.encode ++ t) 24 32 = h.fresh.val ∧
      slice (h.encode ++ t) 56 2 = toLe 2 (asBytes h.clusterName).length ∧
      slice (h.encode ++ t) fixedPrefix (asBytes h.clusterName).length =
        asBytes h.clusterName := by
    have hm : meshMagic.length = 4 := rfl
    refine ⟨?_, ?_, ?_, ?_, ?_, ?_, ?_, ?_, ?_⟩ <;>
      simp [Hello.encode, slice_append_right, slice_zero_append, hm, hf, fixedPrefix]
  obtain ⟨h0, h1, h2, h3, h4, h5, h6, h7, h8⟩ := hfields
  have hval : fromLe (toLe 2 (asBytes h.clusterName).length) = (asBytes h.clusterName).length :=
    fromLe_toLe_of_lt (by omega)
  unfold Hello.decode
  rw [dif_neg (by rw [hlen]; unfold fixedPrefix; omega), if_neg (by rw [h0]; simp)]
  simp only [h7, hval]
  rw [if_neg (by unfold maxClusterNameLen; omega),
    if_neg (by rw [hlen]; unfold fixedPrefix; omega)]
  simp only [h1, h2, h3, h4, h5, h6, h8, fromUtf8_asBytes, ofLe16_le16, ofLe32_le32, ofLe64_le64]

/-- A body that decodes starts with the encoding of what it decodes to. -/
theorem Hello.encode_prefix_of_decode {body : Bytes} {h : Hello}
    (hd : Hello.decode body = .ok h) : h.NameFits ∧ h.encode <+: body := by
  unfold Hello.decode at hd
  dsimp only at hd
  split_ifs at hd with hlen hmagic hlong hshort
  split at hd
  · cases hd
  · next name hname =>
    have hbytes : asBytes name = slice body 58 (fromLe (slice body 56 2)) :=
      asBytes_of_fromUtf8 hname
    unfold fixedPrefix at hlen hshort
    simp only [not_lt, ne_eq, not_not] at hlen hmagic hlong hshort
    have hnl : (asBytes name).length = fromLe (slice body 56 2) := by
      rw [hbytes]; exact length_slice (by omega)
    cases hd
    refine ⟨by rw [Hello.NameFits, hnl]; exact hlong, ?_⟩
    -- the fields glue back to a prefix of the body
    have hglue : slice body 0 (58 + fromLe (slice body 56 2)) =
        slice body 0 4 ++ slice body 4 2 ++ slice body 6 2 ++ slice body 8 8 ++ slice body 16 4 ++
          slice body 20 4 ++ slice body 24 32 ++ slice body 56 2 ++
          slice body 58 (fromLe (slice body 56 2)) := by
      rw [slice_add body 0 58, slice_add body 0 56 2, slice_add body 0 24 32, slice_add body 0 20 4,
        slice_add body 0 16 4, slice_add body 0 8 8, slice_add body 0 6 2, slice_add body 0 4 2]
    have h2 : toLe 2 (fromLe (slice body 56 2)) = slice body 56 2 := by
      have := toLe_fromLe (slice body 56 2)
      rwa [length_slice (by omega)] at this
    have hpre : slice body 0 (58 + fromLe (slice body 56 2)) <+: body := by
      rw [slice, List.drop_zero]; exact List.take_prefix _ _
    rw [hglue] at hpre
    simp only [Hello.encode]
    rwa [hnl, h2, ← hmagic, hbytes, le16_ofLe16 (length_slice (by omega)),
      le16_ofLe16 (length_slice (by omega)),
      le64_ofLe64 (length_slice (by omega)), le32_ofLe32 (length_slice (by omega)),
      le32_ofLe32 (length_slice (by omega))]

theorem Hello.decode_eq_ok_iff {body : Bytes} {h : Hello} :
    Hello.decode body = .ok h ↔ h.NameFits ∧ h.encode <+: body := by
  constructor
  · exact Hello.encode_prefix_of_decode
  · rintro ⟨hn, t, rfl⟩
    exact h.decode_encode_append hn t

/-- The decoder ignores what follows a decodable body. -/
theorem Hello.decode_append {body : Bytes} {h : Hello} (hd : Hello.decode body = .ok h)
    (t : Bytes) : Hello.decode (body ++ t) = .ok h := by
  obtain ⟨hn, hp⟩ := Hello.decode_eq_ok_iff.mp hd
  exact Hello.decode_eq_ok_iff.mpr ⟨hn, hp.trans (List.prefix_append _ _)⟩

end BeamSocket.Mesh
