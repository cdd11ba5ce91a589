import BeamSocket.Mesh.Interest

/-!
# The bodies of INTEREST and INTEREST_DIGEST frames

Model of the codec of `crates/mesh/src/interest.rs` (lines 403–543). Names and lists of names
stand behind a 16-bit length and a 16-bit count, which casts of `len()` write; nothing
upstream bounds the length of a room or user name, or how many of them a node hosts.

* `decodeDigest_append`: a digest with any tail is read back if its count fits.
* `InterestUpdate.decode_encode_iff`: an update with any tail is read back iff its names and
  counts fit their fields.
* `InterestUpdate.survives_iff`: for every update a node sends, the peer that decodes it
  records the sender's view of the origin, under the same condition.
* `LongName.room_renamed`: an edge about a room of 65536 bytes is read as one about another.
-/

namespace BeamSocket.Mesh

open BeamSocket.Lib

/-! ## The codec -/

/-- `put_str` (lines 403–406). -/
def putStr (s : String) : Bytes := putText s

/-- `get_str` (lines 408–414), with the new offset. -/
def getStr (buf : Bytes) (off : ℕ) : Option (String × ℕ) := getText buf off

/-- `put_target` (lines 416–427). -/
def putTarget : Target → Bytes
  | .room r => 1 :: putStr r
  | .user u => 2 :: putStr u

/-- `get_target` (lines 429–438), with the new offset. -/
def getTarget (buf : Bytes) (off : ℕ) : Option (Target × ℕ) := do
  let kind ← buf[off]?
  let (s, off) ← getStr buf (off + 1)
  if kind = 1 then some (.room s, off)
  else if kind = 2 then some (.user s, off)
  else none

/-- `put_strs` (lines 440–445). -/
def putStrs (items : List String) : Bytes := putCounted putStr items

/-- `get_strs` (lines 447–455), with the new offset. -/
def getStrs (buf : Bytes) (off : ℕ) : Option (List String × ℕ) := getCounted getStr buf off

/-- The name of a target. -/
def Target.name : Target → String
  | .room r => r
  | .user u => u

namespace InterestUpdate

/-- `InterestUpdate::encode` (lines 459–479). -/
def encode : InterestUpdate → Bytes
  | edge e =>
    1 :: (le16 e.origin ++ (toLe 8 e.seq ++ ((if e.add then 1 else 0) :: putTarget e.target)))
  | snapshot s =>
    2 :: (le16 s.origin ++ (toLe 8 s.seq ++ (putStrs s.rooms ++ putStrs s.users)))

/-- `InterestUpdate::decode` (lines 482–513). -/
def decode (body : Bytes) : Option InterestUpdate := do
  let sub ← body[0]?
  let origin ← slice? body 1 2
  let seq ← slice? body 3 8
  if sub = 1 then do
    let add ← body[11]?
    let (target, _) ← getTarget body 12
    some (edge ⟨ofLe16 origin, fromLe seq, add ≠ 0, target⟩)
  else if sub = 2 then do
    let (rooms, off) ← getStrs body 11
    let (users, _) ← getStrs body off
    some (snapshot ⟨ofLe16 origin, fromLe seq, rooms, users⟩)
  else none

/-- Every length and count fits its 16-bit field. -/
def Fits : InterestUpdate → Prop
  | edge e => (asBytes e.target.name).length < 65536
  | snapshot s =>
    (s.rooms.length < 65536 ∧ ∀ r ∈ s.rooms, (asBytes r).length < 65536) ∧
      (s.users.length < 65536 ∧ ∀ u ∈ s.users, (asBytes u).length < 65536)

instance : ∀ u : InterestUpdate, Decidable u.Fits
  | edge _ => inferInstanceAs (Decidable (_ < _))
  | snapshot _ => inferInstanceAs (Decidable ((_ ∧ _) ∧ (_ ∧ _)))

end InterestUpdate

/-- One entry of `encode_digest`. -/
def putDigestEntry (e : DigestEntry) : Bytes := le16 e.1 ++ (toLe 8 e.2.1 ++ le64 e.2.2)

/-- One turn of the loop of `decode_digest` (lines 533–541), with the new offset. -/
def getDigestEntry (buf : Bytes) (off : ℕ) : Option (DigestEntry × ℕ) := do
  let origin ← slice? buf off 2
  let seq ← slice? buf (off + 2) 8
  let hash ← slice? buf (off + 10) 8
  some ((ofLe16 origin, fromLe seq, ofLe64 hash), off + 18)

/-- `encode_digest` (lines 516–525). -/
def encodeDigest (entries : List DigestEntry) : Bytes := putCounted putDigestEntry entries

/-- `decode_digest` (lines 528–543). -/
def decodeDigest (body : Bytes) : Option (List DigestEntry) := do
  let (entries, _) ← getCounted getDigestEntry body 0
  some entries

/-! ## Reading back -/

theorem readsBackIff_putTarget :
    ReadsBackIff (fun t : Target => (asBytes t.name).length < 65536) putTarget getTarget := by
  have hname := readsBackIff_putText
  have hget (kind : UInt8) (s : String) (p r : Bytes) :
      getStr (p ++ ((kind :: putStr s) ++ r)) (p.length + 1) =
        getText ((p ++ [kind]) ++ (putText s ++ r)) (p ++ [kind]).length := by
    rw [List.length_append, List.length_singleton, List.append_assoc]
    rfl
  have hkind (kind : UInt8) (s : String) (p r : Bytes) :
      (p ++ ((kind :: putStr s) ++ r))[p.length]? = some kind := getElem?_append_cons rfl
  refine ⟨?_, ?_⟩
  · intro t ht p r
    cases t with
    | room s =>
      have hread := hname.read s ht (p ++ [1]) r
      simp only [putTarget, getTarget, hkind, hget, hread, Option.bind_eq_bind, Option.bind_some,
        if_true]
      simp [putStr, Nat.add_assoc, Nat.add_comm 1]
    | user s =>
      have hread := hname.read s ht (p ++ [2]) r
      have hne : (2 : UInt8) ≠ 1 := by decide
      simp only [putTarget, getTarget, hkind, hget, hread, Option.bind_eq_bind, Option.bind_some,
        if_neg hne, if_true]
      simp [putStr, Nat.add_assoc, Nat.add_comm 1]
  · intro t p r off hread
    cases t with
    | room s =>
      simp only [putTarget, getTarget, hkind, hget, Option.bind_eq_bind, Option.bind_some, if_true,
        Option.bind_eq_some_iff, Prod.exists] at hread
      obtain ⟨s', off', hs, heq⟩ := hread
      cases heq
      exact hname.fits s _ _ _ hs
    | user s =>
      have hne : (2 : UInt8) ≠ 1 := by decide
      simp only [putTarget, getTarget, hkind, hget, Option.bind_eq_bind, Option.bind_some,
        if_neg hne, if_true, Option.bind_eq_some_iff, Prod.exists] at hread
      obtain ⟨s', off', hs, heq⟩ := hread
      cases heq
      exact hname.fits s _ _ _ hs

theorem readsBackIff_putStrs :
    ReadsBackIff (fun v : List String => v.length < 65536 ∧ ∀ s ∈ v, (asBytes s).length < 65536)
      putStrs getStrs :=
  readsBackIff_putText.counted

/-- A sequence number is read back as the `u64` it is. -/
theorem readsBackIff_putDigestEntry :
    ReadsBackIff (fun e : DigestEntry => e.2.1 < 2 ^ 64) putDigestEntry getDigestEntry := by
  have hget (e : DigestEntry) (p r : Bytes) :
      getDigestEntry (p ++ (putDigestEntry e ++ r)) p.length =
        some ((e.1, e.2.1 % 2 ^ 64, e.2.2), p.length + 18) := by
    have horigin : slice? (p ++ (putDigestEntry e ++ r)) p.length 2 = some (le16 e.1) := by
      rw [putDigestEntry, List.append_assoc]
      exact slice?_append rfl (length_le16 _).symm
    have hseq : slice? (p ++ (putDigestEntry e ++ r)) (p.length + 2) 8 = some (toLe 8 e.2.1) := by
      have hbuf : p ++ (putDigestEntry e ++ r) =
          (p ++ le16 e.1) ++ (toLe 8 e.2.1 ++ (le64 e.2.2 ++ r)) := by
        simp [putDigestEntry]
      rw [hbuf]
      exact slice?_append (by simp) (length_toLe ..).symm
    have hhash : slice? (p ++ (putDigestEntry e ++ r)) (p.length + 10) 8 = some (le64 e.2.2) := by
      have hbuf : p ++ (putDigestEntry e ++ r) =
          (p ++ (le16 e.1 ++ toLe 8 e.2.1)) ++ (le64 e.2.2 ++ r) := by
        simp [putDigestEntry]
      rw [hbuf]
      exact slice?_append (by simp) (length_le64 _).symm
    simp only [getDigestEntry, horigin, hseq, hhash, Option.bind_eq_bind, Option.bind_some,
      ofLe16_le16, ofLe64_le64, fromLe_toLe]
    rfl
  refine ⟨?_, ?_⟩
  · rintro ⟨origin, seq, hash⟩ hseq p r
    rw [hget, Nat.mod_eq_of_lt hseq]
    simp [putDigestEntry]
  · rintro ⟨origin, seq, hash⟩ p r off hread
    rw [hget, Option.some.injEq, Prod.mk.injEq, Prod.mk.injEq, Prod.mk.injEq] at hread
    have hmod : seq % 2 ^ 64 = seq := hread.1.2.1
    show seq < 2 ^ 64
    omega

theorem inRange_getDigestEntry : InRange getDigestEntry := by
  intro buf off e off' h
  simp only [getDigestEntry, Option.bind_eq_bind, Option.bind_eq_some_iff] at h
  obtain ⟨origin, -, seq, -, hash, hhash, heq⟩ := h
  cases heq
  have hle := le_of_slice? hhash
  omega

theorem decodeDigest_append {entries : List DigestEntry} (hlen : entries.length < 65536)
    (hseq : ∀ e ∈ entries, e.2.1 < 2 ^ 64) (t : Bytes) :
    decodeDigest (encodeDigest entries ++ t) = some entries := by
  have hread : getCounted getDigestEntry (encodeDigest entries ++ t) 0 = some (entries, _) :=
    readsBackIff_putDigestEntry.counted.read entries ⟨hlen, hseq⟩ [] t
  rw [decodeDigest, hread]
  rfl

namespace InterestUpdate

/-- The three fields every body starts with. -/
theorem header_fields (sub : UInt8) (origin : NodeId) {seq : ℕ} (hseq : seq < 2 ^ 64)
    (rest : Bytes) :
    let body := sub :: (le16 origin ++ (toLe 8 seq ++ rest))
    body[0]? = some sub ∧ slice? body 1 2 = some (le16 origin) ∧
      slice? body 3 8 = some (toLe 8 seq) ∧ fromLe (toLe 8 seq) = seq := by
  intro body
  have horigin : body = [sub] ++ (le16 origin ++ (toLe 8 seq ++ rest)) := rfl
  have hfield : body = ([sub] ++ le16 origin) ++ (toLe 8 seq ++ rest) := by
    rw [horigin, List.append_assoc]
  refine ⟨rfl, ?_, ?_, fromLe_toLe_of_lt (by omega)⟩
  · rw [horigin]
    exact slice?_append rfl (length_le16 _).symm
  · rw [hfield]
    exact slice?_append (by simp) (length_toLe ..).symm

theorem decode_edge_iff (e : InterestEdge) (hseq : e.seq < 2 ^ 64) (tail : Bytes) :
    decode ((edge e).encode ++ tail) = some (edge e) ↔ (edge e).Fits := by
  obtain ⟨origin, seq, add, target⟩ := e
  let flag : UInt8 := if add then 1 else 0
  have hbody : (edge ⟨origin, seq, add, target⟩).encode ++ tail =
      1 :: (le16 origin ++ (toLe 8 seq ++ (flag :: putTarget target ++ tail))) := by
    simp [encode, flag]
  obtain ⟨hsub, horigin, hfield, hval⟩ :=
    header_fields 1 origin hseq (flag :: putTarget target ++ tail)
  rw [← hbody] at hsub horigin hfield
  have hsplit : (edge ⟨origin, seq, add, target⟩).encode ++ tail =
      (1 :: (le16 origin ++ toLe 8 seq)) ++ (flag :: (putTarget target ++ tail)) := by
    simp [hbody]
  have hflag : ((edge ⟨origin, seq, add, target⟩).encode ++ tail)[11]? = some flag := by
    rw [hsplit]
    exact getElem?_append_cons (by simp)
  have htarget : getTarget ((edge ⟨origin, seq, add, target⟩).encode ++ tail) 12 =
      getTarget ((1 :: (le16 origin ++ (toLe 8 seq ++ [flag]))) ++ (putTarget target ++ tail))
        (1 :: (le16 origin ++ (toLe 8 seq ++ [flag]))).length := by
    simp [hsplit]
  have hadd : decide (flag ≠ 0) = add := by cases add <;> rfl
  simp only [decode, hsub, horigin, hfield, hflag, htarget, Option.bind_eq_bind, Option.bind_some,
    if_true, ofLe16_le16, hval, hadd]
  constructor
  · intro h
    obtain ⟨⟨target', off⟩, hread, heq⟩ := Option.bind_eq_some_iff.mp h
    cases heq
    exact readsBackIff_putTarget.fits _ _ _ _ hread
  · intro hfits
    rw [readsBackIff_putTarget.read target hfits, Option.bind_some]

theorem decode_snapshot_iff (s : InterestSnapshot) (hseq : s.seq < 2 ^ 64) (tail : Bytes) :
    decode ((snapshot s).encode ++ tail) = some (snapshot s) ↔ (snapshot s).Fits := by
  obtain ⟨origin, seq, rooms, users⟩ := s
  let header : Bytes := 2 :: (le16 origin ++ toLe 8 seq)
  have hbody : (snapshot ⟨origin, seq, rooms, users⟩).encode ++ tail =
      2 :: (le16 origin ++ (toLe 8 seq ++ (putStrs rooms ++ (putStrs users ++ tail)))) := by
    simp [encode]
  obtain ⟨hsub, horigin, hfield, hval⟩ :=
    header_fields 2 origin hseq (putStrs rooms ++ (putStrs users ++ tail))
  rw [← hbody] at hsub horigin hfield
  have hsplit : (snapshot ⟨origin, seq, rooms, users⟩).encode ++ tail =
      header ++ (putStrs rooms ++ (putStrs users ++ tail)) := by
    simp [hbody, header]
  have hheader : header.length = 11 := by simp [header]
  have hne : (2 : UInt8) ≠ 1 := by decide
  simp only [decode, hsub, horigin, hfield, Option.bind_eq_bind, Option.bind_some, if_neg hne,
    if_true, ofLe16_le16, hval]
  rw [hsplit, ← hheader]
  constructor
  · intro h
    obtain ⟨⟨rooms', off⟩, hrooms, h⟩ := Option.bind_eq_some_iff.mp h
    obtain ⟨⟨users', off'⟩, husers, heq⟩ := Option.bind_eq_some_iff.mp h
    cases heq
    have hfits := readsBackIff_putStrs.fits _ header _ _ hrooms
    rw [readsBackIff_putStrs.read _ hfits] at hrooms
    have hoff := (Prod.mk.inj (Option.some.inj hrooms)).2
    dsimp only at husers
    rw [← hoff, ← List.append_assoc, ← List.length_append] at husers
    exact ⟨hfits, readsBackIff_putStrs.fits _ _ _ _ husers⟩
  · rintro ⟨hrooms, husers⟩
    have hread := readsBackIff_putStrs.read users husers (header ++ putStrs rooms) tail
    rw [List.append_assoc, List.length_append] at hread
    rw [readsBackIff_putStrs.read rooms hrooms, Option.bind_some]
    dsimp only
    rw [hread, Option.bind_some]

/-- With any tail, an update is read back iff its names and counts fit. -/
theorem decode_encode_iff (u : InterestUpdate) (hseq : u.seq < 2 ^ 64) (tail : Bytes) :
    decode (u.encode ++ tail) = some u ↔ u.Fits := by
  cases u with
  | edge e => exact decode_edge_iff e hseq tail
  | snapshot s => exact decode_snapshot_iff s hseq tail

/-! ## What the peer records -/

/-- An update that a node sends about the origin `c`, the node's view of `c` when it does, and
    the peers that are ready for it: for an edge those that had the view before it, for a
    snapshot those that have nothing newer. -/
inductive Sends : InterestUpdate → NodeId → OriginInterest → (InterestState → Prop) → Prop
  | localSet (st : InterestState) (target : Target) (hosting : Bool) (e : InterestEdge)
      (h : (st.localSet target hosting).2 = some e) :
      Sends (edge e) st.selfId (st.localSet target hosting).1.localInterest
        fun p => (p.entry st.selfId).getD default = st.localInterest
  | localSnapshot (st : InterestState) :
      Sends (snapshot st.localSnapshot) st.selfId st.localInterest
        fun p => p.recordedSeq st.selfId ≤ st.localInterest.seq
  | forwarded (st : InterestState) (c : NodeId) (o : OriginInterest) (h : st.entry c = some o) :
      Sends (snapshot (snapshotOf c o)) c o fun p => p.recordedSeq c ≤ o.seq

variable {u : InterestUpdate} {c : NodeId} {view : OriginInterest} {ready : InterestState → Prop}

theorem Sends.seq_eq (h : Sends u c view ready) : u.seq = view.seq := by
  cases h with
  | localSet st target hosting e h =>
    rw [InterestState.edge_localSet] at h
    rw [InterestState.localInterest_localSet]
    split_ifs at h ⊢
    cases h
    rfl
  | localSnapshot st => rfl
  | forwarded st c o h => rfl

/-- A peer that is ready for an update records the view it was sent with. -/
theorem Sends.entry_applyUpdate (h : Sends u c view ready) {p : InterestState}
    (hne : p.selfId ≠ c) (hready : ready p) : (p.applyUpdate u).entry c = some view := by
  have hsnapshot (o : OriginInterest) (hseq : p.recordedSeq c ≤ o.seq) :
      (p.applySnapshot (snapshotOf c o)).1.entry c = some o := by
    rw [InterestState.entry_applySnapshot, if_pos ⟨rfl, hne.symm, hseq⟩, interest_snapshotOf]
  cases h with
  | localSet st target hosting e h =>
    rw [InterestState.edge_localSet] at h
    rw [InterestState.localInterest_localSet]
    split_ifs at h ⊢ with hhosts
    cases h
    have hlt : ¬st.localInterest.seq + 1 ≤ st.localInterest.seq := by omega
    show (p.applyEdge _).1.entry _ = _
    rw [InterestState.entry_applyEdge, if_pos ⟨rfl, hne.symm⟩]
    dsimp only
    rw [hready, if_neg hlt]
    cases target <;> rfl
  | localSnapshot st => exact hsnapshot st.localInterest hready
  | forwarded st c o h => exact hsnapshot _ hready

/-- For every edge of `local_set` and every snapshot of a node's own or a recorded interest,
    with any tail: the body is read as the update that was sent, and every peer that is ready
    for it records the sender's view of the origin, iff the names and counts of the update fit
    their 16-bit fields. The sequence number is a `u64`. -/
theorem survives_iff (h : Sends u c view ready) (hseq : view.seq < 2 ^ 64) (tail : Bytes) :
    (decode (u.encode ++ tail) = some u ∧
      ∀ p : InterestState, p.selfId ≠ c → ready p →
        ((decode (u.encode ++ tail)).map p.applyUpdate).bind (·.entry c) = some view) ↔
      u.Fits := by
  rw [← h.seq_eq] at hseq
  rw [← decode_encode_iff u hseq tail]
  constructor
  · exact fun hboth => hboth.1
  · intro hdecode
    refine ⟨hdecode, ?_⟩
    intro p hne hready
    rw [hdecode]
    exact h.entry_applyUpdate hne hready

end InterestUpdate

/-! ## A room with a long name -/

namespace LongName

open InterestUpdate

/-- A node without rooms. -/
def node : InterestState := .new 1 .interest

/-- A node tells a peer of its first room; a byte follows the update. -/
theorem lobby_survives :
    ((decode ((edge ⟨1, 1, true, .room "lobby"⟩).encode ++ [0xff])).map
        (InterestState.new 2 .interest).applyUpdate).bind (·.entry 1) =
      some ⟨1, .ofList ["lobby"], ∅⟩ := by
  have hsends := Sends.localSet node (.room "lobby") true ⟨1, 1, true, .room "lobby"⟩ (by decide)
  have hsurvives := (survives_iff hsends (by decide) [0xff]).mpr (by decide)
  exact hsurvives.2 (.new 2 .interest) (by decide) rfl

/-- The number of bytes of the name, which is 0 in its field. -/
def size : ℕ := 65536

/-- A room name of `size` letters. -/
def name : String := String.ofList (List.replicate size 'a')

theorem length_asBytes_replicate (n : ℕ) :
    (asBytes (String.ofList (List.replicate n 'a'))).length = n := by
  have hsize : (List.replicate n 'a').utf8Encode.size = n := by
    induction n with
    | zero => rfl
    | succ n ih =>
      rw [List.replicate_succ, List.utf8Encode_cons, ByteArray.size_append, ih, Nat.add_comm]
      rfl
  rw [asBytes, Array.length_toList]
  exact hsize

theorem length_name : (asBytes name).length = size := length_asBytes_replicate size

/-- The edge is read as one about the room with the empty name, and the name as its tail. -/
theorem room_renamed :
    (node.localSet (.room name) true).2 = some ⟨1, 1, true, .room name⟩ ∧
      decode (edge ⟨1, 1, true, .room name⟩).encode = some (edge ⟨1, 1, true, .room ""⟩) ∧
      name ≠ "" := by
  have hfield : toLe 2 size = toLe 2 0 := by decide
  have hbody : (edge ⟨1, 1, true, .room name⟩).encode =
      (edge ⟨1, 1, true, .room ""⟩).encode ++ asBytes name := by
    have hempty : asBytes "" = [] := by decide
    simp [encode, putTarget, putStr, putText, hempty, length_name, hfield]
  refine ⟨?_, ?_, ?_⟩
  · rw [InterestState.edge_localSet, if_neg (by decide)]
    rfl
  · rw [hbody]
    exact (decode_encode_iff _ (by decide) (asBytes name)).mpr (by decide)
  · intro hempty
    have hlength := length_name
    rw [hempty] at hlength
    cases hlength

end LongName

end BeamSocket.Mesh
