import BeamSocket.Mesh.Swim

/-!
# Membership messages

Model of `crates/mesh/src/membership_sync.rs`: the MEMBERSHIP frame bodies, the
answer a node gives to each (`apply`) and the anti-entropy digest. Addresses are
written by `put_addr` and `get_addr` of `crates/mesh/src/probe.rs` (lines
200–231). A list of updates stands behind `len() as u16`.

* `MembershipMsg.decode_encode`: the receiver sees the first `n % 65536` of `n`
  entries, so a message of fewer than 65536 entries is read back.
* `MembershipMsg.decode_encode_sync_full`: 65536 updates are read as none.
* `Membership.mem_newer`, `Membership.lookup_peerIncs_iff`: what a digest is
  answered with, and what it says of a member.
-/

namespace BeamSocket.Mesh

open BeamSocket.Lib

/-! ## The codec -/

/-- `state_u8`. -/
def stateU8 : MState → UInt8
  | .alive => 0
  | .suspect => 1
  | .dead => 2

/-- `u8_state`. -/
def u8State (b : UInt8) : Option MState :=
  if b = 0 then some .alive
  else if b = 1 then some .suspect
  else if b = 2 then some .dead
  else none

/-- `put_addr`: family, address in network order, port. -/
def putAddr (a : SocketAddr) : Bytes :=
  match a.ip with
  | .v4 octets => 4 :: ((toLe 4 octets.toNat).reverse ++ le16 a.port)
  | .v6 octets => 6 :: ((toLe 16 octets.toNat).reverse ++ le16 a.port)

/-- The address behind the family byte of `get_addr`, with the new offset. -/
def getIp (fam : UInt8) (buf : Bytes) (off : ℕ) : Option (IpAddr × ℕ) :=
  if fam = 4 then do
    let o ← slice? buf off 4
    some (.v4 (BitVec.ofNat 32 (fromLe o.reverse)), off + 4)
  else if fam = 6 then do
    let o ← slice? buf off 16
    some (.v6 (BitVec.ofNat 128 (fromLe o.reverse)), off + 16)
  else none

/-- `get_addr`, with the new offset. -/
def getAddr (buf : Bytes) (off : ℕ) : Option (SocketAddr × ℕ) := do
  let fam ← buf[off]?
  let (ip, off) ← getIp fam buf (off + 1)
  let port ← slice? buf off 2
  some (⟨ip, ofLe16 port⟩, off + 2)

/-- `put_update`. -/
def putUpdate (u : Update) : Bytes :=
  le16 u.id ++ (stateU8 u.state :: (le32 u.inc ++ putAddr u.addr))

/-- `get_update`, with the new offset. -/
def getUpdate (buf : Bytes) (off : ℕ) : Option (Update × ℕ) := do
  let id ← slice? buf off 2
  let state ← buf[off + 2]?
  let state ← u8State state
  let inc ← slice? buf (off + 3) 4
  let (addr, off) ← getAddr buf (off + 7)
  some (⟨ofLe16 id, addr, state, ofLe32 inc⟩, off)

/-- `put_updates`. -/
def putUpdates (updates : List Update) : Bytes := putCounted putUpdate updates

/-- `get_updates`, with the new offset. -/
def getUpdates (buf : Bytes) (off : ℕ) : Option (List Update × ℕ) := getCounted getUpdate buf off

/-- One entry of a digest. -/
def putEntry (e : NodeId × UInt32) : Bytes := le16 e.1 ++ le32 e.2

/-- One turn of the loop for a digest in `decode` (lines 138–144), with the new offset. -/
def getEntry (buf : Bytes) (off : ℕ) : Option ((NodeId × UInt32) × ℕ) := do
  let id ← slice? buf off 2
  let inc ← slice? buf (off + 2) 4
  some ((ofLe16 id, ofLe32 inc), off + 6)

/-- `enum MembershipMsg`. -/
inductive MembershipMsg
  | sync (reply : Bool) (updates : List Update)
  | gossip (updates : List Update)
  | digest (entries : List (NodeId × UInt32))
  deriving DecidableEq, Repr

namespace MembershipMsg

/-- `MembershipMsg::encode` (lines 96–119). -/
def encode : MembershipMsg → Bytes
  | sync reply updates => 1 :: (if reply then 1 else 0) :: putUpdates updates
  | gossip updates => 2 :: putUpdates updates
  | digest entries => 3 :: putCounted putEntry entries

/-- `MembershipMsg::decode` (lines 123–149). -/
def decode (body : Bytes) : Option MembershipMsg := do
  let sub ← body[0]?
  if sub = 1 then do
    let reply ← body[1]?
    let (updates, _) ← getUpdates body 2
    some (sync (reply ≠ 0) updates)
  else if sub = 2 then do
    let (updates, _) ← getUpdates body 1
    some (gossip updates)
  else if sub = 3 then do
    let (entries, _) ← getCounted getEntry body 1
    some (digest entries)
  else none

/-- The number of entries. -/
def count : MembershipMsg → ℕ
  | sync _ updates => updates.length
  | gossip updates => updates.length
  | digest entries => entries.length

/-- The updates a receiver merges. -/
def updates : MembershipMsg → List Update
  | sync _ us => us
  | gossip us => us
  | digest _ => []

/-- The message without the entries from the `n`-th on. -/
def take (n : ℕ) : MembershipMsg → MembershipMsg
  | sync reply us => sync reply (us.take n)
  | gossip us => gossip (us.take n)
  | digest es => digest (es.take n)

theorem mem_updates_take {msg : MembershipMsg} {n : ℕ} {u : Update}
    (h : u ∈ (msg.take n).updates) : u ∈ msg.updates := by
  cases msg with
  | sync reply us => exact List.mem_of_mem_take h
  | gossip us => exact List.mem_of_mem_take h
  | digest es => cases h

end MembershipMsg

/-! ## Reading back -/

@[simp] theorem u8State_stateU8 (s : MState) : u8State (stateU8 s) = some s := by
  cases s <;> rfl

/-- The octets of an address, read back as a number. -/
theorem fromLe_octets {w : ℕ} (o : BitVec (8 * w)) :
    BitVec.ofNat (8 * w) (fromLe (toLe w o.toNat).reverse.reverse) = o := by
  have hlt : o.toNat < 256 ^ w := by
    have h := o.isLt
    rwa [pow_mul] at h
  rw [List.reverse_reverse, fromLe_toLe_of_lt hlt, BitVec.ofNat_toNat, BitVec.setWidth_eq]

/-- `get_addr` behind a family byte whose octets `get_ip` reads. -/
theorem getAddr_of_getIp {fam : UInt8} {octets : Bytes} {ip : IpAddr} {p r : Bytes} {port : UInt16}
    (hip : getIp fam (p ++ (fam :: (octets ++ le16 port) ++ r)) (p.length + 1) =
      some (ip, p.length + 1 + octets.length)) :
    getAddr (p ++ (fam :: (octets ++ le16 port) ++ r)) p.length =
      some (⟨ip, port⟩, p.length + (fam :: (octets ++ le16 port)).length) := by
  have hfam : (p ++ (fam :: (octets ++ le16 port) ++ r))[p.length]? = some fam :=
    getElem?_append_cons rfl
  have hbuf : p ++ (fam :: (octets ++ le16 port) ++ r) =
      (p ++ fam :: octets) ++ (le16 port ++ r) := by simp
  have hport : slice? (p ++ (fam :: (octets ++ le16 port) ++ r))
      (p.length + 1 + octets.length) 2 = some (le16 port) := by
    rw [hbuf]
    exact slice?_append (by simp; omega) (length_le16 _).symm
  simp only [getAddr, hfam, hip, hport, Option.bind_eq_bind, Option.bind_some, ofLe16_le16]
  simp only [List.length_cons, List.length_append, length_le16]
  congr 2
  omega

theorem readsBack_putAddr : ReadsBack putAddr getAddr := by
  rintro ⟨ip, port⟩ p r
  cases ip with
  | v4 o =>
    apply getAddr_of_getIp
    have ho : slice? (p ++ (4 :: ((toLe 4 o.toNat).reverse ++ le16 port) ++ r)) (p.length + 1) 4 =
        some (toLe 4 o.toNat).reverse := by
      rw [List.cons_append, List.append_assoc, ← List.singleton_append, ← List.append_assoc p]
      exact slice?_append (by simp) (by simp)
    simp only [getIp, ho, if_true, Option.bind_eq_bind, Option.bind_some, List.length_reverse,
      length_toLe]
    rw [fromLe_octets (w := 4) o]
  | v6 o =>
    apply getAddr_of_getIp
    have ho : slice? (p ++ (6 :: ((toLe 16 o.toNat).reverse ++ le16 port) ++ r)) (p.length + 1) 16 =
        some (toLe 16 o.toNat).reverse := by
      rw [List.cons_append, List.append_assoc, ← List.singleton_append, ← List.append_assoc p]
      exact slice?_append (by simp) (by simp)
    have hfam : (6 : UInt8) ≠ 4 := by decide
    simp only [getIp, ho, if_true, if_neg hfam, Option.bind_eq_bind, Option.bind_some,
      List.length_reverse, length_toLe]
    rw [fromLe_octets (w := 16) o]

theorem readsBack_putUpdate : ReadsBack putUpdate getUpdate := by
  intro u p r
  have hid : slice? (p ++ (putUpdate u ++ r)) p.length 2 = some (le16 u.id) := by
    rw [putUpdate, List.append_assoc]
    exact slice?_append rfl (length_le16 _).symm
  have hstate : (p ++ (putUpdate u ++ r))[p.length + 2]? = some (stateU8 u.state) := by
    rw [putUpdate, List.append_assoc, ← List.append_assoc p]
    exact getElem?_append_cons (by simp)
  have hinc : slice? (p ++ (putUpdate u ++ r)) (p.length + 3) 4 = some (le32 u.inc) := by
    have hbuf : p ++ (putUpdate u ++ r) =
        (p ++ (le16 u.id ++ [stateU8 u.state])) ++ (le32 u.inc ++ (putAddr u.addr ++ r)) := by
      simp [putUpdate]
    rw [hbuf]
    exact slice?_append (by simp) (length_le32 _).symm
  have haddr := readsBack_putAddr u.addr
    (p ++ (le16 u.id ++ (stateU8 u.state :: le32 u.inc))) r
  have hbuf : (p ++ (le16 u.id ++ (stateU8 u.state :: le32 u.inc))) ++ (putAddr u.addr ++ r) =
      p ++ (putUpdate u ++ r) := by
    simp [putUpdate]
  have hoff : (p ++ (le16 u.id ++ (stateU8 u.state :: le32 u.inc))).length = p.length + 7 := by
    simp
  rw [hbuf, hoff] at haddr
  simp only [getUpdate, hid, hstate, hinc, haddr, Option.bind_eq_bind, Option.bind_some,
    u8State_stateU8, ofLe16_le16, ofLe32_le32]
  simp only [putUpdate, List.length_append, List.length_cons, length_le16, length_le32]
  congr 2
  omega

theorem readsBack_putEntry : ReadsBack putEntry getEntry := by
  intro e p r
  have hid : slice? (p ++ (putEntry e ++ r)) p.length 2 = some (le16 e.1) := by
    rw [putEntry, List.append_assoc]
    exact slice?_append rfl (length_le16 _).symm
  have hinc : slice? (p ++ (putEntry e ++ r)) (p.length + 2) 4 = some (le32 e.2) := by
    rw [putEntry, List.append_assoc, ← List.append_assoc p]
    exact slice?_append (by simp) (length_le32 _).symm
  simp only [getEntry, hid, hinc, Option.bind_eq_bind, Option.bind_some, ofLe16_le16, ofLe32_le32]
  simp [putEntry]

theorem inRange_getAddr : InRange getAddr := by
  intro buf off a off' h
  simp only [getAddr, Option.bind_eq_bind, Option.bind_eq_some_iff, Prod.exists] at h
  obtain ⟨fam, -, ip, off₁, -, port, hport, heq⟩ := h
  cases heq
  exact le_of_slice? hport

theorem inRange_getUpdate : InRange getUpdate := by
  intro buf off u off' h
  simp only [getUpdate, Option.bind_eq_bind, Option.bind_eq_some_iff, Prod.exists] at h
  obtain ⟨id, -, b, -, state, -, inc, -, addr, off₁, haddr, heq⟩ := h
  cases heq
  exact inRange_getAddr _ _ _ _ haddr

theorem inRange_getEntry : InRange getEntry := by
  intro buf off e off' h
  simp only [getEntry, Option.bind_eq_bind, Option.bind_eq_some_iff] at h
  obtain ⟨id, -, inc, hinc, heq⟩ := h
  cases heq
  have hle := le_of_slice? hinc
  omega

namespace MembershipMsg

/-- The receiver sees as many entries as the 16-bit count says, and no tail. -/
theorem decode_encode_append (msg : MembershipMsg) (t : Bytes) :
    decode (msg.encode ++ t) = some (msg.take (msg.count % 65536)) := by
  cases msg with
  | sync reply us =>
    obtain ⟨off, h⟩ := getCounted_putCounted readsBack_putUpdate us
      [1, if reply then 1 else 0] t
    have hupdates : getUpdates ((sync reply us).encode ++ t) 2 =
      some (us.take (us.length % 65536), off) := h
    have hreply : ((sync reply us).encode ++ t)[1]? = some (if reply then 1 else 0) := rfl
    have hsub : ((sync reply us).encode ++ t)[0]? = some 1 := rfl
    simp only [decode, hsub, hreply, hupdates, Option.bind_eq_bind, Option.bind_some, if_true]
    cases reply <;> rfl
  | gossip us =>
    obtain ⟨off, h⟩ := getCounted_putCounted readsBack_putUpdate us [2] t
    have hupdates : getUpdates ((gossip us).encode ++ t) 1 =
      some (us.take (us.length % 65536), off) := h
    have hsub : ((gossip us).encode ++ t)[0]? = some 2 := rfl
    simp only [decode, hsub, hupdates, Option.bind_eq_bind, Option.bind_some]
    rfl
  | digest es =>
    obtain ⟨off, h⟩ := getCounted_putCounted readsBack_putEntry es [3] t
    have hentries : getCounted getEntry ((digest es).encode ++ t) 1 =
      some (es.take (es.length % 65536), off) := h
    have hsub : ((digest es).encode ++ t)[0]? = some 3 := rfl
    simp only [decode, hsub, hentries, Option.bind_eq_bind, Option.bind_some]
    rfl

theorem decode_encode_take (msg : MembershipMsg) :
    decode msg.encode = some (msg.take (msg.count % 65536)) := by
  rw [← msg.decode_encode_append [], List.append_nil]

theorem take_count (msg : MembershipMsg) : msg.take msg.count = msg := by
  cases msg <;> simp [take, count]

theorem decode_encode {msg : MembershipMsg} (h : msg.count < 65536) :
    decode msg.encode = some msg := by
  rw [decode_encode_take, Nat.mod_eq_of_lt h, take_count]

/-- The state of a table that knows every node id is read as an empty one. -/
theorem decode_encode_sync_full {us : List Update} (reply : Bool) (h : us.length = 65536) :
    decode (sync reply us).encode = some (sync reply []) := by
  rw [decode_encode_take]
  simp [take, count, h]

end MembershipMsg

/-! ## Answering a message -/

namespace Membership

/-- Updates merged in one call, the `i`-th of them at time `clock i`. -/
def stamped (clock : ℕ → Instant) (updates : List Update) : List (Update × Instant) :=
  updates.zipIdx.map fun e => (e.1, clock e.2)

/-- The `peer` map of `apply`: a later entry replaces an earlier one. -/
def peerIncs (entries : List (NodeId × UInt32)) : AList fun _ : NodeId => UInt32 :=
  entries.foldl (fun m e => m.insert e.1 e.2) ∅

/-- The `newer` of `apply`: what a digest shows as missing or stale. -/
def newer (m : Membership) (entries : List (NodeId × UInt32)) : List Update :=
  m.fullState.filter fun u =>
    match (peerIncs entries).lookup u.id with
    | some pi => u.inc > pi
    | none => true

/-- `apply` (lines 154–198): the table and the response. -/
def apply (m : Membership) (msg : MembershipMsg) (retransmit : ℕ) (clock : ℕ → Instant) :
    Membership × Option MembershipMsg :=
  match msg with
  | .sync reply updates =>
    let m := m.mergeAll retransmit (stamped clock updates)
    (m, if reply then some (.sync false m.fullState) else none)
  | .gossip updates => (m.mergeAll retransmit (stamped clock updates), none)
  | .digest entries =>
    let newer := m.newer entries
    (m, if newer.isEmpty then none else some (.gossip newer))

/-- `build_digest` (lines 201–208). -/
def buildDigest (m : Membership) : MembershipMsg :=
  .digest (m.fullState.map fun u => (u.id, u.inc))

variable {m : Membership} {msg : MembershipMsg} {retransmit : ℕ} {clock : ℕ → Instant} {id : NodeId}

theorem received_stamped (updates : List Update) :
    received (stamped clock updates) = updates.toFinset := by
  have hfst : (stamped clock updates).map Prod.fst = updates := by
    rw [stamped, List.map_map]
    exact List.zipIdx_map_fst ..
  rw [received, hfst]

theorem apply_fst : (m.apply msg retransmit clock).1 =
    m.mergeAll retransmit (stamped clock msg.updates) := by
  cases msg <;> rfl

theorem selfId_mergeAll (us : List (Update × Instant)) :
    (m.mergeAll retransmit us).selfId = m.selfId := by
  refine run_invariant (I := fun m' : Membership => m'.selfId = m.selfId) ?_ rfl
  intro m' e hself
  exact (m'.selfId_merge ..).trans hself

@[simp] theorem selfId_apply : (m.apply msg retransmit clock).1.selfId = m.selfId := by
  rw [apply_fst, selfId_mergeAll]

theorem standing_apply (id : NodeId) : (m.apply msg retransmit clock).1.standing id =
    m.standing id ⊔ (msg.updates.toFinset.filter fun u => u.id = id ∧ id ≠ m.selfId).sup
      fun u => (u.standing : WithBot Standing) := by
  rw [apply_fst, standing_mergeAll, received_stamped]

theorem standing_le_apply : m.standing id ≤ (m.apply msg retransmit clock).1.standing id := by
  rw [standing_apply]
  exact le_sup_left

theorem update_standing_le_apply {u : Update} (hu : u ∈ msg.updates) (hself : u.id ≠ m.selfId) :
    u.standing ≤ (m.apply msg retransmit clock).1.standing u.id := by
  rw [standing_apply]
  refine le_trans ?_ le_sup_right
  refine Finset.le_sup (f := fun u : Update => (u.standing : WithBot Standing)) ?_
  exact Finset.mem_filter.mpr ⟨List.mem_toFinset.mpr hu, rfl, hself⟩

/-- A standing is kept or taken from an update of the message. -/
theorem standing_apply_cases (id : NodeId) :
    (m.apply msg retransmit clock).1.standing id = m.standing id ∨
      id ≠ m.selfId ∧ ∃ u ∈ msg.updates, u.id = id ∧
        (m.apply msg retransmit clock).1.standing id = u.standing := by
  rw [standing_apply]
  set us := msg.updates.toFinset.filter fun u => u.id = id ∧ id ≠ m.selfId with hus
  rcases us.eq_empty_or_nonempty with hempty | hne
  · left
    rw [hempty, Finset.sup_empty, sup_bot_eq]
  · obtain ⟨u, hu, hsup⟩ := Finset.exists_mem_eq_sup us hne
      fun u => (u.standing : WithBot Standing)
    rw [hsup]
    rw [hus, Finset.mem_filter, List.mem_toFinset] at hu
    rcases le_total (m.standing id) u.standing with hle | hle
    · exact .inr ⟨hu.2.2, u, hu.1, hu.2.1, sup_eq_right.mpr hle⟩
    · exact .inl (sup_eq_left.mpr hle)

theorem selfInc_apply
    (hinc : ∀ u ∈ msg.updates, u.state ≠ .alive → u.inc.toNat < 2 ^ 32 - 1) :
    (m.apply msg retransmit clock).1.selfInc.toNat = m.selfInc.toNat ⊔
      (msg.updates.toFinset.filter fun u => u.id = m.selfId ∧ u.state ≠ .alive).sup
        fun u => u.inc.toNat + 1 := by
  have hstamped : ∀ e ∈ stamped clock msg.updates,
      e.1.state ≠ .alive → e.1.inc.toNat < 2 ^ 32 - 1 := by
    intro e he
    obtain ⟨⟨u, i⟩, hu, rfl⟩ := List.mem_map.mp he
    exact hinc u (List.fst_mem_of_mem_zipIdx hu)
  rw [apply_fst, selfInc_mergeAll hstamped, received_stamped]

/-- What a response carries is what the node then holds. -/
theorem mem_fullState_of_response {resp : MembershipMsg} {u : Update}
    (h : (m.apply msg retransmit clock).2 = some resp) (hu : u ∈ resp.updates) :
    u ∈ (m.apply msg retransmit clock).1.fullState := by
  cases msg with
  | sync reply us =>
    cases reply with
    | false => cases h
    | true => cases h; exact hu
  | gossip us => cases h
  | digest es =>
    unfold apply at h
    dsimp only at h
    split_ifs at h
    cases h
    exact (List.mem_filter.mp hu).1

/-! ## Digests -/

theorem mem_newer {u : Update} {entries : List (NodeId × UInt32)} :
    u ∈ m.newer entries ↔
      u ∈ m.fullState ∧ ∀ pi, (peerIncs entries).lookup u.id = some pi → pi < u.inc := by
  rw [newer, List.mem_filter]
  refine and_congr_right fun _ => ?_
  cases (peerIncs entries).lookup u.id with
  | none => simp
  | some pi => simp

theorem apply_digest_snd {u : Update} {entries : List (NodeId × UInt32)} (h : u ∈ m.newer entries) :
    (m.apply (.digest entries) retransmit clock).2 = some (.gossip (m.newer entries)) := by
  have hne : (m.newer entries).isEmpty ≠ true := by
    rw [ne_eq, List.isEmpty_iff]
    exact List.ne_nil_of_mem h
  unfold apply
  dsimp only
  rw [if_neg hne]

theorem lookup_peerIncs_fullState (hself : m.selfId ∉ m.members) (hid : id ≠ m.selfId) :
    (peerIncs (m.fullState.map fun u => (u.id, u.inc))).lookup id =
      (m.members.lookup id).map Member.inc := by
  have hkeys : (m.fullState.map fun u => (u.id, u.inc)).map Prod.fst =
      m.members.keys ++ [m.selfId] := by
    simp [fullState, AList.keys, List.keys, selfUpdate]
  have hnd : ((m.fullState.map fun u => (u.id, u.inc)).map Prod.fst).Nodup := by
    rw [hkeys, List.nodup_append]
    refine ⟨m.members.keys_nodup, List.nodup_singleton _, ?_⟩
    intro a ha b hb hab
    rw [List.mem_singleton] at hb
    exact hself (AList.mem_keys.mpr (by rwa [← hb, ← hab]))
  cases hmb : m.members.lookup id with
  | none =>
    refine lookup_foldl_insert_of_notMem ?_ ∅
    rw [hkeys, List.mem_append, List.mem_singleton, not_or]
    exact ⟨fun h => AList.lookup_eq_none.mp hmb (AList.mem_keys.mp h), hid⟩
  | some mb =>
    refine lookup_foldl_insert_of_mem hnd ?_ ∅
    exact List.mem_map.mpr ⟨⟨id, mb.addr, mb.state, mb.inc⟩,
      mem_fullState.mpr (.inl ⟨mb, hmb, rfl⟩), rfl⟩

/-- What a peer learns from a digest about a member. -/
theorem lookup_peerIncs_iff {i : UInt32} (hself : m.standing m.selfId = ⊥) (hid : id ≠ m.selfId) :
    (peerIncs (m.fullState.map fun u => (u.id, u.inc))).lookup id = some i ↔
      ∃ st, m.standing id = (⟨i, st⟩ : Standing) := by
  have hnotMem : m.selfId ∉ m.members := fun h => (mem_members_iff _).mp h hself
  rw [lookup_peerIncs_fullState hnotMem hid, standing]
  cases m.members.lookup id with
  | none => simp
  | some mb =>
    rw [Option.map_some, Option.some_inj]
    constructor
    · rintro rfl
      exact ⟨mb.state, rfl⟩
    · rintro ⟨st, h⟩
      exact congrArg Standing.inc (WithBot.coe_inj.mp h)

end Membership

end BeamSocket.Mesh
