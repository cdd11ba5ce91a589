import BeamSocket.Core.Ids
import BeamSocket.Mesh.Link

/-!
# Relay bodies

Model of the wire helpers of `crates/core/src/cluster.rs` (lines 312–358): the
body that `relay_room`, `relay_user`, `relay_all` and `relay_socket` assemble,
and the part of `deliver_local` that takes it apart again. A name stands behind
a 16-bit length and the except list behind a 16-bit count, both written by a
truncating cast; the payload is what is left.

* `getExcepts_putExcepts`: of `n` entries the decoder returns the first
  `n % 65536`, and stops behind them.
* `decodeRelay_body_iff`: a relayed message is recovered exactly when its name
  and its except list fit their prefixes.
* `decodeRelay_excepts_as_payload`: 65536 excepts arrive as payload.
-/

namespace BeamSocket.Core

open BeamSocket.Lib BeamSocket.Mesh

/-! ## The wire helpers -/

/-- `put_str` (lines 312–315). -/
def putStr (s : String) : Bytes := toLe 2 (asBytes s).length ++ asBytes s

/-- `get_str` (lines 317–323), with the new offset. -/
def getStr (buf : Bytes) (off : ℕ) : Option (String × ℕ) := do
  let len2 ← slice? buf off 2
  let bytes ← slice? buf (off + 2) (fromLe len2)
  let s ← fromUtf8 bytes
  some (s, off + 2 + fromLe len2)

/-- One entry of `put_excepts`. -/
def putExcept (e : NodeConnId) : Bytes := le16 e.node ++ le64 e.conn

/-- `put_excepts` (lines 325–331). -/
def putExcepts (excepts : List NodeConnId) : Bytes :=
  toLe 2 excepts.length ++ excepts.flatMap putExcept

/-- The loop of `get_excepts`, `n` entries from `off` on. -/
def getExceptsLoop (buf : Bytes) : (n off : ℕ) → Option (List NodeConnId × ℕ)
  | 0, off => some ([], off)
  | n + 1, off => do
    let node ← slice? buf off 2
    let conn ← slice? buf (off + 2) 8
    let (v, off) ← getExceptsLoop buf n (off + 10)
    some (⟨ofLe16 node, ofLe64 conn⟩ :: v, off)

/-- `get_excepts` (lines 333–348), with the new offset. -/
def getExcepts (buf : Bytes) (off : ℕ) : Option (List NodeConnId × ℕ) := do
  let len2 ← slice? buf off 2
  getExceptsLoop buf (fromLe len2) (off + 2)

/-- `excepts_for` (lines 352–358). -/
def exceptsFor (selfNode : NodeId) (excepts : List NodeConnId) : List ConnectionId :=
  (excepts.filter fun e => e.node == selfNode).map NodeConnId.conn

/-! ## Messages -/

/-- What a relay frame carries. -/
inductive RelayMsg
  | room (name : RoomId) (excepts : List NodeConnId) (payload : Bytes)
  | user (name : UserId) (excepts : List NodeConnId) (payload : Bytes)
  | all (excepts : List NodeConnId) (payload : Bytes)
  | socket (id : ConnectionId) (payload : Bytes)
  deriving DecidableEq

namespace RelayMsg

/-- The `RelayKind` that `relay_room`, `relay_user`, `relay_all` and `relay_socket` pass on. -/
def kind : RelayMsg → RelayKind
  | room .. => .room
  | user .. => .user
  | all .. => .all
  | socket .. => .socket

/-- The `meta` prefix of `relay_room`, `relay_user`, `relay_all` and
    `relay_socket` (lines 153–201). -/
def metadata : RelayMsg → Bytes
  | room name excepts _ => putStr name ++ putExcepts excepts
  | user name excepts _ => putStr name ++ putExcepts excepts
  | all excepts _ => putExcepts excepts
  | socket id _ => le64 id

/-- The `payload` argument of `relay_room`, `relay_user`, `relay_all` and `relay_socket`. -/
def payload : RelayMsg → Bytes
  | room _ _ p => p
  | user _ _ p => p
  | all _ p => p
  | socket _ p => p

/-- The body `MeshNode::relay` puts behind the frame header. -/
def body (msg : RelayMsg) : Bytes := msg.metadata ++ msg.payload

/-- Name and except list fit their 16-bit prefixes. -/
def Fits : RelayMsg → Prop
  | room name excepts _ => (asBytes name).length < 65536 ∧ excepts.length < 65536
  | user name excepts _ => (asBytes name).length < 65536 ∧ excepts.length < 65536
  | all excepts _ => excepts.length < 65536
  | socket .. => True

end RelayMsg

/-- The name, except list and payload of a room or user body. -/
def decodeNamed (body : Bytes) : Option (String × List NodeConnId × Bytes) := do
  let (name, off) ← getStr body 0
  let (excepts, off) ← getExcepts body off
  some (name, excepts, body.drop off)

/-- The parsing half of `deliver_local` (lines 234–307); `none` is an early
    `return`. -/
def decodeRelay (kind : RelayKind) (body : Bytes) : Option RelayMsg :=
  match kind with
  | .room => (decodeNamed body).map fun (name, excepts, payload) => .room name excepts payload
  | .user => (decodeNamed body).map fun (name, excepts, payload) => .user name excepts payload
  | .all => (getExcepts body 0).map fun (excepts, off) => .all excepts (body.drop off)
  | .socket =>
    if body.length < 8 then none
    else some (.socket (ofLe64 (slice body 0 8)) (body.drop 8))

/-! ## Reading back -/

@[simp] theorem length_putExcept (e : NodeConnId) : (putExcept e).length = 10 := by
  simp [putExcept]

theorem length_flatMap_putExcept (es : List NodeConnId) :
    (es.flatMap putExcept).length = 10 * es.length := by
  induction es with
  | nil => rfl
  | cons e es ih =>
    rw [List.flatMap_cons, List.length_append, ih, length_putExcept, List.length_cons]
    omega

/-- A name whose length fits its prefix is read back at the offset it was
    written at. -/
theorem getStr_putStr {s : String} (hs : (asBytes s).length < 65536) (p r : Bytes) :
    getStr (p ++ (putStr s ++ r)) p.length = some (s, p.length + (putStr s).length) :=
  readsBackIff_putText.read s hs p r

/-- Whatever `get_str` reads has the length its prefix says. -/
theorem length_of_getStr {s : String} {p r : Bytes} {n off : ℕ}
    (h : getStr (p ++ (toLe 2 n ++ r)) p.length = some (s, off)) :
    (asBytes s).length = n % 65536 :=
  length_of_getText h

theorem getExceptsLoop_flatMap (es : List NodeConnId) (p r : Bytes) :
    getExceptsLoop (p ++ (es.flatMap putExcept ++ r)) es.length p.length =
      some (es, p.length + 10 * es.length) := by
  induction es generalizing p with
  | nil => rfl
  | cons e es ih =>
    have hbuf : p ++ ((e :: es).flatMap putExcept ++ r) =
        (p ++ putExcept e) ++ (es.flatMap putExcept ++ r) := by simp
    have hnode : slice? (p ++ ((e :: es).flatMap putExcept ++ r)) p.length 2 =
        some (le16 e.node) := by
      rw [List.flatMap_cons, putExcept, List.append_assoc, List.append_assoc]
      exact slice?_append rfl (length_le16 _).symm
    have hconn : slice? (p ++ ((e :: es).flatMap putExcept ++ r)) (p.length + 2) 8 =
        some (le64 e.conn) := by
      rw [List.flatMap_cons, putExcept, List.append_assoc, List.append_assoc,
        ← List.append_assoc p]
      exact slice?_append (by simp) (length_le64 _).symm
    have hrest := ih (p ++ putExcept e)
    rw [← hbuf, List.length_append, length_putExcept] at hrest
    simp only [List.length_cons, getExceptsLoop, hnode, hconn, hrest, Option.bind_eq_bind,
      Option.bind_some, ofLe16_le16, ofLe64_le64]
    rw [Nat.mul_succ, Nat.add_assoc, Nat.add_comm 10]

/-- Of the entries written, as many are read as their count says modulo
    65536. -/
theorem getExcepts_putExcepts (es : List NodeConnId) (p r : Bytes) :
    getExcepts (p ++ (putExcepts es ++ r)) p.length =
      some (es.take (es.length % 65536), p.length + 2 + 10 * (es.length % 65536)) := by
  have hlen : slice? (p ++ (putExcepts es ++ r)) p.length 2 = some (toLe 2 es.length) := by
    rw [putExcepts, List.append_assoc]
    exact slice?_append rfl (length_toLe ..).symm
  have hbuf : p ++ (putExcepts es ++ r) =
      (p ++ toLe 2 es.length) ++ ((es.take (es.length % 65536)).flatMap putExcept ++
        ((es.drop (es.length % 65536)).flatMap putExcept ++ r)) := by
    have hes := List.take_append_drop (es.length % 65536) es
    simp only [putExcepts, List.append_assoc]
    rw [← List.append_assoc (List.flatMap _ _), ← List.flatMap_append, hes]
  have htake : (es.take (es.length % 65536)).length = es.length % 65536 := by
    rw [List.length_take]
    exact min_eq_left (Nat.mod_le ..)
  have hloop := getExceptsLoop_flatMap (es.take (es.length % 65536)) (p ++ toLe 2 es.length)
    ((es.drop (es.length % 65536)).flatMap putExcept ++ r)
  rw [← hbuf, htake, List.length_append, length_toLe] at hloop
  rw [getExcepts, hlen, Option.bind_eq_bind, Option.bind_some, fromLe_toLe]
  exact hloop

/-- What stands behind the first `k` entries. -/
theorem drop_putExcepts {es : List NodeConnId} {k : ℕ} (hk : k ≤ es.length) (p r : Bytes) :
    (p ++ (putExcepts es ++ r)).drop (p.length + 2 + 10 * k) =
      (es.drop k).flatMap putExcept ++ r := by
  have hbuf : p ++ (putExcepts es ++ r) = (p ++ (toLe 2 es.length ++ (es.take k).flatMap putExcept))
      ++ ((es.drop k).flatMap putExcept ++ r) := by
    have hes := List.take_append_drop k es
    simp only [putExcepts, List.append_assoc]
    rw [← List.append_assoc (List.flatMap _ _), ← List.flatMap_append, hes]
  rw [hbuf]
  apply List.drop_left'
  rw [List.length_append, List.length_append, length_toLe, length_flatMap_putExcept,
    List.length_take, min_eq_left hk]
  omega

/-- What the receiver makes of an except list: the part its count covers, and
    the rest in front of the payload. -/
def exceptsRead (es : List NodeConnId) (payload : Bytes) : List NodeConnId × Bytes :=
  (es.take (es.length % 65536), (es.drop (es.length % 65536)).flatMap putExcept ++ payload)

theorem exceptsRead_eq_iff (es : List NodeConnId) (payload : Bytes) :
    exceptsRead es payload = (es, payload) ↔ es.length < 65536 := by
  constructor
  · intro h
    have htake : es.take (es.length % 65536) = es := congrArg Prod.fst h
    have hle : es.length ≤ es.length % 65536 := (List.take_eq_self_iff _).mp htake
    have hlt : es.length % 65536 < 65536 := Nat.mod_lt _ (by decide)
    omega
  · intro h
    rw [exceptsRead, Nat.mod_eq_of_lt h, List.take_length, List.drop_length]
    rfl

theorem getExcepts_exceptsRead (es : List NodeConnId) (p payload : Bytes) :
    (getExcepts (p ++ (putExcepts es ++ payload)) p.length).map
      (fun x => (x.1, (p ++ (putExcepts es ++ payload)).drop x.2)) =
      some (exceptsRead es payload) := by
  rw [getExcepts_putExcepts, Option.map_some, drop_putExcepts (Nat.mod_le ..)]
  rfl

theorem decodeNamed_eq {name : String} (hname : (asBytes name).length < 65536)
    (es : List NodeConnId) (payload : Bytes) :
    decodeNamed (putStr name ++ putExcepts es ++ payload) =
      some (name, exceptsRead es payload) := by
  have hstr := getStr_putStr hname [] (putExcepts es ++ payload)
  have hes := getExcepts_exceptsRead es (putStr name) payload
  rw [List.nil_append, List.length_nil, Nat.zero_add, ← List.append_assoc] at hstr
  rw [← List.append_assoc] at hes
  obtain ⟨⟨es', off⟩, hget, hread⟩ := Option.map_eq_some_iff.mp hes
  rw [decodeNamed, hstr, Option.bind_eq_bind, Option.bind_some]
  dsimp only
  rw [hget, Option.bind_eq_bind, Option.bind_some, ← hread]

theorem name_fits_of_decodeNamed {name : String} {rest : Bytes} {x : List NodeConnId × Bytes}
    (h : decodeNamed (putStr name ++ rest) = some (name, x)) : (asBytes name).length < 65536 := by
  obtain ⟨⟨name', off⟩, hstr, h'⟩ := Option.bind_eq_some_iff.mp h
  obtain ⟨_, _, h'⟩ := Option.bind_eq_some_iff.mp h'
  obtain ⟨rfl, -⟩ := Prod.mk.inj (Option.some.inj h')
  have hbuf : putStr name' ++ rest =
      [] ++ (toLe 2 (asBytes name').length ++ (asBytes name' ++ rest)) := by
    rw [putStr, List.append_assoc, List.nil_append]
  rw [hbuf] at hstr
  rw [length_of_getStr hstr]
  exact Nat.mod_lt _ (by decide)

namespace RelayMsg

/-- The name, if there is one, fits its prefix. -/
def NameFits : RelayMsg → Prop
  | room name _ _ => (asBytes name).length < 65536
  | user name _ _ => (asBytes name).length < 65536
  | all .. => True
  | socket .. => True

/-- What the receiver makes of a message whose name fits. -/
def arrived : RelayMsg → RelayMsg
  | room name es payload => room name (exceptsRead es payload).1 (exceptsRead es payload).2
  | user name es payload => user name (exceptsRead es payload).1 (exceptsRead es payload).2
  | all es payload => all (exceptsRead es payload).1 (exceptsRead es payload).2
  | socket id payload => socket id payload

theorem fits_iff (msg : RelayMsg) : msg.Fits ↔ msg.NameFits ∧ msg.arrived = msg := by
  cases msg with
  | room name es payload =>
    rw [Fits, NameFits, arrived, ← exceptsRead_eq_iff es payload, Prod.ext_iff]
    simp
  | user name es payload =>
    rw [Fits, NameFits, arrived, ← exceptsRead_eq_iff es payload, Prod.ext_iff]
    simp
  | all es payload =>
    rw [Fits, NameFits, arrived, ← exceptsRead_eq_iff es payload, Prod.ext_iff]
    simp
  | socket id payload => exact ⟨fun _ => ⟨trivial, rfl⟩, fun _ => trivial⟩

theorem decodeRelay_body {msg : RelayMsg} (h : msg.NameFits) :
    decodeRelay msg.kind msg.body = some msg.arrived := by
  cases msg with
  | room name es payload =>
    show (decodeNamed (putStr name ++ putExcepts es ++ payload)).map _ = _
    rw [decodeNamed_eq h]
    rfl
  | user name es payload =>
    show (decodeNamed (putStr name ++ putExcepts es ++ payload)).map _ = _
    rw [decodeNamed_eq h]
    rfl
  | all es payload =>
    obtain ⟨⟨es', off⟩, hget, hread⟩ :=
      Option.map_eq_some_iff.mp (getExcepts_exceptsRead es [] payload)
    have hget' : getExcepts (all es payload).body 0 = some (es', off) := hget
    show (getExcepts (all es payload).body 0).map _ = _
    rw [hget', Option.map_some, arrived, ← hread]
    rfl
  | socket id payload =>
    have hlen : ¬ (le64 id ++ payload).length < 8 := by simp
    have hid : slice (le64 id ++ payload) 0 8 = le64 id := slice_zero_append (length_le64 id).symm
    have hrest : (le64 id ++ payload).drop 8 = payload := List.drop_left' (length_le64 id)
    show (if (le64 id ++ payload).length < 8 then none
      else some (socket (ofLe64 (slice (le64 id ++ payload) 0 8))
        ((le64 id ++ payload).drop 8))) = _
    rw [if_neg hlen, hid, ofLe64_le64, hrest]
    rfl

theorem nameFits_of_decodeRelay {msg : RelayMsg} (h : decodeRelay msg.kind msg.body = some msg) :
    msg.NameFits := by
  cases msg with
  | room name es payload =>
    obtain ⟨⟨name', x⟩, hdec, heq⟩ := Option.map_eq_some_iff.mp h
    obtain ⟨rfl, -⟩ := RelayMsg.room.inj heq
    exact name_fits_of_decodeNamed (by rw [← List.append_assoc]; exact hdec)
  | user name es payload =>
    obtain ⟨⟨name', x⟩, hdec, heq⟩ := Option.map_eq_some_iff.mp h
    obtain ⟨rfl, -⟩ := RelayMsg.user.inj heq
    exact name_fits_of_decodeNamed (by rw [← List.append_assoc]; exact hdec)
  | all es payload => trivial
  | socket id payload => trivial

end RelayMsg

/-- `deliver_local` recovers a relayed message from its body exactly when its
    name has fewer than 65536 bytes and its except list fewer than 65536
    entries. -/
theorem decodeRelay_body_iff (msg : RelayMsg) :
    decodeRelay msg.kind msg.body = some msg ↔ msg.Fits := by
  rw [msg.fits_iff]
  constructor
  · intro h
    have hname := RelayMsg.nameFits_of_decodeRelay h
    rw [RelayMsg.decodeRelay_body hname] at h
    exact ⟨hname, Option.some.inj h⟩
  · rintro ⟨hname, harr⟩
    rw [RelayMsg.decodeRelay_body hname, harr]

/-- 65536 excepts are announced as none, and their bytes are delivered to every
    member of the room in front of the payload. -/
theorem decodeRelay_excepts_as_payload :
    let excepts := List.replicate 65536 (NodeConnId.mk 1 0)
    decodeRelay .room (RelayMsg.room "lobby" excepts [1, 2, 3]).body =
      some (.room "lobby" [] (excepts.flatMap putExcept ++ [1, 2, 3])) ∧
    (excepts.flatMap putExcept).length = 655360 := by
  intro excepts
  have hlen : excepts.length = 65536 := List.length_replicate
  refine ⟨?_, by rw [length_flatMap_putExcept, hlen]⟩
  have hname : (RelayMsg.room "lobby" excepts [1, 2, 3]).NameFits := by
    show (asBytes "lobby").length < 65536
    decide +kernel
  have hdec := RelayMsg.decodeRelay_body hname
  rw [RelayMsg.arrived, exceptsRead, hlen] at hdec
  exact hdec

end BeamSocket.Core
