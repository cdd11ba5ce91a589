import BeamSocket.Core.Ids
import BeamSocket.Core.Mailbox

/-!
# The connection registry and the user index

Model of `crates/core/src/connection/registry.rs` and of `IdentityRegistry`
(`crates/core/src/identity.rs`, lines 44–101), over any type `κ` of connection
ids: the engine uses them at `ConnectionId`, and one registry for a whole
cluster is one at `NodeConnId`. The registry is a map from ids to entries; which
id `insert` hands out is the business of the sharded slab and is an argument
here. A handle is shared by reference, so a push to a handle taken out of the
registry is a push to the entry's mailbox.

* `Registry.lookup_push`: pushing touches one mailbox.
* `IdentityRegistry.devices_bind`, `devices_unbind`: the devices of every user
  afterwards.
-/

namespace BeamSocket.Core

open BeamSocket.Lib

/-- `struct Entry` (lines 37–47); the generation is part of the id. -/
structure Entry where
  handle : ConnHandle
  rooms : OrdSet RoomId
  user : Option UserId
  deriving DecidableEq

/-- The entry with a frame pushed to its mailbox. -/
def Entry.push (e : Entry) (frame : OutboundFrame) : Entry :=
  { e with handle := (e.handle.push frame).1 }

/-- `struct Registry` (lines 49–52). -/
abbrev Registry (κ : Type*) := AList fun _ : κ => Entry

namespace Registry

variable {κ : Type*} [DecidableEq κ] (conns : Registry κ) (id : κ)

/-- `Registry::get`. -/
def get : Option ConnHandle := (conns.lookup id).map Entry.handle

/-- `Registry::insert` (lines 76–98) under the id the slab hands out. -/
def register (handle : ConnHandle) (user : Option UserId) : Registry κ :=
  conns.insert id { handle, rooms := ∅, user }

/-- `Registry::remove_full` (lines 113–121). -/
def removeFull : Option (ConnHandle × OrdSet RoomId) × Registry κ :=
  ((conns.lookup id).map fun e => (e.handle, e.rooms), conns.erase id)

/-- The room set that `with_rooms` hands to its closure. -/
def roomsOf : Option (OrdSet RoomId) := (conns.lookup id).map Entry.rooms

/-- The registry after the closure of `with_rooms` has changed the set. -/
def setRooms (rooms : OrdSet RoomId) : Registry κ :=
  match conns.lookup id with
  | none => conns
  | some e => conns.insert id { e with rooms }

/-- `ConnHandle::push` on the handle of `id`. -/
def push (frame : OutboundFrame) : Registry κ × PushOutcome :=
  match conns.lookup id with
  | none => (conns, .closed)
  | some e => (conns.insert id (e.push frame), (e.handle.push frame).2)

/-- `ConnHandle::initiate_close` on the handle of `id`. -/
def initiateClose (code : UInt16) (reason : String) (graceful : Bool) : Registry κ :=
  match conns.lookup id with
  | none => conns
  | some e => conns.insert id { e with handle := e.handle.initiateClose code reason graceful }

/-- `Registry::handles` (lines 164–177), without the handles themselves. -/
def ids : List κ := conns.keys

theorem lookup_push (id' : κ) (frame : OutboundFrame) : (conns.push id frame).1.lookup id' =
    (conns.lookup id').map fun e => if id' = id then e.push frame else e := by
  unfold push
  cases hid : conns.lookup id with
  | none =>
    by_cases h : id' = id
    · rw [h, hid]; rfl
    · simp [h]
  | some e =>
    dsimp only
    rw [lookup_insert]
    split_ifs with h
    · rw [h, hid]; rfl
    · simp

end Registry

/-! ## Users -/

/-- `struct IdentityRegistry`. -/
abbrev IdentityRegistry (κ : Type*) [LinearOrder κ] := AList fun _ : UserId => OrdSet κ

namespace IdentityRegistry

variable {κ : Type*} [LinearOrder κ] (identity : IdentityRegistry κ)

/-- The devices of a user; none without an entry. -/
def devices (user : UserId) : OrdSet κ := (identity.lookup user).getD ∅

/-- `bind` (lines 58–60). -/
def bind (user : UserId) (id : κ) : IdentityRegistry κ :=
  identity.insert user ((identity.devices user).insert id)

/-- `unbind` (lines 64–74): an entry that becomes empty is removed. -/
def unbind (user : UserId) (id : κ) : IdentityRegistry κ :=
  match identity.lookup user with
  | none => identity
  | some set =>
    if set.erase id = ∅ then identity.erase user else identity.insert user (set.erase id)

/-- `connections` (lines 80–84). -/
def connections (user : UserId) : Option (List κ) := (identity.lookup user).map OrdSet.toList

/-- `device_count`. -/
def deviceCount (user : UserId) : ℕ := (identity.devices user).card

theorem devices_bind (user user' : UserId) (id : κ) : (identity.bind user id).devices user' =
    if user' = user then (identity.devices user).insert id else identity.devices user' := by
  rw [devices, bind, lookup_insert]
  split_ifs <;> rfl

theorem devices_unbind (user user' : UserId) (id : κ) : (identity.unbind user id).devices user' =
    if user' = user then (identity.devices user).erase id else identity.devices user' := by
  unfold unbind
  cases hset : identity.lookup user with
  | none =>
    dsimp only
    split_ifs with h
    · rw [h, devices, hset]; rfl
    · rfl
  | some set =>
    have hdev : identity.devices user = set := by rw [devices, hset]; rfl
    dsimp only
    split_ifs with hempty h h
    · rw [devices, lookup_erase, if_pos h, hdev, hempty]; rfl
    · rw [devices, lookup_erase, if_neg h]; rfl
    · rw [devices, lookup_insert, if_pos h, hdev]; rfl
    · rw [devices, lookup_insert, if_neg h]; rfl

end IdentityRegistry

end BeamSocket.Core
