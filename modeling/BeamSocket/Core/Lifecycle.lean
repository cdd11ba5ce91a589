import BeamSocket.Core.Admission
import BeamSocket.Core.Authorizer
import BeamSocket.Core.IssuedIds
import Mathlib.Algebra.BigOperators.Fin

/-!
# The life of a connection

Model of `setup_connection`, `setup_attached` and `run_admitted`
(`crates/core/src/engine.rs`, lines 1154–1175, 1188–1296 and 1313–1343): what any number
of connections, each at any point between its admission and the drop of its guard, do to
the admission table, the registry, the user index and the `connections` gauge. Every
locked operation and every update of the gauge is one step; `unbind` is two, since it
takes its lock a second time to remove a set that it has left empty
(`crates/core/src/identity.rs`, lines 64–74). The room index is the subject of
`Core.RoomTasks`, what `run_connection` does of `Core.Connection`.

* `Lifecycle.exact_run`: what is in each table, in terms of the connections at work.
* `Lifecycle.lifecycle_exact`: nothing is lost and nothing is left behind.
-/

namespace BeamSocket.Core

open BeamSocket.Lib

/-! ## Tables -/

namespace IdentityRegistry

variable {κ : Type*} [LinearOrder κ] (identity : IdentityRegistry κ) (user user' : UserId) (id : κ)

/-- `unbind` up to the drop of the entry guard (lines 65–68), and whether it left the set
    empty. -/
def strike : IdentityRegistry κ × Bool :=
  match identity.lookup user with
  | none => (identity, false)
  | some set => (identity.insert user (set.erase id), set.erase id = ∅)

/-- The `remove_if` of `unbind` (line 71). -/
def removeIfEmpty : IdentityRegistry κ :=
  if identity.lookup user = some ∅ then identity.erase user else identity

variable {identity user user' id}

theorem devices_strike : (identity.strike user id).1.devices user' =
    if user' = user then (identity.devices user).erase id else identity.devices user' := by
  unfold strike
  cases hset : identity.lookup user with
  | none =>
    split_ifs with h
    · rw [h, devices, hset]
      rfl
    · rfl
  | some set =>
    have hdevices : identity.devices user = set := by
      rw [devices, hset]
      rfl
    rw [devices, lookup_insert, hdevices]
    split_ifs <;> rfl

theorem lookup_removeIfEmpty : (identity.removeIfEmpty user).lookup user' =
    if user' = user ∧ identity.lookup user = some ∅ then none else identity.lookup user' := by
  unfold removeIfEmpty
  by_cases hempty : identity.lookup user = some ∅
  · rw [if_pos hempty, lookup_erase]
    simp [hempty]
  · rw [if_neg hempty, if_neg fun h => hempty h.2]

theorem devices_removeIfEmpty :
    (identity.removeIfEmpty user).devices user' = identity.devices user' := by
  rw [devices, lookup_removeIfEmpty]
  split_ifs with h
  · rw [h.1, devices, h.2]
    rfl
  · rfl

/-- An empty set that `strike` leaves is one that it has reported, or was there before. -/
theorem lookup_strike_eq_empty (h : (identity.strike user id).1.lookup user' = some ∅) :
    user' = user ∧ (identity.strike user id).2 = true ∨ identity.lookup user' = some ∅ := by
  unfold strike at h ⊢
  cases hset : identity.lookup user with
  | none =>
    rw [hset] at h
    exact .inr h
  | some set =>
    rw [hset] at h
    dsimp only at h ⊢
    rw [lookup_insert] at h
    split_ifs at h with huser
    · exact .inl ⟨huser, decide_eq_true (Option.some.inj h)⟩
    · exact .inr h

/-- The two halves of `unbind`, run one after the other. -/
theorem unbind_eq_strike : identity.unbind user id =
    if (identity.strike user id).2 then (identity.strike user id).1.removeIfEmpty user
    else (identity.strike user id).1 := by
  unfold unbind strike
  cases hset : identity.lookup user with
  | none => rfl
  | some set =>
    dsimp only
    by_cases hempty : set.erase id = ∅
    · rw [if_pos hempty, if_pos (decide_eq_true hempty), removeIfEmpty, lookup_insert, if_pos rfl,
        hempty, if_pos rfl]
      exact AList.ext (List.kerase_cons_eq (a := user) (s := ⟨user, ∅⟩) rfl).symm
    · rw [if_neg hempty, if_neg (by simpa using hempty)]

end IdentityRegistry

namespace ShardedRegistry

variable (r : ShardedRegistry) (id id' : ConnectionId)

/-- `Registry::len` (lines 152–157). -/
def len : ℕ := ∑ k, (r.shards k).slab.entries.length

/-- An operation on the handle of `id`, which is shared with the connection. -/
def onHandle (f : ConnHandle → ConnHandle) : ShardedRegistry :=
  match r.find id with
  | none => r
  | some e => r.setSlot id (some { e with handle := f e.handle })

variable {r id id'}

@[simp] theorem len_new : new.len = 0 := Finset.sum_const_zero

theorem len_setShard (k : Fin shardCount) (shard : Shard) :
    (r.setShard k shard).len + (r.shards k).slab.entries.length =
      r.len + shard.slab.entries.length := by
  have hrest : ∑ j ∈ Finset.univ.erase k, ((r.setShard k shard).shards j).slab.entries.length =
      ∑ j ∈ Finset.univ.erase k, (r.shards j).slab.entries.length := by
    refine Finset.sum_congr rfl fun j hj => ?_
    rw [setShard_of_ne (Finset.ne_of_mem_erase hj)]
  unfold len
  rw [← Finset.add_sum_erase _ _ (Finset.mem_univ k), hrest,
    ← Finset.add_sum_erase _ (fun j => (r.shards j).slab.entries.length) (Finset.mem_univ k),
    setShard_self]
  omega

/-- A slab after a slot was set, or cleared. -/
theorem length_slab_set (slab : Tasks Slot) (key : ℕ) (next : Option Slot) :
    (slab.set key next).entries.length + Tasks.weight (fun _ => true) (slab.lookup key) =
      slab.entries.length + Tasks.weight (fun _ => true) next := by
  have h := Tasks.count_set (fun _ => true) slab key next
  unfold Tasks.count at h
  rwa [List.countP_true] at h

theorem len_insert {k : Fin shardCount} {key : ℕ} (hvacant : (r.shards k).Vacant key)
    (handle : ConnHandle) (user : Option UserId) :
    (r.insert k key handle user).len = r.len + 1 := by
  have hshard := len_setShard (r := r) k
    { slab := (r.shards k).slab.insert key
        ⟨(r.shards k).nextGeneration key, { handle, rooms := ∅, user }⟩
      gens := (r.shards k).bump key }
  have hslab := length_slab_set (r.shards k).slab key
    (some ⟨(r.shards k).nextGeneration key, { handle, rooms := ∅, user }⟩)
  rw [AList.lookup_eq_none.mpr hvacant.1] at hslab
  simp only [Tasks.weight, Tasks.set, if_true, Nat.add_zero] at hslab
  show (r.setShard k _).len = _
  rw [hslab] at hshard
  omega

theorem len_setSlot (entry : Option Entry) {e : Entry} (hid : r.find id = some e) :
    (r.setSlot id entry).len + 1 = r.len + if entry.isSome then 1 else 0 := by
  obtain ⟨k, hk⟩ := exists_shardOf hid
  have hslot : ∃ slot, (r.shards k).slab.lookup id.key.toNat = some slot := by
    rw [find_of_shardOf hk] at hid
    obtain ⟨slot, hslot, -⟩ := Option.bind_eq_some_iff.mp hid
    exact ⟨slot, hslot⟩
  obtain ⟨slot, hslot⟩ := hslot
  have hslab := length_slab_set (r.shards k).slab id.key.toNat
    (entry.map fun e' => ⟨id.generation, e'⟩)
  rw [hslot] at hslab
  unfold setSlot
  rw [hk, hid]
  cases entry with
  | none =>
    have hshard := len_setShard (r := r) k
      { r.shards k with slab := (r.shards k).slab.erase id.key.toNat }
    simp only [Tasks.weight, Tasks.set, if_true, Option.map_none] at hslab
    simp only [Option.isSome_none, Bool.false_eq_true, if_false]
    dsimp only at hshard
    omega
  | some e' =>
    have hshard := len_setShard (r := r) k
      { r.shards k with slab := (r.shards k).slab.insert id.key.toNat ⟨id.generation, e'⟩ }
    simp only [Tasks.weight, Tasks.set, if_true, Option.map_some] at hslab
    simp only [Option.isSome_some, if_true]
    dsimp only at hshard
    omega

theorem len_removeFull {e : Entry} (hid : r.find id = some e) :
    (r.removeFull id).2.len + 1 = r.len := by
  show (r.setSlot id none).len + 1 = r.len
  simpa using len_setSlot none hid

/-- Replacing the entry of an id by one of the same user. -/
theorem find_replace {f : Entry → Entry} (hf : ∀ e, (f e).user = e.user) {e : Entry}
    (hid : r.find id = some e) :
    (r.setSlot id (some (f e))).len = r.len ∧
      ∀ id', ((r.setSlot id (some (f e))).find id').map Entry.user =
        (r.find id').map Entry.user := by
  refine ⟨?_, fun id' => ?_⟩
  · have hlen := len_setSlot (some (f e)) hid
    simp only [Option.isSome_some, if_true] at hlen
    omega
  · rw [find_setSlot _ (by rw [hid]; rfl)]
    split_ifs with h
    · rw [h, hid, Option.map_some, Option.map_some, hf]
    · rfl

theorem lookup_onHandle (f : ConnHandle → ConnHandle) : (r.onHandle id f).find id' =
    if id' = id then (r.find id).map fun e => { e with handle := f e.handle } else r.find id' := by
  unfold onHandle
  cases hid : r.find id with
  | some e => exact find_setSlot _ (by rw [hid]; rfl)
  | none =>
    dsimp only
    split_ifs with h
    · rw [h, hid]
      rfl
    · rfl

theorem find_onHandle (f : ConnHandle → ConnHandle) : (r.onHandle id f).len = r.len ∧
    ∀ id', ((r.onHandle id f).find id').map Entry.user = (r.find id').map Entry.user := by
  unfold onHandle
  cases hid : r.find id with
  | none => exact ⟨rfl, fun _ => rfl⟩
  | some e => exact find_replace (f := fun e => { e with handle := f e.handle }) (fun _ => rfl) hid

theorem find_withRooms {ρ : Type} (f : OrdSet RoomId → ρ × OrdSet RoomId) :
    (r.withRooms id f).2.len = r.len ∧
    ∀ id', ((r.withRooms id f).2.find id').map Entry.user = (r.find id').map Entry.user := by
  unfold withRooms
  cases hid : r.find id with
  | none => exact ⟨rfl, fun _ => rfl⟩
  | some e =>
    dsimp only
    unfold setRooms
    rw [hid]
    exact find_replace (f := fun e => { e with rooms := (f e.rooms).2 }) (fun _ => rfl) hid

end ShardedRegistry

/-! ## The system -/

/-- Where `run_admitted` is. -/
inductive LifePoint
  /-- The answer of `authorize` is awaited. -/
  | authorizing
  /-- `registry.insert` is next. -/
  | accepted (user : Option UserId)
  /-- `Metrics::add` is next. -/
  | inserted (user : Option UserId) (id : ConnectionId)
  /-- `identity.bind` is next, for a connection of a user. -/
  | counted (user : Option UserId) (id : ConnectionId)
  /-- In `run_connection`. -/
  | running (user : Option UserId) (id : ConnectionId)
  /-- `registry.remove_full` is next. -/
  | ended (user : Option UserId) (id : ConnectionId)
  /-- The rooms are cleaned up; `identity.unbind` is next, for a connection of a user. -/
  | removed (user : Option UserId) (id : ConnectionId)
  /-- `unbind` has left the set empty; its `remove_if` is next. -/
  | emptied (user : UserId) (id : ConnectionId)
  /-- `Metrics::sub` is next. -/
  | unbound (id : ConnectionId)
  /-- The drop of the guard is next. -/
  | leaving
  deriving DecidableEq, Repr

namespace LifePoint

/-- Behind the first half of `unbind`, which has left the set empty or not. -/
def struck (user : UserId) (id : ConnectionId) : Bool → LifePoint
  | true => emptied user id
  | false => unbound id

/-- The registry entry of the connection: its user and its id. -/
def registered : LifePoint → Option (Option UserId × ConnectionId)
  | inserted user id | counted user id | running user id | ended user id => some (user, id)
  | _ => none

/-- The id, from `registry.insert` to `identity.unbind`. -/
def holds : LifePoint → Option ConnectionId
  | inserted _ id | counted _ id | running _ id | ended _ id | removed _ id => some id
  | _ => none

/-- The connection in the user index. -/
def bound : LifePoint → Option (UserId × ConnectionId)
  | running (some u) id | ended (some u) id | removed (some u) id => some (u, id)
  | _ => none

/-- The user whose set was left empty. -/
def emptying : LifePoint → Option UserId
  | emptied u _ => some u
  | _ => none

/-- The connection is counted by the gauge. -/
def isCounted : LifePoint → Bool
  | counted .. | running .. | ended .. | removed .. | emptied .. | unbound _ => true
  | _ => false

/-- The connection is in the registry. -/
def isRegistered (p : LifePoint) : Bool := p.registered.isSome

end LifePoint

/-- What the connections share, and where each of them is. A connection has the number of
    its upgrade. -/
structure Lifecycle (ν : Type) where
  gate : Gate ν
  registry : ShardedRegistry
  identity : IdentityRegistry ConnectionId
  /-- `metrics.connections`. -/
  connections : UInt64
  conns : Tasks LifePoint

/-- The atomic steps of the connections from the upgrade to the end (`engine.rs`, lines
    1154–1298). -/
inductive LifeEvent
  | gate (e : GateEvent)
  /-- The handshake of an admitted upgrade is complete. -/
  | begin (i : ℕ)
  /-- `authorize` returns; `none` without a hook. -/
  | resolve (i : ℕ) (resolution : Option AuthorizeResolution)
  /-- `registry.insert`; `key` is what the slab hands out. -/
  | insert (i : ℕ) (key : ℕ) (handle : ConnHandle)
  /-- Connection `i` takes its next step. -/
  | step (i : ℕ)
  /-- A join or a leave, of any task. -/
  | rooms (id : ConnectionId) (f : OrdSet RoomId → OrdSet RoomId)
  /-- A push or a close, of any task. -/
  | handle (id : ConnectionId) (f : ConnHandle → ConnHandle)

namespace Lifecycle

variable {ν : Type} (contains : ν → IpAddr → Bool) (parse : List Char → Option IpAddr)

/-- The engine before its first connection. -/
def start (resolver : ClientIpResolver ν) (maxPerIp : UInt32) : Lifecycle ν :=
  { gate := .new resolver maxPerIp, registry := .new, identity := ∅, connections := 0, conns := ∅ }

/-- Connection `i`, with `next` left to do. -/
def setConn (w : Lifecycle ν) (i : ℕ) (next : Option LifePoint) : Lifecycle ν :=
  { w with conns := w.conns.set i next }

/-- The guard of a connection is dropped by the connection. -/
def Owns (w : Lifecycle ν) : GateEvent → Bool
  | .step i => (w.conns.lookup i).isSome
  | _ => false

/-- What `run_admitted` does on the answer of `authorize` (lines 1212–1230). -/
def resolved : Option AuthorizeResolution → LifePoint
  | none => .accepted none
  | some (.accept user _) => .accepted user
  | some (.reject _ _) => .leaving

/-- One step of `run_admitted` behind `registry.insert` (lines 1248–1295). -/
def connStep (w : Lifecycle ν) (i : ℕ) : LifePoint → Lifecycle ν
  | .inserted user id =>
    { w with connections := w.connections + 1 }.setConn i (some (.counted user id))
  | .counted none id => w.setConn i (some (.running none id))
  | .counted (some u) id =>
    { w with identity := w.identity.bind u id }.setConn i (some (.running (some u) id))
  | .running user id => w.setConn i (some (.ended user id))
  | .ended user id =>
    { w with registry := (w.registry.removeFull id).2 }.setConn i (some (.removed user id))
  | .removed none id => w.setConn i (some (.unbound id))
  | .removed (some u) id =>
    let (identity, empty) := w.identity.strike u id
    { w with identity }.setConn i (some (.struck u id empty))
  | .emptied u id =>
    { w with identity := w.identity.removeIfEmpty u }.setConn i (some (.unbound id))
  | .unbound _ => { w with connections := w.connections - 1 }.setConn i (some .leaving)
  | .leaving => { w with gate := w.gate.step contains parse (.step i) }.setConn i none
  | .authorizing | .accepted _ => w

/-- One step of one connection; an event that fits no connection changes nothing. -/
def step (w : Lifecycle ν) : LifeEvent → Lifecycle ν
  | .gate e => if w.Owns e then w else { w with gate := w.gate.step contains parse e }
  | .begin i =>
    match w.gate.upgrades.lookup i, w.conns.lookup i with
    | some (.admitted _), none => w.setConn i (some .authorizing)
    | _, _ => w
  | .resolve i resolution =>
    match w.conns.lookup i with
    | some .authorizing => w.setConn i (some (resolved resolution))
    | _ => w
  | .insert i key handle =>
    match w.conns.lookup i with
    | some (.accepted user) =>
      let (k, r) := w.registry.fetchShard
      if (r.shards k).Vacant key ∧ key < 2 ^ 32 then
        { w with registry := r.insert k key handle user }.setConn i
          (some (.inserted user (r.issued k key)))
      else w
    | _ => w
  | .step i =>
    match w.conns.lookup i with
    | none => w
    | some p => w.connStep contains parse i p
  | .rooms id f =>
    { w with registry := (w.registry.withRooms id fun rooms => ((), f rooms)).2 }
  | .handle id f => { w with registry := w.registry.onHandle id f }

/-- An id is not handed out while a connection that had it is still to be unbound: the
    slot is not used 2²⁴ times in between. -/
def Fresh (w : Lifecycle ν) : LifeEvent → Prop
  | .insert _ key _ =>
    ¬ w.conns.Owned LifePoint.holds
      (w.registry.fetchShard.2.issued w.registry.fetchShard.1 key)
  | _ => True

instance Fresh.instDecidable (w : Lifecycle ν) : DecidablePred w.Fresh
  | .insert _ _ _ => inferInstanceAs (Decidable (¬ _))
  | .gate _ | .begin _ | .resolve _ _ | .step _ | .rooms _ _ | .handle _ _ => isTrue trivial

/-! ## What a step does -/

variable {contains parse} {w w' : Lifecycle ν} {i : ℕ} {p : LifePoint} {next : Option LifePoint}
  {e : LifeEvent}

/-- The steps that change something. -/
inductive Act (contains : ν → IpAddr → Bool) (parse : List Char → Option IpAddr)
    (w : Lifecycle ν) : Lifecycle ν → Prop
  | skip : Act contains parse w w
  | gate {e : GateEvent} (hfree : w.Owns e = false) :
    Act contains parse w { w with gate := w.gate.step contains parse e }
  | touch {r : ShardedRegistry} (hlen : r.len = w.registry.len)
    (husers : ∀ id, (r.find id).map Entry.user = (w.registry.find id).map Entry.user) :
    Act contains parse w { w with registry := r }
  | begin {i : ℕ} {guard : IpAdmitGuard}
    (hadmitted : w.gate.upgrades.lookup i = some (.admitted guard))
    (hi : w.conns.lookup i = none) : Act contains parse w (w.setConn i (some .authorizing))
  | resolve {i : ℕ} (resolution : Option AuthorizeResolution)
    (hi : w.conns.lookup i = some .authorizing) :
    Act contains parse w (w.setConn i (some (resolved resolution)))
  | insert {i : ℕ} (user : Option UserId) (id : ConnectionId) {r : ShardedRegistry} {entry : Entry}
    (hi : w.conns.lookup i = some (.accepted user)) (hlen : r.len = w.registry.len + 1)
    (hfind : ∀ id', r.find id' = if id' = id then some entry else w.registry.find id')
    (huser : entry.user = user) (hfresh : ¬ w.conns.Owned LifePoint.holds id) :
    Act contains parse w
      ({ w with registry := r }.setConn i (some (.inserted user id)))
  | conn {i : ℕ} {p : LifePoint} (hi : w.conns.lookup i = some p) :
    Act contains parse w (w.connStep contains parse i p)

theorem act_step (hfresh : w.Fresh e) : Act contains parse w (w.step contains parse e) := by
  cases e with
  | gate e =>
    unfold step
    dsimp only
    split_ifs with howns
    · exact .skip
    · exact .gate (Bool.eq_false_of_not_eq_true howns)
  | begin i =>
    unfold step
    dsimp only
    split
    case h_1 guard hadmitted hi => exact .begin hadmitted hi
    case h_2 => exact .skip
  | resolve i resolution =>
    unfold step
    dsimp only
    split
    case h_1 hi => exact .resolve resolution hi
    case h_2 => exact .skip
  | insert i key handle =>
    unfold step
    dsimp only
    split
    case h_1 user hi =>
      split_ifs with hvacant
      · obtain ⟨hvacant, hkey⟩ := hvacant
        exact .insert user _ hi (ShardedRegistry.len_insert hvacant handle user)
          (fun id' => ShardedRegistry.find_insert hkey hvacant handle user) rfl hfresh
      · exact .skip
    case h_2 => exact .skip
  | step i =>
    unfold step
    dsimp only
    cases hi : w.conns.lookup i with
    | none => exact .skip
    | some p => exact .conn hi
  | rooms id f =>
    obtain ⟨hlen, husers⟩ := @ShardedRegistry.find_withRooms w.registry id _
      fun rooms => ((), f rooms)
    exact .touch hlen husers
  | handle id f =>
    obtain ⟨hlen, husers⟩ := @ShardedRegistry.find_onHandle w.registry id f
    exact .touch hlen husers

/-! ## The gauge -/

/-- The gauge counts the connections between `Metrics::add` and `Metrics::sub`. -/
def Counted (w : Lifecycle ν) : Prop :=
  w.connections = UInt64.ofNat (w.conns.count LifePoint.isCounted)

theorem Counted.keep (h : w.Counted) (i : ℕ) (next : Option LifePoint)
    (hgauge : w'.connections = w.connections)
    (hconns : w'.conns = w.conns.set i next)
    (hweight : Tasks.weight LifePoint.isCounted next =
      Tasks.weight LifePoint.isCounted (w.conns.lookup i)) : w'.Counted := by
  have hcount := Tasks.count_set LifePoint.isCounted w.conns i next
  rw [hweight] at hcount
  rw [Counted, hgauge, hconns, Nat.add_right_cancel hcount]
  exact h

theorem counted_connStep (h : w.Counted) (hi : w.conns.lookup i = some p) :
    (w.connStep contains parse i p).Counted := by
  cases p with
  | authorizing => exact h
  | accepted user => exact h
  | inserted user id =>
    have hcount := Tasks.count_set LifePoint.isCounted w.conns i (some (.counted user id))
    rw [hi] at hcount
    show w.connections + 1 = UInt64.ofNat ((w.conns.set i _).count _)
    rw [show (w.conns.set i _).count _ = w.conns.count _ + 1 from hcount, UInt64.ofNat_add, h]
    rfl
  | counted user id =>
    cases user with
    | none => exact h.keep i (some (.running none id)) rfl rfl (by rw [hi]; rfl)
    | some u => exact h.keep i (some (.running (some u) id)) rfl rfl (by rw [hi]; rfl)
  | running user id => exact h.keep i (some (.ended user id)) rfl rfl (by rw [hi]; rfl)
  | ended user id => exact h.keep i (some (.removed user id)) rfl rfl (by rw [hi]; rfl)
  | removed user id =>
    cases user with
    | none => exact h.keep i (some (.unbound id)) rfl rfl (by rw [hi]; rfl)
    | some u =>
      refine h.keep i (some (.struck u id (w.identity.strike u id).2)) rfl rfl ?_
      rw [hi]
      cases (w.identity.strike u id).2 <;> rfl
  | emptied u id => exact h.keep i (some (.unbound id)) rfl rfl (by rw [hi]; rfl)
  | unbound id =>
    have hcount := Tasks.count_set LifePoint.isCounted w.conns i (some .leaving)
    rw [hi] at hcount
    have hgauge : w.connections = UInt64.ofNat (w.conns.count LifePoint.isCounted) := h
    rw [← show (w.conns.set i _).count _ + 1 = w.conns.count _ from hcount, UInt64.ofNat_add]
      at hgauge
    show w.connections - 1 = UInt64.ofNat ((w.conns.set i _).count _)
    rw [hgauge]
    exact UInt64.add_sub_cancel _ _
  | leaving => exact h.keep i none rfl rfl (by rw [hi]; rfl)

theorem counted_act (h : w.Counted) (hact : Act contains parse w w') : w'.Counted := by
  cases hact with
  | skip => exact h
  | gate hfree => exact h
  | touch hlen husers => exact h
  | begin hadmitted hi => exact h.keep _ (some .authorizing) rfl rfl (by rw [hi]; rfl)
  | resolve resolution hi =>
    refine h.keep _ (some (resolved resolution)) rfl rfl ?_
    rw [hi]
    obtain _ | ⟨_ | _⟩ := resolution <;> rfl
  | insert user id hi => exact h.keep _ (some (.inserted user id)) rfl rfl (by rw [hi]; rfl)
  | conn hi => exact counted_connStep h hi

/-! ## The registry -/

/-- The registry holds the connections between `registry.insert` and `remove_full`, and no
    id is of two connections. -/
structure Registered (w : Lifecycle ν) : Prop where
  len : w.registry.len = w.conns.count LifePoint.isRegistered
  users : ∀ id user, (w.registry.find id).map Entry.user = some user ↔
    w.conns.Owned LifePoint.registered (user, id)
  apart : w.conns.Apart LifePoint.holds

theorem holds_of_registered {user : Option UserId} {id : ConnectionId}
    (h : p.registered = some (user, id)) : p.holds = some id := by
  cases p <;> cases h <;> rfl

theorem weight_isRegistered (q : Option LifePoint) :
    Tasks.weight LifePoint.isRegistered q =
      if (q.bind LifePoint.registered).isSome then 1 else 0 := by
  cases q <;> rfl

/-- A step that leaves the registry as it is. -/
theorem Registered.keep (h : w.Registered) (i : ℕ) (next : Option LifePoint)
    (hlen : w'.registry.len = w.registry.len)
    (husers : ∀ id, (w'.registry.find id).map Entry.user = (w.registry.find id).map Entry.user)
    (hconns : w'.conns = w.conns.set i next)
    (hregistered : next.bind LifePoint.registered = (w.conns.lookup i).bind LifePoint.registered)
    (hholds : ∀ id, next.bind LifePoint.holds = some id →
      (w.conns.lookup i).bind LifePoint.holds = some id) : w'.Registered := by
  have hcount := Tasks.count_set LifePoint.isRegistered w.conns i next
  rw [weight_isRegistered, weight_isRegistered, hregistered] at hcount
  refine ⟨?_, ?_, ?_⟩
  · rw [hlen, h.len, hconns, Nat.add_right_cancel hcount]
  · intro id user
    rw [husers, h.users, hconns, Tasks.owned_set_of_eq hregistered]
  · rw [hconns]
    exact h.apart.set fun id hid => .inl (hholds id hid)

theorem Registered.insert (h : w.Registered) {user : Option UserId} {r : ShardedRegistry}
    {id : ConnectionId} {entry : Entry} (hi : w.conns.lookup i = some (.accepted user))
    (hlen : r.len = w.registry.len + 1)
    (hfind : ∀ id', r.find id' = if id' = id then some entry else w.registry.find id')
    (huser : entry.user = user) (hfresh : ¬ w.conns.Owned LifePoint.holds id) :
    ({ w with registry := r }.setConn i (some (.inserted user id))).Registered := by
  have hcount := Tasks.count_set LifePoint.isRegistered w.conns i (some (.inserted user id))
  rw [hi] at hcount
  have hold : (w.conns.lookup i).bind LifePoint.registered = none := by
    rw [hi]
    rfl
  refine ⟨?_, ?_, ?_⟩
  · show r.len = (w.conns.set i _).count _
    rw [hlen, h.len]
    exact hcount.symm
  · intro id' user'
    show (r.find id').map Entry.user = some user' ↔ (w.conns.set i _).Owned _ _
    rw [hfind, Tasks.owned_set_gain hold rfl, Prod.mk.injEq]
    split_ifs with hid
    · -- an id that no connection holds is not in the registry
      have hnot : ¬ w.conns.Owned LifePoint.registered (user', id') := by
        rintro ⟨j, q, hj, hq⟩
        exact hfresh ⟨j, q, hj, hid ▸ holds_of_registered hq⟩
      rw [Option.map_some, huser, Option.some.injEq]
      constructor
      · intro h
        exact .inl ⟨h.symm, hid⟩
      · rintro (h | howned)
        · exact h.1.symm
        · exact absurd howned hnot
    · rw [h.users]
      constructor
      · exact .inr
      · rintro (hnew | howned)
        · exact absurd hnew.2 hid
        · exact howned
  · exact h.apart.set fun id' hid' => by
      cases hid'
      exact .inr hfresh

theorem Registered.remove (h : w.Registered) {user : Option UserId} {id : ConnectionId}
    (hi : w.conns.lookup i = some (.ended user id)) :
    ({ w with registry := (w.registry.removeFull id).2 }.setConn i
      (some (.removed user id))).Registered := by
  have howned : w.conns.Owned LifePoint.registered (user, id) := ⟨i, _, hi, rfl⟩
  obtain ⟨entry, hentry, -⟩ := Option.map_eq_some_iff.mp ((h.users id user).mpr howned)
  have hcount := Tasks.count_set LifePoint.isRegistered w.conns i (some (.removed user id))
  rw [hi] at hcount
  have hmine : (w.conns.lookup i).bind LifePoint.registered = some (user, id) := by
    rw [hi]
    rfl
  have hapart : w.conns.Apart LifePoint.registered :=
    h.apart.of_determines Prod.snd fun q x hq => holds_of_registered hq
  refine ⟨?_, ?_, ?_⟩
  · have hlen := ShardedRegistry.len_removeFull hentry
    rw [h.len] at hlen
    exact Nat.add_right_cancel (hlen.trans hcount.symm)
  · intro id' user'
    show ((w.registry.removeFull id).2.find id').map Entry.user = some user' ↔
      (w.conns.set i _).Owned _ _
    rw [ShardedRegistry.find_removeFull, Tasks.owned_set_lose hapart hmine rfl, ne_eq,
      Prod.mk.injEq, ← h.users]
    split_ifs with hid
    · rw [hid, hentry]
      constructor
      · intro hnone
        cases hnone
      · rintro ⟨hne, huser⟩
        have huser' : (w.registry.find id).map Entry.user = some user :=
          (h.users id user).mpr howned
        rw [hentry, huser] at huser'
        exact absurd ⟨Option.some.inj huser', rfl⟩ hne
    · simp [hid]
  · exact h.apart.set fun id' hid' => .inl (by rw [hi]; exact hid')

/-- A step between two points, with the registry as it is. -/
theorem Registered.move (h : w.Registered) (hi : w.conns.lookup i = some p) (q : LifePoint)
    (hregistry : w'.registry = w.registry) (hconns : w'.conns = w.conns.set i (some q))
    (hregistered : q.registered = p.registered)
    (hholds : ∀ id, q.holds = some id → p.holds = some id) : w'.Registered := by
  refine h.keep i (some q) (by rw [hregistry]) (fun _ => by rw [hregistry]) hconns ?_ ?_
  · rw [hi]
    exact hregistered
  · intro id hid
    rw [hi]
    exact hholds id hid

theorem registered_connStep (h : w.Registered) (hi : w.conns.lookup i = some p) :
    (w.connStep contains parse i p).Registered := by
  cases p with
  | authorizing => exact h
  | accepted user => exact h
  | inserted user id => exact h.move hi (.counted user id) rfl rfl rfl fun _ hid => hid
  | counted user id =>
    cases user with
    | none => exact h.move hi (.running none id) rfl rfl rfl fun _ hid => hid
    | some u => exact h.move hi (.running (some u) id) rfl rfl rfl fun _ hid => hid
  | running user id => exact h.move hi (.ended user id) rfl rfl rfl fun _ hid => hid
  | ended user id => exact h.remove hi
  | removed user id =>
    cases user with
    | none => exact h.move hi (.unbound id) rfl rfl rfl nofun
    | some u =>
      refine h.move hi (.struck u id (w.identity.strike u id).2) rfl rfl ?_ ?_
      · cases (w.identity.strike u id).2 <;> rfl
      · cases (w.identity.strike u id).2 <;> exact nofun
  | emptied u id => exact h.move hi (.unbound id) rfl rfl rfl nofun
  | unbound id => exact h.move hi .leaving rfl rfl rfl nofun
  | leaving => exact h.keep i none rfl (fun _ => rfl) rfl (by rw [hi]; rfl) nofun

theorem registered_act (h : w.Registered) (hact : Act contains parse w w') : w'.Registered := by
  cases hact with
  | skip => exact h
  | gate hfree => exact ⟨h.len, h.users, h.apart⟩
  | touch hlen husers =>
    refine ⟨hlen.trans h.len, ?_, h.apart⟩
    intro id user
    rw [husers]
    exact h.users id user
  | begin hadmitted hi =>
    exact h.keep _ (some .authorizing) rfl (fun _ => rfl) rfl (by rw [hi]; rfl) nofun
  | resolve resolution hi =>
    refine h.keep _ (some (resolved resolution)) rfl (fun _ => rfl) rfl ?_ ?_
    · rw [hi]
      obtain _ | ⟨_ | _⟩ := resolution <;> rfl
    · obtain _ | ⟨_ | _⟩ := resolution <;> exact nofun
  | insert user id hi hlen hfind huser hfresh => exact h.insert hi hlen hfind huser hfresh
  | conn hi => exact registered_connStep h hi

/-! ## The user index -/

/-- The user index holds the connections between `bind` and `unbind`; an empty set is
    about to be removed. -/
structure Bound (w : Lifecycle ν) : Prop where
  devices : ∀ u id, id ∈ w.identity.devices u ↔ w.conns.Owned LifePoint.bound (u, id)
  empty : ∀ u, w.identity.lookup u = some ∅ → w.conns.Owned LifePoint.emptying u

theorem holds_of_bound {u : UserId} {id : ConnectionId} (h : p.bound = some (u, id)) :
    p.holds = some id := by
  cases p with
  | running user id | ended user id | removed user id => cases user <;> cases h; rfl
  | _ => cases h

theorem Bound.keep (h : w.Bound) (i : ℕ) (next : Option LifePoint)
    (hidentity : w'.identity = w.identity) (hconns : w'.conns = w.conns.set i next)
    (hbound : next.bind LifePoint.bound = (w.conns.lookup i).bind LifePoint.bound)
    (hemptying : next.bind LifePoint.emptying = (w.conns.lookup i).bind LifePoint.emptying) :
    w'.Bound := by
  refine ⟨?_, ?_⟩
  · intro u id
    rw [hidentity, hconns, Tasks.owned_set_of_eq hbound]
    exact h.devices u id
  · intro u hempty
    rw [hidentity] at hempty
    rw [hconns, Tasks.owned_set_of_eq hemptying]
    exact h.empty u hempty

theorem Bound.bind (h : w.Bound) {u : UserId} {id : ConnectionId}
    (hi : w.conns.lookup i = some (.counted (some u) id)) :
    ({ w with identity := w.identity.bind u id }.setConn i
      (some (.running (some u) id))).Bound := by
  have hold : (w.conns.lookup i).bind LifePoint.bound = none := by
    rw [hi]
    rfl
  have hemptying : (some (LifePoint.running (some u) id)).bind LifePoint.emptying =
      (w.conns.lookup i).bind LifePoint.emptying := by
    rw [hi]
    rfl
  refine ⟨?_, ?_⟩
  · intro u' id'
    show id' ∈ (w.identity.bind u id).devices u' ↔ (w.conns.set i _).Owned _ _
    rw [IdentityRegistry.devices_bind, Tasks.owned_set_gain hold rfl, ← h.devices, Prod.mk.injEq]
    split_ifs with hu
    · rw [OrdSet.mem_insert, hu]
      simp
    · simp [hu]
  · intro u' hempty
    show (w.conns.set i _).Owned _ _
    rw [Tasks.owned_set_of_eq hemptying]
    change (w.identity.bind u id).lookup u' = some ∅ at hempty
    rw [IdentityRegistry.bind, lookup_insert] at hempty
    split_ifs at hempty with hu
    · -- a set is not empty after an insertion
      have hmem : id ∈ (w.identity.devices u).insert id := OrdSet.mem_insert.mpr (.inl rfl)
      rw [Option.some.inj hempty] at hmem
      exact absurd hmem OrdSet.notMem_empty
    · exact h.empty u' hempty

theorem Bound.strike (h : w.Bound) (hapart : w.conns.Apart LifePoint.holds) {u : UserId}
    {id : ConnectionId} (hi : w.conns.lookup i = some (.removed (some u) id)) :
    ({ w with identity := (w.identity.strike u id).1 }.setConn i
      (some (.struck u id (w.identity.strike u id).2))).Bound := by
  have hmine : (w.conns.lookup i).bind LifePoint.bound = some (u, id) := by
    rw [hi]
    rfl
  have hapart' : w.conns.Apart LifePoint.bound :=
    hapart.of_determines Prod.snd fun q x hq => holds_of_bound hq
  have hnext : (some (LifePoint.struck u id (w.identity.strike u id).2)).bind LifePoint.bound =
      none := by
    cases (w.identity.strike u id).2 <;> rfl
  refine ⟨?_, ?_⟩
  · intro u' id'
    show id' ∈ (w.identity.strike u id).1.devices u' ↔ (w.conns.set i _).Owned _ _
    rw [IdentityRegistry.devices_strike, Tasks.owned_set_lose hapart' hmine hnext, ← h.devices,
      ne_eq, Prod.mk.injEq]
    split_ifs with hu
    · rw [OrdSet.mem_erase, hu]
      simp
    · simp [hu]
  · intro u' hempty
    show (w.conns.set i _).Owned _ _
    rw [Tasks.owned_set_iff]
    obtain ⟨hu, hstruck⟩ | hold := IdentityRegistry.lookup_strike_eq_empty hempty
    · rw [hstruck, hu]
      exact .inl rfl
    · obtain ⟨j, q, hj, hq⟩ := h.empty u' hold
      refine .inr ⟨j, q, ?_, hj, hq⟩
      rintro rfl
      rw [hi] at hj
      cases hj
      cases hq

theorem Bound.removeIfEmpty (h : w.Bound) {u : UserId} {id : ConnectionId}
    (hi : w.conns.lookup i = some (.emptied u id)) :
    ({ w with identity := w.identity.removeIfEmpty u }.setConn i (some (.unbound id))).Bound := by
  have hbound : (some (LifePoint.unbound id)).bind LifePoint.bound =
      (w.conns.lookup i).bind LifePoint.bound := by
    rw [hi]
    rfl
  refine ⟨?_, ?_⟩
  · intro u' id'
    show id' ∈ (w.identity.removeIfEmpty u).devices u' ↔ (w.conns.set i _).Owned _ _
    rw [IdentityRegistry.devices_removeIfEmpty, Tasks.owned_set_of_eq hbound]
    exact h.devices u' id'
  · intro u' hempty
    change (w.identity.removeIfEmpty u).lookup u' = some ∅ at hempty
    show (w.conns.set i _).Owned _ _
    rw [IdentityRegistry.lookup_removeIfEmpty] at hempty
    split_ifs at hempty with hu
    obtain ⟨j, q, hj, hq⟩ := h.empty u' hempty
    refine Tasks.owned_set_iff.mpr (.inr ⟨j, q, ?_, hj, hq⟩)
    -- a set of `u` would just have been removed
    rintro rfl
    rw [hi] at hj
    cases hj
    cases hq
    exact hu ⟨rfl, hempty⟩

theorem bound_connStep (h : w.Bound) (hapart : w.conns.Apart LifePoint.holds)
    (hi : w.conns.lookup i = some p) : (w.connStep contains parse i p).Bound := by
  cases p with
  | authorizing => exact h
  | accepted user => exact h
  | inserted user id =>
    exact h.keep i (some (.counted user id)) rfl rfl (by rw [hi]; rfl) (by rw [hi]; rfl)
  | counted user id =>
    cases user with
    | none => exact h.keep i (some (.running none id)) rfl rfl (by rw [hi]; rfl) (by rw [hi]; rfl)
    | some u => exact h.bind hi
  | running user id =>
    refine h.keep i (some (.ended user id)) rfl rfl ?_ (by rw [hi]; rfl)
    rw [hi]
    cases user <;> rfl
  | ended user id =>
    refine h.keep i (some (.removed user id)) rfl rfl ?_ (by rw [hi]; rfl)
    rw [hi]
    cases user <;> rfl
  | removed user id =>
    cases user with
    | none => exact h.keep i (some (.unbound id)) rfl rfl (by rw [hi]; rfl) (by rw [hi]; rfl)
    | some u => exact h.strike hapart hi
  | emptied u id => exact h.removeIfEmpty hi
  | unbound id => exact h.keep i (some .leaving) rfl rfl (by rw [hi]; rfl) (by rw [hi]; rfl)
  | leaving => exact h.keep i none rfl rfl (by rw [hi]; rfl) (by rw [hi]; rfl)

theorem bound_act (h : w.Bound) (hapart : w.conns.Apart LifePoint.holds)
    (hact : Act contains parse w w') : w'.Bound := by
  cases hact with
  | skip => exact h
  | gate hfree => exact ⟨h.devices, h.empty⟩
  | touch hlen husers => exact ⟨h.devices, h.empty⟩
  | begin hadmitted hi =>
    exact h.keep _ (some .authorizing) rfl rfl (by rw [hi]; rfl) (by rw [hi]; rfl)
  | resolve resolution hi =>
    refine h.keep _ (some (resolved resolution)) rfl rfl ?_ ?_
    all_goals
      rw [hi]
      obtain _ | ⟨_ | _⟩ := resolution <;> rfl
  | insert user id hi =>
    exact h.keep _ (some (.inserted user id)) rfl rfl (by rw [hi]; rfl) (by rw [hi]; rfl)
  | conn hi => exact bound_connStep h hapart hi

/-! ## The guards -/

/-- Every connection holds the guard of its upgrade, and the guards are counted. -/
structure Guarded (maxPerIp : UInt32) (w : Lifecycle ν) : Prop where
  exact : w.gate.Exact maxPerIp
  held : ∀ i p, w.conns.lookup i = some p →
    ∃ guard, w.gate.upgrades.lookup i = some (.admitted guard)

/-- A step of the gate leaves the other upgrades where they are. -/
theorem lookup_gateStep {g : Gate ν} {e : GateEvent} {j : ℕ} {u : Upgrade}
    (hj : g.upgrades.lookup j = some u) (he : e ≠ .step j) :
    (g.step contains parse e).upgrades.lookup j = some u := by
  cases e with
  | upgrade i peer headers =>
    unfold Gate.step
    dsimp only
    split_ifs with hi
    · exact hj
    · have hji : j ≠ i := by
        rintro rfl
        exact hi (AList.lookup_isSome.mp (by rw [hj]; rfl))
      dsimp only
      rw [lookup_insert, if_neg hji, hj]
  | step i =>
    have hji : j ≠ i := by
      rintro rfl
      exact he rfl
    have hset : ∀ (g' : Gate ν) (next : Option Upgrade), g'.upgrades = g.upgrades →
        (g'.setUpgrade i next).upgrades.lookup j = some u := by
      intro g' next hg'
      rw [Gate.lookup_setUpgrade, if_neg hji, hg', hj]
    unfold Gate.step
    dsimp only
    cases g.upgrades.lookup i with
    | none => exact hj
    | some u' =>
      dsimp only
      unfold Gate.upgradeStep Gate.reject
      split
      · split_ifs <;> exact hset _ _ rfl
      · split <;> exact hset _ _ rfl
      · split_ifs <;> exact hset _ _ rfl
      · exact hset _ _ rfl
  | setDraining draining => exact hj

variable {maxPerIp : UInt32}

theorem Guarded.keep (h : w.Guarded maxPerIp) (i : ℕ) (next : Option LifePoint)
    (hgate : w'.gate = w.gate) (hconns : w'.conns = w.conns.set i next)
    (hheld : ∃ guard, w.gate.upgrades.lookup i = some (.admitted guard)) : w'.Guarded maxPerIp := by
  refine ⟨by rw [hgate]; exact h.exact, ?_⟩
  intro j q hj
  rw [hconns, Tasks.lookup_set] at hj
  rw [hgate]
  split_ifs at hj with hji
  · rw [hji]
    exact hheld
  · exact h.held j q hj

theorem guarded_connStep (h : w.Guarded maxPerIp)
    (hi : w.conns.lookup i = some p) : (w.connStep contains parse i p).Guarded maxPerIp := by
  have hheld := h.held i p hi
  cases p with
  | authorizing => exact h
  | accepted user => exact h
  | counted user id => cases user <;> exact h.keep i (some (.running _ id)) rfl rfl hheld
  | removed user id =>
    cases user with
    | none => exact h.keep i (some (.unbound id)) rfl rfl hheld
    | some u =>
      exact h.keep i (some (.struck u id (w.identity.strike u id).2)) rfl rfl hheld
  | leaving =>
    refine ⟨Gate.exact_step w.gate (.step i) h.exact, ?_⟩
    intro j q hj
    change (w.conns.set i none).lookup j = some q at hj
    rw [Tasks.lookup_set] at hj
    split_ifs at hj with hji
    obtain ⟨guard, hguard⟩ := h.held j q hj
    refine ⟨guard, lookup_gateStep hguard ?_⟩
    intro heq
    cases heq
    exact hji rfl
  | inserted user id => exact h.keep i (some (.counted user id)) rfl rfl hheld
  | running user id => exact h.keep i (some (.ended user id)) rfl rfl hheld
  | ended user id => exact h.keep i (some (.removed user id)) rfl rfl hheld
  | emptied u id => exact h.keep i (some (.unbound id)) rfl rfl hheld
  | unbound id => exact h.keep i (some .leaving) rfl rfl hheld

theorem guarded_act (h : w.Guarded maxPerIp)
    (hact : Act contains parse w w') : w'.Guarded maxPerIp := by
  cases hact with
  | skip => exact h
  | @gate e hfree =>
    refine ⟨Gate.exact_step _ _ h.exact, ?_⟩
    intro j q hj
    obtain ⟨guard, hguard⟩ := h.held j q hj
    refine ⟨guard, lookup_gateStep hguard ?_⟩
    -- the guard of a connection is not dropped by the gate
    rintro rfl
    rw [Owns, show w.conns.lookup j = some q from hj] at hfree
    cases hfree
  | touch hlen husers => exact ⟨h.exact, h.held⟩
  | begin hadmitted hi => exact h.keep _ (some .authorizing) rfl rfl ⟨_, hadmitted⟩
  | resolve resolution hi =>
    exact h.keep _ (some (resolved resolution)) rfl rfl (h.held _ _ hi)
  | insert user id hi => exact h.keep _ (some (.inserted user id)) rfl rfl (h.held _ _ hi)
  | conn hi => exact guarded_connStep h hi

/-! ## Whole runs -/

/-- What is in each table, in terms of where the connections are. -/
structure Exact (maxPerIp : UInt32) (w : Lifecycle ν) : Prop where
  counted : w.Counted
  registered : w.Registered
  bound : w.Bound
  guarded : w.Guarded maxPerIp

theorem exact_start (resolver : ClientIpResolver ν) (maxPerIp : UInt32) :
    (start resolver maxPerIp).Exact maxPerIp where
  counted := rfl
  registered := by
    refine ⟨ShardedRegistry.len_new, ?_, Tasks.apart_empty⟩
    intro id user
    refine iff_of_false ?_ Tasks.not_owned_empty
    rw [show (start resolver maxPerIp).registry = .new from rfl, ShardedRegistry.find_new]
    exact nofun
  bound := ⟨fun u id => iff_of_false OrdSet.notMem_empty Tasks.not_owned_empty, nofun⟩
  guarded := ⟨Gate.exact_new resolver maxPerIp, nofun⟩

theorem exact_step (h : w.Exact maxPerIp) (hfresh : w.Fresh e) :
    (w.step contains parse e).Exact maxPerIp := by
  have hact := @act_step _ contains parse w e hfresh
  exact ⟨counted_act h.counted hact, registered_act h.registered hact,
    bound_act h.bound h.registered.apart hact, guarded_act h.guarded hact⟩

theorem exact_run (resolver : ClientIpResolver ν) {evs : List LifeEvent}
    (hfresh : StepsMeet (step contains parse) Fresh (start resolver maxPerIp) evs) :
    (run (step contains parse) (start resolver maxPerIp) evs).Exact maxPerIp :=
  run_invariant_of_stepsMeet (fun _ _ h he => exact_step h he) (exact_start resolver maxPerIp)
    hfresh

/-- Without a connection, nothing is left of any. -/
theorem Exact.drained (h : w.Exact maxPerIp) (hconns : w.conns = ∅) :
    w.connections = 0 ∧ w.registry.len = 0 ∧ w.identity = ∅ := by
  refine ⟨?_, ?_, ?_⟩
  · have hcounted : w.connections = _ := h.counted
    rw [hcounted, hconns]
    rfl
  · rw [h.registered.len, hconns]
    rfl
  · apply eq_empty_of_lookup
    intro u
    cases hset : w.identity.lookup u with
    | none => rfl
    | some set =>
      have hdevices : ∀ id, id ∉ set := by
        intro id hid
        have howned := (h.bound.devices u id).mp (by rwa [IdentityRegistry.devices, hset])
        rw [hconns] at howned
        exact Tasks.not_owned_empty howned
      have hempty : set = ∅ :=
        OrdSet.ext_mem fun id => iff_of_false (hdevices id) OrdSet.notMem_empty
      have howned := h.bound.empty u (by rw [hset, hempty])
      rw [hconns] at howned
      exact absurd howned Tasks.not_owned_empty

/-- Without an upgrade, no address has an entry. -/
theorem Guarded.drained (h : w.Guarded maxPerIp) (hupgrades : w.gate.upgrades = ∅) :
    w.gate.limiter.counts = ∅ := by
  apply eq_empty_of_lookup
  intro ip
  have hcount := h.exact.count ip
  rw [Gate.guards, hupgrades] at hcount
  cases hlookup : w.gate.limiter.counts.lookup ip with
  | none => rfl
  | some count =>
    rw [IpLimiter.current, hlookup, Option.getD_some] at hcount
    have hzero : count = 0 := UInt32.toNat_inj.mp hcount
    obtain ⟨i, hi⟩ := h.exact.zero ip (by rw [hlookup, hzero])
    rw [hupgrades] at hi
    cases hi

/-- After any steps of any number of connections in which no id is handed out that a
    connection has still to unbind: the gauge is the number of connections between its two
    updates; the registry has an entry for every connection between `insert` and
    `remove_full`, with its user, and no other; the user index has the connections between
    `bind` and `unbind`, and no other; every connection holds the guard of its upgrade, which
    is counted unless there is no limit, and each address has as many counted ones as its
    count says. An empty set of a user, or a count of zero, is there only while some task is
    about to remove it. So the tables are as at the start once the connections have left. -/
theorem lifecycle_exact (resolver : ClientIpResolver ν) (maxPerIp : UInt32)
    (evs : List LifeEvent)
    (hfresh : StepsMeet (step contains parse) Fresh (start resolver maxPerIp) evs)
    (w : Lifecycle ν) (hw : run (step contains parse) (start resolver maxPerIp) evs = w) :
    w.connections = UInt64.ofNat (w.conns.count LifePoint.isCounted) ∧
    w.registry.len = w.conns.count LifePoint.isRegistered ∧
    (∀ id user, w.registry.userOf id = some user ↔
      w.conns.Owned LifePoint.registered (user, id)) ∧
    (∀ u id, id ∈ w.identity.devices u ↔ w.conns.Owned LifePoint.bound (u, id)) ∧
    (∀ i p, w.conns.lookup i = some p →
      ∃ guard, w.gate.upgrades.lookup i = some (.admitted guard) ∧
        guard.limited = decide (maxPerIp ≠ 0)) ∧
    (∀ ip, (w.gate.limiter.current ip).toNat = w.gate.guards ip) ∧
    (∀ u, w.identity.lookup u = some ∅ → w.conns.Owned LifePoint.emptying u) ∧
    (∀ ip, w.gate.limiter.counts.lookup ip = some 0 →
      ∃ i, w.gate.upgrades.lookup i = some (.removing ip)) ∧
    (w.conns = ∅ → w.connections = 0 ∧ w.registry.len = 0 ∧ w.identity = ∅) ∧
    (w.gate.upgrades = ∅ → w.conns = ∅ ∧ w.gate.limiter.counts = ∅) := by
  have h : w.Exact maxPerIp := by
    rw [← hw]
    exact exact_run resolver hfresh
  have hheld : ∀ i p, w.conns.lookup i = some p →
      ∃ guard, w.gate.upgrades.lookup i = some (.admitted guard) ∧
        guard.limited = decide (maxPerIp ≠ 0) := by
    intro i p hi
    obtain ⟨guard, hguard⟩ := h.guarded.held i p hi
    exact ⟨guard, hguard, h.guarded.exact.limited i guard hguard⟩
  refine ⟨h.counted, h.registered.len, h.registered.users, h.bound.devices, hheld,
    h.guarded.exact.count, h.bound.empty, h.guarded.exact.zero, h.drained,
    fun hupgrades => ⟨?_, h.guarded.drained hupgrades⟩⟩
  apply eq_empty_of_lookup
  intro i
  cases hi : w.conns.lookup i with
  | none => rfl
  | some p =>
    obtain ⟨guard, hguard⟩ := h.guarded.held i p hi
    rw [hupgrades] at hguard
    cases hguard

end Lifecycle

/-! ## A device that connects while another one leaves -/

namespace Proxied

/-- The user of both connections. -/
def ann : UserId := "ann"

/-- Up to `registry.insert`. -/
def arrive (i : ℕ) : List LifeEvent :=
  [.gate (.upgrade i client []), .gate (.step i), .gate (.step i), .begin i,
    .resolve i (some (.accept (some ann) 0)), .insert i 0 (.new 16 .dropNewest)]

/-- The second device is bound between the two halves of the first one's `unbind`. -/
def handover : List LifeEvent :=
  arrive 0 ++ [.step 0, .step 0] ++ arrive 1 ++
    [.step 1, .step 0, .step 0, .step 0, .step 1, .step 0, .step 0, .step 0, .gate (.step 0)]

/-- The engine behind `handover`, with two slots for each address. -/
def handedOver : Lifecycle ℕ :=
  run (Lifecycle.step contains parse) (.start .peerOnly 2) handover

theorem handover_exact :
    handedOver.connections = 1 ∧ handedOver.registry.len = 1 ∧
      ∀ id, id ∈ handedOver.identity.devices ann ↔
        handedOver.conns.Owned LifePoint.bound (ann, id) := by
  have h := @Lifecycle.lifecycle_exact ℕ contains parse .peerOnly 2 handover
    (by decide +kernel) handedOver rfl
  refine ⟨?_, ?_, h.2.2.2.1 ann⟩
  · rw [h.1]
    decide +kernel
  · rw [h.2.1]
    decide +kernel

end Proxied

end BeamSocket.Core
