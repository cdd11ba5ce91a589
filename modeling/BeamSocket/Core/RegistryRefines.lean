import BeamSocket.Core.Lifecycle
import BeamSocket.Lib.Service

/-!
# The sharded slab is a map

`Core.Shards` is the registry as the code has it: sixteen slabs, with ids that carry a
shard, a generation and a key. `Core.Registry` is the registry as the rest of the engine
sees it: a map from ids to entries. Every call of the first
(`crates/core/src/connection/registry.rs`, lines 78–196) is answered as the second answers
it, whatever ids are asked for: ids of a slot in an older generation, of a vacant slot and of
no shard included. A listing comes in the order of the slabs, which the map does not know.

* `ShardedRegistry.Represents`: the map that a sharded registry stands for.
* `ShardedRegistry.registry_refines`: every sequence of calls.
-/

namespace BeamSocket.Core

open BeamSocket.Lib

/-- A call of the registry, or of a handle that is taken out of it. -/
inductive RegistryCall
  /-- `insert`; `key` is what the slab hands out. -/
  | insert (key : ℕ) (handle : ConnHandle) (user : Option UserId)
  | get (id : ConnectionId)
  | removeFull (id : ConnectionId)
  | withRooms (id : ConnectionId) (f : OrdSet RoomId → OrdSet RoomId)
  | userOf (id : ConnectionId)
  | len
  | handlesWithUser
  | push (id : ConnectionId) (frame : OutboundFrame)
  | initiateClose (id : ConnectionId) (code : UInt16) (reason : String) (graceful : Bool)

/-- What a call of the registry returns. -/
inductive RegistryAnswer
  | id (id : ConnectionId)
  | handle (handle : Option ConnHandle)
  | removed (removed : Option (ConnHandle × OrdSet RoomId))
  /-- The room set that the closure was given. -/
  | rooms (rooms : Option (OrdSet RoomId))
  | user (user : Option (Option UserId))
  | len (n : ℕ)
  | handles (handles : List (ConnectionId × ConnHandle × Option UserId))
  | pushed (outcome : PushOutcome)
  | done

/-! ## The map -/

namespace Registry

variable (conns : Registry ConnectionId)

/-- What `handles_with_user` says of an entry. -/
def row (e : Σ _ : ConnectionId, Entry) : ConnectionId × ConnHandle × Option UserId :=
  (e.1, e.2.handle, e.2.user)

/-- How a map answers. -/
inductive Serves : Registry ConnectionId → RegistryCall → RegistryAnswer →
    Registry ConnectionId → Prop
  | insert {conns : Registry ConnectionId} {key : ℕ} {handle : ConnHandle} {user : Option UserId}
    {id : ConnectionId} (hnew : conns.lookup id = none) :
    Serves conns (.insert key handle user) (.id id) (conns.register id handle user)
  | get {conns : Registry ConnectionId} {id : ConnectionId} :
    Serves conns (.get id) (.handle (conns.get id)) conns
  | removeFull {conns : Registry ConnectionId} {id : ConnectionId} :
    Serves conns (.removeFull id) (.removed (conns.removeFull id).1) (conns.removeFull id).2
  | withRooms {conns : Registry ConnectionId} {id : ConnectionId}
    {f : OrdSet RoomId → OrdSet RoomId} :
    Serves conns (.withRooms id f) (.rooms (conns.roomsOf id))
      (conns.setRooms id (f ((conns.roomsOf id).getD ∅)))
  | userOf {conns : Registry ConnectionId} {id : ConnectionId} :
    Serves conns (.userOf id) (.user ((conns.lookup id).map Entry.user)) conns
  | len {conns : Registry ConnectionId} : Serves conns .len (.len conns.entries.length) conns
  | handlesWithUser {conns : Registry ConnectionId}
    {rows : List (ConnectionId × ConnHandle × Option UserId)}
    (hperm : rows.Perm (conns.entries.map row)) :
    Serves conns .handlesWithUser (.handles rows) conns
  | push {conns : Registry ConnectionId} {id : ConnectionId} {frame : OutboundFrame} :
    Serves conns (.push id frame) (.pushed (conns.push id frame).2) (conns.push id frame).1
  | initiateClose {conns : Registry ConnectionId} {id : ConnectionId} {code : UInt16}
    {reason : String} {graceful : Bool} :
    Serves conns (.initiateClose id code reason graceful) .done
      (conns.initiateClose id code reason graceful)

end Registry

/-! ## The slabs -/

namespace ShardedRegistry

variable (r : ShardedRegistry)

/-- The part of `handles_with_user` (lines 183–196) about one shard. -/
def shardRows (k : Fin shardCount) : List (ConnectionId × ConnHandle × Option UserId) :=
  r.shardList (fun e => (e.handle, e.user)) k

/-- `Registry::handles_with_user`. -/
def handlesWithUser : List (ConnectionId × ConnHandle × Option UserId) :=
  (List.finRange shardCount).flatMap r.shardRows

/-- `ConnHandle::push` on the handle that `get` returns. -/
def push (id : ConnectionId) (frame : OutboundFrame) : PushOutcome × ShardedRegistry :=
  match r.find id with
  | none => (.closed, r)
  | some e => ((e.handle.push frame).2, r.onHandle id fun h => (h.push frame).1)

/-- The registry serves one call (`registry.rs`, lines 78–197). -/
def serve (r : ShardedRegistry) : RegistryCall → RegistryAnswer × ShardedRegistry
  | .insert key handle user =>
    let (k, r) := r.fetchShard
    (.id (r.issued k key), r.insert k key handle user)
  | .get id => (.handle (r.get id), r)
  | .removeFull id => (.removed (r.removeFull id).1, (r.removeFull id).2)
  | .withRooms id f =>
    let (rooms, r) := r.withRooms id fun rooms => (rooms, f rooms)
    (.rooms rooms, r)
  | .userOf id => (.user (r.userOf id), r)
  | .len => (.len r.len, r)
  | .handlesWithUser => (.handles r.handlesWithUser, r)
  | .push id frame => (.pushed (r.push id frame).1, (r.push id frame).2)
  | .initiateClose id code reason graceful =>
    (.done, r.onHandle id fun h => h.initiateClose code reason graceful)

/-- The slab hands out a vacant key, and the keys fit the ids. -/
def Hands (r : ShardedRegistry) : RegistryCall → Prop
  | .insert key _ _ => (r.fetchShard.2.shards r.fetchShard.1).Vacant key ∧ key < 2 ^ 32
  | _ => True

instance Hands.instDecidable (r : ShardedRegistry) : DecidablePred r.Hands
  | .insert _ _ _ => inferInstanceAs (Decidable (_ ∧ _))
  | .get _ | .removeFull _ | .withRooms _ _ | .userOf _ | .len | .handlesWithUser | .push _ _
  | .initiateClose _ _ _ _ => isTrue trivial

/-- An id is made of the place of its slot and its generation. -/
def Placed : Prop := ∀ k key slot, (r.shards k).slab.lookup key = some slot →
  key < 2 ^ 32 ∧ slot.generation &&& generationMask = slot.generation

/-- The map that the slabs stand for. -/
structure Represents (r : ShardedRegistry) (conns : Registry ConnectionId) : Prop where
  placed : r.Placed
  lookup : ∀ id, r.find id = conns.lookup id

variable {r} {id id' : ConnectionId}

theorem generation_and_generationMask (id : ConnectionId) :
    id.generation &&& generationMask = id.generation := by
  rw [ConnectionId.generation, UInt32.and_assoc, UInt32.and_self]

theorem Placed.setShard (h : r.Placed) {k : Fin shardCount} {shard : Shard}
    (hshard : ∀ key slot, shard.slab.lookup key = some slot →
      key < 2 ^ 32 ∧ slot.generation &&& generationMask = slot.generation) :
    (r.setShard k shard).Placed := by
  intro k' key slot hslot
  by_cases hk : k' = k
  · rw [hk, setShard_self] at hslot
    exact hshard key slot hslot
  · rw [setShard_of_ne hk] at hslot
    exact h k' key slot hslot

theorem Placed.insert (h : r.Placed) {k : Fin shardCount} {key : ℕ} (hkey : key < 2 ^ 32)
    (handle : ConnHandle) (user : Option UserId) : (r.insert k key handle user).Placed := by
  refine h.setShard fun key' slot hslot => ?_
  rw [lookup_insert] at hslot
  split_ifs at hslot with heq
  · cases hslot
    exact ⟨heq ▸ hkey, Shard.nextGeneration_and_generationMask _ _⟩
  · exact h k key' slot hslot

theorem Placed.setSlot (h : r.Placed) (entry : Option Entry) : (r.setSlot id entry).Placed := by
  unfold ShardedRegistry.setSlot
  split
  · next k e hk hfind =>
    cases entry with
    | none =>
      refine h.setShard fun key slot hslot => ?_
      rw [lookup_erase] at hslot
      split_ifs at hslot
      exact h k key slot hslot
    | some e' =>
      refine h.setShard fun key slot hslot => ?_
      rw [lookup_insert] at hslot
      split_ifs at hslot with heq
      · cases hslot
        exact ⟨heq ▸ id.key.toNat_lt, generation_and_generationMask id⟩
      · exact h k key slot hslot
  · exact h

theorem Placed.onHandle (h : r.Placed) (f : ConnHandle → ConnHandle) :
    (r.onHandle id f).Placed := by
  unfold ShardedRegistry.onHandle
  split
  · exact h
  · exact h.setSlot _

theorem Placed.withRooms (h : r.Placed) {ρ : Type} (f : OrdSet RoomId → ρ × OrdSet RoomId) :
    (r.withRooms id f).2.Placed := by
  unfold ShardedRegistry.withRooms
  cases hid : r.find id with
  | none => exact h
  | some e =>
    show (r.setRooms id (f e.rooms).2).Placed
    unfold setRooms
    rw [hid]
    exact h.setSlot _

/-! ## Listings -/

theorem shardOf_new (k : Fin shardCount) (generation key : UInt32) :
    shardOf (ConnectionId.new (UInt8.ofNat k) generation key) = some k := by
  have hk : (k : ℕ) < 16 := k.isLt
  rw [shardOf_eq_some, ConnectionId.shard_new, UInt8.toNat_ofNat']
  omega

/-- A slot is found under the id made of its place. -/
theorem Placed.find_new (h : r.Placed) {k : Fin shardCount} {key : ℕ} {slot : Slot}
    (hslot : (r.shards k).slab.lookup key = some slot) :
    r.find (ConnectionId.new (UInt8.ofNat k) slot.generation (UInt32.ofNat key)) =
      some slot.entry := by
  obtain ⟨hkey, hgeneration⟩ := h k key slot hslot
  rw [find_of_shardOf (shardOf_new k _ _), ConnectionId.key_new, ConnectionId.generation_new,
    UInt32.toNat_ofNat_of_lt' hkey, hslot, hgeneration, Option.bind_some, checked, if_pos rfl]

theorem Placed.mem_handlesWithUser (h : r.Placed)
    {row : ConnectionId × ConnHandle × Option UserId} :
    row ∈ r.handlesWithUser ↔ ∃ e, r.find row.1 = some e ∧ row = (row.1, e.handle, e.user) := by
  unfold handlesWithUser
  rw [List.mem_flatMap]
  constructor
  · rintro ⟨k, -, hrow⟩
    obtain ⟨key, slot, hslot, rfl⟩ := mem_shardList.mp hrow
    exact ⟨slot.entry, h.find_new hslot, rfl⟩
  · rintro ⟨e, hfind, hrow⟩
    obtain ⟨k, hk⟩ := exists_shardOf hfind
    refine ⟨k, List.mem_finRange k, mem_shardList.mpr ?_⟩
    rw [find_of_shardOf hk] at hfind
    obtain ⟨slot, hslot, hchecked⟩ := Option.bind_eq_some_iff.mp hfind
    unfold checked at hchecked
    split_ifs at hchecked with hgeneration
    refine ⟨_, slot, hslot, ?_⟩
    rw [Option.some.inj hchecked, hgeneration, ← shardOf_eq_some.mp hk, UInt8.ofNat_toNat,
      UInt32.ofNat_toNat, IssuedIds.new_fields]
    exact hrow

theorem Placed.nodup_handlesWithUser (h : r.Placed) : r.handlesWithUser.Nodup := by
  refine List.nodup_flatMap.mpr ⟨fun k _ => ?_, ?_⟩
  · exact (nodup_shardList fun key slot hslot => (h k key slot hslot).1).of_map _
  refine (List.nodup_finRange shardCount).imp fun {k k'} hne row hrow hrow' => ?_
  obtain ⟨key, slot, -, rfl⟩ := mem_shardList.mp hrow
  obtain ⟨key', slot', -, heq⟩ := mem_shardList.mp hrow'
  have hshard := congrArg (fun row => shardOf row.1) heq
  simp only [shardOf_new, Option.some.injEq] at hshard
  exact hne hshard

theorem length_handlesWithUser (r : ShardedRegistry) : r.handlesWithUser.length = r.len := by
  have hshard : ∀ k, (r.shardRows k).length = (r.shards k).slab.entries.length := by
    intro k
    rw [shardRows, shardList, List.length_map, List.length_mergeSort]
  unfold handlesWithUser len
  rw [List.length_flatMap, Fin.sum_univ_def]
  simp only [hshard]

/-! ## Every call -/

namespace Represents

variable {conns : Registry ConnectionId}

theorem new : ShardedRegistry.new.Represents ∅ where
  placed k key slot hslot := by cases hslot
  lookup id := ShardedRegistry.find_new

theorem perm_handlesWithUser (h : r.Represents conns) :
    r.handlesWithUser.Perm (conns.entries.map Registry.row) := by
  have hnodup : (conns.entries.map Registry.row).Nodup := by
    apply List.Nodup.of_map Prod.fst
    rw [List.map_map]
    exact conns.nodupKeys
  rw [List.perm_ext_iff_of_nodup h.placed.nodup_handlesWithUser hnodup]
  intro row
  rw [h.placed.mem_handlesWithUser, h.lookup, List.mem_map]
  constructor
  · rintro ⟨e, hlookup, hrow⟩
    exact ⟨⟨row.1, e⟩, (List.mem_dlookup_iff conns.nodupKeys).mp hlookup, hrow.symm⟩
  · rintro ⟨e, he, rfl⟩
    exact ⟨e.2, (List.mem_dlookup_iff conns.nodupKeys).mpr he, rfl⟩

theorem len_eq (h : r.Represents conns) : r.len = conns.entries.length := by
  rw [← length_handlesWithUser, h.perm_handlesWithUser.length_eq, List.length_map]

theorem insert (h : r.Represents conns) {k : Fin shardCount} {key : ℕ}
    (hvacant : (r.shards k).Vacant key) (hkey : key < 2 ^ 32) (handle : ConnHandle)
    (user : Option UserId) :
    (r.insert k key handle user).Represents (conns.register (r.issued k key) handle user) := by
  refine ⟨h.placed.insert hkey handle user, fun id' => ?_⟩
  rw [find_insert hkey hvacant, Registry.register, lookup_insert, h.lookup]

theorem removeFull (h : r.Represents conns) (id : ConnectionId) :
    (r.removeFull id).2.Represents (conns.removeFull id).2 := by
  refine ⟨h.placed.setSlot none, fun id' => ?_⟩
  rw [find_removeFull, h.lookup]
  exact (lookup_erase conns id id').symm

theorem withRooms (h : r.Represents conns) (id : ConnectionId)
    (f : OrdSet RoomId → OrdSet RoomId) :
    (r.withRooms id fun rooms => (rooms, f rooms)).1 = conns.roomsOf id ∧
    (r.withRooms id fun rooms => (rooms, f rooms)).2.Represents
      (conns.setRooms id (f ((conns.roomsOf id).getD ∅))) := by
  have hplaced := @Placed.withRooms r id h.placed _ fun rooms => (rooms, f rooms)
  refine ⟨?_, hplaced, fun id' => ?_⟩
  · unfold ShardedRegistry.withRooms Registry.roomsOf
    rw [← h.lookup]
    cases r.find id <;> rfl
  · unfold ShardedRegistry.withRooms Registry.setRooms Registry.roomsOf
    rw [← h.lookup id]
    cases hid : r.find id with
    | none => exact h.lookup id'
    | some e =>
      dsimp only
      rw [find_setRooms, lookup_insert, hid, h.lookup]
      rfl

theorem onHandle (h : r.Represents conns) {id : ConnectionId} {conns' : Registry ConnectionId}
    (f : ConnHandle → ConnHandle)
    (hconns : ∀ id', conns'.lookup id' =
      if id' = id then (conns.lookup id).map fun e => { e with handle := f e.handle }
      else conns.lookup id') : (r.onHandle id f).Represents conns' := by
  refine ⟨h.placed.onHandle f, fun id' => ?_⟩
  rw [lookup_onHandle, hconns, h.lookup, h.lookup]

theorem push (h : r.Represents conns) (id : ConnectionId) (frame : OutboundFrame) :
    (r.push id frame).1 = (conns.push id frame).2 ∧
    (r.push id frame).2.Represents (conns.push id frame).1 := by
  unfold ShardedRegistry.push Registry.push
  rw [← h.lookup id]
  cases hid : r.find id with
  | none => exact ⟨rfl, h⟩
  | some e =>
    dsimp only
    refine ⟨rfl, h.onHandle _ fun id' => ?_⟩
    rw [lookup_insert, ← h.lookup id, hid]
    rfl

theorem initiateClose (h : r.Represents conns) (id : ConnectionId) (code : UInt16)
    (reason : String) (graceful : Bool) :
    (r.onHandle id fun handle => handle.initiateClose code reason graceful).Represents
      (conns.initiateClose id code reason graceful) := by
  refine h.onHandle _ fun id' => ?_
  unfold Registry.initiateClose
  cases hid : conns.lookup id with
  | none =>
    split_ifs with heq
    · rw [heq, hid]
      rfl
    · rfl
  | some e =>
    rw [lookup_insert]
    rfl

/-- One call. -/
theorem serve (h : r.Represents conns) {c : RegistryCall} (hands : r.Hands c) :
    ∃ conns', Registry.Serves conns c (r.serve c).1 conns' ∧ (r.serve c).2.Represents conns' := by
  cases c with
  | insert key handle user =>
    obtain ⟨hvacant, hkey⟩ := hands
    have hfetch : r.fetchShard.2.Represents conns := ⟨h.placed, h.lookup⟩
    have hnew : conns.lookup (r.fetchShard.2.issued r.fetchShard.1 key) = none := by
      rw [← hfetch.lookup]
      exact find_issued hkey hvacant
    exact ⟨_, .insert hnew, hfetch.insert hvacant hkey handle user⟩
  | get id =>
    refine ⟨conns, ?_, h⟩
    rw [show r.serve (.get id) = (.handle (conns.get id), r) by
      rw [ShardedRegistry.serve, ShardedRegistry.get, h.lookup, Registry.get]]
    exact .get
  | removeFull id =>
    refine ⟨_, ?_, h.removeFull id⟩
    rw [show (r.serve (.removeFull id)).1 = .removed (conns.removeFull id).1 by
      rw [ShardedRegistry.serve, ShardedRegistry.removeFull, Registry.removeFull, h.lookup]]
    exact .removeFull
  | withRooms id f =>
    obtain ⟨hrooms, hnext⟩ := h.withRooms id f
    refine ⟨_, ?_, hnext⟩
    rw [show (r.serve (.withRooms id f)).1 = .rooms (conns.roomsOf id) by
      rw [← hrooms]
      rfl]
    exact .withRooms
  | userOf id =>
    refine ⟨conns, ?_, h⟩
    rw [show (r.serve (.userOf id)).1 = .user ((conns.lookup id).map Entry.user) by
      rw [ShardedRegistry.serve, ShardedRegistry.userOf, h.lookup]]
    exact .userOf
  | len =>
    refine ⟨conns, ?_, h⟩
    rw [show (r.serve .len).1 = .len conns.entries.length by rw [← h.len_eq]; rfl]
    exact .len
  | handlesWithUser => exact ⟨conns, .handlesWithUser h.perm_handlesWithUser, h⟩
  | push id frame =>
    obtain ⟨houtcome, hnext⟩ := h.push id frame
    refine ⟨_, ?_, hnext⟩
    rw [show (r.serve (.push id frame)).1 = .pushed (conns.push id frame).2 by
      rw [← houtcome]
      rfl]
    exact .push
  | initiateClose id code reason graceful =>
    exact ⟨_, .initiateClose, h.initiateClose id code reason graceful⟩

end Represents

/-- Every sequence of calls is answered as a map from ids to entries answers it, in which
    `insert` picks an id that is not in use. -/
theorem registry_refines (calls : List RegistryCall)
    (hands : StepsMeet (fun r c => (serve r c).2) Hands new calls) :
    ∃ conns : Registry ConnectionId,
      Explains Registry.Serves ∅ calls (answers serve new calls).1 conns ∧
      (answers serve new calls).2.Represents conns :=
  explains_of_simulation (fun _ _ _ h hands => h.serve hands) Represents.new hands

end ShardedRegistry

/-! ## An id of a slot that was used again -/

namespace Reused

/-- A handle of a connection with a mark of 16. -/
def handle : ConnHandle := .new 16 .dropNewest

/-- The id of slab key 0 of the first shard, in its first generation. -/
def first : ConnectionId := ConnectionId.new 0 0 0

/-- The sixteen shards come round before a slot is used again. -/
def calls : List RegistryCall :=
  .insert 0 handle (some "ann") :: .removeFull first ::
    (List.replicate 15 (.insert 0 handle none) ++ [.insert 0 handle none, .get first, .len])

theorem calls_refine : ∃ conns : Registry ConnectionId,
    Explains Registry.Serves ∅ calls (answers ShardedRegistry.serve .new calls).1 conns ∧
    conns.lookup first = none := by
  obtain ⟨conns, hexplains, hrepresents⟩ :=
    ShardedRegistry.registry_refines calls (by decide +kernel)
  refine ⟨conns, hexplains, ?_⟩
  rw [← hrepresents.lookup]
  decide +kernel

end Reused

end BeamSocket.Core
