import BeamSocket.Core.Registry
import Mathlib.Logic.Function.Basic

/-!
# The sharded slab behind the registry

Model of the storage of `crates/core/src/connection/registry.rs`: sixteen shards,
each a slab and the generations of its slots, and ids made of shard, generation
and slab key. `Core.Registry` is the map from ids to entries that it implements;
here the ids are the ones the code hands out, so a slot that is used again hands
out an old id after 2^24 uses. Which vacant key the slab picks is an argument.

* `ShardedRegistry.find_insert`, `find_removeFull`, `find_setRooms`: a lookup
  after each operation.
* `ShardedRegistry.find_issued`: an id is not in use when it is handed out.
-/

namespace BeamSocket.Core

open BeamSocket.Lib

/-- `SHARDS`. -/
def shardCount : ℕ := 16

/-- `struct Entry` (lines 37–47) with its `generation` field. -/
structure Slot where
  generation : UInt32
  entry : Entry
  deriving DecidableEq

/-- `struct Shard` (lines 30–35). -/
structure Shard where
  slab : AList fun _ : ℕ => Slot
  gens : List UInt32

namespace Shard

variable (shard : Shard) (key : ℕ)

/-- What `slab.vacant_entry` may answer: a key that was freed, or the next new one. -/
def Vacant : Prop := key ∉ shard.slab ∧ key ≤ shard.gens.length

instance : DecidablePred shard.Vacant := fun key =>
  inferInstanceAs (Decidable (key ∉ shard.slab ∧ key ≤ shard.gens.length))

/-- The generation of the slot when it is next used (lines 89–97). -/
def nextGeneration : UInt32 :=
  match shard.gens[key]? with
  | some g => (g + 1) &&& generationMask
  | none => 0

/-- `gens` with the slot's new generation. -/
def bump : List UInt32 :=
  if key < shard.gens.length then shard.gens.set key (shard.nextGeneration key)
  else shard.gens ++ [shard.nextGeneration key]

theorem nextGeneration_and_generationMask :
    shard.nextGeneration key &&& generationMask = shard.nextGeneration key := by
  unfold nextGeneration
  cases shard.gens[key]? with
  | none => rfl
  | some g => rw [UInt32.and_assoc, UInt32.and_self]

end Shard

/-- `struct Registry` (lines 49–52). The counter `next` is only used modulo the
    number of shards, which divides 2^64. -/
@[ext] structure ShardedRegistry where
  shards : Fin shardCount → Shard
  next : ℕ

/-- `self.shards.get(id.shard() as usize)`. -/
def shardOf (id : ConnectionId) : Option (Fin shardCount) :=
  if h : (id.shard).toNat < shardCount then some ⟨_, h⟩ else none

namespace ShardedRegistry

variable (r : ShardedRegistry) (id id' : ConnectionId)

/-- `Registry::new` (lines 61–76). -/
def new : ShardedRegistry := { shards := fun _ => ⟨∅, []⟩, next := 0 }

/-- `next.fetch_add(1) & (SHARDS - 1)` (line 79). -/
def fetchShard : Fin shardCount × ShardedRegistry :=
  (⟨r.next % shardCount, Nat.mod_lt _ (by decide)⟩, { r with next := r.next + 1 })

/-- The generation check of `get`, `with_rooms`, `user_of` and `remove_full`. -/
def checked (generation : UInt32) (slot : Slot) : Option Entry :=
  if slot.generation = generation then some slot.entry else none

/-- The entry of an id whose slot is in use in its generation. -/
def find : Option Entry :=
  match shardOf id with
  | none => none
  | some k => ((r.shards k).slab.lookup id.key.toNat).bind (checked id.generation)

/-- `Registry::user_of` (lines 146–150). -/
def userOf : Option (Option UserId) := (r.find id).map Entry.user

/-- The room set of an id; empty for an id that is not in use. -/
def roomsAt : OrdSet RoomId :=
  match r.find id with
  | none => ∅
  | some e => e.rooms

/-- The id that `insert` hands out for a slot of a shard. -/
def issued (k : Fin shardCount) (key : ℕ) : ConnectionId :=
  ConnectionId.new (UInt8.ofNat k) ((r.shards k).nextGeneration key) (UInt32.ofNat key)

/-- The registry with a shard replaced. -/
def setShard (k : Fin shardCount) (shard : Shard) : ShardedRegistry :=
  { r with shards := Function.update r.shards k shard }

/-- `Registry::insert` (lines 80–99) into the vacant `key` of shard `k`. -/
def insert (k : Fin shardCount) (key : ℕ) (handle : ConnHandle) (user : Option UserId) :
    ShardedRegistry :=
  let shard := r.shards k
  let slot : Slot := ⟨shard.nextGeneration key, { handle, rooms := ∅, user }⟩
  r.setShard k { slab := shard.slab.insert key slot, gens := shard.bump key }

/-- The registry with the slot of an id replaced, if the id is in use. -/
def setSlot (entry : Option Entry) : ShardedRegistry :=
  match shardOf id, r.find id with
  | some k, some _ =>
    let shard := r.shards k
    let key := (id.key).toNat
    match entry with
    | none => r.setShard k { shard with slab := shard.slab.erase key }
    | some e =>
      r.setShard k { shard with slab := shard.slab.insert key ⟨id.generation, e⟩ }
  | _, _ => r

/-- `Registry::remove_full` (lines 115–123). -/
def removeFull : Option (ConnHandle × OrdSet RoomId) × ShardedRegistry :=
  ((r.find id).map fun e => (e.handle, e.rooms), r.setSlot id none)

/-- The registry after the closure of `with_rooms` (lines 130–141) has changed
    the room set. -/
def setRooms (rooms : OrdSet RoomId) : ShardedRegistry :=
  match r.find id with
  | none => r
  | some e => r.setSlot id (some { e with rooms })

/-! ## Lookups -/

variable {r id id'}

theorem shardOf_eq_some {k : Fin shardCount} : shardOf id = some k ↔ id.shard.toNat = k := by
  unfold shardOf
  split_ifs with h
  · rw [Option.some.injEq, Fin.ext_iff]
  · constructor
    · intro hk
      cases hk
    · intro hk
      rw [hk] at h
      exact absurd k.isLt h

@[simp] theorem setShard_self (k : Fin shardCount) (shard : Shard) :
    (r.setShard k shard).shards k = shard := Function.update_self ..

theorem setShard_of_ne {k k' : Fin shardCount} (h : k' ≠ k) (shard : Shard) :
    (r.setShard k shard).shards k' = r.shards k' := Function.update_of_ne h ..

theorem find_of_shardOf {k : Fin shardCount} (h : shardOf id = some k) :
    r.find id = ((r.shards k).slab.lookup id.key.toNat).bind (checked id.generation) := by
  rw [find, h]

@[simp] theorem find_new : new.find id = none := by
  unfold find
  cases shardOf id <;> rfl

theorem exists_shardOf {e : Entry} (h : r.find id = some e) : ∃ k, shardOf id = some k := by
  rw [← Option.isSome_iff_exists]
  unfold find at h
  cases hid : shardOf id with
  | none =>
    rw [hid] at h
    cases h
  | some k => rfl

/-- Ids with the same shard and key are one id or of different generations. -/
theorem eq_of_slot {k : Fin shardCount} (h : shardOf id = some k) (h' : shardOf id' = some k)
    (hkey : id.key = id'.key) (hgeneration : id.generation = id'.generation) : id = id' := by
  rw [shardOf_eq_some] at h h'
  exact ConnectionId.ext_fields (UInt8.toNat.inj (h.trans h'.symm)) hgeneration hkey

theorem shardOf_issued (k : Fin shardCount) (key : ℕ) : shardOf (r.issued k key) = some k := by
  have hk : (k : ℕ) < 16 := k.isLt
  rw [shardOf_eq_some, issued, ConnectionId.shard_new, UInt8.toNat_ofNat']
  omega

theorem key_issued (k : Fin shardCount) {key : ℕ} (h : key < 2 ^ 32) :
    (r.issued k key).key.toNat = key := by
  rw [issued, ConnectionId.key_new, UInt32.toNat_ofNat']
  omega

theorem generation_issued (k : Fin shardCount) (key : ℕ) :
    (r.issued k key).generation = (r.shards k).nextGeneration key := by
  rw [issued, ConnectionId.generation_new, Shard.nextGeneration_and_generationMask]

/-- An id that is handed out is not in use. -/
theorem find_issued {k : Fin shardCount} {key : ℕ} (hkey : key < 2 ^ 32)
    (hvacant : (r.shards k).Vacant key) : r.find (r.issued k key) = none := by
  rw [find_of_shardOf (shardOf_issued k key), key_issued k hkey,
    AList.lookup_eq_none.mpr hvacant.1, Option.bind_none]

/-- One slot is replaced, and neither before nor after does it hold an entry of
    another generation than that of `id`. -/
theorem find_setShard {k : Fin shardCount} {shard : Shard} (hid : shardOf id = some k)
    (hother : ∀ key, key ≠ id.key.toNat → shard.slab.lookup key = (r.shards k).slab.lookup key)
    (hold : ∀ g ≠ id.generation,
      ((r.shards k).slab.lookup id.key.toNat).bind (checked g) = none)
    (hnew : ∀ g ≠ id.generation, (shard.slab.lookup id.key.toNat).bind (checked g) = none) :
    (r.setShard k shard).find id' =
      if id' = id then (shard.slab.lookup id.key.toNat).bind (checked id.generation)
      else r.find id' := by
  split_ifs with heq
  · rw [heq, find_of_shardOf hid, setShard_self]
  · cases hid' : shardOf id' with
    | none => rw [find, find, hid']
    | some k' =>
      rw [find_of_shardOf hid', find_of_shardOf hid']
      by_cases hk : k' = k
      · subst hk
        rw [setShard_self]
        by_cases hkey : id'.key.toNat = id.key.toNat
        · have hg : id'.generation ≠ id.generation := fun hg =>
            heq (eq_of_slot hid' hid (UInt32.toNat.inj hkey) hg)
          rw [hkey, hold _ hg, hnew _ hg]
        · rw [hother _ hkey]
      · rw [setShard_of_ne hk]

theorem checked_of_ne {slot : Slot} {g : UInt32} (h : g ≠ slot.generation) :
    checked g slot = none := if_neg (Ne.symm h)

/-- A slot that is found under `id` is found under no other generation. -/
theorem bind_checked_eq_none {slot : Option Slot} {g : UInt32} {e : Entry}
    (h : slot.bind (checked g) = some e) : ∀ g' ≠ g, slot.bind (checked g') = none := by
  intro g' hg'
  obtain ⟨s, rfl, hs⟩ := Option.bind_eq_some_iff.mp h
  have hgen : s.generation = g := by
    by_contra hne
    rw [checked_of_ne (Ne.symm hne)] at hs
    cases hs
  rw [Option.bind_some, checked_of_ne (hgen ▸ hg')]

theorem find_insert {k : Fin shardCount} {key : ℕ} (hkey : key < 2 ^ 32)
    (hvacant : (r.shards k).Vacant key) (handle : ConnHandle) (user : Option UserId) :
    (r.insert k key handle user).find id' =
      if id' = r.issued k key then some { handle, rooms := ∅, user } else r.find id' := by
  have hgen := r.generation_issued k key
  rw [insert, find_setShard (shardOf_issued k key)]
  · rw [key_issued k hkey, AList.lookup_insert, Option.bind_some, checked, if_pos hgen.symm]
  · intro key' hkey'
    rw [key_issued k hkey] at hkey'
    exact AList.lookup_insert_ne hkey'
  · intro g _
    rw [key_issued k hkey, AList.lookup_eq_none.mpr hvacant.1, Option.bind_none]
  · intro g hg
    rw [key_issued k hkey, AList.lookup_insert, Option.bind_some]
    exact checked_of_ne (hgen ▸ hg)

theorem find_setSlot (entry : Option Entry) (hid : (r.find id).isSome) :
    (r.setSlot id entry).find id' = if id' = id then entry else r.find id' := by
  obtain ⟨e, he⟩ := Option.isSome_iff_exists.mp hid
  obtain ⟨k, hk⟩ := exists_shardOf he
  have hold := bind_checked_eq_none (find_of_shardOf hk ▸ he)
  unfold setSlot
  rw [hk, he]
  dsimp only
  cases entry with
  | none =>
    rw [find_setShard hk (fun key hkey => AList.lookup_erase_ne hkey) hold]
    · rw [AList.lookup_erase, Option.bind_none]
    · intro g _
      rw [AList.lookup_erase, Option.bind_none]
  | some e' =>
    rw [find_setShard hk (fun key hkey => AList.lookup_insert_ne hkey) hold]
    · rw [AList.lookup_insert, Option.bind_some, checked, if_pos rfl]
    · intro g hg
      rw [AList.lookup_insert, Option.bind_some]
      exact checked_of_ne hg

theorem find_removeFull : (r.removeFull id).2.find id' =
    if id' = id then none else r.find id' := by
  show (r.setSlot id none).find id' = _
  cases hid : r.find id with
  | some e => exact find_setSlot none (by rw [hid]; rfl)
  | none =>
    have hsame : r.setSlot id none = r := by
      unfold setSlot
      rw [hid]
      cases shardOf id <;> rfl
    rw [hsame]
    split_ifs with h
    · rw [h, hid]
    · rfl

theorem find_setRooms (rooms : OrdSet RoomId) : (r.setRooms id rooms).find id' =
    if id' = id then (r.find id).map fun e => { e with rooms } else r.find id' := by
  unfold setRooms
  cases hid : r.find id with
  | some e => exact find_setSlot _ (by rw [hid]; rfl)
  | none =>
    dsimp only
    split_ifs with h
    · rw [h, hid]; rfl
    · rfl

/-! ## Room sets -/

theorem roomsAt_of_find {e : Entry} (h : r.find id = some e) : r.roomsAt id = e.rooms := by
  rw [roomsAt, h]

theorem roomsAt_of_find_eq_none (h : r.find id = none) : r.roomsAt id = ∅ := by rw [roomsAt, h]

theorem card_roomsAt_of_find_eq_none (h : r.find id = none) : (r.roomsAt id).card = 0 := by
  rw [roomsAt_of_find_eq_none h]
  rfl

theorem roomsAt_congr {r' : ShardedRegistry} (h : r'.find id = r.find id) :
    r'.roomsAt id = r.roomsAt id := by
  unfold roomsAt
  rw [h]

/-- A new connection is in no room, and an id that is not in use is in none. -/
theorem roomsAt_insert {k : Fin shardCount} {key : ℕ} (hkey : key < 2 ^ 32)
    (hvacant : (r.shards k).Vacant key) (handle : ConnHandle) (user : Option UserId) :
    (r.insert k key handle user).roomsAt id' = r.roomsAt id' := by
  have hfind := @find_insert r id' k key hkey hvacant handle user
  by_cases h : id' = r.issued k key
  · rw [if_pos h] at hfind
    rw [roomsAt_of_find hfind, h, roomsAt_of_find_eq_none (find_issued hkey hvacant)]
  · rw [if_neg h] at hfind
    exact roomsAt_congr hfind

theorem roomsAt_removeFull : (r.removeFull id).2.roomsAt id' =
    if id' = id then ∅ else r.roomsAt id' := by
  have hfind := @find_removeFull r id id'
  split_ifs with h
  · rw [if_pos h] at hfind
    exact roomsAt_of_find_eq_none hfind
  · rw [if_neg h] at hfind
    exact roomsAt_congr hfind

theorem roomsAt_setRooms {e : Entry} (he : r.find id = some e) (rooms : OrdSet RoomId) :
    (r.setRooms id rooms).roomsAt id' = if id' = id then rooms else r.roomsAt id' := by
  have hfind := @find_setRooms r id id' rooms
  split_ifs with h
  · rw [if_pos h, he] at hfind
    rw [roomsAt_of_find hfind]
  · rw [if_neg h] at hfind
    exact roomsAt_congr hfind

end ShardedRegistry

end BeamSocket.Core
