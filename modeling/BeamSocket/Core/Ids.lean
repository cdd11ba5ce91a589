import BeamSocket.Lib.OrdSet
import BeamSocket.Mesh.Interest
import Mathlib.Data.Prod.Lex

/-!
# Identifiers

Model of `crates/core/src/ids.rs` and of `NodeConnId`
(`crates/core/src/cluster.rs`, lines 36–41). Room and user ids are the strings
they wrap. A connection id is unique on its node only; `NodeConnId` is unique in
the cluster, and is ordered by node first.

* `ConnectionId.shard_new`, `generation_new`, `key_new`: the three fields are
  read back; `ConnectionId.ext_fields`: they determine the id.
-/

namespace BeamSocket.Core

open BeamSocket.Lib BeamSocket.Mesh

/-- `struct ConnectionId(pub u64)`. -/
abbrev ConnectionId := UInt64

/-- `struct RoomId(pub String)`. -/
abbrev RoomId := String

/-- `struct UserId(pub String)`. -/
abbrev UserId := String

/-- `GENERATION_MASK`. -/
def generationMask : UInt32 := (1 : UInt32) <<< (24 : UInt32) - 1

/-- `ConnectionId::new` (lines 25–28): shard in the top byte, then 24 bits of
    generation, then the slab key. -/
def ConnectionId.new (shard : UInt8) (generation key : UInt32) : ConnectionId :=
  shard.toUInt64 <<< 56 ||| (generation &&& generationMask).toUInt64 <<< 32 ||| key.toUInt64

namespace ConnectionId

variable (id : ConnectionId) (s : UInt8) (g k : UInt32)

/-- `ConnectionId::shard`. -/
def shard : UInt8 := (id >>> 56).toUInt8

/-- `ConnectionId::generation`. -/
def generation : UInt32 := (id >>> 32).toUInt32 &&& generationMask

/-- `ConnectionId::key`. -/
def key : UInt32 := id.toUInt32

theorem toNat_and_generationMask (g : UInt32) :
    (g &&& generationMask).toNat = g.toNat % 2 ^ 24 := by
  have hmask : generationMask.toNat = 2 ^ 24 - 1 := rfl
  rw [UInt32.toNat_and, hmask, Nat.and_two_pow_sub_one_eq_mod]

theorem toNat_shard : (shard id).toNat = id.toNat / 2 ^ 56 := by
  have hlt := id.toNat_lt
  rw [shard, UInt64.toNat_toUInt8, UInt64.toNat_shiftRight]
  show id.toNat >>> 56 % 2 ^ 8 = _
  rw [Nat.shiftRight_eq_div_pow]
  omega

theorem toNat_generation : (generation id).toNat = id.toNat / 2 ^ 32 % 2 ^ 24 := by
  rw [generation, toNat_and_generationMask, UInt64.toNat_toUInt32, UInt64.toNat_shiftRight]
  show id.toNat >>> 32 % 2 ^ 32 % 2 ^ 24 = _
  rw [Nat.shiftRight_eq_div_pow]
  omega

theorem toNat_key : (key id).toNat = id.toNat % 2 ^ 32 := UInt64.toNat_toUInt32 id

theorem toNat_new :
    (new s g k).toNat = s.toNat * 2 ^ 56 + g.toNat % 2 ^ 24 * 2 ^ 32 + k.toNat := by
  have hs := s.toNat_lt
  have hk := k.toNat_lt
  have hg : g.toNat % 2 ^ 24 < 2 ^ 24 := Nat.mod_lt _ (by decide)
  have h56 : UInt64.toNat 56 % 64 = 56 := rfl
  have h32 : UInt64.toNat 32 % 64 = 32 := rfl
  rw [new, UInt64.toNat_or, UInt64.toNat_or, UInt64.toNat_shiftLeft, UInt64.toNat_shiftLeft,
    UInt8.toNat_toUInt64, UInt32.toNat_toUInt64, UInt32.toNat_toUInt64, toNat_and_generationMask,
    h56, h32, Nat.shiftLeft_eq, Nat.shiftLeft_eq, Nat.mod_eq_of_lt (by omega),
    Nat.mod_eq_of_lt (by omega)]
  -- the fields do not overlap, so each `or` is a sum
  have hhigh : s.toNat * 2 ^ 56 ||| g.toNat % 2 ^ 24 * 2 ^ 32 =
      (s.toNat * 2 ^ 24 + g.toNat % 2 ^ 24) * 2 ^ 32 := by
    rw [← Nat.shiftLeft_eq, ← Nat.shiftLeft_add_eq_or_of_lt (by omega), Nat.shiftLeft_eq]
    omega
  rw [hhigh, ← Nat.shiftLeft_eq, ← Nat.shiftLeft_add_eq_or_of_lt (by omega), Nat.shiftLeft_eq]
  omega

@[simp] theorem shard_new : shard (new s g k) = s := by
  have hk := k.toNat_lt
  apply UInt8.toNat.inj
  rw [toNat_shard, toNat_new]
  omega

@[simp] theorem generation_new : generation (new s g k) = g &&& generationMask := by
  have hk := k.toNat_lt
  apply UInt32.toNat.inj
  rw [toNat_generation, toNat_new, toNat_and_generationMask]
  omega

@[simp] theorem key_new : key (new s g k) = k := by
  have hk := k.toNat_lt
  apply UInt32.toNat.inj
  rw [toNat_key, toNat_new]
  omega

/-- An id is its three fields. -/
theorem ext_fields {id id' : ConnectionId} (hshard : shard id = shard id')
    (hgeneration : generation id = generation id') (hkey : key id = key id') : id = id' := by
  have hs := congrArg UInt8.toNat hshard
  have hg := congrArg UInt32.toNat hgeneration
  have hk := congrArg UInt32.toNat hkey
  rw [toNat_shard, toNat_shard] at hs
  rw [toNat_generation, toNat_generation] at hg
  rw [toNat_key, toNat_key] at hk
  have hlt := id.toNat_lt
  have hlt' := id'.toNat_lt
  apply UInt64.toNat.inj
  omega

end ConnectionId

/-- `struct NodeConnId`; the source calls the second field `local`. -/
@[ext] structure NodeConnId where
  node : NodeId
  conn : ConnectionId
  deriving Repr

theorem NodeConnId.toLex_injective :
    Function.Injective fun i : NodeConnId => toLex (i.node, i.conn) := by
  intro i j h
  have h' : (i.node, i.conn) = (j.node, j.conn) := h
  obtain ⟨hnode, hconn⟩ := Prod.mk.inj h'
  exact NodeConnId.ext hnode hconn

instance : LinearOrder NodeConnId :=
  LinearOrder.lift' (fun i => toLex (i.node, i.conn)) NodeConnId.toLex_injective

end BeamSocket.Core
