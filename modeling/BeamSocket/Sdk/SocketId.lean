import BeamSocket.Core.Ids
import BeamSocket.Lib.Numeral

/-!
# Socket ids

Model of `packages/beamsocket/src/ids.ts`, and of the halves in which the native
layer hands connection ids to JavaScript (`conn_id`, `crates/node/src/binding.rs`,
lines 288–296).

* `decodeSocketId_encodeSocketId`: a socket id is read back with its node, if it
  has one, on every JavaScript implementation.
* `encodeSocketId_inj`: a socket id is of one connection of one node.
* `connId_halves`: the two halves make up the connection id.
-/

namespace BeamSocket.Sdk

open BeamSocket.Lib BeamSocket.Mesh BeamSocket.Core

/-- What `decodeSocketId` returns. -/
structure ParsedId where
  node : Option ℕ
  hi : ℕ
  lo : ℕ
  deriving DecidableEq, Repr

/-- `encodeSocketId` (lines 21–24). -/
def encodeSocketId (hi lo : UInt32) (node : Option NodeId) : String :=
  let base := numeral 36 hi.toNat ++ '-' :: numeral 36 lo.toNat
  match node with
  | none => String.ofList base
  | some node => String.ofList (numeral 36 node.toNat ++ '-' :: base)

/-- `nonNeg` (lines 13–15): an integer, hence not `NaN` or `Infinity`, that is not negative. -/
def nonNeg : Number → Bool
  | .int n => 0 ≤ n
  | _ => false

/-- A segment that passes `nonNeg`. -/
def parseSegment (js : ParseIntApi 36) (s : List Char) : Option ℕ :=
  match parseInt js s with
  | .int n => if nonNeg (.int n) then some n.toNat else none
  | _ => none

/-- `decodeSocketId` (lines 31–47). -/
def decodeSocketId (js : ParseIntApi 36) (id : String) : Option ParsedId :=
  match id.toList.splitOn '-' with
  | [hi, lo] => do
    let hi ← parseSegment js hi
    let lo ← parseSegment js lo
    some ⟨none, hi, lo⟩
  | [node, hi, lo] => do
    let node ← parseSegment js node
    let hi ← parseSegment js hi
    let lo ← parseSegment js lo
    some ⟨some node, hi, lo⟩
  | _ => none

theorem parseSegment_numeral (js : ParseIntApi 36) {n : ℕ} (h : n < 2 ^ 53) :
    parseSegment js (numeral 36 n) = some n := by
  have hnonNeg : nonNeg (.int n) = true := decide_eq_true (Int.natCast_nonneg n)
  unfold parseSegment
  rw [parseInt_numeral js (by decide) (by decide) h]
  dsimp only
  rw [if_pos hnonNeg, Int.toNat_natCast]

/-- Numerals joined by dashes are taken apart at the dashes. -/
theorem splitOn_numerals (ns : List ℕ) (h : ns ≠ []) :
    (['-'].intercalate (ns.map (numeral 36))).splitOn '-' = ns.map (numeral 36) := by
  refine List.splitOn_intercalate '-' ?_ (by simpa using h)
  intro l hl
  obtain ⟨n, -, rfl⟩ := List.mem_map.mp hl
  exact notMem_numeral (by decide) (by decide) n (by decide)

theorem splitOn_encodeSocketId (hi lo : UInt32) (node : Option NodeId) :
    (encodeSocketId hi lo node).toList.splitOn '-' =
      (node.toList.map UInt16.toNat ++ [hi.toNat, lo.toNat]).map (numeral 36) := by
  rw [← splitOn_numerals _ (by simp)]
  cases node with
  | none => simp [encodeSocketId, List.intercalate]
  | some node => simp [encodeSocketId, List.intercalate]

theorem encodeSocketId_inj {hi lo hi' lo' : UInt32} {node node' : Option NodeId}
    (h : encodeSocketId hi lo node = encodeSocketId hi' lo' node') :
    node = node' ∧ hi = hi' ∧ lo = lo' := by
  have hsegs := congrArg (fun s => s.toList.splitOn '-') h
  rw [splitOn_encodeSocketId, splitOn_encodeSocketId] at hsegs
  have hinj : Function.Injective (numeral 36) := fun _ _ =>
    numeral_inj (by decide) (by decide)
  have hnumbers := List.map_injective_iff.mpr hinj hsegs
  obtain ⟨hnode, hhalves⟩ := List.append_inj' hnumbers rfl
  obtain ⟨hhi, hlo⟩ := List.cons.inj hhalves
  refine ⟨?_, UInt32.toNat.inj hhi, UInt32.toNat.inj (List.cons.inj hlo).1⟩
  cases node with
  | none =>
    cases node' with
    | none => rfl
    | some _ => cases hnode
  | some k =>
    cases node' with
    | none => cases hnode
    | some k' => exact congrArg some (UInt16.toNat_inj.mp (List.cons.inj hnode).1)

theorem decodeSocketId_encodeSocketId (js : ParseIntApi 36) (hi lo : UInt32)
    (node : Option NodeId) :
    decodeSocketId js (encodeSocketId hi lo node) =
      some ⟨node.map UInt16.toNat, hi.toNat, lo.toNat⟩ := by
  have hhi : hi.toNat < 2 ^ 53 := lt_trans hi.toNat_lt (by decide)
  have hlo : lo.toNat < 2 ^ 53 := lt_trans lo.toNat_lt (by decide)
  unfold decodeSocketId
  rw [splitOn_encodeSocketId]
  cases node with
  | none => simp [parseSegment_numeral js hhi, parseSegment_numeral js hlo]
  | some node =>
    have hnode : node.toNat < 2 ^ 53 := lt_trans node.toNat_lt (by decide)
    simp [parseSegment_numeral js hnode, parseSegment_numeral js hhi, parseSegment_numeral js hlo]

/-! ## Halves of a connection id -/

/-- `conn_id` (`binding.rs`, lines 288–296). -/
def connId (hi lo : UInt32) : ConnectionId := hi.toUInt64 <<< 32 ||| lo.toUInt64

/-- The upper half of an id, `(id >> 32) as u32`. -/
def idHi (id : ConnectionId) : UInt32 := (id >>> 32).toUInt32

/-- The lower half of an id, `id as u32`. -/
def idLo (id : ConnectionId) : UInt32 := id.toUInt32

theorem toNat_idHi (id : ConnectionId) : (idHi id).toNat = id.toNat / 4294967296 := by
  have hlt := id.toNat_lt
  rw [idHi, UInt64.toNat_toUInt32, UInt64.toNat_shiftRight]
  show id.toNat >>> 32 % 2 ^ 32 = _
  rw [Nat.shiftRight_eq_div_pow]
  omega

theorem toNat_idLo (id : ConnectionId) : (idLo id).toNat = id.toNat % 4294967296 :=
  UInt64.toNat_toUInt32 id

theorem toNat_connId (hi lo : UInt32) :
    (connId hi lo).toNat = hi.toNat * 4294967296 + lo.toNat := by
  have hshift : (UInt64.toNat 32) % 64 = 32 := rfl
  have hhi := hi.toNat_lt
  have hlo := lo.toNat_lt
  rw [connId, UInt64.toNat_or, UInt64.toNat_shiftLeft, UInt32.toNat_toUInt64, UInt32.toNat_toUInt64,
    hshift, Nat.shiftLeft_eq, Nat.mod_eq_of_lt (by omega), ← Nat.shiftLeft_eq,
    ← Nat.shiftLeft_add_eq_or_of_lt hlo, Nat.shiftLeft_eq]

theorem connId_halves (id : ConnectionId) : connId (idHi id) (idLo id) = id := by
  apply UInt64.toNat.inj
  rw [toNat_connId, toNat_idHi, toNat_idLo]
  omega

theorem connId_inj {hi lo hi' lo' : UInt32} (h : connId hi lo = connId hi' lo') :
    hi = hi' ∧ lo = lo' := by
  have heq := congrArg UInt64.toNat h
  rw [toNat_connId, toNat_connId] at heq
  have hlo := lo.toNat_lt
  have hlo' := lo'.toNat_lt
  exact ⟨UInt32.toNat.inj (by omega), UInt32.toNat.inj (by omega)⟩

end BeamSocket.Sdk
