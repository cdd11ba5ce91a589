import BeamSocket.Core.Engine
import BeamSocket.Lib.Access
import BeamSocket.Lib.TopN

/-!
# The two bounded reports

Model of `top_rooms` (`crates/core/src/rooms.rs`, lines 46–71 and 148–170) and of
`backpressure_report` (`crates/core/src/engine.rs`, lines 100–120, 143–162 and 681–712). Both walk
over a map in the order in which it is iterated and keep the first `n` entries on a heap. The heap
is any that does what is documented of `BinaryHeap`, and the iteration order is any. Both ask for a
heap with room for `n + 1` entries before they read anything; where there is none, they do not
return.

* `RoomStat.ranking_eq`, `MailboxStat.ranking_eq`: the order of the heap is the order of the report,
  reversed.
* `top_n_exact`: both reports are the beginning of the full sort.
* `requestable_of_clampTopN`: the binding asks for heaps with room for at most 101 entries.
-/

namespace BeamSocket.Core

open BeamSocket.Lib

/-- `with_capacity(n + 1)` returns, if it is called. The sum is that of a release build. -/
def Requestable {α : Type} {cmp : α → α → Ordering} (heap : HeapApi cmp) (n : UInt64) : Prop :=
  n = 0 ∨ (heap.withCapacity (n + 1).toNat).isSome

/-! ## Rooms -/

/-- `struct RoomStat` (lines 49–54). -/
structure RoomStat where
  room : RoomId
  members : ℕ
  messages : ℕ
  deriving DecidableEq

namespace RoomStat

/-- `RoomStat::cmp` (lines 56–64). A smaller name compares as greater. -/
def cmp (self other : RoomStat) : Ordering :=
  ((compare self.members other.members).then (compare self.messages other.messages)).then
    (compare (asBytes other.room) (asBytes self.room))

/-- Members descending, then messages descending, then the name ascending. -/
def ranking (a b : RoomStat) : Ordering :=
  (compare b.members a.members).then
    ((compare b.messages a.messages).then (compare (asBytes a.room) (asBytes b.room)))

theorem ranking_eq : ranking = reversed cmp := by
  funext a b
  exact (Ordering.then_assoc ..).symm

instance : Std.TransCmp cmp :=
  inferInstanceAs (Std.TransCmp (compareLex
    (compareLex (compareOn RoomStat.members) (compareOn RoomStat.messages))
    fun a b => compareOn (fun s => asBytes s.room) b a))

theorem eq_of_cmp_eq {a b : RoomStat} (h : cmp a b = .eq) : a = b := by
  unfold cmp at h
  rw [Ordering.then_eq_eq, Ordering.then_eq_eq] at h
  obtain ⟨⟨hmembers, hmessages⟩, hroom⟩ := h
  have hbytes := Std.LawfulEqCmp.eq_of_compare hroom
  have hname : b.room = a.room := by
    have hb := fromUtf8_asBytes b.room
    rw [hbytes, fromUtf8_asBytes] at hb
    exact (Option.some.inj hb).symm
  cases a
  cases b
  dsimp only at hname hmembers hmessages
  rw [hname, Std.LawfulEqCmp.eq_of_compare hmembers, Std.LawfulEqCmp.eq_of_compare hmessages]

end RoomStat

namespace RoomRegistry

variable {κ : Type*} [LinearOrder κ]

/-- What is read of an entry (lines 156–160). -/
def stat (entry : Σ _ : RoomId, RoomEntry κ) : RoomStat where
  room := entry.1
  members := entry.2.members.card
  messages := entry.2.messages

/-- `top_rooms` (lines 148–170) over the entries in the order of `iter`; `none` if it does not
    return. -/
def topRooms (heap : HeapApi (reversed RoomStat.cmp)) (iter : List (Σ _ : RoomId, RoomEntry κ))
    (n : UInt64) : Option (List RoomStat) :=
  if n = 0 then some []
  else (heap.select n.toNat (n + 1).toNat (iter.map stat)).map (sortBy fun a b => b.cmp a)

/-- What `top_rooms` keeps at each moment of its loop (lines 155–167). -/
def topRoomsKept (heap : HeapApi (reversed RoomStat.cmp)) (iter : List (Σ _ : RoomId, RoomEntry κ))
    (n : UInt64) : List (List RoomStat) :=
  if n = 0 then [[]] else heap.candidates n.toNat (n + 1).toNat (iter.map stat)

end RoomRegistry

/-! ## Mailboxes -/

/-- `struct MailboxStat` (lines 103–109). -/
structure MailboxStat where
  id : ConnectionId
  user : Option UserId
  depthBytes : ℕ
  hwmBytes : ℕ
  hwmPercent : Float

/-- `struct BackpressureReport` (lines 115–118). -/
structure BackpressureReport where
  totalDrops : ℕ
  mailboxes : List MailboxStat

namespace MailboxStat

/-- `ByDepth::cmp` (lines 150–156). A smaller id compares as greater. -/
def cmp (self o : MailboxStat) : Ordering :=
  (compare self.depthBytes o.depthBytes).then (compare o.id self.id)

/-- The comparison of the final sort (line 706): depth descending, then the id ascending. -/
def ranking (a b : MailboxStat) : Ordering :=
  (compare b.depthBytes a.depthBytes).then (compare a.id b.id)

theorem ranking_eq : ranking = reversed cmp := rfl

instance : Std.TransCmp cmp :=
  inferInstanceAs (Std.TransCmp (compareLex (compareOn MailboxStat.depthBytes)
    fun a b => compareOn MailboxStat.id b a))

theorem id_eq_of_cmp_eq {a b : MailboxStat} (h : cmp a b = .eq) : a.id = b.id := by
  unfold cmp at h
  rw [Ordering.then_eq_eq] at h
  exact (Std.LawfulEqCmp.eq_of_compare h.2).symm

end MailboxStat

namespace Registry

/-- What is read of a connection (lines 687–699). -/
def mailboxStat (hwm : ℕ) (entry : Σ _ : ConnectionId, Entry) : MailboxStat where
  id := entry.1
  user := entry.2.user
  depthBytes := entry.2.handle.mailbox.bytes
  hwmBytes := hwm
  hwmPercent := if hwm > 0 then entry.2.handle.mailbox.bytes.toFloat / hwm.toFloat * 100 else 0

/-- `backpressure_report` (lines 681–712) over the entries in the order of `iter`; `drops` is the
    global counter. It is `none` if it does not return. -/
def backpressureReport (config : EngineConfig) (drops : ℕ)
    (heap : HeapApi (reversed MailboxStat.cmp)) (iter : List (Σ _ : ConnectionId, Entry))
    (topN : UInt64) : Option BackpressureReport :=
  if topN > 0 then
    (heap.select topN.toNat (topN + 1).toNat (iter.map (mailboxStat config.highWaterMark))).map
      fun kept => ⟨drops, sortBy MailboxStat.ranking kept⟩
  else some ⟨drops, []⟩

/-- What `backpressure_report` keeps at each moment of its loop (lines 685–704). -/
def backpressureKept (config : EngineConfig) (heap : HeapApi (reversed MailboxStat.cmp))
    (iter : List (Σ _ : ConnectionId, Entry)) (topN : UInt64) : List (List MailboxStat) :=
  if topN > 0 then
    heap.candidates topN.toNat (topN + 1).toNat (iter.map (mailboxStat config.highWaterMark))
  else [[]]

end Registry

/-! ## What they list -/

section

variable {κ : Type*} [LinearOrder κ]

theorem topRooms_eq (heap : HeapApi (reversed RoomStat.cmp)) (rooms : RoomRegistry κ)
    {iter : List (Σ _ : RoomId, RoomEntry κ)} (hiter : iter.Perm rooms.entries) {n : UInt64}
    (hn : Requestable heap n) :
    RoomRegistry.topRooms heap iter n =
      some ((sortBy RoomStat.ranking (rooms.entries.map RoomRegistry.stat)).take n.toNat) := by
  unfold RoomRegistry.topRooms
  by_cases hzero : n = 0
  · rw [if_pos hzero, hzero]
    rfl
  · rw [if_neg hzero, RoomStat.ranking_eq]
    refine map_sortBy_select heap n.toNat (hn.resolve_left hzero) (hiter.map _) ?_
    intro a _ b _ heq
    exact (RoomStat.eq_of_cmp_eq heq).symm

theorem backpressureReport_eq (config : EngineConfig) (drops : ℕ)
    (heap : HeapApi (reversed MailboxStat.cmp)) (conns : Registry ConnectionId)
    {iter : List (Σ _ : ConnectionId, Entry)} (hiter : iter.Perm conns.entries) {n : UInt64}
    (hn : Requestable heap n) :
    Registry.backpressureReport config drops heap iter n =
      some ⟨drops, (sortBy MailboxStat.ranking
        (conns.entries.map (Registry.mailboxStat config.highWaterMark))).take n.toNat⟩ := by
  unfold Registry.backpressureReport
  by_cases hzero : n = 0
  · rw [hzero]
    rfl
  · have hselect := map_sortBy_select heap n.toNat (hn.resolve_left hzero)
      (hiter.map (Registry.mailboxStat config.highWaterMark)) ?_
    · rw [if_pos (UInt64.pos_iff_ne_zero.mpr hzero), MailboxStat.ranking_eq]
      have hreport := congrArg (Option.map (BackpressureReport.mk drops)) hselect
      rw [Option.map_map] at hreport
      exact hreport
    · intro a ha b hb heq
      obtain ⟨x, hx, rfl⟩ := List.mem_map.mp ha
      obtain ⟨y, hy, rfl⟩ := List.mem_map.mp hb
      -- The ids are those of the two entries, and no two entries have one id.
      rw [conns.nodupKeys.eq_of_fst_eq hx hy (MailboxStat.id_eq_of_cmp_eq heq).symm]

/-- The report is what is kept at the end, sorted, and there are never more than `n + 1`. -/
theorem topRoomsKept_spec (heap : HeapApi (reversed RoomStat.cmp))
    (iter : List (Σ _ : RoomId, RoomEntry κ)) (n : UInt64) :
    RoomRegistry.topRooms heap iter n =
        (RoomRegistry.topRoomsKept heap iter n).getLast?.map (sortBy RoomStat.ranking) ∧
      ∀ kept ∈ RoomRegistry.topRoomsKept heap iter n, kept.length ≤ n.toNat + 1 := by
  unfold RoomRegistry.topRooms RoomRegistry.topRoomsKept
  by_cases hzero : n = 0
  · rw [if_pos hzero, if_pos hzero]
    refine ⟨by simp, ?_⟩
    intro kept hkept
    rw [List.mem_singleton.mp hkept]
    exact Nat.zero_le _
  · rw [if_neg hzero, if_neg hzero, getLast?_candidates, RoomStat.ranking_eq]
    exact ⟨rfl, fun kept hkept => length_le_of_mem_candidates heap n.toNat hkept⟩

theorem backpressureKept_spec (config : EngineConfig) (drops : ℕ)
    (heap : HeapApi (reversed MailboxStat.cmp)) (iter : List (Σ _ : ConnectionId, Entry))
    (n : UInt64) :
    Registry.backpressureReport config drops heap iter n =
        (Registry.backpressureKept config heap iter n).getLast?.map
          (fun kept => ⟨drops, sortBy MailboxStat.ranking kept⟩) ∧
      ∀ kept ∈ Registry.backpressureKept config heap iter n, kept.length ≤ n.toNat + 1 := by
  unfold Registry.backpressureReport Registry.backpressureKept
  by_cases hpos : n > 0
  · rw [if_pos hpos, if_pos hpos, getLast?_candidates]
    exact ⟨rfl, fun kept hkept => length_le_of_mem_candidates heap n.toNat hkept⟩
  · rw [if_neg hpos, if_neg hpos]
    refine ⟨by simp, ?_⟩
    intro kept hkept
    rw [List.mem_singleton.mp hkept]
    exact Nat.zero_le _

end

/-! ## What the binding asks for -/

/-- `clamp_top_n` (`crates/node/src/binding.rs`, lines 942–949). -/
def clampTopN (n : Int32) : Except String UInt64 :=
  if n ≤ 0 then .error s!"topN must be a positive integer (got {n})"
  else .ok (min n.toInt.toNat 100).toUInt64

/-- The binding passes on between 1 and 100. -/
theorem requestable_of_clampTopN {α : Type} {cmp : α → α → Ordering} {heap : HeapApi cmp}
    (hroom : ∀ capacity ≤ 101, (heap.withCapacity capacity).isSome) {n : Int32} {k : UInt64}
    (h : clampTopN n = .ok k) : Requestable heap k := by
  unfold clampTopN at h
  split_ifs at h
  cases h
  have hk : (min n.toInt.toNat 100).toUInt64.toNat ≤ 100 := by
    rw [Nat.toUInt64_eq, UInt64.toNat_ofNat']
    exact (Nat.mod_le ..).trans (min_le_right ..)
  refine .inr (hroom _ ?_)
  rw [UInt64.toNat_add]
  exact (Nat.mod_le ..).trans (Nat.succ_le_succ hk)

namespace Reported

/-- Three rooms; the last two differ in their names only. -/
def rooms : RoomRegistry ConnectionId :=
  ((AList.insert "den" ⟨OrdSet.ofList [7], 3⟩ ∅ : RoomRegistry ConnectionId).insert "lobby"
    ⟨OrdSet.ofList [7, 8], 1⟩).insert "attic" ⟨OrdSet.ofList [7, 9], 1⟩

/-- A connection of nobody, with one frame queued for it. -/
def entry (frame : Bytes) : Entry :=
  Entry.push ⟨.new 65536 .disconnect, ∅, none⟩ ⟨frame, false⟩

/-- Two connections; more is queued for the second. -/
def conns : Registry ConnectionId :=
  (AList.insert 7 (entry [1]) ∅ : Registry ConnectionId).insert 8 (entry [1, 2])

/-- Memory for 101 rooms. -/
def roomHeap : HeapApi (reversed RoomStat.cmp) := sortingHeap _ 101

/-- Memory for 101 mailboxes. -/
def mailboxHeap : HeapApi (reversed MailboxStat.cmp) := sortingHeap _ 101

/-- Without memory for the heap nothing is returned, not even where there is nothing to report. -/
example : RoomRegistry.topRooms roomHeap ([] : List (Σ _ : RoomId, RoomEntry ConnectionId)) 101 =
    none := rfl

end Reported

end BeamSocket.Core
