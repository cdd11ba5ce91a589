import BeamSocket.Core.Registry

/-!
# Rooms

Model of `crates/core/src/rooms.rs`: the room index with its member sets and
message counters, and the membership operations, which keep the room set of the
connection and the member set of the room in step. Like the registry it is over
any type `κ` of connection ids. `join` and `leave` run under the connection's
shard lock and are one step here.

* `RoomRegistry.join_cases`, `leave_cases`: what the two report and do.
* `RoomRegistry.memberSet_addMember`, `memberSet_removeMember`,
  `memberSet_disconnectCleanup`: the members of every room afterwards.
* `RoomRegistry.removeMember_eq`: `remove_member` in two halves.
* `RoomRegistry.closeRoom_of_memberCount_eq_zero`: closing an empty room.
-/

namespace BeamSocket.Core

open BeamSocket.Lib

/-- `struct RoomEntry` (lines 41–44). -/
structure RoomEntry (κ : Type*) [LinearOrder κ] where
  members : OrdSet κ
  messages : ℕ

/-- `struct RoomRegistry`. -/
abbrev RoomRegistry (κ : Type*) [LinearOrder κ] := AList fun _ : RoomId => RoomEntry κ

/-- `enum MembershipChange` (lines 80–90). -/
inductive MembershipChange
  | changed
  | noOp
  | notFound
  | limitExceeded
  deriving DecidableEq, Repr

namespace RoomRegistry

variable {κ : Type*} [LinearOrder κ] (rooms : RoomRegistry κ) (conns : Registry κ)

/-- The member set of a room; empty without an entry. -/
def memberSet (room : RoomId) : OrdSet κ :=
  match rooms.lookup room with
  | none => ∅
  | some e => e.members

/-- `members` (lines 105–109). -/
def members (room : RoomId) : Option (List κ) :=
  (rooms.lookup room).map fun e => e.members.toList

/-- `record_and_members` (lines 115–120): the members, and the room's message
    counter advanced. -/
def recordAndMembers (room : RoomId) : Option (List κ × RoomRegistry κ) :=
  (rooms.lookup room).map fun e =>
    (e.members.toList, rooms.insert room { e with messages := e.messages + 1 })

/-- `info(room).members`, also `member_count`. -/
def memberCount (room : RoomId) : ℕ := (rooms.memberSet room).card

/-- `self.rooms.entry(room).or_default().members.insert(id)`. -/
def addMember (room : RoomId) (id : κ) : RoomRegistry κ :=
  let e := (rooms.lookup room).getD ⟨∅, 0⟩
  rooms.insert room { e with members := e.members.insert id }

/-- `remove_member` (lines 248–258): a room that becomes empty is destroyed. -/
def removeMember (room : RoomId) (id : κ) : RoomRegistry κ :=
  match rooms.lookup room with
  | none => rooms
  | some e =>
    if e.members.erase id = ∅ then rooms.erase room
    else rooms.insert room { e with members := e.members.erase id }

/-- The first half of `remove_member`, under the entry guard: the member is
    removed, and whether the room is now empty. -/
def dropMember (room : RoomId) (id : κ) : RoomRegistry κ × Bool :=
  match rooms.lookup room with
  | none => (rooms, false)
  | some e =>
    (rooms.insert room { e with members := e.members.erase id }, decide (e.members.erase id = ∅))

/-- The second half, `remove_if`: the room is destroyed if it is empty. -/
def destroyIfEmpty (room : RoomId) : RoomRegistry κ :=
  match rooms.lookup room with
  | none => rooms
  | some e => if e.members = ∅ then rooms.erase room else rooms

/-- `join` (lines 176–199). -/
def join (id : κ) (room : RoomId) (maxRooms : ℕ) :
    RoomRegistry κ × Registry κ × MembershipChange :=
  match conns.roomsOf id with
  | none => (rooms, conns, .notFound)
  | some set =>
    if room ∈ set then (rooms, conns, .noOp)
    else if maxRooms ≠ 0 ∧ set.card ≥ maxRooms then (rooms, conns, .limitExceeded)
    else (rooms.addMember room id, conns.setRooms id (set.insert room), .changed)

/-- `leave` (lines 202–214). -/
def leave (id : κ) (room : RoomId) : RoomRegistry κ × Registry κ × MembershipChange :=
  match conns.roomsOf id with
  | none => (rooms, conns, .notFound)
  | some set =>
    if room ∈ set then
      (rooms.removeMember room id, conns.setRooms id (set.erase room), .changed)
    else (rooms, conns, .noOp)

/-- The loop of `close_room`, with the number of memberships removed. -/
def closeLoop (room : RoomId) (st : RoomRegistry κ × Registry κ × ℕ) (id : κ) :
    RoomRegistry κ × Registry κ × ℕ :=
  let (rooms, conns, change) := st.1.leave st.2.1 id room
  (rooms, conns, if change = .changed then st.2.2 + 1 else st.2.2)

/-- `close_room` (lines 227–236). -/
def closeRoom (room : RoomId) : RoomRegistry κ × Registry κ × Option ℕ :=
  match rooms.members room with
  | none => (rooms, conns, none)
  | some ids =>
    let (rooms, conns, removed) := ids.foldl (closeLoop room) (rooms, conns, 0)
    (rooms, conns, some removed)

/-- `disconnect_cleanup` (lines 241–245). -/
def disconnectCleanup (id : κ) (joined : List RoomId) : RoomRegistry κ :=
  joined.foldl (fun rooms room => rooms.removeMember room id) rooms

/-! ## Members afterwards -/

theorem memberSet_insert (room room' : RoomId) (e : RoomEntry κ) :
    memberSet (rooms.insert room e) room' =
      if room' = room then e.members else rooms.memberSet room' := by
  rw [memberSet, lookup_insert]
  split_ifs <;> rfl

theorem memberSet_addMember (room room' : RoomId) (id : κ) :
    (rooms.addMember room id).memberSet room' =
      if room' = room then (rooms.memberSet room).insert id else rooms.memberSet room' := by
  rw [addMember, memberSet_insert]
  split_ifs
  · unfold memberSet
    cases rooms.lookup room <;> rfl
  · rfl

theorem memberSet_removeMember (room room' : RoomId) (id : κ) :
    (rooms.removeMember room id).memberSet room' =
      if room' = room then (rooms.memberSet room).erase id else rooms.memberSet room' := by
  unfold removeMember
  cases he : rooms.lookup room with
  | none =>
    dsimp only
    split_ifs with h
    · rw [h, memberSet, he]; rfl
    · rfl
  | some e =>
    have hset : rooms.memberSet room = e.members := by rw [memberSet, he]
    dsimp only
    split_ifs with hempty h h
    · rw [memberSet, lookup_erase, if_pos h, hset, hempty]
    · rw [memberSet, lookup_erase, if_neg h]; rfl
    · rw [memberSet_insert, if_pos h, hset]
    · rw [memberSet_insert, if_neg h]

theorem dropMember_eq {room : RoomId} {e : RoomEntry κ} (h : rooms.lookup room = some e) (id : κ) :
    rooms.dropMember room id =
      (rooms.insert room { e with members := e.members.erase id },
        decide (e.members.erase id = ∅)) := by
  rw [dropMember, h]

/-- Without interruption the two halves are `remove_member`. -/
theorem removeMember_eq (room : RoomId) (id : κ) : rooms.removeMember room id =
    if (rooms.dropMember room id).2 then (rooms.dropMember room id).1.destroyIfEmpty room
    else (rooms.dropMember room id).1 := by
  unfold removeMember
  cases he : rooms.lookup room with
  | none =>
    rw [dropMember, he]
    rfl
  | some e =>
    rw [rooms.dropMember_eq he]
    dsimp only
    by_cases hempty : e.members.erase id = ∅
    · rw [if_pos hempty, if_pos (decide_eq_true hempty), destroyIfEmpty, AList.lookup_insert]
      dsimp only
      rw [if_pos hempty]
      apply AList.ext
      show rooms.entries.kerase room = List.kerase room (_ :: rooms.entries.kerase room)
      exact (List.kerase_cons_eq (s := ⟨room, _⟩) rfl).symm
    · rw [if_neg hempty, if_neg (by rw [decide_eq_true_eq]; exact hempty)]

theorem memberSet_dropMember (room room' : RoomId) (id : κ) :
    (rooms.dropMember room id).1.memberSet room' =
      if room' = room then (rooms.memberSet room).erase id else rooms.memberSet room' := by
  cases he : rooms.lookup room with
  | none =>
    rw [dropMember, he]
    dsimp only
    split_ifs with h
    · rw [h, memberSet, he]; rfl
    · rfl
  | some e =>
    have hset : rooms.memberSet room = e.members := by rw [memberSet, he]
    rw [rooms.dropMember_eq he, memberSet_insert, hset]

theorem memberSet_destroyIfEmpty (room room' : RoomId) :
    (rooms.destroyIfEmpty room).memberSet room' = rooms.memberSet room' := by
  unfold destroyIfEmpty
  cases he : rooms.lookup room with
  | none => rfl
  | some e =>
    dsimp only
    split_ifs with hempty
    · rw [memberSet, lookup_erase]
      split_ifs with h
      · rw [h, memberSet, he]
        exact hempty.symm
      · rfl
    · rfl

/-- The room has no entry without members. -/
def NonEmpty (room : RoomId) : Prop := ∀ e ∈ rooms.lookup room, e.members ≠ ∅

theorem nonEmpty_addMember {room room' : RoomId} (id : κ)
    (h : room' ≠ room → rooms.NonEmpty room') : (rooms.addMember room id).NonEmpty room' := by
  intro e he hempty
  rw [addMember, lookup_insert] at he
  split_ifs at he with heq
  · cases he
    have hmem : id ∈ (∅ : OrdSet κ) := hempty ▸ OrdSet.mem_insert.mpr (.inl rfl)
    exact OrdSet.notMem_empty hmem
  · exact h heq e he hempty

/-- Removing a member leaves its room empty only if it says so. -/
theorem nonEmpty_dropMember {room room' : RoomId} {id : κ} (h : rooms.NonEmpty room')
    (hempty : room' = room → (rooms.dropMember room id).2 = false) :
    (rooms.dropMember room id).1.NonEmpty room' := by
  cases hroom : rooms.lookup room with
  | none =>
    rw [dropMember, hroom]
    exact h
  | some e =>
    intro e' he'
    rw [rooms.dropMember_eq hroom] at he' hempty
    rw [lookup_insert] at he'
    split_ifs at he' with heq
    · cases he'
      exact of_decide_eq_false (hempty heq)
    · exact h e' he'

theorem nonEmpty_destroyIfEmpty {room room' : RoomId}
    (h : room' ≠ room → rooms.NonEmpty room') : (rooms.destroyIfEmpty room).NonEmpty room' := by
  intro e he
  unfold destroyIfEmpty at he
  cases hroom : rooms.lookup room with
  | none =>
    rw [hroom] at he
    apply h _ e he
    intro heq
    rw [heq, hroom] at he
    cases he
  | some e' =>
    rw [hroom] at he
    dsimp only at he
    split_ifs at he with hempty
    · rw [lookup_erase] at he
      split_ifs at he with heq
      · cases he
      · exact h heq e he
    · by_cases heq : room' = room
      · rw [heq, hroom] at he
        cases he
        exact hempty
      · exact h heq e he

theorem memberSet_disconnectCleanup (id : κ) (joined : List RoomId) (room : RoomId) :
    (rooms.disconnectCleanup id joined).memberSet room =
      if room ∈ joined then (rooms.memberSet room).erase id else rooms.memberSet room := by
  induction joined generalizing rooms with
  | nil => rfl
  | cons r joined ih =>
    rw [disconnectCleanup, List.foldl_cons, ← disconnectCleanup, ih, memberSet_removeMember]
    by_cases hr : room = r
    · subst hr
      have herase : ((rooms.memberSet room).erase id).erase id = (rooms.memberSet room).erase id :=
        OrdSet.erase_of_notMem (by simp)
      simp [herase]
    · simp [hr]

/-- `join` reports a change and adds the member, or it changes nothing. -/
theorem join_cases (id : κ) (room : RoomId) (maxRooms : ℕ) :
    ((rooms.join conns id room maxRooms).2.2 = .changed ∧
      (rooms.join conns id room maxRooms).1 = rooms.addMember room id) ∨
    ((rooms.join conns id room maxRooms).2.2 ≠ .changed ∧
      (rooms.join conns id room maxRooms).1 = rooms) := by
  unfold join
  cases conns.roomsOf id with
  | none => exact .inr ⟨by simp, rfl⟩
  | some set =>
    dsimp only
    split_ifs
    · exact .inr ⟨by simp, rfl⟩
    · exact .inr ⟨by simp, rfl⟩
    · exact .inl ⟨rfl, rfl⟩

/-- `leave` reports a change and removes the member, or it changes nothing. -/
theorem leave_cases (id : κ) (room : RoomId) :
    ((rooms.leave conns id room).2.2 = .changed ∧
      (rooms.leave conns id room).1 = rooms.removeMember room id) ∨
    ((rooms.leave conns id room).2.2 ≠ .changed ∧ (rooms.leave conns id room).1 = rooms) := by
  unfold leave
  cases conns.roomsOf id with
  | none => exact .inr ⟨by simp, rfl⟩
  | some set =>
    dsimp only
    split_ifs
    · exact .inl ⟨rfl, rfl⟩
    · exact .inr ⟨by simp, rfl⟩

/-- Closing a room without members does nothing. -/
theorem closeRoom_of_memberCount_eq_zero {room : RoomId} (h : rooms.memberCount room = 0) :
    (rooms.closeRoom conns room).1 = rooms ∧ (rooms.closeRoom conns room).2.1 = conns := by
  unfold closeRoom members
  cases he : rooms.lookup room with
  | none => exact ⟨rfl, rfl⟩
  | some e =>
    have hnil : e.members.toList = [] := by
      rw [memberCount, memberSet, he] at h
      exact List.length_eq_zero_iff.mp h
    simp [hnil]

theorem memberSet_recordAndMembers {room : RoomId} {ids : List κ} {rooms' : RoomRegistry κ}
    (h : rooms.recordAndMembers room = some (ids, rooms')) (room' : RoomId) :
    rooms'.memberSet room' = rooms.memberSet room' := by
  obtain ⟨e, he, heq⟩ := Option.map_eq_some_iff.mp h
  obtain ⟨-, rfl⟩ := Prod.mk.inj heq
  rw [memberSet_insert]
  split_ifs with hroom
  · rw [hroom, memberSet, he]
  · rfl

end RoomRegistry

end BeamSocket.Core
