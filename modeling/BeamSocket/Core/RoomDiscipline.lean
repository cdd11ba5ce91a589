import BeamSocket.Core.RoomTasks

/-!
# The discipline of the membership steps

What each task of `Core.RoomTasks` relies on between two of its steps, and what
it has left in disorder: a membership that one view has and the other has not
yet, or an empty entry that is about to be removed. A `join` or `leave` is alone
with the room set of its connection, because it holds the mutex; a sweep is alone
with the memberships of its connection, because the id is not in use.

* `RoomTask.step_disciplined`: every step keeps to the discipline, if it does not
  hand out an id that is still being swept.
* `RoomTask.limited_step`: no step takes a connection over the limit.
-/

namespace BeamSocket.Core

open BeamSocket.Lib

namespace RoomTask

/-- What a task can leave in disorder. -/
inductive Resource
  /-- The two views of whether the connection is in the room. -/
  | membership (id : ConnectionId) (room : RoomId)
  /-- The entry of the room, which is not to be empty. -/
  | entry (room : RoomId)
  /-- The registry entry of the connection, which has a task. -/
  | connection (id : ConnectionId)
  deriving DecidableEq, Repr

/-- What the task has still to bring in order. -/
def pending : RoomTask → List Resource
  | .joinEntry id room | .leaveEntry id room _ => [.membership id room]
  | .leaveDestroy _ room _ => [.entry room]
  | .connected id _ => [.connection id]
  | .cleanup id room todo => (room :: todo).map (.membership id)
  | .cleanupDestroy id room todo => .entry room :: todo.map (.membership id)
  | _ => []

/-- The shard whose mutex the task holds. -/
def holds : RoomTask → Option (Fin shardCount)
  | .joinEntry id _ | .leaveEntry id _ _ | .leaveDestroy id _ _ => shardOf id
  | _ => none

/-- The connection whose task it is. -/
def conn : RoomTask → Option ConnectionId
  | .connected id _ | .cleanup id _ _ | .cleanupDestroy id _ _ => some id
  | _ => none

/-- What the task relies on in the registry. -/
def Relies (s : RoomState) : RoomTask → Prop
  | .joinEntry id room => room ∈ s.registry.roomsAt id
  | .leaveEntry id room _ => ∃ e, s.registry.find id = some e ∧ room ∉ e.rooms ∧
      (s.config.maxRoomsPerConnection ≠ 0 → e.rooms.card < s.config.maxRoomsPerConnection)
  | .connected id user => s.registry.userOf id = some user
  | .cleanup id _ todo => s.registry.find id = none ∧
      (s.config.maxRoomsPerConnection ≠ 0 → todo.length < s.config.maxRoomsPerConnection)
  | .cleanupDestroy id _ todo => s.registry.find id = none ∧
      (s.config.maxRoomsPerConnection ≠ 0 → todo.length < s.config.maxRoomsPerConnection)
  | _ => True

/-- The resource is in order. -/
def Settled (s : RoomState) : Resource → Prop
  | .membership id room => room ∈ s.registry.roomsAt id ↔ id ∈ s.rooms.memberSet room
  | .entry room => s.rooms.NonEmpty room
  | .connection id => s.registry.find id = none

/-- Each mutex has one holder, and each connection one task. -/
def discipline : Discipline RoomState RoomTask Resource where
  Ok s T := (∀ k ∈ T.holds, s.held k = true) ∧ T.Relies s
  Compatible T U := (∀ k ∈ T.holds, k ∉ U.holds) ∧ ∀ id ∈ T.conn, id ∉ U.conn
  symm _ _ h := ⟨fun k hU hT => h.1 k hT hU, fun id hU hT => h.2 id hT hU⟩
  Pending T r := r ∈ T.pending
  Settled := Settled

variable {s s' : RoomState} {T T' U : RoomTask} {next : Option RoomTask} {Other : RoomTask → Prop}

/-- A task that has touched nothing. -/
structure Fresh (T : RoomTask) : Prop where
  holds : T.holds = none
  conn : T.conn = none
  pending : T.pending = []
  relies : ∀ s, T.Relies s

theorem fresh_leaveNext (room : RoomId) (rest : List ConnectionId) :
    ∀ T ∈ leaveNext room rest, T.Fresh := by
  intro T hT
  cases rest with
  | nil => cases hT
  | cons id rest =>
    cases hT
    exact ⟨rfl, rfl, rfl, fun _ => trivial⟩

theorem Fresh.ok (h : T.Fresh) (s : RoomState) : discipline.Ok s T := by
  refine ⟨?_, h.relies s⟩
  rw [h.holds]
  intro k hk
  cases hk

theorem Fresh.compatible (h : T.Fresh) (U : RoomTask) : discipline.Compatible T U := by
  constructor
  · rw [h.holds]
    intro k hk
    cases hk
  · rw [h.conn]
    intro id hid
    cases hid

/-- The connection whose registry entry the task relies on. -/
def about : RoomTask → Option ConnectionId
  | .joinEntry id _ | .leaveEntry id _ _ => some id
  | .connected id _ | .cleanup id _ _ | .cleanupDestroy id _ _ => some id
  | _ => none

theorem Relies.congr (h : U.Relies s) (hconfig : s'.config = s.config)
    (hfind : ∀ id ∈ U.about, s'.registry.find id = s.registry.find id) : U.Relies s' := by
  cases U with
  | joinEntry id room =>
    show room ∈ s'.registry.roomsAt id
    rw [ShardedRegistry.roomsAt_congr (hfind id rfl)]
    exact h
  | connected id user =>
    show s'.registry.userOf id = some user
    rw [ShardedRegistry.userOf, hfind id rfl]
    exact h
  | leaveEntry id room rest | cleanup id room todo | cleanupDestroy id room todo =>
    simp only [Relies, hfind id rfl, hconfig]
    exact h
  | join | closeRoom | leave | leaveDestroy | connect | insert => trivial

/-- The task holds the mutex of the connection, or is its own. -/
theorem about_cases {id : ConnectionId} (h : id ∈ U.about) :
    U.holds = shardOf id ∨ U.conn = some id := by
  cases U with
  | joinEntry | leaveEntry =>
    cases h
    exact .inl rfl
  | connected | cleanup | cleanupDestroy =>
    cases h
    exact .inr rfl
  | join | closeRoom | leave | leaveDestroy | connect | insert => cases h

/-- A step that leaves the entries of the registry alone and takes no mutex. -/
theorem disciplined_of_find_eq (hconfig : s'.config = s.config)
    (hfind : ∀ id, s'.registry.find id = s.registry.find id)
    (hheld : ∀ k, k ∉ T.holds → s.held k = true → s'.held k = true)
    (hnext : ∀ T' ∈ next, T'.Fresh ∨ (discipline.Ok s' T' ∧ (∀ k ∈ T'.holds, k ∈ T.holds) ∧
      ∀ id ∈ T'.conn, id ∈ T.conn))
    (hsettled : ∀ r, (r ∉ T.pending → Settled s r) → (∀ T' ∈ next, r ∉ T'.pending) →
      Settled s' r) : discipline.Step Other s T s' next where
  ok T' hT' := by
    rcases hnext T' hT' with h | h
    · exact h.ok s'
    · exact h.1
  other U _ hok hcompatible := by
    refine ⟨⟨?_, hok.2.congr hconfig fun id _ => hfind id⟩, ?_⟩
    · intro k hk
      exact hheld k (fun hT => hcompatible.1 k hT hk) (hok.1 k hk)
    · intro T' hT'
      rcases hnext T' hT' with h | ⟨-, hholds, hconn⟩
      · exact h.compatible U
      · exact ⟨fun k hk => hcompatible.1 k (hholds k hk),
          fun id hid => hcompatible.2 id (hconn id hid)⟩
  settled := hsettled

/-- A task that waits. -/
theorem disciplined_wait (h : discipline.Ok s T) : discipline.Step Other s T s (some T) := by
  refine disciplined_of_find_eq rfl (fun _ => rfl) (fun _ _ hk => hk) ?_ ?_
  · rintro _ ⟨⟩
    exact .inr ⟨h, fun _ hk => hk, fun _ hid => hid⟩
  · intro r hr hT
    exact hr (hT T rfl)

/-- A task that changes nothing and has left nothing in disorder. -/
theorem disciplined_noop (hT : T.pending = []) (hnext : ∀ T' ∈ next, T'.Fresh) :
    discipline.Step Other s T s next := by
  refine disciplined_of_find_eq rfl (fun _ => rfl) (fun _ _ hk => hk)
    (fun T' hT' => .inl (hnext T' hT')) ?_
  intro r hr _
  apply hr
  rw [hT]
  exact List.not_mem_nil

/-! ## Steps on the rooms -/

variable {id : ConnectionId} {room : RoomId}

/-- The mutex of a shard that is not that of `id` is left alone. -/
theorem held_exit (rooms : RoomRegistry ConnectionId) {k : Fin shardCount} (hk : k ∉ shardOf id)
    (h : s.held k = true) : (s.exit id rooms).held k = true := by
  have hne : ¬ shardOf id = some k := hk
  show (if shardOf id = some k then false else s.held k) = true
  rw [if_neg hne]
  exact h

theorem disciplined_joinEntry (hok : discipline.Ok s (.joinEntry id room)) :
    discipline.Step Other s (.joinEntry id room) (s.exit id (s.rooms.addMember room id)) none := by
  refine disciplined_of_find_eq rfl (fun _ => rfl) (fun k => held_exit _) (by simp) ?_
  intro r hr _
  have hmine : room ∈ s.registry.roomsAt id := hok.2
  cases r with
  | membership id' room' =>
    show room' ∈ s.registry.roomsAt id' ↔ id' ∈ (s.rooms.addMember room id).memberSet room'
    rw [RoomRegistry.memberSet_addMember]
    by_cases heq : id' = id ∧ room' = room
    · obtain ⟨rfl, rfl⟩ := heq
      simp [hmine]
    · have hsettled : room' ∈ s.registry.roomsAt id' ↔ id' ∈ s.rooms.memberSet room' :=
        hr (by simpa [pending] using heq)
      rw [hsettled]
      split_ifs with hroom
      · have hid : id' ≠ id := fun hid => heq ⟨hid, hroom⟩
        rw [hroom, OrdSet.mem_insert, or_iff_right hid]
      · rfl
  | entry room' => exact RoomRegistry.nonEmpty_addMember _ id fun _ => hr (by simp [pending])
  | connection id' => exact hr (by simp [pending])

/-- A membership of `id` in `room` that is gone from the connection's side is
    settled when the member is removed. -/
theorem membership_dropMember {id' : ConnectionId} {room' : RoomId}
    (hgone : room ∉ s.registry.roomsAt id)
    (hr : ¬ (id' = id ∧ room' = room) → Settled s (.membership id' room')) :
    room' ∈ s.registry.roomsAt id' ↔ id' ∈ (s.rooms.dropMember room id).1.memberSet room' := by
  rw [RoomRegistry.memberSet_dropMember]
  by_cases heq : id' = id ∧ room' = room
  · obtain ⟨rfl, rfl⟩ := heq
    simp [hgone]
  · have hsettled : room' ∈ s.registry.roomsAt id' ↔ id' ∈ s.rooms.memberSet room' := hr heq
    rw [hsettled]
    split_ifs with hroom
    · have hid : id' ≠ id := fun hid => heq ⟨hid, hroom⟩
      rw [hroom, OrdSet.mem_erase, and_iff_right hid]
    · rfl

theorem disciplined_leaveEntry (c : Choice) (rest : List ConnectionId)
    (hok : discipline.Ok s (.leaveEntry id room rest)) :
    discipline.Step Other s (.leaveEntry id room rest) ((leaveEntry id room rest).step c s).1
      ((leaveEntry id room rest).step c s).2 := by
  obtain ⟨e, he, hgone, -⟩ := hok.2
  rw [← ShardedRegistry.roomsAt_of_find he] at hgone
  have hmember : ∀ id' room', (.membership id' room' ∉ (leaveEntry id room rest).pending →
      Settled s (.membership id' room')) →
      (room' ∈ s.registry.roomsAt id' ↔ id' ∈ (s.rooms.dropMember room id).1.memberSet room') := by
    intro id' room' hr
    exact membership_dropMember hgone fun hne => hr (by simpa [pending] using hne)
  rw [step]
  dsimp only
  by_cases hempty : (s.rooms.dropMember room id).2 = true
  · rw [if_pos hempty]
    refine disciplined_of_find_eq rfl (fun _ => rfl) (fun _ _ hk => hk) ?_ ?_
    · rintro _ ⟨⟩
      exact .inr ⟨⟨hok.1, trivial⟩, fun _ hk => hk, fun _ hid => hid⟩
    · intro r hr hnext
      have hnext' := hnext _ rfl
      cases r with
      | membership id' room' => exact hmember id' room' hr
      | entry room' =>
        refine RoomRegistry.nonEmpty_dropMember _ (hr (by simp [pending])) fun hroom => ?_
        exact absurd hroom (by simpa [pending] using hnext')
      | connection id' => exact hr (by simp [pending])
  · rw [if_neg hempty]
    refine disciplined_of_find_eq rfl (fun _ => rfl) (fun k => held_exit _)
      (fun T' hT' => .inl (fresh_leaveNext room rest T' hT')) ?_
    intro r hr _
    cases r with
    | membership id' room' => exact hmember id' room' hr
    | entry room' =>
      exact RoomRegistry.nonEmpty_dropMember _ (hr (by simp [pending])) fun _ =>
        Bool.eq_false_of_not_eq_true hempty
    | connection id' => exact hr (by simp [pending])

/-- Destroying a room that is empty settles its entry and nothing else. -/
theorem settled_destroyIfEmpty {held : Fin shardCount → Bool} {r : Resource}
    (hr : r ≠ .entry room → Settled s r) :
    Settled { s with held, rooms := s.rooms.destroyIfEmpty room } r := by
  cases r with
  | membership id' room' =>
    show room' ∈ s.registry.roomsAt id' ↔ id' ∈ (s.rooms.destroyIfEmpty room).memberSet room'
    rw [RoomRegistry.memberSet_destroyIfEmpty]
    exact hr (by simp)
  | entry room' =>
    exact RoomRegistry.nonEmpty_destroyIfEmpty _ fun hroom => hr (by simpa using hroom)
  | connection id' => exact hr (by simp)

theorem disciplined_leaveDestroy (rest : List ConnectionId) :
    discipline.Step Other s (.leaveDestroy id room rest)
      (s.exit id (s.rooms.destroyIfEmpty room)) (leaveNext room rest) := by
  refine disciplined_of_find_eq rfl (fun _ => rfl) (fun k => held_exit _)
    (fun T' hT' => .inl (fresh_leaveNext room rest T' hT')) ?_
  intro r hr _
  exact settled_destroyIfEmpty fun hne => hr (by simpa [pending] using hne)

/-- The sweep of an id that is not in use goes on to its next room. -/
theorem cleanupNext_spec {todo : List RoomId} (hT : T.conn = some id)
    (hfind : s.registry.find id = none)
    (hmax : s.config.maxRoomsPerConnection ≠ 0 → todo.length ≤ s.config.maxRoomsPerConnection) :
    ∀ T' ∈ cleanupNext id todo, T'.Fresh ∨ (discipline.Ok s T' ∧ (∀ k ∈ T'.holds, k ∈ T.holds) ∧
      ∀ id' ∈ T'.conn, id' ∈ T.conn) := by
  intro T' hT'
  cases todo with
  | nil => cases hT'
  | cons room todo =>
    cases hT'
    refine .inr ⟨⟨fun k hk => (nomatch hk), hfind, hmax⟩, fun k hk => (nomatch hk), ?_⟩
    rw [hT]
    exact fun _ hid => hid

theorem pending_cleanupNext {todo : List RoomId} {r : Resource} :
    (∀ T ∈ cleanupNext id todo, r ∉ T.pending) ↔ r ∉ todo.map (.membership id) := by
  cases todo with
  | nil => simp [cleanupNext]
  | cons room todo => simp [cleanupNext, pending]

theorem disciplined_cleanup (c : Choice) (todo : List RoomId)
    (hok : discipline.Ok s (.cleanup id room todo)) :
    discipline.Step Other s (.cleanup id room todo) ((cleanup id room todo).step c s).1
      ((cleanup id room todo).step c s).2 := by
  obtain ⟨-, hfind, hmax⟩ := hok
  have hgone : room ∉ s.registry.roomsAt id := by
    rw [ShardedRegistry.roomsAt_of_find_eq_none hfind]
    exact OrdSet.notMem_empty
  have hsame : ∀ r, (r ∉ (cleanup id room todo).pending → Settled s r) →
      r ∉ todo.map (.membership id) → (r = .entry room → (s.rooms.dropMember room id).2 = false) →
      Settled { s with rooms := (s.rooms.dropMember room id).1 } r := by
    intro r hr htodo hempty
    cases r with
    | membership id' room' =>
      refine membership_dropMember hgone fun hne => hr ?_
      simp only [pending, List.map_cons, List.mem_cons, Resource.membership.injEq, not_or]
      exact ⟨hne, htodo⟩
    | entry room' =>
      refine RoomRegistry.nonEmpty_dropMember _ (hr (by simp [pending])) fun hroom => ?_
      exact hempty (by rw [hroom])
    | connection id' => exact hr (by simp [pending])
  rw [step]
  dsimp only
  refine disciplined_of_find_eq rfl (fun _ => rfl) (fun _ _ hk => hk) ?_ ?_
  · intro T' hT'
    split_ifs at hT' with hempty
    · cases hT'
      exact .inr ⟨⟨fun k hk => (nomatch hk), hfind, hmax⟩, fun _ hk => hk, fun _ hid => hid⟩
    · exact cleanupNext_spec rfl hfind (fun h => (hmax h).le) T' hT'
  · intro r hr hnext
    split_ifs at hnext with hempty
    · have hnext' := hnext _ rfl
      rw [pending, List.mem_cons, not_or] at hnext'
      exact hsame r hr hnext'.2 fun h => absurd h hnext'.1
    · exact hsame r hr (pending_cleanupNext.mp hnext) fun _ => Bool.eq_false_of_not_eq_true hempty

theorem disciplined_cleanupDestroy (todo : List RoomId)
    (hok : discipline.Ok s (.cleanupDestroy id room todo)) :
    discipline.Step Other s (.cleanupDestroy id room todo)
      { s with rooms := s.rooms.destroyIfEmpty room } (cleanupNext id todo) := by
  obtain ⟨-, hfind, hmax⟩ := hok
  refine disciplined_of_find_eq rfl (fun _ => rfl) (fun _ _ hk => hk)
    (cleanupNext_spec rfl hfind fun h => (hmax h).le) ?_
  intro r hr hnext
  refine settled_destroyIfEmpty fun hne => hr ?_
  rw [pending, List.mem_cons, not_or]
  exact ⟨hne, pending_cleanupNext.mp hnext⟩

/-! ## Steps on the registry -/

/-- The mutex of `id` is free, so no task holds it. -/
theorem ne_of_held {k : Fin shardCount} (hfree : s.busy id = false) (hk : s.held k = true) :
    shardOf id ≠ some k := by
  intro hid
  have hbusy : s.busy id = s.held k := by rw [RoomState.busy, hid]
  rw [hbusy, hk] at hfree
  cases hfree

/-- A task that relies on the room set of a connection holds its mutex. -/
theorem ne_of_holds {id' : ConnectionId} {e : Entry} (hfree : s.busy id = false)
    (he : s.registry.find id = some e) (hU : ∀ k ∈ shardOf id', s.held k = true) : id' ≠ id := by
  intro heq
  obtain ⟨k, hk⟩ := ShardedRegistry.exists_shardOf he
  exact ne_of_held hfree (hU k (heq ▸ hk)) hk

/-- What a task relies on is in use, unless the task sweeps it. -/
theorem Relies.find (h : U.Relies s) (hid : id ∈ U.about) :
    s.registry.find id ≠ none ∨ s.registry.find id = none ∧ U.sweeps = some id := by
  cases U with
  | joinEntry id' room' =>
    cases hid
    refine .inl fun hnone => ?_
    have hmem : room' ∈ s.registry.roomsAt id := h
    rw [ShardedRegistry.roomsAt_of_find_eq_none hnone] at hmem
    exact OrdSet.notMem_empty hmem
  | leaveEntry id' room' rest =>
    cases hid
    obtain ⟨e, he, -⟩ := h
    exact .inl (by simp [he])
  | connected id' user =>
    cases hid
    obtain ⟨e, he, -⟩ := Option.map_eq_some_iff.mp (h : s.registry.userOf id = some user)
    exact .inl (by simp [he])
  | cleanup | cleanupDestroy =>
    cases hid
    exact .inr ⟨h.1, rfl⟩
  | join | closeRoom | leave | leaveDestroy | connect | insert => cases hid

/-- The room set of a connection changes under its mutex. Its own task relies on
    its user only. -/
theorem relies_enter {e : Entry} (hfree : s.busy id = false) (he : s.registry.find id = some e)
    (rooms : OrdSet RoomId) (hU : discipline.Ok s U) : U.Relies (s.enter id rooms) := by
  cases U with
  | connected id' user =>
    show (s.registry.setRooms id rooms).userOf id' = some user
    rw [ShardedRegistry.userOf, ShardedRegistry.find_setRooms]
    split_ifs with heq
    · rw [Option.map_map, ← heq]
      exact hU.2
    · exact hU.2
  | joinEntry | leaveEntry =>
    refine hU.2.congr rfl fun id' hid' => ?_
    cases hid'
    show (s.registry.setRooms id rooms).find _ = _
    rw [ShardedRegistry.find_setRooms, if_neg (ne_of_holds hfree he hU.1)]
  | cleanup | cleanupDestroy =>
    refine hU.2.congr rfl fun id' hid' => ?_
    cases hid'
    show (s.registry.setRooms id rooms).find _ = _
    rw [ShardedRegistry.find_setRooms, if_neg]
    intro heq
    have hnone := hU.2.1
    rw [heq, he] at hnone
    cases hnone
  | join | closeRoom | leave | leaveDestroy | connect | insert => trivial

/-- `join` and `leave` enter with a change to whether the connection is in `room`. -/
theorem disciplined_enter {e : Entry} (room : RoomId) (hfree : s.busy id = false)
    (he : s.registry.find id = some e) {rooms : OrdSet RoomId}
    (hrooms : ∀ room', room' ≠ room → (room' ∈ rooms ↔ room' ∈ e.rooms)) (hT : T.pending = [])
    (hholds : T'.holds = shardOf id) (hconn : T'.conn = none)
    (hpending : T'.pending = [.membership id room]) (hrelies : T'.Relies (s.enter id rooms)) :
    discipline.Step Other s T (s.enter id rooms) (some T') where
  ok := by
    rintro _ ⟨⟩
    refine ⟨?_, hrelies⟩
    rw [hholds]
    intro k hk
    exact if_pos hk
  other U _ hU _ := by
    refine ⟨⟨fun k hk => ?_, relies_enter hfree he rooms hU⟩, ?_⟩
    · show (if shardOf id = some k then true else s.held k) = true
      rw [hU.1 k hk, ite_self]
    · rintro _ ⟨⟩
      refine ⟨fun k hk hkU => ?_, fun id' hid' => ?_⟩
      · rw [hholds] at hk
        exact ne_of_held hfree (hU.1 k hkU) hk
      · rw [hconn] at hid'
        cases hid'
  settled := by
    intro r hr hnext
    have hidle : r ∉ T.pending := by
      rw [hT]
      exact List.not_mem_nil
    have hsettled : Settled s r := hr hidle
    have hne : r ∉ T'.pending := hnext T' rfl
    rw [hpending, List.mem_singleton] at hne
    cases r with
    | membership id' room' =>
      show room' ∈ (s.registry.setRooms id rooms).roomsAt id' ↔ id' ∈ s.rooms.memberSet room'
      have hiff : room' ∈ s.registry.roomsAt id' ↔ id' ∈ s.rooms.memberSet room' := hsettled
      rw [← hiff, ShardedRegistry.roomsAt_setRooms he]
      split_ifs with hid
      · have hroom : room' ≠ room := fun hroom => hne (by rw [hid, hroom])
        rw [hrooms room' hroom, hid, ShardedRegistry.roomsAt_of_find he]
      · rfl
    | entry room' => exact hsettled
    | connection id' =>
      have hnone : s.registry.find id' = none := hsettled
      have hid : id' ≠ id := by
        intro hid
        rw [hid, he] at hnone
        cases hnone
      show (s.registry.setRooms id rooms).find id' = none
      rw [ShardedRegistry.find_setRooms, if_neg hid]
      exact hnone

/-- No connection is in more rooms than the limit, by its own room set. -/
def Limited (s : RoomState) : Prop := ∀ id, s.config.maxRoomsPerConnection ≠ 0 →
  (s.registry.roomsAt id).card ≤ s.config.maxRoomsPerConnection

theorem disciplined_join (c : Choice) (id : ConnectionId) (room : RoomId) :
    discipline.Step Other s (.join id room) ((join id room).step c s).1
      ((join id room).step c s).2 := by
  have hfresh : (join id room).Fresh := ⟨rfl, rfl, rfl, fun _ => trivial⟩
  rw [step]
  by_cases hbusy : s.busy id = true
  · rw [if_pos hbusy]
    exact disciplined_wait (hfresh.ok s)
  · rw [if_neg hbusy]
    cases he : s.registry.find id with
    | none => exact disciplined_noop rfl (by simp)
    | some e =>
      dsimp only
      split_ifs with hin hmax
      · exact disciplined_noop rfl (by simp)
      · exact disciplined_noop rfl (by simp)
      · refine disciplined_enter room (Bool.eq_false_of_not_eq_true hbusy) he
          (fun room' hne => by simp [hne]) rfl rfl rfl rfl ?_
        show room ∈ (s.registry.setRooms id (e.rooms.insert room)).roomsAt id
        rw [ShardedRegistry.roomsAt_setRooms he, if_pos rfl]
        exact OrdSet.mem_insert.mpr (.inl rfl)

theorem disciplined_leave (c : Choice) (id : ConnectionId) (room : RoomId)
    (rest : List ConnectionId) (hlimited : Limited s) :
    discipline.Step Other s (.leave id room rest) ((leave id room rest).step c s).1
      ((leave id room rest).step c s).2 := by
  have hfresh : (leave id room rest).Fresh := ⟨rfl, rfl, rfl, fun _ => trivial⟩
  rw [step]
  by_cases hbusy : s.busy id = true
  · rw [if_pos hbusy]
    exact disciplined_wait (hfresh.ok s)
  · rw [if_neg hbusy]
    cases he : s.registry.find id with
    | none => exact disciplined_noop rfl (fresh_leaveNext room rest)
    | some e =>
      dsimp only
      split_ifs with hin
      · refine disciplined_enter room (Bool.eq_false_of_not_eq_true hbusy) he
          (fun room' hne => by simp [hne]) rfl rfl rfl rfl ?_
        have hcard := OrdSet.card_erase_lt hin
        have hmax := hlimited id
        rw [ShardedRegistry.roomsAt_of_find he] at hmax
        refine ⟨{ e with rooms := e.rooms.erase room }, ?_, by simp, fun h => ?_⟩
        · show (s.registry.setRooms id (e.rooms.erase room)).find id = _
          rw [ShardedRegistry.find_setRooms, if_pos rfl, he]
          rfl
        · exact lt_of_lt_of_le hcard (hmax h)
      · exact disciplined_noop rfl (fresh_leaveNext room rest)

/-- A connection is registered under an id that is neither in use nor swept. -/
theorem relies_register {registry : ShardedRegistry} {new : ConnectionId} {entry : Entry}
    (hnew : s.registry.find new = none)
    (hfind : ∀ id, registry.find id = if id = new then some entry else s.registry.find id)
    (hsweeps : new ∉ U.sweeps) (hU : U.Relies s) : U.Relies { s with registry } := by
  refine hU.congr rfl fun id hid => ?_
  show registry.find id = s.registry.find id
  rw [hfind, if_neg]
  intro heq
  subst heq
  rcases hU.find hid with huse | ⟨-, hsweep⟩
  · exact huse hnew
  · exact hsweeps hsweep

theorem disciplined_register {registry : ShardedRegistry} {new : ConnectionId} {entry : Entry}
    (hnew : s.registry.find new = none)
    (hfind : ∀ id, registry.find id = if id = new then some entry else s.registry.find id)
    (hrooms : ∀ id, registry.roomsAt id = s.registry.roomsAt id)
    (hOther : ∀ U, Other U → new ∉ U.sweeps) (k : Fin shardCount) :
    discipline.Step Other s (.insert k entry.user) { s with registry }
      (some (.connected new entry.user)) where
  ok := by
    rintro _ ⟨⟩
    refine ⟨fun k hk => (nomatch hk), ?_⟩
    show registry.userOf new = some entry.user
    rw [ShardedRegistry.userOf, hfind, if_pos rfl]
    rfl
  other U hU hok _ := by
    refine ⟨⟨hok.1, relies_register hnew hfind (hOther U hU) hok.2⟩, ?_⟩
    rintro _ ⟨⟩
    refine ⟨fun k hk => (nomatch hk), ?_⟩
    rintro _ ⟨⟩ hconn
    -- a task of the new id would be that of a connection in use, or sweep one
    have habout : new ∈ U.about := by cases U <;> first | exact hconn | cases hconn
    rcases hok.2.find habout with huse | ⟨-, hsweep⟩
    · exact huse hnew
    · exact hOther U hU hsweep
  settled := by
    intro r hr hnext
    have hsettled : Settled s r := hr List.not_mem_nil
    have hne : r ∉ (connected new entry.user).pending := hnext _ rfl
    cases r with
    | membership id room =>
      show room ∈ registry.roomsAt id ↔ id ∈ s.rooms.memberSet room
      rw [hrooms]
      exact hsettled
    | entry room => exact hsettled
    | connection id =>
      have hid : id ≠ new := fun hid => hne (by simp [pending, hid])
      show registry.find id = none
      rw [hfind, if_neg hid]
      exact hsettled

theorem disciplined_insert (c : Choice) (k : Fin shardCount) (user : Option UserId)
    (hkey : ∀ id ∈ (insert k user).issues c s, c.key < 2 ^ 32) :
    discipline.Step (fun U => ∀ id ∈ (insert k user).issues c s, id ∉ U.sweeps) s (.insert k user)
      ((insert k user).step c s).1 ((insert k user).step c s).2 := by
  rw [step]
  by_cases hfree : s.held k = false ∧ (s.registry.shards k).Vacant c.key
  · have hissues : (insert k user).issues c s = some (s.registry.issued k c.key) := if_pos hfree
    rw [hissues] at hkey ⊢
    rw [if_pos hfree]
    have hkey' := hkey _ rfl
    exact disciplined_register (ShardedRegistry.find_issued hkey' hfree.2)
      (fun id => ShardedRegistry.find_insert hkey' hfree.2 _ user)
      (fun id => ShardedRegistry.roomsAt_insert hkey' hfree.2 _ user) (fun U hU => hU _ rfl) k
  · rw [if_neg hfree]
    exact disciplined_wait ⟨fun k hk => (nomatch hk), trivial⟩

/-- A connection is taken out of the registry by its own task. -/
theorem relies_removeFull {e : Entry} (hfree : s.busy id = false)
    (he : s.registry.find id = some e) (hU : discipline.Ok s U) (hconn : id ∉ U.conn) :
    U.Relies { s with registry := (s.registry.removeFull id).2 } := by
  refine hU.2.congr rfl fun id' hid' => ?_
  have hne : id' ≠ id := by
    rcases about_cases hid' with hholds | hmine
    · exact ne_of_holds hfree he (hholds ▸ hU.1)
    · intro heq
      exact hconn (heq ▸ hmine)
  show (s.registry.removeFull id).2.find id' = s.registry.find id'
  rw [ShardedRegistry.find_removeFull, if_neg hne]

theorem disciplined_removeFull {e : Entry} {user : Option UserId} {joined : List RoomId}
    (hfree : s.busy id = false) (he : s.registry.find id = some e)
    (hjoined : joined.Perm e.rooms.toList) (hlimited : Limited s) :
    discipline.Step Other s (.connected id user)
      { s with registry := (s.registry.removeFull id).2 } (cleanupNext id joined) := by
  have hnone : (s.registry.removeFull id).2.find id = none := by
    rw [ShardedRegistry.find_removeFull, if_pos rfl]
  have hmax := hlimited id
  rw [ShardedRegistry.roomsAt_of_find he, OrdSet.card, ← hjoined.length_eq] at hmax
  have hnext := cleanupNext_spec (T := .connected id user)
    (s := { s with registry := (s.registry.removeFull id).2 }) rfl hnone hmax
  refine ⟨?_, ?_, ?_⟩
  · intro T' hT'
    rcases hnext T' hT' with h | h
    · exact h.ok _
    · exact h.1
  · intro U _ hok hcompatible
    refine ⟨⟨hok.1, relies_removeFull hfree he hok (hcompatible.2 id rfl)⟩, ?_⟩
    intro T' hT'
    rcases hnext T' hT' with h | ⟨-, hholds, hconn⟩
    · exact h.compatible U
    · exact ⟨fun k hk => hcompatible.1 k (hholds k hk),
        fun id hid => hcompatible.2 id (hconn id hid)⟩
  · intro r hr hr'
    have htodo : r ∉ joined.map (.membership id) := pending_cleanupNext.mp hr'
    cases r with
    | membership id' room' =>
      have hsettled : room' ∈ s.registry.roomsAt id' ↔ id' ∈ s.rooms.memberSet room' :=
        hr (by simp [discipline, pending])
      show room' ∈ (s.registry.removeFull id).2.roomsAt id' ↔ _
      rw [ShardedRegistry.roomsAt_removeFull]
      split_ifs with hid
      · -- a room that is not to be swept was not in the room set
        subst hid
        have hroom : room' ∉ s.registry.roomsAt id' := by
          rw [ShardedRegistry.roomsAt_of_find he, OrdSet.mem_def, ← hjoined.mem_iff]
          intro hmem
          exact htodo (List.mem_map_of_mem hmem)
        rw [← hsettled]
        exact iff_of_false OrdSet.notMem_empty hroom
      · exact hsettled
    | entry room' => exact hr (by simp [discipline, pending])
    | connection id' =>
      show (s.registry.removeFull id).2.find id' = none
      rw [ShardedRegistry.find_removeFull]
      split_ifs with hid
      · rfl
      · exact hr (by simpa [discipline, pending] using hid)

theorem disciplined_connected (c : Choice) (user : Option UserId)
    (hok : discipline.Ok s (.connected id user)) (hlimited : Limited s) :
    discipline.Step Other s (.connected id user) ((connected id user).step c s).1
      ((connected id user).step c s).2 := by
  obtain ⟨e, he, -⟩ := Option.map_eq_some_iff.mp (hok.2 : s.registry.userOf id = some user)
  have hremove : s.registry.removeFull id =
      (some (e.handle, e.rooms), (s.registry.removeFull id).2) := by
    rw [ShardedRegistry.removeFull, he]
    rfl
  rw [step]
  by_cases hbusy : s.busy id = true
  · rw [if_pos hbusy]
    exact disciplined_wait hok
  · rw [if_neg hbusy, hremove]
    dsimp only
    by_cases hjoined : c.joined.Perm e.rooms.toList
    · rw [if_pos hjoined]
      exact disciplined_removeFull (Bool.eq_false_of_not_eq_true hbusy) he hjoined hlimited
    · rw [if_neg hjoined]
      exact disciplined_wait hok

/-- Every step keeps to the discipline, if it does not hand out an id that is
    still being swept. -/
theorem step_disciplined (c : Choice) (T : RoomTask) (hok : discipline.Ok s T)
    (hlimited : Limited s) (hkey : ∀ id ∈ T.issues c s, c.key < 2 ^ 32) :
    discipline.Step (fun U => ∀ id ∈ T.issues c s, id ∉ U.sweeps) s T (T.step c s).1
      (T.step c s).2 := by
  cases T with
  | join id room => exact disciplined_join c id room
  | joinEntry id room => exact disciplined_joinEntry hok
  | closeRoom room =>
    rw [step]
    cases s.rooms.members room with
    | none => exact disciplined_noop rfl (by simp)
    | some ids =>
      dsimp only
      by_cases hperm : c.members.Perm ids
      · rw [if_pos hperm]
        exact disciplined_noop rfl (fresh_leaveNext room c.members)
      · rw [if_neg hperm]
        exact disciplined_wait hok
  | leave id room rest => exact disciplined_leave c id room rest hlimited
  | leaveEntry id room rest => exact disciplined_leaveEntry c rest hok
  | leaveDestroy id room rest => exact disciplined_leaveDestroy rest
  | connect user =>
    refine disciplined_of_find_eq rfl (fun _ => rfl) (fun _ _ hk => hk) ?_ ?_
    · rintro _ ⟨⟩
      exact .inl ⟨rfl, rfl, rfl, fun _ => trivial⟩
    · intro r hr _
      have hsettled : Settled s r := hr List.not_mem_nil
      cases r <;> exact hsettled
  | insert k user => exact disciplined_insert c k user hkey
  | connected id user => exact disciplined_connected c user hok hlimited
  | cleanup id room todo => exact disciplined_cleanup c todo hok
  | cleanupDestroy id room todo => exact disciplined_cleanupDestroy todo hok

/-- A change of one room set to one within the limit. -/
theorem Limited.enter {e : Entry} {rooms : OrdSet RoomId} (h : Limited s)
    (he : s.registry.find id = some e) (hrooms : s.config.maxRoomsPerConnection ≠ 0 →
      rooms.card ≤ s.config.maxRoomsPerConnection) : Limited (s.enter id rooms) := by
  intro id' hmax
  show ((s.registry.setRooms id rooms).roomsAt id').card ≤ _
  rw [ShardedRegistry.roomsAt_setRooms he]
  split_ifs
  · exact hrooms hmax
  · exact h id' hmax

/-- No step takes a connection over the limit. -/
theorem limited_step (c : Choice) (T : RoomTask) (h : Limited s)
    (hkey : ∀ id ∈ T.issues c s, c.key < 2 ^ 32) :
    (T.step c s).1.config = s.config ∧ Limited (T.step c s).1 := by
  cases T with
  | join id room =>
    rw [step]
    split_ifs
    · exact ⟨rfl, h⟩
    · cases he : s.registry.find id with
      | none => exact ⟨rfl, h⟩
      | some e =>
        dsimp only
        split_ifs with hin hfull
        · exact ⟨rfl, h⟩
        · exact ⟨rfl, h⟩
        · refine ⟨rfl, h.enter he fun hmax => ?_⟩
          have hcard := OrdSet.card_insert_of_notMem hin
          omega
  | leave id room rest =>
    rw [step]
    split_ifs
    · exact ⟨rfl, h⟩
    · cases he : s.registry.find id with
      | none => exact ⟨rfl, h⟩
      | some e =>
        dsimp only
        split_ifs
        · refine ⟨rfl, h.enter he fun hmax => ?_⟩
          have hcard := h id hmax
          rw [ShardedRegistry.roomsAt_of_find he] at hcard
          exact OrdSet.card_erase_le.trans hcard
        · exact ⟨rfl, h⟩
  | closeRoom room =>
    rw [step]
    cases s.rooms.members room with
    | none => exact ⟨rfl, h⟩
    | some ids =>
      dsimp only
      split_ifs <;> exact ⟨rfl, h⟩
  | leaveEntry id room rest =>
    rw [step]
    dsimp only
    split_ifs <;> exact ⟨rfl, h⟩
  | insert k user =>
    rw [step]
    by_cases hfree : s.held k = false ∧ (s.registry.shards k).Vacant c.key
    · have hissues : (insert k user).issues c s = some (s.registry.issued k c.key) := if_pos hfree
      rw [hissues] at hkey
      rw [if_pos hfree]
      refine ⟨rfl, fun id hmax => ?_⟩
      have hrooms := @ShardedRegistry.roomsAt_insert _ id _ _ (hkey _ rfl) hfree.2
        (ConnHandle.new s.config.highWaterMark s.config.policy) user
      exact hrooms ▸ h id hmax
    · rw [if_neg hfree]
      exact ⟨rfl, h⟩
  | connected id user =>
    rw [step, ShardedRegistry.removeFull]
    split_ifs
    · exact ⟨rfl, h⟩
    · cases s.registry.find id with
      | none => exact ⟨rfl, h⟩
      | some e =>
        dsimp only [Option.map_some]
        split_ifs
        · refine ⟨rfl, fun id' hmax => ?_⟩
          show ((s.registry.removeFull id).2.roomsAt id').card ≤ _
          rw [ShardedRegistry.roomsAt_removeFull]
          split_ifs
          · exact Nat.zero_le _
          · exact h id' hmax
        · exact ⟨rfl, h⟩
  | joinEntry | leaveDestroy | connect | cleanup | cleanupDestroy => exact ⟨rfl, h⟩

end RoomTask

end BeamSocket.Core
