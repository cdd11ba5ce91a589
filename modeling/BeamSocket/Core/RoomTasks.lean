import BeamSocket.Core.Engine
import BeamSocket.Core.Shards
import BeamSocket.Lib.Tasks

/-!
# Room membership in atomic steps

Joins, leaves, `close_room` sweeps, connects and disconnects of one engine cut
into their atomic steps (`crates/core/src/rooms.rs`, lines 176–258,
`connection/registry.rs`, lines 78–141, and `engine.rs`, lines 1245–1276): the
room set under the shard mutex, the entry of the room, and the removal of an
empty entry. `join` and `leave` hold the mutex of the connection's shard over all
their steps; the sweep of a disconnect holds none. A connection is one task from
the counter of the registry to the end of its sweep.

* `RoomTask.step`: one step of one task; `RoomSystem.step`: of any number of them.
* `RoomSystem.Agrees`, `RoomSystem.WithinLimit`: what is wanted of the two views
  of who is in which room.
-/

namespace BeamSocket.Core

open BeamSocket.Lib

/-- What is left to do. -/
inductive RoomTask
  | join (id : ConnectionId) (room : RoomId)
  /-- `join` has updated the room set and holds the mutex. -/
  | joinEntry (id : ConnectionId) (room : RoomId)
  | closeRoom (room : RoomId)
  /-- `leave`; a sweep goes on to leave for the connections of `rest`. -/
  | leave (id : ConnectionId) (room : RoomId) (rest : List ConnectionId)
  /-- `leave` has updated the room set and holds the mutex. -/
  | leaveEntry (id : ConnectionId) (room : RoomId) (rest : List ConnectionId)
  /-- It left the room empty and still holds the mutex. -/
  | leaveDestroy (id : ConnectionId) (room : RoomId) (rest : List ConnectionId)
  /-- `run_admitted` before the counter of `insert`. -/
  | connect (user : Option UserId)
  /-- `insert` before it takes the mutex of the shard. -/
  | insert (k : Fin shardCount) (user : Option UserId)
  /-- The connection is up; its next step is `remove_full`. -/
  | connected (id : ConnectionId) (user : Option UserId)
  /-- `disconnect_cleanup` before `room`, with `todo` after it. -/
  | cleanup (id : ConnectionId) (room : RoomId) (todo : List RoomId)
  /-- It left the room empty. -/
  | cleanupDestroy (id : ConnectionId) (room : RoomId) (todo : List RoomId)
  deriving DecidableEq, Repr

/-- The shared state: the registry with its mutexes, held or not by a task that
    is between two steps, and the rooms. -/
@[ext] structure RoomState where
  config : EngineConfig
  registry : ShardedRegistry
  held : Fin shardCount → Bool
  rooms : RoomRegistry ConnectionId

namespace RoomState

variable (s : RoomState) (id : ConnectionId)

/-- The state of an engine that has just started. -/
def new (config : EngineConfig) : RoomState :=
  { config, registry := .new, held := fun _ => false, rooms := ∅ }

/-- Some task holds the mutex of the shard of `id`. -/
def busy : Bool :=
  match shardOf id with
  | none => false
  | some k => s.held k

/-- The mutex of the shard of `id` is taken or released. -/
def setHeld (b : Bool) : RoomState :=
  { s with held := fun k => if shardOf id = some k then b else s.held k }

/-- The closure of `with_rooms` has changed the room set and holds the mutex. -/
def enter (rooms : OrdSet RoomId) : RoomState :=
  { s.setHeld id true with registry := s.registry.setRooms id rooms }

/-- The closure of `with_rooms` has changed the rooms and returns. -/
def exit (rooms : RoomRegistry ConnectionId) : RoomState := { s.setHeld id false with rooms }

/-- `struct PresenceEntry`. -/
structure PresenceEntry where
  id : ConnectionId
  user : Option UserId
  deriving DecidableEq, Repr

/-- `room_presence` (`presence.rs`, lines 44–61). -/
def roomPresence (room : RoomId) : List PresenceEntry :=
  match s.rooms.members room with
  | none => []
  | some members => members.filterMap fun id => (s.registry.userOf id).map (PresenceEntry.mk id)

end RoomState

/-- What the source leaves open: the vacant key that the slab picks, and the order
    in which the members of a room and the rooms of a connection are iterated. A
    choice that does not fit makes the step wait. -/
structure Choice where
  key : ℕ
  members : List ConnectionId
  joined : List RoomId

namespace RoomTask

/-- A sweep at the next connection, if there is one. -/
def leaveNext (room : RoomId) : List ConnectionId → Option RoomTask
  | [] => none
  | id :: rest => some (.leave id room rest)

/-- `disconnect_cleanup` at the next room, if there is one. -/
def cleanupNext (id : ConnectionId) : List RoomId → Option RoomTask
  | [] => none
  | room :: todo => some (.cleanup id room todo)

/-- One atomic step. A task that finds a mutex held waits. -/
def step (c : Choice) (s : RoomState) : RoomTask → RoomState × Option RoomTask
  | .join id room =>
    if s.busy id then (s, some (.join id room))
    else
      match s.registry.find id with
      | none => (s, none)
      | some e =>
        let max := s.config.maxRoomsPerConnection
        if room ∈ e.rooms then (s, none)
        else if max ≠ 0 ∧ e.rooms.card ≥ max then (s, none)
        else (s.enter id (e.rooms.insert room), some (.joinEntry id room))
  | .joinEntry id room => (s.exit id (s.rooms.addMember room id), none)
  | .closeRoom room =>
    match s.rooms.members room with
    | none => (s, none)
    | some ids =>
      if c.members.Perm ids then (s, leaveNext room c.members) else (s, some (.closeRoom room))
  | .leave id room rest =>
    if s.busy id then (s, some (.leave id room rest))
    else
      match s.registry.find id with
      | none => (s, leaveNext room rest)
      | some e =>
        if room ∈ e.rooms then
          (s.enter id (e.rooms.erase room), some (.leaveEntry id room rest))
        else (s, leaveNext room rest)
  | .leaveEntry id room rest =>
    let (rooms, empty) := s.rooms.dropMember room id
    if empty then ({ s with rooms }, some (.leaveDestroy id room rest))
    else (s.exit id rooms, leaveNext room rest)
  | .leaveDestroy id room rest =>
    (s.exit id (s.rooms.destroyIfEmpty room), leaveNext room rest)
  | .connect user =>
    let (k, registry) := s.registry.fetchShard
    ({ s with registry }, some (.insert k user))
  | .insert k user =>
    if s.held k = false ∧ (s.registry.shards k).Vacant c.key then
      let handle := ConnHandle.new s.config.highWaterMark s.config.policy
      ({ s with registry := s.registry.insert k c.key handle user },
        some (.connected (s.registry.issued k c.key) user))
    else (s, some (.insert k user))
  | .connected id user =>
    if s.busy id then (s, some (.connected id user))
    else
      match s.registry.removeFull id with
      | (none, _) => (s, none)
      | (some (_, joined), registry) =>
        if c.joined.Perm joined.toList then ({ s with registry }, cleanupNext id c.joined)
        else (s, some (.connected id user))
  | .cleanup id room todo =>
    let (rooms, empty) := s.rooms.dropMember room id
    ({ s with rooms }, if empty then some (.cleanupDestroy id room todo) else cleanupNext id todo)
  | .cleanupDestroy id room todo =>
    ({ s with rooms := s.rooms.destroyIfEmpty room }, cleanupNext id todo)

/-- The connection whose rooms the task is sweeping. -/
def sweeps : RoomTask → Option ConnectionId
  | .cleanup id _ _ | .cleanupDestroy id _ _ => some id
  | _ => none

/-- The task is that of a connection that is up. -/
def isConnected : RoomTask → Bool
  | .connected _ _ => true
  | _ => false

/-- The id that the next step of the task hands out. -/
def issues (c : Choice) (s : RoomState) : RoomTask → Option ConnectionId
  | .insert k _ =>
    if s.held k = false ∧ (s.registry.shards k).Vacant c.key then some (s.registry.issued k c.key)
    else none
  | _ => none

end RoomTask

/-! ## Interleavings -/

/-- What can be called; a disconnect is the next step of a connection's task. -/
inductive RoomCall
  | join (id : ConnectionId) (room : RoomId)
  | leave (id : ConnectionId) (room : RoomId)
  | closeRoom (room : RoomId)
  | connect (user : Option UserId)
  deriving DecidableEq, Repr

/-- The task that a call starts. -/
def RoomCall.task : RoomCall → RoomTask
  | .join id room => .join id room
  | .leave id room => .leave id room []
  | .closeRoom room => .closeRoom room
  | .connect user => .connect user

/-- The shared state and the tasks that work on it. -/
@[ext] structure RoomSystem where
  state : RoomState
  tasks : Tasks RoomTask

/-- What can happen: a call, or a step of a task that runs, with the choices it is left. -/
inductive RoomEvent
  /-- A call, under a number that is not in use. -/
  | call (i : ℕ) (c : RoomCall)
  /-- The task takes its next atomic step. -/
  | step (i : ℕ) (c : Choice)

namespace RoomSystem

/-- An engine without tasks. -/
def new (config : EngineConfig) : RoomSystem := { state := .new config, tasks := ∅ }

/-- One event; a task that has ended is taken out. -/
def step (s : RoomSystem) : RoomEvent → RoomSystem
  | .call i c =>
    match s.tasks.lookup i with
    | none => { s with tasks := s.tasks.insert i c.task }
    | some _ => s
  | .step i c =>
    match s.tasks.lookup i with
    | none => s
    | some T => { state := (T.step c s.state).1, tasks := s.tasks.set i (T.step c s.state).2 }

/-- An id that the step hands out is not being swept, and its key fits the id. -/
def IssuesUnswept (s : RoomSystem) : RoomEvent → Prop
  | .call .. => True
  | .step i c => ∀ id ∈ (s.tasks.lookup i).bind (RoomTask.issues c s.state),
      c.key < 2 ^ 32 ∧ ∀ x ∈ s.tasks.entries, id ∉ x.2.sweeps

instance (s : RoomSystem) : DecidablePred s.IssuesUnswept
  | .call .. => isTrue trivial
  | .step _ _ => Option.decidableForallMem _

/-- Everything that was called has finished: all that is left are connections. -/
def Finished (s : RoomSystem) : Prop := ∀ x ∈ s.tasks.entries, x.2.isConnected = true

instance (s : RoomSystem) : Decidable s.Finished :=
  inferInstanceAs (Decidable (∀ x ∈ s.tasks.entries, x.2.isConnected = true))

/-- The connection is up, and was admitted with this user. -/
def Admitted (s : RoomSystem) (id : ConnectionId) (user : Option UserId) : Prop :=
  ∃ i, s.tasks.lookup i = some (.connected id user)

/-- The rooms that have the connection as a member. -/
def memberRooms (s : RoomSystem) (id : ConnectionId) : List RoomId :=
  s.state.rooms.keys.filter fun room => id ∈ s.state.rooms.memberSet room

/-- By neither view is a connection in more than `max` rooms. -/
def WithinLimit (s : RoomSystem) (max : ℕ) : Prop :=
  ∀ id, (s.state.registry.roomsAt id).card ≤ max ∧ (s.memberRooms id).length ≤ max

/-- The two views of who is in which room agree. -/
structure Agrees (s : RoomSystem) : Prop where
  views : ∀ id room, room ∈ s.state.registry.roomsAt id ↔ id ∈ s.state.rooms.memberSet room
  live : ∀ room, ∀ id ∈ s.state.rooms.memberSet room, (s.state.registry.find id).isSome
  nonEmpty : ∀ room, s.state.rooms.NonEmpty room
  presence : ∀ room, (s.state.roomPresence room).map (·.id) =
    (s.state.rooms.memberSet room).toList
  presence_user : ∀ room, ∀ p ∈ s.state.roomPresence room, s.Admitted p.id p.user

end RoomSystem

end BeamSocket.Core
