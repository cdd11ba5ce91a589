import BeamSocket.Core.RoomDiscipline
import BeamSocket.Lib.Run

/-!
# The two views of room membership agree

The invariant of `Core.RoomDiscipline` over whole runs of any number of joins,
leaves, sweeps, connects and disconnects.

* `RoomSystem.roomInv_run`: the invariant after every run in which no id is
  handed out whose last owner is still being swept.
* `RoomSystem.views_agree`: no connection is ever over the limit, and once all
  have finished the two views agree.
* `Wrapped.views_disagree`: a slot that is used 2^24 times during one sweep.
-/

namespace BeamSocket.Core

open BeamSocket.Lib

namespace RoomSystem

/-- The invariant of all runs. -/
structure RoomInv (config : EngineConfig) (s : RoomSystem) : Prop where
  config : s.state.config = config
  limited : RoomTask.Limited s.state
  disciplined : RoomTask.discipline.Inv s.state s.tasks

variable {config : EngineConfig} {s : RoomSystem}

theorem RoomInv.new (config : EngineConfig) : RoomInv config (new config) where
  config := rfl
  limited id _ := by
    show (ShardedRegistry.new.roomsAt id).card ≤ _
    rw [ShardedRegistry.card_roomsAt_of_find_eq_none ShardedRegistry.find_new]
    exact Nat.zero_le _
  disciplined := by
    refine .empty fun r => ?_
    cases r with
    | membership id room =>
      show room ∈ ShardedRegistry.new.roomsAt id ↔ id ∈ (∅ : OrdSet ConnectionId)
      rw [ShardedRegistry.roomsAt_of_find_eq_none ShardedRegistry.find_new]
      exact iff_of_false OrdSet.notMem_empty OrdSet.notMem_empty
    | entry room => exact fun e he => (nomatch he)
    | connection id => exact ShardedRegistry.find_new

theorem RoomInv.step (h : RoomInv config s) {ev : RoomEvent} (hev : s.IssuesUnswept ev) :
    RoomInv config (s.step ev) := by
  cases ev with
  | call i c =>
    rw [RoomSystem.step]
    cases hi : s.tasks.lookup i with
    | some T => exact h
    | none =>
      have hfresh : c.task.Fresh := by cases c <;> exact ⟨rfl, rfl, rfl, fun _ => trivial⟩
      exact ⟨h.config, h.limited, h.disciplined.spawn hi (hfresh.ok _) hfresh.compatible⟩
  | step i c =>
    rw [RoomSystem.step]
    cases hi : s.tasks.lookup i with
    | none => exact h
    | some T =>
      have hissues : ∀ id ∈ T.issues c s.state,
          c.key < 2 ^ 32 ∧ ∀ x ∈ s.tasks.entries, id ∉ x.2.sweeps := by
        intro id hid
        apply hev id
        rw [hi]
        exact hid
      have hkey := fun id hid => (hissues id hid).1
      obtain ⟨hconfig, hlimited⟩ := T.limited_step c h.limited hkey
      refine ⟨hconfig.trans h.config, hlimited, ?_⟩
      refine h.disciplined.step hi
        (T.step_disciplined c (h.disciplined.ok i T hi) h.limited hkey) ?_
      intro j _ U hU id hid
      exact (hissues id hid).2 ⟨j, U⟩ (AList.mem_lookup_iff.mp hU)

theorem roomInv_run (config : EngineConfig) {evs : List RoomEvent}
    (h : StepsMeet step IssuesUnswept (.new config) evs) :
    RoomInv config (run step (.new config) evs) :=
  run_invariant_of_stepsMeet (fun _ _ hs hev => RoomInv.step hs hev) (RoomInv.new config) h

/-- What is not settled, some task has left in disorder. -/
theorem RoomInv.exists_pending (h : RoomInv config s) {r : RoomTask.Resource}
    (hr : ¬ RoomTask.Settled s.state r) : ∃ i T, T ∈ s.tasks.lookup i ∧ r ∈ T.pending := by
  by_contra hnone
  push Not at hnone
  exact hr (h.disciplined.settled r hnone)

/-! ### The limit, by the rooms -/

/-- The rooms of `id` that the task is about. -/
def roomsOf (id : ConnectionId) (T : RoomTask) : List RoomId :=
  T.pending.filterMap fun
    | .membership id' room => if id' = id then some room else none
    | _ => none

theorem mem_roomsOf {id : ConnectionId} {T : RoomTask} {room : RoomId} :
    room ∈ roomsOf id T ↔ .membership id room ∈ T.pending := by
  unfold roomsOf
  rw [List.mem_filterMap]
  constructor
  · rintro ⟨r, hr, heq⟩
    cases r with
    | membership id' room' =>
      dsimp only at heq
      split_ifs at heq with hid
      cases heq
      exact hid ▸ hr
    | entry | connection => cases heq
  · intro h
    exact ⟨_, h, if_pos rfl⟩

/-- A task that is about to take the connection out of a room that it has left is
    a `leave` under its mutex, or its own sweep; either way the rooms that the
    connection still has and those the task is about are within the limit. -/
theorem removing_cases {s : RoomState} {id : ConnectionId} {room : RoomId} {T : RoomTask}
    (hok : RoomTask.discipline.Ok s T) (hT : room ∈ roomsOf id T)
    (hgone : room ∉ s.registry.roomsAt id) :
    ((∃ e, s.registry.find id = some e) ∧ T.holds = shardOf id ∨
      s.registry.find id = none ∧ T.conn = some id) ∧
    (s.config.maxRoomsPerConnection ≠ 0 →
      (s.registry.roomsAt id).card + (roomsOf id T).length ≤ s.config.maxRoomsPerConnection) := by
  have hpending := mem_roomsOf.mp hT
  have hlength : (roomsOf id T).length ≤ T.pending.length := List.length_filterMap_le ..
  cases T with
  | joinEntry id' room' =>
    obtain ⟨rfl, rfl⟩ : id = id' ∧ room = room' := by simpa [RoomTask.pending] using hpending
    exact absurd hok.2 hgone
  | leaveEntry id' room' rest =>
    obtain ⟨rfl, rfl⟩ : id = id' ∧ room = room' := by simpa [RoomTask.pending] using hpending
    obtain ⟨e, he, -, hmax⟩ := hok.2
    refine ⟨.inl ⟨⟨e, he⟩, rfl⟩, fun h => ?_⟩
    have hlt := hmax h
    rw [ShardedRegistry.roomsAt_of_find he]
    simp only [RoomTask.pending, List.length_singleton] at hlength
    omega
  | cleanup id' room' todo | cleanupDestroy id' room' todo =>
    obtain rfl : id' = id := by grind [RoomTask.pending]
    obtain ⟨-, hnone, hmax⟩ := hok
    refine ⟨.inr ⟨hnone, rfl⟩, fun h => ?_⟩
    have hlt := hmax h
    have hcard := ShardedRegistry.card_roomsAt_of_find_eq_none hnone
    simp only [RoomTask.pending, List.length_map, List.length_cons] at hlength
    omega
  | _ => simp [RoomTask.pending] at hpending

/-- At most one task is about to take a connection out of rooms it has left. -/
theorem RoomInv.removing_unique (h : RoomInv config s) {id : ConnectionId} {room room' : RoomId}
    {i j : ℕ} {T U : RoomTask} (hT : T ∈ s.tasks.lookup i) (hU : U ∈ s.tasks.lookup j)
    (hroom : room ∈ roomsOf id T) (hgone : room ∉ s.state.registry.roomsAt id)
    (hroom' : room' ∈ roomsOf id U) (hgone' : room' ∉ s.state.registry.roomsAt id) : T = U := by
  by_cases hij : i = j
  · subst hij
    exact Option.mem_unique hT hU
  · exfalso
    obtain ⟨hholds, hconn⟩ := h.disciplined.compatible i j hij T hT U hU
    obtain ⟨hcases, -⟩ := removing_cases (h.disciplined.ok i T hT) hroom hgone
    obtain ⟨hcases', -⟩ := removing_cases (h.disciplined.ok j U hU) hroom' hgone'
    rcases hcases with ⟨⟨e, he⟩, hT'⟩ | ⟨hnone, hT'⟩
    · rcases hcases' with ⟨-, hU'⟩ | ⟨hnone, -⟩
      · obtain ⟨k, hk⟩ := ShardedRegistry.exists_shardOf he
        exact hholds k (hT'.trans hk) (hU'.trans hk)
      · rw [he] at hnone
        cases hnone
    · rcases hcases' with ⟨⟨e, he⟩, -⟩ | ⟨-, hU'⟩
      · rw [he] at hnone
        cases hnone
      · exact hconn id hT' hU'

/-- By neither view is a connection over the limit. -/
theorem RoomInv.withinLimit (h : RoomInv config s) (hmax : config.maxRoomsPerConnection ≠ 0) :
    s.WithinLimit config.maxRoomsPerConnection := by
  intro id
  rw [← h.config] at hmax ⊢
  refine ⟨h.limited id hmax, ?_⟩
  have hnodup : (s.memberRooms id).Nodup := List.Nodup.filter _ s.state.rooms.nodupKeys
  have hmember : ∀ room ∈ s.memberRooms id, id ∈ s.state.rooms.memberSet room := by
    intro room hroom
    exact of_decide_eq_true (List.mem_filter.mp hroom).2
  -- a member that the connection does not know of is about to be removed
  have hgone : ∀ room ∈ s.memberRooms id, room ∉ s.state.registry.roomsAt id →
      ∃ i T, T ∈ s.tasks.lookup i ∧ room ∈ roomsOf id T := by
    intro room hroom hnot
    obtain ⟨i, T, hT, hpending⟩ := h.exists_pending (r := .membership id room)
      fun hiff => hnot (hiff.mpr (hmember room hroom))
    exact ⟨i, T, hT, mem_roomsOf.mpr hpending⟩
  by_cases hall : ∀ room ∈ s.memberRooms id, room ∈ s.state.registry.roomsAt id
  · exact (List.subperm_of_subset hnodup hall).length_le.trans (h.limited id hmax)
  · push Not at hall
    obtain ⟨room, hroom, hnot⟩ := hall
    obtain ⟨i, T, hT, hmine⟩ := hgone room hroom hnot
    have hsub : s.memberRooms id ⊆ (s.state.registry.roomsAt id).toList ++ roomsOf id T := by
      intro room' hroom'
      by_cases hin : room' ∈ s.state.registry.roomsAt id
      · exact List.mem_append_left _ hin
      · obtain ⟨j, U, hU, htheirs⟩ := hgone room' hroom' hin
        rw [h.removing_unique hT hU hmine hnot htheirs hin]
        exact List.mem_append_right _ htheirs
    have hlength := (List.subperm_of_subset hnodup hsub).length_le
    rw [List.length_append] at hlength
    exact hlength.trans ((removing_cases (h.disciplined.ok i T hT) hmine hnot).2 hmax)

/-! ### When all have finished -/

theorem eq_connected_of_isConnected {T : RoomTask} (h : T.isConnected = true) :
    ∃ id user, T = .connected id user := by
  cases T with
  | connected id user => exact ⟨id, user, rfl⟩
  | _ => cases h

/-- The tasks that are left have left nothing in disorder but their entries. -/
theorem RoomInv.settled_of_finished (h : RoomInv config s) (hfinished : s.Finished)
    {r : RoomTask.Resource} (hr : ∀ id, r ≠ .connection id) : RoomTask.Settled s.state r := by
  refine h.disciplined.settled r fun i T hT hpending => ?_
  have hT' := hfinished ⟨i, T⟩ (AList.mem_lookup_iff.mp hT)
  obtain ⟨id, user, rfl⟩ := eq_connected_of_isConnected hT'
  exact hr id (List.mem_singleton.mp hpending)

/-- A connection in the registry has its task, with the user it was admitted with. -/
theorem RoomInv.admitted_of_finished (h : RoomInv config s) (hfinished : s.Finished)
    {id : ConnectionId} {e : Entry} (he : s.state.registry.find id = some e) :
    s.Admitted id e.user := by
  have hnot : ¬ RoomTask.Settled s.state (.connection id) := by
    intro hnone
    have hfind : s.state.registry.find id = none := hnone
    rw [he] at hfind
    cases hfind
  obtain ⟨i, T, hT, hpending⟩ := h.exists_pending hnot
  obtain ⟨id', user, rfl⟩ :=
    eq_connected_of_isConnected (hfinished ⟨i, T⟩ (AList.mem_lookup_iff.mp hT))
  obtain rfl : id = id' := by simpa [RoomTask.pending] using hpending
  have huser : s.state.registry.userOf id = some user := (h.disciplined.ok i _ hT).2
  rw [ShardedRegistry.userOf, he] at huser
  obtain rfl : e.user = user := Option.some.inj huser
  exact ⟨i, hT⟩

/-- Presence is a lookup of each member in turn. -/
theorem roomPresence_eq (s : RoomState) (room : RoomId) : s.roomPresence room =
    (s.rooms.memberSet room).toList.filterMap
      fun id => (s.registry.userOf id).map (RoomState.PresenceEntry.mk id) := by
  unfold RoomState.roomPresence RoomRegistry.members RoomRegistry.memberSet
  cases s.rooms.lookup room <;> rfl

theorem RoomInv.agrees (h : RoomInv config s) (hfinished : s.Finished) : s.Agrees := by
  have hviews : ∀ id room,
      room ∈ s.state.registry.roomsAt id ↔ id ∈ s.state.rooms.memberSet room := by
    intro id room
    exact h.settled_of_finished hfinished (r := .membership id room) (by simp)
  have hlive : ∀ room, ∀ id ∈ s.state.rooms.memberSet room,
      ∃ e, s.state.registry.find id = some e := by
    intro room id hid
    have hroom := (hviews id room).mpr hid
    cases he : s.state.registry.find id with
    | some e => exact ⟨e, rfl⟩
    | none =>
      rw [ShardedRegistry.roomsAt_of_find_eq_none he] at hroom
      exact absurd hroom OrdSet.notMem_empty
  refine ⟨hviews, ?_, ?_, ?_, ?_⟩
  · intro room id hid
    exact Option.isSome_iff_exists.mpr (hlive room id hid)
  · intro room
    exact h.settled_of_finished hfinished (r := .entry room) (by simp)
  · intro room
    rw [roomPresence_eq, List.map_filterMap]
    have hsome : ∀ id ∈ (s.state.rooms.memberSet room).toList,
        Option.map (·.id) ((s.state.registry.userOf id).map (RoomState.PresenceEntry.mk id)) =
          some id := by
      intro id hid
      obtain ⟨e, he⟩ := hlive room id hid
      rw [ShardedRegistry.userOf, he]
      rfl
    rw [List.filterMap_congr hsome, List.filterMap_some]
  · intro room p hp
    rw [roomPresence_eq, List.mem_filterMap] at hp
    obtain ⟨id, hid, hp⟩ := hp
    obtain ⟨e, he⟩ := hlive room id hid
    rw [ShardedRegistry.userOf, he] at hp
    obtain rfl := Option.some.inj hp
    exact h.admitted_of_finished hfinished he

/-- In every interleaving of joins, leaves, room closures, connects and
    disconnects in which no id is handed out whose last owner is still being
    swept: no connection is ever in more rooms than the limit, and once all have
    finished the room sets and the member sets agree, every member is a live
    connection, no room is empty, and presence lists the members of a room once
    each with the user they were admitted with. -/
theorem views_agree (config : EngineConfig) (evs : List RoomEvent)
    (h : StepsMeet step IssuesUnswept (.new config) evs) :
    let s := run step (.new config) evs
    (config.maxRoomsPerConnection ≠ 0 → s.WithinLimit config.maxRoomsPerConnection) ∧
      (s.Finished → s.Agrees) :=
  ⟨(roomInv_run config h).withinLimit, (roomInv_run config h).agrees⟩

end RoomSystem

namespace Lobby

open RoomSystem

/-- At most two rooms for each connection. -/
def config : EngineConfig := { EngineConfig.unlimited with maxRoomsPerConnection := 2 }

/-- Slab key 0, and nothing to iterate. -/
def zero : Choice := ⟨0, [], []⟩

/-- The id of the first connection, at slab key 0 of the first shard. -/
def ann : ConnectionId := ConnectionId.new 0 0 0

/-- The id of the second connection, in the next shard. -/
def bob : ConnectionId := ConnectionId.new 1 0 0

/-- `bob` joins the lobby between the leave of its last member and the removal of
    its entry; then the lobby is closed while `bob` disconnects, and `ann` joins
    again before the sweep of `bob` looks whether it is empty. -/
def evs : List RoomEvent :=
  [.call 0 (.connect (some "ann")), .step 0 zero, .step 0 zero, .call 1 (.connect (some "bob")),
    .step 1 zero, .step 1 zero, .call 2 (.join ann "lobby"), .step 2 zero, .step 2 zero,
    .call 3 (.leave ann "lobby"), .step 3 zero, .step 3 zero, .call 4 (.join bob "lobby"),
    .step 4 zero, .step 4 zero, .step 3 zero, .call 5 (.join ann "lobby"), .step 5 zero,
    .step 5 zero, .call 6 (.closeRoom "lobby"), .step 6 ⟨0, [bob, ann], []⟩,
    .step 1 ⟨0, [], ["lobby"]⟩, .step 6 zero, .step 6 zero, .step 6 zero, .step 1 zero,
    .call 7 (.join ann "lobby"), .step 7 zero, .step 7 zero, .step 1 zero]

theorem agrees_evs : (run step (new config) evs).Finished ∧
    (run step (new config) evs).WithinLimit 2 ∧ (run step (new config) evs).Agrees :=
  ⟨by decide +kernel, (views_agree config evs (by decide +kernel)).1 (by decide),
    (views_agree config evs (by decide +kernel)).2 (by decide +kernel)⟩

end Lobby

/-! ## An id that is handed out again -/

namespace Wrapped

open RoomSystem
open EngineConfig (unlimited)
open Lobby (zero)

/-- The first connection joins `r` and disconnects; its sweep has begun. -/
def before : List RoomEvent :=
  [.call 0 (.connect none), .step 0 zero, .step 0 zero, .call 1 (.join 0 "r"), .step 1 zero,
    .step 1 zero, .step 0 ⟨0, [], ["r"]⟩]

/-- A connection that comes and goes. -/
def visit : List RoomEvent :=
  [.call 1 (.connect none), .step 1 zero, .step 1 zero, .step 1 zero]

/-- One more connection joins `r`; then the sweep goes on. -/
def after : List RoomEvent :=
  [.call 1 (.connect none), .step 1 zero, .step 1 zero, .call 2 (.join 0 "r"), .step 2 zero,
    .step 2 zero, .step 0 zero, .step 0 zero]

/-- The slot of shard `k` after `n` connections in all, none of them still there. -/
def slot (n : ℕ) (k : Fin shardCount) : Shard :=
  ⟨∅, if k < n then [UInt32.ofNat ((n - 1 - k) / 16 % 2 ^ 24)] else []⟩

/-- The system in the middle of the sweep, after `n` connections in all. -/
def churned (n : ℕ) : RoomSystem where
  state :=
    { config := unlimited
      registry := ⟨slot n, n⟩
      held := fun _ => false
      rooms := RoomRegistry.addMember ∅ "r" 0 }
  tasks := (∅ : Tasks RoomTask).insert 0 (.cleanup 0 "r" [])

theorem run_before : run step (new unlimited) before = churned 1 := by
  have hshards : (run step (new unlimited) before).state.registry.shards = slot 1 := by
    funext k
    fin_cases k <;> rfl
  have hheld : (run step (new unlimited) before).state.held = fun _ => false := by
    funext k
    fin_cases k <;> rfl
  apply RoomSystem.ext
  · apply RoomState.ext
    · rfl
    · exact ShardedRegistry.ext hshards rfl
    · exact hheld
    · rfl
  · rfl

/-- The next slot gets the next generation. -/
theorem nextGeneration_slot (n : ℕ) (k : Fin shardCount) (hk : n % 16 = k) :
    (slot n k).nextGeneration 0 = UInt32.ofNat (n / 16 % 2 ^ 24) := by
  have hk' : (k : ℕ) < 16 := k.isLt
  unfold slot Shard.nextGeneration
  dsimp only
  by_cases h : (k : ℕ) < n
  · rw [if_pos h]
    apply UInt32.toNat.inj
    show ((UInt32.ofNat ((n - 1 - k) / 16 % 2 ^ 24) + 1) &&& generationMask).toNat = _
    rw [ConnectionId.toNat_and_generationMask, UInt32.toNat_add, UInt32.toNat_ofNat',
      UInt32.toNat_ofNat']
    show ((n - 1 - k) / 16 % 2 ^ 24 % 2 ^ 32 + 1) % 2 ^ 32 % 2 ^ 24 = n / 16 % 2 ^ 24 % 2 ^ 32
    omega
  · rw [if_neg h]
    have hn : n / 16 % 2 ^ 24 = 0 := by omega
    rw [hn]
    rfl

theorem update_slot (n : ℕ) (k : Fin shardCount) (hk : n % 16 = k) :
    Function.update (slot n) k ⟨∅, (slot n k).bump 0⟩ = slot (n + 1) := by
  funext k'
  have hlt : (k : ℕ) < 16 := k.isLt
  have hlt' : (k' : ℕ) < 16 := k'.isLt
  by_cases h : k' = k
  · subst h
    rw [Function.update_self, Shard.bump, nextGeneration_slot n k' hk]
    unfold slot
    dsimp only
    have hdiv : (n + 1 - 1 - k') / 16 = n / 16 := by omega
    rw [if_pos (show (k' : ℕ) < n + 1 by omega), hdiv]
    by_cases hn : (k' : ℕ) < n
    · rw [if_pos hn, if_pos (by simp)]
      rfl
    · rw [if_neg hn, if_neg (by simp)]
      rfl
  · rw [Function.update_of_ne h]
    have hne : (k' : ℕ) ≠ k := fun heq => h (Fin.ext heq)
    unfold slot
    by_cases hn : (k' : ℕ) < n
    · have hdiv : (n + 1 - 1 - k') / 16 = (n - 1 - k') / 16 := by omega
      rw [if_pos hn, if_pos (show (k' : ℕ) < n + 1 by omega), hdiv]
    · rw [if_neg hn, if_neg (show ¬ (k' : ℕ) < n + 1 by omega)]

/-- What is left of the registry after a connection has come and gone. -/
theorem removeFull_insert {r : ShardedRegistry} {k : Fin shardCount} (hslab : (r.shards k).slab = ∅)
    (handle : ConnHandle) (user : Option UserId) :
    (r.insert k 0 handle user).removeFull (r.issued k 0) =
      (some (handle, ∅), r.setShard k ⟨∅, (r.shards k).bump 0⟩) := by
  have hvacant : (r.shards k).Vacant 0 := by
    refine ⟨?_, Nat.zero_le _⟩
    rw [hslab]
    exact AList.notMem_empty 0
  have hfind := @ShardedRegistry.find_insert r (r.issued k 0) k 0 (by decide) hvacant handle user
  rw [if_pos rfl] at hfind
  have hkey : (r.issued k 0).key.toNat = 0 := ShardedRegistry.key_issued k (by decide)
  unfold ShardedRegistry.removeFull ShardedRegistry.setSlot
  rw [hfind, ShardedRegistry.shardOf_issued]
  dsimp only [Option.map_some]
  rw [hkey]
  congr 1
  apply ShardedRegistry.ext
  · funext k'
    by_cases hk : k' = k
    · subst hk
      rw [ShardedRegistry.setShard_self, ShardedRegistry.setShard_self, ShardedRegistry.insert,
        ShardedRegistry.setShard_self, hslab]
      rfl
    · rw [ShardedRegistry.setShard_of_ne hk, ShardedRegistry.setShard_of_ne hk,
        ShardedRegistry.insert, ShardedRegistry.setShard_of_ne hk]
  · rfl

/-- One more connection is at work. -/
def visiting (registry : ShardedRegistry) (T : RoomTask) : RoomSystem where
  state := { (churned 0).state with registry }
  tasks := (churned 0).tasks.insert 1 T

theorem step_visiting {r r' : ShardedRegistry} {T T' : RoomTask}
    (h : T.step zero (visiting r T).state = ((visiting r' T').state, some T')) :
    (visiting r T).step (.step 1 zero) = visiting r' T' := by
  show RoomSystem.mk _ ((visiting r T).tasks.set 1 _) = _
  rw [h]
  rfl

/-- A connection comes to the next shard and goes, and its slot has a new
    generation. -/
theorem run_visit (n : ℕ) : run step (churned n) visit = churned (n + 1) := by
  have hlt : n % shardCount < shardCount := Nat.mod_lt _ (by decide)
  generalize hk : (⟨n % shardCount, hlt⟩ : Fin shardCount) = k
  have hmod : n % 16 = k := by rw [← hk]; rfl
  generalize hr : ShardedRegistry.mk (slot n) (n + 1) = r
  have hslot : r.shards k = slot n k := by rw [← hr]
  generalize hhandle : ConnHandle.new unlimited.highWaterMark unlimited.policy = handle
  have hfetch : run step (churned n) visit =
      run step (visiting r (.insert k none)) [.step 1 zero, .step 1 zero] := by
    rw [← hr, ← hk]
    rfl
  have hinsert : (visiting r (.insert k none)).step (.step 1 zero) =
      visiting (r.insert k 0 handle none) (.connected (r.issued k 0) none) := by
    have hvacant : (r.shards k).Vacant 0 := by
      rw [hslot]
      exact ⟨AList.notMem_empty 0, Nat.zero_le _⟩
    apply step_visiting
    rw [RoomTask.step, ← hhandle]
    exact if_pos ⟨rfl, hvacant⟩
  have hremove : (RoomTask.connected (r.issued k 0) none).step zero
      (visiting (r.insert k 0 handle none) (.connected (r.issued k 0) none)).state =
      ((churned (n + 1)).state, none) := by
    have hbusy : (visiting (r.insert k 0 handle none) (.connected (r.issued k 0) none)).state.busy
        (r.issued k 0) = false := by
      unfold RoomState.busy
      rw [ShardedRegistry.shardOf_issued]
      rfl
    rw [RoomTask.step, hbusy, if_neg Bool.false_ne_true]
    have hempty : (r.shards k).slab = ∅ := by rw [hslot]; rfl
    have hgone := removeFull_insert hempty handle none
    have hregistry : r.setShard k ⟨∅, (r.shards k).bump 0⟩ = ⟨slot (n + 1), n + 1⟩ := by
      rw [hslot, ← hr]
      exact ShardedRegistry.ext (update_slot n k hmod) rfl
    rw [hregistry] at hgone
    have hstate : (visiting (r.insert k 0 handle none)
        (.connected (r.issued k 0) none)).state.registry = r.insert k 0 handle none := rfl
    rw [hstate, hgone]
    exact if_pos (List.Perm.refl [])
  rw [hfetch, run_cons, hinsert, run_cons, run_nil]
  show RoomSystem.mk _ (Tasks.set _ 1 _) = _
  rw [hremove]
  rfl

/-- `n` connections that come and go, one after the other. -/
def visits (n : ℕ) : List RoomEvent := (List.replicate n visit).flatten

theorem run_visits (m n : ℕ) : run step (churned m) (visits n) = churned (m + n) := by
  induction n generalizing m with
  | zero => rfl
  | succ n ih =>
    have hcons : visits (n + 1) = visit ++ visits n := by
      rw [visits, List.replicate_succ, List.flatten_cons, visits]
    rw [hcons, run_append, run_visit, ih]
    congr 1
    omega

/-- The first connection is in a room and disconnects. Between the removal of its
    entry and the first step of its sweep, 2^24 more connections use its slot one
    after the other. The last of them has the id of the first; it joins the room,
    and then the sweep takes it out. -/
def evs : List RoomEvent := before ++ (visits (16 * 2 ^ 24 - 1) ++ after)

/-- Everything has finished; the connection's room set has the room, and the room
    does not have the connection. -/
theorem views_disagree : (run step (new unlimited) evs).Finished ∧
    "r" ∈ (run step (new unlimited) evs).state.registry.roomsAt 0 ∧
    0 ∉ (run step (new unlimited) evs).state.rooms.memberSet "r" := by
  have hrun : run step (new unlimited) evs = run step (churned (1 + (16 * 2 ^ 24 - 1))) after := by
    rw [evs, run_append, run_before, run_append, run_visits]
  have hcount : 1 + (16 * 2 ^ 24 - 1) = 268435456 := rfl
  rw [hrun, hcount]
  decide +kernel

end Wrapped

end BeamSocket.Core
