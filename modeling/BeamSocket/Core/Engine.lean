import BeamSocket.Core.Rooms
import BeamSocket.Lib.Run
import BeamSocket.Mesh.Interest

/-!
# The engine's membership verbs

Model of the clustered engine (`crates/core/src/engine.rs`) as far as its verbs
change who is connected, which rooms they are in and what the node advertises:
`join` and `leave` (lines 416–449), the admin verbs (lines 954–1008) and the two
halves of `run_admitted` around the connection's life (lines 1245–1295).

An operation that removes members or devices withdraws the interest of every
target it may have emptied; one that adds a member advertises the target when
the count is one. `admin_close_room` removes members and withdraws nothing.

* `Engine.Matches`: the advertised set is the set of targets with a local member
  or device.
* `Engine.EdgesExact`: the edges published between two states are the changes of
  the advertised set, one for each.
* `Engine.matches_run`: both hold in every sequential history in which no room
  with members is closed.
* `CloseRoomExample.stale_interest`: a history in which one is.
-/

namespace BeamSocket.Core

open BeamSocket.Lib BeamSocket.Mesh

/-- The part of `Config` that the verbs read. -/
structure EngineConfig where
  maxRoomsPerConnection : ℕ
  highWaterMark : ℕ
  policy : BackpressurePolicy

/-- The default backpressure, and no bound on the rooms of a connection. -/
def EngineConfig.unlimited : EngineConfig := ⟨0, 65536, .disconnect⟩

/-- A clustered engine. `edges` logs what `set_local_interest` has handed to
    `broadcast_frame`, oldest first. -/
structure Engine where
  conns : Registry ConnectionId
  rooms : RoomRegistry ConnectionId
  identity : IdentityRegistry ConnectionId
  config : EngineConfig
  interest : InterestState
  edges : List InterestEdge

namespace Engine

/-- An engine that has just started. -/
def new (config : EngineConfig) (nodeId : NodeId) (routing : Routing) : Engine :=
  { conns := ∅, rooms := ∅, identity := ∅, config, interest := .new nodeId routing, edges := [] }

/-- `set_local_interest` (`node.rs`, lines 492–503), behind `set_room_interest`
    and `set_user_interest`. -/
def setLocalInterest (e : Engine) (t : Target) (hosting : Bool) : Engine :=
  let (interest, edge) := e.interest.localSet t hosting
  { e with interest, edges := e.edges ++ edge.toList }

/-- The local members of a room, `rooms.info(room).members`, or the local devices
    of a user, `identity.device_count(user)`. -/
def count (e : Engine) : Target → ℕ
  | .room room => e.rooms.memberCount room
  | .user user => e.identity.deviceCount user

/-- What the node advertises. -/
def hosts (e : Engine) (t : Target) : Bool := e.interest.localInterest.hosts t

/-- The 0→1 check of `join` and `run_admitted`. -/
def advertise (e : Engine) (t : Target) : Engine :=
  if e.count t = 1 then e.setLocalInterest t true else e

/-- The 1→0 check of `leave` and `run_admitted`. -/
def withdraw (e : Engine) (t : Target) : Engine :=
  if e.count t = 0 then e.setLocalInterest t false else e

/-- `join` (lines 416–433). -/
def join (e : Engine) (id : ConnectionId) (room : RoomId) : Engine × MembershipChange :=
  let (rooms, conns, change) := e.rooms.join e.conns id room e.config.maxRoomsPerConnection
  let e := { e with rooms, conns }
  (if change = .changed then e.advertise (.room room) else e, change)

/-- `leave` (lines 436–449). -/
def leave (e : Engine) (id : ConnectionId) (room : RoomId) : Engine × MembershipChange :=
  let (rooms, conns, change) := e.rooms.leave e.conns id room
  let e := { e with rooms, conns }
  (if change = .changed then e.withdraw (.room room) else e, change)

/-- `run_admitted` from the registry insert up to `run_connection` (lines
    1245–1258), for the id the registry hands out. -/
def setUp (e : Engine) (id : ConnectionId) (user : Option UserId) : Engine :=
  let handle := ConnHandle.new e.config.highWaterMark e.config.policy
  let e := { e with conns := e.conns.register id handle user }
  match user with
  | none => e
  | some u => { e with identity := e.identity.bind u id }.advertise (.user u)

/-- The room half of `run_admitted` behind `run_connection` (lines 1274–1284). -/
def removeConn (e : Engine) (id : ConnectionId) : Engine :=
  match e.conns.removeFull id with
  | (none, _) => e
  | (some (_, joined), conns) =>
    let e := { e with conns, rooms := e.rooms.disconnectCleanup id joined.toList }
    (joined.toList.map Target.room).foldl withdraw e

/-- `run_admitted` behind `run_connection` (lines 1274–1295) for a connection
    that was admitted with `user`. -/
def teardown (e : Engine) (id : ConnectionId) (user : Option UserId) : Engine :=
  let e := e.removeConn id
  match user with
  | none => e
  | some u => { e with identity := e.identity.unbind u id }.withdraw (.user u)

/-- The end of a connection's task, when there is such a connection. -/
def finish (e : Engine) (id : ConnectionId) : Engine :=
  match e.conns.lookup id with
  | none => e
  | some entry => e.teardown id entry.user

/-- `admin_disconnect_socket` (lines 958–967): the close is latched, and the
    connection's task ends. -/
def adminDisconnectSocket (e : Engine) (id : ConnectionId) (code : UInt16) : Engine :=
  { e with conns := e.conns.initiateClose id code "admin disconnect" true }.finish id

/-- `admin_disconnect_user` (lines 977–992): every device is told to close, and
    then their tasks end one after another. -/
def adminDisconnectUser (e : Engine) (user : UserId) (code : UInt16) : Engine :=
  let devices := (e.identity.connections user).getD []
  let close (conns : Registry ConnectionId) (id : ConnectionId) :=
    conns.initiateClose id code "admin disconnect" true
  devices.foldl finish { e with conns := devices.foldl close e.conns }

/-- `admin_close_room` (lines 997–1008). -/
def adminCloseRoom (e : Engine) (room : RoomId) : Engine :=
  let (rooms, conns, _) := e.rooms.closeRoom e.conns room
  { e with rooms, conns }

/-- A completed operation. -/
inductive Op
  | connect (id : ConnectionId) (user : Option UserId)
  | join (id : ConnectionId) (room : RoomId)
  | leave (id : ConnectionId) (room : RoomId)
  | closeRoom (room : RoomId)
  | disconnectSocket (id : ConnectionId) (code : UInt16)
  | disconnectUser (user : UserId) (code : UInt16)
  | disconnect (id : ConnectionId)
  deriving DecidableEq, Repr

/-- One verb, as a whole. -/
def step (e : Engine) : Op → Engine
  | .connect id user => e.setUp id user
  | .join id room => (e.join id room).1
  | .leave id room => (e.leave id room).1
  | .closeRoom room => e.adminCloseRoom room
  | .disconnectSocket id code => e.adminDisconnectSocket id code
  | .disconnectUser user code => e.adminDisconnectUser user code
  | .disconnect id => e.finish id

/-! ## The advertised set -/

theorem hosts_setLocalInterest (e : Engine) (t t' : Target) (b : Bool) :
    (e.setLocalInterest t b).hosts t' = if t' = t then b else e.hosts t' :=
  InterestState.hosts_localSet t t' b

@[simp] theorem count_setLocalInterest (e : Engine) (t t' : Target) (b : Bool) :
    (e.setLocalInterest t b).count t' = e.count t' := by
  cases t' <;> rfl

@[simp] theorem count_advertise (e : Engine) (t t' : Target) :
    (e.advertise t).count t' = e.count t' := by
  unfold advertise
  split_ifs
  · exact e.count_setLocalInterest t t' true
  · rfl

@[simp] theorem count_withdraw (e : Engine) (t t' : Target) :
    (e.withdraw t).count t' = e.count t' := by
  unfold withdraw
  split_ifs
  · exact e.count_setLocalInterest t t' false
  · rfl

@[simp] theorem count_foldl_withdraw (ts : List Target) (e : Engine) (t : Target) :
    (ts.foldl withdraw e).count t = e.count t := by
  induction ts generalizing e with
  | nil => rfl
  | cons a ts ih => rw [List.foldl_cons, ih, count_withdraw]

theorem hosts_withdraw (e : Engine) (t t' : Target) :
    (e.withdraw t).hosts t' = if t' = t ∧ e.count t = 0 then false else e.hosts t' := by
  unfold withdraw
  by_cases hcount : e.count t = 0
  · simp [hcount, hosts_setLocalInterest]
  · simp [hcount]

theorem hosts_foldl_withdraw (ts : List Target) (e : Engine) (t : Target) :
    (ts.foldl withdraw e).hosts t = if t ∈ ts ∧ e.count t = 0 then false else e.hosts t := by
  induction ts generalizing e with
  | nil => simp
  | cons a ts ih =>
    rw [List.foldl_cons, ih, count_withdraw, hosts_withdraw]
    by_cases ha : t = a
    · subst ha
      by_cases hcount : e.count t = 0 <;> simp [hcount]
    · simp [ha]

/-- What is advertised depends on the interest table only. -/
theorem hosts_congr {e₀ e : Engine} (hint : e.interest = e₀.interest) : e.hosts = e₀.hosts := by
  funext t
  unfold hosts
  rw [hint]

/-- The node advertises exactly the targets it has a member or device of. -/
def Matches (e : Engine) : Prop := ∀ t, e.hosts t = decide (e.count t ≠ 0)

/-- Advertising after one member or device has been added. -/
theorem Matches.advertise {e₀ e : Engine} (h : Matches e₀) (hint : e.interest = e₀.interest)
    {t : Target} (hpos : 0 < e.count t) (hle : e.count t ≤ e₀.count t + 1)
    (hother : ∀ t', t' ≠ t → e.count t' = e₀.count t') : Matches (e.advertise t) := by
  have hsame : ∀ t', e.hosts t' = decide (e₀.count t' ≠ 0) := by
    intro t'
    rw [hosts_congr hint, h t']
  intro t'
  rw [count_advertise]
  unfold Engine.advertise
  by_cases ht : t' = t
  · subst ht
    split_ifs with hone
    · rw [hosts_setLocalInterest, if_pos rfl, hone]; rfl
    · rw [hsame, decide_eq_decide]
      omega
  · rw [hother t' ht, ← hsame]
    split_ifs
    · rw [hosts_setLocalInterest, if_neg ht]
    · rfl

/-- Withdrawing after members or devices of `ts` have been removed. -/
theorem Matches.withdraw {e₀ e : Engine} (h : Matches e₀) (hint : e.interest = e₀.interest)
    {ts : List Target} (hle : ∀ t, e.count t ≤ e₀.count t)
    (hother : ∀ t, t ∉ ts → e.count t = e₀.count t) : Matches (ts.foldl Engine.withdraw e) := by
  have hsame : ∀ t, e.hosts t = decide (e₀.count t ≠ 0) := by
    intro t
    rw [hosts_congr hint, h t]
  intro t
  have hlt := hle t
  rw [hosts_foldl_withdraw, count_foldl_withdraw, hsame]
  by_cases ht : t ∈ ts
  · by_cases hcount : e.count t = 0
    · simp [ht, hcount]
    · have hne : e₀.count t ≠ 0 := by omega
      simp [hcount, hne]
  · simp [ht, hother t ht]

theorem Matches.withdraw_one {e₀ e : Engine} (h : Matches e₀) (hint : e.interest = e₀.interest)
    {t : Target} (hle : ∀ t', e.count t' ≤ e₀.count t')
    (hother : ∀ t', t' ∉ [t] → e.count t' = e₀.count t') : Matches (e.withdraw t) :=
  h.withdraw hint hle hother

/-! ## The published edges -/

/-- Between `e` and `e'` one edge was published for every target whose
    advertisement changed, with its new value, and no other. -/
def EdgesExact (e e' : Engine) : Prop :=
  ∃ es, e'.edges = e.edges ++ es ∧ (es.map InterestEdge.target).Nodup ∧
    (∀ x ∈ es, e.hosts x.target ≠ x.add ∧ e'.hosts x.target = x.add) ∧
    ∀ t, e'.hosts t ≠ e.hosts t → ∃ x ∈ es, x.target = t

theorem edgesExact_setLocalInterest (e : Engine) (t : Target) (b : Bool) :
    EdgesExact e (e.setLocalInterest t b) := by
  have hedge : (e.setLocalInterest t b).edges = e.edges ++ (e.interest.localSet t b).2.toList := rfl
  refine ⟨_, hedge, ?_⟩
  rw [InterestState.edge_localSet]
  by_cases h : e.hosts t = b
  · have h' : e.interest.localInterest.hosts t = b := h
    rw [if_pos h']
    refine ⟨List.nodup_nil, by simp, fun t' ht' => absurd ?_ ht'⟩
    rw [hosts_setLocalInterest]
    split_ifs with heq
    · rw [heq, h]
    · rfl
  · have h' : ¬ e.interest.localInterest.hosts t = b := h
    rw [if_neg h']
    refine ⟨by simp, ?_, fun t' ht' => ?_⟩
    · simp [hosts_setLocalInterest, h]
    · rw [hosts_setLocalInterest] at ht'
      split_ifs at ht' with heq
      · simp [heq]
      · exact absurd rfl ht'

/-- Edges are exact and all of them withdraw. -/
def Withdrawn (e e' : Engine) : Prop :=
  EdgesExact e e' ∧ ∀ t, e'.hosts t = true → e.hosts t = true

/-- An operation that touches neither interest nor edges. -/
theorem Withdrawn.of_same {e e' : Engine} (hint : e'.interest = e.interest)
    (hedges : e'.edges = e.edges) : Withdrawn e e' := by
  have hhosts : e'.hosts = e.hosts := hosts_congr hint
  refine ⟨⟨[], by rw [hedges, List.append_nil], List.nodup_nil, by simp, ?_⟩, ?_⟩
  · intro t ht
    rw [hhosts] at ht
    exact absurd rfl ht
  · rw [hhosts]; exact fun _ h => h

/-- An exact edge between two states of which the second hosts nothing new is a withdrawal. -/
theorem withdraws_of_exact {e e' : Engine} {es : List InterestEdge}
    (hexact : ∀ x ∈ es, e.hosts x.target ≠ x.add ∧ e'.hosts x.target = x.add)
    (hoff : ∀ t, e'.hosts t = true → e.hosts t = true) :
    ∀ x ∈ es, e.hosts x.target = true ∧ e'.hosts x.target = false ∧ x.add = false := by
  intro x hx
  obtain ⟨hne, heq⟩ := hexact x hx
  cases hadd : x.add with
  | true =>
    rw [hadd] at hne heq
    exact absurd (hoff _ heq) hne
  | false =>
    rw [hadd] at hne heq
    exact ⟨Bool.eq_true_of_not_eq_false hne, heq, rfl⟩

theorem Withdrawn.trans {e₁ e₂ e₃ : Engine} (h₁ : Withdrawn e₁ e₂) (h₂ : Withdrawn e₂ e₃) :
    Withdrawn e₁ e₃ := by
  obtain ⟨⟨es₁, hes₁, hnd₁, hexact₁, hall₁⟩, hoff₁⟩ := h₁
  obtain ⟨⟨es₂, hes₂, hnd₂, hexact₂, hall₂⟩, hoff₂⟩ := h₂
  -- a target of the first part is off in the middle, one of the second is on
  have hmid₁ := withdraws_of_exact hexact₁ hoff₁
  have hmid₂ := withdraws_of_exact hexact₂ hoff₂
  refine ⟨⟨es₁ ++ es₂, by rw [hes₂, hes₁, List.append_assoc], ?_, ?_, ?_⟩,
    fun t h => hoff₁ t (hoff₂ t h)⟩
  · rw [List.map_append, List.nodup_append]
    refine ⟨hnd₁, hnd₂, ?_⟩
    rintro t ht₁ t' ht₂ rfl
    obtain ⟨x, hx, rfl⟩ := List.mem_map.mp ht₁
    obtain ⟨y, hy, hxy⟩ := List.mem_map.mp ht₂
    have hon := (hmid₂ y hy).1
    rw [hxy, (hmid₁ x hx).2.1] at hon
    cases hon
  · intro x hx
    rcases List.mem_append.mp hx with hx | hx
    · obtain ⟨hon, hoff, hadd⟩ := hmid₁ x hx
      refine ⟨by rw [hon, hadd]; decide, ?_⟩
      rw [hadd]
      exact Bool.eq_false_iff.mpr fun h => by rw [hoff₂ _ h] at hoff; cases hoff
    · obtain ⟨hon, hoff, hadd⟩ := hmid₂ x hx
      exact ⟨by rw [hoff₁ _ hon, hadd]; decide, by rw [hoff, hadd]⟩
  · intro t ht
    by_cases h₂ : e₃.hosts t = e₂.hosts t
    · rw [h₂] at ht
      obtain ⟨x, hx, hxt⟩ := hall₁ t ht
      exact ⟨x, List.mem_append_left _ hx, hxt⟩
    · obtain ⟨x, hx, hxt⟩ := hall₂ t h₂
      exact ⟨x, List.mem_append_right _ hx, hxt⟩

theorem withdrawn_withdraw (e : Engine) (t : Target) : Withdrawn e (e.withdraw t) := by
  unfold withdraw
  split_ifs
  · refine ⟨e.edgesExact_setLocalInterest t false, fun t' h => ?_⟩
    rw [hosts_setLocalInterest] at h
    split_ifs at h
    exact h
  · exact .of_same rfl rfl

/-- Any pass of operations that only withdraw. -/
theorem withdrawn_foldl {ι : Type*} {f : Engine → ι → Engine} (hf : ∀ e i, Withdrawn e (f e i))
    (l : List ι) (e : Engine) : Withdrawn e (l.foldl f e) := by
  induction l generalizing e with
  | nil => exact .of_same rfl rfl
  | cons i l ih => exact (hf e i).trans (ih _)

theorem edgesExact_advertise {e₀ e : Engine} (hint : e.interest = e₀.interest)
    (hedges : e.edges = e₀.edges) (t : Target) : EdgesExact e₀ (e.advertise t) := by
  unfold advertise
  split_ifs
  · have hexact := e.edgesExact_setLocalInterest t true
    unfold EdgesExact at hexact
    rw [hosts_congr hint, hedges] at hexact
    exact hexact
  · exact (Withdrawn.of_same hint hedges).1

/-! ## Each operation -/

variable {e e' : Engine}

/-- The connections that `count` counts. -/
def counted (e : Engine) : Target → OrdSet ConnectionId
  | .room room => e.rooms.memberSet room
  | .user user => e.identity.devices user

theorem count_eq (e : Engine) (t : Target) : e.count t = (e.counted t).card := by
  cases t <;> rfl

/-- One more connection raises the count of its target by at most one. -/
theorem count_of_insert {t : Target} (id : ConnectionId) (h : ∀ t', e'.counted t' =
      if t' = t then (e.counted t').insert id else e.counted t') :
    0 < e'.count t ∧ e'.count t ≤ e.count t + 1 ∧ ∀ t', t' ≠ t → e'.count t' = e.count t' := by
  simp only [count_eq]
  refine ⟨?_, ?_, fun t' ht => ?_⟩
  · rw [h, if_pos rfl]
    exact OrdSet.card_insert_pos
  · rw [h, if_pos rfl]
    exact OrdSet.card_insert_le
  · rw [h, if_neg ht]

/-- A connection less lowers no count but those of its targets. -/
theorem count_of_erase {ts : List Target} (id : ConnectionId) (h : ∀ t, e'.counted t =
      if t ∈ ts then (e.counted t).erase id else e.counted t) :
    (∀ t, e'.count t ≤ e.count t) ∧ ∀ t, t ∉ ts → e'.count t = e.count t := by
  simp only [count_eq]
  refine ⟨fun t => ?_, fun t ht => ?_⟩
  · rw [h]
    split_ifs
    · exact OrdSet.card_erase_le
    · exact le_rfl
  · rw [h, if_neg ht]

theorem count_of_addMember {room : RoomId} {id : ConnectionId}
    (hrooms : e'.rooms = e.rooms.addMember room id) (hid : e'.identity = e.identity) :
    0 < e'.count (.room room) ∧ e'.count (.room room) ≤ e.count (.room room) + 1 ∧
      ∀ t, t ≠ .room room → e'.count t = e.count t := by
  refine count_of_insert id fun t => ?_
  cases t with
  | room room' =>
    simp only [counted, hrooms, RoomRegistry.memberSet_addMember, Target.room.injEq]
    split_ifs with h
    · rw [h]
    · rfl
  | user user => simp [counted, hid]

theorem count_of_bind {user : UserId} {id : ConnectionId} (hrooms : e'.rooms = e.rooms)
    (hid : e'.identity = e.identity.bind user id) :
    0 < e'.count (.user user) ∧ e'.count (.user user) ≤ e.count (.user user) + 1 ∧
      ∀ t, t ≠ .user user → e'.count t = e.count t := by
  refine count_of_insert id fun t => ?_
  cases t with
  | room room => simp [counted, hrooms]
  | user user' =>
    simp only [counted, hid, IdentityRegistry.devices_bind, Target.user.injEq]
    split_ifs with h
    · rw [h]
    · rfl

theorem count_of_disconnectCleanup {joined : List RoomId} {id : ConnectionId}
    (hrooms : e'.rooms = e.rooms.disconnectCleanup id joined) (hid : e'.identity = e.identity) :
    (∀ t, e'.count t ≤ e.count t) ∧ ∀ t, t ∉ joined.map Target.room → e'.count t = e.count t := by
  refine count_of_erase id fun t => ?_
  cases t with
  | room room => simp [counted, hrooms, RoomRegistry.memberSet_disconnectCleanup]
  | user user => simp [counted, hid]

theorem count_of_unbind {user : UserId} {id : ConnectionId} (hrooms : e'.rooms = e.rooms)
    (hid : e'.identity = e.identity.unbind user id) :
    (∀ t, e'.count t ≤ e.count t) ∧ ∀ t, t ∉ [Target.user user] → e'.count t = e.count t := by
  refine count_of_erase id fun t => ?_
  cases t with
  | room room => simp [counted, hrooms]
  | user user' =>
    simp only [counted, hid, IdentityRegistry.devices_unbind, List.mem_singleton,
      Target.user.injEq]
    split_ifs with h
    · rw [h]
    · rfl

/-- The engine with other room and connection tables. -/
def setTables (e : Engine) (rooms : RoomRegistry ConnectionId) (conns : Registry ConnectionId) :
    Engine := { e with rooms, conns }

theorem join_eq (e : Engine) (id : ConnectionId) (room : RoomId) :
    (e.join id room).1 =
      let r := e.rooms.join e.conns id room e.config.maxRoomsPerConnection
      if r.2.2 = .changed then (e.setTables r.1 r.2.1).advertise (.room room)
      else e.setTables r.1 r.2.1 := rfl

theorem leave_eq (e : Engine) (id : ConnectionId) (room : RoomId) :
    (e.leave id room).1 =
      let r := e.rooms.leave e.conns id room
      if r.2.2 = .changed then (e.setTables r.1 r.2.1).withdraw (.room room)
      else e.setTables r.1 r.2.1 := rfl

/-- The room and the connection table after `join`: the room has one member more if the
    outcome is a change, and is as before if not. -/
theorem tables_join (e : Engine) (id : ConnectionId) (room : RoomId) :
    let r := e.rooms.join e.conns id room e.config.maxRoomsPerConnection
    let e' := e.setTables r.1 r.2.1
    (r.2.2 = .changed ∧ 0 < e'.count (.room room) ∧
      e'.count (.room room) ≤ e.count (.room room) + 1 ∧
        ∀ t, t ≠ .room room → e'.count t = e.count t) ∨
      r.2.2 ≠ .changed ∧ r.1 = e.rooms :=
  (e.rooms.join_cases e.conns id room e.config.maxRoomsPerConnection).imp_left
    fun ⟨hchange, hrooms⟩ => ⟨hchange, count_of_addMember hrooms rfl⟩

theorem tables_leave (e : Engine) (id : ConnectionId) (room : RoomId) :
    let r := e.rooms.leave e.conns id room
    let e' := e.setTables r.1 r.2.1
    (r.2.2 = .changed ∧ (∀ t, e'.count t ≤ e.count t) ∧
      ∀ t, t ∉ [Target.room room] → e'.count t = e.count t) ∨
      r.2.2 ≠ .changed ∧ r.1 = e.rooms := by
  intro r e'
  refine (e.rooms.leave_cases e.conns id room).imp_left ?_
  rintro ⟨hchange, hrooms⟩
  have hcleanup : e'.rooms = e.rooms.disconnectCleanup id [room] := hrooms
  exact ⟨hchange, count_of_disconnectCleanup hcleanup rfl⟩

theorem matches_join (h : Matches e) (id : ConnectionId) (room : RoomId) :
    Matches (e.join id room).1 ∧ EdgesExact e (e.join id room).1 := by
  rw [join_eq]
  dsimp only
  rcases e.tables_join id room with ⟨hchange, hpos, hle, hother⟩ | ⟨hchange, hrooms⟩
  · rw [if_pos hchange]
    exact ⟨h.advertise (by rfl) hpos hle hother, edgesExact_advertise (by rfl) (by rfl) _⟩
  · rw [if_neg hchange, hrooms]
    exact ⟨h, (Withdrawn.of_same rfl rfl).1⟩

theorem matches_leave (h : Matches e) (id : ConnectionId) (room : RoomId) :
    Matches (e.leave id room).1 ∧ Withdrawn e (e.leave id room).1 := by
  rw [leave_eq]
  dsimp only
  rcases e.tables_leave id room with ⟨hchange, hle, hother⟩ | ⟨hchange, hrooms⟩
  · rw [if_pos hchange]
    exact ⟨h.withdraw_one (by rfl) hle hother,
      (Withdrawn.of_same (by rfl) (by rfl)).trans (withdrawn_withdraw _ _)⟩
  · rw [if_neg hchange, hrooms]
    exact ⟨h, .of_same rfl rfl⟩

theorem matches_setUp (h : Matches e) (id : ConnectionId) (user : Option UserId) :
    Matches (e.setUp id user) ∧ EdgesExact e (e.setUp id user) := by
  cases user with
  | none => exact ⟨h, (Withdrawn.of_same rfl rfl).1⟩
  | some u =>
    unfold setUp
    dsimp only
    generalize e.conns.register id _ _ = conns
    obtain ⟨hpos, hle, hother⟩ := count_of_bind (rfl : { e with
      conns, identity := e.identity.bind u id }.rooms = e.rooms) rfl
    exact ⟨h.advertise (by rfl) hpos hle hother, edgesExact_advertise (by rfl) (by rfl) _⟩

theorem matches_removeConn (h : Matches e) (id : ConnectionId) :
    Matches (e.removeConn id) ∧ Withdrawn e (e.removeConn id) := by
  unfold removeConn Registry.removeFull
  cases e.conns.lookup id with
  | none => exact ⟨h, .of_same rfl rfl⟩
  | some entry =>
    dsimp only [Option.map_some]
    generalize entry.rooms.toList = joined
    generalize e.conns.erase id = conns
    have htable : (e.setTables (e.rooms.disconnectCleanup id joined) conns).rooms =
      e.rooms.disconnectCleanup id joined := rfl
    obtain ⟨hle, hother⟩ := count_of_disconnectCleanup htable rfl
    have hsame : Withdrawn e (e.setTables (e.rooms.disconnectCleanup id joined) conns) :=
      .of_same rfl rfl
    exact ⟨h.withdraw (by rfl) hle hother, hsame.trans (withdrawn_foldl withdrawn_withdraw _ _)⟩

theorem matches_teardown (h : Matches e) (id : ConnectionId) (user : Option UserId) :
    Matches (e.teardown id user) ∧ Withdrawn e (e.teardown id user) := by
  obtain ⟨hremoved, hwithdrawn⟩ := matches_removeConn h id
  cases user with
  | none => exact ⟨hremoved, hwithdrawn⟩
  | some u =>
    unfold teardown
    dsimp only
    generalize e.removeConn id = r at hremoved hwithdrawn
    obtain ⟨hle, hother⟩ := count_of_unbind
      (rfl : { r with identity := r.identity.unbind u id }.rooms = r.rooms) rfl
    have hsame : Withdrawn r { r with identity := r.identity.unbind u id } := .of_same rfl rfl
    exact ⟨hremoved.withdraw_one (by rfl) hle hother,
      hwithdrawn.trans (hsame.trans (withdrawn_withdraw _ _))⟩

theorem matches_finish (h : Matches e) (id : ConnectionId) :
    Matches (e.finish id) ∧ Withdrawn e (e.finish id) := by
  unfold finish
  split
  · exact ⟨h, .of_same rfl rfl⟩
  · exact matches_teardown h id _

theorem matches_foldl_finish (ids : List ConnectionId) (h : Matches e) :
    Matches (ids.foldl finish e) ∧ Withdrawn e (ids.foldl finish e) := by
  induction ids generalizing e with
  | nil => exact ⟨h, .of_same rfl rfl⟩
  | cons id ids ih =>
    obtain ⟨hone, hwithdrawn⟩ := matches_finish h id
    obtain ⟨hall, hwithdrawn'⟩ := ih hone
    exact ⟨hall, hwithdrawn.trans hwithdrawn'⟩

/-- The operation does not close a room that has members. -/
def ClosesNoMembers (e : Engine) : Op → Prop
  | .closeRoom room => e.rooms.memberCount room = 0
  | _ => True

instance (e : Engine) : DecidablePred (ClosesNoMembers e)
  | .closeRoom room => inferInstanceAs (Decidable (e.rooms.memberCount room = 0))
  | .connect .. => isTrue trivial
  | .join .. => isTrue trivial
  | .leave .. => isTrue trivial
  | .disconnectSocket .. => isTrue trivial
  | .disconnectUser .. => isTrue trivial
  | .disconnect .. => isTrue trivial

theorem matches_step (h : Matches e) {op : Op} (hop : ClosesNoMembers e op) :
    Matches (e.step op) ∧ EdgesExact e (e.step op) := by
  cases op with
  | connect id user => exact matches_setUp h id user
  | join id room => exact matches_join h id room
  | leave id room =>
    obtain ⟨hm, hw⟩ := matches_leave h id room
    exact ⟨hm, hw.1⟩
  | closeRoom room =>
    obtain ⟨hrooms, hconns⟩ := e.rooms.closeRoom_of_memberCount_eq_zero e.conns hop
    have hsame : e.step (.closeRoom room) = e := by
      show { e with
        rooms := (e.rooms.closeRoom e.conns room).1
        conns := (e.rooms.closeRoom e.conns room).2.1 } = e
      rw [hrooms, hconns]
    rw [hsame]
    exact ⟨h, (Withdrawn.of_same rfl rfl).1⟩
  | disconnectSocket id code =>
    have hclosed : Matches { e with
      conns := e.conns.initiateClose id code "admin disconnect" true } := h
    obtain ⟨hm, hw⟩ := matches_finish hclosed id
    exact ⟨hm, hw.1⟩
  | disconnectUser user code =>
    have hclosed : Matches { e with
      conns := ((e.identity.connections user).getD []).foldl
        (fun conns id => conns.initiateClose id code "admin disconnect" true) e.conns } := h
    obtain ⟨hm, hw⟩ := matches_foldl_finish ((e.identity.connections user).getD []) hclosed
    exact ⟨hm, hw.1⟩
  | disconnect id =>
    obtain ⟨hm, hw⟩ := matches_finish h id
    exact ⟨hm, hw.1⟩

theorem matches_new (config : EngineConfig) (nodeId : NodeId) (routing : Routing) :
    Matches (new config nodeId routing) := by
  intro t
  cases t <;> rfl

/-- In every history of completed operations that closes no room with members,
    the node advertises after each operation exactly the rooms with a local
    member and the users with a local device, and the edges the operation
    published are exactly the changes of that set. -/
theorem matches_run (config : EngineConfig) (nodeId : NodeId) (routing : Routing) (ops : List Op)
    (op : Op) (h : StepsMeet step ClosesNoMembers (new config nodeId routing) (ops ++ [op])) :
    let before := run step (new config nodeId routing) ops
    let after := run step (new config nodeId routing) (ops ++ [op])
    Matches after ∧ EdgesExact before after := by
  obtain ⟨hops, hop, -⟩ := (stepsMeet_append ..).mp h
  have hbefore : Matches (run step (new config nodeId routing) ops) :=
    run_invariant_of_stepsMeet (fun e op he hc => (matches_step he hc).1)
      (matches_new config nodeId routing) hops
  intro before after
  have hafter : after = before.step op := run_append ..
  rw [hafter]
  exact matches_step hbefore hop

end Engine

namespace CloseRoomExample

open Engine

/-- One connection joins `lobby`, and the room is closed. -/
def ops : List Op := [.connect 0 none, .join 0 "lobby", .closeRoom "lobby"]

/-- The room is gone and still advertised; its interest was never withdrawn. -/
theorem stale_interest :
    let e := run step (new .unlimited 1 .interest) ops
    e.count (.room "lobby") = 0 ∧ e.hosts (.room "lobby") = true ∧ e.edges.length = 1 := by
  decide +kernel

/-- The member leaves before the room is closed. -/
def leavingOps : List Op :=
  [.connect 0 (some "ann"), .join 0 "lobby", .leave 0 "lobby", .closeRoom "lobby"]

theorem matches_leavingOps :
    Matches (run step (new .unlimited 1 .interest) (leavingOps ++ [.disconnectUser "ann" 1000])) :=
  (matches_run .unlimited 1 .interest leavingOps (.disconnectUser "ann" 1000) (by decide +kernel)).1

end CloseRoomExample

end BeamSocket.Core
