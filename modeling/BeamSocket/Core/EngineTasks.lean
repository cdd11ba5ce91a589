import BeamSocket.Core.Engine

/-!
# The engine's verbs under concurrency

The verbs of `Core.Engine` cut into atomic steps: a mutation of the registry, the
room index or the user index, a count read, or a call of `set_room_interest` or
`set_user_interest`. Joins and leaves run on the JS thread, connection set-ups
and teardowns on any number of tasks (`crates/core/src/engine.rs`, lines 416–449
and 1245–1295). A task is what is left to do of a verb; a run interleaves the
steps of any number of tasks.

* `Finishes.join`, `Finishes.leave`, `Finishes.setUp`, `Finishes.teardown`: run
  alone, the steps of a verb compute the verb.
* `TaskInv.step`: a target between its mutation and its publication belongs to
  one task; every other target is advertised exactly when it is hosted.
* `matches_of_quiescent`: so it is for all targets once every task has finished,
  if no task changed a target that another one had still to publish.
* `TwoDevices.not_matches`: two devices of one user that connect at the same time.
-/

namespace BeamSocket.Core

open BeamSocket.Lib BeamSocket.Mesh

/-- What is left to do of a verb. -/
inductive Task
  | join (id : ConnectionId) (room : RoomId)
  | leave (id : ConnectionId) (room : RoomId)
  /-- `registry.insert`. -/
  | connect (id : ConnectionId) (user : Option UserId)
  /-- `identity.bind`. -/
  | bind (id : ConnectionId) (user : UserId)
  /-- Read the count; it is to be advertised if it is one. -/
  | checkOne (t : Target)
  | advertise (t : Target)
  /-- `registry.remove_full`. -/
  | remove (id : ConnectionId) (user : Option UserId)
  /-- `disconnect_cleanup`: `done` has been taken out of its rooms, `todo` not. -/
  | cleanup (id : ConnectionId) (todo done : List RoomId) (user : Option UserId)
  /-- The withdrawal loop over the rooms: read the count of the next room. -/
  | sweep (id : ConnectionId) (todo : List RoomId) (user : Option UserId)
  /-- The withdrawal of a room that was read to be empty. -/
  | sweepSet (id : ConnectionId) (room : RoomId) (todo : List RoomId) (user : Option UserId)
  /-- `identity.unbind`. -/
  | unbind (id : ConnectionId) (user : UserId)
  /-- Read the count; it is to be withdrawn if it is zero. -/
  | checkZero (t : Target)
  | withdraw (t : Target)
  deriving DecidableEq, Repr

namespace Task

/-- The tail of a teardown for a connection of `user`. -/
def unbindTail (id : ConnectionId) : Option UserId → Option Task
  | none => none
  | some u => some (.unbind id u)

/-- One atomic step: the engine, and what is left to do. -/
def step (e : Engine) : Task → Engine × Option Task
  | .join id room =>
    let r := e.rooms.join e.conns id room e.config.maxRoomsPerConnection
    (e.setTables r.1 r.2.1, if r.2.2 = .changed then some (.checkOne (.room room)) else none)
  | .leave id room =>
    let r := e.rooms.leave e.conns id room
    (e.setTables r.1 r.2.1, if r.2.2 = .changed then some (.checkZero (.room room)) else none)
  | .connect id user =>
    let handle := ConnHandle.new e.config.highWaterMark e.config.policy
    (e.setTables e.rooms (e.conns.register id handle user), user.map (.bind id))
  | .bind id u => ({ e with identity := e.identity.bind u id }, some (.checkOne (.user u)))
  | .checkOne t => (e, if e.count t = 1 then some (.advertise t) else none)
  | .advertise t => (e.setLocalInterest t true, none)
  | .remove id user =>
    match e.conns.removeFull id with
    | (none, _) => (e, unbindTail id user)
    | (some (_, joined), conns) =>
      (e.setTables e.rooms conns, some (.cleanup id joined.toList [] user))
  | .cleanup id [] done user => (e, some (.sweep id done user))
  | .cleanup id (room :: todo) done user =>
    (e.setTables (e.rooms.removeMember room id) e.conns,
      some (.cleanup id todo (done ++ [room]) user))
  | .sweep id [] user => (e, unbindTail id user)
  | .sweep id (room :: todo) user =>
    (e, if e.count (.room room) = 0 then some (.sweepSet id room todo user)
      else some (.sweep id todo user))
  | .sweepSet id room todo user =>
    (e.setLocalInterest (.room room) false, some (.sweep id todo user))
  | .unbind id u => ({ e with identity := e.identity.unbind u id }, some (.checkZero (.user u)))
  | .checkZero t => (e, if e.count t = 0 then some (.withdraw t) else none)
  | .withdraw t => (e.setLocalInterest t false, none)

end Task

/-! ## A verb alone -/

/-- Run without interruption from `e`, the task ends in `e'`. -/
inductive Finishes : Engine → Task → Engine → Prop
  | last {e e' : Engine} {T : Task} (h : T.step e = (e', none)) : Finishes e T e'
  | next {e e₁ e' : Engine} {T T' : Task} (h : T.step e = (e₁, some T'))
    (rest : Finishes e₁ T' e') : Finishes e T e'

namespace Finishes

variable {e : Engine}

theorem checkOne (e : Engine) (t : Target) : Finishes e (.checkOne t) (e.advertise t) := by
  unfold Engine.advertise
  split_ifs with h
  · have hstep : (Task.checkOne t).step e = (e, some (.advertise t)) := by
      rw [Task.step, if_pos h]
    exact .next hstep (.last rfl)
  · refine .last ?_
    rw [Task.step, if_neg h]

theorem checkZero (e : Engine) (t : Target) : Finishes e (.checkZero t) (e.withdraw t) := by
  unfold Engine.withdraw
  split_ifs with h
  · have hstep : (Task.checkZero t).step e = (e, some (.withdraw t)) := by
      rw [Task.step, if_pos h]
    exact .next hstep (.last rfl)
  · refine .last ?_
    rw [Task.step, if_neg h]

theorem join (id : ConnectionId) (room : RoomId) :
    Finishes e (.join id room) (e.join id room).1 := by
  rw [Engine.join_eq]
  dsimp only
  split_ifs with h
  · refine .next ?_ (checkOne _ _)
    rw [Task.step, if_pos h]
  · refine .last ?_
    rw [Task.step, if_neg h]

theorem leave (id : ConnectionId) (room : RoomId) :
    Finishes e (.leave id room) (e.leave id room).1 := by
  rw [Engine.leave_eq]
  dsimp only
  split_ifs with h
  · refine .next ?_ (checkZero _ _)
    rw [Task.step, if_pos h]
  · refine .last ?_
    rw [Task.step, if_neg h]

theorem setUp (id : ConnectionId) (user : Option UserId) :
    Finishes e (.connect id user) (e.setUp id user) := by
  cases user with
  | none => exact .last rfl
  | some u => exact .next rfl (.next rfl (checkOne _ _))

/-- The user half of a teardown. -/
def unbindUser (e : Engine) (id : ConnectionId) : Option UserId → Engine
  | none => e
  | some u => { e with identity := e.identity.unbind u id }.withdraw (.user u)

theorem of_unbindTail {e₁ : Engine} {T : Task} {id : ConnectionId} {user : Option UserId}
    (h : T.step e = (e₁, Task.unbindTail id user)) : Finishes e T (unbindUser e₁ id user) := by
  cases user with
  | none => exact .last h
  | some u => exact .next h (.next rfl (checkZero _ _))

theorem sweep (e : Engine) (id : ConnectionId) (todo : List RoomId) (user : Option UserId) :
    Finishes e (.sweep id todo user)
      (unbindUser ((todo.map Target.room).foldl Engine.withdraw e) id user) := by
  induction todo generalizing e with
  | nil => exact of_unbindTail rfl
  | cons room todo ih =>
    rw [List.map_cons, List.foldl_cons]
    unfold Engine.withdraw
    split_ifs with h
    · have hstep : (Task.sweep id (room :: todo) user).step e =
          (e, some (.sweepSet id room todo user)) := by rw [Task.step, if_pos h]
      exact .next hstep (.next rfl (ih _))
    · have hstep : (Task.sweep id (room :: todo) user).step e =
          (e, some (.sweep id todo user)) := by rw [Task.step, if_neg h]
      exact .next hstep (ih _)

theorem cleanup (e : Engine) (id : ConnectionId) (todo done : List RoomId)
    (user : Option UserId) :
    let cleaned := e.setTables (e.rooms.disconnectCleanup id todo) e.conns
    Finishes e (.cleanup id todo done user)
      (unbindUser (((done ++ todo).map Target.room).foldl Engine.withdraw cleaned) id user) := by
  induction todo generalizing e done with
  | nil =>
    rw [List.append_nil]
    exact .next rfl (sweep e id done user)
  | cons room todo ih =>
    have hrest := ih (e.setTables (e.rooms.removeMember room id) e.conns) (done ++ [room])
    rw [List.append_assoc] at hrest
    exact .next rfl hrest

theorem teardown (id : ConnectionId) (user : Option UserId) :
    Finishes e (.remove id user) (e.teardown id user) := by
  have hteardown : e.teardown id user = unbindUser (e.removeConn id) id user := by
    cases user <;> rfl
  rw [hteardown]
  unfold Engine.removeConn
  rcases hremove : e.conns.removeFull id with ⟨_ | ⟨handle, joined⟩, conns⟩
  · refine of_unbindTail ?_
    rw [Task.step, hremove]
  · refine .next ?_ (cleanup (e.setTables e.rooms conns) id joined.toList [] user)
    rw [Task.step, hremove]

end Finishes

/-! ## What one step does -/

/-- The target matches: it is advertised exactly when it is hosted. -/
def Engine.Settled (e : Engine) (t : Target) : Prop := e.hosts t = decide (e.count t ≠ 0)

/-- The target is advertised if it is hosted. -/
def Engine.Covered (e : Engine) (t : Target) : Prop := e.count t ≠ 0 → e.hosts t = true

/-- The two engines agree on the target. -/
def Engine.Same (e e' : Engine) (t : Target) : Prop :=
  e'.hosts t = e.hosts t ∧ e'.count t = e.count t

theorem Engine.Settled.covered {e : Engine} {t : Target} (h : e.Settled t) : e.Covered t := by
  intro hcount
  rw [h]
  exact decide_eq_true hcount

theorem Engine.Same.settled {e e' : Engine} {t : Target} (h : e.Same e' t) (hs : e.Settled t) :
    e'.Settled t := by
  unfold Settled
  rw [h.1, h.2]
  exact hs

namespace Task

/-- The targets that the task has changed and has still to look at. -/
def pending : Task → List Target
  | .checkOne t | .advertise t | .checkZero t | .withdraw t => [t]
  | .cleanup _ _ done _ => done.map Target.room
  | .sweep _ todo _ => todo.map Target.room
  | .sweepSet _ room todo _ => .room room :: todo.map Target.room
  | _ => []

/-- The target whose members or devices the next step of the task may change. -/
def changes : Task → Option Target
  | .join _ room | .leave _ room | .cleanup _ (room :: _) _ _ => some (.room room)
  | .bind _ u | .unbind _ u => some (.user u)
  | _ => none

/-- What a task relies on about its pending targets. -/
def Ok (e : Engine) : Task → Prop
  | .checkOne t => e.count t ≠ 0 ∧ (e.hosts t = true ∨ e.count t = 1)
  | .advertise t => e.count t ≠ 0
  | .checkZero t => e.Covered t
  | .withdraw t => e.count t = 0
  | .cleanup _ _ done _ => ∀ t ∈ done.map Target.room, e.Covered t
  | .sweep _ todo _ => ∀ t ∈ todo.map Target.room, e.Covered t
  | .sweepSet _ room todo _ =>
    e.count (.room room) = 0 ∧ ∀ t ∈ todo.map Target.room, e.Covered t
  | _ => True

theorem Ok.congr {e e' : Engine} {T : Task} (h : T.Ok e) (hsame : ∀ t ∈ T.pending, e.Same e' t) :
    T.Ok e' := by
  have hcovered : ∀ t ∈ T.pending, e.Covered t → e'.Covered t := by
    intro t ht hc
    unfold Engine.Covered
    rw [(hsame t ht).1, (hsame t ht).2]
    exact hc
  cases T with
  | checkOne t =>
    obtain ⟨hhosts, hcount⟩ := hsame t (List.mem_singleton_self t)
    show e'.count t ≠ 0 ∧ (e'.hosts t = true ∨ e'.count t = 1)
    rw [hhosts, hcount]
    exact h
  | advertise t =>
    show e'.count t ≠ 0
    rw [(hsame t (List.mem_singleton_self t)).2]
    exact h
  | checkZero t => exact hcovered t (List.mem_singleton_self t) h
  | withdraw t =>
    show e'.count t = 0
    rw [(hsame t (List.mem_singleton_self t)).2]
    exact h
  | cleanup id todo done user => exact fun t ht => hcovered t ht (h t ht)
  | sweep id todo user => exact fun t ht => hcovered t ht (h t ht)
  | sweepSet id room todo user =>
    refine ⟨?_, fun t ht => hcovered t (List.mem_cons_of_mem _ ht) (h.2 t ht)⟩
    rw [(hsame _ (List.mem_cons_self ..)).2]
    exact h.1
  | join | leave | connect | bind | remove | unbind => trivial

/-- The step from `T` in `e` to `next` in `e'` touches only targets that are the
    task's own, and leaves those it has finished with settled. -/
structure Local (e : Engine) (T : Task) (e' : Engine) (next : Option Task) : Prop where
  frame : ∀ t, t ∉ T.pending → T.changes ≠ some t → e.Same e' t
  own : ∀ T' ∈ next, ∀ t ∈ T'.pending, t ∈ T.pending ∨ T.changes = some t
  ok : ∀ T' ∈ next, T'.Ok e'
  settled : ∀ t, t ∈ T.pending ∨ T.changes = some t → (∀ T' ∈ next, t ∉ T'.pending) →
    e'.Settled t

variable {e e' : Engine} {T : Task} {t : Target}

/-- A step that changes nothing a target depends on and leaves the same pending. -/
theorem Local.of_same (hsame : ∀ t, e.Same e' t) (hchanges : T.changes = none)
    {next : Option Task} (hpending : ∀ T' ∈ next, T'.pending = T.pending ∧ T'.Ok e')
    (hnone : next = none → T.pending = []) : Local e T e' next where
  frame t _ _ := hsame t
  own T' hT' t ht := .inl ((hpending T' hT').1 ▸ ht)
  ok T' hT' := (hpending T' hT').2
  settled t ht hfree := by
    rw [hchanges] at ht
    rcases ht with ht | ht
    · cases next with
      | none =>
        rw [hnone rfl] at ht
        cases ht
      | some T' =>
        have hfree' := hfree T' rfl
        rw [(hpending T' rfl).1] at hfree'
        exact absurd ht hfree'
    · cases ht

/-- A member or device was added to a settled target. -/
theorem Local.add (hchanges : T.changes = some t) (hpending : T.pending = [])
    (hhosts : e'.hosts = e.hosts) (hpos : 0 < e'.count t) (hle : e'.count t ≤ e.count t + 1)
    (hother : ∀ t', t' ≠ t → e'.count t' = e.count t') (hsettled : e.Settled t) :
    Local e T e' (some (.checkOne t)) where
  frame t' _ ht' := by
    have hne : t' ≠ t := fun h => ht' (by rw [h, hchanges])
    exact ⟨by rw [hhosts], hother t' hne⟩
  own T' hT' t' ht' := by
    cases hT'
    rw [List.mem_singleton.mp ht']
    exact .inr hchanges
  ok T' hT' := by
    cases hT'
    refine ⟨by omega, ?_⟩
    rw [hhosts, hsettled]
    by_cases hzero : e.count t = 0
    · right; omega
    · left; exact decide_eq_true hzero
  settled t' ht' hfree := by
    rw [hchanges, hpending] at ht'
    rcases ht' with ht' | ht'
    · cases ht'
    · cases ht'
      exact absurd (List.mem_singleton_self t) (hfree _ rfl)

/-- A change that was refused. -/
theorem Local.noop (hchanges : T.changes = some t) (hpending : T.pending = [])
    (hsame : ∀ t, e.Same e' t) (hsettled : e.Settled t) : Local e T e' none where
  frame t' _ _ := hsame t'
  own T' hT' := by cases hT'
  ok T' hT' := by cases hT'
  settled t' ht' _ := by
    rw [hchanges, hpending] at ht'
    rcases ht' with ht' | ht'
    · cases ht'
    · cases ht'
      exact (hsame t).settled hsettled

theorem same_setTables (e : Engine) (conns : Registry ConnectionId) (t : Target) :
    e.Same (e.setTables e.rooms conns) t :=
  ⟨rfl, by cases t <;> rfl⟩

/-- After members or devices were removed, what was covered is. -/
theorem covered_of_le (hhosts : e'.hosts = e.hosts) (hle : e'.count t ≤ e.count t)
    (h : e.Covered t) : e'.Covered t := by
  intro hcount
  rw [hhosts]
  apply h
  omega

/-- A member or device was removed from a covered target. -/
theorem Local.drop (hchanges : T.changes = some t) (hhosts : e'.hosts = e.hosts)
    (hother : ∀ t', t' ≠ t → e'.count t' = e.count t') {T' : Task}
    (hpending : ∀ t', t' ∈ T'.pending ↔ t' ∈ T.pending ∨ t' = t) (hok : T'.Ok e') :
    Local e T e' (some T') where
  frame t' _ ht' := by
    have hne : t' ≠ t := fun h => ht' (by rw [h, hchanges])
    exact ⟨by rw [hhosts], hother t' hne⟩
  own U hU t' ht' := by
    cases hU
    rcases (hpending t').mp ht' with h | h
    · exact .inl h
    · exact .inr (by rw [h, hchanges])
  ok U hU := by
    cases hU
    exact hok
  settled t' ht' hfree := by
    refine absurd ((hpending t').mpr ?_) (hfree T' rfl)
    rcases ht' with h | h
    · exact .inl h
    · rw [hchanges] at h
      exact .inr (Option.some.inj h).symm

/-- The last step of a task that only reads or publishes. -/
theorem Local.last (hchanges : T.changes = none) (hpending : T.pending = [t])
    (hother : ∀ t', t' ≠ t → e.Same e' t') (hsettled : e'.Settled t) : Local e T e' none where
  frame t' ht' _ := by
    rw [hpending, List.mem_singleton] at ht'
    exact hother t' ht'
  own T' hT' := by cases hT'
  ok T' hT' := by cases hT'
  settled t' ht' _ := by
    rw [hchanges, hpending, List.mem_singleton] at ht'
    rcases ht' with rfl | ht'
    · exact hsettled
    · cases ht'

theorem same_setLocalInterest (e : Engine) {t t' : Target} (b : Bool) (h : t' ≠ t) :
    e.Same (e.setLocalInterest t b) t' :=
  ⟨by rw [Engine.hosts_setLocalInterest, if_neg h], e.count_setLocalInterest t t' b⟩

theorem settled_setLocalInterest (e : Engine) {t : Target} {b : Bool}
    (h : b = decide (e.count t ≠ 0)) : (e.setLocalInterest t b).Settled t := by
  unfold Engine.Settled
  rw [Engine.hosts_setLocalInterest, if_pos rfl, Engine.count_setLocalInterest]
  exact h

theorem same_refl (e : Engine) (t : Target) : e.Same e t := ⟨rfl, rfl⟩

/-- What is left of a teardown has nothing pending. -/
theorem unbindTail_spec {id : ConnectionId} {user : Option UserId} (T' : Task)
    (h : T' ∈ unbindTail id user) : T'.pending = [] ∧ T'.Ok e := by
  cases user with
  | none => cases h
  | some u =>
    cases h
    exact ⟨rfl, trivial⟩

theorem local_join (id : ConnectionId) (room : RoomId) (h : e.Settled (.room room)) :
    Local e (.join id room) ((Task.join id room).step e).1 ((Task.join id room).step e).2 := by
  rw [step]
  dsimp only
  rcases e.tables_join id room with ⟨hchange, hpos, hle, hother⟩ | ⟨hchange, hrooms⟩
  · rw [if_pos hchange]
    exact .add rfl rfl rfl hpos hle hother h
  · rw [if_neg hchange, hrooms]
    exact .noop rfl rfl (same_setTables e _) h

theorem local_leave (id : ConnectionId) (room : RoomId) (h : e.Settled (.room room)) :
    Local e (.leave id room) ((Task.leave id room).step e).1 ((Task.leave id room).step e).2 := by
  rw [step]
  dsimp only
  rcases e.tables_leave id room with ⟨hchange, hle, hother⟩ | ⟨hchange, hrooms⟩
  · rw [if_pos hchange]
    refine .drop (t := .room room) rfl (by rfl) (fun t ht => hother t (by simpa using ht)) ?_
      (covered_of_le (by rfl) (hle _) h.covered)
    simp [pending]
  · rw [if_neg hchange, hrooms]
    exact .noop rfl rfl (same_setTables e _) h

/-- One removal of `disconnect_cleanup`. The room is either settled or, had the
    list named it before, already pending. -/
theorem local_cleanup (id : ConnectionId) (room : RoomId) (todo done : List RoomId)
    (user : Option UserId) (hok : (Task.cleanup id (room :: todo) done user).Ok e)
    (h : e.Covered (.room room)) :
    Local e (.cleanup id (room :: todo) done user)
      (e.setTables (e.rooms.removeMember room id) e.conns)
      (some (.cleanup id todo (done ++ [room]) user)) := by
  have htable : (e.setTables (e.rooms.removeMember room id) e.conns).rooms =
    e.rooms.disconnectCleanup id [room] := rfl
  obtain ⟨hle, hother⟩ := Engine.count_of_disconnectCleanup htable rfl
  have hcovered : (Task.cleanup id todo (done ++ [room]) user).Ok
      (e.setTables (e.rooms.removeMember room id) e.conns) := by
    intro t ht
    rw [List.map_append, List.mem_append] at ht
    rcases ht with ht | ht
    · exact covered_of_le (by rfl) (hle t) (hok t ht)
    · rw [List.map_singleton, List.mem_singleton] at ht
      rw [ht]
      exact covered_of_le (by rfl) (hle _) h
  refine .drop (t := .room room) rfl (by rfl) (fun t ht => hother t (by simpa using ht)) ?_
    hcovered
  simp [pending, eq_comm]

theorem local_bind (id : ConnectionId) (u : UserId) (h : e.Settled (.user u)) :
    Local e (.bind id u) { e with identity := e.identity.bind u id }
      (some (.checkOne (.user u))) := by
  obtain ⟨hpos, hle, hother⟩ := Engine.count_of_bind
    (rfl : { e with identity := e.identity.bind u id }.rooms = e.rooms) rfl
  exact .add rfl rfl rfl hpos hle hother h

theorem local_unbind (id : ConnectionId) (u : UserId) (h : e.Settled (.user u)) :
    Local e (.unbind id u) { e with identity := e.identity.unbind u id }
      (some (.checkZero (.user u))) := by
  obtain ⟨hle, hother⟩ := Engine.count_of_unbind
    (rfl : { e with identity := e.identity.unbind u id }.rooms = e.rooms) rfl
  have hcovered : { e with identity := e.identity.unbind u id }.Covered (.user u) :=
    covered_of_le (by rfl) (hle _) h.covered
  refine .drop (t := .user u) rfl (by rfl) (fun t ht => hother t (by simpa using ht)) ?_ hcovered
  simp [pending]

theorem local_checkOne (t : Target) (hok : (Task.checkOne t).Ok e) :
    Local e (.checkOne t) e (if e.count t = 1 then some (.advertise t) else none) := by
  split_ifs with hone
  · refine .of_same (same_refl e) rfl ?_ (by simp)
    rintro _ ⟨⟩
    exact ⟨rfl, hok.1⟩
  · refine .last rfl rfl (fun t' _ => same_refl e t') ?_
    rw [Engine.Settled, hok.2.resolve_right hone]
    exact (decide_eq_true hok.1).symm

theorem local_checkZero (t : Target) (hok : (Task.checkZero t).Ok e) :
    Local e (.checkZero t) e (if e.count t = 0 then some (.withdraw t) else none) := by
  split_ifs with hzero
  · refine .of_same (same_refl e) rfl ?_ (by simp)
    rintro _ ⟨⟩
    exact ⟨rfl, hzero⟩
  · refine .last rfl rfl (fun t' _ => same_refl e t') ?_
    rw [Engine.Settled, hok hzero]
    exact (decide_eq_true hzero).symm

theorem local_sweep (id : ConnectionId) (room : RoomId) (todo : List RoomId)
    (user : Option UserId) (hok : (Task.sweep id (room :: todo) user).Ok e) :
    Local e (.sweep id (room :: todo) user) e
      (if e.count (.room room) = 0 then some (.sweepSet id room todo user)
        else some (.sweep id todo user)) := by
  have htail : ∀ t ∈ todo.map Target.room, e.Covered t :=
    fun t ht => hok t (List.mem_cons_of_mem _ ht)
  split_ifs with hzero
  · refine .of_same (same_refl e) rfl ?_ (by simp)
    rintro _ ⟨⟩
    exact ⟨rfl, hzero, htail⟩
  · refine ⟨fun t _ _ => same_refl e t, ?_, ?_, ?_⟩
    · rintro _ ⟨⟩ t ht
      exact .inl (List.mem_cons_of_mem _ ht)
    · rintro _ ⟨⟩
      exact htail
    · rintro t (ht | ht) hfree
      · rcases List.mem_cons.mp ht with rfl | ht
        · have hhosts : e.hosts (.room room) = true := hok _ ht hzero
          rw [Engine.Settled, hhosts]
          exact (decide_eq_true hzero).symm
        · exact absurd ht (hfree _ rfl)
      · cases ht

theorem local_sweepSet (id : ConnectionId) (room : RoomId) (todo : List RoomId)
    (user : Option UserId) (hok : (Task.sweepSet id room todo user).Ok e) :
    Local e (.sweepSet id room todo user) (e.setLocalInterest (.room room) false)
      (some (.sweep id todo user)) := by
  obtain ⟨hzero, htail⟩ := hok
  refine ⟨?_, ?_, ?_, ?_⟩
  · intro t ht _
    exact same_setLocalInterest e false fun h => ht (h ▸ List.mem_cons_self ..)
  · rintro _ ⟨⟩ t ht
    exact .inl (List.mem_cons_of_mem _ ht)
  · rintro _ ⟨⟩ t ht hcount
    rw [Engine.count_setLocalInterest] at hcount
    -- the room just withdrawn is empty, so it is not `t`
    have hne : t ≠ .room room := fun h => hcount (h ▸ hzero)
    rw [(same_setLocalInterest e false hne).1]
    exact htail t ht hcount
  · rintro t (ht | ht) hfree
    · rcases List.mem_cons.mp ht with rfl | ht
      · exact settled_setLocalInterest e (by rw [hzero]; rfl)
      · exact absurd ht (hfree _ rfl)
    · cases ht

/-- Every step of a task whose target nobody else has pending is local to it. -/
theorem local_step (T : Task) (hok : T.Ok e)
    (hfree : ∀ t, T.changes = some t → t ∉ T.pending → e.Settled t) :
    Local e T (T.step e).1 (T.step e).2 := by
  cases T with
  | join id room => exact local_join id room (hfree _ rfl List.not_mem_nil)
  | leave id room => exact local_leave id room (hfree _ rfl List.not_mem_nil)
  | connect id user =>
    refine .of_same (same_setTables e _) rfl ?_ fun _ => rfl
    cases user with
    | none => rintro _ ⟨⟩
    | some u =>
      rintro _ ⟨⟩
      exact ⟨rfl, trivial⟩
  | bind id u => exact local_bind id u (hfree _ rfl List.not_mem_nil)
  | checkOne t => exact local_checkOne t hok
  | advertise t =>
    have hcount : e.count t ≠ 0 := hok
    exact .last rfl rfl (fun t' h => same_setLocalInterest e true h)
      (settled_setLocalInterest e (decide_eq_true hcount).symm)
  | remove id user =>
    rw [step]
    rcases e.conns.removeFull id with ⟨_ | ⟨handle, joined⟩, conns⟩
    · exact .of_same (same_refl e) rfl unbindTail_spec fun _ => rfl
    · refine .of_same (same_setTables e conns) rfl ?_ fun _ => rfl
      rintro _ ⟨⟩
      exact ⟨rfl, fun t ht => absurd ht List.not_mem_nil⟩
  | cleanup id todo done user =>
    cases todo with
    | nil =>
      refine .of_same (same_refl e) rfl ?_ (fun h => by cases h)
      rintro _ ⟨⟩
      exact ⟨rfl, hok⟩
    | cons room todo =>
      refine local_cleanup id room todo done user hok ?_
      by_cases hdone : Target.room room ∈ done.map Target.room
      · exact hok _ hdone
      · exact (hfree _ rfl hdone).covered
  | sweep id todo user =>
    cases todo with
    | nil => exact .of_same (same_refl e) rfl unbindTail_spec fun _ => rfl
    | cons room todo => exact local_sweep id room todo user hok
  | sweepSet id room todo user => exact local_sweepSet id room todo user hok
  | unbind id u => exact local_unbind id u (hfree _ rfl List.not_mem_nil)
  | checkZero t => exact local_checkZero t hok
  | withdraw t =>
    have hzero : e.count t = 0 := hok
    exact .last rfl rfl (fun t' h => same_setLocalInterest e false h)
      (settled_setLocalInterest e (by rw [hzero]; rfl))

end Task

/-! ## Interleavings -/

/-- A verb that is called. -/
inductive Call
  | connect (id : ConnectionId) (user : Option UserId)
  | join (id : ConnectionId) (room : RoomId)
  | leave (id : ConnectionId) (room : RoomId)
  | disconnect (id : ConnectionId)
  deriving DecidableEq, Repr

/-- All that the verb has to do. A teardown unbinds the user that the connection
    was admitted with. -/
def Call.task (e : Engine) : Call → Task
  | .connect id user => .connect id user
  | .join id room => .join id room
  | .leave id room => .leave id room
  | .disconnect id => .remove id ((e.conns.lookup id).bind Entry.user)

/-- An engine and the tasks at work on it, by a number for each. -/
structure TaskSystem where
  engine : Engine
  tasks : AList fun _ : ℕ => Task

/-- What can happen: a verb is called, or one that runs takes a step. -/
inductive TaskEvent
  /-- A verb is called, under a number that is not in use. -/
  | call (i : ℕ) (c : Call)
  /-- The task takes its next atomic step. -/
  | step (i : ℕ)
  deriving DecidableEq, Repr

namespace TaskSystem

/-- An engine without tasks. -/
def new (config : EngineConfig) (nodeId : NodeId) (routing : Routing) : TaskSystem :=
  { engine := .new config nodeId routing, tasks := ∅ }

/-- The tasks after number `i` has stepped to `next`. -/
def setTask (tasks : AList fun _ : ℕ => Task) (i : ℕ) : Option Task → AList fun _ : ℕ => Task
  | none => tasks.erase i
  | some T => tasks.insert i T

/-- One event; a task that has ended is taken out. -/
def step (s : TaskSystem) : TaskEvent → TaskSystem
  | .call i c =>
    match s.tasks.lookup i with
    | none => { s with tasks := s.tasks.insert i (c.task s.engine) }
    | some _ => s
  | .step i =>
    match s.tasks.lookup i with
    | none => s
    | some T => { engine := (T.step s.engine).1, tasks := setTask s.tasks i (T.step s.engine).2 }

/-- No task changes the members or devices of a target that another task has
    changed and not yet published. -/
def Exclusive (s : TaskSystem) : TaskEvent → Prop
  | .call .. => True
  | .step i => ∀ t ∈ (s.tasks.lookup i).bind Task.changes,
      ∀ x ∈ s.tasks.entries, x.1 ≠ i → t ∉ x.2.pending

instance (s : TaskSystem) : DecidablePred s.Exclusive
  | .call .. => isTrue trivial
  | .step i => inferInstanceAs (Decidable (∀ t ∈ (s.tasks.lookup i).bind Task.changes,
      ∀ x ∈ s.tasks.entries, x.1 ≠ i → t ∉ x.2.pending))

theorem lookup_setTask (tasks : AList fun _ : ℕ => Task) (i j : ℕ) (next : Option Task) :
    (setTask tasks i next).lookup j = if j = i then next else tasks.lookup j := by
  cases next with
  | none => exact lookup_erase tasks i j
  | some T => exact lookup_insert tasks i j T

/-- A target is pending with at most one task, which can rely on it, and is
    settled when it is pending with none. -/
structure TaskInv (s : TaskSystem) : Prop where
  ok : ∀ i, ∀ T ∈ s.tasks.lookup i, T.Ok s.engine
  disjoint : ∀ i j, i ≠ j → ∀ T ∈ s.tasks.lookup i, ∀ U ∈ s.tasks.lookup j,
    ∀ t ∈ T.pending, t ∉ U.pending
  settled : ∀ t, (∀ i, ∀ T ∈ s.tasks.lookup i, t ∉ T.pending) → s.engine.Settled t

variable {s : TaskSystem}

theorem TaskInv.new (config : EngineConfig) (nodeId : NodeId) (routing : Routing) :
    TaskInv (new config nodeId routing) where
  ok i T hT := by cases hT
  disjoint i j _ T hT := by cases hT
  settled t _ := Engine.matches_new config nodeId routing t

/-- A verb that has just been called has nothing pending. -/
theorem pending_task (e : Engine) (c : Call) : (c.task e).pending = [] ∧ (c.task e).Ok e := by
  cases c <;> exact ⟨rfl, trivial⟩

/-- A step that is local to its task, on targets that no other task has pending. -/
theorem TaskInv.of_local (h : TaskInv s) {i : ℕ} {T : Task} (hT : T ∈ s.tasks.lookup i)
    {e' : Engine} {next : Option Task} (hlocal : T.Local s.engine e' next)
    (hown : ∀ t, t ∈ T.pending ∨ T.changes = some t →
      ∀ j, j ≠ i → ∀ U ∈ s.tasks.lookup j, t ∉ U.pending) :
    TaskInv { engine := e', tasks := setTask s.tasks i next } := by
  -- what another task has pending was not touched
  have hsame : ∀ j, j ≠ i → ∀ U ∈ s.tasks.lookup j, ∀ t ∈ U.pending, s.engine.Same e' t := by
    intro j hj U hU t ht
    exact hlocal.frame t (fun hp => hown t (.inl hp) j hj U hU ht)
      fun hc => hown t (.inr hc) j hj U hU ht
  refine ⟨?_, ?_, ?_⟩
  · intro j U hU
    rw [lookup_setTask] at hU
    split_ifs at hU with hj
    · exact hlocal.ok U hU
    · exact (h.ok j U hU).congr (hsame j hj U hU)
  · intro j k hjk U hU V hV t htU htV
    rw [lookup_setTask] at hU hV
    split_ifs at hU hV with hj hk hk
    · exact hjk (hj.trans hk.symm)
    · exact hown t (hlocal.own U hU t htU) k hk V hV htV
    · exact hown t (hlocal.own V hV t htV) j hj U hU htU
    · exact h.disjoint j k hjk U hU V hV t htU htV
  · intro t hfree
    have hnext : ∀ T' ∈ next, t ∉ T'.pending := by
      intro T' hT'
      apply hfree i T'
      rw [lookup_setTask, if_pos rfl]
      exact hT'
    by_cases hmine : t ∈ T.pending ∨ T.changes = some t
    · exact hlocal.settled t hmine hnext
    · rw [not_or] at hmine
      refine (hlocal.frame t hmine.1 hmine.2).settled (h.settled t fun j U hU => ?_)
      by_cases hj : j = i
      · subst hj
        rw [Option.mem_unique hU hT]
        exact hmine.1
      · apply hfree j U
        rw [lookup_setTask, if_neg hj]
        exact hU

theorem TaskInv.step (h : TaskInv s) {ev : TaskEvent} (hev : s.Exclusive ev) :
    TaskInv (s.step ev) := by
  cases ev with
  | call i c =>
    rw [TaskSystem.step]
    obtain ⟨hpending, hok⟩ := pending_task s.engine c
    cases hi : s.tasks.lookup i with
    | some T => exact h
    | none =>
      -- a task with something pending was there before
      have hold : ∀ j, ∀ U ∈ (s.tasks.insert i (c.task s.engine)).lookup j, ∀ t ∈ U.pending,
          U ∈ s.tasks.lookup j := by
        intro j U hU t ht
        rw [lookup_insert] at hU
        split_ifs at hU
        · cases hU
          rw [hpending] at ht
          cases ht
        · exact hU
      refine ⟨?_, ?_, ?_⟩
      · intro j U hU
        rw [lookup_insert] at hU
        split_ifs at hU
        · cases hU
          exact hok
        · exact h.ok j U hU
      · intro j k hjk U hU V hV t htU htV
        exact h.disjoint j k hjk U (hold j U hU t htU) V (hold k V hV t htV) t htU htV
      · intro t hfree
        refine h.settled t fun j U hU => hfree j U ?_
        have hj : j ≠ i := by
          rintro rfl
          rw [hi] at hU
          cases hU
        rw [lookup_insert, if_neg hj]
        exact hU
  | step i =>
    rw [TaskSystem.step]
    cases hi : s.tasks.lookup i with
    | none => exact h
    | some T =>
      have hothers : ∀ t, T.changes = some t →
          ∀ j, j ≠ i → ∀ U ∈ s.tasks.lookup j, t ∉ U.pending := by
        intro t ht j hj U hU
        refine hev t ?_ ⟨j, U⟩ (AList.mem_lookup_iff.mp hU) hj
        rw [hi]
        exact ht
      refine h.of_local hi (T.local_step (h.ok i T hi) fun t ht hmine => ?_) ?_
      · refine h.settled t fun j U hU => ?_
        by_cases hj : j = i
        · subst hj
          rw [Option.mem_unique hU hi]
          exact hmine
        · exact hothers t ht j hj U hU
      · rintro t (ht | ht) j hj U hU
        · exact h.disjoint i j (Ne.symm hj) T hi U hU t ht
        · exact hothers t ht j hj U hU

theorem taskInv_run (config : EngineConfig) (nodeId : NodeId) (routing : Routing)
    {evs : List TaskEvent} (h : StepsMeet step Exclusive (.new config nodeId routing) evs) :
    TaskInv (run step (.new config nodeId routing) evs) :=
  run_invariant_of_stepsMeet (fun _ _ hs hev => TaskInv.step hs hev)
    (TaskInv.new config nodeId routing) h

/-- In every interleaving of joins, leaves, connection set-ups and teardowns in
    which no task changes a target that another one has changed and not yet
    published, once all have finished the node advertises exactly the rooms with
    a local member and the users with a local device. -/
theorem matches_of_quiescent (config : EngineConfig) (nodeId : NodeId) (routing : Routing)
    (evs : List TaskEvent) (h : StepsMeet step Exclusive (.new config nodeId routing) evs)
    (hdone : (run step (.new config nodeId routing) evs).tasks.entries = []) :
    (run step (.new config nodeId routing) evs).engine.Matches := by
  intro t
  refine (taskInv_run config nodeId routing h).settled t fun i T hT => ?_
  have hmem := AList.mem_lookup_iff.mp hT
  rw [hdone] at hmem
  cases hmem

end TaskSystem

namespace TwoDevices

open TaskSystem

/-- Two devices of `ann` connect: both insert and bind before either reads the
    device count. The second id is the first one of the next registry shard. -/
def evs : List TaskEvent :=
  [.call 0 (.connect 0 (some "ann")), .call 1 (.connect (ConnectionId.new 1 0 0) (some "ann")),
    .step 0, .step 1, .step 0, .step 1, .step 0, .step 1]

/-- Both have finished, both read a count of two, and `ann` is not advertised. -/
theorem not_matches :
    let s := run step (new .unlimited 1 .interest) evs
    s.tasks.entries = [] ∧ s.engine.count (.user "ann") = 2 ∧
      s.engine.hosts (.user "ann") = false := by
  decide +kernel

/-- The second device binds after the first has published, while the first joins
    a room; then the first one disconnects. -/
def exclusiveEvs : List TaskEvent :=
  [.call 0 (.connect 0 (some "ann")), .call 1 (.connect (ConnectionId.new 1 0 0) (some "ann")),
    .step 0, .step 1, .step 0, .step 0, .step 0, .call 2 (.join 0 "lobby"), .step 2, .step 1,
    .step 2, .step 1, .step 2, .call 3 (.disconnect 0)] ++ List.replicate 8 (.step 3)

theorem matches_exclusiveEvs :
    (run step (new .unlimited 1 .interest) exclusiveEvs).engine.Matches :=
  matches_of_quiescent .unlimited 1 .interest exclusiveEvs (by decide +kernel) (by decide +kernel)

end TwoDevices

end BeamSocket.Core
