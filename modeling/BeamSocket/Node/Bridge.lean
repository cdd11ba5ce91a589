import BeamSocket.Core.Connection
import BeamSocket.Node.Drain

/-!
# From the connections to the flushes

The event path of a server: any number of connection tasks (`run_connection`, lines
163–227, around the reader, writer and close initiations of `Core.Connection`) and
authorize requests, the bounded channel of `Core.Events`, and the drain loop. An awaited
control event is sent in two steps, the permit and the push; who gets a free permit is
open. The bridge is alive: the receiver is not dropped.

`sent` logs the events that entered the channel with the number of their task. Numbers are
never used twice, whereas connection ids can be.

* `Bridge.Orderly`: what every connection has sent, by its phase, and where it is now.
* `Bridge.events_in_order`: the same for the events that are decoded from the flushes.
* `Huge.message_emptied`: a message of 2³² bytes is delivered without its bytes.
-/

namespace BeamSocket.Core

open BeamSocket.Lib

/-- The arguments of `try_message`. -/
def ReadEffect.data : ReadEffect → Option (Bytes × Bool)
  | .message payload isBinary => some (payload, isBinary)
  | .control _ => none

namespace Connection

/-- The data frame that a step of the reader hands to `try_message`. -/
def dataRead (s : Connection) : ConnEvent → Option (Bytes × Bool)
  | .reader poll => (s.read poll).2.bind ReadEffect.data
  | _ => none

theorem inbox_trySend (s : Connection) (c : Control) : (s.trySend c).inbox = s.inbox := by
  unfold trySend
  split_ifs <;> rfl

theorem inbox_start (s : Connection) (i : ℕ) (c : HandleCall) : (s.start i c).inbox = s.inbox := by
  unfold start
  split_ifs <;> rfl

/-- `inbox` logs what is read. -/
theorem inbox_step (s : Connection) (e : ConnEvent) :
    (s.step e).inbox = s.inbox ++ (s.dataRead e).toList := by
  cases e with
  | reader poll =>
    show ({ s with reader := (s.read poll).1 }.effect (s.read poll).2).inbox =
      s.inbox ++ ((s.read poll).2.bind ReadEffect.data).toList
    cases (s.read poll).2 with
    | none => simp [effect]
    | some what =>
      cases what with
      | message payload isBinary => rfl
      | control c => simp [effect, inbox_trySend, ReadEffect.data]
  | send i frame => simp [step, inbox_start, dataRead]
  | close i cmd => simp [step, inbox_start, dataRead]
  | call i =>
    rw [show s.dataRead (.call i) = none from rfl, Option.toList_none, List.append_nil]
    cases h : s.calls.lookup i with
    | none => rw [step_call_none h]
    | some c =>
      rw [step_call h]
      cases c with
      | nudge code reason => exact inbox_trySend _ _
      | _ => rfl
  | teardown =>
    simp only [step, dataRead]
    split_ifs <;> simp
  | _ => simp [step, dataRead]

end Connection

end BeamSocket.Core

namespace BeamSocket.Node

open BeamSocket.Core BeamSocket.Lib

/-! ## The tasks -/

/-- Where `run_connection` is: at the `control` of the Opened event, at the reader and the
    teardown, at the `control` of the Closed event, or at its end. -/
inductive ConnPhase
  | opening
  | running
  | closing (code : UInt16) (reason : String)
  | finished (code : UInt16) (reason : String)
  deriving DecidableEq

/-- A call of `run_connection`. -/
structure ConnTask where
  id : ConnectionId
  authRequest : Option UInt64
  phase : ConnPhase
  conn : Connection

/-- A connection, or an authorize request that has entered the channel or not. -/
inductive BridgeWork
  | conn (c : ConnTask)
  | authorize (requestId : UInt64) (clientIp url : String) (headers : List (String × String))
      (done : Bool)

/-- A task, and whether it has a permit for its next control event. -/
structure BridgeTask where
  work : BridgeWork
  permit : Bool

namespace ConnTask

variable (c : ConnTask)

/-- The control event that the task is sending. -/
def pending : Option EngineEvent :=
  match c.phase with
  | .opening => some (.connectionOpened c.id c.authRequest)
  | .closing code reason => some (.connectionClosed c.id code reason)
  | _ => none

/-- The task goes on behind `control`. -/
def advance : ConnTask :=
  match c.phase with
  | .opening => { c with phase := .running }
  | .closing code reason => { c with phase := .finished code reason }
  | _ => c

/-- The event is a step that the connection can make: its loops run between the Opened and
    the Closed event, and its handle can be used at any time. -/
def CanStep : ConnEvent → Prop
  | .reader _ | .writer _ | .teardown => c.phase = .running
  | _ => True

instance : DecidablePred c.CanStep
  | .reader _ | .writer _ | .teardown => inferInstanceAs (Decidable (c.phase = .running))
  | .send .. | .close .. | .call _ | .advance _ => isTrue trivial

end ConnTask

namespace BridgeWork

/-- The control event that the task has to send next. -/
def pending : BridgeWork → Option EngineEvent
  | .conn c => c.pending
  | .authorize requestId clientIp url headers done =>
    if done then none else some (.authorize requestId clientIp url headers)

/-- The task goes on behind `control`. -/
def advance : BridgeWork → BridgeWork
  | .conn c => .conn c.advance
  | .authorize requestId clientIp url headers _ =>
    .authorize requestId clientIp url headers true

/-- The task has no more events to send. -/
def Done : BridgeWork → Prop
  | .conn c => ∃ code reason, c.phase = .finished code reason
  | .authorize _ _ _ _ done => done = true

/-- The data frames that were read. -/
def reads : BridgeWork → ℕ
  | .conn c => c.conn.inbox.length
  | .authorize .. => 0

end BridgeWork

/-! ## The system -/

/-- The channel, the tasks, the drain loop, whether the last sender is gone, and the log of
    what entered the channel. -/
structure Bridge where
  tx : EventSender
  tasks : Tasks BridgeTask
  drain : DrainLoop
  hungUp : Bool
  sent : List (ℕ × EngineEvent)

/-- The steps of the tasks that send events, and of the drain loop. -/
inductive BridgeEvent
  /-- `run_connection` is called. -/
  | connect (i : ℕ) (id : ConnectionId) (authRequest : Option UInt64) (highWaterMark : ℕ)
      (policy : BackpressurePolicy) (keepalive : Keepalive)
  | authorize (i : ℕ) (requestId : UInt64) (clientIp url : String)
      (headers : List (String × String))
  /-- The control event of task `i` gets a permit. -/
  | acquire (i : ℕ)
  /-- The control event of task `i` is pushed. -/
  | push (i : ℕ)
  | conn (i : ℕ) (e : ConnEvent)
  /-- The writer of connection `i` is awaited to its end. -/
  | finish (i : ℕ)
  /-- The last sender is dropped. -/
  | hangUp
  | drain (timer : Bool)

namespace Bridge

/-- The channel of `EventSender::bounded` (`events.rs`, lines 76–83) and a drain loop that
    waits. -/
def new (capacity : ℕ) : Bridge :=
  { tx := .bounded capacity, tasks := ∅, drain := .new, hungUp := false, sent := [] }

variable (s : Bridge)

/-- Task `i` is started, if the number is new. -/
def start (i : ℕ) (work : BridgeWork) : Bridge :=
  if s.hungUp = false ∧ s.tasks.lookup i = none then
    { s with tasks := s.tasks.insert i { work, permit := false } }
  else s

/-- The `send` in `control` (`events.rs`, line 123) gets the permit it awaits. A task holds one
    permit at most. -/
def acquire (i : ℕ) (T : BridgeTask) : Bridge :=
  if T.permit = false ∧ T.work.pending.isSome ∧ s.tx.permits ≠ 0 then
    { s with tx := s.tx.acquire, tasks := s.tasks.insert i { T with permit := true } }
  else s

/-- The `send` in `control` puts the event into the slot of its permit and returns; the task
    goes on. -/
def push (i : ℕ) (T : BridgeTask) : Bridge :=
  match T.work.pending with
  | some ev =>
    if T.permit then
      { s with
        tx := s.tx.push ev
        tasks := s.tasks.insert i { work := T.work.advance, permit := false }
        sent := s.sent ++ [(i, ev)] }
    else s
  | none => s

/-- `try_message` of task `i`. -/
def tryMessage (i : ℕ) (id : ConnectionId) (m : Bytes × Bool) : Bridge :=
  { s with
    tx := s.tx.tryMessage id m.1 m.2
    sent :=
      if s.tx.closed = false ∧ s.tx.permits ≠ 0 then s.sent ++ [(i, .message id m.1 m.2)]
      else s.sent }

/-- Task `i` is now the connection `c`. -/
def setConn (i : ℕ) (c : ConnTask) (permit : Bool) : Bridge :=
  { s with tasks := s.tasks.insert i { work := .conn c, permit } }

/-- A step of connection `i`, with `try_message` for the data frame it reads. -/
def connStep (i : ℕ) (c : ConnTask) (permit : Bool) (e : ConnEvent) : Bridge :=
  if c.CanStep e then
    let s := s.setConn i { c with conn := c.conn.step e } permit
    match c.conn.dataRead e with
    | some m => s.tryMessage i c.id m
    | none => s
  else s

/-- `writer.await` returns in `run_connection` (`connection/mod.rs`, line 217), and the Closed
    event is next. It does so once both loops have ended. -/
def finish (i : ℕ) (c : ConnTask) (permit : Bool) : Bridge :=
  match c.phase, c.conn.reported with
  | .running, some (code, reason) => s.setConn i { c with phase := .closing code reason } permit
  | _, _ => s

/-- What the channel answers to a receive. -/
def received : Received :=
  match s.tx.queue with
  | ev :: _ => .event ev
  | [] => if s.hungUp then .disconnected else .empty

/-- A step of `drain_loop` (`bridge.rs`, lines 314–369). What it takes from the channel frees a
    slot; `timer` says whether the timer of the batch has run out. -/
def drainStep (timer : Bool) : Bridge :=
  let (drain, took) := s.drain.step s.received timer
  { s with drain, tx := if took.isSome then s.tx.received else s.tx }

/-- Every task has sent its last event. -/
def Finished : Prop := ∀ e ∈ s.tasks.entries, e.2.work.Done

instance : DecidablePred BridgeWork.Done
  | .conn c =>
    match h : c.phase with
    | .finished code reason => isTrue ⟨code, reason, h⟩
    | .opening | .running | .closing .. => isFalse (by rintro ⟨_, _, h'⟩; rw [h] at h'; cases h')
  | .authorize _ _ _ _ done => inferInstanceAs (Decidable (done = true))

instance : Decidable s.Finished := inferInstanceAs (Decidable (∀ e ∈ s.tasks.entries, _))

/-- The connection with number `i`. -/
def conn (i : ℕ) : Option (ConnTask × Bool) :=
  match s.tasks.lookup i with
  | some ⟨.conn c, permit⟩ => some (c, permit)
  | _ => none

/-- One step of one task. A task that does not exist, or is not at that point, stays as it is;
    the last sender is dropped when every task is done. -/
def step (s : Bridge) : BridgeEvent → Bridge
  | .connect i id authRequest highWaterMark policy keepalive =>
    s.start i (.conn ⟨id, authRequest, .opening, .new highWaterMark policy keepalive⟩)
  | .authorize i requestId clientIp url headers =>
    s.start i (.authorize requestId clientIp url headers false)
  | .acquire i =>
    match s.tasks.lookup i with
    | some T => s.acquire i T
    | none => s
  | .push i =>
    match s.tasks.lookup i with
    | some T => s.push i T
    | none => s
  | .conn i e =>
    match s.conn i with
    | some (c, permit) => s.connStep i c permit e
    | none => s
  | .finish i =>
    match s.conn i with
    | some (c, permit) => s.finish i c permit
    | none => s
  | .hangUp => if s.Finished then { s with hungUp := true } else s
  | .drain timer => s.drainStep timer

end Bridge

/-! ## What a task has sent -/

/-- What a connection has sent by its phase, when `kept` are the data frames that found
    room in the channel. -/
def ConnTask.script (c : ConnTask) (kept : List (Bytes × Bool)) : List EngineEvent :=
  match c.phase with
  | .opening => []
  | .running | .closing _ _ =>
    .connectionOpened c.id c.authRequest :: kept.map fun m => .message c.id m.1 m.2
  | .finished code reason =>
    (.connectionOpened c.id c.authRequest :: kept.map fun m => .message c.id m.1 m.2) ++
      [.connectionClosed c.id code reason]

/-- `mine` is what the task has sent. -/
def BridgeWork.Told (mine : List EngineEvent) : BridgeWork → Prop
  | .conn c => ∃ kept, kept.Sublist c.conn.inbox ∧ mine = c.script kept
  | .authorize requestId clientIp url headers done =>
    mine = if done then [.authorize requestId clientIp url headers] else []

/-- The event carries a data frame. -/
def isMessage : EngineEvent → Bool
  | .message _ _ _ => true
  | _ => false

namespace BridgeWork

variable {w : BridgeWork} {mine : List EngineEvent} {ev : EngineEvent}

theorem told_advance (h : w.Told mine) (hpending : w.pending = some ev) :
    w.advance.Told (mine ++ [ev]) := by
  cases w with
  | conn c =>
    obtain ⟨kept, hkept, rfl⟩ := h
    obtain ⟨id, authRequest, phase, conn⟩ := c
    cases phase with
    | opening =>
      cases hpending
      exact ⟨[], List.nil_sublist _, rfl⟩
    | closing code reason =>
      cases hpending
      exact ⟨kept, hkept, rfl⟩
    | running => cases hpending
    | finished code reason => cases hpending
  | authorize requestId clientIp url headers done =>
    cases done with
    | false =>
      cases hpending
      cases h
      rfl
    | true => cases hpending

theorem reads_advance (w : BridgeWork) : w.advance.reads = w.reads := by
  cases w with
  | conn c =>
    obtain ⟨id, authRequest, phase, conn⟩ := c
    cases phase <;> rfl
  | authorize => rfl

theorem not_isMessage_of_pending (hpending : w.pending = some ev) : isMessage ev = false := by
  cases w with
  | conn c =>
    obtain ⟨id, authRequest, phase, conn⟩ := c
    cases phase <;> cases hpending <;> rfl
  | authorize requestId clientIp url headers done =>
    cases done with
    | false =>
      cases hpending
      rfl
    | true => cases hpending

end BridgeWork

/-- The connection that an event is about. -/
def DecodedEvent.connId : DecodedEvent → Option ConnectionId
  | .message connId _ _ => some connId
  | .opened connId _ => some connId
  | .closed connId _ _ => some connId
  | .authorize _ _ _ _ => none

/-- The decoded event carries a data frame. -/
def DecodedEvent.isMessage : DecodedEvent → Bool
  | .message _ _ _ => true
  | _ => false

theorem isMessage_decoded (ev : EngineEvent) : (decoded ev).isMessage = isMessage ev := by
  cases ev <;> rfl

theorem connId_of_mem_script {c : ConnTask} {kept : List (Bytes × Bool)} {ev : EngineEvent}
    (h : ev ∈ c.script kept) : (decoded ev).connId = some c.id := by
  have hmessages : ev ∈ EngineEvent.connectionOpened c.id c.authRequest ::
      (kept.map fun m => EngineEvent.message c.id m.1 m.2) → (decoded ev).connId = some c.id := by
    intro hmem
    rcases List.mem_cons.mp hmem with rfl | hmem
    · rfl
    · obtain ⟨m, -, rfl⟩ := List.mem_map.mp hmem
      rfl
  unfold ConnTask.script at h
  split at h
  · cases h
  · exact hmessages h
  · exact hmessages h
  · rcases List.mem_append.mp h with hmem | hclosed
    · exact hmessages hmem
    · rw [List.mem_singleton.mp hclosed]
      rfl

namespace Bridge

/-- What task `i` has sent. -/
def mine (s : Bridge) (i : ℕ) : List EngineEvent :=
  (s.sent.filter fun e => e.1 = i).map Prod.snd

/-- The data frames that were read. -/
def reads (s : Bridge) : ℕ := s.tasks.sum fun T => T.work.reads

/-- What was sent is received and then queued, each task has sent what its phase says, and
    a data frame was sent or counted as dropped. -/
structure Orderly (s : Bridge) : Prop where
  flow : ∃ taken, s.sent.map Prod.snd = taken ++ s.tx.queue ∧ s.drain.Exact taken
  told : ∀ i T, s.tasks.lookup i = some T → T.work.Told (s.mine i)
  fresh : ∀ i, s.tasks.lookup i = none → s.mine i = []
  count : s.reads = (s.sent.countP fun e => isMessage e.2) + s.tx.bridgeDropped
  alive : s.tx.closed = false

theorem orderly_new (capacity : ℕ) : (new capacity).Orderly where
  flow := ⟨[], rfl, DrainLoop.exact_new⟩
  told _ _ h := by cases h
  fresh _ _ := rfl
  count := rfl
  alive := rfl

variable {s : Bridge} {i : ℕ}

theorem mine_append (i j : ℕ) (news : List EngineEvent) :
    ((s.sent ++ news.map (Prod.mk i)).filter fun e => e.1 = j).map Prod.snd =
      if i = j then s.mine j ++ news else s.mine j := by
  rw [List.filter_append, List.map_append, List.filter_map]
  by_cases h : i = j
  · simp [mine, h, Function.comp_def]
  · simp [mine, h, Function.comp_def]

/-- Task `i` becomes `T` and sends `news`; the data frames that it has read now are sent or
    counted. -/
theorem Orderly.insert (h : s.Orderly) {T : BridgeTask} {tx : EventSender}
    (news : List EngineEvent) (htold : T.work.Told (s.mine i ++ news))
    (hqueue : tx.queue = s.tx.queue ++ news) (halive : tx.closed = false)
    (hcount : T.work.reads + s.tx.bridgeDropped =
      ((s.tasks.lookup i).map fun T => T.work.reads).getD 0 + news.countP isMessage +
        tx.bridgeDropped) :
    { s with
      tx
      tasks := s.tasks.insert i T
      sent := s.sent ++ news.map (Prod.mk i) : Bridge }.Orderly := by
  obtain ⟨taken, hsent, hdrain⟩ := h.flow
  refine ⟨⟨taken, ?_, hdrain⟩, ?_, ?_, ?_, halive⟩
  · rw [List.map_append, hsent, hqueue, List.append_assoc]
    simp
  · intro j T' hj
    show T'.work.Told (((s.sent ++ news.map (Prod.mk i)).filter fun e => e.1 = j).map Prod.snd)
    rw [mine_append]
    rw [lookup_insert] at hj
    split_ifs at hj with heq
    · cases hj
      rw [if_pos heq.symm, heq]
      exact htold
    · rw [if_neg (Ne.symm heq)]
      exact h.told j T' hj
  · intro j hj
    show ((s.sent ++ news.map (Prod.mk i)).filter fun e => e.1 = j).map Prod.snd = []
    rw [mine_append]
    rw [lookup_insert] at hj
    split_ifs at hj with heq
    rw [if_neg (Ne.symm heq)]
    exact h.fresh j hj
  · have hsum := Tasks.sum_insert (fun T : BridgeTask => T.work.reads) s.tasks i T
    have hold : s.tasks.sum (fun T => T.work.reads) = _ := h.count
    show Tasks.sum (s.tasks.insert i T) _ =
      List.countP _ (s.sent ++ news.map (Prod.mk i)) + tx.bridgeDropped
    rw [List.countP_append, List.countP_map]
    have hnews : news.countP ((fun e : ℕ × EngineEvent => isMessage e.2) ∘ Prod.mk i) =
        news.countP isMessage := rfl
    omega

/-- Task `i` changes and sends nothing. -/
theorem Orderly.update (h : s.Orderly) {T : BridgeTask} {tx : EventSender}
    (htold : T.work.Told (s.mine i)) (hqueue : tx.queue = s.tx.queue)
    (halive : tx.closed = false)
    (hcount : T.work.reads + s.tx.bridgeDropped =
      ((s.tasks.lookup i).map fun T => T.work.reads).getD 0 + tx.bridgeDropped) :
    { s with tx, tasks := s.tasks.insert i T : Bridge }.Orderly := by
  have hinsert : { s with
      tx
      tasks := s.tasks.insert i T
      sent := s.sent ++ List.map (Prod.mk i) [] : Bridge }.Orderly := by
    apply h.insert [] _ _ halive hcount
    · rw [List.append_nil]
      exact htold
    · rw [List.append_nil]
      exact hqueue
  rw [List.map_nil, List.append_nil] at hinsert
  exact hinsert

/-! ## Steps -/

theorem orderly_start (h : s.Orderly) {work : BridgeWork} (htold : work.Told [])
    (hreads : work.reads = 0) : (s.start i work).Orderly := by
  unfold start
  split_ifs with hfree
  · apply h.update _ rfl h.alive
    · rw [hfree.2, hreads]
      rfl
    · rw [h.fresh i hfree.2]
      exact htold
  · exact h

theorem orderly_acquire (h : s.Orderly) {T : BridgeTask} (hi : s.tasks.lookup i = some T) :
    (s.acquire i T).Orderly := by
  unfold acquire
  split_ifs
  · refine h.update (h.told i T hi) ?_ h.alive ?_
    · rfl
    · rw [hi]
      rfl
  · exact h

theorem orderly_push (h : s.Orderly) {T : BridgeTask} (hi : s.tasks.lookup i = some T) :
    (s.push i T).Orderly := by
  unfold push
  cases hpending : T.work.pending with
  | none => exact h
  | some ev =>
    dsimp only
    split_ifs
    · refine h.insert [ev] ?_ ?_ h.alive ?_
      · exact BridgeWork.told_advance (h.told i T hi) hpending
      · rfl
      rw [hi]
      show T.work.advance.reads + _ = T.work.reads + List.countP isMessage [ev] + _
      rw [BridgeWork.reads_advance, List.countP_singleton,
        BridgeWork.not_isMessage_of_pending hpending]
      rfl
    · exact h

theorem lookup_of_conn {c : ConnTask} {permit : Bool} (hi : s.conn i = some (c, permit)) :
    s.tasks.lookup i = some ⟨.conn c, permit⟩ := by
  unfold conn at hi
  split at hi
  · next c' permit' hlookup =>
    cases hi
    exact hlookup
  · cases hi

/-- Only the reader, which runs between the Opened and the Closed event, reads data. -/
theorem running_of_dataRead {c : ConnTask} {e : ConnEvent} {m : Bytes × Bool}
    (hcan : c.CanStep e) (hm : c.conn.dataRead e = some m) : c.phase = .running := by
  cases e with
  | reader poll => exact hcan
  | _ => cases hm

/-- A data frame is sent or counted as dropped. -/
theorem orderly_tryMessage (h : s.Orderly) {c : ConnTask} {permit : Bool} {e : ConnEvent}
    {m : Bytes × Bool} (hi : s.conn i = some (c, permit)) (hrunning : c.phase = .running)
    (hm : c.conn.dataRead e = some m) :
    ((s.setConn i { c with conn := c.conn.step e } permit).tryMessage i c.id m).Orderly := by
  have hlookup := lookup_of_conn hi
  obtain ⟨kept, hkept, hmine⟩ := h.told i _ hlookup
  have hinbox : (c.conn.step e).inbox = c.conn.inbox ++ [m] := by
    rw [Connection.inbox_step, hm]
    rfl
  have hlength : (c.conn.step e).inbox.length = c.conn.inbox.length + 1 := by
    rw [hinbox, List.length_append]
    rfl
  have halive : ¬s.tx.closed = true := by
    rw [h.alive]
    decide
  by_cases hfull : s.tx.permits = 0
  · have htx : s.tx.tryMessage c.id m.1 m.2 =
        { s.tx with bridgeDropped := s.tx.bridgeDropped + 1 } := by
      rw [EventSender.tryMessage, if_neg halive, if_pos hfull]
    have hsent : ¬(s.tx.closed = false ∧ s.tx.permits ≠ 0) := fun hsent => hsent.2 hfull
    unfold tryMessage setConn
    dsimp only
    rw [htx, if_neg hsent]
    refine h.update ⟨kept, ?_, ?_⟩ ?_ h.alive ?_
    · rw [hinbox]
      exact hkept.trans (List.sublist_append_left _ _)
    · exact hmine
    · rfl
    · rw [hlookup]
      show (c.conn.step e).inbox.length + _ = c.conn.inbox.length + (s.tx.bridgeDropped + 1)
      omega
  · have htx : s.tx.tryMessage c.id m.1 m.2 = s.tx.acquire.push (.message c.id m.1 m.2) := by
      rw [EventSender.tryMessage, if_neg halive, if_neg hfull]
    unfold tryMessage setConn
    dsimp only
    rw [htx, if_pos ⟨h.alive, hfull⟩]
    refine h.insert [.message c.id m.1 m.2] ⟨kept ++ [m], ?_, ?_⟩ ?_ h.alive ?_
    · rw [hinbox]
      exact hkept.append (List.Sublist.refl [m])
    · rw [hmine]
      unfold ConnTask.script
      dsimp only
      rw [hrunning]
      simp
    · rfl
    · rw [hlookup]
      show (c.conn.step e).inbox.length + s.tx.bridgeDropped =
        c.conn.inbox.length + 1 + s.tx.bridgeDropped
      omega

theorem orderly_connStep (h : s.Orderly) {c : ConnTask} {permit : Bool}
    (hi : s.conn i = some (c, permit)) (e : ConnEvent) : (s.connStep i c permit e).Orderly := by
  unfold connStep
  split_ifs with hcan
  · cases hm : c.conn.dataRead e with
    | some m => exact orderly_tryMessage h hi (running_of_dataRead hcan hm) hm
    | none =>
      have hlookup := lookup_of_conn hi
      obtain ⟨kept, hkept, hmine⟩ := h.told i _ hlookup
      have hinbox : (c.conn.step e).inbox = c.conn.inbox := by
        rw [Connection.inbox_step, hm]
        exact List.append_nil _
      refine h.update ⟨kept, ?_, hmine⟩ rfl h.alive ?_
      · rw [hinbox]
        exact hkept
      · rw [hlookup]
        show (c.conn.step e).inbox.length + _ = c.conn.inbox.length + _
        rw [hinbox]
  · exact h

theorem orderly_finish (h : s.Orderly) {c : ConnTask} {permit : Bool}
    (hi : s.conn i = some (c, permit)) : (s.finish i c permit).Orderly := by
  unfold finish
  split
  · next code reason hphase hreported =>
    have hlookup := lookup_of_conn hi
    obtain ⟨kept, hkept, hmine⟩ := h.told i _ hlookup
    refine h.update ⟨kept, hkept, ?_⟩ rfl h.alive ?_
    · rw [hmine]
      unfold ConnTask.script
      rw [hphase]
    · rw [hlookup]
      rfl
  · exact h

theorem queue_of_received {ev : EngineEvent} (h : s.received = .event ev) :
    s.tx.queue = ev :: s.tx.queue.tail := by
  unfold received at h
  cases hqueue : s.tx.queue with
  | nil =>
    rw [hqueue] at h
    dsimp only at h
    split_ifs at h
  | cons ev' queue =>
    rw [hqueue] at h
    cases h
    rfl

theorem orderly_drainStep (h : s.Orderly) (timer : Bool) : (s.drainStep timer).Orderly := by
  obtain ⟨taken, hsent, hdrain⟩ := h.flow
  obtain ⟨hexact, htook⟩ := DrainLoop.exact_step hdrain s.received timer
  unfold drainStep
  cases hstep : (s.drain.step s.received timer).2 with
  | none =>
    rw [hstep, Option.toList_none, List.append_nil] at hexact
    rw [← Prod.mk.eta (p := s.drain.step s.received timer), hstep]
    exact ⟨⟨taken, hsent, hexact⟩, h.told, h.fresh, h.count, h.alive⟩
  | some ev =>
    rw [hstep] at hexact
    have hqueue := queue_of_received (htook ev hstep)
    rw [← Prod.mk.eta (p := s.drain.step s.received timer), hstep]
    refine ⟨⟨taken ++ [ev], ?_, hexact⟩, h.told, h.fresh, h.count, h.alive⟩
    show s.sent.map Prod.snd = taken ++ [ev] ++ s.tx.queue.tail
    rw [hsent, hqueue, List.append_assoc]
    rfl

theorem orderly_step (s : Bridge) (e : BridgeEvent) (h : s.Orderly) : (s.step e).Orderly := by
  cases e with
  | connect i id authRequest highWaterMark policy keepalive =>
    exact orderly_start h ⟨[], List.nil_sublist _, rfl⟩ rfl
  | authorize i requestId clientIp url headers => exact orderly_start h rfl rfl
  | acquire i =>
    unfold step
    cases hi : s.tasks.lookup i with
    | none => simpa only [hi] using h
    | some T => simpa only [hi] using orderly_acquire h hi
  | push i =>
    unfold step
    cases hi : s.tasks.lookup i with
    | none => simpa only [hi] using h
    | some T => simpa only [hi] using orderly_push h hi
  | conn i e =>
    unfold step
    cases hi : s.conn i with
    | none => simpa only [hi] using h
    | some c => simpa only [hi] using orderly_connStep h hi e
  | finish i =>
    unfold step
    cases hi : s.conn i with
    | none => simpa only [hi] using h
    | some c => simpa only [hi] using orderly_finish h hi
  | hangUp =>
    show (if s.Finished then { s with hungUp := true } else s : Bridge).Orderly
    split_ifs
    · exact ⟨h.flow, h.told, h.fresh, h.count, h.alive⟩
    · exact h
  | drain timer => exact orderly_drainStep h timer

/-! ## Lengths -/

/-- The events that enter the channel in a step. -/
def entered (s : Bridge) (e : BridgeEvent) : List (ℕ × EngineEvent) :=
  (s.step e).sent.drop s.sent.length

/-- The lengths of their payloads fit their fields. -/
def Fits (s : Bridge) (e : BridgeEvent) : Prop := ∀ x ∈ s.entered e, eventPayloadLen x.2 < 2 ^ 32

instance (s : Bridge) : DecidablePred s.Fits := fun e =>
  inferInstanceAs (Decidable (∀ x ∈ s.entered e, _))

/-- What entered the channel stays in the log. -/
theorem sent_prefix_step (s : Bridge) (e : BridgeEvent) : s.sent <+: (s.step e).sent := by
  have hsame {t : Bridge} (h : t.sent = s.sent) : s.sent <+: t.sent := by rw [h]
  have hstart (i : ℕ) (work : BridgeWork) : (s.start i work).sent = s.sent := by
    unfold start
    split_ifs <;> rfl
  cases e with
  | connect => exact hsame (hstart _ _)
  | authorize => exact hsame (hstart _ _)
  | acquire i =>
    apply hsame
    unfold step
    dsimp only
    split
    · unfold acquire
      split_ifs <;> rfl
    · rfl
  | push i =>
    unfold step
    dsimp only
    split
    · unfold push
      split
      · split_ifs
        · exact List.prefix_append _ _
        · exact List.prefix_rfl
      · exact List.prefix_rfl
    · exact List.prefix_rfl
  | conn i e =>
    unfold step
    dsimp only
    split
    · unfold connStep
      split_ifs
      · dsimp only
        split
        · dsimp only [tryMessage, setConn]
          split_ifs
          · exact List.prefix_append _ _
          · exact List.prefix_rfl
        · exact List.prefix_rfl
      · exact List.prefix_rfl
    · exact List.prefix_rfl
  | finish i =>
    apply hsame
    unfold step
    dsimp only
    split
    · unfold finish
      split <;> rfl
    · rfl
  | hangUp =>
    apply hsame
    show (if s.Finished then { s with hungUp := true } else s : Bridge).sent = _
    split_ifs <;> rfl
  | drain timer => exact hsame rfl

theorem sent_step (s : Bridge) (e : BridgeEvent) : (s.step e).sent = s.sent ++ s.entered e := by
  rw [entered, (List.prefix_iff_eq_append.mp (sent_prefix_step s e))]

/-- The payload lengths of all events that were sent fit their fields. -/
def Short (s : Bridge) : Prop := ∀ e ∈ s.sent, eventPayloadLen e.2 < 2 ^ 32

theorem short_step (s : Bridge) (e : BridgeEvent) (h : s.Short) (hmeet : s.Fits e) :
    (s.step e).Short := by
  unfold Short
  rw [sent_step]
  intro x hx
  rcases List.mem_append.mp hx with hold | hnew
  · exact h x hold
  · exact hmeet x hnew

/-! ## What is decoded -/

/-- The decoded events of task `i`. -/
def restrict (s : Bridge) (i : ℕ) (es : List DecodedEvent) : List DecodedEvent :=
  (((s.sent.map Prod.fst).zip es).filter fun e => e.1 = i).map Prod.snd

/-- Everything that was sent has been flushed. -/
def Drained (s : Bridge) : Prop := s.tx.queue = [] ∧ s.drain.batch = []

/-- The decoded events of a task are the decoded events that it sent, as far as they have
    been flushed. -/
theorem restrict_eq {flushed pending : List (ℕ × EngineEvent)} (h : s.sent = flushed ++ pending)
    (i : ℕ) :
    s.restrict i (flushed.map fun e => decoded e.2) =
      ((flushed.filter fun e => e.1 = i).map Prod.snd).map decoded := by
  have hzip : (s.sent.map Prod.fst).zip (flushed.map fun e => decoded e.2) =
      flushed.map fun e => (e.1, decoded e.2) := by
    rw [h]
    clear h
    induction flushed with
    | nil => simp
    | cons e flushed ih => simpa using ih
  rw [restrict, hzip, List.filter_map]
  simp [Function.comp_def]

/-- An event names its connection, if it is one of a connection. -/
theorem connId_of_mem_sent (h : s.Orderly) {e : ℕ × EngineEvent} (he : e ∈ s.sent) :
    (∃ c permit, s.conn e.1 = some (c, permit) ∧ (decoded e.2).connId = some c.id) ∨
      (s.conn e.1 = none ∧ (decoded e.2).connId = none) := by
  have hmine : e.2 ∈ s.mine e.1 :=
    List.mem_map.mpr ⟨e, List.mem_filter.mpr ⟨he, by simp⟩, rfl⟩
  cases hlookup : s.tasks.lookup e.1 with
  | none =>
    rw [h.fresh e.1 hlookup] at hmine
    cases hmine
  | some T =>
    have htold := h.told e.1 T hlookup
    obtain ⟨work, permit⟩ := T
    cases work with
    | conn c =>
      obtain ⟨kept, -, hscript⟩ := htold
      rw [hscript] at hmine
      exact .inl ⟨c, permit, by rw [conn, hlookup], connId_of_mem_script hmine⟩
    | authorize requestId clientIp url headers done =>
      right
      refine ⟨by rw [conn, hlookup], ?_⟩
      have hauthorize : s.mine e.1 = _ := htold
      rw [hauthorize] at hmine
      cases done with
      | false => cases hmine
      | true =>
        rw [List.mem_singleton.mp hmine]
        rfl

/-- The events of a connection are those with its id, if no other connection has it. -/
theorem filter_connId (h : s.Orderly) {flushed pending : List (ℕ × EngineEvent)}
    (hsent : s.sent = flushed ++ pending) {c : ConnTask} {permit : Bool}
    (hi : s.conn i = some (c, permit))
    (hunique : ∀ j c' permit', s.conn j = some (c', permit') → c'.id = c.id → j = i) :
    ((flushed.map fun e => decoded e.2).filter fun d => d.connId = some c.id) =
      ((flushed.filter fun e => e.1 = i).map Prod.snd).map decoded := by
  rw [List.filter_map, List.map_map]
  congr 1
  apply List.filter_congr
  intro e he
  have hmem : e ∈ s.sent := by
    rw [hsent]
    exact List.mem_append_left _ he
  show decide ((decoded e.2).connId = some c.id) = decide (e.1 = i)
  rw [decide_eq_decide]
  rcases connId_of_mem_sent h hmem with ⟨c', permit', hconn, hid⟩ | ⟨hconn, hid⟩
  · rw [hid, Option.some.injEq]
    constructor
    · exact hunique e.1 c' permit' hconn
    · rintro rfl
      rw [hi] at hconn
      cases hconn
      rfl
  · rw [hid]
    constructor
    · intro hcontra
      cases hcontra
    · rintro rfl
      rw [hi] at hconn
      cases hconn

/-- In every run in which the payload length of each event that enters the channel fits its
    field, for any connections, channel capacity, schedule and timer: each flush decodes to
    between 1 and `BRIDGE_BATCH` events; the decoded events of a connection are the Opened
    event, messages that are some of the data frames it read, in their order, and, if it has
    finished, the Closed event, as far as they have been flushed (by its id, if no other
    connection has the id); and when everything has been flushed, the data frames that were
    read are the messages that were decoded and those counted in `bridge_dropped`. -/
theorem events_in_order (capacity : ℕ) (evs : List BridgeEvent)
    (hmeet : StepsMeet step Fits (new capacity) evs) :
    let s := run step (new capacity) evs
    ∃ es, decodeAll s.drain.flushes = some es ∧
      (∀ f ∈ s.drain.flushes, ∃ es, decode f = some es ∧ 0 < es.length ∧
        es.length ≤ bridgeBatch) ∧
      (∀ i c permit, s.conn i = some (c, permit) → ∃ kept, kept.Sublist c.conn.inbox ∧
        s.restrict i es <+: (c.script kept).map decoded ∧
        (s.Drained → s.restrict i es = (c.script kept).map decoded) ∧
        ((∀ j c' permit', s.conn j = some (c', permit') → c'.id = c.id → j = i) →
          s.restrict i es = es.filter fun d => d.connId = some c.id)) ∧
      (s.Drained → s.reads = es.countP DecodedEvent.isMessage + s.tx.bridgeDropped) := by
  intro s
  have h : s.Orderly := run_invariant orderly_step (orderly_new capacity)
  have hshort : s.Short := run_invariant_of_stepsMeet short_step
    (fun e he => absurd he List.not_mem_nil) hmeet
  clear_value s
  obtain ⟨taken, hsent, hdrain⟩ := h.flow
  have htaken : ∀ ev ∈ taken, eventPayloadLen ev < 2 ^ 32 := by
    intro ev hev
    have hmem : ev ∈ s.sent.map Prod.snd := by
      rw [hsent]
      exact List.mem_append_left _ hev
    obtain ⟨e, he, rfl⟩ := List.mem_map.mp hmem
    exact hshort e he
  obtain ⟨flushed, hflushed, hdecode, hsizes⟩ := decodeAll_of_exact hdrain htaken
  rw [hflushed, List.append_assoc] at hsent
  obtain ⟨done, waiting, hsplit, rfl, hwaiting⟩ := List.map_eq_append_iff.mp hsent
  have hall : s.Drained → waiting = [] := by
    rintro ⟨hqueue, hbatch⟩
    rw [hqueue, hbatch] at hwaiting
    exact List.map_eq_nil_iff.mp hwaiting
  refine ⟨done.map fun e => decoded e.2, ?_, hsizes, ?_, ?_⟩
  · rw [hdecode, List.map_map]
    rfl
  · intro i c permit hi
    obtain ⟨kept, hkept, hmine⟩ := h.told i _ (lookup_of_conn hi)
    have hmine' : (done.filter fun e => e.1 = i).map Prod.snd ++
        (waiting.filter fun e => e.1 = i).map Prod.snd = c.script kept := by
      rw [← hmine, mine, hsplit, List.filter_append, List.map_append]
    refine ⟨kept, hkept, ?_, ?_, ?_⟩
    · rw [restrict_eq hsplit, ← hmine', List.map_append]
      exact List.prefix_append _ _
    · intro hdrained
      rw [hall hdrained] at hmine'
      rw [restrict_eq hsplit, ← hmine']
      simp
    · intro hunique
      rw [restrict_eq hsplit, filter_connId h hsplit hi hunique]
  · intro hdrained
    rw [h.count, hsplit, hall hdrained, List.append_nil, List.countP_map]
    have hkind : (DecodedEvent.isMessage ∘ fun e : ℕ × EngineEvent => decoded e.2) =
        fun e => isMessage e.2 := by
      funext e
      exact isMessage_decoded e.2
    rw [hkind]

end Bridge

/-! ## A message and its length field -/

namespace Huge

open Bridge

/-- The connection 7 opens, and the event is flushed. -/
def opening : List BridgeEvent :=
  [.connect 0 7 none 1024 .dropNewest ⟨1000, 1000⟩, .acquire 0, .push 0, .drain false, .drain false]

/-- A text frame is read and flushed. -/
def frame (payload : Bytes) : List BridgeEvent :=
  [.conn 0 (.reader .pending), .conn 0 (.reader .pending),
    .conn 0 (.reader (.ready (some (.ok (.text payload))))), .drain false, .drain false]

/-- The stream ends, and both loops with it. -/
def ending : List BridgeEvent :=
  [.conn 0 (.reader .pending), .conn 0 (.reader (.ready none)), .conn 0 .teardown,
    .conn 0 (.writer .accepted), .conn 0 (.writer .accepted), .finish 0]

/-- The Closed event is sent and flushed. -/
def closing : List BridgeEvent :=
  [.acquire 0, .push 0, .drain false, .drain false]

/-- One connection over a channel with one slot: it opens, reads a text frame, and its
    stream ends. Every event is flushed at once. -/
def evs (payload : Bytes) : List BridgeEvent :=
  opening ++ (frame payload ++ (ending ++ closing))

/-- The first event of the connection. -/
def opened : EngineEvent := .connectionOpened 7 none

/-- The event of a text frame. -/
def text (payload : Bytes) : EngineEvent := .message 7 payload false

/-- The last event of the connection. -/
def closed : EngineEvent :=
  .connectionClosed 7 closeAbnormal "connection reset without close frame"

/-- The system between two flushes. -/
def solo (phase : ConnPhase) (conn : Connection) (told : List EngineEvent) : Bridge :=
  { tx := .bounded 1
    tasks := AList.insert 0 ⟨.conn ⟨7, none, phase, conn⟩, false⟩ ∅
    drain := { point := .first, batch := [], flushes := told.map fun ev => encodeBatch [ev] }
    hungUp := false
    sent := told.map (Prod.mk 0) }

/-- The connection behind its first data frame. -/
def reading (payload : Bytes) : Connection :=
  { Connection.new 1024 .dropNewest ⟨1000, 1000⟩ with
    reader := { ReadLoop.new ⟨1000, 1000⟩ with point := .changed, nextTick := 1000 }
    inbox := [(payload, false)] }

theorem run_evs (payload : Bytes) : ∃ conn, conn.inbox = [(payload, false)] ∧
    run step (new 1) (evs payload) =
      solo (.finished closeAbnormal "connection reset without close frame") conn
        [opened, text payload, closed] := by
  have hopen : run step (new 1) opening =
      solo .running (.new 1024 .dropNewest ⟨1000, 1000⟩) [opened] := rfl
  have hread : run step (solo .running (.new 1024 .dropNewest ⟨1000, 1000⟩) [opened])
      (frame payload) = solo .running (reading payload) [opened, text payload] := rfl
  have hend : ∃ conn, conn.inbox = [(payload, false)] ∧
      run step (solo .running (reading payload) [opened, text payload]) ending =
        solo (.closing closeAbnormal "connection reset without close frame") conn
          [opened, text payload] := ⟨_, rfl, rfl⟩
  obtain ⟨conn, hinbox, hend⟩ := hend
  refine ⟨conn, hinbox, ?_⟩
  rw [evs, run_append, hopen, run_append, hread, run_append, hend]
  rfl

/-- A frame of three bytes is delivered or counted. -/
theorem text_accounted :
    let s := run step (new 1) (evs [1, 2, 3])
    ∃ es, decodeAll s.drain.flushes = some es ∧
      (s.Drained → s.reads = es.countP DecodedEvent.isMessage + s.tx.bridgeDropped) := by
  obtain ⟨es, hes, -, -, hreads⟩ := events_in_order 1 (evs [1, 2, 3]) (by decide +kernel)
  exact ⟨es, hes, hreads⟩

/-- The length of the payload, which is 0 in its field. -/
def size : ℕ := 2 ^ 32

/-- The encoding is that of an empty message, with the payload behind it. -/
theorem decode_text {payload : Bytes} (h : payload.length = size) :
    decode (encodeBatch [text payload]) = some [.message 7 false []] := by
  have hfield : toLe 4 size = toLe 4 0 := by decide
  have hbuf : encodeBatch [text payload] = encodeBatch [text []] ++ payload := by
    simp [encodeBatch, encodeEvent, text, eventPayloadLen, eventPayload, eventId, eventKind, h,
      hfield]
  rw [hbuf]
  exact decode_encodeBatch_append (by decide) (by decide) payload

/-- The connection has finished, everything is flushed, and the message that is decoded has
    no bytes, whereas the frame that was read has 2³². -/
theorem message_emptied :
    let payload := List.replicate size 0
    let s := run step (new 1) (evs payload)
    ∃ c, s.conn 0 = some (c, false) ∧ c.conn.inbox = [(payload, false)] ∧ payload ≠ [] ∧
      (BridgeWork.conn c).Done ∧ s.Drained ∧
      decodeAll s.drain.flushes = some [decoded opened, .message 7 false [], decoded closed] := by
  intro payload s
  have hlength : payload.length = size := List.length_replicate
  have hne : payload ≠ [] := by
    intro hnil
    rw [hnil] at hlength
    cases hlength
  obtain ⟨conn, hinbox, hrun⟩ := run_evs payload
  have hs : s = _ := hrun
  clear_value s payload
  subst hs
  refine ⟨_, rfl, hinbox, hne, ⟨_, _, rfl⟩, ⟨rfl, rfl⟩, ?_⟩
  have hopened : decode (encodeBatch [opened]) = some [decoded opened] := by decide
  have hclosed : decode (encodeBatch [closed]) = some [decoded closed] := by decide
  show (List.mapM decode [encodeBatch [opened], encodeBatch [text payload],
    encodeBatch [closed]]).map List.flatten = _
  simp only [List.mapM_cons, List.mapM_nil, hopened, hclosed, decode_text hlength]
  rfl

end Huge

end BeamSocket.Node
