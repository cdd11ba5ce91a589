import BeamSocket.Core.Config
import BeamSocket.Core.Mailbox
import BeamSocket.Lib.Run
import BeamSocket.Lib.Tasks

/-!
# One connection: writer, reader and close initiations

Model of `run_connection`, `write_loop` and `read_loop`
(`crates/core/src/connection/mod.rs`, lines 163–384) with the calls that send to
the connection or close it (lines 95–144), cut into their atomic steps. A biased
`select!` polls its branches one after the other, and between two polls the other
parties can act; so a loop is at the branch that it polls next. The sink and the
source are open: an event says what they answer.

* `WriteLoop.step`, `ReadLoop.step`: one step of each loop.
* `Connection.step`: one step of the connection, for any number of calls at work.
* `Connection.run_initiateClose`, `Connection.run_push`: the steps of one call in
  a row are the call.
-/

namespace BeamSocket.Core

open BeamSocket.Lib

/-- `CLOSE_NORMAL`. -/
def closeNormal : UInt16 := 1000

/-- `CLOSE_ABNORMAL`. -/
def closeAbnormal : UInt16 := 1006

/-- `CLOSE_INTERNAL_ERROR`. -/
def closeInternalError : UInt16 := 1011

/-- `CLOSE_GRACE`, in nanoseconds. -/
def closeGrace : ℕ := fromMillis 10000

/-- `enum InFrame` (`transport/mod.rs`, lines 29–40). -/
inductive InFrame
  | text (data : Bytes)
  | binary (data : Bytes)
  | pong
  | close (code : UInt16) (reason : String)
  deriving DecidableEq, Repr

/-- `enum OutFrame` (lines 44–54). -/
inductive OutFrame
  | text (data : Bytes)
  | binary (data : Bytes)
  | ping (payload : Bytes)
  | close (code : UInt16) (reason : String)
  deriving DecidableEq, Repr

/-- `struct TransportError` (lines 61–64). -/
structure TransportError where
  closeCode : UInt16
  message : String
  deriving DecidableEq, Repr

/-- The frame that the writer makes of a control command. -/
def Control.frame : Control → OutFrame
  | .ping payload => .ping payload
  | .close code reason => .close code reason

/-- The frame that the writer makes of a queued one. -/
def OutboundFrame.frame (f : OutboundFrame) : OutFrame :=
  if f.isBinary then .binary f.data else .text f.data

namespace OutFrame

/-- The code of a Close frame. -/
def closeCode : OutFrame → Option UInt16
  | close code _ => some code
  | _ => none

/-- Text and Binary frames. -/
def isData : OutFrame → Bool
  | text _ => true
  | binary _ => true
  | _ => false

end OutFrame

/-! ## The writer -/

/-- `CloseSignal::signal` (lines 98–107): the first signal is latched. -/
def ConnHandle.signal (h : ConnHandle) (cmd : CloseCmd) : ConnHandle :=
  { h with close := h.close.or (some cmd) }

/-- What `send_frame` answers. -/
inductive SinkResult
  | accepted
  | failed
  | panicked
  deriving DecidableEq, Repr

/-- Where the writer is: at the poll of the control queue or of the mailbox, in
    `send_frame`, unwinding from a panic of it, or at its end. -/
inductive WritePoint
  | control
  | mailbox
  | sending (frame : OutFrame)
  | panicked
  | ended
  deriving DecidableEq, Repr

/-- The state of `write_loop`; `written` logs the frames that the sink took. -/
structure WriteLoop where
  point : WritePoint
  closeSent : Bool
  written : List OutFrame
  deriving DecidableEq, Repr

namespace WriteLoop

/-- The writer when `run_connection` spawns it (lines 186–203). -/
def new : WriteLoop := { point := .control, closeSent := false, written := [] }

/-- One step of the writer (lines 176–192 and 229–281). The branch for a control
    queue without senders is missing: `run_connection` holds one to the end. -/
def step (w : WriteLoop) (h : ConnHandle) (result : SinkResult) : WriteLoop × ConnHandle :=
  match w.point with
  | .control =>
    match h.control with
    | [] => ({ w with point := .mailbox }, h)
    | c :: control =>
      ({ w with point := if w.closeSent then .control else .sending c.frame },
        { h with control })
  | .mailbox =>
    match h.mailbox.pop with
    | (mailbox, some f) =>
      -- after a Close frame the mailbox is drained and nothing is written
      ({ w with point := if w.closeSent then .control else .sending f.frame },
        { h with mailbox })
    | (_, none) => ({ w with point := if h.mailbox.closed then .ended else .control }, h)
  | .sending frame =>
    match result with
    | .accepted =>
      ({ point := .control
         closeSent := w.closeSent || frame.closeCode.isSome
         written := w.written ++ [frame] }, h)
    | .failed =>
      -- only a failed Close frame is forgiven
      ({ w with
         point := if frame.closeCode.isSome then .control else .ended
         closeSent := w.closeSent || frame.closeCode.isSome }, h)
    | .panicked => ({ w with point := .panicked }, h)
  | .panicked =>
    ({ w with point := .ended },
      h.signal ⟨closeInternalError, "connection writer panicked", false⟩)
  | .ended => (w, h)

end WriteLoop

/-! ## The reader -/

/-- What a poll of `next_frame` answers; `none` is the end of the stream. -/
inductive SourcePoll
  | pending
  | ready (frame : Option (Except TransportError InFrame))
  | panicked

/-- Where the reader is: before its loop, at the poll of the close watch, of the
    source, of the ping timer or of the deadline, or at its end. A panic is caught
    by `run_connection` and ends the reader too. -/
inductive ReadPoint
  | start
  | changed
  | source
  | tick
  | deadline
  | returned (code : UInt16) (reason : String)
  deriving DecidableEq, Repr

/-- The reader is at its end. -/
def ReadPoint.isReturned : ReadPoint → Bool
  | returned _ _ => true
  | _ => false

/-- The local variables of `read_loop`. The watch changes at most once, so the
    version that its receiver has seen is a bit. -/
structure ReadLoop where
  keepalive : Keepalive
  point : ReadPoint
  seen : Bool
  nextTick : ℕ
  lastActivity : ℕ
  pongDeadline : Option ℕ
  closeDeadline : Option ℕ
  initiated : Option (UInt16 × String)

/-- What a step of the reader does outside of it. -/
inductive ReadEffect
  /-- `events.try_message`. -/
  | message (payload : Bytes) (isBinary : Bool)
  /-- `control.try_send`. -/
  | control (c : Control)
  deriving DecidableEq, Repr

namespace ReadLoop

/-- The reader when `run_connection` calls it (line 206), before the locals of lines 290–301 are
    set. -/
def new (keepalive : Keepalive) : ReadLoop :=
  { keepalive, point := .start, seen := false, nextTick := 0, lastActivity := 0,
    pongDeadline := none, closeDeadline := none, initiated := none }

variable (r : ReadLoop) (now : ℕ)

/-- `return (code, reason)`. -/
def ret (result : UInt16 × String) : ReadLoop := { r with point := .returned result.1 result.2 }

/-- `borrow_and_update` with what follows it (lines 306–312 and 325–331). -/
def observe : Option CloseCmd → ReadLoop
  | none => { r with point := .changed }
  | some cmd =>
    let r := { r with seen := true }
    if cmd.graceful then
      { r with
        point := .changed
        closeDeadline := some (now + closeGrace)
        initiated := some (cmd.code, cmd.reason) }
    else r.ret (cmd.code, cmd.reason)

/-- `last_activity` and `pong_deadline` after a frame of the peer. -/
def active : ReadLoop :=
  { r with point := .changed, lastActivity := now, pongDeadline := none }

/-- The branch of `next_frame` (lines 333–364). -/
def onFrame : Option (Except TransportError InFrame) → ReadLoop × Option ReadEffect
  | none =>
    (r.ret (r.initiated.getD (closeAbnormal, "connection reset without close frame")), none)
  | some (.error e) => (r.ret (e.closeCode, e.message), none)
  | some (.ok (.text s)) => (r.active now, some (.message s false))
  | some (.ok (.binary b)) => (r.active now, some (.message b true))
  | some (.ok .pong) => (r.active now, none)
  | some (.ok (.close code reason)) =>
    (r.ret (r.initiated.getD (code, reason)),
      some (.control (.close (if code = 1005 then closeNormal else code) "")))

/-- The next tick of an interval with `MissedTickBehavior::Delay`; a tick counts as
    missed when it is more than 5 ms late. -/
def afterTick : ℕ :=
  if now > r.nextTick + fromMillis 5 then now + r.keepalive.pingInterval
  else r.nextTick + r.keepalive.pingInterval

/-- The branch of the ping timer (lines 365–372). -/
def onTick : ReadLoop × Option ReadEffect :=
  let r := { r with point := .changed, nextTick := r.afterTick now }
  if now - r.lastActivity ≥ r.keepalive.pingInterval ∧ r.pongDeadline = none then
    ({ r with pongDeadline := some (now + r.keepalive.pongTimeout) }, some (.control (.ping [])))
  else (r, none)

/-- `deadline` (lines 315–318). -/
def nextDeadline : Option ℕ :=
  match r.pongDeadline, r.closeDeadline with
  | some a, some b => some (min a b)
  | a, b => a.or b

/-- The time `d` has come. -/
def due (d : Option ℕ) : Bool := d.any (· ≤ now)

/-- The branch of the deadline (lines 373–379). -/
def onDeadline : ReadLoop :=
  if due now r.closeDeadline then
    r.ret ((r.initiated.getD (closeAbnormal, "")).1, "close handshake timed out")
  else r.ret (closeAbnormal, "keepalive timeout: no pong")

/-- One step of the reader (lines 290–383). The branch for a close watch without a
    sender is missing: the handle that `read_loop` borrows holds it. -/
def step (close : Option CloseCmd) (poll : SourcePoll) : ReadLoop × Option ReadEffect :=
  match r.point with
  | .start =>
    (observe { r with nextTick := now + r.keepalive.pingInterval, lastActivity := now } now close,
      none)
  | .changed => if r.seen then ({ r with point := .source }, none)
    else if close = none then ({ r with point := .source }, none)
    else (r.observe now close, none)
  | .source =>
    match poll with
    | .pending => ({ r with point := .tick }, none)
    | .ready frame => r.onFrame now frame
    | .panicked => (r.ret (closeInternalError, "connection task panicked"), none)
  | .tick => if r.nextTick ≤ now then r.onTick now else ({ r with point := .deadline }, none)
  | .deadline => if due now r.nextDeadline then (r.onDeadline now, none)
    else ({ r with point := .changed }, none)
  | .returned _ _ => (r, none)

end ReadLoop

/-! ## The connection -/

/-- What a call of `ConnHandle::push` or `ConnHandle::initiate_close` has left to
    do. -/
inductive HandleCall
  | push (frame : OutboundFrame)
  /-- `initiate_close` before `close.signal`. -/
  | signal (cmd : CloseCmd)
  /-- It has signalled; the nudge of the writer is left. -/
  | nudge (code : UInt16) (reason : String)
  deriving DecidableEq, Repr

/-- A connection with the calls at work on it. Not in the source are `inbox`, the
    data frames that were read, and `winner`, the call whose signal was latched,
    until it has nudged the writer. -/
structure Connection where
  now : ℕ
  handle : ConnHandle
  writer : WriteLoop
  reader : ReadLoop
  /-- `run_connection` has closed the mailbox and waits for the writer. -/
  tornDown : Bool
  calls : Tasks HandleCall
  winner : Option ℕ
  inbox : List (Bytes × Bool)

/-- One atomic step of one party. -/
inductive ConnEvent
  /-- `push` is called. -/
  | send (i : ℕ) (frame : OutboundFrame)
  /-- `initiate_close` is called. -/
  | close (i : ℕ) (cmd : CloseCmd)
  /-- HandleCall number `i` steps. -/
  | call (i : ℕ)
  | writer (result : SinkResult)
  | reader (poll : SourcePoll)
  /-- `run_connection` goes on after the reader. -/
  | teardown
  /-- Time passes. -/
  | advance (d : ℕ)

namespace Connection

/-- A connection behind its Opened event (lines 180–182). -/
def new (highWaterMark : ℕ) (policy : BackpressurePolicy) (keepalive : Keepalive) : Connection :=
  { now := 0, handle := .new highWaterMark policy, writer := .new, reader := .new keepalive,
    tornDown := false, calls := ∅, winner := none, inbox := [] }

variable (s : Connection)

/-- A call is made; its number is free. -/
def start (i : ℕ) (c : HandleCall) : Connection :=
  if i ∈ s.calls then s else { s with calls := s.calls.insert i c }

/-- `control.try_send`: it is lost when the queue is full or the writer, which owns
    the receiver, has ended. -/
def trySend (c : Control) : Connection :=
  if s.handle.control.length < controlQueueCapacity ∧ s.writer.point ≠ .ended then
    { s with handle := { s.handle with control := s.handle.control ++ [c] } }
  else s

/-- HandleCall `i`, with `next` left to do. -/
def setCall (i : ℕ) (next : Option HandleCall) : Connection :=
  { s with calls := s.calls.set i next }

/-- `mailbox.push`, logged in `pushes`. -/
def enqueue (frame : OutboundFrame) : Connection :=
  { s with handle :=
    { s.handle with
      mailbox := (s.handle.mailbox.push frame).1
      pushes := s.handle.pushes ++ [frame] } }

/-- `close.signal` of call `i`. -/
def signal (i : ℕ) (cmd : CloseCmd) : Connection :=
  { s with
    handle := s.handle.signal cmd
    winner := if s.handle.close = none then some i else s.winner }

/-- The nudge of call `i`. -/
def nudge (i : ℕ) (code : UInt16) (reason : String) : Connection :=
  { s.trySend (.close code reason) with winner := if s.winner = some i then none else s.winner }

/-- One step of call `i`. -/
def callStep (i : ℕ) : HandleCall → Connection
  | .push frame =>
    (s.enqueue frame).setCall i
      (if (s.handle.mailbox.push frame).2 = .disconnect then
        some (.signal ⟨closeBackpressure, "backpressure", true⟩)
      else none)
  | .signal cmd => (s.signal i cmd).setCall i (some (.nudge cmd.code cmd.reason))
  | .nudge code reason => (s.nudge i code reason).setCall i none

/-- The effect of a step of the reader. -/
def effect : Option ReadEffect → Connection
  | none => s
  | some (.message payload isBinary) => { s with inbox := s.inbox ++ [(payload, isBinary)] }
  | some (.control c) => s.trySend c

/-- The outcome of the next step of the reader. -/
def read (poll : SourcePoll) : ReadLoop × Option ReadEffect :=
  s.reader.step s.now s.handle.close poll

/-- One step of the connection. -/
def step (s : Connection) : ConnEvent → Connection
  | .send i frame => s.start i (.push frame)
  | .close i cmd => s.start i (.signal cmd)
  | .call i =>
    match s.calls.lookup i with
    | none => s
    | some c => s.callStep i c
  | .writer result =>
    { s with
      writer := (s.writer.step s.handle result).1
      handle := (s.writer.step s.handle result).2 }
  | .reader poll => { s with reader := (s.read poll).1 }.effect (s.read poll).2
  | .teardown =>
    if s.reader.point.isReturned then
      { s with
        handle := { s.handle with mailbox := s.handle.mailbox.close }
        tornDown := true }
    else s
  | .advance d => { s with now := s.now + d }

/-- The writer has ended after the teardown: what `ConnectionClosed` reports. -/
def reported : Option (UInt16 × String) :=
  match s.reader.point with
  | .returned code reason =>
    if s.tornDown ∧ s.writer.point = .ended then some (code, reason) else none
  | _ => none

/-! ## What a step can change -/

variable {s} {i : ℕ} {cmd : CloseCmd} {frame : OutboundFrame} {c : Control} {e : ConnEvent}

theorem trySend_eq (hroom : s.handle.control.length < controlQueueCapacity)
    (hw : s.writer.point ≠ .ended) :
    s.trySend c = { s with handle := { s.handle with control := s.handle.control ++ [c] } } :=
  if_pos ⟨hroom, hw⟩

theorem handle_trySend (hw : s.writer.point ≠ .ended) :
    (s.trySend c).handle =
      { s.handle with
        control :=
          if s.handle.control.length < controlQueueCapacity then s.handle.control ++ [c]
          else s.handle.control } := by
  by_cases hroom : s.handle.control.length < controlQueueCapacity
  · rw [trySend_eq hroom hw, if_pos hroom]
  · rw [if_neg hroom, show s.trySend c = s from if_neg fun h => hroom h.1]

@[simp] theorem writer_trySend : (s.trySend c).writer = s.writer := by
  unfold trySend
  split_ifs <;> rfl

@[simp] theorem mailbox_trySend : (s.trySend c).handle.mailbox = s.handle.mailbox := by
  unfold trySend
  split_ifs <;> rfl

@[simp] theorem writer_effect (o : Option ReadEffect) : (s.effect o).writer = s.writer := by
  unfold effect
  split
  · rfl
  · rfl
  · exact writer_trySend

@[simp] theorem mailbox_effect (o : Option ReadEffect) :
    (s.effect o).handle.mailbox = s.handle.mailbox := by
  unfold effect
  split
  · rfl
  · rfl
  · exact mailbox_trySend

@[simp] theorem reader_effect (o : Option ReadEffect) : (s.effect o).reader = s.reader := by
  unfold effect trySend
  split
  · rfl
  · rfl
  · split_ifs <;> rfl

@[simp] theorem close_effect (o : Option ReadEffect) :
    (s.effect o).handle.close = s.handle.close := by
  unfold effect trySend
  split
  · rfl
  · rfl
  · split_ifs <;> rfl

@[simp] theorem calls_effect (o : Option ReadEffect) : (s.effect o).calls = s.calls := by
  unfold effect trySend
  split
  · rfl
  · rfl
  · split_ifs <;> rfl

@[simp] theorem winner_effect (o : Option ReadEffect) : (s.effect o).winner = s.winner := by
  unfold effect trySend
  split
  · rfl
  · rfl
  · split_ifs <;> rfl

@[simp] theorem now_effect (o : Option ReadEffect) : (s.effect o).now = s.now := by
  unfold effect trySend
  split
  · rfl
  · rfl
  · split_ifs <;> rfl

@[simp] theorem close_trySend : (s.trySend c).handle.close = s.handle.close := by
  unfold trySend
  split_ifs <;> rfl

@[simp] theorem reader_trySend : (s.trySend c).reader = s.reader := by
  unfold trySend
  split_ifs <;> rfl

@[simp] theorem writer_start (c : HandleCall) : (s.start i c).writer = s.writer := by
  unfold start
  split_ifs <;> rfl

@[simp] theorem handle_start (c : HandleCall) : (s.start i c).handle = s.handle := by
  unfold start
  split_ifs <;> rfl

theorem step_call {c : HandleCall} (h : s.calls.lookup i = some c) :
    s.step (.call i) = s.callStep i c := by
  show (match s.calls.lookup i with | none => s | some c => s.callStep i c) = _
  rw [h]

theorem step_call_none (h : s.calls.lookup i = none) : s.step (.call i) = s := by
  show (match s.calls.lookup i with | none => s | some c => s.callStep i c) = _
  rw [h]

/-- Only its own steps change the writer. -/
theorem writer_step (he : ∀ result, e ≠ .writer result) : (s.step e).writer = s.writer := by
  cases e with
  | send i frame => exact writer_start _
  | close i cmd => exact writer_start _
  | call i =>
    cases h : s.calls.lookup i with
    | none => rw [step_call_none h]
    | some c =>
      rw [step_call h]
      cases c with
      | push frame => rfl
      | signal cmd => rfl
      | nudge code reason => exact writer_trySend
  | writer result => exact absurd rfl (he result)
  | reader poll => exact writer_effect _
  | teardown =>
    show (if _ then _ else s : Connection).writer = _
    split_ifs <;> rfl
  | advance d => rfl

/-- The mailbox is popped by the writer only. -/
theorem mailbox_step (he : ∀ result, e ≠ .writer result) :
    (s.step e).handle.mailbox = s.handle.mailbox ∨
      (s.step e).handle.mailbox = s.handle.mailbox.close ∨
      ∃ frame, (s.step e).handle.mailbox = (s.handle.mailbox.push frame).1 := by
  cases e with
  | send i frame => exact Or.inl (congrArg ConnHandle.mailbox (handle_start _))
  | close i cmd => exact Or.inl (congrArg ConnHandle.mailbox (handle_start _))
  | call i =>
    cases h : s.calls.lookup i with
    | none => exact Or.inl (by rw [step_call_none h])
    | some c =>
      rw [step_call h]
      cases c with
      | push frame => exact Or.inr (Or.inr ⟨frame, rfl⟩)
      | signal cmd => exact Or.inl rfl
      | nudge code reason => exact Or.inl mailbox_trySend
  | writer result => exact absurd rfl (he result)
  | reader poll => exact Or.inl (mailbox_effect _)
  | teardown =>
    unfold step
    dsimp only
    split_ifs
    · exact Or.inr (Or.inl rfl)
    · exact Or.inl rfl
  | advance d => exact Or.inl rfl

/-- Only its own steps change the reader. -/
theorem reader_step (he : ∀ poll, e ≠ .reader poll) : (s.step e).reader = s.reader := by
  cases e with
  | send i frame =>
    show (s.start i (.push frame)).reader = _
    unfold start
    split_ifs <;> rfl
  | close i cmd =>
    show (s.start i (.signal cmd)).reader = _
    unfold start
    split_ifs <;> rfl
  | call i =>
    cases h : s.calls.lookup i with
    | none => rw [step_call_none h]
    | some c =>
      rw [step_call h]
      cases c with
      | push frame => rfl
      | signal cmd => rfl
      | nudge code reason => exact reader_trySend
  | writer result => rfl
  | reader poll => exact absurd rfl (he poll)
  | teardown =>
    show (if _ then _ else s : Connection).reader = _
    split_ifs <;> rfl
  | advance d => rfl

/-- What latches a close: the signal of a call, or a panic of the writer. -/
inductive Latches (s : Connection) : ConnEvent → CloseCmd → Prop
  | signal {i : ℕ} {cmd : CloseCmd} (h : s.calls.lookup i = some (.signal cmd)) :
      Latches s (.call i) cmd
  | panicked {result : SinkResult} (h : s.writer.point = .panicked) :
      Latches s (.writer result) ⟨closeInternalError, "connection writer panicked", false⟩

theorem close_writer (w : WriteLoop) (h : ConnHandle) (result : SinkResult)
    (hp : w.point ≠ .panicked) : (w.step h result).2.close = h.close := by
  unfold WriteLoop.step
  split
  · split <;> rfl
  · split <;> rfl
  · split <;> rfl
  · next heq => exact absurd heq hp
  · rfl

/-- The latch changes at most once. -/
theorem close_step (s : Connection) (e : ConnEvent) :
    (s.step e).handle.close = s.handle.close ∨
      (s.handle.close = none ∧ ∃ cmd, s.Latches e cmd ∧ (s.step e).handle.close = some cmd) := by
  cases e with
  | send i frame => exact Or.inl (congrArg ConnHandle.close (handle_start _))
  | close i cmd => exact Or.inl (congrArg ConnHandle.close (handle_start _))
  | call i =>
    cases h : s.calls.lookup i with
    | none => exact Or.inl (by rw [step_call_none h])
    | some c =>
      rw [step_call h]
      cases c with
      | push frame => exact Or.inl rfl
      | signal cmd =>
        cases hclose : s.handle.close with
        | none =>
          refine Or.inr ⟨rfl, cmd, .signal h, ?_⟩
          show s.handle.close.or (some cmd) = _
          rw [hclose, Option.none_or]
        | some first =>
          left
          show s.handle.close.or (some cmd) = _
          rw [hclose, Option.some_or]
      | nudge code reason => exact Or.inl close_trySend
  | writer result =>
    by_cases hp : s.writer.point = .panicked
    · have hstep : (s.step (.writer result)).handle.close =
          s.handle.close.or (some ⟨closeInternalError, "connection writer panicked", false⟩) := by
        show (s.writer.step s.handle result).2.close = _
        unfold WriteLoop.step
        rw [hp]
        rfl
      cases hclose : s.handle.close with
      | none => exact Or.inr ⟨rfl, _, .panicked hp, by rw [hstep, hclose, Option.none_or]⟩
      | some first => exact Or.inl (by rw [hstep, hclose, Option.some_or])
    · exact Or.inl (close_writer _ _ _ hp)
  | reader poll => exact Or.inl (close_effect _)
  | teardown =>
    left
    show (if _ then _ else s : Connection).handle.close = _
    split_ifs <;> rfl
  | advance d => exact Or.inl rfl

/-! ## Steps of the writer -/

theorem step_writer_of_eq {result : SinkResult} {w : WriteLoop} {h : ConnHandle}
    (heq : s.writer.step s.handle result = (w, h)) :
    s.step (.writer result) = { s with writer := w, handle := h } := by
  show ({ s with writer := _, handle := _ } : Connection) = _
  rw [heq]

theorem step_writer_control (result : SinkResult) (hp : s.writer.point = .control)
    (hc : s.handle.control = []) :
    s.step (.writer result) = { s with writer := { s.writer with point := .mailbox } } := by
  apply step_writer_of_eq
  unfold WriteLoop.step
  rw [hp, hc]

theorem step_writer_take (result : SinkResult) {control : List Control}
    (hp : s.writer.point = .control) (hc : s.handle.control = c :: control)
    (hsent : s.writer.closeSent = false) :
    s.step (.writer result) =
      { s with
        writer := { s.writer with point := .sending c.frame }
        handle := { s.handle with control } } := by
  apply step_writer_of_eq
  simp [WriteLoop.step, hp, hc, hsent]

/-- A frame that is popped after a Close frame is discarded. -/
theorem step_writer_pop (result : SinkResult) {items : List OutboundFrame} {sent : Bool}
    (hp : s.writer.point = .mailbox) (hm : s.handle.mailbox.items = frame :: items)
    (hsent : s.writer.closeSent = sent) :
    s.step (.writer result) =
      { s with
        writer := { s.writer with point := bif sent then .control else .sending frame.frame }
        handle := { s.handle with mailbox := s.handle.mailbox.pop.1 } } := by
  have hpop : s.handle.mailbox.pop = (s.handle.mailbox.pop.1, some frame) := by
    unfold Mailbox.pop
    rw [hm]
  apply step_writer_of_eq
  unfold WriteLoop.step
  rw [hp, hpop]
  dsimp only
  rw [hsent]
  cases sent <;> rfl

/-- After a Close frame, commands are ignored. -/
theorem step_writer_ignore (result : SinkResult) {control : List Control}
    (hp : s.writer.point = .control) (hc : s.handle.control = c :: control)
    (hsent : s.writer.closeSent = true) :
    s.step (.writer result) = { s with handle := { s.handle with control } } := by
  apply step_writer_of_eq
  unfold WriteLoop.step
  rw [hp, hc]
  dsimp only
  rw [if_pos hsent, ← hp]

theorem step_writer_empty (result : SinkResult) (hp : s.writer.point = .mailbox)
    (hm : s.handle.mailbox.items = []) :
    s.step (.writer result) =
      { s with
        writer :=
          { s.writer with point := if s.handle.mailbox.closed then .ended else .control } } := by
  apply step_writer_of_eq
  simp [WriteLoop.step, hp, Mailbox.pop, hm]

theorem step_writer_ended (result : SinkResult) (hp : s.writer.point = .ended) :
    s.step (.writer result) = s := by
  apply step_writer_of_eq
  unfold WriteLoop.step
  rw [hp]

theorem step_writer_send {f : OutFrame} (hp : s.writer.point = .sending f) :
    s.step (.writer .accepted) =
      { s with
        writer :=
          { point := .control
            closeSent := s.writer.closeSent || f.closeCode.isSome
            written := s.writer.written ++ [f] } } := by
  apply step_writer_of_eq
  unfold WriteLoop.step
  rw [hp]

/-! ## Calls without interference -/

theorem start_eq {c : HandleCall} (hi : i ∉ s.calls) :
    s.start i c = { s with calls := s.calls.insert i c } := if_neg hi

theorem lookup_setCall (next : Option HandleCall) : (s.setCall i next).calls.lookup i = next := by
  show (s.calls.set i next).lookup i = next
  rw [Tasks.lookup_set, if_pos rfl]

/-- From the signal on, the steps of a call in a row are `initiate_close`. -/
theorem handle_signal_nudge (hi : s.calls.lookup i = some (.signal cmd))
    (hw : s.writer.point ≠ .ended) :
    (run step s [.call i, .call i]).handle =
      s.handle.initiateClose cmd.code cmd.reason cmd.graceful := by
  have hnext : (s.callStep i (.signal cmd)).calls.lookup i = some (.nudge cmd.code cmd.reason) :=
    lookup_setCall _
  rw [run_cons, run_cons, run_nil, step_call hi, step_call hnext]
  exact handle_trySend hw

theorem run_initiateClose (hi : i ∉ s.calls) (hw : s.writer.point ≠ .ended) :
    (run step s [.close i cmd, .call i, .call i]).handle =
      s.handle.initiateClose cmd.code cmd.reason cmd.graceful := by
  rw [run_cons, show s.step (.close i cmd) = _ from start_eq hi]
  exact handle_signal_nudge (AList.lookup_insert s.calls) hw

theorem run_push (hi : i ∉ s.calls) (hw : s.writer.point ≠ .ended) :
    (run step s [.send i frame, .call i, .call i, .call i]).handle = (s.handle.push frame).1 := by
  rw [run_cons, show s.step (.send i frame) = _ from start_eq hi, run_cons,
    step_call (AList.lookup_insert s.calls)]
  unfold ConnHandle.push
  dsimp only
  by_cases hout : (s.handle.mailbox.push frame).2 = .disconnect
  · rw [if_pos hout]
    have hnext : (({ s with calls := s.calls.insert i (.push frame) } : Connection).callStep i
        (.push frame)).calls.lookup i =
          some (.signal ⟨closeBackpressure, "backpressure", true⟩) := by
      show (Tasks.set _ i (if _ then _ else _)).lookup i = _
      rw [Tasks.lookup_set, if_pos rfl, if_pos hout]
    exact handle_signal_nudge hnext hw
  · rw [if_neg hout]
    -- the call is over, and its number steps in vain
    have hover : (({ s with calls := s.calls.insert i (.push frame) } : Connection).callStep i
        (.push frame)).calls.lookup i = none := by
      show (Tasks.set _ i (if _ then _ else _)).lookup i = none
      rw [Tasks.lookup_set, if_pos rfl, if_neg hout]
    rw [run_cons, step_call_none hover, run_cons, step_call_none hover]
    rfl

end Connection

end BeamSocket.Core
