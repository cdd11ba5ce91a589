import BeamSocket.Lib.Tasks
import BeamSocket.Mesh.PeerStream

/-!
# Closing a link and its reader

Model of `reader_loop`, `keepalive_loop` and `LinkHandle::close`
(`crates/mesh/src/link.rs`, lines 476–603 and 197–202) as tasks that interleave at every
access to what they share. `shutdown` is a `tokio::sync::Notify` on which only
`notify_waiters` is called: it wakes the `Notified` futures that exist and leaves nothing
behind for later ones. The loops make a new `Notified` on every turn, and `select!` drops it
before it runs the branch it has chosen.

What the socket gives to `read_raw_frame` is open, and so are the ticker, the clock and the
order of all steps. Both hooks are wired.

* `ReaderLink.close_stops_iff`: a close stops the reader iff its `notify_waiters` comes while
  the reader is suspended in its `select!`, or has left the loop.
* `EarlyClose.frames_handed`: a close before the reader is first polled.
-/

namespace BeamSocket.Mesh

open BeamSocket.Lib

/-- Where the reader is. `woken` says whether `notify_waiters` has reached the `Notified` of
    this turn. -/
inductive ReaderPoint
  /-- Before the futures of the `select!` are made. -/
  | top
  /-- Before the poll of `notified`, which is the first; also between two polls. -/
  | selecting (woken : Bool)
  /-- `notified` was pending; before the poll of `read_raw_frame`. -/
  | reading (woken : Bool)
  /-- In `dispatch`; the futures are dropped. -/
  | dispatching (kind flags : UInt8) (body : Bytes)
  /-- Behind the loop, before `state.store`, `queue.close` and `on_close`. -/
  | storing
  | closingQueue
  | callingBack
  | exited
  deriving DecidableEq

/-- Where the keepalive is. -/
inductive KeepalivePoint
  /-- In the `tick` in front of the loop. -/
  | firstTick
  | top
  | selecting (woken : Bool)
  /-- `notified` was pending; before the poll of `tick`. -/
  | ticking (woken : Bool)
  /-- Before `queue.is_closed`. -/
  | checkingQueue
  /-- Before `idle_ms`. -/
  | checkingIdle
  /-- The link is dead. -/
  | storing
  | notifying
  | closingQueue
  | pinging
  | exited
  deriving DecidableEq

/-- What a call of `LinkHandle::close` does next. -/
inductive CloseTask
  | storing
  | notifying
  | closingQueue
  deriving DecidableEq

/-- The answer of `read_raw_frame` to a poll. -/
inductive ReadPoll
  | pending
  | frame (kind flags : UInt8) (body : Bytes)
  | oversize
  /-- End of the stream, socket error or malformed length. -/
  | failed

/-- The counters that the two loops advance. -/
structure LinkCounters where
  bytesIn : ℕ
  framesIn : ℕ
  unknownFrames : ℕ
  oversizeCloses : ℕ
  pongsRecv : ℕ
  pingsSent : ℕ
  deriving DecidableEq

/-- An established link without its writer. `lastIn` is the `IdleClock`, `handed` the frames
    given to the inbound hook, oldest first, and `closeCalls` counts the calls of `on_close`. -/
structure ReaderLink where
  negotiated : Negotiated
  deadAfterMs : ℕ
  state : LinkState
  queue : PeerQueue
  counters : LinkCounters
  reader : ReaderPoint
  keepalive : KeepalivePoint
  closers : Tasks CloseTask
  now : ℕ
  lastIn : ℕ
  handed : List Frame
  closeCalls : ℕ

/-- The steps of the reader, of the keepalive and of the threads that close the link, and the
    clock. -/
inductive ReaderEvent
  /-- The reader goes on; if it polls `read_raw_frame`, the answer is `poll`. -/
  | reader (poll : ReadPoll)
  /-- The keepalive goes on; if it polls `tick`, `due` says whether it is ready. -/
  | keepalive (due : Bool)
  /-- Thread `i` calls `LinkHandle::close`. -/
  | close (i : ℕ)
  /-- Thread `i` goes on. -/
  | go (i : ℕ)
  /-- Milliseconds pass. -/
  | time (ms : ℕ)

namespace ReaderPoint

/-- `notify_waiters` at this `Notified`, if there is one. -/
def wake : ReaderPoint → ReaderPoint
  | .selecting _ => .selecting true
  | .reading _ => .reading true
  | r => r

end ReaderPoint

namespace KeepalivePoint

/-- `notify_waiters` at this `Notified`, if there is one. -/
def wake : KeepalivePoint → KeepalivePoint
  | .selecting _ => .selecting true
  | .ticking _ => .ticking true
  | k => k

end KeepalivePoint

namespace ReaderLink

/-- `establish` behind the handshake (lines 347–374). -/
def new (negotiated : Negotiated) (hwmBytes deadAfterMs : ℕ) : ReaderLink :=
  { negotiated, deadAfterMs
    state := .up
    queue := .new hwmBytes
    counters := ⟨0, 0, 0, 0, 0, 0⟩
    reader := .top
    keepalive := .firstTick
    closers := ∅
    now := 0
    lastIn := 0
    handed := []
    closeCalls := 0 }

/-- `shutdown.notify_waiters`. -/
def notifyWaiters (l : ReaderLink) : ReaderLink :=
  { l with reader := l.reader.wake, keepalive := l.keepalive.wake }

/-- `dispatch` (lines 512–557). -/
def dispatchFrame (l : ReaderLink) (kind flags : UInt8) (body : Bytes) : ReaderLink :=
  let known := { l.counters with framesIn := l.counters.framesIn + 1 }
  match dispatch l.negotiated kind flags body with
  | .unknown => { l with counters.unknownFrames := l.counters.unknownFrames + 1 }
  | .pongReceived => { l with counters := { known with pongsRecv := known.pongsRecv + 1 } }
  | .answerPing => { l with counters := known, queue := (l.queue.push (pingFrame true).encode).1 }
  | .inbound frame => { l with counters := known, handed := l.handed ++ [frame] }
  | .ignored => { l with counters := known }

/-- The next step of the reader (lines 483–509). -/
def readerStep (l : ReaderLink) (poll : ReadPoll) : ReaderLink :=
  match l.reader with
  | .top => { l with reader := .selecting false }
  | .selecting woken => { l with reader := if woken then .storing else .reading false }
  | .reading woken =>
    match poll with
    | .pending => { l with reader := .selecting woken }
    | .frame kind flags body =>
      { l with
        reader := .dispatching kind flags body
        lastIn := l.now
        counters.bytesIn := l.counters.bytesIn + (headerLen + body.length) }
    | .oversize =>
      { l with reader := .storing, counters.oversizeCloses := l.counters.oversizeCloses + 1 }
    | .failed => { l with reader := .storing }
  | .dispatching kind flags body => { l.dispatchFrame kind flags body with reader := .top }
  | .storing => { l with reader := .closingQueue, state := .closed }
  | .closingQueue => { l with reader := .callingBack, queue := l.queue.close }
  | .callingBack => { l with reader := .exited, closeCalls := l.closeCalls + 1 }
  | .exited => l

/-- The PING of the keepalive (lines 597–599). -/
def ping (l : ReaderLink) : ReaderLink :=
  match l.queue.push (pingFrame false).encode with
  | (queue, .enqueued) => { l with queue, counters.pingsSent := l.counters.pingsSent + 1 }
  | (queue, .dropped) => { l with queue }

/-- The next step of the keepalive (lines 572–602). -/
def keepaliveStep (l : ReaderLink) (due : Bool) : ReaderLink :=
  match l.keepalive with
  | .firstTick => if due then { l with keepalive := .top } else l
  | .top => { l with keepalive := .selecting false }
  | .selecting woken => { l with keepalive := if woken then .exited else .ticking false }
  | .ticking woken => { l with keepalive := if due then .checkingQueue else .selecting woken }
  | .checkingQueue => { l with keepalive := if l.queue.closed then .exited else .checkingIdle }
  | .checkingIdle =>
    { l with keepalive := if l.now - l.lastIn > l.deadAfterMs then .storing else .pinging }
  | .storing => { l with keepalive := .notifying, state := .closed }
  | .notifying => { l.notifyWaiters with keepalive := .closingQueue }
  | .closingQueue => { l with keepalive := .exited, queue := l.queue.close }
  | .pinging => { l.ping with keepalive := .top }
  | .exited => l

/-- The next step of a call of `close` (lines 197–202). -/
def closeStep (l : ReaderLink) (i : ℕ) : CloseTask → ReaderLink
  | .storing => { l with state := .closing, closers := l.closers.insert i .notifying }
  | .notifying => { l.notifyWaiters with closers := l.closers.insert i .closingQueue }
  | .closingQueue => { l with queue := l.queue.close, closers := l.closers.erase i }

/-- One step of one party; a thread makes one call at a time. -/
def step (l : ReaderLink) : ReaderEvent → ReaderLink
  | .reader poll => l.readerStep poll
  | .keepalive due => l.keepaliveStep due
  | .close i =>
    if l.closers.lookup i = none then { l with closers := l.closers.insert i .storing } else l
  | .go i =>
    match l.closers.lookup i with
    | none => l
    | some task => l.closeStep i task
  | .time ms => { l with now := l.now + ms }

end ReaderLink

/-! ## The way out of the loop -/

namespace ReaderPoint

/-- The reader is suspended in its `select!`, or has left the loop. -/
def heeds : ReaderPoint → Bool
  | .selecting _ | .storing | .closingQueue | .callingBack | .exited => true
  | .top | .reading _ | .dispatching .. => false

/-- How many steps the reader is from its end, if it is certain to leave the loop without
    reading. -/
def stepsLeft : ReaderPoint → Option ℕ
  | .selecting true => some 4
  | .storing => some 3
  | .closingQueue => some 2
  | .callingBack => some 1
  | .exited => some 0
  | _ => none

theorem exists_stepsLeft_wake {r : ReaderPoint} (h : r.heeds = true) :
    ∃ k, r.wake.stepsLeft = some k := by
  cases r with
  | top => cases h
  | reading woken => cases h
  | dispatching kind flags body => cases h
  | _ => exact ⟨_, rfl⟩

theorem stepsLeft_wake {r : ReaderPoint} {k : ℕ} (h : r.stepsLeft = some k) :
    r.wake.stepsLeft = some k := by
  cases r with
  | selecting woken =>
    cases woken with
    | true => exact h
    | false => cases h
  | reading woken => cases h
  | _ => exact h

theorem eq_exited_of_stepsLeft {r : ReaderPoint} (h : r.stepsLeft = some 0) : r = .exited := by
  cases r with
  | exited => rfl
  | selecting woken => cases woken <;> cases h
  | _ => cases h

end ReaderPoint

/-- The step is one of the reader. -/
def ReaderEvent.isReader : ReaderEvent → Bool
  | .reader _ => true
  | _ => false

namespace ReaderLink

variable {l : ReaderLink}

theorem handed_ping (l : ReaderLink) : l.ping.handed = l.handed ∧ l.ping.reader = l.reader := by
  unfold ping
  split <;> exact ⟨rfl, rfl⟩

theorem keepaliveStep_reader (l : ReaderLink) (due : Bool) :
    (l.keepaliveStep due).handed = l.handed ∧
      ((l.keepaliveStep due).reader = l.reader ∨ (l.keepaliveStep due).reader = l.reader.wake) := by
  unfold keepaliveStep
  cases l.keepalive with
  | firstTick => dsimp only; split_ifs <;> exact ⟨rfl, .inl rfl⟩
  | notifying => exact ⟨rfl, .inr rfl⟩
  | pinging => exact ⟨(handed_ping l).1, .inl (handed_ping l).2⟩
  | _ => exact ⟨rfl, .inl rfl⟩

/-- What a step is for the reader: its own, or it is woken at most. -/
theorem step_cases (l : ReaderLink) (e : ReaderEvent) :
    (∃ poll, e = .reader poll) ∨
    (e.isReader = false ∧ (l.step e).handed = l.handed ∧
      ((l.step e).reader = l.reader ∨ (l.step e).reader = l.reader.wake)) := by
  cases e with
  | reader poll => exact .inl ⟨poll, rfl⟩
  | keepalive due => exact .inr ⟨rfl, keepaliveStep_reader l due⟩
  | close i =>
    refine .inr ⟨rfl, ?_⟩
    unfold step
    dsimp only
    split_ifs <;> exact ⟨rfl, .inl rfl⟩
  | go i =>
    refine .inr ⟨rfl, ?_⟩
    cases hi : l.closers.lookup i with
    | none => simp [step, hi]
    | some task => cases task <;> simp [step, hi, closeStep, notifyWaiters]
  | time ms => exact .inr ⟨rfl, rfl, .inl rfl⟩

theorem stepsLeft_readerStep {k : ℕ} (h : l.reader.stepsLeft = some k) (poll : ReadPoll) :
    (l.readerStep poll).handed = l.handed ∧
      (l.readerStep poll).reader.stepsLeft = some (k - 1) := by
  unfold readerStep
  cases hreader : l.reader with
  | selecting woken =>
    rw [hreader] at h
    cases woken with
    | true => cases h; exact ⟨rfl, rfl⟩
    | false => cases h
  | exited =>
    rw [hreader] at h
    cases h
    exact ⟨rfl, congrArg ReaderPoint.stepsLeft hreader⟩
  | _ =>
    rw [hreader] at h
    cases h <;> exact ⟨rfl, rfl⟩

/-- A reader on its way out hands nothing on, and its own steps take it to its end. -/
theorem stepsLeft_run {k : ℕ} (h : l.reader.stepsLeft = some k) (evs : List ReaderEvent) :
    (run step l evs).handed = l.handed ∧
      (run step l evs).reader.stepsLeft = some (k - evs.countP ReaderEvent.isReader) := by
  induction evs generalizing l k with
  | nil => exact ⟨rfl, h⟩
  | cons e evs ih =>
    rw [run_cons, List.countP_cons]
    rcases step_cases l e with ⟨poll, rfl⟩ | ⟨he, hhanded, hreader⟩
    · obtain ⟨hhanded, hleft⟩ := stepsLeft_readerStep h poll
      obtain ⟨hhanded', hleft'⟩ := ih hleft
      refine ⟨hhanded'.trans hhanded, ?_⟩
      show (run step (l.readerStep poll) evs).reader.stepsLeft = _
      rw [hleft', ReaderEvent.isReader, if_pos rfl, Nat.sub_sub, Nat.add_comm 1]
    · have hleft : (l.step e).reader.stepsLeft = some k := by
        rcases hreader with hreader | hreader <;> rw [hreader]
        · exact h
        · exact ReaderPoint.stepsLeft_wake h
      obtain ⟨hhanded', hleft'⟩ := ih hleft
      refine ⟨hhanded'.trans hhanded, ?_⟩
      rw [hleft', he]
      rfl

/-! ## A turn of the loop -/

/-- The reader takes one MEMBERSHIP frame from the socket. -/
def turn : List ReaderEvent :=
  [.reader .pending, .reader .pending, .reader (.frame FrameKind.membership.asU8 0 []),
    .reader .pending]

theorem run_turn (h : l.reader = .top) :
    (run step l turn).reader = .top ∧
      (run step l turn).handed = l.handed ++ [⟨.membership, 0, []⟩] := by
  have hdispatch : dispatch l.negotiated FrameKind.membership.asU8 0 [] =
      .inbound ⟨.membership, 0, []⟩ := rfl
  simp [turn, run, step, readerStep, h, dispatchFrame, hdispatch]

/-- From a point where the reader does not heed a wake-up it comes to the top of its loop. -/
theorem exists_run_top (h : l.reader.heeds = false) :
    ∃ evs, (run step l evs).reader = .top ∧ l.handed.length ≤ (run step l evs).handed.length := by
  have hdispatch (kind flags : UInt8) (body : Bytes) (l : ReaderLink) :
      l.handed.length ≤ (l.dispatchFrame kind flags body).handed.length := by
    unfold dispatchFrame
    split <;> simp
  cases hreader : l.reader with
  | top => exact ⟨[], hreader, le_refl _⟩
  | reading woken =>
    refine ⟨[.reader (.frame 0x04 0 []), .reader .pending], ?_, ?_⟩
    · simp [run, step, readerStep, hreader]
    · have hle := hdispatch 0x04 0 [] (l.step (.reader (.frame 0x04 0 [])))
      simpa [run, step, readerStep, hreader] using hle
  | dispatching kind flags body =>
    refine ⟨[.reader .pending], ?_, ?_⟩
    · simp [run, step, readerStep, hreader]
    · simpa [run, step, readerStep, hreader] using hdispatch kind flags body l
  | _ =>
    rw [hreader] at h
    cases h

/-! ## Closing -/

/-- Who closes the link. -/
inductive Closer
  | handle (i : ℕ)
  | keepalive

/-- The closer's next access is `notify_waiters`. -/
def Notifies (l : ReaderLink) : Closer → Prop
  | .handle i => l.closers.lookup i = some .notifying
  | .keepalive => l.keepalive = .notifying

/-- The next step of the closer. -/
def Closer.next : Closer → ReaderEvent
  | .handle i => .go i
  | .keepalive => .keepalive true

/-- The event is a step of the closer. -/
def Closer.Takes : Closer → ReaderEvent → Prop
  | .handle i, e => e = .go i
  | .keepalive, e => ∃ due, e = .keepalive due

/-- Whatever happens, the reader hands on at most the frame it is dispatching, and it exits
    within a number of its steps. -/
def Stops (l : ReaderLink) : Prop :=
  ∃ n, ∀ evs,
    ((run step l evs).handed = l.handed ∨
      ∃ kind flags body frame, l.reader = .dispatching kind flags body ∧
        dispatch l.negotiated kind flags body = .inbound frame ∧
        (run step l evs).handed = l.handed ++ [frame]) ∧
    (n ≤ evs.countP ReaderEvent.isReader → (run step l evs).reader = .exited)

theorem stops_of_stepsLeft {k : ℕ} (h : l.reader.stepsLeft = some k) : l.Stops := by
  refine ⟨k, fun evs => ?_⟩
  obtain ⟨hhanded, hleft⟩ := stepsLeft_run h evs
  refine ⟨.inl hhanded, fun hn => ?_⟩
  rw [Nat.sub_eq_zero_of_le hn] at hleft
  exact ReaderPoint.eq_exited_of_stepsLeft hleft

/-- A reader that does not heed the wake-up takes two more frames. -/
theorem not_stops (h : l.reader.heeds = false) : ¬l.Stops := by
  rintro ⟨n, hstops⟩
  obtain ⟨evs, htop, hle⟩ := exists_run_top h
  obtain ⟨htop', hhanded⟩ := run_turn htop
  obtain ⟨-, hhanded'⟩ := run_turn htop'
  have hlength : l.handed.length + 2 ≤ (run step l (evs ++ (turn ++ turn))).handed.length := by
    rw [run_append, run_append, hhanded', hhanded]
    simp only [List.length_append, List.length_singleton]
    omega
  rcases (hstops (evs ++ (turn ++ turn))).1 with hsame | ⟨_, _, _, frame, -, -, hone⟩
  · rw [hsame] at hlength
    omega
  · rw [hone, List.length_append, List.length_singleton] at hlength
    omega

/-- The step behind `notify_waiters` is the last of a close. -/
theorem reader_of_notifies {c : Closer} (hc : l.Notifies c) :
    (l.step c.next).reader = l.reader.wake ∧
      ((l.step c.next).step c.next).reader = l.reader.wake := by
  cases c with
  | handle i =>
    have hi : l.closers.lookup i = some .notifying := hc
    simp [Closer.next, step, hi, closeStep, notifyWaiters]
  | keepalive =>
    have hk : l.keepalive = .notifying := hc
    simp [Closer.next, step, keepaliveStep, hk, notifyWaiters]

theorem heeds_wake (r : ReaderPoint) : r.wake.heeds = r.heeds := by
  cases r <;> rfl

/-- For every state of a link and every close that comes to its `notify_waiters` there, of a
    handle or of the keepalive: once the close has returned, whatever happens in between, the
    reader hands on at most the frame it is dispatching and exits, iff at `notify_waiters` it
    was suspended in its `select!` or had left the loop. -/
theorem close_stops_iff (l : ReaderLink) (c : Closer) (hc : l.Notifies c) :
    (∀ mid, (∃ e ∈ mid, c.Takes e) → (run step (l.step c.next) mid).Stops) ↔
      l.reader.heeds = true := by
  constructor
  · intro hstops
    by_contra hheeds
    rw [Bool.not_eq_true] at hheeds
    have htakes : ∃ e ∈ [c.next], c.Takes e := by
      refine ⟨c.next, List.mem_singleton_self _, ?_⟩
      cases c with
      | handle i => rfl
      | keepalive => exact ⟨true, rfl⟩
    refine not_stops ?_ (hstops [c.next] htakes)
    show ((l.step c.next).step c.next).reader.heeds = false
    rw [(reader_of_notifies hc).2, heeds_wake]
    exact hheeds
  · intro hheeds mid _
    obtain ⟨k, hleft⟩ := ReaderPoint.exists_stepsLeft_wake hheeds
    rw [← (reader_of_notifies hc).1] at hleft
    exact stops_of_stepsLeft (stepsLeft_run hleft mid).2

end ReaderLink

/-! ## A close before the reader is polled -/

namespace EarlyClose

open ReaderLink

/-- A link with the default limits, before its tasks have run. -/
def link : ReaderLink :=
  new { protocolVersion := 1, features := 3, maxFrame := defaultMaxFrame, role := .initiator
        peerNodeId := 2, peerIncarnation := 1 } defaultQueueHwmBytes 45000

/-- The reader is suspended in its first turn when the link is closed. -/
theorem suspended_stops :
    let l := run step link [.reader .pending, .close 0, .go 0]
    l.reader = .selecting false ∧ (run step (l.step (.go 0)) [.go 0]).Stops := by
  intro l
  have hnotifies : l.Notifies (.handle 0) := rfl
  have hstops := (close_stops_iff l (.handle 0) hnotifies).mpr rfl
  exact ⟨rfl, hstops [.go 0] ⟨_, List.mem_singleton_self _, rfl⟩⟩

/-- The close has returned before the reader is first polled; the reader hands on what the
    peer sends. -/
theorem frames_handed :
    let l := run step link [.close 0, .go 0, .go 0, .go 0]
    l.closers.keys = [] ∧ l.state = .closing ∧ l.queue.closed = true ∧
      (run step l (turn ++ turn)).handed = [⟨.membership, 0, []⟩, ⟨.membership, 0, []⟩] ∧
      ¬l.Stops :=
  ⟨rfl, rfl, rfl, rfl, not_stops rfl⟩

end EarlyClose

end BeamSocket.Mesh
