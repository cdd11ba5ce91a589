import BeamSocket.Lib.Tasks
import BeamSocket.Mesh.PeerStream

/-!
# The writer of a link

Model of `writer_loop` (`crates/mesh/src/link.rs`, lines 436–462) with everything that
runs beside it on one link: pushes from any thread, the counters that `do_relay` advances
behind a push, and the closes of the handle, the reader and the keepalive. No write of the
socket fails.

A push and a drain each hold the lock of the queue, and the gauge that the writer reads
without it changes once under the lock, so each is one step; the `notify_one` behind a
push or a close is a step of its own. The writer reads the flag and the gauge in two steps.

`push` does not read the flag. A frame that is pushed when the writer has made its last
check is answered `Enqueued`, counted in `relay_out`, and never written.

* `WriterLink.Exact`: every enqueued frame is written, in the writer's hands or queued,
  and every answer is counted.
* `WriterLink.exited_written_iff`: when the writer has exited, all enqueued frames are
  written iff none was enqueued behind its last check.
* `StaleHandle.relay_lost`: a relay that is counted as sent and lost.
-/

namespace BeamSocket.Mesh

open BeamSocket.Lib

/-- `COALESCE_CAP_BYTES`. -/
def coalesceCapBytes : ℕ := 128 * 1024

/-- What a thread has left to do behind its push or its close. -/
inductive SendTask
  /-- The frame is enqueued and `notify_one` is next. -/
  | notifying (relay : Bool)
  /-- The push has answered `relay`, and `do_relay` has not added it up. -/
  | counting (outcome : EnqueueOutcome)
  /-- The flag is set and `notify_one` is next. -/
  | closing
  deriving DecidableEq

namespace SendTask

/-- A relay that was enqueued and is not in `relay_out`. -/
def owesOut : SendTask → Bool
  | .notifying relay => relay
  | .counting outcome => outcome = .enqueued
  | .closing => false

/-- A relay that was dropped and is not in `relay_drops`. -/
def owesDrop : SendTask → Bool
  | .counting outcome => outcome = .dropped
  | _ => false

/-- What is left behind an answer of `try_send`. -/
def afterSend (relay : Bool) : Option EnqueueOutcome → Option SendTask
  | some .enqueued => some (.notifying relay)
  | some .dropped => if relay then some (.counting .dropped) else none
  | none => none

end SendTask

/-- Where the writer is. -/
inductive WriterPoint
  | draining
  /-- In `write_all`, with `n` frames in the buffer. -/
  | writing (scratch : Bytes) (n : ℕ)
  /-- Before `is_closed`, in front of `wait` or behind it. -/
  | readingClosed (behind : Bool)
  /-- `is_closed` was true; before `is_empty`. -/
  | readingEmpty (behind : Bool)
  /-- Before the first poll of `notified`. -/
  | waiting
  | parked
  | woken
  /-- The check has passed; before `shutdown`. -/
  | leaving
  | exited
  deriving DecidableEq

namespace WriterPoint

/-- Where the writer goes on when a check fails. -/
def afterCheck (behind : Bool) : WriterPoint := if behind then .draining else .waiting

/-- The writer reads the queue no more. -/
def past : WriterPoint → Bool
  | .leaving | .exited => true
  | _ => false

/-- The writer has `batch` in its hands. -/
def Holds (batch : List Frame) : WriterPoint → Prop
  | .writing scratch n => scratch = batch.flatMap Frame.encode ∧ n = batch.length
  | _ => batch = []

/-- The writer has no batch in its hands. -/
def idle : WriterPoint → Bool
  | .writing _ _ => false
  | _ => true

theorem holds_of_idle {w : WriterPoint} (h : w.idle = true) (batch : List Frame) :
    w.Holds batch ↔ batch = [] := by
  cases w with
  | writing scratch n => cases h
  | _ => rfl

theorem idle_afterCheck (behind : Bool) : (afterCheck behind).idle = true := by
  cases behind <;> rfl

end WriterPoint

/-- A link: its handle, the threads, `notify`'s permit, the writer, the bytes on the
    socket, the counters of the link and of the relay, and the log of the sends with their
    answers, oldest first (`none` is a suppressed send). -/
structure WriterLink where
  handle : LinkHandle
  tasks : Tasks SendTask
  permit : Bool
  writer : WriterPoint
  stream : Bytes
  bytesOut : ℕ
  framesOut : ℕ
  relayOut : ℕ
  relayDrops : ℕ
  sends : List (Frame × Bool × Option EnqueueOutcome)

/-- The steps of the threads that use a link and of its writer. -/
inductive WriterEvent
  /-- Thread `i` sends a frame, with `MeshNode::relay` or otherwise. The PING and PONG of
      the link itself are pushed without the test of `try_send`, which they pass. -/
  | send (i : ℕ) (relay : Bool) (frame : Frame)
  /-- Thread `i` (the owner of a handle, the reader at its end, the keepalive) sets the
      flag. -/
  | close (i : ℕ)
  /-- Thread `i` goes on. -/
  | go (i : ℕ)
  /-- The writer goes on. -/
  | write

namespace WriterLink

/-- A link when `establish` returns it (`link.rs`, lines 345–383). -/
def new (negotiated : Negotiated) (hwmBytes : ℕ) : WriterLink :=
  { handle := { negotiated, queue := .new hwmBytes, suppressedEmits := 0 }
    tasks := ∅
    permit := false
    writer := .draining
    stream := []
    bytesOut := 0
    framesOut := 0
    relayOut := 0
    relayDrops := 0
    sends := [] }

/-- `notify_one`: wakes the writer, or leaves a permit for its next `notified`. -/
def notifyOne (l : WriterLink) : WriterLink :=
  if l.writer = .parked then { l with writer := .woken } else { l with permit := true }

/-- The frame goes through `try_send`; the thread has the rest to do. -/
def send (l : WriterLink) (i : ℕ) (relay : Bool) (frame : Frame) : WriterLink :=
  let (handle, answer) := l.handle.trySendEncoded frame.kind frame.encode
  { l with
    handle
    tasks := l.tasks.set i (SendTask.afterSend relay answer)
    sends := l.sends ++ [(frame, relay, answer)] }

/-- `PeerQueue::close` up to the `notify_one`. -/
def close (l : WriterLink) (i : ℕ) : WriterLink :=
  { l with
    handle := { l.handle with queue := l.handle.queue.close }
    tasks := l.tasks.insert i .closing }

/-- The next step of a thread. -/
def go (l : WriterLink) (i : ℕ) : SendTask → WriterLink
  | .notifying relay =>
    { l.notifyOne with tasks := l.tasks.set i (if relay then some (.counting .enqueued) else none) }
  | .counting .enqueued => { l with relayOut := l.relayOut + 1, tasks := l.tasks.erase i }
  | .counting .dropped => { l with relayDrops := l.relayDrops + 1, tasks := l.tasks.erase i }
  | .closing => { l.notifyOne with tasks := l.tasks.erase i }

/-- `drain_coalesced` and the test of what it returns. -/
def drain (l : WriterLink) : WriterLink :=
  let (queue, scratch, n) := l.handle.queue.drainCoalesced coalesceCapBytes
  { l with
    handle := { l.handle with queue }
    writer := if n = 0 then .readingClosed false else .writing scratch n }

/-- The next step of the writer. -/
def write (l : WriterLink) : WriterLink :=
  match l.writer with
  | .draining => l.drain
  | .writing scratch n =>
    { l with
      writer := .draining
      stream := l.stream ++ scratch
      bytesOut := l.bytesOut + scratch.length
      framesOut := l.framesOut + n }
  | .readingClosed behind =>
    { l with writer := if l.handle.queue.closed then .readingEmpty behind else .afterCheck behind }
  | .readingEmpty behind =>
    { l with writer := if l.handle.queue.isEmpty then .leaving else .afterCheck behind }
  | .waiting =>
    if l.permit then { l with permit := false, writer := .readingClosed true }
    else { l with writer := .parked }
  | .parked => l
  | .woken => { l with writer := .readingClosed true }
  | .leaving => { l with writer := .exited }
  | .exited => l

/-- One step of one thread, which makes one call at a time, or of the writer. -/
def step (l : WriterLink) : WriterEvent → WriterLink
  | .send i relay frame => if l.tasks.lookup i = none then l.send i relay frame else l
  | .close i => if l.tasks.lookup i = none then l.close i else l
  | .go i =>
    match l.tasks.lookup i with
    | none => l
    | some task => l.go i task
  | .write => l.write

/-- The frames whose push was answered `Enqueued`, in push order. -/
def enqueued (l : WriterLink) : List Frame :=
  (l.sends.filter fun s => s.2.2 = some .enqueued).map Prod.fst

/-- How many relays were answered so. -/
def relays (l : WriterLink) (answer : Option EnqueueOutcome) : ℕ :=
  l.sends.countP fun s => s.2.1 ∧ s.2.2 = answer

/-- Every enqueued frame is on the socket, in the writer's hands or queued, in push order;
    every answer to a relay is counted, or its thread has yet to count it. -/
structure Exact (l : WriterLink) : Prop where
  gauge : l.handle.queue.Gauge
  flow : ∃ written batch queued, l.enqueued = written ++ batch ++ queued ∧
    l.stream = written.flatMap Frame.encode ∧ l.framesOut = written.length ∧
    l.writer.Holds batch ∧ l.handle.queue.frames = queued.map Frame.encode
  out : l.relayOut + l.tasks.count SendTask.owesOut = l.relays (some .enqueued)
  drops : l.relayDrops + l.tasks.count SendTask.owesDrop = l.relays (some .dropped)
  suppressed : l.handle.suppressedEmits = l.sends.countP fun s => s.2.2 = none

variable {l : WriterLink}

theorem exact_new (negotiated : Negotiated) (hwmBytes : ℕ) : (new negotiated hwmBytes).Exact where
  gauge := rfl
  flow := ⟨[], [], [], rfl, rfl, rfl, rfl, rfl⟩
  out := rfl
  drops := rfl
  suppressed := rfl

/-! ## Sending -/

/-- The frame passes the test of `try_send` and fits into the queue. -/
def Fits (l : WriterLink) (frame : Frame) : Prop :=
  l.handle.negotiated.mayEmit frame.kind = true ∧
    l.handle.queue.queuedBytes + frame.encode.length ≤ l.handle.queue.hwmBytes

instance (l : WriterLink) (frame : Frame) : Decidable (l.Fits frame) :=
  inferInstanceAs (Decidable (_ ∧ _))

theorem trySend_of_fits {frame : Frame} (h : l.Fits frame) :
    l.handle.trySendEncoded frame.kind frame.encode =
      ({ l.handle with
          queue := { l.handle.queue with
            frames := l.handle.queue.frames ++ [frame.encode]
            queuedBytes := l.handle.queue.queuedBytes + frame.encode.length } },
        some .enqueued) := by
  rw [LinkHandle.trySendEncoded, if_pos h.1, PeerQueue.push_of_room h.2]

theorem trySend_of_not_fits {frame : Frame} (h : ¬l.Fits frame) :
    l.handle.trySendEncoded frame.kind frame.encode =
        ({ l.handle with suppressedEmits := l.handle.suppressedEmits + 1 }, none) ∨
      l.handle.trySendEncoded frame.kind frame.encode =
        ({ l.handle with queue := { l.handle.queue with drops := l.handle.queue.drops + 1 } },
          some .dropped) := by
  unfold LinkHandle.trySendEncoded
  by_cases hemit : l.handle.negotiated.mayEmit frame.kind = true
  · right
    have hfull : l.handle.queue.hwmBytes < l.handle.queue.queuedBytes + frame.encode.length := by
      by_contra hroom
      exact h ⟨hemit, not_lt.mp hroom⟩
    rw [if_pos hemit, PeerQueue.push_of_full hfull]
  · left
    rw [if_neg hemit]

/-- The answer to a free thread is one it has yet to count. -/
theorem counted_afterSend (h : l.Exact) {i : ℕ} (hfree : l.tasks.lookup i = none) (relay : Bool)
    (frame : Frame) (answer : Option EnqueueOutcome) :
    let tasks := l.tasks.set i (SendTask.afterSend relay answer)
    let sends := l.sends ++ [(frame, relay, answer)]
    l.relayOut + tasks.count SendTask.owesOut =
        (sends.countP fun s => s.2.1 ∧ s.2.2 = some .enqueued) ∧
      l.relayDrops + tasks.count SendTask.owesDrop =
        sends.countP fun s => s.2.1 ∧ s.2.2 = some .dropped := by
  intro tasks sends
  rw [Tasks.count_set_of_lookup_none _ hfree, Tasks.count_set_of_lookup_none _ hfree,
    List.countP_append, List.countP_append, ← add_assoc, ← add_assoc, h.out, h.drops]
  cases relay <;> rcases answer with _ | _ | _ <;>
    simp [relays, SendTask.afterSend, Tasks.weight, SendTask.owesOut, SendTask.owesDrop]

theorem exact_send (h : l.Exact) {i : ℕ} (hfree : l.tasks.lookup i = none) (relay : Bool)
    (frame : Frame) : (l.send i relay frame).Exact := by
  obtain ⟨written, batch, queued, henqueued, hstream, hframesOut, hholds, hframes⟩ := h.flow
  have hcounted (answer : Option EnqueueOutcome) := counted_afterSend h hfree relay frame answer
  have hsuppressed := h.suppressed
  unfold send
  dsimp only
  by_cases hfits : l.Fits frame
  · have hgauge := h.gauge.push frame.encode
    rw [PeerQueue.push_of_room hfits.2] at hgauge
    rw [trySend_of_fits hfits]
    refine ⟨hgauge, ⟨written, batch, queued ++ [frame], ?_, hstream, hframesOut, hholds, ?_⟩,
      (hcounted _).1, (hcounted _).2, ?_⟩
    · rw [← List.append_assoc, ← henqueued]
      simp [enqueued, List.filter_append]
    · simp [hframes]
    · simp [List.countP_append, hsuppressed]
  · rcases trySend_of_not_fits hfits with heq | heq
    all_goals
      rw [heq]
      refine ⟨h.gauge, ⟨written, batch, queued, ?_, hstream, hframesOut, hholds, hframes⟩,
        (hcounted _).1, (hcounted _).2, ?_⟩
      · rw [← henqueued]
        simp [enqueued, List.filter_append]
      · simp [List.countP_append, hsuppressed]

/-! ## The other threads -/

theorem exact_close (h : l.Exact) {i : ℕ} (hfree : l.tasks.lookup i = none) :
    (l.close i).Exact := by
  have hcount (p : SendTask → Bool) (hp : p .closing = false) :
      Tasks.count (l.tasks.insert i .closing) p = l.tasks.count p := by
    have := Tasks.count_set_of_lookup_none p hfree (some .closing)
    rw [show Tasks.weight p (some .closing) = 0 from if_neg (by simp [hp])] at this
    exact this
  refine ⟨h.gauge, h.flow, ?_, ?_, h.suppressed⟩
  · show l.relayOut + Tasks.count (l.tasks.insert i .closing) _ = _
    rw [hcount _ rfl]
    exact h.out
  · show l.relayDrops + Tasks.count (l.tasks.insert i .closing) _ = _
    rw [hcount _ rfl]
    exact h.drops

/-- The writer moves between two points where it holds no frame. -/
theorem Exact.move (h : l.Exact) (hfrom : l.writer.idle = true) {writer : WriterPoint}
    (hto : writer.idle = true) (permit : Bool) : { l with writer, permit : WriterLink }.Exact := by
  obtain ⟨written, batch, queued, henqueued, hstream, hframesOut, hholds, hframes⟩ := h.flow
  have hholds' : writer.Holds batch := by
    rw [WriterPoint.holds_of_idle hto, ← WriterPoint.holds_of_idle hfrom]
    exact hholds
  exact ⟨h.gauge, ⟨written, batch, queued, henqueued, hstream, hframesOut, hholds', hframes⟩,
    h.out, h.drops, h.suppressed⟩

theorem exact_notifyOne (h : l.Exact) : l.notifyOne.Exact := by
  unfold notifyOne
  split_ifs with hparked
  · have hfrom : l.writer.idle = true := by
      rw [hparked]
      rfl
    exact h.move hfrom rfl l.permit
  · exact ⟨h.gauge, h.flow, h.out, h.drops, h.suppressed⟩

/-- A step of a thread in which what it owes changes by what the counters change. -/
theorem Exact.retask (h : l.Exact) {i : ℕ} {task : SendTask} (hi : l.tasks.lookup i = some task)
    (next : Option SendTask) (relayOut relayDrops : ℕ)
    (hout : relayOut + Tasks.weight SendTask.owesOut next =
      l.relayOut + Tasks.weight SendTask.owesOut (some task))
    (hdrops : relayDrops + Tasks.weight SendTask.owesDrop next =
      l.relayDrops + Tasks.weight SendTask.owesDrop (some task)) :
    { l with tasks := l.tasks.set i next, relayOut, relayDrops : WriterLink }.Exact := by
  have hcount (p : SendTask → Bool) := Tasks.count_set p l.tasks i next
  rw [hi] at hcount
  have hcountOut := hcount SendTask.owesOut
  have hcountDrop := hcount SendTask.owesDrop
  have hout₀ := h.out
  have hdrops₀ := h.drops
  refine ⟨h.gauge, h.flow, ?_, ?_, h.suppressed⟩
  · show relayOut + (l.tasks.set i next).count _ = l.relays _
    omega
  · show relayDrops + (l.tasks.set i next).count _ = l.relays _
    omega

theorem tasks_notifyOne (l : WriterLink) : l.notifyOne.tasks = l.tasks := by
  unfold notifyOne
  split_ifs <;> rfl

theorem exact_go (h : l.Exact) {i : ℕ} {task : SendTask} (hi : l.tasks.lookup i = some task) :
    (l.go i task).Exact := by
  have hn : l.notifyOne.tasks.lookup i = some task := by
    rw [tasks_notifyOne]
    exact hi
  cases task with
  | notifying relay =>
    have hnext := (exact_notifyOne h).retask hn (if relay then some (.counting .enqueued) else none)
      l.notifyOne.relayOut l.notifyOne.relayDrops
    rw [tasks_notifyOne] at hnext
    apply hnext
    · cases relay <;> rfl
    · cases relay <;> rfl
  | counting outcome =>
    cases outcome with
    | enqueued => exact h.retask hi none (l.relayOut + 1) l.relayDrops rfl rfl
    | dropped => exact h.retask hi none l.relayOut (l.relayDrops + 1) rfl rfl
  | closing =>
    have hnext := (exact_notifyOne h).retask hn none l.notifyOne.relayOut l.notifyOne.relayDrops
    rw [tasks_notifyOne] at hnext
    exact hnext rfl rfl

/-! ## The writer -/

theorem exact_drain (h : l.Exact) (hwriter : l.writer = .draining) : l.drain.Exact := by
  obtain ⟨written, batch, queued, henqueued, hstream, hframesOut, hholds, hframes⟩ := h.flow
  obtain ⟨taken, rest, hsplit, hdrain, -⟩ :=
    PeerQueue.drainCoalesced_spec h.gauge coalesceCapBytes
  rw [hframes] at hsplit
  obtain ⟨taken, rest, rfl, rfl, rfl⟩ := List.map_eq_append_iff.mp hsplit
  rw [hwriter] at hholds
  cases hholds
  unfold drain
  rw [hdrain]
  refine ⟨rfl, ⟨written, taken, rest, ?_, hstream, hframesOut, ?_, rfl⟩, h.out, h.drops,
    h.suppressed⟩
  · rw [List.append_nil] at henqueued
    rw [List.append_assoc]
    exact henqueued
  · dsimp only
    split_ifs with hnone
    · show taken = []
      simpa using hnone
    · exact ⟨by simp [List.flatMap_def], by simp⟩

theorem exact_writing (h : l.Exact) {scratch : Bytes} {n : ℕ}
    (hwriter : l.writer = .writing scratch n) :
    { l with
      writer := .draining
      stream := l.stream ++ scratch
      bytesOut := l.bytesOut + scratch.length
      framesOut := l.framesOut + n : WriterLink }.Exact := by
  obtain ⟨written, batch, queued, henqueued, hstream, hframesOut, hholds, hframes⟩ := h.flow
  rw [hwriter] at hholds
  obtain ⟨rfl, rfl⟩ := hholds
  refine ⟨h.gauge, ⟨written ++ batch, [], queued, ?_, ?_, ?_, rfl, hframes⟩, h.out, h.drops,
    h.suppressed⟩
  · rw [List.append_nil]
    exact henqueued
  · rw [List.flatMap_append, ← hstream]
  · rw [List.length_append, ← hframesOut]

theorem exact_write (h : l.Exact) : l.write.Exact := by
  unfold write
  have hfrom {w : WriterPoint} (hw : l.writer = w) (hidle : w.idle = true) :
      l.writer.idle = true := by
    rw [hw]
    exact hidle
  cases hw : l.writer with
  | draining => exact exact_drain h hw
  | writing scratch n => exact exact_writing h hw
  | readingClosed behind =>
    refine h.move (hfrom hw rfl) ?_ l.permit
    split_ifs
    · rfl
    · exact WriterPoint.idle_afterCheck behind
  | readingEmpty behind =>
    refine h.move (hfrom hw rfl) ?_ l.permit
    split_ifs
    · rfl
    · exact WriterPoint.idle_afterCheck behind
  | waiting =>
    dsimp only
    split_ifs
    · exact h.move (hfrom hw rfl) rfl false
    · exact h.move (hfrom hw rfl) rfl l.permit
  | parked => exact h
  | woken => exact h.move (hfrom hw rfl) rfl l.permit
  | leaving => exact h.move (hfrom hw rfl) rfl l.permit
  | exited => exact h

/-- What a step is, if it is one. -/
theorem step_cases (l : WriterLink) (e : WriterEvent) :
    l.step e = l ∨
    (∃ i relay frame, e = .send i relay frame ∧ l.tasks.lookup i = none ∧
      l.step e = l.send i relay frame) ∨
    (∃ i, l.tasks.lookup i = none ∧ l.step e = l.close i) ∨
    (∃ i task, l.tasks.lookup i = some task ∧ l.step e = l.go i task) ∨
    l.step e = l.write := by
  cases e with
  | send i relay frame =>
    by_cases hfree : l.tasks.lookup i = none
    · exact .inr (.inl ⟨i, relay, frame, rfl, hfree, if_pos hfree⟩)
    · exact .inl (if_neg hfree)
  | close i =>
    by_cases hfree : l.tasks.lookup i = none
    · exact .inr (.inr (.inl ⟨i, hfree, if_pos hfree⟩))
    · exact .inl (if_neg hfree)
  | go i =>
    cases hi : l.tasks.lookup i with
    | none => exact .inl (by simp only [step, hi])
    | some task => exact .inr (.inr (.inr (.inl ⟨i, task, hi, by simp only [step, hi]⟩)))
  | write => exact .inr (.inr (.inr (.inr rfl)))

theorem exact_step (l : WriterLink) (e : WriterEvent) (h : l.Exact) : (l.step e).Exact := by
  rcases step_cases l e with heq | ⟨i, relay, frame, -, hfree, heq⟩ | ⟨i, hfree, heq⟩ |
    ⟨i, task, hi, heq⟩ | heq <;> rw [heq]
  · exact h
  · exact exact_send h hfree relay frame
  · exact exact_close h hfree
  · exact exact_go h hi
  · exact exact_write h

/-! ## The last check -/

/-- The step does not enqueue a frame behind the writer's last check. -/
def InTime (l : WriterLink) : WriterEvent → Prop
  | .send i _ frame => l.tasks.lookup i = none → l.writer.past = true → ¬l.Fits frame
  | _ => True

instance (l : WriterLink) (e : WriterEvent) : Decidable (l.InTime e) := by
  cases e <;> unfold InTime <;> infer_instance

/-- The writer has left a frame behind. -/
def Lost (l : WriterLink) : Prop := l.writer.past = true ∧ l.handle.queue.frames ≠ []

theorem frames_send_of_fits {frame : Frame} (h : l.Fits frame) (i : ℕ) (relay : Bool) :
    (l.send i relay frame).handle.queue.frames = l.handle.queue.frames ++ [frame.encode] := by
  unfold send
  rw [trySend_of_fits h]

theorem frames_send_of_not_fits {frame : Frame} (h : ¬l.Fits frame) (i : ℕ) (relay : Bool) :
    (l.send i relay frame).handle.queue.frames = l.handle.queue.frames := by
  unfold send
  rcases trySend_of_not_fits h with heq | heq <;> rw [heq]

/-- A thread on its way out of a send or a close touches the notification and the counters only. -/
theorem go_keeps (l : WriterLink) (i : ℕ) (task : SendTask) :
    (l.go i task).handle = l.handle ∧ (l.go i task).sends = l.sends ∧
      (l.go i task).framesOut = l.framesOut ∧ (l.go i task).stream = l.stream := by
  have hnotify : l.notifyOne.handle = l.handle ∧ l.notifyOne.sends = l.sends ∧
      l.notifyOne.framesOut = l.framesOut ∧ l.notifyOne.stream = l.stream := by
    unfold notifyOne
    split_ifs <;> exact ⟨rfl, rfl, rfl, rfl⟩
  cases task with
  | notifying relay => exact hnotify
  | counting outcome => cases outcome <;> exact ⟨rfl, rfl, rfl, rfl⟩
  | closing => exact hnotify

theorem handle_go (l : WriterLink) (i : ℕ) (task : SendTask) : (l.go i task).handle = l.handle :=
  (go_keeps l i task).1

theorem sends_go (l : WriterLink) (i : ℕ) (task : SendTask) : (l.go i task).sends = l.sends :=
  (go_keeps l i task).2.1

/-- The writer sends nothing of its own, and the stream only grows. -/
theorem write_keeps (l : WriterLink) :
    l.write.sends = l.sends ∧ l.write.handle.negotiated = l.handle.negotiated ∧
      l.framesOut ≤ l.write.framesOut ∧ l.stream <+: l.write.stream := by
  unfold write drain
  split
  case h_2 => exact ⟨rfl, rfl, Nat.le_add_right .., List.prefix_append ..⟩
  case h_5 => split_ifs <;> exact ⟨rfl, rfl, le_rfl, List.prefix_rfl⟩
  all_goals exact ⟨rfl, rfl, le_rfl, List.prefix_rfl⟩

theorem sends_write (l : WriterLink) : l.write.sends = l.sends := (write_keeps l).1

theorem past_go (l : WriterLink) (i : ℕ) (task : SendTask) :
    (l.go i task).writer.past = l.writer.past := by
  have hnotify : l.notifyOne.writer.past = l.writer.past := by
    unfold notifyOne
    split_ifs with hparked
    · rw [hparked]
      rfl
    · rfl
  cases task with
  | counting outcome => cases outcome <;> rfl
  | _ => exact hnotify

theorem frames_eq_nil_of_isEmpty (h : l.Exact) (hempty : l.handle.queue.isEmpty = true) :
    l.handle.queue.frames = [] := by
  obtain ⟨-, -, queued, -, -, -, -, hframes⟩ := h.flow
  have hgauge : l.handle.queue.queuedBytes = PeerQueue.total l.handle.queue.frames := h.gauge
  rw [PeerQueue.isEmpty, beq_iff_eq, hgauge, hframes] at hempty
  cases queued with
  | nil => exact hframes
  | cons f queued =>
    simp [PeerQueue.total, Frame.encode] at hempty

/-- Behind its last check the writer touches nothing. -/
theorem write_of_past (hpast : l.writer.past = true) :
    l.write.writer.past = true ∧ l.write.handle = l.handle := by
  unfold write
  cases hw : l.writer with
  | leaving => exact ⟨rfl, rfl⟩
  | exited => exact ⟨hpast, rfl⟩
  | _ =>
    rw [hw] at hpast
    cases hpast

/-- The last check sees an empty queue. -/
theorem frames_write_of_passes (h : l.Exact) (hbefore : l.writer.past = false)
    (hafter : l.write.writer.past = true) : l.write.handle.queue.frames = [] := by
  have hcheck (behind : Bool) : (WriterPoint.afterCheck behind).past = false := by
    cases behind <;> rfl
  unfold write at hafter ⊢
  cases hw : l.writer with
  | draining =>
    rw [hw] at hafter
    dsimp only [drain] at hafter
    split_ifs at hafter <;> cases hafter
  | readingClosed behind =>
    rw [hw] at hafter
    dsimp only at hafter
    split_ifs at hafter
    · cases hafter
    · rw [hcheck] at hafter
      cases hafter
  | readingEmpty behind =>
    rw [hw] at hafter
    dsimp only at hafter
    split_ifs at hafter with hempty
    · have hnil := frames_eq_nil_of_isEmpty h hempty
      exact hnil
    · rw [hcheck] at hafter
      cases hafter
  | waiting =>
    rw [hw] at hafter
    dsimp only at hafter
    split_ifs at hafter <;> cases hafter
  | parked =>
    rw [hw] at hafter
    dsimp only at hafter
    rw [hw] at hafter
    cases hafter
  | leaving | exited =>
    rw [hw] at hbefore
    cases hbefore
  | writing | woken =>
    rw [hw] at hafter
    cases hafter

theorem lost_step (l : WriterLink) (e : WriterEvent) (h : l.Lost) : (l.step e).Lost := by
  obtain ⟨hpast, hframes⟩ := h
  rcases step_cases l e with heq | ⟨i, relay, frame, -, -, heq⟩ | ⟨i, -, heq⟩ |
    ⟨i, task, -, heq⟩ | heq <;> rw [heq]
  · exact ⟨hpast, hframes⟩
  · refine ⟨hpast, ?_⟩
    by_cases hfits : l.Fits frame
    · rw [frames_send_of_fits hfits]
      simp
    · rw [frames_send_of_not_fits hfits]
      exact hframes
  · exact ⟨hpast, hframes⟩
  · refine ⟨?_, ?_⟩
    · rw [past_go]
      exact hpast
    · rw [handle_go]
      exact hframes
  · obtain ⟨hpast', hhandle⟩ := write_of_past hpast
    refine ⟨hpast', ?_⟩
    rw [hhandle]
    exact hframes

theorem lost_of_not_inTime (l : WriterLink) (e : WriterEvent) (h : ¬l.InTime e) :
    (l.step e).Lost := by
  cases e with
  | send i relay frame =>
    simp only [InTime, Classical.not_imp, not_not] at h
    obtain ⟨hfree, hpast, hfits⟩ := h
    have heq : l.step (.send i relay frame) = l.send i relay frame := if_pos hfree
    rw [heq]
    refine ⟨hpast, ?_⟩
    rw [frames_send_of_fits hfits]
    simp
  | _ => exact absurd trivial h

/-- The invariant of a run in which no frame comes too late. -/
structure Clean (l : WriterLink) : Prop where
  exact : l.Exact
  empty : l.writer.past = true → l.handle.queue.frames = []

theorem clean_step (l : WriterLink) (e : WriterEvent) (h : l.Clean) (hmeet : l.InTime e) :
    (l.step e).Clean := by
  refine ⟨exact_step l e h.exact, ?_⟩
  rcases step_cases l e with heq | ⟨i, relay, frame, rfl, hfree, heq⟩ | ⟨i, -, heq⟩ |
    ⟨i, task, -, heq⟩ | heq <;> rw [heq]
  · exact h.empty
  · intro hpast
    rw [frames_send_of_not_fits (hmeet hfree hpast)]
    exact h.empty hpast
  · exact h.empty
  · rw [past_go, handle_go]
    exact h.empty
  · intro hafter
    cases hbefore : l.writer.past with
    | false => exact frames_write_of_passes h.exact hbefore hafter
    | true =>
      rw [(write_of_past hbefore).2]
      exact h.empty hbefore

/-! ## When the writer has exited -/

theorem flatMap_encode_append_eq_iff (written queued : List Frame) :
    written.flatMap Frame.encode = (written ++ queued).flatMap Frame.encode ↔ queued = [] := by
  rw [List.flatMap_append]
  constructor
  · intro h
    have hnil := List.append_right_eq_self.mp h.symm
    cases queued with
    | nil => rfl
    | cons f queued => simp [Frame.encode] at hnil
  · rintro rfl
    simp

/-- For all pushes, closes and writer steps: when the writer has exited, the frames whose
    push was answered `Enqueued` are on the socket, all of them and in push order, iff no
    frame was enqueued behind the writer's last check. Every relay is counted: an enqueued
    one in `relay_out`, a dropped one in `relay_drops`, as soon as its thread has got there,
    and a suppressed one in `suppressed_emits`. -/
theorem exited_written_iff (negotiated : Negotiated) (hwmBytes : ℕ) (evs : List WriterEvent)
    (hexit : (run step (new negotiated hwmBytes) evs).writer = .exited) :
    let l := run step (new negotiated hwmBytes) evs
    (l.stream = l.enqueued.flatMap Frame.encode ∧ l.framesOut = l.enqueued.length ↔
      StepsMeet step InTime (new negotiated hwmBytes) evs) ∧
    l.relayOut + l.tasks.count SendTask.owesOut = l.relays (some .enqueued) ∧
    l.relayDrops + l.tasks.count SendTask.owesDrop = l.relays (some .dropped) ∧
    l.handle.suppressedEmits = l.sends.countP fun s => s.2.2 = none := by
  intro l
  have h : l.Exact := run_invariant exact_step (exact_new negotiated hwmBytes)
  refine ⟨?_, h.out, h.drops, h.suppressed⟩
  obtain ⟨written, batch, queued, henqueued, hstream, hframesOut, hholds, hframes⟩ := h.flow
  rw [show l.writer = .exited from hexit] at hholds
  have hbatch : batch = [] := hholds
  rw [hbatch, List.append_nil] at henqueued
  rw [hstream, hframesOut, henqueued, flatMap_encode_append_eq_iff]
  constructor
  · rintro ⟨rfl, -⟩
    by_contra hlate
    have hlost : l.Lost := run_of_not_stepsMeet lost_of_not_inTime lost_step hlate
    exact hlost.2 hframes
  · intro hmeet
    have hclean : l.Clean := run_invariant_of_stepsMeet clean_step
      ⟨exact_new negotiated hwmBytes, fun _ => rfl⟩ hmeet
    have hempty := hclean.empty (by rw [show l.writer = .exited from hexit]; rfl)
    rw [hframes, List.map_eq_nil_iff] at hempty
    rw [hempty]
    simp

end WriterLink

/-! ## A relay over a handle of a closed link -/

namespace StaleHandle

open WriterLink

/-- A link that may carry relays. -/
def negotiated : Negotiated :=
  { protocolVersion := 1, features := featureRelay, maxFrame := 65536, role := .initiator
    peerNodeId := 2, peerIncarnation := 1 }

/-- A relay of one byte. -/
def frame : Frame := ⟨.relayAll, flagBinary, [7]⟩

/-- The relay, then the close, then the writer to its end. -/
def inTime : List WriterEvent :=
  [.send 1 true frame, .close 0, .write, .write, .write, .write, .write, .write, .go 1, .go 0,
    .go 1]

theorem relay_written :
    let l := run step (new negotiated 64) inTime
    l.writer = .exited ∧ l.enqueued = [frame] ∧ l.relayOut = 1 ∧
      l.stream = l.enqueued.flatMap Frame.encode ∧ l.framesOut = l.enqueued.length := by
  refine ⟨by decide, by decide, by decide, ?_⟩
  apply (exited_written_iff negotiated 64 inTime (by decide)).1.mpr
  decide

/-- `relay` has the handle, and the writer exits before the push. -/
def tooLate : List WriterEvent :=
  [.close 0, .go 0, .write, .write, .write, .write, .send 1 true frame, .go 1, .go 1]

/-- The relay is counted as sent, no drop is counted, and nothing is ever written. -/
theorem relay_lost :
    let l := run step (new negotiated 64) tooLate
    l.writer = .exited ∧ l.tasks.keys = [] ∧ l.enqueued = [frame] ∧ l.relayOut = 1 ∧
      l.relayDrops = 0 ∧ l.framesOut = 0 ∧ l.stream = [] := by
  decide

end StaleHandle

end BeamSocket.Mesh
