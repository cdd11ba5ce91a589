import BeamSocket.Mesh.Reader
import BeamSocket.Mesh.Writer

/-!
# A link as a channel

The two ends of one direction of a link: `Mesh.Writer` with all its threads on the sending node,
the byte stream, and `Mesh.Reader` with its tasks on the receiving node. Bytes arrive in pieces of
any size, at any time, and the reader finds a frame when all of it has arrived.

* `readRawFrame_take`: reading from the part of a stream that has arrived.
* `Fifo`: the frames that the reader has taken are the first of those that were enqueued.
* `link_fifo`: what is handed to the inbound hook are the data frames among the first of the
  enqueued ones, each once and in the order of the pushes; all of them when both ends have caught
  up.
-/

namespace BeamSocket.Mesh

open BeamSocket.Lib

/-! ## Reading what has arrived -/

/-- The length fits its field and the reader's maximum. -/
def Frame.Readable (maxFrame : ℕ) (f : Frame) : Prop :=
  2 + f.body.length < 2 ^ 32 ∧ 2 + f.body.length ≤ maxFrame

theorem Frame.length_encode (f : Frame) : f.encode.length = 6 + f.body.length := by
  simp [Frame.encode]
  omega

/-- A frame is read when all of it has arrived, and no sooner. -/
theorem readRawFrame_take {maxFrame : ℕ} {f : Frame} (h : f.Readable maxFrame) (rest : Bytes)
    (n : ℕ) :
    readRawFrame ((f.encode ++ rest).take n) maxFrame =
      if f.encode.length ≤ n then .ok (f.raw, rest.take (n - f.encode.length))
      else .error .eof := by
  split_ifs with hn
  · rw [List.take_append, List.take_of_length_le hn]
    exact readRawFrame_encode f _ maxFrame h.2 h.1
  · have hlength := f.length_encode
    have hshort : ((f.encode ++ rest).take n).length = n := by
      rw [List.length_take, List.length_append]
      omega
    unfold readRawFrame
    by_cases hheader : 4 ≤ n
    · -- the length field has arrived
      have hfield : slice? ((f.encode ++ rest).take n) 0 4 = some (toLe 4 (2 + f.body.length)) := by
        rw [← slice?_encode f rest, slice?, slice?, if_pos (by omega), if_pos, slice, slice]
        · simp only [List.drop_zero]
          rw [List.take_take, Nat.min_eq_left hheader]
        · rw [List.length_append]
          omega
      have hval : fromLe (toLe 4 (2 + f.body.length)) = 2 + f.body.length :=
        fromLe_toLe_of_lt (by have := h.1; omega)
      have hdec : decodeLen (2 + f.body.length) maxFrame = .ok (2 + f.body.length) := by
        have hmax := h.2
        rw [decodeLen, if_neg (by omega), if_neg (by omega)]
      have hbody : slice? ((f.encode ++ rest).take n) 4 (2 + f.body.length) = none := by
        rw [slice?, if_neg]
        omega
      simp only [hfield, hval, hdec, hbody]
    · have hnone : slice? ((f.encode ++ rest).take n) 0 4 = none := by
        rw [slice?, if_neg]
        omega
      simp only [hnone]

/-! ## The sender -/

namespace WriterLink

variable {l : WriterLink}

/-- A step enqueues one frame that is sent in it, or none. -/
theorem enqueued_step (l : WriterLink) (e : WriterEvent) :
    (l.step e).enqueued = l.enqueued ∨
      ∃ i relay f, e = .send i relay f ∧ (l.step e).enqueued = l.enqueued ++ [f] := by
  rcases step_cases l e with heq | ⟨i, relay, frame, rfl, -, heq⟩ | ⟨i, -, heq⟩ |
    ⟨i, task, -, heq⟩ | heq <;> rw [heq]
  · exact .inl rfl
  · unfold enqueued
    rw [show (l.send i relay frame).sends = l.sends ++ [(frame, relay, _)] from rfl,
      List.filter_append, List.map_append, List.filter_cons]
    split_ifs
    · exact .inr ⟨i, relay, frame, rfl, rfl⟩
    · exact .inl (List.append_nil _)
  · exact .inl rfl
  · unfold enqueued
    rw [sends_go]
    exact .inl rfl
  · unfold enqueued
    rw [sends_write]
    exact .inl rfl

theorem step_grows (l : WriterLink) (e : WriterEvent) :
    l.framesOut ≤ (l.step e).framesOut ∧ l.stream <+: (l.step e).stream := by
  rcases step_cases l e with heq | ⟨i, relay, frame, rfl, -, heq⟩ | ⟨i, -, heq⟩ |
    ⟨i, task, -, heq⟩ | heq <;> rw [heq]
  · exact ⟨le_rfl, List.prefix_rfl⟩
  · exact ⟨le_rfl, List.prefix_rfl⟩
  · exact ⟨le_rfl, List.prefix_rfl⟩
  · obtain ⟨-, -, hout, hstream⟩ := go_keeps l i task
    rw [hout, hstream]
    exact ⟨le_rfl, List.prefix_rfl⟩
  · exact (write_keeps l).2.2

/-- The stream is the first frames that were enqueued. -/
theorem Exact.stream_eq (h : l.Exact) : l.framesOut ≤ l.enqueued.length ∧
    l.stream = (l.enqueued.take l.framesOut).flatMap Frame.encode := by
  obtain ⟨written, batch, queued, henqueued, hstream, hframesOut, -⟩ := h.flow
  rw [henqueued, hframesOut, hstream, List.append_assoc, List.take_left' rfl]
  refine ⟨?_, rfl⟩
  rw [List.length_append]
  exact Nat.le_add_right ..

/-- With nothing in the writer's hands and nothing queued, all is written. -/
theorem Exact.framesOut_eq (h : l.Exact) (hidle : l.writer.idle = true)
    (hempty : l.handle.queue.frames = []) : l.framesOut = l.enqueued.length := by
  obtain ⟨written, batch, queued, henqueued, -, hframesOut, hholds, hqueued⟩ := h.flow
  rw [WriterPoint.holds_of_idle hidle] at hholds
  rw [hempty] at hqueued
  have hnone : queued = [] := List.map_eq_nil_iff.mp hqueued.symm
  rw [henqueued, hframesOut, hholds, hnone, List.append_nil, List.append_nil]

end WriterLink

/-! ## The reader -/

/-- What the inbound hook gets of a frame. -/
def carried (negotiated : Negotiated) (raw : UInt8 × UInt8 × Bytes) : Option Frame :=
  match dispatch negotiated raw.1 raw.2.1 raw.2.2 with
  | .inbound frame => some frame
  | _ => none

namespace ReaderPoint

/-- The frame that is taken and not dispatched. -/
def holding : ReaderPoint → Option (UInt8 × UInt8 × Bytes)
  | .dispatching kind flags body => some (kind, flags, body)
  | _ => none

theorem holding_wake (r : ReaderPoint) : r.wake.holding = r.holding := by
  cases r <;> rfl

end ReaderPoint

namespace ReaderLink

variable {l : ReaderLink}

/-- The frames that were handed to the inbound hook, with the one that is about to be. -/
def received (l : ReaderLink) : List Frame :=
  l.handed ++ (l.reader.holding.bind (carried l.negotiated)).toList

theorem dispatchFrame_spec (l : ReaderLink) (kind flags : UInt8) (body : Bytes) :
    (l.dispatchFrame kind flags body).negotiated = l.negotiated ∧
      (l.dispatchFrame kind flags body).handed =
        l.handed ++ (carried l.negotiated (kind, flags, body)).toList := by
  unfold dispatchFrame carried
  dsimp only
  cases dispatch l.negotiated kind flags body with
  | inbound frame => exact ⟨rfl, rfl⟩
  | _ => exact ⟨rfl, (List.append_nil _).symm⟩

/-- A step of the reader that takes no frame. -/
theorem received_readerStep (poll : ReadPoll)
    (h : (∃ woken, l.reader = .reading woken) → ∀ kind flags body, poll ≠ .frame kind flags body) :
    (l.readerStep poll).negotiated = l.negotiated ∧ (l.readerStep poll).received = l.received := by
  unfold readerStep received
  cases hreader : l.reader with
  | reading woken =>
    cases poll with
    | frame kind flags body => exact absurd rfl (h ⟨woken, hreader⟩ kind flags body)
    | _ => exact ⟨rfl, rfl⟩
  | selecting woken => cases woken <;> exact ⟨rfl, rfl⟩
  | dispatching kind flags body =>
    obtain ⟨hneg, hhanded⟩ := dispatchFrame_spec l kind flags body
    refine ⟨hneg, ?_⟩
    show (l.dispatchFrame kind flags body).handed ++ [] = _
    rw [hhanded, List.append_nil]
    rfl
  | exited =>
    dsimp only
    rw [hreader]
    exact ⟨rfl, rfl⟩
  | _ => exact ⟨rfl, rfl⟩

/-- The step in which the reader takes a frame. -/
theorem received_readerStep_frame {woken : Bool} (hreader : l.reader = .reading woken)
    (kind flags : UInt8) (body : Bytes) :
    (l.readerStep (.frame kind flags body)).negotiated = l.negotiated ∧
      (l.readerStep (.frame kind flags body)).received =
        l.received ++ (carried l.negotiated (kind, flags, body)).toList := by
  unfold readerStep received
  rw [hreader]
  refine ⟨rfl, ?_⟩
  show l.handed ++ _ = l.handed ++ [] ++ _
  rw [List.append_nil]
  rfl

/-- The tasks beside the reader leave it what it has. -/
theorem received_step {e : ReaderEvent} (h : e.isReader = false) :
    (l.step e).negotiated = l.negotiated ∧ (l.step e).received = l.received := by
  have hnotify : ∀ l : ReaderLink, l.notifyWaiters.received = l.received := by
    intro l
    unfold received notifyWaiters
    rw [ReaderPoint.holding_wake]
  cases e with
  | reader poll => cases h
  | keepalive due =>
    show (l.keepaliveStep due).negotiated = _ ∧ (l.keepaliveStep due).received = _
    unfold keepaliveStep
    split
    case h_8 => exact ⟨rfl, hnotify l⟩
    case h_10 =>
      unfold ping
      split <;> exact ⟨rfl, rfl⟩
    all_goals first | (split_ifs <;> exact ⟨rfl, rfl⟩) | exact ⟨rfl, rfl⟩
  | close i =>
    dsimp only [step]
    split_ifs <;> exact ⟨rfl, rfl⟩
  | go i =>
    dsimp only [step]
    split
    · exact ⟨rfl, rfl⟩
    · rename_i task htask
      cases task with
      | notifying => exact ⟨rfl, hnotify l⟩
      | _ => exact ⟨rfl, rfl⟩
  | time ms => exact ⟨rfl, rfl⟩

end ReaderLink

/-! ## Both ends -/

/-- One direction of a link: both ends, how many bytes of the stream have arrived, and how many
    the reader has taken. -/
structure Channel where
  sender : WriterLink
  reader : ReaderLink
  arrived : ℕ
  taken : ℕ

namespace Channel

/-- The steps of both ends of the link, and of the network between them. -/
inductive Event
  /-- A thread or the writer of the sending node. -/
  | sender (e : WriterEvent)
  /-- Up to `n` more bytes arrive. -/
  | arrive (n : ℕ)
  /-- The reader goes on. -/
  | read
  /-- The reader goes on; if it reads, the socket fails. -/
  | hangup
  /-- The keepalive, a close or the clock of the receiving node. -/
  | beside (e : ReaderEvent)

/-- Both ends of a link that has just been established. -/
def new (negotiated negotiated' : Negotiated) (hwmBytes hwmBytes' deadAfterMs : ℕ) : Channel :=
  { sender := .new negotiated hwmBytes, reader := .new negotiated' hwmBytes' deadAfterMs
    arrived := 0, taken := 0 }

/-- The bytes that have arrived and are not taken. -/
def available (c : Channel) : Bytes := (c.sender.stream.take c.arrived).drop c.taken

/-- The answer of `read_raw_frame`, with the bytes that are left. It waits for more where
    `readRawFrame` finds the end of the stream. -/
def poll (c : Channel) : ReadPoll × Bytes :=
  match readRawFrame c.available c.reader.negotiated.maxFrame.toNat with
  | .ok ((kind, flags, body), rest) => (.frame kind flags body, rest)
  | .error .eof => (.pending, c.available)
  | .error (.oversize _ _) => (.oversize, c.available)
  | .error .malformedLength => (.failed, c.available)

/-- The reader takes what it finds. -/
def read (c : Channel) : Channel :=
  match c.reader.reader with
  | .reading _ =>
    { c with
      reader := c.reader.readerStep c.poll.1
      taken := c.taken + (c.available.length - c.poll.2.length) }
  | _ => { c with reader := c.reader.readerStep .pending }

/-- One event. The stream is delivered in order, in pieces of any size. -/
def step (c : Channel) : Event → Channel
  | .sender e => { c with sender := c.sender.step e }
  | .arrive n => { c with arrived := min (c.arrived + n) c.sender.stream.length }
  | .read => c.read
  | .hangup => { c with reader := c.reader.readerStep .failed }
  | .beside e => if e.isReader then c else { c with reader := c.reader.step e }

/-- Nothing is on its way. -/
structure CaughtUp (c : Channel) : Prop where
  idle : c.sender.writer.idle = true
  empty : c.sender.handle.queue.frames = []
  taken : c.taken = c.sender.stream.length
  dispatched : c.reader.reader.holding = none

/-- The reader has taken the first `k` of the enqueued frames. -/
structure Fifo (negotiated : Negotiated) (c : Channel) (k : ℕ) : Prop where
  exact : c.sender.Exact
  same : c.reader.negotiated = negotiated
  readable : ∀ f ∈ c.sender.enqueued, f.Readable negotiated.maxFrame.toNat
  le_framesOut : k ≤ c.sender.framesOut
  taken : c.taken = ((c.sender.enqueued.take k).flatMap Frame.encode).length
  taken_le : c.taken ≤ c.arrived
  arrived_le : c.arrived ≤ c.sender.stream.length
  received : c.reader.received =
    (c.sender.enqueued.take k).filterMap fun f => carried negotiated f.raw

variable {negotiated : Negotiated} {c : Channel} {k : ℕ}

/-- What has arrived are bytes of the frames behind the first `k`. -/
theorem Fifo.available_eq (h : Fifo negotiated c k) :
    c.available = (((c.sender.enqueued.take c.sender.framesOut).drop k).flatMap Frame.encode).take
      (c.arrived - c.taken) := by
  have hsplit : c.sender.enqueued.take c.sender.framesOut =
      c.sender.enqueued.take k ++ (c.sender.enqueued.take c.sender.framesOut).drop k := by
    conv_lhs => rw [← List.take_append_drop k (c.sender.enqueued.take c.sender.framesOut)]
    rw [List.take_take, Nat.min_eq_left h.le_framesOut]
  generalize (c.sender.enqueued.take c.sender.framesOut).drop k = undone at hsplit ⊢
  unfold available
  rw [List.drop_take, h.exact.stream_eq.2, hsplit, List.flatMap_append, h.taken, List.drop_left]

theorem Fifo.sender (h : Fifo negotiated c k) (e : WriterEvent)
    (hreadable : ∀ i relay f, e = .send i relay f → f.Readable negotiated.maxFrame.toNat) :
    Fifo negotiated (c.step (.sender e)) k := by
  have hexact := WriterLink.exact_step c.sender e h.exact
  obtain ⟨hout, hstream⟩ := WriterLink.step_grows c.sender e
  have hle : k ≤ c.sender.enqueued.length := h.le_framesOut.trans h.exact.stream_eq.1
  have hsame : (c.sender.step e).enqueued.take k = c.sender.enqueued.take k ∧
      ∀ f ∈ (c.sender.step e).enqueued, f.Readable negotiated.maxFrame.toNat := by
    obtain heq | ⟨i, relay, f, he, heq⟩ := WriterLink.enqueued_step c.sender e
    · rw [heq]
      exact ⟨rfl, h.readable⟩
    · rw [heq]
      refine ⟨List.take_append_of_le_length hle, ?_⟩
      intro g hg
      obtain hg | hg := List.mem_append.mp hg
      · exact h.readable g hg
      · rw [List.mem_singleton.mp hg]
        exact hreadable i relay f he
  refine ⟨hexact, h.same, hsame.2, h.le_framesOut.trans hout, ?_, h.taken_le,
    h.arrived_le.trans hstream.length_le, ?_⟩
  · show c.taken = _
    rw [h.taken]
    exact congrArg _ (congrArg _ hsame.1.symm)
  · show c.reader.received = ((c.sender.step e).enqueued.take k).filterMap _
    rw [hsame.1]
    exact h.received

theorem Fifo.beside (h : Fifo negotiated c k) {reader : ReaderLink}
    (hneg : reader.negotiated = c.reader.negotiated)
    (hreceived : reader.received = c.reader.received) :
    Fifo negotiated { c with reader := reader } k :=
  ⟨h.exact, hneg.trans h.same, h.readable, h.le_framesOut, h.taken, h.taken_le, h.arrived_le,
    hreceived.trans h.received⟩

theorem next_of_drop_take {frames rest : List Frame} {f : Frame} {n : ℕ}
    (h : (frames.take n).drop k = f :: rest) :
    k < n ∧ frames.take (k + 1) = frames.take k ++ [f] ∧ f ∈ frames := by
  have hget : (frames.take n)[k]? = some f := by
    rw [← List.head?_drop, h]
    rfl
  rw [List.getElem?_take] at hget
  split_ifs at hget with hlt
  refine ⟨hlt, ?_, List.mem_of_getElem? hget⟩
  rw [List.take_add_one, hget]
  rfl

/-- The reader takes the next frame when it has arrived. -/
theorem Fifo.read (h : Fifo negotiated c k) : ∃ k', Fifo negotiated c.read k' := by
  unfold Channel.read
  split
  case h_2 hreader =>
    obtain ⟨hneg, hreceived⟩ := ReaderLink.received_readerStep (l := c.reader) .pending
      (fun ⟨woken, hw⟩ => absurd hw (hreader woken))
    exact ⟨k, h.beside hneg hreceived⟩
  case h_1 woken hreader =>
    have hpending (hpoll : c.poll = (.pending, c.available)) :
        ∃ k', Fifo negotiated
          { c with
            reader := c.reader.readerStep c.poll.1
            taken := c.taken + (c.available.length - c.poll.2.length) } k' := by
      obtain ⟨hneg, hreceived⟩ := ReaderLink.received_readerStep (l := c.reader) .pending
        (fun _ _ _ _ hframe => by cases hframe)
      rw [hpoll]
      refine ⟨k, ?_⟩
      dsimp only
      rw [Nat.sub_self, Nat.add_zero]
      exact h.beside hneg hreceived
    have havailable := h.available_eq
    cases hundone : (c.sender.enqueued.take c.sender.framesOut).drop k with
    | nil =>
      rw [hundone, List.flatMap_nil, List.take_nil] at havailable
      refine hpending ?_
      unfold poll
      rw [havailable]
      rfl
    | cons f rest =>
      rw [hundone, List.flatMap_cons] at havailable
      obtain ⟨hlt, hnext, hmem⟩ := next_of_drop_take hundone
      have hread := readRawFrame_take (h.readable f hmem) (rest.flatMap Frame.encode)
        (c.arrived - c.taken)
      rw [← havailable] at hread
      by_cases harrived : f.encode.length ≤ c.arrived - c.taken
      · rw [if_pos harrived] at hread
        have hpoll : c.poll = (.frame f.kind.asU8 f.flags f.body,
            (rest.flatMap Frame.encode).take (c.arrived - c.taken - f.encode.length)) := by
          unfold poll
          rw [h.same, hread]
          rfl
        have hlength : c.available.length - c.poll.2.length = f.encode.length := by
          rw [hpoll, havailable]
          simp only [List.length_take, List.length_append]
          omega
        obtain ⟨hneg, hreceived⟩ := ReaderLink.received_readerStep_frame hreader f.kind.asU8 f.flags
          f.body
        refine ⟨k + 1, h.exact, ?_, h.readable, hlt, ?_, ?_, h.arrived_le, ?_⟩
        · rw [hpoll]
          exact hneg.trans h.same
        · dsimp only
          rw [hlength, hnext, List.flatMap_append, List.length_append, ← h.taken]
          simp
        · dsimp only
          rw [hlength]
          have := f.length_encode
          omega
        · dsimp only
          rw [hpoll, hreceived, h.received, h.same, hnext, List.filterMap_append]
          cases hcarried : carried negotiated (f.kind.asU8, f.flags, f.body) <;>
            simp [Frame.raw, hcarried]
      · rw [if_neg harrived] at hread
        refine hpending ?_
        unfold poll
        rw [h.same, hread]

theorem Fifo.step (h : Fifo negotiated c k) (e : Event)
    (hreadable : ∀ i relay f, e = .sender (.send i relay f) →
      f.Readable negotiated.maxFrame.toNat) :
    ∃ k', Fifo negotiated (c.step e) k' := by
  cases e with
  | sender e =>
    exact ⟨k, h.sender e fun i relay f he => hreadable i relay f (congrArg _ he)⟩
  | arrive n =>
    refine ⟨k, h.exact, h.same, h.readable, h.le_framesOut, h.taken, ?_, Nat.min_le_right ..,
      h.received⟩
    exact le_min (h.taken_le.trans (Nat.le_add_right ..)) (h.taken_le.trans h.arrived_le)
  | read => exact h.read
  | hangup =>
    obtain ⟨hneg, hreceived⟩ := ReaderLink.received_readerStep (l := c.reader) .failed
      (fun _ _ _ _ hframe => by cases hframe)
    exact ⟨k, h.beside hneg hreceived⟩
  | beside e =>
    dsimp only [Channel.step]
    split_ifs with he
    · exact ⟨k, h⟩
    · obtain ⟨hneg, hreceived⟩ := ReaderLink.received_step (Bool.eq_false_of_not_eq_true he)
      exact ⟨k, h.beside hneg hreceived⟩

theorem fifo_new (negotiated negotiated' : Negotiated) (hwmBytes hwmBytes' deadAfterMs : ℕ) :
    Fifo negotiated' (new negotiated negotiated' hwmBytes hwmBytes' deadAfterMs) 0 where
  exact := WriterLink.exact_new negotiated hwmBytes
  same := rfl
  readable f hf := by cases hf
  le_framesOut := le_rfl
  taken := rfl
  taken_le := le_rfl
  arrived_le := le_rfl
  received := rfl

/-- Frames of equal total length, one list a prefix of the other. -/
theorem Fifo.eq_of_caughtUp (h : Fifo negotiated c k) (hup : c.CaughtUp) :
    k = c.sender.enqueued.length := by
  have hout := h.exact.framesOut_eq hup.idle hup.empty
  have hstream := h.exact.stream_eq.2
  rw [hout, List.take_length] at hstream
  have htaken := hup.taken
  rw [h.taken, hstream] at htaken
  conv_rhs at htaken => rw [← List.take_append_drop k c.sender.enqueued]
  rw [List.flatMap_append, List.length_append] at htaken
  have hrest : (c.sender.enqueued.drop k).flatMap Frame.encode = [] := by
    rw [← List.length_eq_zero_iff]
    omega
  have hle := h.le_framesOut
  cases hdrop : c.sender.enqueued.drop k with
  | nil =>
    have := List.drop_eq_nil_iff.mp hdrop
    omega
  | cons f rest =>
    rw [hdrop, List.flatMap_cons] at hrest
    have hnil := (List.append_eq_nil_iff.mp hrest).1
    have hlength := f.length_encode
    rw [hnil, List.length_nil] at hlength
    omega

/-- In every run of a link, over all orders of pushes, drains, writes, reads, keepalives and
    closes on both nodes and whatever pieces the bytes arrive in: the inbound hook of the receiver
    has been handed what `dispatch` carries of the first frames that the sender has enqueued, in
    the order of their pushes. When nothing is on its way, they are all frames that were
    enqueued. -/
theorem link_fifo (negotiated negotiated' : Negotiated) (hwmBytes hwmBytes' deadAfterMs : ℕ)
    (evs : List Event)
    (hreadable : ∀ i relay f, Event.sender (.send i relay f) ∈ evs →
      f.Readable negotiated'.maxFrame.toNat) :
    let c := run step (new negotiated negotiated' hwmBytes hwmBytes' deadAfterMs) evs
    ∃ done rest, c.sender.enqueued = done ++ rest ∧
      c.reader.received = (done.filterMap fun f => carried negotiated' f.raw) ∧
      (c.CaughtUp → rest = [] ∧ c.reader.handed = c.reader.received) := by
  intro c
  obtain ⟨k, h⟩ : ∃ k, Fifo negotiated' c k := by
    refine run_invariant_of_mem (I := fun c => ∃ k, Fifo negotiated' c k) ?_
      ⟨0, fifo_new negotiated negotiated' hwmBytes hwmBytes' deadAfterMs⟩
    rintro e he c ⟨k, h⟩
    exact h.step e fun i relay f heq => hreadable i relay f (heq ▸ he)
  refine ⟨c.sender.enqueued.take k, c.sender.enqueued.drop k, (List.take_append_drop ..).symm,
    h.received, ?_⟩
  intro hup
  refine ⟨List.drop_of_length_le (h.eq_of_caughtUp hup).ge, ?_⟩
  unfold ReaderLink.received
  rw [hup.dispatched]
  exact (List.append_nil _).symm

namespace Pieces

/-- A link that may carry relays. -/
def relaying : Negotiated := StaleHandle.negotiated

/-- A relay of one byte. -/
def frame (b : UInt8) : Frame := ⟨.relayAll, flagBinary, [b]⟩

/-- Two relays are written at once and arrive in two pieces, cut within the second one. -/
def events : List Event :=
  [.sender (.send 0 true (frame 1)), .sender (.send 1 true (frame 2)), .sender .write,
    .sender .write, .arrive 9, .read, .read, .read, .read, .arrive 5, .read, .read, .read, .read]

theorem two_relayed :
    let c := run step (new relaying relaying 100 100 1000) events
    c.CaughtUp ∧ c.sender.enqueued = [frame 1, frame 2] ∧ ∃ done rest,
      c.sender.enqueued = done ++ rest ∧
      c.reader.received = (done.filterMap fun f => carried relaying f.raw) ∧
      (c.CaughtUp → rest = [] ∧ c.reader.handed = c.reader.received) :=
  ⟨⟨by decide +kernel, by decide +kernel, by decide +kernel, by decide +kernel⟩,
    by decide +kernel,
    link_fifo relaying relaying 100 100 1000 events (by
      intro i relay f hf
      have hsent : f = frame 1 ∨ f = frame 2 := by
        simp only [events, List.mem_cons, Event.sender.injEq, WriterEvent.send.injEq] at hf
        grind
      rcases hsent with rfl | rfl <;> exact ⟨by decide, by decide +kernel⟩)⟩

end Pieces

end Channel

end BeamSocket.Mesh
