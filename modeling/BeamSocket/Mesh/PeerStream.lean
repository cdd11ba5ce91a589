import BeamSocket.Lib.Run
import BeamSocket.Mesh.Link

/-!
# The coalesced stream of a link

Model of `PeerQueue::drain_coalesced` (`crates/mesh/src/queue.rs`, lines 96–111), which
packs queued frames into one buffer, and of the loop around `read_raw_frame` at the other
end of the stream. Frame boundaries are gone in between; the length field of each frame
brings them back.

The length field is `2 + body.len()` cast to `u32`. The cast is silent: the field of a
frame of 2³² bytes or more is small, and the reader takes the front of the body for the
whole of it.

* `PeerQueue.drainCoalesced_spec`: what a drain takes, and that it takes something.
* `readAll_flatMap_encode_iff`: which frames are read back from their concatenation.
* `QueueLog.stream_exact`: gauge, bound, drops and the stream, over any pushes and drains.
* `Colossal.stream_garbled`: a frame that is not read back.
-/

namespace BeamSocket.Mesh

open BeamSocket.Lib

/-! ## Draining -/

namespace PeerQueue

/-- The total length of frames. -/
def total (frames : List Bytes) : ℕ := (frames.map List.length).sum

/-- The `while` loop of `drain_coalesced`: the queue, `queued_bytes`, `out` and the
    number of frames drained. -/
def drainLoop (cap : ℕ) : (frames : List Bytes) → (queuedBytes : ℕ) → (out : Bytes) →
    (drained : ℕ) → List Bytes × ℕ × Bytes × ℕ
  | [], queuedBytes, out, drained => ([], queuedBytes, out, drained)
  | front :: frames, queuedBytes, out, drained =>
    if out ≠ [] ∧ out.length + front.length > cap then (front :: frames, queuedBytes, out, drained)
    else drainLoop cap frames (queuedBytes - front.length) (out ++ front) (drained + 1)

/-- `drain_coalesced` into an empty buffer: the queue, the buffer and the number of
    frames in it. -/
def drainCoalesced (q : PeerQueue) (cap : ℕ) : PeerQueue × Bytes × ℕ :=
  let (frames, queuedBytes, out, drained) := drainLoop cap q.frames q.queuedBytes [] 0
  ({ q with frames, queuedBytes }, out, drained)

/-- `close`. -/
def close (q : PeerQueue) : PeerQueue := { q with closed := true }

/-- `is_empty`. -/
def isEmpty (q : PeerQueue) : Bool := q.queuedBytes == 0

/-- The gauge counts what is queued. -/
def Gauge (q : PeerQueue) : Prop := q.queuedBytes = total q.frames

theorem total_append (frames frames' : List Bytes) :
    total (frames ++ frames') = total frames + total frames' := by
  simp [total]

theorem push_of_full {q : PeerQueue} {frame : Bytes}
    (h : q.hwmBytes < q.queuedBytes + frame.length) :
    q.push frame = ({ q with drops := q.drops + 1 }, .dropped) :=
  if_pos h

theorem push_of_room {q : PeerQueue} {frame : Bytes}
    (h : q.queuedBytes + frame.length ≤ q.hwmBytes) :
    q.push frame =
      ({ q with frames := q.frames ++ [frame], queuedBytes := q.queuedBytes + frame.length },
        .enqueued) :=
  if_neg (not_lt.mpr h)

theorem Gauge.push {q : PeerQueue} (h : q.Gauge) (frame : Bytes) : (q.push frame).1.Gauge := by
  rcases lt_or_ge q.hwmBytes (q.queuedBytes + frame.length) with hfull | hroom
  · rw [push_of_full hfull]
    exact h
  · rw [push_of_room hroom]
    show q.queuedBytes + frame.length = total (q.frames ++ [frame])
    rw [total_append, show q.queuedBytes = total q.frames from h]
    simp [total]

theorem drainLoop_spec (cap : ℕ) (frames : List Bytes) (out : Bytes) (drained : ℕ) :
    ∃ taken rest, frames = taken ++ rest ∧
      drainLoop cap frames (total frames) out drained =
        (rest, total rest, out ++ taken.flatten, drained + taken.length) ∧
      (out = [] → frames ≠ [] → taken ≠ []) := by
  induction frames generalizing out drained with
  | nil => exact ⟨[], [], rfl, by simp [drainLoop], fun _ h => absurd rfl h⟩
  | cons front frames ih =>
    unfold drainLoop
    split_ifs with hfull
    · exact ⟨[], front :: frames, rfl, by simp, fun hout => absurd hout hfull.1⟩
    · have hbytes : total (front :: frames) - front.length = total frames := by
        simp [total]
      obtain ⟨taken, rest, rfl, hloop, -⟩ := ih (out ++ front) (drained + 1)
      refine ⟨front :: taken, rest, rfl, ?_, fun _ _ => List.cons_ne_nil _ _⟩
      rw [hbytes, hloop, List.flatten_cons, List.append_assoc, List.length_cons]
      simp only [Prod.mk.injEq, true_and]
      omega

/-- A drain takes frames from the front, at least one if there is one. -/
theorem drainCoalesced_spec {q : PeerQueue} (h : q.Gauge) (cap : ℕ) :
    ∃ taken rest, q.frames = taken ++ rest ∧
      q.drainCoalesced cap =
        ({ q with frames := rest, queuedBytes := total rest }, taken.flatten, taken.length) ∧
      (q.frames ≠ [] → taken ≠ []) := by
  obtain ⟨taken, rest, hframes, hloop, hsome⟩ := drainLoop_spec cap q.frames [] 0
  refine ⟨taken, rest, hframes, ?_, hsome rfl⟩
  unfold drainCoalesced
  rw [show q.queuedBytes = total q.frames from h, hloop, List.nil_append, Nat.zero_add]

end PeerQueue

/-! ## Reading -/

/-- `read_raw_frame` until it fails, with at most `fuel` frames. -/
def readLoop (maxFrame : ℕ) : ℕ → Bytes → List (UInt8 × UInt8 × Bytes) × ReadError
  | 0, _ => ([], .eof)
  | fuel + 1, stream =>
    match readRawFrame stream maxFrame with
    | .error e => ([], e)
    | .ok (frame, rest) =>
      let (frames, e) := readLoop maxFrame fuel rest
      (frame :: frames, e)

/-- The frames of a stream, and why the reader stops. A frame takes a byte or more, so
    the fuel is enough. -/
def readAll (maxFrame : ℕ) (stream : Bytes) : List (UInt8 × UInt8 × Bytes) × ReadError :=
  readLoop maxFrame (stream.length + 1) stream

theorem length_of_readRawFrame {stream rest : Bytes} {maxFrame : ℕ} {frame : UInt8 × UInt8 × Bytes}
    (h : readRawFrame stream maxFrame = .ok (frame, rest)) : rest.length < stream.length := by
  unfold readRawFrame at h
  split at h
  · cases h
  · next len4 hlen4 =>
    have h4 : 0 + 4 ≤ stream.length := by
      by_contra hlt
      rw [slice?, if_neg hlt] at hlen4
      cases hlen4
    split at h
    · cases h
    · cases h
    · split at h
      · cases h
        rw [List.length_drop]
        omega
      · cases h

/-- More fuel than bytes changes nothing. -/
theorem readLoop_eq (maxFrame : ℕ) {fuel fuel' : ℕ} {stream : Bytes}
    (h : stream.length < fuel) (h' : stream.length < fuel') :
    readLoop maxFrame fuel stream = readLoop maxFrame fuel' stream := by
  induction fuel generalizing fuel' stream with
  | zero => exact absurd h (Nat.not_lt_zero _)
  | succ fuel ih =>
    obtain ⟨fuel', rfl⟩ : ∃ n, fuel' = n + 1 := ⟨fuel' - 1, by omega⟩
    unfold readLoop
    cases hread : readRawFrame stream maxFrame with
    | error e => rfl
    | ok r =>
      obtain ⟨frame, rest⟩ := r
      have hlt := length_of_readRawFrame hread
      have hrest : readLoop maxFrame fuel rest = readLoop maxFrame fuel' rest :=
        ih (by omega) (by omega)
      dsimp only
      rw [hrest]

theorem readAll_of_ok {stream rest : Bytes} {maxFrame : ℕ} {frame : UInt8 × UInt8 × Bytes}
    (h : readRawFrame stream maxFrame = .ok (frame, rest)) :
    readAll maxFrame stream = (frame :: (readAll maxFrame rest).1, (readAll maxFrame rest).2) := by
  have hlt := length_of_readRawFrame h
  have hrest : readLoop maxFrame stream.length rest = readAll maxFrame rest :=
    readLoop_eq maxFrame hlt (Nat.lt_succ_self _)
  rw [← hrest, readAll, readLoop, h]

theorem readAll_of_error {stream : Bytes} {maxFrame : ℕ} {e : ReadError}
    (h : readRawFrame stream maxFrame = .error e) : readAll maxFrame stream = ([], e) := by
  unfold readAll
  rw [readLoop, h]

@[simp] theorem readAll_nil (maxFrame : ℕ) : readAll maxFrame [] = ([], .eof) := rfl

/-- What the reader hands on of a frame. -/
def Frame.raw (f : Frame) : UInt8 × UInt8 × Bytes := (f.kind.asU8, f.flags, f.body)

/-- The length field: `(2 + body.len()) as u32`. -/
def Frame.lengthField (f : Frame) : ℕ := (2 + f.body.length) % 2 ^ 32

/-- A frame whose length does not fit its field: the reader refuses the field, or takes
    the front of the body for all of it. -/
theorem readRawFrame_wrapped (f : Frame) (rest : Bytes) (maxFrame : ℕ)
    (hwrap : 2 ^ 32 ≤ 2 + f.body.length) :
    (∃ e, readRawFrame (f.encode ++ rest) maxFrame = .error e) ∨
      ∃ body rest', body.length < f.body.length ∧
        readRawFrame (f.encode ++ rest) maxFrame = .ok ((f.kind.asU8, f.flags, body), rest') := by
  have hlt : f.lengthField < 2 ^ 32 := Nat.mod_lt _ (by norm_num)
  have hval : fromLe (toLe 4 (2 + f.body.length)) = f.lengthField := by
    rw [fromLe_toLe]
    rfl
  by_cases hsmall : f.lengthField < 2
  · refine .inl ⟨.malformedLength, ?_⟩
    rw [readRawFrame, slice?_encode]
    simp only [hval, decodeLen, if_pos hsmall]
  by_cases hlarge : f.lengthField > maxFrame
  · refine .inl ⟨.oversize f.lengthField maxFrame, ?_⟩
    rw [readRawFrame, slice?_encode]
    simp only [hval, decodeLen, if_neg hsmall, if_pos hlarge]
  have hshort : (f.body.take (f.lengthField - 2)).length = f.lengthField - 2 := by
    rw [List.length_take]
    omega
  have hbody : slice? (f.encode ++ rest) 4 f.lengthField =
      some (f.kind.asU8 :: f.flags :: f.body.take (f.lengthField - 2)) := by
    have hsplit : f.encode ++ rest = toLe 4 (2 + f.body.length) ++
        ((f.kind.asU8 :: f.flags :: f.body.take (f.lengthField - 2)) ++
          (f.body.drop (f.lengthField - 2) ++ rest)) := by
      simp [Frame.encode, ← List.append_assoc (List.take _ f.body)]
    rw [hsplit]
    apply slice?_append
    · simp
    · rw [List.length_cons, List.length_cons, hshort]
      omega
  have hdec : decodeLen f.lengthField maxFrame = .ok f.lengthField := by
    rw [decodeLen, if_neg hsmall, if_neg hlarge]
  refine .inr ⟨f.body.take (f.lengthField - 2), (f.encode ++ rest).drop (4 + f.lengthField), ?_, ?_⟩
  · omega
  · rw [readRawFrame, slice?_encode]
    simp only [hval, hdec, hbody]

/-- A frame is read back iff its length fits its field and the reader's maximum. -/
theorem readRawFrame_encode_iff (f : Frame) (rest : Bytes) (maxFrame : ℕ) :
    (∃ rest', readRawFrame (f.encode ++ rest) maxFrame = .ok (f.raw, rest')) ↔
      2 + f.body.length < 2 ^ 32 ∧ 2 + f.body.length ≤ maxFrame := by
  constructor
  · rintro ⟨rest', hread⟩
    by_cases hlen : 2 + f.body.length < 2 ^ 32
    · refine ⟨hlen, ?_⟩
      by_contra hmax
      rw [readRawFrame_oversize f rest maxFrame (not_le.mp hmax) hlen] at hread
      cases hread
    · exfalso
      rcases readRawFrame_wrapped f rest maxFrame (not_lt.mp hlen) with
        ⟨e, herror⟩ | ⟨body, rest'', hshort, hok⟩
      · rw [herror] at hread
        cases hread
      · rw [hok, Except.ok.injEq, Prod.mk.injEq, Frame.raw, Prod.mk.injEq, Prod.mk.injEq] at hread
        rw [hread.1.2.2] at hshort
        exact lt_irrefl _ hshort
  · rintro ⟨hlen, hmax⟩
    exact ⟨rest, readRawFrame_encode f rest maxFrame hmax hlen⟩

/-- A list of frames is read back from the concatenation iff every length fits its field
    and the reader's maximum. -/
theorem readAll_flatMap_encode {maxFrame : ℕ} (frames : List Frame) :
    readAll maxFrame (frames.flatMap Frame.encode) = (frames.map Frame.raw, .eof) ↔
      ∀ f ∈ frames, 2 + f.body.length < 2 ^ 32 ∧ 2 + f.body.length ≤ maxFrame := by
  induction frames with
  | nil => simp
  | cons f frames ih =>
    rw [List.flatMap_cons, List.map_cons, List.forall_mem_cons, ← ih]
    by_cases hfits : 2 + f.body.length < 2 ^ 32 ∧ 2 + f.body.length ≤ maxFrame
    · rw [readAll_of_ok (readRawFrame_encode f _ maxFrame hfits.2 hfits.1)]
      simp only [Frame.raw, Prod.mk.injEq, List.cons.injEq, true_and, hfits]
      rw [Prod.ext_iff]
    · refine iff_of_false ?_ fun h => hfits h.1
      intro hall
      cases hread : readRawFrame (f.encode ++ frames.flatMap Frame.encode) maxFrame with
      | error e =>
        rw [readAll_of_error hread] at hall
        cases hall
      | ok r =>
        obtain ⟨raw, rest⟩ := r
        rw [readAll_of_ok hread, Prod.mk.injEq, List.cons.injEq] at hall
        rw [hall.1.1] at hread
        exact hfits ((readRawFrame_encode_iff f _ maxFrame).mp ⟨rest, hread⟩)

/-- If the reader accepts the length field of every frame, only the fields matter. -/
theorem readAll_flatMap_encode_iff {maxFrame : ℕ} (frames : List Frame)
    (hfield : ∀ f ∈ frames, f.lengthField ≤ maxFrame) :
    readAll maxFrame (frames.flatMap Frame.encode) = (frames.map Frame.raw, .eof) ↔
      ∀ f ∈ frames, 2 + f.body.length < 2 ^ 32 := by
  rw [readAll_flatMap_encode]
  constructor
  · intro h f hf
    exact (h f hf).1
  · intro h f hf
    have hle := hfield f hf
    rw [Frame.lengthField, Nat.mod_eq_of_lt (h f hf)] at hle
    exact ⟨h f hf, hle⟩

/-! ## Pushes and drains -/

/-- What the senders and the writer do to a queue. -/
inductive QueueOp
  | push (frame : Frame)
  /-- The writer drains with this cap and writes what it gets. -/
  | drain (cap : ℕ)

/-- A queue with the pushes and their answers, oldest first, the number of frames that
    were drained, and the stream that was written. -/
structure QueueLog where
  queue : PeerQueue
  pushed : List (Frame × EnqueueOutcome)
  drained : ℕ
  stream : Bytes

namespace QueueLog

/-- A new queue with an empty log. -/
def new (hwmBytes : ℕ) : QueueLog :=
  { queue := .new hwmBytes, pushed := [], drained := 0, stream := [] }

/-- One operation, with its entry in the log. -/
def step (l : QueueLog) : QueueOp → QueueLog
  | .push frame =>
    let (queue, outcome) := l.queue.push frame.encode
    { l with queue, pushed := l.pushed ++ [(frame, outcome)] }
  | .drain cap =>
    let (queue, out, drained) := l.queue.drainCoalesced cap
    { l with queue, drained := l.drained + drained, stream := l.stream ++ out }

/-- The frames whose push was answered `Enqueued`, in push order. -/
def enqueued (l : QueueLog) : List Frame :=
  (l.pushed.filter fun p => p.2 = .enqueued).map Prod.fst

/-- The frames that were drained are in the stream, the others in the queue. -/
structure Exact (hwmBytes : ℕ) (l : QueueLog) : Prop where
  mark : l.queue.hwmBytes = hwmBytes
  gauge : l.queue.Gauge
  bound : l.queue.queuedBytes ≤ hwmBytes
  drops : l.queue.drops = l.pushed.countP fun p => p.2 = .dropped
  split : ∃ written queued, l.enqueued = written ++ queued ∧ l.drained = written.length ∧
    l.queue.frames = queued.map Frame.encode ∧ l.stream = written.flatMap Frame.encode

variable {hwmBytes : ℕ} {l : QueueLog}

theorem exact_new (hwmBytes : ℕ) : (new hwmBytes).Exact hwmBytes where
  mark := rfl
  gauge := rfl
  bound := Nat.zero_le _
  drops := rfl
  split := ⟨[], [], rfl, rfl, rfl, rfl⟩

theorem exact_push (h : l.Exact hwmBytes) (frame : Frame) :
    (l.step (.push frame)).Exact hwmBytes := by
  obtain ⟨written, queued, henqueued, hdrained, hframes, hstream⟩ := h.split
  have hgauge := h.gauge.push frame.encode
  have hdrops := h.drops
  unfold step
  dsimp only
  rcases lt_or_ge l.queue.hwmBytes (l.queue.queuedBytes + frame.encode.length) with hfull | hroom
  · rw [PeerQueue.push_of_full hfull] at hgauge ⊢
    refine ⟨h.mark, hgauge, h.bound, ?_, written, queued, ?_, hdrained, hframes, hstream⟩
    · simp [List.countP_append, hdrops]
    · rw [← henqueued]
      simp [enqueued, List.filter_append]
  · rw [PeerQueue.push_of_room hroom] at hgauge ⊢
    refine ⟨h.mark, hgauge, ?_, ?_, written, queued ++ [frame], ?_, hdrained, ?_, hstream⟩
    · rw [← h.mark]
      exact hroom
    · simp [List.countP_append, hdrops]
    · rw [← List.append_assoc, ← henqueued]
      simp [enqueued, List.filter_append]
    · simp [hframes]

theorem exact_drain (h : l.Exact hwmBytes) (cap : ℕ) : (l.step (.drain cap)).Exact hwmBytes := by
  obtain ⟨written, queued, henqueued, hdrained, hframes, hstream⟩ := h.split
  obtain ⟨taken, rest, hsplit, hdrain, -⟩ := PeerQueue.drainCoalesced_spec h.gauge cap
  rw [hframes] at hsplit
  obtain ⟨taken, rest, rfl, rfl, rfl⟩ := List.map_eq_append_iff.mp hsplit
  have hgauge : l.queue.queuedBytes = PeerQueue.total l.queue.frames := h.gauge
  rw [hframes, List.map_append, PeerQueue.total_append] at hgauge
  have hbound := h.bound
  unfold step
  dsimp only
  rw [hdrain]
  refine ⟨h.mark, rfl, ?_, h.drops, written ++ taken, rest, ?_, ?_, rfl, ?_⟩
  · show PeerQueue.total (rest.map Frame.encode) ≤ hwmBytes
    omega
  · rw [List.append_assoc]
    exact henqueued
  · simp [hdrained]
  · simp [hstream, List.flatMap_def]

theorem exact_step (l : QueueLog) (op : QueueOp) (h : l.Exact hwmBytes) :
    (l.step op).Exact hwmBytes := by
  cases op with
  | push frame => exact exact_push h frame
  | drain cap => exact exact_drain h cap

/-- After any pushes of encoded frames and drains with any caps: the gauge is the length
    of what is queued and within the high-water mark; a drain of a queue with frames
    removes one or more; `drops` counts the pushes answered `Dropped`; the frames that
    were enqueued and not drained are queued, in push order; and the others, if the reader
    accepts the length field of every frame, are read back from the stream in push order,
    and then its end, iff none of them is too long for its length field. -/
theorem stream_exact (hwmBytes : ℕ) (ops : List QueueOp) :
    let l := run step (new hwmBytes) ops
    l.queue.queuedBytes = PeerQueue.total l.queue.frames ∧ l.queue.queuedBytes ≤ hwmBytes ∧
    (∀ cap, l.queue.frames ≠ [] → 0 < (l.queue.drainCoalesced cap).2.2 ∧
      (l.queue.drainCoalesced cap).1.frames.length < l.queue.frames.length) ∧
    l.queue.drops = (l.pushed.countP fun p => p.2 = .dropped) ∧
    l.queue.frames = (l.enqueued.drop l.drained).map Frame.encode ∧
    ∀ maxFrame, (∀ p ∈ l.pushed, p.1.lengthField ≤ maxFrame) →
      (readAll maxFrame l.stream = ((l.enqueued.take l.drained).map Frame.raw, .eof) ↔
        ∀ f ∈ l.enqueued.take l.drained, 2 + f.body.length < 2 ^ 32) := by
  intro l
  have h : l.Exact hwmBytes := run_invariant exact_step (exact_new hwmBytes)
  clear_value l
  obtain ⟨written, queued, henqueued, hdrained, hframes, hstream⟩ := h.split
  refine ⟨h.gauge, h.bound, ?_, h.drops, ?_, ?_⟩
  · intro cap hne
    obtain ⟨taken, rest, hsplit, hdrain, htaken⟩ := PeerQueue.drainCoalesced_spec h.gauge cap
    have hpos := List.length_pos_iff.mpr (htaken hne)
    rw [hdrain, hsplit, List.length_append]
    exact ⟨hpos, Nat.lt_add_of_pos_left hpos⟩
  · rw [henqueued, hdrained, List.drop_left]
    exact hframes
  · intro maxFrame hfield
    rw [henqueued, hdrained, List.take_left, hstream]
    apply readAll_flatMap_encode_iff
    intro f hf
    have hmem : f ∈ l.enqueued := by
      rw [henqueued]
      exact List.mem_append_left _ hf
    obtain ⟨p, hp, rfl⟩ := List.mem_map.mp hmem
    exact hfield p (List.mem_filter.mp hp).1

end QueueLog

/-! ## A frame of four gibibytes -/

namespace Colossal

/-- The length of the body: 2 more than the field can hold, for kind and flags. -/
def size : ℕ := 2 ^ 32

/-- A relay whose body has `size` bytes. -/
def frame : Frame := ⟨.relayAll, flagBinary, List.replicate size 0⟩

/-- The frame is enqueued and drained. -/
def log : QueueLog := run QueueLog.step (.new (6 + size)) [.push frame, .drain 0]

theorem lengthField_frame : frame.lengthField = 2 := by
  rw [Frame.lengthField, show frame.body = List.replicate size 0 from rfl, List.length_replicate,
    size, Nat.add_mod_right]
  decide

/-- A queue with room for a frame takes it and gives it out. -/
theorem run_push_drain {f : Frame} {hwmBytes : ℕ} (h : f.encode.length ≤ hwmBytes) :
    run QueueLog.step (.new hwmBytes) [.push f, .drain 0] =
      { queue := .new hwmBytes, pushed := [(f, .enqueued)], drained := 1, stream := f.encode } := by
  have hroom : (PeerQueue.new hwmBytes).queuedBytes + f.encode.length ≤ hwmBytes := by
    show 0 + f.encode.length ≤ hwmBytes
    omega
  simp only [run_cons, run_nil, QueueLog.step, QueueLog.new, PeerQueue.push_of_room hroom]
  simp [PeerQueue.drainCoalesced, PeerQueue.drainLoop, PeerQueue.new]

theorem stream_garbled :
    log.pushed = [(frame, .enqueued)] ∧ log.queue.frames = [] ∧ frame.lengthField ≤ 64 ∧
      readAll 64 log.stream ≠ ([frame.raw], .eof) := by
  have hlength : frame.encode.length ≤ 6 + size := by
    simp only [Frame.encode, frame, List.length_append, length_toLe, List.length_replicate,
      List.length_cons, List.length_nil]
    omega
  have hlog : log = _ := run_push_drain hlength
  have hfield : frame.lengthField ≤ 64 := by
    rw [lengthField_frame]
    decide
  rw [hlog]
  refine ⟨rfl, rfl, hfield, ?_⟩
  intro hread
  have hfits := (readAll_flatMap_encode_iff [frame] (by simpa using hfield)).mp
    (by simpa using hread) frame (List.mem_singleton_self _)
  rw [show frame.body = List.replicate size 0 from rfl, List.length_replicate, size] at hfits
  omega

end Colossal

end BeamSocket.Mesh
