import BeamSocket.Node.Flat

/-!
# The drain loop

Model of `drain_loop` and `flush` (`crates/node/src/bridge.rs`, lines 314–385). The loop
waits for a first event, takes what is queued, flushes a small batch at once, and fills a
larger one until it is full or the timer fires. When the timer fires is open.

* `DrainLoop.Exact`: what has been received is in the flushes and the batch, in order, and
  a flush holds from 1 to `BRIDGE_BATCH` events.
* `DrainLoop.exact_step`: a step keeps to that.
* `decodeAll_of_exact`: the flushes decode to what was received before the batch.
-/

namespace BeamSocket.Node

open BeamSocket.Core BeamSocket.Lib

/-- `BRIDGE_BATCH`. -/
def bridgeBatch : ℕ := 256

/-- `LOW_LOAD_THRESHOLD`. -/
def lowLoadThreshold : ℕ := 16

/-- What the channel answers: `disconnected` when it is empty and the senders are gone. -/
inductive Received
  | event (ev : EngineEvent)
  | empty
  | disconnected
  deriving DecidableEq, Repr

/-- Where the loop is: at the `recv` for the first event, in the greedy loop, in the loop
    with the timer, or at its end. -/
inductive DrainPoint
  | first
  | greedy
  | filling
  | ended
  deriving DecidableEq, Repr

/-- The loop with the buffers that it has handed to `deliver`. -/
structure DrainLoop where
  point : DrainPoint
  batch : List EngineEvent
  flushes : List Bytes
  deriving DecidableEq, Repr

namespace DrainLoop

/-- The loop before its first event (lines 318–319). -/
def new : DrainLoop := { point := .first, batch := [], flushes := [] }

variable (d : DrainLoop)

/-- `flush` (lines 379–385), and then on to `point`. -/
def flush (point : DrainPoint) : DrainLoop :=
  if d.batch = [] then { d with point }
  else { point, batch := [], flushes := d.flushes ++ [encodeBatch d.batch] }

/-- `batch.push(ev)`, and then on to `point`. -/
def take (point : DrainPoint) (ev : EngineEvent) : DrainLoop :=
  { d with point, batch := d.batch ++ [ev] }

/-- One step of the loop (lines 319–376), with the event that it took from the channel.
    `timer` says whether the branch of the deadline is taken. -/
def step (received : Received) (timer : Bool) : DrainLoop × Option EngineEvent :=
  match d.point with
  | .first =>
    match received with
    | .event ev => (d.take .greedy ev, some ev)
    | .empty => (d, none)
    | .disconnected => (d.flush .ended, none)
  | .greedy =>
    if d.batch.length < bridgeBatch then
      match received with
      | .event ev => (d.take .greedy ev, some ev)
      | .empty =>
        (if d.batch.length < lowLoadThreshold then d.flush .first
          else { d with point := .filling }, none)
      | .disconnected => (d.flush .ended, none)
    -- a full batch is not below the threshold
    else ({ d with point := .filling }, none)
  | .filling =>
    if d.batch.length < bridgeBatch ∧ timer = false then
      match received with
      | .event ev => (d.take .filling ev, some ev)
      | .empty => (d, none)
      | .disconnected => (d.flush .ended, none)
    else (d.flush .first, none)
  | .ended => (d, none)

/-- The events that were received are the flushed ones and then the batch. -/
structure Exact (taken : List EngineEvent) (d : DrainLoop) : Prop where
  split : ∃ batches : List (List EngineEvent), taken = batches.flatten ++ d.batch ∧
    d.flushes = batches.map encodeBatch ∧
    ∀ b ∈ batches, 0 < b.length ∧ b.length ≤ bridgeBatch
  first : d.point = .first → d.batch = []
  bound : d.batch.length ≤ bridgeBatch

theorem exact_new : Exact [] new where
  split := ⟨[], rfl, rfl, by simp⟩
  first _ := rfl
  bound := Nat.zero_le _

variable {d} {taken : List EngineEvent}

theorem Exact.flush (h : d.Exact taken) (point : DrainPoint) : (d.flush point).Exact taken := by
  obtain ⟨batches, htaken, hflushes, hbatches⟩ := h.split
  unfold DrainLoop.flush
  split_ifs with hempty
  · exact ⟨⟨batches, htaken, hflushes, hbatches⟩, fun _ => hempty, h.bound⟩
  · refine ⟨⟨batches ++ [d.batch], ?_, ?_, ?_⟩, fun _ => rfl, Nat.zero_le _⟩
    · simp [htaken]
    · simp [hflushes]
    · intro b hb
      rcases List.mem_append.mp hb with hold | hnew
      · exact hbatches b hold
      · rw [List.mem_singleton.mp hnew]
        exact ⟨List.length_pos_iff.mpr hempty, h.bound⟩

theorem Exact.take (h : d.Exact taken) (hroom : d.batch.length < bridgeBatch) {point : DrainPoint}
    (hpoint : point ≠ .first) (ev : EngineEvent) : (d.take point ev).Exact (taken ++ [ev]) := by
  obtain ⟨batches, htaken, hflushes, hbatches⟩ := h.split
  refine ⟨⟨batches, ?_, hflushes, hbatches⟩, fun heq => absurd heq hpoint, ?_⟩
  · rw [htaken, List.append_assoc]
    rfl
  · show (d.batch ++ [ev]).length ≤ bridgeBatch
    rw [List.length_append]
    exact hroom

/-- The loop goes on with the batch it has. -/
theorem Exact.goto (h : d.Exact taken) {point : DrainPoint} (hpoint : point ≠ .first) :
    { d with point : DrainLoop }.Exact taken :=
  ⟨h.split, fun heq => absurd heq hpoint, h.bound⟩

/-- What a step can do. -/
theorem step_cases (d : DrainLoop) (received : Received) (timer : Bool) :
    d.step received timer = (d, none) ∨
    (∃ point, d.step received timer = (d.flush point, none)) ∨
    (∃ point, point ≠ .first ∧ d.step received timer = ({ d with point }, none)) ∨
    ∃ ev point, received = .event ev ∧ point ≠ .first ∧
      (d.point = .first ∨ d.batch.length < bridgeBatch) ∧
      d.step received timer = (d.take point ev, some ev) := by
  unfold step
  cases hpoint : d.point with
  | first =>
    cases received with
    | event ev => exact .inr (.inr (.inr ⟨ev, .greedy, rfl, by decide, .inl rfl, rfl⟩))
    | empty => exact .inl rfl
    | disconnected => exact .inr (.inl ⟨.ended, rfl⟩)
  | greedy =>
    by_cases hroom : d.batch.length < bridgeBatch
    · simp only [if_pos hroom]
      cases received with
      | event ev => exact .inr (.inr (.inr ⟨ev, .greedy, rfl, by decide, .inr hroom, rfl⟩))
      | empty =>
        by_cases hlow : d.batch.length < lowLoadThreshold
        · exact .inr (.inl ⟨.first, by simp only [if_pos hlow]⟩)
        · exact .inr (.inr (.inl ⟨.filling, by decide, by simp only [if_neg hlow]⟩))
      | disconnected => exact .inr (.inl ⟨.ended, rfl⟩)
    · simp only [if_neg hroom]
      exact .inr (.inr (.inl ⟨.filling, by decide, rfl⟩))
  | filling =>
    by_cases hroom : d.batch.length < bridgeBatch ∧ timer = false
    · simp only [if_pos hroom]
      cases received with
      | event ev => exact .inr (.inr (.inr ⟨ev, .filling, rfl, by decide, .inr hroom.1, rfl⟩))
      | empty => exact .inl rfl
      | disconnected => exact .inr (.inl ⟨.ended, rfl⟩)
    · simp only [if_neg hroom]
      exact .inr (.inl ⟨.first, rfl⟩)
  | ended => exact .inl rfl

/-- A step takes the next event of the channel or none. -/
theorem exact_step (h : d.Exact taken) (received : Received) (timer : Bool) :
    (d.step received timer).1.Exact (taken ++ (d.step received timer).2.toList) ∧
      ∀ ev, (d.step received timer).2 = some ev → received = .event ev := by
  rcases step_cases d received timer with heq | ⟨point, heq⟩ | ⟨point, hpoint, heq⟩ |
    ⟨ev, point, rfl, hpoint, hroom, heq⟩ <;> rw [heq]
  · exact ⟨by simpa using h, by simp⟩
  · exact ⟨by simpa using h.flush point, by simp⟩
  · exact ⟨by simpa using h.goto hpoint, by simp⟩
  · have hlt : d.batch.length < bridgeBatch := by
      rcases hroom with hfirst | hlt
      · rw [h.first hfirst]
        decide
      · exact hlt
    exact ⟨h.take hlt hpoint ev, by simp⟩

end DrainLoop

/-- The events of all flushes, one after the other. -/
def decodeAll (flushes : List Bytes) : Option (List DecodedEvent) :=
  (flushes.mapM decode).map List.flatten

theorem mapM_decode {batches : List (List EngineEvent)}
    (h : ∀ b ∈ batches, decode (encodeBatch b) = some (b.map decoded)) :
    (batches.map encodeBatch).mapM decode = some (batches.map fun b => b.map decoded) := by
  induction batches with
  | nil => rfl
  | cons b batches ih =>
    have htail := ih fun c hc => h c (List.mem_cons_of_mem _ hc)
    rw [List.map_cons, List.mapM_cons, h b (List.mem_cons_self ..), htail]
    rfl

/-- The flushes decode to the events that were received and are not in the batch, and each
    of them holds from 1 to `BRIDGE_BATCH` events. -/
theorem decodeAll_of_exact {d : DrainLoop} {taken : List EngineEvent} (h : d.Exact taken)
    (hshort : ∀ ev ∈ taken, eventPayloadLen ev < 2 ^ 32) :
    ∃ flushed, taken = flushed ++ d.batch ∧
      decodeAll d.flushes = some (flushed.map decoded) ∧
      ∀ f ∈ d.flushes, ∃ es, decode f = some es ∧ 0 < es.length ∧ es.length ≤ bridgeBatch := by
  obtain ⟨batches, htaken, hflushes, hbatches⟩ := h.split
  have hdecode : ∀ b ∈ batches, decode (encodeBatch b) = some (b.map decoded) := by
    intro b hb
    apply decode_encodeBatch (lt_of_le_of_lt (hbatches b hb).2 (by decide))
    intro ev hev
    apply hshort
    rw [htaken]
    exact List.mem_append_left _ (List.mem_flatten.mpr ⟨b, hb, hev⟩)
  refine ⟨batches.flatten, htaken, ?_, ?_⟩
  · rw [decodeAll, hflushes, mapM_decode hdecode, List.map_flatten]
    rfl
  · intro f hf
    rw [hflushes] at hf
    obtain ⟨b, hb, rfl⟩ := List.mem_map.mp hf
    refine ⟨b.map decoded, hdecode b hb, ?_⟩
    rw [List.length_map]
    exact hbatches b hb

end BeamSocket.Node
