import BeamSocket.Lib.Bytes

/-!
# Mailboxes and connection handles

Model of `crates/core/src/connection/backpressure.rs` and of `ConnHandle`
(`crates/core/src/connection/mod.rs`, lines 69–144): the bounded outbound queue
of a connection with its overflow policies, the close latch and the control
queue. Every operation runs under the queue's mutex, so it is one function on
the mailbox.

* `Mailbox.gauge_push`, `gauge_pop`: the byte gauge is the sum of the charges of
  the queued frames.
* `ConnHandle.pushes_push`: the log of `push` calls, by which "pushed exactly
  once" is stated also for a frame that the policy then drops.
-/

namespace BeamSocket.Core

open BeamSocket.Lib

/-- `enum BackpressurePolicy` (`config.rs`, lines 27–31). -/
inductive BackpressurePolicy
  | disconnect
  | dropNewest
  | dropOldest
  deriving DecidableEq, Repr

/-- `struct OutboundFrame` (lines 28–31). -/
structure OutboundFrame where
  data : Bytes
  isBinary : Bool
  deriving DecidableEq, Repr

/-- `enum PushOutcome` (lines 36–49). -/
inductive PushOutcome
  | queued
  | droppedNewest
  | droppedOldest
  | disconnect
  | closed
  deriving DecidableEq, Repr

/-- `fn charge` (lines 54–56). -/
def charge (frame : OutboundFrame) : ℕ := max frame.data.length 1

/-- `struct Inner` with its `Q` (lines 57–69). `drops` is what this mailbox has
    added to the shared counter `metrics.backpressure_drops`. -/
structure Mailbox where
  highWaterMark : ℕ
  policy : BackpressurePolicy
  items : List OutboundFrame
  bytes : ℕ
  closed : Bool
  drops : ℕ
  deriving DecidableEq, Repr

namespace Mailbox

/-- `Mailbox::new`. -/
def new (highWaterMark : ℕ) (policy : BackpressurePolicy) : Mailbox :=
  { highWaterMark, policy, items := [], bytes := 0, closed := false, drops := 0 }

/-- The `while` loop of the `DropOldest` branch: pop from the front until `len`
    more bytes fit. -/
def evict (highWaterMark len : ℕ) : (items : List OutboundFrame) → (bytes dropped : ℕ) →
    List OutboundFrame × ℕ × ℕ
  | [], bytes, dropped => ([], bytes, dropped)
  | old :: items, bytes, dropped =>
    if bytes + len > highWaterMark then
      evict highWaterMark len items (bytes - charge old) (dropped + 1)
    else (old :: items, bytes, dropped)

/-- `Mailbox::push` (lines 99–142). -/
def push (m : Mailbox) (frame : OutboundFrame) : Mailbox × PushOutcome :=
  if m.closed then (m, .closed)
  else
    let len := charge frame
    if m.bytes + len > m.highWaterMark ∧ m.items ≠ [] then
      match m.policy with
      | .disconnect => ({ m with drops := m.drops + 1, closed := true }, .disconnect)
      | .dropNewest => ({ m with drops := m.drops + 1 }, .droppedNewest)
      | .dropOldest =>
        let (items, bytes, dropped) := evict m.highWaterMark len m.items m.bytes 0
        ({ m with items := items ++ [frame], bytes := bytes + len, drops := m.drops + dropped },
          .droppedOldest)
    else ({ m with items := m.items ++ [frame], bytes := m.bytes + len }, .queued)

/-- One turn of `Mailbox::pop` (lines 145–159); without a frame it waits or, on
    a closed mailbox, ends. -/
def pop (m : Mailbox) : Mailbox × Option OutboundFrame :=
  match m.items with
  | [] => (m, none)
  | f :: items => ({ m with items, bytes := m.bytes - charge f }, some f)

/-- `Mailbox::close`. -/
def close (m : Mailbox) : Mailbox := { m with closed := true }

/-- The gauge counts what is queued. -/
def Gauge (m : Mailbox) : Prop := m.bytes = (m.items.map charge).sum

theorem gauge_evict {highWaterMark len : ℕ} {items : List OutboundFrame} {bytes dropped : ℕ}
    (h : bytes = (items.map charge).sum) :
    (evict highWaterMark len items bytes dropped).2.1 =
      ((evict highWaterMark len items bytes dropped).1.map charge).sum := by
  induction items generalizing bytes dropped with
  | nil => exact h
  | cons old items ih =>
    rw [List.map_cons, List.sum_cons] at h
    unfold evict
    split_ifs with hfull
    · exact ih (by omega)
    · rw [List.map_cons, List.sum_cons]
      exact h

theorem gauge_push {m : Mailbox} (h : m.Gauge) (frame : OutboundFrame) :
    (m.push frame).1.Gauge := by
  have happend : ∀ (items : List OutboundFrame) (bytes : ℕ), bytes = (items.map charge).sum →
      bytes + charge frame = ((items ++ [frame]).map charge).sum := by
    intro items bytes hbytes
    rw [List.map_append, List.sum_append, hbytes]
    rfl
  unfold push
  dsimp only
  split_ifs
  · exact h
  · split
    · exact h
    · exact h
    · exact happend _ _ (gauge_evict h)
  · exact happend _ _ h

theorem gauge_pop {m : Mailbox} (h : m.Gauge) : m.pop.1.Gauge := by
  unfold Gauge at h
  unfold pop
  split
  · exact h
  · next f items hitems =>
    rw [hitems, List.map_cons, List.sum_cons] at h
    show m.bytes - charge f = (items.map charge).sum
    omega

/-! ## What a push can change -/

variable {m : Mailbox} {frame : OutboundFrame}

theorem items_eq_nil_of_pop (h : m.pop.2 = none) : m.items = [] := by
  unfold pop at h
  split at h
  · assumption
  · cases h

theorem push_of_closed (h : m.closed = true) : m.push frame = (m, .closed) := if_pos h

/-- Only an open mailbox with the `DropOldest` policy gives up a queued frame. -/
theorem items_push_of_keeps (h : m.policy ≠ .dropOldest ∨ m.closed = true) :
    ∃ items, (m.push frame).1.items = m.items ++ items := by
  rcases h with hpolicy | hclosed
  · unfold push
    dsimp only
    split_ifs
    · exact ⟨[], (List.append_nil _).symm⟩
    · split
      · exact ⟨[], (List.append_nil _).symm⟩
      · exact ⟨[], (List.append_nil _).symm⟩
      · next hold => exact absurd hold hpolicy
    · exact ⟨[frame], rfl⟩
  · rw [push_of_closed hclosed]
    exact ⟨[], (List.append_nil _).symm⟩

theorem policy_push (m : Mailbox) (frame : OutboundFrame) :
    (m.push frame).1.policy = m.policy := by
  unfold push
  dsimp only
  split_ifs
  · rfl
  · split <;> rfl
  · rfl

/-- The policy that disconnects closes the mailbox and keeps what is queued. -/
theorem push_of_disconnect (h : (m.push frame).2 = .disconnect) :
    m.policy = .disconnect ∧ (m.push frame).1.items = m.items := by
  revert h
  unfold push
  dsimp only
  split_ifs
  · exact nofun
  · split
    · next hpolicy => exact fun _ => ⟨hpolicy, rfl⟩
    · exact nofun
    · exact nofun
  · exact nofun

/-- A frame above the high-water mark evicts everything. -/
theorem evict_of_lt {highWaterMark len : ℕ} (h : highWaterMark < len)
    (items : List OutboundFrame) (bytes dropped : ℕ) :
    (evict highWaterMark len items bytes dropped).1 = [] := by
  induction items generalizing bytes dropped with
  | nil => rfl
  | cons old items ih =>
    unfold evict
    rw [if_pos (by omega)]
    exact ih _ _

theorem push_of_lt (hpolicy : m.policy = .dropOldest) (hopen : m.closed = false)
    (hitems : m.items ≠ []) (h : m.highWaterMark < charge frame) :
    (m.push frame).1.items = [frame] ∧ (m.push frame).2 = .droppedOldest := by
  have hfull : m.bytes + charge frame > m.highWaterMark ∧ m.items ≠ [] := ⟨by omega, hitems⟩
  unfold push
  dsimp only
  rw [if_neg (by simp [hopen]), if_pos hfull, hpolicy]
  dsimp only
  rw [evict_of_lt h]
  exact ⟨rfl, rfl⟩

end Mailbox

/-! ## Handles -/

/-- `struct CloseCmd` (lines 75–80). -/
structure CloseCmd where
  code : UInt16
  reason : String
  graceful : Bool
  deriving DecidableEq, Repr

/-- `enum Control` (lines 65–68). -/
inductive Control
  | ping (payload : Bytes)
  | close (code : UInt16) (reason : String)
  deriving DecidableEq, Repr

/-- `CONTROL_QUEUE_CAPACITY`. -/
def controlQueueCapacity : ℕ := 4

/-- `CLOSE_BACKPRESSURE`. -/
def closeBackpressure : UInt16 := 1013

/-- `struct ConnHandle` (lines 110–114). `pushes` is not in the source: it logs
    the frames that `push` was called with, oldest first. -/
structure ConnHandle where
  mailbox : Mailbox
  control : List Control
  close : Option CloseCmd
  pushes : List OutboundFrame
  deriving DecidableEq, Repr

namespace ConnHandle

/-- The handle `run_admitted` makes for a new connection. -/
def new (highWaterMark : ℕ) (policy : BackpressurePolicy) : ConnHandle :=
  { mailbox := .new highWaterMark policy, control := [], close := none, pushes := [] }

/-- `initiate_close` (lines 121–131): the first signal is latched, and a full
    control queue loses the nudge. -/
def initiateClose (h : ConnHandle) (code : UInt16) (reason : String) (graceful : Bool) :
    ConnHandle :=
  { h with
    close := h.close.or (some ⟨code, reason, graceful⟩)
    control :=
      if h.control.length < controlQueueCapacity then h.control ++ [.close code reason]
      else h.control }

/-- `ConnHandle::push` (lines 137–143). -/
def push (h : ConnHandle) (frame : OutboundFrame) : ConnHandle × PushOutcome :=
  let (mailbox, outcome) := h.mailbox.push frame
  let h := { h with mailbox, pushes := h.pushes ++ [frame] }
  if outcome = .disconnect then (h.initiateClose closeBackpressure "backpressure" true, outcome)
  else (h, outcome)

theorem pushes_push (h : ConnHandle) (frame : OutboundFrame) :
    (h.push frame).1.pushes = h.pushes ++ [frame] := by
  unfold push
  dsimp only
  split_ifs <;> rfl

end ConnHandle

end BeamSocket.Core
