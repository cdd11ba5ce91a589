import BeamSocket.Core.CloseCode

/-!
# Forced closes

The close latch keeps the first signal (`CloseSignal::signal`, lines 98–107 of
`crates/core/src/connection/mod.rs`). A forced close that comes first ends the
reader at its next poll of the close watch. One that comes after a graceful close
is lost: the sweep at the drain timeout of the engine's `close` (`engine.rs`, lines
1078–1082) comes after its own graceful sweep, and the reader goes on to wait for
the peer or for the deadline of the graceful close.

* `Connection.forced_returns_iff`: after a forced close the reader returns, with
  nothing else ready, iff no graceful close was latched before.
* `Draining.forced_ignored`: the two sweeps.
-/

namespace BeamSocket.Core

open BeamSocket.Lib

namespace ReadPoint

/-- The polls, with nothing ready, after which the reader has polled the close
    watch. -/
def pollsToWatch : ReadPoint → ℕ
  | start => 1
  | changed => 1
  | source => 4
  | tick => 3
  | deadline => 2
  | returned _ _ => 0

/-- The polls before that of the deadline. -/
def pollsToDeadline : ReadPoint → ℕ
  | start => 4
  | changed => 3
  | source => 2
  | tick => 1
  | deadline => 0
  | returned _ _ => 0

end ReadPoint

namespace ReadLoop

variable {r : ReadLoop} {now : ℕ} {close : Option CloseCmd} {cmd : CloseCmd}

/-- A poll that finds no frame. -/
def pollPending (now : ℕ) (close : Option CloseCmd) (r : ReadLoop) : ReadLoop :=
  (r.step now close .pending).1

/-! ## The latched close is a forced one -/

theorem pollsToWatch_lt (now : ℕ) (hclose : close = some cmd) (hforced : cmd.graceful = false)
    (hseen : r.seen = false) (hret : r.point.isReturned = false) :
    (r.pollPending now close).point.pollsToWatch < r.point.pollsToWatch ∧
      ((r.pollPending now close).point.isReturned = false →
        (r.pollPending now close).seen = false) := by
  have hobserve : ∀ r : ReadLoop, (r.observe now close).point.pollsToWatch < 1 ∧
      ((r.observe now close).point.isReturned = false → (r.observe now close).seen = false) := by
    intro r
    rw [observe_forced hclose hforced]
    exact ⟨Nat.zero_lt_one, nofun⟩
  unfold pollPending step
  cases hp : r.point with
  | start => exact hobserve _
  | changed =>
    dsimp only
    rw [if_neg (by simp [hseen]), if_neg (by rw [hclose]; exact nofun)]
    exact hobserve _
  | source => exact ⟨show 3 < 4 by omega, fun _ => hseen⟩
  | tick =>
    dsimp only
    split_ifs
    · rw [onTick_same.2.2, onTick_same.1]
      exact ⟨show 1 < 3 by omega, fun _ => hseen⟩
    · exact ⟨show 2 < 3 by omega, fun _ => hseen⟩
  | deadline =>
    dsimp only
    split_ifs
    · unfold onDeadline
      split_ifs <;> exact ⟨show 0 < 2 by omega, nofun⟩
    · exact ⟨show 1 < 2 by omega, fun _ => hseen⟩
  | returned code reason =>
    rw [hp] at hret
    cases hret

theorem isReturned_pollPending (now : ℕ) (close : Option CloseCmd) (h : r.point.isReturned = true) :
    (r.pollPending now close).point.isReturned = true := by
  unfold pollPending
  rw [step_of_isReturned h]
  exact h

/-- An unseen forced close ends the reader. -/
theorem returned_of_forced (hclose : close = some cmd) (hforced : cmd.graceful = false) (n : ℕ) :
    ∀ r : ReadLoop, (r.point.isReturned = false → r.seen = false) → r.point.pollsToWatch ≤ n →
      ((pollPending now close)^[n] r).point.isReturned = true := by
  induction n with
  | zero =>
    intro r _ hn
    show r.point.isReturned = true
    cases hp : r.point <;> rw [hp] at hn <;> first | rfl | cases hn
  | succ n ih =>
    intro r hseen hn
    rw [Function.iterate_succ_apply]
    cases hret : r.point.isReturned with
    | true =>
      have hdone := isReturned_pollPending now close hret
      apply ih
      · intro hnot
        rw [hdone] at hnot
        cases hnot
      · cases hp : (r.pollPending now close).point <;> rw [hp] at hdone <;>
          first | exact Nat.zero_le _ | cases hdone
    | false =>
      obtain ⟨hlt, hseen'⟩ := pollsToWatch_lt now hclose hforced (hseen hret) hret
      exact ih _ hseen' (by omega)

/-! ## The latched close is a graceful one -/

/-- In the next `n` polls the reader does not come to a deadline that is due. -/
structure Waits (now n : ℕ) (r : ReadLoop) : Prop where
  returned : r.point.isReturned = false
  few : n ≤ 4
  due : due now r.nextDeadline = true → n ≤ r.point.pollsToDeadline

theorem Waits.poll {n : ℕ} (hclose : close = some cmd) (hgraceful : cmd.graceful = true)
    (h : Waits now (n + 1) r) : Waits now n (r.pollPending now close) := by
  have hfew : n ≤ 3 := by
    have := h.few
    omega
  have hpolls := h.due
  unfold pollPending step
  cases hp : r.point with
  | start =>
    rw [hp] at hpolls
    dsimp only
    refine ⟨?_, by omega, fun hdue => ?_⟩
    · rw [((observe_some hclose).2 hgraceful).2]
      rfl
    · rw [((observe_some hclose).2 hgraceful).2]
      exact hfew
  | changed =>
    rw [hp] at hpolls
    dsimp only
    split_ifs with hseen hnone
    · exact ⟨rfl, by omega, fun hdue => Nat.le_of_succ_le_succ (hpolls hdue)⟩
    · exact ⟨rfl, by omega, fun hdue => Nat.le_of_succ_le_succ (hpolls hdue)⟩
    · refine ⟨?_, by omega, fun _ => ?_⟩
      · rw [((observe_some hclose).2 hgraceful).2]
        rfl
      · rw [((observe_some hclose).2 hgraceful).2]
        exact hfew
  | source =>
    rw [hp] at hpolls
    exact ⟨rfl, by omega, fun hdue => Nat.le_of_succ_le_succ (hpolls hdue)⟩
  | tick =>
    rw [hp] at hpolls
    dsimp only
    split_ifs
    · refine ⟨?_, by omega, fun _ => ?_⟩
      · rw [onTick_same.2.2]
        rfl
      · rw [onTick_same.2.2]
        exact hfew
    · exact ⟨rfl, by omega, fun hdue => Nat.le_of_succ_le_succ (hpolls hdue)⟩
  | deadline =>
    rw [hp] at hpolls
    dsimp only
    split_ifs with hdue
    · exact absurd (hpolls hdue) (Nat.not_succ_le_zero n)
    · exact ⟨rfl, by omega, fun _ => hfew⟩
  | returned code reason =>
    have hret := h.returned
    rw [hp] at hret
    cases hret

theorem not_returned_of_graceful (hclose : close = some cmd) (hgraceful : cmd.graceful = true)
    (n : ℕ) : ∀ r : ReadLoop, Waits now n r →
      ((pollPending now close)^[n] r).point.isReturned = false := by
  induction n with
  | zero => exact fun r h => h.returned
  | succ n ih => exact fun r h => ih _ (h.poll hclose hgraceful)

end ReadLoop

namespace Connection

variable {s : Connection} {cmd : CloseCmd}

/-- The reader after some polls that find no frame. -/
theorem reader_run_pending (s : Connection) (n : ℕ) :
    (run step s (List.replicate n (.reader .pending))).reader =
      (ReadLoop.pollPending s.now s.handle.close)^[n] s.reader := by
  induction n generalizing s with
  | zero => rfl
  | succ n ih =>
    rw [List.replicate_succ, run_cons, ih, Function.iterate_succ_apply]
    have hnow : (s.step (.reader .pending)).now = s.now := now_effect _
    have hclose : (s.step (.reader .pending)).handle.close = s.handle.close := close_effect _
    have hreader : (s.step (.reader .pending)).reader = (s.read .pending).1 := reader_effect _
    rw [hnow, hclose, hreader]
    rfl

theorem close_run (h : s.handle.close = some cmd) (evs : List ConnEvent) :
    (run step s evs).handle.close = some cmd := by
  refine run_invariant (I := fun s : Connection => s.handle.close = some cmd) ?_ h
  intro s e hs
  rcases close_step s e with hsame | ⟨hnone, -⟩
  · exact hsame.trans hs
  · rw [hnone] at hs
    cases hs

/-- A reader that has seen a forced close has returned. -/
def Obeys (s : Connection) : Prop :=
  s.reader.seen = true → s.reader.point.isReturned = false →
    ∃ cmd, s.handle.close = some cmd ∧ cmd.graceful = true

theorem obeys_step (s : Connection) (e : ConnEvent) (h : s.Obeys) : (s.step e).Obeys := by
  intro hseen hret
  by_cases he : ∃ poll, e = .reader poll
  · obtain ⟨poll, rfl⟩ := he
    have hclose : (s.step (.reader poll)).handle.close = s.handle.close := close_effect _
    have hreader : (s.step (.reader poll)).reader = (s.read poll).1 := reader_effect _
    rw [hreader] at hseen hret
    rw [hclose]
    rcases s.reader.step_known s.now s.handle.close poll with ⟨hs, -⟩ | ⟨cmd, hcmd, -, -, hforced⟩
    · apply h (hs ▸ hseen)
      rw [Bool.eq_false_iff]
      intro hbefore
      rw [show s.read poll = (s.reader, none) from ReadLoop.step_of_isReturned hbefore,
        hbefore] at hret
      cases hret
    · refine ⟨cmd, hcmd, ?_⟩
      rw [← Bool.not_eq_false]
      intro hf
      rw [show (s.read poll).1.point.isReturned = true from isReturned_of_eq (hforced hf)] at hret
      cases hret
  · push Not at he
    rw [reader_step he] at hseen hret
    obtain ⟨cmd, hcmd, hgraceful⟩ := h hseen hret
    exact ⟨cmd, close_run hcmd [e], hgraceful⟩

theorem returns_of_forced (hobeys : s.Obeys) (hclose : s.handle.close = some cmd)
    (hforced : cmd.graceful = false) :
    (run step s (List.replicate 4 (.reader .pending))).reader.point.isReturned = true := by
  rw [reader_run_pending]
  refine ReadLoop.returned_of_forced hclose hforced 4 s.reader ?_ ?_
  · intro hret
    rw [Bool.eq_false_iff]
    intro hseen
    obtain ⟨cmd', hcmd', hgraceful⟩ := hobeys hseen hret
    rw [hclose] at hcmd'
    cases hcmd'
    rw [hforced] at hgraceful
    cases hgraceful
  · cases s.reader.point <;> simp [ReadPoint.pollsToWatch]

theorem waits_of_graceful (hclose : s.handle.close = some cmd) (hgraceful : cmd.graceful = true)
    (hret : s.reader.point.isReturned = false)
    (hdue : ReadLoop.due s.now s.reader.nextDeadline = false) :
    (run step s (List.replicate 4 (.reader .pending))).reader.point.isReturned = false := by
  rw [reader_run_pending]
  refine ReadLoop.not_returned_of_graceful hclose hgraceful 4 s.reader ⟨hret, le_rfl, ?_⟩
  rw [hdue]
  exact nofun

/-- After the signal of a forced close, whatever happens in between: a reader that
    has not returned, with no frame and no deadline to come to, returns within one
    round of polls iff no graceful close was latched before the forced one. -/
theorem forced_returns_iff (highWaterMark : ℕ) (policy : BackpressurePolicy)
    (keepalive : Keepalive) (before after : List ConnEvent) (i : ℕ)
    (hi : (run step (new highWaterMark policy keepalive) before).calls.lookup i =
      some (.signal cmd)) (hforced : cmd.graceful = false)
    (hs : run step (new highWaterMark policy keepalive) (before ++ .call i :: after) = s)
    (hret : s.reader.point.isReturned = false)
    (hdue : ReadLoop.due s.now s.reader.nextDeadline = false) :
    (run step s (List.replicate 4 (.reader .pending))).reader.point.isReturned = true ↔
      (run step (new highWaterMark policy keepalive) before).handle.close.any
        CloseCmd.graceful = false := by
  have hobeys : s.Obeys := by
    rw [← hs]
    exact run_invariant obeys_step nofun
  have hlatch : s.handle.close =
      some ((run step (new highWaterMark policy keepalive) before).handle.close.getD cmd) := by
    rw [← hs, run_append, run_cons]
    apply close_run
    rw [step_call hi]
    show Option.or _ (some cmd) = _
    cases (run step (new highWaterMark policy keepalive) before).handle.close <;> rfl
  cases hclose : (run step (new highWaterMark policy keepalive) before).handle.close with
  | none =>
    rw [hclose] at hlatch
    exact iff_of_true (returns_of_forced hobeys hlatch hforced) rfl
  | some first =>
    rw [hclose] at hlatch
    show _ ↔ first.graceful = false
    cases hfirst : first.graceful with
    | false => exact iff_of_true (returns_of_forced hobeys hlatch hfirst) rfl
    | true =>
      rw [waits_of_graceful hlatch hfirst hret hdue]
      exact iff_of_false nofun nofun

end Connection

/-! ## The two sweeps of the engine's `close` -/

namespace Draining

open Greeting (idle)

/-- `initiate_close(CLOSE_GOING_AWAY, "drain timeout", false)`. -/
def timedOut : CloseCmd := ⟨1001, "drain timeout", false⟩

/-- The forced sweep alone, while the reader is at the source. -/
def forcedOnly : List ConnEvent := [.close 0 timedOut, .reader .pending, .reader .pending]

theorem forcedOnly_returns :
    (run Connection.step (run Connection.step idle (forcedOnly ++ [.call 0]))
      (List.replicate 4 (.reader .pending))).reader.point.isReturned = true :=
  (Connection.forced_returns_iff 1024 .disconnect {} forcedOnly [] 0 rfl rfl rfl rfl rfl).mpr rfl

/-- The graceful sweep, which the peer does not answer, and the forced one after it. -/
def bothSweeps : List ConnEvent :=
  [.close 0 ⟨1001, "server draining", true⟩, .call 0, .call 0, .writer .accepted,
    .writer .accepted, .reader .pending, .close 1 timedOut, .call 1, .call 1]

theorem forced_ignored :
    (run Connection.step idle bothSweeps).handle.close = some ⟨1001, "server draining", true⟩ ∧
      (run Connection.step idle bothSweeps).reader.point.isReturned = false ∧
      ReadLoop.due (run Connection.step idle bothSweeps).now
        (run Connection.step idle bothSweeps).reader.nextDeadline = false ∧
      (run Connection.step (run Connection.step idle bothSweeps)
        (List.replicate 4 (.reader .pending))).reader.point.isReturned = false :=
  ⟨rfl, rfl, by decide +kernel, rfl⟩

end Draining

end BeamSocket.Core
