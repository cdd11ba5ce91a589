import BeamSocket.Core.Mailbox
import BeamSocket.Lib.Run

/-!
# Runs of a mailbox

Any sequence of `push`, `pop` and `close` on one mailbox, with a log of the pushes and
their answers and of the frames that were popped. `Mailbox.push_cases` says once what a
push does, for the three policies and the frame above the high-water mark together: it
is refused, or it is dropped, or it is queued behind what is left of the queue.

* `MailboxLog.run_exact`: the byte gauge, the two bounds, the order and the accounts.
-/

namespace BeamSocket.Core

open BeamSocket.Lib

namespace Mailbox

variable {m : Mailbox} {frame : OutboundFrame}

theorem charge_pos (frame : OutboundFrame) : 1 ≤ charge frame := le_max_right _ _

/-- The sum of the charges. -/
def charges (items : List OutboundFrame) : ℕ := (items.map charge).sum

theorem length_le_charges (items : List OutboundFrame) : items.length ≤ charges items := by
  induction items with
  | nil => exact le_rfl
  | cons old items ih =>
    have := charge_pos old
    simp only [charges, List.length_cons, List.map_cons, List.sum_cons] at ih ⊢
    omega

/-- The eviction loop takes frames from the front, counts them, and stops when `len`
    more bytes fit or nothing is left. -/
theorem evict_spec (highWaterMark len : ℕ) (items : List OutboundFrame) (dropped : ℕ) :
    ∃ gone rest, items = gone ++ rest ∧
      evict highWaterMark len items (charges items) dropped =
        (rest, charges rest, dropped + gone.length) ∧
      (charges rest + len ≤ highWaterMark ∨ rest = []) := by
  induction items generalizing dropped with
  | nil => exact ⟨[], [], rfl, rfl, .inr rfl⟩
  | cons old items ih =>
    unfold evict
    split_ifs with hfull
    · have hbytes : charges (old :: items) - charge old = charges items := by
        simp [charges]
      obtain ⟨gone, rest, rfl, hevict, hfits⟩ := ih (dropped + 1)
      refine ⟨old :: gone, rest, rfl, ?_, hfits⟩
      rw [hbytes, hevict, List.length_cons]
      simp only [Prod.mk.injEq, true_and]
      omega
    · exact ⟨[], old :: items, rfl, rfl, .inl (by omega)⟩

/-- A push is answered `Closed` and changes nothing; or the frame is dropped; or the
    oldest frames go, if any, and it is queued, with room for it or alone. -/
theorem push_cases (h : m.Gauge) (frame : OutboundFrame) :
    (m.push frame = (m, .closed)) ∨
    (∃ closed outcome, m.push frame = ({ m with drops := m.drops + 1, closed }, outcome) ∧
      outcome ≠ .closed) ∨
    (∃ gone rest outcome, m.items = gone ++ rest ∧
      m.push frame =
        ({ m with
          items := rest ++ [frame]
          bytes := charges rest + charge frame
          drops := m.drops + gone.length }, outcome) ∧
      outcome ≠ .closed ∧ (charges rest + charge frame ≤ m.highWaterMark ∨ rest = [])) := by
  have hgauge : m.bytes = charges m.items := h
  unfold push
  dsimp only
  split_ifs with hclosed hfull
  · exact .inl rfl
  · split
    · exact .inr (.inl ⟨true, _, rfl, nofun⟩)
    · exact .inr (.inl ⟨m.closed, _, rfl, nofun⟩)
    · obtain ⟨gone, rest, hitems, hevict, hfits⟩ :=
        evict_spec m.highWaterMark (charge frame) m.items 0
      rw [hgauge, hevict, Nat.zero_add]
      exact .inr (.inr ⟨gone, rest, _, hitems, rfl, nofun, hfits⟩)
  · refine .inr (.inr ⟨[], m.items, .queued, rfl, by rw [hgauge]; rfl, nofun, ?_⟩)
    rw [← hgauge]
    by_cases hitems : m.items = []
    · exact .inr hitems
    · exact .inl (by
        by_contra hlt
        exact hfull ⟨by omega, hitems⟩)

end Mailbox

/-- The operations of the mailbox. -/
inductive MailboxOp
  | push (frame : OutboundFrame)
  | pop
  | close

/-- A mailbox with what was pushed, each frame with its answer, and what was popped,
    both oldest first. -/
structure MailboxLog where
  mailbox : Mailbox
  pushed : List (OutboundFrame × PushOutcome)
  popped : List OutboundFrame

namespace MailboxLog

/-- A new mailbox with an empty log. -/
def new (highWaterMark : ℕ) (policy : BackpressurePolicy) : MailboxLog :=
  { mailbox := .new highWaterMark policy, pushed := [], popped := [] }

/-- One operation, with its entry in the log. -/
def step (l : MailboxLog) : MailboxOp → MailboxLog
  | .push frame =>
    let (mailbox, outcome) := l.mailbox.push frame
    { l with mailbox, pushed := l.pushed ++ [(frame, outcome)] }
  | .pop =>
    let (mailbox, frame) := l.mailbox.pop
    { l with mailbox, popped := l.popped ++ frame.toList }
  | .close => { l with mailbox := l.mailbox.close }

/-- How many pushes were not answered `Closed`. -/
def taken (l : MailboxLog) : ℕ := l.pushed.countP fun p => p.2 ≠ .closed

/-- The queue is within the mark, or is one frame. -/
def Bounded (highWaterMark : ℕ) (m : Mailbox) : Prop :=
  m.bytes ≤ highWaterMark ∨ m.items.length = 1

/-- What holds of a mailbox and its log: the gauge is the sum of the charges, the mark bounds
    it, the frames keep their order, and none is unaccounted for. -/
structure Exact (highWaterMark : ℕ) (l : MailboxLog) : Prop where
  mark : l.mailbox.highWaterMark = highWaterMark
  gauge : l.mailbox.Gauge
  bounded : Bounded highWaterMark l.mailbox
  order : (l.popped ++ l.mailbox.items).Sublist (l.pushed.map Prod.fst)
  accounts : l.taken = l.popped.length + l.mailbox.items.length + l.mailbox.drops

variable {highWaterMark : ℕ} {l : MailboxLog}

theorem taken_append (pushed : List (OutboundFrame × PushOutcome)) (frame : OutboundFrame)
    {outcome : PushOutcome} (h : outcome ≠ .closed) :
    (pushed ++ [(frame, outcome)]).countP (fun p => p.2 ≠ .closed) =
      pushed.countP (fun p => p.2 ≠ .closed) + 1 := by
  rw [List.countP_append, List.countP_singleton, if_pos (by simp [h])]

theorem exact_push (h : l.Exact highWaterMark) (frame : OutboundFrame) :
    (l.step (.push frame)).Exact highWaterMark := by
  have hgauge := Mailbox.gauge_push h.gauge frame
  have horder : (l.popped ++ l.mailbox.items).Sublist
      ((l.pushed ++ [(frame, (l.mailbox.push frame).2)]).map Prod.fst) := by
    rw [List.map_append]
    exact h.order.trans (List.sublist_append_left _ _)
  unfold step
  dsimp only
  rcases Mailbox.push_cases h.gauge frame with hpush | ⟨closed, outcome, hpush, houtcome⟩ |
    ⟨gone, rest, outcome, hitems, hpush, houtcome, hfits⟩ <;>
  rw [hpush] at hgauge horder ⊢
  · refine ⟨h.mark, hgauge, h.bounded, horder, ?_⟩
    show List.countP _ (l.pushed ++ [(frame, .closed)]) = _
    rw [List.countP_append]
    exact h.accounts
  · refine ⟨h.mark, hgauge, h.bounded, horder, ?_⟩
    have := h.accounts
    show List.countP _ (l.pushed ++ [(frame, outcome)]) =
      l.popped.length + l.mailbox.items.length + (l.mailbox.drops + 1)
    rw [taken_append _ _ houtcome]
    unfold taken at this
    omega
  · refine ⟨h.mark, hgauge, ?_, ?_, ?_⟩
    · rcases hfits with hle | rfl
      · exact .inl (h.mark ▸ hle)
      · exact .inr rfl
    · -- what is evicted leaves a gap in the order, the new frame comes last
      have hrest : (l.popped ++ rest).Sublist (l.pushed.map Prod.fst) := by
        refine List.Sublist.trans ?_ h.order
        rw [hitems]
        exact (List.Sublist.refl _).append (List.sublist_append_right _ _)
      show (l.popped ++ (rest ++ [frame])).Sublist ((l.pushed ++ [(frame, outcome)]).map Prod.fst)
      rw [← List.append_assoc, List.map_append]
      exact hrest.append (List.Sublist.refl _)
    · have := h.accounts
      rw [hitems, List.length_append] at this
      show List.countP _ (l.pushed ++ [(frame, outcome)]) =
        l.popped.length + (rest ++ [frame]).length + (l.mailbox.drops + gone.length)
      rw [taken_append _ _ houtcome, List.length_append, List.length_singleton]
      unfold taken at this
      omega

theorem exact_pop (h : l.Exact highWaterMark) : (l.step .pop).Exact highWaterMark := by
  have hgauge := Mailbox.gauge_pop h.gauge
  unfold step
  dsimp only
  cases hitems : l.mailbox.items with
  | nil =>
    have hpop : l.mailbox.pop = (l.mailbox, none) := by
      rw [Mailbox.pop, hitems]
    rw [hpop]
    refine ⟨h.mark, h.gauge, h.bounded, ?_, ?_⟩
    · rw [Option.toList_none, List.append_nil]
      exact h.order
    · rw [Option.toList_none, List.append_nil]
      exact h.accounts
  | cons frame items =>
    have hpop : l.mailbox.pop =
        ({ l.mailbox with items, bytes := l.mailbox.bytes - charge frame }, some frame) := by
      rw [Mailbox.pop, hitems]
    have hbounded := h.bounded
    have horder := h.order
    have haccounts := h.accounts
    rw [hpop] at hgauge ⊢
    rw [Bounded, hitems, List.length_cons] at hbounded
    rw [hitems] at horder
    rw [hitems, List.length_cons] at haccounts
    refine ⟨h.mark, hgauge, ?_, ?_, ?_⟩
    · -- one frame that was above the mark leaves nothing
      rcases hbounded with hle | hone
      · exact .inl (le_trans (Nat.sub_le ..) hle)
      · have hnil : items = [] := List.length_eq_zero_iff.mp (by omega)
        subst hnil
        replace hgauge : l.mailbox.bytes - charge frame = 0 := hgauge
        exact .inl (by
          show l.mailbox.bytes - charge frame ≤ highWaterMark
          omega)
    · show ((l.popped ++ [frame]) ++ items).Sublist (l.pushed.map Prod.fst)
      rw [List.append_assoc]
      exact horder
    · show l.taken = (l.popped ++ [frame]).length + items.length + l.mailbox.drops
      rw [List.length_append, List.length_singleton]
      omega

theorem exact_step (l : MailboxLog) (op : MailboxOp) (h : l.Exact highWaterMark) :
    (l.step op).Exact highWaterMark := by
  cases op with
  | push frame => exact exact_push h frame
  | pop => exact exact_pop h
  | close => exact ⟨h.mark, h.gauge, h.bounded, h.order, h.accounts⟩

/-- After any pushes, pops and closes: the gauge is the sum of the charges of what is
    queued; that is at most the high-water mark, or one frame is queued; there are at most
    as many frames as the mark; what was popped and then what is queued is a subsequence of
    what was pushed; and every push that was not answered `Closed` is popped, queued or
    counted as a drop. -/
theorem run_exact (highWaterMark : ℕ) (hmark : 1 ≤ highWaterMark) (policy : BackpressurePolicy)
    (ops : List MailboxOp) :
    let l := run step (new highWaterMark policy) ops
    l.mailbox.bytes = (l.mailbox.items.map charge).sum ∧
    (l.mailbox.bytes ≤ highWaterMark ∨ l.mailbox.items.length = 1) ∧
    l.mailbox.items.length ≤ highWaterMark ∧
    (l.popped ++ l.mailbox.items).Sublist (l.pushed.map Prod.fst) ∧
    (l.pushed.countP fun p => p.2 ≠ .closed) =
      l.popped.length + l.mailbox.items.length + l.mailbox.drops := by
  intro l
  have h : l.Exact highWaterMark := by
    refine run_invariant exact_step ⟨rfl, rfl, .inl (Nat.zero_le _), ?_, rfl⟩
    exact List.Sublist.refl []
  clear_value l
  refine ⟨h.gauge, h.bounded, ?_, h.order, h.accounts⟩
  have hgauge : l.mailbox.bytes = Mailbox.charges l.mailbox.items := h.gauge
  have hlength := Mailbox.length_le_charges l.mailbox.items
  rcases h.bounded with hle | hone
  · omega
  · omega

/-- A frame above the mark evicts the two that wait, and is queued alone. -/
theorem run_exact_oversized :
    let ops : List MailboxOp := [.push ⟨[1], false⟩, .push ⟨[2], false⟩, .push ⟨[3, 4, 5, 6], true⟩]
    (run step (new 3 .dropOldest) ops).mailbox.drops = 2 ∧
      (run step (new 3 .dropOldest) ops).mailbox.items.length ≤ 3 := by
  intro ops
  exact ⟨rfl, (run_exact 3 (by decide) .dropOldest ops).2.2.1⟩

end MailboxLog

end BeamSocket.Core
