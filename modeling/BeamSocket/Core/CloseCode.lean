import BeamSocket.Core.GracefulClose

/-!
# The close code that both sides are told

A close is latched first-wins for the reader, which reports its code, and queued
separately for the writer, which writes the first Close command that it finds
(`crates/core/src/connection/mod.rs`, lines 95–143 and 229–384). The two can part:
two calls latch in one order and queue in the other, the queue is full or the
writer has ended, and the reader reports the code of an error that comes after the
latch, or before it has looked at it.

* `Connection.Reports`, `Connection.Delivers`: the steps at which they do not.
* `Connection.one_close_code`: in a run of such steps the code of the first latched
  close, if it is graceful, is reported, and is the code of the one Close frame
  written.
* `Parted.codes_part`: runs without them.
-/

namespace BeamSocket.Core

open BeamSocket.Lib

/-- The reader answers a Close frame of the peer. -/
def ReadEffect.isReply : ReadEffect → Bool
  | control (.close _ _) => true
  | _ => false

/-! ## What the reader reports -/

namespace ReadLoop

variable (r : ReadLoop) (now : ℕ)

/-- The next step ends the reader with a transport error, a panic or a keepalive
    timeout. -/
def fails (poll : SourcePoll) : Bool :=
  match r.point, poll with
  | .source, .ready (some (.error _)) => true
  | .source, .panicked => true
  | .deadline, _ => due now r.pongDeadline && !due now r.closeDeadline
  | _, _ => false

variable {r} {now} {close : Option CloseCmd} {cmd : CloseCmd} {poll : SourcePoll}

theorem step_of_isReturned (h : r.point.isReturned = true) :
    r.step now close poll = (r, none) := by
  unfold step
  split
  case h_6 => rfl
  all_goals
    next hp =>
      rw [hp] at h
      cases h

theorem observe_some (h : close = some cmd) :
    (r.observe now close).seen = true ∧
      (cmd.graceful = true → (r.observe now close).initiated = some (cmd.code, cmd.reason) ∧
        (r.observe now close).point = .changed) := by
  subst h
  unfold observe
  dsimp only
  split_ifs with hgraceful
  · exact ⟨rfl, fun _ => ⟨rfl, rfl⟩⟩
  · exact ⟨rfl, fun h => absurd h hgraceful⟩

theorem observe_forced (h : close = some cmd) (hforced : cmd.graceful = false) :
    (r.observe now close).point = .returned cmd.code cmd.reason := by
  subst h
  unfold observe
  dsimp only
  rw [if_neg (by simp [hforced])]
  rfl

theorem onFrame_same (frame : Option (Except TransportError InFrame)) :
    (r.onFrame now frame).1.seen = r.seen ∧ (r.onFrame now frame).1.initiated = r.initiated := by
  unfold onFrame
  split <;> exact ⟨rfl, rfl⟩

theorem onTick_same :
    (r.onTick now).1.seen = r.seen ∧ (r.onTick now).1.initiated = r.initiated ∧
      (r.onTick now).1.point = .changed := by
  unfold onTick
  dsimp only
  split_ifs <;> exact ⟨rfl, rfl, rfl⟩

/-- An answer to a Close frame of the peer is the last thing that the reader does. -/
theorem isReturned_of_isReply (h : (r.step now close poll).2.any ReadEffect.isReply = true) :
    (r.step now close poll).1.point.isReturned = true := by
  revert h
  unfold step
  split
  · exact nofun
  · split_ifs <;> exact nofun
  · split
    · exact nofun
    · unfold onFrame
      split
      case h_6 => exact fun _ => rfl
      all_goals exact nofun
    · exact nofun
  · split_ifs
    · unfold onTick
      dsimp only
      split_ifs <;> exact nofun
    · exact nofun
  · split_ifs <;> exact nofun
  · exact nofun

/-- A step looks at the latch, or leaves alone what the reader knows of it. -/
theorem step_known (r : ReadLoop) (now : ℕ) (close : Option CloseCmd) (poll : SourcePoll) :
    ((r.step now close poll).1.seen = r.seen ∧
        (r.step now close poll).1.initiated = r.initiated) ∨
      ∃ cmd, close = some cmd ∧ (r.step now close poll).1.seen = true ∧
        (cmd.graceful = true →
          (r.step now close poll).1.initiated = some (cmd.code, cmd.reason)) ∧
        (cmd.graceful = false →
          (r.step now close poll).1.point = .returned cmd.code cmd.reason) := by
  have hobserve : ∀ r : ReadLoop, ∀ cmd, close = some cmd →
      ∃ cmd, close = some cmd ∧ (r.observe now close).seen = true ∧
        (cmd.graceful = true → (r.observe now close).initiated = some (cmd.code, cmd.reason)) ∧
        (cmd.graceful = false →
          (r.observe now close).point = .returned cmd.code cmd.reason) := by
    intro r cmd h
    exact ⟨cmd, h, (observe_some h).1, fun hg => ((observe_some h).2 hg).1, observe_forced h⟩
  unfold step
  split
  · cases hclose : close with
    | none => exact Or.inl ⟨rfl, rfl⟩
    | some cmd =>
      rw [← hclose]
      exact Or.inr (hobserve _ cmd hclose)
  · split_ifs with hseen hnone
    · exact Or.inl ⟨rfl, rfl⟩
    · exact Or.inl ⟨rfl, rfl⟩
    · obtain ⟨cmd, hcmd⟩ := Option.ne_none_iff_exists'.mp hnone
      exact Or.inr (hobserve _ cmd hcmd)
  · split
    · exact Or.inl ⟨rfl, rfl⟩
    · exact Or.inl (onFrame_same _)
    · exact Or.inl ⟨rfl, rfl⟩
  · split_ifs
    · exact Or.inl ⟨onTick_same.1, onTick_same.2.1⟩
    · exact Or.inl ⟨rfl, rfl⟩
  · split_ifs
    · left
      unfold onDeadline
      split_ifs <;> exact ⟨rfl, rfl⟩
    · exact Or.inl ⟨rfl, rfl⟩
  · exact Or.inl ⟨rfl, rfl⟩

theorem due_nextDeadline_iff :
    due now r.nextDeadline = true ↔
      due now r.pongDeadline = true ∨ due now r.closeDeadline = true := by
  unfold nextDeadline
  cases r.pongDeadline with
  | none => cases r.closeDeadline <;> simp [due]
  | some a => cases r.closeDeadline <;> simp [due]

/-- A reader that has seen a graceful close and does not fail returns its code. -/
theorem code_of_returned {code c : UInt16} {reason reason' : String} (hclose : close = some cmd)
    (hgraceful : cmd.graceful = true) (hinit : r.initiated = some (c, reason'))
    (hbefore : r.point.isReturned = false) (hfails : r.fails now poll = false)
    (h : (r.step now close poll).1.point = .returned code reason) : code = c := by
  have hobserve : ∀ r : ReadLoop, (r.observe now close).point ≠ .returned code reason := by
    intro r
    rw [((observe_some hclose).2 hgraceful).2]
    exact nofun
  unfold step at h
  unfold fails at hfails
  cases hp : r.point with
  | start =>
    rw [hp] at h
    exact absurd h (hobserve _)
  | changed =>
    rw [hp] at h
    dsimp only at h
    split_ifs at h
    exact absurd h (hobserve _)
  | source =>
    rw [hp] at h hfails
    cases poll with
    | pending => cases h
    | panicked => cases hfails
    | ready frame =>
      dsimp only at h
      unfold onFrame at h
      split at h
      · rw [hinit] at h
        cases h
        rfl
      · cases hfails
      · cases h
      · cases h
      · cases h
      · rw [hinit] at h
        cases h
        rfl
  | tick =>
    rw [hp] at h
    dsimp only at h
    split_ifs at h
    rw [onTick_same.2.2] at h
    cases h
  | deadline =>
    rw [hp] at h hfails
    dsimp only at h hfails
    split_ifs at h with hdue
    have hclosed : due now r.closeDeadline = true := by
      rcases due_nextDeadline_iff.mp hdue with hpong | hclosed
      · rw [hpong, Bool.true_and, Bool.not_eq_false'] at hfails
        exact hfails
      · exact hclosed
    unfold onDeadline at h
    rw [if_pos hclosed, hinit] at h
    cases h
    rfl
  | returned code' reason'' => 
    rw [hp] at hbefore
    cases hbefore

end ReadLoop

namespace Connection

/-- The step does not make the reader report another code: a close is latched
    before the reader ends, and with a graceful close latched the reader ends
    after it has seen the latch, and not with a failure. -/
def Reports (s : Connection) : ConnEvent → Prop
  | .call i =>
    match s.calls.lookup i with
    | some (.signal _) => s.handle.close = none → s.reader.point.isReturned = false
    | _ => True
  | .reader poll =>
    s.handle.close.any CloseCmd.graceful = true → s.reader.point.isReturned = false →
      (s.read poll).1.point.isReturned = true →
        s.reader.seen = true ∧ s.reader.fails s.now poll = false
  | _ => True

instance (s : Connection) : ∀ e, Decidable (s.Reports e)
  | .call i => by unfold Reports; dsimp only; split <;> infer_instance
  | .reader poll => by unfold Reports; infer_instance
  | .send _ _ => isTrue trivial
  | .close _ _ => isTrue trivial
  | .writer _ => isTrue trivial
  | .teardown => isTrue trivial
  | .advance _ => isTrue trivial

/-- What the reader knows of the latch is right, and so is what it has returned. -/
structure Knows (s : Connection) : Prop where
  seen : s.reader.seen = true → ∃ cmd, s.handle.close = some cmd ∧
    (cmd.graceful = true → s.reader.initiated = some (cmd.code, cmd.reason))
  returned : ∀ cmd, s.handle.close = some cmd → cmd.graceful = true →
    ∀ code reason, s.reader.point = .returned code reason → code = cmd.code

variable {s : Connection} {e : ConnEvent}

theorem isReturned_of_eq {p : ReadPoint} {code : UInt16} {reason : String}
    (h : p = .returned code reason) : p.isReturned = true := by
  rw [h]
  rfl

theorem Knows.reader (h : s.Knows) {poll : SourcePoll} (hmeet : s.Reports (.reader poll)) :
    (s.step (.reader poll)).Knows := by
  have hclose : (s.step (.reader poll)).handle.close = s.handle.close := close_effect _
  have hreader : (s.step (.reader poll)).reader = (s.read poll).1 := reader_effect _
  constructor
  · intro hseen
    rw [hreader] at hseen ⊢
    rw [hclose]
    rcases s.reader.step_known s.now s.handle.close poll with ⟨hs, hi⟩ | ⟨cmd, hcmd, -, hi, -⟩
    · obtain ⟨cmd, hcmd, hinit⟩ := h.seen (hs ▸ hseen)
      exact ⟨cmd, hcmd, fun hg => hi.trans (hinit hg)⟩
    · exact ⟨cmd, hcmd, hi⟩
  · intro cmd hcmd hg code reason hret
    rw [hclose] at hcmd
    rw [hreader] at hret
    cases hbefore : s.reader.point.isReturned with
    | true =>
      have hsame : s.read poll = (s.reader, none) := ReadLoop.step_of_isReturned hbefore
      rw [hsame] at hret
      exact h.returned cmd hcmd hg code reason hret
    | false =>
      have hany : s.handle.close.any CloseCmd.graceful = true := by
        rw [hcmd]
        exact hg
      obtain ⟨hseen, hfails⟩ := hmeet hany hbefore (isReturned_of_eq hret)
      obtain ⟨cmd', hcmd', hinit⟩ := h.seen hseen
      have heq : cmd' = cmd := Option.some.inj (hcmd'.symm.trans hcmd)
      subst heq
      exact ReadLoop.code_of_returned hcmd hg (hinit hg) hbefore hfails hret

theorem knows_step (s : Connection) (e : ConnEvent) (h : s.Knows) (hmeet : s.Reports e) :
    (s.step e).Knows := by
  by_cases he : ∃ poll, e = .reader poll
  · obtain ⟨poll, rfl⟩ := he
    exact h.reader hmeet
  · push Not at he
    have hreader := reader_step (s := s) he
    rcases close_step s e with hsame | ⟨hnone, cmd, hlatches, hsome⟩
    · constructor
      · rw [hreader, hsame]
        exact h.seen
      · rw [hreader, hsame]
        exact h.returned
    · constructor
      · intro hseen
        rw [hreader] at hseen
        obtain ⟨cmd', hcmd', -⟩ := h.seen hseen
        rw [hnone] at hcmd'
        cases hcmd'
      · intro cmd' hcmd' hg code reason hret
        rw [hsome] at hcmd'
        cases hcmd'
        rw [hreader] at hret
        cases hlatches with
        | signal hi =>
          unfold Reports at hmeet
          dsimp only at hmeet
          rw [hi] at hmeet
          have hbefore := hmeet hnone
          rw [isReturned_of_eq hret] at hbefore
          cases hbefore
        | panicked hp => cases hg

theorem knows_new (highWaterMark : ℕ) (policy : BackpressurePolicy) (keepalive : Keepalive) :
    (new highWaterMark policy keepalive).Knows := ⟨nofun, nofun⟩

/-! ## What the writer writes -/

/-- The codes of the Close frames among `frames`. -/
def closeCodes (frames : List OutFrame) : List UInt16 := frames.filterMap OutFrame.closeCode

/-- The frame in `send_frame`, if there is one. -/
def sending (s : Connection) : List OutFrame :=
  match s.writer.point with
  | .sending f => [f]
  | _ => []

/-- The frames of the control plane that are on their way to the socket. -/
def ahead (s : Connection) : List OutFrame := s.sending ++ s.handle.control.map Control.frame

/-- There is no Close frame yet. -/
structure Clear (s : Connection) : Prop where
  sent : s.writer.closeSent = false
  written : closeCodes s.writer.written = []
  ahead : closeCodes s.ahead = []

/-- The first Close frame has the code, and it is written or will be. -/
inductive Sent (code : UInt16) (s : Connection) : Prop
  | done (sent : s.writer.closeSent = true) (written : closeCodes s.writer.written = [code])
      (sending : closeCodes s.sending = [])
  | ahead (sent : s.writer.closeSent = false) (written : closeCodes s.writer.written = [])
      (head : (closeCodes s.ahead).head? = some code) (point : s.writer.point ≠ .ended)

theorem closeCodes_append (l l' : List OutFrame) :
    closeCodes (l ++ l') = closeCodes l ++ closeCodes l' := List.filterMap_append

theorem closeCodes_singleton_frame (f : OutboundFrame) : closeCodes [f.frame] = [] := by
  unfold closeCodes
  rw [List.filterMap_cons_none (closeCode_eq_none_of_isData (isData_frame f)), List.filterMap_nil]

variable {s' : Connection} {code : UInt16}

theorem Clear.congr (h : s.Clear) (hw : s'.writer = s.writer)
    (hahead : closeCodes (s'.handle.control.map Control.frame) =
      closeCodes (s.handle.control.map Control.frame)) : s'.Clear where
  sent := by rw [hw, h.sent]
  written := by rw [hw, h.written]
  ahead := by
    have := h.ahead
    unfold Connection.ahead sending at this ⊢
    rw [closeCodes_append] at this ⊢
    rw [hw, hahead, this]

/-- More commands in the control queue come after the first. -/
theorem Sent.congr (h : s.Sent code) (hw : s'.writer = s.writer) {more : List Control}
    (hcontrol : s'.handle.control = s.handle.control ++ more) : s'.Sent code := by
  have hsending : s'.sending = s.sending := by
    unfold sending
    rw [hw]
  cases h with
  | done sent written sending =>
    exact .done (by rw [hw, sent]) (by rw [hw, written]) (by rw [hsending, sending])
  | ahead sent written head point =>
    refine .ahead (by rw [hw, sent]) (by rw [hw, written]) ?_ (by rw [hw]; exact point)
    unfold Connection.ahead at head ⊢
    rw [hsending, hcontrol, List.map_append, ← List.append_assoc, closeCodes_append,
      List.head?_append, head]
    rfl

theorem closeCode_eq_none {f : OutFrame} (h : closeCodes [f] = []) : f.closeCode = none := by
  cases f with
  | close code reason => cases h
  | _ => rfl

theorem sending_of_point {f : OutFrame} (hp : s.writer.point = .sending f) : s.sending = [f] := by
  unfold sending
  rw [hp]

theorem sending_of_ne (hp : ∀ f, s.writer.point ≠ .sending f) : s.sending = [] := by
  unfold sending
  split
  · next f heq => exact absurd heq (hp f)
  · rfl

theorem ahead_of_ne (hp : ∀ f, s.writer.point ≠ .sending f) :
    s.ahead = s.handle.control.map Control.frame := by
  unfold ahead
  rw [sending_of_ne hp, List.nil_append]

theorem clear_writer (h : s.Clear) (hrun : s.writer.point ≠ .panicked) :
    (s.step (.writer .accepted)).Clear := by
  obtain ⟨hsent, hwritten, hahead⟩ := h
  cases hp : s.writer.point with
  | control =>
    have hcontrol : closeCodes (s.handle.control.map Control.frame) = [] := by
      rwa [ahead_of_ne (by rw [hp]; exact nofun)] at hahead
    cases hc : s.handle.control with
    | nil =>
      rw [step_writer_control _ hp hc]
      exact ⟨hsent, hwritten, hcontrol⟩
    | cons c control =>
      rw [hc] at hcontrol
      rw [step_writer_take _ hp hc hsent]
      exact ⟨hsent, hwritten, hcontrol⟩
  | mailbox =>
    have hcontrol : closeCodes (s.handle.control.map Control.frame) = [] := by
      rwa [ahead_of_ne (by rw [hp]; exact nofun)] at hahead
    cases hm : s.handle.mailbox.items with
    | nil =>
      rw [step_writer_empty _ hp hm]
      refine ⟨hsent, hwritten, ?_⟩
      rwa [ahead_of_ne (by dsimp only; split_ifs <;> exact nofun)]
    | cons f items =>
      rw [step_writer_pop _ hp hm hsent]
      refine ⟨hsent, hwritten, ?_⟩
      show closeCodes ([f.frame] ++ s.handle.control.map Control.frame) = []
      rw [closeCodes_append, closeCodes_singleton_frame, hcontrol]
      rfl
  | sending f =>
    have hparts : closeCodes [f] = [] ∧ closeCodes (s.handle.control.map Control.frame) = [] := by
      rwa [ahead, sending_of_point hp, closeCodes_append, List.append_eq_nil_iff] at hahead
    have hf : f.closeCode = none := closeCode_eq_none hparts.1
    rw [step_writer_send hp]
    refine ⟨?_, ?_, hparts.2⟩
    · show (s.writer.closeSent || f.closeCode.isSome) = false
      rw [hsent, hf]
      rfl
    · show closeCodes (s.writer.written ++ [f]) = []
      rw [closeCodes_append, hwritten, hparts.1]
      rfl
  | panicked => exact absurd hp hrun
  | ended =>
    rw [step_writer_ended _ hp]
    exact ⟨hsent, hwritten, hahead⟩

/-- The writer keeps to the first Close command, unless it ends with the command
    still in the queue. -/
theorem sent_writer (h : s.Sent code) (hrun : s.writer.point ≠ .panicked)
    (hend : s.writer.closeSent = false →
      (s.step (.writer .accepted)).writer.point = .ended →
        closeCodes (s.handle.control.map Control.frame) = []) :
    (s.step (.writer .accepted)).Sent code := by
  cases h with
  | done sent written hsending =>
    cases hp : s.writer.point with
    | control =>
      cases hc : s.handle.control with
      | nil =>
        rw [step_writer_control _ hp hc]
        exact .done sent written rfl
      | cons c control =>
        rw [step_writer_ignore _ hp hc sent]
        exact .done sent written hsending
    | mailbox =>
      cases hm : s.handle.mailbox.items with
      | nil =>
        rw [step_writer_empty _ hp hm]
        refine .done sent written ?_
        rw [sending_of_ne (by dsimp only; split_ifs <;> exact nofun)]
        rfl
      | cons f items =>
        rw [step_writer_pop _ hp hm sent]
        exact .done sent written rfl
    | sending f =>
      rw [sending_of_point hp] at hsending
      rw [step_writer_send hp]
      refine .done ?_ ?_ rfl
      · show (s.writer.closeSent || f.closeCode.isSome) = true
        rw [sent, Bool.true_or]
      · show closeCodes (s.writer.written ++ [f]) = [code]
        rw [closeCodes_append, written, hsending]
        rfl
    | panicked => exact absurd hp hrun
    | ended =>
      rw [step_writer_ended _ hp]
      exact .done sent written hsending
  | ahead sent written head point =>
    cases hp : s.writer.point with
    | control =>
      rw [ahead_of_ne (by rw [hp]; exact nofun)] at head
      cases hc : s.handle.control with
      | nil =>
        rw [hc] at head
        cases head
      | cons c control =>
        rw [hc] at head
        rw [step_writer_take _ hp hc sent]
        exact .ahead sent written head nofun
    | mailbox =>
      rw [ahead_of_ne (by rw [hp]; exact nofun)] at head
      cases hm : s.handle.mailbox.items with
      | nil =>
        rw [step_writer_empty _ hp hm] at hend ⊢
        refine .ahead sent written ?_ ?_
        · rwa [ahead_of_ne (by dsimp only; split_ifs <;> exact nofun)]
        · intro hended
          rw [hend sent hended] at head
          cases head
      | cons f items =>
        rw [step_writer_pop _ hp hm sent]
        refine .ahead sent written ?_ nofun
        show (closeCodes ([f.frame] ++ s.handle.control.map Control.frame)).head? = some code
        rw [closeCodes_append, closeCodes_singleton_frame, List.nil_append]
        exact head
    | sending f =>
      rw [ahead, sending_of_point hp, closeCodes_append] at head
      rw [step_writer_send hp]
      cases hf : f.closeCode with
      | none =>
        have hnil : closeCodes [f] = [] := List.filterMap_cons_none hf
        rw [hnil, List.nil_append] at head
        refine .ahead ?_ ?_ head nofun
        · show (s.writer.closeSent || false) = false
          rw [sent]
          rfl
        · show closeCodes (s.writer.written ++ [f]) = []
          rw [closeCodes_append, written, hnil]
          rfl
      | some first =>
        have hone : closeCodes [f] = [first] := List.filterMap_cons_some hf
        rw [hone] at head
        cases head
        refine .done ?_ ?_ rfl
        · exact Bool.or_true _
        · show closeCodes (s.writer.written ++ [f]) = [code]
          rw [closeCodes_append, written, hone]
          rfl
    | panicked => exact absurd hp hrun
    | ended => exact absurd hp point

theorem control_trySend (s : Connection) (c : Control) :
    ∃ more, (s.trySend c).handle.control = s.handle.control ++ more ∧
      (more = [] ∨ more = [c]) := by
  unfold trySend
  split_ifs
  · exact ⟨[c], rfl, Or.inr rfl⟩
  · exact ⟨[], (List.append_nil _).symm, Or.inl rfl⟩

/-! ## Both sides -/

/-- The step does not part the Close frame from the latch: a close is latched before
    the reader and the writer end; the call whose close was latched finds room in the
    control queue, and until then no other Close command is queued; and the writer
    does not end before it has taken the command. -/
def Delivers (s : Connection) : ConnEvent → Prop
  | .call i =>
    match s.calls.lookup i with
    | some (.signal _) =>
      s.handle.close = none → s.reader.point.isReturned = false ∧ s.writer.point ≠ .ended
    | some (.nudge _ _) =>
      if s.winner = some i then s.handle.control.length < controlQueueCapacity
      else s.winner = none
    | _ => True
  | .writer result =>
    s.handle.close ≠ none → s.writer.closeSent = false →
      (s.writer.step s.handle result).1.point = .ended →
        s.winner = none ∧ closeCodes (s.handle.control.map Control.frame) = []
  | .reader poll =>
    s.handle.close ≠ none → (s.read poll).2.any ReadEffect.isReply = true → s.winner = none
  | _ => True

instance : DecidablePred Accepts
  | .writer _ => inferInstanceAs (Decidable (_ = _))
  | .send _ _ => isTrue trivial
  | .close _ _ => isTrue trivial
  | .call _ => isTrue trivial
  | .reader _ => isTrue trivial
  | .teardown => isTrue trivial
  | .advance _ => isTrue trivial

instance (s : Connection) : ∀ e, Decidable (s.Delivers e)
  | .call i => by unfold Delivers; dsimp only; split <;> infer_instance
  | .reader poll => by unfold Delivers; infer_instance
  | .send _ _ => isTrue trivial
  | .close _ _ => isTrue trivial
  | .writer result => by unfold Delivers; infer_instance
  | .teardown => isTrue trivial
  | .advance _ => isTrue trivial

/-- While the call whose close was latched has not nudged the writer there is no
    Close frame, and after that the first one has its code. -/
structure Tells (s : Connection) : Prop where
  running : s.writer.point ≠ .panicked
  nudges : ∀ i code reason, s.calls.lookup i = some (.nudge code reason) →
    s.handle.close ≠ none
  unlatched : s.handle.close = none →
    s.winner = none ∧ (s.reader.point.isReturned = false → s.Clear)
  waiting : ∀ i, s.winner = some i → s.Clear ∧ s.writer.point ≠ .ended ∧
    ∃ cmd, s.handle.close = some cmd ∧ s.calls.lookup i = some (.nudge cmd.code cmd.reason)
  sent : ∀ cmd, s.handle.close = some cmd → s.winner = none → s.Sent cmd.code

theorem tells_new (highWaterMark : ℕ) (policy : BackpressurePolicy) (keepalive : Keepalive) :
    (new highWaterMark policy keepalive).Tells :=
  ⟨nofun, nofun, fun _ => ⟨rfl, fun _ => ⟨rfl, rfl, rfl⟩⟩, nofun, nofun⟩

/-- Steps that leave the latch and the nudges alone. -/
theorem Tells.keep (h : s.Tells) (hrun : s'.writer.point ≠ .panicked)
    (hclose : s'.handle.close = s.handle.close) (hwinner : s'.winner = s.winner)
    (hcalls : ∀ i code reason, s'.calls.lookup i = some (.nudge code reason) ↔
      s.calls.lookup i = some (.nudge code reason))
    (hreturned : s'.reader.point.isReturned = false → s.reader.point.isReturned = false)
    (hended : s.winner ≠ none → s'.writer.point = .ended → s.writer.point = .ended)
    (hclear : s'.reader.point.isReturned = false ∨ s.winner ≠ none → s.Clear → s'.Clear)
    (hsent : s.handle.close ≠ none → s.winner = none → ∀ code, s.Sent code → s'.Sent code) :
    s'.Tells where
  running := hrun
  nudges i code reason hi := by
    rw [hclose]
    exact h.nudges i code reason ((hcalls i code reason).mp hi)
  unlatched hnone := by
    rw [hclose] at hnone
    obtain ⟨hwin, hcl⟩ := h.unlatched hnone
    exact ⟨hwinner.trans hwin, fun hret => hclear (Or.inl hret) (hcl (hreturned hret))⟩
  waiting i hi := by
    rw [hwinner] at hi
    obtain ⟨hcl, hend, cmd, hcmd, hlookup⟩ := h.waiting i hi
    have hne : s.winner ≠ none := by
      rw [hi]
      exact nofun
    refine ⟨hclear (Or.inr hne) hcl, fun heq => hend (hended hne heq), cmd, ?_,
      (hcalls _ _ _).mpr hlookup⟩
    rw [hclose, hcmd]
  sent cmd hcmd hnone := by
    rw [hclose] at hcmd
    rw [hwinner] at hnone
    exact hsent (by rw [hcmd]; exact nofun) hnone _ (h.sent cmd hcmd hnone)

theorem tells_start (h : s.Tells) (i : ℕ) {c : HandleCall}
    (hc : ∀ code reason, c ≠ .nudge code reason) : (s.start i c).Tells := by
  by_cases hi : i ∈ s.calls
  · rwa [show s.start i c = s from if_pos hi]
  · rw [start_eq hi]
    refine h.keep h.running rfl rfl ?_ id (fun _ => id) (fun _ hcl => hcl.congr rfl rfl)
      (fun _ _ _ hsent => hsent.congr rfl (List.append_nil _).symm)
    intro j code reason
    show (s.calls.insert i c).lookup j = _ ↔ _
    by_cases hj : j = i
    · subst hj
      rw [AList.lookup_insert, AList.lookup_eq_none.mpr hi]
      exact ⟨fun heq => absurd (Option.some.inj heq) (hc code reason), nofun⟩
    · rw [AList.lookup_insert_ne hj]

/-- A call steps to something that is not a nudge, and was not at one. -/
theorem lookup_setCall_iff {i : ℕ} {c : HandleCall} {next : Option HandleCall}
    (hi : s.calls.lookup i = some c) (hc : ∀ code reason, c ≠ .nudge code reason)
    (hnext : ∀ code reason, next ≠ some (.nudge code reason)) (j : ℕ) (code : UInt16)
    (reason : String) :
    (s.calls.set i next).lookup j = some (.nudge code reason) ↔
      s.calls.lookup j = some (.nudge code reason) := by
  rw [Tasks.lookup_set]
  split_ifs with hj
  · subst hj
    rw [hi]
    exact ⟨fun heq => absurd heq (hnext code reason),
      fun heq => absurd (Option.some.inj heq) (hc code reason)⟩
  · rfl

theorem tells_push (h : s.Tells) {i : ℕ} {frame : OutboundFrame}
    (hi : s.calls.lookup i = some (.push frame)) : (s.callStep i (.push frame)).Tells := by
  refine h.keep h.running rfl rfl ?_ id (fun _ => id) (fun _ hcl => hcl.congr rfl rfl)
    (fun _ _ _ hsent => hsent.congr rfl (List.append_nil _).symm)
  refine lookup_setCall_iff hi nofun ?_
  split_ifs <;> exact nofun

theorem tells_writer (h : s.Tells) (hmeet : s.Delivers (.writer .accepted)) :
    (s.step (.writer .accepted)).Tells := by
  have hclose : (s.step (.writer .accepted)).handle.close = s.handle.close :=
    close_writer _ _ _ h.running
  refine h.keep (panicked_writer h.running) hclose rfl (fun _ _ _ => Iff.rfl) id ?_
    (fun _ hcl => clear_writer hcl h.running) ?_
  · intro hwinner hend
    obtain ⟨i, hi⟩ := Option.ne_none_iff_exists'.mp hwinner
    obtain ⟨hclear, -, cmd, hcmd, -⟩ := h.waiting i hi
    exact absurd (hmeet (by rw [hcmd]; exact nofun) hclear.sent hend).1 hwinner
  · intro hlatched _ code hsent
    exact sent_writer hsent h.running fun hunsent hend => (hmeet hlatched hunsent hend).2

theorem tells_signal (h : s.Tells) {i : ℕ} {cmd : CloseCmd}
    (hi : s.calls.lookup i = some (.signal cmd)) (hmeet : s.Delivers (.call i)) :
    (s.callStep i (.signal cmd)).Tells := by
  unfold Delivers at hmeet
  dsimp only at hmeet
  rw [hi] at hmeet
  have hlookup : ∀ j, j ≠ i →
      (s.callStep i (.signal cmd)).calls.lookup j = s.calls.lookup j := by
    intro j hj
    show (s.calls.set i _).lookup j = _
    rw [Tasks.lookup_set, if_neg hj]
  have hwinner : ∀ j, s.winner = some j → j ≠ i := by
    intro j hj heq
    obtain ⟨-, -, first, -, hfirst⟩ := h.waiting j hj
    rw [heq, hi] at hfirst
    cases hfirst
  cases hclose : s.handle.close with
  | none =>
    -- the signal is latched, and this call is the one to nudge the writer
    have hlatch : (s.callStep i (.signal cmd)).handle.close = some cmd := by
      show s.handle.close.or (some cmd) = _
      rw [hclose, Option.none_or]
    have hwin : (s.callStep i (.signal cmd)).winner = some i := if_pos hclose
    have hclear : s.Clear := (h.unlatched hclose).2 (hmeet hclose).1
    refine ⟨h.running, ?_, ?_, ?_, ?_⟩
    · intro j code reason _
      rw [hlatch]
      exact nofun
    · intro hnone
      rw [hlatch] at hnone
      cases hnone
    · intro j hj
      rw [hwin] at hj
      cases hj
      exact ⟨hclear.congr rfl rfl, (hmeet hclose).2, cmd, hlatch, lookup_setCall _⟩
    · intro cmd' _ hnone
      rw [hwin] at hnone
      cases hnone
  | some first =>
    have hlatch : (s.callStep i (.signal cmd)).handle.close = some first := by
      show s.handle.close.or (some cmd) = _
      rw [hclose, Option.some_or]
    have hwin : (s.callStep i (.signal cmd)).winner = s.winner :=
      if_neg (by rw [hclose]; exact nofun)
    refine ⟨h.running, ?_, ?_, ?_, ?_⟩
    · intro j code reason _
      rw [hlatch]
      exact nofun
    · intro hnone
      rw [hlatch] at hnone
      cases hnone
    · intro j hj
      rw [hwin] at hj
      obtain ⟨hcl, hend, cmd', hcmd', hcall⟩ := h.waiting j hj
      rw [hclose] at hcmd'
      cases hcmd'
      exact ⟨hcl.congr rfl rfl, hend, first, hlatch, (hlookup j (hwinner j hj)).trans hcall⟩
    · intro cmd' hcmd' hnone
      rw [hlatch] at hcmd'
      cases hcmd'
      rw [hwin] at hnone
      exact (h.sent first hclose hnone).congr rfl (List.append_nil _).symm

theorem tells_nudge (h : s.Tells) {i : ℕ} {code : UInt16} {reason : String}
    (hi : s.calls.lookup i = some (.nudge code reason)) (hmeet : s.Delivers (.call i)) :
    (s.callStep i (.nudge code reason)).Tells := by
  unfold Delivers at hmeet
  dsimp only at hmeet
  rw [hi] at hmeet
  obtain ⟨cmd, hcmd⟩ := Option.ne_none_iff_exists'.mp (h.nudges i code reason hi)
  have hlatch : (s.callStep i (.nudge code reason)).handle.close = some cmd :=
    close_trySend.trans hcmd
  have hwriter : (s.callStep i (.nudge code reason)).writer = s.writer := writer_trySend
  -- either way no call is left that is to nudge the writer first
  have hwin : (s.callStep i (.nudge code reason)).winner = none := by
    show (if s.winner = some i then none else s.winner) = none
    split_ifs with hwon
    · rfl
    · rwa [if_neg hwon] at hmeet
  refine ⟨by rw [hwriter]; exact h.running, ?_, ?_, ?_, ?_⟩
  · intro j code' reason' _
    rw [hlatch]
    exact nofun
  · intro hnone
    rw [hlatch] at hnone
    cases hnone
  · intro j hj
    rw [hwin] at hj
    cases hj
  · intro cmd' hcmd' _
    rw [hlatch] at hcmd'
    cases hcmd'
    by_cases hwon : s.winner = some i
    · -- its command is the first
      rw [if_pos hwon] at hmeet
      obtain ⟨hclear, hend, cmd', hcmd', hcall⟩ := h.waiting i hwon
      rw [hcmd] at hcmd'
      cases hcmd'
      rw [hi] at hcall
      cases hcall
      have hcontrol : (s.callStep i (.nudge cmd.code cmd.reason)).handle.control =
          s.handle.control ++ [.close cmd.code cmd.reason] := by
        show (s.trySend _).handle.control = _
        rw [trySend_eq hmeet hend]
      have hsending : (s.callStep i (.nudge cmd.code cmd.reason)).sending = s.sending := by
        unfold sending
        rw [hwriter]
      refine .ahead (by rw [hwriter]; exact hclear.sent) (by rw [hwriter]; exact hclear.written) ?_
        (by rw [hwriter]; exact hend)
      have hahead := hclear.ahead
      unfold ahead at hahead ⊢
      rw [hsending, hcontrol, List.map_append, ← List.append_assoc, closeCodes_append, hahead]
      rfl
    · rw [if_neg hwon] at hmeet
      obtain ⟨more, hmore⟩ := control_trySend s (.close code reason)
      exact (h.sent cmd hcmd hmeet).congr hwriter hmore.1

/-- What a step of the reader adds to the control queue. -/
theorem control_effect (s : Connection) (o : Option ReadEffect) :
    ∃ more, (s.effect o).handle.control = s.handle.control ++ more ∧
      (o.any ReadEffect.isReply = false → closeCodes (more.map Control.frame) = []) := by
  match o with
  | none => exact ⟨[], (List.append_nil _).symm, fun _ => rfl⟩
  | some (.message payload isBinary) => exact ⟨[], (List.append_nil _).symm, fun _ => rfl⟩
  | some (.control c) =>
    obtain ⟨more, hmore, hc⟩ := control_trySend s c
    refine ⟨more, hmore, fun hreply => ?_⟩
    rcases hc with rfl | rfl
    · rfl
    · cases c with
      | ping payload => rfl
      | close code reason => cases hreply

theorem tells_reader (h : s.Tells) {poll : SourcePoll} (hmeet : s.Delivers (.reader poll)) :
    (s.step (.reader poll)).Tells := by
  have hreader : (s.step (.reader poll)).reader = (s.read poll).1 := reader_effect _
  have hwriter : (s.step (.reader poll)).writer = s.writer := writer_effect _
  obtain ⟨more, hmore, hcodes⟩ :=
    control_effect { s with reader := (s.read poll).1 } (s.read poll).2
  refine h.keep (by rw [hwriter]; exact h.running) (close_effect _) (winner_effect _) ?_ ?_
    (fun _ => by rw [hwriter]; exact id) ?_ ?_
  · intro i code reason
    rw [show (s.step (.reader poll)).calls = s.calls from calls_effect _]
  · intro hafter
    cases hbefore : s.reader.point.isReturned with
    | false => rfl
    | true =>
      have hsame : s.read poll = (s.reader, none) := ReadLoop.step_of_isReturned hbefore
      rw [hreader, hsame, hbefore] at hafter
      cases hafter
  · intro hor hclear
    have hreply : (s.read poll).2.any ReadEffect.isReply = false := by
      rw [Bool.eq_false_iff]
      intro hreply
      rcases hor with hafter | hwinner
      · rw [hreader, show (s.read poll).1.point.isReturned = true from
          ReadLoop.isReturned_of_isReply hreply] at hafter
        cases hafter
      · apply hwinner
        by_cases hclose : s.handle.close = none
        · exact (h.unlatched hclose).1
        · exact hmeet hclose hreply
    refine hclear.congr hwriter ?_
    rw [show (s.step (.reader poll)).handle.control = _ from hmore, List.map_append,
      closeCodes_append, hcodes hreply, List.append_nil]
  · intro _ _ code hsent
    exact hsent.congr hwriter hmore

theorem tells_step (s : Connection) (e : ConnEvent) (h : s.Tells)
    (hmeet : s.Delivers e ∧ Accepts e) : (s.step e).Tells := by
  obtain ⟨hmeet, hacc⟩ := hmeet
  cases e with
  | send i frame => exact tells_start h i nofun
  | close i cmd => exact tells_start h i nofun
  | call i =>
    cases hi : s.calls.lookup i with
    | none => rwa [step_call_none hi]
    | some c =>
      rw [step_call hi]
      cases c with
      | push frame => exact tells_push h hi
      | signal cmd => exact tells_signal h hi hmeet
      | nudge code reason => exact tells_nudge h hi hmeet
  | writer result =>
    cases hacc
    exact tells_writer h hmeet
  | reader poll => exact tells_reader h hmeet
  | teardown =>
    unfold step
    dsimp only
    split_ifs
    · exact h.keep h.running rfl rfl (fun _ _ _ => Iff.rfl) id (fun _ => id)
        (fun _ hcl => hcl.congr rfl rfl)
        (fun _ _ _ hsent => hsent.congr rfl (List.append_nil _).symm)
    · exact h
  | advance d =>
    exact h.keep h.running rfl rfl (fun _ _ _ => Iff.rfl) id (fun _ => id)
      (fun _ hcl => hcl.congr rfl rfl) (fun _ _ _ hsent => hsent.congr rfl (List.append_nil _).symm)

theorem reported_some {result : UInt16 × String} (h : s.reported = some result) :
    s.reader.point = .returned result.1 result.2 ∧ s.writer.point = .ended := by
  unfold reported at h
  split at h
  · next code reason hp =>
    split_ifs at h with hdone
    cases h
    exact ⟨hp, hdone.2⟩
  · cases h

/-- A writer that has ended has written the one Close frame. -/
theorem Sent.written_of_ended (h : s.Sent code) (hend : s.writer.point = .ended) :
    closeCodes s.writer.written = [code] := by
  cases h with
  | done sent written sending => exact written
  | ahead sent written head point => exact absurd hend point

/-- Whatever the schedule, when the first latched close is graceful: a run whose steps
    keep the reader to the latch reports its code; and a run whose steps keep the
    Close frame to the latch, the sink taking every frame, has written one Close
    frame at its end, with this code. -/
theorem one_close_code (highWaterMark : ℕ) (policy : BackpressurePolicy) (keepalive : Keepalive)
    (evs : List ConnEvent) (s : Connection)
    (hs : run step (new highWaterMark policy keepalive) evs = s) (cmd : CloseCmd)
    (hcmd : s.handle.close = some cmd) (hgraceful : cmd.graceful = true)
    (result : UInt16 × String) (hresult : s.reported = some result) :
    (StepsMeet step Reports (new highWaterMark policy keepalive) evs → result.1 = cmd.code) ∧
      (StepsMeet step (fun s e => s.Delivers e ∧ Accepts e)
          (new highWaterMark policy keepalive) evs →
        closeCodes s.writer.written = [cmd.code]) := by
  obtain ⟨hreturned, hended⟩ := reported_some hresult
  subst hs
  constructor
  · intro hmeet
    have hknows := run_invariant_of_stepsMeet knows_step (knows_new _ _ _) hmeet
    exact hknows.returned cmd hcmd hgraceful _ _ hreturned
  · intro hmeet
    have htells := run_invariant_of_stepsMeet tells_step (tells_new _ _ _) hmeet
    have hwinner : (run step (new highWaterMark policy keepalive) evs).winner = none := by
      by_contra hne
      obtain ⟨i, hi⟩ := Option.ne_none_iff_exists'.mp hne
      exact (htells.waiting i hi).2.1 hended
    exact (htells.sent cmd hcmd hwinner).written_of_ended hended

end Connection

/-! ## Two closes of one connection -/

namespace Parted

open Greeting (idle)

/-- `socket.close(4000, "bye")`. -/
def bye : CloseCmd := ⟨4000, "bye", true⟩

/-- The sweep of the engine's `close`. -/
def draining : CloseCmd := ⟨1001, "server draining", true⟩

/-- The writer sends the Close frame, the reader sees the latch, and what comes from
    the peer ends it. -/
def ending (frame : Except TransportError InFrame) : List ConnEvent :=
  [.writer .accepted, .writer .accepted, .reader .pending, .reader .pending,
    .reader (.ready (some frame)), .teardown, .writer .accepted, .writer .accepted,
    .writer .accepted, .writer .accepted]

/-- One call after the other. -/
def inOrder : List ConnEvent :=
  [.close 0 bye, .close 1 draining, .call 0, .call 0, .call 1, .call 1] ++
    ending (.ok (.close 4000 ""))

theorem codes_inOrder :
    (run Connection.step idle inOrder).reported = some (4000, "bye") ∧
      4000 = bye.code ∧
      Connection.closeCodes (run Connection.step idle inOrder).writer.written = [bye.code] := by
  have h := Connection.one_close_code 1024 .disconnect {} inOrder _ rfl bye rfl rfl
    (4000, "bye") rfl
  exact ⟨rfl, h.1 (by decide +kernel), h.2 (by decide +kernel)⟩

/-- The second call nudges the writer before the first. -/
def overtaken : List ConnEvent :=
  [.close 0 bye, .close 1 draining, .call 0, .call 1, .call 1, .call 0] ++
    ending (.ok (.close 1001 ""))

/-- The connection breaks after the Close frame. -/
def broken : List ConnEvent :=
  [.close 0 bye, .call 0, .call 0] ++ ending (.error ⟨1002, "protocol error"⟩)

theorem codes_part :
    ((run Connection.step idle overtaken).handle.close = some bye ∧
      (∀ e ∈ overtaken, Connection.Accepts e) ∧
      (run Connection.step idle overtaken).reported = some (4000, "bye") ∧
      Connection.closeCodes (run Connection.step idle overtaken).writer.written = [1001]) ∧
    ((run Connection.step idle broken).handle.close = some bye ∧
      (run Connection.step idle broken).reported = some (1002, "protocol error")) := by
  refine ⟨⟨rfl, ?_, rfl, rfl⟩, rfl, rfl⟩
  simp [overtaken, ending, Connection.Accepts]

end Parted

end BeamSocket.Core
