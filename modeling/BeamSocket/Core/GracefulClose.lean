import BeamSocket.Core.Connection

/-!
# What a graceful close leaves unwritten

The writer polls its control queue before its mailbox (`write_loop`, lines
229–281), so the Close frame of a graceful close overtakes the frames that are
queued, and after it they are discarded. They are written first in two cases
only: nothing is queued, or the writer is just about to pop the one frame that is
queued and no push can evict it.

* `Connection.flushes_iff`: the frames in the mailbox are written before the Close
  frame, whatever the schedule, iff one of these is the case.
* `Greeting.close_overtakes`: a frame that is queued when the connection is closed
  and never written.
-/

namespace BeamSocket.Core

open BeamSocket.Lib

namespace Connection

/-! ## Runs in which the sink takes every frame -/

/-- The sink takes the frame. -/
def Accepts : ConnEvent → Prop
  | .writer result => result = .accepted
  | _ => True

/-- A run in which the sink takes every frame leads from `s` to `s'`. -/
def Leads (s s' : Connection) : Prop := ∃ evs, (∀ e ∈ evs, Accepts e) ∧ run step s evs = s'

variable {s s' s'' : Connection} {e : ConnEvent}

theorem Leads.refl (s : Connection) : s.Leads s := ⟨[], by simp, rfl⟩

theorem Leads.trans (h : s.Leads s') (h' : s'.Leads s'') : s.Leads s'' := by
  obtain ⟨evs, hevs, rfl⟩ := h
  obtain ⟨evs', hevs', rfl⟩ := h'
  refine ⟨evs ++ evs', ?_, run_append _ _ _ _⟩
  intro e he
  rcases List.mem_append.mp he with he | he
  · exact hevs e he
  · exact hevs' e he

theorem Leads.step (h : s.Leads s') (he : Accepts e) : s.Leads (s'.step e) :=
  h.trans ⟨[e], by simpa using he, rfl⟩

theorem Leads.writer (h : s.Leads s') : s.Leads (s'.step (.writer .accepted)) := h.step rfl

theorem Leads.invariant {I : Connection → Prop} (hstep : ∀ s e, I s → Accepts e → I (s.step e))
    (h : s.Leads s') (hs : I s) : I s' := by
  obtain ⟨evs, hevs, rfl⟩ := h
  induction evs generalizing s with
  | nil => exact hs
  | cons e evs ih =>
    exact ih (hstep s e hs (hevs e (List.mem_cons_self ..))) fun e he =>
      hevs e (List.mem_cons_of_mem _ he)

/-! ## What is wanted -/

/-- The data frame in `send_frame`, if there is one. -/
def inFlight (s : Connection) : List OutFrame :=
  match s.writer.point with
  | .sending f => [f].filter OutFrame.isData
  | _ => []

/-- The data frames that are to be written: after the one in `send_frame` those in
    the mailbox. -/
def unwritten (s : Connection) : List OutFrame :=
  s.inFlight ++ s.handle.mailbox.items.map OutboundFrame.frame

/-- The frames that were to be written in `s` are, in this order, the first data
    frames that are written from `s` to `s'`, and they are all written when a Close
    frame is or when the writer has ended. -/
structure Flushed (s s' : Connection) : Prop where
  close : ∀ before code reason rest,
    s'.writer.written = s.writer.written ++ before ++ .close code reason :: rest →
      s.unwritten <+: before.filter OutFrame.isData
  ended : s'.writer.point = .ended →
    ∃ since, s'.writer.written = s.writer.written ++ since ∧
      s.unwritten <+: since.filter OutFrame.isData

/-- No close is under way. -/
structure Quiet (s : Connection) : Prop where
  latch : s.handle.close = none
  control : ∀ c ∈ s.handle.control, c.frame.closeCode = none
  sending : ∀ f, s.writer.point = .sending f → f.closeCode = none
  sent : s.writer.closeSent = false

/-- The step initiates a graceful close: `close.signal` of a call, or a push that
    the `Disconnect` policy answers. -/
def Initiates (s : Connection) : ConnEvent → Prop
  | .call i =>
    match s.calls.lookup i with
    | some (.signal cmd) => cmd.graceful = true
    | some (.push frame) => (s.handle.mailbox.push frame).2 = .disconnect
    | _ => False
  | _ => False

/-- No Close frame can overtake: nothing is queued, or one frame is, the writer pops
    it in its next step and no push evicts it. -/
def Drains (s : Connection) : Prop :=
  s.handle.mailbox.items = [] ∨
    (s.writer.point = .mailbox ∧ s.handle.mailbox.items.length = 1 ∧
      (s.handle.mailbox.policy ≠ .dropOldest ∨ s.handle.mailbox.closed = true))

/-! ## When nothing overtakes -/

theorem closeCode_eq_none_of_isData {f : OutFrame} (h : f.isData = true) : f.closeCode = none := by
  cases f <;> simp_all [OutFrame.isData, OutFrame.closeCode]

theorem isData_frame (f : OutboundFrame) : f.frame.isData = true := by
  unfold OutboundFrame.frame
  split_ifs <;> rfl

/-- The writer appends to its log. -/
theorem written_step (s : Connection) (e : ConnEvent) :
    ∃ more, (s.step e).writer.written = s.writer.written ++ more := by
  by_cases he : ∃ result, e = .writer result
  · obtain ⟨result, rfl⟩ := he
    show ∃ more, (s.writer.step s.handle result).1.written = _
    unfold WriteLoop.step
    split
    · split <;> exact ⟨[], (List.append_nil _).symm⟩
    · split <;> exact ⟨[], (List.append_nil _).symm⟩
    · split
      · exact ⟨_, rfl⟩
      · exact ⟨[], (List.append_nil _).symm⟩
      · exact ⟨[], (List.append_nil _).symm⟩
    · exact ⟨[], (List.append_nil _).symm⟩
    · exact ⟨[], (List.append_nil _).symm⟩
  · push Not at he
    exact ⟨[], by rw [writer_step he, List.append_nil]⟩

/-- The next frame that the writer of `u` writes is `f`. -/
def Committed (f : OutFrame) (u : Connection) : Prop :=
  u.writer.point = .sending f ∨
    (u.writer.point = .mailbox ∧ u.writer.closeSent = false ∧
      (∃ frame items, u.handle.mailbox.items = frame :: items ∧ frame.frame = f) ∧
      (u.handle.mailbox.policy ≠ .dropOldest ∨ u.handle.mailbox.closed = true))

/-- Since `s`, the writer of `u` has written `f` first, or is about to. -/
def First (s : Connection) (f : OutFrame) (u : Connection) : Prop :=
  (u.writer.written = s.writer.written ∧ Committed f u) ∨
    ∃ more, u.writer.written = s.writer.written ++ f :: more

theorem committed_step {f : OutFrame} {u : Connection} (he : ∀ result, e ≠ .writer result)
    (h : Committed f u) : Committed f (u.step e) := by
  rcases h with hp | ⟨hp, hsent, ⟨frame, items, hitems, rfl⟩, hkeeps⟩
  · exact Or.inl (by rw [writer_step he, hp])
  · refine Or.inr ⟨by rw [writer_step he, hp], by rw [writer_step he, hsent], ?_⟩
    rcases mailbox_step (s := u) he with heq | heq | ⟨frame', heq⟩
    · rw [heq]
      exact ⟨⟨frame, items, hitems, rfl⟩, hkeeps⟩
    · rw [heq]
      exact ⟨⟨frame, items, hitems, rfl⟩, Or.inr rfl⟩
    · obtain ⟨more, hmore⟩ := @Mailbox.items_push_of_keeps _ frame' hkeeps
      rw [heq, hmore, Mailbox.policy_push, hitems]
      refine ⟨⟨frame, items ++ more, rfl, rfl⟩, ?_⟩
      rcases hkeeps with hpolicy | hclosed
      · exact Or.inl hpolicy
      · rw [Mailbox.push_of_closed hclosed]
        exact Or.inr hclosed

theorem first_step {f : OutFrame} (u : Connection) (e : ConnEvent) (h : First s f u)
    (hacc : Accepts e) : First s f (u.step e) := by
  rcases h with ⟨hwritten, hc⟩ | ⟨more, hmore⟩
  · by_cases he : ∃ result, e = .writer result
    · obtain ⟨result, rfl⟩ := he
      cases hacc
      rcases hc with hp | ⟨hp, hsent, ⟨frame, items, hitems, rfl⟩, -⟩
      · right
        refine ⟨[], ?_⟩
        rw [step_writer_send hp, ← hwritten]
      · left
        rw [step_writer_pop _ hp hitems hsent]
        exact ⟨hwritten, Or.inl rfl⟩
    · push Not at he
      exact Or.inl ⟨by rw [writer_step he, hwritten], committed_step he hc⟩
  · right
    obtain ⟨more', hmore'⟩ := written_step u e
    exact ⟨more ++ more', by rw [hmore', hmore, List.append_assoc]; rfl⟩

theorem written_leads (h : s.Leads s') :
    ∃ more, s'.writer.written = s.writer.written ++ more := by
  refine Leads.invariant (I := fun u => ∃ more, u.writer.written = s.writer.written ++ more)
    ?_ h ⟨[], (List.append_nil _).symm⟩
  intro u e hu _
  obtain ⟨more, hmore⟩ := hu
  obtain ⟨more', hmore'⟩ := written_step u e
  exact ⟨more ++ more', by rw [hmore', hmore, List.append_assoc]⟩

theorem flushed_of_nil (hun : s.unwritten = []) (hw : s'.writer.written = s.writer.written)
    (h : s'.Leads s'') : s.Flushed s'' where
  close before code reason rest _ := by
    rw [hun]
    exact List.nil_prefix
  ended _ := by
    obtain ⟨more, hmore⟩ := written_leads h
    rw [hun]
    exact ⟨more, by rw [hmore, hw], List.nil_prefix⟩

theorem flushed_of_first {f : OutFrame} (hf : f.isData = true) (hun : s.unwritten = [f])
    (h : First s f s') : s.Flushed s' := by
  rcases h with ⟨hwritten, hc⟩ | ⟨more, hmore⟩
  · constructor
    · intro before code reason rest heq
      rw [hwritten, List.append_assoc, List.self_eq_append_right] at heq
      cases before <;> cases heq
    · intro hend
      rcases hc with hp | ⟨hp, -⟩
      · rw [hp] at hend
        cases hend
      · rw [hp] at hend
        cases hend
  · rw [← List.singleton_append] at hmore
    constructor
    · intro before code reason rest heq
      rw [hmore, List.append_assoc, List.append_cancel_left_eq] at heq
      cases before with
      | nil =>
        -- a Close frame is not a data frame
        cases heq
        cases hf
      | cons g before =>
        cases heq
        rw [hun, List.filter_cons_of_pos hf]
        exact ⟨_, rfl⟩
    · intro _
      refine ⟨_, hmore, ?_⟩
      rw [hun, List.singleton_append, List.filter_cons_of_pos hf]
      exact ⟨_, rfl⟩

/-- An initiation changes neither the writer nor the queued frames. -/
theorem initiates_same (he : s.Initiates e) :
    (s.step e).writer = s.writer ∧ (s.step e).handle.control = s.handle.control ∧
      (s.step e).handle.mailbox.items = s.handle.mailbox.items ∧
      ((s.step e).handle.mailbox = s.handle.mailbox ∨
        (s.handle.mailbox.policy = .disconnect ∧
          (s.step e).handle.mailbox.policy = .disconnect)) := by
  cases e with
  | call i =>
    unfold Initiates at he
    dsimp only at he
    split at he
    · next cmd hi =>
      rw [step_call hi]
      exact ⟨rfl, rfl, rfl, Or.inl rfl⟩
    · next frame hi =>
      obtain ⟨hpolicy, hitems⟩ := Mailbox.push_of_disconnect he
      rw [step_call hi]
      refine ⟨rfl, rfl, hitems, Or.inr ⟨hpolicy, ?_⟩⟩
      show (s.handle.mailbox.push frame).1.policy = _
      rw [Mailbox.policy_push, hpolicy]
    · exact he.elim
  | _ => exact he.elim

theorem flushed_of_drains (hquiet : s.Quiet) (he : s.Initiates e) (h : s.Drains)
    (hs' : (s.step e).Leads s') : s.Flushed s' := by
  obtain ⟨hw, -, hitems, hmailbox⟩ := initiates_same he
  have hrun : ∀ f, Committed f (s.step e) → First s f s' := by
    intro f hf
    exact hs'.invariant first_step (Or.inl ⟨by rw [hw], hf⟩)
  rcases h with hnil | ⟨hp, hone, hkeeps⟩
  · by_cases hun : s.unwritten = []
    · exact flushed_of_nil hun (by rw [hw]) hs'
    · -- the frame in `send_frame` is written next
      have hflight : s.unwritten = s.inFlight := by simp [unwritten, hnil]
      cases hp : s.writer.point with
      | sending f =>
        have hone : s.unwritten = [f].filter OutFrame.isData := by
          rw [hflight]
          unfold inFlight
          rw [hp]
        by_cases hf : f.isData = true
        · rw [List.filter_cons_of_pos hf] at hone
          exact flushed_of_first hf hone (hrun f (Or.inl (by rw [hw, hp])))
        · rw [List.filter_cons_of_neg hf] at hone
          exact absurd hone hun
      | _ => exact absurd (by rw [hflight]; unfold inFlight; rw [hp]) hun
  · obtain ⟨frame, hframe⟩ := List.length_eq_one_iff.mp hone
    have hun : s.unwritten = [frame.frame] := by simp [unwritten, inFlight, hp, hframe]
    refine flushed_of_first (isData_frame frame) hun (hrun _ (Or.inr ⟨?_, ?_, ?_, ?_⟩))
    · rw [hw, hp]
    · rw [hw, hquiet.sent]
    · exact ⟨frame, [], by rw [hitems, hframe], rfl⟩
    · rcases hmailbox with heq | ⟨-, hpolicy⟩
      · rw [heq]
        exact hkeeps
      · exact Or.inl (by rw [hpolicy]; exact nofun)

/-! ## How a Close frame overtakes -/

/-- Call `i` is closing the connection: it is before its signal or its nudge. -/
def IsClosing (i : ℕ) (s : Connection) : Prop :=
  (∃ cmd, s.calls.lookup i = some (.signal cmd)) ∨
    ∃ code reason, s.calls.lookup i = some (.nudge code reason)

/-- The writer is about to poll the control queue, which holds pings only, and call
    `i` is closing the connection. -/
structure Poised (i : ℕ) (s : Connection) : Prop where
  point : s.writer.point = .control
  sent : s.writer.closeSent = false
  control : ∀ c ∈ s.handle.control, c.frame.closeCode = none
  closing : IsClosing i s

theorem isData_control (c : Control) : c.frame.isData = false := by cases c <;> rfl

/-- A writer that sends `f` comes back to the control queue. -/
theorem poised_send {i : ℕ} {f : OutFrame} (hp : s.writer.point = .sending f)
    (hf : f.closeCode = none) (hsent : s.writer.closeSent = false)
    (hcontrol : ∀ c ∈ s.handle.control, c.frame.closeCode = none) (hclosing : IsClosing i s) :
    Poised i (s.step (.writer .accepted)) ∧
      (s.step (.writer .accepted)).handle = s.handle ∧
      (s.step (.writer .accepted)).writer.written = s.writer.written ++ [f] := by
  rw [step_writer_send hp]
  refine ⟨⟨rfl, ?_, hcontrol, hclosing⟩, rfl, rfl⟩
  show (s.writer.closeSent || f.closeCode.isSome) = false
  rw [hsent, hf]
  rfl

/-- The first ping is written. -/
theorem Poised.ping {i : ℕ} {c : Control} {control : List Control} (h : Poised i s)
    (hc : s.handle.control = c :: control) :
    ∃ u, s.Leads u ∧ Poised i u ∧ u.handle.control = control ∧
      u.writer.written = s.writer.written ++ [c.frame] := by
  have hpings : ∀ c' ∈ c :: control, c'.frame.closeCode = none := hc ▸ h.control
  have htake := step_writer_take .accepted h.point hc h.sent
  obtain ⟨hpoised, hhandle, hwritten⟩ :=
    poised_send (s := s.step (.writer .accepted)) (i := i) (by rw [htake])
      (hpings c (List.mem_cons_self ..)) (by rw [htake]; exact h.sent)
      (by rw [htake]; exact fun c' hc' => hpings c' (List.mem_cons_of_mem _ hc'))
      (by rw [htake]; exact h.closing)
  refine ⟨_, (Leads.refl s).writer.writer,
    hpoised, ?_, ?_⟩
  · rw [hhandle, htake]
  · rw [hwritten, htake]

/-- All pings are written. -/
theorem Poised.pings {i : ℕ} {control : List Control} (h : Poised i s)
    (hc : s.handle.control = control) :
    ∃ u, s.Leads u ∧ Poised i u ∧ u.handle.control = [] ∧
      ∃ pings, u.writer.written = s.writer.written ++ pings ∧
        pings.filter OutFrame.isData = [] := by
  induction control generalizing s with
  | nil => exact ⟨s, Leads.refl s, h, hc, [], (List.append_nil _).symm, rfl⟩
  | cons c control ih =>
    obtain ⟨u, hu, hpoised, hcontrol, hwritten⟩ := h.ping hc
    obtain ⟨v, hv, hpoised', hcontrol', pings, hwritten', hpings⟩ := ih hpoised hcontrol
    refine ⟨v, hu.trans hv, hpoised', hcontrol', c.frame :: pings, ?_, ?_⟩
    · rw [hwritten', hwritten, List.append_assoc]
      rfl
    · rw [List.filter_cons_of_neg (by simp [isData_control]), hpings]

/-- Then the call signals, if it has not yet. -/
theorem Poised.signalled {i : ℕ} (h : Poised i s) :
    ∃ u, s.Leads u ∧ Poised i u ∧ u.handle.control = s.handle.control ∧
      u.writer = s.writer ∧ ∃ code reason, u.calls.lookup i = some (.nudge code reason) := by
  rcases h.closing with ⟨cmd, hcmd⟩ | ⟨code, reason, hnudge⟩
  · have hnext : (s.step (.call i)).calls.lookup i = some (.nudge cmd.code cmd.reason) := by
      rw [step_call hcmd]
      exact lookup_setCall _
    refine ⟨s.step (.call i), (Leads.refl s).step trivial, ?_, ?_, ?_, _, _, hnext⟩
    · refine ⟨?_, ?_, ?_, Or.inr ⟨_, _, hnext⟩⟩
      · rw [step_call hcmd]
        exact h.point
      · rw [step_call hcmd]
        exact h.sent
      · rw [step_call hcmd]
        exact h.control
    · rw [step_call hcmd]
      rfl
    · rw [step_call hcmd]
      rfl
  · exact ⟨s, Leads.refl s, h, rfl, rfl, code, reason, hnudge⟩

/-- The nudge of a poised call with no ping before it is the next frame written. -/
theorem leads_nudge {i : ℕ} {code : UInt16} {reason : String} (h : Poised i s)
    (hc : s.handle.control = []) (hi : s.calls.lookup i = some (.nudge code reason)) :
    ∃ u, s.Leads u ∧ u.writer.written = s.writer.written ++ [.close code reason] := by
  have hroom : s.handle.control.length < controlQueueCapacity := by simp [hc, controlQueueCapacity]
  have hcall := step_call hi
  have hhandle : (s.step (.call i)).handle.control = [.close code reason] := by
    rw [hcall]
    show ((s.trySend (.close code reason)).handle.control) = _
    rw [trySend_eq hroom (by rw [h.point]; exact nofun)]
    show s.handle.control ++ _ = _
    rw [hc, List.nil_append]
  have hwriter : (s.step (.call i)).writer = s.writer := writer_step nofun
  have htake := step_writer_take (s := s.step (.call i)) .accepted
    (by rw [hwriter, h.point]) hhandle (by rw [hwriter, h.sent])
  have hsend := step_writer_send (s := (s.step (.call i)).step (.writer .accepted))
    (f := .close code reason) (by rw [htake]; rfl)
  refine ⟨_, ((Leads.refl s).step (e := .call i) trivial).writer.writer, ?_⟩
  rw [hsend, htake]
  show (s.step (.call i)).writer.written ++ _ = _
  rw [hwriter]

/-- A Close frame is written with no data frame before it. -/
theorem Poised.overtakes {i : ℕ} (h : Poised i s) :
    ∃ u, s.Leads u ∧ ∃ pings code reason,
      u.writer.written = s.writer.written ++ (pings ++ [.close code reason]) ∧
      pings.filter OutFrame.isData = [] := by
  obtain ⟨u, hu, hpoised, hcontrol, pings, hwritten, hpings⟩ := h.pings rfl
  obtain ⟨v, hv, hpoised', hcontrol', hwriter, code, reason, hnudge⟩ := hpoised.signalled
  obtain ⟨w, hw, hclose⟩ := leads_nudge hpoised' (hcontrol'.trans hcontrol) hnudge
  refine ⟨w, (hu.trans hv).trans hw, pings, code, reason, ?_, hpings⟩
  rw [hclose, hwriter, hwritten, List.append_assoc]

/-- So what is to be written in `s` is not flushed, unless it has been written. -/
theorem Poised.not_flushed {i : ℕ} {u : Connection} {data : List OutFrame} (h : Poised i u)
    (hwritten : u.writer.written = s.writer.written ++ data)
    (hdata : ¬ s.unwritten <+: data.filter OutFrame.isData) :
    ∃ v, u.Leads v ∧ ¬ s.Flushed v := by
  obtain ⟨v, hv, pings, code, reason, hclose, hpings⟩ := h.overtakes
  refine ⟨v, hv, fun hflushed => hdata ?_⟩
  have hprefix := hflushed.close (data ++ pings) code reason [] (by
    rw [hclose, hwritten, List.append_assoc, List.append_assoc, List.append_assoc])
  rwa [List.filter_append, hpings, List.append_nil] at hprefix

/-- A writer that has popped a frame comes back to the control queue. -/
theorem poised_pop {i : ℕ} {frame : OutboundFrame} {items : List OutboundFrame}
    (hp : s.writer.point = .mailbox) (hitems : s.handle.mailbox.items = frame :: items)
    (hsent : s.writer.closeSent = false)
    (hcontrol : ∀ c ∈ s.handle.control, c.frame.closeCode = none) (hclosing : IsClosing i s) :
    ∃ u, s.Leads u ∧ Poised i u ∧ u.writer.written = s.writer.written ++ [frame.frame] := by
  have hpop := step_writer_pop .accepted hp hitems hsent
  obtain ⟨hpoised, -, hwritten⟩ :=
    poised_send (s := s.step (.writer .accepted)) (i := i) (by rw [hpop]; rfl)
      (closeCode_eq_none_of_isData (isData_frame frame)) (by rw [hpop]; exact hsent)
      (by rw [hpop]; exact hcontrol) (by rw [hpop]; exact hclosing)
  refine ⟨_, (Leads.refl s).writer.writer,
    hpoised, ?_⟩
  rw [hwritten, hpop]

theorem exists_not_mem (calls : Tasks HandleCall) : ∃ j, j ∉ calls := by
  obtain ⟨j, hj⟩ := Infinite.exists_notMem_finset calls.keys.toFinset
  exact ⟨j, by simpa [AList.mem_keys] using hj⟩

/-- The push of a frame above the high-water mark evicts what is queued. -/
theorem leads_evict {i : ℕ} (frame : OutboundFrame)
    (hpolicy : s.handle.mailbox.policy = .dropOldest) (hopen : s.handle.mailbox.closed = false)
    (hitems : s.handle.mailbox.items ≠ []) (hlen : s.handle.mailbox.highWaterMark < charge frame)
    (hclosing : IsClosing i s) :
    ∃ u, s.Leads u ∧ u.writer = s.writer ∧ u.handle.control = s.handle.control ∧
      u.handle.mailbox.items = [frame] ∧ IsClosing i u := by
  obtain ⟨j, hj⟩ := exists_not_mem s.calls
  obtain ⟨hevicted, hout⟩ := Mailbox.push_of_lt hpolicy hopen hitems hlen
  have hstart : s.step (.send j frame) = { s with calls := s.calls.insert j (.push frame) } :=
    start_eq hj
  have hcall := step_call (s := s.step (.send j frame)) (i := j) (c := .push frame) (by
    rw [hstart]
    exact AList.lookup_insert s.calls)
  have hji : i ≠ j := by
    rintro rfl
    have hnone : s.calls.lookup i = none := AList.lookup_eq_none.mpr hj
    rcases hclosing with ⟨cmd, h⟩ | ⟨code, reason, h⟩ <;> rw [hnone] at h <;> cases h
  have hlookup : ((s.step (.send j frame)).step (.call j)).calls.lookup i = s.calls.lookup i := by
    rw [hcall]
    show (Tasks.set _ j _).lookup i = _
    rw [Tasks.lookup_set, if_neg hji, hstart]
    exact AList.lookup_insert_ne hji
  refine ⟨_, ((Leads.refl s).step (e := .send j frame) trivial).step (e := .call j) trivial,
    ?_, ?_, ?_, ?_⟩
  · rw [hcall, hstart]
    rfl
  · rw [hcall, hstart]
    rfl
  · rw [hcall, hstart]
    exact hevicted
  · unfold IsClosing
    rw [hlookup]
    exact hclosing

/-! ## The two together -/

/-- While the sink takes every frame, the writer ends only on a closed mailbox
    without frames. -/
structure EndsDrained (s : Connection) : Prop where
  ended : s.writer.point = .ended → s.handle.mailbox.closed = true ∧ s.handle.mailbox.items = []
  panicked : s.writer.point ≠ .panicked

theorem endsDrained_new (highWaterMark : ℕ) (policy : BackpressurePolicy) (keepalive : Keepalive) :
    (new highWaterMark policy keepalive).EndsDrained := ⟨nofun, nofun⟩

theorem panicked_writer (h : s.writer.point ≠ .panicked) :
    (s.step (.writer .accepted)).writer.point ≠ .panicked := by
  show (s.writer.step s.handle .accepted).1.point ≠ .panicked
  unfold WriteLoop.step
  dsimp only
  split
  · split
    · exact nofun
    · dsimp only
      split_ifs <;> exact nofun
  · split
    · dsimp only
      split_ifs <;> exact nofun
    · dsimp only
      split_ifs <;> exact nofun
  · exact nofun
  · exact nofun
  · exact h

theorem EndsDrained.writer (h : s.EndsDrained) : (s.step (.writer .accepted)).EndsDrained := by
  constructor
  · show (s.writer.step s.handle .accepted).1.point = .ended →
      (s.writer.step s.handle .accepted).2.mailbox.closed = true ∧
        (s.writer.step s.handle .accepted).2.mailbox.items = []
    unfold WriteLoop.step
    dsimp only
    split
    · split
      · exact nofun
      · dsimp only
        split_ifs <;> exact nofun
    · split
      · dsimp only
        split_ifs <;> exact nofun
      · next hpop =>
        dsimp only
        intro hend
        split_ifs at hend with hclosed
        exact ⟨hclosed, Mailbox.items_eq_nil_of_pop (congrArg Prod.snd hpop)⟩
    · exact nofun
    · next hp => exact absurd hp h.panicked
    · next hp => exact fun _ => h.ended hp
  · exact panicked_writer h.panicked

theorem endsDrained_step (s : Connection) (e : ConnEvent) (h : s.EndsDrained) (he : Accepts e) :
    (s.step e).EndsDrained := by
  by_cases hwr : ∃ result, e = .writer result
  · obtain ⟨result, rfl⟩ := hwr
    cases he
    exact h.writer
  · push Not at hwr
    refine ⟨fun hend => ?_, by rw [writer_step hwr]; exact h.panicked⟩
    rw [writer_step hwr] at hend
    obtain ⟨hclosed, hitems⟩ := h.ended hend
    rcases mailbox_step (s := s) hwr with heq | heq | ⟨frame, heq⟩
    · rw [heq]
      exact ⟨hclosed, hitems⟩
    · rw [heq]
      exact ⟨rfl, hitems⟩
    · rw [heq, Mailbox.push_of_closed hclosed]
      exact ⟨hclosed, hitems⟩

theorem closing_of_initiates (he : s.Initiates e) : ∃ i, IsClosing i (s.step e) := by
  cases e with
  | call i =>
    refine ⟨i, ?_⟩
    unfold Initiates at he
    dsimp only at he
    split at he
    · next cmd hi =>
      rw [step_call hi]
      exact Or.inr ⟨_, _, lookup_setCall _⟩
    · next frame hi =>
      rw [step_call hi]
      refine Or.inl ⟨_, (lookup_setCall _).trans (if_pos he)⟩
    · exact he.elim
  | _ => exact he.elim

theorem length_unwritten (s : Connection) :
    s.unwritten.length = s.inFlight.length + s.handle.mailbox.items.length := by
  simp [unwritten]

theorem length_filter_singleton_le (f : OutFrame) : ([f].filter OutFrame.isData).length ≤ 1 :=
  List.length_filter_le ..

/-- A frame that is longer than `frame` and than the high-water mark. -/
def oversized (highWaterMark : ℕ) (frame : OutboundFrame) : OutboundFrame :=
  { frame with data := List.replicate (highWaterMark + frame.data.length + 1) 0 }

theorem lt_charge_oversized (highWaterMark : ℕ) (frame : OutboundFrame) :
    highWaterMark < charge (oversized highWaterMark frame) := by
  simp only [charge, oversized, List.length_replicate]
  omega

theorem frame_ne_oversized (highWaterMark : ℕ) (frame : OutboundFrame) :
    frame.frame ≠ (oversized highWaterMark frame).frame := by
  intro heq
  have hdata : frame.data = (oversized highWaterMark frame).data := by
    unfold OutboundFrame.frame oversized at heq
    dsimp only at heq
    split_ifs at heq <;> injection heq
  have hlen := congrArg List.length hdata
  simp only [oversized, List.length_replicate] at hlen
  omega

/-- Otherwise a schedule leaves a queued frame unwritten. -/
theorem drains_of_flushed (hend : s.EndsDrained) (hquiet : s.Quiet) (he : s.Initiates e)
    (h : ∀ s', (s.step e).Leads s' → s.Flushed s') : s.Drains := by
  obtain ⟨hw, hcontrol, hitems, hmailbox⟩ := initiates_same he
  obtain ⟨i, hclosing⟩ := closing_of_initiates he
  have hsent : (s.step e).writer.closeSent = false := by rw [hw, hquiet.sent]
  have hpings : ∀ c ∈ (s.step e).handle.control, c.frame.closeCode = none := by
    rw [hcontrol]
    exact hquiet.control
  -- from a poised state, what was to be written has been
  have hpoised : ∀ u data, (s.step e).Leads u → Poised i u →
      u.writer.written = s.writer.written ++ data →
      s.unwritten <+: data.filter OutFrame.isData := by
    intro u data hu hp hwritten
    by_contra hdata
    obtain ⟨v, hv, hnot⟩ := hp.not_flushed hwritten hdata
    exact hnot (h v (hu.trans hv))
  by_contra hdrains
  unfold Drains at hdrains
  push Not at hdrains
  obtain ⟨hne, hmany⟩ := hdrains
  have hpos := List.length_pos_iff.mpr hne
  cases hp : s.writer.point with
  | control =>
    have hlen := (hpoised _ [] (Leads.refl _) ⟨by rw [hw, hp], hsent, hpings, hclosing⟩
      (by rw [hw, List.append_nil])).length_le
    rw [length_unwritten, List.filter_nil, List.length_nil] at hlen
    omega
  | sending f =>
    obtain ⟨hpoise, -, hwritten⟩ :=
      poised_send (by rw [hw, hp]) (hquiet.sending f hp) hsent hpings hclosing
    have hlen := (hpoised _ [f] (Leads.refl _).writer hpoise (by rw [hwritten, hw])).length_le
    have hflight : s.inFlight = [f].filter OutFrame.isData := by
      unfold inFlight
      rw [hp]
    rw [length_unwritten, hflight] at hlen
    omega
  | mailbox =>
    have hp' : (s.step e).writer.point = .mailbox := by rw [hw, hp]
    obtain ⟨frame, items, hcons⟩ := List.exists_cons_of_ne_nil hne
    by_cases hone : s.handle.mailbox.items.length = 1
    · -- a push evicts the one frame before the writer pops it
      obtain ⟨hpolicy, hopen⟩ := hmany hp hone
      have heq : (s.step e).handle.mailbox = s.handle.mailbox := by
        rcases hmailbox with heq | ⟨hdisconnect, -⟩
        · exact heq
        · rw [hdisconnect] at hpolicy
          cases hpolicy
      obtain ⟨u, hu, huw, huc, hui, huclosing⟩ :=
        leads_evict (s := s.step e) (oversized s.handle.mailbox.highWaterMark frame)
          (by rw [heq, hpolicy]) (by rw [heq]; simpa using hopen) (by rw [heq]; exact hne)
          (by rw [heq]; exact lt_charge_oversized _ _) hclosing
      obtain ⟨v, hv, hpoise, hwritten⟩ :=
        poised_pop (by rw [huw, hp']) hui (by rw [huw, hsent]) (by rw [huc]; exact hpings) huclosing
      have hprefix := hpoised v _ (hu.trans hv) hpoise (by rw [hwritten, huw, hw])
      rw [List.filter_cons_of_pos (isData_frame _), unwritten, hcons, List.map_cons] at hprefix
      have hflight : s.inFlight = [] := by
        unfold inFlight
        rw [hp]
      rw [hflight, List.nil_append, List.cons_prefix_cons] at hprefix
      exact frame_ne_oversized _ _ hprefix.1
    · -- the writer pops one of the frames and the Close frame overtakes the others
      obtain ⟨u, hu, hpoise, hwritten⟩ :=
        poised_pop hp' (by rw [hitems, hcons]) hsent hpings hclosing
      have hlen := (hpoised u _ hu hpoise (by rw [hwritten, hw])).length_le
      have hle := length_filter_singleton_le frame.frame
      rw [length_unwritten] at hlen
      omega
  | panicked => exact hend.panicked hp
  | ended => exact hne (hend.ended hp).2

/-- In every connection on which no close is under way, and for every step that
    initiates a graceful one: the frames in the mailbox are written before the Close
    frame whatever the schedule, iff no Close frame can overtake. -/
theorem flushes_iff (highWaterMark : ℕ) (policy : BackpressurePolicy) (keepalive : Keepalive)
    (hs : (new highWaterMark policy keepalive).Leads s) (hquiet : s.Quiet) (he : s.Initiates e) :
    (∀ s', (s.step e).Leads s' → s.Flushed s') ↔ s.Drains := by
  have hend : s.EndsDrained := hs.invariant endsDrained_step (endsDrained_new _ _ _)
  exact ⟨drains_of_flushed hend hquiet he, fun h s' => flushed_of_drains hquiet he h⟩

end Connection

/-! ## One frame and a close -/

namespace Greeting

/-- The text message `hi`. -/
def hello : OutboundFrame := { data := [104, 105], isBinary := false }

/-- A new connection whose mailbox holds 1024 bytes. -/
def idle : Connection := .new 1024 .disconnect {}

/-- The writer has polled the control queue when the frame is queued. -/
def popping : Connection :=
  run Connection.step idle
    [.writer .accepted, .send 0 hello, .call 0, .close 1 ⟨closeNormal, "bye", true⟩]

theorem flushes_popping :
    popping.handle.mailbox.items = [hello] ∧
      ∀ s', (popping.step (.call 1)).Leads s' → popping.Flushed s' := by
  have hleads : idle.Leads popping := ⟨_, by simp [Connection.Accepts], rfl⟩
  refine ⟨rfl, (Connection.flushes_iff (e := .call 1) 1024 .disconnect {} hleads ?_ rfl).mpr ?_⟩
  · exact ⟨rfl, nofun, nofun, rfl⟩
  · exact Or.inr ⟨rfl, rfl, Or.inl nofun⟩

/-- The frame is queued and the writer is about to poll the control queue. -/
def queued : Connection :=
  run Connection.step idle [.send 0 hello, .call 0, .close 1 ⟨closeNormal, "bye", true⟩]

/-- The close, its Close frame, the reply of the peer and the end of the writer. -/
def closed : Connection :=
  run Connection.step (queued.step (.call 1))
    [.call 1, .writer .accepted, .writer .accepted, .reader .pending, .reader .pending,
      .reader (.ready (some (.ok (.close closeNormal "")))), .teardown, .writer .accepted,
      .writer .accepted, .writer .accepted, .writer .accepted, .writer .accepted]

theorem close_overtakes :
    queued.Quiet ∧ queued.Initiates (.call 1) ∧ (queued.step (.call 1)).Leads closed ∧
      queued.handle.mailbox.items = [hello] ∧
      closed.writer.written = [.close closeNormal "bye"] ∧
      closed.reported = some (closeNormal, "bye") ∧ ¬ queued.Flushed closed := by
  refine ⟨⟨rfl, nofun, nofun, rfl⟩, rfl, ⟨_, ?_, rfl⟩, rfl, rfl, rfl, ?_⟩
  · simp [Connection.Accepts]
  · intro h
    have hnil : [OutFrame.text [104, 105]] <+: [] := h.close [] closeNormal "bye" [] rfl
    exact absurd hnil (by decide)

end Greeting

end BeamSocket.Core
