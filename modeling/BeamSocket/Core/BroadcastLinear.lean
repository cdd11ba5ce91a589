import BeamSocket.Core.Broadcast

/-!
# Fan-out against the linear reference

The frozen reference `crates/core/benches/support/broadcast_linear.rs` scans the except
list for every recipient and closes a connection at its mailbox itself. Here it is
compared with `broadcastIn`, recipient by recipient, for every order in which the members
of a room, the devices of a user or the slots of the registry are visited: `order` is
applied to the list before the pass, by both.

* `Linear.pushOne_eq`: the two ways to push to a handle are the same.
* `broadcastIn_eq_linear`: the two fan-outs leave the same state and return the same
  report, which accounts for every recipient; and who receives a push.
-/

namespace BeamSocket.Core

open BeamSocket.Lib

variable {κ : Type*} [LinearOrder κ]

namespace Linear

/-- `push_one` of the reference (lines 118–133) on the handle of `id`. -/
def pushOne (conns : Registry κ) (id : κ) (frame : OutboundFrame) (report : FanoutReport) :
    Registry κ × FanoutReport :=
  match conns.lookup id with
  | none => (conns, { report with missing := report.missing + 1 })
  | some e =>
    let (mailbox, outcome) := e.handle.mailbox.push frame
    let handle := { e.handle with mailbox, pushes := e.handle.pushes ++ [frame] }
    match outcome with
    | .queued => (conns.insert id { e with handle }, { report with queued := report.queued + 1 })
    | .droppedNewest | .droppedOldest =>
      (conns.insert id { e with handle }, { report with backpressured := report.backpressured + 1 })
    | .disconnect =>
      (conns.insert id
        { e with handle := handle.initiateClose closeBackpressure "backpressure" true },
        { report with backpressured := report.backpressured + 1 })
    | .closed => (conns.insert id { e with handle }, { report with missing := report.missing + 1 })

/-- One recipient of `fan_out_ids` of the reference (lines 105–114). -/
def fanOutStep (except : List κ) (frame : OutboundFrame) (st : Registry κ × FanoutReport) (id : κ) :
    Registry κ × FanoutReport :=
  if except.contains id then st
  else
    let (conns, report) :=
      match st.1.get id with
      | some _ => pushOne st.1 id frame st.2
      | none => (st.1, { st.2 with missing := st.2.missing + 1 })
    (conns, { report with attempted := report.attempted + 1 })

/-- `fan_out_ids` of the reference (lines 97–116). -/
def fanOutIds (conns : Registry κ) (ids : List κ) (frame : OutboundFrame) (except : List κ) :
    Registry κ × FanoutReport :=
  ids.foldl (fanOutStep except frame) (conns, .empty)

/-- One recipient of the `All` target of the reference (lines 83–89). -/
def fanOutHandle (except : List κ) (frame : OutboundFrame) (st : Registry κ × FanoutReport)
    (id : κ) : Registry κ × FanoutReport :=
  if except.contains id then st
  else
    let (conns, report) := pushOne st.1 id frame st.2
    (conns, { report with attempted := report.attempted + 1 })

/-- `broadcast` of the reference (lines 54–92). -/
def broadcastIn (order : List κ → List κ) (conns : Registry κ) (rooms : RoomRegistry κ)
    (identity : IdentityRegistry κ) (target : FanoutTarget) (payload : Bytes) (isBinary : Bool)
    (except : List κ) : Registry κ × RoomRegistry κ × FanoutReport :=
  let frame : OutboundFrame := ⟨payload, isBinary⟩
  match target with
  | .room room =>
    match rooms.recordAndMembers room with
    | none => (conns, rooms, .empty)
    | some (members, rooms) =>
      let (conns, report) := fanOutIds conns (order members) frame except
      (conns, rooms, report)
  | .user user =>
    match identity.connections user with
    | none => (conns, rooms, .empty)
    | some devices =>
      let (conns, report) := fanOutIds conns (order devices) frame except
      (conns, rooms, report)
  | .all =>
    let (conns, report) := (order conns.ids).foldl (fanOutHandle except frame) (conns, .empty)
    (conns, rooms, report)

/-- `ConnHandle::push` is the push and the close of the reference. -/
theorem pushOne_eq (conns : Registry κ) (id : κ) (frame : OutboundFrame) (report : FanoutReport) :
    pushOne conns id frame report =
      ((conns.push id frame).1, report.tally (conns.push id frame).2) := by
  unfold pushOne Registry.push
  cases conns.lookup id with
  | none => rfl
  | some e =>
    dsimp only
    unfold Entry.push ConnHandle.push
    dsimp only
    cases (e.handle.mailbox.push frame).2 <;> rfl

/-- Both representations of the except list are the scan of the reference. -/
theorem contains_eq (except : List κ) (recipients : ℕ) (id : κ) :
    (Exclusions.new except recipients).contains id = except.contains id := by
  rw [Bool.eq_iff_iff, Exclusions.contains_new, List.contains_iff_mem]

theorem fanOutStep_eq (except : List κ) (recipients : ℕ) (frame : OutboundFrame) :
    Core.fanOutStep (.new except recipients) frame = fanOutStep except frame := by
  funext st id
  unfold Core.fanOutStep fanOutStep
  rw [contains_eq]
  cases st.1.get id with
  | none => rfl
  | some _ => simp only [pushOne_eq]

theorem fanOutHandle_eq (except : List κ) (recipients : ℕ) (frame : OutboundFrame) :
    Core.fanOutHandle (.new except recipients) frame = fanOutHandle except frame := by
  funext st id
  unfold Core.fanOutHandle fanOutHandle
  rw [contains_eq, pushOne_eq]

theorem fanOutIds_eq (conns : Registry κ) (ids : List κ) (frame : OutboundFrame) (except : List κ) :
    Core.fanOutIds conns ids frame except = fanOutIds conns ids frame except := by
  unfold Core.fanOutIds fanOutIds
  rw [fanOutStep_eq]

end Linear

/-! ## Accounts -/

/-- Every recipient is queued, backpressured or missing. -/
def FanoutReport.Balanced (report : FanoutReport) : Prop :=
  report.attempted = report.queued + report.backpressured + report.missing

theorem FanoutReport.balanced_tally {report : FanoutReport} (h : report.Balanced)
    (outcome : PushOutcome) :
    ({ report.tally outcome with attempted := (report.tally outcome).attempted + 1 }).Balanced := by
  unfold FanoutReport.Balanced at h ⊢
  cases outcome <;> simp only [FanoutReport.tally] <;> omega

theorem balanced_fanOutStep {except : Exclusions κ} {frame : OutboundFrame}
    {st : Registry κ × FanoutReport} (h : st.2.Balanced) (id : κ) :
    (fanOutStep except frame st id).2.Balanced := by
  unfold fanOutStep
  split_ifs
  · exact h
  · cases st.1.get id with
    | some handle => exact FanoutReport.balanced_tally h _
    | none => exact FanoutReport.balanced_tally h .closed

theorem balanced_fanOutHandle {except : Exclusions κ} {frame : OutboundFrame}
    {st : Registry κ × FanoutReport} (h : st.2.Balanced) (id : κ) :
    (fanOutHandle except frame st id).2.Balanced := by
  unfold fanOutHandle
  split_ifs
  · exact h
  · exact FanoutReport.balanced_tally h _

omit [LinearOrder κ] in
theorem balanced_foldl {step : Registry κ × FanoutReport → κ → Registry κ × FanoutReport}
    (hstep : ∀ st id, st.2.Balanced → (step st id).2.Balanced) (conns : Registry κ)
    (ids : List κ) : (ids.foldl step (conns, .empty)).2.Balanced := by
  have hgeneral : ∀ st : Registry κ × FanoutReport, st.2.Balanced →
      (ids.foldl step st).2.Balanced := by
    induction ids with
    | nil => exact fun st h => h
    | cons id ids ih => exact fun st h => ih (step st id) (hstep st id h)
  exact hgeneral _ rfl

/-! ## The two fan-outs -/

theorem balanced_broadcastIn (order : List κ → List κ) (conns : Registry κ)
    (rooms : RoomRegistry κ) (identity : IdentityRegistry κ) (target : FanoutTarget)
    (payload : Bytes) (isBinary : Bool) (except : List κ) :
    (broadcastIn order conns rooms identity target payload isBinary except).2.2.Balanced := by
  have hids : ∀ ids, (fanOutIds conns ids ⟨payload, isBinary⟩ except).2.Balanced := fun ids =>
    balanced_foldl (fun _ id h => balanced_fanOutStep h id) conns ids
  cases target with
  | all => exact balanced_foldl (fun _ id h => balanced_fanOutHandle h id) conns _
  | room room =>
    unfold broadcastIn
    dsimp only
    split
    · rfl
    · exact hids _
  | user user =>
    unfold broadcastIn
    dsimp only
    split
    · rfl
    · exact hids _

/-- The adaptive fan-out and the linear reference, on any state, target and except list:
    the same mailboxes, close latches, control queues, drop counters and message counters,
    and the same report. No excepted connection receives anything, every other live
    connection of the target receives one push, and the report accounts for all. -/
theorem broadcastIn_eq_linear (order : List κ → List κ) (horder : ∀ ids, (order ids).Perm ids)
    (conns : Registry κ) (rooms : RoomRegistry κ) (identity : IdentityRegistry κ)
    (target : FanoutTarget) (payload : Bytes) (isBinary : Bool) (except : List κ) :
    broadcastIn order conns rooms identity target payload isBinary except =
      Linear.broadcastIn order conns rooms identity target payload isBinary except ∧
    Pushed (fun id => Targeted rooms identity target id ∧ id ∉ except) ⟨payload, isBinary⟩ conns
      (broadcastIn order conns rooms identity target payload isBinary except).1 ∧
    (broadcastIn order conns rooms identity target payload isBinary except).2.2.attempted =
      (broadcastIn order conns rooms identity target payload isBinary except).2.2.queued +
      (broadcastIn order conns rooms identity target payload isBinary except).2.2.backpressured +
      (broadcastIn order conns rooms identity target payload isBinary except).2.2.missing := by
  refine ⟨?_, pushed_broadcastIn horder conns rooms identity target payload isBinary except,
    balanced_broadcastIn order conns rooms identity target payload isBinary except⟩
  unfold broadcastIn Linear.broadcastIn
  cases target with
  | all =>
    dsimp only
    rw [Linear.fanOutHandle_eq]
  | room room =>
    dsimp only
    cases rooms.recordAndMembers room with
    | none => rfl
    | some found =>
      dsimp only
      rw [Linear.fanOutIds_eq]
  | user user =>
    dsimp only
    cases identity.connections user with
    | none => rfl
    | some devices =>
      dsimp only
      rw [Linear.fanOutIds_eq]

/-- Two connections, visited from the last to the first. -/
theorem broadcastIn_eq_linear_reverse :
    let conns : Registry ℕ :=
      ((∅ : Registry ℕ).register 0 (.new 8 .disconnect) none).register 1 (.new 8 .dropOldest) none
    broadcastIn List.reverse conns ∅ ∅ .all [1, 2, 3] true [0, 0] =
        Linear.broadcastIn List.reverse conns ∅ ∅ .all [1, 2, 3] true [0, 0] ∧
      (broadcastIn List.reverse conns ∅ ∅ .all [1, 2, 3] true [0, 0]).2.2 = ⟨1, 1, 0, 0⟩ := by
  intro conns
  exact ⟨(broadcastIn_eq_linear List.reverse List.reverse_perm conns ∅ ∅ .all _ _ _).1, rfl⟩

end BeamSocket.Core
