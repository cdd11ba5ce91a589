import BeamSocket.Core.Rooms

/-!
# Fan-out

Model of `crates/core/src/broadcast.rs`: a payload is pushed to every recipient
of the target that is not excepted. The except list is searched linearly, or
sorted first and searched by bisection when both it and the target are large.

* `Exclusions.contains_new`: both representations decide membership.
* `pushed_foldl`: what a pass over distinct recipients does to every mailbox.
* `pushed_broadcastIn`: a broadcast pushes the frame once to every targeted
  connection that is not excepted, and touches no other, in whatever order the
  recipients are visited.
* `memberSet_broadcast`: it changes no room's members.
-/

namespace BeamSocket.Core

open BeamSocket.Lib

/-- `enum FanoutTarget` (lines 24–33). -/
inductive FanoutTarget
  | all
  | room (room : RoomId)
  | user (user : UserId)
  deriving DecidableEq, Repr

/-- `struct FanoutReport` (lines 38–48). -/
structure FanoutReport where
  attempted : ℕ
  queued : ℕ
  backpressured : ℕ
  missing : ℕ
  deriving DecidableEq, Repr

/-- `FanoutReport::default()`. -/
def FanoutReport.empty : FanoutReport := ⟨0, 0, 0, 0⟩

/-- `enum Exclusions` (lines 127–130). -/
inductive Exclusions (κ : Type*)
  | linear (except : List κ)
  | sorted (except : List κ)

variable {κ : Type*} [LinearOrder κ]

namespace Exclusions

/-- `Exclusions::new` (lines 133–141). -/
def new (except : List κ) (recipients : ℕ) : Exclusions κ :=
  if except.length ≥ 32 ∧ recipients ≥ 64 ∧ recipients ≥ except.length then
    .sorted (except.insertionSort (· ≤ ·))
  else .linear except

/-- `Exclusions::contains` (lines 143–148). -/
def contains (exclusions : Exclusions κ) (id : κ) : Bool :=
  match exclusions with
  | .linear except => except.contains id
  | .sorted except => binarySearch except id

theorem contains_new (except : List κ) (recipients : ℕ) (id : κ) :
    (new except recipients).contains id = true ↔ id ∈ except := by
  unfold new
  split_ifs
  · show binarySearch (except.insertionSort (· ≤ ·)) id = true ↔ _
    rw [binarySearch_iff (List.pairwise_insertionSort (· ≤ ·) except), List.mem_insertionSort]
  · exact List.contains_iff_mem

end Exclusions

/-- The tally of `push_one` (lines 149–160). -/
def FanoutReport.tally (report : FanoutReport) : PushOutcome → FanoutReport
  | .queued => { report with queued := report.queued + 1 }
  | .droppedNewest | .droppedOldest | .disconnect =>
    { report with backpressured := report.backpressured + 1 }
  | .closed => { report with missing := report.missing + 1 }

/-- One recipient of `fan_out_ids` (lines 108–117). -/
def fanOutStep (except : Exclusions κ) (frame : OutboundFrame)
    (st : Registry κ × FanoutReport) (id : κ) : Registry κ × FanoutReport :=
  if except.contains id then st
  else
    let (conns, report) :=
      match st.1.get id with
      | some _ =>
        let (conns, outcome) := st.1.push id frame
        (conns, st.2.tally outcome)
      | none => (st.1, { st.2 with missing := st.2.missing + 1 })
    (conns, { report with attempted := report.attempted + 1 })

/-- `fan_out_ids` (lines 99–119). -/
def fanOutIds (conns : Registry κ) (ids : List κ) (frame : OutboundFrame) (except : List κ) :
    Registry κ × FanoutReport :=
  ids.foldl (fanOutStep (.new except ids.length) frame) (conns, .empty)

/-- One recipient of the `All` target (lines 85–91): the handle is at hand. -/
def fanOutHandle (except : Exclusions κ) (frame : OutboundFrame)
    (st : Registry κ × FanoutReport) (id : κ) : Registry κ × FanoutReport :=
  if except.contains id then st
  else
    let (conns, outcome) := st.1.push id frame
    let report := st.2.tally outcome
    (conns, { report with attempted := report.attempted + 1 })

/-- `broadcast` (lines 52–94): the registry, the rooms with the target's message
    counter advanced, and the report. The maps are iterated in the order that `order`
    puts their keys in. -/
def broadcastIn (order : List κ → List κ) (conns : Registry κ) (rooms : RoomRegistry κ)
    (identity : IdentityRegistry κ) (target : FanoutTarget) (payload : Bytes) (isBinary : Bool)
    (except : List κ) : Registry κ × RoomRegistry κ × FanoutReport :=
  let frame : OutboundFrame := ⟨payload, isBinary⟩
  match target with
  | .room room =>
    match rooms.recordAndMembers room with
    | none => (conns, rooms, .empty)
    | some (members, rooms) =>
      let (conns, report) := fanOutIds conns (order members) frame except
      (conns, rooms, report)
  | .user user =>
    match identity.connections user with
    | none => (conns, rooms, .empty)
    | some devices =>
      let (conns, report) := fanOutIds conns (order devices) frame except
      (conns, rooms, report)
  | .all =>
    let handles := order conns.ids
    let (conns, report) :=
      handles.foldl (fanOutHandle (.new except handles.length) frame) (conns, .empty)
    (conns, rooms, report)

/-- `broadcast` where the order does not matter. -/
def broadcast (conns : Registry κ) (rooms : RoomRegistry κ) (identity : IdentityRegistry κ)
    (target : FanoutTarget) (payload : Bytes) (isBinary : Bool) (except : List κ) :
    Registry κ × RoomRegistry κ × FanoutReport :=
  broadcastIn id conns rooms identity target payload isBinary except

/-! ## What a broadcast does to the mailboxes -/

/-- `conns'` is `conns` with `frame` pushed once to every connection in `P`. -/
def Pushed (P : κ → Prop) [DecidablePred P] (frame : OutboundFrame) (conns conns' : Registry κ) :
    Prop :=
  ∀ id, conns'.lookup id = (conns.lookup id).map fun e => if P id then e.push frame else e

variable {P : κ → Prop} [DecidablePred P] {frame : OutboundFrame} {conns conns' : Registry κ}
  {except : List κ}

theorem Pushed.congr {P Q : κ → Prop} {_ : DecidablePred P} [DecidablePred Q]
    (h : Pushed P frame conns conns') (hPQ : ∀ id, id ∈ conns → (P id ↔ Q id)) :
    Pushed Q frame conns conns' := by
  intro id
  rw [h id]
  cases hid : conns.lookup id with
  | none => rfl
  | some e =>
    have hmem : id ∈ conns := AList.lookup_isSome.mp (by rw [hid]; rfl)
    simp only [Option.map_some, hPQ id hmem]

theorem lookup_fanOutStep (exclusions : Exclusions κ) (st : Registry κ × FanoutReport)
    (id id' : κ) :
    (fanOutStep exclusions frame st id).1.lookup id' = (st.1.lookup id').map fun e =>
      if id' = id then if exclusions.contains id then e else e.push frame else e := by
  unfold fanOutStep
  by_cases hexc : exclusions.contains id = true
  · simp [hexc]
  · rw [if_neg hexc]
    dsimp only
    cases hget : st.1.get id with
    | some h =>
      dsimp only
      rw [Registry.lookup_push]
      simp [hexc]
    | none =>
      have hnone : st.1.lookup id = none := Option.map_eq_none_iff.mp hget
      by_cases hid : id' = id
      · rw [hid, hnone]; rfl
      · simp [hid]

theorem lookup_fanOutHandle (exclusions : Exclusions κ) (st : Registry κ × FanoutReport)
    (id id' : κ) :
    (fanOutHandle exclusions frame st id).1.lookup id' = (st.1.lookup id').map fun e =>
      if id' = id then if exclusions.contains id then e else e.push frame else e := by
  unfold fanOutHandle
  by_cases hexc : exclusions.contains id = true
  · simp [hexc]
  · rw [if_neg hexc]
    dsimp only
    rw [Registry.lookup_push]
    simp [hexc]

/-- A pass over distinct recipients, by any step that pushes to the recipient it
    is at unless it is excepted. -/
theorem pushed_foldl {σ : Type*} {step : Registry κ × σ → κ → Registry κ × σ} {recipients : ℕ}
    (hstep : ∀ st id id', (step st id).1.lookup id' = (st.1.lookup id').map fun e =>
      if id' = id then
        if (Exclusions.new except recipients).contains id then e else e.push frame
      else e)
    {ids : List κ} (hnd : ids.Nodup) (s : σ) :
    Pushed (fun id => id ∈ ids ∧ id ∉ except) frame conns (ids.foldl step (conns, s)).1 := by
  intro id
  have hfold := lookup_foldl_update (f := fun id e =>
    if (Exclusions.new except recipients).contains id then e else e.push frame)
    hstep hnd (conns, s) id
  rw [hfold]
  congr 1
  funext e
  simp only [Exclusions.contains_new]
  by_cases hmem : id ∈ ids <;> by_cases hexc : id ∈ except <;> simp [hmem, hexc]

/-- Whether a live connection is a recipient of the target, before exceptions. -/
def Targeted (rooms : RoomRegistry κ) (identity : IdentityRegistry κ) : FanoutTarget → κ → Prop
  | .all, _ => True
  | .room room, id => id ∈ rooms.memberSet room
  | .user user, id => id ∈ identity.devices user

instance (rooms : RoomRegistry κ) (identity : IdentityRegistry κ) (target : FanoutTarget) :
    DecidablePred (Targeted rooms identity target) := fun id =>
  match target with
  | .all => isTrue trivial
  | .room room => inferInstanceAs (Decidable (id ∈ rooms.memberSet room))
  | .user user => inferInstanceAs (Decidable (id ∈ identity.devices user))

/-- A broadcast pushes the frame exactly once to every targeted connection that
    is not excepted, and changes no other mailbox, in any order. -/
theorem pushed_broadcastIn {order : List κ → List κ} (horder : ∀ ids, (order ids).Perm ids)
    (conns : Registry κ) (rooms : RoomRegistry κ) (identity : IdentityRegistry κ)
    (target : FanoutTarget) (payload : Bytes) (isBinary : Bool) (except : List κ) :
    Pushed (fun id => Targeted rooms identity target id ∧ id ∉ except) ⟨payload, isBinary⟩ conns
      (broadcastIn order conns rooms identity target payload isBinary except).1 := by
  have hnodup : ∀ {ids : List κ}, ids.Nodup → (order ids).Nodup := fun h =>
    (horder _).nodup_iff.mpr h
  cases target with
  | all =>
    have hpush : Pushed (fun id => id ∈ order conns.ids ∧ id ∉ except) ⟨payload, isBinary⟩ conns
        (broadcastIn order conns rooms identity .all payload isBinary except).1 :=
      pushed_foldl (fun st id id' => lookup_fanOutHandle _ st id id') (hnodup conns.keys_nodup) _
    refine hpush.congr fun id hid => ?_
    have hmem : id ∈ order conns.ids := (horder _).mem_iff.mpr (AList.mem_keys.mp hid)
    exact and_congr_left' ⟨fun _ => trivial, fun _ => hmem⟩
  | room room =>
    cases he : rooms.lookup room with
    | none =>
      have hset : rooms.memberSet room = ∅ := by rw [RoomRegistry.memberSet, he]
      intro id
      simp [broadcastIn, RoomRegistry.recordAndMembers, he, Targeted, hset]
    | some e =>
      have hset : rooms.memberSet room = e.members := by rw [RoomRegistry.memberSet, he]
      have hids : (broadcastIn order conns rooms identity (.room room) payload isBinary except).1 =
          (fanOutIds conns (order e.members.toList) ⟨payload, isBinary⟩ except).1 := by
        simp only [broadcastIn, RoomRegistry.recordAndMembers, he, Option.map_some]
      simp only [Targeted, hset, hids, OrdSet.mem_def, ← (horder e.members.toList).mem_iff]
      exact pushed_foldl (fun st id id' => lookup_fanOutStep _ st id id') (hnodup e.members.nodup) _
  | user user =>
    cases he : identity.lookup user with
    | none =>
      have hset : identity.devices user = ∅ := by rw [IdentityRegistry.devices, he]; rfl
      intro id
      simp [broadcastIn, IdentityRegistry.connections, he, Targeted, hset]
    | some set =>
      have hset : identity.devices user = set := by rw [IdentityRegistry.devices, he]; rfl
      have hids : (broadcastIn order conns rooms identity (.user user) payload isBinary except).1 =
          (fanOutIds conns (order set.toList) ⟨payload, isBinary⟩ except).1 := by
        simp only [broadcastIn, IdentityRegistry.connections, he, Option.map_some]
      simp only [Targeted, hset, hids, OrdSet.mem_def, ← (horder set.toList).mem_iff]
      exact pushed_foldl (fun st id id' => lookup_fanOutStep _ st id id') (hnodup set.nodup) _

theorem pushed_broadcast (conns : Registry κ) (rooms : RoomRegistry κ)
    (identity : IdentityRegistry κ) (target : FanoutTarget) (payload : Bytes) (isBinary : Bool)
    (except : List κ) :
    Pushed (fun id => Targeted rooms identity target id ∧ id ∉ except) ⟨payload, isBinary⟩ conns
      (broadcast conns rooms identity target payload isBinary except).1 :=
  pushed_broadcastIn (fun _ => List.Perm.refl _) conns rooms identity target payload isBinary except

/-- A broadcast leaves the members of every room as they are. -/
theorem memberSet_broadcast (rooms : RoomRegistry κ) (identity : IdentityRegistry κ)
    (target : FanoutTarget) (payload : Bytes) (isBinary : Bool) (except : List κ) (room : RoomId) :
    (broadcast conns rooms identity target payload isBinary except).2.1.memberSet room =
      rooms.memberSet room := by
  unfold broadcast
  cases target with
  | all => rfl
  | room r =>
    cases h : rooms.recordAndMembers r with
    | none => simp only [broadcastIn, h]
    | some x =>
      simp only [broadcastIn, h]
      exact rooms.memberSet_recordAndMembers h room
  | user u =>
    cases h : identity.connections u with
    | none => simp only [broadcastIn, h]
    | some x => simp only [broadcastIn, h]

end BeamSocket.Core
