import BeamSocket.Mesh.MembershipSync

/-!
# Push-pull over one link

Two nodes with a link between them exchange membership messages. Modelled are
`register` (`crates/mesh/src/node.rs`, lines 272–295), `on_inbound` for
MEMBERSHIP frames (lines 187–198), `send_to` (lines 249–254) and `digest_loop`
(lines 694–709), each cut where it takes or releases a lock: `register` inserts
the link, then takes the snapshot, then sends it; `on_inbound` merges under the
lock and looks the link up again to send the response, which is lost when the
own `register` has not inserted the link yet. The two directions of the link are
queues of frame bodies.

* `inv_step`, `Healing.moves`, `Spread.moves`: what one step keeps.
* `pushPull_heals`: when nothing is left in flight, each node holds the other
  as alive and both agree on every third member, if no message had 65536
  entries.
* `pushPull_full_table`: a table that knows every node id is never heard.
-/

namespace BeamSocket.Mesh

open BeamSocket.Lib

namespace PushPull

/-! ## The system -/

/-- How far `register` has come: before the insertion into `links`, before the
    snapshot, behind it. -/
inductive Join
  | unlinked
  | linked
  | synced
  deriving DecidableEq, Repr

/-- The tasks of a node that send membership messages. -/
inductive Task
  | register
  | reader
  | digest
  deriving DecidableEq, Repr

instance : Fintype Task := ⟨{.register, .reader, .digest}, fun t => by cases t <;> simp⟩

/-- One node, as far as this link is concerned. -/
structure Node where
  mem : Membership
  /-- `params.retransmit`. -/
  retransmit : ℕ
  join : Join
  /-- The message a task has built and not yet handed to `send_to`. -/
  held : Task → Option MembershipMsg

/-- Task `t` now has `msg` to hand to `send_to`. -/
def Node.hold (n : Node) (t : Task) (msg : Option MembershipMsg) : Node :=
  { n with held := Function.update n.held t msg }

/-- The nodes and, for each of them, the frame bodies on the way to it. -/
structure Pair where
  node : Bool → Node
  wire : Bool → List Bytes

/-- Node `s` is now `n`. -/
def Pair.setNode (x : Pair) (s : Bool) (n : Node) : Pair :=
  { x with node := Function.update x.node s n }

/-- The frames on their way to `s` are now `w`. -/
def Pair.setWire (x : Pair) (s : Bool) (w : List Bytes) : Pair :=
  { x with wire := Function.update x.wire s w }

/-- The steps of the tasks of node `s` (`node.rs`, lines 182–303 and 694–711). -/
inductive Event
  /-- `register` inserts the link. -/
  | register (s : Bool)
  /-- `register` takes the snapshot to push. -/
  | snapshot (s : Bool)
  /-- `digest_loop` builds its digest. -/
  | tick (s : Bool)
  /-- A task hands its message to `send_to`. -/
  | send (s : Bool) (t : Task)
  /-- The reader takes the next frame and applies it; `clock` are the times of
      the merges. -/
  | deliver (s : Bool) (clock : ℕ → Instant)

/-- What the reader does with a decoded message. -/
def Node.receive (n : Node) (msg : MembershipMsg) (clock : ℕ → Instant) : Node :=
  let applied := n.mem.apply msg n.retransmit clock
  { n.hold .reader applied.2 with mem := applied.1 }

/-- One step; one that its task is not ready for changes nothing. -/
def step (x : Pair) : Event → Pair
  | .register s =>
    if (x.node s).join = .unlinked then x.setNode s { x.node s with join := .linked } else x
  | .snapshot s =>
    if (x.node s).join = .linked then
      x.setNode s
        ({ x.node s with join := .synced }.hold .register
          (some (.sync true (x.node s).mem.fullState)))
    else x
  | .tick s =>
    if (x.node s).held .digest = none then
      x.setNode s ((x.node s).hold .digest (some (x.node s).mem.buildDigest))
    else x
  | .send s t =>
    match (x.node s).held t with
    | none => x
    | some msg =>
      let y := x.setNode s ((x.node s).hold t none)
      if (x.node s).join = .unlinked then y else y.setWire (!s) (x.wire (!s) ++ [msg.encode])
  | .deliver s clock =>
    match (x.node s).held .reader, x.wire s with
    | none, body :: rest =>
      match MembershipMsg.decode body with
      | none => x.setWire s rest
      | some msg => (x.setWire s rest).setNode s ((x.node s).receive msg clock)
    | _, _ => x

/-- Two nodes at the same point of `register`, nothing in flight. -/
def start (m : Bool → Membership) (retransmit : Bool → ℕ) (join : Join) : Pair where
  node s := { mem := m s, retransmit := retransmit s, join, held := fun _ => none }
  wire _ := []

/-- Both nodes are through `register` and nothing is in flight. -/
def Quiescent (x : Pair) : Prop :=
  ∀ s, (x.node s).join = .synced ∧ (∀ t, (x.node s).held t = none) ∧ x.wire s = []

/-- The message sent has fewer than 65536 entries. -/
def Fits (x : Pair) : Event → Prop
  | .send s t => ∀ msg ∈ (x.node s).held t, msg.count < 65536
  | _ => True

instance (x : Pair) : Decidable (Quiescent x) :=
  inferInstanceAs (Decidable (∀ s, (x.node s).join = .synced ∧ (∀ t, (x.node s).held t = none) ∧
    x.wire s = []))

instance (x : Pair) (e : Event) : Decidable (Fits x e) :=
  match e with
  | .send s t => inferInstanceAs (Decidable (∀ msg ∈ (x.node s).held t, msg.count < 65536))
  | .register _ => isTrue trivial
  | .snapshot _ => isTrue trivial
  | .tick _ => isTrue trivial
  | .deliver _ _ => isTrue trivial

/-! ## What a step can do -/

section

variable {x y : Pair} {s : Bool} {n : Node} {w : List Bytes} {e : Event} {t : Task}
  {msg : MembershipMsg} {o : Option MembershipMsg} {clock : ℕ → Instant}

@[simp] theorem setNode_node : (x.setNode s n).node s = n := Function.update_self ..

@[simp] theorem setNode_node_not : (x.setNode s n).node (!s) = x.node (!s) :=
  Function.update_of_ne (by simp) ..

@[simp] theorem setNode_wire : (x.setNode s n).wire = x.wire := rfl

@[simp] theorem setWire_node : (x.setWire s w).node = x.node := rfl

@[simp] theorem setWire_wire : (x.setWire s w).wire s = w := Function.update_self ..

@[simp] theorem setWire_wire_not : (x.setWire s w).wire (!s) = x.wire (!s) :=
  Function.update_of_ne (by simp) ..

@[simp] theorem setWire_not_wire : (x.setWire (!s) w).wire s = x.wire s :=
  Function.update_of_ne (by simp) ..

@[simp] theorem hold_held : (n.hold t o).held t = o := Function.update_self ..

theorem hold_held_of_ne {t' : Task} (h : t' ≠ t) : (n.hold t o).held t' = n.held t' :=
  Function.update_of_ne h ..

theorem held_hold {t' : Task} (h : (n.hold t o).held t' = some msg) :
    n.held t' = some msg ∨ o = some msg := by
  by_cases ht : t' = t
  · rw [ht, hold_held] at h
    exact .inr h
  · rw [hold_held_of_ne ht] at h
    exact .inl h

/-- What holds of every node and of the new one holds of every node after an
    update. -/
theorem forall_setNode {P : Bool → Node → Prop} (hkeep : ∀ s, P s (x.node s)) (hnew : P s n)
    (s' : Bool) : P s' ((x.setNode s n).node s') := by
  rcases Bool.eq_or_eq_not s' s with rfl | rfl
  · rw [setNode_node]
    exact hnew
  · rw [setNode_node_not]
    exact hkeep _

@[simp] theorem receive_held_reader :
    (n.receive msg clock).held .reader = (n.mem.apply msg n.retransmit clock).2 :=
  Function.update_self Task.reader _ n.held

theorem receive_held_of_ne (h : t ≠ .reader) : (n.receive msg clock).held t = n.held t :=
  Function.update_of_ne h ..

/-- The ways a step can go. -/
inductive Moves (x : Pair) : Event → Pair → Prop
  | idle (e : Event) : Moves x e x
  | register (s : Bool) (hjoin : (x.node s).join = .unlinked) :
      Moves x (.register s) (x.setNode s { x.node s with join := .linked })
  | snapshot (s : Bool) (hjoin : (x.node s).join = .linked) :
      Moves x (.snapshot s) (x.setNode s ({ x.node s with join := .synced }.hold .register
        (some (.sync true (x.node s).mem.fullState))))
  | tick (s : Bool) (hheld : (x.node s).held .digest = none) :
      Moves x (.tick s) (x.setNode s ((x.node s).hold .digest (some (x.node s).mem.buildDigest)))
  /-- There is no link to send on. -/
  | lost (s : Bool) (t : Task) (msg : MembershipMsg) (hheld : (x.node s).held t = some msg)
      (hjoin : (x.node s).join = .unlinked) :
      Moves x (.send s t) (x.setNode s ((x.node s).hold t none))
  | sent (s : Bool) (t : Task) (msg : MembershipMsg) (hheld : (x.node s).held t = some msg)
      (hjoin : (x.node s).join ≠ .unlinked) :
      Moves x (.send s t)
        ((x.setNode s ((x.node s).hold t none)).setWire (!s) (x.wire (!s) ++ [msg.encode]))
  | malformed (s : Bool) (clock : ℕ → Instant) (body : Bytes) (rest : List Bytes)
      (hwire : x.wire s = body :: rest) (hbody : MembershipMsg.decode body = none) :
      Moves x (.deliver s clock) (x.setWire s rest)
  | received (s : Bool) (clock : ℕ → Instant) (body : Bytes) (rest : List Bytes)
      (msg : MembershipMsg) (hheld : (x.node s).held .reader = none)
      (hwire : x.wire s = body :: rest) (hbody : MembershipMsg.decode body = some msg) :
      Moves x (.deliver s clock) ((x.setWire s rest).setNode s ((x.node s).receive msg clock))

theorem moves_step (x : Pair) (e : Event) : Moves x e (step x e) := by
  cases e with
  | register s =>
    unfold step
    dsimp only
    split_ifs with h
    · exact .register s h
    · exact .idle _
  | snapshot s =>
    unfold step
    dsimp only
    split_ifs with h
    · exact .snapshot s h
    · exact .idle _
  | tick s =>
    unfold step
    dsimp only
    split_ifs with h
    · exact .tick s h
    · exact .idle _
  | send s t =>
    unfold step
    dsimp only
    cases hheld : (x.node s).held t with
    | none => exact .idle _
    | some msg =>
      dsimp only
      split_ifs with h
      · exact .lost s t msg hheld h
      · exact .sent s t msg hheld h
  | deliver s clock =>
    unfold step
    dsimp only
    cases hheld : (x.node s).held .reader with
    | some msg => exact .idle _
    | none =>
      cases hwire : x.wire s with
      | nil => exact .idle _
      | cons body rest =>
        dsimp only
        cases hbody : MembershipMsg.decode body with
        | none => exact .malformed s clock body rest hwire hbody
        | some msg => exact .received s clock body rest msg hheld hwire hbody

/-! ### Messages on their way -/

/-- A message of `s` that its peer may still see. -/
def OnTheWay (x : Pair) (s : Bool) (msg : MembershipMsg) : Prop :=
  (∃ t, (x.node s).held t = some msg) ∨
    ∃ body ∈ x.wire (!s), MembershipMsg.decode body = some msg

/-- The task's message finds a link; `register` has one to send only behind its
    snapshot. -/
def Node.Departs (n : Node) : Task → Prop
  | .register => n.join = .synced
  | _ => n.join ≠ .unlinked

/-- A message of `s` that its peer will see. -/
def Heading (x : Pair) (s : Bool) (msg : MembershipMsg) : Prop :=
  (∃ t, (x.node s).held t = some msg ∧ (x.node s).Departs t) ∨
    ∃ body ∈ x.wire (!s), MembershipMsg.decode body = some msg

theorem Heading.onTheWay (h : Heading x s msg) : OnTheWay x s msg :=
  h.imp (fun ⟨t, hheld, _⟩ => ⟨t, hheld⟩) id

/-- The ways one node can go. -/
inductive NodeMoves (x : Pair) (s : Bool) : Node → Prop
  | idle : NodeMoves x s (x.node s)
  | register (hjoin : (x.node s).join = .unlinked) : NodeMoves x s { x.node s with join := .linked }
  | snapshot (hjoin : (x.node s).join = .linked) :
      NodeMoves x s ({ x.node s with join := .synced }.hold .register
        (some (.sync true (x.node s).mem.fullState)))
  | tick : NodeMoves x s ((x.node s).hold .digest (some (x.node s).mem.buildDigest))
  | sent (t : Task) : NodeMoves x s ((x.node s).hold t none)
  | received (msg : MembershipMsg) (clock : ℕ → Instant) (hmsg : OnTheWay x (!s) msg) :
      NodeMoves x s ((x.node s).receive msg clock)

theorem node_moves (hm : Moves x e y) (s : Bool) : NodeMoves x s (y.node s) := by
  have hidle : ∀ s, NodeMoves x s (x.node s) := fun s => .idle
  cases hm with
  | idle => exact hidle s
  | register s' hjoin => exact forall_setNode hidle (.register hjoin) s
  | snapshot s' hjoin => exact forall_setNode hidle (.snapshot hjoin) s
  | tick s' hheld => exact forall_setNode hidle .tick s
  | lost s' t msg hheld hjoin => exact forall_setNode hidle (.sent t) s
  | sent s' t msg hheld hjoin => exact forall_setNode hidle (.sent t) s
  | malformed s' clock body rest hwire hbody => exact hidle s
  | received s' clock body rest msg hheld hwire hbody =>
    have hmem : body ∈ x.wire (!(!s')) := by
      rw [Bool.not_not, hwire]
      exact List.mem_cons_self ..
    exact forall_setNode (x := x.setWire s' rest) hidle
      (.received msg clock (.inr ⟨body, hmem, hbody⟩)) s

/-- A table changes only by a message of the peer. -/
theorem NodeMoves.mem (hm : NodeMoves x s n) : n.mem = (x.node s).mem ∨
    ∃ msg clock, OnTheWay x (!s) msg ∧
      n.mem = ((x.node s).mem.apply msg (x.node s).retransmit clock).1 := by
  cases hm with
  | idle => exact .inl rfl
  | register hjoin => exact .inl rfl
  | snapshot hjoin => exact .inl rfl
  | tick => exact .inl rfl
  | sent t => exact .inl rfl
  | received msg clock hmsg => exact .inr ⟨msg, clock, hmsg, rfl⟩

/-- A held message was held before or repeats what the node holds. -/
theorem NodeMoves.held (hm : NodeMoves x s n) (h : n.held t = some msg) :
    (x.node s).held t = some msg ∨ ∀ u ∈ msg.updates, u ∈ n.mem.fullState := by
  cases hm with
  | idle => exact .inl h
  | register hjoin => exact .inl h
  | snapshot hjoin =>
    refine (held_hold h).imp id fun heq => ?_
    cases heq
    exact fun u hu => hu
  | tick =>
    refine (held_hold h).imp id fun heq => ?_
    cases heq
    exact fun u hu => absurd hu List.not_mem_nil
  | sent t' => exact (held_hold h).imp id fun heq => by cases heq
  | received msg' clock hmsg =>
    exact (held_hold h).imp id fun heq u hu => Membership.mem_fullState_of_response heq hu

/-- A frame in flight was in flight before or is one that its sender held. -/
theorem wire_moves {body : Bytes} (hm : Moves x e y) (h : body ∈ y.wire s) :
    body ∈ x.wire s ∨ ∃ t msg, e = .send (!s) t ∧ (x.node (!s)).held t = some msg ∧
      body = msg.encode := by
  cases hm with
  | idle => exact .inl h
  | register s' hjoin => exact .inl h
  | snapshot s' hjoin => exact .inl h
  | tick s' hheld => exact .inl h
  | lost s' t msg hheld hjoin => exact .inl h
  | sent s' t msg hheld hjoin =>
    rcases Bool.eq_or_eq_not s' s with rfl | rfl
    · rw [setWire_not_wire] at h
      exact .inl h
    · rw [Bool.not_not, setWire_wire, List.mem_append, List.mem_singleton] at h
      exact h.imp id fun hbody => ⟨t, msg, rfl, hheld, hbody⟩
  | malformed s' clock body' rest hwire hbody =>
    rcases Bool.eq_or_eq_not s s' with rfl | rfl
    · rw [setWire_wire] at h
      rw [hwire]
      exact .inl (List.mem_cons_of_mem _ h)
    · rw [setWire_wire_not] at h
      exact .inl h
  | received s' clock body' rest msg hheld hwire hbody =>
    rw [setNode_wire] at h
    rcases Bool.eq_or_eq_not s s' with rfl | rfl
    · rw [setWire_wire] at h
      rw [hwire]
      exact .inl (List.mem_cons_of_mem _ h)
    · rw [setWire_wire_not] at h
      exact .inl h

/-- What holds of the messages on their way and of those a node newly holds
    holds of the messages on their way after a step. -/
theorem onTheWay_moves {Q : MembershipMsg → Prop} (hm : Moves x e y) (hfits : Fits x e)
    (hold : ∀ msg, OnTheWay x s msg → Q msg)
    (hnew : ∀ t msg, (y.node s).held t = some msg → Q msg) (msg : MembershipMsg)
    (h : OnTheWay y s msg) : Q msg := by
  rcases h with ⟨t, hheld⟩ | ⟨body, hbody, hdec⟩
  · exact hnew t msg hheld
  · apply hold
    rcases wire_moves hm hbody with hwire | ⟨t, msg', rfl, hheld, rfl⟩
    · exact .inr ⟨body, hwire, hdec⟩
    · -- the sender held this very message, because it fits its count
      rw [Bool.not_not] at hheld
      have hcount : msg'.count < 65536 := hfits msg' (by rwa [Bool.not_not])
      rw [MembershipMsg.decode_encode hcount] at hdec
      cases hdec
      exact .inl ⟨t, hheld⟩

theorem Node.Departs.linked (h : n.Departs t) : n.join ≠ .unlinked := by
  cases t with
  | register =>
    have hjoin : n.join = .synced := h
    rw [hjoin]
    decide
  | reader => exact h
  | digest => exact h

/-- A held message that will be sent stays so until it is sent. -/
theorem held_departs_moves (hm : Moves x e y) (hheld : (x.node s).held t = some msg)
    (hdep : (x.node s).Departs t) :
    (y.node s).held t = some msg ∧ (y.node s).Departs t ∨
      e = .send s t ∧ msg.encode ∈ y.wire (!s) := by
  cases hm with
  | idle => exact .inl ⟨hheld, hdep⟩
  | register s' hjoin =>
    rcases Bool.eq_or_eq_not s s' with rfl | rfl
    · exact absurd hjoin hdep.linked
    · rw [setNode_node_not]
      exact .inl ⟨hheld, hdep⟩
  | snapshot s' hjoin =>
    rcases Bool.eq_or_eq_not s s' with rfl | rfl
    · have ht : t ≠ .register := by
        rintro rfl
        have hsynced : (x.node s).join = .synced := hdep
        rw [hjoin] at hsynced
        cases hsynced
      rw [setNode_node, hold_held_of_ne ht]
      refine .inl ⟨hheld, ?_⟩
      cases t with
      | register => exact absurd rfl ht
      | reader => exact nofun
      | digest => exact nofun
    · rw [setNode_node_not]
      exact .inl ⟨hheld, hdep⟩
  | tick s' hnone =>
    rcases Bool.eq_or_eq_not s s' with rfl | rfl
    · have ht : t ≠ .digest := by
        rintro rfl
        rw [hnone] at hheld
        cases hheld
      rw [setNode_node, hold_held_of_ne ht]
      exact .inl ⟨hheld, by cases t <;> exact hdep⟩
    · rw [setNode_node_not]
      exact .inl ⟨hheld, hdep⟩
  | lost s' t' msg' hheld' hjoin =>
    rcases Bool.eq_or_eq_not s s' with rfl | rfl
    · exact absurd hjoin hdep.linked
    · rw [setNode_node_not]
      exact .inl ⟨hheld, hdep⟩
  | sent s' t' msg' hheld' hjoin =>
    rcases Bool.eq_or_eq_not s s' with rfl | rfl
    · by_cases ht : t = t'
      · subst ht
        rw [hheld] at hheld'
        cases hheld'
        rw [setWire_wire]
        exact .inr ⟨rfl, List.mem_append_right _ (List.mem_singleton_self _)⟩
      · rw [setWire_node, setNode_node, hold_held_of_ne ht]
        exact .inl ⟨hheld, by cases t <;> exact hdep⟩
    · rw [setWire_node, setNode_node_not]
      exact .inl ⟨hheld, hdep⟩
  | malformed => exact .inl ⟨hheld, hdep⟩
  | received s' clock body rest msg' hnone hwire hbody =>
    rcases Bool.eq_or_eq_not s s' with rfl | rfl
    · have ht : t ≠ .reader := by
        rintro rfl
        rw [hnone] at hheld
        cases hheld
      rw [setNode_node, receive_held_of_ne ht]
      exact .inl ⟨hheld, by cases t <;> exact hdep⟩
    · rw [setNode_node_not, setWire_node]
      exact .inl ⟨hheld, hdep⟩

/-- A frame in flight stays so until the receiver applies it. -/
theorem wire_persists {body : Bytes} (hm : Moves x e y) (hbody : body ∈ x.wire s)
    (hdec : MembershipMsg.decode body = some msg) :
    body ∈ y.wire s ∨ ∃ clock, y.node s = (x.node s).receive msg clock := by
  cases hm with
  | idle => exact .inl hbody
  | register s' hjoin => exact .inl hbody
  | snapshot s' hjoin => exact .inl hbody
  | tick s' hheld => exact .inl hbody
  | lost s' t msg hheld hjoin => exact .inl hbody
  | sent s' t msg hheld hjoin =>
    left
    rcases Bool.eq_or_eq_not s' s with rfl | rfl
    · rwa [setWire_not_wire]
    · rw [Bool.not_not, setWire_wire]
      exact List.mem_append_left _ hbody
  | malformed s' clock body' rest hwire hbody' =>
    left
    rcases Bool.eq_or_eq_not s s' with rfl | rfl
    · rw [hwire] at hbody
      rcases List.mem_cons.mp hbody with rfl | hrest
      · rw [hbody'] at hdec
        cases hdec
      · rwa [setWire_wire]
    · rwa [setWire_wire_not]
  | received s' clock body' rest msg' hheld hwire hbody' =>
    rcases Bool.eq_or_eq_not s s' with rfl | rfl
    · rw [hwire] at hbody
      rcases List.mem_cons.mp hbody with rfl | hrest
      · rw [hbody'] at hdec
        cases hdec
        exact .inr ⟨clock, setNode_node⟩
      · rw [setNode_wire, setWire_wire]
        exact .inl hrest
    · rw [setNode_wire, setWire_wire_not]
      exact .inl hbody

/-- A message that will be seen stays so until the receiver applies it. -/
theorem Heading.moves (h : Heading x s msg) (hm : Moves x e y) (hfits : Fits x e) :
    Heading y s msg ∨ ∃ clock, y.node (!s) = (x.node (!s)).receive msg clock := by
  rcases h with ⟨t, hheld, hdep⟩ | ⟨body, hbody, hdec⟩
  · left
    rcases held_departs_moves hm hheld hdep with h | ⟨rfl, h⟩
    · exact .inl ⟨t, h⟩
    · exact .inr ⟨msg.encode, h, MembershipMsg.decode_encode (hfits msg hheld)⟩
  · exact (wire_persists hm hbody hdec).imp (fun h => .inr ⟨body, h, hdec⟩) id

end

/-! ## What the nodes can come to hold -/

/-- Membership tables of two nodes, with incarnations below `u32::MAX`. No table
    lists its own node: `new` starts empty and `merge` keeps it so. -/
structure Tables (m₀ : Bool → Membership) : Prop where
  distinct : ∀ s, (m₀ s).selfId ≠ (m₀ !s).selfId
  unlisted : ∀ s, (m₀ s).selfId ∉ (m₀ s).members
  incs : ∀ s, ∀ u ∈ (m₀ s).fullState, u.inc.toNat < 2 ^ 32 - 1

/-- A node that is neither of the two. -/
def Third (m₀ : Bool → Membership) (c : NodeId) : Prop := ∀ s, c ≠ (m₀ s).selfId

/-- What `s` can tell: itself as alive, its peer as alive or as its first table
    has it, a third member as one of the first tables has it. -/
structure Told (m₀ : Bool → Membership) (s : Bool) (u : Update) : Prop where
  self : u.id = (m₀ s).selfId → u.state = .alive
  peer : u.id = (m₀ !s).selfId → u.state = .alive ∨ (m₀ s).standing u.id = u.standing
  third : Third m₀ u.id → ∃ t, (m₀ t).standing u.id = u.standing

/-- What `s` can come to hold. -/
structure Holds (m₀ : Bool → Membership) (s : Bool) (m : Membership) : Prop where
  selfId : m.selfId = (m₀ s).selfId
  unlisted : m.standing m.selfId = ⊥
  peer : m.standing (m₀ !s).selfId = (m₀ s).standing (m₀ !s).selfId ∨
    ∃ i, m.standing (m₀ !s).selfId = (⟨i, .alive⟩ : Standing)
  third : ∀ c, Third m₀ c → ∃ t, m.standing c = (m₀ t).standing c
  third_le : ∀ c, (m₀ s).standing c ≤ m.standing c

section

variable {m₀ : Bool → Membership} {x y : Pair} {s : Bool} {e : Event} {m : Membership}
  {msg : MembershipMsg} {u : Update} {c : NodeId} {retransmit : ℕ} {clock : ℕ → Instant}

/-- Every node is the one, the other or a third. -/
theorem self_or_peer_or_third (m₀ : Bool → Membership) (s : Bool) (c : NodeId) :
    c = (m₀ s).selfId ∨ c = (m₀ !s).selfId ∨ Third m₀ c := by
  by_cases hs : c = (m₀ s).selfId
  · exact .inl hs
  · by_cases hp : c = (m₀ !s).selfId
    · exact .inr (.inl hp)
    · refine .inr (.inr fun t => ?_)
      rcases Bool.eq_or_eq_not t s with rfl | rfl
      · exact hs
      · exact hp

theorem Tables.holds (h : Tables m₀) (s : Bool) : Holds m₀ s (m₀ s) where
  selfId := rfl
  unlisted := by
    by_contra hne
    exact h.unlisted s ((Membership.mem_members_iff _).mpr hne)
  peer := .inl rfl
  third _ _ := ⟨s, rfl⟩
  third_le _ := le_rfl

theorem Holds.told (h : Tables m₀) (hm : Holds m₀ s m) (hu : u ∈ m.fullState) : Told m₀ s u := by
  rcases Membership.standing_of_mem_fullState hu with hst | rfl
  · refine ⟨fun hself => ?_, fun hpeer => ?_, fun hthird => ?_⟩
    · have hbot := hm.unlisted
      rw [hm.selfId, ← hself, hst] at hbot
      cases hbot
    · rw [hpeer] at hst ⊢
      rcases hm.peer with hp | ⟨i, hp⟩
      · exact .inr (hp.symm.trans hst)
      · left
        rw [hp, WithBot.coe_inj] at hst
        exact (congrArg Standing.state hst).symm
    · obtain ⟨t, ht⟩ := hm.third _ hthird
      exact ⟨t, ht.symm.trans hst⟩
  · have hid : m.selfUpdate.id = (m₀ s).selfId := hm.selfId
    refine ⟨fun _ => rfl, fun hpeer => ?_, fun hthird => ?_⟩
    · exact absurd (hid.symm.trans hpeer) (h.distinct s)
    · exact absurd hid (hthird s)

/-- A non-alive claim has an incarnation of a first table. -/
theorem Told.inc_lt (h : Tables m₀) (hu : Told m₀ s u) (hdown : u.state ≠ .alive) :
    u.inc.toNat < 2 ^ 32 - 1 := by
  have hfirst : ∃ t, (m₀ t).standing u.id = u.standing := by
    rcases self_or_peer_or_third m₀ s u.id with hself | hpeer | hthird
    · exact absurd (hu.self hself) hdown
    · exact ⟨s, (hu.peer hpeer).resolve_left hdown⟩
    · exact hu.third hthird
  obtain ⟨t, ht⟩ := hfirst
  obtain ⟨v, hv, -, hst⟩ := Membership.exists_mem_fullState ht
  have hinc : v.inc = u.inc := congrArg Standing.inc hst
  rw [← hinc]
  exact h.incs t v hv

theorem Holds.apply (hm : Holds m₀ s m) (hmsg : ∀ u ∈ msg.updates, Told m₀ (!s) u) :
    Holds m₀ s (m.apply msg retransmit clock).1 where
  selfId := Membership.selfId_apply.trans hm.selfId
  unlisted := by
    rw [Membership.selfId_apply]
    rcases Membership.standing_apply_cases m.selfId with hkeep | ⟨hne, -⟩
    · rw [hkeep, hm.unlisted]
    · exact absurd rfl hne
  peer := by
    rcases Membership.standing_apply_cases (m₀ !s).selfId with hkeep | ⟨-, u, hu, hid, hst⟩
    · rw [hkeep]
      exact hm.peer
    · right
      have halive := (hmsg u hu).self hid
      exact ⟨u.inc, hst.trans (by rw [Update.standing, halive])⟩
  third c hc := by
    rcases Membership.standing_apply_cases c with hkeep | ⟨-, u, hu, rfl, hst⟩
    · rw [hkeep]
      exact hm.third c hc
    · obtain ⟨t, ht⟩ := (hmsg u hu).third hc
      exact ⟨t, hst.trans ht.symm⟩
  third_le c := (hm.third_le c).trans Membership.standing_le_apply

/-- Every node holds, and every message tells, what the first tables allow. -/
structure Inv (m₀ : Bool → Membership) (x : Pair) : Prop where
  holds : ∀ s, Holds m₀ s (x.node s).mem
  told : ∀ s msg, OnTheWay x s msg → ∀ u ∈ msg.updates, Told m₀ s u

theorem inv_start (h : Tables m₀) (retransmit : Bool → ℕ) (join : Join) :
    Inv m₀ (start m₀ retransmit join) where
  holds s := h.holds s
  told s msg hmsg := by
    rcases hmsg with ⟨t, ht⟩ | ⟨body, hbody, -⟩
    · cases ht
    · cases hbody

theorem NodeMoves.holds {n : Node} (hi : Inv m₀ x) (hm : NodeMoves x s n) : Holds m₀ s n.mem := by
  rcases hm.mem with hmem | ⟨msg, clock, hmsg, hmem⟩
  · rw [hmem]
    exact hi.holds s
  · rw [hmem]
    exact (hi.holds s).apply (hi.told (!s) msg hmsg)

theorem Inv.moves (h : Tables m₀) (hi : Inv m₀ x) (hm : Moves x e y) (hfits : Fits x e) :
    Inv m₀ y where
  holds s := (node_moves hm s).holds hi
  told s := onTheWay_moves hm hfits (hi.told s) fun t msg hheld u hu => by
    rcases (node_moves hm s).held hheld with hold | hnew
    · exact hi.told s msg (.inl ⟨t, hold⟩) u hu
    · exact ((node_moves hm s).holds hi).told h (hnew u hu)

/-- Nodes that hold at least what the other first held of `c` agree on it. -/
theorem Inv.agree (hi : Inv m₀ x) (hc : Third m₀ c)
    (hknown : ∀ s, (m₀ s).standing c ≤ (x.node !s).mem.standing c) :
    (x.node true).mem.standing c = (x.node false).mem.standing c := by
  have hall : ∀ s t, (m₀ t).standing c ≤ (x.node s).mem.standing c := by
    intro s t
    rcases Bool.eq_or_eq_not s t with rfl | rfl
    · exact (hi.holds s).third_le c
    · exact hknown t
  apply le_antisymm
  · obtain ⟨t, ht⟩ := (hi.holds true).third c hc
    rw [ht]
    exact hall false t
  · obtain ⟨t, ht⟩ := (hi.holds false).third c hc
    rw [ht]
    exact hall true t

/-! ## The peer comes back to life -/

/-- Why `s` holds its peer as alive or will: its first claim was or will be
    pushed, and the peer's refutation of it was or will be. -/
inductive Healing (m₀ : Bool → Membership) (x : Pair) (s : Bool) : Prop
  | healed (i : UInt32)
      (h : (x.node s).mem.standing (m₀ !s).selfId = (⟨i, .alive⟩ : Standing))
  /-- `s` has yet to push its claim. -/
  | unasked (d : Standing) (hjoin : (x.node s).join ≠ .synced) (hdown : d.state ≠ .alive)
      (h : (m₀ s).standing (m₀ !s).selfId = d)
  | asked (us : List Update) (u : Update) (hmsg : Heading x s (.sync true us)) (hu : u ∈ us)
      (hid : u.id = (m₀ !s).selfId) (hdown : u.state ≠ .alive)
      (h : (m₀ s).standing (m₀ !s).selfId = u.standing)
  | answered (msg : MembershipMsg) (u : Update) (hmsg : Heading x (!s) msg)
      (hu : u ∈ msg.updates) (hid : u.id = (m₀ !s).selfId)
      (h : (m₀ s).standing (m₀ !s).selfId < u.standing)
  /-- The peer is above the claim and has yet to push. -/
  | refuted (hjoin : (x.node !s).join ≠ .synced)
      (h : (m₀ s).standing (m₀ !s).selfId < (x.node !s).mem.selfUpdate.standing)

theorem healing_start (m₀ : Bool → Membership) (retransmit : Bool → ℕ) (s : Bool) :
    Healing m₀ (start m₀ retransmit .unlinked) s := by
  cases hst : (m₀ s).standing (m₀ !s).selfId with
  | bot =>
    refine .refuted nofun ?_
    rw [hst]
    exact WithBot.bot_lt_coe _
  | coe d =>
    by_cases hdown : d.state = .alive
    · exact .healed d.inc (hst.trans (by rw [← hdown]))
    · exact .unasked d nofun hdown hst

/-- Hearing a claim puts the own incarnation above it; it never sinks. -/
theorem selfUpdate_lt_apply {v : WithBot Standing} (h : Tables m₀)
    (hmsg : ∀ u ∈ msg.updates, Told m₀ s u)
    (hv : v < m.selfUpdate.standing ∨
      ∃ u ∈ msg.updates, u.id = m.selfId ∧ u.state ≠ .alive ∧ v = u.standing) :
    v < (m.apply msg retransmit clock).1.selfUpdate.standing := by
  have hinc : (m.apply msg retransmit clock).1.selfInc.toNat = _ :=
    Membership.selfInc_apply fun u hu hdown => (hmsg u hu).inc_lt h hdown
  rcases hv with hlt | ⟨u, hu, hid, hdown, rfl⟩
  · refine lt_of_lt_of_le hlt (WithBot.coe_le_coe.mpr (Standing.mk_le_mk ?_))
    show m.selfInc.toNat ≤ _
    exact hinc ▸ le_sup_left
  · have hle : u.inc.toNat + 1 ≤ (m.apply msg retransmit clock).1.selfInc.toNat := by
      rw [hinc]
      refine le_trans ?_ le_sup_right
      refine Finset.le_sup (f := fun u : Update => u.inc.toNat + 1) ?_
      exact Finset.mem_filter.mpr ⟨List.mem_toFinset.mpr hu, hid, hdown⟩
    refine WithBot.coe_lt_coe.mpr (Standing.lt_iff.mpr (.inl ?_))
    exact UInt32.lt_iff_toNat_lt.mpr hle

/-- A node that has not pushed yet takes its snapshot or stays so. -/
theorem NodeMoves.unsynced {n : Node} (hm : NodeMoves x s n) (h : (x.node s).join ≠ .synced) :
    n.join ≠ .synced ∨ n.mem = (x.node s).mem ∧
      n.held .register = some (.sync true (x.node s).mem.fullState) ∧ n.join = .synced := by
  cases hm with
  | idle => exact .inl h
  | register hjoin => exact .inl nofun
  | snapshot hjoin => exact .inr ⟨rfl, hold_held, rfl⟩
  | tick => exact .inl h
  | sent t => exact .inl h
  | received msg clock hmsg => exact .inl h

/-- A peer held as alive stays alive: only the peer speaks for itself. -/
theorem NodeMoves.alive {n : Node} {i : UInt32} (hm : NodeMoves x s n) (hi : Inv m₀ x)
    (h : (x.node s).mem.standing (m₀ !s).selfId = (⟨i, .alive⟩ : Standing)) :
    ∃ j, n.mem.standing (m₀ !s).selfId = (⟨j, .alive⟩ : Standing) := by
  rcases hm.mem with hmem | ⟨msg, clock, hmsg, hmem⟩
  · rw [hmem]
    exact ⟨i, h⟩
  · rw [hmem]
    rcases Membership.standing_apply_cases (m₀ !s).selfId with hkeep | ⟨-, u, hu, hid, hst⟩
    · exact ⟨i, hkeep.trans h⟩
    · have halive := (hi.told (!s) msg hmsg u hu).self hid
      exact ⟨u.inc, hst.trans (by rw [Update.standing, halive])⟩

theorem NodeMoves.selfUpdate_lt {n : Node} {v : WithBot Standing} (hm : NodeMoves x s n)
    (h : Tables m₀) (hi : Inv m₀ x) (hv : v < (x.node s).mem.selfUpdate.standing) :
    v < n.mem.selfUpdate.standing := by
  rcases hm.mem with hmem | ⟨msg, clock, hmsg, hmem⟩
  · rw [hmem]
    exact hv
  · rw [hmem]
    exact selfUpdate_lt_apply h (hi.told (!s) msg hmsg) (.inl hv)

theorem Healing.moves (h : Tables m₀) (hi : Inv m₀ x) (hm : Moves x e y) (hfits : Fits x e)
    (hh : Healing m₀ x s) : Healing m₀ y s := by
  cases hh with
  | healed i hst =>
    obtain ⟨j, hj⟩ := (node_moves hm s).alive hi hst
    exact .healed j hj
  | unasked d hjoin hdown hst =>
    rcases (node_moves hm s).unsynced hjoin with hjoin' | ⟨hmem, hheld, hjoin'⟩
    · exact .unasked d hjoin' hdown hst
    · -- the snapshot has the claim, unless the peer is back already
      rcases (hi.holds s).peer with hpeer | ⟨i, hpeer⟩
      · obtain ⟨u, hu, hid, hust⟩ := Membership.exists_mem_fullState (hpeer.trans hst)
        refine .asked _ u (.inl ⟨.register, hheld, hjoin'⟩) hu hid ?_ (hst.trans (by rw [hust]))
        rw [← hust] at hdown
        exact hdown
      · exact .healed i (hmem ▸ hpeer)
  | asked us u hmsg hu hid hdown hst =>
    rcases hmsg.moves hm hfits with hmsg' | ⟨clock, hy⟩
    · exact .asked us u hmsg' hu hid hdown hst
    · have habove : (m₀ s).standing (m₀ !s).selfId < (y.node !s).mem.selfUpdate.standing := by
        rw [hy]
        refine selfUpdate_lt_apply h (hi.told s _ hmsg.onTheWay) (.inr ⟨u, hu, ?_, hdown, hst⟩)
        rw [hid, (hi.holds !s).selfId]
      by_cases hjoin : (y.node !s).join = .synced
      · refine .answered (.sync false (y.node !s).mem.fullState) (y.node !s).mem.selfUpdate
          (.inl ⟨.reader, ?_, ?_⟩) Membership.selfUpdate_mem_fullState ?_ habove
        · rw [hy, receive_held_reader]
          rfl
        · show (y.node !s).join ≠ .unlinked
          rw [hjoin]
          decide
        · exact ((hi.moves h hm hfits).holds !s).selfId
      · exact .refuted hjoin habove
  | answered msg u hmsg hu hid hlt =>
    rcases hmsg.moves hm hfits with hmsg' | ⟨clock, hy⟩
    · exact .answered msg u hmsg' hu hid hlt
    · rw [Bool.not_not] at hy
      rcases ((hi.moves h hm hfits).holds s).peer with hpeer | ⟨i, hpeer⟩
      · have hle : (u.standing : WithBot Standing) ≤ (y.node s).mem.standing u.id := by
          rw [hy]
          refine Membership.update_standing_le_apply hu ?_
          rw [hid, (hi.holds s).selfId]
          exact (h.distinct s).symm
        rw [hid, hpeer] at hle
        exact absurd hlt (not_lt.mpr hle)
      · exact .healed i hpeer
  | refuted hjoin hlt =>
    rcases (node_moves hm !s).unsynced hjoin with hjoin' | ⟨hmem, hheld, hjoin'⟩
    · exact .refuted hjoin' ((node_moves hm !s).selfUpdate_lt h hi hlt)
    · exact .answered _ _ (.inl ⟨.register, hheld, hjoin'⟩) Membership.selfUpdate_mem_fullState
        (hi.holds !s).selfId hlt

/-! ## Third members spread -/

/-- Why what `s` first held of `c` is known to its peer or will be. -/
inductive Spread (m₀ : Bool → Membership) (x : Pair) (s : Bool) (c : NodeId) : Prop
  | known (h : (m₀ s).standing c ≤ (x.node !s).mem.standing c)
  | unpushed (hjoin : (x.node s).join ≠ .synced)
  | pushed (msg : MembershipMsg) (u : Update) (hmsg : Heading x s msg) (hu : u ∈ msg.updates)
      (hid : u.id = c) (h : (m₀ s).standing c ≤ u.standing)

theorem NodeMoves.standing_le {n : Node} (hm : NodeMoves x s n) (c : NodeId) :
    (x.node s).mem.standing c ≤ n.mem.standing c := by
  rcases hm.mem with hmem | ⟨msg, clock, -, hmem⟩
  · rw [hmem]
  · rw [hmem]
    exact Membership.standing_le_apply

theorem Spread.moves (hi : Inv m₀ x) (hm : Moves x e y) (hfits : Fits x e) (hc : Third m₀ c)
    (hs : Spread m₀ x s c) : Spread m₀ y s c := by
  cases hs with
  | known h => exact .known (h.trans ((node_moves hm !s).standing_le c))
  | unpushed hjoin =>
    rcases (node_moves hm s).unsynced hjoin with hjoin' | ⟨hmem, hheld, hjoin'⟩
    · exact .unpushed hjoin'
    · have hle := (hi.holds s).third_le c
      cases hst : (x.node s).mem.standing c with
      | bot =>
        rw [hst, le_bot_iff] at hle
        exact .known (hle ▸ bot_le)
      | coe d =>
        obtain ⟨u, hu, hid, hust⟩ := Membership.exists_mem_fullState hst
        refine .pushed _ u (.inl ⟨.register, hheld, hjoin'⟩) hu hid ?_
        rwa [hust, ← hst]
  | pushed msg u hmsg hu hid h =>
    rcases hmsg.moves hm hfits with hmsg' | ⟨clock, hy⟩
    · exact .pushed msg u hmsg' hu hid h
    · refine .known (h.trans ?_)
      rw [hy, ← hid]
      refine Membership.update_standing_le_apply hu ?_
      rw [hid, (hi.holds !s).selfId]
      exact hc !s

/-! ## Runs -/

theorem not_heading_of_quiescent (hq : Quiescent x) : ¬ Heading x s msg := by
  rintro (⟨t, hheld, -⟩ | ⟨body, hbody, -⟩)
  · rw [(hq s).2.1 t] at hheld
    cases hheld
  · rw [(hq !s).2.2] at hbody
    cases hbody

/-- When nothing is left in flight, each node holds the other as alive and the
    two agree on every third member, in every run in which no message had 65536
    entries. -/
theorem pushPull_heals (m₀ : Bool → Membership) (retransmit : Bool → ℕ) (evs : List Event)
    (h : Tables m₀) (hfits : StepsMeet step Fits (start m₀ retransmit .unlinked) evs)
    (hquiet : Quiescent (run step (start m₀ retransmit .unlinked) evs)) :
    let x := run step (start m₀ retransmit .unlinked) evs
    (∀ s, ∃ i, (x.node s).mem.standing (m₀ !s).selfId = (⟨i, .alive⟩ : Standing)) ∧
    ∀ c, Third m₀ c → (x.node true).mem.standing c = (x.node false).mem.standing c := by
  set x := run step (start m₀ retransmit .unlinked) evs with hx
  obtain ⟨hi, hheal, hspread⟩ : Inv m₀ x ∧ (∀ s, Healing m₀ x s) ∧
      ∀ s c, Third m₀ c → Spread m₀ x s c := by
    refine run_invariant_of_stepsMeet (I := fun x => Inv m₀ x ∧ (∀ s, Healing m₀ x s) ∧
      ∀ s c, Third m₀ c → Spread m₀ x s c) ?_ ?_ hfits
    · rintro x e ⟨hi, hheal, hspread⟩ hfits
      have hm := moves_step x e
      exact ⟨hi.moves h hm hfits, fun s => (hheal s).moves h hi hm hfits,
        fun s c hc => (hspread s c hc).moves hi hm hfits hc⟩
    · exact ⟨inv_start h retransmit _, healing_start m₀ retransmit, fun s c _ => .unpushed nofun⟩
  refine ⟨fun s => ?_, fun c hc => ?_⟩
  · cases hheal s with
    | healed i hst => exact ⟨i, hst⟩
    | unasked d hjoin => exact absurd (hquiet s).1 hjoin
    | asked us u hmsg => exact absurd hmsg (not_heading_of_quiescent hquiet)
    | answered msg u hmsg => exact absurd hmsg (not_heading_of_quiescent hquiet)
    | refuted hjoin => exact absurd (hquiet !s).1 hjoin
  · refine hi.agree hc fun s => ?_
    cases hspread s c hc with
    | known hle => exact hle
    | unpushed hjoin => exact absurd (hquiet s).1 hjoin
    | pushed msg u hmsg => exact absurd hmsg (not_heading_of_quiescent hquiet)

/-- The table of node `id` that has heard of `us`. -/
def heardOf (id : NodeId) (us : List Update) : Membership :=
  (Membership.new id (homeAddr id)).mergeAll 4 (us.map fun u => (u, 0))

/-- Two islands that declared each other dead and know different third nodes
    heal; node 1 handles the push of node 2 before its own `register`. -/
theorem pushPull_heals_islands :
    let m₀ (s : Bool) : Membership :=
      if s then heardOf 1 [⟨2, homeAddr 2, .dead, 5⟩, ⟨3, homeAddr 3, .alive, 2⟩]
      else heardOf 2
        [⟨1, homeAddr 1, .dead, 7⟩, ⟨3, homeAddr 3, .suspect, 2⟩, ⟨4, homeAddr 4, .alive, 1⟩]
    let clock (i : ℕ) : Instant := 100 + i
    let evs : List Event := [.register false, .snapshot false, .send false .register,
      .deliver true clock, .send true .reader, .register true, .snapshot true,
      .send true .register, .deliver false clock, .send false .reader, .deliver true clock]
    let x := run step (start m₀ (fun _ => 4) .unlinked) evs
    (∀ s, ∃ i, (x.node s).mem.standing (m₀ !s).selfId = (⟨i, .alive⟩ : Standing)) ∧
    ∀ c, Third m₀ c → (x.node true).mem.standing c = (x.node false).mem.standing c :=
  pushPull_heals _ _ _ ⟨by decide +kernel, by decide +kernel, by decide +kernel⟩
    (by decide +kernel) (by decide +kernel)

/-! ## A table that knows every node -/

/-- The table of node `n` that holds the nodes with smaller ids as alive. -/
def knowsBelow (n : ℕ) (hn : n < 65536) (addr : SocketAddr) : Membership :=
  { Membership.new (UInt16.ofNat n) addr with
    members := ⟨(List.range n).map fun i => ⟨UInt16.ofNat i, ⟨addr, .alive, 1, 0⟩⟩, by
      rw [List.NodupKeys, List.keys, List.map_map]
      refine List.Nodup.map_on ?_ List.nodup_range
      intro i hi j hj hij
      rw [List.mem_range] at hi hj
      have hnat : (UInt16.ofNat i).toNat = (UInt16.ofNat j).toNat := congrArg UInt16.toNat hij
      rw [UInt16.toNat_ofNat', UInt16.toNat_ofNat'] at hnat
      omega⟩ }

section

variable {n : ℕ} {hn : n < 65536} {addr : SocketAddr}

theorem length_fullState_knowsBelow : (knowsBelow n hn addr).fullState.length = n + 1 := by
  simp [Membership.fullState, knowsBelow]

theorem inc_knowsBelow (hu : u ∈ (knowsBelow n hn addr).fullState) : u.inc = 1 := by
  rcases List.mem_append.mp hu with hmem | hself
  · obtain ⟨e, he, rfl⟩ := List.mem_map.mp hmem
    obtain ⟨i, -, rfl⟩ := List.mem_map.mp he
    rfl
  · rw [List.mem_singleton.mp hself]
    rfl

theorem standing_knowsBelow {id : NodeId} (hid : id.toNat < n) :
    (knowsBelow n hn addr).standing id = (⟨1, .alive⟩ : Standing) := by
  have hlook : (knowsBelow n hn addr).members.lookup id = some ⟨addr, .alive, 1, 0⟩ := by
    refine AList.mem_lookup_iff.mpr (List.mem_map.mpr ⟨id.toNat, List.mem_range.mpr hid, ?_⟩)
    rw [UInt16.ofNat_toNat]
  rw [Membership.standing, hlook]
  rfl

theorem self_notMem_knowsBelow :
    (knowsBelow n hn addr).selfId ∉ (knowsBelow n hn addr).members := by
  intro hmem
  obtain ⟨e, he, hid⟩ := List.mem_map.mp (AList.mem_keys.mp hmem)
  obtain ⟨i, hi, rfl⟩ := List.mem_map.mp he
  rw [List.mem_range] at hi
  have hnat : (UInt16.ofNat i).toNat = (UInt16.ofNat n).toNat := congrArg UInt16.toNat hid
  rw [UInt16.toNat_ofNat', UInt16.toNat_ofNat'] at hnat
  omega

/-- A fresh node with a smaller id tells nothing new. -/
theorem mergeAll_knowsBelow {id : NodeId} (hid : id.toNat < n) (retransmit : ℕ)
    (clock : ℕ → Instant) : (knowsBelow n hn addr).mergeAll retransmit
      (Membership.stamped clock (Membership.new id addr).fullState) = knowsBelow n hn addr := by
  set m := knowsBelow n hn addr
  set u := (Membership.new id addr).selfUpdate
  have hself : u.id ≠ m.selfId := by
    intro h
    have hnat : id.toNat = (UInt16.ofNat n).toNat := congrArg UInt16.toNat h
    rw [UInt16.toNat_ofNat'] at hnat
    omega
  have hold : m.accepts u ≠ true := by
    have hst : m.standing u.id = u.standing := standing_knowsBelow hid
    rw [ne_eq, m.accepts_iff, hst]
    exact lt_irrefl _
  show (m.merge u retransmit (clock 0)).1 = m
  rw [Membership.merge, if_neg hself, if_neg hold]

end

/-- The run in which node `false` handles the push of its peer before its own
    `register`. -/
def pushFirst (clock : ℕ → Instant) : List Event :=
  [.register true, .snapshot true, .send true .register, .deliver false clock,
    .send false .reader, .register false, .snapshot false, .send false .register,
    .deliver true clock, .send true .reader, .deliver false clock]

theorem pushFirst_full (a b : Membership) (retransmit : Bool → ℕ) (clock : ℕ → Instant)
    (ha : a.fullState.length = 65536) (hb : b.fullState.length < 65536)
    (hkeep : a.mergeAll (retransmit true) (Membership.stamped clock b.fullState) = a) :
    let x := run step (start (fun s => if s then a else b) retransmit .unlinked) (pushFirst clock)
    Quiescent x ∧ (x.node false).mem = b := by
  have hfull (reply : Bool) : MembershipMsg.decode (MembershipMsg.sync reply a.fullState).encode =
    some (.sync reply []) := MembershipMsg.decode_encode_sync_full reply ha
  have hown : MembershipMsg.decode (MembershipMsg.sync true b.fullState).encode =
    some (.sync true b.fullState) := MembershipMsg.decode_encode hb
  have hnil : ∀ m : Membership, m.mergeAll (retransmit false) (Membership.stamped clock []) = m :=
    fun m => rfl
  simp [pushFirst, step, start, Pair.setNode, Pair.setWire, Node.hold, Node.receive,
    Membership.apply, hfull, hown, hnil, hkeep, Quiescent]

/-- A node that knows all 65536 ids pushes its state to a fresh node: the count
    of the updates wraps to zero, and the fresh node learns of nobody, not even
    of its peer. -/
theorem pushPull_full_table :
    let addr : SocketAddr := ⟨.v4 0x0a000001, 7000⟩
    let m₀ (s : Bool) : Membership :=
      if s then knowsBelow 65535 (by decide) addr else Membership.new 0 addr
    let x := run step (start m₀ (fun _ => 4) .unlinked) (pushFirst fun i => i)
    Tables m₀ ∧ Quiescent x ∧ ∀ c, (x.node false).mem.standing c = ⊥ := by
  intro addr m₀ x
  have hlt : (0 : NodeId).toNat < 65535 := by decide
  obtain ⟨hquiet, hmem⟩ := pushFirst_full (knowsBelow 65535 (by decide) addr)
    (Membership.new 0 addr) (fun _ => 4) (fun i => i) length_fullState_knowsBelow (by decide)
    (mergeAll_knowsBelow hlt _ _)
  have hid : (m₀ true).selfId ≠ (m₀ false).selfId := by
    show (UInt16.ofNat 65535) ≠ 0
    decide
  refine ⟨⟨?_, ?_, ?_⟩, hquiet, ?_⟩
  · intro s
    cases s with
    | false => exact hid.symm
    | true => exact hid
  · intro s
    cases s with
    | false => exact AList.notMem_empty _
    | true => exact @self_notMem_knowsBelow 65535 (by decide) addr
  · intro s u hu
    have hinc : u.inc = 1 := by
      cases s with
      | false =>
        rw [List.mem_singleton.mp hu]
        rfl
      | true => exact @inc_knowsBelow u 65535 (by decide) addr hu
    rw [hinc]
    decide
  · intro c
    rw [hmem]
    rfl

end

end PushPull

end BeamSocket.Mesh
