import BeamSocket.Mesh.Link
import BeamSocket.Mesh.Swim

/-!
# Two links between one pair of nodes

Two nodes that dial each other at the same time end up with two established
links, each with a handle on both nodes. Modelled are `register`
(`crates/mesh/src/node.rs`, lines 272–284), `close`, `writer_loop` and
`reader_loop` (`crates/mesh/src/link.rs`, lines 197–202 and 436–510) and
`on_link_closed` (`node.rs`, lines 238–247), cut where another task can run:

* `register` decides under the `links` lock, and closes a duplicate while it
  holds the lock: it stores the state, notifies, closes the queue.
* `notify_waiters` ends a reader that waits in its `select!`; a reader that
  dispatches a frame at that moment misses it.
* The writer of a closed queue shuts the stream down, which the reader on the
  other node sees as end of stream.
* A reader that leaves its loop stores the state, closes the queue, removes the
  entry of the *peer*, whichever link it names, and suspects the peer.

Results:

* `Racing.down_of_settled`: with two links, in every run, each node ends up
  having suspected the other.
* `oneSurvivor_iff`: one link survives, registered on both nodes and without a
  suspicion, if and only if there was only one link.
* `race_loses_survivor`: both nodes keep the same link, and both lose its entry.
-/

namespace BeamSocket.Mesh

open BeamSocket.Lib

namespace LinkRace

/-! ## The system -/

/-- The task that holds the fresh handle: before `register`, in `close` behind
    the store and behind the notification, and finished. -/
inductive Handle
  | held
  | closing
  | notified
  | done
  deriving DecidableEq, Repr

/-- The reader task: not waiting, waiting in its `select!`, out of its loop,
    behind `queue.close()`, behind `links.remove`, and finished. -/
inductive Reader
  | busy
  | waiting
  | broken
  | closed
  | unlinked
  | exited
  deriving DecidableEq, Repr

/-- One end of a link. -/
structure Endpoint where
  handle : Handle
  state : LinkState
  queueClosed : Bool
  /-- The writer has shut the stream down. -/
  writerDone : Bool
  reader : Reader
  deriving DecidableEq, Repr

/-- One node: its table, the node id of the other, and the link that `links`
    has for it. -/
structure Node where
  mem : Membership
  retransmit : ℕ
  peer : NodeId
  entry : Option Bool

/-- Nodes and links are told apart by a `Bool` each. -/
structure Duo where
  node : Bool → Node
  endpoint : Bool → Bool → Endpoint

/-- Node `s` is now `n`. -/
def Duo.setNode (x : Duo) (s : Bool) (n : Node) : Duo :=
  { x with node := Function.update x.node s n }

/-- The end of link `l` at node `s` is now `ep`. -/
def Duo.setEnd (x : Duo) (s l : Bool) (ep : Endpoint) : Duo :=
  { x with endpoint := Function.update x.endpoint s (Function.update (x.endpoint s) l ep) }

/-- A task of `s` closes a duplicate and holds the `links` lock. -/
def Duo.Locked (x : Duo) (s : Bool) : Prop :=
  ∃ l, (x.endpoint s l).handle = .closing ∨ (x.endpoint s l).handle = .notified

instance (x : Duo) (s : Bool) : Decidable (x.Locked s) :=
  inferInstanceAs (Decidable (∃ l, (x.endpoint s l).handle = .closing ∨
    (x.endpoint s l).handle = .notified))

/-- The events of node `s` and link `l`. -/
inductive Event
  /-- `register` looks the peer up and inserts the link, or begins to close
      it. -/
  | register (s l : Bool)
  /-- `shutdown.notify_waiters()` of `close`. -/
  | notify (s l : Bool)
  /-- `queue.close()` of `close`. -/
  | closeQueue (s l : Bool)
  /-- The reader comes back to its `select!`. -/
  | poll (s l : Bool)
  /-- The reader takes a frame and dispatches it. -/
  | frame (s l : Bool)
  /-- The reader sees the end of the stream. -/
  | eof (s l : Bool)
  /-- The reader stores `Closed` and closes the queue. -/
  | markClosed (s l : Bool)
  /-- `on_link_closed` removes the entry of the peer. -/
  | unlink (s l : Bool)
  /-- `on_link_closed` suspects the peer, at time `now`. -/
  | suspect (s l : Bool) (now : Instant)
  /-- The writer drains the closed queue and shuts the stream down. -/
  | drain (s l : Bool)
  deriving DecidableEq, Repr

/-- One event; one that its party is not ready for changes nothing. -/
def step (x : Duo) : Event → Duo
  | .register s l =>
    let ep := x.endpoint s l
    if ep.handle = .held ∧ ¬ x.Locked s then
      match (x.node s).entry with
      | none =>
        (x.setNode s { x.node s with entry := some l }).setEnd s l { ep with handle := .done }
      | some _ => x.setEnd s l { ep with handle := .closing, state := .closing }
    else x
  | .notify s l =>
    let ep := x.endpoint s l
    if ep.handle = .closing then
      x.setEnd s l { ep with
        handle := .notified, reader := if ep.reader = .waiting then .broken else ep.reader }
    else x
  | .closeQueue s l =>
    let ep := x.endpoint s l
    if ep.handle = .notified then x.setEnd s l { ep with handle := .done, queueClosed := true }
    else x
  | .poll s l =>
    let ep := x.endpoint s l
    if ep.reader = .busy then x.setEnd s l { ep with reader := .waiting } else x
  | .frame s l =>
    let ep := x.endpoint s l
    if ep.reader = .waiting then x.setEnd s l { ep with reader := .busy } else x
  | .eof s l =>
    let ep := x.endpoint s l
    if ep.reader = .waiting ∧ (x.endpoint (!s) l).writerDone then
      x.setEnd s l { ep with reader := .broken }
    else x
  | .markClosed s l =>
    let ep := x.endpoint s l
    if ep.reader = .broken then
      x.setEnd s l { ep with state := .closed, queueClosed := true, reader := .closed }
    else x
  | .unlink s l =>
    let ep := x.endpoint s l
    if ep.reader = .closed ∧ ¬ x.Locked s then
      (x.setNode s { x.node s with entry := none }).setEnd s l { ep with reader := .unlinked }
    else x
  | .suspect s l now =>
    let ep := x.endpoint s l
    let n := x.node s
    if ep.reader = .unlinked then
      (x.setNode s { n with mem := (n.mem.suspect n.peer n.retransmit now).1 }).setEnd s l
        { ep with reader := .exited }
    else x
  | .drain s l =>
    let ep := x.endpoint s l
    if ep.queueClosed then x.setEnd s l { ep with writerDone := true } else x

/-- An end of a link that has just been established. -/
def Endpoint.fresh : Endpoint :=
  { handle := .held, state := .up, queueClosed := false, writerDone := false, reader := .busy }

/-- An end of a link that there is not. -/
def Endpoint.absent : Endpoint :=
  { handle := .done, state := .closed, queueClosed := true, writerDone := true, reader := .exited }

/-- The links of `links` are established, nothing is registered. -/
def start (m : Bool → Membership) (retransmit : Bool → ℕ) (links : Bool → Bool) : Duo where
  node s := { mem := m s, retransmit := retransmit s, peer := (m !s).selfId, entry := none }
  endpoint _ l := if links l then .fresh else .absent

/-- No task has a step left to take: every handle went through `register`, every
    reader waits or is finished, writers of closed queues are finished, and so
    are readers at the end of their stream. -/
def Settled (x : Duo) : Prop :=
  ∀ s l, (x.endpoint s l).handle = .done ∧
    ((x.endpoint s l).reader = .waiting ∨ (x.endpoint s l).reader = .exited) ∧
    ((x.endpoint s l).queueClosed → (x.endpoint s l).writerDone) ∧
    ((x.endpoint (!s) l).writerDone → (x.endpoint s l).reader = .exited)

/-- The link is up and its tasks run. -/
def Endpoint.Running (ep : Endpoint) : Prop :=
  ep.state = .up ∧ ep.queueClosed = false ∧ ep.writerDone = false ∧
    (ep.reader = .busy ∨ ep.reader = .waiting)

/-- Both nodes have the same link registered, it runs, the other does not, and
    each node holds the other as alive. -/
def OneSurvivor (x : Duo) : Prop :=
  ∃ l, ∀ s, (x.node s).entry = some l ∧ (x.endpoint s l).Running ∧
    ¬ (x.endpoint s (!l)).Running ∧
    ∃ i, (x.node s).mem.standing (x.node s).peer = (⟨i, .alive⟩ : Standing)

instance (x : Duo) : Decidable (Settled x) :=
  inferInstanceAs (Decidable (∀ s l, (x.endpoint s l).handle = .done ∧
    ((x.endpoint s l).reader = .waiting ∨ (x.endpoint s l).reader = .exited) ∧
    ((x.endpoint s l).queueClosed → (x.endpoint s l).writerDone) ∧
    ((x.endpoint (!s) l).writerDone → (x.endpoint s l).reader = .exited)))

instance (ep : Endpoint) : Decidable ep.Running :=
  inferInstanceAs (Decidable (ep.state = .up ∧ ep.queueClosed = false ∧ ep.writerDone = false ∧
    (ep.reader = .busy ∨ ep.reader = .waiting)))

/-! ## What a step can do -/

section

variable {x y : Duo} {s l : Bool} {n : Node} {ep : Endpoint} {e : Event}

/-- What an end of a link, and its node with it, can become. -/
inductive EndMoves (x : Duo) (s l : Bool) : Endpoint → Node → Prop
  | inserted (hhandle : (x.endpoint s l).handle = .held) (hentry : (x.node s).entry = none) :
      EndMoves x s l { x.endpoint s l with handle := .done } { x.node s with entry := some l }
  | duplicate (hhandle : (x.endpoint s l).handle = .held) (hentry : (x.node s).entry ≠ none) :
      EndMoves x s l { x.endpoint s l with handle := .closing, state := .closing } (x.node s)
  | notify (hhandle : (x.endpoint s l).handle = .closing) :
      EndMoves x s l { x.endpoint s l with
        handle := .notified,
        reader := if (x.endpoint s l).reader = .waiting then .broken
          else (x.endpoint s l).reader } (x.node s)
  | closeQueue (hhandle : (x.endpoint s l).handle = .notified) :
      EndMoves x s l { x.endpoint s l with handle := .done, queueClosed := true } (x.node s)
  | poll (hreader : (x.endpoint s l).reader = .busy) :
      EndMoves x s l { x.endpoint s l with reader := .waiting } (x.node s)
  | frame (hreader : (x.endpoint s l).reader = .waiting) :
      EndMoves x s l { x.endpoint s l with reader := .busy } (x.node s)
  | eof (hreader : (x.endpoint s l).reader = .waiting)
      (hfin : (x.endpoint (!s) l).writerDone = true) :
      EndMoves x s l { x.endpoint s l with reader := .broken } (x.node s)
  | markClosed (hreader : (x.endpoint s l).reader = .broken) :
      EndMoves x s l { x.endpoint s l with
        state := .closed, queueClosed := true, reader := .closed } (x.node s)
  | unlink (hreader : (x.endpoint s l).reader = .closed) :
      EndMoves x s l { x.endpoint s l with reader := .unlinked } { x.node s with entry := none }
  | suspect (now : Instant) (hreader : (x.endpoint s l).reader = .unlinked) :
      EndMoves x s l { x.endpoint s l with reader := .exited }
        { x.node s with
          mem := ((x.node s).mem.suspect (x.node s).peer (x.node s).retransmit now).1 }
  | drain (hqueue : (x.endpoint s l).queueClosed = true) :
      EndMoves x s l { x.endpoint s l with writerDone := true } (x.node s)

/-- The state after one end of `s` and the node `s` changed. -/
def Duo.update (x : Duo) (s l : Bool) (ep : Endpoint) (n : Node) : Duo :=
  (x.setNode s n).setEnd s l ep

theorem update_node_self (x : Duo) (s l : Bool) (ep : Endpoint) :
    x.update s l ep (x.node s) = x.setEnd s l ep := by
  unfold Duo.update Duo.setNode
  rw [Function.update_eq_self]

@[simp] theorem update_node : (x.update s l ep n).node s = n := Function.update_self ..

@[simp] theorem update_node_not : (x.update s l ep n).node (!s) = x.node (!s) :=
  Function.update_of_ne (by simp) ..

@[simp] theorem update_endpoint : (x.update s l ep n).endpoint s l = ep := by
  simp [Duo.update, Duo.setEnd]

@[simp] theorem update_endpoint_not :
    (x.update s l ep n).endpoint s (!l) = x.endpoint s (!l) := by
  simp [Duo.update, Duo.setEnd, Duo.setNode]

@[simp] theorem update_not_endpoint {l' : Bool} :
    (x.update s l ep n).endpoint (!s) l' = x.endpoint (!s) l' := by
  simp [Duo.update, Duo.setEnd, Duo.setNode]

theorem guarded_cases {c : Prop} [Decidable c] {z : Duo}
    (h : c → ∃ s l ep n, EndMoves x s l ep n ∧ z = x.update s l ep n) :
    (if c then z else x) = x ∨
      ∃ s l ep n, EndMoves x s l ep n ∧ (if c then z else x) = x.update s l ep n := by
  split_ifs with hc
  · exact .inr (h hc)
  · exact .inl rfl

theorem step_cases (x : Duo) (e : Event) :
    step x e = x ∨ ∃ s l ep n, EndMoves x s l ep n ∧ step x e = x.update s l ep n := by
  have hnode := update_node_self x
  cases e with
  | register s l =>
    refine guarded_cases fun h => ?_
    cases hentry : (x.node s).entry with
    | none => exact ⟨s, l, _, _, .inserted h.1 hentry, rfl⟩
    | some l' => exact ⟨s, l, _, _, .duplicate h.1 (by simp [hentry]), (hnode ..).symm⟩
  | notify s l => exact guarded_cases fun h => ⟨s, l, _, _, .notify h, (hnode ..).symm⟩
  | closeQueue s l => exact guarded_cases fun h => ⟨s, l, _, _, .closeQueue h, (hnode ..).symm⟩
  | poll s l => exact guarded_cases fun h => ⟨s, l, _, _, .poll h, (hnode ..).symm⟩
  | frame s l => exact guarded_cases fun h => ⟨s, l, _, _, .frame h, (hnode ..).symm⟩
  | eof s l => exact guarded_cases fun h => ⟨s, l, _, _, .eof h.1 h.2, (hnode ..).symm⟩
  | markClosed s l => exact guarded_cases fun h => ⟨s, l, _, _, .markClosed h, (hnode ..).symm⟩
  | unlink s l => exact guarded_cases fun h => ⟨s, l, _, _, .unlink h.1, rfl⟩
  | suspect s l now => exact guarded_cases fun h => ⟨s, l, _, _, .suspect now h, rfl⟩
  | drain s l => exact guarded_cases fun h => ⟨s, l, _, _, .drain h, (hnode ..).symm⟩

/-- What is kept by every change of an end and its node is kept by every
    step. -/
theorem step_induction {I : Duo → Prop}
    (h : ∀ s l ep n, EndMoves x s l ep n → I (x.update s l ep n)) (hx : I x) : I (step x e) := by
  rcases step_cases x e with heq | ⟨s, l, ep, n, hm, heq⟩
  · rw [heq]
    exact hx
  · rw [heq]
    exact h s l ep n hm

/-! ## Two links -/

/-- The entry of the peer has been removed by a reader of `s`. -/
def Unlinked (x : Duo) (s : Bool) : Prop :=
  ∃ l, (x.endpoint s l).reader = .unlinked ∨ (x.endpoint s l).reader = .exited

/-- The peer is not held as alive. -/
def Node.Down (n : Node) : Prop := ∀ i, n.mem.standing n.peer ≠ (⟨i, .alive⟩ : Standing)

/-- What holds throughout when every link is real. -/
structure Racing (x : Duo) : Prop where
  peer : ∀ s, (x.node s).peer ≠ (x.node s).mem.selfId
  /-- A handle behind `register` is the entry, or closed, or the entry is
      gone. -/
  placed : ∀ s l, (x.endpoint s l).handle = .done →
    (x.node s).entry = some l ∨ (x.endpoint s l).queueClosed = true ∨ Unlinked x s
  closed : ∀ s l, (x.endpoint s l).reader = .closed ∨ (x.endpoint s l).reader = .unlinked ∨
    (x.endpoint s l).reader = .exited → (x.endpoint s l).queueClosed = true
  down : ∀ s l, (x.endpoint s l).reader = .exited → (x.node s).Down

/-- What holds of every end and of the new one holds of every end after an
    update. -/
theorem forall_endpoint_update {P : Bool → Bool → Endpoint → Prop}
    (hkeep : ∀ s l, P s l (x.endpoint s l)) (hnew : P s l ep) (s' l' : Bool) :
    P s' l' ((x.update s l ep n).endpoint s' l') := by
  rcases Bool.eq_or_eq_not s' s with rfl | rfl
  · rcases Bool.eq_or_eq_not l' l with rfl | rfl
    · rw [update_endpoint]
      exact hnew
    · rw [update_endpoint_not]
      exact hkeep _ _
  · rw [update_not_endpoint]
    exact hkeep _ _

theorem EndMoves.peer (hm : EndMoves x s l ep n) (h : (x.node s).peer ≠ (x.node s).mem.selfId) :
    n.peer ≠ n.mem.selfId := by
  cases hm with
  | suspect now hreader =>
    show (x.node s).peer ≠ _
    rw [Membership.selfId_suspect]
    exact h
  | _ => exact h

theorem EndMoves.closed (hm : EndMoves x s l ep n)
    (h : (x.endpoint s l).reader = .closed ∨ (x.endpoint s l).reader = .unlinked ∨
      (x.endpoint s l).reader = .exited → (x.endpoint s l).queueClosed = true) :
    ep.reader = .closed ∨ ep.reader = .unlinked ∨ ep.reader = .exited → ep.queueClosed = true := by
  cases hm with
  | notify hhandle =>
    intro hreader
    dsimp only at hreader ⊢
    split_ifs at hreader with hw
    · simp at hreader
    · exact h hreader
  | closeQueue hhandle => exact fun _ => rfl
  | poll hreader => exact nofun
  | frame hreader => exact nofun
  | eof hreader hfin => exact nofun
  | markClosed hreader => exact fun _ => rfl
  | unlink hreader => exact fun _ => h (.inl hreader)
  | suspect now hreader => exact fun _ => h (.inr (.inl hreader))
  | inserted => exact h
  | duplicate => exact h
  | drain => exact h

/-- A peer that is not held as alive stays so. -/
theorem EndMoves.down (hm : EndMoves x s l ep n) (hpeer : (x.node s).peer ≠ (x.node s).mem.selfId)
    (h : (x.node s).Down) : n.Down := by
  cases hm with
  | suspect now hreader => exact Membership.standing_suspect_ne_alive _ _ _ hpeer
  | _ => exact h

/-- A reader that finishes has suspected the peer. -/
theorem EndMoves.exited (hm : EndMoves x s l ep n)
    (hpeer : (x.node s).peer ≠ (x.node s).mem.selfId) (h : ep.reader = .exited) :
    (x.endpoint s l).reader = .exited ∨ n.Down := by
  cases hm with
  | notify hhandle =>
    dsimp only at h
    split_ifs at h with hw
    exact .inl h
  | suspect now hreader => exact .inr (Membership.standing_suspect_ne_alive _ _ _ hpeer)
  | poll hreader => cases h
  | frame hreader => cases h
  | eof hreader hfin => cases h
  | markClosed hreader => cases h
  | unlink hreader => cases h
  | _ => exact .inl h

theorem EndMoves.unlinked (hm : EndMoves x s l ep n)
    (h : (x.endpoint s l).reader = .unlinked ∨ (x.endpoint s l).reader = .exited) :
    ep.reader = .unlinked ∨ ep.reader = .exited := by
  cases hm with
  | notify hhandle =>
    have hw : (x.endpoint s l).reader ≠ .waiting := by
      rcases h with h | h <;> rw [h] <;> decide
    dsimp only
    rwa [if_neg hw]
  | poll hreader => simp [hreader] at h
  | frame hreader => simp [hreader] at h
  | eof hreader hfin => simp [hreader] at h
  | markClosed hreader => simp [hreader] at h
  | unlink hreader => exact .inl rfl
  | suspect now hreader => exact .inr rfl
  | _ => exact h

/-- An entry is written over an empty one and removed by a reader only. -/
theorem EndMoves.entry (hm : EndMoves x s l ep n) :
    n.entry = (x.node s).entry ∨ (x.node s).entry = none ∨ ep.reader = .unlinked := by
  cases hm with
  | inserted hhandle hentry => exact .inr (.inl hentry)
  | unlink hreader => exact .inr (.inr rfl)
  | _ => exact .inl rfl

theorem EndMoves.handle (hm : EndMoves x s l ep n) (h : ep.handle = .done) :
    (x.endpoint s l).handle = .done ∧
        ((x.endpoint s l).queueClosed = true → ep.queueClosed = true) ∨
      n.entry = some l ∨ ep.queueClosed = true := by
  cases hm with
  | inserted hhandle hentry => exact .inr (.inl rfl)
  | duplicate hhandle hentry => cases h
  | notify hhandle => cases h
  | closeQueue hhandle => exact .inr (.inr rfl)
  | markClosed hreader => exact .inr (.inr rfl)
  | _ => exact .inl ⟨h, id⟩

theorem Unlinked.update {s' : Bool} (hm : EndMoves x s l ep n) (h : Unlinked x s') :
    Unlinked (x.update s l ep n) s' := by
  obtain ⟨l', h⟩ := h
  refine ⟨l', ?_⟩
  rcases Bool.eq_or_eq_not s' s with rfl | rfl
  · rcases Bool.eq_or_eq_not l' l with rfl | rfl
    · rw [update_endpoint]
      exact hm.unlinked h
    · rwa [update_endpoint_not]
  · rwa [update_not_endpoint]

theorem Racing.update (hm : EndMoves x s l ep n) (hx : Racing x) : Racing (x.update s l ep n) where
  peer s' := by
    rcases Bool.eq_or_eq_not s' s with rfl | rfl
    · rw [update_node]
      exact hm.peer (hx.peer s')
    · rw [update_node_not]
      exact hx.peer _
  placed s' l' hdone := by
    rcases Bool.eq_or_eq_not s' s with rfl | rfl
    · -- the old entry still stands, unless a reader removed it
      have hentry : ∀ l', (x.node s').entry = some l' →
          n.entry = some l' ∨ Unlinked (x.update s' l ep n) s' := by
        intro l' h
        rcases hm.entry with heq | hnone | hreader
        · exact .inl (heq.trans h)
        · rw [h] at hnone
          cases hnone
        · exact .inr ⟨l, .inl (by rwa [update_endpoint])⟩
      rw [update_node]
      rcases Bool.eq_or_eq_not l' l with rfl | rfl
      · rw [update_endpoint] at hdone ⊢
        rcases hm.handle hdone with ⟨hold, hqueue⟩ | hnew | hnew
        · rcases hx.placed s' l' hold with h | h | h
          · exact (hentry l' h).imp_right .inr
          · exact .inr (.inl (hqueue h))
          · exact .inr (.inr (h.update hm))
        · exact .inl hnew
        · exact .inr (.inl hnew)
      · rw [update_endpoint_not] at hdone ⊢
        rcases hx.placed s' (!l) hdone with h | h | h
        · exact (hentry _ h).imp_right .inr
        · exact .inr (.inl h)
        · exact .inr (.inr (h.update hm))
    · rw [update_not_endpoint] at hdone ⊢
      rw [update_node_not]
      exact (hx.placed _ l' hdone).imp_right fun h => h.imp_right fun h => h.update hm
  closed := forall_endpoint_update (P := fun _ _ ep => ep.reader = .closed ∨
    ep.reader = .unlinked ∨ ep.reader = .exited → ep.queueClosed = true) hx.closed
    (hm.closed (hx.closed s l))
  down s' l' hexited := by
    rcases Bool.eq_or_eq_not s' s with rfl | rfl
    · rw [update_node]
      rcases Bool.eq_or_eq_not l' l with rfl | rfl
      · rw [update_endpoint] at hexited
        rcases hm.exited (hx.peer s') hexited with hold | hdown
        · exact hm.down (hx.peer s') (hx.down s' l' hold)
        · exact hdown
      · rw [update_endpoint_not] at hexited
        exact hm.down (hx.peer s') (hx.down s' _ hexited)
    · rw [update_not_endpoint] at hexited
      rw [update_node_not]
      exact hx.down _ l' hexited

/-- With two links, each node has suspected the other once everything has
    settled: if no reader removed the entry, one of the two links was closed as a
    duplicate, and the end of its stream comes back to the reader here. -/
theorem Racing.down_of_settled (hx : Racing x) (hs : Settled x) (s : Bool) : (x.node s).Down := by
  -- a closed queue ends the link on both nodes
  have hclosed : ∀ l, (x.endpoint s l).queueClosed = true → (x.endpoint s l).reader = .exited := by
    intro l hqueue
    have hfin : (x.endpoint s l).writerDone = true := (hs s l).2.2.1 hqueue
    have hpeer : (x.endpoint (!s) l).reader = .exited :=
      (hs (!s) l).2.2.2 (by rwa [Bool.not_not])
    have hqueue' := hx.closed (!s) l (.inr (.inr hpeer))
    exact (hs s l).2.2.2 ((hs (!s) l).2.2.1 hqueue')
  have hunlinked : Unlinked x s → ∃ l, (x.endpoint s l).reader = .exited := by
    rintro ⟨l, hreader⟩
    refine ⟨l, (hs s l).2.1.resolve_left ?_⟩
    rcases hreader with h | h <;> rw [h] <;> decide
  have hexit : ∃ l, (x.endpoint s l).reader = .exited := by
    have hplaced := fun l => hx.placed s l (hs s l).1
    rcases hplaced true with htrue | htrue | htrue
    · rcases hplaced false with hfalse | hfalse | hfalse
      · rw [htrue] at hfalse
        cases hfalse
      · exact ⟨false, hclosed false hfalse⟩
      · exact hunlinked hfalse
    · exact ⟨true, hclosed true htrue⟩
    · exact hunlinked htrue
  obtain ⟨l, hl⟩ := hexit
  exact hx.down s l hl

/-! ## One link, or none -/

/-- What holds throughout when `l` is the only link: nothing ever ends it. -/
structure Single (m : Bool → Membership) (l : Bool) (x : Duo) : Prop where
  absent : ∀ s, x.endpoint s (!l) = .absent
  running : ∀ s, (x.endpoint s l).Running
  handle : ∀ s, (x.endpoint s l).handle = .held ∧ (x.node s).entry = none ∨
    (x.endpoint s l).handle = .done ∧ (x.node s).entry = some l
  mem : ∀ s, (x.node s).mem = m s ∧ (x.node s).peer = (m !s).selfId

theorem update_eq_self (x : Duo) (s l : Bool) :
    x.update s l (x.endpoint s l) (x.node s) = x := by
  rw [update_node_self, Duo.setEnd, Function.update_eq_self, Function.update_eq_self]

/-- An absent end does nothing. -/
theorem EndMoves.of_absent (hm : EndMoves x s l ep n) (h : x.endpoint s l = .absent) :
    x.update s l ep n = x := by
  cases hm with
  | inserted hhandle => simp [h, Endpoint.absent] at hhandle
  | duplicate hhandle => simp [h, Endpoint.absent] at hhandle
  | notify hhandle => simp [h, Endpoint.absent] at hhandle
  | closeQueue hhandle => simp [h, Endpoint.absent] at hhandle
  | poll hreader => simp [h, Endpoint.absent] at hreader
  | frame hreader => simp [h, Endpoint.absent] at hreader
  | eof hreader => simp [h, Endpoint.absent] at hreader
  | markClosed hreader => simp [h, Endpoint.absent] at hreader
  | unlink hreader => simp [h, Endpoint.absent] at hreader
  | suspect now hreader => simp [h, Endpoint.absent] at hreader
  | drain hqueue =>
    have hep : { x.endpoint s l with writerDone := true } = x.endpoint s l := by
      rw [h]
      rfl
    rw [hep, update_eq_self]

/-- The ends of the only link wait, dispatch, and are registered once. -/
theorem EndMoves.of_running {m : Bool → Membership} (hx : Single m l x)
    (hm : EndMoves x s l ep n) :
    ep.Running ∧ (ep.handle = .held ∧ n.entry = none ∨ ep.handle = .done ∧ n.entry = some l) ∧
      n.mem = (x.node s).mem ∧ n.peer = (x.node s).peer := by
  obtain ⟨hup, hqueue', hwriter, hrun⟩ := hx.running s
  have hhandle' := hx.handle s
  cases hm with
  | inserted hhandle hentry => exact ⟨⟨hup, hqueue', hwriter, hrun⟩, .inr ⟨rfl, rfl⟩, rfl, rfl⟩
  | duplicate hhandle hentry => simp [hhandle, hentry] at hhandle'
  | notify hhandle => simp [hhandle] at hhandle'
  | closeQueue hhandle => simp [hhandle] at hhandle'
  | poll hreader => exact ⟨⟨hup, hqueue', hwriter, .inr rfl⟩, hhandle', rfl, rfl⟩
  | frame hreader => exact ⟨⟨hup, hqueue', hwriter, .inl rfl⟩, hhandle', rfl, rfl⟩
  | eof hreader hfin => simp [(hx.running !s).2.2.1] at hfin
  | markClosed hreader => simp [hreader] at hrun
  | unlink hreader => simp [hreader] at hrun
  | suspect now hreader => simp [hreader] at hrun
  | drain hqueue => simp [hqueue] at hqueue'

theorem Single.update {m : Bool → Membership} {l' : Bool} (hm : EndMoves x s l' ep n)
    (hx : Single m l x) : Single m l (x.update s l' ep n) := by
  rcases Bool.eq_or_eq_not l' l with rfl | rfl
  · obtain ⟨hrun, hhandle, hmem, hpeer⟩ := hm.of_running hx
    refine ⟨fun s' => ?_, fun s' => ?_, fun s' => ?_, fun s' => ?_⟩
    all_goals rcases Bool.eq_or_eq_not s' s with rfl | rfl
    · rw [update_endpoint_not, hx.absent]
    · rw [update_not_endpoint, hx.absent]
    · rwa [update_endpoint]
    · rw [update_not_endpoint]
      exact hx.running _
    · rwa [update_endpoint, update_node]
    · rw [update_not_endpoint, update_node_not]
      exact hx.handle _
    · rw [update_node, hmem, hpeer]
      exact hx.mem _
    · rw [update_node_not]
      exact hx.mem _
  · rw [hm.of_absent (hx.absent s)]
    exact hx

end

/-! ## Runs -/

/-- Once everything has settled, one link is left, registered and running on
    both nodes, which hold each other as alive, if and only if only one link was
    established. -/
theorem oneSurvivor_iff (m : Bool → Membership) (retransmit : Bool → ℕ) (links : Bool → Bool)
    (evs : List Event) (hid : (m true).selfId ≠ (m false).selfId)
    (halive : ∀ s, ∃ i, (m s).standing (m !s).selfId = (⟨i, .alive⟩ : Standing))
    (hsettled : Settled (run step (start m retransmit links) evs)) :
    OneSurvivor (run step (start m retransmit links) evs) ↔ links true ≠ links false := by
  have hpeer : ∀ s, (m !s).selfId ≠ (m s).selfId := by
    intro s
    cases s with
    | true => exact hid.symm
    | false => exact hid
  by_cases hone : links true = links false
  · refine iff_of_false ?_ (not_not.mpr hone)
    rintro ⟨l, hsurvivor⟩
    cases htrue : links true with
    | true =>
      -- two links: each node has suspected the other
      have hlinks : ∀ l, links l = true := by
        intro l
        cases l with
        | true => exact htrue
        | false => exact hone ▸ htrue
      have hracing : Racing (run step (start m retransmit links) evs) := by
        refine run_invariant (fun x e hx => step_induction (fun s l ep n hm => hx.update hm) hx) ?_
        refine ⟨hpeer, fun s l hdone => ?_, fun s l hreader => ?_, fun s l hreader => ?_⟩
        all_goals simp [start, hlinks, Endpoint.fresh] at *
      obtain ⟨-, -, -, i, hi⟩ := hsurvivor true
      exact hracing.down_of_settled hsettled true i hi
    | false =>
      -- no link: nothing happens
      have hlinks : ∀ l, links l = false := by
        intro l
        cases l with
        | true => exact htrue
        | false => exact hone ▸ htrue
      have hrun : run step (start m retransmit links) evs = start m retransmit links := by
        refine run_invariant (I := fun x => x = start m retransmit links) ?_ rfl
        rintro x e rfl
        refine step_induction (I := fun x => x = start m retransmit links) ?_ rfl
        intro s l ep n hm
        exact hm.of_absent (by simp [start, hlinks])
      rw [hrun] at hsurvivor
      cases (hsurvivor true).1
  · refine iff_of_true ?_ hone
    obtain ⟨l, hl, hl'⟩ : ∃ l, links l = true ∧ links (!l) = false := by
      cases htrue : links true with
      | true => exact ⟨true, htrue, by simpa [htrue] using hone⟩
      | false => exact ⟨false, by simpa [htrue] using hone, htrue⟩
    have hsingle : Single m l (run step (start m retransmit links) evs) := by
      refine run_invariant (fun x e hx => step_induction (fun s l ep n hm => hx.update hm) hx) ?_
      refine ⟨fun s => ?_, fun s => ?_, fun s => ?_, fun s => ⟨rfl, rfl⟩⟩
      · simp [start, hl']
      · simp [start, hl, Endpoint.fresh, Endpoint.Running]
      · simp [start, hl, Endpoint.fresh]
    refine ⟨l, fun s => ⟨?_, hsingle.running s, ?_, ?_⟩⟩
    · rcases hsingle.handle s with ⟨hheld, -⟩ | ⟨-, hentry⟩
      · rw [(hsettled s l).1] at hheld
        cases hheld
      · exact hentry
    · rw [hsingle.absent]
      decide
    · rw [(hsingle.mem s).1, (hsingle.mem s).2]
      exact halive s

/-- A single link between two nodes survives. -/
theorem oneSurvivor_single :
    let addr : SocketAddr := ⟨.v4 0x0a000001, 7000⟩
    let m (s : Bool) : Membership :=
      if s then ((Membership.new 1 addr).merge ⟨2, addr, .alive, 1⟩ 4 0).1
      else ((Membership.new 2 addr).merge ⟨1, addr, .alive, 1⟩ 4 0).1
    let evs : List Event := [.register true true, .poll true true, .frame true true,
      .register false true, .poll false true, .poll true true]
    OneSurvivor (run step (start m (fun _ => 4) fun l => l) evs) :=
  (oneSurvivor_iff _ _ _ _ (by decide) (by intro s; exact ⟨1, by cases s <;> decide +kernel⟩)
    (by decide +kernel)).mpr (by decide)

/-- Both nodes register the same link first and close the other as a duplicate:
    the reader of the closed link removes the entry of the peer, which names the
    surviving link, and suspects the peer. -/
theorem race_loses_survivor :
    let addr : SocketAddr := ⟨.v4 0x0a000001, 7000⟩
    let m (s : Bool) : Membership :=
      if s then ((Membership.new 1 addr).merge ⟨2, addr, .alive, 1⟩ 4 0).1
      else ((Membership.new 2 addr).merge ⟨1, addr, .alive, 1⟩ 4 0).1
    let side (s : Bool) : List Event := [.poll s true, .poll s false, .register s true,
      .register s false, .notify s false, .closeQueue s false, .markClosed s false,
      .unlink s false, .suspect s false 10, .drain s false]
    let x := run step (start m (fun _ => 4) fun _ => true) (side true ++ side false)
    Settled x ∧ ∀ s, (x.endpoint s true).Running ∧ (x.node s).entry = none ∧
      (x.node s).mem.standing (x.node s).peer = (⟨1, .suspect⟩ : Standing) :=
  ⟨by decide +kernel, by decide +kernel⟩

end LinkRace

end BeamSocket.Mesh
