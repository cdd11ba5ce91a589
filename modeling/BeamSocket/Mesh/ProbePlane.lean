import BeamSocket.Mesh.Detector
import BeamSocket.Mesh.Probe

/-!
# The probe plane of a node

Model of `ProbePlane` (`crates/mesh/src/probe.rs`, lines 246–506): the receive loop and the
probe loop, which share the pending probes and the membership table with each other and the
table with the TCP plane. Both are cut where they take a lock or send. The first step of a
packet ends with the replay guard, or with the entry of `pending` removed; the set of denied
ids is read in the same step.

Which member is probed next and who helps is decided by a random order
(`next_probe_target`, `indirect_helpers`); here it is part of the event.

* `ProbePlane.step`: every step of the two loops, with the packet it sends.
* `cleared_by_target`: a round that leaves an alive member unsuspected has received an ACK of
  it, if no ACK of another node bears the number of the round.
* `Readdressed.cleared_by_other`: the ACK of another node ends the round.
-/

namespace BeamSocket.Mesh

open BeamSocket.Lib

/-- `struct ProbeCounters` (lines 248–258). -/
structure ProbeCounters where
  pingsSent : ℕ
  acksSent : ℕ
  indirectSent : ℕ
  forged : ℕ
  replayed : ℕ
  malformed : ℕ
  deriving DecidableEq, Repr

/-- The packets that the replay guard looks at (lines 362–364). -/
def ProbePacket.originated : ProbePacket → Bool
  | .ping .. => true
  | .ack .. => false
  | .pingReq .. => true

/-- The comparison of stamps in `accept_stamp`. -/
def stampLe (s t : UInt32 × UInt64) : Bool := s.1 < t.1 || (s.1 == t.1 && s.2 ≤ t.2)

/-- Where `probe_loop` (lines 442–506) is. -/
inductive ProbePoint
  /-- In the sleep at the top of the loop. -/
  | sleeping
  /-- Behind `expire_suspects`. -/
  | choosing
  /-- Behind `next_probe_target`. -/
  | chosen (target : NodeId) (addr : SocketAddr)
  /-- The probe is pending. -/
  | pinging (target : NodeId) (addr : SocketAddr) (seq : UInt64)
  /-- Behind `self_view`, the PING not sent. -/
  | sending (target : NodeId) (addr : SocketAddr) (seq : UInt64) (pkt : ProbePacket)
  /-- In the sleep behind the PING. -/
  | direct (target : NodeId) (addr : SocketAddr) (seq : UInt64)
  /-- No ACK of the PING has come. -/
  | escalating (target : NodeId) (addr : SocketAddr) (seq : UInt64)
  /-- Behind `indirect_helpers`. -/
  | asking (target : NodeId) (addr : SocketAddr) (seq : UInt64)
      (helpers : List (NodeId × SocketAddr))
  /-- In the loop over the helpers, with the PING-REQs that are left. -/
  | requesting (target : NodeId) (seq : UInt64) (reqs : List (SocketAddr × ProbePacket))
  /-- In the sleep behind the PING-REQs. -/
  | indirect (target : NodeId) (seq : UInt64)
  /-- The probe was still pending and is removed. -/
  | condemning (target : NodeId) (seq : UInt64)
  deriving DecidableEq

namespace ProbePoint

/-- The member and the number of the round that is on. -/
def round : ProbePoint → Option (NodeId × UInt64)
  | sleeping => none
  | choosing => none
  | chosen .. => none
  | pinging target _ seq => some (target, seq)
  | sending target _ seq _ => some (target, seq)
  | direct target _ seq => some (target, seq)
  | escalating target _ seq => some (target, seq)
  | asking target _ seq _ => some (target, seq)
  | requesting target seq _ => some (target, seq)
  | indirect target seq => some (target, seq)
  | condemning target seq => some (target, seq)

/-- The round has found its member silent. -/
def condemns : ProbePoint → Bool
  | condemning .. => true
  | _ => false

end ProbePoint

/-- What `recv_loop` has left to do with the packet it took. -/
inductive RecvPoint
  | waiting
  /-- A PING has passed the guard. -/
  | answering (sender : NodeId) (seq : UInt64) (dest : SocketAddr)
  /-- Behind the `note_direct_ack` of a PING. -/
  | replying (seq : UInt64) (dest : SocketAddr)
  /-- An ACK was from the member that is probed. -/
  | clearing (sender : NodeId)
  /-- A PING-REQ has passed the guard. -/
  | relaying (seq : UInt64) (fromAddr targetAddr : SocketAddr)
  /-- Behind `self_view`. -/
  | sending (dest : SocketAddr) (pkt : ProbePacket)
  deriving DecidableEq

/-- `struct ProbePlane` (lines 271–287) with the state of its two tasks. -/
structure ProbePlane where
  membership : Membership
  deny : List NodeId
  /-- The next sequence number. -/
  seq : UInt64
  pending : AList fun _ : UInt64 => NodeId
  replay : AList fun _ : NodeId => UInt32 × UInt64
  counters : ProbeCounters
  probe : ProbePoint
  inbox : RecvPoint

namespace ProbePlane

/-- `ProbePlane::start`. -/
def start (m : Membership) : ProbePlane :=
  { membership := m, deny := [], seq := 1, pending := ∅, replay := ∅
    counters := ⟨0, 0, 0, 0, 0, 0⟩, probe := .sleeping, inbox := .waiting }

/-- The steps of the receive loop and of the probe loop, and what other tasks do to the state
    that they share. -/
inductive Event
  /-- A datagram arrives. -/
  | recv (buf : Bytes) (src : SocketAddr)
  /-- `handle` goes on. -/
  | handle (now : Instant)
  /-- The set of denied ids changes. -/
  | partition (ids : List NodeId)
  /-- The period is over: `expire_suspects`. -/
  | wake (now : Instant) (clock : ℕ → Instant)
  /-- `next_probe_target` returns. -/
  | choose (target : Option NodeId)
  /-- The probe gets its number and becomes pending. -/
  | start
  /-- `self_view`. -/
  | view
  | ping
  /-- The first look at `pending`. -/
  | check
  /-- `indirect_helpers` returns. -/
  | ask (helpers : List NodeId)
  /-- A PING-REQ is sent, or there is none left. -/
  | request
  /-- The second look at `pending`. -/
  | conclude
  | condemn (now : Instant)
  /-- The TCP plane applies a message. -/
  | sync (msg : MembershipMsg) (clock : ℕ → Instant)
  /-- The TCP plane takes updates to send. -/
  | disseminate
  /-- The TCP plane loses a link. -/
  | linkClosed (peer : NodeId) (now : Instant)

/-- The step is one of the receive loop behind the guard: what it sends is an answer or a PING of
    another node's round. -/
def Event.relays : Event → Bool
  | .handle _ => true
  | _ => false

section

variable (params : SwimParams) (hmac : Hmac) (secret : Bytes) (s : ProbePlane)

/-- The replay guard (lines 361–370 and `accept_stamp`, lines 377–386); an accepted packet is
    handled from `next` on. -/
def guard (pkt : ProbePacket) (next : RecvPoint) : ProbePlane :=
  let accepted : ProbePlane :=
    { s with replay := s.replay.insert pkt.sender pkt.stamp, inbox := next }
  match s.replay.lookup pkt.sender with
  | some last =>
    if stampLe pkt.stamp last then
      { s with counters := { s.counters with replayed := s.counters.replayed + 1 } }
    else accepted
  | none => accepted

/-- A packet of a node that is not denied, up to the first change: the replay guard (lines
    357–371), or the removal from `pending` in `handle` (lines 412–413). An ACK removes the entry
    of its number, whoever it is from. -/
def dispatch (pkt : ProbePacket) (src : SocketAddr) : ProbePlane :=
  if s.deny.contains pkt.sender then s
  else
    match pkt with
    | .ping sender seq inc replyTo =>
      s.guard (.ping sender seq inc replyTo) (.answering sender seq (replyTo.getD src))
    | .ack sender seq _ =>
      { s with
        pending := s.pending.erase seq
        inbox := if s.pending.lookup seq = some sender then .clearing sender else .waiting }
    | .pingReq sender seq inc fromAddr target targetAddr =>
      s.guard (.pingReq sender seq inc fromAddr target targetAddr)
        (.relaying seq fromAddr targetAddr)

/-- `recv_loop` (lines 339–373). -/
def recv (buf : Bytes) (src : SocketAddr) : ProbePlane :=
  match ProbePacket.decode hmac buf secret with
  | .error .forged => { s with counters := { s.counters with forged := s.counters.forged + 1 } }
  | .error _ => { s with counters := { s.counters with malformed := s.counters.malformed + 1 } }
  | .panicked => s
  | .ok pkt => s.dispatch pkt src

/-- The rest of `handle`, from one lock to the next. -/
def handle (now : Instant) : ProbePlane × Option (SocketAddr × ProbePacket) :=
  let noted (sender : NodeId) : Membership :=
    (s.membership.noteDirectAck sender params.retransmit now).1
  match s.inbox with
  | .waiting => (s, none)
  | .answering sender seq dest =>
    ({ s with membership := noted sender, inbox := .replying seq dest }, none)
  | .replying seq dest =>
    ({ s with inbox := .sending dest (.ack s.membership.selfId seq s.membership.selfInc) }, none)
  | .clearing sender => ({ s with membership := noted sender, inbox := .waiting }, none)
  | .relaying seq fromAddr targetAddr =>
    ({ s with
        inbox := .sending targetAddr
          (.ping s.membership.selfId seq s.membership.selfInc (some fromAddr)) }, none)
  | .sending dest pkt =>
    ({ s with
        counters := { s.counters with
          acksSent := s.counters.acksSent + if pkt.originated then 0 else 1 }
        inbox := .waiting }, some (dest, pkt))

/-- The members that `indirect_helpers` chooses from. -/
def available (target : NodeId) : List NodeId :=
  (s.membership.members.entries.filter fun e => e.1 ≠ target ∧ e.2.state = .alive).map Sigma.fst

/-- `probe_loop` (lines 442–506), from one lock to the next. -/
def loop : Event → ProbePlane × Option (SocketAddr × ProbePacket)
  | .wake now clock =>
    if s.probe = .sleeping then
      ({ s with
          membership := (s.membership.expireSuspects params.suspicionTimeout params.retransmit now
            clock).1
          probe := .choosing }, none)
    else (s, none)
  | .choose target =>
    if s.probe = .choosing then
      match target with
      | none =>
        if s.membership.members.entries.all (fun e => e.2.state = .dead) then
          ({ s with probe := .sleeping }, none)
        else (s, none)
      | some t =>
        match s.membership.members.lookup t with
        | none => (s, none)
        | some mb =>
          if mb.state ≠ .dead then ({ s with probe := .chosen t mb.addr }, none) else (s, none)
    else (s, none)
  | .start =>
    match s.probe with
    | .chosen target addr =>
      ({ s with
          seq := s.seq + 1
          pending := s.pending.insert s.seq target
          probe := .pinging target addr s.seq }, none)
    | _ => (s, none)
  | .view =>
    match s.probe with
    | .pinging target addr seq =>
      ({ s with
          probe := .sending target addr seq
            (.ping s.membership.selfId seq s.membership.selfInc none) }, none)
    | .asking target addr seq helpers =>
      ({ s with
          probe := .requesting target seq (helpers.map fun h =>
            (h.2, .pingReq s.membership.selfId seq s.membership.selfInc s.membership.selfAddr
              target addr)) }, none)
    | _ => (s, none)
  | .ping =>
    match s.probe with
    | .sending target addr seq pkt =>
      ({ s with
          counters := { s.counters with pingsSent := s.counters.pingsSent + 1 }
          probe := .direct target addr seq }, some (addr, pkt))
    | _ => (s, none)
  | .check =>
    match s.probe with
    | .direct target addr seq =>
      if s.pending.lookup seq = none then ({ s with probe := .sleeping }, none)
      else ({ s with probe := .escalating target addr seq }, none)
    | _ => (s, none)
  | .ask helpers =>
    match s.probe with
    | .escalating target addr seq =>
      if helpers.Nodup ∧ helpers ⊆ s.available target ∧
          helpers.length = min params.indirectK (s.available target).length then
        ({ s with
            probe := .asking target addr seq (helpers.filterMap fun h =>
              (s.membership.members.lookup h).map fun mb => (h, mb.addr)) }, none)
      else (s, none)
    | _ => (s, none)
  | .request =>
    match s.probe with
    | .requesting target seq [] => ({ s with probe := .indirect target seq }, none)
    | .requesting target seq (req :: reqs) =>
      ({ s with
          counters := { s.counters with indirectSent := s.counters.indirectSent + 1 }
          probe := .requesting target seq reqs }, some req)
    | _ => (s, none)
  | .conclude =>
    match s.probe with
    | .indirect target seq =>
      ({ s with
          pending := s.pending.erase seq
          probe :=
            if s.pending.lookup seq = none then .sleeping else .condemning target seq }, none)
    | _ => (s, none)
  | .condemn now =>
    match s.probe with
    | .condemning target _ =>
      ({ s with
          membership := (s.membership.suspect target params.retransmit now).1
          probe := .sleeping }, none)
    | _ => (s, none)
  | _ => (s, none)

/-- A step, with the packet that is sent. -/
def step (s : ProbePlane) : Event → ProbePlane × Option (SocketAddr × ProbePacket)
  | .recv buf src => (if s.inbox = .waiting then s.recv hmac secret buf src else s, none)
  | .handle now => s.handle params now
  | .partition ids => ({ s with deny := ids }, none)
  | .sync msg clock =>
    ({ s with membership := (s.membership.apply msg params.retransmit clock).1 }, none)
  | .disseminate =>
    ({ s with membership := (s.membership.takePiggyback params.gossipMax).1 }, none)
  | .linkClosed peer now =>
    ({ s with membership := (s.membership.suspect peer params.retransmit now).1 }, none)
  | e => s.loop params e

theorem inbox_loop (params : SwimParams) (s : ProbePlane) (e : Event) :
    (s.loop params e).1.inbox = s.inbox := by
  unfold loop
  repeat' split
  all_goals rfl

end

/-! ## Rounds -/

section

variable (params : SwimParams) (hmac : Hmac) (secret : Bytes)

/-- The plane behind a step. -/
def next (s : ProbePlane) (e : Event) : ProbePlane := (s.step params hmac secret e).1

/-- The receive loop takes the packet `pkt`. -/
def Receives (s : ProbePlane) (e : Event) (pkt : ProbePacket) : Prop :=
  ∃ buf src, e = .recv buf src ∧ s.inbox = .waiting ∧
    ProbePacket.decode hmac buf secret = .ok pkt ∧ s.deny.contains pkt.sender = false

/-- An ACK with the number of a pending probe is from the member that is probed. -/
def AcksMatch (s : ProbePlane) (e : Event) : Prop :=
  ∀ sender seq inc target, s.Receives hmac secret e (.ack sender seq inc) →
    s.pending.lookup seq = some target → sender = target

end

variable {params : SwimParams} {hmac : Hmac} {secret : Bytes} {s : ProbePlane} {e : Event}
  {target : NodeId} {seq : UInt64}

theorem probe_guard (pkt : ProbePacket) (r : RecvPoint) :
    (s.guard pkt r).probe = s.probe ∧ (s.guard pkt r).pending = s.pending ∧
      (s.guard pkt r).membership = s.membership := by
  unfold guard
  split
  · split_ifs <;> exact ⟨rfl, rfl, rfl⟩
  · exact ⟨rfl, rfl, rfl⟩

/-- Only an ACK that is received touches `pending`. -/
theorem pending_recv (hmac : Hmac) (secret buf : Bytes) (src : SocketAddr)
    (hinbox : s.inbox = .waiting) :
    (s.recv hmac secret buf src).probe = s.probe ∧
      (s.recv hmac secret buf src).membership = s.membership ∧
      ((s.recv hmac secret buf src).pending = s.pending ∨ ∃ sender seq inc,
        s.Receives hmac secret (.recv buf src) (.ack sender seq inc) ∧
          (s.recv hmac secret buf src).pending = s.pending.erase seq) := by
  unfold recv
  split
  · exact ⟨rfl, rfl, .inl rfl⟩
  · exact ⟨rfl, rfl, .inl rfl⟩
  · exact ⟨rfl, rfl, .inl rfl⟩
  · rename_i pkt hpkt
    unfold dispatch
    split_ifs with hdeny
    · exact ⟨rfl, rfl, .inl rfl⟩
    · split
      · obtain ⟨hprobe, hpending, hmem⟩ := probe_guard (s := s) _ _
        exact ⟨hprobe, hmem, .inl hpending⟩
      · exact ⟨rfl, rfl, .inr ⟨_, _, _,
          ⟨buf, src, rfl, hinbox, hpkt, Bool.eq_false_of_not_eq_true hdeny⟩, rfl⟩⟩
      · obtain ⟨hprobe, hpending, hmem⟩ := probe_guard (s := s) _ _
        exact ⟨hprobe, hmem, .inl hpending⟩

theorem seq_recv (hmac : Hmac) (secret buf : Bytes) (src : SocketAddr) :
    (s.recv hmac secret buf src).seq = s.seq := by
  unfold recv dispatch guard
  repeat' split
  all_goals rfl

theorem next_recv_encode (params : SwimParams) (hmac : Hmac) (secret : Bytes) (pkt : ProbePacket)
    (src : SocketAddr) : s.next params hmac secret (.recv (pkt.encode hmac secret) src) =
      if s.inbox = .waiting then s.dispatch pkt src else s := by
  simp only [next, step, recv, ProbePacket.decode_encode]

/-- What a step can do to the round and to `pending`. -/
inductive Turn (params : SwimParams) (hmac : Hmac) (secret : Bytes) (s : ProbePlane) (e : Event)
    (s' : ProbePlane) : Prop
  | keeps (hround : s'.probe.round = s.probe.round)
      (hcond : s'.probe.condemns = s.probe.condemns) (hpending : s'.pending = s.pending)
  | acked {sender : NodeId} {seq : UInt64} {inc : UInt32}
      (hrecv : s.Receives hmac secret e (.ack sender seq inc)) (hprobe : s'.probe = s.probe)
      (hpending : s'.pending = s.pending.erase seq)
  | begins {target : NodeId} (hround : s.probe.round = none)
      (hnext : s'.probe.round = some (target, s.seq))
      (hpending : s'.pending = s.pending.insert s.seq target)
  | cleared {target : NodeId} {seq : UInt64} (hround : s.probe.round = some (target, seq))
      (hcond : s.probe.condemns = false) (hlookup : s.pending.lookup seq = none)
      (hnext : s'.probe.round = none)
  | condemned (hround : s'.probe.round = s.probe.round) (hcond : s'.probe.condemns = true)
  | suspected {target : NodeId} {seq : UInt64} {now : Instant}
      (hround : s.probe.round = some (target, seq)) (hnext : s'.probe.round = none)
      (hmem : s'.membership = (s.membership.suspect target params.retransmit now).1)

theorem turn_handle (now : Instant) :
    Turn params hmac secret s (.handle now) (s.handle params now).1 := by
  unfold handle
  split <;> exact .keeps rfl rfl rfl

theorem Turn.moves {s' : ProbePlane} {p p' : ProbePoint} (hprobe : s.probe = p)
    (hnext : s'.probe = p') (hround : p'.round = p.round) (hcond : p'.condemns = p.condemns)
    (hpending : s'.pending = s.pending) : Turn params hmac secret s e s' := by
  refine .keeps ?_ ?_ hpending
  · rw [hprobe, hnext, hround]
  · rw [hprobe, hnext, hcond]

theorem turn_loop (e : Event) : Turn params hmac secret s e (s.loop params e).1 := by
  have hstay : Turn params hmac secret s e s := .keeps rfl rfl rfl
  unfold loop
  split
  case h_1 =>
    split_ifs with hprobe
    · exact .moves hprobe rfl rfl rfl rfl
    · exact hstay
  case h_2 target =>
    by_cases hprobe : s.probe = .choosing
    · rw [if_pos hprobe]
      split
      · split_ifs
        · exact .moves hprobe rfl rfl rfl rfl
        · exact hstay
      · split
        · exact hstay
        · split_ifs
          · exact .moves hprobe rfl rfl rfl rfl
          · exact hstay
    · rw [if_neg hprobe]
      exact hstay
  case h_3 =>
    split
    · rename_i target addr hprobe
      exact .begins (by rw [hprobe]; rfl) rfl rfl
    · exact hstay
  case h_4 =>
    split
    · rename_i target addr seq hprobe
      exact .moves hprobe rfl rfl rfl rfl
    · rename_i target addr seq helpers hprobe
      exact .moves hprobe rfl rfl rfl rfl
    · exact hstay
  case h_5 =>
    split
    · rename_i target addr seq pkt hprobe
      exact .moves hprobe rfl rfl rfl rfl
    · exact hstay
  case h_6 =>
    split
    · rename_i target addr seq hprobe
      split_ifs with hlookup
      · exact .cleared (by rw [hprobe]; rfl) (by rw [hprobe]; rfl) hlookup rfl
      · exact .moves hprobe rfl rfl rfl rfl
    · exact hstay
  case h_7 helpers =>
    split
    · rename_i target addr seq hprobe
      split_ifs
      · exact .moves hprobe rfl rfl rfl rfl
      · exact hstay
    · exact hstay
  case h_8 =>
    split
    · rename_i target seq hprobe
      exact .moves hprobe rfl rfl rfl rfl
    · rename_i target seq req reqs hprobe
      exact .moves hprobe rfl rfl rfl rfl
    · exact hstay
  case h_9 =>
    split
    · rename_i target seq hprobe
      by_cases hlookup : s.pending.lookup seq = none
      · refine .cleared (by rw [hprobe]; rfl) (by rw [hprobe]; rfl) hlookup ?_
        rw [if_pos hlookup]
        rfl
      · refine .condemned ?_ ?_
        · rw [if_neg hlookup, hprobe]
          rfl
        · rw [if_neg hlookup]
          rfl
    · exact hstay
  case h_10 now =>
    split
    · rename_i target seq hprobe
      exact .suspected (by rw [hprobe]; rfl) rfl rfl
    · exact hstay
  case h_11 => exact hstay

theorem turn_step (params : SwimParams) (hmac : Hmac) (secret : Bytes) (s : ProbePlane)
    (e : Event) : Turn params hmac secret s e (s.next params hmac secret e) := by
  unfold next step
  split
  case h_1 buf src =>
    split_ifs with hinbox
    · obtain ⟨hprobe, -, hpending | ⟨sender, seq, inc, hrecv, hpending⟩⟩ :=
        pending_recv hmac secret buf src hinbox
      · exact .moves rfl hprobe rfl rfl hpending
      · exact .acked hrecv hprobe hpending
    · exact .keeps rfl rfl rfl
  case h_2 now => exact turn_handle now
  case h_7 => exact turn_loop e
  all_goals exact .keeps rfl rfl rfl

/-- What a step can do to the table. -/
inductive Touched (params : SwimParams) (m : Membership) : Event → Membership → Prop
  | same {e : Event} : Touched params m e m
  | noted {e : Event} {sender : NodeId} {now : Instant} :
      Touched params m e (m.noteDirectAck sender params.retransmit now).1
  | expired {e : Event} {now : Instant} {clock : ℕ → Instant} : Touched params m e
      (m.expireSuspects params.suspicionTimeout params.retransmit now clock).1
  | suspected {e : Event} {target : NodeId} {now : Instant} :
      Touched params m e (m.suspect target params.retransmit now).1
  | applied {msg : MembershipMsg} {clock : ℕ → Instant} :
      Touched params m (.sync msg clock) (m.apply msg params.retransmit clock).1
  | taken : Touched params m .disseminate (m.takePiggyback params.gossipMax).1

theorem touched_step (params : SwimParams) (hmac : Hmac) (secret : Bytes) (s : ProbePlane)
    (e : Event) : Touched params s.membership e (s.next params hmac secret e).membership := by
  unfold next step
  split
  case h_1 buf src =>
    split_ifs with hinbox
    · rw [(pending_recv hmac secret buf src hinbox).2.1]
      exact .same
    · exact .same
  case h_2 now =>
    unfold handle
    split
    case h_2 => exact .noted
    case h_4 => exact .noted
    all_goals exact .same
  case h_4 => exact .applied
  case h_5 => exact .taken
  case h_6 => exact .suspected
  case h_7 =>
    unfold loop
    split
    case h_1 =>
      split_ifs
      · exact .expired
      · exact .same
    case h_10 =>
      split
      · exact .suspected
      · exact .same
    all_goals repeat' split
    all_goals exact .same
  all_goals exact .same

theorem Touched.absent {m m' : Membership} (h : Touched params m e m') (hm : m.Absent) :
    m'.Absent := by
  cases h with
  | same => exact hm
  | noted => exact hm.noteDirectAck
  | expired =>
    rw [Membership.expireSuspects_fst]
    exact hm.mergeAll _
  | suspected => exact hm.suspect
  | applied =>
    rw [Membership.apply_fst]
    exact hm.mergeAll _
  | taken => exact hm

/-- The probe of the round can still end in a suspicion. -/
def Held (s : ProbePlane) (t : NodeId) (n : UInt64) : Prop :=
  s.probe.condemns = true ∨ s.pending.lookup n = some t

theorem held_step {t : NodeId} {n : UInt64} (hon : s.probe.round = some (t, n))
    (hstays : (s.next params hmac secret e).probe.round = some (t, n)) (hheld : s.Held t n)
    (hmatch : s.AcksMatch hmac secret e) :
    (s.next params hmac secret e).Held t n ∨ ∃ inc, s.Receives hmac secret e (.ack t n inc) := by
  unfold Held at *
  cases turn_step params hmac secret s e with
  | keeps hround hcond hpending =>
    rw [hcond, hpending]
    exact .inl hheld
  | @acked sender seq inc hrecv hprobe hpending =>
    rw [hprobe, hpending]
    rcases hheld with hcond | hlookup
    · exact .inl (.inl hcond)
    · by_cases hseq : n = seq
      · -- the entry of the round is removed, by an ACK of its member
        subst hseq
        have hsender : sender = t := hmatch sender n inc t hrecv hlookup
        exact .inr ⟨inc, hsender ▸ hrecv⟩
      · exact .inl (.inr (by rw [AList.lookup_erase_ne hseq, hlookup]))
  | begins hround => simp [hround] at hon
  | cleared hround hcond hlookup hnext => simp [hnext] at hstays
  | condemned hround hcond => exact .inl (.inl hcond)
  | suspected hround hnext => simp [hnext] at hstays

/-- The ACK of `t` with the number `n` is received in the run from `s`. -/
def Acked (params : SwimParams) (hmac : Hmac) (secret : Bytes) (s : ProbePlane)
    (evs : List Event) (t : NodeId) (n : UInt64) : Prop :=
  ∃ mid e rest inc, evs = mid ++ e :: rest ∧
    (run (next params hmac secret) s mid).Receives hmac secret e (.ack t n inc)

theorem held_run {t : NodeId} {n : UInt64} {evs : List Event} (hon : s.probe.round = some (t, n))
    (hstays : StepsMeet (next params hmac secret)
      (fun s e => (s.next params hmac secret e).probe.round = some (t, n)) s evs)
    (hheld : s.Held t n)
    (hmatch : StepsMeet (next params hmac secret) (AcksMatch hmac secret) s evs) :
    (run (next params hmac secret) s evs).Held t n ∨ Acked params hmac secret s evs t n := by
  induction evs generalizing s with
  | nil => exact .inl hheld
  | cons e evs ih =>
    rcases held_step hon hstays.1 hheld hmatch.1 with hheld' | ⟨inc, hrecv⟩
    · rcases ih hstays.1 hstays.2 hheld' hmatch.2 with hend | ⟨mid, e', rest, inc, rfl, hrecv⟩
      · exact .inl hend
      · exact .inr ⟨e :: mid, e', rest, inc, rfl, hrecv⟩
    · exact .inr ⟨[], e, evs, inc, rfl, hrecv⟩

/-- A held probe of an alive member ends in a suspicion. -/
theorem suspected_of_held {t : NodeId} {n : UInt64} (hon : s.probe.round = some (t, n))
    (hends : (s.next params hmac secret e).probe.round = none) (hheld : s.Held t n)
    (habsent : s.membership.Absent) (halive : s.membership.stateOf t = some .alive) :
    (s.next params hmac secret e).membership.stateOf t = some .suspect := by
  cases turn_step params hmac secret s e with
  | keeps hround => simp [hround, hon] at hends
  | acked _ hprobe => simp [hprobe, hon] at hends
  | begins hround => simp [hround] at hon
  | @cleared target seq hround hcond hlookup hnext =>
    rw [hon] at hround
    cases hround
    rcases hheld with hcond' | hlookup'
    · simp [hcond] at hcond'
    · simp [hlookup] at hlookup'
  | condemned hround => simp [hround, hon] at hends
  | @suspected target seq now hround hnext hmem =>
    rw [hon] at hround
    cases hround
    rw [hmem]
    exact Membership.stateOf_suspect_of_alive habsent halive

/-- A new round is held. -/
theorem held_of_begins {t : NodeId} {n : UInt64} (hoff : s.probe.round = none)
    (hon : (s.next params hmac secret e).probe.round = some (t, n)) :
    (s.next params hmac secret e).Held t n := by
  cases turn_step params hmac secret s e with
  | keeps hround => simp [hround, hoff] at hon
  | acked _ hprobe => simp [hprobe, hoff] at hon
  | begins _ hnext hpending =>
    rw [hnext] at hon
    cases hon
    exact .inr (by rw [hpending, AList.lookup_insert])
  | cleared hround => simp [hround] at hoff
  | condemned hround => simp [hround, hoff] at hon
  | suspected hround => simp [hround] at hoff

/-- The round for `t` with the number `n`: it is on behind the event `first` and the events
    `mid`, and over behind the event `last`. -/
structure Round (params : SwimParams) (hmac : Hmac) (secret : Bytes) (s : ProbePlane)
    (first : Event) (mid : List Event) (last : Event) (t : NodeId) (n : UInt64) : Prop where
  before : s.probe.round = none
  begins : (s.next params hmac secret first).probe.round = some (t, n)
  stays : StepsMeet (next params hmac secret)
    (fun s e => (s.next params hmac secret e).probe.round = some (t, n))
    (s.next params hmac secret first) mid
  ends : (run (next params hmac secret) s (first :: (mid ++ [last]))).probe.round = none

theorem on_run {t : NodeId} {n : UInt64} {evs : List Event} (hon : s.probe.round = some (t, n))
    (hstays : StepsMeet (next params hmac secret)
      (fun s e => (s.next params hmac secret e).probe.round = some (t, n)) s evs) :
    (run (next params hmac secret) s evs).probe.round = some (t, n) :=
  run_invariant_of_stepsMeet (I := fun s : ProbePlane => s.probe.round = some (t, n))
    (fun _ _ _ h => h) hon hstays

/-- A round that ends with its member alive and not suspected has received an ACK of the
    member with its number, in every run in which an ACK with the number of a pending probe is
    from the member that is probed. -/
theorem cleared_by_target (params : SwimParams) (hmac : Hmac) (secret : Bytes) (m : Membership)
    (habsent : m.Absent) (pre mid : List Event) (first last : Event) (t : NodeId) (n : UInt64)
    (hmeet : StepsMeet (next params hmac secret) (AcksMatch hmac secret) (start m)
      (pre ++ first :: (mid ++ [last])))
    (hround : Round params hmac secret (run (next params hmac secret) (start m) pre) first mid
      last t n)
    (halive : (run (next params hmac secret) (start m) (pre ++ first :: mid)).membership.stateOf t =
      some .alive)
    (hunsuspected : (run (next params hmac secret) (start m)
      (pre ++ first :: (mid ++ [last]))).membership.stateOf t ≠ some .suspect) :
    Acked params hmac secret (run (next params hmac secret) (start m) (pre ++ [first]))
      mid t n := by
  let s := run (next params hmac secret) (start m) pre
  let s₁ := s.next params hmac secret first
  let s₂ := run (next params hmac secret) s₁ mid
  have hs₁ : run (next params hmac secret) (start m) (pre ++ [first]) = s₁ := run_append ..
  have hs₂ : run (next params hmac secret) (start m) (pre ++ first :: mid) = s₂ := run_append ..
  have hlast : run (next params hmac secret) (start m) (pre ++ first :: (mid ++ [last])) =
      s₂.next params hmac secret last := by
    rw [run_append, run_cons, run_append]
    rfl
  have habsent₂ : s₂.membership.Absent := by
    rw [← hs₂]
    exact run_invariant (I := fun s : ProbePlane => s.membership.Absent)
      (fun s e h => (touched_step params hmac secret s e).absent h) habsent
  have hmid : StepsMeet (next params hmac secret) (AcksMatch hmac secret) s₁ mid := by
    rw [stepsMeet_append] at hmeet
    exact ((stepsMeet_append _ _ _ mid [last]).mp hmeet.2.2).1
  rw [hs₁]
  rcases held_run hround.begins hround.stays (held_of_begins hround.before hround.begins) hmid with
    hheld | hacked
  · -- the probe is still held at the end of the round, so the member is suspected
    have hends : (s₂.next params hmac secret last).probe.round = none := by
      have := hround.ends
      rw [run_cons, run_append] at this
      exact this
    rw [hs₂] at halive
    rw [hlast] at hunsuspected
    exact absurd (suspected_of_held (on_run hround.begins hround.stays) hends hheld habsent₂ halive)
      hunsuspected
  · exact hacked

namespace Readdressed

/-- Parameters with a short suspicion. -/
def quick : SwimParams := { indirectK := 3, suspicionTimeout := 5, gossipMax := 8, retransmit := 4 }

/-- The table of node 1, where node 2 is alive. -/
def table : Membership := ((Membership.new 1 (homeAddr 1)).merge ⟨2, homeAddr 2, .alive, 1⟩ 4 0).1

/-- The packet as it is sent. -/
def bytes (pkt : ProbePacket) : Bytes := pkt.encode zeroMac []

/-- Up to the round for node 2. -/
def before : List Event := [.wake 10 fun _ => 10, .choose (some 2)]

/-- The round, up to the look at `pending`, with an ACK of the node `c`. -/
def during (c : NodeId) : List Event := [.view, .ping, .recv (bytes (.ack c 1 1)) (homeAddr 2)]

/-- Node 3 has the address of node 2 and answers the PING. -/
theorem three_answers :
    (step quick zeroMac [] (run (next quick zeroMac []) (start (.new 3 (homeAddr 2)))
      [.recv (bytes (.ping 1 1 1 none)) (homeAddr 1), .handle 10, .handle 10]) (.handle 10)).2 =
        some (homeAddr 1, .ack 3 1 1) := by
  decide +kernel

theorem round_ends (c : NodeId) (hc : c = 2 ∨ c = 3) : Round quick zeroMac []
    (run (next quick zeroMac []) (start table) before) .start (during c) .check 2 1 := by
  rcases hc with rfl | rfl
  · exact ⟨by decide +kernel, by decide +kernel, by decide +kernel, by decide +kernel⟩
  · exact ⟨by decide +kernel, by decide +kernel, by decide +kernel, by decide +kernel⟩

theorem not_acked : ¬Acked quick zeroMac [] (run (next quick zeroMac []) (start table)
    (before ++ [.start])) (during 3) 2 1 := by
  rintro ⟨mid, e, rest, inc, hsplit, buf, src, rfl, -, hdecode, -⟩
  have hmem : Event.recv buf src ∈ during 3 := by
    rw [hsplit]
    simp
  have hbuf : buf = bytes (.ack 3 1 1) ∧ src = homeAddr 2 := by simpa [during] using hmem
  rw [hbuf.1, bytes, ProbePacket.decode_encode] at hdecode
  cases hdecode

/-- The ACK of node 3 ends the round for node 2, which stays alive. -/
theorem cleared_by_other :
    (step quick zeroMac [] (run (next quick zeroMac []) (start (.new 3 (homeAddr 2)))
      [.recv (bytes (.ping 1 1 1 none)) (homeAddr 1), .handle 10, .handle 10]) (.handle 10)).2 =
        some (homeAddr 1, .ack 3 1 1) ∧
      Round quick zeroMac [] (run (next quick zeroMac []) (start table) before) .start (during 3)
        .check 2 1 ∧
      (run (next quick zeroMac []) (start table)
        (before ++ .start :: during 3)).membership.stateOf 2 = some .alive ∧
      (run (next quick zeroMac []) (start table)
        (before ++ .start :: (during 3 ++ [.check]))).membership.stateOf 2 = some .alive ∧
      ¬Acked quick zeroMac [] (run (next quick zeroMac []) (start table) (before ++ [.start]))
        (during 3) 2 1 :=
  ⟨three_answers, round_ends 3 (.inr rfl), by decide +kernel, by decide +kernel, not_acked⟩

theorem acks_match : StepsMeet (next quick zeroMac []) (AcksMatch zeroMac []) (start table)
    (before ++ .start :: (during 2 ++ [.check])) := by
  have hother : ∀ s e, (∀ buf src, e ≠ .recv buf src) → AcksMatch zeroMac [] s e := by
    rintro s e he sender seq inc target ⟨buf, src, rfl, -⟩
    exact absurd rfl (he buf src)
  refine ⟨hother _ _ (by simp), hother _ _ (by simp), hother _ _ (by simp), hother _ _ (by simp),
    hother _ _ (by simp), ?_, hother _ _ (by simp), trivial⟩
  rintro sender seq inc target ⟨buf, src, heq, -, hdecode, -⟩ hpending
  cases heq
  rw [bytes, ProbePacket.decode_encode] at hdecode
  cases hdecode
  have hlookup : (run (next quick zeroMac []) (start table)
      (before ++ [.start, .view, .ping])).pending.lookup 1 = some 2 := by
    decide +kernel
  exact Option.some.inj (hlookup.symm.trans hpending)

theorem acked_by_two : Acked quick zeroMac [] (run (next quick zeroMac []) (start table)
    (before ++ [.start])) (during 2) 2 1 :=
  cleared_by_target quick zeroMac [] table (Membership.Absent.merge rfl) before (during 2) .start
    .check 2 1 acks_match (round_ends 2 (.inl rfl)) (by decide +kernel) (by decide +kernel)

end Readdressed

end ProbePlane

end BeamSocket.Mesh
