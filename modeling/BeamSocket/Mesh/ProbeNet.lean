import BeamSocket.Mesh.ProbeNumbers

/-!
# Probes between honest nodes

The probe planes of nodes that never restart. PINGs and PING-REQs from one node to another
arrive in the order they were sent, once or not at all; ACKs arrive at any time, also again.
The TCP planes exchange MEMBERSHIP frames meanwhile, as in `SwimCluster`.

The replay guard of a node keeps one stamp for every sender. A helper relays a PING under its
own id with the number of the node it helps, so what it sends to one node is not in order.

* `tables_step`: on the membership tables, every step is a step of `SwimCluster` or none.
* `Inv.step`: while relayed PINGs are in order with what else a node sends, the guard accepts.
* `replayed_eq_zero`: so no PING or PING-REQ is dropped as a replay, in every such run.
* `Relayed.probe_dropped`: the first PING of a helper to a node that it has relayed a PING to is
  dropped.
-/

namespace BeamSocket.Mesh

open BeamSocket.Lib

/-- Every node has an address of its own. -/
structure Layout where
  home : NodeId → SocketAddr
  /-- The node that datagrams to an address reach. -/
  owner : SocketAddr → Option NodeId
  owner_eq_some : ∀ d b, owner d = some b ↔ d = home b

theorem Layout.home_injective (net : Layout) : Function.Injective net.home := by
  intro a b h
  have ha := (net.owner_eq_some (net.home a) a).mpr rfl
  rw [h, (net.owner_eq_some (net.home b) b).mpr rfl] at ha
  exact (Option.some.inj ha).symm

/-- The events of the TCP planes. -/
def SwimCluster.Event.overTcp : SwimCluster.Event → Bool
  | .push .. => true
  | .gossip .. => true
  | .digest .. => true
  | .deliver .. => true
  | .ack .. => false
  | .suspect .. => false
  | .expire .. => false

/-- The events of a plane in which nothing arrives from another node. -/
def ProbePlane.Event.inner : ProbePlane.Event → Bool
  | .recv .. => false
  | .sync .. => false
  | .disseminate => false
  | _ => true

namespace ProbePlane

variable {params : SwimParams} {s : ProbePlane} {e : Event} {d : SocketAddr} {pkt : ProbePacket}

/-! ## What a plane does to its guard and sends -/

/-- Only what arrives meets the replay guard. -/
theorem guard_of_inner (hmac : Hmac) (secret : Bytes) (h : e.inner = true) :
    (s.next params hmac secret e).replay = s.replay ∧
      (s.next params hmac secret e).counters.replayed = s.counters.replayed := by
  unfold next step
  split
  case h_1 => cases h
  case h_2 =>
    unfold handle
    split <;> exact ⟨rfl, rfl⟩
  case h_7 =>
    unfold loop
    repeat' split
    all_goals exact ⟨rfl, rfl⟩
  all_goals exact ⟨rfl, rfl⟩

/-- An ACK does not meet it. -/
theorem guard_of_ack (src : SocketAddr) (h : pkt.originated = false) :
    (s.dispatch pkt src).replay = s.replay ∧
      (s.dispatch pkt src).counters.replayed = s.counters.replayed := by
  unfold dispatch
  split_ifs
  · exact ⟨rfl, rfl⟩
  · cases pkt with
    | ack => exact ⟨rfl, rfl⟩
    | ping => cases h
    | pingReq => cases h

/-- A PING or PING-REQ that is newer than the mark of its sender is not counted as a replay. -/
theorem guard_of_fresh (src : SocketAddr) (h : pkt.originated = true)
    (hfresh : ∀ last, s.replay.lookup pkt.sender = some last → stampLe pkt.stamp last = false) :
    ((s.dispatch pkt src).replay = s.replay ∨
        (s.dispatch pkt src).replay = s.replay.insert pkt.sender pkt.stamp) ∧
      (s.dispatch pkt src).counters.replayed = s.counters.replayed := by
  have hguard : ∀ r, s.guard pkt r =
      { s with replay := s.replay.insert pkt.sender pkt.stamp, inbox := r } := by
    intro r
    unfold guard
    split
    · rename_i last hlast
      rw [if_neg (by simp [hfresh last hlast])]
    · rfl
  unfold dispatch
  split_ifs
  · exact ⟨.inl rfl, rfl⟩
  · cases pkt with
    | ack => cases h
    | ping =>
      dsimp only
      rw [hguard]
      exact ⟨.inr rfl, rfl⟩
    | pingReq =>
      dsimp only
      rw [hguard]
      exact ⟨.inr rfl, rfl⟩

/-- What the receive loop has ready to send bears the id of the node. -/
theorem signed_handle {now : Instant} (h : (s.handle params now).1.inbox = .sending d pkt) :
    s.inbox = .sending d pkt ∨ pkt.sender = s.membership.selfId := by
  unfold handle at h
  split at h
  case h_1 hinbox => exact .inl h
  case h_3 =>
    cases h
    exact .inr rfl
  case h_5 =>
    cases h
    exact .inr rfl
  all_goals cases h

theorem inbox_recv_ne_sending (hmac : Hmac) (secret buf : Bytes) (src : SocketAddr)
    (hinbox : s.inbox = .waiting) : (s.recv hmac secret buf src).inbox ≠ .sending d pkt := by
  unfold recv dispatch guard
  repeat' split
  all_goals simp [hinbox]

theorem signed_next (hmac : Hmac) (secret : Bytes)
    (h : (s.next params hmac secret e).inbox = .sending d pkt) :
    s.inbox = .sending d pkt ∨ pkt.sender = s.membership.selfId := by
  unfold next step at h
  split at h
  case h_1 buf src =>
    dsimp only at h
    split_ifs at h with hinbox
    · exact absurd h (inbox_recv_ne_sending hmac secret buf src hinbox)
    · exact .inl h
  case h_2 => exact signed_handle h
  case h_7 =>
    rw [inbox_loop] at h
    exact .inl h
  all_goals exact .inl h

theorem inbox_of_relays (hmac : Hmac) (secret : Bytes) (he : e.relays = true)
    (h : (s.step params hmac secret e).2 = some (d, pkt)) : s.inbox = .sending d pkt := by
  cases e with
  | handle now =>
    simp only [step, handle] at h
    split at h
    case h_6 hinbox =>
      cases h
      exact hinbox
    all_goals cases h
  | _ => cases he

end ProbePlane

/-- The probe planes of the nodes and the network between them. -/
structure ProbeNet where
  plane : NodeId → ProbePlane
  /-- All MEMBERSHIP frames that were sent. -/
  flight : List Packet
  /-- The PINGs and PING-REQs on their way from one node to another, oldest first. -/
  chan : NodeId × NodeId → List ProbePacket
  /-- All ACKs that were sent, with the node they reach. -/
  acks : List (NodeId × ProbePacket)
  /-- The stamps of the PINGs and PING-REQs sent from one node to another, those of relayed
      PINGs with `true`. -/
  log : NodeId × NodeId → List (Bool × (UInt32 × UInt64))

namespace ProbeNet

/-- The steps of the nodes, and what the network does with their packets. -/
inductive Event
  /-- The TCP planes. -/
  | tcp (e : SwimCluster.Event)
  /-- The probe plane of `a`. -/
  | plane (a : NodeId) (e : ProbePlane.Event)
  /-- The oldest PING or PING-REQ on its way from `a` to `b` arrives. -/
  | deliver (a b : NodeId)
  /-- It is lost. -/
  | lose (a b : NodeId)
  /-- The `i`-th ACK arrives. -/
  | ack (i : ℕ)

/-- The tables and frames. -/
def tables (x : ProbeNet) : SwimCluster := ⟨fun c => (x.plane c).membership, x.flight⟩

section

variable (net : Layout) (params : NodeId → SwimParams) (hmac : Hmac) (secret : Bytes)

/-- Node `a` sends a packet. -/
def post (x : ProbeNet) (a : NodeId) (relayed : Bool) :
    Option (SocketAddr × ProbePacket) → ProbeNet
  | none => x
  | some (d, pkt) =>
    match net.owner d with
    | none => x
    | some b =>
      if pkt.originated then
        { x with
          chan := Function.update x.chan (a, b) (x.chan (a, b) ++ [pkt])
          log := Function.update x.log (a, b) ((relayed, pkt.stamp) :: x.log (a, b)) }
      else { x with acks := x.acks ++ [(b, pkt)] }

/-- Node `b` gets a datagram. -/
def arrive (x : ProbeNet) (b : NodeId) (pkt : ProbePacket) : ProbeNet :=
  { x with
    plane := Function.update x.plane b ((x.plane b).next (params b) hmac secret
      (.recv (pkt.encode hmac secret) (net.home pkt.sender))) }

/-- One event. The PINGs and PING-REQs from one node to another arrive in order or are lost;
    ACKs arrive in any order, more than once or never. -/
def step (x : ProbeNet) : Event → ProbeNet
  | .tcp e =>
    if e.overTcp then
      let y := x.tables.step params e
      { x with plane := fun c => { x.plane c with membership := y.node c }, flight := y.flight }
    else x
  | .plane a e =>
    if e.inner then
      let r := (x.plane a).step (params a) hmac secret e
      { x with plane := Function.update x.plane a r.1 }.post net a e.relays r.2
    else x
  | .deliver a b =>
    match x.chan (a, b) with
    | [] => x
    | pkt :: rest =>
      if (x.plane b).inbox = .waiting then
        { x with chan := Function.update x.chan (a, b) rest }.arrive net params hmac secret b pkt
      else x
  | .lose a b => { x with chan := Function.update x.chan (a, b) (x.chan (a, b)).tail }
  | .ack i =>
    match x.acks[i]? with
    | none => x
    | some (b, pkt) => x.arrive net params hmac secret b pkt

/-- Nodes that have just started. -/
def start : ProbeNet where
  plane c := .start (.new c (net.home c))
  flight := []
  chan _ := []
  acks := []
  log _ := []

/-- A relayed PING has a stamp above all that its sender sent to the same node, and an own PING or
    PING-REQ one above all relayed PINGs there. -/
def inOrder (x : ProbeNet) : Event → Bool
  | .plane a e =>
    match ((x.plane a).step (params a) hmac secret e).2 with
    | none => true
    | some (d, pkt) =>
      match net.owner d with
      | none => true
      | some b =>
        !pkt.originated ||
          (x.log (a, b)).all fun l => !(l.1 || e.relays) || !stampLe pkt.stamp l.2
  | _ => true

/-- A round does not take the last number. -/
def hasNumber (x : ProbeNet) : Event → Bool
  | .plane a .start => (x.plane a).seq.toNat + 1 < 2 ^ 64
  | _ => true

end

variable {net : Layout} {params : NodeId → SwimParams} {hmac : Hmac} {secret : Bytes} {x : ProbeNet}
  {a b : NodeId}

/-! ## The tables -/

theorem plane_post (r : Bool) (out : Option (SocketAddr × ProbePacket)) :
    (x.post net a r out).plane = x.plane := by
  unfold post
  repeat' split
  all_goals rfl

theorem tables_post (r : Bool) (out : Option (SocketAddr × ProbePacket)) :
    (x.post net a r out).tables = x.tables := by
  unfold post
  repeat' split
  all_goals rfl

theorem tables_update (x : ProbeNet) (a : NodeId) (s : ProbePlane) :
    { x with plane := Function.update x.plane a s }.tables = x.tables.act a s.membership [] := by
  have hnode : (fun c => (Function.update x.plane a s c).membership) =
      Function.update (fun c => (x.plane c).membership) a s.membership := by
    funext c
    exact Function.apply_update (fun _ => ProbePlane.membership) x.plane a s c
  unfold tables SwimCluster.act
  rw [hnode, List.append_nil]

theorem act_self (y : SwimCluster) (a : NodeId) : y.act a (y.node a) [] = y := by
  unfold SwimCluster.act
  rw [Function.update_eq_self, List.append_nil]

/-- What a plane does to its table is a step of the cluster. -/
theorem tables_next {e : ProbePlane.Event} (hsync : ∀ msg clock, e ≠ .sync msg clock)
    (hdis : e ≠ .disseminate) :
    let y := { x with
      plane := Function.update x.plane a ((x.plane a).next (params a) hmac secret e) }
    y.tables = x.tables ∨ ∃ e', y.tables = x.tables.step params e' := by
  intro y
  have hy : y.tables = x.tables.act a ((x.plane a).next (params a) hmac secret e).membership [] :=
    tables_update ..
  rw [hy]
  have htouched := ProbePlane.touched_step (params a) hmac secret (x.plane a) e
  generalize ((x.plane a).next (params a) hmac secret e).membership = m at htouched
  cases htouched with
  | same => exact .inl (act_self x.tables a)
  | @noted _ sender now => exact .inr ⟨.ack a sender now, rfl⟩
  | @expired _ now clock => exact .inr ⟨.expire a now clock, rfl⟩
  | @suspected _ target now => exact .inr ⟨.suspect a target now, rfl⟩
  | applied => exact absurd rfl (hsync _ _)
  | taken => exact absurd rfl hdis

/-- On the tables, every step is a step of the cluster or none. -/
theorem tables_step (net : Layout) (params : NodeId → SwimParams) (hmac : Hmac) (secret : Bytes)
    (x : ProbeNet) (e : Event) :
    (x.step net params hmac secret e).tables = x.tables ∨
      ∃ e', (x.step net params hmac secret e).tables = x.tables.step params e' := by
  cases e with
  | tcp e =>
    simp only [step]
    split_ifs
    · exact .inr ⟨e, rfl⟩
    · exact .inl rfl
  | plane a e =>
    simp only [step]
    split_ifs with hinner
    · rw [tables_post]
      apply tables_next
      · rintro msg clock rfl
        cases hinner
      · rintro rfl
        cases hinner
    · exact .inl rfl
  | deliver a b =>
    simp only [step]
    split
    · exact .inl rfl
    · split_ifs
      · exact tables_next (by simp) (by simp)
      · exact .inl rfl
  | lose a b => exact .inl rfl
  | ack i =>
    simp only [step]
    split
    · exact .inl rfl
    · exact tables_next (by simp) (by simp)

/-! ## Channels and marks -/

/-- What is on its way is in the order of its stamps and above the mark that its sender has at the
    receiver, which is the stamp of a packet that was sent. So nothing was dropped. -/
structure Fifo (x : ProbeNet) : Prop where
  sender : ∀ a b, ∀ p ∈ x.chan (a, b), p.sender = a ∧ p.originated = true
  logged : ∀ a b, ∀ p ∈ x.chan (a, b), ∃ r, (r, p.stamp) ∈ x.log (a, b)
  ordered : ∀ a b, (x.chan (a, b)).Pairwise fun p q => stampLe q.stamp p.stamp = false
  mark : ∀ a b last, (x.plane b).replay.lookup a = some last → ∃ r, (r, last) ∈ x.log (a, b)
  above : ∀ a b last, (x.plane b).replay.lookup a = some last →
    ∀ p ∈ x.chan (a, b), stampLe p.stamp last = false
  acks : ∀ e ∈ x.acks, e.2.originated = false
  accepted : ∀ c, (x.plane c).counters.replayed = 0

variable {d : SocketAddr} {pkt : ProbePacket}

theorem fifo_start : Fifo (start net) where
  sender a b p hp := by cases hp
  logged a b p hp := by cases hp
  ordered a b := .nil
  mark a b last h := by cases h
  above a b last h := by cases h
  acks e he := by cases he
  accepted c := rfl

/-- The channels may lose packets, and the planes may do what leaves their guards alone. -/
theorem Fifo.weaken {y : ProbeNet} (h : Fifo x)
    (hreplay : ∀ c, (y.plane c).replay = (x.plane c).replay)
    (hcount : ∀ c, (y.plane c).counters.replayed = (x.plane c).counters.replayed)
    (hchan : ∀ k, (y.chan k).Sublist (x.chan k)) (hlog : y.log = x.log) (hacks : y.acks = x.acks) :
    Fifo y where
  sender a b p hp := h.sender a b p ((hchan _).subset hp)
  logged a b p hp := by
    rw [hlog]
    exact h.logged a b p ((hchan _).subset hp)
  ordered a b := (h.ordered a b).sublist (hchan _)
  mark a b last hlast := by
    rw [hreplay] at hlast
    rw [hlog]
    exact h.mark a b last hlast
  above a b last hlast p hp := by
    rw [hreplay] at hlast
    exact h.above a b last hlast p ((hchan _).subset hp)
  acks := by
    rw [hacks]
    exact h.acks
  accepted c := by
    rw [hcount]
    exact h.accepted c

theorem Fifo.post (h : Fifo x) (r : Bool) (hsender : pkt.sender = a)
    (hfresh : ∀ b, d = net.home b → pkt.originated = true →
      ∀ l ∈ x.log (a, b), stampLe pkt.stamp l.2 = false) :
    Fifo (x.post net a r (some (d, pkt))) := by
  unfold ProbeNet.post
  dsimp only
  split
  · exact h
  rename_i b hb
  have hnew := hfresh b ((net.owner_eq_some d b).mp hb)
  split_ifs with horig
  swap
  · refine ⟨h.sender, h.logged, h.ordered, h.mark, h.above, ?_, h.accepted⟩
    intro e he
    rcases List.mem_append.mp he with he | he
    · exact h.acks e he
    · rw [List.mem_singleton.mp he]
      exact Bool.eq_false_of_not_eq_true horig
  -- the entries of the log stay
  have hstays : ∀ a' b' l, l ∈ x.log (a', b') → l ∈ Function.update x.log (a, b)
      ((r, pkt.stamp) :: x.log (a, b)) (a', b') := by
    intro a' b' l hl
    rw [Function.update_apply]
    split_ifs with hk
    · rw [← hk]
      exact List.mem_cons_of_mem _ hl
    · exact hl
  -- what is in a channel was there, or it is the new packet
  have hcases : ∀ a' b' p, p ∈ Function.update x.chan (a, b) (x.chan (a, b) ++ [pkt]) (a', b') →
      p ∈ x.chan (a', b') ∨ ((a', b') = (a, b) ∧ p = pkt) := by
    intro a' b' p hp
    rw [Function.update_apply] at hp
    split_ifs at hp with hk
    · rw [hk]
      exact (List.mem_append.mp hp).imp id fun h => ⟨rfl, List.mem_singleton.mp h⟩
    · exact .inl hp
  refine ⟨?_, ?_, ?_, ?_, ?_, h.acks, h.accepted⟩
  · intro a' b' p hp
    rcases hcases a' b' p hp with hp | ⟨hk, rfl⟩
    · exact h.sender a' b' p hp
    · cases hk
      exact ⟨hsender, horig⟩
  · intro a' b' p hp
    rcases hcases a' b' p hp with hp | ⟨hk, rfl⟩
    · obtain ⟨r', hr'⟩ := h.logged a' b' p hp
      exact ⟨r', hstays a' b' _ hr'⟩
    · cases hk
      refine ⟨r, ?_⟩
      dsimp only
      rw [Function.update_self]
      exact List.mem_cons_self ..
  · intro a' b'
    dsimp only
    rw [Function.update_apply]
    split_ifs with hk
    · refine List.pairwise_append.mpr ⟨h.ordered a b, List.pairwise_singleton .., ?_⟩
      intro p hp q hq
      rw [List.mem_singleton.mp hq]
      obtain ⟨r', hr'⟩ := h.logged a b p hp
      exact hnew horig _ hr'
    · exact h.ordered a' b'
  · intro a' b' last hlast
    obtain ⟨r', hr'⟩ := h.mark a' b' last hlast
    exact ⟨r', hstays a' b' _ hr'⟩
  · intro a' b' last hlast p hp
    rcases hcases a' b' p hp with hp | ⟨hk, rfl⟩
    · exact h.above a' b' last hlast p hp
    · cases hk
      obtain ⟨r', hr'⟩ := h.mark a b last hlast
      exact hnew horig _ hr'

theorem plane_arrive (c : NodeId) : (x.arrive net params hmac secret b pkt).plane c =
    if c = b ∧ (x.plane b).inbox = .waiting then (x.plane b).dispatch pkt (net.home pkt.sender)
    else x.plane c := by
  unfold arrive
  dsimp only
  rw [Function.update_apply, ProbePlane.next_recv_encode]
  by_cases hc : c = b
  · subst hc
    simp
  · simp [hc]

theorem Fifo.arrive_ack (h : Fifo x) (hpkt : pkt.originated = false) :
    Fifo (x.arrive net params hmac secret b pkt) := by
  refine h.weaken ?_ ?_ (fun k => .refl _) rfl rfl
  · intro c
    rw [plane_arrive]
    split_ifs with hc
    · rw [hc.1]
      exact (ProbePlane.guard_of_ack _ hpkt).1
    · rfl
  · intro c
    rw [plane_arrive]
    split_ifs with hc
    · rw [hc.1]
      exact (ProbePlane.guard_of_ack _ hpkt).2
    · rfl

/-- The guard accepts a packet that is above the mark, and below the packets behind it. -/
theorem Fifo.arrive_probe (h : Fifo x) (hsender : pkt.sender = a) (hpkt : pkt.originated = true)
    (hlog : ∃ r, (r, pkt.stamp) ∈ x.log (a, b))
    (hmark : ∀ last, (x.plane b).replay.lookup a = some last → stampLe pkt.stamp last = false)
    (hrest : ∀ q ∈ x.chan (a, b), stampLe q.stamp pkt.stamp = false) :
    Fifo (x.arrive net params hmac secret b pkt) := by
  rw [← hsender] at hmark
  obtain ⟨hreplay, hcount⟩ := ProbePlane.guard_of_fresh (net.home pkt.sender) hpkt hmark
  have hcounts : ∀ c, ((x.arrive net params hmac secret b pkt).plane c).counters.replayed =
      (x.plane c).counters.replayed := by
    intro c
    rw [plane_arrive]
    split_ifs with hc
    · rw [hc.1, hcount]
    · rfl
  -- a mark is the old one, or the stamp of the packet
  have hmarks : ∀ a' b' last,
      ((x.arrive net params hmac secret b pkt).plane b').replay.lookup a' = some last →
        (x.plane b').replay.lookup a' = some last ∨ (a' = a ∧ b' = b ∧ last = pkt.stamp) := by
    intro a' b' last hlast
    rw [plane_arrive] at hlast
    split_ifs at hlast with hc
    swap
    · exact .inl hlast
    obtain ⟨rfl, -⟩ := hc
    rcases hreplay with heq | heq
    · rw [heq] at hlast
      exact .inl hlast
    · rw [heq, hsender] at hlast
      by_cases ha : a' = a
      · rw [ha, AList.lookup_insert] at hlast
        exact .inr ⟨ha, rfl, (Option.some.inj hlast).symm⟩
      · rw [AList.lookup_insert_ne ha] at hlast
        exact .inl hlast
  refine ⟨h.sender, h.logged, h.ordered, ?_, ?_, h.acks, ?_⟩
  · intro a' b' last hlast
    rcases hmarks a' b' last hlast with hold | ⟨rfl, rfl, rfl⟩
    · exact h.mark a' b' last hold
    · exact hlog
  · intro a' b' last hlast p hp
    rcases hmarks a' b' last hlast with hold | ⟨rfl, rfl, rfl⟩
    · exact h.above a' b' last hold p hp
    · exact hrest p hp
  · intro c
    rw [hcounts, h.accepted]

/-! ## The invariant -/

/-- What holds of the tables, of the addresses in them, and of the numbers under way. -/
structure Inv (net : Layout) (x : ProbeNet) : Prop where
  tables : x.tables.Inv
  located : x.tables.Located net.home
  numbered : ∀ a, (x.plane a).Numbered net.home fun b st => (false, st) ∈ x.log (a, b)
  signed : ∀ a d pkt, (x.plane a).inbox = .sending d pkt → pkt.sender = a
  fifo : Fifo x

theorem inv_start : Inv net (start net) where
  tables := SwimCluster.inv_start net.home
  located := SwimCluster.located_start
  numbered a := ProbePlane.numbered_start _ fun b st h => by cases h
  signed a d pkt h := by cases h
  fifo := fifo_start

/-- The tables behind a step, and that no incarnation goes down. -/
theorem Inv.tables_step (hx : Inv net x) {e : Event}
    (hbound : ∀ c, ((x.step net params hmac secret e).plane c).membership.counters.refuted <
      2 ^ 32 - 1) :
    (x.step net params hmac secret e).tables.Inv ∧
      (x.step net params hmac secret e).tables.Located net.home ∧
      ∀ c, (x.tables.node c).selfInc.toNat ≤
        ((x.step net params hmac secret e).tables.node c).selfInc.toNat := by
  replace hbound : ∀ c, ((x.step net params hmac secret e).tables.node c).counters.refuted <
      2 ^ 32 - 1 := hbound
  obtain heq | ⟨e', heq⟩ := ProbeNet.tables_step net params hmac secret x e
  · rw [heq]
    exact ⟨hx.tables, hx.located, fun c => le_rfl⟩
  · rw [heq] at hbound ⊢
    refine ⟨hx.tables.step hbound, hx.located.step e', fun c => ?_⟩
    obtain hsame | ⟨hsucc, -⟩ := hx.tables.raised hbound c
    · rw [hsame]
    · omega

theorem log_post {r : Bool} {out : Option (SocketAddr × ProbePacket)} {c : NodeId}
    {l : Bool × (UInt32 × UInt64)} (h : l ∈ (x.post net a r out).log (c, b)) :
    l ∈ x.log (c, b) ∨ (c = a ∧ ∃ pkt, out = some (net.home b, pkt) ∧ l = (r, pkt.stamp)) := by
  unfold post at h
  split at h
  · exact .inl h
  · rename_i d pkt
    split at h
    · exact .inl h
    · rename_i b' hb'
      split_ifs at h
      · dsimp only at h
        rw [Function.update_apply] at h
        split_ifs at h with hk
        · cases hk
          rcases List.mem_cons.mp h with hl | hl
          · rw [(net.owner_eq_some d b).mp hb']
            exact .inr ⟨rfl, pkt, rfl, hl⟩
          · exact .inl hl
        · exact .inl h
      · exact .inl h

theorem fresh_of_inOrder {e : ProbePlane.Event} {pkt : ProbePacket}
    (h : x.inOrder net params hmac secret (.plane a e) = true)
    (hout : ((x.plane a).step (params a) hmac secret e).2 = some (net.home b, pkt))
    (horig : pkt.originated = true) {l : Bool × (UInt32 × UInt64)} (hl : l ∈ x.log (a, b))
    (hrelayed : l.1 = true ∨ e.relays = true) : stampLe pkt.stamp l.2 = false := by
  have hb : net.owner (net.home b) = some b := (net.owner_eq_some _ _).mpr rfl
  simp only [inOrder, hout, hb, horig, Bool.not_true, Bool.false_or, List.all_eq_true] at h
  have hall := h l hl
  rcases hrelayed with hr | hr
  · simpa [hr] using hall
  · simpa [hr] using hall

/-- A plane's own step keeps its probes in order. -/
theorem Inv.numbered_next (hx : Inv net x) {e : ProbePlane.Event}
    {sent : NodeId → UInt32 × UInt64 → Prop}
    (hself : ((x.plane a).next (params a) hmac secret e).membership.selfId = a)
    (hgrows : (x.plane a).membership.selfInc.toNat ≤
      ((x.plane a).next (params a) hmac secret e).membership.selfInc.toNat)
    (hnumber : e = .start → (x.plane a).seq.toNat + 1 < 2 ^ 64)
    (hsent : ∀ b st, sent b st → (false, st) ∈ x.log (a, b) ∨ ∃ pkt,
      (if e.relays then none else ((x.plane a).step (params a) hmac secret e).2) =
        some (net.home b, pkt) ∧ st = pkt.stamp) :
    ((x.plane a).next (params a) hmac secret e).Numbered net.home sent := by
  refine (hx.numbered a).moved (ProbePlane.moved_step _ hmac secret net.home_injective
    (hx.located.node a) (hx.numbered a).sound e) (hself.trans (hx.tables.selfId a).symm) hgrows ?_
    hsent
  intro hseq
  by_cases he : e = .start
  · exact hnumber he
  · exact absurd (ProbePlane.seq_next hmac secret he) hseq

/-- What a plane has ready to send stays signed. -/
theorem Inv.signed_next (hx : Inv net x) {e : ProbePlane.Event} {d : SocketAddr}
    {pkt : ProbePacket} (h : ((x.plane a).next (params a) hmac secret e).inbox = .sending d pkt) :
    pkt.sender = a := by
  rcases ProbePlane.signed_next hmac secret h with hold | hself
  · exact hx.signed a d pkt hold
  · exact hself.trans (hx.tables.selfId a)

/-- The invariant behind a step of the plane of `a`. -/
theorem Inv.update (hx : Inv net x) {e : ProbePlane.Event} {y : ProbeNet}
    (hplane : y.plane = Function.update x.plane a ((x.plane a).next (params a) hmac secret e))
    (htables : y.tables.Inv) (hlocated : y.tables.Located net.home)
    (hgrows : ∀ c, (x.tables.node c).selfInc.toNat ≤ (y.tables.node c).selfInc.toNat)
    (hnumber : e = .start → (x.plane a).seq.toNat + 1 < 2 ^ 64)
    (hlog : ∀ c b st, (false, st) ∈ y.log (c, b) → (false, st) ∈ x.log (c, b) ∨
      (c = a ∧ ∃ pkt, (if e.relays then none else ((x.plane a).step (params a) hmac secret e).2) =
        some (net.home b, pkt) ∧ st = pkt.stamp))
    (hfifo : Fifo y) : Inv net y := by
  have hacts : y.plane a = (x.plane a).next (params a) hmac secret e := by
    rw [hplane, Function.update_self]
  have hothers : ∀ c, c ≠ a → y.plane c = x.plane c := by
    intro c hc
    rw [hplane, Function.update_of_ne hc]
  refine ⟨htables, hlocated, ?_, ?_, hfifo⟩
  · intro c
    by_cases hc : c = a
    · subst hc
      have hself := htables.selfId c
      have hinc := hgrows c
      simp only [ProbeNet.tables, hacts] at hself hinc
      rw [hacts]
      refine hx.numbered_next hself hinc hnumber fun b st hst => ?_
      exact (hlog c b st hst).imp id And.right
    · rw [hothers c hc]
      refine (hx.numbered c).moved (.refl (hx.numbered c).sound) rfl le_rfl (absurd rfl) ?_
      intro b st hst
      rcases hlog c b st hst with hst | ⟨hca, -⟩
      · exact .inl hst
      · exact absurd hca hc
  · intro c d pkt hinbox
    by_cases hc : c = a
    · subst hc
      rw [hacts] at hinbox
      exact hx.signed_next hinbox
    · rw [hothers c hc] at hinbox
      exact hx.signed c d pkt hinbox

/-- A packet that a plane sends is signed and above all that the plane sent to the same node. -/
theorem Inv.sends (hx : Inv net x) {e : ProbePlane.Event} {d : SocketAddr} {pkt : ProbePacket}
    (horder : x.inOrder net params hmac secret (.plane a e) = true)
    (hout : ((x.plane a).step (params a) hmac secret e).2 = some (d, pkt)) :
    pkt.sender = a ∧ ∀ b, d = net.home b → pkt.originated = true →
      ∀ l ∈ x.log (a, b), stampLe pkt.stamp l.2 = false := by
  by_cases hrelays : e.relays = true
  · refine ⟨hx.signed a d pkt (ProbePlane.inbox_of_relays hmac secret hrelays hout), ?_⟩
    rintro b rfl horig l hl
    exact fresh_of_inOrder horder hout horig hl (.inr hrelays)
  · have hmoved := ProbePlane.moved_step (params a) hmac secret net.home_injective
      (hx.located.node a) (hx.numbered a).sound e
    rw [if_neg hrelays, hout] at hmoved
    refine ⟨((hx.numbered a).signed hmoved.mem_due).trans (hx.tables.selfId a), ?_⟩
    rintro b rfl horig ⟨r, st⟩ hl
    cases r with
    | true => exact fresh_of_inOrder horder hout horig hl (.inl rfl)
    | false => exact (hx.numbered a).fresh hmoved.mem_due hl

theorem Inv.step_tcp (hx : Inv net x) (e : SwimCluster.Event)
    (htables : (x.tables.step params e).Inv)
    (hgrows : ∀ c, (x.tables.node c).selfInc.toNat ≤
      ((x.tables.step params e).node c).selfInc.toNat) :
    Inv net { x with
      plane := fun c => { x.plane c with membership := (x.tables.step params e).node c }
      flight := (x.tables.step params e).flight } := by
  refine ⟨htables, hx.located.step e, ?_, hx.signed, ?_⟩
  · intro c
    exact (hx.numbered c).moved (.refl (hx.numbered c).sound)
      ((htables.selfId c).trans (hx.tables.selfId c).symm) (hgrows c) (absurd rfl)
      fun b st hst => .inl hst
  · exact hx.fifo.weaken (fun c => rfl) (fun c => rfl) (fun k => .refl _) rfl rfl

/-- What a plane does on its own, and the packet that it sends. -/
theorem Inv.fifo_plane (hx : Inv net x) {e : ProbePlane.Event} (hinner : e.inner = true)
    (horder : x.inOrder net params hmac secret (.plane a e) = true) :
    Fifo ({ x with
      plane := Function.update x.plane a ((x.plane a).next (params a) hmac secret e) }.post net a
        e.relays ((x.plane a).step (params a) hmac secret e).2) := by
  obtain ⟨hreplay, hcount⟩ := ProbePlane.guard_of_inner (s := x.plane a) hmac secret hinner
  have hacts : Fifo { x with
      plane := Function.update x.plane a ((x.plane a).next (params a) hmac secret e) } := by
    refine hx.fifo.weaken ?_ ?_ (fun k => .refl _) rfl rfl
    · intro c
      dsimp only
      rw [Function.update_apply]
      split_ifs with hc
      · rw [hc]
        exact hreplay
      · rfl
    · intro c
      dsimp only
      rw [Function.update_apply]
      split_ifs with hc
      · rw [hc]
        exact hcount
      · rfl
  rcases hout : ((x.plane a).step (params a) hmac secret e).2 with _ | ⟨d, pkt⟩
  · exact hacts
  · obtain ⟨hsender, hfresh⟩ := hx.sends horder hout
    exact hacts.post e.relays hsender hfresh

/-- The oldest packet of a channel arrives. -/
theorem Inv.fifo_deliver (hx : Inv net x) {rest : List ProbePacket}
    (hchan : x.chan (a, b) = pkt :: rest) :
    Fifo ({ x with chan := Function.update x.chan (a, b) rest }.arrive net params hmac secret b
      pkt) := by
  have hmem : pkt ∈ x.chan (a, b) := by
    rw [hchan]
    exact List.mem_cons_self ..
  obtain ⟨hsender, horig⟩ := hx.fifo.sender a b pkt hmem
  have hpop : Fifo { x with chan := Function.update x.chan (a, b) rest } := by
    refine hx.fifo.weaken (fun c => rfl) (fun c => rfl) ?_ rfl rfl
    intro k
    dsimp only
    rw [Function.update_apply]
    split_ifs with hk
    · rw [hk, hchan]
      exact List.sublist_cons_self ..
    · exact .refl _
  refine hpop.arrive_probe hsender horig (hx.fifo.logged a b pkt hmem)
    (fun last hlast => hx.fifo.above a b last hlast pkt hmem) ?_
  intro q hq
  dsimp only at hq
  rw [Function.update_self] at hq
  have hordered := hx.fifo.ordered a b
  rw [hchan] at hordered
  exact (List.pairwise_cons.mp hordered).1 q hq

/-- While relayed PINGs are in order and numbers and incarnations do not wrap, every step keeps the
    invariant. -/
theorem Inv.step (hx : Inv net x) {e : Event}
    (horder : x.inOrder net params hmac secret e = true) (hnumber : x.hasNumber e = true)
    (hbound : ∀ c, ((x.step net params hmac secret e).plane c).membership.counters.refuted <
      2 ^ 32 - 1) : Inv net (x.step net params hmac secret e) := by
  obtain ⟨htables, hlocated, hgrows⟩ := hx.tables_step hbound
  cases e with
  | tcp e =>
    simp only [ProbeNet.step] at htables hlocated hgrows ⊢
    by_cases htcp : e.overTcp = true
    · simp only [if_pos htcp] at htables hlocated hgrows ⊢
      exact hx.step_tcp e htables hgrows
    · rw [if_neg htcp]
      exact hx
  | plane a e =>
    simp only [ProbeNet.step] at htables hlocated hgrows ⊢
    by_cases hinner : e.inner = true
    · simp only [if_pos hinner] at htables hlocated hgrows ⊢
      refine hx.update (plane_post ..) htables hlocated hgrows ?_ ?_ (hx.fifo_plane hinner horder)
      · rintro rfl
        exact of_decide_eq_true hnumber
      · intro c b st hst
        refine (log_post hst).imp id ?_
        rintro ⟨hc, pkt, hout, hl⟩
        obtain ⟨hrelays, hstamp⟩ := Prod.mk.inj hl
        refine ⟨hc, pkt, ?_, hstamp⟩
        rw [← hrelays]
        exact hout
    · rw [if_neg hinner]
      exact hx
  | deliver a b =>
    simp only [ProbeNet.step] at htables hlocated hgrows ⊢
    rcases hchan : x.chan (a, b) with _ | ⟨pkt, rest⟩
    · exact hx
    · simp only [hchan] at htables hlocated hgrows ⊢
      by_cases hinbox : (x.plane b).inbox = .waiting
      · simp only [if_pos hinbox] at htables hlocated hgrows ⊢
        exact hx.update rfl htables hlocated hgrows (fun h => by cases h) (fun c b st => .inl)
          (hx.fifo_deliver hchan)
      · rw [if_neg hinbox]
        exact hx
  | lose a b =>
    refine ⟨htables, hlocated, hx.numbered, hx.signed, ?_⟩
    refine hx.fifo.weaken (fun c => rfl) (fun c => rfl) ?_ rfl rfl
    intro k
    simp only [ProbeNet.step]
    rw [Function.update_apply]
    split_ifs with hk
    · rw [hk]
      exact List.tail_sublist _
    · exact .refl _
  | ack i =>
    simp only [ProbeNet.step] at htables hlocated hgrows ⊢
    rcases hack : x.acks[i]? with _ | ⟨b, pkt⟩
    · exact hx
    · simp only [hack] at htables hlocated hgrows ⊢
      refine hx.update rfl htables hlocated hgrows (fun h => by cases h) (fun c b st => .inl) ?_
      exact hx.fifo.arrive_ack (hx.fifo.acks _ (List.mem_of_getElem? hack))

/-! ## Runs -/

theorem refuted_le_step (net : Layout) (params : NodeId → SwimParams) (hmac : Hmac) (secret : Bytes)
    (x : ProbeNet) (e : Event) (c : NodeId) : (x.plane c).membership.counters.refuted ≤
      ((x.step net params hmac secret e).plane c).membership.counters.refuted := by
  show (x.tables.node c).counters.refuted ≤
    ((x.step net params hmac secret e).tables.node c).counters.refuted
  obtain heq | ⟨e', heq⟩ := tables_step net params hmac secret x e
  · rw [heq]
  · rw [heq]
    exact SwimCluster.refuted_le_step params x.tables e' c

theorem inv_run {evs : List Event}
    (hmeet : StepsMeet (step net params hmac secret)
      (fun x e => x.inOrder net params hmac secret e = true ∧ x.hasNumber e = true) (start net) evs)
    (hbound : ∀ c, ((run (step net params hmac secret) (start net) evs).plane
      c).membership.counters.refuted < 2 ^ 32 - 1) :
    Inv net (run (step net params hmac secret) (start net) evs) := by
  induction evs using List.reverseRecOn with
  | nil => exact inv_start
  | append_singleton evs e ih =>
    obtain ⟨hprev, ⟨horder, hnumber⟩, -⟩ := (stepsMeet_append ..).mp hmeet
    rw [run_append] at hbound ⊢
    refine (ih hprev fun c => ?_).step horder hnumber hbound
    exact lt_of_le_of_lt (refuted_le_step net params hmac secret _ e c) (hbound c)

/-- In every run of honest nodes that never restart, with PINGs and PING-REQs between two nodes
    delivered in order and once at most, no node drops one of them as a replay, if every step
    meets this condition: a PING that is relayed has a stamp above all that its sender sent to the
    same node, and an own PING or PING-REQ one above all relayed PINGs there; no round takes the
    last number. The own incarnation does not wrap, which takes `2 ^ 32 - 1` refutations. -/
theorem replayed_eq_zero (net : Layout) (params : NodeId → SwimParams) (hmac : Hmac)
    (secret : Bytes) (evs : List Event)
    (hmeet : StepsMeet (step net params hmac secret)
      (fun x e => x.inOrder net params hmac secret e = true ∧ x.hasNumber e = true) (start net) evs)
    (hbound : ∀ c, ((run (step net params hmac secret) (start net) evs).plane
      c).membership.counters.refuted < 2 ^ 32 - 1) (c : NodeId) :
    ((run (step net params hmac secret) (start net) evs).plane c).counters.replayed = 0 :=
  (inv_run hmeet hbound).fifo.accepted c

/-! ## A relayed PING -/

/-- The node that acts in a step. -/
def actor (x : ProbeNet) : Event → Option NodeId
  | .tcp e => x.tables.actor e
  | .plane a _ => some a
  | .deliver _ b => some b
  | .lose .. => none
  | .ack i => x.acks[i]?.map Prod.fst

theorem node_step_of_actor {e : Event} {c : NodeId} (hc : x.actor e ≠ some c) :
    (x.step net params hmac secret e).tables.node c = x.tables.node c := by
  have hupdate : ∀ (a : NodeId) (s : ProbePlane), c ≠ a →
      (Function.update x.plane a s c).membership = (x.plane c).membership := by
    intro a s hne
    rw [Function.update_of_ne hne]
  cases e with
  | tcp e =>
    simp only [step]
    split_ifs
    · show (x.tables.step params e).node c = x.tables.node c
      obtain heq | ⟨a, m, sent, heq, hacts, -⟩ := SwimCluster.step_acts params x.tables e
      · rw [heq]
      · rw [heq, SwimCluster.node_act_of_ne]
        rintro rfl
        exact hc hacts.actor
    · rfl
  | plane a e =>
    simp only [step]
    split_ifs
    · rw [tables_post]
      exact hupdate a _ fun h => hc (congrArg some h.symm)
    · rfl
  | deliver a b =>
    simp only [step]
    split
    · rfl
    · split_ifs
      · exact hupdate b _ fun h => hc (congrArg some h.symm)
      · rfl
  | lose a b => rfl
  | ack i =>
    simp only [step]
    split
    · rfl
    · rename_i b pkt hack
      refine hupdate b _ ?_
      rintro rfl
      exact hc (by rw [actor, hack, Option.map_some])

theorem node_run_of_actors {evs : List Event} (nodes : List NodeId) {c : NodeId} (hc : c ∉ nodes)
    (hactors : StepsMeet (step net params hmac secret) (fun x e => (x.actor e).all (· ∈ nodes)) x
      evs) :
    (run (step net params hmac secret) x evs).tables.node c = x.tables.node c := by
  refine run_invariant_of_stepsMeet
    (I := fun y : ProbeNet => y.tables.node c = x.tables.node c) ?_ rfl hactors
  intro y e hy hactor
  rw [node_step_of_actor, hy]
  intro heq
  rw [heq, Option.all_some, decide_eq_true_eq] at hactor
  exact hc hactor

namespace Relayed

open SwimCluster.Revival (quick)

/-- All nodes are on one host. -/
def lan : Layout where
  home := homeAddr
  owner d := if d = homeAddr d.port then some d.port else none
  owner_eq_some d b := by
    constructor
    · intro h
      split_ifs at h with hd
      cases h
      exact hd
    · rintro rfl
      exact if_pos rfl

/-- Node 1 learns of 2 and 3, and node 2 of 3. -/
def met : List Event :=
  [.tcp (.push 2 1), .tcp (.deliver 0 fun _ => 10), .tcp (.push 3 1),
    .tcp (.deliver 2 fun _ => 10), .tcp (.push 3 2), .tcp (.deliver 4 fun _ => 10)]

/-- Node `a` sends its PING to `b`. -/
def probe (a b : NodeId) : List Event :=
  [.plane a (.wake 20 fun _ => 20), .plane a (.choose (some b)), .plane a .start, .plane a .view,
    .plane a .ping]

/-- The PING of node 1 to node 3 is lost, and node 2 relays one. -/
def relayed : List Event :=
  [.lose 1 3, .plane 1 .check, .plane 1 (.ask [2]), .plane 1 .view, .plane 1 .request,
    .deliver 1 2, .plane 2 (.handle 21), .plane 2 (.handle 21), .deliver 2 3]

/-- Node 3 answers. -/
def answered : List Event := [.plane 3 (.handle 22), .plane 3 (.handle 22), .plane 3 (.handle 22)]

/-- Up to the answer of node 3. -/
def before : List Event := met ++ probe 1 3 ++ relayed ++ answered

/-- Node 2 has relayed the PING of node 1 with number 1, and its own first PING to node 3 is
    dropped. -/
theorem probe_dropped :
    ((run (step lan quick zeroMac []) (start lan) (before ++ probe 2 3)).chan (2, 3)).length = 1 ∧
      ((run (step lan quick zeroMac []) (start lan)
        (before ++ probe 2 3 ++ [.deliver 2 3])).plane 3).counters.replayed = 1 := by
  decide +kernel

theorem refuted_lt (c : NodeId) :
    ((run (step lan quick zeroMac []) (start lan) before).plane c).membership.counters.refuted <
      2 ^ 32 - 1 := by
  by_cases h1 : c = 1
  · subst h1
    decide +kernel
  by_cases h2 : c = 2
  · subst h2
    decide +kernel
  by_cases h3 : c = 3
  · subst h3
    decide +kernel
  · show ((run (step lan quick zeroMac []) (start lan) before).tables.node c).counters.refuted < _
    rw [node_run_of_actors [1, 2, 3] (by simp [h1, h2, h3]) (by decide +kernel)]
    exact Nat.zero_lt_succ _

/-- The relayed PING itself is accepted. -/
theorem relayed_accepted :
    ((run (step lan quick zeroMac []) (start lan) before).plane 3).counters.replayed = 0 :=
  replayed_eq_zero lan quick zeroMac [] before (by decide +kernel) refuted_lt 3

end Relayed

end ProbeNet

end BeamSocket.Mesh
