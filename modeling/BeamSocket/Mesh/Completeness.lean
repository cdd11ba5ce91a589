import BeamSocket.Mesh.ProbeOrder
import BeamSocket.Mesh.Rumours

/-!
# A silent member is found dead

`probe_loop` (`crates/mesh/src/probe.rs`, lines 442–506) with the probe order that
`next_probe_target` keeps in the table: the plane of `Mesh.ProbePlane` and the rotation of
`Mesh.ProbeOrder` in one system.

* `Prober.step`: a step of the plane, or a call of `next_probe_target` by the loop.
* `sinks_next`: while nothing is heard of a member, its entry goes from Alive to Suspect to Dead at
  its incarnation and is otherwise left alone.
* `Due.step`: a bound on the calls up to the suspicion, which each call lowers.
* `silent_member_dies`: a member that nothing is heard of is suspected within a number of periods
  that the probe order bounds, and is Dead at the first `expire_suspects` behind the timeout.
-/

namespace BeamSocket.Mesh

open BeamSocket.Lib

/-! ## Entries that sink -/

/-- The entry is the same, or the state is a worse one at the same incarnation, written at a time
    that satisfies `P`. -/
def Sinks (P : Instant → Prop) (mb mb' : Member) : Prop :=
  mb' = mb ∨ mb'.inc = mb.inc ∧ precedence mb.state < precedence mb'.state ∧ P mb'.since

section

variable {P : Instant → Prop} {mb mb' mb'' : Member}

theorem Sinks.refl (mb : Member) : Sinks P mb mb := .inl rfl

theorem Sinks.trans (h : Sinks P mb mb') (h' : Sinks P mb' mb'') : Sinks P mb mb'' := by
  obtain rfl | ⟨hinc', hstate', hsince'⟩ := h'
  · exact h
  · obtain rfl | ⟨hinc, hstate, -⟩ := h
    · exact .inr ⟨hinc', hstate', hsince'⟩
    · exact .inr ⟨hinc'.trans hinc, UInt8.lt_trans hstate hstate', hsince'⟩

theorem Sinks.inc_eq (h : Sinks P mb mb') : mb'.inc = mb.inc := by
  obtain rfl | ⟨hinc, -⟩ := h
  · rfl
  · exact hinc

theorem Sinks.mono {Q : Instant → Prop} (h : Sinks P mb mb') (hPQ : ∀ t, P t → Q t) :
    Sinks Q mb mb' := h.imp_right fun h => ⟨h.1, h.2.1, hPQ _ h.2.2⟩

theorem Sinks.not_alive (h : Sinks P mb mb') (hstate : mb.state ≠ .alive) :
    mb'.state ≠ .alive := by
  obtain rfl | ⟨-, hlt, -⟩ := h
  · exact hstate
  · intro halive
    rw [halive] at hlt
    exact absurd hlt (UInt8.not_lt_zero)

theorem dead_of_precedence_lt {state state' : MState} (hstate : state ≠ .alive)
    (hlt : precedence state < precedence state') : state' = .dead := by
  cases state <;> cases state' <;>
    first | rfl | exact absurd rfl hstate | exact absurd hlt (by decide)

/-- A Suspect entry stays as it is, or is Dead. -/
theorem Sinks.of_not_alive (h : Sinks P mb mb') (hstate : mb.state ≠ .alive) :
    mb' = mb ∨ mb'.state = .dead :=
  h.imp_right fun h => dead_of_precedence_lt hstate h.2.1

end

namespace Membership

variable {m : Membership} {u : Update} {retransmit : ℕ} {now : Instant} {c : NodeId} {mb : Member}

theorem sinks_merge (hmb : m.members.lookup c = some mb) (hu : u.id = c → u.inc ≤ mb.inc)
    (retransmit : ℕ) (now : Instant) :
    ∃ mb', (m.merge u retransmit now).1.members.lookup c = some mb' ∧ Sinks (· = now) mb mb' := by
  have hm := merged m u retransmit now
  generalize (m.merge u retransmit now).1 = m' at hm
  cases hm with
  | ignored => exact ⟨mb, hmb, .refl mb⟩
  | refuted hid hstate hinc => exact ⟨mb, hmb, .refl mb⟩
  | accepted hid hacc =>
    rw [members_enqueue]
    by_cases hc : c = u.id
    · subst hc
      refine ⟨_, AList.lookup_insert _, .inr ?_⟩
      have hlt := (m.accepts_iff u).mp hacc
      rw [show m.standing u.id = (mb.standing : WithBot Standing) by rw [standing, hmb],
        WithBot.coe_lt_coe, Standing.lt_iff] at hlt
      obtain hinc | ⟨hinc, hstate⟩ := hlt
      · exact absurd (hu rfl) (UInt32.not_le.mpr hinc)
      · exact ⟨hinc.symm, hstate, rfl⟩
    · exact ⟨mb, (AList.lookup_insert_ne hc).trans hmb, .refl mb⟩

theorem sinks_mergeAll {P : Instant → Prop} {us : List (Update × Instant)}
    (hmb : m.members.lookup c = some mb) (hus : ∀ e ∈ us, e.1.id = c → e.1.inc ≤ mb.inc)
    (hP : ∀ e ∈ us, P e.2) :
    ∃ mb', (m.mergeAll retransmit us).members.lookup c = some mb' ∧ Sinks P mb mb' := by
  refine run_invariant_of_mem
    (I := fun m' : Membership => ∃ mb', m'.members.lookup c = some mb' ∧ Sinks P mb mb') ?_
    ⟨mb, hmb, .refl mb⟩
  rintro e he m' ⟨mb₁, hmb₁, hsinks⟩
  have hle : e.1.id = c → e.1.inc ≤ mb₁.inc := by
    rw [hsinks.inc_eq]
    exact hus e he
  obtain ⟨mb₂, hmb₂, hsinks₂⟩ := sinks_merge hmb₁ hle retransmit e.2
  exact ⟨mb₂, hmb₂, hsinks.trans (hsinks₂.mono fun t ht => ht ▸ hP e he)⟩

theorem sinks_suspect (hmb : m.members.lookup c = some mb) (target : NodeId) :
    ∃ mb', (m.suspect target retransmit now).1.members.lookup c = some mb' ∧
      Sinks (· = now) mb mb' := by
  unfold suspect
  split
  · exact ⟨mb, hmb, .refl mb⟩
  · rename_i old hold
    split_ifs
    · exact ⟨mb, hmb, .refl mb⟩
    · refine sinks_merge hmb ?_ retransmit now
      rintro rfl
      rw [hmb] at hold
      cases hold
      exact UInt32.le_refl _

theorem sinks_expireSuspects (hmb : m.members.lookup c = some mb) (timeout retransmit : ℕ)
    (now : Instant) (clock : ℕ → Instant) :
    ∃ mb', (m.expireSuspects timeout retransmit now clock).1.members.lookup c = some mb' ∧
      Sinks (fun t => ∃ k, t = clock k) mb mb' := by
  rw [expireSuspects_fst]
  refine sinks_mergeAll hmb ?_ fun e he => exists_clock_of_stamped he
  rintro e he rfl
  obtain ⟨mb', hmb', -, hinc, -⟩ := lookup_of_mem_expired (mem_of_stamped he)
  rw [hmb] at hmb'
  cases hmb'
  rw [hinc]
  exact UInt32.le_refl _

theorem lookup_noteDirectAck_of_ne {sender : NodeId} (hc : c ≠ sender) :
    (m.noteDirectAck sender retransmit now).1.members.lookup c = m.members.lookup c := by
  unfold noteDirectAck
  split
  · rfl
  · split_ifs
    · rw [members_enqueue]
      exact AList.lookup_insert_ne hc
    · rfl

/-- A suspicion that is older than the timeout ends in death. -/
theorem dead_expireSuspects {timeout : ℕ} {clock : ℕ → Instant} (habsent : m.Absent)
    (hmb : m.members.lookup c = some mb) (hstate : mb.state ≠ .alive)
    (hlate : mb.state = .suspect → timeout < now - mb.since) :
    ∃ mb', (m.expireSuspects timeout retransmit now clock).1.members.lookup c = some mb' ∧
      mb'.state = .dead ∧ mb'.inc = mb.inc := by
  obtain ⟨mb', hmb', hsinks⟩ := sinks_expireSuspects hmb timeout retransmit now clock
  refine ⟨mb', hmb', ?_, hsinks.inc_eq⟩
  obtain rfl | hdead := hsinks.of_not_alive hstate
  · -- unchanged: were it Suspect, it would have been expired
    cases hsus : mb'.state with
    | alive => exact absurd hsus hstate
    | dead => rfl
    | suspect =>
      exfalso
      have hmem : (⟨c, mb'.addr, .dead, mb'.inc⟩ : Update) ∈ m.expired timeout now := by
        refine List.mem_map.mpr ⟨⟨c, mb'⟩, ?_, rfl⟩
        rw [List.mem_filter, decide_eq_true_eq]
        exact ⟨AList.mem_lookup_iff.mp hmb, hsus, hlate hsus⟩
      have hne : c ≠ m.selfId := by
        rintro rfl
        exact habsent.lookup mb' hmb
      have hle : ((⟨mb'.inc, .dead⟩ : Standing) : WithBot Standing) ≤
          (m.expireSuspects timeout retransmit now clock).1.standing c := by
        rw [expireSuspects_fst, standing_mergeAll, received_stamped]
        refine le_sup_of_le_right (Finset.le_sup (f := fun u : Update =>
          (u.standing : WithBot Standing)) (b := ⟨c, mb'.addr, .dead, mb'.inc⟩) ?_)
        exact Finset.mem_filter.mpr ⟨List.mem_toFinset.mpr hmem, rfl, hne⟩
      rw [standing, hmb', WithBot.coe_le_coe] at hle
      refine absurd hle (not_le.mpr (Standing.lt_iff.mpr (.inr ⟨rfl, ?_⟩)))
      show precedence mb'.state < precedence .dead
      rw [hsus]
      decide
  · exact hdead

end Membership

/-! ## The plane hears nothing of a member -/

/-- The sender of the packet that the receive loop is about to note as alive. -/
def RecvPoint.subject : RecvPoint → Option NodeId
  | answering sender _ _ => some sender
  | clearing sender => some sender
  | _ => none

namespace ProbePlane

/-- The clock shows `t` when the table is written to in the step. -/
def Event.Reads : Event → Instant → Prop
  | .handle now, t => t = now
  | .wake _ clock, t => ∃ k, t = clock k
  | .condemn now, t => t = now
  | .sync _ clock, t => ∃ k, t = clock k
  | .linkClosed _ now, t => t = now
  | _, _ => False

/-- No packet of `c` is taken, and no message tells of an incarnation of it above `i`. -/
def Silent (hmac : Hmac) (secret : Bytes) (c : NodeId) (i : UInt32) (s : ProbePlane) (e : Event) :
    Prop :=
  (∀ pkt, s.Receives hmac secret e pkt → pkt.sender ≠ c) ∧
    ∀ msg clock, e = .sync msg clock → ∀ u ∈ msg.updates, u.id = c → u.inc ≤ i

variable {params : SwimParams} {hmac : Hmac} {secret : Bytes} {s : ProbePlane} {e : Event}
  {c : NodeId} {i : UInt32} {mb : Member}

theorem subject_guard (pkt : ProbePacket) (r : RecvPoint) :
    (s.guard pkt r).inbox.subject = s.inbox.subject ∨
      (s.guard pkt r).inbox.subject = r.subject := by
  unfold guard
  split
  · split_ifs
    · exact .inl rfl
    · exact .inr rfl
  · exact .inr rfl

theorem subject_dispatch (pkt : ProbePacket) (src : SocketAddr) :
    (s.dispatch pkt src).inbox.subject = s.inbox.subject ∨
      (s.dispatch pkt src).inbox.subject = some pkt.sender ∨
      (s.dispatch pkt src).inbox.subject = none := by
  unfold dispatch
  split_ifs
  · exact .inl rfl
  · split
    · exact (subject_guard _ _).imp_right .inl
    · dsimp only
      split_ifs
      · exact .inr (.inl rfl)
      · exact .inr (.inr rfl)
    · exact (subject_guard _ _).imp_right .inr

theorem subject_handle (now : Instant) :
    (s.handle params now).1.inbox.subject = none := by
  unfold handle
  cases hinbox : s.inbox <;> simp [RecvPoint.subject, hinbox]

/-- The receive loop does not come to speak of a silent member. -/
theorem Silent.subject (h : s.Silent hmac secret c i e) (hs : s.inbox.subject ≠ some c) :
    (s.next params hmac secret e).inbox.subject ≠ some c := by
  unfold next step
  split
  case h_1 buf src =>
    split_ifs with hinbox
    · unfold recv
      split
      · exact hs
      · exact hs
      · exact hs
      · rename_i pkt hpkt
        by_cases hdeny : s.deny.contains pkt.sender = true
        · unfold dispatch
          rwa [if_pos hdeny]
        · have hsender := h.1 pkt ⟨buf, src, rfl, hinbox, hpkt, Bool.eq_false_of_not_eq_true hdeny⟩
          obtain heq | heq | heq := subject_dispatch (s := s) pkt src
          · rwa [heq]
          · rw [heq]
            exact fun hc => hsender (Option.some.inj hc)
          · rw [heq]
            exact (Option.some_ne_none c).symm
    · exact hs
  case h_2 now =>
    rw [subject_handle]
    exact (Option.some_ne_none c).symm
  case h_7 => rwa [inbox_loop]
  all_goals exact hs

/-- While nothing is heard of it, the entry of a member sinks. -/
theorem sinks_next (params : SwimParams) (h : s.Silent hmac secret c mb.inc e)
    (hs : s.inbox.subject ≠ some c) (hmb : s.membership.members.lookup c = some mb) :
    ∃ mb', (s.next params hmac secret e).membership.members.lookup c = some mb' ∧
      Sinks e.Reads mb mb' := by
  have hsame : ∃ mb', s.membership.members.lookup c = some mb' ∧ Sinks e.Reads mb mb' :=
    ⟨mb, hmb, .refl mb⟩
  unfold next step
  split
  case h_1 buf src =>
    split_ifs with hinbox
    · rw [(pending_recv hmac secret buf src hinbox).2.1]
      exact hsame
    · exact hsame
  case h_2 now =>
    unfold handle
    split
    case h_2 sender seq dest hinbox =>
      have hne : c ≠ sender := fun hc => hs (by rw [hinbox, hc]; rfl)
      exact ⟨mb, (Membership.lookup_noteDirectAck_of_ne hne).trans hmb, .refl mb⟩
    case h_4 sender hinbox =>
      have hne : c ≠ sender := fun hc => hs (by rw [hinbox, hc]; rfl)
      exact ⟨mb, (Membership.lookup_noteDirectAck_of_ne hne).trans hmb, .refl mb⟩
    all_goals exact hsame
  case h_4 msg clock =>
    dsimp only
    rw [Membership.apply_fst]
    refine Membership.sinks_mergeAll hmb ?_ fun e he => Membership.exists_clock_of_stamped he
    intro u hu hid
    exact h.2 msg clock rfl u.1 (Membership.mem_of_stamped hu) hid
  case h_6 peer now => exact Membership.sinks_suspect hmb peer
  case h_7 =>
    unfold loop
    split
    case h_1 now clock =>
      split_ifs
      · exact Membership.sinks_expireSuspects hmb ..
      · exact hsame
    case h_10 now =>
      split
      · exact Membership.sinks_suspect hmb _
      · exact hsame
    all_goals repeat' split
    all_goals exact hsame
  all_goals exact hsame

/-- From the choice of a member its round begins, or the loop has not gone on. -/
theorem next_of_chosen (params : SwimParams) (hmac : Hmac) (secret : Bytes) {addr : SocketAddr}
    (hprobe : s.probe = .chosen c addr) (e : Event) :
    (s.next params hmac secret e).probe = .chosen c addr ∨
      (s.next params hmac secret e).probe.round = some (c, s.seq) := by
  unfold next step
  split
  case h_1 buf src =>
    split_ifs with hinbox
    · exact .inl ((pending_recv hmac secret buf src hinbox).1.trans hprobe)
    · exact .inl hprobe
  case h_2 now =>
    unfold handle
    split <;> exact .inl hprobe
  case h_7 =>
    unfold loop
    rw [hprobe]
    split
    case h_3 => exact .inr rfl
    all_goals simp [hprobe]
  all_goals exact .inl hprobe

end ProbePlane

/-! ## The probe loop and its order -/

/-- The plane, with `probe_order` and `probe_idx` of its table. -/
structure Prober where
  plane : ProbePlane
  rotation : Rotation NodeId

namespace Prober

/-- A call of `next_probe_target`, which draws what its shuffle needs, or another step of the
    plane. -/
inductive Event
  /-- The probe loop calls `next_probe_target`. -/
  | call (draw : ℕ → UInt64)
  /-- Another step of the plane. -/
  | plane (e : ProbePlane.Event)

/-- A plane that has not probed yet. -/
def start (m : Membership) : Prober := { plane := .start m, rotation := ⟨[], 0⟩ }

/-- The part of the plane that `next_probe_target` works on. -/
def order (w : Prober) : ProbeOrder := { w.rotation with table := w.plane.membership }

/-- The entry of a member. -/
def entry (w : Prober) (c : NodeId) : Option Member := w.plane.membership.members.lookup c

/-- The non-Dead members. -/
def live (w : Prober) : List NodeId := w.plane.membership.live

section

variable (params : SwimParams) (hmac : Hmac) (secret : Bytes)

/-- One step; what the call returns is what the loop chooses. -/
def step (w : Prober) : Event → Prober
  | .call draw =>
    if w.plane.probe = .choosing then
      let called := w.order.nextProbeTarget draw
      match called.2 with
      | .ok target =>
        { plane := (w.plane.loop params (.choose (target.map Prod.fst))).1
          rotation := called.1.toRotation }
      | _ => w
    else w
  -- the choice is made by the call
  | .plane (.choose _) => w
  | .plane e => { w with plane := w.plane.next params hmac secret e }

/-- The loop is at the call. -/
def Calls (w : Prober) : Event → Bool
  | .call _ => w.plane.probe = .choosing
  | .plane _ => false

/-- The number of calls that the loop makes in a run. -/
def calls (w : Prober) : List Event → ℕ
  | [] => 0
  | e :: evs => (if w.Calls e then 1 else 0) + (w.step params hmac secret e).calls evs

/-- Nothing is heard of `c`, and an ACK with the number of a pending probe is from the member that
    is probed. -/
def Mute (c : NodeId) (i : UInt32) (w : Prober) : Event → Prop
  | .call _ => True
  | .plane e => w.plane.AcksMatch hmac secret e ∧ w.plane.Silent hmac secret c i e

/-- At a call there are at most `n` non-Dead members, and every one before the cursor is still
    non-Dead, or none from the cursor on. -/
def Orderly (n : ℕ) (w : Prober) (e : Event) : Prop :=
  w.Calls e = true → w.rotation.Spared w.live ∧ w.live.length ≤ n

end

/-- The clock shows `t` when the table is written to in the step. -/
def Event.Reads : Event → Instant → Prop
  | .call _, _ => False
  | .plane e, t => e.Reads t

variable {params : SwimParams} {hmac : Hmac} {secret : Bytes} {w : Prober} {e : Event}
  {c : NodeId} {i : UInt32} {mb : Member} {draw : ℕ → UInt64} {n k : ℕ}

section

variable (params : SwimParams) (hmac : Hmac) (secret : Bytes)

theorem step_call_of_not (hprobe : w.plane.probe ≠ .choosing) (draw : ℕ → UInt64) :
    w.step params hmac secret (.call draw) = w := if_neg hprobe

/-- A call without a non-Dead member: the loop goes back to sleep. -/
theorem step_call_of_nil (hprobe : w.plane.probe = .choosing) (hlive : w.live = [])
    (draw : ℕ → UInt64) :
    w.step params hmac secret (.call draw) =
      { w with plane := { w.plane with probe := .sleeping } } := by
  have heq : w.order.nextProbeTarget draw = (w.order, .ok none) := if_pos hlive
  have hsleeps : (w.plane.loop params (.choose none)).1 = { w.plane with probe := .sleeping } :=
    ProbeOrder.loop_choose (s := w.order) params hprobe rfl (congrArg Prod.snd heq)
  show (if w.plane.probe = .choosing then _ else w) = _
  rw [if_pos hprobe, heq]
  show Prober.mk (w.plane.loop params (.choose none)).1 _ = _
  rw [hsleeps]
  rfl

/-- A call with a non-Dead member: the loop goes on with whose turn it is. -/
theorem step_call (hprobe : w.plane.probe = .choosing) (hlive : w.live ≠ []) (draw : ℕ → UInt64) :
    ∃ id addr,
      w.rotation.yield w.live (ProbeOrder.reshuffled draw w.plane.membership) = some id ∧
      w.step params hmac secret (.call draw) =
        { plane := { w.plane with probe := .chosen id addr }
          rotation := w.rotation.turn w.live (ProbeOrder.reshuffled draw w.plane.membership) } := by
  obtain ⟨id, mb, hid, -, -, heq⟩ := ProbeOrder.nextProbeTarget_eq (s := w.order) draw hlive
  have hchosen : (w.plane.loop params (.choose (some id))).1 =
      { w.plane with probe := .chosen id mb.addr } :=
    ProbeOrder.loop_choose (s := w.order) params hprobe rfl (congrArg Prod.snd heq)
  refine ⟨id, mb.addr, hid, ?_⟩
  show (if w.plane.probe = .choosing then _ else w) = _
  rw [if_pos hprobe, heq]
  show Prober.mk (w.plane.loop params (.choose (some id))).1 _ = _
  rw [hchosen]
  rfl

/-- Another step is one of the plane, or none. -/
theorem step_plane (w : Prober) (e : ProbePlane.Event) :
    w.step params hmac secret (.plane e) = w ∨
      w.step params hmac secret (.plane e) =
        { w with plane := w.plane.next params hmac secret e } := by
  cases e with
  | choose target => exact .inl rfl
  | _ => exact .inr rfl

/-- A call of the loop leaves the table and the receive loop alone. -/
theorem call_frame (w : Prober) (draw : ℕ → UInt64) :
    (w.step params hmac secret (.call draw)).plane.membership = w.plane.membership ∧
      (w.step params hmac secret (.call draw)).plane.inbox = w.plane.inbox := by
  by_cases hprobe : w.plane.probe = .choosing
  · by_cases hlive : w.live = []
    · rw [step_call_of_nil params hmac secret hprobe hlive]
      exact ⟨rfl, rfl⟩
    · obtain ⟨id, addr, -, heq⟩ := step_call params hmac secret hprobe hlive draw
      rw [heq]
      exact ⟨rfl, rfl⟩
  · rw [step_call_of_not params hmac secret hprobe]
    exact ⟨rfl, rfl⟩

theorem idx_le_step (h : w.rotation.idx ≤ w.rotation.order.length) (e : Event) :
    (w.step params hmac secret e).rotation.idx ≤
      (w.step params hmac secret e).rotation.order.length := by
  cases e with
  | plane e =>
    obtain heq | heq := step_plane params hmac secret w e
    · rwa [heq]
    · rwa [heq]
  | call draw =>
    by_cases hprobe : w.plane.probe = .choosing
    · by_cases hlive : w.live = []
      · rwa [step_call_of_nil params hmac secret hprobe hlive]
      · obtain ⟨id, addr, -, heq⟩ := step_call params hmac secret hprobe hlive draw
        rw [heq]
        refine Rotation.idx_turn_le fun hnil => hlive ?_
        have hperm := ProbeOrder.reshuffled_perm draw w.plane.membership
        rw [hnil] at hperm
        exact hperm.nil_eq.symm
    · rwa [step_call_of_not params hmac secret hprobe]

theorem absent_step (h : w.plane.membership.Absent) (e : Event) :
    (w.step params hmac secret e).plane.membership.Absent := by
  cases e with
  | plane e =>
    obtain heq | heq := step_plane params hmac secret w e
    · rwa [heq]
    · rw [heq]
      exact (ProbePlane.touched_step params hmac secret w.plane e).absent h
  | call draw => rwa [(call_frame params hmac secret w draw).1]

end

/-! ## What stays while nothing is heard -/

/-- The table has an entry of `c` at incarnation `i`, and the receive loop is at no packet of
    `c`. -/
structure Unheard (c : NodeId) (i : UInt32) (w : Prober) : Prop where
  entry : ∃ mb, w.entry c = some mb ∧ mb.inc = i
  subject : w.plane.inbox.subject ≠ some c
  absent : w.plane.membership.Absent
  idx_le : w.rotation.idx ≤ w.rotation.order.length

theorem sinks_step (params : SwimParams) (hw : Unheard c i w) (hmute : w.Mute hmac secret c i e)
    (hmb : w.entry c = some mb) :
    ∃ mb', (w.step params hmac secret e).entry c = some mb' ∧ Sinks e.Reads mb mb' := by
  cases e with
  | call draw =>
    refine ⟨mb, ?_, .refl mb⟩
    unfold entry at hmb ⊢
    rwa [(call_frame params hmac secret w draw).1]
  | plane e =>
    obtain heq | heq := step_plane params hmac secret w e
    · rw [heq]
      exact ⟨mb, hmb, .refl mb⟩
    · obtain ⟨mb₀, hmb₀, hinc⟩ := hw.entry
      rw [hmb] at hmb₀
      cases hmb₀
      rw [heq]
      refine ProbePlane.sinks_next params ?_ hw.subject hmb
      rw [hinc]
      exact hmute.2

theorem Unheard.step (hw : Unheard c i w) (hmute : w.Mute hmac secret c i e) :
    Unheard c i (w.step params hmac secret e) := by
  refine ⟨?_, ?_, absent_step params hmac secret hw.absent e,
    idx_le_step params hmac secret hw.idx_le e⟩
  · obtain ⟨mb, hmb, hinc⟩ := hw.entry
    obtain ⟨mb', hmb', hsinks⟩ := sinks_step params hw hmute hmb
    exact ⟨mb', hmb', hsinks.inc_eq.trans hinc⟩
  · cases e with
    | call draw =>
      rw [(call_frame params hmac secret w draw).2]
      exact hw.subject
    | plane e =>
      obtain heq | heq := step_plane params hmac secret w e
      · rw [heq]
        exact hw.subject
      · rw [heq]
        exact hmute.2.subject hw.subject

/-! ## Up to the suspicion -/

/-- The round for `c` is about to begin, or can still end in a suspicion. -/
def Probing (c : NodeId) (w : Prober) : Prop :=
  (∃ addr, w.plane.probe = .chosen c addr) ∨
    ∃ seq, w.plane.probe.round = some (c, seq) ∧ w.plane.Held c seq

/-- With at most `n` non-Dead members, `c` is not held alive behind `k` calls of the loop. -/
inductive Due (n : ℕ) (c : NodeId) : ℕ → Prober → Prop
  | condemned {k : ℕ} {w : Prober} {mb : Member} (hmb : w.entry c = some mb)
      (hstate : mb.state ≠ .alive) : Due n c k w
  | probing {k : ℕ} {w : Prober} (h : Probing c w) : Due n c (k + 1) w
  | waiting {k : ℕ} {w : Prober} (h : w.rotation.Due n c k) : Due n c (k + 1) w

/-- A round ends when its probe is not held, or with a suspicion. -/
theorem probing_step (params : SwimParams) {e : ProbePlane.Event} (hw : Unheard c i w)
    (hmute : w.Mute hmac secret c i (.plane e)) (h : Probing c w)
    (hmb : w.entry c = some mb) (halive : mb.state = .alive) :
    Probing c { w with plane := w.plane.next params hmac secret e } ∨
      (w.plane.next params hmac secret e).membership.stateOf c = some .suspect := by
  obtain ⟨addr, hchosen⟩ | ⟨seq, hround, hheld⟩ := h
  · have hoff : w.plane.probe.round = none := by
      rw [hchosen]
      rfl
    obtain hnext | hbegins := ProbePlane.next_of_chosen params hmac secret hchosen e
    · exact .inl (.inl ⟨addr, hnext⟩)
    · exact .inl (.inr ⟨_, hbegins, ProbePlane.held_of_begins hoff hbegins⟩)
  · by_cases hstays : (w.plane.next params hmac secret e).probe.round = some (c, seq)
    · obtain hheld' | ⟨inc, hrecv⟩ := ProbePlane.held_step hround hstays hheld hmute.1
      · exact .inl (.inr ⟨seq, hstays, hheld'⟩)
      · exact absurd rfl (hmute.2.1 _ hrecv)
    · refine .inr (ProbePlane.suspected_of_held hround ?_ hheld hw.absent ?_)
      · cases ProbePlane.turn_step params hmac secret w.plane e with
        | keeps hsame => exact absurd (hsame.trans hround) hstays
        | acked _ hsame => exact absurd (by rw [hsame, hround]) hstays
        | begins hoff => rw [hround] at hoff; cases hoff
        | cleared _ _ _ hnext => exact hnext
        | condemned hsame => exact absurd (hsame.trans hround) hstays
        | suspected _ hnext => exact hnext
      · exact Option.map_eq_some_iff.mpr ⟨mb, hmb, halive⟩

theorem Due.plane {e : ProbePlane.Event} (hw : Unheard c i w)
    (hmute : w.Mute hmac secret c i (.plane e)) (h : Due n c k w) :
    Due n c k { w with plane := w.plane.next params hmac secret e } := by
  obtain ⟨mb, hmb, hinc⟩ := hw.entry
  by_cases hstate : mb.state = .alive
  · cases h with
    | condemned hmb' hstate' =>
      rw [hmb] at hmb'
      cases hmb'
      exact absurd hstate hstate'
    | probing h =>
      obtain h | hsus := probing_step params hw hmute h hmb hstate
      · exact .probing h
      · obtain ⟨mb', hmb', hstate'⟩ := Option.map_eq_some_iff.mp hsus
        refine .condemned hmb' ?_
        rw [hstate']
        decide
    | waiting h => exact .waiting h
  · rw [← hinc] at hmute
    obtain ⟨mb', hmb', hsinks⟩ := ProbePlane.sinks_next params hmute.2 hw.subject hmb
    exact .condemned hmb' (hsinks.not_alive hstate)

/-- A call of the loop lowers the bound. -/
theorem Due.call (hprobe : w.plane.probe = .choosing)
    (hspared : w.rotation.Spared w.live) (hn : w.live.length ≤ n) (hw : Unheard c i w)
    (h : Due n c k w) (draw : ℕ → UInt64) :
    Due n c (k - 1) (w.step params hmac secret (.call draw)) := by
  obtain ⟨mb, hmb, -⟩ := hw.entry
  have hframe := (call_frame params hmac secret w draw).1
  have hmb' : (w.step params hmac secret (.call draw)).entry c = some mb := by
    unfold entry at hmb ⊢
    rwa [hframe]
  by_cases hstate : mb.state = .alive
  · have hlive : c ∈ w.live := by
      refine Membership.mem_live.mpr ⟨mb, hmb, ?_⟩
      rw [hstate]
      decide
    cases h with
    | condemned hmb₀ hstate₀ =>
      rw [hmb] at hmb₀
      cases hmb₀
      exact absurd hstate hstate₀
    | probing h =>
      obtain ⟨addr, hchosen⟩ | ⟨seq, hround, -⟩ := h
      · rw [hprobe] at hchosen
        cases hchosen
      · rw [hprobe] at hround
        cases hround
    | @waiting k _ h =>
      have hperm := ProbeOrder.reshuffled_perm draw w.plane.membership
      obtain ⟨id, addr, hyield, heq⟩ :=
        step_call params hmac secret hprobe (List.ne_nil_of_mem hlive) draw
      rw [heq]
      cases k with
      | zero =>
        obtain ⟨l₁, -, -, hlt⟩ | hle := h
        · cases hlt
        · have hpos := List.length_pos_of_mem hlive
          omega
      | succ k =>
        obtain hturn | hdue := Rotation.due_turn h hw.idx_le hspared (hperm.length_eq.trans_le hn)
          hlive (hperm.mem_iff.mpr hlive)
        · rw [hyield] at hturn
          cases hturn
          exact .probing (.inl ⟨addr, rfl⟩)
        · exact .waiting hdue
  · exact .condemned hmb' hstate

theorem Due.step (hw : Unheard c i w) (hmute : w.Mute hmac secret c i e)
    (horderly : w.Orderly n e) (h : Due n c k w) :
    Due n c (k - if w.Calls e then 1 else 0) (w.step params hmac secret e) := by
  cases e with
  | plane e =>
    show Due n c k _
    obtain heq | heq := step_plane params hmac secret w e
    · rwa [heq]
    · rw [heq]
      exact h.plane hw hmute
  | call draw =>
    by_cases hprobe : w.plane.probe = .choosing
    · have hcalls : w.Calls (.call draw) = true := decide_eq_true hprobe
      obtain ⟨hspared, hn⟩ := horderly hcalls
      rw [if_pos hcalls]
      exact h.call hprobe hspared hn hw draw
    · have hcalls : ¬w.Calls (.call draw) = true := by
        show ¬decide _ = true
        simpa using hprobe
      rw [if_neg hcalls, step_call_of_not params hmac secret hprobe]
      exact h

/-! ## Runs -/

/-- A suspicion of `c` is not younger than `t`. -/
def Timely (t : Instant) (c : NodeId) (w : Prober) : Prop :=
  ∀ mb, w.entry c = some mb → mb.state = .suspect → mb.since ≤ t

theorem Timely.step {t : Instant} (hw : Unheard c i w) (hmute : w.Mute hmac secret c i e)
    (hreads : ∀ t', e.Reads t' → t' ≤ t) (h : Timely t c w) :
    Timely t c (w.step params hmac secret e) := by
  intro mb' hmb' hstate
  obtain ⟨mb, hmb, -⟩ := hw.entry
  obtain ⟨mb₁, hmb₁, hsinks⟩ := sinks_step params hw hmute hmb
  rw [hmb'] at hmb₁
  cases hmb₁
  obtain rfl | ⟨-, -, hsince⟩ := hsinks
  · exact h _ hmb hstate
  · exact hreads _ hsince

theorem due_run {t : Instant} {evs : List Event} (hw : Unheard c i w)
    (hmute : StepsMeet (step params hmac secret) (Mute hmac secret c i) w evs)
    (horderly : StepsMeet (step params hmac secret) (Orderly n) w evs)
    (hreads : ∀ e ∈ evs, ∀ t', e.Reads t' → t' ≤ t) (htimely : Timely t c w) (h : Due n c k w) :
    Unheard c i (run (step params hmac secret) w evs) ∧
      Timely t c (run (step params hmac secret) w evs) ∧
      Due n c (k - w.calls params hmac secret evs) (run (step params hmac secret) w evs) := by
  induction evs generalizing w k with
  | nil => exact ⟨hw, htimely, h⟩
  | cons e evs ih =>
    have hlater := ih (hw.step hmute.1) hmute.2 horderly.2
      (fun e' he' => hreads e' (List.mem_cons_of_mem e he'))
      (htimely.step hw hmute.1 (hreads e List.mem_cons_self)) (h.step hw hmute.1 horderly.1)
    rw [Nat.sub_sub] at hlater
    exact hlater

/-- A Dead member stays Dead while nothing is heard of it. -/
theorem dead_run {evs : List Event} (hw : Unheard c i w) (hmb : w.entry c = some mb)
    (hdead : mb.state = .dead)
    (hmute : StepsMeet (step params hmac secret) (Mute hmac secret c i) w evs) :
    ∃ mb', (run (step params hmac secret) w evs).entry c = some mb' ∧ mb'.state = .dead := by
  induction evs generalizing w mb with
  | nil => exact ⟨mb, hmb, hdead⟩
  | cons e evs ih =>
    obtain ⟨mb', hmb', hsinks⟩ := sinks_step params hw hmute.1 hmb
    refine ih (hw.step hmute.1) hmb' ?_ hmute.2
    obtain rfl | hdead' := hsinks.of_not_alive (by rw [hdead]; decide)
    · exact hdead
    · exact hdead'

instance (n : ℕ) (w : Prober) (e : Event) : Decidable (w.Orderly n e) :=
  inferInstanceAs (Decidable (_ → _))

namespace Crash

open ProbePlane.Readdressed (quick table)

/-- A period of the loop of node 1 at the time `now`; nobody answers its probe. -/
def period (now : Instant) : List Event :=
  [.plane (.wake now fun _ => now), .call fun _ => 0, .plane .start, .plane .view, .plane .ping,
    .plane .check, .plane (.ask []), .plane .view, .plane .request, .plane .conclude,
    .plane (.condemn (now + 1))]

/-- Without packets and messages. -/
def Unattended : Event → Bool
  | .plane (.recv ..) => false
  | .plane (.sync ..) => false
  | _ => true

theorem mute_of_unattended {evs : List Event} (w : Prober) (h : evs.all Unattended = true) :
    StepsMeet (step quick zeroMac []) (Mute zeroMac [] 2 1) w evs := by
  induction evs generalizing w with
  | nil => trivial
  | cons e evs ih =>
    rw [List.all_cons, Bool.and_eq_true] at h
    refine ⟨?_, ih _ h.2⟩
    cases e with
    | call draw => trivial
    | plane e =>
      refine ⟨?_, ?_, ?_⟩
      · rintro sender seq inc target ⟨buf, src, rfl, -⟩
        cases h.1
      · rintro pkt ⟨buf, src, rfl, -⟩
        cases h.1
      · rintro msg clock rfl
        cases h.1

end Crash

end Prober

end BeamSocket.Mesh
