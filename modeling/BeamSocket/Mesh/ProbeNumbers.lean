import BeamSocket.Mesh.Addresses
import BeamSocket.Mesh.ProbePlane

/-!
# The numbers of a node's own probes

The probe loop gives every round the next number and reads the own incarnation before it
sends. In a round it sends to an address once, since the helpers are other members than the
target. So what it sends to one node bears ever higher stamps.

* `ProbePlane.Moved`: what a step does to the packets of the round that are left to send.
* `Numbered.moved`: every step keeps the stamps of the own probes in order, while incarnation
  and number do not wrap.
* `Numbered.fresh`: a packet that the loop sends is above all that it sent to the same node.
-/

namespace BeamSocket.Mesh

open BeamSocket.Lib

namespace ProbePoint

/-- The packets of the round that are ready to be sent. -/
def due : ProbePoint → List (SocketAddr × ProbePacket)
  | sending _ addr _ pkt => [(addr, pkt)]
  | requesting _ _ reqs => reqs
  | _ => []

/-- The round has sent nothing to the address, and may do so. -/
def Spares : ProbePoint → SocketAddr → Prop
  | pinging .., _ => True
  | sending .., _ => True
  | direct _ addr _, d => d ≠ addr
  | escalating _ addr _, d => d ≠ addr
  | asking _ _ _ helpers, d => d ∈ helpers.map Prod.snd
  | requesting _ _ reqs, d => d ∈ reqs.map Prod.fst
  | _, _ => False

/-- The target has the address that is probed, and the helpers have addresses of their own. -/
def Sound (home : NodeId → SocketAddr) : ProbePoint → Prop
  | chosen target addr => addr = home target
  | pinging target addr _ => addr = home target
  | sending target addr _ _ => addr = home target
  | direct target addr _ => addr = home target
  | escalating target addr _ => addr = home target
  | asking _ _ _ helpers => (helpers.map Prod.snd).Nodup
  | requesting _ _ reqs => (reqs.map Prod.fst).Nodup
  | _ => True

theorem spares_of_mem_due {p : ProbePoint} {r : SocketAddr × ProbePacket} (h : r ∈ p.due) :
    p.Spares r.1 := by
  cases p with
  | sending => exact trivial
  | requesting target seq reqs => exact List.mem_map_of_mem h
  | _ => cases h

/-- What a step does to the round, its packets and the next number, when the table is `m` before
    the step and the loop sends `out`. -/
inductive Moved (home : NodeId → SocketAddr) (m : Membership) (seq : UInt64) (p : ProbePoint) :
    ProbePoint → UInt64 → Option (SocketAddr × ProbePacket) → Prop
  | rests {p' : ProbePoint} (hround : p'.round = none ∨ p'.round = p.round)
      (hspares : ∀ d, p'.Spares d → p.Spares d) (hdue : ∀ r ∈ p'.due, r ∈ p.due)
      (hsound : p'.Sound home) : Moved home m seq p p' seq none
  | starts {target : NodeId} {addr : SocketAddr} (hsound : addr = home target) :
      Moved home m seq p (.pinging target addr seq) (seq + 1) none
  | views {p' : ProbePoint} {target : NodeId} {n : UInt64} (hon : p.round = some (target, n))
      (hround : p'.round = some (target, n)) (hspares : ∀ d, p'.Spares d → p.Spares d)
      (hdue : ∀ r ∈ p'.due, r.2.stamp = (m.selfInc, n) ∧ r.2.sender = m.selfId)
      (hsound : p'.Sound home) : Moved home m seq p p' seq none
  | sends {p' : ProbePoint} {d : SocketAddr} {pkt : ProbePacket} (hpkt : (d, pkt) ∈ p.due)
      (hround : p'.round = p.round) (hspares : ∀ d', p'.Spares d' → p.Spares d' ∧ d' ≠ d)
      (hdue : ∀ r ∈ p'.due, r ∈ p.due) (hsound : p'.Sound home) :
      Moved home m seq p p' seq (some (d, pkt))

theorem Moved.refl {home : NodeId → SocketAddr} {m : Membership} {seq : UInt64} {p : ProbePoint}
    (hsound : p.Sound home) : Moved home m seq p p seq none :=
  .rests (.inr rfl) (fun _ h => h) (fun _ h => h) hsound

theorem Moved.mem_due {home : NodeId → SocketAddr} {m : Membership} {seq seq' : UInt64}
    {p p' : ProbePoint} {r : SocketAddr × ProbePacket}
    (h : Moved home m seq p p' seq' (some r)) : r ∈ p.due := by
  cases h with
  | sends hpkt => exact hpkt

end ProbePoint

namespace ProbePlane

open ProbePoint

variable {params : SwimParams} {home : NodeId → SocketAddr} {s : ProbePlane} {target : NodeId}
  {addr : SocketAddr} {seq : UInt64} {helpers : List NodeId}

/-- The helpers with the addresses that the table has for them. -/
theorem addr_of_mem_helpers (hloc : s.membership.Located home) {h : NodeId} {d : SocketAddr}
    (hmem : d ∈ ((s.membership.members.lookup h).map fun mb => (h, mb.addr)).map Prod.snd) :
    d = home h := by
  rw [Option.map_map, Option.mem_map] at hmem
  obtain ⟨mb, hmb, rfl⟩ := hmem
  exact hloc.member h mb hmb

theorem ne_target_of_mem_available {h : NodeId} (hmem : h ∈ s.available target) : h ≠ target := by
  obtain ⟨e, he, rfl⟩ := List.mem_map.mp hmem
  have hcond := (List.mem_filter.mp he).2
  rw [decide_eq_true_eq] at hcond
  exact hcond.1

theorem moved_ask (hinj : Function.Injective home) (hloc : s.membership.Located home)
    (hsound : addr = home target) (hnodup : helpers.Nodup)
    (hsub : helpers ⊆ s.available target) :
    Moved home s.membership s.seq (.escalating target addr seq)
      (.asking target addr seq (helpers.filterMap fun h =>
        (s.membership.members.lookup h).map fun mb => (h, mb.addr))) s.seq none := by
  refine .rests (.inr rfl) ?_ (fun r h => h) ?_
  · intro d hd
    rw [Spares, List.map_filterMap, List.mem_filterMap] at hd
    obtain ⟨h, hh, hd⟩ := hd
    rw [Spares, addr_of_mem_helpers hloc hd, hsound]
    exact fun heq => ne_target_of_mem_available (hsub hh) (hinj heq)
  · rw [Sound, List.map_filterMap]
    refine hnodup.filterMap fun h h' d hd hd' => ?_
    apply hinj
    rw [← addr_of_mem_helpers hloc hd, ← addr_of_mem_helpers hloc hd']

theorem moved_loop (hinj : Function.Injective home) (hloc : s.membership.Located home)
    (hsound : s.probe.Sound home) (e : Event) : Moved home s.membership s.seq s.probe
      (s.loop params e).1.probe (s.loop params e).1.seq (s.loop params e).2 := by
  have hstay : Moved home s.membership s.seq s.probe s.probe s.seq none := .refl hsound
  -- out of a round there are no packets
  have hidle : ∀ p : ProbePoint, p.round = none → (∀ d, ¬p.Spares d) → p.due = [] →
      p.Sound home → Moved home s.membership s.seq s.probe p s.seq none := by
    intro p hround hspares hdue hsound
    refine .rests (.inl hround) (fun d h => absurd h (hspares d)) (fun r h => ?_) hsound
    rw [hdue] at h
    cases h
  have hsleep : Moved home s.membership s.seq s.probe .sleeping s.seq none :=
    hidle .sleeping rfl (fun _ h => h) rfl trivial
  unfold loop
  split
  case h_1 =>
    split_ifs
    · exact hidle .choosing rfl (fun _ h => h) rfl trivial
    · exact hstay
  case h_2 t =>
    by_cases hprobe : s.probe = .choosing
    · rw [if_pos hprobe]
      split
      · split_ifs
        · exact hsleep
        · exact hstay
      · split
        · exact hstay
        · rename_i mb hmb
          split_ifs
          · exact hidle (.chosen _ mb.addr) rfl (fun _ h => h) rfl (hloc.member _ mb hmb)
          · exact hstay
    · rw [if_neg hprobe]
      exact hstay
  case h_3 =>
    split
    · rename_i target addr hprobe
      rw [hprobe] at hsound
      exact .starts hsound
    · exact hstay
  case h_4 =>
    split
    · rename_i target addr seq hprobe
      rw [hprobe] at hsound
      rw [hprobe]
      refine .views rfl rfl (fun _ h => h) ?_ hsound
      intro r hr
      rw [List.mem_singleton.mp hr]
      exact ⟨rfl, rfl⟩
    · rename_i target addr seq helpers hprobe
      rw [hprobe] at hsound
      rw [hprobe]
      refine .views rfl rfl ?_ ?_ ?_
      · intro d hd
        rwa [Spares, List.map_map] at hd
      · intro r hr
        obtain ⟨h, -, rfl⟩ := List.mem_map.mp hr
        exact ⟨rfl, rfl⟩
      · rw [Sound, List.map_map]
        exact hsound
    · exact hstay
  case h_5 =>
    split
    · rename_i target addr seq pkt hprobe
      rw [hprobe] at hsound
      rw [hprobe]
      exact .sends (List.mem_singleton_self _) rfl (fun d h => ⟨trivial, h⟩) (fun r h => by cases h)
        hsound
    · exact hstay
  case h_6 =>
    split
    · rename_i target addr seq hprobe
      split_ifs
      · exact hsleep
      · rw [hprobe] at hsound
        rw [hprobe]
        exact .rests (.inr rfl) (fun _ h => h) (fun _ h => h) hsound
    · exact hstay
  case h_7 helpers =>
    split
    · rename_i target addr seq hprobe
      split_ifs with hhelpers
      · rw [hprobe] at hsound
        rw [hprobe]
        exact moved_ask hinj hloc hsound hhelpers.1 hhelpers.2.1
      · exact hstay
    · exact hstay
  case h_8 =>
    split
    · rename_i target seq hprobe
      rw [hprobe]
      exact .rests (.inr rfl) (fun _ h => h.elim) (fun _ h => by cases h) trivial
    · rename_i target seq req reqs hprobe
      rw [hprobe] at hsound
      rw [hprobe]
      obtain ⟨hnot, hnodup⟩ := List.nodup_cons.mp hsound
      refine .sends (List.mem_cons_self ..) rfl ?_ (fun r h => List.mem_cons_of_mem _ h) hnodup
      intro d hd
      refine ⟨List.mem_cons_of_mem _ hd, ?_⟩
      rintro rfl
      exact hnot hd
    · exact hstay
  case h_9 =>
    split
    · rename_i target seq hprobe
      by_cases hlookup : s.pending.lookup seq = none
      · rw [if_pos hlookup]
        exact hsleep
      · rw [if_neg hlookup, hprobe]
        exact .rests (.inr rfl) (fun _ h => h.elim) (fun _ h => by cases h) trivial
    · exact hstay
  case h_10 now =>
    split
    · exact hsleep
    · exact hstay
  case h_11 => exact hstay

theorem moved_step (params : SwimParams) (hmac : Hmac) (secret : Bytes)
    (hinj : Function.Injective home) (hloc : s.membership.Located home)
    (hsound : s.probe.Sound home) (e : Event) :
    Moved home s.membership s.seq s.probe (s.next params hmac secret e).probe
      (s.next params hmac secret e).seq
      (if e.relays then none else (s.step params hmac secret e).2) := by
  have hstay : Moved home s.membership s.seq s.probe s.probe s.seq none := .refl hsound
  unfold next step
  split
  case h_1 buf src =>
    by_cases hinbox : s.inbox = .waiting
    · rw [if_pos hinbox]
      have hprobe := (pending_recv hmac secret buf src hinbox).1
      dsimp only
      rw [hprobe, seq_recv]
      exact hstay
    · rw [if_neg hinbox]
      exact hstay
  case h_2 now =>
    unfold handle
    split <;> exact hstay
  case h_7 =>
    have hrelays : e.relays = false := by
      cases e <;> first | rfl | simp_all
    rw [hrelays]
    exact moved_loop hinj hloc hsound e
  all_goals exact hstay

/-- Only the start of a round takes a number. -/
theorem seq_next (hmac : Hmac) (secret : Bytes) {e : Event} (he : e ≠ .start) :
    (s.next params hmac secret e).seq = s.seq := by
  unfold next step
  split
  case h_1 buf src =>
    dsimp only
    split_ifs
    · exact seq_recv hmac secret buf src
    · rfl
  case h_2 =>
    unfold handle
    split <;> rfl
  case h_7 =>
    unfold loop
    split
    case h_3 => exact absurd rfl he
    all_goals repeat' split
    all_goals rfl
  all_goals rfl

/-! ## Stamps in order -/

theorem stampLe_of_lt {i : UInt32} {n : UInt64} {st : UInt32 × UInt64}
    (hle : st.1.toNat ≤ i.toNat) (hlt : st.2.toNat < n.toNat) : stampLe (i, n) st = false := by
  unfold stampLe
  simp only [Bool.or_eq_false_iff, Bool.and_eq_false_imp, beq_iff_eq, decide_eq_false_iff_not,
    UInt32.lt_iff_toNat_lt, UInt64.le_iff_toNat_le]
  omega

/-- The own probes of the node, when `sent b` are the stamps that its loop sent to `b`. -/
structure Numbered (home : NodeId → SocketAddr) (s : ProbePlane)
    (sent : NodeId → UInt32 × UInt64 → Prop) : Prop where
  below : ∀ b st, sent b st →
    st.1.toNat ≤ s.membership.selfInc.toNat ∧ st.2.toNat < s.seq.toNat
  number : ∀ t n, s.probe.round = some (t, n) → n.toNat + 1 = s.seq.toNat
  spared : ∀ t n, s.probe.round = some (t, n) → ∀ b, s.probe.Spares (home b) →
    ∀ st, sent b st → st.2.toNat < n.toNat
  /-- The packets that are due bear the incarnation that was read before, which is not below
      that of any other packet. -/
  due : ∀ t n, s.probe.round = some (t, n) → ∃ i : UInt32,
    i.toNat ≤ s.membership.selfInc.toNat ∧ (∀ b st, sent b st → st.1.toNat ≤ i.toNat) ∧
      ∀ r ∈ s.probe.due, r.2.stamp = (i, n) ∧ r.2.sender = s.membership.selfId
  sound : s.probe.Sound home

variable {s' : ProbePlane} {sent sent' : NodeId → UInt32 × UInt64 → Prop}
  {out : Option (SocketAddr × ProbePacket)}

theorem numbered_start (m : Membership) (hsent : ∀ b st, ¬sent b st) :
    Numbered home (start m) sent where
  below b st h := absurd h (hsent b st)
  number t n h := by cases h
  spared t n h := by cases h
  due t n h := by cases h
  sound := trivial

theorem round_of_mem_due {p : ProbePoint} {r : SocketAddr × ProbePacket} (h : r ∈ p.due) :
    ∃ t n, p.round = some (t, n) := by
  cases p with
  | sending target addr seq => exact ⟨target, seq, rfl⟩
  | requesting target seq => exact ⟨target, seq, rfl⟩
  | _ => cases h

theorem Numbered.signed (h : Numbered home s sent) {d : SocketAddr} {pkt : ProbePacket}
    (hpkt : (d, pkt) ∈ s.probe.due) : pkt.sender = s.membership.selfId := by
  obtain ⟨t, n, hround⟩ := round_of_mem_due hpkt
  obtain ⟨i, -, -, hdue⟩ := h.due t n hround
  exact (hdue _ hpkt).2

/-- A packet that the loop sends is above all that it sent to the same node. -/
theorem Numbered.fresh (h : Numbered home s sent) {b : NodeId} {pkt : ProbePacket}
    (hpkt : (home b, pkt) ∈ s.probe.due) {st : UInt32 × UInt64} (hst : sent b st) :
    stampLe pkt.stamp st = false := by
  obtain ⟨t, n, hround⟩ := round_of_mem_due hpkt
  obtain ⟨i, -, hinc, hdue⟩ := h.due t n hround
  have hlt := h.spared t n hround b (spares_of_mem_due hpkt) st hst
  rw [show pkt.stamp = (i, n) from (hdue _ hpkt).1]
  exact stampLe_of_lt (hinc b st hst) hlt

/-- A step within the round or out of it. -/
theorem Numbered.within (h : Numbered home s sent) (hseq : s'.seq = s.seq)
    (hround : s'.probe.round = none ∨ s'.probe.round = s.probe.round)
    (hbelow : ∀ b st, sent' b st →
      st.1.toNat ≤ s'.membership.selfInc.toNat ∧ st.2.toNat < s.seq.toNat)
    (hspares : ∀ b, s'.probe.Spares (home b) →
      s.probe.Spares (home b) ∧ ∀ st, sent' b st → sent b st)
    (hdue : ∀ t n, s.probe.round = some (t, n) → ∃ i : UInt32,
      i.toNat ≤ s'.membership.selfInc.toNat ∧ (∀ b st, sent' b st → st.1.toNat ≤ i.toNat) ∧
        ∀ r ∈ s'.probe.due, r.2.stamp = (i, n) ∧ r.2.sender = s'.membership.selfId)
    (hsound : s'.probe.Sound home) : Numbered home s' sent' := by
  have hsame : ∀ t n, s'.probe.round = some (t, n) → s.probe.round = some (t, n) := by
    intro t n hon
    rcases hround with hnone | heq
    · simp [hnone] at hon
    · rw [← heq, hon]
  refine ⟨?_, ?_, ?_, ?_, hsound⟩
  · rw [hseq]
    exact hbelow
  · intro t n hon
    rw [hseq]
    exact h.number t n (hsame t n hon)
  · intro t n hon b hb st hst
    obtain ⟨hb', hold⟩ := hspares b hb
    exact h.spared t n (hsame t n hon) b hb' st (hold st hst)
  · intro t n hon
    exact hdue t n (hsame t n hon)

theorem Numbered.moved (h : Numbered home s sent)
    (hmoved : Moved home s.membership s.seq s.probe s'.probe s'.seq out)
    (hself : s'.membership.selfId = s.membership.selfId)
    (hgrows : s.membership.selfInc.toNat ≤ s'.membership.selfInc.toNat)
    (hwrap : s'.seq ≠ s.seq → s.seq.toNat + 1 < 2 ^ 64)
    (hsent : ∀ b st, sent' b st → sent b st ∨ ∃ pkt, out = some (home b, pkt) ∧ st = pkt.stamp) :
    Numbered home s' sent' := by
  -- without a packet, nothing new was sent
  have hold : out = none → ∀ b st, sent' b st → sent b st := by
    rintro rfl b st hst
    rcases hsent b st hst with hst | ⟨pkt, hpkt, -⟩
    · exact hst
    · cases hpkt
  have hbelow : ∀ b st, sent b st →
      st.1.toNat ≤ s'.membership.selfInc.toNat ∧ st.2.toNat < s.seq.toNat := by
    intro b st hst
    obtain ⟨hinc, hlt⟩ := h.below b st hst
    exact ⟨hinc.trans hgrows, hlt⟩
  generalize hp : s'.probe = p' at hmoved
  generalize hq : s'.seq = q' at hmoved
  cases hmoved with
  | rests hround hspares hdue hsound =>
    subst hp
    refine h.within hq hround (fun b st hst => hbelow b st (hold rfl b st hst))
      (fun b hb => ⟨hspares _ hb, hold rfl b⟩) ?_ hsound
    intro t n hon
    obtain ⟨i, hi, hinc, hall⟩ := h.due t n hon
    refine ⟨i, hi.trans hgrows, fun b st hst => hinc b st (hold rfl b st hst), ?_⟩
    intro r hr
    rw [hself]
    exact hall r (hdue r hr)
  | views hon hround hspares hdue hsound =>
    subst hp
    refine h.within hq (.inr (hround.trans hon.symm))
      (fun b st hst => hbelow b st (hold rfl b st hst)) (fun b hb => ⟨hspares _ hb, hold rfl b⟩) ?_
      hsound
    intro t n hon'
    rw [hon] at hon'
    cases hon'
    refine ⟨s.membership.selfInc, hgrows, fun b st hst => (h.below b st (hold rfl b st hst)).1, ?_⟩
    rw [hself]
    exact hdue
  | @sends _ d pkt hpkt hround hspares hdue hsound =>
    subst hp
    obtain ⟨t, n, hon⟩ := round_of_mem_due hpkt
    obtain ⟨i, hi, hinc, hall⟩ := h.due t n hon
    have hstamp : pkt.stamp = (i, n) := (hall _ hpkt).1
    have hnumber := h.number t n hon
    refine h.within hq (.inr hround) ?_ ?_ ?_ hsound
    · intro b st hst
      rcases hsent b st hst with hst | ⟨pkt', hpkt', rfl⟩
      · exact hbelow b st hst
      · cases hpkt'
        rw [hstamp]
        refine ⟨hi.trans hgrows, ?_⟩
        show n.toNat < s.seq.toNat
        omega
    · intro b hb
      obtain ⟨hb', hne⟩ := hspares _ hb
      refine ⟨hb', fun st hst => ?_⟩
      rcases hsent b st hst with hst | ⟨pkt', hpkt', -⟩
      · exact hst
      · cases hpkt'
        exact absurd rfl hne
    · intro t' n' hon'
      rw [hon] at hon'
      cases hon'
      refine ⟨i, hi.trans hgrows, ?_, ?_⟩
      · intro b st hst
        rcases hsent b st hst with hst | ⟨pkt', hpkt', rfl⟩
        · exact hinc b st hst
        · cases hpkt'
          rw [hstamp]
      · intro r hr
        rw [hself]
        exact hall r (hdue r hr)
  | @starts target addr hsound =>
    have hlt : s.seq.toNat + 1 < 2 ^ 64 := hwrap (by simp [hq])
    have hnext : s'.seq.toNat = s.seq.toNat + 1 := by
      rw [hq, UInt64.toNat_add]
      exact Nat.mod_eq_of_lt hlt
    refine ⟨?_, ?_, ?_, ?_, ?_⟩
    · intro b st hst
      obtain ⟨hinc, hlt⟩ := hbelow b st (hold rfl b st hst)
      exact ⟨hinc, by omega⟩
    · intro t n hon
      rw [hp] at hon
      cases hon
      exact hnext.symm
    · intro t n hon b hb st hst
      rw [hp] at hon
      cases hon
      exact (hbelow b st (hold rfl b st hst)).2
    · intro t n hon
      refine ⟨s'.membership.selfInc, le_rfl,
        fun b st hst => (hbelow b st (hold rfl b st hst)).1, ?_⟩
      intro r hr
      rw [hp] at hr
      cases hr
    · rw [hp]
      exact hsound

end ProbePlane

end BeamSocket.Mesh
