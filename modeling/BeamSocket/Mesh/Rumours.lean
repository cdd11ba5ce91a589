import BeamSocket.Mesh.Incarnations

/-!
# Where a suspicion comes from

A node of the cluster of `Mesh.Incarnations` learns most of what it holds from others. Here every
claim that a member is Suspect or Dead is followed back to the failure detector that made it:
`suspect` and `expire_suspects` of `crates/mesh/src/swim.rs` (lines 372–411) on some node.

* `Membership.HoldsOnly`: all that a node could tell of others has a property; what an operation
  of the table brings in.
* `Accused`, `Condemned`: a node has suspected a member on its own; it has held it Suspect, in one
  entry of its table, for longer than its timeout.
* `traced_run`: after every run, every claim in a table, a gossip buffer or a frame is `Sourced`.
* `rumours_sourced`: so the table of a node says Suspect or Dead of a member only behind them.
-/

namespace BeamSocket.Mesh

open BeamSocket.Lib

namespace Membership

/-! ## What a node says of others -/

/-- The node says that `id` is in state `state`, at incarnation `inc`. -/
inductive Says (m : Membership) : NodeId → MState → UInt32 → Prop
  | member {id : NodeId} {mb : Member} (h : m.members.lookup id = some mb) :
    Says m id mb.state mb.inc
  | gossip {u : Update} {n : ℕ} (h : (u, n) ∈ m.gossip) : Says m u.id u.state u.inc

/-- All that the node says satisfies `P`. -/
def HoldsOnly (P : NodeId → MState → UInt32 → Prop) (m : Membership) : Prop :=
  ∀ id state inc, m.Says id state inc → P id state inc

section

variable {P Q : NodeId → MState → UInt32 → Prop} {m : Membership} {u : Update} {retransmit : ℕ}
  {now : Instant}

theorem HoldsOnly.mono (h : m.HoldsOnly P) (hPQ : ∀ id state inc, P id state inc → Q id state inc) :
    m.HoldsOnly Q := fun id state inc hsays => hPQ id state inc (h id state inc hsays)

theorem holdsOnly_new (id : NodeId) (addr : SocketAddr) : (new id addr).HoldsOnly P := by
  intro c state inc h
  cases h with
  | member hmb => cases hmb
  | gossip hg => cases hg

theorem members_enqueue : (m.enqueue u retransmit).members = m.members := by
  unfold enqueue
  rfl

theorem HoldsOnly.enqueue (h : m.HoldsOnly P) (hu : P u.id u.state u.inc) :
    (m.enqueue u retransmit).HoldsOnly P := by
  intro c state inc hsays
  cases hsays with
  | member hmb =>
    rw [members_enqueue] at hmb
    exact h _ _ _ (.member hmb)
  | gossip hg =>
    obtain ⟨hg, -⟩ | hg := mem_gossip_enqueue hg
    · exact h _ _ _ (.gossip hg)
    · cases hg
      exact hu

theorem HoldsOnly.insert (h : m.HoldsOnly P) {id : NodeId} {mb : Member}
    {counters : MembershipCounters} (hmb : P id mb.state mb.inc) :
    HoldsOnly P { m with members := m.members.insert id mb, counters := counters } := by
  intro c state inc hsays
  cases hsays with
  | @member _ mb' hmb' =>
    replace hmb' : (m.members.insert id mb).lookup c = some mb' := hmb'
    by_cases hc : c = id
    · subst hc
      rw [AList.lookup_insert] at hmb'
      cases hmb'
      exact hmb
    · rw [AList.lookup_insert_ne hc] at hmb'
      exact h _ _ _ (.member hmb')
  | gossip hg => exact h _ _ _ (.gossip hg)

theorem HoldsOnly.takePiggyback (h : m.HoldsOnly P) (max : ℕ) :
    (m.takePiggyback max).1.HoldsOnly P := by
  intro c state inc hsays
  cases hsays with
  | member hmb => exact h _ _ _ (.member hmb)
  | gossip hg =>
    obtain ⟨n, hn⟩ := (drainGossip_subset max _ _).2 _ hg
    exact h _ _ _ (.gossip hn)

/-! That a member is alive may be said of anyone, at any time. -/

variable (halive : ∀ id inc, P id .alive inc)

include halive

theorem HoldsOnly.of_mem_fullState (h : m.HoldsOnly P) (hu : u ∈ m.fullState) :
    P u.id u.state u.inc := by
  obtain ⟨mb, hmb, hu⟩ | hu := mem_fullState.mp hu
  · rw [hu]
    exact h _ _ _ (.member hmb)
  · rw [hu]
    exact halive _ _

theorem HoldsOnly.of_mem_takePiggyback (h : m.HoldsOnly P) {max : ℕ}
    (hu : u ∈ (m.takePiggyback max).2) : P u.id u.state u.inc := by
  obtain hu | ⟨n, hn⟩ := (drainGossip_subset max _ _).1 u hu
  · rw [List.mem_singleton.mp hu]
    exact halive _ _
  · exact h _ _ _ (.gossip hn)

theorem HoldsOnly.merge (h : m.HoldsOnly P) (hu : P u.id u.state u.inc) :
    (m.merge u retransmit now).1.HoldsOnly P := by
  have hm := merged m u retransmit now
  generalize (m.merge u retransmit now).1 = m' at hm
  cases hm with
  | ignored => exact h
  | accepted hid hacc =>
    refine HoldsOnly.enqueue ?_ hu
    exact h.insert hu
  | refuted hid hstate hinc =>
    refine HoldsOnly.enqueue ?_ (halive _ _)
    intro c state inc hsays
    cases hsays with
    | member hmb => exact h _ _ _ (.member hmb)
    | gossip hg => exact h _ _ _ (.gossip hg)

theorem HoldsOnly.mergeAll (h : m.HoldsOnly P) {us : List (Update × Instant)}
    (hus : ∀ e ∈ us, P e.1.id e.1.state e.1.inc) : (m.mergeAll retransmit us).HoldsOnly P :=
  run_invariant_of_mem (fun e he _ h' => HoldsOnly.merge halive h' (hus e he)) h

theorem HoldsOnly.noteDirectAck (h : m.HoldsOnly P) (sender : NodeId) :
    (m.noteDirectAck sender retransmit now).1.HoldsOnly P := by
  unfold Membership.noteDirectAck
  split
  · exact h
  · split_ifs
    · refine HoldsOnly.enqueue ?_ (halive _ _)
      exact h.insert (halive _ _)
    · exact h

end

/-! ## How old an entry is -/

section

variable {m : Membership} {u : Update} {retransmit : ℕ} {now : Instant} {c : NodeId} {mb : Member}

/-- An entry is as it was, or bears the time of the `merge`. -/
theorem lookup_merge (h : (m.merge u retransmit now).1.members.lookup c = some mb) :
    m.members.lookup c = some mb ∨ mb.since = now := by
  have hm := merged m u retransmit now
  generalize (m.merge u retransmit now).1 = m' at h hm
  cases hm with
  | ignored => exact .inl h
  | refuted hid hstate hinc => exact .inl h
  | accepted hid hacc =>
    replace h : (m.members.insert u.id ⟨u.addr, u.state, u.inc, now⟩).lookup c = some mb := h
    by_cases hc : c = u.id
    · subst hc
      rw [AList.lookup_insert] at h
      cases h
      exact .inr rfl
    · rw [AList.lookup_insert_ne hc] at h
      exact .inl h

theorem lookup_mergeAll {us : List (Update × Instant)}
    (h : (m.mergeAll retransmit us).members.lookup c = some mb) :
    m.members.lookup c = some mb ∨ ∃ e ∈ us, mb.since = e.2 := by
  induction us generalizing m with
  | nil => exact .inl h
  | cons e us ih =>
    obtain h | ⟨e', he', hsince⟩ := ih (m := (m.merge e.1 retransmit e.2).1) h
    · obtain h | hsince := lookup_merge h
      · exact .inl h
      · exact .inr ⟨e, List.mem_cons_self, hsince⟩
    · exact .inr ⟨e', List.mem_cons_of_mem e he', hsince⟩

theorem lookup_noteDirectAck {sender : NodeId}
    (h : (m.noteDirectAck sender retransmit now).1.members.lookup c = some mb) :
    m.members.lookup c = some mb ∨ mb.since = now := by
  unfold noteDirectAck at h
  split at h
  · exact .inl h
  · rename_i old hold
    split_ifs at h
    · replace h : (m.members.insert sender { old with state := .alive, since := now }).lookup c =
        some mb := h
      by_cases hc : c = sender
      · subst hc
        rw [AList.lookup_insert] at h
        cases h
        exact .inr rfl
      · rw [AList.lookup_insert_ne hc] at h
        exact .inl h
    · exact .inl h

theorem exists_clock_of_stamped {clock : ℕ → Instant} {us : List Update} {e : Update × Instant}
    (h : e ∈ stamped clock us) : ∃ k, e.2 = clock k := by
  obtain ⟨⟨u, k⟩, -, rfl⟩ := List.mem_map.mp h
  exact ⟨k, rfl⟩

end

end Membership

namespace SwimCluster

/-! ## Sources -/

/-- The clock shows `t` when a table is written to in the step. -/
def Event.Reads : Event → Instant → Prop
  | .deliver _ clock, t => ∃ k, t = clock k
  | .ack _ _ now, t => t = now
  | .suspect _ _ now, t => t = now
  | .expire _ _ clock, t => ∃ k, t = clock k
  | _, _ => False

section

variable (params : NodeId → SwimParams) (x : SwimCluster) (evs : List Event)

/-- The entry of `c` in the table of `b` was written by a step at its `since`, and has not changed
    since then. -/
def Dated (b c : NodeId) (mb : Member) : Prop :=
  ∃ before e mid, evs = before ++ e :: mid ∧ e.Reads mb.since ∧
    ∀ mid', mid' <+: mid →
      ((run (step params) x (before ++ e :: mid')).node b).members.lookup c = some mb

/-- Some node has suspected `c` on its own, when it held it alive at incarnation `i`. -/
def Accused (c : NodeId) (i : UInt32) : Prop :=
  ∃ pre b now post, evs = pre ++ .suspect b c now :: post ∧
    ∃ mb, ((run (step params) x pre).node b).members.lookup c = some mb ∧
      mb.state = .alive ∧ mb.inc = i

/-- Some node has held `c` Suspect at incarnation `i` for longer than its timeout, without a
    change of the entry, and has expired it. -/
def Condemned (c : NodeId) (i : UInt32) : Prop :=
  ∃ pre b now clock post mb, evs = pre ++ .expire b now clock :: post ∧
    Dated params x pre b c mb ∧ mb.state = .suspect ∧ mb.inc = i ∧
      (params b).suspicionTimeout < now - mb.since

/-- What has to have happened for a node to say that `c` is in a state at incarnation `i`. -/
def Sourced (c : NodeId) (state : MState) (i : UInt32) : Prop :=
  (state ≠ .alive → Accused params x evs c i) ∧ (state = .dead → Condemned params x evs c i)

/-- Every claim in the cluster has its source, and every entry its date. -/
structure Traced : Prop where
  held : ∀ a, ((run (step params) x evs).node a).HoldsOnly (Sourced params x evs)
  flight : ∀ p ∈ (run (step params) x evs).flight, ∃ msg : MembershipMsg, p.body = msg.encode ∧
    ∀ u ∈ msg.updates, Sourced params x evs u.id u.state u.inc
  dated : ∀ a c mb, ((run (step params) x evs).node a).members.lookup c = some mb →
    Dated params x evs a c mb

end

variable {params : NodeId → SwimParams} {x : SwimCluster} {evs : List Event} {e : Event}
  {a c : NodeId} {i : UInt32} {m : Membership}

theorem Accused.concat (h : Accused params x evs c i) (e : Event) :
    Accused params x (evs ++ [e]) c i := by
  obtain ⟨pre, b, now, post, rfl, hheld⟩ := h
  exact ⟨pre, b, now, post ++ [e], by simp, hheld⟩

theorem Condemned.concat (h : Condemned params x evs c i) (e : Event) :
    Condemned params x (evs ++ [e]) c i := by
  obtain ⟨pre, b, now, clock, post, mb, rfl, hdated⟩ := h
  exact ⟨pre, b, now, clock, post ++ [e], mb, by simp, hdated⟩

theorem Sourced.concat {state : MState} (h : Sourced params x evs c state i) (e : Event) :
    Sourced params x (evs ++ [e]) c state i :=
  ⟨fun hstate => (h.1 hstate).concat e, fun hdead => (h.2 hdead).concat e⟩

theorem sourced_alive (c : NodeId) (i : UInt32) : Sourced params x evs c .alive i :=
  ⟨fun h => absurd rfl h, fun h => by cases h⟩

/-- An entry that the step leaves alone. -/
theorem Dated.concat {mb : Member} (h : Dated params x evs a c mb)
    (hkeep : ((run (step params) x (evs ++ [e])).node a).members.lookup c = some mb) :
    Dated params x (evs ++ [e]) a c mb := by
  obtain ⟨before, e₀, mid, rfl, hreads, hsame⟩ := h
  refine ⟨before, e₀, mid ++ [e], by simp, hreads, ?_⟩
  intro mid' hmid'
  obtain rfl | hmid' := List.prefix_concat_iff.mp hmid'
  · simpa using hkeep
  · exact hsame mid' hmid'

/-- An entry that the step writes. -/
theorem dated_of_reads {mb : Member} (hreads : e.Reads mb.since)
    (h : ((run (step params) x (evs ++ [e])).node a).members.lookup c = some mb) :
    Dated params x (evs ++ [e]) a c mb := by
  refine ⟨evs, e, [], rfl, hreads, ?_⟩
  intro mid' hmid'
  rwa [List.prefix_nil.mp hmid']

/-! ## A step -/

/-- The tables and the frames behind the events. -/
theorem run_concat (params : NodeId → SwimParams) (x : SwimCluster) (evs : List Event) (e : Event) :
    run (step params) x (evs ++ [e]) = (run (step params) x evs).step params e := run_append ..

/-- An entry of the table that acts is as it was, or bears a time of the step. -/
theorem Acts.lookup {mb : Member} (h : Acts params x a e m) (hmb : m.members.lookup c = some mb) :
    (x.node a).members.lookup c = some mb ∨ e.Reads mb.since := by
  cases h with
  | push => exact .inl hmb
  | digest => exact .inl hmb
  | gossip => exact .inl hmb
  | ack => exact Membership.lookup_noteDirectAck hmb
  | suspect =>
    unfold Membership.suspect at hmb
    split at hmb
    · exact .inl hmb
    · split_ifs at hmb
      · exact .inl hmb
      · exact Membership.lookup_merge hmb
  | expire =>
    rw [Membership.expireSuspects_fst] at hmb
    refine (Membership.lookup_mergeAll hmb).imp_right ?_
    rintro ⟨u, hu, hsince⟩
    rw [hsince]
    exact Membership.exists_clock_of_stamped hu
  | deliver hp hdst hmsg =>
    rw [Membership.apply_fst] at hmb
    refine (Membership.lookup_mergeAll hmb).imp_right ?_
    rintro ⟨u, hu, hsince⟩
    rw [hsince]
    exact Membership.exists_clock_of_stamped hu

/-- What is decoded from a frame has its source. -/
theorem Traced.of_decode (hx : Traced params x evs) {p : Packet} {msg : MembershipMsg}
    (hp : p ∈ (run (step params) x evs).flight)
    (hmsg : MembershipMsg.decode p.body = some msg) :
    ∀ u ∈ msg.updates, Sourced params x evs u.id u.state u.inc := by
  obtain ⟨sent, hbody, hsourced⟩ := hx.flight p hp
  rw [hbody, MembershipMsg.decode_encode_take] at hmsg
  cases hmsg
  intro u hu
  exact hsourced u (MembershipMsg.mem_updates_take hu)

/-- The table behind the step says only what has its source, with the step among them. -/
theorem Traced.acts (hx : Traced params x evs)
    (h : Acts params (run (step params) x evs) a e m) :
    m.HoldsOnly (Sourced params x (evs ++ [e])) := by
  have hheld := (hx.held a).mono fun c state i h => h.concat e
  have halive : ∀ c i, Sourced params x (evs ++ [e]) c .alive i := sourced_alive
  cases h with
  | push => exact hheld
  | digest => exact hheld
  | gossip => exact hheld.takePiggyback _
  | ack => exact hheld.noteDirectAck halive _
  | @suspect target now =>
    unfold Membership.suspect
    split
    · exact hheld
    · rename_i mb hmb
      split_ifs with hstate
      · exact hheld
      · refine hheld.merge halive ⟨fun _ => ?_, fun hdead => by cases hdead⟩
        exact ⟨evs, a, now, [], rfl, mb, hmb, not_not.mp hstate, rfl⟩
  | @expire now clock =>
    rw [Membership.expireSuspects_fst]
    refine hheld.mergeAll halive ?_
    intro u hu
    obtain ⟨mb, hmb, hsus, hinc, -, hlate⟩ :=
      Membership.lookup_of_mem_expired (Membership.mem_of_stamped hu)
    have haccused : Accused params x evs u.1.id mb.inc := by
      refine (hx.held a _ _ _ (.member hmb)).1 ?_
      rw [hsus]
      decide
    rw [hinc]
    refine ⟨fun _ => haccused.concat _, fun _ => ?_⟩
    exact ⟨evs, a, now, clock, [], mb, rfl, hx.dated a _ mb hmb, hsus, rfl, hlate⟩
  | deliver hp hdst hmsg =>
    rw [Membership.apply_fst]
    refine hheld.mergeAll halive ?_
    intro u hu
    have hsourced := hx.of_decode (List.mem_of_getElem? hp) hmsg
    exact (hsourced u.1 (Membership.mem_of_stamped hu)).concat _

/-- The frames of a step carry what their sender says, before it or behind it. -/
theorem step_tells (params : NodeId → SwimParams) (x : SwimCluster) (e : Event)
    {P : NodeId → MState → UInt32 → Prop} (halive : ∀ c i, P c .alive i)
    (hbefore : ∀ a, (x.node a).HoldsOnly P)
    (hbehind : ∀ a, ((x.step params e).node a).HoldsOnly P) :
    ∀ p ∈ (x.step params e).flight, p ∈ x.flight ∨ ∃ msg : MembershipMsg, p.body = msg.encode ∧
      ∀ u ∈ msg.updates, P u.id u.state u.inc := by
  intro p hp
  cases e with
  | push a d =>
    refine (List.mem_append.mp hp).imp_right fun hp => ?_
    rw [List.mem_singleton.mp hp]
    exact ⟨.sync true (x.node a).fullState, rfl, fun u hu => (hbefore a).of_mem_fullState halive hu⟩
  | gossip a links =>
    refine (List.mem_append.mp hp).imp_right fun hp => ?_
    obtain ⟨d, -, rfl⟩ := List.mem_map.mp hp
    exact ⟨.gossip ((x.node a).takePiggyback (params a).gossipMax).2, rfl, fun u hu =>
      (hbefore a).of_mem_takePiggyback halive hu⟩
  | digest a links =>
    refine (List.mem_append.mp hp).imp_right fun hp => ?_
    obtain ⟨d, -, rfl⟩ := List.mem_map.mp hp
    exact ⟨(x.node a).buildDigest, rfl, fun u hu => by cases hu⟩
  | deliver i clock =>
    simp only [step] at hp hbehind
    split at hp
    · exact .inl hp
    · rename_i q hq
      split at hp
      · exact .inl hp
      · rename_i msg hmsg
        refine (List.mem_append.mp hp).imp_right fun hp => ?_
        obtain ⟨r, hr, rfl⟩ := List.mem_map.mp hp
        refine ⟨r, rfl, fun u hu => ?_⟩
        have hheld := hbehind q.dst
        simp only [hq, hmsg, node_act_self] at hheld
        exact hheld.of_mem_fullState halive
          (Membership.mem_fullState_of_response (Option.mem_toList.mp hr) hu)
  | ack a sender now => exact .inl (by simpa [step, act] using hp)
  | suspect a target now => exact .inl (by simpa [step, act] using hp)
  | expire a now clock => exact .inl (by simpa [step, act] using hp)

theorem Traced.step (hx : Traced params x evs) (e : Event) : Traced params x (evs ++ [e]) := by
  have hheld : ∀ a, ((run (SwimCluster.step params) x (evs ++ [e])).node a).HoldsOnly
      (Sourced params x (evs ++ [e])) := by
    intro b
    have hb := (hx.held b).mono fun c state i h => h.concat e
    rw [run_concat]
    obtain heq | ⟨a, m, sent, heq, hacts, -⟩ :=
      step_acts params (run (SwimCluster.step params) x evs) e
    · rwa [heq]
    · rw [heq]
      by_cases hba : b = a
      · rw [hba, node_act_self]
        exact hx.acts hacts
      · rwa [node_act_of_ne hba]
  refine ⟨hheld, ?_, ?_⟩
  · intro p hp
    rw [run_concat] at hp
    simp only [run_concat] at hheld
    obtain hp | htells := step_tells params _ e sourced_alive
      (fun a => (hx.held a).mono fun c state i h => h.concat e) hheld p hp
    · obtain ⟨msg, hbody, hmsg⟩ := hx.flight p hp
      exact ⟨msg, hbody, fun u hu => (hmsg u hu).concat e⟩
    · exact htells
  · intro b c mb hmb
    have hkeep := hmb
    rw [run_concat] at hmb
    obtain heq | ⟨a, m, sent, heq, hacts, -⟩ :=
      step_acts params (run (SwimCluster.step params) x evs) e
    · rw [heq] at hmb
      exact (hx.dated b c mb hmb).concat hkeep
    · rw [heq] at hmb
      by_cases hba : b = a
      · subst hba
        rw [node_act_self] at hmb
        obtain hmb | hreads := hacts.lookup hmb
        · exact (hx.dated b c mb hmb).concat hkeep
        · exact dated_of_reads hreads hkeep
      · rw [node_act_of_ne hba] at hmb
        exact (hx.dated b c mb hmb).concat hkeep

/-! ## Runs -/

theorem traced_run (params : NodeId → SwimParams) (addr : NodeId → SocketAddr)
    (evs : List Event) : Traced params (start addr) evs := by
  induction evs using List.reverseRecOn with
  | nil =>
    refine ⟨fun a => Membership.holdsOnly_new a (addr a), ?_, ?_⟩
    · intro p hp
      cases hp
    · intro a c mb hmb
      cases hmb
  | append_singleton evs e ih => exact ih.step e

/-- In every run of the cluster, whatever becomes of the frames, a node says that a member is
    Suspect or Dead at an incarnation only if some node's failure detector has suspected the
    member at this incarnation, and that it is Dead only if some node has held the member Suspect
    at this incarnation for longer than its timeout, all the time in the same entry. -/
theorem rumours_sourced (params : NodeId → SwimParams) (addr : NodeId → SocketAddr)
    (evs : List Event) (a c : NodeId) (mb : Member)
    (hmb : ((run (step params) (start addr) evs).node a).members.lookup c = some mb)
    (hstate : mb.state ≠ .alive) :
    Accused params (start addr) evs c mb.inc ∧
      (mb.state = .dead → Condemned params (start addr) evs c mb.inc) := by
  have hsourced := (traced_run params addr evs).held a _ _ _ (.member hmb)
  exact ⟨hsourced.1 hstate, hsourced.2⟩

namespace Hearsay

/-- Parameters with a suspicion of 40. -/
def settings (_ : NodeId) : SwimParams := ⟨2, 40, 8, 6⟩

/-- Node 1 hears of node 2, suspects it and expires it. Then node 3 connects to node 1. -/
def events : List Event :=
  [.push 2 1, .deliver 0 fun _ => 5, .suspect 1 2 10, .expire 1 60 fun _ => 61, .push 1 3,
    .deliver 2 fun _ => 70]

/-- Node 3 has never probed node 2. -/
theorem three_heard : Condemned settings (start homeAddr) events 2 1 :=
  (rumours_sourced settings homeAddr events 3 2 ⟨homeAddr 2, .dead, 1, 70⟩ (by decide +kernel)
    (by decide)).2 rfl

end Hearsay

end SwimCluster

end BeamSocket.Mesh
