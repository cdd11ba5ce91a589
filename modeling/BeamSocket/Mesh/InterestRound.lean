import BeamSocket.Mesh.Interest
import BeamSocket.Lib.Run

/-!
# One anti-entropy round

Every node of a cluster asks every other one: the asker sends its digest, the
asked node answers with snapshots, the asker applies them. Third parties forward
what they have recorded of other origins, holes included.

* `entry_exchange_peer`, `entry_exchange_other`: what one exchange does to each
  entry of the asker.
* `RoundInv`, `RoundInv.step`: the entry of an origin that has answered is exact
  and stays so, since nobody is ahead of the origin itself.
* `interestedPeers_round`: after every ordered pair, routing is exact.
-/

namespace BeamSocket.Mesh

open BeamSocket.Lib

namespace InterestState

variable {st : InterestState}

/-- The asker applies the answers one after the other. -/
def applySnapshots (st : InterestState) (snaps : List InterestSnapshot) : InterestState :=
  run (fun st s => (st.applySnapshot s).1) st snaps

/-- Snapshots change nothing but the table. -/
theorem applySnapshots_frame (st : InterestState) (snaps : List InterestSnapshot) :
    (st.applySnapshots snaps).selfId = st.selfId ∧
      (st.applySnapshots snaps).localInterest = st.localInterest ∧
      (st.applySnapshots snaps).routing = st.routing := by
  refine run_invariant (I := fun st' : InterestState => st'.selfId = st.selfId ∧
    st'.localInterest = st.localInterest ∧ st'.routing = st.routing) ?_ ⟨rfl, rfl, rfl⟩
  rintro st' s ⟨h1, h2, h3⟩
  exact ⟨by simpa using h1, by simpa using h2, by simpa using h3⟩

/-- Snapshots of other origins and snapshots older than the entry leave it. -/
theorem entry_applySnapshots_of_stale {snaps : List InterestSnapshot} {c : NodeId}
    (h : ∀ s ∈ snaps, s.origin = c → s.seq < st.recordedSeq c) :
    (st.applySnapshots snaps).entry c = st.entry c := by
  unfold applySnapshots
  induction snaps generalizing st with
  | nil => rfl
  | cons s snaps ih =>
    have hs : (st.applySnapshot s).1.entry c = st.entry c := by
      rw [entry_applySnapshot, if_neg]
      rintro ⟨rfl, -, hle⟩
      exact absurd (h s (List.mem_cons_self ..) rfl) (Nat.not_lt.mpr hle)
    rw [run_cons, ih, hs]
    intro s' hs' ho
    rw [recordedSeq, hs]
    exact h s' (List.mem_cons_of_mem _ hs') ho

/-- A batch with one snapshot of `c`, new enough, leaves that snapshot's
    interest in the table. -/
theorem entry_applySnapshots_of_mem {snaps : List InterestSnapshot} {snap : InterestSnapshot}
    (hmem : snap ∈ snaps) (huniq : ∀ s ∈ snaps, s.origin = snap.origin → s = snap)
    (hself : snap.origin ≠ st.selfId) (hseq : st.recordedSeq snap.origin ≤ snap.seq) :
    (st.applySnapshots snaps).entry snap.origin = some snap.interest := by
  unfold applySnapshots
  induction snaps generalizing st with
  | nil => cases hmem
  | cons s snaps ih =>
    rw [run_cons]
    by_cases hs : s.origin = snap.origin
    · obtain rfl := huniq s (List.mem_cons_self ..) hs
      have hnow : (st.applySnapshot s).1.entry s.origin = some s.interest := by
        rw [entry_applySnapshot, if_pos ⟨rfl, hself, hseq⟩]
      by_cases hin : s ∈ snaps
      · refine ih hin (fun s' hs' => huniq s' (List.mem_cons_of_mem _ hs')) ?_ ?_
        · rwa [selfId_applySnapshot]
        · rw [recordedSeq, hnow]; exact le_rfl
      · refine (entry_applySnapshots_of_stale fun s' hs' ho => ?_).trans hnow
        exact absurd (huniq s' (List.mem_cons_of_mem _ hs') ho ▸ hs') hin
    · have hin : snap ∈ snaps := by
        rcases List.mem_cons.mp hmem with rfl | h
        · exact absurd rfl hs
        · exact h
      refine ih hin (fun s' hs' => huniq s' (List.mem_cons_of_mem _ hs')) ?_ ?_
      · rwa [selfId_applySnapshot]
      · rw [recordedSeq, entry_applySnapshot, if_neg (by rintro ⟨h, -⟩; exact hs h.symm)]
        exact hseq

/-- Everything in the table afterwards was there before or is in a snapshot. -/
theorem entry_applySnapshots_cases {snaps : List InterestSnapshot} {c : NodeId}
    {o : OriginInterest} (h : (st.applySnapshots snaps).entry c = some o) :
    st.entry c = some o ∨ ∃ s ∈ snaps, s.origin = c ∧ s.interest = o := by
  unfold applySnapshots at h
  induction snaps generalizing st with
  | nil => exact .inl h
  | cons s snaps ih =>
    rcases ih h with hst | ⟨s', hs', hso⟩
    · rw [entry_applySnapshot] at hst
      split_ifs at hst with hc
      · exact .inr ⟨s, List.mem_cons_self .., hc.1.symm, Option.some.inj hst⟩
      · exact .inl hst
    · exact .inr ⟨s', List.mem_cons_of_mem _ hs', hso⟩

end InterestState

/-! ## One exchange -/

namespace InterestState

variable {st : InterestState} {peer : List DigestEntry} {s : InterestSnapshot}

theorem mem_respondToDigest_self (ho : s.origin = st.selfId) : s ∈ st.respondToDigest peer ↔
    st.sendSelf ((peerMap peer).lookup st.selfId) = true ∧ s = st.localSnapshot := by
  rw [mem_respondToDigest]
  refine or_iff_left ?_
  rintro ⟨c, o, hent, -, rfl⟩
  obtain rfl : c = st.selfId := ho
  rw [entry_selfId] at hent
  cases hent

theorem mem_respondToDigest_other (ho : s.origin ≠ st.selfId) : s ∈ st.respondToDigest peer ↔
    ∃ o, st.entry s.origin = some o ∧ ahead o ((peerMap peer).lookup s.origin) = true ∧
      s = snapshotOf s.origin o := by
  rw [mem_respondToDigest]
  constructor
  · rintro (⟨-, rfl⟩ | ⟨c, o, hent, hahead, rfl⟩)
    · exact absurd rfl ho
    · exact ⟨o, hent, hahead, rfl⟩
  · rintro ⟨o, hent, hahead, hs⟩
    exact .inr ⟨_, o, hent, hahead, hs⟩

/-- A digest is answered with at most one snapshot per origin. -/
theorem respondToDigest_unique {s' : InterestSnapshot} (hs : s ∈ st.respondToDigest peer)
    (hs' : s' ∈ st.respondToDigest peer) (ho : s'.origin = s.origin) : s' = s := by
  by_cases hself : s.origin = st.selfId
  · rw [((mem_respondToDigest_self hself).mp hs).2,
      ((mem_respondToDigest_self (ho.trans hself)).mp hs').2]
  · obtain ⟨o, hent, -, hso⟩ := (mem_respondToDigest_other hself).mp hs
    obtain ⟨o', hent', -, hso'⟩ := (mem_respondToDigest_other (ho ▸ hself)).mp hs'
    rw [ho, hent] at hent'
    rw [hso, hso', ho, Option.some.inj hent']

/-- What the answers of `q` to the digest of `st` leave of `q` itself in the
    table: its own interest if that is sent and not older than the entry. -/
theorem entry_answers_self {q : InterestState} (hne : q.selfId ≠ st.selfId) :
    (st.applySnapshots (q.respondToDigest st.buildDigest)).entry q.selfId =
      if q.sendSelf ((st.entry q.selfId).map fun o => (o.seq, o.hash)) = true ∧
          st.recordedSeq q.selfId ≤ q.localInterest.seq then some q.localInterest
      else st.entry q.selfId := by
  have hknown := lookup_peerMap_buildDigest st q.selfId
  rw [if_neg hne] at hknown
  split_ifs with h
  · have hmem : q.localSnapshot ∈ q.respondToDigest st.buildDigest := by
      rw [mem_respondToDigest_self rfl, hknown]
      exact ⟨h.1, rfl⟩
    have hent := entry_applySnapshots_of_mem hmem
      (fun s' hs' ho => respondToDigest_unique hmem hs' ho) hne h.2
    rwa [localSnapshot, interest_snapshotOf] at hent
  · refine entry_applySnapshots_of_stale fun s hs ho => ?_
    rw [mem_respondToDigest_self ho, hknown] at hs
    rw [hs.2]
    exact Nat.lt_of_not_le fun hle => h ⟨hs.1, hle⟩

end InterestState

open InterestState

/-- The tables of a cluster, by node. -/
abbrev InterestNet := NodeId → InterestState

/-- The digest of `a` goes to `b` and the answers of `b` are applied by `a`. -/
def exchange (net : InterestNet) (p : NodeId × NodeId) : InterestNet :=
  Function.update net p.1
    ((net p.1).applySnapshots ((net p.2).respondToDigest (net p.1).buildDigest))

variable {net : InterestNet} {a b c : NodeId}

theorem exchange_self : exchange net (a, b) a =
    (net a).applySnapshots ((net b).respondToDigest (net a).buildDigest) :=
  Function.update_self ..

theorem exchange_of_ne {a' : NodeId} (h : a' ≠ a) : exchange net (a, b) a' = net a' :=
  Function.update_of_ne h ..

/-- After an exchange the asker has the interest of the node asked, or has had
    it before. -/
theorem entry_exchange_peer (hids : ∀ a, (net a).selfId = a) (hab : b ≠ a)
    (hseq : (net a).recordedSeq b ≤ (net b).localInterest.seq) :
    (exchange net (a, b) a).entry b =
      if (net b).sendSelf (((net a).entry b).map fun o => (o.seq, o.hash)) then
        some (net b).localInterest
      else (net a).entry b := by
  have h : ((net a).applySnapshots _).entry (net b).selfId = _ :=
    entry_answers_self (by rwa [hids a, hids b])
  rw [hids b] at h
  rw [exchange_self, h]
  simp only [hseq, and_true]

/-- About any other origin the asker takes over what the node asked has recorded
    if that is strictly ahead. -/
theorem entry_exchange_other (hids : ∀ a, (net a).selfId = a) (hcb : c ≠ b) (hca : c ≠ a) :
    (exchange net (a, b) a).entry c = (net a).entry c ∨
      ∃ o, (net b).entry c = some o ∧ (net a).recordedSeq c < o.seq ∧
        (exchange net (a, b) a).entry c = some o := by
  have hknown := lookup_peerMap_buildDigest (net a) c
  rw [hids a, if_neg hca] at hknown
  rw [exchange_self]
  by_cases hex : ∃ s ∈ (net b).respondToDigest (net a).buildDigest, s.origin = c
  · obtain ⟨s, hs, rfl⟩ := hex
    obtain ⟨o, hent, hahead, hso⟩ := (mem_respondToDigest_other (by rwa [hids b])).mp hs
    rw [hknown] at hahead
    have hlt : (net a).recordedSeq s.origin < o.seq := by
      unfold recordedSeq
      cases hrec : (net a).entry s.origin with
      | none => simpa [hrec, ahead] using hahead
      | some o' => simpa [hrec, ahead] using hahead
    have hseq : s.seq = o.seq := by rw [hso]; rfl
    have hnew : ((net a).applySnapshots _).entry _ = _ := entry_applySnapshots_of_mem hs
      (fun s' hs' ho => respondToDigest_unique hs hs' ho) (by rwa [hids a]) (by omega)
    have hint : s.interest = o := by rw [hso, interest_snapshotOf]
    exact .inr ⟨o, hent, hlt, by rw [hnew, hint]⟩
  · left
    refine entry_applySnapshots_of_stale fun s hs ho => ?_
    exact absurd ⟨s, hs, ho⟩ hex

theorem exchange_frame (net : InterestNet) (p : NodeId × NodeId) (a : NodeId) :
    (exchange net p a).selfId = (net a).selfId ∧
      (exchange net p a).localInterest = (net a).localInterest ∧
      (exchange net p a).routing = (net a).routing := by
  by_cases h : a = p.1
  · rw [h, exchange_self]
    exact applySnapshots_frame _ _
  · rw [exchange_of_ne h]
    exact ⟨rfl, rfl, rfl⟩

/-! ## The round -/

/-- The interests that occur: every node's own and everything recorded. -/
def occurring (net : InterestNet) (nodes : List NodeId) : List OriginInterest :=
  nodes.flatMap fun a => (net a).localInterest :: (net a).remote.entries.map (·.2)

/-- The 64-bit hash tells apart the sets of the listed interests. -/
def HashFaithful (l : List OriginInterest) : Prop :=
  ∀ o ∈ l, ∀ o' ∈ l, o.hash = o'.hash → o.rooms = o'.rooms ∧ o.users = o'.users

/-- The table has exactly `o` for the origin `c`. No entry stands for an origin
    that has never hosted anything. -/
def Exact (st : InterestState) (c : NodeId) (o : OriginInterest) : Prop :=
  st.entry c = some o ∨ (st.entry c = none ∧ o = default)

/-- What holds during a round that started in `net₀`, once the pairs of `done`
    have exchanged. -/
structure RoundInv (net₀ : InterestNet) (nodes : List NodeId) (done : List (NodeId × NodeId))
    (net : InterestNet) : Prop where
  selfId : ∀ a, (net a).selfId = a
  localInterest : ∀ a, (net a).localInterest = (net₀ a).localInterest
  routing : ∀ a, (net a).routing = (net₀ a).routing
  /-- Whatever is recorded occurred at the start and is not ahead of its origin. -/
  recorded : ∀ a ∈ nodes, ∀ c o, (net a).entry c = some o → o ∈ occurring net₀ nodes ∧
    (c ∈ nodes → o.seq ≤ (net₀ c).localInterest.seq)
  exact : ∀ p ∈ done, p.2 ∈ nodes → p.2 ≠ p.1 → Exact (net p.1) p.2 (net₀ p.2).localInterest

variable {net₀ : InterestNet} {nodes : List NodeId} {done : List (NodeId × NodeId)}

theorem localInterest_mem_occurring (ha : a ∈ nodes) :
    (net a).localInterest ∈ occurring net nodes :=
  List.mem_flatMap.mpr ⟨a, ha, List.mem_cons_self ..⟩

theorem entry_mem_occurring {o : OriginInterest} (ha : a ∈ nodes) (ho : (net a).entry c = some o) :
    o ∈ occurring net nodes :=
  List.mem_flatMap.mpr
    ⟨a, ha, List.mem_cons_of_mem _ (List.mem_map.mpr ⟨⟨c, o⟩, mem_entries.mpr ho, rfl⟩)⟩

/-- The origin asked repairs the entry of the asker. -/
theorem RoundInv.exact_peer (inv : RoundInv net₀ nodes done net)
    (hhash : HashFaithful (occurring net₀ nodes)) (ha : a ∈ nodes) (hb : b ∈ nodes) (hab : b ≠ a) :
    Exact (exchange net (a, b) a) b (net₀ b).localInterest := by
  have hseq : (net a).recordedSeq b ≤ (net b).localInterest.seq := by
    unfold recordedSeq
    cases ho : (net a).entry b with
    | none => exact Nat.zero_le _
    | some o => rw [inv.localInterest b]; exact (inv.recorded a ha b o ho).2 hb
  unfold Exact
  rw [entry_exchange_peer inv.selfId hab hseq, inv.localInterest b]
  split_ifs with hsend
  · exact .inl rfl
  · cases ho : (net a).entry b with
    | none =>
      -- nothing is recorded and nothing was sent: the origin is empty at seq 0
      rw [ho] at hsend
      refine .inr ⟨rfl, ?_⟩
      obtain ⟨hrooms, husers, hz⟩ : (net b).localInterest.rooms = ∅ ∧
          (net b).localInterest.users = ∅ ∧ (net b).localInterest.seq = 0 := by
        simpa [sendSelf] using hsend
      rw [← inv.localInterest b]
      exact OriginInterest.ext hz hrooms husers
    | some o =>
      -- same sequence number and hash as the origin: the same sets
      rw [ho] at hsend
      obtain ⟨hseq, hh⟩ :
          o.seq = (net b).localInterest.seq ∧ o.hash = (net b).localInterest.hash := by
        simpa [sendSelf] using hsend
      rw [inv.localInterest b] at hseq hh
      obtain ⟨hrooms, husers⟩ := hhash o (inv.recorded a ha b o ho).1 _
        (localInterest_mem_occurring hb) hh
      exact .inl (congrArg some (OriginInterest.ext hseq hrooms husers))

/-- A forwarded snapshot never undoes an exact entry. -/
theorem RoundInv.exact_other (inv : RoundInv net₀ nodes done net) (hb : b ∈ nodes) (hc : c ∈ nodes)
    (hcb : c ≠ b) (hca : c ≠ a) (h : Exact (net a) c (net₀ c).localInterest) :
    Exact (exchange net (a, b) a) c (net₀ c).localInterest := by
  unfold Exact
  rcases entry_exchange_other inv.selfId hcb hca with hsame | ⟨o, ho, hlt, -⟩
  · rwa [hsame]
  · -- what `b` has recorded is not ahead of the origin, hence not of the asker
    have hle := (inv.recorded b hb c o ho).2 hc
    have hrec : (net a).recordedSeq c = (net₀ c).localInterest.seq := by
      unfold recordedSeq
      rcases h with h | ⟨h, hd⟩
      · rw [h]; rfl
      · rw [h, hd]; rfl
    omega

theorem RoundInv.step (inv : RoundInv net₀ nodes done net)
    (hhash : HashFaithful (occurring net₀ nodes)) (ha : a ∈ nodes) (hb : b ∈ nodes) :
    RoundInv net₀ nodes ((a, b) :: done) (exchange net (a, b)) where
  selfId x := (exchange_frame net (a, b) x).1.trans (inv.selfId x)
  localInterest x := (exchange_frame net (a, b) x).2.1.trans (inv.localInterest x)
  routing x := (exchange_frame net (a, b) x).2.2.trans (inv.routing x)
  recorded := by
    intro x hx c o ho
    by_cases hxa : x = a
    · subst hxa
      rw [exchange_self] at ho
      rcases entry_applySnapshots_cases ho with ho | ⟨s, hs, rfl, rfl⟩
      · exact inv.recorded x hx c o ho
      · rcases mem_respondToDigest.mp hs with ⟨-, rfl⟩ | ⟨c, o, hent, -, rfl⟩
        · rw [localSnapshot, interest_snapshotOf, inv.localInterest b]
          refine ⟨localInterest_mem_occurring hb, fun _ => ?_⟩
          rw [snapshotOf, inv.selfId b]
        · rw [interest_snapshotOf]
          exact inv.recorded b hb c o hent
    · rw [exchange_of_ne hxa] at ho
      exact inv.recorded x hx c o ho
  exact := by
    rintro ⟨x, c⟩ hmem hc hne
    dsimp only at hc hne ⊢
    by_cases hxa : x = a
    · subst hxa
      by_cases hcb : c = b
      · subst hcb
        exact inv.exact_peer hhash ha hb hne
      · refine inv.exact_other hb hc hcb hne (inv.exact (x, c) ?_ hc hne)
        rcases List.mem_cons.mp hmem with h | h
        · exact absurd (Prod.mk.inj h).2 hcb
        · exact h
    · rw [exchange_of_ne hxa]
      refine inv.exact (x, c) ?_ hc hne
      rcases List.mem_cons.mp hmem with h | h
      · exact absurd (Prod.mk.inj h).1 hxa
      · exact h

theorem RoundInv.run (hhash : HashFaithful (occurring net₀ nodes)) {pairs : List (NodeId × NodeId)}
    (hin : ∀ p ∈ pairs, p.1 ∈ nodes ∧ p.2 ∈ nodes) (inv : RoundInv net₀ nodes done net) :
    RoundInv net₀ nodes (pairs.reverse ++ done) (Lib.run exchange net pairs) := by
  induction pairs generalizing net done with
  | nil => exact inv
  | cons p pairs ih =>
    obtain ⟨ha, hb⟩ := hin p (List.mem_cons_self ..)
    rw [List.reverse_cons, List.append_assoc, List.singleton_append]
    exact ih (fun q hq => hin q (List.mem_cons_of_mem _ hq)) (inv.step hhash ha hb)

/-- Anti-entropy converges in one round: after every ordered pair of nodes has
    exchanged, in any order, each node routes a target exactly to the alive
    nodes whose own set contains it. -/
theorem interestedPeers_round (net : InterestNet) (nodes : List NodeId)
    (pairs : List (NodeId × NodeId)) (hids : ∀ a, (net a).selfId = a)
    (hseq : ∀ a ∈ nodes, ∀ c ∈ nodes, (net a).recordedSeq c ≤ (net c).localInterest.seq)
    (hhash : HashFaithful (occurring net nodes))
    (hin : ∀ p ∈ pairs, p.1 ∈ nodes ∧ p.2 ∈ nodes)
    (hall : ∀ a ∈ nodes, ∀ b ∈ nodes, b ≠ a → (a, b) ∈ pairs)
    (a : NodeId) (ha : a ∈ nodes) (hmode : (net a).routing = .interest) (t : Target)
    (alive : OrdSet NodeId) (halive : ∀ c ∈ alive, c ∈ nodes ∧ c ≠ a) :
    (run exchange net pairs a).interestedPeers t alive =
      alive.toList.filter fun c => (net c).localInterest.hosts t := by
  have inv₀ : RoundInv net nodes [] net := by
    refine ⟨hids, fun _ => rfl, fun _ => rfl, fun a ha c o ho => ⟨entry_mem_occurring ha ho, ?_⟩,
      by simp⟩
    intro hc
    have hle := hseq a ha c hc
    rwa [recordedSeq, ho] at hle
  have inv := RoundInv.run hhash hin inv₀
  have hsorted : (alive.toList.filter fun c => (net c).localInterest.hosts t).SortedLT :=
    (alive.sorted.pairwise.sublist List.filter_sublist).sortedLT
  refine (sortedLT_interestedPeers _ t alive).eq_of_mem_iff hsorted fun c => ?_
  rw [mem_interestedPeers, List.mem_filter, inv.routing a, hmode]
  refine and_congr_right fun hc => ?_
  obtain ⟨hcn, hca⟩ := halive c hc
  have hexact : Exact _ c (net c).localInterest := inv.exact (a, c)
    (by rw [List.append_nil, List.mem_reverse]; exact hall a ha c hcn hca) hcn hca
  rcases hexact with hent | ⟨hent, hdef⟩
  · simp [hent]
  · -- an origin without an entry hosts nothing
    cases t <;> simp [hent, hdef, OriginInterest.hosts, default]

namespace RoundExample

/-- Node 1 hosts `lobby` and `ada`; node 2 has missed the edge of `ada`, node 3
    has recorded a wrong room at the newest sequence number. -/
def start (a : NodeId) : InterestState :=
  if h : 1 = a then
    { InterestState.new a .interest with localInterest := ⟨2, .ofList ["lobby"], .ofList ["ada"]⟩ }
  else if a = 2 then (InterestState.new a .interest).record 1 ⟨1, .ofList ["lobby"], ∅⟩ h
  else (InterestState.new a .interest).record 1 ⟨2, .ofList ["attic"], ∅⟩ h

/-- Every ordered pair of the three nodes. -/
def pairs : List (NodeId × NodeId) := [(3, 2), (1, 2), (2, 3), (3, 1), (1, 3), (2, 1)]

theorem selfId_start (a : NodeId) : (start a).selfId = a := by
  unfold start
  split_ifs <;> rfl

theorem forall_nodes {P : NodeId → Prop} (h1 : P 1) (h2 : P 2) (h3 : P 3) :
    ∀ a ∈ [1, 2, 3], P a := by
  simp [h1, h2, h3]

/-- Node 3 routes `ada` to node 1 and not to node 2. -/
theorem interestedPeers_start :
    (run exchange start pairs 3).interestedPeers (.user "ada") (.ofList [1, 2]) = [1] := by
  have hseq : ∀ a ∈ [1, 2, 3], ∀ c ∈ [1, 2, 3],
      (start a).recordedSeq c ≤ (start c).localInterest.seq := by
    refine forall_nodes ?_ ?_ ?_ <;> refine forall_nodes ?_ ?_ ?_ <;> decide +kernel
  have hall : ∀ a ∈ [1, 2, 3], ∀ b ∈ [1, 2, 3], b ≠ a → (a, b) ∈ pairs := by
    refine forall_nodes ?_ ?_ ?_ <;> refine forall_nodes ?_ ?_ ?_ <;> decide +kernel
  have halive : ∀ c ∈ OrdSet.ofList [1, 2], c ∈ [1, 2, 3] ∧ c ≠ (3 : NodeId) := by
    intro c hc
    rcases List.mem_pair.mp (OrdSet.mem_ofList.mp hc) with rfl | rfl <;> decide
  exact (interestedPeers_round start [1, 2, 3] pairs selfId_start hseq
    (by unfold HashFaithful; decide +kernel) (by simp [pairs]) hall 3 (by decide)
    (by decide +kernel) (.user "ada") (.ofList [1, 2]) halive).trans (by decide +kernel)

end RoundExample

end BeamSocket.Mesh
