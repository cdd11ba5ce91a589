import BeamSocket.Mesh.Detector

/-!
# The gossip buffer

What becomes of the entries of `Membership::gossip` (`crates/mesh/src/swim.rs`, lines 250–278)
under all operations that write to it or drain it. `GossipLedger` adds to the table how often
the entry of each id has been emitted since it was enqueued.

* `move_cases`: an operation leaves the table and the buffer alone, or it records one fact and
  enqueues it.
* `Mirrors.move`: the buffer stays a part of the table, with at most one entry for an id and
  the budget that is left of `retransmit`.
* `Mirrors.leaves`: an entry leaves the buffer for a later fact about its id, for the 257th id,
  or when it has been emitted `retransmit` times.
* `gossip_mirrors`: both, in every run.
-/

namespace BeamSocket.Mesh

open BeamSocket.Lib
open BeamSocket.Mesh.Membership (sentOnce sentOnce_eq_some)

namespace Membership

/-- What the table says of `id` now, the node itself included. -/
def fact (m : Membership) (id : NodeId) : Option Update :=
  if id = m.selfId then some m.selfUpdate
  else (m.members.lookup id).map fun mb => ⟨id, mb.addr, mb.state, mb.inc⟩

end Membership

/-- The table, and how often the entry of an id was emitted since it was enqueued. -/
structure GossipLedger where
  table : Membership
  emitted : NodeId → ℕ

namespace GossipLedger

/-- One locked change of the table. -/
inductive Move
  | merge (u : Update) (now : Instant)
  | ack (sender : NodeId) (now : Instant)
  | suspect (target : NodeId) (now : Instant)
  | take (max : ℕ)

section

variable (retransmit : ℕ)

/-- The table behind a move, and the frame of `take_piggyback`. -/
def apply (m : Membership) : Move → Membership × List Update
  | .merge u now => ((m.merge u retransmit now).1, [])
  | .ack sender now => ((m.noteDirectAck sender retransmit now).1, [])
  | .suspect target now => ((m.suspect target retransmit now).1, [])
  | .take max => m.takePiggyback max

/-- The id that a move reports a change of. -/
def changed (m : Membership) : Move → Option NodeId
  | .merge u now => if (m.merge u retransmit now).2 then some u.id else none
  | .ack sender now => if (m.noteDirectAck sender retransmit now).2 then some sender else none
  | .suspect target now => if (m.suspect target retransmit now).2 then some target else none
  | .take _ => none

/-- The entry of a changed id is a new one. The first update of a frame is not from the buffer. -/
def move (l : GossipLedger) (mv : Move) : GossipLedger where
  table := (apply retransmit l.table mv).1
  emitted id :=
    if changed retransmit l.table mv = some id then 0
    else l.emitted id + ((apply retransmit l.table mv).2.tail.map Update.id).count id

/-- The operations of the table under one lock. -/
inductive Op
  | move (mv : Move)
  | expire (timeout : ℕ) (now : Instant) (clock : ℕ → Instant)

/-- `expire_suspects` merges a fact for every member it gives up. Over another order of the map it
    is a run of the same merges. -/
def moves (m : Membership) : Op → List Move
  | .move mv => [mv]
  | .expire timeout now clock =>
    (Membership.stamped clock (m.expired timeout now)).map fun e => .merge e.1 e.2

/-- One operation, with the count of what it emits. -/
def step (l : GossipLedger) (op : Op) : GossipLedger := run (move retransmit) l (moves l.table op)

/-- A new table. -/
def start (selfId : NodeId) (selfAddr : SocketAddr) : GossipLedger where
  table := .new selfId selfAddr
  emitted _ := 0

end

variable {retransmit : ℕ} {m : Membership} {l : GossipLedger} {mv : Move}

/-! ## What a move can do -/

/-- The table has taken over the fact `v`, and the buffer has an entry for it. -/
structure Learned (retransmit : ℕ) (m : Membership) (v : Update) (m' : Membership) : Prop where
  gossip : m'.gossip = (m.enqueue v retransmit).gossip
  fact : m'.fact v.id = some v
  others : ∀ id, id ≠ v.id → m'.fact id = m.fact id
  absent : m'.Absent

theorem Learned.of_insert {m' : Membership} {v : Update} {since : Instant} (hid : v.id ≠ m.selfId)
    (hself : m'.selfUpdate = m.selfUpdate)
    (hmembers : m'.members = m.members.insert v.id ⟨v.addr, v.state, v.inc, since⟩)
    (hgossip : m'.gossip = (m.enqueue v retransmit).gossip) (habsent : m'.Absent) :
    Learned retransmit m v m' := by
  have hselfId : m'.selfId = m.selfId := congrArg Update.id hself
  refine ⟨hgossip, ?_, ?_, habsent⟩
  · rw [Membership.fact, hselfId, if_neg hid, hmembers, AList.lookup_insert]
    rfl
  · intro id hne
    rw [Membership.fact, Membership.fact, hselfId, hself, hmembers, AList.lookup_insert_ne hne]

/-- An operation leaves the table as it is, or it reports a change and has recorded a fact
    about `id`. -/
def Reports (retransmit : ℕ) (m : Membership) (id : NodeId) (r : Membership × Bool) : Prop :=
  r = (m, false) ∨ r.2 = true ∧ ∃ v : Update, v.id = id ∧ Learned retransmit m v r.1

theorem reports_merge (habsent : m.Absent) (u : Update) (now : Instant) :
    Reports retransmit m u.id (m.merge u retransmit now) := by
  have habsent' : (m.merge u retransmit now).1.Absent := habsent.merge
  unfold Membership.merge at habsent' ⊢
  split_ifs at habsent' ⊢ with hid href hacc
  · refine .inr ⟨rfl, ⟨m.selfId, m.selfAddr, .alive, u.inc + 1⟩, hid.symm, rfl, if_pos rfl, ?_,
      habsent'⟩
    intro id hne
    exact (if_neg hne).trans (if_neg hne).symm
  · exact .inl rfl
  · exact .inr ⟨rfl, u, rfl, .of_insert hid rfl rfl rfl habsent'⟩
  · exact .inl rfl

theorem reports_noteDirectAck (habsent : m.Absent) (sender : NodeId) (now : Instant) :
    Reports retransmit m sender (m.noteDirectAck sender retransmit now) := by
  have habsent' : (m.noteDirectAck sender retransmit now).1.Absent := habsent.noteDirectAck
  unfold Membership.noteDirectAck at habsent' ⊢
  cases hmb : m.members.lookup sender with
  | none => exact .inl rfl
  | some mb =>
    have hid : sender ≠ m.selfId := by
      rintro rfl
      exact habsent.lookup mb hmb
    simp only [hmb] at habsent' ⊢
    split_ifs at habsent' ⊢
    · exact .inr ⟨rfl, ⟨sender, mb.addr, .alive, mb.inc⟩, rfl, .of_insert hid rfl rfl rfl habsent'⟩
    · exact .inl rfl

theorem reports_suspect (habsent : m.Absent) (target : NodeId) (now : Instant) :
    Reports retransmit m target (m.suspect target retransmit now) := by
  unfold Membership.suspect
  split
  · exact .inl rfl
  · rename_i mb hmb
    split_ifs
    · exact .inl rfl
    · exact reports_merge habsent ⟨target, mb.addr, .suspect, mb.inc⟩ now

/-- A move changes nothing, or records one fact and enqueues it. -/
def Records (retransmit : ℕ) (m : Membership) (mv : Move) : Prop :=
  (apply retransmit m mv = (m, []) ∧ changed retransmit m mv = none) ∨
    ∃ v, (apply retransmit m mv).2 = [] ∧ changed retransmit m mv = some v.id ∧
      Learned retransmit m v (apply retransmit m mv).1

theorem records_of_reports {id : NodeId} {r : Membership × Bool} (h : Reports retransmit m id r)
    (happly : apply retransmit m mv = (r.1, []))
    (hchanged : changed retransmit m mv = if r.2 then some id else none) :
    Records retransmit m mv := by
  rcases h with rfl | ⟨htrue, v, rfl, hv⟩
  · exact .inl ⟨happly, hchanged⟩
  · refine .inr ⟨v, by rw [happly], ?_, by rwa [happly]⟩
    rw [hchanged, if_pos htrue]

theorem move_cases (retransmit : ℕ) (habsent : m.Absent) (mv : Move) :
    (∃ max, mv = .take max) ∨ Records retransmit m mv := by
  cases mv with
  | merge u now => exact .inr (records_of_reports (reports_merge habsent u now) rfl rfl)
  | ack sender now =>
    exact .inr (records_of_reports (reports_noteDirectAck habsent sender now) rfl rfl)
  | suspect target now =>
    exact .inr (records_of_reports (reports_suspect habsent target now) rfl rfl)
  | take max => exact .inl ⟨max, rfl⟩

/-! ## The buffer and the table -/

/-- The entries that stay when a fact about `id` is enqueued. -/
def aboutOthers (m : Membership) (id : NodeId) : List (Update × ℕ) :=
  m.gossip.filter fun g => g.1.id ≠ id

theorem gossip_enqueue (m : Membership) (v : Update) (retransmit : ℕ) :
    (m.enqueue v retransmit).gossip =
      (aboutOthers m v.id).drop ((aboutOthers m v.id).length + 1 - gossipCap) ++
        [(v, retransmit)] := by
  have hroom : (aboutOthers m v.id).length + 1 - gossipCap ≤ (aboutOthers m v.id).length := by
    unfold gossipCap
    omega
  rw [← List.drop_append_of_le_length hroom]
  unfold Membership.enqueue aboutOthers
  dsimp only
  rw [List.length_append, List.length_singleton]

theorem mem_aboutOthers {id : NodeId} {g : Update × ℕ} :
    g ∈ aboutOthers m id ↔ g ∈ m.gossip ∧ g.1.id ≠ id := by
  simp [aboutOthers]

/-- The buffer is a part of the table, and what an entry has left is what was not emitted of it. -/
structure Mirrors (retransmit : ℕ) (l : GossipLedger) : Prop where
  absent : l.table.Absent
  nodup : (l.table.gossip.map (·.1.id)).Nodup
  length_le : l.table.gossip.length ≤ gossipCap
  current : ∀ g ∈ l.table.gossip, l.table.fact g.1.id = some g.1
  budget : ∀ g ∈ l.table.gossip, 1 ≤ g.2 ∧ g.2 + l.emitted g.1.id = retransmit

theorem mirrors_start (retransmit : ℕ) (selfId : NodeId) (selfAddr : SocketAddr) :
    Mirrors retransmit (start selfId selfAddr) where
  absent := rfl
  nodup := List.nodup_nil
  length_le := Nat.zero_le _
  current _ hg := absurd hg List.not_mem_nil
  budget _ hg := absurd hg List.not_mem_nil

theorem nodup_enqueue {v : Update} (h : (m.gossip.map (·.1.id)).Nodup) :
    ((m.enqueue v retransmit).gossip.map (·.1.id)).Nodup := by
  rw [gossip_enqueue, List.map_append, List.nodup_append]
  refine ⟨?_, List.nodup_singleton _, ?_⟩
  · refine h.sublist (List.Sublist.map _ ?_)
    exact (List.drop_sublist _ _).trans List.filter_sublist
  · intro id hid id' hid' heq
    obtain ⟨g, hg, rfl⟩ := List.mem_map.mp hid
    refine (mem_aboutOthers.mp (List.mem_of_mem_drop hg)).2 ?_
    rw [heq, List.mem_singleton.mp hid']

theorem length_enqueue_le (m : Membership) (v : Update) (retransmit : ℕ) :
    (m.enqueue v retransmit).gossip.length ≤ gossipCap := by
  rw [gossip_enqueue, List.length_append, List.length_drop, List.length_singleton]
  unfold gossipCap
  omega

theorem Mirrors.record (hretransmit : 1 ≤ retransmit) (h : Mirrors retransmit l)
    {v : Update} (hout : (apply retransmit l.table mv).2 = [])
    (hchanged : changed retransmit l.table mv = some v.id)
    (hv : Learned retransmit l.table v (apply retransmit l.table mv).1) :
    Mirrors retransmit (l.move retransmit mv) := by
  have hgossip : (l.move retransmit mv).table.gossip = (l.table.enqueue v retransmit).gossip :=
    hv.gossip
  constructor
  · exact hv.absent
  · rw [hgossip]
    exact nodup_enqueue h.nodup
  · rw [hgossip]
    exact length_enqueue_le ..
  · intro g hg
    rw [hgossip] at hg
    obtain ⟨hold, hne⟩ | rfl := Membership.mem_gossip_enqueue hg
    · exact (hv.others g.1.id hne).trans (h.current g hold)
    · exact hv.fact
  · intro g hg
    rw [hgossip] at hg
    dsimp only [move]
    rw [hchanged, hout]
    obtain ⟨hold, hne⟩ | rfl := Membership.mem_gossip_enqueue hg
    · rw [if_neg fun heq => hne (Option.some.inj heq).symm]
      exact h.budget g hold
    · rw [if_pos rfl]
      exact ⟨hretransmit, rfl⟩

/-! ### Draining -/

theorem apply_take (retransmit : ℕ) (m : Membership) (max : ℕ) :
    apply retransmit m (.take max) =
      ({ m with gossip := (m.gossip.take (max - 1)).filterMap sentOnce ++ m.gossip.drop (max - 1) },
        m.selfUpdate :: (m.gossip.take (max - 1)).map Prod.fst) := by
  show m.takePiggyback max = _
  unfold Membership.takePiggyback
  rw [Membership.drainGossip_eq]
  rfl

theorem ids_filterMap_sentOnce (gs : List (Update × ℕ)) :
    ((gs.filterMap sentOnce).map (·.1.id)).Sublist (gs.map (·.1.id)) := by
  induction gs with
  | nil => exact List.Sublist.refl _
  | cons g gs ih =>
    cases hg : sentOnce g with
    | none =>
      rw [List.filterMap_cons_none hg]
      exact ih.cons g.1.id
    | some g' =>
      obtain ⟨-, rfl⟩ := sentOnce_eq_some.mp hg
      rw [List.filterMap_cons_some hg]
      exact ih.cons_cons g.1.id

theorem ids_drained (gs : List (Update × ℕ)) (k : ℕ) :
    (((gs.take k).filterMap sentOnce ++ gs.drop k).map (·.1.id)).Sublist (gs.map (·.1.id)) := by
  conv_rhs => rw [← List.take_append_drop k gs]
  rw [List.map_append, List.map_append]
  exact (ids_filterMap_sentOnce _).append (List.Sublist.refl _)

/-- A frame emits the entry of an id once if it is among the first of the buffer. -/
theorem emitted_take (retransmit : ℕ) (h : (l.table.gossip.map (·.1.id)).Nodup) {g : Update × ℕ}
    {max : ℕ} (hg : g ∈ l.table.gossip.take (max - 1)) :
    (l.move retransmit (.take max)).emitted g.1.id = l.emitted g.1.id + 1 := by
  dsimp only [move]
  rw [apply_take, if_neg (by simp [changed]), List.tail_cons, List.map_map]
  congr 1
  refine List.count_eq_one_of_mem (h.sublist ((List.take_sublist _ _).map _)) ?_
  exact List.mem_map_of_mem hg

theorem emitted_take_of_drop (h : (l.table.gossip.map (·.1.id)).Nodup) {g : Update × ℕ} {max : ℕ}
    (hg : g ∈ l.table.gossip.drop (max - 1)) :
    (l.move retransmit (.take max)).emitted g.1.id = l.emitted g.1.id := by
  dsimp only [move]
  rw [apply_take, if_neg (by simp [changed]), List.tail_cons, List.map_map, Nat.add_eq_left]
  rw [← List.take_append_drop (max - 1) l.table.gossip, List.map_append, List.nodup_append] at h
  refine List.count_eq_zero_of_not_mem fun hmem => ?_
  exact h.2.2 g.1.id hmem g.1.id (List.mem_map_of_mem hg) rfl

theorem Mirrors.take (h : Mirrors retransmit l) (max : ℕ) :
    Mirrors retransmit (l.move retransmit (.take max)) := by
  have hids := ids_drained l.table.gossip (max - 1)
  have htable : (l.move retransmit (.take max)).table = { l.table with
      gossip := (l.table.gossip.take (max - 1)).filterMap sentOnce ++
        l.table.gossip.drop (max - 1) } :=
    congrArg Prod.fst (apply_take retransmit l.table max)
  -- An entry behind the frame is one of before, with the budget that the frame left it.
  have hmem : ∀ g ∈ (l.move retransmit (.take max)).table.gossip,
      ∃ n, (g.1, n) ∈ l.table.gossip ∧
        (1 ≤ g.2 ∧ g.2 + (l.move retransmit (.take max)).emitted g.1.id = retransmit) := by
    intro g hg
    rw [htable, List.mem_append] at hg
    obtain hg | hg := hg
    · obtain ⟨⟨u, n⟩, hu, hsent⟩ := List.mem_filterMap.mp hg
      obtain ⟨hn, rfl⟩ := sentOnce_eq_some.mp hsent
      have hin := List.mem_of_mem_take hu
      have hbudget := (h.budget _ hin).2
      refine ⟨n, hin, ?_⟩
      rw [emitted_take retransmit h.nodup hu]
      dsimp only at hn hbudget ⊢
      omega
    · have hin := List.mem_of_mem_drop hg
      refine ⟨g.2, hin, ?_⟩
      rw [emitted_take_of_drop h.nodup hg]
      exact h.budget g hin
  constructor
  · rw [htable]
    exact h.absent
  · rw [htable]
    exact h.nodup.sublist hids
  · rw [htable]
    have hlength := hids.length_le
    rw [List.length_map, List.length_map] at hlength
    exact hlength.trans h.length_le
  · intro g hg
    obtain ⟨n, hn, -⟩ := hmem g hg
    rw [htable]
    exact h.current (g.1, n) hn
  · intro g hg
    obtain ⟨n, -, hbudget⟩ := hmem g hg
    exact hbudget

theorem Mirrors.move (hretransmit : 1 ≤ retransmit) (h : Mirrors retransmit l) (mv : Move) :
    Mirrors retransmit (l.move retransmit mv) := by
  obtain ⟨max, rfl⟩ | ⟨happly, hchanged⟩ | ⟨v, hout, hchanged, hv⟩ :=
    move_cases retransmit h.absent mv
  · exact h.take max
  · have hsame : l.move retransmit mv = l := by
      unfold GossipLedger.move
      rw [happly, hchanged]
      rfl
    rwa [hsame]
  · exact h.record hretransmit hout hchanged hv

/-! ## How an entry leaves -/

/-- Why the entry of `u` is no longer in the buffer behind `mv`. -/
inductive Leaves (retransmit : ℕ) (l : GossipLedger) (mv : Move) (u : Update) : Prop
  /-- The table has taken over another fact about the id since, and it is in the buffer. -/
  | replaced (v : Update) (hid : v.id = u.id) (hne : v ≠ u)
      (hfact : (l.move retransmit mv).table.fact u.id = some v)
      (hin : (v, retransmit) ∈ (l.move retransmit mv).table.gossip)
  /-- The entry is the oldest of 256, and there is a fact about yet another id. -/
  | evicted (v : Update) (hfull : l.table.gossip.length = gossipCap)
      (hnew : ∀ g ∈ l.table.gossip, g.1.id ≠ v.id)
      (holdest : l.table.gossip.head?.map Prod.fst = some u)
      (hin : (v, retransmit) ∈ (l.move retransmit mv).table.gossip)
  /-- The frame that is taken emits it for the last time. -/
  | spent (max : ℕ) (hmv : mv = .take max) (hsent : u ∈ (l.table.takePiggyback max).2.tail)
      (hcount : (l.move retransmit mv).emitted u.id = retransmit)

theorem Mirrors.leaves_take (h : Mirrors retransmit l) {u : Update} {n max : ℕ}
    (hu : (u, n) ∈ l.table.gossip)
    (hgone : ∀ n', (u, n') ∉ (l.move retransmit (.take max)).table.gossip) :
    Leaves retransmit l (.take max) u := by
  have hgossip : (l.move retransmit (.take max)).table.gossip =
      (l.table.gossip.take (max - 1)).filterMap sentOnce ++ l.table.gossip.drop (max - 1) :=
    congrArg (fun r => r.1.gossip) (apply_take retransmit l.table max)
  have htail : (l.table.takePiggyback max).2.tail =
      (l.table.gossip.take (max - 1)).map Prod.fst :=
    congrArg (fun r => r.2.tail) (apply_take retransmit l.table max)
  rw [hgossip] at hgone
  have hsplit := hu
  rw [← List.take_append_drop (max - 1) l.table.gossip, List.mem_append] at hsplit
  obtain htake | hdrop := hsplit
  · have hlast : n ≤ 1 := by
      by_contra hmore
      have hsent : sentOnce (u, n) = some (u, n - 1) := if_pos (by omega)
      exact hgone (n - 1) (List.mem_append_left _ (List.mem_filterMap.mpr ⟨_, htake, hsent⟩))
    obtain ⟨hpos, hbudget⟩ := h.budget _ hu
    have hcount := emitted_take retransmit h.nodup htake
    refine .spent max rfl ?_ ?_
    · rw [htail]
      exact List.mem_map_of_mem htake
    · dsimp only at hpos hbudget hcount
      omega
  · exact absurd (List.mem_append_right _ hdrop) (hgone n)

theorem Mirrors.leaves_record (h : Mirrors retransmit l) {u v : Update} {n : ℕ}
    (hu : (u, n) ∈ l.table.gossip)
    (hv : Learned retransmit l.table v (apply retransmit l.table mv).1)
    (hgone : ∀ n', (u, n') ∉ (l.move retransmit mv).table.gossip) :
    Leaves retransmit l mv u := by
  have hgossip : (l.move retransmit mv).table.gossip = _ :=
    hv.gossip.trans (gossip_enqueue l.table v retransmit)
  have hin : (v, retransmit) ∈ (l.move retransmit mv).table.gossip := by
    rw [hgossip]
    exact List.mem_append_right _ (List.mem_singleton_self _)
  by_cases hid : v.id = u.id
  · refine .replaced v hid ?_ ?_ hin
    · rintro rfl
      exact hgone _ hin
    · rw [← hid]
      exact hv.fact
  -- The entry is about another id than `v`: the buffer was full and the entry its first.
  have hother : (u, n) ∈ aboutOthers l.table v.id :=
    mem_aboutOthers.mpr ⟨hu, fun heq => hid heq.symm⟩
  have hdropped : (u, n) ∉ (aboutOthers l.table v.id).drop
      ((aboutOthers l.table v.id).length + 1 - gossipCap) := by
    intro hmem
    refine hgone n ?_
    rw [hgossip]
    exact List.mem_append_left _ hmem
  have hle : (aboutOthers l.table v.id).length ≤ l.table.gossip.length := List.length_filter_le ..
  have hmax := h.length_le
  have hfull : (aboutOthers l.table v.id).length = gossipCap := by
    by_contra hroom
    have hzero : (aboutOthers l.table v.id).length + 1 - gossipCap = 0 := by omega
    rw [hzero] at hdropped
    exact hdropped hother
  have hall : ∀ g ∈ l.table.gossip, g.1.id ≠ v.id := by
    have heq : (aboutOthers l.table v.id).length = l.table.gossip.length := by omega
    intro g hg
    exact of_decide_eq_true (List.length_filter_eq_length_iff.mp heq g hg)
  have hsame : aboutOthers l.table v.id = l.table.gossip :=
    List.filter_eq_self.mpr fun g hg => decide_eq_true (hall g hg)
  rw [hfull, hsame, Nat.add_sub_cancel_left] at hdropped
  refine .evicted v (hsame ▸ hfull) hall ?_ hin
  cases hcons : l.table.gossip with
  | nil => rw [hcons] at hu; exact absurd hu List.not_mem_nil
  | cons g gs =>
    rw [hcons] at hu hdropped
    obtain rfl | hgs := List.mem_cons.mp hu
    · rfl
    · exact absurd hgs hdropped

theorem Mirrors.leaves (h : Mirrors retransmit l) {u : Update} {n : ℕ}
    (hu : (u, n) ∈ l.table.gossip)
    (hgone : ∀ n', (u, n') ∉ (l.move retransmit mv).table.gossip) :
    Leaves retransmit l mv u := by
  obtain ⟨max, rfl⟩ | ⟨happly, -⟩ | ⟨v, -, -, hv⟩ := move_cases retransmit h.absent mv
  · exact h.leaves_take hu hgone
  · refine absurd ?_ (hgone n)
    dsimp only [GossipLedger.move]
    rwa [happly]
  · exact h.leaves_record hu hv hgone

/-! ## Runs -/

theorem Mirrors.run (hretransmit : 1 ≤ retransmit) (h : Mirrors retransmit l) (mvs : List Move) :
    Mirrors retransmit (Lib.run (GossipLedger.move retransmit) l mvs) :=
  run_invariant (fun _ mv h => h.move hretransmit mv) h

theorem mirrors_run (hretransmit : 1 ≤ retransmit) (selfId : NodeId) (selfAddr : SocketAddr)
    (ops : List Op) : Mirrors retransmit (run (step retransmit) (start selfId selfAddr) ops) :=
  run_invariant (fun _ _ h => h.run hretransmit _) (mirrors_start ..)

/-- In every run from a new table the buffer holds at most 256 entries, at most one for an id,
    each of them what the table says of its id; and an entry is lost only to another fact about
    its id, to a 257th id or after `retransmit` frames. -/
theorem gossip_mirrors (hretransmit : 1 ≤ retransmit) (selfId : NodeId) (selfAddr : SocketAddr)
    (ops : List Op) :
    let l := run (step retransmit) (start selfId selfAddr) ops
    l.table.gossip.length ≤ 256 ∧ (l.table.gossip.map (·.1.id)).Nodup ∧
      (∀ g ∈ l.table.gossip, l.table.fact g.1.id = some g.1) ∧
      ∀ op before mv after, moves l.table op = before ++ mv :: after →
        let z := run (move retransmit) l before
        ∀ u n, (u, n) ∈ z.table.gossip →
          (∀ n', (u, n') ∉ (z.move retransmit mv).table.gossip) → Leaves retransmit z mv u := by
  have h := mirrors_run hretransmit selfId selfAddr ops
  refine ⟨h.length_le, h.nodup, h.current, ?_⟩
  intro op before mv after _ z u n hu hgone
  exact (h.run hretransmit before).leaves hu hgone

/-- The one entry of a buffer is sent once and gone. -/
theorem spent_after_one :
    Leaves 1 (run (step 1) (start 1 ⟨.v4 0x0a000001, 1⟩)
      [.move (.merge ⟨2, ⟨.v4 0x0a000001, 2⟩, .alive, 0⟩ 0)]) (.take 8)
      ⟨2, ⟨.v4 0x0a000001, 2⟩, .alive, 0⟩ :=
  (gossip_mirrors (le_refl 1) 1 ⟨.v4 0x0a000001, 1⟩
    [.move (.merge ⟨2, ⟨.v4 0x0a000001, 2⟩, .alive, 0⟩ 0)]).2.2.2
    (.move (.take 8)) [] (.take 8) [] rfl _ 1 (by decide) fun _ => List.not_mem_nil

end GossipLedger

end BeamSocket.Mesh
