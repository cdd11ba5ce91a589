import BeamSocket.Lib.OrdSet
import BeamSocket.Mesh.Frame

/-!
# Interest routing

Model of `crates/mesh/src/interest.rs`: each node's own hosting set with its
sequence number, the table of what it has recorded of every other origin, the
anti-entropy digest and the routing decision. Sequence numbers (`u64`) are
natural numbers. `BTreeSet` and `HashSet` are `OrdSet`, `HashMap` is `AList`.

* `InterestState.localInterest_localSet`: what a local change does.
* `InterestState.entry_applyEdge`, `entry_applySnapshot`, `entry_sweepOrigin`:
  what the table holds for every origin afterwards.
* `InterestState.mem_respondToDigest`: which snapshots answer a digest.
* `InterestState.mem_interestedPeers`, `sortedLT_interestedPeers`: the routing
  decision, as a set and as a sorted list.
-/

namespace BeamSocket.Mesh

open BeamSocket.Lib

/-- `enum Target` (lines 36–39). -/
inductive Target
  | room (name : String)
  | user (name : String)
  deriving DecidableEq, Repr

/-- `enum Routing` (lines 47–51). -/
inductive Routing
  | interest
  | flood
  deriving DecidableEq, Repr

/-- `struct OriginInterest` (lines 56–60). -/
@[ext] structure OriginInterest where
  seq : ℕ
  rooms : OrdSet String
  users : OrdSet String
  deriving DecidableEq

instance : Inhabited OriginInterest := ⟨⟨0, ∅, ∅⟩⟩

/-- `fnv1a64` (lines 91–98). -/
def fnv1a64 (data : Bytes) : UInt64 :=
  data.foldl (fun h b => (h ^^^ b.toUInt64) * 0x00000100000001b3) 0xcbf29ce484222325

namespace OriginInterest

/-- `OriginInterest::hosts`. -/
def hosts (o : OriginInterest) : Target → Bool
  | .room r => r ∈ o.rooms
  | .user u => u ∈ o.users

/-- The set of `target` with its name inserted or removed: the `match` that
    `local_set` and `apply_edge` share. -/
def put (o : OriginInterest) (target : Target) (add : Bool) : OriginInterest :=
  match target with
  | .room r => { o with rooms := if add then o.rooms.insert r else o.rooms.erase r }
  | .user u => { o with users := if add then o.users.insert u else o.users.erase u }

/-- The bytes `OriginInterest::hash` digests (lines 73–86): each name behind a
    tag and its 16-bit length, in order. -/
def hashInput (o : OriginInterest) : Bytes :=
  let item (tag : UInt8) (name : String) :=
    tag :: toLe 2 (asBytes name).length ++ asBytes name
  o.rooms.toList.flatMap (item 1) ++ o.users.toList.flatMap (item 2)

/-- `OriginInterest::hash`. -/
def hash (o : OriginInterest) : UInt64 := fnv1a64 o.hashInput

end OriginInterest

/-- `struct InterestEdge` (lines 102–107). -/
structure InterestEdge where
  origin : NodeId
  seq : ℕ
  add : Bool
  target : Target
  deriving DecidableEq, Repr

/-- `struct InterestSnapshot` (lines 112–117). -/
structure InterestSnapshot where
  origin : NodeId
  seq : ℕ
  rooms : List String
  users : List String
  deriving DecidableEq, Repr

/-- `type DigestEntry`: origin, sequence number and set hash. -/
abbrev DigestEntry := NodeId × ℕ × UInt64

/-- `enum InterestUpdate` (lines 398–401). -/
inductive InterestUpdate
  | edge (e : InterestEdge)
  | snapshot (s : InterestSnapshot)
  deriving DecidableEq, Repr

namespace InterestUpdate

/-- The node that the update is about. -/
def origin : InterestUpdate → NodeId
  | edge e => e.origin
  | snapshot s => s.origin

/-- The sequence number, a `u64`. -/
def seq : InterestUpdate → ℕ
  | edge e => e.seq
  | snapshot s => s.seq

end InterestUpdate

/-- `struct InterestCounters` (lines 125–134). -/
structure InterestCounters where
  interestIn : ℕ
  interestOut : ℕ
  seqDrops : ℕ
  digestRepairs : ℕ
  deriving DecidableEq, Repr

instance : Inhabited InterestCounters := ⟨⟨0, 0, 0, 0⟩⟩

/-- `struct InterestState` (lines 138–144). No state has an entry for its own
    node: every insertion is guarded by `origin ≠ self_id`. -/
structure InterestState where
  selfId : NodeId
  localInterest : OriginInterest
  remote : AList fun _ : NodeId => OriginInterest
  routing : Routing
  counters : InterestCounters
  self_notMem : selfId ∉ remote

/-- `snapshot_of`. -/
def snapshotOf (origin : NodeId) (o : OriginInterest) : InterestSnapshot :=
  ⟨origin, o.seq, o.rooms.toList, o.users.toList⟩

/-- The interest a snapshot carries (the `replacement` of `apply_snapshot`). -/
def InterestSnapshot.interest (snap : InterestSnapshot) : OriginInterest :=
  ⟨snap.seq, .ofList snap.rooms, .ofList snap.users⟩

namespace InterestState

/-- `InterestState::new`. -/
def new (selfId : NodeId) (routing : Routing) : InterestState :=
  ⟨selfId, default, ∅, routing, default, AList.notMem_empty selfId⟩

/-- The recorded interest of an origin. -/
def entry (st : InterestState) (origin : NodeId) : Option OriginInterest := st.remote.lookup origin

/-- `self.remote.insert(origin, o)` for another origin. -/
def record (st : InterestState) (origin : NodeId) (o : OriginInterest)
    (h : origin ≠ st.selfId) : InterestState :=
  { st with
    remote := st.remote.insert origin o
    self_notMem := by
      rw [AList.mem_insert, not_or]
      exact ⟨h.symm, st.self_notMem⟩ }

/-- `InterestState::local_set` (lines 182–210): the set changes, and an edge is
    returned, only when `hosting` is not what the set says already. -/
def localSet (st : InterestState) (target : Target) (hosting : Bool) :
    InterestState × Option InterestEdge :=
  if st.localInterest.hosts target = hosting then (st, none)
  else
    let o := st.localInterest.put target hosting
    ({ st with
        localInterest := { o with seq := o.seq + 1 }
        counters := { st.counters with interestOut := st.counters.interestOut + 1 } },
      some ⟨st.selfId, o.seq + 1, hosting, target⟩)

/-- `InterestState::apply_edge` (lines 218–243). `entry(..).or_default()` makes
    an entry even for an edge that is then dropped. -/
def applyEdge (st : InterestState) (edge : InterestEdge) : InterestState × Bool :=
  if h : edge.origin = st.selfId then (st, false)
  else
    let o := (st.entry edge.origin).getD default
    if edge.seq ≤ o.seq then
      ({ st.record edge.origin o h with
          counters := { st.counters with seqDrops := st.counters.seqDrops + 1 } }, false)
    else
      ({ st.record edge.origin ({ o with seq := edge.seq }.put edge.target edge.add) h with
          counters := { st.counters with interestIn := st.counters.interestIn + 1 } }, true)

/-- `InterestState::apply_snapshot` (lines 249–270). -/
def applySnapshot (st : InterestState) (snap : InterestSnapshot) : InterestState × Bool :=
  if h : snap.origin = st.selfId then (st, false)
  else
    let cur := st.entry snap.origin
    let accept := (cur.map fun o => decide (snap.seq ≥ o.seq)).getD true
    if !accept then (st, false)
    else
      let changed := cur ≠ some snap.interest
      ({ st.record snap.origin snap.interest h with
          counters :=
            { st.counters with
              interestIn := st.counters.interestIn + 1
              digestRepairs := st.counters.digestRepairs + if changed then 1 else 0 } },
        changed)

/-- An INTEREST frame in `on_inbound` (`node.rs`, lines 199–212). -/
def applyUpdate (st : InterestState) : InterestUpdate → InterestState
  | .edge e => (st.applyEdge e).1
  | .snapshot s => (st.applySnapshot s).1

/-- `InterestState::sweep_origin`. -/
def sweepOrigin (st : InterestState) (origin : NodeId) : InterestState :=
  { st with
    remote := st.remote.erase origin
    self_notMem := fun h => st.self_notMem (AList.mem_erase.mp h).2 }

/-- `InterestState::local_snapshot`. -/
def localSnapshot (st : InterestState) : InterestSnapshot := snapshotOf st.selfId st.localInterest

/-- `InterestState::build_digest` (lines 293–299). -/
def buildDigest (st : InterestState) : List DigestEntry :=
  (st.selfId, st.localInterest.seq, st.localInterest.hash) ::
    st.remote.entries.map fun e => (e.1, e.2.seq, e.2.hash)

/-- The `peer_map` of `respond_to_digest`: a later entry replaces an earlier. -/
def peerMap (peer : List DigestEntry) : AList fun _ : NodeId => ℕ × UInt64 :=
  peer.foldl (fun m e => m.insert e.1 e.2) ∅

/-- The `send_self` of `respond_to_digest`: whether the own snapshot answers a
    peer that has `known` recorded of this node. -/
def sendSelf (st : InterestState) (known : Option (ℕ × UInt64)) : Bool :=
  match known with
  | none => st.localInterest.rooms ≠ ∅ ∨ st.localInterest.users ≠ ∅ ∨ st.localInterest.seq > 0
  | some p => p ≠ (st.localInterest.seq, st.localInterest.hash)

/-- The `ahead` of `respond_to_digest`: whether a recorded origin is forwarded. -/
def ahead (o : OriginInterest) (known : Option (ℕ × UInt64)) : Bool :=
  match known with
  | none => o.seq > 0
  | some p => o.seq > p.1

/-- `InterestState::respond_to_digest` (lines 305–333). -/
def respondToDigest (st : InterestState) (peer : List DigestEntry) : List InterestSnapshot :=
  let peerMap := peerMap peer
  (if st.sendSelf (peerMap.lookup st.selfId) then [st.localSnapshot] else []) ++
    (st.remote.entries.filter fun e => ahead e.2 (peerMap.lookup e.1)).map
      fun e => snapshotOf e.1 e.2

/-- `InterestState::interested_peers` (lines 350–372). -/
def interestedPeers (st : InterestState) (target : Target) (alive : OrdSet NodeId) : List NodeId :=
  match st.routing with
  | .flood => (alive.toList.filter (· ≠ st.selfId)).insertionSort (· ≤ ·)
  | .interest =>
    ((st.remote.entries.filter fun e => e.1 ∈ alive ∧ e.2.hosts target).map (·.1)).insertionSort
      (· ≤ ·)

end InterestState

/-! ## What the operations do -/

theorem OriginInterest.hosts_put (o : OriginInterest) (t t' : Target) (add : Bool) :
    (o.put t add).hosts t' = if t' = t then add else o.hosts t' := by
  cases t <;> cases t' <;> cases add <;> simp [put, hosts]

@[simp] theorem OriginInterest.seq_put (o : OriginInterest) (t : Target) (add : Bool) :
    (o.put t add).seq = o.seq := by
  cases t <;> rfl

/-- A snapshot carries the interest it was made of. -/
@[simp] theorem interest_snapshotOf (origin : NodeId) (o : OriginInterest) :
    (snapshotOf origin o).interest = o := by
  simp [snapshotOf, InterestSnapshot.interest]

namespace InterestState

variable {st : InterestState}

@[simp] theorem entry_selfId : st.entry st.selfId = none := AList.lookup_eq_none.mpr st.self_notMem

theorem entry_record {c c' : NodeId} {o : OriginInterest} {h : c ≠ st.selfId} :
    (st.record c o h).entry c' = if c' = c then some o else st.entry c' :=
  lookup_insert st.remote c c' o

@[simp] theorem selfId_localSet (t : Target) (hosting : Bool) :
    (st.localSet t hosting).1.selfId = st.selfId := by
  unfold localSet; split_ifs <;> rfl

@[simp] theorem entry_localSet (t : Target) (hosting : Bool) (c : NodeId) :
    (st.localSet t hosting).1.entry c = st.entry c := by
  unfold localSet; split_ifs <;> rfl

theorem localInterest_localSet (t : Target) (hosting : Bool) :
    (st.localSet t hosting).1.localInterest =
      if st.localInterest.hosts t = hosting then st.localInterest
      else { st.localInterest.put t hosting with seq := st.localInterest.seq + 1 } := by
  unfold localSet
  split_ifs
  · rfl
  · simp

theorem edge_localSet (t : Target) (hosting : Bool) :
    (st.localSet t hosting).2 =
      if st.localInterest.hosts t = hosting then none
      else some ⟨st.selfId, st.localInterest.seq + 1, hosting, t⟩ := by
  unfold localSet
  split_ifs
  · rfl
  · simp

theorem hosts_localSet (t t' : Target) (hosting : Bool) :
    (st.localSet t hosting).1.localInterest.hosts t' =
      if t' = t then hosting else st.localInterest.hosts t' := by
  rw [localInterest_localSet]
  by_cases h : st.localInterest.hosts t = hosting
  · rw [if_pos h]
    by_cases ht : t' = t
    · rw [if_pos ht, ht, h]
    · rw [if_neg ht]
  · rw [if_neg h, ← st.localInterest.hosts_put t t' hosting]
    cases t' <;> rfl

/-- An edge changes the entry of its origin only, and its sets only when it is
    strictly newer than what is recorded. -/
theorem entry_applyEdge (e : InterestEdge) (c : NodeId) :
    (st.applyEdge e).1.entry c =
      if c = e.origin ∧ e.origin ≠ st.selfId then
        let o := (st.entry e.origin).getD default
        some (if e.seq ≤ o.seq then o else { o with seq := e.seq }.put e.target e.add)
      else st.entry c := by
  by_cases hself : e.origin = st.selfId
  · rw [applyEdge, dif_pos hself, if_neg (by simp [hself])]
  · have hrec : (st.applyEdge e).1.entry c = if c = e.origin then
        some (if e.seq ≤ ((st.entry e.origin).getD default).seq then
          (st.entry e.origin).getD default
        else { (st.entry e.origin).getD default with seq := e.seq }.put e.target e.add)
        else st.entry c := by
      rw [applyEdge, dif_neg hself]
      dsimp only
      by_cases hseq : e.seq ≤ ((st.entry e.origin).getD default).seq
      · rw [if_pos hseq, if_pos hseq]
        exact entry_record (h := hself)
      · rw [if_neg hseq, if_neg hseq]
        exact entry_record (h := hself)
    rw [hrec]
    simp only [hself, ne_eq, not_false_eq_true, and_true]

@[simp] theorem localInterest_applySnapshot (snap : InterestSnapshot) :
    (st.applySnapshot snap).1.localInterest = st.localInterest := by
  unfold applySnapshot; dsimp only; split_ifs <;> rfl

@[simp] theorem selfId_applySnapshot (snap : InterestSnapshot) :
    (st.applySnapshot snap).1.selfId = st.selfId := by
  unfold applySnapshot; dsimp only; split_ifs <;> rfl

@[simp] theorem routing_applySnapshot (snap : InterestSnapshot) :
    (st.applySnapshot snap).1.routing = st.routing := by
  unfold applySnapshot; dsimp only; split_ifs <;> rfl

/-- The sequence number recorded of an origin, zero when there is no entry. -/
def recordedSeq (st : InterestState) (c : NodeId) : ℕ := ((st.entry c).map (·.seq)).getD 0

/-- A snapshot replaces the entry of its origin when it is at least as new. -/
theorem entry_applySnapshot (snap : InterestSnapshot) (c : NodeId) :
    (st.applySnapshot snap).1.entry c =
      if c = snap.origin ∧ snap.origin ≠ st.selfId ∧ st.recordedSeq snap.origin ≤ snap.seq then
        some snap.interest
      else st.entry c := by
  have haccept : ((st.entry snap.origin).map fun o => decide (snap.seq ≥ o.seq)).getD true =
      decide (st.recordedSeq snap.origin ≤ snap.seq) := by
    unfold recordedSeq
    cases st.entry snap.origin <;> simp
  by_cases hself : snap.origin = st.selfId
  · rw [applySnapshot, dif_pos hself, if_neg (by simp [hself])]
  · rw [applySnapshot, dif_neg hself]
    dsimp only
    rw [haccept]
    by_cases hseq : st.recordedSeq snap.origin ≤ snap.seq
    · rw [if_neg (by simp [hseq])]
      refine (entry_record (h := hself)).trans ?_
      simp only [hself, hseq, ne_eq, not_false_eq_true, and_true]
    · rw [if_pos (by simp [hseq]), if_neg (by simp [hseq])]

/-- Updates change nothing but the table and the counters. -/
theorem applyUpdate_frame (u : InterestUpdate) :
    (st.applyUpdate u).selfId = st.selfId ∧ (st.applyUpdate u).localInterest = st.localInterest ∧
      (st.applyUpdate u).routing = st.routing := by
  cases u with
  | edge e =>
    unfold applyUpdate applyEdge
    dsimp only
    split_ifs <;> exact ⟨rfl, rfl, rfl⟩
  | snapshot s =>
    exact ⟨selfId_applySnapshot s, localInterest_applySnapshot s, routing_applySnapshot s⟩

theorem entry_sweepOrigin (c c' : NodeId) :
    (st.sweepOrigin c).entry c' = if c' = c then none else st.entry c' :=
  lookup_erase st.remote c c'

/-! ### The digest exchange -/

theorem mem_entries {c : NodeId} {o : OriginInterest} :
    (⟨c, o⟩ : Sigma fun _ : NodeId => OriginInterest) ∈ st.remote.entries ↔ st.entry c = some o :=
  AList.mem_lookup_iff.symm

theorem nodup_buildDigest (st : InterestState) : (st.buildDigest.map Prod.fst).Nodup := by
  have hkeys : st.buildDigest.map Prod.fst = st.selfId :: st.remote.keys := by
    simp [buildDigest, AList.keys, List.keys]
  rw [hkeys]
  exact List.nodup_cons.mpr ⟨st.self_notMem, st.remote.keys_nodup⟩

/-- What a peer learns from a digest about an origin. -/
theorem lookup_peerMap_buildDigest (st : InterestState) (c : NodeId) :
    (peerMap st.buildDigest).lookup c =
      if c = st.selfId then some (st.localInterest.seq, st.localInterest.hash)
      else (st.entry c).map fun o => (o.seq, o.hash) := by
  unfold peerMap
  split_ifs with hc
  · rw [hc]
    exact lookup_foldl_insert_of_mem st.nodup_buildDigest (List.mem_cons_self ..) ∅
  · cases ho : st.entry c with
    | none =>
      refine lookup_foldl_insert_of_notMem ?_ ∅
      have hno : ∀ o, (⟨c, o⟩ : Sigma fun _ : NodeId => OriginInterest) ∉ st.remote.entries := by
        intro o h
        rw [mem_entries, ho] at h
        cases h
      simpa [buildDigest, hc] using hno
    | some o =>
      refine lookup_foldl_insert_of_mem st.nodup_buildDigest (List.mem_cons_of_mem _ ?_) ∅
      exact List.mem_map.mpr ⟨⟨c, o⟩, mem_entries.mpr ho, rfl⟩

theorem mem_respondToDigest {peer : List DigestEntry} {snap : InterestSnapshot} :
    snap ∈ st.respondToDigest peer ↔
      (st.sendSelf ((peerMap peer).lookup st.selfId) = true ∧ snap = st.localSnapshot) ∨
      ∃ c o, st.entry c = some o ∧ ahead o ((peerMap peer).lookup c) = true ∧
        snap = snapshotOf c o := by
  unfold respondToDigest
  rw [List.mem_append, List.mem_map]
  refine or_congr ?_ ?_
  · split_ifs with h
    · simp [h]
    · simp [h]
  · constructor
    · rintro ⟨⟨c, o⟩, hmem, rfl⟩
      obtain ⟨hent, hahead⟩ := List.mem_filter.mp hmem
      exact ⟨c, o, mem_entries.mp hent, hahead, rfl⟩
    · rintro ⟨c, o, hent, hahead, rfl⟩
      exact ⟨⟨c, o⟩, List.mem_filter.mpr ⟨mem_entries.mpr hent, hahead⟩, rfl⟩

/-! ### The routing decision -/

theorem mem_interestedPeers {t : Target} {alive : OrdSet NodeId} {c : NodeId} :
    c ∈ st.interestedPeers t alive ↔ c ∈ alive ∧
      match st.routing with
      | .flood => c ≠ st.selfId
      | .interest => ∃ o, st.entry c = some o ∧ o.hosts t = true := by
  unfold interestedPeers
  cases st.routing with
  | flood => simp [OrdSet.mem_def]
  | interest =>
    rw [List.mem_insertionSort, List.mem_map]
    constructor
    · rintro ⟨⟨c, o⟩, hmem, rfl⟩
      obtain ⟨hent, hp⟩ := List.mem_filter.mp hmem
      obtain ⟨halive, hhosts⟩ : c ∈ alive ∧ o.hosts t = true := by simpa using hp
      exact ⟨halive, o, mem_entries.mp hent, hhosts⟩
    · rintro ⟨halive, o, hent, hhosts⟩
      exact ⟨⟨c, o⟩, List.mem_filter.mpr ⟨mem_entries.mpr hent, by simp [halive, hhosts]⟩, rfl⟩

theorem sortedLT_interestedPeers (st : InterestState) (t : Target) (alive : OrdSet NodeId) :
    (st.interestedPeers t alive).SortedLT := by
  unfold interestedPeers
  cases st.routing with
  | flood =>
    refine List.sortedLE_insertionSort.sortedLT_of_nodup ?_
    rw [(List.perm_insertionSort _ _).nodup_iff]
    exact alive.nodup.filter _
  | interest =>
    refine List.sortedLE_insertionSort.sortedLT_of_nodup ?_
    rw [(List.perm_insertionSort _ _).nodup_iff]
    exact st.remote.keys_nodup.sublist (List.filter_sublist.map _)

end InterestState

end BeamSocket.Mesh
