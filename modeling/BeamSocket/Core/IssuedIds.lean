import BeamSocket.Core.Shards
import BeamSocket.Lib.Run

/-!
# Every id that was issued

Any sequence of `insert`, `remove` and `with_rooms` on the sharded registry, with a log
of the ids that were issued, each with the connection it was issued for. The slots are
independent: the state of a slot is a function of the connections that it was used for
(`SlotLog`), and the generation in an id is the number of earlier ones modulo 2²⁴.

* `IssuedIds.ids_never_alias`: which ids are found, before and after their removal, and
  what `handles` lists.
-/

namespace BeamSocket.Core

open BeamSocket.Lib

namespace ShardedRegistry

variable (r : ShardedRegistry) (id : ConnectionId)

/-- `Registry::get` (lines 102–106). -/
def get : Option ConnHandle := (r.find id).map Entry.handle

/-- `Registry::with_rooms` (lines 130–141): what `f` returns, and the registry with the
    room set that `f` leaves. -/
def withRooms {ρ : Type} (f : OrdSet RoomId → ρ × OrdSet RoomId) : Option ρ × ShardedRegistry :=
  match r.find id with
  | none => (none, r)
  | some e => (some (f e.rooms).1, r.setRooms id (f e.rooms).2)

/-- A listing of one shard with what `f` copies of each entry; a slab iterates by key. -/
def shardList {α : Type} (f : Entry → α) (k : Fin shardCount) : List (ConnectionId × α) :=
  ((r.shards k).slab.entries.mergeSort fun a b => a.1 ≤ b.1).map fun e =>
    (ConnectionId.new (UInt8.ofNat k) e.2.generation (UInt32.ofNat e.1), f e.2.entry)

/-- The part of `handles` (lines 165–177) about one shard. -/
def shardHandles (k : Fin shardCount) : List (ConnectionId × ConnHandle) :=
  r.shardList Entry.handle k

/-- `Registry::handles` (lines 165–177). -/
def handles : List (ConnectionId × ConnHandle) := (List.finRange shardCount).flatMap r.shardHandles

variable {r} {α : Type} {f : Entry → α} {k : Fin shardCount}

theorem mem_shardList {c : ConnectionId × α} :
    c ∈ r.shardList f k ↔ ∃ key slot, (r.shards k).slab.lookup key = some slot ∧
      c = (ConnectionId.new (UInt8.ofNat k) slot.generation (UInt32.ofNat key), f slot.entry) := by
  unfold shardList
  rw [List.mem_map]
  constructor
  · rintro ⟨e, he, rfl⟩
    rw [List.mem_mergeSort] at he
    exact ⟨e.1, e.2, (List.mem_dlookup_iff (r.shards k).slab.nodupKeys).mpr he, rfl⟩
  · rintro ⟨key, slot, hlookup, rfl⟩
    refine ⟨⟨key, slot⟩, ?_, rfl⟩
    rw [List.mem_mergeSort]
    exact (List.mem_dlookup_iff (r.shards k).slab.nodupKeys).mp hlookup

/-- The keys fit into the ids, so an id determines its key. -/
theorem nodup_shardList
    (hkeys : ∀ key slot, (r.shards k).slab.lookup key = some slot → key < 2 ^ 32) :
    ((r.shardList f k).map Prod.fst).Nodup := by
  have hnodup := (r.shards k).slab.nodupKeys
  unfold shardList
  rw [List.map_map, List.nodup_map_iff_inj_on ((List.mergeSort_perm ..).nodup_iff.mpr hnodup.nodup)]
  intro e he e' he' heq
  rw [List.mem_mergeSort] at he he'
  have hlt := hkeys _ _ ((List.mem_dlookup_iff hnodup).mpr he)
  have hlt' := hkeys _ _ ((List.mem_dlookup_iff hnodup).mpr he')
  have hkey := congrArg (fun id => (ConnectionId.key id).toNat) heq
  simp only [Function.comp, ConnectionId.key_new, UInt32.toNat_ofNat'] at hkey
  rw [Nat.mod_eq_of_lt hlt, Nat.mod_eq_of_lt hlt'] at hkey
  exact hnodup.eq_of_fst_eq he he' hkey

end ShardedRegistry

/-- An id that was issued and the connection it was issued for. -/
structure Issue where
  id : ConnectionId
  entry : Entry
  live : Bool

/-- A registry with the log of the ids that it has issued, newest first. -/
structure IssuedIds where
  registry : ShardedRegistry
  issues : List Issue

/-- The operations of the registry that change it. -/
inductive RegistryOp
  /-- `insert`; `key` is what the slab hands out. -/
  | insert (key : ℕ) (handle : ConnHandle) (user : Option UserId)
  | remove (id : ConnectionId)
  | withRooms (id : ConnectionId) (f : OrdSet RoomId → OrdSet RoomId)

/-- The connection with `id`, if live, after a change of its entry. -/
def Issue.change (id : ConnectionId) (f : Entry → Option Entry) (x : Issue) : Issue :=
  if x.live = true ∧ x.id = id then
    match f x.entry with
    | none => { x with live := false }
    | some entry => { x with entry }
  else x

namespace Issue

variable (id : ConnectionId) (f : Entry → Option Entry) (x : Issue)

@[simp] theorem id_change : (x.change id f).id = x.id := by
  unfold change
  split_ifs
  · cases f x.entry <;> rfl
  · rfl

theorem live_of_change (h : (x.change id f).live = true) : x.live = true := by
  unfold change at h
  split_ifs at h with hx
  · exact hx.1
  · exact h

theorem change_of_ne {id : ConnectionId} {x : Issue} (h : x.live = true → x.id ≠ id) :
    x.change id f = x := if_neg fun hx => h hx.1 hx.2

end Issue

namespace IssuedIds

/-- A new registry, which has handed out no id. -/
def new : IssuedIds := { registry := .new, issues := [] }

/-- The log after an operation on `id`; one that is not in use is not touched. -/
def change (l : IssuedIds) (id : ConnectionId) (registry : ShardedRegistry)
    (f : Entry → Option Entry) : IssuedIds :=
  { registry, issues := l.issues.map (Issue.change id f) }

/-- One operation, with its entry in the ledger. -/
def step (l : IssuedIds) : RegistryOp → IssuedIds
  | .insert key handle user =>
    let (k, r) := l.registry.fetchShard
    if (r.shards k).Vacant key ∧ key < 2 ^ 32 then
      { registry := r.insert k key handle user
        issues := ⟨r.issued k key, { handle, rooms := ∅, user }, true⟩ :: l.issues }
    else l
  | .remove id => l.change id (l.registry.removeFull id).2 fun _ => none
  | .withRooms id f =>
    l.change id (l.registry.withRooms id fun rooms => ((), f rooms)).2 fun e =>
      some { e with rooms := f e.rooms }

/-! ## One slot -/

/-- The generation of a slot that was used `n` times before. -/
def gen (n : ℕ) : UInt32 := UInt32.ofNat (n % 2 ^ 24)

theorem toNat_gen (n : ℕ) : (gen n).toNat = n % 2 ^ 24 := by
  rw [gen, UInt32.toNat_ofNat']
  omega

theorem gen_and_generationMask (n : ℕ) : gen n &&& generationMask = gen n := by
  apply UInt32.toNat.inj
  rw [ConnectionId.toNat_and_generationMask, toNat_gen]
  omega

theorem gen_succ (n : ℕ) : (gen n + 1) &&& generationMask = gen (n + 1) := by
  apply UInt32.toNat.inj
  have hone : (1 : UInt32).toNat = 1 := rfl
  rw [ConnectionId.toNat_and_generationMask, UInt32.toNat_add, toNat_gen, toNat_gen, hone]
  omega

/-- The id is of slot `key` of shard `k`. -/
def atSlot (k : Fin shardCount) (key : ℕ) (id : ConnectionId) : Prop :=
  id.shard.toNat = k ∧ id.key.toNat = key

instance (k : Fin shardCount) (key : ℕ) : DecidablePred (atSlot k key) := fun id =>
  inferInstanceAs (Decidable (id.shard.toNat = k ∧ id.key.toNat = key))

/-- What is in a slot after the connections of `uses`, newest first. -/
def occupant : List Issue → Option Slot
  | [] => none
  | x :: earlier => if x.live then some ⟨gen earlier.length, x.entry⟩ else none

/-- What the shard has in slot `key` after the connections of `uses`, newest first. -/
structure SlotLog (shard : Shard) (key : ℕ) (uses : List Issue) : Prop where
  gens : shard.gens[key]? = if uses = [] then none else some (gen (uses.length - 1))
  slab : shard.slab.lookup key = occupant uses
  used : ∀ later x earlier, uses = later ++ x :: earlier →
    x.id.generation = gen earlier.length ∧ (x.live = true → later = [])

namespace SlotLog

variable {shard : Shard} {key : ℕ} {uses : List Issue}

theorem nextGeneration (h : SlotLog shard key uses) :
    shard.nextGeneration key = gen uses.length := by
  unfold Shard.nextGeneration
  rw [h.gens]
  cases uses with
  | nil => rfl
  | cons x uses => exact gen_succ uses.length

/-- The newest connection of a vacant slot is not live, and no earlier one is. -/
theorem not_live (h : SlotLog shard key uses) (hvacant : key ∉ shard.slab) (x : Issue)
    (hx : x ∈ uses) : x.live = false := by
  have hslab := h.slab
  rw [AList.lookup_eq_none.mpr hvacant] at hslab
  obtain ⟨later, earlier, huses⟩ := List.append_of_mem hx
  by_contra hlive
  rw [Bool.not_eq_false] at hlive
  have hlater := (h.used later x earlier huses).2 hlive
  rw [huses, hlater] at hslab
  simp [occupant, hlive] at hslab

end SlotLog

/-- `bump` changes one generation. -/
theorem getElem?_bump {shard : Shard} {key : ℕ} (hkey : key ≤ shard.gens.length) (key' : ℕ) :
    (shard.bump key)[key']? =
      if key' = key then some (shard.nextGeneration key) else shard.gens[key']? := by
  unfold Shard.bump
  split_ifs with hlt heq heq
  · rw [heq, List.getElem?_set_self hlt]
  · rw [List.getElem?_set_ne (Ne.symm heq)]
  · rw [heq, List.getElem?_append_right (by omega), show key - shard.gens.length = 0 by omega]
    rfl
  · by_cases hless : key' < shard.gens.length
    · rw [List.getElem?_append_left hless]
    · rw [List.getElem?_eq_none (by simp; omega), List.getElem?_eq_none (by omega)]

namespace SlotLog

variable {shard : Shard} {key : ℕ} {uses : List Issue}

theorem insert (h : SlotLog shard key uses) (hvacant : shard.Vacant key) (x : Issue)
    (hgeneration : x.id.generation = gen uses.length) (hlive : x.live = true) :
    SlotLog
      { slab := shard.slab.insert key ⟨shard.nextGeneration key, x.entry⟩, gens := shard.bump key }
      key (x :: uses) := by
  refine ⟨?_, ?_, ?_⟩
  · dsimp only
    rw [getElem?_bump hvacant.2, if_pos rfl, if_neg (List.cons_ne_nil _ _), h.nextGeneration]
    rfl
  · dsimp only
    rw [AList.lookup_insert, h.nextGeneration, occupant, if_pos hlive]
  · intro later y earlier huses
    cases later with
    | nil =>
      rw [List.nil_append] at huses
      cases huses
      exact ⟨hgeneration, fun _ => rfl⟩
    | cons z later =>
      rw [List.cons_append] at huses
      obtain ⟨-, hrest⟩ := List.cons.inj huses
      refine ⟨(h.used later y earlier hrest).1, ?_⟩
      intro hy
      have hdead := h.not_live hvacant.1 y (by rw [hrest]; simp)
      rw [hdead] at hy
      cases hy

/-- Another slot of the same shard. -/
theorem insert_of_ne (h : SlotLog shard key uses) {key' : ℕ} (hvacant : shard.Vacant key')
    (hne : key ≠ key') (slot : Slot) :
    SlotLog { slab := shard.slab.insert key' slot, gens := shard.bump key' } key uses := by
  refine ⟨?_, ?_, h.used⟩
  · dsimp only
    rw [getElem?_bump hvacant.2, if_neg hne]
    exact h.gens
  · dsimp only
    rw [AList.lookup_insert_ne hne]
    exact h.slab

/-- A change of a connection keeps the ids and revives none. -/
theorem used_change (h : SlotLog shard key uses) (id : ConnectionId) (f : Entry → Option Entry)
    (later : List Issue) (x : Issue) (earlier : List Issue)
    (huses : uses.map (Issue.change id f) = later ++ x :: earlier) :
    x.id.generation = gen earlier.length ∧ (x.live = true → later = []) := by
  obtain ⟨later', rest, rfl, rfl, hrest⟩ := List.map_eq_append_iff.mp huses
  obtain ⟨x', earlier', rfl, rfl, rfl⟩ := List.map_eq_cons_iff.mp hrest
  obtain ⟨hgeneration, hlive⟩ := h.used later' x' earlier' rfl
  rw [Issue.id_change, List.length_map]
  refine ⟨hgeneration, ?_⟩
  intro hx
  rw [hlive (Issue.live_of_change id f x' hx)]
  rfl

/-- The connection with `id` is in this slot. -/
theorem change (h : SlotLog shard key uses) {id : ConnectionId} {f : Entry → Option Entry}
    {e : Entry} (hslot : shard.slab.lookup key = some ⟨id.generation, e⟩)
    (hid : ∀ x ∈ uses, x.id.generation = id.generation → x.id = id)
    {slab : AList fun _ : ℕ => Slot}
    (hslab : slab.lookup key = (f e).map (Slot.mk id.generation)) :
    SlotLog { shard with slab } key (uses.map (Issue.change id f)) := by
  refine ⟨?_, ?_, h.used_change id f⟩
  · rw [List.length_map]
    simp only [List.map_eq_nil_iff]
    exact h.gens
  · cases uses with
    | nil =>
      have hnone := h.slab
      rw [hslot] at hnone
      cases hnone
    | cons x earlier =>
      have hoccupant := h.slab
      rw [hslot, occupant] at hoccupant
      split_ifs at hoccupant with hlive
      obtain ⟨hgen, hentry⟩ := Slot.mk.inj (Option.some.inj hoccupant)
      have hx := (h.used [] x earlier rfl).1
      have hxid : x.id = id := hid x (List.mem_cons_self ..) (hx.trans hgen.symm)
      have hchange : x.change id f = match f e with
          | none => { x with live := false }
          | some entry => { x with entry } := by
        rw [hentry]
        exact if_pos ⟨hlive, hxid⟩
      rw [List.map_cons, occupant, List.length_map, ← hgen, hchange]
      dsimp only
      rw [hslab]
      cases f e with
      | none => rfl
      | some entry => exact (if_pos hlive).symm

/-- Another slot. -/
theorem change_of_ne (h : SlotLog shard key uses) {id : ConnectionId} (f : Entry → Option Entry)
    (hid : ∀ x ∈ uses, x.id ≠ id) {slab : AList fun _ : ℕ => Slot}
    (hslab : slab.lookup key = shard.slab.lookup key) :
    SlotLog { shard with slab } key (uses.map (Issue.change id f)) := by
  have hsame : uses.map (Issue.change id f) = uses := by
    rw [List.map_congr_left fun x hx => Issue.change_of_ne f fun _ => hid x hx]
    exact List.map_id uses
  rw [hsame]
  exact ⟨h.gens, hslab.trans h.slab, h.used⟩

end SlotLog

/-! ## All slots -/

/-- The connections that slot `key` of shard `k` was used for, newest first. -/
def uses (l : IssuedIds) (k : Fin shardCount) (key : ℕ) : List Issue :=
  l.issues.filter fun x => atSlot k key x.id

/-- Every slot is what its connections leave it as, and no two live ids are equal. -/
structure Logged (l : IssuedIds) : Prop where
  slot : ∀ k key, SlotLog (l.registry.shards k) key (l.uses k key)
  shard : ∀ x ∈ l.issues, ∃ k : Fin shardCount, x.id.shard.toNat = k
  distinct : l.issues.Pairwise fun x y => x.live = true → y.live = true → x.id ≠ y.id

variable {l : IssuedIds} {id : ConnectionId}

theorem logged_new : new.Logged where
  slot k key := ⟨rfl, rfl, by simp [uses, new]⟩
  shard := nofun
  distinct := List.Pairwise.nil

theorem mem_uses {k : Fin shardCount} {key : ℕ} {x : Issue} :
    x ∈ l.uses k key ↔ x ∈ l.issues ∧ atSlot k key x.id := by
  simp [uses]

/-- A live connection is found under its id. -/
theorem Logged.find_of_live (h : l.Logged) {x : Issue} (hx : x ∈ l.issues) (hlive : x.live = true) :
    l.registry.find x.id = some x.entry := by
  obtain ⟨k, hk⟩ := h.shard x hx
  have hslot := h.slot k x.id.key.toNat
  have hmem : x ∈ l.uses k x.id.key.toNat := mem_uses.mpr ⟨hx, hk, rfl⟩
  obtain ⟨later, earlier, huses⟩ := List.append_of_mem hmem
  obtain ⟨hgeneration, hlater⟩ := hslot.used later x earlier huses
  have hslab := hslot.slab
  rw [huses, hlater hlive, List.nil_append, occupant, if_pos hlive] at hslab
  rw [ShardedRegistry.find_of_shardOf (ShardedRegistry.shardOf_eq_some.mpr hk), hslab,
    Option.bind_some, ShardedRegistry.checked, if_pos hgeneration.symm]

/-- What is found is live under that id, and is the newest of its slot. -/
theorem Logged.of_find (h : l.Logged) {e : Entry} (hfind : l.registry.find id = some e) :
    ∃ k x earlier, id.shard.toNat = (k : Fin shardCount) ∧
      l.uses k id.key.toNat = x :: earlier ∧ x.live = true ∧ x.id = id ∧ x.entry = e := by
  obtain ⟨k, hk⟩ := ShardedRegistry.exists_shardOf hfind
  have hslot := h.slot k id.key.toNat
  rw [ShardedRegistry.find_of_shardOf hk, hslot.slab] at hfind
  rw [ShardedRegistry.shardOf_eq_some] at hk
  cases huses : l.uses k id.key.toNat with
  | nil =>
    rw [huses] at hfind
    cases hfind
  | cons x earlier =>
    rw [huses, occupant] at hfind
    have hmem : x ∈ l.uses k id.key.toNat := by
      rw [huses]
      exact List.mem_cons_self ..
    obtain ⟨-, hshard, hkey⟩ := mem_uses.mp hmem
    have hgeneration := (hslot.used [] x earlier huses).1
    by_cases hlive : x.live = true
    · rw [if_pos hlive, Option.bind_some, ShardedRegistry.checked] at hfind
      split_ifs at hfind with hgen
      refine ⟨k, x, earlier, hk, huses, hlive, ?_, Option.some.inj hfind⟩
      exact ConnectionId.ext_fields (UInt8.toNat.inj (hshard.trans hk.symm))
        (hgeneration.trans hgen) (UInt32.toNat.inj hkey)
    · rw [if_neg hlive] at hfind
      cases hfind

theorem atSlot_issued {r : ShardedRegistry} {k k' : Fin shardCount} {key key' : ℕ}
    (hkey : key < 2 ^ 32) : atSlot k' key' (r.issued k key) ↔ k' = k ∧ key' = key := by
  have hshard := ShardedRegistry.shardOf_eq_some.mp (r.shardOf_issued k key)
  unfold atSlot
  rw [hshard, ShardedRegistry.key_issued k hkey, ← Fin.ext_iff]
  constructor
  · rintro ⟨rfl, rfl⟩
    exact ⟨rfl, rfl⟩
  · rintro ⟨rfl, rfl⟩
    exact ⟨rfl, rfl⟩

theorem logged_insert (h : l.Logged) (r : ShardedRegistry) (hr : r.shards = l.registry.shards)
    {k : Fin shardCount} {key : ℕ} (hvacant : (r.shards k).Vacant key) (hkey : key < 2 ^ 32)
    (handle : ConnHandle) (user : Option UserId) :
    Logged
      { registry := r.insert k key handle user
        issues := ⟨r.issued k key, { handle, rooms := ∅, user }, true⟩ :: l.issues } := by
  have hslot : ∀ k key, SlotLog (r.shards k) key (l.uses k key) := by
    rw [hr]
    exact h.slot
  refine ⟨?_, ?_, ?_⟩
  · intro k' key'
    unfold uses
    dsimp only
    rw [List.filter_cons, ShardedRegistry.insert]
    by_cases hk : k' = k
    · subst hk
      rw [ShardedRegistry.setShard_self]
      by_cases hsame : key' = key
      · subst hsame
        rw [if_pos (by simpa using (atSlot_issued hkey).mpr ⟨rfl, rfl⟩)]
        have hgeneration : (r.issued k' key').generation = gen (l.uses k' key').length := by
          rw [ShardedRegistry.generation_issued]
          exact (hslot k' key').nextGeneration
        exact (hslot k' key').insert hvacant ⟨_, _, true⟩ hgeneration rfl
      · rw [if_neg (by simpa using fun hat => hsame ((atSlot_issued hkey).mp hat).2)]
        exact (hslot k' key').insert_of_ne hvacant hsame _
    · rw [ShardedRegistry.setShard_of_ne hk,
        if_neg (by simpa using fun hat => hk ((atSlot_issued hkey).mp hat).1)]
      exact hslot k' key'
  · intro x hx
    rcases List.mem_cons.mp hx with rfl | hold
    · exact ⟨k, ShardedRegistry.shardOf_eq_some.mp (r.shardOf_issued k key)⟩
    · exact h.shard x hold
  · refine List.pairwise_cons.mpr ⟨?_, h.distinct⟩
    intro y hy _ hlive heq
    have hfound := h.find_of_live hy hlive
    have hfresh := ShardedRegistry.find_issued hkey hvacant
    have hsame : l.registry.find y.id = r.find y.id := by
      unfold ShardedRegistry.find
      rw [hr]
    rw [hsame, ← heq] at hfound
    cases hfresh.symm.trans hfound

/-- `setSlot` changes one key of one slab. -/
theorem exists_setSlot {r : ShardedRegistry} {k : Fin shardCount} {e : Entry}
    (hk : shardOf id = some k) (hfind : r.find id = some e) (entry : Option Entry) :
    ∃ slab, r.setSlot id entry = r.setShard k { r.shards k with slab } ∧
      slab.lookup id.key.toNat = entry.map (Slot.mk id.generation) ∧
      ∀ key, key ≠ id.key.toNat → slab.lookup key = (r.shards k).slab.lookup key := by
  unfold ShardedRegistry.setSlot
  rw [hk, hfind]
  cases entry with
  | none => exact ⟨_, rfl, AList.lookup_erase .., fun key hne => AList.lookup_erase_ne hne⟩
  | some e' => exact ⟨_, rfl, AList.lookup_insert .., fun key hne => AList.lookup_insert_ne hne⟩

theorem uses_change (l : IssuedIds) (id : ConnectionId) (r : ShardedRegistry)
    (f : Entry → Option Entry) (k : Fin shardCount) (key : ℕ) :
    (l.change id r f).uses k key = (l.uses k key).map (Issue.change id f) := by
  unfold uses change
  dsimp only
  rw [List.filter_map]
  congr 1
  apply List.filter_congr
  intro x _
  simp

theorem logged_change (h : l.Logged) {e : Entry} (hfind : l.registry.find id = some e)
    (f : Entry → Option Entry) : (l.change id (l.registry.setSlot id (f e)) f).Logged := by
  obtain ⟨k, hk⟩ := ShardedRegistry.exists_shardOf hfind
  obtain ⟨slab, hset, hslab, hother⟩ := exists_setSlot hk hfind (f e)
  have hk' := ShardedRegistry.shardOf_eq_some.mp hk
  refine ⟨?_, ?_, ?_⟩
  · intro k' key'
    rw [uses_change]
    show SlotLog ((l.registry.setSlot id (f e)).shards k') key' _
    rw [hset]
    have hslot := h.slot k' key'
    by_cases hsame : k' = k
    · subst hsame
      rw [ShardedRegistry.setShard_self]
      by_cases hkey : key' = id.key.toNat
      · subst hkey
        have hoccupied : (l.registry.shards k').slab.lookup id.key.toNat =
            some ⟨id.generation, e⟩ := by
          rw [ShardedRegistry.find_of_shardOf hk] at hfind
          obtain ⟨slot, hlookup, hchecked⟩ := Option.bind_eq_some_iff.mp hfind
          rw [hlookup]
          unfold ShardedRegistry.checked at hchecked
          split_ifs at hchecked with hgen
          rw [← hgen, ← Option.some.inj hchecked]
        apply hslot.change hoccupied _ hslab
        intro x hx hgen
        obtain ⟨-, hshard, hkey⟩ := mem_uses.mp hx
        exact ConnectionId.ext_fields (UInt8.toNat.inj (hshard.trans hk'.symm)) hgen
          (UInt32.toNat.inj hkey)
      · apply hslot.change_of_ne f _ (hother key' hkey)
        rintro x hx rfl
        exact hkey (mem_uses.mp hx).2.2.symm
    · rw [ShardedRegistry.setShard_of_ne hsame]
      apply hslot.change_of_ne f _ rfl
      rintro x hx rfl
      exact hsame (Fin.ext ((mem_uses.mp hx).2.1.symm.trans hk'))
  · intro x hx
    obtain ⟨y, hy, rfl⟩ := List.mem_map.mp hx
    rw [Issue.id_change]
    exact h.shard y hy
  · refine List.pairwise_map.mpr (h.distinct.imp ?_)
    intro x y hxy hx hy
    rw [Issue.id_change, Issue.id_change]
    exact hxy (Issue.live_of_change id f x hx) (Issue.live_of_change id f y hy)

/-- An operation on an id that is not in use. -/
theorem logged_unused (h : l.Logged) (hfind : l.registry.find id = none)
    (f : Entry → Option Entry) : (l.change id l.registry f).Logged := by
  have hsame : l.change id l.registry f = l := by
    unfold change
    rw [List.map_congr_left fun x hx => Issue.change_of_ne f fun hlive heq => ?_]
    · rw [List.map_id']
    · have hfound := h.find_of_live hx hlive
      rw [heq, hfind] at hfound
      cases hfound
  rw [hsame]
  exact h

theorem logged_step (l : IssuedIds) (op : RegistryOp) (h : l.Logged) : (l.step op).Logged := by
  cases op with
  | insert key handle user =>
    unfold step
    dsimp only
    split_ifs with hkey
    · exact logged_insert h l.registry.fetchShard.2 rfl hkey.1 hkey.2 handle user
    · exact h
  | remove id =>
    unfold step
    dsimp only
    cases hfind : l.registry.find id with
    | some e => exact logged_change h hfind fun _ => none
    | none =>
      have hsame : (l.registry.removeFull id).2 = l.registry := by
        show l.registry.setSlot id none = l.registry
        unfold ShardedRegistry.setSlot
        rw [hfind]
        cases shardOf id <;> rfl
      rw [hsame]
      exact logged_unused h hfind _
  | withRooms id f =>
    unfold step
    dsimp only
    cases hfind : l.registry.find id with
    | some e =>
      have hset : (l.registry.withRooms id fun rooms => ((), f rooms)).2 =
          l.registry.setSlot id (some { e with rooms := f e.rooms }) := by
        unfold ShardedRegistry.withRooms ShardedRegistry.setRooms
        rw [hfind]
      rw [hset]
      exact logged_change h hfind fun e => some { e with rooms := f e.rooms }
    | none =>
      have hsame : (l.registry.withRooms id fun rooms => ((), f rooms)).2 = l.registry := by
        unfold ShardedRegistry.withRooms
        rw [hfind]
      rw [hsame]
      exact logged_unused h hfind _

/-! ## The ids -/

/-- The later connections of the slot of `x`. -/
def reuses (later : List Issue) (x : Issue) : ℕ :=
  later.countP fun y => y.id.shard = x.id.shard ∧ y.id.key = x.id.key

/-- After its removal an id is not found until its slot was used 2²⁴ times. -/
theorem Logged.find_of_reuses (h : l.Logged) {later earlier : List Issue} {x : Issue}
    (hissues : l.issues = later ++ x :: earlier) (hdead : x.live = false)
    (hreuses : reuses later x < 2 ^ 24) : l.registry.find x.id = none := by
  rw [Option.eq_none_iff_forall_ne_some]
  intro e hfind
  obtain ⟨k, y, before, hk, huses, hlive, hid, -⟩ := h.of_find hfind
  have hslot := h.slot k x.id.key.toNat
  -- the uses of the slot, split at the two connections
  have hsplit : l.uses k x.id.key.toNat =
      later.filter (fun z => atSlot k x.id.key.toNat z.id) ++
        x :: earlier.filter fun z => atSlot k x.id.key.toNat z.id := by
    have hx : decide (atSlot k x.id.key.toNat x.id) = true := decide_eq_true ⟨hk, rfl⟩
    unfold uses
    rw [hissues, List.filter_append, List.filter_cons, if_pos hx]
  have hcount : (later.filter fun z => atSlot k x.id.key.toNat z.id).length = reuses later x := by
    rw [← List.countP_eq_length_filter]
    apply List.countP_congr
    intro z _
    simp only [atSlot, decide_eq_true_eq, ← hk, UInt8.toNat_inj, UInt32.toNat_inj]
  have hx := (hslot.used _ x _ hsplit).1
  have hy := (hslot.used [] y before huses).1
  have hne : later.filter (fun z => atSlot k x.id.key.toNat z.id) ≠ [] := by
    intro hnil
    rw [hnil, List.nil_append, huses] at hsplit
    rw [(List.cons.inj hsplit).1, hdead] at hlive
    cases hlive
  have hlength := congrArg List.length (huses.symm.trans hsplit)
  rw [List.length_cons, List.length_append, List.length_cons, hcount] at hlength
  have hpos : 0 < reuses later x := by
    rw [← hcount]
    exact List.length_pos_iff.mpr hne
  have hgen := congrArg UInt32.toNat (hx.symm.trans ((congrArg _ hid.symm).trans hy))
  rw [toNat_gen, toNat_gen] at hgen
  omega

/-- A slot that is in use holds a live connection, whose id is made of its place. -/
theorem Logged.of_lookup (h : l.Logged) {k : Fin shardCount} {key : ℕ} {slot : Slot}
    (hlookup : (l.registry.shards k).slab.lookup key = some slot) :
    key < 2 ^ 32 ∧ ∃ x ∈ l.issues, x.live = true ∧ x.entry = slot.entry ∧
      x.id = ConnectionId.new (UInt8.ofNat k) slot.generation (UInt32.ofNat key) := by
  have hslot := h.slot k key
  rw [hslot.slab] at hlookup
  cases huses : l.uses k key with
  | nil =>
    rw [huses] at hlookup
    cases hlookup
  | cons x earlier =>
    rw [huses, occupant] at hlookup
    split_ifs at hlookup with hlive
    cases hlookup
    have hmem : x ∈ l.uses k key := by
      rw [huses]
      exact List.mem_cons_self ..
    obtain ⟨hx, hshard, hkey⟩ := mem_uses.mp hmem
    have hgeneration := (hslot.used [] x earlier huses).1
    refine ⟨hkey ▸ x.id.key.toNat_lt, x, hx, hlive, rfl, ?_⟩
    apply ConnectionId.ext_fields
    · rw [ConnectionId.shard_new, ← hshard, UInt8.ofNat_toNat]
    · rw [ConnectionId.generation_new, gen_and_generationMask, hgeneration]
    · rw [ConnectionId.key_new, ← hkey, UInt32.ofNat_toNat]

theorem new_fields (id : ConnectionId) : ConnectionId.new id.shard id.generation id.key = id := by
  apply ConnectionId.ext_fields
  · rw [ConnectionId.shard_new]
  · rw [ConnectionId.generation_new, ConnectionId.generation, UInt32.and_assoc, UInt32.and_self]
  · rw [ConnectionId.key_new]

/-- `handles` lists the live connections. -/
theorem Logged.mem_handles (h : l.Logged) (c : ConnectionId × ConnHandle) :
    c ∈ l.registry.handles ↔ ∃ x ∈ l.issues, x.live = true ∧ c = (x.id, x.entry.handle) := by
  unfold ShardedRegistry.handles
  rw [List.mem_flatMap]
  constructor
  · rintro ⟨k, -, hc⟩
    obtain ⟨key, slot, hlookup, rfl⟩ := ShardedRegistry.mem_shardList.mp hc
    obtain ⟨-, x, hx, hlive, hentry, hid⟩ := h.of_lookup hlookup
    exact ⟨x, hx, hlive, by rw [hid, hentry]⟩
  · rintro ⟨x, hx, hlive, rfl⟩
    have hfind := h.find_of_live hx hlive
    obtain ⟨k, hk⟩ := ShardedRegistry.exists_shardOf hfind
    rw [ShardedRegistry.find_of_shardOf hk] at hfind
    obtain ⟨slot, hlookup, hchecked⟩ := Option.bind_eq_some_iff.mp hfind
    unfold ShardedRegistry.checked at hchecked
    split_ifs at hchecked with hgen
    refine ⟨k, List.mem_finRange k, ShardedRegistry.mem_shardList.mpr ⟨_, slot, hlookup, ?_⟩⟩
    rw [Option.some.inj hchecked, hgen, ← ShardedRegistry.shardOf_eq_some.mp hk, UInt8.ofNat_toNat,
      UInt32.ofNat_toNat, new_fields]

theorem Logged.nodup_handles (h : l.Logged) : (l.registry.handles.map Prod.fst).Nodup := by
  unfold ShardedRegistry.handles
  rw [List.map_flatMap, List.nodup_flatMap]
  refine ⟨fun k _ => ShardedRegistry.nodup_shardList fun _ _ hslot => (h.of_lookup hslot).1, ?_⟩
  have hshard : ∀ k, ∀ id ∈ (l.registry.shardHandles k).map Prod.fst, id.shard = UInt8.ofNat k := by
    intro k id hid
    obtain ⟨c, hc, rfl⟩ := List.mem_map.mp hid
    obtain ⟨key, slot, -, rfl⟩ := ShardedRegistry.mem_shardList.mp hc
    exact ConnectionId.shard_new ..
  refine (List.nodup_finRange shardCount).imp ?_
  intro k k' hne id hid hid'
  have heq := congrArg UInt8.toNat ((hshard k id hid).symm.trans (hshard k' id hid'))
  have hk : (k : ℕ) < 16 := k.isLt
  have hk' : (k' : ℕ) < 16 := k'.isLt
  rw [UInt8.toNat_ofNat', UInt8.toNat_ofNat'] at heq
  exact hne (Fin.ext (by omega))

/-- After any insertions and removals, and changes of room sets: the ids of live
    connections are distinct; an id that is live is found in every way as the connection
    it was issued for; one that was removed is not found while its slot has been used
    fewer than 2²⁴ times since; and `handles` lists each live connection once, under the
    id that it was issued. -/
theorem ids_never_alias (ops : List RegistryOp) :
    let l := run step new ops
    ((l.issues.filter Issue.live).map Issue.id).Nodup ∧
    (∀ later x earlier, l.issues = later ++ x :: earlier →
      (x.live = true →
        l.registry.get x.id = some x.entry.handle ∧ l.registry.userOf x.id = some x.entry.user ∧
        ∀ (ρ : Type) (f : OrdSet RoomId → ρ × OrdSet RoomId),
          (l.registry.withRooms x.id f).1 = some (f x.entry.rooms).1) ∧
      (x.live = false → reuses later x < 2 ^ 24 →
        l.registry.get x.id = none ∧ l.registry.userOf x.id = none ∧
        ∀ (ρ : Type) (f : OrdSet RoomId → ρ × OrdSet RoomId),
          l.registry.withRooms x.id f = (none, l.registry))) ∧
    (l.registry.handles.map Prod.fst).Nodup ∧
    ∀ id handle, (id, handle) ∈ l.registry.handles ↔
      ∃ x ∈ l.issues, x.live = true ∧ x.id = id ∧ x.entry.handle = handle := by
  intro l
  have h : l.Logged := run_invariant logged_step logged_new
  clear_value l
  refine ⟨?_, ?_, h.nodup_handles, ?_⟩
  · rw [List.Nodup, List.pairwise_map, List.pairwise_filter]
    exact h.distinct
  · intro later x earlier hissues
    have hx : x ∈ l.issues := by
      rw [hissues]
      simp
    unfold ShardedRegistry.get ShardedRegistry.userOf ShardedRegistry.withRooms
    constructor
    · intro hlive
      rw [h.find_of_live hx hlive]
      exact ⟨rfl, rfl, fun _ _ => rfl⟩
    · intro hdead hreuses
      rw [h.find_of_reuses hissues hdead hreuses]
      exact ⟨rfl, rfl, fun _ _ => rfl⟩
  · intro id handle
    rw [h.mem_handles]
    simp only [Prod.mk.injEq, eq_comm]

end IssuedIds

end BeamSocket.Core
