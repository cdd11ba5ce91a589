import BeamSocket.Lib.InsertionMap
import BeamSocket.Lib.Run

/-!
# The correlation store

Model of `BoundedMetaMap` (`packages/beamsocket/src/correlation.ts`), which holds what an
`authorize` hook returned until its connection opens. It holds at most `cap` entries: one
more, and the oldest goes.

`MetaLog` is a store beside the keys that were set and taken. A key is set once: the keys
are request ids.

* `MetaLog.fifo_run`: what the store holds after any sequence of `set` and `take`.
* `MetaLog.take_exact`: what a `take` is answered.
-/

namespace BeamSocket.Sdk

open BeamSocket.Lib

variable {V : Type}

/-- `class BoundedMetaMap`. -/
structure BoundedMetaMap (V : Type) where
  map : InsertionMap String V
  cap : ℕ
  evicted : ℕ

namespace BoundedMetaMap

/-- The constructor (lines 18–20). -/
def new (cap : ℕ) : BoundedMetaMap V := ⟨∅, cap, 0⟩

/-- `set` (lines 24–33). -/
def set (m : BoundedMetaMap V) (key : String) (value : V) : BoundedMetaMap V :=
  let map := m.map.set key value
  if map.size > m.cap then
    match map.oldest with
    | some oldest => { m with map := map.delete oldest, evicted := m.evicted + 1 }
    | none => { m with map }
  else { m with map }

/-- `take` (lines 36–40). -/
def take (m : BoundedMetaMap V) (key : String) : Option V × BoundedMetaMap V :=
  match m.map.get key with
  | some value => (some value, { m with map := m.map.delete key })
  | none => (none, m)

/-- `clear` (lines 42–44). -/
def clear (m : BoundedMetaMap V) : BoundedMetaMap V := { m with map := ∅ }

/-- A new key goes to the end, and the oldest leaves when there are too many. -/
theorem set_cases {m : BoundedMetaMap V} {key : String}
    (hnew : key ∉ m.map.entries.map Prod.fst) (value : V) :
    ((m.set key value).map.entries = m.map.entries ++ [(key, value)] ∧
      (m.set key value).evicted = m.evicted ∧ m.map.size < m.cap) ∨
    (∃ e rest, m.map.entries ++ [(key, value)] = e :: rest ∧
      (m.set key value).map.entries = rest ∧ (m.set key value).evicted = m.evicted + 1 ∧
      m.cap ≤ m.map.size) := by
  have hentries := InsertionMap.entries_set_of_notMem hnew value
  have hsize : (m.map.set key value).size = m.map.size + 1 := by
    unfold InsertionMap.size
    rw [hentries, List.length_append]
    rfl
  unfold set
  dsimp only
  split_ifs with hfull
  · right
    obtain ⟨e, rest, hcons⟩ : ∃ e rest, m.map.entries ++ [(key, value)] = e :: rest :=
      List.exists_cons_of_ne_nil (by simp)
    rw [hcons] at hentries
    have holdest : (m.map.set key value).oldest = some e.1 := by
      unfold InsertionMap.oldest
      rw [hentries]
      rfl
    rw [holdest]
    exact ⟨e, rest, hcons, InsertionMap.entries_delete_head hentries, rfl, by omega⟩
  · exact .inl ⟨hentries, rfl, by omega⟩

theorem cap_set (m : BoundedMetaMap V) (key : String) (value : V) :
    (m.set key value).cap = m.cap := by
  unfold set
  dsimp only
  split_ifs
  · split <;> rfl
  · rfl

theorem cap_take (m : BoundedMetaMap V) (key : String) : (m.take key).2.cap = m.cap := by
  unfold take
  split <;> rfl

/-- What a `take` is answered, by the entries. -/
theorem take_eq_some_iff {m : BoundedMetaMap V} {key : String} {value : V} :
    (m.take key).1 = some value ↔ (key, value) ∈ m.map.entries := by
  rw [← InsertionMap.get_eq_some_iff]
  unfold take
  cases m.map.get key <;> rfl

end BoundedMetaMap

/-! ## A store and what was done to it -/

/-- The operations of the store that the server uses. -/
inductive MetaOp (V : Type)
  | set (key : String) (value : V)
  | take (key : String)

/-- A store, what was set in it and what the `take`s were answered, newest first. -/
structure MetaLog (V : Type) where
  store : BoundedMetaMap V
  sets : List (String × V)
  takes : List (String × Option V)

namespace MetaLog

/-- A new store with an empty log. -/
def new (cap : ℕ) : MetaLog V := ⟨.new cap, [], []⟩

/-- One operation, with its entry in the log. -/
def step (l : MetaLog V) : MetaOp V → MetaLog V
  | .set key value =>
    { l with store := l.store.set key value, sets := (key, value) :: l.sets }
  | .take key =>
    let (answer, store) := l.store.take key
    { l with store, takes := (key, answer) :: l.takes }

/-- Each key is set once, before it is taken. -/
def FreshKeys (l : MetaLog V) : MetaOp V → Prop
  | .set key _ => key ∉ l.sets.map Prod.fst ∧ key ∉ l.takes.map Prod.fst
  | .take _ => True

/-- The entries are in the order in which they were set, at most `cap`; none of them was
    taken; the `cap` newest are all there, unless taken; and every key that was set is
    there, or was taken, or is counted as evicted. -/
structure Fifo (l : MetaLog V) : Prop where
  distinct : (l.sets.map Prod.fst).Nodup
  order : l.store.map.entries.reverse.Sublist l.sets
  bounded : l.store.map.size ≤ l.store.cap
  untaken : ∀ e ∈ l.store.map.entries, e.1 ∉ l.takes.map Prod.fst
  recent : ∀ n < l.store.cap, ∀ e, l.sets[n]? = some e → e.1 ∉ l.takes.map Prod.fst →
    e ∈ l.store.map.entries
  ledger : l.sets.length = l.store.map.size + l.store.evicted +
    l.takes.countP fun t => t.2.isSome

theorem fifo_new (cap : ℕ) : (new cap : MetaLog V).Fifo where
  distinct := List.nodup_nil
  order := .refl _
  bounded := Nat.zero_le _
  untaken := nofun
  recent n _ e he := by cases he
  ledger := rfl

variable {l : MetaLog V}

theorem Fifo.mem_sets (h : l.Fifo) {e : String × V} (he : e ∈ l.store.map.entries) :
    e ∈ l.sets := h.order.subset (List.mem_reverse.mpr he)

/-- The entries before an eviction, with the new one among them. -/
theorem Fifo.order_set (h : l.Fifo) (key : String) (value : V) :
    (l.store.map.entries ++ [(key, value)]).reverse.Sublist ((key, value) :: l.sets) := by
  rw [List.reverse_append]
  exact h.order.cons_cons _

theorem Fifo.recent_set (h : l.Fifo) {key : String} {value : V} {n : ℕ} {e : String × V}
    (hn : n < l.store.cap) (he : ((key, value) :: l.sets)[n]? = some e)
    (htaken : e.1 ∉ l.takes.map Prod.fst) : e ∈ l.store.map.entries ++ [(key, value)] := by
  cases n with
  | zero =>
    rw [List.getElem?_cons_zero, Option.some.injEq] at he
    simp [he]
  | succ n =>
    rw [List.getElem?_cons_succ] at he
    exact List.mem_append_left _ (h.recent n (by omega) e he htaken)

theorem Fifo.untaken_set (h : l.Fifo) {key : String} {value : V}
    (hfresh : l.FreshKeys (.set key value)) :
    ∀ e ∈ l.store.map.entries ++ [(key, value)], e.1 ∉ l.takes.map Prod.fst := by
  intro e he
  rcases List.mem_append.mp he with he | he
  · exact h.untaken e he
  · rw [List.mem_singleton.mp he]
    exact hfresh.2

theorem fifo_set (h : l.Fifo) {key : String} {value : V}
    (hfresh : l.FreshKeys (.set key value)) : (l.step (.set key value)).Fifo := by
  have hnew : key ∉ l.store.map.entries.map Prod.fst := by
    intro hmem
    obtain ⟨e, he, rfl⟩ := List.mem_map.mp hmem
    exact hfresh.1 (List.mem_map_of_mem (h.mem_sets he))
  have hdistinct : (((key, value) :: l.sets).map Prod.fst).Nodup :=
    List.nodup_cons.mpr ⟨hfresh.1, h.distinct⟩
  have hledger := h.ledger
  have hcap := l.store.cap_set key value
  rcases BoundedMetaMap.set_cases hnew value with
    ⟨hentries, hevicted, hroom⟩ | ⟨oldest, rest, hcons, hentries, hevicted, hfull⟩
  · have hsize : (l.store.set key value).map.size = l.store.map.size + 1 := by
      simp [InsertionMap.size, hentries]
    exact
      { distinct := hdistinct
        order := by
          show (l.store.set key value).map.entries.reverse.Sublist _
          rw [hentries]
          exact h.order_set key value
        bounded := by
          show (l.store.set key value).map.size ≤ (l.store.set key value).cap
          omega
        untaken := by
          show ∀ e ∈ (l.store.set key value).map.entries, _
          rw [hentries]
          exact h.untaken_set hfresh
        recent := by
          intro n hn e he htaken
          show e ∈ (l.store.set key value).map.entries
          rw [hentries]
          exact h.recent_set (hcap ▸ hn) he htaken
        ledger := by
          show l.sets.length + 1 = (l.store.set key value).map.size +
            (l.store.set key value).evicted + l.takes.countP _
          omega }
  · have hsize : rest.length = l.store.map.size := by
      have hlength := congrArg List.length hcons
      simpa [InsertionMap.size] using hlength.symm
    have horder := h.order_set key value
    rw [hcons, List.reverse_cons] at horder
    exact
      { distinct := hdistinct
        order := by
          show (l.store.set key value).map.entries.reverse.Sublist _
          rw [hentries]
          exact (List.sublist_append_left _ _).trans horder
        bounded := by
          have hbounded := h.bounded
          show (l.store.set key value).map.entries.length ≤ (l.store.set key value).cap
          rw [hentries]
          omega
        untaken := by
          show ∀ e ∈ (l.store.set key value).map.entries, _
          intro e he
          rw [hentries] at he
          exact h.untaken_set hfresh e (hcons ▸ List.mem_cons_of_mem _ he)
        recent := by
          intro n hn e he htaken
          show e ∈ (l.store.set key value).map.entries
          have hn : n < l.store.cap := hcap ▸ hn
          have hmem := h.recent_set hn he htaken
          rw [hcons] at hmem
          rw [hentries]
          rcases List.mem_cons.mp hmem with rfl | hmem
          · -- the oldest of more than `cap` entries stands too far down
            have hpos := length_le_of_sublist horder hdistinct.of_map he
            rw [List.length_reverse] at hpos
            omega
          · exact hmem
        ledger := by
          show l.sets.length + 1 = (l.store.set key value).map.entries.length +
            (l.store.set key value).evicted + l.takes.countP _
          rw [hentries]
          omega }

theorem fifo_take (h : l.Fifo) (key : String) : (l.step (.take key)).Fifo := by
  have hledger := h.ledger
  show Fifo
    { l with store := (l.store.take key).2, takes := (key, (l.store.take key).1) :: l.takes }
  unfold BoundedMetaMap.take
  cases hget : l.store.map.get key with
  | none =>
    have hkey := InsertionMap.get_eq_none_iff.mp hget
    exact
      { h with
        untaken := by
          intro e he htaken
          rcases List.mem_cons.mp htaken with rfl | htaken
          · exact hkey (List.mem_map_of_mem he)
          · exact h.untaken e he htaken
        recent := fun n hn e he htaken =>
          h.recent n hn e he fun hmem => htaken (List.mem_cons_of_mem _ hmem)
        ledger := by simpa using hledger }
  | some value =>
    have hsize := InsertionMap.size_delete hget
    have hmem : ∀ e, e ∈ (l.store.map.delete key).entries ↔
        e ∈ l.store.map.entries ∧ e.1 ≠ key := fun e => InsertionMap.mem_delete
    exact
      { distinct := h.distinct
        order := (List.filter_sublist.reverse).trans h.order
        bounded := by
          have hbounded := h.bounded
          show (l.store.map.delete key).size ≤ l.store.cap
          omega
        untaken := by
          intro e he htaken
          obtain ⟨he, hne⟩ := (hmem e).mp he
          rcases List.mem_cons.mp htaken with heq | htaken
          · exact hne heq
          · exact h.untaken e he htaken
        recent := by
          intro n hn e he htaken
          refine (hmem e).mpr ⟨h.recent n hn e he fun hmem => ?_, fun heq => ?_⟩
          · exact htaken (List.mem_cons_of_mem _ hmem)
          · exact htaken (heq ▸ List.mem_cons_self)
        ledger := by
          show l.sets.length = (l.store.map.delete key).size + l.store.evicted +
            List.countP _ ((key, some value) :: l.takes)
          rw [List.countP_cons_of_pos (by rfl)]
          omega }

theorem fifo_step (l : MetaLog V) (op : MetaOp V) (h : l.Fifo) (hfresh : l.FreshKeys op) :
    (l.step op).Fifo := by
  cases op with
  | set key value => exact fifo_set h hfresh
  | take key => exact fifo_take h key

theorem fifo_run (cap : ℕ) {ops : List (MetaOp V)}
    (hfresh : StepsMeet step FreshKeys (new cap) ops) : (run step (new cap) ops).Fifo :=
  run_invariant_of_stepsMeet fifo_step (fifo_new cap) hfresh

theorem cap_run (cap : ℕ) (ops : List (MetaOp V)) :
    (run step (new cap) ops).store.cap = cap := by
  refine run_invariant (I := fun l : MetaLog V => l.store.cap = cap) ?_ rfl
  intro l op h
  cases op with
  | set key value => exact (l.store.cap_set key value).trans h
  | take key => exact (l.store.cap_take key).trans h

/-- Take any sequence of `set`s and `take`s in which a key is set once, and not after it was
    taken. The store holds at most `cap` entries, and every `set` is accounted for: it is held,
    was taken or is counted in `evicted`. A `take` answers with what was set under its key and
    not taken yet; and it does answer unless `cap` other keys were set since. -/
theorem take_exact (cap : ℕ) (ops : List (MetaOp V))
    (hfresh : StepsMeet step FreshKeys (new cap) ops) (key : String) :
    let l := run step (new cap) ops
    l.store.map.size ≤ cap ∧
      l.sets.length =
        l.store.map.size + l.store.evicted + (l.takes.countP fun t => t.2.isSome) ∧
      (∀ value, (l.store.take key).1 = some value →
        (key, value) ∈ l.sets ∧ key ∉ l.takes.map Prod.fst) ∧
      ∀ n value, l.sets[n]? = some (key, value) → key ∉ l.takes.map Prod.fst → n < cap →
        (l.store.take key).1 = some value := by
  intro l
  have hfifo : l.Fifo := fifo_run cap hfresh
  have hcap : l.store.cap = cap := cap_run cap ops
  refine ⟨hcap ▸ hfifo.bounded, hfifo.ledger, ?_, ?_⟩
  · intro value hvalue
    have hentry := BoundedMetaMap.take_eq_some_iff.mp hvalue
    exact ⟨hfifo.mem_sets hentry, hfifo.untaken _ hentry⟩
  · intro n value hset huntaken hlt
    rw [← hcap] at hlt
    exact BoundedMetaMap.take_eq_some_iff.mpr (hfifo.recent n hlt _ hset huntaken)

/-- The third key pushes the first one out of a store for two. -/
theorem take_exact_two :
    ((run step (new 2) [.set "1" 10, .set "2" 20, .set "3" 30]).store.take "2").1 = some 20 :=
  (take_exact 2 [.set "1" 10, .set "2" 20, .set "3" 30] (by simp [StepsMeet, FreshKeys, step, new])
    "2").2.2.2 1 20 rfl (by simp [step, new]) (by decide)

end MetaLog

end BeamSocket.Sdk
