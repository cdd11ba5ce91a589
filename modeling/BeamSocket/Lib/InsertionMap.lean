import Mathlib.Data.List.Nodup
import Mathlib.Data.List.Sublists

/-!
# Maps in insertion order

A finite map that keeps its keys in the order in which they were first inserted, as the
`Map` of ECMAScript does: writing to a key that is there leaves it in its place.

* `InsertionMap.get_eq_some_iff`, `get_set`, `get_delete`: the map as a function.
* `InsertionMap.entries_set_of_notMem`, `entries_delete_head`: the order.
* `length_le_of_sublist`: in a list without repetitions, how far down the last entry of a
  sublist stands.
-/

namespace BeamSocket.Lib

variable {κ ν : Type*}

/-- Entries with distinct keys, oldest first. -/
structure InsertionMap (κ ν : Type*) where
  entries : List (κ × ν)
  nodup : (entries.map Prod.fst).Nodup

namespace InsertionMap

/-- `new Map()`. -/
def empty : InsertionMap κ ν := ⟨[], List.nodup_nil⟩

instance : EmptyCollection (InsertionMap κ ν) := ⟨empty⟩

/-- `map.size`. -/
def size (m : InsertionMap κ ν) : ℕ := m.entries.length

/-- `keys().next().value`. -/
def oldest (m : InsertionMap κ ν) : Option κ := m.entries.head?.map Prod.fst

variable [DecidableEq κ]

/-- `map.get(k)`; `none` is `undefined`. -/
def get (m : InsertionMap κ ν) (k : κ) : Option ν :=
  (m.entries.find? fun e => e.1 = k).map Prod.snd

/-- The entries with `v` under `k`, in its place or at the end. -/
def put (entries : List (κ × ν)) (k : κ) (v : ν) : List (κ × ν) :=
  match entries with
  | [] => [(k, v)]
  | e :: rest => if e.1 = k then (k, v) :: rest else e :: put rest k v

theorem map_fst_put (entries : List (κ × ν)) (k : κ) (v : ν) :
    (put entries k v).map Prod.fst =
      if k ∈ entries.map Prod.fst then entries.map Prod.fst else entries.map Prod.fst ++ [k] := by
  induction entries with
  | nil => rfl
  | cons e rest ih =>
    unfold put
    by_cases he : e.1 = k
    · simp [he]
    · have hmem : k ∈ (e :: rest).map Prod.fst ↔ k ∈ rest.map Prod.fst := by
        simp [Ne.symm he]
      rw [if_neg he, List.map_cons, ih]
      by_cases hk : k ∈ rest.map Prod.fst
      · rw [if_pos hk, if_pos (hmem.mpr hk)]
        rfl
      · rw [if_neg hk, if_neg fun h => hk (hmem.mp h)]
        rfl

theorem nodup_put {entries : List (κ × ν)} (h : (entries.map Prod.fst).Nodup) (k : κ) (v : ν) :
    ((put entries k v).map Prod.fst).Nodup := by
  rw [map_fst_put]
  split_ifs with hk
  · exact h
  · rw [List.nodup_append]
    refine ⟨h, List.nodup_singleton k, ?_⟩
    rintro a ha b hb rfl
    rw [List.mem_singleton.mp hb] at ha
    exact hk ha

/-- `map.set(k, v)`: a new key comes last, and one that is there keeps its place. -/
def set (m : InsertionMap κ ν) (k : κ) (v : ν) : InsertionMap κ ν :=
  ⟨put m.entries k v, nodup_put m.nodup k v⟩

omit [DecidableEq κ] in
theorem nodup_filter {entries : List (κ × ν)} (h : (entries.map Prod.fst).Nodup)
    (p : κ × ν → Bool) : ((entries.filter p).map Prod.fst).Nodup :=
  h.sublist (List.filter_sublist.map _)

/-- `map.delete(k)`. -/
def delete (m : InsertionMap κ ν) (k : κ) : InsertionMap κ ν :=
  ⟨m.entries.filter fun e => e.1 ≠ k, nodup_filter m.nodup _⟩

/-! ## As a function -/

variable {m : InsertionMap κ ν} {k : κ} {v : ν}

theorem get_eq_some_iff : m.get k = some v ↔ (k, v) ∈ m.entries := by
  obtain ⟨entries, hnodup⟩ := m
  unfold get
  dsimp only
  induction entries with
  | nil => simp
  | cons e rest ih =>
    obtain ⟨hnotMem, hrest⟩ := List.nodup_cons.mp hnodup
    obtain ⟨k', v'⟩ := e
    by_cases hk : k' = k
    · -- no other entry has this key
      subst hk
      have hno : (k', v) ∉ rest := fun h => hnotMem (List.mem_map.mpr ⟨_, h, rfl⟩)
      simp [hno, eq_comm]
    · rw [List.find?_cons_of_neg (by simpa using hk), ih hrest]
      simp [Ne.symm hk]

theorem get_eq_none_iff : m.get k = none ↔ k ∉ m.entries.map Prod.fst := by
  rw [Option.eq_none_iff_forall_ne_some]
  constructor
  · intro h hk
    obtain ⟨e, he, rfl⟩ := List.mem_map.mp hk
    exact h e.2 (get_eq_some_iff.mpr he)
  · intro h v hv
    exact h (List.mem_map_of_mem (get_eq_some_iff.mp hv))

theorem mem_put {entries : List (κ × ν)} (h : (entries.map Prod.fst).Nodup) {e : κ × ν} :
    e ∈ put entries k v ↔ e = (k, v) ∨ e ∈ entries ∧ e.1 ≠ k := by
  induction entries with
  | nil => simp [put]
  | cons a rest ih =>
    obtain ⟨hnotMem, hrest⟩ := List.nodup_cons.mp h
    unfold put
    by_cases ha : a.1 = k
    · have hne : e ∈ rest → e.1 ≠ k := by
        rintro he rfl
        rw [ha] at hnotMem
        exact hnotMem (List.mem_map_of_mem he)
      rw [if_pos ha, List.mem_cons, List.mem_cons]
      constructor
      · rintro (rfl | he)
        · exact .inl rfl
        · exact .inr ⟨.inr he, hne he⟩
      · rintro (rfl | ⟨rfl | he, hk⟩)
        · exact .inl rfl
        · exact absurd ha hk
        · exact .inr he
    · rw [if_neg ha, List.mem_cons, List.mem_cons, ih hrest]
      constructor
      · rintro (rfl | rfl | ⟨he, hk⟩)
        · exact .inr ⟨.inl rfl, ha⟩
        · exact .inl rfl
        · exact .inr ⟨.inr he, hk⟩
      · rintro (rfl | ⟨rfl | he, hk⟩)
        · exact .inr (.inl rfl)
        · exact .inl rfl
        · exact .inr (.inr ⟨he, hk⟩)

theorem get_set (m : InsertionMap κ ν) (k k' : κ) (v : ν) :
    (m.set k v).get k' = if k' = k then some v else m.get k' := by
  apply Option.ext
  intro w
  have hmem : (m.set k v).get k' = some w ↔ _ := get_eq_some_iff.trans (mem_put m.nodup)
  rw [hmem]
  split_ifs with hk
  · rw [hk]
    simp [eq_comm]
  · simp [get_eq_some_iff, hk]

theorem get_delete (m : InsertionMap κ ν) (k k' : κ) :
    (m.delete k).get k' = if k' = k then none else m.get k' := by
  apply Option.ext
  intro w
  have hmem : (m.delete k).get k' = some w ↔ _ := get_eq_some_iff.trans List.mem_filter
  rw [hmem]
  split_ifs with hk
  · simp [hk]
  · simp [get_eq_some_iff, hk]

theorem mem_delete {e : κ × ν} : e ∈ (m.delete k).entries ↔ e ∈ m.entries ∧ e.1 ≠ k := by
  show e ∈ m.entries.filter _ ↔ _
  simp

theorem filter_of_notMem {entries : List (κ × ν)} (h : k ∉ entries.map Prod.fst) :
    (entries.filter fun e => e.1 ≠ k) = entries := by
  rw [List.filter_eq_self]
  intro e he
  have hne : e.1 ≠ k := by
    rintro rfl
    exact h (List.mem_map_of_mem he)
  exact decide_eq_true hne

theorem size_delete (h : m.get k = some v) : (m.delete k).size + 1 = m.size := by
  have hmem := get_eq_some_iff.mp h
  have hnodup := m.nodup
  show (m.entries.filter fun e => e.1 ≠ k).length + 1 = m.entries.length
  generalize m.entries = entries at hmem hnodup
  induction entries with
  | nil => cases hmem
  | cons e rest ih =>
    obtain ⟨hnotMem, hrest⟩ := List.nodup_cons.mp hnodup
    rcases List.mem_cons.mp hmem with rfl | hmem
    · rw [List.filter_cons_of_neg (by simp), filter_of_notMem hnotMem]
      rfl
    · have hne : e.1 ≠ k := by
        rintro rfl
        exact hnotMem (List.mem_map.mpr ⟨_, hmem, rfl⟩)
      rw [List.filter_cons_of_pos (by simpa using hne), List.length_cons, List.length_cons,
        ih hmem hrest]

/-! ## The order -/

theorem entries_set_of_notMem (h : k ∉ m.entries.map Prod.fst) (v : ν) :
    (m.set k v).entries = m.entries ++ [(k, v)] := by
  show put m.entries k v = _
  generalize m.entries = entries at h
  induction entries with
  | nil => rfl
  | cons e rest ih =>
    rw [List.map_cons, List.mem_cons, not_or] at h
    rw [put, if_neg (Ne.symm h.1), ih h.2]
    rfl

/-- Deleting the oldest key. -/
theorem entries_delete_head {e : κ × ν} {rest : List (κ × ν)} (h : m.entries = e :: rest) :
    (m.delete e.1).entries = rest := by
  have hnodup := m.nodup
  rw [h, List.map_cons, List.nodup_cons] at hnodup
  show m.entries.filter _ = _
  rw [h, List.filter_cons_of_neg (by simp), filter_of_notMem hnodup.1]

end InsertionMap

/-- If the last entry of a sublist stands at `n`, at most `n` others are in front of it. -/
theorem length_le_of_sublist {α : Type*} {l L : List α} {a : α} {n : ℕ}
    (h : (l ++ [a]).Sublist L) (hnodup : L.Nodup) (hn : L[n]? = some a) : l.length ≤ n := by
  rw [← List.take_append_drop (n + 1) L] at h hnodup
  have hmem : a ∈ L.take (n + 1) := by
    rw [List.mem_take_iff_getElem]
    obtain ⟨hlt, hget⟩ := List.getElem?_eq_some_iff.mp hn
    exact ⟨n, by omega, hget⟩
  obtain ⟨l₁, l₂, heq, h₁, h₂⟩ := List.sublist_append_iff.mp h
  -- the entry is not behind position `n`, so nothing of the sublist is
  have hnil : l₂ = [] := by
    rcases List.eq_nil_or_concat' l₂ with hnil | ⟨rest, b, hl₂⟩
    · exact hnil
    · rw [hl₂, ← List.append_assoc] at heq
      have hba : b = a := (List.singleton_inj.mp (List.append_inj' heq rfl).2).symm
      have hdrop : a ∈ L.drop (n + 1) := h₂.subset (by rw [hl₂, hba]; simp)
      exact absurd hdrop (List.disjoint_of_nodup_append hnodup hmem)
  rw [hnil, List.append_nil] at heq
  have hlength := h₁.length_le
  rw [← heq, List.length_append, List.length_take] at hlength
  simp only [List.length_singleton] at hlength
  omega

end BeamSocket.Lib
