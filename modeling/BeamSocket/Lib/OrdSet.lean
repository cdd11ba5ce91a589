import Mathlib.Data.List.Sort
import Mathlib.Data.List.AList
import Mathlib.Data.String.Basic

/-!
# Finite sets with an ordered iteration

`OrdSet α` is a strictly increasing list, so that equal sets are equal values
and the iteration order is fixed: the model of a `BTreeSet`, and of a `HashSet`
where nothing depends on its iteration order. Hash maps are Mathlib's `AList`.

* `OrdSet.ext_mem`: sets with the same elements are equal.
* `OrdSet.mem_insert`, `mem_erase`, `mem_ofList`: the operations by membership.
* `OrdSet.card_insert_le`, `card_erase_le`, `card_eq_zero`: counting.
* `binarySearch_iff`: binary search in a sorted list finds what is in it.
* `lookup_insert`, `lookup_erase`, `lookup_foldl_update`, `lookup_tabulate`: a
  lookup in a changed or tabulated map, by cases on the key.
-/

instance UInt16.linearOrder : LinearOrder UInt16 where
  le_refl := UInt16.le_refl
  le_trans _ _ _ := UInt16.le_trans
  lt_iff_le_not_ge a b := by rw [UInt16.not_le]; exact ⟨fun h => ⟨UInt16.le_of_lt h, h⟩, And.right⟩
  le_antisymm _ _ := UInt16.le_antisymm
  le_total := UInt16.le_total
  toDecidableLE := inferInstance
  toDecidableEq := inferInstance
  min_def _ _ := rfl
  max_def _ _ := rfl

instance UInt64.linearOrder : LinearOrder UInt64 where
  le_refl := UInt64.le_refl
  le_trans _ _ _ := UInt64.le_trans
  lt_iff_le_not_ge a b := by rw [UInt64.not_le]; exact ⟨fun h => ⟨UInt64.le_of_lt h, h⟩, And.right⟩
  le_antisymm _ _ := UInt64.le_antisymm
  le_total := UInt64.le_total
  toDecidableLE := inferInstance
  toDecidableEq := inferInstance
  min_def _ _ := rfl
  max_def _ _ := rfl

namespace BeamSocket.Lib

/-- A finite set as its increasing list of elements. -/
@[ext] structure OrdSet (α : Type*) [LinearOrder α] where
  toList : List α
  sorted : toList.SortedLT

namespace OrdSet

variable {α : Type*} [LinearOrder α] {a b : α} {s t : OrdSet α}

instance : DecidableEq (OrdSet α) := fun s t =>
  decidable_of_iff (s.toList = t.toList) OrdSet.ext_iff.symm

instance : Membership α (OrdSet α) := ⟨fun s a => a ∈ s.toList⟩

instance (a : α) (s : OrdSet α) : Decidable (a ∈ s) := inferInstanceAs (Decidable (a ∈ s.toList))

instance : EmptyCollection (OrdSet α) := ⟨⟨[], List.Pairwise.nil.sortedLT⟩⟩

instance : Inhabited (OrdSet α) := ⟨∅⟩

theorem mem_def : a ∈ s ↔ a ∈ s.toList := Iff.rfl

@[simp] theorem notMem_empty : a ∉ (∅ : OrdSet α) := List.not_mem_nil

theorem nodup (s : OrdSet α) : s.toList.Nodup := s.sorted.nodup

theorem ext_mem (h : ∀ a, a ∈ s ↔ a ∈ t) : s = t :=
  OrdSet.ext (s.sorted.eq_of_mem_iff t.sorted h)

/-- The set with `a` added. -/
def insert (a : α) (s : OrdSet α) : OrdSet α :=
  if h : a ∈ s.toList then s
  else
    { toList := s.toList.orderedInsert (· ≤ ·) a
      sorted := by
        have hle := (s.sorted.sortedLE.pairwise.orderedInsert a).sortedLE
        refine hle.sortedLT_of_nodup ?_
        rw [(List.perm_orderedInsert (· ≤ ·) a s.toList).nodup_iff]
        exact List.nodup_cons.mpr ⟨h, s.nodup⟩ }

/-- The set with `a` removed. -/
def erase (a : α) (s : OrdSet α) : OrdSet α where
  toList := s.toList.erase a
  sorted := (s.sorted.pairwise.sublist List.erase_sublist).sortedLT

/-- The set of the elements of a list. -/
def ofList (l : List α) : OrdSet α := l.foldr insert ∅

/-- The number of elements. -/
def card (s : OrdSet α) : ℕ := s.toList.length

@[simp] theorem mem_insert : b ∈ s.insert a ↔ b = a ∨ b ∈ s := by
  unfold insert
  split_ifs with h
  · constructor
    · exact Or.inr
    · rintro (rfl | hb)
      · exact h
      · exact hb
  · exact List.mem_orderedInsert (· ≤ ·)

@[simp] theorem mem_erase : b ∈ s.erase a ↔ b ≠ a ∧ b ∈ s := s.nodup.mem_erase_iff

@[simp] theorem mem_ofList {l : List α} : a ∈ ofList l ↔ a ∈ l := by
  induction l with
  | nil => simp [ofList]
  | cons b l ih => rw [ofList, List.foldr_cons, mem_insert, ← ofList, ih, List.mem_cons]

@[simp] theorem ofList_toList (s : OrdSet α) : ofList s.toList = s :=
  ext_mem fun _ => mem_ofList

theorem insert_of_mem (h : a ∈ s) : s.insert a = s := dif_pos h

theorem erase_of_notMem (h : a ∉ s) : s.erase a = s :=
  OrdSet.ext (List.erase_of_not_mem h)

theorem card_insert_of_notMem (h : a ∉ s) : (s.insert a).card = s.card + 1 := by
  unfold card insert
  rw [dif_neg (show a ∉ s.toList from h), List.orderedInsert_length]

theorem card_insert_le : (s.insert a).card ≤ s.card + 1 := by
  by_cases h : a ∈ s
  · rw [insert_of_mem h]; exact Nat.le_succ _
  · rw [card_insert_of_notMem h]

theorem card_insert_pos : 0 < (s.insert a).card :=
  List.length_pos_of_mem (mem_insert.mpr (.inl rfl) : a ∈ s.insert a)

theorem card_erase_le : (s.erase a).card ≤ s.card := List.length_erase_le

theorem card_erase_lt (h : a ∈ s) : (s.erase a).card < s.card := by
  have hpos : 0 < s.toList.length := List.length_pos_of_mem h
  unfold card erase
  rw [List.length_erase_of_mem h]
  omega

theorem card_eq_zero : s.card = 0 ↔ ∀ a, a ∉ s := by
  unfold card
  rw [List.length_eq_zero_iff, List.eq_nil_iff_forall_not_mem]
  exact Iff.rfl

end OrdSet

/-! ## Binary search -/

section

variable {α : Type*} [LinearOrder α] {x : α} {l : List α}

/-- Binary search in a list of at most `fuel` elements. -/
def searchHalves (x : α) : ℕ → List α → Bool
  | 0, _ => false
  | fuel + 1, l =>
    match l[l.length / 2]? with
    | none => false
    | some y =>
      if y = x then true
      else if y < x then searchHalves x fuel (l.drop (l.length / 2 + 1))
      else searchHalves x fuel (l.take (l.length / 2))

/-- Whether `x` is found in the sorted list `l`. -/
def binarySearch (l : List α) (x : α) : Bool := searchHalves x l.length l

theorem searchHalves_iff {fuel : ℕ} (hl : l.Pairwise (· ≤ ·)) (hfuel : l.length ≤ fuel) :
    searchHalves x fuel l = true ↔ x ∈ l := by
  induction fuel generalizing l with
  | zero =>
    obtain rfl : l = [] := List.length_eq_zero_iff.mp (by omega)
    simp [searchHalves]
  | succ fuel ih =>
    unfold searchHalves
    cases hy : l[l.length / 2]? with
    | none =>
      have hlen := List.getElem?_eq_none_iff.mp hy
      obtain rfl : l = [] := List.length_eq_zero_iff.mp (by omega)
      simp
    | some y =>
      obtain ⟨hlt, hget⟩ := List.getElem?_eq_some_iff.mp hy
      have hsplit : l = l.take (l.length / 2) ++ y :: l.drop (l.length / 2 + 1) := by
        rw [← hget, ← List.drop_eq_getElem_cons hlt, List.take_append_drop]
      have hpair := hl
      rw [hsplit, List.pairwise_append, List.pairwise_cons] at hpair
      obtain ⟨htake, ⟨hright, hdrop⟩, hleft⟩ := hpair
      have hmem : x ∈ l ↔ x ∈ l.take (l.length / 2) ∨ x = y ∨ x ∈ l.drop (l.length / 2 + 1) := by
        conv_lhs => rw [hsplit]
        rw [List.mem_append, List.mem_cons]
      dsimp only
      split_ifs with heq hxy
      · simp [hmem, heq]
      · -- everything up to the middle is below `x`
        rw [ih hdrop (by rw [List.length_drop]; omega), hmem]
        refine ⟨fun h => .inr (.inr h), ?_⟩
        rintro (h | h | h)
        · exact absurd (hleft x h y (List.mem_cons_self ..)) (not_le.mpr hxy)
        · exact absurd h.symm heq
        · exact h
      · rw [ih htake (by rw [List.length_take]; omega), hmem]
        refine ⟨fun h => .inl h, ?_⟩
        rintro (h | h | h)
        · exact h
        · exact absurd h.symm heq
        · exact absurd (lt_of_le_of_ne (hright x h) heq) hxy

theorem binarySearch_iff (hl : l.Pairwise (· ≤ ·)) : binarySearch l x = true ↔ x ∈ l :=
  searchHalves_iff hl le_rfl

end

/-! ## Lookups by cases on the key -/

section

variable {κ ν : Type*} [DecidableEq κ]

theorem lookup_insert (m : AList fun _ : κ => ν) (k k' : κ) (v : ν) :
    (m.insert k v).lookup k' = if k' = k then some v else m.lookup k' := by
  split_ifs with h
  · rw [h, AList.lookup_insert]
  · rw [AList.lookup_insert_ne h]

theorem lookup_erase (m : AList fun _ : κ => ν) (k k' : κ) :
    (m.erase k).lookup k' = if k' = k then none else m.lookup k' := by
  split_ifs with h
  · rw [h, AList.lookup_erase]
  · rw [AList.lookup_erase_ne h]

theorem eq_empty_of_lookup {m : AList fun _ : κ => ν} (h : ∀ k, m.lookup k = none) : m = ∅ := by
  apply AList.ext
  apply List.eq_nil_iff_forall_not_mem.mpr
  intro e he
  have hlookup : m.lookup e.1 = some e.2 := (List.mem_dlookup_iff m.nodupKeys).mpr he
  rw [h] at hlookup
  cases hlookup

/-- Collecting pairs into a map keeps what is already there of other keys. -/
theorem lookup_foldl_insert_of_notMem {l : List (κ × ν)} {k : κ} (h : k ∉ l.map Prod.fst)
    (m : AList fun _ : κ => ν) :
    (l.foldl (fun m e => m.insert e.1 e.2) m).lookup k = m.lookup k := by
  induction l generalizing m with
  | nil => rfl
  | cons e l ih =>
    rw [List.map_cons, List.mem_cons, not_or] at h
    rw [List.foldl_cons, ih h.2, lookup_insert, if_neg h.1]

/-- Collecting pairs with distinct keys into a map finds each of them. -/
theorem lookup_foldl_insert_of_mem {l : List (κ × ν)} {k : κ} {v : ν}
    (hnd : (l.map Prod.fst).Nodup) (h : (k, v) ∈ l) (m : AList fun _ : κ => ν) :
    (l.foldl (fun m e => m.insert e.1 e.2) m).lookup k = some v := by
  induction l generalizing m with
  | nil => cases h
  | cons e l ih =>
    rw [List.map_cons, List.nodup_cons] at hnd
    rw [List.foldl_cons]
    rcases List.mem_cons.mp h with rfl | h
    · rw [lookup_foldl_insert_of_notMem hnd.1, lookup_insert, if_pos rfl]
    · exact ih hnd.2 h _

/-- A pass over distinct keys by a step that updates the value of the key it is
    at, and of no other. -/
theorem lookup_foldl_update {σ : Type*} {f : κ → ν → ν}
    {step : (AList fun _ : κ => ν) × σ → κ → (AList fun _ : κ => ν) × σ}
    (hstep : ∀ st k k', (step st k).1.lookup k' =
      (st.1.lookup k').map fun v => if k' = k then f k v else v)
    {ks : List κ} (hnd : ks.Nodup) (st : (AList fun _ : κ => ν) × σ) (k : κ) :
    (ks.foldl step st).1.lookup k =
      (st.1.lookup k).map fun v => if k ∈ ks then f k v else v := by
  induction ks generalizing st with
  | nil => simp
  | cons a ks ih =>
    obtain ⟨ha, hnd⟩ := List.nodup_cons.mp hnd
    rw [List.foldl_cons, ih hnd, hstep, Option.map_map]
    congr 1
    funext v
    -- `a` does not come again, so at most one of the two updates happens
    by_cases hk : k = a
    · subst hk
      simp [ha]
    · simp [hk]

/-- The map with the values of `f` at the keys of `l`. -/
def tabulate (l : List κ) (f : κ → Option ν) : AList fun _ : κ => ν :=
  (l.filterMap fun k => (f k).map (Sigma.mk k)).toAList

theorem lookup_tabulate (l : List κ) (f : κ → Option ν) (k : κ) :
    (tabulate l f).lookup k = if k ∈ l then f k else none := by
  rw [tabulate, AList.lookup_to_alist]
  induction l with
  | nil => rfl
  | cons a l ih =>
    by_cases hk : k = a
    · subst hk
      cases hf : f k with
      | none =>
        rw [hf] at ih
        simpa [hf] using ih
      | some v => simp [hf]
    · cases hf : f a with
      | none => simp [hf, ih, hk]
      | some v =>
        have hne : k ≠ (Sigma.mk a v : Sigma fun _ : κ => ν).1 := hk
        simp [hf, ih, hk, List.dlookup_cons_ne _ _ hne]

end

end BeamSocket.Lib
