import BeamSocket.Sdk.Targets

/-!
# Which texts are taken for socket ids

`decodeSocketId` (`packages/beamsocket/src/ids.ts`, lines 31–47) reads its segments with `parseInt`,
which skips whitespace and a plus sign, takes either case and leading zeros, and stops at the first
character that is not a digit. It therefore takes more texts than `encodeSocketId` writes. Which
numbers it makes of digits from `2 ^ 53` on is for the JavaScript implementation to say; the results
hold for each.

* `decodeSocketId_eq_none_iff`: which texts are refused.
* `canonical_iff`: which texts are socket ids.
* `socketId_exact_iff`: of no other texts is what is read what is written.
-/

namespace BeamSocket.Sdk

open BeamSocket.Lib BeamSocket.Mesh BeamSocket.Core

/-! ## What is refused -/

/-- A segment with a digit at its beginning, of which a finite integer is read. -/
structure Readable (js : ParseIntApi 36) (segment : List Char) : Prop where
  digits : leadingDigits 36 (unsigned segment) ≠ []
  finite : js.value (leadingDigits 36 (unsigned segment)) ≠ none

/-- The parts of a text between its dashes. -/
def segments (s : String) : List (List Char) := s.toList.splitOn '-'

/-- A text with other than one or two dashes, or with a segment of which no finite integer is
    read. -/
def Foreign (js : ParseIntApi 36) (s : String) : Prop :=
  ((segments s).length ≠ 2 ∧ (segments s).length ≠ 3) ∨ ∃ seg ∈ segments s, ¬Readable js seg

theorem notMem_of_mem_splitOn {a : Char} {l : List Char} {seg : List Char} (h : seg ∈ l.splitOn a) :
    a ∉ seg := by
  unfold List.splitOn at h
  induction l generalizing seg with
  | nil =>
    rw [List.splitOnP_nil, List.mem_singleton] at h
    rw [h]
    exact List.not_mem_nil
  | cons c l ih =>
    rw [List.splitOnP_cons_eq_if_modifyHead] at h
    split_ifs at h with hc
    · obtain rfl | h := List.mem_cons.mp h
      · exact List.not_mem_nil
      · exact ih h
    · cases hrest : l.splitOnP (· == a) with
      | nil => exact absurd hrest (List.splitOnP_ne_nil _ l)
      | cons first rest =>
        rw [hrest] at h ih
        obtain rfl | h := List.mem_cons.mp h
        · have hne : a ≠ c := fun heq => hc (by simp [heq])
          exact List.not_mem_cons_of_ne_of_not_mem hne (ih List.mem_cons_self)
        · exact ih (List.mem_cons_of_mem _ h)

theorem parseSegment_eq_none_iff (js : ParseIntApi 36) {seg : List Char} (h : '-' ∉ seg) :
    parseSegment js seg = none ↔ ¬Readable js seg := by
  unfold parseSegment
  rw [parseInt_of_notMem js h, parseDigits]
  cases hdigits : leadingDigits 36 (unsigned seg) with
  | nil => exact iff_of_true rfl fun hread => hread.digits hdigits
  | cons d ds =>
    dsimp only
    cases hvalue : js.value (d :: ds) with
    | none => exact iff_of_true rfl fun hread => hread.finite (by rw [hdigits, hvalue])
    | some n =>
      have hread : Readable js seg := ⟨by simp [hdigits], by simp [hdigits, hvalue]⟩
      simp [hread, nonNeg]

theorem length_of_mapM {js : ParseIntApi 36} {segs : List (List Char)} {ns : List ℕ}
    (h : segs.mapM (parseSegment js) = some ns) : ns.length = segs.length := by
  induction segs generalizing ns with
  | nil =>
    cases h
    rfl
  | cons seg segs ih =>
    rw [List.mapM_cons] at h
    obtain ⟨n, -, h⟩ := Option.bind_eq_some_iff.mp h
    obtain ⟨rest, hrest, h⟩ := Option.bind_eq_some_iff.mp h
    cases h
    rw [List.length_cons, List.length_cons, ih hrest]

/-- The id of two or three numbers. -/
def ofNumbers : List ℕ → Option ParsedId
  | [hi, lo] => some ⟨none, hi, lo⟩
  | [node, hi, lo] => some ⟨some node, hi, lo⟩
  | _ => none

theorem ofNumbers_eq_none_iff (ns : List ℕ) :
    ofNumbers ns = none ↔ ns.length ≠ 2 ∧ ns.length ≠ 3 := by
  match ns with
  | [] => simp [ofNumbers]
  | [_] => simp [ofNumbers]
  | [_, _] => simp [ofNumbers]
  | [_, _, _] => simp [ofNumbers]
  | _ :: _ :: _ :: _ :: _ => simp [ofNumbers]

/-- The segments are read one after another. -/
theorem decodeSocketId_eq (js : ParseIntApi 36) (s : String) :
    decodeSocketId js s = ((segments s).mapM (parseSegment js)).bind ofNumbers := by
  unfold decodeSocketId segments
  split
  · rename_i hi lo hsegs
    rw [hsegs, List.mapM_cons, List.mapM_cons, List.mapM_nil]
    cases parseSegment js hi <;> cases parseSegment js lo <;> rfl
  · rename_i node hi lo hsegs
    rw [hsegs, List.mapM_cons, List.mapM_cons, List.mapM_cons, List.mapM_nil]
    cases parseSegment js node <;> cases parseSegment js hi <;> cases parseSegment js lo <;> rfl
  · rename_i htwo hthree
    cases hmap : (s.toList.splitOn '-').mapM (parseSegment js) with
    | none => rfl
    | some ns =>
      rw [Option.bind_some, eq_comm, ofNumbers_eq_none_iff, length_of_mapM hmap]
      refine ⟨fun hlength => ?_, fun hlength => ?_⟩
      · obtain ⟨hi, lo, hsegs⟩ := List.length_eq_two.mp hlength
        exact htwo hi lo hsegs
      · obtain ⟨node, hi, lo, hsegs⟩ := List.length_eq_three.mp hlength
        exact hthree node hi lo hsegs

theorem mapM_parseSegment_eq_none_iff (js : ParseIntApi 36) {segs : List (List Char)}
    (h : ∀ seg ∈ segs, '-' ∉ seg) :
    segs.mapM (parseSegment js) = none ↔ ∃ seg ∈ segs, ¬Readable js seg := by
  induction segs with
  | nil => simp
  | cons seg segs ih =>
    have hseg := parseSegment_eq_none_iff js (h seg List.mem_cons_self)
    have hsegs := ih fun seg hseg => h seg (List.mem_cons_of_mem _ hseg)
    rw [List.mapM_cons, List.exists_mem_cons_iff, ← hseg, ← hsegs]
    cases parseSegment js seg with
    | none => simp
    | some n =>
      cases segs.mapM (parseSegment js) with
      | none => simp
      | some ns => simp

theorem decodeSocketId_eq_none_iff (js : ParseIntApi 36) (s : String) :
    decodeSocketId js s = none ↔ Foreign js s := by
  have hdash : ∀ seg ∈ segments s, '-' ∉ seg := fun seg h => notMem_of_mem_splitOn h
  rw [Foreign, ← mapM_parseSegment_eq_none_iff js hdash, decodeSocketId_eq]
  cases hmap : (segments s).mapM (parseSegment js) with
  | none => simp
  | some ns =>
    rw [Option.bind_some, ofNumbers_eq_none_iff, length_of_mapM hmap]
    simp

/-! ## Socket ids -/

/-- Numerals of two halves, behind that of a node if there is one. -/
def Canonical (s : String) : Prop :=
  match segments s with
  | [hi, lo] => CanonicalNumeral 36 (2 ^ 32) hi ∧ CanonicalNumeral 36 (2 ^ 32) lo
  | [node, hi, lo] =>
    CanonicalNumeral 36 (2 ^ 16) node ∧ CanonicalNumeral 36 (2 ^ 32) hi ∧
      CanonicalNumeral 36 (2 ^ 32) lo
  | _ => False

theorem segments_inj {s t : String} (h : segments s = segments t) : s = t := by
  have hlist := congrArg ['-'].intercalate h
  unfold segments at hlist
  rw [List.intercalate_splitOn, List.intercalate_splitOn] at hlist
  exact String.toList_inj.mp hlist

theorem canonicalNumeral_half {seg : List Char} :
    CanonicalNumeral 36 (2 ^ 32) seg ↔ ∃ n : UInt32, seg = numeral 36 n.toNat := by
  rw [canonicalNumeral_iff (by decide) (by decide)]
  constructor
  · rintro ⟨n, hn, rfl⟩
    exact ⟨UInt32.ofNat n, by rw [UInt32.toNat_ofNat_of_lt' hn]⟩
  · rintro ⟨n, rfl⟩
    exact ⟨n.toNat, n.toNat_lt, rfl⟩

theorem canonicalNumeral_node {seg : List Char} :
    CanonicalNumeral 36 (2 ^ 16) seg ↔ ∃ n : NodeId, seg = numeral 36 n.toNat := by
  rw [canonicalNumeral_iff (by decide) (by decide)]
  constructor
  · rintro ⟨n, hn, rfl⟩
    exact ⟨UInt16.ofNat n, by rw [UInt16.toNat_ofNat_of_lt' hn]⟩
  · rintro ⟨n, rfl⟩
    exact ⟨n.toNat, n.toNat_lt, rfl⟩

theorem canonical_iff (s : String) :
    Canonical s ↔ ∃ hi lo node, encodeSocketId hi lo node = s := by
  constructor
  · intro h
    unfold Canonical at h
    split at h
    · rename_i hsegs
      rw [canonicalNumeral_half, canonicalNumeral_half] at h
      obtain ⟨⟨hi, rfl⟩, lo, rfl⟩ := h
      refine ⟨hi, lo, none, segments_inj ?_⟩
      rw [hsegs]
      exact splitOn_encodeSocketId hi lo none
    · rename_i hsegs
      rw [canonicalNumeral_node, canonicalNumeral_half, canonicalNumeral_half] at h
      obtain ⟨⟨node, rfl⟩, ⟨hi, rfl⟩, lo, rfl⟩ := h
      refine ⟨hi, lo, some node, segments_inj ?_⟩
      rw [hsegs]
      exact splitOn_encodeSocketId hi lo (some node)
    · exact h.elim
  · rintro ⟨hi, lo, node, rfl⟩
    have hhi := canonicalNumeral_half.mpr ⟨hi, rfl⟩
    have hlo := canonicalNumeral_half.mpr ⟨lo, rfl⟩
    unfold Canonical segments
    rw [splitOn_encodeSocketId]
    cases node with
    | none => exact ⟨hhi, hlo⟩
    | some node => exact ⟨canonicalNumeral_node.mpr ⟨node, rfl⟩, hhi, hlo⟩

/-! ## The codec -/

/-- What is read of `s`, if anything, is what is written as `s`. -/
def ReadsOwn (js : ParseIntApi 36) (s : String) : Prop :=
  ∀ p, decodeSocketId js s = some p → ∃ hi lo node,
    p = ⟨node.map UInt16.toNat, hi.toNat, lo.toNat⟩ ∧ encodeSocketId hi lo node = s

theorem readsOwn_iff (js : ParseIntApi 36) (s : String) :
    ReadsOwn js s ↔ Foreign js s ∨ Canonical s := by
  rw [← decodeSocketId_eq_none_iff, canonical_iff]
  constructor
  · intro h
    cases hdec : decodeSocketId js s with
    | none => exact .inl rfl
    | some p =>
      obtain ⟨hi, lo, node, -, hs⟩ := h p hdec
      exact .inr ⟨hi, lo, node, hs⟩
  · rintro (hnone | ⟨hi, lo, node, rfl⟩) p hp
    · rw [hnone] at hp
      cases hp
    · rw [decodeSocketId_encodeSocketId] at hp
      exact ⟨hi, lo, node, (Option.some.inj hp).symm, rfl⟩

/-- On every JavaScript implementation: every socket id is read back. A text is read as its own, or
    refused, exactly if it is foreign or canonical. Of such texts no two are read alike; and no two
    address one connection on a node `m`, except that an id without a node means `m` itself. -/
theorem socketId_exact_iff (js : ParseIntApi 36) (s : String) :
    (∀ hi lo node, decodeSocketId js (encodeSocketId hi lo node) =
      some ⟨node.map UInt16.toNat, hi.toNat, lo.toNat⟩) ∧
    (ReadsOwn js s ↔ Foreign js s ∨ Canonical s) ∧
    ∀ t p q, Foreign js s ∨ Canonical s → Foreign js t ∨ Canonical t →
      decodeSocketId js s = some p → decodeSocketId js t = some q →
        (p = q → s = t) ∧
        ∀ m, addressed m p.node p.hi p.lo = addressed m q.node q.hi q.lo →
          s = t ∨ (p.node = none ∧ q.node = some m.toNat) ∨
            (p.node = some m.toNat ∧ q.node = none) := by
  refine ⟨decodeSocketId_encodeSocketId js, readsOwn_iff js s, ?_⟩
  intro t p q hs ht hp hq
  obtain ⟨hi, lo, node, rfl, rfl⟩ := (readsOwn_iff js s).mpr hs p hp
  obtain ⟨hi', lo', node', rfl, rfl⟩ := (readsOwn_iff js t).mpr ht q hq
  constructor
  · intro heq
    obtain ⟨hnode, hhi, hlo⟩ := ParsedId.mk.inj heq
    rw [UInt32.toNat.inj hhi, UInt32.toNat.inj hlo,
      Option.map_injective (fun a b hab => UInt16.toNat_inj.mp hab) hnode]
  · intro m haddr
    rw [addressed_encoded, addressed_encoded] at haddr
    obtain ⟨hnode, hid⟩ := NodeConnId.mk.inj haddr
    obtain ⟨rfl, rfl⟩ := connId_inj hid
    cases node with
    | none =>
      cases node' with
      | none => exact .inl rfl
      | some k' =>
        have hown : m = k' := hnode
        subst hown
        exact .inr (.inl ⟨rfl, rfl⟩)
    | some k =>
      cases node' with
      | none =>
        have hown : k = m := hnode
        subst hown
        exact .inr (.inr ⟨rfl, rfl⟩)
      | some k' =>
        have hsame : k = k' := hnode
        subst hsame
        exact .inl rfl

theorem canonical_one_one : Canonical "1-1" :=
  (canonical_iff "1-1").mpr ⟨1, 1, none, by decide +kernel⟩

theorem canonical_two_one : Canonical "2-1" :=
  (canonical_iff "2-1").mpr ⟨2, 1, none, by decide +kernel⟩

/-- Two socket ids, read by an implementation that rounds to the nearest double. -/
theorem reads_one_one :
    ReadsOwn (.rounding 36) "1-1" ∧
      decodeSocketId (.rounding 36) "1-1" ≠ decodeSocketId (.rounding 36) "2-1" := by
  obtain ⟨-, hown, hinj⟩ := socketId_exact_iff (.rounding 36) "1-1"
  refine ⟨hown.mpr (.inr canonical_one_one), ?_⟩
  intro heq
  have hone : decodeSocketId (.rounding 36) "1-1" = some ⟨none, 1, 1⟩ := by decide +kernel
  have htwo : decodeSocketId (.rounding 36) "2-1" = some ⟨none, 1, 1⟩ := heq.symm.trans hone
  exact absurd ((hinj "2-1" _ _ (.inr canonical_one_one) (.inr canonical_two_one) hone htwo).1 rfl)
    (by decide)

/-- What is read of `1!` is read of `1`. -/
theorem parseSegment_one (js : ParseIntApi 36) :
    parseSegment js ['1', '!'] = some 1 ∧ parseSegment js ['1'] = some 1 := by
  have hvalue : js.value [1] = some 1 := js.value_of_lt [1] (by decide)
  have hread : ∀ s, parseInt js s = parseDigits js false s → leadingDigits 36 s = [1] →
      parseSegment js s = some 1 := by
    intro s hint hdigits
    rw [parseSegment, hint, parseDigits, hdigits]
    dsimp only
    rw [hvalue]
    rfl
  exact ⟨hread _ rfl (by decide), hread _ rfl (by decide)⟩

/-- What stands behind the digits is skipped, on every implementation: the text is read as another
    one is, and is written for nothing. -/
theorem trailing_text_read :
    (∀ js, decodeSocketId js "1!-1" = some ⟨none, 1, 1⟩ ∧
      decodeSocketId js "1-1" = some ⟨none, 1, 1⟩) ∧
    ∀ hi lo node, encodeSocketId hi lo node ≠ "1!-1" := by
  have hread : ∀ js, decodeSocketId js "1!-1" = some ⟨none, 1, 1⟩ := by
    intro js
    rw [decodeSocketId_eq, show segments "1!-1" = [['1', '!'], ['1']] by decide +kernel]
    simp [parseSegment_one js, ofNumbers]
  refine ⟨fun js => ⟨hread js, ?_⟩, ?_⟩
  · rw [decodeSocketId_eq, show segments "1-1" = [['1'], ['1']] by decide +kernel]
    simp [parseSegment_one js, ofNumbers]
  · intro hi lo node heq
    have hback := decodeSocketId_encodeSocketId (.rounding 36) hi lo node
    rw [heq, hread] at hback
    obtain ⟨hnode, hhi, hlo⟩ := ParsedId.mk.inj (Option.some.inj hback)
    have hhi' : hi = 1 := UInt32.toNat.inj hhi.symm
    have hlo' : lo = 1 := UInt32.toNat.inj hlo.symm
    have hnode' : node = none := Option.map_eq_none_iff.mp hnode.symm
    rw [hhi', hlo', hnode'] at heq
    exact absurd heq (by decide +kernel)

end BeamSocket.Sdk
