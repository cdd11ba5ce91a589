import Mathlib

/-!
# Byte strings

Byte strings are lists of `UInt8`. This module has what a length-prefixed wire
format needs: little-endian integers of a given width, in-bounds slices, and
UTF-8 text.

* `fromLe_toLe`, `toLe_fromLe`: `toLe w` and `fromLe` are inverse bijections
  between `[0, 256^w)` and byte strings of length `w`; `toLe w` keeps the low
  `w` bytes of a larger number, as a truncating cast does.
* `slice?_append`: a field read back at the offset it was written at.
* `getCounted_putCounted`: of a list behind a 16-bit count, as many entries are
  read as the count says, which a truncating cast wrote.
* `InRange.counted`: the offset of a reader of a counted list stays within the buffer.
* `fromUtf8_asBytes`, `asBytes_of_fromUtf8`: text and its UTF-8 bytes.
* `ReadsBackIff.counted`: a list behind a 16-bit count is read back iff the count fits and
  its entries are; `readsBackIff_putText`: the same of text behind a 16-bit length.
-/

namespace BeamSocket.Lib

/-- A byte string. -/
abbrev Bytes := List UInt8

/-! ## Little-endian integers -/

/-- The low `w` bytes of `n`, least significant byte first. -/
def toLe : ℕ → ℕ → Bytes
  | 0, _ => []
  | w + 1, n => UInt8.ofNat n :: toLe w (n / 256)

/-- The number whose little-endian bytes are given. -/
def fromLe : Bytes → ℕ
  | [] => 0
  | b :: bs => b.toNat + 256 * fromLe bs

@[simp] theorem length_toLe (w n : ℕ) : (toLe w n).length = w := by
  induction w generalizing n with
  | zero => rfl
  | succ w ih => simp [toLe, ih]

theorem fromLe_toLe (w n : ℕ) : fromLe (toLe w n) = n % 256 ^ w := by
  induction w generalizing n with
  | zero => simp [toLe, fromLe, Nat.mod_one]
  | succ w ih =>
    have hw : 256 ^ (w + 1) = 256 * 256 ^ w := by ring
    rw [toLe, fromLe, ih, UInt8.toNat_ofNat', hw, Nat.mod_mul]

theorem fromLe_toLe_of_lt {w n : ℕ} (h : n < 256 ^ w) : fromLe (toLe w n) = n := by
  rw [fromLe_toLe, Nat.mod_eq_of_lt h]

/-- The first bytes are those of the low part. -/
theorem toLe_add (v w n : ℕ) : toLe (v + w) n = toLe v n ++ toLe w (n / 256 ^ v) := by
  induction v generalizing n with
  | zero => simp [toLe]
  | succ v ih =>
    rw [Nat.succ_add, toLe, toLe, ih, Nat.div_div_eq_div_mul, ← Nat.pow_succ']
    rfl

theorem fromLe_lt (b : Bytes) : fromLe b < 256 ^ b.length := by
  induction b with
  | nil => simp [fromLe]
  | cons x b ih =>
    have hx := x.toNat_lt
    rw [fromLe, List.length_cons, pow_succ]
    omega

theorem toLe_fromLe (b : Bytes) : toLe b.length (fromLe b) = b := by
  induction b with
  | nil => rfl
  | cons x b ih =>
    have hx := x.toNat_lt
    have hdiv : (x.toNat + 256 * fromLe b) / 256 = fromLe b := by omega
    rw [List.length_cons, fromLe, toLe, hdiv, ih]
    congr 1
    apply UInt8.toNat_inj.mp
    rw [UInt8.toNat_ofNat']
    omega

/-- `u16::to_le_bytes`. -/
def le16 (x : UInt16) : Bytes := toLe 2 x.toNat

/-- `u32::to_le_bytes`. -/
def le32 (x : UInt32) : Bytes := toLe 4 x.toNat

/-- `u64::to_le_bytes`. -/
def le64 (x : UInt64) : Bytes := toLe 8 x.toNat

/-- `u16::from_le_bytes`. -/
def ofLe16 (b : Bytes) : UInt16 := UInt16.ofNat (fromLe b)

/-- `u32::from_le_bytes`. -/
def ofLe32 (b : Bytes) : UInt32 := UInt32.ofNat (fromLe b)

/-- `u64::from_le_bytes`. -/
def ofLe64 (b : Bytes) : UInt64 := UInt64.ofNat (fromLe b)

@[simp] theorem length_le16 (x : UInt16) : (le16 x).length = 2 := length_toLe _ _

@[simp] theorem length_le32 (x : UInt32) : (le32 x).length = 4 := length_toLe _ _

@[simp] theorem length_le64 (x : UInt64) : (le64 x).length = 8 := length_toLe _ _

@[simp] theorem ofLe16_le16 (x : UInt16) : ofLe16 (le16 x) = x := by
  rw [ofLe16, le16, fromLe_toLe_of_lt x.toNat_lt, UInt16.ofNat_toNat]

@[simp] theorem ofLe32_le32 (x : UInt32) : ofLe32 (le32 x) = x := by
  rw [ofLe32, le32, fromLe_toLe_of_lt x.toNat_lt, UInt32.ofNat_toNat]

@[simp] theorem ofLe64_le64 (x : UInt64) : ofLe64 (le64 x) = x := by
  rw [ofLe64, le64, fromLe_toLe_of_lt x.toNat_lt, UInt64.ofNat_toNat]

theorem le16_ofLe16 {b : Bytes} (h : b.length = 2) : le16 (ofLe16 b) = b := by
  have hlt := fromLe_lt b
  rw [h] at hlt
  rw [le16, ofLe16, UInt16.toNat_ofNat', Nat.mod_eq_of_lt (by omega), ← h, toLe_fromLe]

theorem le32_ofLe32 {b : Bytes} (h : b.length = 4) : le32 (ofLe32 b) = b := by
  have hlt := fromLe_lt b
  rw [h] at hlt
  rw [le32, ofLe32, UInt32.toNat_ofNat', Nat.mod_eq_of_lt (by omega), ← h, toLe_fromLe]

theorem le64_ofLe64 {b : Bytes} (h : b.length = 8) : le64 (ofLe64 b) = b := by
  have hlt := fromLe_lt b
  rw [h] at hlt
  rw [le64, ofLe64, UInt64.toNat_ofNat', Nat.mod_eq_of_lt (by omega), ← h, toLe_fromLe]

/-! ## Slices -/

/-- `buf[off..off + n]`, for a slice the caller has checked to be in bounds. -/
def slice (buf : Bytes) (off n : ℕ) : Bytes := (buf.drop off).take n

/-- `buf.get(off..off + n)`. -/
def slice? (buf : Bytes) (off n : ℕ) : Option Bytes :=
  if off + n ≤ buf.length then some (slice buf off n) else none

theorem length_slice {buf : Bytes} {off n : ℕ} (h : off + n ≤ buf.length) :
    (slice buf off n).length = n := by
  simp [slice]; omega

/-- Consecutive slices glue together. -/
theorem slice_add (buf : Bytes) (off m n : ℕ) :
    slice buf off (m + n) = slice buf off m ++ slice buf (off + m) n := by
  rw [slice, slice, slice, List.take_add, List.drop_drop]

/-- A slice behind the prefix `p` is a slice of the rest. -/
theorem slice_append_right {p r : Bytes} {off n : ℕ} (h : p.length ≤ off) :
    slice (p ++ r) off n = slice r (off - p.length) n := by
  rw [slice, slice, List.drop_append, List.drop_of_length_le h, List.nil_append]

/-- The first field of a buffer. -/
theorem slice_zero_append {x r : Bytes} {n : ℕ} (hn : n = x.length) :
    slice (x ++ r) 0 n = x := by
  subst hn
  simp [slice]

theorem slice_append {p x r : Bytes} {off n : ℕ} (hoff : off = p.length) (hn : n = x.length) :
    slice (p ++ (x ++ r)) off n = x := by
  subst hoff
  rw [slice_append_right le_rfl, Nat.sub_self, slice_zero_append hn]

/-- A field `x` written after a prefix `p` is read back at offset `p.length`. -/
theorem slice?_append {p x r : Bytes} {off n : ℕ} (hoff : off = p.length) (hn : n = x.length) :
    slice? (p ++ (x ++ r)) off n = some x := by
  subst hoff
  rw [slice?, slice_append rfl hn, if_pos]
  simp [hn]

/-- A slice bounded by the buffer, when it succeeds, has the requested length. -/
theorem length_of_slice? {buf x : Bytes} {off n : ℕ} (h : slice? buf off n = some x) :
    x.length = n := by
  unfold slice? at h
  split_ifs at h with hle
  cases h
  exact length_slice hle

theorem le_of_slice? {buf x : Bytes} {off n : ℕ} (h : slice? buf off n = some x) :
    off + n ≤ buf.length := by
  unfold slice? at h
  split_ifs at h with hle
  exact hle

/-- A byte `x` written after a prefix `p` is read back at offset `p.length`. -/
theorem getElem?_append_cons {p r : Bytes} {x : UInt8} {off : ℕ} (hoff : off = p.length) :
    (p ++ (x :: r))[off]? = some x := by
  subst hoff
  rw [List.getElem?_append_right le_rfl, Nat.sub_self]
  rfl

/-! ## Repeated fields -/

section

variable {α : Type} {put : α → Bytes} {get : Bytes → ℕ → Option (α × ℕ)}

/-- `get`, a reader that also returns the offset behind the field, reads back
    what `put` wrote, whatever surrounds it. -/
def ReadsBack (put : α → Bytes) (get : Bytes → ℕ → Option (α × ℕ)) : Prop :=
  ∀ (a : α) (p r : Bytes), get (p ++ (put a ++ r)) p.length = some (a, p.length + (put a).length)

/-- `n` fields from `off` on. -/
def getMany (get : Bytes → ℕ → Option (α × ℕ)) (buf : Bytes) :
    (n off : ℕ) → Option (List α × ℕ)
  | 0, off => some ([], off)
  | n + 1, off => do
    let (a, off) ← get buf off
    let (v, off) ← getMany get buf n off
    some (a :: v, off)

/-- Fields behind their number, cast to 16 bits. -/
def putCounted (put : α → Bytes) (v : List α) : Bytes := toLe 2 v.length ++ v.flatMap put

/-- As many fields from `off` on as the 16-bit count in front of them says. -/
def getCounted (get : Bytes → ℕ → Option (α × ℕ)) (buf : Bytes) (off : ℕ) :
    Option (List α × ℕ) := do
  let count ← slice? buf off 2
  getMany get buf (fromLe count) (off + 2)

/-- Fields that are read back one by one, each as its image under `f`, are read back
    together. -/
theorem getMany_flatMap_map {β : Type} {put : β → Bytes} {f : β → α} (v : List β)
    (h : ∀ b ∈ v, ∀ p r : Bytes,
      get (p ++ (put b ++ r)) p.length = some (f b, p.length + (put b).length)) (p r : Bytes) :
    getMany get (p ++ (v.flatMap put ++ r)) v.length p.length =
      some (v.map f, p.length + (v.flatMap put).length) := by
  induction v generalizing p with
  | nil => rfl
  | cons b v ih =>
    have hfirst := h b (List.mem_cons_self ..) p (v.flatMap put ++ r)
    have hrest := ih (fun c hc => h c (List.mem_cons_of_mem _ hc)) (p ++ put b)
    rw [List.length_append, List.append_assoc] at hrest
    rw [List.flatMap_cons, List.append_assoc, List.length_cons, getMany, hfirst,
      Option.bind_eq_bind, Option.bind_some]
    dsimp only
    rw [hrest, Option.bind_eq_bind, Option.bind_some, List.length_append, Nat.add_assoc,
      List.map_cons]

theorem getMany_flatMap (h : ReadsBack put get) (v : List α) (p r : Bytes) :
    getMany get (p ++ (v.flatMap put ++ r)) v.length p.length =
      some (v, p.length + (v.flatMap put).length) := by
  have hmap := getMany_flatMap_map v (fun a _ => h a) p r
  rw [List.map_id'] at hmap
  exact hmap

theorem getCounted_putCounted (h : ReadsBack put get) (v : List α) (p r : Bytes) :
    ∃ off, getCounted get (p ++ (putCounted put v ++ r)) p.length =
      some (v.take (v.length % 65536), off) := by
  set n := v.length % 65536 with hn
  have hcount : slice? (p ++ (putCounted put v ++ r)) p.length 2 = some (toLe 2 v.length) := by
    rw [putCounted, List.append_assoc]
    exact slice?_append rfl (length_toLe ..).symm
  have hbuf : p ++ (putCounted put v ++ r) =
      (p ++ toLe 2 v.length) ++ ((v.take n).flatMap put ++ ((v.drop n).flatMap put ++ r)) := by
    simp only [putCounted, List.append_assoc]
    rw [← List.append_assoc (List.flatMap _ _), ← List.flatMap_append, List.take_append_drop]
  have htake : (v.take n).length = n := by
    rw [List.length_take]
    exact min_eq_left (Nat.mod_le ..)
  have hmany := getMany_flatMap h (v.take n) (p ++ toLe 2 v.length) ((v.drop n).flatMap put ++ r)
  rw [← hbuf, htake, List.length_append, length_toLe] at hmany
  refine ⟨p.length + 2 + ((v.take n).flatMap put).length, ?_⟩
  rw [getCounted, hcount, Option.bind_eq_bind, Option.bind_some, fromLe_toLe]
  exact hmany

/-- A reader whose offset stays within the buffer. -/
def InRange (get : Bytes → ℕ → Option (α × ℕ)) : Prop :=
  ∀ buf off a off', get buf off = some (a, off') → off' ≤ buf.length

theorem InRange.many (h : InRange get) {buf : Bytes} {n off off' : ℕ} {v : List α}
    (hread : getMany get buf n off = some (v, off')) (hoff : off ≤ buf.length) :
    off' ≤ buf.length := by
  induction n generalizing off v with
  | zero => cases hread; exact hoff
  | succ n ih =>
    simp only [getMany, Option.bind_eq_bind, Option.bind_eq_some_iff, Prod.exists] at hread
    obtain ⟨a, off₁, hfirst, v', off₂, hrest, heq⟩ := hread
    cases heq
    exact ih hrest (h buf off a off₁ hfirst)

theorem InRange.counted (h : InRange get) : InRange (getCounted get) := by
  intro buf off v off' hread
  simp only [getCounted, Option.bind_eq_bind, Option.bind_eq_some_iff] at hread
  obtain ⟨count, hcount, hread⟩ := hread
  exact h.many hread (le_of_slice? hcount)

/-- `get` reads back what `put` wrote, whatever surrounds it, of the values that fit and of
    no others. -/
structure ReadsBackIff (fits : α → Prop) (put : α → Bytes)
    (get : Bytes → ℕ → Option (α × ℕ)) : Prop where
  read : ∀ a, fits a → ∀ p r : Bytes,
    get (p ++ (put a ++ r)) p.length = some (a, p.length + (put a).length)
  fits : ∀ a (p r : Bytes) off, get (p ++ (put a ++ r)) p.length = some (a, off) → fits a

theorem length_of_getMany {buf : Bytes} {n off off' : ℕ} {v : List α}
    (h : getMany get buf n off = some (v, off')) : v.length = n := by
  induction n generalizing off v with
  | zero => cases h; rfl
  | succ n ih =>
    simp only [getMany, Option.bind_eq_bind, Option.bind_eq_some_iff, Prod.exists] at h
    obtain ⟨a, off₁, -, v', off₂, hrest, heq⟩ := h
    cases heq
    rw [List.length_cons, ih hrest]

theorem ReadsBackIff.forall_fits {fits : α → Prop} (h : ReadsBackIff fits put get) {v : List α}
    {p r : Bytes} {off : ℕ}
    (hread : getMany get (p ++ (v.flatMap put ++ r)) v.length p.length = some (v, off)) :
    ∀ a ∈ v, fits a := by
  induction v generalizing p with
  | nil => exact fun a ha => absurd ha List.not_mem_nil
  | cons a v ih =>
    rw [List.flatMap_cons, List.append_assoc] at hread
    simp only [List.length_cons, getMany, Option.bind_eq_bind, Option.bind_eq_some_iff,
      Prod.exists] at hread
    obtain ⟨a', off₁, hfirst, v', off₂, hrest, heq⟩ := hread
    cases heq
    have ha := h.fits a p _ _ hfirst
    rw [h.read a ha] at hfirst
    cases hfirst
    rw [← List.append_assoc, ← List.length_append] at hrest
    exact List.forall_mem_cons.mpr ⟨ha, ih hrest⟩

theorem ReadsBackIff.counted {fits : α → Prop} (h : ReadsBackIff fits put get) :
    ReadsBackIff (fun v : List α => v.length < 65536 ∧ ∀ a ∈ v, fits a) (putCounted put)
      (getCounted get) := by
  have hbuf (v : List α) (p r : Bytes) : p ++ (putCounted put v ++ r) =
      (p ++ toLe 2 v.length) ++ (v.flatMap put ++ r) := by
    simp only [putCounted, List.append_assoc]
  have hcount (v : List α) (p r : Bytes) :
      slice? (p ++ (putCounted put v ++ r)) p.length 2 = some (toLe 2 v.length) := by
    rw [putCounted, List.append_assoc]
    exact slice?_append rfl (length_toLe ..).symm
  have hget (v : List α) (p r : Bytes) : getCounted get (p ++ (putCounted put v ++ r)) p.length =
      getMany get ((p ++ toLe 2 v.length) ++ (v.flatMap put ++ r)) (v.length % 65536)
        (p ++ toLe 2 v.length).length := by
    rw [getCounted, hcount, Option.bind_eq_bind, Option.bind_some, fromLe_toLe, hbuf,
      List.length_append, length_toLe]
    rfl
  refine ⟨?_, ?_⟩
  · rintro v ⟨hlen, hfits⟩ p r
    have hmany := getMany_flatMap_map v (fun a ha => h.read a (hfits a ha)) (p ++ toLe 2 v.length) r
    rw [hget, Nat.mod_eq_of_lt hlen, hmany, List.map_id']
    simp only [putCounted, List.length_append, length_toLe, Nat.add_assoc]
  · intro v p r off hread
    rw [hget] at hread
    have hlen := length_of_getMany hread
    have hlt : v.length < 65536 := by omega
    rw [Nat.mod_eq_of_lt hlt] at hread
    exact ⟨hlt, h.forall_fits hread⟩

end

/-! ## Text -/

/-- `s.as_bytes()`: the UTF-8 bytes of a string. -/
def asBytes (s : String) : Bytes := s.toByteArray.data.toList

/-- `std::str::from_utf8(b).ok()`. -/
def fromUtf8 (b : Bytes) : Option String := String.fromUTF8? ⟨b.toArray⟩

@[simp] theorem fromUtf8_asBytes (s : String) : fromUtf8 (asBytes s) = some s := by
  have hs : (⟨(asBytes s).toArray⟩ : ByteArray) = s.toByteArray := by simp [asBytes]
  rw [fromUtf8, hs, String.fromUTF8?, dif_pos s.isValidUTF8]
  rfl

theorem asBytes_of_fromUtf8 {b : Bytes} {s : String} (h : fromUtf8 b = some s) :
    asBytes s = b := by
  unfold fromUtf8 String.fromUTF8? at h
  split_ifs at h with hv
  cases h
  simp [asBytes, String.fromUTF8]

/-- Text behind its length, cast to 16 bits. -/
def putText (s : String) : Bytes := toLe 2 (asBytes s).length ++ asBytes s

/-- The text from `off` on, with the offset behind it. -/
def getText (buf : Bytes) (off : ℕ) : Option (String × ℕ) := do
  let len ← slice? buf off 2
  let bytes ← slice? buf (off + 2) (fromLe len)
  let s ← fromUtf8 bytes
  some (s, off + 2 + fromLe len)

/-- Whatever text is read has the length in front of it. -/
theorem length_of_getText {s : String} {p r : Bytes} {n off : ℕ}
    (h : getText (p ++ (toLe 2 n ++ r)) p.length = some (s, off)) :
    (asBytes s).length = n % 65536 := by
  have hlen : slice? (p ++ (toLe 2 n ++ r)) p.length 2 = some (toLe 2 n) :=
    slice?_append rfl (length_toLe ..).symm
  rw [getText, hlen, Option.bind_eq_bind, Option.bind_some, fromLe_toLe] at h
  obtain ⟨bytes, hbytes, h⟩ := Option.bind_eq_some_iff.mp h
  obtain ⟨t, ht, h⟩ := Option.bind_eq_some_iff.mp h
  cases h
  rw [asBytes_of_fromUtf8 ht]
  exact length_of_slice? hbytes

theorem readsBackIff_putText :
    ReadsBackIff (fun s => (asBytes s).length < 65536) putText getText := by
  refine ⟨?_, ?_⟩
  · intro s hs p r
    have hlen : slice? (p ++ (putText s ++ r)) p.length 2 = some (toLe 2 (asBytes s).length) := by
      rw [putText, List.append_assoc]
      exact slice?_append rfl (length_toLe ..).symm
    have hval : fromLe (toLe 2 (asBytes s).length) = (asBytes s).length := fromLe_toLe_of_lt hs
    have hbytes : slice? (p ++ (putText s ++ r)) (p.length + 2) (asBytes s).length =
        some (asBytes s) := by
      rw [putText, List.append_assoc, ← List.append_assoc p]
      exact slice?_append (by simp) rfl
    simp only [getText, hlen, Option.bind_eq_bind, Option.bind_some, hval, hbytes, fromUtf8_asBytes]
    simp [putText, Nat.add_assoc]
  · intro s p r off hread
    rw [putText, List.append_assoc] at hread
    have hfield := length_of_getText hread
    omega

end BeamSocket.Lib
