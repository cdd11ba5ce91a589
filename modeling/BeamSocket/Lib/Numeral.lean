import Mathlib.Data.Nat.Digits.Defs
import Mathlib.Data.Nat.Digits.Lemmas

/-!
# Numerals in a radix

The digits of a number in a radix up to 36 as characters, and the reading of
them: `n.toString(radix)` and `parseInt(s, radix)` as ECMAScript has them. How
`parseInt` rounds a number that has no exact representation is left to the
implementation there, and is a parameter here (`ParseIntApi`).

* `parseInt_numeral`: a numeral is read back.
* `notMem_numeral`, `numeral_inj`: a numeral consists of digits, and is of one number.
* `parseInt_of_notMem`: what is read of a text without a minus sign.
* `canonicalNumeral_iff`: which texts are numerals.
-/

namespace BeamSocket.Lib

/-- The digit with the given value, in lower case. -/
def digitChar (d : ℕ) : Char := Char.ofNat (if d < 10 then 48 + d else 87 + d)

/-- The value of a digit in either case. -/
def digitVal (c : Char) : Option ℕ :=
  if '0' ≤ c ∧ c ≤ '9' then some (c.toNat - 48)
  else if 'a' ≤ c ∧ c ≤ 'z' then some (c.toNat - 87)
  else if 'A' ≤ c ∧ c ≤ 'Z' then some (c.toNat - 55)
  else none

/-- `n.toString(radix)`. -/
def numeral (radix n : ℕ) : List Char :=
  if n = 0 then ['0'] else (Nat.digits radix n).reverse.map digitChar

/-- The values of the digits a text starts with. -/
def leadingDigits (radix : ℕ) : List Char → List ℕ
  | [] => []
  | c :: cs =>
    match digitVal c with
    | none => []
    | some d => if d < radix then d :: leadingDigits radix cs else []

/-- `WhiteSpace` and `LineTerminator`. -/
def isSpace (c : Char) : Bool :=
  c.toNat ∈ [0x9, 0xa, 0xb, 0xc, 0xd, 0x20, 0xa0, 0x1680, 0x2028, 0x2029, 0x202f, 0x205f, 0x3000,
    0xfeff] || (0x2000 ≤ c.toNat && c.toNat ≤ 0x200a)

/-- The number that digits denote, the most significant first. -/
def digitsValue (radix : ℕ) (ds : List ℕ) : ℕ := ds.foldl (fun n d => n * radix + d) 0

/-- What an implementation makes of the digits it reads; `none` is `Infinity`. ECMAScript has the
    value approximated by the implementation unless the radix is ten or a power of two. The
    integers below `2 ^ 53` are numbers, and are read as they are. -/
structure ParseIntApi (radix : ℕ) where
  value : List ℕ → Option ℕ
  value_of_lt : ∀ ds, digitsValue radix ds < 2 ^ 53 → value ds = some (digitsValue radix ds)

/-- The numbers that `parseInt` returns. -/
inductive Number
  | nan
  | infinity (negative : Bool)
  | int (n : ℤ)
  deriving DecidableEq

/-- The digits behind an optional sign. -/
def parseDigits {radix : ℕ} (js : ParseIntApi radix) (negative : Bool) (s : List Char) : Number :=
  match leadingDigits radix s with
  | [] => .nan
  | d :: ds =>
    match js.value (d :: ds) with
    | none => .infinity negative
    | some n => .int (if negative then -(n : ℤ) else n)

/-- `parseInt(s, radix)`. -/
def parseInt {radix : ℕ} (js : ParseIntApi radix) (s : List Char) : Number :=
  match s.dropWhile isSpace with
  | '-' :: s => parseDigits js true s
  | '+' :: s => parseDigits js false s
  | s => parseDigits js false s

/-! ## Reading back -/

/-- What a digit character is and is not. -/
theorem digitChar_facts {d : ℕ} (h : d < 36) : digitVal (digitChar d) = some d ∧
    isSpace (digitChar d) = false ∧ digitChar d ≠ '-' ∧ digitChar d ≠ '+' := by
  have hall : ∀ d : Fin 36, digitVal (digitChar d) = some d.val ∧
      isSpace (digitChar d) = false ∧ digitChar d ≠ '-' ∧ digitChar d ≠ '+' := by
    decide +kernel
  exact hall ⟨d, h⟩

variable {radix : ℕ}

theorem leadingDigits_map (hle : radix ≤ 36) {ds : List ℕ} (hds : ∀ d ∈ ds, d < radix) :
    leadingDigits radix (ds.map digitChar) = ds := by
  induction ds with
  | nil => rfl
  | cons d ds ih =>
    have hd : d < radix := hds d (List.mem_cons_self ..)
    have hval := (digitChar_facts (by omega : d < 36)).1
    rw [List.map_cons, leadingDigits, hval]
    dsimp only
    rw [if_pos hd, ih fun d' hd' => hds d' (List.mem_cons_of_mem _ hd')]

theorem digitsValue_eq (ds : List ℕ) :
    digitsValue radix ds = Nat.ofDigits radix ds.reverse := by
  rw [digitsValue, ← List.foldr_reverse]
  induction ds.reverse with
  | nil => rfl
  | cons d ds ih => rw [List.foldr_cons, ih, Nat.ofDigits_cons, Nat.mul_comm, Nat.add_comm]

/-- The digits of a numeral, most significant first. -/
theorem numeral_eq (hradix : 1 < radix) (n : ℕ) : ∃ ds : List ℕ, ds ≠ [] ∧ (∀ d ∈ ds, d < radix) ∧
    numeral radix n = ds.map digitChar ∧ digitsValue radix ds = n := by
  by_cases hn : n = 0
  · refine ⟨[0], by simp, by simp; omega, ?_, ?_⟩
    · rw [numeral, if_pos hn]
      rfl
    · simp [digitsValue, hn]
  · refine ⟨(Nat.digits radix n).reverse, ?_, ?_, ?_, ?_⟩
    · rw [ne_eq, List.reverse_eq_nil_iff, Nat.digits_eq_nil_iff_eq_zero]
      exact hn
    · intro d hd
      exact Nat.digits_lt_base hradix (List.mem_reverse.mp hd)
    · rw [numeral, if_neg hn]
    · rw [digitsValue_eq, List.reverse_reverse, Nat.ofDigits_digits]

theorem leadingDigits_numeral (hradix : 1 < radix) (hle : radix ≤ 36) (n : ℕ) :
    leadingDigits radix (numeral radix n) ≠ [] ∧
      digitsValue radix (leadingDigits radix (numeral radix n)) = n := by
  obtain ⟨ds, hne, hlt, hnumeral, hvalue⟩ := numeral_eq hradix n
  rw [hnumeral, leadingDigits_map hle hlt]
  exact ⟨hne, hvalue⟩

theorem numeral_inj (hradix : 1 < radix) (hle : radix ≤ 36) {m n : ℕ}
    (h : numeral radix m = numeral radix n) : m = n := by
  have hm := (leadingDigits_numeral hradix hle m).2
  rw [h, (leadingDigits_numeral hradix hle n).2] at hm
  exact hm.symm

/-- A character that is not a digit does not occur in a numeral. -/
theorem notMem_numeral (hradix : 1 < radix) (hle : radix ≤ 36) (n : ℕ) {c : Char}
    (hc : digitVal c = none) : c ∉ numeral radix n := by
  obtain ⟨ds, -, hlt, hnumeral, -⟩ := numeral_eq hradix n
  rw [hnumeral, List.mem_map]
  rintro ⟨d, hd, rfl⟩
  rw [(digitChar_facts (lt_of_lt_of_le (hlt d hd) hle)).1] at hc
  cases hc

/-! ## What is read of a text -/

/-- A text behind its whitespace and a plus sign. -/
def unsigned (s : List Char) : List Char :=
  match s.dropWhile isSpace with
  | '+' :: rest => rest
  | rest => rest

/-- A text without a minus sign is read from its first digit on, if there is one. -/
theorem parseInt_of_notMem (js : ParseIntApi radix) {s : List Char} (h : '-' ∉ s) :
    parseInt js s = parseDigits js false (unsigned s) := by
  have hsub : ∀ c ∈ s.dropWhile isSpace, c ∈ s := fun c hc =>
    (List.dropWhile_suffix _).subset hc
  unfold parseInt unsigned
  cases hdrop : s.dropWhile isSpace with
  | nil => rfl
  | cons c rest =>
    have hminus : c ≠ '-' := by
      rintro rfl
      exact h (hsub '-' (by rw [hdrop]; exact List.mem_cons_self))
    by_cases hplus : c = '+'
    · rw [hplus]
      rfl
    · split
      · next heq => exact absurd (List.cons.inj heq).1 hminus
      · next heq => exact absurd (List.cons.inj heq).1 hplus
      · split
        · next heq => exact absurd (List.cons.inj heq).1 hplus
        · rfl

theorem unsigned_numeral (hradix : 1 < radix) (hle : radix ≤ 36) (n : ℕ) :
    unsigned (numeral radix n) = numeral radix n := by
  obtain ⟨ds, hne, hlt, hnumeral, -⟩ := numeral_eq hradix n
  rw [hnumeral]
  cases ds with
  | nil => exact absurd rfl hne
  | cons d ds =>
    obtain ⟨-, hspace, -, hplus⟩ := digitChar_facts
      (lt_of_lt_of_le (hlt d (List.mem_cons_self ..)) hle)
    unfold unsigned
    rw [List.map_cons, List.dropWhile_cons, hspace, if_neg Bool.false_ne_true]
    split
    · next heq => exact absurd (List.cons.inj heq).1 hplus
    · rfl

theorem parseInt_numeral (js : ParseIntApi radix) (hradix : 1 < radix) (hle : radix ≤ 36) {n : ℕ}
    (hn : n < 2 ^ 53) : parseInt js (numeral radix n) = .int n := by
  obtain ⟨hne, hvalue⟩ := leadingDigits_numeral hradix hle n
  rw [parseInt_of_notMem js (notMem_numeral hradix hle n (by decide)),
    unsigned_numeral hradix hle, parseDigits]
  have hread := js.value_of_lt _ (hvalue.symm ▸ hn)
  cases hdigits : leadingDigits radix (numeral radix n) with
  | nil => exact absurd hdigits hne
  | cons d ds =>
    rw [hdigits] at hread hvalue
    dsimp only
    rw [hread, hvalue]
    rfl

/-! ## Canonical numerals -/

/-- The number that the digits at the beginning of a text denote. -/
def leadingValue (radix : ℕ) (s : List Char) : ℕ :=
  digitsValue radix (leadingDigits radix s)

/-- A digit in lower case. -/
def IsNumeralChar (radix : ℕ) (c : Char) : Prop :=
  (∃ d ∈ digitVal c, d < radix) ∧ ¬('A' ≤ c ∧ c ≤ 'Z')

/-- A text of digits in lower case, without leading zeros, for a number below `bound`. -/
structure CanonicalNumeral (radix bound : ℕ) (s : List Char) : Prop where
  ne_nil : s ≠ []
  digits : ∀ c ∈ s, IsNumeralChar radix c
  zero : s.head? = some '0' → s.length = 1
  lt : leadingValue radix s < bound

theorem digitChar_of_digitVal {c : Char} {d : ℕ} (h : digitVal c = some d)
    (hupper : ¬('A' ≤ c ∧ c ≤ 'Z')) : digitChar d = c := by
  unfold digitVal at h
  split_ifs at h with hdigit hlower
  · have hle : 48 ≤ c.toNat := hdigit.1
    have hge : c.toNat ≤ 57 := hdigit.2
    cases h
    rw [digitChar, if_pos (by omega), Nat.add_sub_cancel' hle, Char.ofNat_toNat]
  · have hle : 97 ≤ c.toNat := hlower.1
    cases h
    rw [digitChar, if_neg (by omega), Nat.add_sub_cancel' (by omega), Char.ofNat_toNat]

theorem isNumeralChar_iff (hle : radix ≤ 36) {c : Char} :
    IsNumeralChar radix c ↔ ∃ d < radix, digitChar d = c := by
  constructor
  · rintro ⟨⟨d, hd, hlt⟩, hupper⟩
    exact ⟨d, hlt, digitChar_of_digitVal hd hupper⟩
  · rintro ⟨d, hlt, rfl⟩
    have hall : ∀ d : Fin 36, ¬('A' ≤ digitChar d ∧ digitChar d ≤ 'Z') := by decide +kernel
    exact ⟨⟨d, (digitChar_facts (by omega)).1, hlt⟩, hall ⟨d, by omega⟩⟩

/-- Digits in lower case are the characters of a list of digits. -/
theorem exists_digits (hle : radix ≤ 36) {s : List Char} (h : ∀ c ∈ s, IsNumeralChar radix c) :
    ∃ ds : List ℕ, (∀ d ∈ ds, d < radix) ∧ s = ds.map digitChar := by
  induction s with
  | nil => exact ⟨[], by simp, rfl⟩
  | cons c s ih =>
    obtain ⟨ds, hds, hs⟩ := ih fun c hc => h c (List.mem_cons_of_mem _ hc)
    obtain ⟨d, hd, hc⟩ := (isNumeralChar_iff hle).mp (h c List.mem_cons_self)
    refine ⟨d :: ds, ?_, by rw [List.map_cons, hc, hs]⟩
    simpa using ⟨hd, hds⟩

/-- Only the numeral of zero begins with a zero. -/
theorem length_of_head_zero (hradix : 1 < radix) (hle : radix ≤ 36) (n : ℕ)
    (h : (numeral radix n).head? = some '0') : (numeral radix n).length = 1 := by
  by_cases hn : n = 0
  · rw [numeral, if_pos hn]
    rfl
  · rw [numeral, if_neg hn, List.head?_map, List.head?_reverse,
      List.getLast?_eq_some_getLast (Nat.digits_ne_nil_iff_ne_zero.mpr hn)] at h
    have hlast := Nat.getLast_digit_ne_zero radix hn
    have hlt := Nat.digits_lt_base hradix (List.getLast_mem (Nat.digits_ne_nil_iff_ne_zero.mpr hn))
    have hval := (digitChar_facts (lt_of_lt_of_le hlt hle)).1
    rw [Option.some.inj h] at hval
    exact absurd (Option.some.inj hval).symm hlast

theorem canonicalNumeral_iff (hradix : 1 < radix) (hle : radix ≤ 36) {bound : ℕ} {s : List Char} :
    CanonicalNumeral radix bound s ↔ ∃ n < bound, s = numeral radix n := by
  constructor
  · intro h
    obtain ⟨ds, hds, rfl⟩ := exists_digits hle h.digits
    have hvalue : leadingValue radix (ds.map digitChar) = Nat.ofDigits radix ds.reverse := by
      rw [leadingValue, leadingDigits_map hle hds, digitsValue_eq]
    refine ⟨leadingValue radix (ds.map digitChar), h.lt, ?_⟩
    cases ds with
    | nil => exact absurd rfl h.ne_nil
    | cons d ds =>
      by_cases hd : d = 0
      · -- The text is the numeral of zero.
        subst hd
        have hnil : ds = [] := by
          have hlength := h.zero rfl
          rw [List.length_map, List.length_cons] at hlength
          exact List.eq_nil_of_length_eq_zero (by omega)
        subst hnil
        rw [hvalue]
        simp [numeral, digitChar]
      · have hdigits : Nat.digits radix (Nat.ofDigits radix (d :: ds).reverse) =
            (d :: ds).reverse := by
          refine Nat.digits_ofDigits radix hradix _ (fun d hd => hds d (List.mem_reverse.mp hd)) ?_
          intro hne
          rwa [List.getLast_reverse]
        have hne : Nat.ofDigits radix (d :: ds).reverse ≠ 0 := by
          intro hzero
          rw [hzero, Nat.digits_zero] at hdigits
          exact absurd hdigits.symm (by simp)
        rw [hvalue, numeral, if_neg hne, hdigits, List.reverse_reverse]
  · rintro ⟨n, hn, rfl⟩
    obtain ⟨ds, hne, hlt, hnumeral, hvalue⟩ := numeral_eq hradix n
    refine ⟨?_, ?_, ?_, ?_⟩
    · rw [hnumeral]
      simpa using hne
    · rw [hnumeral]
      intro c hc
      obtain ⟨d, hd, rfl⟩ := List.mem_map.mp hc
      exact (isNumeralChar_iff hle).mpr ⟨d, hlt d hd, rfl⟩
    · exact length_of_head_zero hradix hle n
    · rw [leadingValue, hnumeral, leadingDigits_map hle hlt, hvalue]
      exact hn

/-! ## An implementation -/

/-- The number of units nearest to `n`, the even one of two. -/
def nearest (n ulp : ℕ) : ℕ :=
  if 2 * (n % ulp) > ulp ∨ (2 * (n % ulp) = ulp ∧ n / ulp % 2 = 1) then n / ulp + 1 else n / ulp

/-- The integer nearest to `n` in a binary format where `p` bits follow the leading one; from
    `2 ^ emax` on it is `none`, the `Infinity` of the format. -/
def toBinary (p emax n : ℕ) : Option ℕ :=
  let ulp := 2 ^ (n.log2 - p)
  if nearest n ulp * ulp < 2 ^ emax then some (nearest n ulp * ulp) else none

theorem toBinary_of_lt {p emax n : ℕ} (h : n < 2 ^ (p + 1)) (hle : p + 1 ≤ emax) :
    toBinary p emax n = some n := by
  have hexp : n.log2 - p = 0 := by
    by_cases hn : n = 0
    · rw [hn]
      exact Nat.zero_sub p
    · have := (Nat.log2_lt hn).mpr h
      omega
  have hbound : n < 2 ^ emax := h.trans_le (Nat.pow_le_pow_right (by decide) hle)
  have hone : nearest n 1 = n := by simp [nearest, Nat.mod_one]
  unfold toBinary
  dsimp only
  rw [hexp, pow_zero, hone, Nat.mul_one, if_pos hbound]

/-- The implementation that rounds once, to the nearest double. -/
def ParseIntApi.rounding (radix : ℕ) : ParseIntApi radix where
  value ds := toBinary 52 1024 (digitsValue radix ds)
  value_of_lt _ h := toBinary_of_lt h (by decide)

end BeamSocket.Lib
