import Lox.Number.Numeral
import Lox.Proofs.Numbers.Rounding
import Lox.Proofs.Numbers.Signs

/-!
# Numerals

A numeral is a whole number over a power of ten. The quotient is taken of the two as doubles where
both are exact, and of the whole numbers elsewhere, with as many bits as rounding needs. Main
statement: a numeral in the span of a double stands for this double.
-/

namespace Lox.Number

open Float.Model (Format UnpackedFloat totalExponent)
open Float.Model.UnpackedFloat

/-! ## Quotients of whole numbers -/

/-- A mantissa with the accuracy of a fraction stands for the sum with the fraction. -/
theorem stands_fraction (m : ℕ) {k d : ℕ} (less : k < d) :
    Stands (.ofMantissaAndAccuracy m (accuracyOfFraction k d)) (m + k / d) := by
  have dPositive : (0 : ℚ) < d := by exact_mod_cast Nat.zero_lt_of_lt less
  by_cases none : k = 0
  · rw [none, accuracyOfFraction, if_pos rfl, Nat.cast_zero, zero_div, add_zero]
    exact stands_exact m
  · have some : (0 : ℚ) < k / d := div_pos (by exact_mod_cast Nat.pos_of_ne_zero none) dPositive
    have notAll : (k : ℚ) / d < 1 := (div_lt_one dPositive).2 (by exact_mod_cast less)
    have twice : 2 * ((k : ℚ) / d) = (2 * k : ℕ) / d := by
      rw [Nat.cast_mul, Nat.cast_ofNat, mul_div_assoc]
    have stands (round sticky : Bool) (atLeast : (round.toNat : ℚ) ≤ 2 * (k / d))
        (below : 2 * ((k : ℚ) / d) < round.toNat + 1)
        (isSticky : sticky = false ↔ 2 * ((k : ℚ) / d) = round.toNat) :
        Stands ⟨m, round, sticky⟩ (m + k / d) := by
      refine ⟨?_, ?_, ?_⟩ <;> unfold doubled <;> push_cast
      · linarith
      · linarith
      · rw [mul_add, add_right_inj]
        exact isSticky
    rw [accuracyOfFraction, if_neg none]
    cases half : compare (2 * k) d with
    | lt =>
      have below : 2 * ((k : ℚ) / d) < 1 := by
        rw [twice, div_lt_one dPositive]
        exact_mod_cast Nat.compare_eq_lt.1 half
      refine stands false true ?_ ?_ ?_
      · simpa using some.le
      · simpa using below
      · simpa using some.ne'
    | eq =>
      have same : 2 * ((k : ℚ) / d) = 1 := by
        rw [twice, Nat.compare_eq_eq.1 half, div_self dPositive.ne']
      refine stands true false ?_ ?_ ?_ <;> simp [same]
    | gt =>
      have above : 1 < 2 * ((k : ℚ) / d) := by
        rw [twice, one_lt_div dPositive]
        exact_mod_cast Nat.compare_eq_gt.1 half
      refine stands true true ?_ ?_ ?_
      · simpa using above.le
      · simp only [Bool.toNat_true, Nat.cast_one]
        linarith
      · simpa using above.ne'

/-- A quotient with the accuracy of what is left stands for the fraction. -/
theorem stands_quotient (n : ℕ) {d : ℕ} (positive : 0 < d) :
    Stands (.ofMantissaAndAccuracy (n / d) (accuracyOfFraction (n % d) d)) (n / d) := by
  have split : (n : ℚ) = d * (n / d : ℕ) + (n % d : ℕ) := by
    exact_mod_cast (Nat.div_add_mod n d).symm
  have dPositive : (0 : ℚ) < d := by exact_mod_cast positive
  have fraction : (n : ℚ) / d = (n / d : ℕ) + (n % d : ℕ) / d := by
    conv_lhs => rw [split]
    field_simp
  rw [fraction]
  exact stands_fraction _ (Nat.mod_lt n positive)

/-- A numerator is shifted far enough for a quotient with as many bits as a double has. -/
theorem le_log2_div {m₁ m₂ s : ℕ} (positive₁ : 0 < m₁) (positive₂ : 0 < m₂)
    (shifted : m₂.log2 + 53 ≤ m₁.log2 + s) : 52 ≤ (m₁ <<< s / m₂).log2 := by
  have quotient : 2 ^ 52 ≤ m₁ <<< s / m₂ := by
    rw [Nat.le_div_iff_mul_le positive₂, Nat.shiftLeft_eq]
    calc 2 ^ 52 * m₂ ≤ 2 ^ 52 * 2 ^ (m₂.log2 + 1) := Nat.mul_le_mul_left _ Nat.lt_log2_self.le
      _ = 2 ^ (m₂.log2 + 53) := by ring
      _ ≤ 2 ^ (m₁.log2 + s) := Nat.pow_le_pow_right two_pos shifted
      _ = 2 ^ m₁.log2 * 2 ^ s := pow_add _ _ _
      _ ≤ m₁ * 2 ^ s := Nat.mul_le_mul_right _ (Nat.log2_self_le positive₁.ne')
  have notZero : m₁ <<< s / m₂ ≠ 0 := (Nat.lt_of_lt_of_le (by norm_num) quotient).ne'
  exact (Nat.le_log2 notZero).2 quotient

/-- The numerator is shifted, unless it is long enough, and the mantissa of the quotient is that of a
double or its exponent the least. -/
theorem exists_divCore {m₁ m₂ : ℕ} (e₁ e₂ : ℤ) (positive₁ : 0 < m₁) (positive₂ : 0 < m₂) :
    ∃ (s : ℕ) (e : ℤ), divCore .binary64 m₁ e₁ m₂ e₂ =
        (m₁ <<< s / m₂, e, accuracyOfFraction (m₁ <<< s % m₂) m₂) ∧
      e + s = e₁ - e₂ ∧ e ≤ target (m₁ <<< s / m₂) e := by
  let wanted := Format.binary64.targetExponent (totalExponent m₁ e₁ - totalExponent m₂ e₂)
  have isWanted : wanted = max (m₁.log2 + e₁ - (m₂.log2 + e₂) - 53) (-1074) := by
    have bits : (Format.binary64.mantissaBits : ℤ) = 53 := rfl
    have least : Format.binary64.minExponent = -1074 := rfl
    simp only [wanted, Format.targetExponent, totalExponent, bits, least]
    congr 1
    ring
  let e := min (e₁ - e₂) wanted
  refine ⟨(e₁ - e₂ - e).toNat, e, rfl, by omega, ?_⟩
  rw [target_eq]
  by_cases isLeast : e ≤ -1074
  · exact le_max_of_le_right isLeast
  · have long : 52 ≤ (m₁ <<< (e₁ - e₂ - e).toNat / m₂).log2 :=
      le_log2_div positive₁ positive₂ (by omega)
    omega

/-- If a quotient is in the span of a double, division gives this double. -/
theorem div_eq {b : Binary} (canonical : b.Canonical) (positive : 0 < b.mantissa) {m₁ m₂ : ℕ}
    {e₁ e₂ : ℤ} (positive₁ : 0 < m₁) (positive₂ : 0 < m₂)
    (inside : b.span.Contains (m₁ * 2 ^ e₁ / (m₂ * 2 ^ e₂))) :
    div .binary64 (.finite .positive m₁ e₁ positive₁) (.finite .positive m₂ e₂ positive₂) =
      .finite .positive b.mantissa b.exponent positive := by
  obtain ⟨s, e, isCore, shifted, long⟩ := exists_divCore e₁ e₂ positive₁ positive₂
  have value : (m₁ * 2 ^ e₁ / (m₂ * 2 ^ e₂) : ℚ) / 2 ^ e = (m₁ <<< s : ℕ) / m₂ := by
    have power : (2 : ℚ) ^ e₁ = 2 ^ e * 2 ^ s * 2 ^ e₂ := by
      rw [← zpow_natCast, ← zpow_add₀ two_ne_zero, ← zpow_add₀ two_ne_zero]
      congr 1
      omega
    have positive₂ : (0 : ℚ) < m₂ := by exact_mod_cast positive₂
    rw [Nat.shiftLeft_eq, power]
    push_cast
    field_simp
  have stands := stands_quotient (m₁ <<< s) positive₂
  rw [← value] at stands
  rw [div, isCore]
  exact roundWithAccuracy_eq canonical positive stands long inside _

/-! ## Over a power of ten -/

/-- A number in the span of a double is not below half of the least double. -/
theorem Binary.least_le_of_contains {b : Binary} (canonical : b.Canonical)
    (positive : 0 < b.mantissa) {r : ℚ} (inside : b.span.Contains r) : 2 ^ (-1075 : ℤ) ≤ r := by
  have low := ((b.contains_span_iff positive).1 inside).1
  have quarters : (b.quartersBelow : ℚ) ≤ 2 := by exact_mod_cast b.quartersBelow_le
  have one : (1 : ℚ) ≤ b.mantissa := by exact_mod_cast positive
  have half : 2⁻¹ ≤ r / 2 ^ b.exponent := by linarith
  calc (2 : ℚ) ^ (-1075 : ℤ) ≤ 2 ^ (-1 + b.exponent) :=
        zpow_le_zpow_right₀ one_le_two (by have := canonical.least; omega)
    _ = 2⁻¹ * 2 ^ b.exponent := by rw [zpow_add₀ two_ne_zero, zpow_neg_one]
    _ ≤ r := (le_div_iff₀ (zpow_pos two_pos _)).1 half

/-- A fraction in the span of a double is not zero, and its denominator is not too long. -/
theorem pos_and_le_of_contains {b : Binary} (canonical : b.Canonical) (positive : 0 < b.mantissa)
    {m k : ℕ} (inside : b.span.Contains (m / 10 ^ k)) : 0 < m ∧ k ≤ m.log2 + 2048 := by
  have least := b.least_le_of_contains canonical positive inside
  have tens : (0 : ℚ) < 10 ^ k := pow_pos (by norm_num) k
  rw [le_div_iff₀ tens] at least
  constructor
  · have some : (0 : ℚ) < m := lt_of_lt_of_le (mul_pos (zpow_pos two_pos _) tens) least
    exact_mod_cast some
  · have next : (m : ℚ) < 2 ^ (m.log2 + 1) := by exact_mod_cast Nat.lt_log2_self
    have twos : (2 : ℚ) ^ k ≤ 10 ^ k := pow_le_pow_left₀ two_pos.le (by norm_num) k
    have below : (2 : ℚ) ^ (-1075 + k : ℤ) < 2 ^ ((m.log2 + 1 : ℕ) : ℤ) := by
      calc (2 : ℚ) ^ (-1075 + k : ℤ) = 2 ^ (-1075 : ℤ) * 2 ^ k := by
            rw [zpow_add₀ two_ne_zero, zpow_natCast]
        _ ≤ 2 ^ (-1075 : ℤ) * 10 ^ k := mul_le_mul_of_nonneg_left twos (zpow_pos two_pos _).le
        _ ≤ m := least
        _ < 2 ^ ((m.log2 + 1 : ℕ) : ℤ) := by rwa [zpow_natCast]
    have := (zpow_lt_zpow_iff_right₀ one_lt_two).1 below
    omega

theorem le_log2_shiftLeft {m : ℕ} (positive : 0 < m) (s : ℕ) : m.log2 + s ≤ (m <<< s).log2 := by
  rw [Nat.shiftLeft_eq, Nat.le_log2 (Nat.mul_pos positive (Nat.two_pow_pos s)).ne', pow_add]
  exact Nat.mul_le_mul_right _ (Nat.log2_self_le positive.ne')

/-- If an exact product is in the span of a double, and has as many bits as one, multiplication gives
this double. -/
theorem mul_eq {b : Binary} (canonical : b.Canonical) (positive : 0 < b.mantissa) {m₁ m₂ : ℕ}
    {e₁ e₂ : ℤ} (positive₁ : 0 < m₁) (positive₂ : 0 < m₂)
    (long : e₁ + e₂ ≤ target (m₁ * m₂) (e₁ + e₂))
    (inside : b.span.Contains ((m₁ * m₂ : ℕ) * 2 ^ (e₁ + e₂))) :
    mul .binary64 (.finite .positive m₁ e₁ positive₁) (.finite .positive m₂ e₂ positive₂) =
      .finite .positive b.mantissa b.exponent positive := by
  have stands := stands_exact (m₁ * m₂)
  have value : ((m₁ * m₂ : ℕ) : ℚ) * 2 ^ (e₁ + e₂) / 2 ^ (e₁ + e₂) = (m₁ * m₂ : ℕ) :=
    mul_div_cancel_right₀ _ (zpow_pos two_pos _).ne'
  rw [← value] at stands
  rw [mul]
  exact roundWithAccuracy_eq canonical positive stands long inside _

/-- A fraction with a power of ten in the span of a double is read as this double. -/
theorem ofScientific_eq {b : Binary} (canonical : b.Canonical) (positive : 0 < b.mantissa)
    {m k : ℕ} (inside : b.span.Contains (m / 10 ^ k)) :
    ofScientific .binary64 m (.negOfNat k) = .finite .positive b.mantissa b.exponent positive := by
  obtain ⟨some, short⟩ := pos_and_le_of_contains canonical positive inside
  have isNegative : Int.negOfNat k = -k := Int.negOfNat_eq
  have bits : (2 ^ Format.binary64.exponentBits : ℤ) = 2048 := rfl
  have mantissaBits : Format.binary64.mantissaBits = 53 := rfl
  rw [ofScientific, dif_neg some.ne', isNegative, bits, if_neg (by omega), if_neg (by omega)]
  by_cases whole : k = 0
  · -- The mantissa is shifted before the product, so that its bits do not run out.
    rw [if_pos (by omega)]
    have one : 10 ^ (-(k : ℤ)).toNat = 1 := by rw [whole]; rfl
    refine mul_eq canonical positive _ _ ?_ ?_
    · have := le_log2_shiftLeft some 53
      rw [one, mul_one, mantissaBits, target_eq]
      omega
    · rw [whole, pow_zero, div_one] at inside
      rw [one, mul_one, mantissaBits, add_zero, zpow_neg, Nat.shiftLeft_eq]
      push_cast
      rwa [mul_inv_cancel_right₀ (by norm_num)]
  · rw [if_neg (by omega)]
    refine div_eq canonical positive some _ ?_
    simpa using inside

/-! ## Whole numbers as doubles -/

/-- The double itself is in its span. -/
theorem Binary.contains_value (b : Binary) (positive : 0 < b.mantissa) :
    b.span.Contains (b.mantissa * 2 ^ b.exponent) := by
  have quarters : 1 ≤ b.quartersBelow := by
    unfold quartersBelow
    split <;> decide
  have quarters : (1 : ℚ) ≤ b.quartersBelow := by exact_mod_cast quarters
  rw [contains_span_iff positive, mul_div_cancel_right₀ _ (zpow_pos two_pos _).ne']
  refine ⟨by linarith, by linarith, ?_⟩
  rintro (same | same) <;> linarith

/-- The first bit of a mantissa before the others. -/
theorem toNat_one_append (v : BitVec 52) : (1#1 ++ v).toNat = 2 ^ 52 + v.toNat := by
  rw [BitVec.toNat_append, ← Nat.shiftLeft_add_eq_or_of_lt v.isLt]
  rfl

/-- What is put together from a mantissa with its first bit set is taken apart into it. -/
theorem unpack_pack {m : ℕ} {e : ℤ} (some : 0 < m) (full : 2 ^ 52 ≤ m) (bits : m < 2 ^ 53)
    (least : -1074 ≤ e) (greatest : e ≤ 971) :
    unpack .binary64 (pack .binary64 (.finite .positive m e some)) = .finite .positive m e some := by
  have isLog : m.log2 + 1 = Format.binary64.mantissaBits := by
    have : m.log2 = 52 := (Nat.log2_eq_iff some.ne').2 ⟨full, bits⟩
    rw [this]
    rfl
  obtain ⟨biased, isBiased⟩ : ∃ biased : ℕ, e + 1075 = biased := ⟨(e + 1075).toNat, by omega⟩
  have field : (e + Format.binary64.exponentBias + Format.binary64.mantissaBitsWithoutImplicit).toNat
      = biased := by
    show (e + 1023 + 52).toNat = biased
    omega
  have small : ¬2 ^ Format.binary64.exponentBits ≤ biased + 1 := by
    show ¬2 ^ 11 ≤ biased + 1
    omega
  have packed : pack .binary64 (.finite .positive m e some) =
      packComponents .binary64 .positive (.ofNat 11 biased) (.ofNat 52 m) := by
    rw [pack]
    dsimp only
    rw [field, if_neg small, if_pos isLog]
  have notGreatest : BitVec.ofNat 11 biased ≠ -1#11 := ofNat_ne_greatest (by omega)
  have notLeast : BitVec.ofNat 11 biased ≠ 0#11 := by
    intro none
    have : biased % 2048 = 0 := congrArg BitVec.toNat none
    omega
  rw [packed]
  simp only [unpack, unpackMantissa_packComponents, unpackExponent_packComponents,
    unpackSign_packComponents, Sign.ofBitVec_toBitVec]
  rw [if_neg notGreatest, if_neg notLeast]
  have mantissa : (1#1 ++ BitVec.ofNat 52 m).toNat = m := by
    rw [toNat_one_append, BitVec.toNat_ofNat]
    omega
  have exponent : ((BitVec.ofNat 11 biased).toNat : ℤ) - (1023 + 52) = e := by
    have : (BitVec.ofNat 11 biased).toNat = biased := Nat.mod_eq_of_lt (by omega)
    omega
  congr 1

/-- A whole number with its first bit in the place of that of a mantissa. -/
def Binary.ofNat (n : ℕ) : Binary :=
  ⟨n <<< (52 - n.log2), n.log2 - 52, n <<< (52 - n.log2) = 2 ^ 52⟩

section
variable {n : ℕ} (positive : 0 < n) (short : n < 2 ^ 53)
include positive short

theorem log2_lt : n.log2 < 53 := (Nat.log2_lt positive.ne').2 short

theorem Binary.mantissa_ofNat :
    2 ^ 52 ≤ (Binary.ofNat n).mantissa ∧ (Binary.ofNat n).mantissa < 2 ^ 53 := by
  have few := log2_lt positive short
  have isMantissa : (Binary.ofNat n).mantissa = n * 2 ^ (52 - n.log2) := Nat.shiftLeft_eq _ _
  rw [isMantissa]
  constructor
  · calc 2 ^ 52 = 2 ^ n.log2 * 2 ^ (52 - n.log2) := by rw [← pow_add]; congr 1; omega
      _ ≤ n * 2 ^ (52 - n.log2) := Nat.mul_le_mul_right _ (Nat.log2_self_le positive.ne')
  · calc n * 2 ^ (52 - n.log2) < 2 ^ (n.log2 + 1) * 2 ^ (52 - n.log2) :=
          Nat.mul_lt_mul_of_pos_right Nat.lt_log2_self (Nat.two_pow_pos _)
      _ = 2 ^ 53 := by rw [← pow_add]; congr 1; omega

theorem Binary.canonical_ofNat : (Binary.ofNat n).Canonical := by
  obtain ⟨atLeast, below⟩ := Binary.mantissa_ofNat positive short
  have exponent : (Binary.ofNat n).exponent = n.log2 - 52 := rfl
  refine ⟨below, by omega, .inl atLeast, ?_⟩
  have above : -1074 < (Binary.ofNat n).exponent := by omega
  exact ⟨fun narrow => ⟨of_decide_eq_true narrow, above⟩, fun narrow => decide_eq_true narrow.1⟩

theorem Binary.value_ofNat :
    ((Binary.ofNat n).mantissa * 2 ^ (Binary.ofNat n).exponent : ℚ) = n := by
  have few := log2_lt positive short
  have exponent : (Binary.ofNat n).exponent = -(52 - n.log2 : ℕ) := by
    show (n.log2 - 52 : ℤ) = _
    omega
  have isMantissa : (Binary.ofNat n).mantissa = n * 2 ^ (52 - n.log2) := Nat.shiftLeft_eq _ _
  rw [isMantissa, exponent, zpow_neg, zpow_natCast]
  push_cast
  exact mul_inv_cancel_right₀ (by positivity) _

theorem ofNat_eq (some : 0 < (Binary.ofNat n).mantissa) :
    ofNat .binary64 n =
      .finite .positive (Binary.ofNat n).mantissa (Binary.ofNat n).exponent some := by
  have few := log2_lt positive short
  have canonical := Binary.canonical_ofNat positive short
  have isPositive : compare (n : ℤ) 0 = .gt := Int.compare_eq_gt.2 (by omega)
  have isTarget : target n 0 = n.log2 - 52 := by
    rw [target_eq]
    omega
  have amount : (0 - target n 0).toNat = 52 - n.log2 := by omega
  have exponent : (0 : ℤ) - (52 - n.log2 : ℕ) = (Binary.ofNat n).exponent := by
    show _ = (n.log2 - 52 : ℤ)
    omega
  rw [ofNat, ofInt, UnpackedFloat.normalize, isPositive]
  dsimp only
  rw [Int.toNat_natCast, UnpackedFloat.round, decreaseExponent]
  unfold target at amount
  dsimp only
  rw [amount, exponent]
  have value := Binary.value_ofNat positive short
  have stands := stands_exact (Binary.ofNat n).mantissa
  rw [← eq_div_iff (zpow_pos two_pos _).ne'] at value
  rw [value] at stands
  refine roundWithAccuracy_eq canonical some stands ?_ ?_ _
  · obtain ⟨atLeast, below⟩ := Binary.mantissa_ofNat positive short
    have bits : 52 ≤ (Binary.ofNat n).mantissa.log2 := (Nat.le_log2 some.ne').2 atLeast
    rw [target_eq]
    omega
  · have inside := (Binary.ofNat n).contains_value some
    rwa [Binary.value_ofNat positive short] at inside

/-- A whole number with no more bits than a mantissa is a double. -/
theorem unpack_toFloat : ∃ (m : ℕ) (e : ℤ) (some : 0 < m),
    n.toUInt64.toFloat.toModel.unpack = .finite .positive m e some ∧ (m * 2 ^ e : ℚ) = n := by
  obtain ⟨atLeast, below⟩ := Binary.mantissa_ofNat positive short
  have few := log2_lt positive short
  have exponent : (Binary.ofNat n).exponent = n.log2 - 52 := rfl
  have some : 0 < (Binary.ofNat n).mantissa := by omega
  have same : n.toUInt64.toNat = n := by
    rw [UInt64.toNat_ofNat', Nat.mod_eq_of_lt (by omega)]
  refine ⟨_, _, some, ?_, Binary.value_ofNat positive short⟩
  show unpack .binary64 (pack .binary64 (ofNat .binary64 n.toUInt64.toNat)) = _
  rw [same, ofNat_eq positive short some]
  exact unpack_pack some atLeast below (by omega) (by omega)

end

/-! ## Numerals -/

/-- The given whole number, which is above zero. -/
def isWhole (n : ℕ) : UnpackedFloat → Bool
  | .finite .positive m e _ => m * 2 ^ e.toNat = n * 2 ^ (-e).toNat
  | _ => false

theorem eq_of_isWhole {n : ℕ} {u : UnpackedFloat} (whole : isWhole n u) :
    ∃ (m : ℕ) (e : ℤ) (some : 0 < m), u = .finite .positive m e some ∧ (m * 2 ^ e : ℚ) = n := by
  unfold isWhole at whole
  split at whole
  · next m e some =>
    have same : (m * 2 ^ e.toNat : ℚ) = n * 2 ^ (-e).toNat := by
      exact_mod_cast of_decide_eq_true whole
    refine ⟨m, e, some, rfl, ?_⟩
    rw [zpow_eq_div two_pos, mul_div_assoc', same, mul_div_cancel_right₀ _ (by positivity)]
  · cases whole

/-- The powers of ten in the table. -/
theorem isWhole_powersOfTen : ∀ k : Fin Float.exactlyRepresentablePowersOfTen.size,
    isWhole (10 ^ k.1) Float.exactlyRepresentablePowersOfTen[k].toModel.unpack := by
  decide +kernel

/-- A numeral in the span of a double stands for this double. -/
theorem numeral_eq {b : Binary} (canonical : b.Canonical) (positive : 0 < b.mantissa)
    {whole fraction : List Char}
    (inside : b.span.Contains (ofDigits (whole ++ fraction) / 10 ^ fraction.length)) :
    numeral whole fraction = .ofModel (.pack (.finite .positive b.mantissa b.exponent positive)) := by
  unfold numeral Float.ofScientific
  split
  · next fast =>
    -- Both are doubles themselves, so the quotient is rounded only once.
    obtain ⟨some, _⟩ := pos_and_le_of_contains canonical positive inside
    obtain ⟨m₁, e₁, some₁, isNumerator, numerator⟩ := unpack_toFloat some fast.1
    have small : fraction.length < Float.exactlyRepresentablePowersOfTen.size :=
      Nat.lt_succ_of_le fast.2
    obtain ⟨m₂, e₂, some₂, isPower, power⟩ := eq_of_isWhole (isWhole_powersOfTen ⟨_, small⟩)
    rw [Fin.getElem_fin] at isPower
    push_cast at power
    rw [← numerator, ← power] at inside
    rw [if_pos rfl]
    show Float.ofModel (.pack (div .binary64 _ _)) = _
    rw [isNumerator, isPower, div_eq canonical positive some₁ some₂ inside]
  · rw [← ofScientific_eq canonical positive inside]
    rfl

end Lox.Number
