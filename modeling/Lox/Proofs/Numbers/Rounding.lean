import Mathlib
import Lox.Number.Shortest

/-!
# Rounding into a span

A result is rounded from a mantissa with two more bits, which tell where the exact value lies between
the mantissa and the next one. Main statement: a value that lies between the midpoints to the
neighbours of a double is rounded to this double, from every mantissa that is long enough.
-/

namespace Lox.Number

open Float.Model (Format totalExponent)
open Float.Model.UnpackedFloat

/-! ## Mantissas with two more bits -/

/-- The number that a mantissa with its next bit stands for, and perhaps a little more. -/
def doubled (em : ExtendedMantissa) : ℕ := 2 * em.mantissa + em.roundBit.toNat

/-- The mantissa with its two bits stands for the number: the next bit is that of its half, and the
last one tells whether there is anything left. -/
structure Stands (em : ExtendedMantissa) (q : ℚ) : Prop where
  atLeast : (doubled em : ℚ) ≤ 2 * q
  below : 2 * q < doubled em + 1
  sticky : em.stickyBit = false ↔ 2 * q = doubled em

theorem stands_exact (m : ℕ) : Stands (.ofMantissaAndAccuracy m .exact) m := by
  have double : doubled (.ofMantissaAndAccuracy m .exact) = 2 * m := rfl
  refine ⟨?_, ?_, ?_⟩
  · rw [double]
    push_cast
    exact le_refl _
  · rw [double]
    push_cast
    linarith
  · rw [double]
    push_cast
    exact ⟨fun _ => rfl, fun _ => rfl⟩

/-- What is shifted stands for the half. -/
theorem Stands.shiftRightOne {em : ExtendedMantissa} {q : ℚ} (stands : Stands em q) :
    Stands em.shiftRightOne (q / 2) := by
  have double : doubled em.shiftRightOne = em.mantissa := by
    have bit : (em.mantissa % 2 != 0).toNat = em.mantissa % 2 := by
      rcases Nat.mod_two_eq_zero_or_one em.mantissa with even | odd
      · rw [even]
        rfl
      · rw [odd]
        rfl
    unfold doubled ExtendedMantissa.shiftRightOne
    dsimp only
    rw [bit]
    omega
  have half : 2 * (q / 2) = q := by ring
  obtain ⟨m, round, sticky⟩ := em
  obtain ⟨atLeast, below, isSticky⟩ := stands
  unfold doubled at atLeast below isSticky
  dsimp only at atLeast below isSticky
  push_cast at atLeast below isSticky
  refine ⟨?_, ?_, ?_⟩
  · rw [double, half]
    dsimp only
    linarith [(Nat.cast_nonneg round.toNat : (0 : ℚ) ≤ round.toNat)]
  · have bit : (round.toNat : ℚ) ≤ 1 := by exact_mod_cast Bool.toNat_le round
    rw [double, half]
    dsimp only
    linarith
  · rw [double, half]
    cases round with
    | false =>
      simp only [Bool.toNat_false, Nat.cast_zero, add_zero] at isSticky
      simp only [ExtendedMantissa.shiftRightOne, Bool.false_or, isSticky]
      constructor <;> intro exact <;> linarith
    | true =>
      simp only [Bool.toNat_true, Nat.cast_one] at atLeast
      simp only [ExtendedMantissa.shiftRightOne, Bool.true_or, Bool.true_eq_false, false_iff]
      intro exact
      linarith

theorem Stands.shiftRight {em : ExtendedMantissa} {q : ℚ} (stands : Stands em q) (n : ℕ) :
    Stands (em >>> n) (q / 2 ^ n) := by
  induction n with
  | zero =>
    rw [pow_zero, div_one]
    exact stands
  | succ n ih =>
    rw [pow_succ, ← div_div]
    exact ih.shiftRightOne

/-! ## Rounding to whole numbers -/

/-- The whole number is the nearest one, or at a tie the even one of the two nearest. -/
structure RoundsTo (q : ℚ) (n : ℕ) : Prop where
  low : 2 * n - 1 ≤ 2 * q
  high : 2 * q ≤ 2 * n + 1
  even : 2 * q = 2 * n - 1 ∨ 2 * q = 2 * n + 1 → n % 2 = 0

theorem Stands.roundedMantissa_eq {em : ExtendedMantissa} {q : ℚ} (stands : Stands em q) {n : ℕ}
    (rounds : RoundsTo q n) : em.roundedMantissa = n := by
  obtain ⟨m, round, sticky⟩ := em
  obtain ⟨atLeast, below, isSticky⟩ := stands
  obtain ⟨low, high, even⟩ := rounds
  generalize isDouble : doubled ⟨m, round, sticky⟩ = double at atLeast below isSticky
  cases sticky with
  | false =>
    have exact : 2 * q = double := isSticky.1 rfl
    rw [exact] at low high even
    have low : 2 * n ≤ double + 1 := by
      have := sub_le_iff_le_add.1 low
      exact_mod_cast this
    have high : double ≤ 2 * n + 1 := by exact_mod_cast high
    have even : double + 1 = 2 * n ∨ double = 2 * n + 1 → n % 2 = 0 := by
      intro tie
      refine even (tie.imp (fun below => ?_) fun above => by exact_mod_cast above)
      rw [eq_sub_iff_add_eq]
      exact_mod_cast below
    cases round with
    | false =>
      change 2 * m + 0 = double at isDouble
      change m = n
      omega
    | true =>
      change 2 * m + 1 = double at isDouble
      change m + m % 2 = n
      omega
  | true =>
    have more : (double : ℚ) < 2 * q := lt_of_le_of_ne atLeast fun same => by
      cases isSticky.2 same.symm
    have low : 2 * n < double + 2 := by
      have : (2 * n : ℚ) < double + 2 := by linarith
      exact_mod_cast this
    have high : double < 2 * n + 1 := by exact_mod_cast lt_of_lt_of_le more high
    cases round with
    | false =>
      change 2 * m + 0 = double at isDouble
      change m = n
      omega
    | true =>
      change 2 * m + 1 = double at isDouble
      change m + 1 = n
      omega

/-! ## Spans -/

/-- A power whose exponent may be negative, as a quotient. -/
theorem zpow_eq_div {base : ℚ} (positive : 0 < base) (n : ℤ) :
    base ^ n = base ^ n.toNat / base ^ (-n).toNat := by
  rw [eq_div_iff (pow_pos positive _).ne', ← zpow_natCast, ← zpow_natCast,
    ← zpow_add₀ positive.ne']
  congr 1
  omega

/-- The number lies between the midpoints, or is one of them if they belong to the span. -/
def Span.Contains (s : Span) (r : ℚ) : Prop :=
  s.low ≤ r * s.unit ∧ r * s.unit ≤ s.high ∧
    (r * s.unit = s.low ∨ r * s.unit = s.high → s.closed = true)

/-- The magnitude of a double with all of its bits in use. -/
structure Binary.Canonical (b : Binary) : Prop where
  bits : b.mantissa < 2 ^ 53
  least : -1074 ≤ b.exponent
  full : 2 ^ 52 ≤ b.mantissa ∨ b.exponent = -1074
  narrow : b.narrowBelow = true ↔ b.mantissa = 2 ^ 52 ∧ -1074 < b.exponent

/-- The distance to the midpoint below, in quarters of a unit. -/
def Binary.quartersBelow (b : Binary) : ℕ := if b.narrowBelow then 1 else 2

theorem Binary.quartersBelow_le (b : Binary) : b.quartersBelow ≤ 2 := by
  unfold quartersBelow
  split <;> decide

theorem Binary.contains_span_iff {b : Binary} (positive : 0 < b.mantissa) {r : ℚ} :
    b.span.Contains r ↔
      4 * b.mantissa - b.quartersBelow ≤ 4 * (r / 2 ^ b.exponent) ∧
        4 * (r / 2 ^ b.exponent) ≤ 4 * b.mantissa + 2 ∧
        (4 * (r / 2 ^ b.exponent) = 4 * b.mantissa - b.quartersBelow ∨
          4 * (r / 2 ^ b.exponent) = 4 * b.mantissa + 2 → b.mantissa % 2 = 0) := by
  let scale : ℚ := 2 ^ (b.exponent - 2).toNat
  have scalePositive : 0 < scale := pow_pos two_pos _
  have quarters : b.quartersBelow ≤ 4 * b.mantissa := by
    have := b.quartersBelow_le
    omega
  have low : (b.span.low : ℚ) = (4 * b.mantissa - b.quartersBelow) * scale := by
    have isLow : b.span.low = (4 * b.mantissa - b.quartersBelow) * 2 ^ (b.exponent - 2).toNat := rfl
    rw [isLow, Nat.cast_mul, Nat.cast_sub quarters]
    push_cast
    rfl
  have high : (b.span.high : ℚ) = (4 * b.mantissa + 2) * scale := by
    have isHigh : b.span.high = (4 * b.mantissa + 2) * 2 ^ (b.exponent - 2).toNat := rfl
    rw [isHigh]
    push_cast
    rfl
  have value : r * b.span.unit = 4 * (r / 2 ^ b.exponent) * scale := by
    have isUnit : (b.span.unit : ℚ) = 2 ^ (2 - b.exponent).toNat := by
      have isUnit : b.span.unit = 2 ^ (2 - b.exponent).toNat := rfl
      rw [isUnit]
      push_cast
      rfl
    have quotient : (2 : ℚ) ^ (b.exponent - 2) = scale / b.span.unit := by
      rw [zpow_eq_div two_pos, isUnit, neg_sub]
    have four : (2 : ℚ) ^ b.exponent = 4 * 2 ^ (b.exponent - 2) := by
      rw [zpow_sub₀ two_ne_zero]
      norm_num
      ring
    have unitPositive : (0 : ℚ) < b.span.unit := by
      rw [isUnit]
      positivity
    rw [four, quotient]
    field_simp
  have closed : b.span.closed = true ↔ b.mantissa % 2 = 0 := decide_eq_true_iff
  unfold Span.Contains
  rw [low, high, value, closed, mul_le_mul_iff_left₀ scalePositive,
    mul_le_mul_iff_left₀ scalePositive, mul_left_inj' scalePositive.ne',
    mul_left_inj' scalePositive.ne']

/-! ## Rounding to doubles -/

/-- The exponent to which a mantissa is shifted. -/
def target (m : ℕ) (e : ℤ) : ℤ := Format.binary64.targetExponent (totalExponent m e)

theorem target_eq (m : ℕ) (e : ℤ) : target m e = max (m.log2 + e - 52) (-1074) := by
  have bits : (Format.binary64.mantissaBits : ℤ) = 53 := rfl
  have least : Format.binary64.minExponent = -1074 := rfl
  unfold target Format.targetExponent totalExponent
  rw [bits, least]
  congr 1
  ring

section
variable {m : ℕ} {e : ℤ} {a : Accuracy} {r : ℚ}
  (stands : Stands (.ofMantissaAndAccuracy m a) (r / 2 ^ e))
include stands

/-- The first shift keeps what the mantissa stands for. -/
theorem Stands.shiftToTarget (long : e ≤ target m e) :
    ∃ em, shiftToTargetExponent .binary64 m e a = (em, target m e) ∧
      Stands em (r / 2 ^ target m e) := by
  have amount : e + ((target m e - e).toNat : ℤ) = target m e := by omega
  refine ⟨ExtendedMantissa.ofMantissaAndAccuracy m a >>> (target m e - e).toNat,
    Prod.ext rfl amount, ?_⟩
  have shifted := stands.shiftRight (target m e - e).toNat
  rw [div_div, ← zpow_natCast, ← zpow_add₀ two_ne_zero, amount] at shifted
  exact shifted

theorem Stands.mantissa_le : (m : ℚ) ≤ r / 2 ^ e ∧ r / 2 ^ e < m + 1 := by
  have isMantissa : (ExtendedMantissa.ofMantissaAndAccuracy m a).mantissa = m := by
    unfold ExtendedMantissa.ofMantissaAndAccuracy
    split <;> rfl
  obtain ⟨atLeast, below, _⟩ := stands
  have bit := Bool.toNat_le (ExtendedMantissa.ofMantissaAndAccuracy m a).roundBit
  have bit : ((ExtendedMantissa.ofMantissaAndAccuracy m a).roundBit.toNat : ℚ) ≤ 1 := by
    exact_mod_cast bit
  have none : (0 : ℚ) ≤ (ExtendedMantissa.ofMantissaAndAccuracy m a).roundBit.toNat :=
    Nat.cast_nonneg _
  unfold doubled at atLeast below
  rw [isMantissa] at atLeast below
  push_cast at atLeast below
  constructor <;> linarith

/-- A number is below the power of two after its first bit. -/
theorem Stands.lt_of_zpow_le {k : ℤ} (large : 2 ^ k ≤ r) : k < m.log2 + 1 + e := by
  have next : (m + 1 : ℚ) ≤ 2 ^ (m.log2 + 1) := by exact_mod_cast Nat.lt_log2_self
  have above : r < 2 ^ ((m.log2 + 1 : ℤ) + e) := by
    calc r < (m + 1) * 2 ^ e := (div_lt_iff₀ (zpow_pos two_pos e)).1 stands.mantissa_le.2
      _ ≤ 2 ^ (m.log2 + 1) * 2 ^ e := mul_le_mul_of_nonneg_right next (zpow_pos two_pos e).le
      _ = 2 ^ ((m.log2 + 1 : ℤ) + e) := by
        rw [zpow_add₀ two_ne_zero]
        norm_cast
  exact (zpow_lt_zpow_iff_right₀ one_lt_two).1 (lt_of_le_of_lt large above)

/-- A number is not below the power of two of its first bit. -/
theorem Stands.lt_of_lt_zpow (long : e ≤ target m e) {k : ℤ} (small : r < 2 ^ k)
    (least : -1074 < k) : m.log2 + e < k := by
  by_cases isZero : m = 0
  · rw [target_eq, isZero, Nat.log2_zero] at long
    rw [isZero, Nat.log2_zero]
    omega
  · have first : (2 : ℚ) ^ m.log2 ≤ m := by exact_mod_cast Nat.log2_self_le isZero
    have below : (2 : ℚ) ^ ((m.log2 : ℤ) + e) ≤ r := by
      calc (2 : ℚ) ^ ((m.log2 : ℤ) + e) = 2 ^ m.log2 * 2 ^ e := by
            rw [zpow_add₀ two_ne_zero, zpow_natCast]
        _ ≤ m * 2 ^ e := mul_le_mul_of_nonneg_right first (zpow_pos two_pos e).le
        _ ≤ r := (le_div_iff₀ (zpow_pos two_pos e)).1 stands.mantissa_le.1
    exact (zpow_lt_zpow_iff_right₀ one_lt_two).1 (lt_of_le_of_lt below small)

end

theorem shift_short {n : ℕ} {e : ℤ} (short : n < 2 ^ 53) (least : -1074 ≤ e) :
    shiftToTargetExponent .binary64 n e .exact = (⟨n, false, false⟩, e) := by
  have bits : n.log2 ≤ 52 := by
    by_cases isZero : n = 0
    · rw [isZero, Nat.log2_zero]
      exact Nat.zero_le 52
    · exact Nat.le_of_lt_succ ((Nat.log2_lt isZero).2 short)
  have amount : (target n e - e).toNat = 0 := by
    rw [target_eq]
    omega
  unfold shiftToTargetExponent shiftToExponent
  unfold target at amount
  dsimp only
  rw [amount]
  exact Prod.ext rfl (add_zero e)

theorem shift_long {e : ℤ} (least : -1074 ≤ e) :
    shiftToTargetExponent .binary64 (2 ^ 53) e .exact = (⟨2 ^ 52, false, false⟩, e + 1) := by
  have amount : (target (2 ^ 53) e - e).toNat = 1 := by
    rw [target_eq, Nat.log2_two_pow]
    omega
  unfold shiftToTargetExponent shiftToExponent
  unfold target at amount
  dsimp only
  rw [amount]
  rfl

/-- In units of its last bit, a number in the span of a double is rounded to the mantissa. -/
theorem Binary.roundsTo_of_contains {b : Binary} (positive : 0 < b.mantissa) {r : ℚ}
    (inside : b.span.Contains r) : RoundsTo (r / 2 ^ b.exponent) b.mantissa := by
  obtain ⟨low, high, tie⟩ := (contains_span_iff positive).1 inside
  cases isNarrow : b.narrowBelow with
  | true =>
    have quarter : (b.quartersBelow : ℚ) = 1 := by simp [quartersBelow, isNarrow]
    rw [quarter] at low
    refine ⟨by linarith, by linarith, ?_⟩
    rintro (atLow | atHigh)
    · linarith
    · exact tie (.inr (by linarith))
  | false =>
    have quarters : (b.quartersBelow : ℚ) = 2 := by simp [quartersBelow, isNarrow]
    rw [quarters] at low tie
    refine ⟨by linarith, by linarith, ?_⟩
    rintro (atLow | atHigh)
    · exact tie (.inl (by linarith))
    · exact tie (.inr (by linarith))

theorem zpow_add_le_iff {r : ℚ} (k : ℕ) (e : ℤ) : 2 ^ (k + e) ≤ r ↔ 2 ^ k ≤ r / 2 ^ e := by
  rw [zpow_add₀ two_ne_zero, zpow_natCast, le_div_iff₀ (zpow_pos two_pos e)]

/-- The first shift is to the exponent of the double, or to the one below it if the number is between
the least mantissa at this exponent and the midpoint below it. -/
theorem Stands.target_of_contains {b : Binary} (canonical : b.Canonical) (positive : 0 < b.mantissa)
    {m : ℕ} {e : ℤ} {a : Accuracy} {r : ℚ}
    (stands : Stands (.ofMantissaAndAccuracy m a) (r / 2 ^ e)) (long : e ≤ target m e)
    (inside : b.span.Contains r) :
    target m e = b.exponent ∨ target m e = b.exponent - 1 ∧ b.mantissa = 2 ^ 52 ∧
      -1074 < b.exponent ∧ r / 2 ^ b.exponent < 2 ^ 52 := by
  obtain ⟨low, high, _⟩ := (Binary.contains_span_iff positive).1 inside
  have bits : (b.mantissa : ℚ) + 1 ≤ 2 ^ 53 := by exact_mod_cast canonical.bits
  have least := canonical.least
  have upper : m.log2 + e < (53 : ℕ) + b.exponent := by
    refine stands.lt_of_lt_zpow long (lt_of_not_ge fun above => ?_) (by omega)
    rw [zpow_add_le_iff] at above
    linarith
  rw [target_eq]
  rcases canonical.full with full | atLeast
  · by_cases large : (2 : ℚ) ^ 52 ≤ r / 2 ^ b.exponent
    · have lower := stands.lt_of_zpow_le ((zpow_add_le_iff 52 b.exponent).2 large)
      exact .inl (by omega)
    · by_cases isLeast : b.exponent = -1074
      · exact .inl (by omega)
      · have above : -1074 < b.exponent := by omega
        have small := lt_of_not_ge large
        have quarters : (b.quartersBelow : ℚ) ≤ 2 := by exact_mod_cast b.quartersBelow_le
        have isFirst : b.mantissa = 2 ^ 52 := by
          have : (b.mantissa : ℚ) < 2 ^ 52 + 1 := by linarith
          have : b.mantissa < 2 ^ 52 + 1 := by exact_mod_cast this
          omega
        have near : (2 : ℚ) ^ 51 ≤ r / 2 ^ b.exponent := by
          rw [isFirst] at low
          push_cast at low
          linarith
        have lower := stands.lt_of_zpow_le ((zpow_add_le_iff 51 b.exponent).2 near)
        have upper : m.log2 + e < (52 : ℕ) + b.exponent := by
          refine stands.lt_of_lt_zpow long (lt_of_not_ge fun above => ?_) (by omega)
          exact large ((zpow_add_le_iff 52 b.exponent).1 above)
        exact .inr ⟨by omega, isFirst, above, small⟩
  · exact .inl (by omega)

/-- A number in the span of a double is rounded to it. -/
theorem roundWithAccuracy_eq {b : Binary} (canonical : b.Canonical) (positive : 0 < b.mantissa)
    {m : ℕ} {e : ℤ} {a : Accuracy} {r : ℚ}
    (stands : Stands (.ofMantissaAndAccuracy m a) (r / 2 ^ e)) (long : e ≤ target m e)
    (inside : b.span.Contains r) (s : Sign) :
    roundWithAccuracy .binary64 s m e a = .finite s b.mantissa b.exponent positive := by
  obtain ⟨em, first, stands'⟩ := stands.shiftToTarget long
  obtain ⟨low, high, tie⟩ := (Binary.contains_span_iff positive).1 inside
  rw [roundWithAccuracy, first]
  dsimp only
  rcases stands.target_of_contains canonical positive long inside with
    same | ⟨below, isFirst, above, small⟩
  · have rounds : RoundsTo (r / 2 ^ target m e) b.mantissa := by
      rw [same]
      exact Binary.roundsTo_of_contains positive inside
    rw [stands'.roundedMantissa_eq rounds, same, shift_short canonical.bits canonical.least]
    dsimp only
    rw [dif_neg positive.ne']
  · -- One bit more is left than there is room for; it is rounded up to the power of two above.
    have rounds : RoundsTo (r / 2 ^ target m e) (2 ^ 53) := by
      have quarter : b.quartersBelow = 1 := if_pos (canonical.narrow.2 ⟨isFirst, above⟩)
      have twice : r / 2 ^ (b.exponent - 1) = 2 * (r / 2 ^ b.exponent) := by
        rw [zpow_sub₀ two_ne_zero, zpow_one]
        field_simp
      rw [isFirst, quarter] at low
      push_cast at low
      rw [below, twice]
      refine ⟨?_, ?_, fun _ => rfl⟩ <;> push_cast <;> linarith
    rw [stands'.roundedMantissa_eq rounds, below, shift_long (by omega)]
    dsimp only
    rw [dif_neg (by norm_num)]
    congr 1
    · exact isFirst.symm
    · omega

end Lox.Number
