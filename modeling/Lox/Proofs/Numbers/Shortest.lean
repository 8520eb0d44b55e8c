import Lox.Proofs.Numbers.Quotients
import Lox.Proofs.Numbers.Texts

/-!
# The shortest decimal of a double

Main statements: the shortest decimal is in the span of the double, and a numeral that has its value
stands for the double.
-/

namespace Lox.Number

open Float.Model (Format UnpackedFloat)
open Float.Model.UnpackedFloat

/-! ## Decimals in spans -/

theorem Span.contains_of_holds {s : Span} {exponent : ℤ} {n : ℕ}
    (holds : (s.inUnits exponent).holds n) : s.Contains (n * 10 ^ exponent) := by
  let up : ℚ := 10 ^ (-exponent).toNat
  have positive : 0 < up := pow_pos (by norm_num) _
  have value : (n * 10 ^ exponent : ℚ) * s.unit = (n * (s.inUnits exponent).unit : ℕ) / up := by
    have isUnit : (s.inUnits exponent).unit = s.unit * 10 ^ exponent.toNat := rfl
    rw [zpow_eq_div (by norm_num : (0 : ℚ) < 10), isUnit]
    push_cast
    ring
  have low : ((s.inUnits exponent).low : ℚ) = s.low * up := by
    have isLow : (s.inUnits exponent).low = s.low * 10 ^ (-exponent).toNat := rfl
    rw [isLow]
    push_cast
    rfl
  have high : ((s.inUnits exponent).high : ℚ) = s.high * up := by
    have isHigh : (s.inUnits exponent).high = s.high * 10 ^ (-exponent).toNat := rfl
    rw [isHigh]
    push_cast
    rfl
  have closed : (s.inUnits exponent).closed = s.closed := rfl
  unfold Span.Contains
  rw [value, le_div_iff₀ positive, div_le_iff₀ positive, div_eq_iff positive.ne',
    div_eq_iff positive.ne', ← low, ← high]
  unfold Span.holds at holds
  rw [closed] at holds
  split at holds
  · next isClosed =>
    rw [Bool.and_eq_true, decide_eq_true_iff, decide_eq_true_iff] at holds
    refine ⟨?_, ?_, fun _ => isClosed⟩
    · exact_mod_cast holds.1
    · exact_mod_cast holds.2
  · rw [Bool.and_eq_true, decide_eq_true_iff, decide_eq_true_iff] at holds
    obtain ⟨above, below⟩ := holds
    refine ⟨?_, ?_, ?_⟩
    · exact_mod_cast above.le
    · exact_mod_cast below.le
    · rintro (same | same)
      · have same : n * (s.inUnits exponent).unit = (s.inUnits exponent).low := by exact_mod_cast same
        omega
      · have same : n * (s.inUnits exponent).unit = (s.inUnits exponent).high := by exact_mod_cast same
        omega

/-- The number that a decimal stands for. -/
def Decimal.value (d : Decimal) : ℚ := d.digits * 10 ^ d.exponent

theorem Binary.value_exact (b : Binary) : b.exact.value = b.mantissa * 2 ^ b.exponent := by
  have ten : (10 : ℚ) = 2 * 5 := by norm_num
  have isValue : b.exact.value =
      ((b.mantissa * 2 ^ b.exponent.toNat * 5 ^ (-b.exponent).toNat : ℕ) : ℚ) *
        10 ^ min b.exponent 0 := rfl
  rw [isValue]
  push_cast
  rcases le_total 0 b.exponent with whole | negative
  · have none : (-b.exponent).toNat = 0 := by omega
    have exponent : (b.exponent.toNat : ℤ) = b.exponent := by omega
    rw [min_eq_right whole, none, ← zpow_natCast, exponent]
    simp
  · have none : b.exponent.toNat = 0 := by omega
    have exponent : ((-b.exponent).toNat : ℤ) = -b.exponent := by omega
    rw [min_eq_left negative, none, ← zpow_natCast (5 : ℚ), exponent, ten, mul_zpow, zpow_neg]
    field_simp

/-- The shortest decimal of a double is in its span. -/
theorem Binary.contains_shortest (b : Binary) (positive : 0 < b.mantissa) :
    b.span.Contains b.shortest.value := by
  simp only [shortest]
  cases found : (List.range 17).findSome? fun more : ℕ =>
      b.span.decimal? (b.span.leading - more) with
  | none =>
    rw [Option.getD_none, value_exact]
    exact b.contains_value positive
  | some d =>
    obtain ⟨more, _, isDecimal⟩ := List.exists_of_findSome?_eq_some found
    obtain ⟨n, isWhole, rfl⟩ := Option.map_eq_some_iff.1 isDecimal
    exact Span.contains_of_holds (Span.holds_of_whole? isWhole)

/-! ## The bits of a double -/

section
variable (bits : BitVec Format.binary64.numBits)

theorem toNat_unpackMantissa : (unpackMantissa bits).toNat = bits.toNat % 2 ^ 52 := by
  rw [unpackMantissa_def, BitVec.extractLsb'_toNat, Nat.shiftRight_zero]

theorem toNat_unpackExponent : (unpackExponent bits).toNat = (bits.toNat >>> 52) % 2 ^ 11 := by
  rw [unpackExponent_def, BitVec.extractLsb'_toNat]

end

/-- The magnitude of a double from its fields. -/
def Binary.ofFields (field fraction : ℕ) : Binary :=
  if field = 0 then ⟨fraction, -1074, false⟩
  else ⟨2 ^ 52 + fraction, field - 1075, fraction = 0 && field ≠ 1⟩

theorem Binary.ofBits_eq (bits : UInt64) : Binary.ofBits bits =
    Binary.ofFields (@unpackExponent .binary64 bits.toBitVec).toNat
      (@unpackMantissa .binary64 bits.toBitVec).toNat := by
  have field : (bits >>> 52).toNat = bits.toNat >>> 52 := UInt64.toNat_shiftRight bits 52
  rw [toNat_unpackMantissa, toNat_unpackExponent, Binary.ofBits, field]
  rfl

theorem Binary.canonical_ofFields {field fraction : ℕ} (short : fraction < 2 ^ 52) :
    (Binary.ofFields field fraction).Canonical := by
  unfold Binary.ofFields
  split
  · refine ⟨by dsimp only; omega, le_refl _, .inr rfl, ?_⟩
    simp
  · refine ⟨by dsimp only; omega, by dsimp only; omega, .inl (Nat.le_add_right _ _), ?_⟩
    simp only [Bool.and_eq_true, decide_eq_true_eq, ne_eq]
    omega

/-- What the bits of a finite double without a minus sign are taken apart into. -/
theorem unpack_eq {bits : BitVec Format.binary64.numBits} {b : Binary}
    (isBinary : b = .ofFields (unpackExponent bits).toNat (unpackMantissa bits).toNat)
    (unsigned : Unsigned (unpack _ bits)) (finite : (unpack _ bits).isInf = false) :
    b.mantissa = 0 ∧ unpack _ bits = .zero .positive ∨
      ∃ positive, unpack _ bits = .finite .positive b.mantissa b.exponent positive := by
  have sign := sign_of_unsigned unsigned
  simp only [unpack, sign] at unsigned finite ⊢
  by_cases greatest : unpackExponent bits = -1#_
  · rw [if_pos greatest] at unsigned finite
    split at finite
    · cases finite
    · next number =>
      rw [if_neg number] at unsigned
      exact unsigned.elim
  · rw [if_neg greatest]
    by_cases least : unpackExponent bits = 0#_
    · have isLeast : (unpackExponent bits).toNat = 0 := by rw [least]; rfl
      rw [isLeast, Binary.ofFields, if_pos rfl] at isBinary
      subst isBinary
      rw [if_pos least]
      split
      · next none => exact .inl ⟨congrArg BitVec.toNat none, rfl⟩
      · next some =>
        refine .inr ⟨Nat.pos_of_ne_zero fun none => some (BitVec.eq_of_toNat_eq none), ?_⟩
        rw [isLeast]
        rfl
    · have isNormal : (unpackExponent bits).toNat ≠ 0 := fun isLeast =>
        least (BitVec.eq_of_toNat_eq isLeast)
      rw [Binary.ofFields, if_neg isNormal] at isBinary
      subst isBinary
      rw [if_neg least]
      refine .inr ⟨Nat.add_pos_left (by decide) _, ?_⟩
      congr 1
      exact toNat_one_append _

theorem unpack_eq_ofBits {x : Float} (unsigned : UnsignedFloat x) (finite : x.isInf = false) :
    (Binary.ofBits x.toBits).mantissa = 0 ∧ x.toModel.unpack = .zero .positive ∨
      ∃ positive, x.toModel.unpack = .finite .positive (Binary.ofBits x.toBits).mantissa
          (Binary.ofBits x.toBits).exponent positive :=
  unpack_eq (Binary.ofBits_eq x.toBits) unsigned finite

theorem Binary.canonical_ofBits (bits : UInt64) : (Binary.ofBits bits).Canonical := by
  rw [ofBits_eq]
  exact canonical_ofFields (BitVec.isLt _)

/-- A double is put together from what it is taken apart into. -/
theorem ofModel_pack_unpack (x : Float) : Float.ofModel (.pack x.toModel.unpack) = x :=
  Float.toBits_inj.1 (UInt64.toBitVec_inj.1 (pack_unpack_of_valid x.toModel.valid))

/-- A numeral that has the value of the shortest decimal of a double stands for the double. -/
theorem numeral_eq_of_shortest {x : Float} (unsigned : UnsignedFloat x) (finite : x.isInf = false)
    (notZero : (Binary.ofBits x.toBits).mantissa ≠ 0) {whole fraction : List Char}
    (value : (ofDigits (whole ++ fraction) / 10 ^ fraction.length : ℚ) =
      (Binary.ofBits x.toBits).shortest.value) :
    numeral whole fraction = x := by
  rcases unpack_eq_ofBits unsigned finite with ⟨isZero, _⟩ | ⟨positive, isFinite⟩
  · exact absurd isZero notZero
  · have inside := (Binary.ofBits x.toBits).contains_shortest positive
    rw [← value] at inside
    rw [numeral_eq (Binary.canonical_ofBits _) positive inside, ← isFinite, ofModel_pack_unpack]

end Lox.Number
