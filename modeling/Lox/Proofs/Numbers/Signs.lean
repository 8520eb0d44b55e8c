import Mathlib
import Lox.Number.Numeral
import Lox.Run.Operator

/-!
# The signs of numbers

A double is taken apart into a sign, a mantissa and an exponent before it is computed with, and put
together afterwards. Main statements: no numeral stands for a negative number, and a quotient whose
divisor of zero is told apart is that of the doubles.
-/

namespace Lox.Number

open Float.Model (Format UnpackedFloat)
open Float.Model.UnpackedFloat

/-! ## Numbers that are taken apart -/

/-- The sign of a number; what is not a number has none. -/
def sign? : UnpackedFloat → Option Sign
  | .notANumber => none
  | .infinity sign | .zero sign | .finite sign _ _ _ => some sign

/-- A number without a minus sign, infinity and zero included. -/
def Unsigned : UnpackedFloat → Prop
  | .notANumber => False
  | .infinity sign | .zero sign | .finite sign _ _ _ => sign = .positive

/-- A finite number above zero. -/
def isPositive : UnpackedFloat → Bool
  | .finite .positive _ _ _ => true
  | _ => false

/-- Components are those of a number unless the greatest exponent has a mantissa. -/
theorem unsigned_unpack_packComponents {exponent : BitVec 11} {mantissa : BitVec 52}
    (number : exponent = -1#_ → mantissa = 0#_) :
    Unsigned (unpack .binary64 (packComponents .binary64 .positive exponent mantissa)) := by
  simp only [unpack, unpackMantissa_packComponents, unpackExponent_packComponents,
    unpackSign_packComponents, Sign.ofBitVec_toBitVec]
  split
  · next greatest =>
    rw [if_pos (number greatest)]
    rfl
  · split
    · split <;> rfl
    · rfl

theorem ofNat_ne_greatest {n : Nat} (small : ¬2048 ≤ n + 1) : BitVec.ofNat 11 n ≠ -1#11 := by
  intro greatest
  have same : n % 2048 = 2047 := congrArg BitVec.toNat greatest
  omega

theorem unsigned_unpack_pack {u : UnpackedFloat} (unsigned : Unsigned u) :
    Unsigned (unpack .binary64 (pack .binary64 u)) := by
  cases u with
  | notANumber => exact unsigned.elim
  | infinity sign =>
    obtain rfl : sign = .positive := unsigned
    exact unsigned_unpack_packComponents fun _ => rfl
  | zero sign =>
    obtain rfl : sign = .positive := unsigned
    exact unsigned_unpack_packComponents fun _ => rfl
  | finite sign mantissa exponent positive =>
    obtain rfl : sign = .positive := unsigned
    rw [pack]
    split
    · exact unsigned_unpack_packComponents fun _ => rfl
    · next small =>
      split
      · exact unsigned_unpack_packComponents fun greatest => absurd greatest (ofNat_ne_greatest small)
      · exact unsigned_unpack_packComponents fun greatest => absurd greatest (by decide)

/-! ## Operations -/

theorem unsigned_roundWithAccuracy (mantissa : Nat) (exponent : Int) (accuracy : Accuracy) :
    Unsigned (roundWithAccuracy .binary64 .positive mantissa exponent accuracy) := by
  simp only [roundWithAccuracy]
  split <;> rfl

theorem unsigned_mul {mantissa mantissa' : Nat} {exponent exponent' : Int}
    (positive : 0 < mantissa) (positive' : 0 < mantissa') :
    Unsigned (mul .binary64 (.finite .positive mantissa exponent positive)
      (.finite .positive mantissa' exponent' positive')) :=
  unsigned_roundWithAccuracy _ _ _

theorem unsigned_div {u v : UnpackedFloat} (unsigned : Unsigned u) (positive : isPositive v) :
    Unsigned (div .binary64 u v) := by
  obtain ⟨mantissa, exponent, above, rfl⟩ :
      ∃ mantissa exponent above, v = .finite .positive mantissa exponent above := by
    unfold isPositive at positive
    split at positive
    · exact ⟨_, _, _, rfl⟩
    · cases positive
  cases u with
  | notANumber => exact unsigned.elim
  | infinity sign | zero sign =>
    obtain rfl : sign = .positive := unsigned
    rfl
  | finite sign =>
    obtain rfl : sign = .positive := unsigned
    exact unsigned_roundWithAccuracy _ _ _

theorem unsigned_ofNat (n : Nat) : Unsigned (ofNat .binary64 n) := by
  simp only [ofNat, ofInt, UnpackedFloat.normalize]
  split
  · next negative =>
    rw [Int.compare_eq_lt] at negative
    omega
  · rfl
  · exact unsigned_roundWithAccuracy _ _ _

theorem unsigned_ofScientific (m : Nat) (e : Int) : Unsigned (ofScientific .binary64 m e) := by
  unfold ofScientific
  split
  · rfl
  · split
    · rfl
    · split
      · rfl
      · split
        · exact unsigned_mul _ _
        · exact unsigned_div (u := .finite .positive _ _ _) rfl rfl

theorem Sign.apply_neg (s : Sign) (n : Int) : (-s).apply n = -s.apply n := by
  cases s with
  | positive => rfl
  | negative => exact (Int.neg_neg n).symm

/-- A difference is the sum with the number of the other sign. -/
theorem sub_eq_add_neg (spec : Format) (u v : UnpackedFloat) :
    sub spec u v = add spec u v.neg := by
  cases u with
  | notANumber | infinity | zero => cases v <;> rfl
  | finite sign mantissa exponent positive =>
    cases v with
    | notANumber | infinity | zero => rfl
    | finite => simp only [sub, add, neg, Sign.apply_neg, Int.sub_eq_add_neg]

/-! ## Doubles -/

/-- One less is minus one more. -/
theorem sub_one (x : Float) : x - 1.0 = x + -1.0 := by
  have negated : (-1.0 : Float).toModel.unpack = (1.0 : Float).toModel.unpack.neg := rfl
  show Float.ofModel (.pack (sub .binary64 x.toModel.unpack (1.0 : Float).toModel.unpack)) =
    .ofModel (.pack (add .binary64 x.toModel.unpack (-1.0 : Float).toModel.unpack))
  rw [negated, sub_eq_add_neg]

/-- A double without a minus sign. -/
def UnsignedFloat (x : Float) : Prop := Unsigned x.toModel.unpack

theorem unsignedFloat_pack {u : UnpackedFloat} (unsigned : Unsigned u) :
    UnsignedFloat (.ofModel (.pack u)) :=
  unsigned_unpack_pack unsigned

theorem isPositive_powersOfTen {e : Nat} (small : e < Float.exactlyRepresentablePowersOfTen.size) :
    isPositive Float.exactlyRepresentablePowersOfTen[e].toModel.unpack := by
  have all : Float.exactlyRepresentablePowersOfTen.all (isPositive ·.toModel.unpack) := by
    decide +kernel
  exact Array.all_eq_true.1 all e small

/-- No numeral stands for a negative number. -/
theorem unsignedFloat_numeral (whole fraction : List Char) :
    UnsignedFloat (numeral whole fraction) := by
  unfold numeral Float.ofScientific
  split
  · next fast =>
    exact unsignedFloat_pack (unsigned_div (unsigned_unpack_pack (unsigned_ofNat _))
      (isPositive_powersOfTen _))
  · exact unsignedFloat_pack (unsigned_ofScientific _ _)

theorem isNaN_eq_false {x : Float} (unsigned : UnsignedFloat x) : x.isNaN = false := by
  show x.toModel.unpack.isNaN = false
  unfold UnsignedFloat at unsigned
  cases isModel : x.toModel.unpack with
  | notANumber => rw [isModel] at unsigned; exact unsigned.elim
  | infinity | zero | finite => rfl

/-! ## The bit of the sign -/

theorem sign_of_unpack {b : BitVec Format.binary64.numBits} {s : Sign}
    (hasSign : sign? (unpack _ b) = some s) : Sign.ofBitVec (unpackSign b) = s := by
  dsimp only [unpack] at hasSign
  split at hasSign
  · split at hasSign
    · exact Option.some.inj hasSign
    · cases hasSign
  · split at hasSign
    · split at hasSign <;> exact Option.some.inj hasSign
    · exact Option.some.inj hasSign

theorem Unsigned.sign_eq {u : UnpackedFloat} (unsigned : Unsigned u) : sign? u = some .positive := by
  cases u with
  | notANumber => exact unsigned.elim
  | infinity | zero | finite => exact congrArg some unsigned

theorem sign_of_unsigned {b : BitVec Format.binary64.numBits} (unsigned : Unsigned (unpack _ b)) :
    Sign.ofBitVec (unpackSign b) = .positive :=
  sign_of_unpack unsigned.sign_eq

/-- The first bit of a double is its sign. -/
theorem le_toBits_iff {x : Float} {s : Sign} (hasSign : sign? x.toModel.unpack = some s) :
    0x8000000000000000 ≤ x.toBits ↔ s = .negative := by
  have first : (@unpackSign .binary64 x.toModel.toBits.toBitVec).toNat =
      x.toModel.toBits.toNat / 2 ^ 63 % 2 := by
    simp [unpackSign, Nat.shiftRight_eq_div_pow]
  have bound := x.toModel.toBits.toNat_lt
  rw [← sign_of_unpack hasSign, UInt64.le_iff_toNat_le]
  show 2 ^ 63 ≤ x.toModel.toBits.toNat ↔ _
  unfold Sign.ofBitVec
  split
  · next isZero =>
    rw [isZero, BitVec.toNat_zero] at first
    refine iff_of_false ?_ (by simp)
    omega
  · next notZero =>
    have notZero := mt BitVec.toNat_inj.1 notZero
    rw [first, BitVec.toNat_zero] at notZero
    refine iff_of_true ?_ rfl
    omega

theorem toBits_lt {x : Float} (unsigned : UnsignedFloat x) : x.toBits < 0x8000000000000000 :=
  UInt64.not_le.1 fun isHighest => by cases (le_toBits_iff unsigned.sign_eq).1 isHighest

/-! ## Quotients by zero -/

theorem beq_zero_iff {x : Float} : (x == 0.0) = true ↔ ∃ s, x.toModel.unpack = .zero s := by
  show (UnpackedFloat.beq x.toModel.unpack (.zero .positive)) = true ↔ _
  cases x.toModel.unpack with
  | notANumber => simp [UnpackedFloat.beq, UnpackedFloat.compare]
  | infinity s => cases s <;> simp [UnpackedFloat.beq, UnpackedFloat.compare]
  | zero s => simp [UnpackedFloat.beq, UnpackedFloat.compare]
  | finite s => cases s <;> simp [UnpackedFloat.beq, UnpackedFloat.compare]

theorem bne_self_iff {x : Float} : (x != x) = true ↔ x.toModel.unpack = .notANumber := by
  show (!UnpackedFloat.beq x.toModel.unpack x.toModel.unpack) = true ↔ _
  cases x.toModel.unpack with
  | notANumber => simp [UnpackedFloat.beq, UnpackedFloat.compare]
  | infinity s => cases s <;> exact iff_of_false (by decide) (by simp)
  | zero s => simp [UnpackedFloat.beq, UnpackedFloat.compare]
  | finite s => cases s <;> simp [UnpackedFloat.beq, UnpackedFloat.compare]

section
variable {x y : Float} {s s' : Sign}

theorem copySign_cases (magnitude : Float) (hasSign : sign? x.toModel.unpack = some s) :
    s = .positive ∧ copySign magnitude x = magnitude.abs ∨
      s = .negative ∧ copySign magnitude x = -magnitude.abs := by
  have highest := le_toBits_iff hasSign
  cases s with
  | positive => exact .inl ⟨rfl, if_neg fun isHigh => by cases highest.1 isHigh⟩
  | negative => exact .inr ⟨rfl, if_pos (highest.2 rfl)⟩

theorem unpack_copySign_infinity (hasSign : sign? x.toModel.unpack = some s) :
    (copySign infinity x).toModel.unpack = .infinity s := by
  rcases copySign_cases infinity hasSign with ⟨rfl, same⟩ | ⟨rfl, same⟩ <;> rw [same] <;> rfl

theorem unpack_copySign_one (hasSign : sign? x.toModel.unpack = some s) :
    ∃ m e positive, (copySign 1.0 x).toModel.unpack = .finite s m e positive := by
  rcases copySign_cases 1.0 hasSign with ⟨rfl, same⟩ | ⟨rfl, same⟩ <;> rw [same] <;>
    exact ⟨_, _, _, rfl⟩

/-- Infinity with the signs of a number and of a zero is the quotient of the two. -/
theorem copySign_mul_copySign (hasSign : sign? x.toModel.unpack = some s)
    (isZero : y.toModel.unpack = .zero s') :
    copySign infinity x * copySign 1.0 y = .ofModel (.pack (.infinity (s / s'))) := by
  obtain ⟨m, e, positive, isOne⟩ := unpack_copySign_one (x := y) (s := s') (by rw [isZero]; rfl)
  show Float.ofModel (.pack (mul .binary64 _ _)) = _
  rw [unpack_copySign_infinity hasSign, isOne]
  cases s <;> cases s' <;> rfl

theorem zero_or_nan_iff : (x == 0.0 || x != x) = true ↔
    (∃ s, x.toModel.unpack = .zero s) ∨ x.toModel.unpack = .notANumber := by
  rw [Bool.or_eq_true, beq_zero_iff, bne_self_iff]

end

/-- With a divisor of zero told apart, the quotient is that of the doubles. -/
theorem divide_eq_div (x y : Float) : divide x y = x / y := by
  unfold divide
  split
  · next isZero =>
    obtain ⟨s', isZero⟩ := beq_zero_iff.1 isZero
    have quotient : x / y = .ofModel (.pack (div .binary64 x.toModel.unpack (.zero s'))) :=
      isZero ▸ rfl
    rw [quotient]
    cases isModel : x.toModel.unpack with
    | notANumber => exact if_pos (zero_or_nan_iff.2 (.inr isModel))
    | zero s => exact if_pos (zero_or_nan_iff.2 (.inl ⟨s, isModel⟩))
    | infinity s | finite s =>
      have neither : ¬(x == 0.0 || x != x) = true := by
        rw [zero_or_nan_iff, isModel]
        simp
      rw [if_neg neither]
      exact copySign_mul_copySign (by rw [isModel]; rfl) isZero
  · rfl

end Lox.Number
