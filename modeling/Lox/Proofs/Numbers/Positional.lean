import Lox.Proofs.Numbers.Shortest

/-!
# Numbers in positions

A number whose text has no exponent is written as digits, and more digits after a point if there are
any. Main statement: the numeral of these digits stands for the number.
-/

namespace Lox.Number

open Lox.Text (isDigit)

/-! ## The numbers of digits -/

theorem ofDigits_append (digits more : List Char) :
    ofDigits (digits ++ more) = 10 ^ more.length * ofDigits digits + ofDigits more :=
  (Nat.ofDigitChars_append 0).trans Nat.ofDigitChars_eq_ofDigitChars_zero

theorem ofDigits_replicate_zero (n : ℕ) : ofDigits (List.replicate n '0') = 0 :=
  Nat.ofDigitChars_replicate_zero.trans (Nat.mul_zero _)

theorem ofDigits_toDigits (n : ℕ) : ofDigits (Nat.toDigits 10 n) = n :=
  Nat.ofDigitChars_ten_toDigits

/-- The digits of a number are the significant ones and zeros, which count powers of ten. -/
theorem exists_significant (n : ℕ) : ∃ (significant : List Char) (zeros : ℕ),
    ((Nat.toDigits 10 n).reverse.dropWhile (· == '0')).reverse = significant ∧
      (Nat.toDigits 10 n).length = significant.length + zeros ∧
      n = 10 ^ zeros * ofDigits significant := by
  let zeros := ((Nat.toDigits 10 n).reverse.takeWhile (· == '0')).length
  have areZeros : (Nat.toDigits 10 n).reverse.takeWhile (· == '0') = List.replicate zeros '0' := by
    refine List.eq_replicate_of_mem fun c member => ?_
    have isZero : (c == '0') = true := List.mem_takeWhile_imp (p := (· == '0')) member
    exact beq_iff_eq.1 isZero
  have split := congrArg List.reverse
    (List.takeWhile_append_dropWhile (p := (· == '0')) (l := (Nat.toDigits 10 n).reverse))
  rw [List.reverse_append, List.reverse_reverse, areZeros, List.reverse_replicate] at split
  refine ⟨_, zeros, rfl, ?_, ?_⟩
  · conv_lhs => rw [← split]
    rw [List.length_append, List.length_replicate]
  · conv_lhs => rw [← ofDigits_toDigits n, ← split]
    rw [ofDigits_append, ofDigits_replicate_zero, List.length_replicate, add_zero]

/-! ## Digits around a point -/

/-- Digits, and more digits after a point if there are any. -/
structure Positional where
  whole : List Char
  fraction : List Char
  nonempty : whole ≠ []
  inside : ∀ d ∈ whole, isDigit d
  inside' : ∀ d ∈ fraction, isDigit d

namespace Positional

/-- The text of the digits; a point without digits after it is left out. -/
def text (p : Positional) : List Char :=
  p.whole ++ if p.fraction = [] then [] else '.' :: p.fraction

/-- The number that the digits write. -/
def value (p : Positional) : ℚ := ofDigits (p.whole ++ p.fraction) / 10 ^ p.fraction.length

/-- The double that the digits stand for. -/
def read (p : Positional) : Float := numeral p.whole p.fraction

end Positional

section
variable {digits : List Char} (nonempty : digits ≠ []) (inside : ∀ c ∈ digits, isDigit c)
include nonempty inside

/-- Digits with the point anywhere are digits around a point. -/
theorem exists_positions_eq (point : ℤ) : ∃ p : Positional,
    plain.positions digits point = p.text ∧
      p.value = ofDigits digits * 10 ^ (point - digits.length) := by
  have zeros (n : ℕ) : ∀ d ∈ List.replicate n '0', isDigit d := isDigit_of_mem_replicate
  unfold Layout.positions
  split
  · -- The point is before the digits, and a zero before the point.
    refine ⟨⟨['0'], List.replicate (-point).toNat '0' ++ digits, List.cons_ne_nil _ _, zeros 1,
      List.forall_mem_append.2 ⟨zeros _, inside⟩⟩, ?_, ?_⟩
    · rw [Positional.text, if_neg (List.append_ne_nil_of_right_ne_nil _ nonempty)]
      rfl
    · have exponent : point - digits.length =
          -((List.replicate (-point).toNat '0' ++ digits).length : ℤ) := by
        rw [List.length_append, List.length_replicate]
        omega
      have isZero : ofDigits ['0'] = 0 := rfl
      rw [Positional.value, exponent, ofDigits_append, ofDigits_append, ofDigits_replicate_zero,
        isZero, zpow_neg, zpow_natCast]
      simp [div_eq_mul_inv]
  · next after =>
    split
    · -- The point would be behind the digits or their zeros, and is left out.
      refine ⟨⟨digits ++ List.replicate (point - digits.length).toNat '0', [],
        List.append_ne_nil_of_left_ne_nil nonempty _,
        List.forall_mem_append.2 ⟨inside, zeros _⟩, List.forall_mem_nil _⟩, rfl, ?_⟩
      have exponent : point - digits.length = ((point - digits.length).toNat : ℤ) := by omega
      rw [Positional.value, List.append_nil, ofDigits_append, ofDigits_replicate_zero,
        List.length_replicate, exponent, zpow_natCast]
      simp [mul_comm]
    · have some : digits.drop point.toNat ≠ [] := by
        rw [Ne, List.drop_eq_nil_iff]
        omega
      refine ⟨⟨digits.take point.toNat, digits.drop point.toNat, take_ne_nil nonempty after,
        fun d member => inside d (List.mem_of_mem_take member),
        fun d member => inside d (List.mem_of_mem_drop member)⟩, ?_, ?_⟩
      · rw [Positional.text, if_neg some]
      · have exponent : point - digits.length = -((digits.drop point.toNat).length : ℤ) := by
          rw [List.length_drop]
          omega
        rw [Positional.value, List.take_append_drop, exponent, zpow_neg, zpow_natCast,
          div_eq_mul_inv]

end

/-! ## Decimals and doubles in positions -/

theorem mem_scientific (digits : List Char) (exponent : ℤ) : 'e' ∈ scientific digits exponent :=
  List.mem_append_right _ List.mem_cons_self

/-- A decimal without an exponent in its text is digits around a point. -/
theorem exists_decimal_eq {d : Decimal} (positive : d.digits ≠ 0)
    (noExponent : 'e' ∉ marked.decimal d) : ∃ p : Positional,
      plain.decimal d = p.text ∧ p.value = d.value := by
  obtain ⟨significant, zeros, isSignificant, length, digits⟩ := exists_significant d.digits
  let point : ℤ := (Nat.toDigits 10 d.digits).length + d.exponent
  have isPositional : plain.least ≤ point - 1 ∧ point - 1 ≤ plain.greatest := by
    by_contra outside
    have isScientific : marked.decimal d = scientific _ (point - 1) := if_neg outside
    rw [isScientific] at noExponent
    exact noExponent (mem_scientific _ _)
  have isText : plain.decimal d = plain.positions significant point := by
    rw [← isSignificant]
    exact if_pos isPositional
  have nonempty : significant ≠ [] := by
    rw [← isSignificant]
    exact significant_ne_nil positive
  have inside : ∀ c ∈ significant, isDigit c := by
    rw [← isSignificant]
    exact isDigit_of_mem_significant
  obtain ⟨p, isPositions, value⟩ := exists_positions_eq nonempty inside point
  refine ⟨p, isText.trans isPositions, ?_⟩
  have exponent : point - significant.length = zeros + d.exponent := by
    show ((Nat.toDigits 10 d.digits).length + d.exponent : ℤ) - significant.length = _
    omega
  have whole : (d.digits : ℚ) = 10 ^ zeros * ofDigits significant := by exact_mod_cast digits
  rw [value, exponent, Decimal.value, whole, zpow_add₀ (by norm_num), zpow_natCast]
  ring

/-- The digits of a double without an exponent in its text stand for the double. -/
theorem exists_text_eq {x : Float} (unsigned : UnsignedFloat x) (finite : x.isInf = false)
    (noExponent : 'e' ∉ marked.text x) : ∃ p : Positional, plain.text x = p.text ∧ p.read = x := by
  rw [Layout.text_eq_magnitude unsigned finite, Layout.magnitude] at noExponent ⊢
  by_cases isZero : (Binary.ofBits x.toBits).mantissa = 0
  · refine ⟨⟨['0'], [], List.cons_ne_nil _ _, isDigit_of_mem_replicate (n := 1),
      List.forall_mem_nil _⟩, ?_, ?_⟩
    · rw [if_pos isZero]
      rfl
    · rcases unpack_eq_ofBits unsigned finite with ⟨_, none⟩ | ⟨positive, _⟩
      · have isRead : numeral ['0'] [] = .ofModel (.pack (.zero .positive)) := by decide +kernel
        rw [← ofModel_pack_unpack x, none]
        exact isRead
      · omega
  · rw [if_neg isZero] at noExponent ⊢
    obtain ⟨p, isText, value⟩ :=
      exists_decimal_eq (Binary.shortest_digits_ne_zero isZero) noExponent
    exact ⟨p, isText, numeral_eq_of_shortest unsigned finite isZero value⟩

end Lox.Number
