import Lox.Number.Layout
import Lox.Proofs.Numbers.Signs
import Lox.Text.Letter

/-!
# The characters of a number's text

Main statement: the text of a finite number without a minus sign starts with a digit and goes on
with digits, a point and an exponent.
-/

namespace Lox.Number

open Lox.Text (isDigit)

/-! ## Digits -/

theorem isDigit_of_mem_toDigits {n : Nat} {c : Char} (member : c ∈ Nat.toDigits 10 n) :
    isDigit c := by
  have digit := Nat.isDigit_of_mem_toDigits (by decide) (by decide) member
  simpa [Char.isDigit, isDigit, Char.le_def] using digit

/-- A number above zero has a digit above zero. -/
theorem exists_ne_zero_of_mem_toDigits {n : Nat} (positive : n ≠ 0) :
    ∃ c ∈ Nat.toDigits 10 n, c ≠ '0' := by
  induction n using Nat.strongRecOn with
  | ind n ih =>
    by_cases small : n < 10
    · rw [Nat.toDigits_of_lt_base small]
      refine ⟨_, List.mem_singleton_self _, ?_⟩
      have digits : ∀ d < 10, d ≠ 0 → Nat.digitChar d ≠ '0' := by decide
      exact digits n small positive
    · obtain ⟨c, member, notZero⟩ := ih (n / 10) (by omega) (by omega)
      rw [Nat.toDigits_of_base_le (by decide) (by omega)]
      exact ⟨c, List.mem_append_left _ member, notZero⟩

/-! ## The digits of the shortest decimal -/

theorem Span.holds_of_whole? {s : Span} {n : Nat} (isWhole : s.whole? = some n) : s.holds n := by
  simp only [whole?] at isWhole
  split at isWhole
  · next below above =>
    cases isWhole
    simp only [nearest]
    split
    · exact below
    · split
      · exact above
      · split
        · exact below
        · exact above
  · next below above =>
    cases isWhole
    exact below
  · next below above =>
    cases isWhole
    exact above
  · cases isWhole

/-- Zero is in no span that starts above it. -/
theorem Span.ne_zero_of_holds {s : Span} {n : Nat} (above : 0 < s.low) (holds : s.holds n) :
    n ≠ 0 := by
  rintro rfl
  unfold Span.holds at holds
  split at holds
  · simp at holds
    omega
  · simp at holds

theorem Binary.shortest_digits_ne_zero {b : Binary} (positive : b.mantissa ≠ 0) :
    b.shortest.digits ≠ 0 := by
  have low (exponent : Int) : 0 < (b.span.inUnits exponent).low := by
    have narrow : 0 < 4 * b.mantissa - if b.narrowBelow then 1 else 2 := by
      split <;> omega
    exact Nat.mul_pos (Nat.mul_pos narrow (Nat.pow_pos (by decide))) (Nat.pow_pos (by decide))
  simp only [shortest]
  cases found : (List.range 17).findSome? fun more : Nat =>
      b.span.decimal? (b.span.leading - more) with
  | none =>
    have twos := Nat.pow_pos (n := b.exponent.toNat) (by decide : 0 < 2)
    have fives := Nat.pow_pos (n := (-b.exponent).toNat) (by decide : 0 < 5)
    exact Nat.mul_ne_zero (Nat.mul_ne_zero positive (Nat.ne_of_gt twos)) (Nat.ne_of_gt fives)
  | some d =>
    obtain ⟨more, _, isDecimal⟩ := List.exists_of_findSome?_eq_some found
    obtain ⟨n, isWhole, rfl⟩ := Option.map_eq_some_iff.1 isDecimal
    exact Span.ne_zero_of_holds (low _) (Span.holds_of_whole? isWhole)

/-! ## Texts -/

/-- A character in the text of a finite number. -/
def inNumber (c : Char) : Bool := isDigit c || ['.', 'e', '+', '-'].contains c

/-- A text that starts with a digit and has only characters of numbers. -/
def Digital : List Char → Prop
  | [] => False
  | c :: rest => isDigit c ∧ ∀ d ∈ rest, inNumber d

theorem inNumber_of_isDigit {c : Char} (digit : isDigit c) : inNumber c := by
  simp [inNumber, digit]

theorem Digital.inNumber {text : List Char} (digital : Digital text) : ∀ c ∈ text, inNumber c := by
  cases text with
  | nil => exact digital.elim
  | cons c rest => exact List.forall_mem_cons.2 ⟨inNumber_of_isDigit digital.1, digital.2⟩

theorem Digital.append {text more : List Char} (digital : Digital text)
    (others : ∀ c ∈ more, Number.inNumber c) : Digital (text ++ more) := by
  cases text with
  | nil => exact digital.elim
  | cons c rest => exact ⟨digital.1, List.forall_mem_append.2 ⟨digital.2, others⟩⟩

theorem digital_of_digits {digits : List Char} (nonempty : digits ≠ [])
    (inside : ∀ c ∈ digits, isDigit c) : Digital digits := by
  cases digits with
  | nil => exact absurd rfl nonempty
  | cons c rest =>
    obtain ⟨first, others⟩ := List.forall_mem_cons.1 inside
    exact ⟨first, fun d member => inNumber_of_isDigit (others d member)⟩

theorem isDigit_of_mem_replicate {n : Nat} : ∀ c ∈ List.replicate n '0', isDigit c := by
  intro c member
  rw [List.eq_of_mem_replicate member]
  decide

/-- There are digits before a point that is not at their start. -/
theorem take_ne_nil {digits : List Char} (nonempty : digits ≠ []) {point : Int}
    (after : ¬point ≤ 0) : digits.take point.toNat ≠ [] := by
  rw [Ne, List.take_eq_nil_iff]
  rintro (noPoint | isNil)
  · omega
  · exact nonempty isNil

theorem digital_positions {digits : List Char} (nonempty : digits ≠ [])
    (inside : ∀ c ∈ digits, isDigit c) (point : Int) : Digital (plain.positions digits point) := by
  have others (text : List Char) (digits : ∀ c ∈ text, isDigit c) : ∀ c ∈ text, inNumber c :=
    fun c member => inNumber_of_isDigit (digits c member)
  unfold Layout.positions
  split
  · refine ⟨by decide, List.forall_mem_cons.2 ⟨by decide, ?_⟩⟩
    exact others _ (List.forall_mem_append.2 ⟨isDigit_of_mem_replicate, inside⟩)
  · next after =>
    split
    · rw [plain, List.append_nil]
      exact (digital_of_digits nonempty inside).append (others _ isDigit_of_mem_replicate)
    · refine (digital_of_digits (take_ne_nil nonempty after) fun c member =>
        inside c (List.mem_of_mem_take member)).append ?_
      refine List.forall_mem_cons.2 ⟨by decide, ?_⟩
      exact others _ fun c member => inside c (List.mem_of_mem_drop member)

theorem inNumber_exponentText (exponent : Int) : ∀ c ∈ exponentText exponent, inNumber c := by
  unfold exponentText
  refine List.forall_mem_append.2 ⟨List.forall_mem_cons.2 ⟨by decide, ?_⟩, ?_⟩
  · refine List.forall_mem_cons.2 ⟨by split <;> decide, ?_⟩
    exact fun c member => inNumber_of_isDigit (isDigit_of_mem_replicate c member)
  · exact fun c member => inNumber_of_isDigit (isDigit_of_mem_toDigits member)

theorem digital_scientific {digits : List Char} (nonempty : digits ≠ [])
    (inside : ∀ c ∈ digits, isDigit c) (exponent : Int) : Digital (scientific digits exponent) := by
  refine Digital.append ?_ (inNumber_exponentText exponent)
  have digital := digital_of_digits nonempty inside
  match digits with
  | [_] => exact digital
  | _ :: _ :: _ => exact ⟨digital.1, List.forall_mem_cons.2 ⟨by decide, digital.2⟩⟩

/-- A number above zero has a digit before the zeros at its end. -/
theorem significant_ne_nil {n : Nat} (positive : n ≠ 0) :
    ((Nat.toDigits 10 n).reverse.dropWhile (· == '0')).reverse ≠ [] := by
  obtain ⟨c, member, notZero⟩ := exists_ne_zero_of_mem_toDigits positive
  intro nothing
  rw [List.reverse_eq_nil_iff, List.dropWhile_eq_nil_iff] at nothing
  exact notZero (beq_iff_eq.1 (nothing c (List.mem_reverse.2 member)))

theorem isDigit_of_mem_significant {n : Nat} :
    ∀ c ∈ ((Nat.toDigits 10 n).reverse.dropWhile (· == '0')).reverse, isDigit c := by
  intro c member
  exact isDigit_of_mem_toDigits
    (List.mem_reverse.1 ((List.dropWhile_sublist _).subset (List.mem_reverse.1 member)))

theorem digital_decimal {d : Decimal} (positive : d.digits ≠ 0) : Digital (plain.decimal d) := by
  have nonempty := significant_ne_nil positive
  simp only [Layout.decimal]
  split
  · exact digital_positions nonempty isDigit_of_mem_significant _
  · exact digital_scientific nonempty isDigit_of_mem_significant _

/-- The text of a finite number without a minus sign is its magnitude. -/
theorem Layout.text_eq_magnitude {x : Float} (unsigned : UnsignedFloat x) (finite : x.isInf = false)
    (layout : Layout) : layout.text x = layout.magnitude x.toBits := by
  simp only [Layout.text, isNaN_eq_false unsigned, finite, Bool.false_eq_true, if_false,
    UInt64.not_le.2 (toBits_lt unsigned), List.nil_append]

/-- A number whose text starts with a digit and has only characters of numbers. -/
def InDigits (x : Float) : Prop := Digital (plain.text x)

/-- A finite number without a minus sign is written with a digit first and characters of numbers. -/
theorem inDigits {x : Float} (unsigned : UnsignedFloat x) (finite : x.isInf = false) :
    InDigits x := by
  rw [InDigits, Layout.text_eq_magnitude unsigned finite, Layout.magnitude]
  split
  · exact ⟨by decide, nofun⟩
  · next positive => exact digital_decimal (Binary.shortest_digits_ne_zero positive)

end Lox.Number
