import Lox.Proofs.Grammar.Lone
import Lox.Proofs.Numbers.Positional
import Lox.Proofs.Tokens.Joined
import Lox.Value.Basic

/-!
# Numbers that are read back

Numbers are printed by one program and scanned by another, with rules of their own for points. Main
statement: a number that is printed without an exponent is scanned as this number and nothing else,
and the printed form of its literal is read as this literal.
-/

namespace Lox

open Lox.Number (Positional UnsignedFloat)

/-- Digits around a point are a number by themselves. -/
theorem Number.Positional.complete (p : Positional) :
    Token.Complete [] .number (.num p.read) p.text := by
  by_cases none : p.fraction = []
  · have isText : p.text = p.whole := by rw [text, if_pos none, List.append_nil]
    rw [isText, read, none]
    exact .whole p.nonempty p.inside (by simp) (by simp)
  · have isText : p.text = p.whole ++ '.' :: p.fraction := by rw [text, if_neg none]
    rw [isText]
    exact .fraction p.nonempty p.inside none p.inside' (by simp)

section
variable {x : Float} (unsigned : UnsignedFloat x) (finite : x.isInf = false)
include unsigned finite

/-- The text of a number is on one line. -/
theorem newlines_text : Text.newlines (Number.plain.text x) = 0 := by
  refine List.count_eq_zero.2 fun member => ?_
  exact absurd ((Number.inDigits unsigned finite).inNumber _ member) (by decide)

/-- The text of a number without an exponent is spelled as this number. -/
theorem spelled_number (noExponent : 'e' ∉ (Literal.num x).quoted.toList) :
    Token.Spelled ⟨.number, (Value.num x).text, .num x, 1⟩ := by
  have isText : (Value.num x).text.toList = Number.plain.text x := String.toList_ofList
  have isQuoted : (Literal.num x).quoted.toList = Number.marked.text x := String.toList_ofList
  rw [isQuoted] at noExponent
  obtain ⟨p, isPositional, isRead⟩ := Number.exists_text_eq unsigned finite noExponent
  rw [Token.spelled_iff]
  dsimp only
  rw [isText]
  constructor
  · rw [isPositional, ← isRead]
    exact p.complete
  · rw [newlines_text unsigned finite]
    rfl

theorem scan_number (noExponent : 'e' ∉ (Literal.num x).quoted.toList) :
    scan (Value.num x).text.toList =
      ⟨⟨[⟨.number, (Value.num x).text, .num x, 1⟩], ⟨.eof, "", .nil, 1⟩⟩, []⟩ := by
  have isText : (Value.num x).text.toList = Number.plain.text x := String.toList_ofList
  have stop : (scan (Value.num x).text.toList).stream.stop = ⟨.eof, "", .nil, 1⟩ := by
    rw [scan_stop, endMark, isText, newlines_text unsigned finite]
    rfl
  obtain ⟨fine, tokens⟩ := spelled_number unsigned finite noExponent
  exact congr (congrArg Scan.mk (congr (congrArg Stream.mk tokens) stop)) fine

/-- Every finite number without a minus sign that is written without an exponent is scanned as one
token, this number, and the end. The printed form of its literal is read as this literal, with a
number for the new node. -/
theorem printed_number_reads_back (noExponent : 'e' ∉ (Literal.num x).quoted.toList) :
    (scan (Value.num x).text.toList).defects = [] ∧
      (scan (Value.num x).text.toList).stream.toList =
        [⟨.number, (Value.num x).text, .num x, 1⟩, ⟨.eof, "", .nil, 1⟩] ∧
      ∀ i j, ∃ stream, tokenize (Expr.literal i (.num x)).printed.toList = .ok stream ∧
        stream.expression j = (.ok (.literal j (.num x)), j + 1) := by
  have scanned := scan_number unsigned finite noExponent
  rw [scanned]
  refine ⟨rfl, rfl, fun i j => ⟨⟨[⟨.number, (Value.num x).text, .num x, 1⟩], ⟨.eof, "", .nil, 1⟩⟩,
    ?_, ?_⟩⟩
  · show tokenize (Value.num x).text.toList = _
    rw [tokenize, scanned]
    rfl
  · have value : Grammar.Expression .primary [⟨.number, (Value.num x).text, .num x, 1⟩]
        (.literal j (.num x)) j (j + 1) := .value (.inl rfl)
    exact (Grammar.expression_eq_ok_iff rfl (by simp) _ _ _).2 (value.loosen (by decide))

end

theorem tenth_reads_back :
    let x := Number.numeral ['0'] ['1']
    UnsignedFloat x ∧ x.isInf = false ∧ 'e' ∉ (Literal.num x).quoted.toList ∧
      (Value.num x).text = "0.1" ∧ (scan "0.1".toList).defects = [] ∧
      (scan "0.1".toList).stream.toList = [⟨.number, "0.1", .num x, 1⟩, ⟨.eof, "", .nil, 1⟩] ∧
      ∀ i j, ∃ stream, tokenize (Expr.literal i (.num x)).printed.toList = .ok stream ∧
        stream.expression j = (.ok (.literal j (.num x)), j + 1) := by
  intro x
  have unsigned : UnsignedFloat x := Number.unsignedFloat_numeral _ _
  have finite : x.isInf = false := by decide +kernel
  have noExponent : 'e' ∉ (Literal.num x).quoted.toList := by decide +kernel
  have isText : (Value.num x).text = "0.1" := by decide +kernel
  have back := printed_number_reads_back unsigned finite noExponent
  rw [isText] at back
  exact ⟨unsigned, finite, noExponent, isText, back⟩

end Lox
