import Lox.Proofs.Numbers.Texts
import Lox.Proofs.Printing.Forms
import Lox.Proofs.Tokens.Joined

/-!
# Legible trees

Trees that tokens are read as have operators, names and literals that a text can spell. What is known
of a legible token is told from its lexeme, and the forms of legible trees are proper.
-/

namespace Lox

open Lox.Number (InDigits)
open Lox.Text (isDigit)

/-! ## Legible trees -/

/-- A token that a text can spell, of one of the given kinds. -/
structure Token.Legible (kinds : List Kind) (t : Token) : Prop where
  kind : t.kind ∈ kinds
  complete : Token.Complete [] t.kind t.literal t.lexeme.toList

/-- The operators between operands that are always both evaluated. -/
def Kind.binaryOperators : List Kind :=
  [.equalEqual, .bangEqual, .less, .lessEqual, .greater, .greaterEqual, .plus, .minus, .star,
    .slash]

section
variable (numbers : Float → Prop)

/-- A literal that a text can spell; its number is one of the given ones. -/
def Literal.Legible : Literal → Prop
  | .num x => numbers x
  | .str s => '"' ∉ s.toList
  | .nil | .bool _ => True

mutual

/-- The tokens and the literals of an expression are legible. -/
def Expr.Legible : Expr → Prop
  | .literal _ value => value.Legible numbers
  | .grouping _ inner => inner.Legible
  | .unary _ operator right => operator.Legible [.minus, .bang] ∧ right.Legible
  | .binary _ left operator right =>
    left.Legible ∧ operator.Legible Kind.binaryOperators ∧ right.Legible
  | .logical _ left operator right =>
    left.Legible ∧ operator.Legible [.orWord, .andWord] ∧ right.Legible
  | .step _ left operator => left.Legible ∧ operator.Legible [.plusPlus, .minusMinus]
  | .reference _ name => name.Legible [.identifier]
  | .assignment _ name value => name.Legible [.identifier] ∧ value.Legible
  | .call _ callee arguments paren =>
    callee.Legible ∧ Expr.AllLegible arguments ∧ paren.Legible [.rightParen]
  | .lambda _ keyword params body _ =>
    keyword.Legible [.funWord] ∧ (∀ name ∈ params, name.Legible [.identifier]) ∧
      Stmt.AllLegible body
  | .misplaced _ => False

/-- The expressions of a list are legible. -/
def Expr.AllLegible : List Expr → Prop
  | [] => True
  | e :: rest => e.Legible ∧ Expr.AllLegible rest

/-- An optional expression is legible. -/
def Expr.OptionLegible : Option Expr → Prop
  | none => True
  | some e => e.Legible

/-- The tokens and the literals of a statement are legible. -/
def Stmt.Legible : Stmt → Prop
  | .expression e => e.Legible
  | .declaration name initializer => name.Legible [.identifier] ∧ Expr.OptionLegible initializer
  | .block statements => Stmt.AllLegible statements
  | .ifElse condition thenBranch elseBranch =>
    condition.Legible ∧ thenBranch.Legible ∧ Stmt.OptionLegible elseBranch
  | .whileLoop condition body increment =>
    condition.Legible ∧ body.Legible ∧ Expr.OptionLegible increment
  | .breakLoop keyword => keyword.Legible [.breakWord]
  | .continueLoop keyword => keyword.Legible [.continueWord]
  | .returnValue keyword value => keyword.Legible [.returnWord] ∧ Expr.OptionLegible value
  | .misplaced _ => False

/-- The statements of a list are legible. -/
def Stmt.AllLegible : List Stmt → Prop
  | [] => True
  | s :: rest => s.Legible ∧ Stmt.AllLegible rest

/-- An optional statement is legible. -/
def Stmt.OptionLegible : Option Stmt → Prop
  | none => True
  | some s => s.Legible

end

end

/-! ## Tokens are told from their lexemes -/

/-- The kind of the token that a text starts with. -/
def headKind : List Char → Kind
  | [] => .eof
  | c :: rest =>
    match (firstPiece c rest).shape with
    | .token kind _ => kind
    | _ => .eof

section
variable {kinds kinds' : List Kind} {t t' : Token}

theorem Token.Legible.headKind_eq (legible : t.Legible kinds) : headKind t.lexeme.toList = t.kind := by
  obtain ⟨c, rest, split, isPiece⟩ := firstPiece_of_complete legible.complete
  rw [List.append_nil] at split
  rw [split, headKind, isPiece]

theorem Token.Legible.content_eq (legible : t.Legible kinds) (legible' : t'.Legible kinds')
    (same : t.lexeme.toList = t'.lexeme.toList) : t.content = t'.content := by
  obtain ⟨c, rest, split, isPiece⟩ := firstPiece_of_complete legible.complete
  obtain ⟨c', rest', split', isPiece'⟩ := firstPiece_of_complete legible'.complete
  rw [same, split'] at split
  obtain ⟨rfl, rfl⟩ := List.cons.inj split
  rw [isPiece] at isPiece'
  obtain ⟨sameShape, _⟩ := Piece.mk.inj isPiece'
  obtain ⟨sameKind, sameLiteral⟩ := Shape.token.inj sameShape
  rw [content, content, sameKind, sameLiteral, String.toList_inj.1 same]

/-- The kinds of tokens that are written in more than one way. -/
def Kind.isVaried (kind : Kind) : Bool := [.identifier, .number, .string].contains kind

theorem Kind.ofWord_cases (word : String) :
    Kind.ofWord word = .identifier ∨ (word, Kind.ofWord word) ∈ Kind.words := by
  unfold Kind.ofWord
  cases found : Kind.words.lookup word with
  | none => exact .inl rfl
  | some kind =>
    obtain ⟨first, later, split, _⟩ := List.lookup_eq_some_iff.1 found
    right
    rw [split]
    exact List.mem_append_right _ List.mem_cons_self

/-- The lexemes of the kinds that are written in one way. -/
def Kind.spellings : List (List Char × Kind) :=
  Kind.symbols ++ Kind.words.map fun (word, kind) => (word.toList, kind)

theorem Token.Complete.mem_spellings {after text : List Char} {kind : Kind} {literal : Literal}
    (complete : Token.Complete after kind literal text) (fixed : kind.isVaried = false) :
    (text, kind) ∈ Kind.spellings := by
  cases complete with
  | symbol listed => exact List.mem_append_left _ listed
  | @word c rest =>
    rcases Kind.ofWord_cases (String.ofList (c :: rest)) with isName | listed
    · rw [isName] at fixed
      cases fixed
    · exact List.mem_append_right _ (List.mem_map.2 ⟨_, listed, by simp only [String.toList_ofList]⟩)
  | whole | fraction | string => cases fixed

theorem Kind.spellings_unique {text text' : List Char} {kind : Kind}
    (listed : (text, kind) ∈ spellings) (listed' : (text', kind) ∈ spellings) : text = text' := by
  have unique : ∀ s ∈ spellings, ∀ s' ∈ spellings, s.2 = s'.2 → s.1 = s'.1 := by decide +kernel
  exact unique _ listed _ listed' rfl

/-- Tokens of a kind that is written in one way are the same up to their lines. -/
theorem Token.Legible.content_eq_of_kind {kind : Kind} (legible : t.Legible [kind])
    (legible' : t'.Legible [kind]) (fixed : kind.isVaried = false) : t.content = t'.content := by
  have isKind : t.kind = kind := List.mem_singleton.1 legible.kind
  have isKind' : t'.kind = kind := List.mem_singleton.1 legible'.kind
  have listed := legible.complete.mem_spellings (by rw [isKind, fixed])
  have listed' := legible'.complete.mem_spellings (by rw [isKind', fixed])
  rw [isKind] at listed
  rw [isKind'] at listed'
  exact legible.content_eq legible' (Kind.spellings_unique listed listed')

end

/-! ## Legible trees have proper forms -/

/-- The kinds of names, of other words, and of operators. -/
def Kind.isWord : Kind → Bool
  | .leftParen | .rightParen | .leftBrace | .rightBrace | .semicolon | .number | .string => false
  | _ => true

theorem isDelimiter_of_continuesWord {c : Char} (inside : continuesWord c) :
    isDelimiter c = false := by
  have outside : ([' ', '"', '(', ')', '{', '}', ';'].all fun c => !continuesWord c) = true := by
    decide +kernel
  rw [← Bool.not_eq_true]
  intro delimiter
  have isOutside := List.all_eq_true.1 outside c (List.contains_iff_mem.1 delimiter)
  rw [inside] at isOutside
  cases isOutside

theorem Token.Complete.proper_word {after text : List Char} {kind : Kind} {literal : Literal}
    (complete : Token.Complete after kind literal text) (isWord : kind.isWord) :
    (Form.word text).Proper := by
  refine ⟨complete.ne_nil, ?_⟩
  cases complete with
  | symbol listed =>
    have symbols : (Kind.symbols.all fun symbol =>
        !symbol.2.isWord || symbol.1.all fun c => !isDelimiter c) = true := by decide +kernel
    have symbol := List.all_eq_true.1 symbols _ listed
    simpa [isWord] using symbol
  | @word c rest starts inside =>
    have first : continuesWord c := by rw [continuesWord, starts, Bool.true_or]
    have all : ∀ d ∈ c :: rest, continuesWord d := List.forall_mem_cons.2 ⟨first, inside⟩
    exact fun d member => isDelimiter_of_continuesWord (all d member)
  | whole | fraction | string => cases isWord

theorem Token.Legible.proper_word {kinds : List Kind} {t : Token} (legible : t.Legible kinds)
    (words : ∀ kind ∈ kinds, kind.isWord) : (Form.word t.lexeme.toList).Proper :=
  legible.complete.proper_word (words _ legible.kind)

/-- A fixed word of the printed forms. -/
theorem Form.proper_fixed {word : String}
    (plain : (word.toList != [] && word.toList.all fun c => !isDelimiter c) = true) :
    (Form.word word.toList).Proper := by
  rw [Bool.and_eq_true, bne_iff_ne, List.all_eq_true] at plain
  refine ⟨plain.1, fun c member => ?_⟩
  simpa using plain.2 c member

theorem isDelimiter_of_inNumber {c : Char} (inside : Number.inNumber c) :
    isDelimiter c = false := by
  have outside : ([' ', '"', '(', ')', '{', '}', ';'].all fun c => !Number.inNumber c) = true := by
    decide +kernel
  rw [← Bool.not_eq_true]
  intro delimiter
  have isOutside := List.all_eq_true.1 outside c (List.contains_iff_mem.1 delimiter)
  rw [inside] at isOutside
  cases isOutside

theorem Literal.form_proper {value : Literal} (legible : value.Legible InDigits) : value.form.Proper := by
  cases value with
  | nil => exact Form.proper_fixed (by decide +kernel)
  | bool b => cases b <;> exact Form.proper_fixed (by decide +kernel)
  | num x =>
    have digital : Number.Digital (Number.plain.text x) := legible
    refine ⟨?_, fun c member => isDelimiter_of_inNumber (digital.inNumber c member)⟩
    intro nothing
    rw [nothing] at digital
    exact digital
  | str s => exact legible

theorem Forms.proper_names {names : List Token} (legible : ∀ name ∈ names, name.Legible [.identifier]) :
    (Forms.names names).Proper := by
  induction names with
  | nil => trivial
  | cons name rest ih =>
    obtain ⟨first, others⟩ := List.forall_mem_cons.1 legible
    exact ⟨first.proper_word (by decide), ih others⟩

mutual

theorem Expr.form_proper {e : Expr} (legible : e.Legible InDigits) : e.form.Proper := by
  cases e with
  | literal _ value => exact Literal.form_proper legible
  | grouping _ inner =>
    exact ⟨Form.proper_fixed (by decide +kernel), Expr.form_proper legible, trivial⟩
  | unary _ operator right =>
    exact ⟨legible.1.proper_word (by decide), Expr.form_proper legible.2, trivial⟩
  | binary _ left operator right | logical _ left operator right =>
    exact ⟨legible.2.1.proper_word (by decide), Expr.form_proper legible.1,
      Expr.form_proper legible.2.2, trivial⟩
  | step _ left operator =>
    exact ⟨legible.2.proper_word (by decide), Expr.form_proper legible.1, trivial⟩
  | reference _ name => exact legible.proper_word (by decide)
  | assignment _ name value =>
    exact ⟨Form.proper_fixed (by decide +kernel), legible.1.proper_word (by decide),
      Expr.form_proper legible.2, trivial⟩
  | call _ callee arguments _ =>
    exact ⟨Form.proper_fixed (by decide +kernel), Expr.form_proper legible.1,
      Expr.allForms_proper legible.2.1⟩
  | lambda _ _ params body _ =>
    exact ⟨Form.proper_fixed (by decide +kernel), Forms.proper_names legible.2.1,
      Stmt.allForms_proper legible.2.2, trivial⟩
  | misplaced => exact legible.elim

theorem Expr.allForms_proper {es : List Expr} (legible : Expr.AllLegible InDigits es) :
    (Expr.allForms es).Proper := by
  cases es with
  | nil => trivial
  | cons e rest => exact ⟨Expr.form_proper legible.1, Expr.allForms_proper legible.2⟩

theorem Expr.optionForms_proper {e? : Option Expr} (legible : Expr.OptionLegible InDigits e?) :
    (Expr.optionForms e?).Proper := by
  cases e? with
  | none => trivial
  | some e => exact ⟨Expr.form_proper legible, trivial⟩

theorem Stmt.form_proper {s : Stmt} (legible : s.Legible InDigits) : s.form.Proper := by
  cases s with
  | expression e => exact Expr.form_proper legible
  | declaration name initializer =>
    exact ⟨Form.proper_fixed (by decide +kernel), legible.1.proper_word (by decide),
      Expr.optionForms_proper legible.2⟩
  | block statements => exact Stmt.allForms_proper legible
  | ifElse condition thenBranch elseBranch =>
    exact ⟨Form.proper_fixed (by decide +kernel), Expr.form_proper legible.1,
      Stmt.form_proper legible.2.1, Stmt.optionForms_proper legible.2.2⟩
  | whileLoop condition body increment =>
    exact ⟨Form.proper_fixed (by decide +kernel), Expr.form_proper legible.1,
      Stmt.form_proper legible.2.1, Expr.optionForms_proper legible.2.2⟩
  | breakLoop | continueLoop => exact ⟨Form.proper_fixed (by decide +kernel), trivial⟩
  | returnValue _ value =>
    exact ⟨Form.proper_fixed (by decide +kernel), Expr.optionForms_proper legible.2⟩
  | misplaced => exact legible.elim

theorem Stmt.allForms_proper {ss : List Stmt} (legible : Stmt.AllLegible InDigits ss) :
    (Stmt.allForms ss).Proper := by
  cases ss with
  | nil => trivial
  | cons s rest => exact ⟨Stmt.form_proper legible.1, Stmt.allForms_proper legible.2⟩

theorem Stmt.optionForms_proper {s? : Option Stmt} (legible : Stmt.OptionLegible InDigits s?) :
    (Stmt.optionForms s?).Proper := by
  cases s? with
  | none => trivial
  | some s => exact ⟨Stmt.form_proper legible, trivial⟩

end

end Lox
