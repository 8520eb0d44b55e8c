import Lox.Proofs.Tokens.Parts
import Lox.Tree.Print

/-!
# Printed forms

What is printed is made of words and texts between quotes, which stand in parentheses and braces with
spaces between. Main statements: a text is that of one form only, and trees are printed as the texts
of their forms.
-/

namespace Lox

/-! ## Forms -/

mutual

/-- What the printed form of a tree is made of. -/
inductive Form
  | word (text : List Char)
  | quoted (text : List Char)
  | round (parts : Forms)
  | curly (parts : Forms)

/-- Forms one after the other; a semicolon may end each. -/
inductive Forms
  | nil
  | cons (first : Form) (ended : Bool) (rest : Forms)

end

/-- The semicolon at the end of a form, if there is one. -/
def ending (ended : Bool) : List Char := if ended then [';'] else []

mutual

/-- The characters of a form. -/
def Form.text : Form → List Char
  | .word text => text
  | .quoted text => '"' :: (text ++ ['"'])
  | .round parts => '(' :: (parts.text ++ [')'])
  | .curly parts => '{' :: (parts.text ++ ['}'])

/-- The characters of forms, with spaces between. -/
def Forms.text : Forms → List Char
  | .nil => []
  | .cons first ended rest => first.text ++ (ending ended ++ rest.more)

/-- The characters of forms, with a space before each. -/
def Forms.more : Forms → List Char
  | .nil => []
  | .cons first ended rest => ' ' :: (first.text ++ (ending ended ++ rest.more))

end

/-- A character that ends a word. -/
def isDelimiter (c : Char) : Bool := [' ', '"', '(', ')', '{', '}', ';'].contains c

mutual

/-- The words of a form have characters, none of which ends a word, and its texts between quotes have
no quotes inside. -/
def Form.Proper : Form → Prop
  | .word text => text ≠ [] ∧ ∀ c ∈ text, isDelimiter c = false
  | .quoted text => '"' ∉ text
  | .round parts | .curly parts => parts.Proper

/-- All forms are proper. -/
def Forms.Proper : Forms → Prop
  | .nil => True
  | .cons first _ rest => first.Proper ∧ rest.Proper

end

/-! ## A text is that of one form -/

/-- A text whose first character, if there is one, ends a word. -/
def Delimited (text : List Char) : Prop := ∀ c ∈ text.head?, isDelimiter c

theorem delimited_nil : Delimited [] := nofun

theorem delimited_cons {c : Char} {text : List Char} (delimiter : isDelimiter c) :
    Delimited (c :: text) := by
  rintro _ ⟨⟩
  exact delimiter

/-- A character that closes a list of forms. -/
def isClosing (c : Char) : Bool := [')', '}'].contains c

theorem isDelimiter_of_isClosing {c : Char} (closing : isClosing c) : isDelimiter c := by
  simp only [isClosing, List.contains_cons, List.contains_nil, Bool.or_false, Bool.or_eq_true,
    beq_iff_eq] at closing
  rcases closing with rfl | rfl <;> rfl

theorem delimited_more {parts : Forms} {close : Char} {rest : List Char}
    (closing : isClosing close) : Delimited (parts.more ++ close :: rest) := by
  cases parts with
  | nil => exact delimited_cons (isDelimiter_of_isClosing closing)
  | cons => exact delimited_cons rfl

theorem delimited_ending {ended : Bool} {rest : List Char} (delimited : Delimited rest) :
    Delimited (ending ended ++ rest) := by
  cases ended with
  | false => exact delimited
  | true => exact delimited_cons rfl

/-- A word does not start where a delimiter stands. -/
theorem Form.word_ne_delimiter {text rest more : List Char} {c : Char}
    (proper : (Form.word text).Proper) (delimiter : isDelimiter c) : text ++ rest ≠ c :: more := by
  obtain ⟨nonempty, inside⟩ := proper
  obtain ⟨d, text, rfl⟩ := List.exists_cons_of_ne_nil nonempty
  intro same
  obtain rfl : d = c := (List.cons.inj same).1
  rw [inside d List.mem_cons_self] at delimiter
  cases delimiter

/-- No form starts with what closes a list of forms. -/
theorem Form.text_ne_closing {f : Form} {rest more : List Char} {close : Char} (proper : f.Proper)
    (closing : isClosing close) : f.text ++ rest ≠ close :: more := by
  cases f with
  | word text => exact word_ne_delimiter proper (isDelimiter_of_isClosing closing)
  | quoted | round | curly =>
    intro same
    cases (List.cons.inj same).1
    cases closing

theorem Form.word_unique {text text' rest rest' : List Char} (proper : (Form.word text).Proper)
    (proper' : (Form.word text').Proper) (delimited : Delimited rest)
    (delimited' : Delimited rest') (same : text ++ rest = text' ++ rest') :
    text = text' ∧ rest = rest' := by
  have word {text rest : List Char} (proper : (Form.word text).Proper)
      (delimited : Delimited rest) : (text ++ rest).takeWhile (!isDelimiter ·) = text :=
    takeWhile_eq_of_ends (fun c member => by simp [proper.2 c member])
      fun c isHead => by simp [delimited c isHead]
  have isWord := word proper delimited
  rw [same, word proper' delimited'] at isWord
  subst isWord
  exact ⟨rfl, List.append_cancel_left same⟩

theorem Form.quoted_unique {text text' rest rest' : List Char} (inside : '"' ∉ text)
    (inside' : '"' ∉ text') (same : text ++ '"' :: rest = text' ++ '"' :: rest') :
    text = text' ∧ rest = rest' := by
  have quoted {text : List Char} (inside : '"' ∉ text) (rest : List Char) :
      (text ++ '"' :: rest).takeWhile (· != '"') = text :=
    takeWhile_eq_of_ends (passes_of_notMem inside) (by rintro _ ⟨⟩; rfl)
  have isQuoted := quoted inside rest
  rw [same, quoted inside'] at isQuoted
  subst isQuoted
  exact ⟨rfl, (List.cons.inj (List.append_cancel_left same)).2⟩

/-- A semicolon is told from what may follow a form without one. -/
theorem ending_unique {ended ended' : Bool} {rest rest' : List Char} (other : rest.head? ≠ some ';')
    (other' : rest'.head? ≠ some ';') (same : ending ended ++ rest = ending ended' ++ rest') :
    ended = ended' ∧ rest = rest' := by
  cases ended with
  | false =>
    cases ended' with
    | false => exact ⟨rfl, same⟩
    | true => exact absurd (congrArg List.head? same) other
  | true =>
    cases ended' with
    | false => exact absurd (congrArg List.head? same).symm other'
    | true => exact ⟨rfl, (List.cons.inj same).2⟩

theorem head_more_ne_semicolon {parts : Forms} {close : Char} {rest : List Char}
    (closing : isClosing close) : (parts.more ++ close :: rest).head? ≠ some ';' := by
  cases parts with
  | nil =>
    rintro ⟨⟩
    cases closing
  | cons => exact nofun

/-- Lists of forms that are closed alike have the same characters with a space before each form. -/
theorem Forms.more_of_text {fs gs : Forms} {close : Char} {rest rest' : List Char}
    (proper : fs.Proper) (proper' : gs.Proper) (closing : isClosing close)
    (same : fs.text ++ close :: rest = gs.text ++ close :: rest') :
    fs.more ++ close :: rest = gs.more ++ close :: rest' := by
  cases fs with
  | nil =>
    cases gs with
    | nil => exact same
    | cons first ended others =>
      simp only [Forms.text, List.nil_append, List.append_assoc] at same
      exact absurd same.symm (Form.text_ne_closing proper'.1 closing)
  | cons first ended others =>
    cases gs with
    | nil =>
      simp only [Forms.text, List.nil_append, List.append_assoc] at same
      exact absurd same (Form.text_ne_closing proper.1 closing)
    | cons => exact congrArg (' ' :: ·) same

mutual

/-- A form is told from its characters, whatever follows the end of its last word. -/
theorem Form.text_unique {f g : Form} {rest rest' : List Char} (proper : f.Proper)
    (proper' : g.Proper) (delimited : Delimited rest) (delimited' : Delimited rest')
    (same : f.text ++ rest = g.text ++ rest') : f = g ∧ rest = rest' := by
  cases f with
  | word text =>
    cases g with
    | word =>
      obtain ⟨rfl, rfl⟩ := Form.word_unique proper proper' delimited delimited' same
      exact ⟨rfl, rfl⟩
    | quoted | round | curly => exact absurd same (Form.word_ne_delimiter proper rfl)
  | quoted text =>
    cases g with
    | word => exact absurd same.symm (Form.word_ne_delimiter proper' rfl)
    | quoted =>
      simp only [Form.text, List.cons_append, List.append_assoc, List.nil_append] at same
      obtain ⟨rfl, rfl⟩ := Form.quoted_unique proper proper' (List.cons.inj same).2
      exact ⟨rfl, rfl⟩
    | round | curly => cases (List.cons.inj same).1
  | round parts =>
    cases g with
    | word => exact absurd same.symm (Form.word_ne_delimiter proper' rfl)
    | round =>
      simp only [Form.text, List.cons_append, List.append_assoc, List.nil_append] at same
      have more := Forms.more_of_text proper proper' rfl (List.cons.inj same).2
      obtain ⟨rfl, rfl⟩ := Forms.more_unique proper proper' rfl more
      exact ⟨rfl, rfl⟩
    | quoted | curly => cases (List.cons.inj same).1
  | curly parts =>
    cases g with
    | word => exact absurd same.symm (Form.word_ne_delimiter proper' rfl)
    | curly =>
      simp only [Form.text, List.cons_append, List.append_assoc, List.nil_append] at same
      have more := Forms.more_of_text proper proper' rfl (List.cons.inj same).2
      obtain ⟨rfl, rfl⟩ := Forms.more_unique proper proper' rfl more
      exact ⟨rfl, rfl⟩
    | quoted | round => cases (List.cons.inj same).1

theorem Forms.more_unique {fs gs : Forms} {close : Char} {rest rest' : List Char}
    (proper : fs.Proper) (proper' : gs.Proper) (closing : isClosing close)
    (same : fs.more ++ close :: rest = gs.more ++ close :: rest') : fs = gs ∧ rest = rest' := by
  cases fs with
  | nil =>
    cases gs with
    | nil => exact ⟨rfl, (List.cons.inj same).2⟩
    | cons =>
      cases (List.cons.inj same).1
      cases closing
  | cons first ended others =>
    cases gs with
    | nil =>
      cases (List.cons.inj same).1
      cases closing
    | cons first' ended' others' =>
      simp only [Forms.more, List.cons_append, List.append_assoc] at same
      obtain ⟨rfl, sameRest⟩ := Form.text_unique proper.1 proper'.1
        (delimited_ending (delimited_more closing)) (delimited_ending (delimited_more closing))
        (List.cons.inj same).2
      obtain ⟨rfl, sameMore⟩ := ending_unique (head_more_ne_semicolon closing)
        (head_more_ne_semicolon closing) sameRest
      obtain ⟨rfl, rfl⟩ := Forms.more_unique proper.2 proper'.2 closing sameMore
      exact ⟨rfl, rfl⟩

end

/-! ## The forms of trees -/

/-- A form in front of others. -/
def Forms.part (first : Form) (rest : Forms) : Forms := .cons first false rest

/-- A word in front of others. -/
def Forms.head (word : String) (rest : Forms) : Forms := .part (.word word.toList) rest

/-- Names one after the other. -/
def Forms.names : List Token → Forms
  | [] => .nil
  | name :: rest => .head name.lexeme (.names rest)

/-- The form of a literal. -/
def Literal.form : Literal → Form
  | .nil => .word "nil".toList
  | .bool true => .word "true".toList
  | .bool false => .word "false".toList
  | .num x => .word (Number.plain.text x)
  | .str s => .quoted s.toList

/-- Only an expression that stands as a statement ends with a semicolon. -/
def Stmt.isEnded : Stmt → Bool
  | .expression _ => true
  | _ => false

mutual

/-- The form of an expression. -/
def Expr.form : Expr → Form
  | .literal _ value => value.form
  | .grouping _ inner => .round (.head "group" (.part inner.form .nil))
  | .unary _ operator right => .round (.head operator.lexeme (.part right.form .nil))
  | .binary _ left operator right =>
    .round (.head operator.lexeme (.part left.form (.part right.form .nil)))
  | .logical _ left operator right =>
    .round (.head operator.lexeme (.part left.form (.part right.form .nil)))
  | .step _ left operator => .round (.head operator.lexeme (.part left.form .nil))
  | .reference _ name => .word name.lexeme.toList
  | .assignment _ name value =>
    .round (.head "=" (.head name.lexeme (.part value.form .nil)))
  | .call _ callee arguments _ =>
    .round (.head "call" (.part callee.form (Expr.allForms arguments)))
  | .lambda _ _ params body _ =>
    .round (.head "fun" (.part (.round (.names params)) (.part (.curly (Stmt.allForms body)) .nil)))
  | .misplaced _ => .word []

/-- The forms of a list of expressions. -/
def Expr.allForms : List Expr → Forms
  | [] => .nil
  | e :: rest => .part e.form (Expr.allForms rest)

/-- The form of an expression that may be absent. -/
def Expr.optionForms : Option Expr → Forms
  | none => .nil
  | some e => .part e.form .nil

/-- The form of a statement, without a semicolon at its end. -/
def Stmt.form : Stmt → Form
  | .expression e => e.form
  | .declaration name initializer =>
    .round (.head "var" (.head name.lexeme (Expr.optionForms initializer)))
  | .block statements => .curly (Stmt.allForms statements)
  | .ifElse condition thenBranch elseBranch =>
    .round (.head "if" (.part condition.form
      (.cons thenBranch.form thenBranch.isEnded (Stmt.optionForms elseBranch))))
  | .whileLoop condition body increment =>
    .round (.head "while" (.part condition.form
      (.cons body.form body.isEnded (Expr.optionForms increment))))
  | .breakLoop _ => .round (.head "break" .nil)
  | .continueLoop _ => .round (.head "continue" .nil)
  | .returnValue _ value => .round (.head "return" (Expr.optionForms value))
  | .misplaced _ => .word []

/-- The forms of a list of statements. -/
def Stmt.allForms : List Stmt → Forms
  | [] => .nil
  | s :: rest => .cons s.form s.isEnded (Stmt.allForms rest)

/-- The form of a statement that may be absent. -/
def Stmt.optionForms : Option Stmt → Forms
  | none => .nil
  | some s => .cons s.form s.isEnded .nil

end

/-! ## What is printed is the text of a form -/

/-- The characters of each form of a list. -/
def Forms.texts : Forms → List (List Char)
  | .nil => []
  | .cons first ended rest => (first.text ++ ending ended) :: rest.texts

@[simp] theorem Forms.texts_part (first : Form) (rest : Forms) :
    (Forms.part first rest).texts = first.text :: rest.texts := by
  simp [part, texts, ending]

@[simp] theorem Forms.texts_head (word : String) (rest : Forms) :
    (Forms.head word rest).texts = word.toList :: rest.texts :=
  Forms.texts_part _ _

@[simp] theorem Forms.texts_names (names : List Token) :
    (Forms.names names).texts = names.map (·.lexeme.toList) := by
  induction names with
  | nil => rfl
  | cons name rest ih => simp [Forms.names, ih]

theorem toList_intercalate {parts : List String} {fs : Forms}
    (same : parts.map (·.toList) = fs.texts) : (" ".intercalate parts).toList = fs.text := by
  induction parts generalizing fs with
  | nil =>
    cases fs with
    | nil => rfl
    | cons => cases same
  | cons part rest ih =>
    cases fs with
    | nil => cases same
    | cons first ended others =>
      obtain ⟨isFirst, areOthers⟩ :
          part.toList = first.text ++ ending ended ∧ rest.map (·.toList) = others.texts :=
        List.cons.inj same
      have isRest := ih areOthers
      cases rest with
      | nil =>
        cases others with
        | nil => simpa [Forms.text, Forms.more] using isFirst
        | cons => cases areOthers
      | cons next rest =>
        cases others with
        | nil => cases areOthers
        | cons =>
          rw [String.intercalate_cons_cons, String.toList_append, String.toList_append, isRest,
            isFirst, Forms.text, List.append_assoc, List.append_assoc]
          rfl

theorem toList_parenthesized {parts : List String} {fs : Forms}
    (same : parts.map (·.toList) = fs.texts) :
    (parenthesized parts).toList = (Form.round fs).text := by
  rw [parenthesized, String.toList_append, String.toList_append, toList_intercalate same]
  rfl

theorem toList_braced {parts : List String} {fs : Forms}
    (same : parts.map (·.toList) = fs.texts) : (braced parts).toList = (Form.curly fs).text := by
  rw [braced, String.toList_append, String.toList_append, toList_intercalate same]
  rfl

theorem Literal.toList_printed (value : Literal) : value.printed.toList = value.form.text := by
  cases value with
  | nil => rfl
  | bool b => cases b <;> rfl
  | num x => exact String.toList_ofList
  | str s =>
    rw [printed, String.toList_append, String.toList_append]
    rfl

mutual

/-- An expression is printed as the text of its form. -/
theorem Expr.toList_printed (e : Expr) : e.printed.toList = e.form.text := by
  cases e with
  | literal _ value => exact value.toList_printed
  | reference | misplaced => rfl
  | grouping _ inner | unary _ _ inner | step _ inner | assignment _ _ inner =>
    exact toList_parenthesized (by simp [Expr.toList_printed inner, Forms.texts])
  | binary _ left _ right | logical _ left _ right =>
    exact toList_parenthesized
      (by simp [Expr.toList_printed left, Expr.toList_printed right, Forms.texts])
  | call _ callee arguments _ =>
    exact toList_parenthesized
      (by simp [Expr.toList_printed callee, Expr.toList_allPrinted arguments])
  | lambda _ _ params body _ =>
    have names : (parenthesized (params.map (·.lexeme))).toList = (Form.round (.names params)).text :=
      toList_parenthesized (by simp)
    exact toList_parenthesized
      (by simp [names, toList_braced (Stmt.toList_allPrinted body), Forms.texts])

theorem Expr.toList_allPrinted (es : List Expr) :
    (Expr.allPrinted es).map (·.toList) = (Expr.allForms es).texts := by
  cases es with
  | nil => rfl
  | cons e rest =>
    simp [Expr.allPrinted, Expr.allForms, Expr.toList_printed e, Expr.toList_allPrinted rest]

theorem Expr.toList_optionPrinted (e? : Option Expr) :
    (Expr.optionPrinted e?).map (·.toList) = (Expr.optionForms e?).texts := by
  cases e? with
  | none => rfl
  | some e => simp [Expr.optionPrinted, Expr.optionForms, Expr.toList_printed e, Forms.texts]

/-- A statement is printed as the text of its form, an expression with a semicolon behind it. -/
theorem Stmt.toList_printed (s : Stmt) :
    s.printed.toList = s.form.text ++ ending s.isEnded := by
  have alone {text : String} {f : Form} (same : text.toList = f.text) :
      text.toList = f.text ++ ending false := same.trans (List.append_nil _).symm
  cases s with
  | expression e =>
    rw [Stmt.printed, String.toList_append, Expr.toList_printed e]
    rfl
  | declaration _ initializer =>
    exact alone (toList_parenthesized (by simp [Expr.toList_optionPrinted initializer]))
  | block statements => exact alone (toList_braced (Stmt.toList_allPrinted statements))
  | ifElse condition thenBranch elseBranch =>
    exact alone (toList_parenthesized (by
      simp [Expr.toList_printed condition, Stmt.toList_printed thenBranch,
        Stmt.toList_optionPrinted elseBranch, Forms.texts]))
  | whileLoop condition body increment =>
    exact alone (toList_parenthesized (by
      simp [Expr.toList_printed condition, Stmt.toList_printed body,
        Expr.toList_optionPrinted increment, Forms.texts]))
  | breakLoop | continueLoop => exact alone (toList_parenthesized (by simp [Forms.texts]))
  | returnValue _ value =>
    exact alone (toList_parenthesized (by simp [Expr.toList_optionPrinted value]))
  | misplaced => rfl

theorem Stmt.toList_allPrinted (ss : List Stmt) :
    (Stmt.allPrinted ss).map (·.toList) = (Stmt.allForms ss).texts := by
  cases ss with
  | nil => rfl
  | cons s rest =>
    simp [Stmt.allPrinted, Stmt.allForms, Stmt.toList_printed s, Stmt.toList_allPrinted rest,
      Forms.texts]

theorem Stmt.toList_optionPrinted (s? : Option Stmt) :
    (Stmt.optionPrinted s?).map (·.toList) = (Stmt.optionForms s?).texts := by
  cases s? with
  | none => rfl
  | some s => simp [Stmt.optionPrinted, Stmt.optionForms, Stmt.toList_printed s, Forms.texts]

end

end Lox
