import Lox.Proofs.Printing.Legible

/-!
# Trees that are printed alike

Main statement: if two legible trees are printed alike, they differ at most in what is not printed.
-/

namespace Lox

open Lox.Number (InDigits)
open Lox.Text (isDigit)

/-! ## What is not printed -/

/-- Literals that are the same or numbers with the same text. -/
def Literal.Twins : Literal → Literal → Prop
  | .num x, .num y => Number.plain.text x = Number.plain.text y
  | value, value' => value = value'

mutual

/-- Two expressions differ at most in the numbers of their nodes, the lines of their tokens, the names
of their functions, and in number literals with the same text. -/
inductive Expr.Twins : Expr → Expr → Prop
  | literal (id id' : Nat) {value value' : Literal} (values : value.Twins value') :
      Expr.Twins (.literal id value) (.literal id' value')
  | grouping (id id' : Nat) {e e' : Expr} (inner : e.Twins e') :
      Expr.Twins (.grouping id e) (.grouping id' e')
  | unary (id id' : Nat) {operator operator' : Token} {e e' : Expr}
      (operators : operator.content = operator'.content) (right : e.Twins e') :
      Expr.Twins (.unary id operator e) (.unary id' operator' e')
  | binary (id id' : Nat) {operator operator' : Token} {e e' f f' : Expr} (left : e.Twins e')
      (operators : operator.content = operator'.content) (right : f.Twins f') :
      Expr.Twins (.binary id e operator f) (.binary id' e' operator' f')
  | logical (id id' : Nat) {operator operator' : Token} {e e' f f' : Expr} (left : e.Twins e')
      (operators : operator.content = operator'.content) (right : f.Twins f') :
      Expr.Twins (.logical id e operator f) (.logical id' e' operator' f')
  | step (id id' : Nat) {operator operator' : Token} {e e' : Expr} (left : e.Twins e')
      (operators : operator.content = operator'.content) :
      Expr.Twins (.step id e operator) (.step id' e' operator')
  | reference (id id' : Nat) {name name' : Token} (names : name.content = name'.content) :
      Expr.Twins (.reference id name) (.reference id' name')
  | assignment (id id' : Nat) {name name' : Token} {e e' : Expr}
      (names : name.content = name'.content) (value : e.Twins e') :
      Expr.Twins (.assignment id name e) (.assignment id' name' e')
  | call (id id' : Nat) {e e' : Expr} {es es' : List Expr} {paren paren' : Token}
      (callee : e.Twins e') (arguments : Expr.AllTwins es es')
      (parens : paren.content = paren'.content) :
      Expr.Twins (.call id e es paren) (.call id' e' es' paren')
  | lambda (id id' : Nat) {keyword keyword' : Token} {params params' : List Token}
      {body body' : List Stmt} (name name' : Option Token)
      (keywords : keyword.content = keyword'.content)
      (parameters : params.map (·.content) = params'.map (·.content))
      (statements : Stmt.AllTwins body body') :
      Expr.Twins (.lambda id keyword params body name) (.lambda id' keyword' params' body' name')

/-- Expressions of two lists are twins. -/
inductive Expr.AllTwins : List Expr → List Expr → Prop
  | nil : Expr.AllTwins [] []
  | cons {e e' : Expr} {es es' : List Expr} (head : e.Twins e') (tail : Expr.AllTwins es es') :
      Expr.AllTwins (e :: es) (e' :: es')

/-- Two optional expressions are twins. -/
inductive Expr.OptionTwins : Option Expr → Option Expr → Prop
  | none : Expr.OptionTwins none none
  | some {e e' : Expr} (value : e.Twins e') : Expr.OptionTwins (some e) (some e')

/-- Two statements differ at most in what is not printed. -/
inductive Stmt.Twins : Stmt → Stmt → Prop
  | expression {e e' : Expr} (value : e.Twins e') : Stmt.Twins (.expression e) (.expression e')
  | declaration {name name' : Token} {e e' : Option Expr} (names : name.content = name'.content)
      (initializer : Expr.OptionTwins e e') :
      Stmt.Twins (.declaration name e) (.declaration name' e')
  | block {ss ss' : List Stmt} (statements : Stmt.AllTwins ss ss') :
      Stmt.Twins (.block ss) (.block ss')
  | ifElse {e e' : Expr} {s s' : Stmt} {t t' : Option Stmt} (condition : e.Twins e')
      (thenBranch : s.Twins s') (elseBranch : Stmt.OptionTwins t t') :
      Stmt.Twins (.ifElse e s t) (.ifElse e' s' t')
  | whileLoop {e e' : Expr} {s s' : Stmt} {f f' : Option Expr} (condition : e.Twins e')
      (body : s.Twins s') (increment : Expr.OptionTwins f f') :
      Stmt.Twins (.whileLoop e s f) (.whileLoop e' s' f')
  | breakLoop {keyword keyword' : Token} (keywords : keyword.content = keyword'.content) :
      Stmt.Twins (.breakLoop keyword) (.breakLoop keyword')
  | continueLoop {keyword keyword' : Token} (keywords : keyword.content = keyword'.content) :
      Stmt.Twins (.continueLoop keyword) (.continueLoop keyword')
  | returnValue {keyword keyword' : Token} {e e' : Option Expr}
      (keywords : keyword.content = keyword'.content) (value : Expr.OptionTwins e e') :
      Stmt.Twins (.returnValue keyword e) (.returnValue keyword' e')

/-- Statements of two lists are twins. -/
inductive Stmt.AllTwins : List Stmt → List Stmt → Prop
  | nil : Stmt.AllTwins [] []
  | cons {s s' : Stmt} {ss ss' : List Stmt} (head : s.Twins s') (tail : Stmt.AllTwins ss ss') :
      Stmt.AllTwins (s :: ss) (s' :: ss')

/-- Two optional statements are twins. -/
inductive Stmt.OptionTwins : Option Stmt → Option Stmt → Prop
  | none : Stmt.OptionTwins none none
  | some {s s' : Stmt} (branch : s.Twins s') : Stmt.OptionTwins (some s) (some s')

end

/-! ## Nodes are told from their forms -/

/-- The kind of a node that is printed in parentheses, by the kind of its first word. -/
def Forms.nodeKind (head : List Char) (rest : Forms) : Kind → NodeKind
  | .identifier => if head = "group".toList then .grouping else .call
  | .minus =>
    match rest with
    | .cons _ _ .nil => .unary
    | _ => .binary
  | .bang => .unary
  | .plusPlus | .minusMinus => .step
  | .orWord | .andWord => .logical
  | .equal => .assignment
  | .funWord => .lambda
  | .varWord => .declaration
  | .ifWord => .ifElse
  | .whileWord => .whileLoop
  | .breakWord => .breakLoop
  | .continueWord => .continueLoop
  | .returnWord => .returnValue
  | _ => .binary

/-- The kind of the node with the given form. -/
def Form.nodeKind : Form → NodeKind
  | .word text => if headKind text = .identifier then .reference else .literal
  | .quoted _ => .literal
  | .curly _ => .block
  | .round (.cons (.word head) _ rest) => rest.nodeKind head (headKind head)
  | .round _ => .foreign

theorem Form.nodeKind_head {word : String} {kind : Kind} (isHead : headKind word.toList = kind)
    (rest : Forms) : (Form.round (.head word rest)).nodeKind = rest.nodeKind word.toList kind := by
  rw [← isHead]
  rfl

theorem Forms.nodeKind_binary {kind : Kind} (listed : kind ∈ Kind.binaryOperators)
    (head : List Char) (left right : Form) (rest : Forms) :
    (Forms.part left (.part right rest)).nodeKind head kind = .binary := by
  have kinds : ∀ kind ∈ Kind.binaryOperators,
      kind = .minus ∨ ∀ parts : Forms, parts.nodeKind head kind = .binary := by
    simp [Kind.binaryOperators, nodeKind]
  obtain rfl | isBinary := kinds kind listed
  · rfl
  · exact isBinary _

/-- The kind of an expression. -/
def Expr.nodeKind : Expr → NodeKind
  | .literal .. => .literal
  | .grouping .. => .grouping
  | .unary .. => .unary
  | .binary .. => .binary
  | .logical .. => .logical
  | .step .. => .step
  | .reference .. => .reference
  | .assignment .. => .assignment
  | .call .. => .call
  | .lambda .. => .lambda
  | .misplaced _ => .foreign

/-- The kind of a statement; an expression that stands as one has its own. -/
def Stmt.nodeKind : Stmt → NodeKind
  | .expression e => e.nodeKind
  | .declaration .. => .declaration
  | .block .. => .block
  | .ifElse .. => .ifElse
  | .whileLoop .. => .whileLoop
  | .breakLoop .. => .breakLoop
  | .continueLoop .. => .continueLoop
  | .returnValue .. => .returnValue
  | .misplaced _ => .foreign

theorem headKind_of_isDigit {c : Char} (digit : isDigit c) (rest : List Char) :
    headKind (c :: rest) = .number := by
  rw [headKind, firstPiece_of_digit digit]
  rfl

theorem headKind_of_digital {text : List Char} (digital : Number.Digital text) :
    headKind text = .number := by
  cases text with
  | nil => exact digital.elim
  | cons c rest => exact headKind_of_isDigit digital.1 rest

theorem Literal.nodeKind_form {value : Literal} (legible : value.Legible InDigits) :
    value.form.nodeKind = .literal := by
  cases value with
  | nil => decide +kernel
  | bool b => cases b <;> decide +kernel
  | num x =>
    have isNumber := headKind_of_digital legible
    simp only [form, Form.nodeKind, isNumber]
    rfl
  | str s => rfl

theorem headKind_word (word : String) (kind : Kind) (listed : (word, kind) ∈ Kind.words) :
    headKind word.toList = kind := by
  have kinds : (Kind.words.all fun entry => headKind entry.1.toList == entry.2) = true := by
    decide +kernel
  exact beq_iff_eq.1 (List.all_eq_true.1 kinds _ listed)

theorem Expr.nodeKind_form {e : Expr} (legible : e.Legible InDigits) : e.form.nodeKind = e.nodeKind := by
  cases e with
  | literal _ value => exact value.nodeKind_form legible
  | grouping =>
    have isHead : headKind "group".toList = .identifier := by decide +kernel
    rw [form, Form.nodeKind_head isHead, Forms.nodeKind, if_pos rfl]
    rfl
  | call =>
    have isHead : headKind "call".toList = .identifier := by decide +kernel
    rw [form, Form.nodeKind_head isHead, Forms.nodeKind, if_neg (by decide)]
    rfl
  | assignment => exact Form.nodeKind_head (show headKind "=".toList = .equal by decide) _
  | lambda => exact Form.nodeKind_head (headKind_word "fun" .funWord (by decide)) _
  | unary _ operator right =>
    refine (Form.nodeKind_head legible.1.headKind_eq _).trans ?_
    obtain isMinus | isBang : operator.kind = .minus ∨ operator.kind = .bang := by
      simpa using legible.1.kind
    · rw [isMinus]
      rfl
    · rw [isBang]
      rfl
  | binary _ left operator right =>
    refine (Form.nodeKind_head legible.2.1.headKind_eq _).trans ?_
    exact Forms.nodeKind_binary legible.2.1.kind _ _ _ _
  | logical _ left operator right =>
    refine (Form.nodeKind_head legible.2.1.headKind_eq _).trans ?_
    obtain isOr | isAnd : operator.kind = .orWord ∨ operator.kind = .andWord := by
      simpa using legible.2.1.kind
    · rw [isOr]
      rfl
    · rw [isAnd]
      rfl
  | step _ left operator =>
    refine (Form.nodeKind_head legible.2.headKind_eq _).trans ?_
    obtain isPlus | isMinus : operator.kind = .plusPlus ∨ operator.kind = .minusMinus := by
      simpa using legible.2.kind
    · rw [isPlus]
      rfl
    · rw [isMinus]
      rfl
  | reference _ name =>
    have isName : headKind name.lexeme.toList = .identifier :=
      legible.headKind_eq.trans (List.mem_singleton.1 legible.kind)
    rw [form, Form.nodeKind, if_pos isName]
    rfl
  | misplaced => exact legible.elim

theorem Stmt.nodeKind_form {s : Stmt} (legible : s.Legible InDigits) : s.form.nodeKind = s.nodeKind := by
  cases s with
  | expression e => exact Expr.nodeKind_form legible
  | block => rfl
  | declaration => exact Form.nodeKind_head (headKind_word "var" .varWord (by decide)) _
  | ifElse => exact Form.nodeKind_head (headKind_word "if" .ifWord (by decide)) _
  | whileLoop => exact Form.nodeKind_head (headKind_word "while" .whileWord (by decide)) _
  | breakLoop => exact Form.nodeKind_head (headKind_word "break" .breakWord (by decide)) _
  | continueLoop => exact Form.nodeKind_head (headKind_word "continue" .continueWord (by decide)) _
  | returnValue => exact Form.nodeKind_head (headKind_word "return" .returnWord (by decide)) _
  | misplaced => exact legible.elim

/-! ## Trees with the same form -/

/-- The kind of the token that a literal is printed as. -/
def Literal.kind : Literal → Kind
  | .nil => .nilWord
  | .bool true => .trueWord
  | .bool false => .falseWord
  | .num _ => .number
  | .str _ => .string

/-- The kind of the token that the form of a literal is. -/
def Form.literalKind : Form → Kind
  | .word text => headKind text
  | _ => .string

theorem Literal.literalKind_form {value : Literal} (legible : value.Legible InDigits) :
    value.form.literalKind = value.kind := by
  cases value with
  | nil => exact headKind_word "nil" .nilWord (by decide)
  | bool b =>
    cases b with
    | true => exact headKind_word "true" .trueWord (by decide)
    | false => exact headKind_word "false" .falseWord (by decide)
  | num x => exact headKind_of_digital legible
  | str s => rfl

theorem Literal.twins_of_form {value value' : Literal} (legible : value.Legible InDigits)
    (legible' : value'.Legible InDigits) (same : value.form = value'.form) : value.Twins value' := by
  have kinds : value.kind = value'.kind := by
    rw [← literalKind_form legible, same, literalKind_form legible']
  cases value with
  | nil =>
    cases value' with
    | nil => rfl
    | bool b => cases b <;> cases kinds
    | _ => cases kinds
  | bool b =>
    cases value' with
    | bool b' => cases b <;> cases b' <;> first | rfl | cases kinds
    | _ => cases b <;> cases kinds
  | num x =>
    cases value' with
    | num y => exact Form.word.inj same
    | bool b => cases b <;> cases kinds
    | _ => cases kinds
  | str s =>
    cases value' with
    | str s' => exact congrArg Literal.str (String.toList_inj.1 (Form.quoted.inj same))
    | bool b => cases b <;> cases kinds
    | _ => cases kinds

theorem Forms.part_inj {f g : Form} {fs gs : Forms} (same : Forms.part f fs = .part g gs) :
    f = g ∧ fs = gs := by
  simpa [Forms.part] using same

theorem Forms.head_inj {word word' : String} {fs gs : Forms}
    (same : Forms.head word fs = .head word' gs) : word.toList = word'.toList ∧ fs = gs := by
  simpa [Forms.head, Forms.part] using same

theorem contents_of_names {names names' : List Token}
    (legible : ∀ name ∈ names, name.Legible [.identifier])
    (legible' : ∀ name ∈ names', name.Legible [.identifier])
    (same : Forms.names names = .names names') :
    names.map (·.content) = names'.map (·.content) := by
  induction names generalizing names' with
  | nil =>
    cases names' with
    | nil => rfl
    | cons => cases same
  | cons name rest ih =>
    cases names' with
    | nil => cases same
    | cons name' rest' =>
      obtain ⟨first, others⟩ := List.forall_mem_cons.1 legible
      obtain ⟨first', others'⟩ := List.forall_mem_cons.1 legible'
      obtain ⟨sameName, sameRest⟩ := Forms.head_inj same
      rw [List.map_cons, List.map_cons, first.content_eq first' sameName,
        ih others others' sameRest]

mutual

/-- Legible expressions with the same form are twins. -/
theorem Expr.twins_of_form {e e' : Expr} (legible : e.Legible InDigits) (legible' : e'.Legible InDigits)
    (same : e.form = e'.form) : e.Twins e' := by
  have kinds : e.nodeKind = e'.nodeKind := by
    rw [← Expr.nodeKind_form legible, same, Expr.nodeKind_form legible']
  cases e with
  | literal id value =>
    cases e' with
    | literal id' value' => exact .literal id id' (Literal.twins_of_form legible legible' same)
    | _ => cases kinds
  | grouping id inner =>
    cases e' with
    | grouping id' inner' =>
      obtain ⟨_, sameParts⟩ := Forms.head_inj (Form.round.inj same)
      exact .grouping id id' (Expr.twins_of_form legible legible' (Forms.part_inj sameParts).1)
    | _ => cases kinds
  | unary id operator right =>
    cases e' with
    | unary id' operator' right' =>
      obtain ⟨sameOperator, sameParts⟩ := Forms.head_inj (Form.round.inj same)
      exact .unary id id' (legible.1.content_eq legible'.1 sameOperator)
        (Expr.twins_of_form legible.2 legible'.2 (Forms.part_inj sameParts).1)
    | _ => cases kinds
  | binary id left operator right =>
    cases e' with
    | binary id' left' operator' right' =>
      obtain ⟨sameOperator, sameParts⟩ := Forms.head_inj (Form.round.inj same)
      obtain ⟨sameLeft, sameRight⟩ := Forms.part_inj sameParts
      exact .binary id id' (Expr.twins_of_form legible.1 legible'.1 sameLeft)
        (legible.2.1.content_eq legible'.2.1 sameOperator)
        (Expr.twins_of_form legible.2.2 legible'.2.2 (Forms.part_inj sameRight).1)
    | _ => cases kinds
  | logical id left operator right =>
    cases e' with
    | logical id' left' operator' right' =>
      obtain ⟨sameOperator, sameParts⟩ := Forms.head_inj (Form.round.inj same)
      obtain ⟨sameLeft, sameRight⟩ := Forms.part_inj sameParts
      exact .logical id id' (Expr.twins_of_form legible.1 legible'.1 sameLeft)
        (legible.2.1.content_eq legible'.2.1 sameOperator)
        (Expr.twins_of_form legible.2.2 legible'.2.2 (Forms.part_inj sameRight).1)
    | _ => cases kinds
  | step id left operator =>
    cases e' with
    | step id' left' operator' =>
      obtain ⟨sameOperator, sameParts⟩ := Forms.head_inj (Form.round.inj same)
      exact .step id id' (Expr.twins_of_form legible.1 legible'.1 (Forms.part_inj sameParts).1)
        (legible.2.content_eq legible'.2 sameOperator)
    | _ => cases kinds
  | reference id name =>
    cases e' with
    | reference id' name' => exact .reference id id' (legible.content_eq legible' (Form.word.inj same))
    | _ => cases kinds
  | assignment id name value =>
    cases e' with
    | assignment id' name' value' =>
      obtain ⟨_, sameParts⟩ := Forms.head_inj (Form.round.inj same)
      obtain ⟨sameName, sameValue⟩ := Forms.head_inj sameParts
      exact .assignment id id' (legible.1.content_eq legible'.1 sameName)
        (Expr.twins_of_form legible.2 legible'.2 (Forms.part_inj sameValue).1)
    | _ => cases kinds
  | call id callee arguments paren =>
    cases e' with
    | call id' callee' arguments' paren' =>
      obtain ⟨_, sameParts⟩ := Forms.head_inj (Form.round.inj same)
      obtain ⟨sameCallee, sameArguments⟩ := Forms.part_inj sameParts
      exact .call id id' (Expr.twins_of_form legible.1 legible'.1 sameCallee)
        (Expr.allTwins_of_forms legible.2.1 legible'.2.1 sameArguments)
        (legible.2.2.content_eq_of_kind legible'.2.2 rfl)
    | _ => cases kinds
  | lambda id keyword params body name =>
    cases e' with
    | lambda id' keyword' params' body' name' =>
      obtain ⟨_, sameParts⟩ := Forms.head_inj (Form.round.inj same)
      obtain ⟨sameParams, sameBodies⟩ := Forms.part_inj sameParts
      obtain ⟨sameBody, _⟩ := Forms.part_inj sameBodies
      exact .lambda id id' name name' (legible.1.content_eq_of_kind legible'.1 rfl)
        (contents_of_names legible.2.1 legible'.2.1 (Form.round.inj sameParams))
        (Stmt.allTwins_of_forms legible.2.2 legible'.2.2 (Form.curly.inj sameBody))
    | _ => cases kinds
  | misplaced => exact legible.elim
termination_by structural e

theorem Expr.allTwins_of_forms {es es' : List Expr} (legible : Expr.AllLegible InDigits es)
    (legible' : Expr.AllLegible InDigits es') (same : Expr.allForms es = Expr.allForms es') :
    Expr.AllTwins es es' := by
  cases es with
  | nil =>
    cases es' with
    | nil => exact .nil
    | cons => cases same
  | cons e rest =>
    cases es' with
    | nil => cases same
    | cons e' rest' =>
      obtain ⟨sameFirst, sameRest⟩ := Forms.part_inj same
      exact .cons (Expr.twins_of_form legible.1 legible'.1 sameFirst)
        (Expr.allTwins_of_forms legible.2 legible'.2 sameRest)
termination_by structural es

theorem Expr.optionTwins_of_forms {e? e?' : Option Expr} (legible : Expr.OptionLegible InDigits e?)
    (legible' : Expr.OptionLegible InDigits e?') (same : Expr.optionForms e? = Expr.optionForms e?') :
    Expr.OptionTwins e? e?' := by
  cases e? with
  | none =>
    cases e?' with
    | none => exact .none
    | some => cases same
  | some e =>
    cases e?' with
    | none => cases same
    | some e' => exact .some (Expr.twins_of_form legible legible' (Forms.part_inj same).1)
termination_by structural e?

/-- Legible statements with the same form and the same ending are twins. -/
theorem Stmt.twins_of_form {s s' : Stmt} (legible : s.Legible InDigits) (legible' : s'.Legible InDigits)
    (same : s.form = s'.form) (endings : s.isEnded = s'.isEnded) : s.Twins s' := by
  have kinds : s.nodeKind = s'.nodeKind := by
    rw [← Stmt.nodeKind_form legible, same, Stmt.nodeKind_form legible']
  cases s with
  | expression e =>
    cases s' with
    | expression e' => exact .expression (Expr.twins_of_form legible legible' same)
    | _ => cases endings
  | declaration name initializer =>
    cases s' with
    | declaration name' initializer' =>
      obtain ⟨_, sameParts⟩ := Forms.head_inj (Form.round.inj same)
      obtain ⟨sameName, sameInitializer⟩ := Forms.head_inj sameParts
      exact .declaration (legible.1.content_eq legible'.1 sameName)
        (Expr.optionTwins_of_forms legible.2 legible'.2 sameInitializer)
    | expression => cases endings
    | _ => cases kinds
  | block statements =>
    cases s' with
    | block statements' =>
      have sameForms : Stmt.allForms statements = Stmt.allForms statements' := Form.curly.inj same
      exact .block (Stmt.allTwins_of_forms legible legible' sameForms)
    | expression => cases endings
    | _ => cases kinds
  | ifElse condition thenBranch elseBranch =>
    cases s' with
    | ifElse condition' thenBranch' elseBranch' =>
      obtain ⟨_, sameParts⟩ := Forms.head_inj (Form.round.inj same)
      obtain ⟨sameCondition, sameBranches⟩ := Forms.part_inj sameParts
      obtain ⟨sameThen, sameEnding, sameElse⟩ := Forms.cons.inj sameBranches
      exact .ifElse (Expr.twins_of_form legible.1 legible'.1 sameCondition)
        (Stmt.twins_of_form legible.2.1 legible'.2.1 sameThen sameEnding)
        (Stmt.optionTwins_of_forms legible.2.2 legible'.2.2 sameElse)
    | expression => cases endings
    | _ => cases kinds
  | whileLoop condition body increment =>
    cases s' with
    | whileLoop condition' body' increment' =>
      obtain ⟨_, sameParts⟩ := Forms.head_inj (Form.round.inj same)
      obtain ⟨sameCondition, sameOthers⟩ := Forms.part_inj sameParts
      obtain ⟨sameBody, sameEnding, sameIncrement⟩ := Forms.cons.inj sameOthers
      exact .whileLoop (Expr.twins_of_form legible.1 legible'.1 sameCondition)
        (Stmt.twins_of_form legible.2.1 legible'.2.1 sameBody sameEnding)
        (Expr.optionTwins_of_forms legible.2.2 legible'.2.2 sameIncrement)
    | expression => cases endings
    | _ => cases kinds
  | breakLoop keyword =>
    cases s' with
    | breakLoop keyword' => exact .breakLoop (Token.Legible.content_eq_of_kind legible legible' rfl)
    | expression => cases endings
    | _ => cases kinds
  | continueLoop keyword =>
    cases s' with
    | continueLoop keyword' =>
      exact .continueLoop (Token.Legible.content_eq_of_kind legible legible' rfl)
    | expression => cases endings
    | _ => cases kinds
  | returnValue keyword value =>
    cases s' with
    | returnValue keyword' value' =>
      obtain ⟨_, sameValue⟩ := Forms.head_inj (Form.round.inj same)
      exact .returnValue (legible.1.content_eq_of_kind legible'.1 rfl)
        (Expr.optionTwins_of_forms legible.2 legible'.2 sameValue)
    | expression => cases endings
    | _ => cases kinds
  | misplaced => exact legible.elim
termination_by structural s

theorem Stmt.allTwins_of_forms {ss ss' : List Stmt} (legible : Stmt.AllLegible InDigits ss)
    (legible' : Stmt.AllLegible InDigits ss') (same : Stmt.allForms ss = Stmt.allForms ss') :
    Stmt.AllTwins ss ss' := by
  cases ss with
  | nil =>
    cases ss' with
    | nil => exact .nil
    | cons => cases same
  | cons s rest =>
    cases ss' with
    | nil => cases same
    | cons s' rest' =>
      obtain ⟨sameFirst, sameEnding, sameRest⟩ := Forms.cons.inj same
      exact .cons (Stmt.twins_of_form legible.1 legible'.1 sameFirst sameEnding)
        (Stmt.allTwins_of_forms legible.2 legible'.2 sameRest)
termination_by structural ss

theorem Stmt.optionTwins_of_forms {s? s?' : Option Stmt} (legible : Stmt.OptionLegible InDigits s?)
    (legible' : Stmt.OptionLegible InDigits s?') (same : Stmt.optionForms s? = Stmt.optionForms s?') :
    Stmt.OptionTwins s? s?' := by
  cases s? with
  | none =>
    cases s?' with
    | none => exact .none
    | some => cases same
  | some s =>
    cases s?' with
    | none => cases same
    | some s' =>
      obtain ⟨sameFirst, sameEnding, _⟩ := Forms.cons.inj same
      exact .some (Stmt.twins_of_form legible legible' sameFirst sameEnding)
termination_by structural s?

end

/-! ## Trees that are printed alike -/

theorem Expr.twins_of_printed {e e' : Expr} (legible : e.Legible InDigits) (legible' : e'.Legible InDigits)
    (same : e.printed = e'.printed) : e.Twins e' := by
  have texts : e.form.text ++ [] = e'.form.text ++ [] := by
    rw [List.append_nil, List.append_nil, ← Expr.toList_printed, ← Expr.toList_printed, same]
  obtain ⟨sameForm, _⟩ := Form.text_unique (Expr.form_proper legible) (Expr.form_proper legible')
    delimited_nil delimited_nil texts
  exact Expr.twins_of_form legible legible' sameForm

theorem Stmt.twins_of_printed {s s' : Stmt} (legible : s.Legible InDigits) (legible' : s'.Legible InDigits)
    (same : s.printed = s'.printed) : s.Twins s' := by
  have texts : s.form.text ++ ending s.isEnded = s'.form.text ++ ending s'.isEnded := by
    rw [← Stmt.toList_printed, ← Stmt.toList_printed, same]
  have delimited (ended : Bool) : Delimited (ending ended) := by
    cases ended with
    | false => exact delimited_nil
    | true => exact delimited_cons rfl
  obtain ⟨sameForm, endings⟩ := Form.text_unique (Stmt.form_proper legible)
    (Stmt.form_proper legible') (delimited _) (delimited _) texts
  have sameEnding : s.isEnded = s'.isEnded := by
    revert endings
    cases s.isEnded <;> cases s'.isEnded <;> decide
  exact Stmt.twins_of_form legible legible' sameForm sameEnding

end Lox
