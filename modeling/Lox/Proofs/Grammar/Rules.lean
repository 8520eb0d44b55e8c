import Lox.Tree.SyntaxError

/-!
# The grammar

The language as rules over lists of tokens. Expressions come in ten tiers, each of which binds
tighter than the one before. Every rule also tells the number of the next node before and after it:
children are numbered before their parents, an assignment uses up one more number than it shows.
-/

namespace Lox.Grammar

/-! ## Tiers of expressions -/

/-- The kinds of expressions, loosest first. -/
inductive Tier
  | expression | or | and | equality | comparison | term | factor | unary | postfixed | primary
  deriving DecidableEq

/-- The tier that binds just tighter; the last one is its own. -/
def Tier.next : Tier → Tier
  | expression => or
  | or => and
  | and => equality
  | equality => comparison
  | comparison => term
  | term => factor
  | factor => unary
  | unary => postfixed
  | postfixed => primary
  | primary => primary

/-- The operators that stand between the operands of a tier. -/
def Tier.operators : Tier → List Kind
  | or => [.orWord]
  | and => [.andWord]
  | equality => [.equalEqual, .bangEqual]
  | comparison => [.less, .lessEqual, .greater, .greaterEqual]
  | term => [.plus, .minus]
  | factor => [.star, .slash]
  | _ => []

/-- Whether the operators of a tier leave their right operand alone when the left one settles the
result. -/
def Tier.isLogical : Tier → Bool
  | or | and => true
  | _ => false

/-- The tree of an operator between two operands. -/
def Tier.join (tier : Tier) (id : Nat) (left : Expr) (operator : Token) (right : Expr) : Expr :=
  if tier.isLogical then .logical id left operator right else .binary id left operator right

/-! ## Rules -/

/-- Identifiers with commas between them. -/
inductive Names : List Token → List Token → Prop
  | one {name : Token} (isName : name.kind = .identifier) : Names [name] [name]
  | more {name comma : Token} {ts names : List Token} (isName : name.kind = .identifier)
      (isComma : comma.kind = .comma) (rest : Names ts names) :
      Names (name :: comma :: ts) (name :: names)

/-- The parameters of a function. -/
inductive Parameters : List Token → List Token → Prop
  | none : Parameters [] []
  | some {ts names : List Token} (names_of : Names ts names) (few : names.length ≤ maxArguments) :
      Parameters ts names

/-- The loop that a `for` loop stands for: the first clause in a block around it. -/
def loop (first : Option Stmt) (condition : Expr) (body : Stmt) (increment : Option Expr) : Stmt :=
  match first with
  | some s => .block [s, .whileLoop condition body increment]
  | none => .whileLoop condition body increment

mutual

/-- `Expression tier ts e i j`: the tokens are an expression of the tier with the tree `e`, whose
nodes have the numbers from `i` up to `j`. -/
inductive Expression : Tier → List Token → Expr → Nat → Nat → Prop
  | tighter {tier : Tier} {ts : List Token} {e : Expr} {i j : Nat}
      (inner : Expression tier.next ts e i j) : Expression tier ts e i j
  /-- The number after `i` was that of the name as an expression. -/
  | assignment {name sign : Token} {ts : List Token} {value : Expr} {i j : Nat}
      (isName : name.kind = .identifier) (isSign : sign.kind = .equal)
      (right : Expression .expression ts value (i + 1) j) :
      Expression .expression (name :: sign :: ts) (.assignment j name value) i (j + 1)
  | operator {tier : Tier} {operator : Token} {ts us : List Token} {left right : Expr}
      {i j k : Nat} (isOperator : operator.kind ∈ tier.operators)
      (first : Expression tier ts left i j) (second : Expression tier.next us right j k) :
      Expression tier (ts ++ operator :: us) (tier.join k left operator right) i (k + 1)
  | unary {operator : Token} {ts : List Token} {right : Expr} {i j : Nat}
      (isOperator : operator.kind = .minus ∨ operator.kind = .bang)
      (operand : Expression .unary ts right i j) :
      Expression .unary (operator :: ts) (.unary j operator right) i (j + 1)
  | step {operator : Token} {ts : List Token} {left : Expr} {i j : Nat}
      (isOperator : operator.kind = .plusPlus ∨ operator.kind = .minusMinus)
      (operand : Expression .postfixed ts left i j) :
      Expression .postfixed (ts ++ [operator]) (.step j left operator) i (j + 1)
  | callWithout {opening closing : Token} {ts : List Token} {callee : Expr} {i j : Nat}
      (isOpening : opening.kind = .leftParen) (isClosing : closing.kind = .rightParen)
      (function : Expression .postfixed ts callee i j) :
      Expression .postfixed (ts ++ [opening, closing]) (.call j callee [] closing) i (j + 1)
  | call {opening closing : Token} {ts us : List Token} {callee : Expr} {arguments : List Expr}
      {i j k : Nat} (isOpening : opening.kind = .leftParen)
      (isClosing : closing.kind = .rightParen) (function : Expression .postfixed ts callee i j)
      (items : Items us arguments j k) (few : arguments.length ≤ maxArguments) :
      Expression .postfixed (ts ++ opening :: (us ++ [closing])) (.call k callee arguments closing)
        i (k + 1)
  | value {t : Token} {i : Nat} (isValue : t.kind = .number ∨ t.kind = .string ∨ t.kind = .nilWord) :
      Expression .primary [t] (.literal i t.literal) i (i + 1)
  | yes {t : Token} {i : Nat} (isYes : t.kind = .trueWord) :
      Expression .primary [t] (.literal i (.bool true)) i (i + 1)
  | no {t : Token} {i : Nat} (isNo : t.kind = .falseWord) :
      Expression .primary [t] (.literal i (.bool false)) i (i + 1)
  | reference {name : Token} {i : Nat} (isName : name.kind = .identifier) :
      Expression .primary [name] (.reference i name) i (i + 1)
  | grouping {opening closing : Token} {ts : List Token} {inner : Expr} {i j : Nat}
      (isOpening : opening.kind = .leftParen) (isClosing : closing.kind = .rightParen)
      (content : Expression .expression ts inner i j) :
      Expression .primary (opening :: (ts ++ [closing])) (.grouping j inner) i (j + 1)
  | lambda {keyword : Token} {ts params : List Token} {body : List Stmt} {i j : Nat}
      (isKeyword : keyword.kind = .funWord) (function : Function ts params body i j) :
      Expression .primary (keyword :: ts) (.lambda j keyword params body none) i (j + 1)

/-- Expressions with commas between them. -/
inductive Items : List Token → List Expr → Nat → Nat → Prop
  | one {ts : List Token} {e : Expr} {i j : Nat} (item : Expression .expression ts e i j) :
      Items ts [e] i j
  | more {comma : Token} {ts us : List Token} {e : Expr} {es : List Expr} {i j k : Nat}
      (item : Expression .expression ts e i j) (isComma : comma.kind = .comma)
      (rest : Items us es j k) : Items (ts ++ comma :: us) (e :: es) i k

/-- A function from its parameters on. -/
inductive Function : List Token → List Token → List Stmt → Nat → Nat → Prop
  | intro {opening closing start stop : Token} {ps params ts : List Token} {body : List Stmt}
      {i j : Nat} (isOpening : opening.kind = .leftParen) (isClosing : closing.kind = .rightParen)
      (isStart : start.kind = .leftBrace) (isStop : stop.kind = .rightBrace)
      (parameters : Parameters ps params) (statements : Statements ts body i j) :
      Function (opening :: (ps ++ closing :: start :: (ts ++ [stop]))) params body i j

/-- An expression that may be absent. -/
inductive Clause : List Token → Option Expr → Nat → Nat → Prop
  | absent {i : Nat} : Clause [] none i i
  | present {ts : List Token} {e : Expr} {i j : Nat} (expression : Expression .expression ts e i j) :
      Clause ts (some e) i j

/-- The first clause of a `for` loop: nothing, a variable, or an expression. -/
inductive First : List Token → Option Stmt → Nat → Nat → Prop
  | absent {semicolon : Token} {i : Nat} (isEnd : semicolon.kind = .semicolon) :
      First [semicolon] none i i
  | declared {keyword : Token} {ts : List Token} {s : Stmt} {i j : Nat}
      (isKeyword : keyword.kind = .varWord)
      (declaration : Statement false (keyword :: ts) s i j) : First (keyword :: ts) (some s) i j
  | expression {semicolon : Token} {ts : List Token} {e : Expr} {i j : Nat}
      (isEnd : semicolon.kind = .semicolon) (value : Expression .expression ts e i j) :
      First (ts ++ [semicolon]) (some (.expression e)) i j

/-- `Statement dangling ts s i j`: the tokens are a statement with the tree `s`. It is dangling if
it ends with a conditional that could still take an `else`; nothing dangling stands before an
`else`, which thus belongs to the nearest conditional that can take it. -/
inductive Statement : Bool → List Token → Stmt → Nat → Nat → Prop
  | expression {semicolon : Token} {ts : List Token} {e : Expr} {i j : Nat}
      (isEnd : semicolon.kind = .semicolon) (value : Expression .expression ts e i j) :
      Statement false (ts ++ [semicolon]) (.expression e) i j
  | declared {keyword name semicolon : Token} {i : Nat} (isKeyword : keyword.kind = .varWord)
      (isName : name.kind = .identifier) (isEnd : semicolon.kind = .semicolon) :
      Statement false [keyword, name, semicolon] (.declaration name none) i i
  | initialized {keyword name sign semicolon : Token} {ts : List Token} {e : Expr} {i j : Nat}
      (isKeyword : keyword.kind = .varWord) (isName : name.kind = .identifier)
      (isSign : sign.kind = .equal) (isEnd : semicolon.kind = .semicolon)
      (value : Expression .expression ts e i j) :
      Statement false (keyword :: name :: sign :: (ts ++ [semicolon])) (.declaration name (some e))
        i j
  | function {keyword name : Token} {ts params : List Token} {body : List Stmt} {i j : Nat}
      (isKeyword : keyword.kind = .funWord) (isName : name.kind = .identifier)
      (function : Function ts params body i j) :
      Statement false (keyword :: name :: ts)
        (.declaration name (some (.lambda j keyword params body (some name)))) i (j + 1)
  | block {start stop : Token} {ts : List Token} {statements : List Stmt} {i j : Nat}
      (isStart : start.kind = .leftBrace) (isStop : stop.kind = .rightBrace)
      (content : Statements ts statements i j) :
      Statement false (start :: (ts ++ [stop])) (.block statements) i j
  | ifOnly {keyword opening closing : Token} {ts us : List Token} {condition : Expr} {s : Stmt}
      {dangling : Bool} {i j k : Nat} (isKeyword : keyword.kind = .ifWord)
      (isOpening : opening.kind = .leftParen) (isClosing : closing.kind = .rightParen)
      (test : Expression .expression ts condition i j) (branch : Statement dangling us s j k) :
      Statement true (keyword :: opening :: (ts ++ closing :: us)) (.ifElse condition s none) i k
  | ifElse {keyword opening closing word : Token} {ts us vs : List Token} {condition : Expr}
      {s t : Stmt} {dangling : Bool} {i j k l : Nat} (isKeyword : keyword.kind = .ifWord)
      (isOpening : opening.kind = .leftParen) (isClosing : closing.kind = .rightParen)
      (isElse : word.kind = .elseWord) (test : Expression .expression ts condition i j)
      (branch : Statement false us s j k) (other : Statement dangling vs t k l) :
      Statement dangling (keyword :: opening :: (ts ++ closing :: (us ++ word :: vs)))
        (.ifElse condition s (some t)) i l
  | whileLoop {keyword opening closing : Token} {ts us : List Token} {condition : Expr} {s : Stmt}
      {dangling : Bool} {i j k : Nat} (isKeyword : keyword.kind = .whileWord)
      (isOpening : opening.kind = .leftParen) (isClosing : closing.kind = .rightParen)
      (test : Expression .expression ts condition i j) (body : Statement dangling us s j k) :
      Statement dangling (keyword :: opening :: (ts ++ closing :: us))
        (.whileLoop condition s none) i k
  | forLoop {keyword opening semicolon closing : Token} {ts us vs ws : List Token}
      {first : Option Stmt} {condition : Expr} {increment : Option Expr} {s : Stmt}
      {dangling : Bool} {i j k l m : Nat} (isKeyword : keyword.kind = .forWord)
      (isOpening : opening.kind = .leftParen) (isEnd : semicolon.kind = .semicolon)
      (isClosing : closing.kind = .rightParen) (start : First ts first i j)
      (test : Expression .expression us condition j k) (onward : Clause vs increment k l)
      (body : Statement dangling ws s l m) :
      Statement dangling
        (keyword :: opening :: (ts ++ (us ++ semicolon :: (vs ++ closing :: ws))))
        (loop first condition s increment) i m
  /-- Without a condition the loop goes on for ever; its condition is numbered after its body. -/
  | endlessLoop {keyword opening semicolon closing : Token} {ts vs ws : List Token}
      {first : Option Stmt} {increment : Option Expr} {s : Stmt} {dangling : Bool}
      {i j k l : Nat} (isKeyword : keyword.kind = .forWord) (isOpening : opening.kind = .leftParen)
      (isEnd : semicolon.kind = .semicolon) (isClosing : closing.kind = .rightParen)
      (start : First ts first i j) (onward : Clause vs increment j k)
      (body : Statement dangling ws s k l) :
      Statement dangling (keyword :: opening :: (ts ++ semicolon :: (vs ++ closing :: ws)))
        (loop first (.literal l (.bool true)) s increment) i (l + 1)
  | breakLoop {keyword semicolon : Token} {i : Nat} (isKeyword : keyword.kind = .breakWord)
      (isEnd : semicolon.kind = .semicolon) :
      Statement false [keyword, semicolon] (.breakLoop keyword) i i
  | continueLoop {keyword semicolon : Token} {i : Nat} (isKeyword : keyword.kind = .continueWord)
      (isEnd : semicolon.kind = .semicolon) :
      Statement false [keyword, semicolon] (.continueLoop keyword) i i
  | returnValue {keyword semicolon : Token} {ts : List Token} {value : Option Expr} {i j : Nat}
      (isKeyword : keyword.kind = .returnWord) (isEnd : semicolon.kind = .semicolon)
      (result : Clause ts value i j) :
      Statement false (keyword :: (ts ++ [semicolon])) (.returnValue keyword value) i j

/-- Statements one after the other. -/
inductive Statements : List Token → List Stmt → Nat → Nat → Prop
  | nil {i : Nat} : Statements [] [] i i
  | cons {ts us : List Token} {s : Stmt} {rest : List Stmt} {dangling : Bool} {i j k : Nat}
      (first : Statement dangling ts s i j) (others : Statements us rest j k) :
      Statements (ts ++ us) (s :: rest) i k

end

end Lox.Grammar
