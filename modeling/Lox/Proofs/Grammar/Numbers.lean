import Lox.Proofs.Grammar.Rules
import Lox.Proofs.Trees.Uses

/-!
# What is derived and how its nodes are numbered

A derivation can be relabelled: with the lines of its tokens changed, and with its nodes numbered
from elsewhere on. The nodes of what is derived have the numbers between the two bounds, each at
most one.
-/

namespace Lox.Grammar

set_option linter.unusedSectionVars false

/-! ## The second bound is not below the first -/

mutual

theorem Expression.le {tier : Tier} {ts : List Token} {e : Expr} {i j : Nat} :
    Expression tier ts e i j → i ≤ j
  | .tighter inner => inner.le
  | .assignment _ _ right => by have := right.le; omega
  | .operator _ first second => by have := first.le; have := second.le; omega
  | .unary _ operand | .step _ operand | .callWithout _ _ operand | .grouping _ _ operand => by
    have := operand.le; omega
  | .call _ _ function items _ => by have := function.le; have := items.le; omega
  | .value _ | .yes _ | .no _ | .reference _ => by omega
  | .lambda _ function => by have := function.le; omega

theorem Items.le {ts : List Token} {es : List Expr} {i j : Nat} : Items ts es i j → i ≤ j
  | .one item => item.le
  | .more item _ rest => by have := item.le; have := rest.le; omega

theorem Function.le {ts params : List Token} {body : List Stmt} {i j : Nat} :
    Function ts params body i j → i ≤ j
  | .intro _ _ _ _ _ statements => statements.le

theorem Clause.le {ts : List Token} {e : Option Expr} {i j : Nat} : Clause ts e i j → i ≤ j
  | .absent => Nat.le_refl _
  | .present expression => expression.le

theorem First.le {ts : List Token} {s : Option Stmt} {i j : Nat} : First ts s i j → i ≤ j
  | .absent _ => Nat.le_refl _
  | .declared _ declaration => declaration.le
  | .expression _ value => value.le

theorem Statement.le {dangling : Bool} {ts : List Token} {s : Stmt} {i j : Nat} :
    Statement dangling ts s i j → i ≤ j
  | .expression _ value | .initialized _ _ _ _ value => value.le
  | .declared .. | .breakLoop .. | .continueLoop .. => Nat.le_refl _
  | .function _ _ function => by have := function.le; omega
  | .block _ _ content => content.le
  | .ifOnly _ _ _ test branch => by have := test.le; have := branch.le; omega
  | .ifElse _ _ _ _ test branch other => by
    have := test.le; have := branch.le; have := other.le; omega
  | .whileLoop _ _ _ test body => by have := test.le; have := body.le; omega
  | .forLoop _ _ _ _ start test onward body => by
    have := start.le; have := test.le; have := onward.le; have := body.le; omega
  | .endlessLoop _ _ _ _ start onward body => by
    have := start.le; have := onward.le; have := body.le; omega
  | .returnValue _ _ result => result.le

theorem Statements.le {ts : List Token} {ss : List Stmt} {i j : Nat} :
    Statements ts ss i j → i ≤ j
  | .nil => Nat.le_refl _
  | .cons first others => by have := first.le; have := others.le; omega

end

/-! ## The uses of names are numbered apart, between the bounds -/

private theorem apart_join {first second : List Nat} {i j k high : Nat}
    (left : Apart first i j) (right : Apart second j k) (lower : i ≤ j) (upper : j ≤ k)
    (more : k ≤ high) : Apart (first ++ second) i high :=
  (left.append right lower upper).mono (Nat.le_refl _) more

theorem useIds_join (tier : Tier) (id : Nat) (left : Expr) (operator : Token) (right : Expr) :
    (tier.join id left operator right).useIds = left.useIds ++ right.useIds := by
  unfold Tier.join
  split <;> rfl

theorem useIds_loop (first : Option Stmt) (condition : Expr) (body : Stmt)
    (increment : Option Expr) :
    (loop first condition body increment).useIds =
      Stmt.optionUseIds first ++
        (condition.useIds ++ (body.useIds ++ Expr.optionUseIds increment)) := by
  cases first <;> simp [loop, Stmt.useIds, Stmt.allUseIds, Stmt.optionUseIds]

mutual

theorem Expression.apart {tier : Tier} {ts : List Token} {e : Expr} {i j : Nat} :
    Expression tier ts e i j → Apart e.useIds i j
  | .tighter inner => inner.apart
  | .assignment _ _ right => by
    have value := right.apart.mono (Nat.le_succ i) (Nat.le_refl _)
    have bound := right.le
    exact value.append (.single (Nat.le_refl _) (Nat.lt_succ_self _)) (by omega) (by omega)
  | .operator _ first second => by
    rw [useIds_join]
    exact apart_join first.apart second.apart first.le second.le (Nat.le_succ _)
  | .unary _ operand | .step _ operand | .grouping _ _ operand =>
    operand.apart.mono (Nat.le_refl _) (Nat.le_succ _)
  | .callWithout _ _ function => by
    simpa [Expr.useIds, Expr.allUseIds] using function.apart.mono (Nat.le_refl _) (Nat.le_succ _)
  | .call _ _ function items _ =>
    apart_join function.apart items.apart function.le items.le (Nat.le_succ _)
  | .value _ | .yes _ | .no _ => .nil _ _
  | .reference _ => .single (Nat.le_refl _) (Nat.lt_succ_self _)
  | .lambda _ function => function.apart.mono (Nat.le_refl _) (Nat.le_succ _)

theorem Items.apart {ts : List Token} {es : List Expr} {i j : Nat} :
    Items ts es i j → Apart (Expr.allUseIds es) i j
  | .one item => by simpa [Expr.allUseIds] using item.apart
  | .more item _ rest => apart_join item.apart rest.apart item.le rest.le (Nat.le_refl _)

theorem Function.apart {ts params : List Token} {body : List Stmt} {i j : Nat} :
    Function ts params body i j → Apart (Stmt.allUseIds body) i j
  | .intro _ _ _ _ _ statements => statements.apart

theorem Clause.apart {ts : List Token} {e : Option Expr} {i j : Nat} :
    Clause ts e i j → Apart (Expr.optionUseIds e) i j
  | .absent => .nil _ _
  | .present expression => expression.apart

theorem First.apart {ts : List Token} {s : Option Stmt} {i j : Nat} :
    First ts s i j → Apart (Stmt.optionUseIds s) i j
  | .absent _ => .nil _ _
  | .declared _ declaration => declaration.apart
  | .expression _ value => value.apart

theorem Statement.apart {dangling : Bool} {ts : List Token} {s : Stmt} {i j : Nat} :
    Statement dangling ts s i j → Apart s.useIds i j
  | .expression _ value | .initialized _ _ _ _ value => value.apart
  | .declared .. | .breakLoop .. | .continueLoop .. => .nil _ _
  | .function _ _ function => function.apart.mono (Nat.le_refl _) (Nat.le_succ _)
  | .block _ _ content => content.apart
  | .ifOnly _ _ _ test branch => by
    simpa [Stmt.useIds, Stmt.optionUseIds] using
      apart_join test.apart branch.apart test.le branch.le (Nat.le_refl _)
  | .ifElse _ _ _ _ test branch other =>
    apart_join test.apart (apart_join branch.apart other.apart branch.le other.le (Nat.le_refl _))
      test.le (Nat.le_trans branch.le other.le) (Nat.le_refl _)
  | .whileLoop _ _ _ test body => by
    simpa [Stmt.useIds, Expr.optionUseIds] using
      apart_join test.apart body.apart test.le body.le (Nat.le_refl _)
  | .forLoop _ _ _ _ start test onward body => by
    rw [useIds_loop]
    -- The increment is read before the body and walked after it.
    have round := (apart_join onward.apart body.apart onward.le body.le (Nat.le_refl _)).swap
    have afterTest := Nat.le_trans onward.le body.le
    exact apart_join start.apart (apart_join test.apart round test.le afterTest (Nat.le_refl _))
      start.le (Nat.le_trans test.le afterTest) (Nat.le_refl _)
  | .endlessLoop _ _ _ _ start onward body => by
    rw [useIds_loop]
    have round := (apart_join onward.apart body.apart onward.le body.le (Nat.le_refl _)).swap
    exact apart_join start.apart round start.le (Nat.le_trans onward.le body.le) (Nat.le_succ _)
  | .returnValue _ _ result => result.apart

theorem Statements.apart {ts : List Token} {ss : List Stmt} {i j : Nat} :
    Statements ts ss i j → Apart (Stmt.allUseIds ss) i j
  | .nil => .nil _ _
  | .cons first others => apart_join first.apart others.apart first.le others.le (Nat.le_refl _)

end

/-! ## Derivations with other lines and other numbers -/

section
variable {lines : Int → Int} {numbers : Nat → Nat} {low : Nat}

theorem relabel_join (tier : Tier) (id : Nat) (left : Expr) (operator : Token) (right : Expr) :
    (tier.join id left operator right).relabel lines numbers =
      tier.join (numbers id) (left.relabel lines numbers) (operator.relabel lines)
        (right.relabel lines numbers) := by
  unfold Tier.join
  split <;> rfl

theorem relabel_loop (first : Option Stmt) (condition : Expr) (body : Stmt)
    (increment : Option Expr) :
    (loop first condition body increment).relabel lines numbers =
      loop (Stmt.relabelOption lines numbers first) (condition.relabel lines numbers)
        (body.relabel lines numbers) (Expr.relabelOption lines numbers increment) := by
  cases first <;> rfl

theorem Names.relabel {ts names : List Token} :
    Names ts names → Names (ts.map (·.relabel lines)) (names.map (·.relabel lines))
  | .one isName => .one isName
  | .more isName isComma rest => .more isName isComma rest.relabel

theorem Parameters.relabel {ts names : List Token} :
    Parameters ts names → Parameters (ts.map (·.relabel lines)) (names.map (·.relabel lines))
  | .none => .none
  | .some names_of few => .some names_of.relabel (by simpa using few)

variable (next : ∀ k, low ≤ k → numbers (k + 1) = numbers k + 1)
include next

mutual

theorem Expression.relabel {tier : Tier} {ts : List Token} {e : Expr} {i j : Nat} :
    Expression tier ts e i j → low ≤ i →
      Expression tier (ts.map (·.relabel lines)) (e.relabel lines numbers) (numbers i) (numbers j)
  | .tighter inner, above => .tighter (inner.relabel above)
  | .assignment isName isSign right, above => by
    have bound := right.le
    have value := right.relabel (by omega)
    rw [next _ above] at value
    rw [next _ (by omega)]
    exact .assignment isName isSign value
  | .operator isOperator first second, above => by
    have bound := first.le
    have bound' := second.le
    rw [next _ (by omega), relabel_join, List.map_append, List.map_cons]
    exact .operator isOperator (first.relabel above) (second.relabel (by omega))
  | .unary isOperator operand, above => by
    have bound := operand.le
    rw [next _ (by omega)]
    exact .unary isOperator (operand.relabel above)
  | .step isOperator operand, above => by
    have bound := operand.le
    rw [next _ (by omega), List.map_append]
    exact .step isOperator (operand.relabel above)
  | .callWithout isOpening isClosing function, above => by
    have bound := function.le
    rw [next _ (by omega), List.map_append]
    exact .callWithout isOpening isClosing (function.relabel above)
  | .call isOpening isClosing function items few, above => by
    have bound := function.le
    have bound' := items.le
    rw [next _ (by omega), List.map_append, List.map_cons, List.map_append]
    exact .call isOpening isClosing (function.relabel above) (items.relabel (by omega))
      (by rwa [Expr.length_relabelAll])
  | .value isValue, above => by rw [next _ above]; exact .value isValue
  | .yes isYes, above => by rw [next _ above]; exact .yes isYes
  | .no isNo, above => by rw [next _ above]; exact .no isNo
  | .reference isName, above => by rw [next _ above]; exact .reference isName
  | .grouping isOpening isClosing content, above => by
    have bound := content.le
    rw [next _ (by omega), List.map_cons, List.map_append]
    exact .grouping isOpening isClosing (content.relabel above)
  | .lambda isKeyword function, above => by
    have bound := function.le
    rw [next _ (by omega)]
    exact .lambda isKeyword (function.relabel above)

theorem Items.relabel {ts : List Token} {es : List Expr} {i j : Nat} :
    Items ts es i j → low ≤ i →
      Items (ts.map (·.relabel lines)) (Expr.relabelAll lines numbers es) (numbers i) (numbers j)
  | .one item, above => .one (item.relabel above)
  | .more item isComma rest, above => by
    have bound := item.le
    rw [List.map_append, List.map_cons]
    exact .more (item.relabel above) isComma (rest.relabel (by omega))

theorem Function.relabel {ts params : List Token} {body : List Stmt} {i j : Nat} :
    Function ts params body i j → low ≤ i →
      Function (ts.map (·.relabel lines)) (params.map (·.relabel lines))
        (Stmt.relabelAll lines numbers body) (numbers i) (numbers j)
  | .intro isOpening isClosing isStart isStop parameters statements, above => by
    simp only [List.map_cons, List.map_append, List.map_nil]
    exact .intro isOpening isClosing isStart isStop parameters.relabel (statements.relabel above)

theorem Clause.relabel {ts : List Token} {e : Option Expr} {i j : Nat} :
    Clause ts e i j → low ≤ i →
      Clause (ts.map (·.relabel lines)) (Expr.relabelOption lines numbers e)
        (numbers i) (numbers j)
  | .absent, _ => .absent
  | .present expression, above => .present (expression.relabel above)

theorem First.relabel {ts : List Token} {s : Option Stmt} {i j : Nat} :
    First ts s i j → low ≤ i →
      First (ts.map (·.relabel lines)) (Stmt.relabelOption lines numbers s)
        (numbers i) (numbers j)
  | .absent isEnd, _ => .absent isEnd
  | .declared isKeyword declaration, above => .declared isKeyword (declaration.relabel above)
  | .expression isEnd value, above => by
    rw [List.map_append]
    exact .expression isEnd (value.relabel above)

theorem Statement.relabel {dangling : Bool} {ts : List Token} {s : Stmt} {i j : Nat} :
    Statement dangling ts s i j → low ≤ i →
      Statement dangling (ts.map (·.relabel lines)) (s.relabel lines numbers)
        (numbers i) (numbers j)
  | .expression isEnd value, above => by
    rw [List.map_append]
    exact .expression isEnd (value.relabel above)
  | .declared isKeyword isName isEnd, _ => .declared isKeyword isName isEnd
  | .initialized isKeyword isName isSign isEnd value, above => by
    simp only [List.map_cons, List.map_append, List.map_nil]
    exact .initialized isKeyword isName isSign isEnd (value.relabel above)
  | .function isKeyword isName function, above => by
    have bound := function.le
    rw [next _ (by omega)]
    exact .function isKeyword isName (function.relabel above)
  | .block isStart isStop content, above => by
    simp only [List.map_cons, List.map_append, List.map_nil]
    exact .block isStart isStop (content.relabel above)
  | .ifOnly isKeyword isOpening isClosing test branch, above => by
    have bound := test.le
    simp only [List.map_cons, List.map_append]
    exact .ifOnly isKeyword isOpening isClosing (test.relabel above) (branch.relabel (by omega))
  | .ifElse isKeyword isOpening isClosing isElse test branch other, above => by
    have bound := test.le
    have bound' := branch.le
    simp only [List.map_cons, List.map_append]
    exact .ifElse isKeyword isOpening isClosing isElse (test.relabel above)
      (branch.relabel (by omega)) (other.relabel (by omega))
  | .whileLoop isKeyword isOpening isClosing test body, above => by
    have bound := test.le
    simp only [List.map_cons, List.map_append]
    exact .whileLoop isKeyword isOpening isClosing (test.relabel above) (body.relabel (by omega))
  | .forLoop isKeyword isOpening isEnd isClosing start test onward body, above => by
    have bound := start.le
    have bound' := test.le
    have bound'' := onward.le
    simp only [List.map_cons, List.map_append, relabel_loop]
    exact .forLoop isKeyword isOpening isEnd isClosing (start.relabel above)
      (test.relabel (by omega)) (onward.relabel (by omega)) (body.relabel (by omega))
  | .endlessLoop isKeyword isOpening isEnd isClosing start onward body, above => by
    have bound := start.le
    have bound' := onward.le
    have bound'' := body.le
    simp only [List.map_cons, List.map_append, relabel_loop]
    rw [next _ (by omega)]
    exact .endlessLoop isKeyword isOpening isEnd isClosing (start.relabel above)
      (onward.relabel (by omega)) (body.relabel (by omega))
  | .breakLoop isKeyword isEnd, _ => .breakLoop isKeyword isEnd
  | .continueLoop isKeyword isEnd, _ => .continueLoop isKeyword isEnd
  | .returnValue isKeyword isEnd result, above => by
    rw [List.map_cons, List.map_append]
    exact .returnValue isKeyword isEnd (result.relabel above)

theorem Statements.relabel {ts : List Token} {ss : List Stmt} {i j : Nat} :
    Statements ts ss i j → low ≤ i →
      Statements (ts.map (·.relabel lines)) (Stmt.relabelAll lines numbers ss)
        (numbers i) (numbers j)
  | .nil, _ => .nil
  | .cons first others, above => by
    have bound := first.le
    rw [List.map_append]
    exact .cons (first.relabel above) (others.relabel (by omega))

end

end

end Lox.Grammar
