import Lox.Proofs.Alike.Trees
import Lox.Proofs.Scopes.Sites
import Lox.Proofs.Trees.Relabel

/-!
# A tree is like itself with other lines and numbers

A tree and the same tree with its lines and numbers changed are alike wherever the changed lines
and numbers correspond.
-/

namespace Lox

/-- What is entered, with the lines and numbers in it changed. -/
def ScopeNode.relabel (lines : Int → Int) (numbers : Nat → Nat) : ScopeNode → ScopeNode
  | .block statements => .block (Stmt.relabelAll lines numbers statements)
  | .function keyword params body name =>
    .function (keyword.relabel lines) (params.map (·.relabel lines))
      (Stmt.relabelAll lines numbers body) (name.map (·.relabel lines))

theorem ScopeNode.relabel_id (node : ScopeNode) : node.relabel id id = node := by
  cases node with
  | block statements => simp [relabel, Stmt.relabelAll_id]
  | function keyword params body name =>
    cases name <;> simp [relabel, Stmt.relabelAll_id, Token.relabel]

variable {μ : Type}

/-- A change of lines and numbers gives what corresponds, for the uses at the given sites. -/
structure Likeness.Admits (L : Likeness μ) (shift : Int → Int) (renumber : Nat → Nat)
    (label : ScopeNode → μ) (sites : Nat × List μ → Prop) : Prop where
  lines : ∀ line, L.lines line (shift line)
  enters : ∀ around node, L.enters around node (node.relabel shift renumber) (label node)
  uses : ∀ {id around}, sites (id, around) → ∀ name,
    L.uses around id name (renumber id) (name.relabel shift)
  names : ∀ around name, L.names around name (name.relabel shift)

section

set_option linter.unusedSectionVars false

variable {L : Likeness μ} {shift : Int → Int} {renumber : Nat → Nat} {label : ScopeNode → μ}
  {sites : Nat × List μ → Prop} (admits : L.Admits shift renumber label sites)
include admits

theorem Token.alike_relabel (t : Token) : t.Alike L (t.relabel shift) :=
  ⟨rfl, rfl, admits.lines t.line⟩

private theorem names_relabel (around : List μ) (names : List Token) :
    List.Forall₂ (L.names around) names (names.map (·.relabel shift)) := by
  induction names with
  | nil => exact .nil
  | cons name _ ih => exact .cons (admits.names around name) ih

mutual

theorem Expr.alike_relabel (e : Expr) (around : List μ)
    (inside : ∀ site ∈ e.sites label around, sites site) :
    Expr.Alike L around e (e.relabel shift renumber) := by
  cases e with
  | literal id value => exact .literal _ _ _
  | misplaced kind => exact .misplaced kind
  | grouping _ inner => exact .grouping _ _ (Expr.alike_relabel inner around inside)
  | unary _ operator right =>
    exact .unary _ _ (operator.alike_relabel admits) (Expr.alike_relabel right around inside)
  | step _ left operator =>
    exact .step _ _ (Expr.alike_relabel left around inside) (operator.alike_relabel admits)
  | binary _ left operator right =>
    obtain ⟨inLeft, inRight⟩ := List.forall_mem_append.1 inside
    exact .binary _ _ (Expr.alike_relabel left around inLeft) (operator.alike_relabel admits)
      (Expr.alike_relabel right around inRight)
  | logical _ left operator right =>
    obtain ⟨inLeft, inRight⟩ := List.forall_mem_append.1 inside
    exact .logical _ _ (Expr.alike_relabel left around inLeft) (operator.alike_relabel admits)
      (Expr.alike_relabel right around inRight)
  | reference id name =>
    exact .reference (admits.uses (inside _ (List.mem_singleton_self _)) name)
  | assignment id name value =>
    obtain ⟨inValue, here⟩ := List.forall_mem_append.1 inside
    exact .assignment (admits.uses (here _ (List.mem_singleton_self _)) name)
      (Expr.alike_relabel value around inValue)
  | call _ callee arguments paren =>
    obtain ⟨inCallee, inArguments⟩ := List.forall_mem_append.1 inside
    exact .call _ _ (Expr.alike_relabel callee around inCallee)
      (Expr.allAlike_relabel arguments around inArguments) (admits.lines _)
  | lambda _ keyword params body name =>
    refine .lambda _ _ (admits.enters around (.function keyword params body name))
      (admits.lines _) ?_ (names_relabel admits _ params) (Stmt.allAlike_relabel body _ inside)
    cases name <;> rfl

theorem Expr.allAlike_relabel (es : List Expr) (around : List μ)
    (inside : ∀ site ∈ Expr.allSites label around es, sites site) :
    Expr.AllAlike L around es (Expr.relabelAll shift renumber es) := by
  cases es with
  | nil => exact .nil
  | cons e rest =>
    obtain ⟨inHead, inRest⟩ := List.forall_mem_append.1 inside
    exact .cons (Expr.alike_relabel e around inHead) (Expr.allAlike_relabel rest around inRest)

theorem Expr.optionAlike_relabel (e? : Option Expr) (around : List μ)
    (inside : ∀ site ∈ Expr.optionSites label around e?, sites site) :
    Expr.OptionAlike L around e? (Expr.relabelOption shift renumber e?) := by
  cases e? with
  | none => exact .none
  | some e => exact .some (Expr.alike_relabel e around inside)

theorem Stmt.alike_relabel (s : Stmt) (around : List μ)
    (inside : ∀ site ∈ s.sites label around, sites site) :
    Stmt.Alike L around s (s.relabel shift renumber) := by
  cases s with
  | expression e => exact .expression (Expr.alike_relabel e around inside)
  | declaration name initializer =>
    exact .declaration (admits.names around name)
      (Expr.optionAlike_relabel initializer around inside)
  | block statements =>
    exact .block (admits.enters around (.block statements))
      (Stmt.allAlike_relabel statements _ inside)
  | ifElse condition thenBranch elseBranch =>
    obtain ⟨inCondition, inBranches⟩ := List.forall_mem_append.1 inside
    obtain ⟨inThen, inElse⟩ := List.forall_mem_append.1 inBranches
    exact .ifElse (Expr.alike_relabel condition around inCondition)
      (Stmt.alike_relabel thenBranch around inThen)
      (Stmt.optionAlike_relabel elseBranch around inElse)
  | whileLoop condition body increment =>
    obtain ⟨inCondition, inRest⟩ := List.forall_mem_append.1 inside
    obtain ⟨inBody, inIncrement⟩ := List.forall_mem_append.1 inRest
    exact .whileLoop (Expr.alike_relabel condition around inCondition)
      (Stmt.alike_relabel body around inBody)
      (Expr.optionAlike_relabel increment around inIncrement)
  | breakLoop keyword => exact .breakLoop _ _
  | continueLoop keyword => exact .continueLoop _ _
  | returnValue keyword value =>
    exact .returnValue _ _ (Expr.optionAlike_relabel value around inside)
  | misplaced kind => exact .misplaced kind

theorem Stmt.allAlike_relabel (ss : List Stmt) (around : List μ)
    (inside : ∀ site ∈ Stmt.allSites label around ss, sites site) :
    Stmt.AllAlike L around ss (Stmt.relabelAll shift renumber ss) := by
  cases ss with
  | nil => exact .nil
  | cons s rest =>
    obtain ⟨inHead, inRest⟩ := List.forall_mem_append.1 inside
    exact .cons (Stmt.alike_relabel s around inHead) (Stmt.allAlike_relabel rest around inRest)

theorem Stmt.optionAlike_relabel (s? : Option Stmt) (around : List μ)
    (inside : ∀ site ∈ Stmt.optionSites label around s?, sites site) :
    Stmt.OptionAlike L around s? (Stmt.relabelOption shift renumber s?) := by
  cases s? with
  | none => exact .none
  | some s => exact .some (Stmt.alike_relabel s around inside)

end

end

end Lox
