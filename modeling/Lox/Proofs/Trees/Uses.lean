import Lox.Proofs.Trees.Relabel

/-!
# The uses of names in a tree

The numbers of the nodes that use a name, in the order in which a walk meets them.
-/

namespace Lox

mutual

/-- The numbers of the references and assignments of an expression. -/
def Expr.useIds : Expr → List Nat
  | .literal .. | .misplaced _ => []
  | .grouping _ inner => inner.useIds
  | .unary _ _ right => right.useIds
  | .binary _ left _ right => left.useIds ++ right.useIds
  | .logical _ left _ right => left.useIds ++ right.useIds
  | .step _ left _ => left.useIds
  | .reference id _ => [id]
  | .assignment id _ value => value.useIds ++ [id]
  | .call _ callee arguments _ => callee.useIds ++ Expr.allUseIds arguments
  | .lambda _ _ _ body _ => Stmt.allUseIds body

/-- The numbers of the references and assignments of expressions. -/
def Expr.allUseIds : List Expr → List Nat
  | [] => []
  | e :: rest => e.useIds ++ Expr.allUseIds rest

/-- The numbers of the references and assignments of an optional expression. -/
def Expr.optionUseIds : Option Expr → List Nat
  | none => []
  | some e => e.useIds

/-- The numbers of the references and assignments of a statement. -/
def Stmt.useIds : Stmt → List Nat
  | .expression e => e.useIds
  | .declaration _ initializer => Expr.optionUseIds initializer
  | .block statements => Stmt.allUseIds statements
  | .ifElse condition thenBranch elseBranch =>
    condition.useIds ++ (thenBranch.useIds ++ Stmt.optionUseIds elseBranch)
  | .whileLoop condition body increment =>
    condition.useIds ++ (body.useIds ++ Expr.optionUseIds increment)
  | .breakLoop _ | .continueLoop _ | .misplaced _ => []
  | .returnValue _ value => Expr.optionUseIds value

/-- The numbers of the references and assignments of statements. -/
def Stmt.allUseIds : List Stmt → List Nat
  | [] => []
  | s :: rest => s.useIds ++ Stmt.allUseIds rest

/-- The numbers of the references and assignments of an optional statement. -/
def Stmt.optionUseIds : Option Stmt → List Nat
  | none => []
  | some s => s.useIds

end

/-- The numbers of the references and assignments of a program. -/
def Program.useIds (p : Program) : List Nat := Stmt.allUseIds p

/-! ## Trees with other numbers -/

section
variable (lines : Int → Int) (numbers : Nat → Nat)

mutual

theorem Expr.useIds_relabel (e : Expr) :
    (e.relabel lines numbers).useIds = e.useIds.map numbers := by
  cases e with
  | literal | misplaced | reference => rfl
  | grouping _ inner | unary _ _ inner | step _ inner => exact Expr.useIds_relabel inner
  | binary _ left _ right | logical _ left _ right =>
    simp only [Expr.relabel, Expr.useIds, Expr.useIds_relabel left, Expr.useIds_relabel right,
      List.map_append]
  | assignment _ _ value =>
    simp only [Expr.relabel, Expr.useIds, Expr.useIds_relabel value, List.map_append, List.map_cons,
      List.map_nil]
  | call _ callee arguments _ =>
    simp only [Expr.relabel, Expr.useIds, Expr.useIds_relabel callee,
      Expr.allUseIds_relabelAll arguments, List.map_append]
  | lambda _ _ _ body _ => exact Stmt.allUseIds_relabelAll body

theorem Expr.allUseIds_relabelAll (es : List Expr) :
    Expr.allUseIds (Expr.relabelAll lines numbers es) = (Expr.allUseIds es).map numbers := by
  cases es with
  | nil => rfl
  | cons e rest =>
    simp only [Expr.relabelAll, Expr.allUseIds, Expr.useIds_relabel e,
      Expr.allUseIds_relabelAll rest, List.map_append]

theorem Expr.optionUseIds_relabelOption (e? : Option Expr) :
    Expr.optionUseIds (Expr.relabelOption lines numbers e?) =
      (Expr.optionUseIds e?).map numbers := by
  cases e? with
  | none => rfl
  | some e => exact Expr.useIds_relabel e

theorem Stmt.useIds_relabel (s : Stmt) :
    (s.relabel lines numbers).useIds = s.useIds.map numbers := by
  cases s with
  | breakLoop | continueLoop | misplaced => rfl
  | expression e => exact Expr.useIds_relabel e
  | declaration _ e? | returnValue _ e? => exact Expr.optionUseIds_relabelOption e?
  | block statements => exact Stmt.allUseIds_relabelAll statements
  | ifElse condition thenBranch elseBranch =>
    simp only [Stmt.relabel, Stmt.useIds, Expr.useIds_relabel condition,
      Stmt.useIds_relabel thenBranch, Stmt.optionUseIds_relabelOption elseBranch, List.map_append]
  | whileLoop condition body increment =>
    simp only [Stmt.relabel, Stmt.useIds, Expr.useIds_relabel condition, Stmt.useIds_relabel body,
      Expr.optionUseIds_relabelOption increment, List.map_append]

theorem Stmt.allUseIds_relabelAll (ss : List Stmt) :
    Stmt.allUseIds (Stmt.relabelAll lines numbers ss) = (Stmt.allUseIds ss).map numbers := by
  cases ss with
  | nil => rfl
  | cons s rest =>
    simp only [Stmt.relabelAll, Stmt.allUseIds, Stmt.useIds_relabel s,
      Stmt.allUseIds_relabelAll rest, List.map_append]

theorem Stmt.optionUseIds_relabelOption (s? : Option Stmt) :
    Stmt.optionUseIds (Stmt.relabelOption lines numbers s?) =
      (Stmt.optionUseIds s?).map numbers := by
  cases s? with
  | none => rfl
  | some s => exact Stmt.useIds_relabel s

end

end

/-! ## Numbers that are apart -/

/-- Numbers that are apart from each other, none below the first bound or from the second one on. -/
structure Apart (ids : List Nat) (low high : Nat) : Prop where
  nodup : ids.Nodup
  low_le : ∀ id ∈ ids, low ≤ id
  lt_high : ∀ id ∈ ids, id < high

namespace Apart

theorem nil (low high : Nat) : Apart [] low high := ⟨by simp, by simp, by simp⟩

theorem single {id low high : Nat} (above : low ≤ id) (below : id < high) : Apart [id] low high :=
  ⟨by simp, by simpa using above, by simpa using below⟩

theorem mono {ids : List Nat} {low low' high high' : Nat} (apart : Apart ids low high)
    (lower : low' ≤ low) (higher : high ≤ high') : Apart ids low' high' :=
  ⟨apart.nodup, fun id member => Nat.le_trans lower (apart.low_le id member),
    fun id member => Nat.lt_of_lt_of_le (apart.lt_high id member) higher⟩

/-- Numbers below a bound and numbers from it on are apart, in whichever order they stand. -/
theorem append {ids ids' : List Nat} {low middle high : Nat} (first : Apart ids low middle)
    (second : Apart ids' middle high) (lowest : low ≤ middle) (highest : middle ≤ high) :
    Apart (ids ++ ids') low high := by
  refine ⟨?_, ?_, ?_⟩
  · refine List.nodup_append.2 ⟨first.nodup, second.nodup, ?_⟩
    intro id member id' member' same
    have below := first.lt_high id member
    have above := second.low_le id' member'
    omega
  · intro id member
    rcases List.mem_append.1 member with member | member
    · exact first.low_le id member
    · exact Nat.le_trans lowest (second.low_le id member)
  · intro id member
    rcases List.mem_append.1 member with member | member
    · exact Nat.lt_of_lt_of_le (first.lt_high id member) highest
    · exact second.lt_high id member

theorem swap {ids ids' : List Nat} {low high : Nat} (apart : Apart (ids ++ ids') low high) :
    Apart (ids' ++ ids) low high := by
  have perm : (ids' ++ ids).Perm (ids ++ ids') := List.perm_append_comm
  exact ⟨perm.nodup_iff.2 apart.nodup, fun id member => apart.low_le id (perm.mem_iff.1 member),
    fun id member => apart.lt_high id (perm.mem_iff.1 member)⟩

end Apart

/-- Some number is above all others. -/
theorem exists_above (ids : List Nat) (low : Nat) : ∃ high, low ≤ high ∧ ∀ id ∈ ids, id < high := by
  induction ids with
  | nil => exact ⟨low, Nat.le_refl low, fun _ member => absurd member List.not_mem_nil⟩
  | cons id rest ih =>
    obtain ⟨high, above, below⟩ := ih
    refine ⟨high + id + 1, by omega, fun id' member => ?_⟩
    rcases List.mem_cons.1 member with rfl | member
    · omega
    · have := below id' member
      omega

end Lox
