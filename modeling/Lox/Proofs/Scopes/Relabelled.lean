import Lox.Proofs.Scopes.Walk
import Lox.Proofs.Trees.Relabel

/-!
# Walks over trees with other lines and numbers

A walk depends neither on lines nor on numbers: over a tree with other ones it finds the same, with
the lines and numbers changed, a refusal included.
-/

namespace Lox

section
variable (lines : Int → Int) (numbers : Nat → Nat)

/-! ## What is found, with other lines and numbers -/

/-- A use with the line of its name and its number changed. -/
def Use.relabel (u : Use) : Use :=
  { u with id := numbers u.id, name := u.name.relabel lines }

/-- A refusal on another line. -/
def Refusal.relabel : Refusal → Refusal
  | .error e => .error { e with line := lines e.line }
  | .misplaced kind => .misplaced kind

/-- A resolution with the lines and numbers changed. -/
def Resolution.relabel (r : Resolution) : Resolution :=
  ⟨r.uses.map (·.relabel lines numbers), r.outcome.mapError (·.relabel lines)⟩

/-- Findings with the lines and numbers changed. -/
def Findings.relabel {κ : Type} (found : Findings κ) : Findings κ :=
  ⟨found.notes.map fun n => ⟨n.use.relabel lines numbers, n.owner⟩,
    found.refusal.map (·.relabel lines)⟩

theorem Findings.relabel_andThen {κ : Type} (first second : Findings κ) :
    (first.andThen second).relabel lines numbers =
      (first.relabel lines numbers).andThen (second.relabel lines numbers) := by
  obtain ⟨notes, refusal⟩ := first
  cases refusal with
  | some r => rfl
  | none => simp only [Findings.andThen, Findings.relabel, Option.map_none, List.map_append]

/-! ## Scopes -/

theorem Scopes.declareAll_relabel (params : List Token) (scopes : Scopes Unit) :
    Scopes.declareAll (params.map (·.relabel lines)) scopes = Scopes.declareAll params scopes := by
  rw [Scopes.declareAll, List.foldl_map]
  rfl

theorem Expr.isLambda_relabel (e : Expr) : (e.relabel lines numbers).isLambda = e.isLambda := by
  cases e <;> rfl

theorem Expr.readiness_relabel (e : Expr) : (e.relabel lines numbers).readiness = e.readiness := by
  unfold Expr.readiness
  rw [Expr.isLambda_relabel]

mutual

theorem Stmt.after_relabel (s : Stmt) (scopes : Scopes Unit) :
    (s.relabel lines numbers).after scopes = s.after scopes := by
  cases s with
  | declaration name initializer =>
    cases initializer with
    | none => rfl
    | some e =>
      rw [Stmt.relabel, Expr.relabelOption, Stmt.after, Stmt.after, Expr.readiness_relabel]
      rfl
  | ifElse _ thenBranch elseBranch =>
    rw [Stmt.relabel, Stmt.after, Stmt.after, Stmt.after_relabel thenBranch,
      Stmt.optionAfter_relabel elseBranch]
  | whileLoop _ body _ => rw [Stmt.relabel, Stmt.after, Stmt.after, Stmt.after_relabel body]
  | _ => rfl

theorem Stmt.optionAfter_relabel (s? : Option Stmt) (scopes : Scopes Unit) :
    Stmt.optionAfter scopes (Stmt.relabelOption lines numbers s?) = Stmt.optionAfter scopes s? := by
  cases s? with
  | none => rfl
  | some s => exact Stmt.after_relabel s scopes

end

/-! ## Walks -/

theorem Scopes.note_relabel (scopes : Scopes Unit) (id : Nat) (form : UseForm) (name : Token) :
    scopes.note (numbers id) form (name.relabel lines) =
      (scopes.note id form name).relabel lines numbers := by
  unfold Scopes.note Token.relabel
  dsimp only
  split <;> rfl

theorem Scopes.checkReady_relabel (scopes : Scopes Unit) (name : Token) :
    scopes.checkReady (name.relabel lines) = (scopes.checkReady name).relabel lines numbers := by
  unfold Scopes.checkReady Token.relabel
  dsimp only
  split <;> rfl

mutual

theorem Expr.walk_relabel (e : Expr) (scopes : Scopes Unit) (loops functions : Nat) :
    (e.relabel lines numbers).walk unlabelled scopes loops functions =
      (e.walk unlabelled scopes loops functions).relabel lines numbers := by
  cases e with
  | literal | misplaced => rfl
  | grouping _ inner | unary _ _ inner | step _ inner =>
    rw [Expr.relabel, Expr.walk, Expr.walk, Expr.walk_relabel inner]
  | binary _ left _ right | logical _ left _ right =>
    rw [Expr.relabel, Expr.walk, Expr.walk, Findings.relabel_andThen, Expr.walk_relabel left,
      Expr.walk_relabel right]
  | reference id name =>
    rw [Expr.relabel, Expr.walk, Expr.walk, Findings.relabel_andThen,
      Scopes.checkReady_relabel lines numbers, Scopes.note_relabel]
  | assignment id name value =>
    rw [Expr.relabel, Expr.walk, Expr.walk, Findings.relabel_andThen, Expr.walk_relabel value,
      Scopes.note_relabel]
  | call _ callee arguments _ =>
    rw [Expr.relabel, Expr.walk, Expr.walk, Findings.relabel_andThen, Expr.walk_relabel callee,
      Expr.walkAll_relabel arguments]
  | lambda _ keyword params body name =>
    rw [Expr.relabel, Expr.walk, Expr.walk, Scopes.declareAll_relabel]
    exact Stmt.walkAll_relabel body _ 0 (functions + 1)

theorem Expr.walkAll_relabel (es : List Expr) (scopes : Scopes Unit) (loops functions : Nat) :
    Expr.walkAll unlabelled scopes loops functions (Expr.relabelAll lines numbers es) =
      (Expr.walkAll unlabelled scopes loops functions es).relabel lines numbers := by
  cases es with
  | nil => rfl
  | cons e rest =>
    rw [Expr.relabelAll, Expr.walkAll, Expr.walkAll, Findings.relabel_andThen, Expr.walk_relabel e,
      Expr.walkAll_relabel rest]

theorem Expr.walkOption_relabel (e? : Option Expr) (scopes : Scopes Unit) (loops functions : Nat) :
    Expr.walkOption unlabelled scopes loops functions (Expr.relabelOption lines numbers e?) =
      (Expr.walkOption unlabelled scopes loops functions e?).relabel lines numbers := by
  cases e? with
  | none => rfl
  | some e => exact Expr.walk_relabel e scopes loops functions

theorem Stmt.walk_relabel (s : Stmt) (scopes : Scopes Unit) (loops functions : Nat) :
    (s.relabel lines numbers).walk unlabelled scopes loops functions =
      (s.walk unlabelled scopes loops functions).relabel lines numbers := by
  cases s with
  | expression e => exact Expr.walk_relabel e scopes loops functions
  | declaration name initializer =>
    cases initializer with
    | none => rfl
    | some e =>
      rw [Stmt.relabel, Expr.relabelOption, Stmt.walk, Stmt.walk, Expr.readiness_relabel]
      exact Expr.walk_relabel e _ loops functions
  | block statements => exact Stmt.walkAll_relabel statements _ loops functions
  | ifElse condition thenBranch elseBranch =>
    rw [Stmt.relabel, Stmt.walk, Stmt.walk, Findings.relabel_andThen, Findings.relabel_andThen,
      Stmt.after_relabel, Expr.walk_relabel condition, Stmt.walk_relabel thenBranch,
      Stmt.walkOption_relabel elseBranch]
  | whileLoop condition body increment =>
    rw [Stmt.relabel, Stmt.walk, Stmt.walk, Findings.relabel_andThen, Findings.relabel_andThen,
      Stmt.after_relabel, Expr.walk_relabel condition, Stmt.walk_relabel body,
      Expr.walkOption_relabel increment]
  | breakLoop keyword | continueLoop keyword =>
    rw [Stmt.relabel, Stmt.walk, Stmt.walk]
    split <;> rfl
  | returnValue keyword value =>
    rw [Stmt.relabel, Stmt.walk, Stmt.walk]
    split
    · rfl
    · exact Expr.walkOption_relabel value scopes loops functions
  | misplaced kind => rfl

theorem Stmt.walkAll_relabel (ss : List Stmt) (scopes : Scopes Unit) (loops functions : Nat) :
    Stmt.walkAll unlabelled scopes loops functions (Stmt.relabelAll lines numbers ss) =
      (Stmt.walkAll unlabelled scopes loops functions ss).relabel lines numbers := by
  cases ss with
  | nil => rfl
  | cons s rest =>
    rw [Stmt.relabelAll, Stmt.walkAll, Stmt.walkAll, Findings.relabel_andThen, Stmt.after_relabel,
      Stmt.walk_relabel s, Stmt.walkAll_relabel rest]

theorem Stmt.walkOption_relabel (s? : Option Stmt) (scopes : Scopes Unit) (loops functions : Nat) :
    Stmt.walkOption unlabelled scopes loops functions (Stmt.relabelOption lines numbers s?) =
      (Stmt.walkOption unlabelled scopes loops functions s?).relabel lines numbers := by
  cases s? with
  | none => rfl
  | some s => exact Stmt.walk_relabel s scopes loops functions

end

/-- A program with other lines and numbers is resolved as it was, up to them. -/
theorem Program.resolution_relabelAll (p : Program) :
    Program.resolution (Stmt.relabelAll lines numbers p) = p.resolution.relabel lines numbers := by
  have walked := Stmt.walkAll_relabel lines numbers p [] 0 0
  rw [Program.resolution_eq unlabelled, Program.resolution_eq unlabelled p, Program.findings,
    Program.findings, walked, Resolution.relabel, Findings.relabel]
  simp only [Findings.uses, List.map_map, Function.comp_def]
  cases (Stmt.walkAll unlabelled [] 0 0 p).refusal <;> rfl

end

end Lox
