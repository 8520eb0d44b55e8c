import Lox.Proofs.Folding.Scopes
import Lox.Proofs.Matching.Trees

/-!
# Walks over programs that match

In programs that match there are the same scopes around every place. So the one is refused if the
other one is, for the same reason, and otherwise all uses are at the same distances.
-/

namespace Lox

variable {respells : Prop}

/-! ## Scopes after statements -/

theorem Expr.Matches.readiness {uses : Nat → Nat → Prop} {e e' : Expr}
    (matching : e.Matches respells uses e') : e'.readiness = e.readiness := by
  cases matching <;> rfl

mutual

theorem Stmt.Matches.after {uses : Nat → Nat → Prop} {s s' : Stmt}
    (matching : s.Matches respells uses s') (scopes : Scopes Unit) :
    s'.after scopes = s.after scopes := by
  cases matching with
  | declaration name initializer =>
    cases initializer with
    | none => rfl
    | some value => simp only [Stmt.after, value.readiness]
  | ifElse condition thenBranch elseBranch =>
    rw [Stmt.after, Stmt.after, Stmt.Matches.after thenBranch, Stmt.OptionMatches.after elseBranch]
  | whileLoop condition body increment =>
    rw [Stmt.after, Stmt.after, Stmt.Matches.after body]
  | _ => rfl

theorem Stmt.OptionMatches.after {uses : Nat → Nat → Prop} {s? s?' : Option Stmt}
    (matching : Stmt.OptionMatches respells uses s? s?') (scopes : Scopes Unit) :
    Stmt.optionAfter scopes s?' = Stmt.optionAfter scopes s? := by
  cases matching with
  | none => rfl
  | some branch => exact Stmt.Matches.after branch scopes

end

/-! ## What both walks find -/

/-- Two walks are refused for the same reason, or the tables of both make the trees match. -/
structure Echoes (found found' : Findings Unit) (ids ids' : List Nat)
    (moved : Distances → Distances → Prop) : Prop where
  carries : Carries (fun _ => True) found found' ids ids' moved
  refusal : found'.refusal = found.refusal

theorem Findings.refusal_andThen {κ : Type} (first second : Findings κ) :
    (first.andThen second).refusal = first.refusal.or second.refusal := by
  unfold Findings.andThen
  cases stops : first.refusal with
  | none => rfl
  | some r => exact stops

namespace Echoes

variable {moved moved' : Distances → Distances → Prop} {found found' later later' : Findings Unit}
  {ids ids' laterIds laterIds' : List Nat}

theorem imp (echoes : Echoes found found' ids ids' moved)
    (implies : ∀ T T', moved T T' → moved' T T') : Echoes found found' ids ids' moved' :=
  ⟨echoes.carries.imp implies, echoes.refusal⟩

theorem nothing (holds : ∀ T T', moved T T') : Echoes .nothing .nothing [] [] moved :=
  ⟨.nothing holds, rfl⟩

theorem refused (r : Refusal) : Echoes (.refused r) (.refused r) ids ids' moved :=
  ⟨.of_accepted (fun _ noted => absurd noted List.not_mem_nil)
    (fun _ noted => absurd noted List.not_mem_nil) nofun, rfl⟩

theorem andThen (first : Echoes found found' ids ids' moved)
    (second : Echoes later later' laterIds laterIds' moved') :
    Echoes (found.andThen later) (found'.andThen later') (ids ++ laterIds) (ids' ++ laterIds')
      (fun T T' => moved T T' ∧ moved' T T') := by
  refine ⟨first.carries.andThen second.carries, ?_⟩
  rw [Findings.refusal_andThen, Findings.refusal_andThen, first.refusal, second.refusal]

/-- A check that both walks make finds the same. -/
theorem of_unnoted (unnoted : found.notes = []) (holds : ∀ T T', moved T T') :
    Echoes found found [] [] moved := by
  have inside : ∀ note ∈ found.notes, note.use.id ∈ ([] : List Nat) := by
    rw [unnoted]
    exact fun _ noted => absurd noted List.not_mem_nil
  exact ⟨⟨inside, inside, id, fun T T' _ _ _ => holds T T'⟩, rfl⟩

end Echoes

/-- Uses of one name are at the same distance, whichever numbers and forms they have. -/
theorem Scopes.echoes_note (scopes : Scopes Unit) (id id' : Nat) (form form' : UseForm)
    (name : Token) :
    Echoes (scopes.note id form name) (scopes.note id' form' name) [id] [id']
      (fun T T' => T'[id']? = T[id]?) := by
  have refusal : (scopes.note id' form' name).refusal = (scopes.note id form name).refusal := by
    rw [Scopes.note_refusal, Scopes.note_refusal]
  refine ⟨⟨Scopes.noted_inside scopes id form name, Scopes.noted_inside scopes id' form' name,
    refusal.trans, ?_⟩, refusal⟩
  intro T T' _ walked walked'
  unfold Scopes.note at walked walked'
  cases found : scopes.find name.lexeme with
  | none =>
    rw [found] at walked walked'
    have missing := walked.only id (List.mem_singleton_self id)
      fun _ noted => absurd noted List.not_mem_nil
    have missing' := walked'.only id' (List.mem_singleton_self id')
      fun _ noted => absurd noted List.not_mem_nil
    rw [missing, missing']
  | some use =>
    rw [found] at walked walked'
    rw [walked.noted _ (List.mem_singleton_self _), walked'.noted _ (List.mem_singleton_self _)]

theorem Scopes.echoes_checkReady (scopes : Scopes Unit) (name : Token) :
    Echoes (scopes.checkReady name) (scopes.checkReady name) [] [] (fun _ _ => True) :=
  .of_unnoted (Scopes.checkReady_notes scopes name) fun _ _ => trivial

/-- An assignment that counts a variable up or down is refused just as counting it is, and both of its
uses are where the one use was. -/
theorem Expr.echoes_counting (scopes : Scopes Unit) (loops functions : Nat)
    (id group sum one use target source : Nat) (name operator : Token) :
    let counted : Expr := .step id (.reference use name) operator
    let counting : Expr := .counting group target sum source one name operator
    Echoes (counted.walk unlabelled scopes loops functions)
      (counting.walk unlabelled scopes loops functions) counted.useIds counting.useIds
      (fun T T' => T'[target]? = T[use]? ∧ T'[source]? = T[use]?) := by
  intro counted counting
  have read := (scopes.echoes_checkReady name).andThen
    (scopes.echoes_note use source .reference .reference name)
  have written := scopes.echoes_note use target .reference .assignment name
  have refusal : (counting.walk unlabelled scopes loops functions).refusal =
      (counted.walk unlabelled scopes loops functions).refusal := by
    simp only [counted, counting, Expr.counting, Expr.walk, Findings.andThen_nothing]
    rw [Findings.refusal_andThen, Scopes.note_refusal, Option.or_none]
    exact read.refusal
  refine ⟨⟨Expr.noted_inside unlabelled scopes loops functions counted,
    Expr.noted_inside unlabelled scopes loops functions counting, refusal.trans, ?_⟩, refusal⟩
  intro T T' _ walked walked'
  simp only [counted, counting, Expr.counting, Expr.walk, Expr.useIds,
    Findings.andThen_nothing, List.append_nil] at walked walked'
  obtain ⟨walkedRead', walkedWritten'⟩ := walked'.andThen read.carries.inside' written.carries.inside'
  have walkedTwice : Walked T _ ([] ++ [use]) := walked
  obtain ⟨_, walkedNote⟩ := walkedTwice.andThen (scopes.echoes_checkReady name).carries.inside
    written.carries.inside
  exact ⟨written.carries.moved T T' trivial walkedNote walkedWritten',
    (read.carries.moved T T' trivial walked walkedRead').2⟩

/-! ## Trees -/

/-- The relation of uses that are at the same distance. -/
abbrev SameDistances (T T' : Distances) (id id' : Nat) : Prop := T'[id']? = T[id]?

section
variable {uses : Nat → Nat → Prop}

mutual

/-- What a walk over an expression finds is echoed by that over an expression that matches it. -/
theorem Expr.Matches.echoes {e e' : Expr} (matching : e.Matches respells uses e')
    (scopes : Scopes Unit) (loops functions : Nat) :
    Echoes (e.walk unlabelled scopes loops functions) (e'.walk unlabelled scopes loops functions)
      e.useIds e'.useIds fun T T' => e.Matches respells (SameDistances T T') e' := by
  cases matching with
  | literal id id' value => exact .nothing fun _ _ => .literal id id' value
  | grouping id id' inner =>
    exact (inner.echoes scopes loops functions).imp fun _ _ => .grouping id id'
  | unary id id' operator right =>
    exact (right.echoes scopes loops functions).imp fun _ _ => .unary id id' operator
  | binary id id' operator left right =>
    exact ((left.echoes scopes loops functions).andThen (right.echoes scopes loops functions)).imp
      fun _ _ ⟨left, right⟩ => .binary id id' operator left right
  | logical id id' operator left right =>
    exact ((left.echoes scopes loops functions).andThen (right.echoes scopes loops functions)).imp
      fun _ _ ⟨left, right⟩ => .logical id id' operator left right
  | step id id' operator left =>
    exact (left.echoes scopes loops functions).imp fun _ _ => .step id id' operator
  | respelt allowed id group sum one name operator _ _ =>
    exact (Expr.echoes_counting scopes loops functions id group sum one _ _ _ name operator).imp
      fun _ _ ⟨written, read⟩ => .respelt allowed id group sum one name operator written read
  | reference name _ =>
    exact ((scopes.echoes_checkReady name).andThen
      (scopes.echoes_note _ _ .reference .reference name)).imp
      fun _ _ ⟨_, use⟩ => .reference name use
  | assignment name value _ =>
    exact ((value.echoes scopes loops functions).andThen
      (scopes.echoes_note _ _ .assignment .assignment name)).imp
      fun _ _ ⟨value, use⟩ => .assignment name value use
  | call id id' paren callee arguments =>
    exact ((callee.echoes scopes loops functions).andThen
      (arguments.echoes scopes loops functions)).imp
      fun _ _ ⟨callee, arguments⟩ => .call id id' paren callee arguments
  | lambda id id' keyword params name statements =>
    exact (statements.echoes _ 0 (functions + 1)).imp
      fun _ _ => .lambda id id' keyword params name
  | misplaced kind => exact .refused _

theorem Expr.AllMatches.echoes {es es' : List Expr} (matching : Expr.AllMatches respells uses es es')
    (scopes : Scopes Unit) (loops functions : Nat) :
    Echoes (Expr.walkAll unlabelled scopes loops functions es)
      (Expr.walkAll unlabelled scopes loops functions es') (Expr.allUseIds es) (Expr.allUseIds es')
      fun T T' => Expr.AllMatches respells (SameDistances T T') es es' := by
  cases matching with
  | nil => exact .nothing fun _ _ => .nil
  | cons head tail =>
    exact ((head.echoes scopes loops functions).andThen (tail.echoes scopes loops functions)).imp
      fun _ _ ⟨head, tail⟩ => .cons head tail

theorem Expr.OptionMatches.echoes {e? e?' : Option Expr}
    (matching : Expr.OptionMatches respells uses e? e?') (scopes : Scopes Unit)
    (loops functions : Nat) :
    Echoes (Expr.walkOption unlabelled scopes loops functions e?)
      (Expr.walkOption unlabelled scopes loops functions e?') (Expr.optionUseIds e?)
      (Expr.optionUseIds e?')
      fun T T' => Expr.OptionMatches respells (SameDistances T T') e? e?' := by
  cases matching with
  | none => exact .nothing fun _ _ => .none
  | some value => exact (value.echoes scopes loops functions).imp fun _ _ => .some

/-- What a walk over a statement finds is echoed by that over a statement that matches it. -/
theorem Stmt.Matches.echoes {s s' : Stmt} (matching : s.Matches respells uses s')
    (scopes : Scopes Unit) (loops functions : Nat) :
    Echoes (s.walk unlabelled scopes loops functions) (s'.walk unlabelled scopes loops functions)
      s.useIds s'.useIds fun T T' => s.Matches respells (SameDistances T T') s' := by
  cases matching with
  | expression value =>
    exact (value.echoes scopes loops functions).imp fun _ _ => .expression
  | declaration name initializer =>
    cases initializer with
    | none => exact .nothing fun _ _ => .declaration name .none
    | some value =>
      rw [Stmt.walk, Stmt.walk, value.readiness]
      exact (value.echoes _ loops functions).imp fun _ _ value => .declaration name (.some value)
  | block statements => exact (statements.echoes _ loops functions).imp fun _ _ => .block
  | ifElse condition thenBranch elseBranch =>
    rw [Stmt.walk, Stmt.walk, thenBranch.after]
    exact ((condition.echoes scopes loops functions).andThen
      ((thenBranch.echoes scopes loops functions).andThen (elseBranch.echoes _ loops functions))).imp
      fun _ _ ⟨condition, thenBranch, elseBranch⟩ => .ifElse condition thenBranch elseBranch
  | whileLoop condition body increment =>
    rw [Stmt.walk, Stmt.walk, body.after]
    exact ((condition.echoes scopes loops functions).andThen
      ((body.echoes scopes (loops + 1) functions).andThen (increment.echoes _ loops functions))).imp
      fun _ _ ⟨condition, body, increment⟩ => .whileLoop condition body increment
  | breakLoop keyword =>
    refine .of_unnoted ?_ fun _ _ => .breakLoop keyword
    rw [Stmt.walk]
    split <;> rfl
  | continueLoop keyword =>
    refine .of_unnoted ?_ fun _ _ => .continueLoop keyword
    rw [Stmt.walk]
    split <;> rfl
  | returnValue keyword value =>
    rw [Stmt.walk, Stmt.walk]
    by_cases outside : functions = 0
    · rw [if_pos outside, if_pos outside]
      exact .refused _
    · rw [if_neg outside, if_neg outside]
      exact (value.echoes scopes loops functions).imp fun _ _ => .returnValue keyword
  | misplaced kind => exact .refused _

theorem Stmt.AllMatches.echoes {ss ss' : List Stmt} (matching : Stmt.AllMatches respells uses ss ss')
    (scopes : Scopes Unit) (loops functions : Nat) :
    Echoes (Stmt.walkAll unlabelled scopes loops functions ss)
      (Stmt.walkAll unlabelled scopes loops functions ss') (Stmt.allUseIds ss) (Stmt.allUseIds ss')
      fun T T' => Stmt.AllMatches respells (SameDistances T T') ss ss' := by
  cases matching with
  | nil => exact .nothing fun _ _ => .nil
  | cons head tail =>
    rw [Stmt.walkAll, Stmt.walkAll, head.after]
    exact ((head.echoes scopes loops functions).andThen (tail.echoes _ loops functions)).imp
      fun _ _ ⟨head, tail⟩ => .cons head tail

theorem Stmt.OptionMatches.echoes {s? s?' : Option Stmt}
    (matching : Stmt.OptionMatches respells uses s? s?') (scopes : Scopes Unit)
    (loops functions : Nat) :
    Echoes (Stmt.walkOption unlabelled scopes loops functions s?)
      (Stmt.walkOption unlabelled scopes loops functions s?') (Stmt.optionUseIds s?)
      (Stmt.optionUseIds s?')
      fun T T' => Stmt.OptionMatches respells (SameDistances T T') s? s?' := by
  cases matching with
  | none => exact .nothing fun _ _ => .none
  | some branch => exact (branch.echoes scopes loops functions).imp fun _ _ => .some

end

/-- A program that matches another one is refused if that is, for the same reason. Otherwise the uses
that correspond are at the same distances. -/
theorem Program.matched {p p' : Program} (matching : Stmt.AllMatches respells uses p p') :
    p'.resolution.outcome = p.resolution.outcome ∧
      (p.resolution.outcome = .ok () → p.useIds.Nodup → p'.useIds.Nodup →
        Stmt.AllMatches respells (SameDistances p.distances p'.distances) p p') := by
  have echoes := matching.echoes [] 0 0
  have same : p'.resolution.outcome = p.resolution.outcome := by
    rw [Program.resolution_eq unlabelled p', Program.resolution_eq unlabelled p]
    simp only [Program.findings, echoes.refusal]
  refine ⟨same, fun accepted nodup nodup' => ?_⟩
  exact echoes.carries.moved _ _ trivial (Program.walked accepted nodup)
    (Program.walked (same.trans accepted) nodup')

end

end Lox
