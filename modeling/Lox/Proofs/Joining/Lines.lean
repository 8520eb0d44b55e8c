import Lox.Proofs.Alike.Same
import Lox.Proofs.Alike.Sessions
import Lox.Proofs.Joining.Programs

/-!
# Lines that go down with a text

Newlines before a text move the lines of its tokens, and no others. The lines of an error that come
from the text are those that go down with it, however many newlines there are.
-/

namespace Lox

/-! ## Errors of a text further down -/

/-- A line further down, if it goes down with the text. -/
def lowerLine (d : Nat) (goesDown : Bool) (line : Int) : Int := if goesDown then line + d else line

/-- A step into a call, with its line further down if it goes down with the text. -/
def CallStep.lower (d : Nat) (goesDown : Bool) : CallStep → CallStep
  | line n => .line (lowerLine d goesDown n)
  | calling name definedOn => .calling name (lowerLine d goesDown definedOn)

/-- Which lines of an error go down with a text. -/
structure Moves where
  line : Bool
  context : List Bool

/-- An error with the lines that go down with a text further down. -/
def RuntimeError.lower (moves : Moves) (d : Nat) (e : RuntimeError) : RuntimeError :=
  ⟨e.cause, e.line.map (lowerLine d moves.line),
    moves.context.zipWith (fun goesDown step => step.lower d goesDown) e.context⟩

/-- What ends a run, with the lines that go down with a text further down. -/
def Stop.lower (moves : Moves) (d : Nat) : Stop → Stop
  | error e => .error (e.lower moves d)
  | s => s

/-- A failure with the lines that go down with a text further down. -/
def Failure.lower (moves : Moves) (d : Nat) : Failure → Failure
  | stopped s => .stopped (s.lower moves d)
  | f => f

/-! ## Programs on other lines -/

/-- Two trees are the same, but that a line may be further down in the second one. -/
def Likeness.moved (k : Int) : Likeness Origin where
  lines line line' := line' = line ∨ line' = line + k
  enters _ _ _ _ := True
  uses _ id name id' name' := id' = id ∧ name'.lexeme = name.lexeme ∧
    (name'.line = name.line ∨ name'.line = name.line + k)
  names _ name name' := name'.lexeme = name.lexeme
  missing name name' := name' = name

theorem Likeness.same_below_moved {sites : Nat × List Origin → Prop} (k : Int) :
    (Likeness.same sites).Below (.moved k) where
  lines same := .inl same
  enters _ := trivial
  uses use := by
    obtain ⟨rfl, rfl, _⟩ := use
    exact ⟨rfl, rfl, .inl rfl⟩
  names same := by rw [show _ = _ from same]; rfl
  missing same := same

theorem Likeness.moved_finds (k : Int) (T : Distances) : (Likeness.moved k).Finds .plain T T where
  lines use := use.2.2
  distance use := by rw [use.1]
  names use _ _ _ _ := ⟨use.2.1, use.2.1⟩
  globals use _ := use.2.1
  declared same := same

theorem Likeness.moved_admits (k : Int) :
    (Likeness.moved k).Admits (· + k) id some (fun _ => True) where
  lines _ := .inr rfl
  enters _ _ := trivial
  uses _ _ := ⟨rfl, rfl, .inr rfl⟩
  names _ _ := rfl

/-- A program on some lines is like itself on other lines. -/
theorem Program.alike_onLines (p : Program) (d d' : Nat) :
    Stmt.AllAlike (.moved (d' - d)) [none] (p.onLines (· + d)) (p.onLines (· + d')) := by
  have alike := Stmt.allAlike_relabel (Likeness.moved_admits (d' - d)) (p.onLines (· + d)) [none]
    fun _ _ => trivial
  have sums : (fun line : Int => line + d + (d' - d)) = (· + (d' : Int)) := by
    funext line
    omega
  rw [Program.onLines, Stmt.relabelAll_relabelAll] at alike
  simp only [Function.comp_def, sums] at alike
  exact alike

/-! ## Which lines go down -/

theorem exists_lowerLine {lines : Nat → Int}
    (related : ∀ d d' : Nat, (Likeness.moved (d' - d)).lines (lines d) (lines d')) :
    ∃ goesDown, ∀ d, lines d = lowerLine d goesDown (lines 0) := by
  have fromFirst (d : Nat) : lines d = lines 0 ∨ lines d = lines 0 + (d - (0 : Nat)) := related 0 d
  have fromSecond (d : Nat) : lines d = lines 1 ∨ lines d = lines 1 + (d - (1 : Nat)) := related 1 d
  -- One newline tells: a line that it leaves in place cannot go down with more of them.
  by_cases stays : lines 1 = lines 0
  · refine ⟨false, fun d => ?_⟩
    have first := fromFirst d
    have second := fromSecond d
    simp only [lowerLine, Bool.false_eq_true, if_false]
    omega
  · refine ⟨true, fun d => ?_⟩
    have first := fromFirst d
    have second := fromSecond d
    have next := fromFirst 1
    simp only [lowerLine, if_true]
    omega

theorem exists_lowerStep {steps : Nat → CallStep}
    (related : ∀ d d' : Nat, CallStep.Alike (.moved (d' - d)) (steps d) (steps d')) :
    ∃ goesDown, ∀ d, steps d = (steps 0).lower d goesDown := by
  cases first : steps 0 with
  | line n =>
    have isLine (d : Nat) : ∃ n, steps d = .line n := by
      have step := related 0 d
      rw [first] at step
      generalize steps d = other at step
      cases step
      exact ⟨_, rfl⟩
    choose lines isLine using isLine
    simp only [isLine] at related first ⊢
    have relatedLines (d d' : Nat) : (Likeness.moved (d' - d)).lines (lines d) (lines d') := by
      cases related d d' with
      | line line => exact line
    obtain ⟨goesDown, lower⟩ := exists_lowerLine relatedLines
    cases first
    exact ⟨goesDown, fun d => congrArg CallStep.line (lower d)⟩
  | calling name n =>
    have isCalling (d : Nat) : ∃ n, steps d = .calling name n := by
      have step := related 0 d
      rw [first] at step
      generalize steps d = other at step
      cases step
      exact ⟨_, rfl⟩
    choose lines isCalling using isCalling
    simp only [isCalling] at related first ⊢
    have relatedLines (d d' : Nat) : (Likeness.moved (d' - d)).lines (lines d) (lines d') := by
      cases related d d' with
      | calling _ line => exact line
    obtain ⟨goesDown, lower⟩ := exists_lowerLine relatedLines
    cases first
    exact ⟨goesDown, fun d => congrArg (CallStep.calling name) (lower d)⟩

theorem exists_lowerContext {contexts : Nat → List CallStep}
    (related : ∀ d d' : Nat, List.Forall₂ (CallStep.Alike (.moved (d' - d))) (contexts d) (contexts d')) :
    ∃ moves : List Bool, ∀ d,
      contexts d = moves.zipWith (fun goesDown step => step.lower d goesDown) (contexts 0) := by
  generalize isFirst : contexts 0 = first
  induction first generalizing contexts with
  | nil =>
    refine ⟨[], fun d => ?_⟩
    have steps := related 0 d
    rw [isFirst] at steps
    exact List.forall₂_nil_left_iff.1 steps
  | cons step rest ih =>
    have isCons (d : Nat) : ∃ step rest, contexts d = step :: rest := by
      have steps := related 0 d
      rw [isFirst] at steps
      obtain ⟨step, rest, _, _, isCons⟩ := List.forall₂_cons_left_iff.1 steps
      exact ⟨step, rest, isCons⟩
    choose steps others isCons using isCons
    simp only [isCons, List.forall₂_cons] at related isFirst ⊢
    cases isFirst
    obtain ⟨goesDown, lower⟩ := exists_lowerStep fun d d' => (related d d').1
    obtain ⟨moves, lowerOthers⟩ := ih (fun d d' => (related d d').2) rfl
    refine ⟨goesDown :: moves, fun d => ?_⟩
    rw [List.zipWith_cons_cons, ← lower d, ← lowerOthers d]

theorem exists_lowerOption {lines : Nat → Option Int}
    (related : ∀ d d' : Nat, Option.Rel (Likeness.moved (d' - d)).lines (lines d) (lines d')) :
    ∃ goesDown, ∀ d, lines d = (lines 0).map (lowerLine d goesDown) := by
  cases isFirst : lines 0 with
  | none =>
    refine ⟨false, fun d => ?_⟩
    have line := related 0 d
    rw [isFirst] at line
    generalize lines d = other at line
    cases line
    rfl
  | some n =>
    have isSome (d : Nat) : ∃ n, lines d = some n := by
      have line := related 0 d
      rw [isFirst] at line
      generalize lines d = other at line
      cases line
      exact ⟨_, rfl⟩
    choose numbers isSome using isSome
    simp only [isSome] at related isFirst ⊢
    have relatedLines (d d' : Nat) : (Likeness.moved (d' - d)).lines (numbers d) (numbers d') := by
      cases related d d' with
      | some line => exact line
    obtain ⟨goesDown, lower⟩ := exists_lowerLine relatedLines
    cases isFirst
    exact ⟨goesDown, fun d => congrArg some (lower d)⟩

theorem cause_of_moved {k : Int} {cause cause' : RuntimeError.Cause}
    (alike : cause.Alike (.moved k) cause') : cause' = cause := by
  cases alike with
  | same => rfl
  | uninitialized names => rw [show _ = _ from names]

theorem exists_lowerError {errors : Nat → RuntimeError}
    (related : ∀ d d' : Nat, (errors d).Alike (.moved (d' - d)) (errors d')) :
    ∃ moves, ∀ d, errors d = (errors 0).lower moves d := by
  obtain ⟨goesDown, lowerLines⟩ := exists_lowerOption fun d d' => (related d d').line
  obtain ⟨moves, lowerContexts⟩ := exists_lowerContext fun d d' => (related d d').context
  refine ⟨⟨goesDown, moves⟩, fun d => ?_⟩
  have cause := cause_of_moved (related 0 d).cause
  have line := lowerLines d
  have context := lowerContexts d
  rw [RuntimeError.lower, ← line, ← context, ← cause]

theorem exists_lowerStop {stops : Nat → Stop}
    (related : ∀ d d' : Nat, (stops d).Alike (.moved (d' - d)) (stops d')) :
    ∃ moves, ∀ d, stops d = (stops 0).lower moves d := by
  cases isFirst : stops 0 with
  | error e =>
    have isError (d : Nat) : ∃ e, stops d = .error e := by
      have stop := related 0 d
      rw [isFirst] at stop
      generalize stops d = other at stop
      cases stop
      exact ⟨_, rfl⟩
    choose errors isError using isError
    simp only [isError] at related isFirst ⊢
    have relatedErrors (d d' : Nat) : (errors d).Alike (.moved (d' - d)) (errors d') := by
      cases related d d' with
      | error alike => exact alike
    obtain ⟨moves, lower⟩ := exists_lowerError relatedErrors
    cases isFirst
    exact ⟨moves, fun d => congrArg Stop.error (lower d)⟩
  | fault f =>
    refine ⟨⟨false, []⟩, fun d => ?_⟩
    have stop := related 0 d
    rw [isFirst] at stop
    generalize stops d = other at stop
    cases stop
    rfl
  | outOfFuel =>
    refine ⟨⟨false, []⟩, fun d => ?_⟩
    have stop := related 0 d
    rw [isFirst] at stop
    generalize stops d = other at stop
    cases stop
    rfl

/-- Of endings that are alike for any two numbers of newlines, some lines go down with the text and
the others stay. -/
theorem exists_lowerEnding {endings : Nat → Except Failure Unit}
    (related : ∀ d d' : Nat, EndingAlike (.moved (d' - d)) (endings d) (endings d')) :
    ∃ moves, ∀ d, endings d = (endings 0).mapError (Failure.lower moves d) := by
  cases isFirst : endings 0 with
  | ok u =>
    refine ⟨⟨false, []⟩, fun d => ?_⟩
    have ending := related 0 d
    rw [isFirst] at ending
    generalize endings d = other at ending
    cases ending
    rfl
  | error f =>
    have isStop (d : Nat) : ∃ s, endings d = .error (.stopped s) := by
      have ending := related 0 d
      rw [isFirst] at ending
      generalize endings d = other at ending
      cases ending
      exact ⟨_, rfl⟩
    choose stops isStop using isStop
    simp only [isStop] at related isFirst ⊢
    have relatedStops (d d' : Nat) : (stops d).Alike (.moved (d' - d)) (stops d') := by
      cases related d d' with
      | stopped alike => exact alike
    obtain ⟨moves, lower⟩ := exists_lowerStop relatedStops
    cases isFirst
    exact ⟨moves, fun d => congrArg (Except.error ∘ Failure.stopped) (lower d)⟩

end Lox
