import Lox.Proofs.Folding.Runs

/-!
# Folded programs

A folded program is accepted, and does to the console and to the global variables what the program
did. So a loop means what it would mean with its increment folded into the body.
-/

namespace Lox

open Running

/-! ## What is seen of an end -/

/-- The console of a machine, and its global variables, of functions without trees and frames. -/
def Machine.stripped (m : Machine) : Console × List (String × Value) :=
  (m.console, m.store.globalValues.map fun entry => (entry.1, entry.2.stripped))

/-- With some amount of fuel a program ends in a session of its own, and not for lack of fuel: with
an outcome, a console and global variables. -/
def Program.EndsWith (p : Program) (console : Console) (debugLevel : Nat)
    (outcome : Except Failure Unit) (left : Console × List (String × Value)) : Prop :=
  outcome ≠ .error (.stopped .outOfFuel) ∧ ∃ fuel,
    let ran := p.freshRun console debugLevel fuel
    ran.1 = outcome ∧ ran.2.machine.stripped = left

variable {T T' : Distances} {w : List Ref}

/-- The global variables of stores that correspond are the same, of functions without trees and
frames. -/
theorem Store.Moved.stripped {s s' : Store} (moved : s.Moved T T' w s') :
    s'.globalValues.map (fun entry => (entry.1, entry.2.stripped)) =
      s.globalValues.map fun entry => (entry.1, entry.2.stripped) := by
  refine map_globalValues_congr fun name => ?_
  exact rel_map (moved.values moved.first name) Value.Moved.stripped

theorem Machine.Moved.stripped {m m' : Machine} (moved : m.Moved T T' w m') :
    m'.stripped = m.stripped := by
  rw [Machine.stripped, Machine.stripped, moved.console, moved.store.stripped]

/-- The outcome of a run, and what is left by it. -/
def outcomeOf : EStateM.Result Stop Machine Unit →
    Except Failure Unit × Console × List (String × Value)
  | .ok _ m => (.ok (), m.stripped)
  | .error e m => (.error (.stopped e), m.stripped)

private theorem outcomeOf_same {result result' : EStateM.Result Stop Machine Unit}
    (same : SameEnd (Machine.Moved T T') (fun _ _ _ => True) w result result') :
    outcomeOf result' = outcomeOf result := by
  cases same with
  | ok w' further states _ => exact congrArg (Prod.mk _) states.stripped
  | error ended w' further states => exact congrArg (Prod.mk _) states.stripped

/-- What ended was not out of fuel. -/
theorem not_outOfFuel {result : EStateM.Result Stop Machine Unit} {outcome : Except Failure Unit}
    {left : Console × List (String × Value)} (ended : outcome ≠ .error (.stopped .outOfFuel))
    (ends : outcomeOf result = (outcome, left)) : ¬ OutOfFuel result := by
  rintro ⟨m, rfl⟩
  exact ended (congrArg Prod.fst ends).symm

/-- If runs with different fuel are behind others with every amount of it, both end in the same way
or never. -/
private theorem outcomes_iff {run run' : Nat → Running Unit} {m m' : Machine}
    (trails : ∀ fuel, Trails (Machine.Moved T T') (fun _ _ _ => True) fuel w (run fuel) run')
    (states : m.Moved T T' w m') {outcome : Except Failure Unit}
    {left : Console × List (String × Value)} (ended : outcome ≠ .error (.stopped .outOfFuel)) :
    (∃ fuel, outcomeOf (run fuel m) = (outcome, left)) ↔
      ∃ fuel, outcomeOf (run' fuel m') = (outcome, left) := by
  constructor
  · rintro ⟨fuel, ends⟩
    obtain ⟨fuel', same⟩ := exists_sameEnd trails states (not_outOfFuel ended ends)
    exact ⟨fuel', by rw [outcomeOf_same same, ends]⟩
  · rintro ⟨fuel, ends⟩
    have same := sameEnd_of_ended trails states (not_outOfFuel ended ends)
    exact ⟨fuel, by rw [← outcomeOf_same same, ends]⟩

/-- How an accepted program ends is how its trees are run, with the distances that were noted. -/
theorem Program.endsWith_iff {p : Program} (accepted : p.resolution.outcome = .ok ())
    (console : Console) (debugLevel : Nat) :
    ∃ trace, ∀ outcome left, p.EndsWith console debugLevel outcome left ↔
      outcome ≠ .error (.stopped .outOfFuel) ∧ ∃ fuel,
        outcomeOf (interpret (Access.distances p.distances).steps fuel p
          { Machine.initial console debugLevel with trace }) = (outcome, left) := by
  obtain ⟨trace, isRun⟩ := Program.freshRun_eq accepted console debugLevel
  refine ⟨trace, fun outcome left => and_congr_right fun _ => exists_congr fun fuel => ?_⟩
  dsimp only
  rw [isRun fuel]
  simp only [Session.after, Acting.runTrees, Acting.perform]
  generalize interpret _ fuel p _ = result
  cases result with
  | ok u m => exact (Prod.mk.injEq _ _ _ _).to_iff.symm
  | error e m => exact (Prod.mk.injEq _ _ _ _).to_iff.symm

/-! ## The increment of a loop -/

/-- Once the condition of a loop held, its increment is evaluated if the body has finished or asked
for the next round, and before that round alone. It is not evaluated if the body left the loop, or
stopped. -/
private theorem rounds_of_truthy (steps : Steps Machine) (fuel : Nat) (env : Env)
    (condition r : Expr) (body : Stmt) (m m₁ : Machine) (v : Value)
    (tested : eval steps fuel env condition m = .ok v m₁) (holds : v.truthy = true) :
    rounds steps (fuel + 1) env condition body (some r) m =
      match exec steps fuel env body m₁ with
      | .ok .broken m₂ => .ok .finished m₂
      | .ok (.returned u) m₂ => .ok (.returned u) m₂
      | .ok _ m₂ => (do
          let _ ← eval steps fuel env r
          rounds steps fuel env condition body (some r)) m₂
      | .error e m₂ => .error e m₂ := by
  simp only [rounds]
  rw [run_bind_of_ok tested]
  simp only [holds, if_true]
  cases ran : exec steps fuel env body m₁ with
  | error e m₂ => exact run_bind_of_error ran
  | ok c m₂ =>
    rw [run_bind_of_ok ran]
    cases c <;> rfl

/-! ## Folding loops -/

/-- Any number of loops of a program that is accepted can be folded: the program stays accepted, and
for every console it ends in the same way, with the same console and global variables, or never ends
either. The console may stop to take lines, so that the lines written before are the same as well.
The increment of a loop is evaluated once after every round that finished or asked for the next one,
and not after the others. No two nodes of a program have the same number, copies included; of a
program that was read this is `Grammar.apart_of_program`. -/
theorem fold_increment {p p' : Program} (folds : p.Folds p')
    (accepted : p.resolution.outcome = .ok ()) (nodup : p.useIds.Nodup)
    (nodup' : p'.useIds.Nodup) :
    let steps := (Access.distances p.distances).steps
    p'.resolution.outcome = .ok () ∧
      (∀ (console : Console) (debugLevel : Nat) (outcome : Except Failure Unit)
        (left : Console × List (String × Value)),
        p.EndsWith console debugLevel outcome left ↔
          p'.EndsWith console debugLevel outcome left) ∧
      ∀ (fuel : Nat) (env : Env) (condition r : Expr) (body : Stmt) (m m₁ : Machine) (v : Value),
        eval steps fuel env condition m = .ok v m₁ → v.truthy = true →
        rounds steps (fuel + 1) env condition body (some r) m =
          match exec steps fuel env body m₁ with
          | .ok .broken m₂ => .ok .finished m₂
          | .ok (.returned u) m₂ => .ok (.returned u) m₂
          | .ok _ m₂ => (do
              let _ ← eval steps fuel env r
              rounds steps fuel env condition body (some r)) m₂
          | .error e m₂ => .error e m₂ := by
  intro steps
  obtain ⟨accepted', moved⟩ := folds.moved accepted nodup nodup'
  refine ⟨accepted', fun console debugLevel outcome left => ?_, rounds_of_truthy steps⟩
  obtain ⟨trace, isEnd⟩ := Program.endsWith_iff accepted console debugLevel
  obtain ⟨trace', isEnd'⟩ := Program.endsWith_iff accepted' console debugLevel
  rw [isEnd, isEnd']
  refine and_congr_right fun ended => ?_
  have states : Machine.Moved p.distances p'.distances [0]
      { Machine.initial console debugLevel with trace }
      { Machine.initial console debugLevel with trace := trace' } :=
    ⟨Store.moved_initial, rfl, rfl⟩
  exact outcomes_iff (fun fuel => trails_interpret fuel rfl moved) states ended

/-- The increment comes before a `continue` inside of a conditional, and behind the body. -/
theorem fold_over_continue :
    let more : Token := ⟨.identifier, "more", .nil, 1⟩
    let last : Token := ⟨.identifier, "last", .nil, 1⟩
    let keyword : Token := ⟨.continueWord, "continue", .nil, 1⟩
    let increment (id id' : Nat) : Expr := .assignment id more (.literal id' (.bool false))
    let condition : Expr := .reference 1 more
    let first : Stmt := .declaration more (some (.literal 0 (.bool true)))
    let inBody : Stmt := .declaration last (some (.reference 2 more))
    let p : Program := [.block [first, .whileLoop condition
      (.block [inBody, .ifElse (.reference 3 last) (.continueLoop keyword) none])
      (some (increment 5 4))]]
    let p' : Program := [.block [first, .whileLoop condition
      (.block [.block [inBody, .ifElse (.reference 3 last)
        (.block [.expression (increment 7 6), .continueLoop keyword]) none],
        .expression (increment 5 4)]) none]]
    p.Folds p' ∧ p.resolution.outcome = .ok () ∧ p.useIds.Nodup ∧ p'.useIds.Nodup ∧
      p'.resolution.outcome = .ok () ∧
      ∀ (console : Console) (debugLevel : Nat) (outcome : Except Failure Unit)
        (left : Console × List (String × Value)),
        p.EndsWith console debugLevel outcome left ↔
          p'.EndsWith console debugLevel outcome left := by
  intro more last keyword increment condition first inBody p p'
  have copied (id id' other other' : Nat) : (increment id id').Folds (increment other other') :=
    .assignment id other more (.literal id' other' _)
  have folds : p.Folds p' := by
    refine .cons (.block (.cons (Stmt.folds_self first) (.cons ?_ .nil))) .nil
    refine .foldedLoop (by decide) (Expr.folds_self condition) ?_ (copied 5 4 5 4)
    refine .cons (.declaration last (.some (Expr.folds_self _))) (.cons ?_ .nil)
    exact .ifElse (Expr.folds_self _) (.foldedContinue keyword (copied 5 4 7 6)) .none
  have accepted : p.resolution.outcome = .ok () := by
    have isOk : p.resolution.outcome.isOk = true := by decide +kernel
    revert isOk
    cases p.resolution.outcome with
    | error e => exact nofun
    | ok u => exact fun _ => rfl
  have nodup : p.useIds.Nodup := by decide
  have nodup' : p'.useIds.Nodup := by decide
  have folded := fold_increment folds accepted nodup nodup'
  exact ⟨folds, accepted, nodup, nodup', folded.1, folded.2.1⟩

end Lox
