import Lox.Proofs.Matching.Ends
import Lox.Proofs.Matching.Scopes
import Lox.Proofs.Numbers.Signs

/-!
# Counting a variable up or down

A variable that is counted up or down is assigned the sum or the difference with one. Main statement:
in every program, any number of such expressions can be replaced by the assignments.
-/

namespace Lox

/-- A program with any number of variables assigned that were counted up or down, each in parentheses.
The numbers of nodes are free. -/
def Program.Respells (p p' : Program) : Prop := Stmt.AllMatches True (fun _ _ => True) p p'

/-! ## What is told of ends -/

/-- The cause of an error, but of all type errors the same one. -/
def RuntimeError.Cause.untyped (cause : RuntimeError.Cause) : RuntimeError.Cause :=
  if cause.kind = .type then .numberOperand else cause

theorem RuntimeError.Cause.eq_of_untyped {cause cause' : RuntimeError.Cause}
    (same : cause'.untyped = cause.untyped) :
    cause' = cause ∨ cause.kind = .type ∧ cause'.kind = .type := by
  unfold untyped at same
  split at same
  · next typed' =>
    split at same
    · next typed => exact .inr ⟨typed, typed'⟩
    · next untyped => exact absurd (same ▸ rfl) untyped
  · next untyped' =>
    split at same
    · exact absurd (same ▸ rfl) untyped'
    · exact .inl same

/-- Two programs end in the same way, or with type errors on the same line and in the same calls. The
texts of type errors can be different. -/
inductive SameButTexts : Except Failure Unit → Except Failure Unit → Prop
  | same (outcome : Except Failure Unit) : SameButTexts outcome outcome
  | typeErrors {e e' : RuntimeError} (kind : e.cause.kind = .type) (kind' : e'.cause.kind = .type)
      (line : e'.line = e.line) (context : e'.context = e.context) :
      SameButTexts (.error (.stopped (.error e))) (.error (.stopped (.error e')))

theorem RuntimeError.sameButTexts {e e' : RuntimeError} (causes : e'.cause.untyped = e.cause.untyped)
    (line : e'.line = e.line) (context : e'.context = e.context) :
    SameButTexts (.error (.stopped (.error e))) (.error (.stopped (.error e'))) := by
  rcases Cause.eq_of_untyped causes with same | ⟨typed, typed'⟩
  · obtain ⟨cause, _, _⟩ := e
    obtain ⟨cause', _, _⟩ := e'
    cases same
    cases line
    cases context
    exact .same _
  · exact .typeErrors typed typed' line context

theorem Stop.sameButTexts {s s' : Stop} (same : s'.blur (·.untyped) = s.blur (·.untyped)) :
    SameButTexts (.error (.stopped s)) (.error (.stopped s')) := by
  cases s <;> cases s'
  case error.error e e' =>
    obtain ⟨causes, line, context⟩ := RuntimeError.mk.inj (Stop.error.inj same)
    exact RuntimeError.sameButTexts causes line context
  all_goals cases same
  all_goals exact .same _

theorem Failure.sameButTexts {f f' : Failure} (same : f'.blur (·.untyped) = f.blur (·.untyped)) :
    SameButTexts (.error f) (.error f') := by
  cases f <;> cases f'
  case stopped.stopped s s' => exact Stop.sameButTexts (Failure.stopped.inj same)
  all_goals cases same
  all_goals exact .same _

theorem SameButTexts.of_untyped {outcome outcome' : Except Failure Unit}
    (same : outcome'.mapError (·.blur (·.untyped)) = outcome.mapError (·.blur (·.untyped))) :
    SameButTexts outcome outcome' := by
  cases outcome <;> cases outcome'
  case error.error f f' => exact Failure.sameButTexts (Except.error.inj same)
  all_goals cases same
  all_goals exact .same _

/-! ## Runs -/

/-- Whether a variable is counted up or down or is assigned, its next value is the same, or there is a
type error. -/
theorem Value.step_eq_binary (operator : Token) (v : Value) :
    (v.step operator).mapError (·.untyped) =
      (v.binary operator.sign (.num 1.0)).mapError (·.untyped) := by
  unfold Token.sign
  by_cases up : operator.kind = .plusPlus
  · rw [if_pos up]
    cases v with
    | num x =>
      simp only [Value.step, up, if_true]
      rfl
    | _ => rfl
  · rw [if_neg up]
    cases v with
    | num x =>
      simp only [Value.step, up, if_false]
      rw [← Number.sub_one]
      rfl
    | _ => rfl

/-- How the run of a program with variables assigned matches that of the program with them counted. All
functions have the same identities in both. -/
def Matching.respelling (T T' : Distances) : Matching where
  table := T
  table' := T'
  respells := True
  admits w := w = List.range w.length
  admits_nil := rfl
  admits_next w same := by
    rw [List.length_append, List.length_singleton, List.range_succ, ← same]
  blur := (·.untyped)
  blur_step _ := Value.step_eq_binary

theorem Matching.placeOf_range (n : Nat) : placeOf (List.range n) = id := by
  funext i
  rcases Nat.lt_or_ge i n with below | beyond
  · rw [placeOf_of_lt (List.length_range.symm ▸ below), List.getElem_range, id_eq]
  · exact placeOf_of_le (List.length_range.symm ▸ beyond)

theorem Matching.Machines.stripped_eq {T T' : Distances} {w : List Nat} {m m' : Machine}
    (states : (Matching.respelling T T').Machines w m m') : m'.stripped = m.stripped := by
  have same : w = List.range w.length := states.admitted
  rw [states.stripped_renamed, same, placeOf_range, renamedLeft_id]

/-! ## Programs -/

/-- In every program, any number of variables that are counted up or down can be assigned instead: the
program is refused for the same reason or accepted as well, and then for every console it ends with
the same console and global variables, and in the same way up to the texts of type errors, or never
ends either. The console may stop to take lines, so that the lines written before are the same as well.
No two nodes of a program have the same number, new ones included; of a program that was read this is
`Grammar.apart_of_program`. -/
theorem count_by_assigning {p p' : Program} (respells : p.Respells p') (nodup : p.useIds.Nodup)
    (nodup' : p'.useIds.Nodup) :
    p'.resolution.outcome = p.resolution.outcome ∧
      (p.resolution.outcome = .ok () → ∀ (console : Console) (debugLevel : Nat)
        (left : Console × List (String × Value)),
        (∀ outcome, p.EndsWith console debugLevel outcome left →
          ∃ outcome', p'.EndsWith console debugLevel outcome' left ∧
            SameButTexts outcome outcome') ∧
        ∀ outcome', p'.EndsWith console debugLevel outcome' left →
          ∃ outcome, p.EndsWith console debugLevel outcome left ∧
            SameButTexts outcome outcome') := by
  obtain ⟨same, matched⟩ := Program.matched respells
  refine ⟨same, fun accepted console debugLevel left => ?_⟩
  have follows (fuel : Nat) := Matching.follows_interpret
    (M := .respelling p.distances p'.distances) (w := []) fuel (matched accepted nodup nodup')
  obtain ⟨forth, back⟩ :=
    Matching.exists_sameEnds accepted (same.trans accepted) follows console debugLevel
  constructor
  · intro outcome ends
    obtain ⟨outcome', left', ends', told, w, m, m', states, rfl, rfl⟩ := forth outcome left ends
    rw [states.stripped_eq] at ends'
    exact ⟨outcome', ends', .of_untyped told⟩
  · intro outcome' ends'
    obtain ⟨outcome, left', ends, told, w, m, m', states, rfl, rfl⟩ := back outcome' left ends'
    rw [states.stripped_eq]
    exact ⟨outcome, ends, .of_untyped told⟩

/-- A variable around a function is counted up in the function by an assignment, and counted down
outside of it as before. -/
theorem count_up_in_function :
    let n : Token := ⟨.identifier, "n", .nil, 1⟩
    let next : Token := ⟨.identifier, "next", .nil, 2⟩
    let keyword : Token := ⟨.funWord, "fun", .nil, 2⟩
    let returns : Token := ⟨.returnWord, "return", .nil, 2⟩
    let up : Token := ⟨.plusPlus, "++", .nil, 2⟩
    let paren : Token := ⟨.rightParen, ")", .nil, 3⟩
    let down : Token := ⟨.minusMinus, "--", .nil, 4⟩
    let around (counted : Expr) : Program := [.block [
      .declaration n (some (.literal 1 (.num 1.0))),
      .declaration next (some (.lambda 2 keyword [] [.returnValue returns (some counted)] (some next))),
      .expression (.call 4 (.reference 3 next) [] paren),
      .expression (.step 6 (.reference 5 n) down)]]
    let p := around (.step 8 (.reference 7 n) up)
    let p' := around (.counting 12 11 10 8 9 n up)
    p.Respells p' ∧ p.useIds.Nodup ∧ p'.useIds.Nodup ∧ p.resolution.outcome = .ok () ∧
      p'.resolution.outcome = .ok () ∧
      ∀ (console : Console) (debugLevel : Nat) (left : Console × List (String × Value)),
        (∀ outcome, p.EndsWith console debugLevel outcome left →
          ∃ outcome', p'.EndsWith console debugLevel outcome' left ∧
            SameButTexts outcome outcome') ∧
        ∀ outcome', p'.EndsWith console debugLevel outcome' left →
          ∃ outcome, p.EndsWith console debugLevel outcome left ∧
            SameButTexts outcome outcome' := by
  intro n next keyword returns up paren down around p p'
  have respells : p.Respells p' := by
    refine .cons (.block (.cons ?_ (.cons ?_ (.cons ?_ (.cons ?_ .nil))))) .nil
    · exact .declaration n (.some (.literal 1 1 _))
    · refine .declaration next (.some (.lambda 2 2 keyword [] _ (.cons ?_ .nil)))
      exact .returnValue returns (.some (.respelt trivial 8 12 10 9 n up trivial trivial))
    · exact .expression (.call 4 4 paren (.reference next trivial) .nil)
    · exact .expression (.step 6 6 down (.reference n trivial))
  have nodup : p.useIds.Nodup := by decide
  have nodup' : p'.useIds.Nodup := by decide
  have accepted : p.resolution.outcome = .ok () := Program.accepted_of_isOk (by decide +kernel)
  obtain ⟨same, ends⟩ := count_by_assigning respells nodup nodup'
  exact ⟨respells, nodup, nodup', accepted, same.trans accepted, ends accepted⟩

end Lox
