import Lox.Proofs.Folding.Programs
import Lox.Proofs.Matching.Runs

/-!
# Ends of programs that match

If one program follows another one, then whenever one of the two ends, so does the other. What is told
of their ends is the same, and they leave machines that match.
-/

namespace Lox

/-- What ended a run, with something else told of the cause of an error. -/
def Failure.blur (blur : RuntimeError.Cause → RuntimeError.Cause) : Failure → Failure
  | .stopped s => .stopped (s.blur blur)
  | f => f

theorem Failure.blur_eq_outOfFuel {blur : RuntimeError.Cause → RuntimeError.Cause} {f : Failure}
    (same : f.blur blur = .stopped .outOfFuel) : f = .stopped .outOfFuel := by
  cases f with
  | stopped s =>
    cases s with
    | outOfFuel => rfl
    | error | fault => cases same
  | lexical | grammar | resolution | misplaced => cases same

theorem outOfFuel_blurred {blur : RuntimeError.Cause → RuntimeError.Cause} {run : Running Unit}
    {m : Machine} (out : OutOfFuel (blurred blur run m)) : OutOfFuel (run m) := by
  unfold blurred EStateM.adaptExcept at out
  obtain ⟨m₁, out⟩ := out
  cases ran : run m with
  | ok u m₂ =>
    rw [ran] at out
    cases out
  | error e m₂ =>
    rw [ran] at out
    cases e with
    | outOfFuel => exact ⟨m₂, rfl⟩
    | error | fault => cases out

/-! ## What is left up to the identities of functions -/

/-- A value, of a function with another identity. -/
def Value.renamed (π : Nat → Nat) : Value → Value
  | .closure c => .closure { c with identity := π c.identity }
  | v => v

/-- A console and global variables, with other identities of functions. -/
def renamedLeft (π : Nat → Nat) (left : Console × List (String × Value)) :
    Console × List (String × Value) :=
  (left.1, left.2.map fun entry => (entry.1, entry.2.renamed π))

theorem renamedLeft_comp (π ρ : Nat → Nat) (left : Console × List (String × Value)) :
    renamedLeft ρ (renamedLeft π left) = renamedLeft (ρ ∘ π) left := by
  have each (v : Value) : (v.renamed π).renamed ρ = v.renamed (ρ ∘ π) := by cases v <;> rfl
  simp only [renamedLeft, List.map_map, Function.comp_def, each]

theorem renamedLeft_id (left : Console × List (String × Value)) : renamedLeft id left = left := by
  have each (v : Value) : v.renamed id = v := by cases v <;> rfl
  simp only [renamedLeft, each, List.map_id']

namespace Matching

variable {M : Matching} {w : List Nat}

/-- What has the place of an identity; beyond the list it is the identity itself. -/
def placeOf (w : List Nat) (i : Nat) : Nat := w[i]?.getD i

theorem placeOf_of_lt {i : Nat} (listed : i < w.length) : placeOf w i = w[i] := by
  rw [placeOf, List.getElem?_eq_getElem listed, Option.getD_some]

theorem placeOf_of_le {i : Nat} (beyond : w.length ≤ i) : placeOf w i = i := by
  rw [placeOf, List.getElem?_eq_none beyond, Option.getD_none]

theorem Values.stripped_renamed {v v' : Value} (values : M.Values w v v') :
    v'.stripped = v.stripped.renamed (placeOf w) := by
  cases values with
  | plain plain =>
    cases v with
    | closure c => exact absurd rfl (plain c)
    | _ => rfl
  | @closure c c' closures =>
    have identity : placeOf w c.identity = c'.identity := by
      rw [placeOf, closures.identity, Option.getD_some]
    simp only [Value.stripped, Value.renamed, identity, closures.keyword, closures.params,
      closures.declaredName]

theorem Machines.stripped_renamed {m m' : Machine} (states : M.Machines w m m') :
    m'.stripped = renamedLeft (placeOf w) m.stripped := by
  have globals : m'.store.globalValues.map (fun entry => (entry.1, entry.2.stripped)) =
      m.store.globalValues.map fun entry => (entry.1, entry.2.stripped.renamed (placeOf w)) := by
    refine Store.map_globalValues_congr (f := fun v => v.stripped.renamed (placeOf w)) fun name => ?_
    exact rel_map (states.stores.values 0 name) Values.stripped_renamed
  simp only [renamedLeft, Machine.stripped, states.console, globals, List.map_map, Function.comp_def]

/-! ## Both ends -/

/-- Two programs end in ways of which the same is told, and leave machines that match. -/
structure SameEnds (M : Matching) (outcome outcome' : Except Failure Unit)
    (left left' : Console × List (String × Value)) : Prop where
  outcomes : outcome'.mapError (·.blur M.blur) = outcome.mapError (·.blur M.blur)
  machines : ∃ w m m', M.Machines w m m' ∧ m.stripped = left ∧ m'.stripped = left'

theorem SameEnds.ended_iff {outcome outcome' : Except Failure Unit}
    {left left' : Console × List (String × Value)} (same : M.SameEnds outcome outcome' left left') :
    outcome' ≠ .error (.stopped .outOfFuel) ↔ outcome ≠ .error (.stopped .outOfFuel) := by
  have outcomes := same.outcomes
  have lacks {o o' : Except Failure Unit}
      (same : o'.mapError (·.blur M.blur) = o.mapError (·.blur M.blur))
      (out : o = .error (.stopped .outOfFuel)) : o' = .error (.stopped .outOfFuel) := by
    rw [out] at same
    cases o' with
    | ok u => cases same
    | error f => exact congrArg Except.error (Failure.blur_eq_outOfFuel (Except.error.inj same))
  exact not_congr ⟨lacks outcomes.symm, lacks outcomes⟩

theorem SameEnds.of_sameEnd {run run' : Running Unit} {m m' : Machine}
    (same : SameEnd M.Machines (fun _ _ _ => True) w (blurred M.blur run m)
      (blurred M.blur run' m')) :
    M.SameEnds (outcomeOf (run m)).1 (outcomeOf (run' m')).1 (outcomeOf (run m)).2
      (outcomeOf (run' m')).2 := by
  unfold blurred EStateM.adaptExcept at same
  generalize run m = result at same
  generalize run' m' = result' at same
  cases result with
  | ok u m₁ =>
    cases result' with
    | ok u' m₁' =>
      cases same with
      | ok w' further states values => exact ⟨rfl, w', m₁, m₁', states, rfl, rfl⟩
    | error e' m₁' => cases same
  | error e m₁ =>
    cases result' with
    | ok u' m₁' => cases same
    | error e' m₁' =>
      dsimp only at same
      generalize told : e.blur M.blur = t at same
      generalize told' : e'.blur M.blur = t' at same
      cases same with
      | error ended w' further states =>
        refine ⟨?_, w', m₁, m₁', states, rfl, rfl⟩
        show Except.error (Failure.stopped (e'.blur M.blur)) = .error (.stopped (e.blur M.blur))
        rw [told, told']

/-- If one program follows another one, both end in the same way or never. -/
theorem exists_sameEnds {p p' : Program} (accepted : p.resolution.outcome = .ok ())
    (accepted' : p'.resolution.outcome = .ok ())
    (follows : ∀ fuel, M.Follows (fun _ _ _ => True) fuel []
      (interpret (Access.distances p.distances).steps fuel p)
      fun k => interpret (Access.distances p'.distances).steps k p')
    (console : Console) (debugLevel : Nat) :
    (∀ outcome left, p.EndsWith console debugLevel outcome left →
      ∃ outcome' left', p'.EndsWith console debugLevel outcome' left' ∧
        M.SameEnds outcome outcome' left left') ∧
    ∀ outcome' left', p'.EndsWith console debugLevel outcome' left' →
      ∃ outcome left, p.EndsWith console debugLevel outcome left ∧
        M.SameEnds outcome outcome' left left' := by
  obtain ⟨trace, isEnd⟩ := Program.endsWith_iff accepted console debugLevel
  obtain ⟨trace', isEnd'⟩ := Program.endsWith_iff accepted' console debugLevel
  have states := Machines.initial (M := M) console debugLevel trace trace'
  constructor
  · intro outcome left ends
    obtain ⟨ended, fuel, isOutcome⟩ := (isEnd outcome left).1 ends
    obtain ⟨fuel', same⟩ := exists_sameEnd follows states
      fun out => not_outOfFuel ended isOutcome (outOfFuel_blurred out)
    have sameEnds := SameEnds.of_sameEnd same
    rw [isOutcome] at sameEnds
    exact ⟨_, _, (isEnd' _ _).2 ⟨sameEnds.ended_iff.2 ended, fuel', rfl⟩, sameEnds⟩
  · intro outcome' left' ends
    obtain ⟨ended, fuel, isOutcome⟩ := (isEnd' outcome' left').1 ends
    have sameEnds := SameEnds.of_sameEnd (sameEnd_of_ended follows states
      fun out => not_outOfFuel ended isOutcome (outOfFuel_blurred out))
    rw [isOutcome] at sameEnds
    exact ⟨_, _, (isEnd _ _).2 ⟨sameEnds.ended_iff.1 ended, fuel, rfl⟩, sameEnds⟩

end Matching

end Lox
