import Lox.Proofs.Alike.Outlines
import Lox.Session

/-!
# Alike programs in sessions

Alike programs do the same to sessions with alike machines, if uses that correspond have the same
distances.
-/

namespace Lox

variable {μ : Type} {L : Likeness μ} {K : Keys μ} {marks : List μ}

/-- Two runs of programs end in the same way. -/
inductive EndingAlike (L : Likeness μ) : Except Failure Unit → Except Failure Unit → Prop
  | ok : EndingAlike L (.ok ()) (.ok ())
  | stopped {e e' : Stop} (stops : e.Alike L e') :
      EndingAlike L (.error (.stopped e)) (.error (.stopped e'))

/-- Alike programs that are run leave alike machines, and end in the same way. -/
theorem runTrees_alike {s s' : Session} {p p' : Program} (fuel : Nat)
    (finds : L.Finds K s.table s'.table) (states : s.machine.Alike L K marks s'.machine)
    (trees : Stmt.AllAlike L [K.root] p p') :
    ∃ marks', marks <+: marks' ∧
      Machine.Alike L K marks' (s.after (Acting.runTrees fuel p)).2.machine
        (s'.after (Acting.runTrees fuel p')).2.machine ∧
      EndingAlike L (s.after (Acting.runTrees fuel p)).1 (s'.after (Acting.runTrees fuel p')).1 := by
  have results := runs_interpret (agreement_of_finds finds) fuel (.global states.root) trees
    _ _ states
  obtain ⟨machine, table, nextId⟩ := s
  obtain ⟨machine', table', nextId'⟩ := s'
  simp only [Session.after, Acting.runTrees, Acting.perform]
  dsimp only at results
  revert results
  generalize interpret _ fuel p machine = result
  generalize interpret _ fuel p' machine' = result'
  intro results
  cases results with
  | ok marks' further states _ => exact ⟨marks', further, states, .ok⟩
  | error marks' further states stops => exact ⟨marks', further, states, .stopped stops⟩

/-- Running a program changes neither the table nor the number of the next node. -/
theorem runTrees_table (s : Session) (fuel : Nat) (p : Program) :
    (s.after (Acting.runTrees fuel p)).2.table = s.table ∧
      (s.after (Acting.runTrees fuel p)).2.nextId = s.nextId := by
  obtain ⟨machine, table, nextId⟩ := s
  simp only [Session.after, Acting.runTrees, Acting.perform]
  cases interpret (Access.distances table).steps fuel p machine with
  | ok _ _ => exact ⟨rfl, rfl⟩
  | error _ _ => exact ⟨rfl, rfl⟩

end Lox
