import Lox.Proofs.Grammar.Congruent
import Lox.Proofs.Runs.Keeps

/-!
# Readers and the numbers of nodes

A reader uses up numbers and gives none back, also if it fails.
-/

namespace Lox

/-- The number of the next node is no less at the second place. -/
def Cursor.Onward (c c' : Cursor) : Prop := c.nextId ≤ c'.nextId

instance : Std.Refl Cursor.Onward := ⟨fun c => Nat.le_refl c.nextId⟩

instance : Trans Cursor.Onward Cursor.Onward Cursor.Onward := ⟨fun first second =>
  Nat.le_trans first second⟩

namespace Reading

theorem onward : Congruence fun _ reading _ => Keeps Cursor.Onward reading where
  value := keeps_pure
  bind first second := first.bind second
  cursor := keeps_get
  advance := fun c => Nat.le_refl c.nextId
  freshId := fun c => Nat.le_succ c.nextId
  fail _ _ := keeps_throw _

theorem onward_statement (depth : Nat) : Keeps Cursor.Onward (statement depth) :=
  (onward.relatedAt (.inl rfl) depth).statement

theorem onward_program (depth count : Nat) : Keeps Cursor.Onward (program depth count) := by
  induction count with
  | zero => exact Keeps.bind onward.peek fun _ => keeps_throw _
  | succ more ih =>
    refine Keeps.bind (onward.check .eof) fun found => ?_
    cases found with
    | true => exact keeps_pure _
    | false =>
      exact (onward_statement depth).bind fun _ => (ih.adaptExcept _).bind fun _ => keeps_pure _

end Reading

/-- Reading a program uses up numbers and gives none back. -/
theorem Stream.nextId_le_program (stream : Stream) (nextId : Nat) :
    nextId ≤ (stream.program nextId).2 := by
  have kept := Reading.onward_program stream.depth stream.depth ⟨stream.tokens, stream.stop, nextId⟩
  unfold Stream.program Stream.read EStateM.run
  cases ran : Reading.program stream.depth stream.depth ⟨stream.tokens, stream.stop, nextId⟩ with
  | ok p c =>
    rw [ran] at kept
    exact kept
  | error e c =>
    rw [ran] at kept
    exact kept

end Lox
