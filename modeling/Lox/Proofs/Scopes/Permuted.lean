import Mathlib.Data.List.Nodup
import Lox.Proofs.Joining.Programs
import Lox.Proofs.Scopes.Walked

/-!
# Programs with their statements in another order

Outside of all blocks and functions nothing is declared for the statements that follow. So the
statements of a program can be put into another order: the program stays accepted, and its uses are at
the same distances.
-/

namespace Lox

/-! ## Uses of statements in any order -/

theorem Program.useIds_eq (p : Program) : p.useIds = p.flatMap Stmt.useIds := by
  induction p with
  | nil => rfl
  | cons s rest ih =>
    rw [List.flatMap_cons, ← ih]
    rfl

theorem Program.useIds_perm {p q : Program} (perm : q.Perm p) : q.useIds.Perm p.useIds := by
  rw [useIds_eq, useIds_eq]
  exact perm.flatMap_right Stmt.useIds

/-! ## What is found in any order -/

/-- What is found of a statement outside of all blocks and functions. -/
def Stmt.outermost (s : Stmt) : Findings Unit := s.walk unlabelled [] 0 0

theorem Program.findings_cons (s : Stmt) (rest : Program) :
    Program.findings unlabelled (s :: rest) =
      s.outermost.andThen (Program.findings unlabelled rest) := by
  rw [Program.findings, Stmt.walkAll, Stmt.after_nil]
  rfl

/-- An accepted program is one of accepted statements, and what is found of it is what is found of
them. -/
theorem Program.notes_of_accepted {p : Program}
    (accepted : (Program.findings unlabelled p).refusal = none) :
    (∀ s ∈ p, s.outermost.refusal = none) ∧
      (Program.findings unlabelled p).notes = p.flatMap (·.outermost.notes) := by
  induction p with
  | nil => exact ⟨fun _ member => absurd member List.not_mem_nil, rfl⟩
  | cons s rest ih =>
    rw [findings_cons] at accepted ⊢
    obtain ⟨head, tail, notes⟩ := Findings.accepted_andThen accepted
    obtain ⟨each, later⟩ := ih tail
    refine ⟨List.forall_mem_cons.2 ⟨head, each⟩, ?_⟩
    rw [notes, later, List.flatMap_cons]

theorem Program.accepted_of_each {p : Program} (each : ∀ s ∈ p, s.outermost.refusal = none) :
    (Program.findings unlabelled p).refusal = none := by
  induction p with
  | nil => rfl
  | cons s rest ih =>
    obtain ⟨head, tail⟩ := List.forall_mem_cons.1 each
    rw [findings_cons]
    unfold Findings.andThen
    simp only [head, ih tail]

/-- An accepted program is accepted with its statements in another order, with the same uses. -/
theorem Program.resolution_perm {p q : Program} (perm : q.Perm p)
    (accepted : p.resolution.outcome = .ok ()) :
    q.resolution.outcome = .ok () ∧ q.resolution.uses.Perm p.resolution.uses := by
  obtain ⟨each, notes⟩ := notes_of_accepted (accepted_iff.1 accepted)
  have accepted' := accepted_of_each fun s member => each s (perm.mem_iff.1 member)
  refine ⟨accepted_iff.2 accepted', ?_⟩
  rw [uses_eq, uses_eq, notes, (notes_of_accepted accepted').2]
  exact (perm.flatMap_right _).map _

theorem Program.nodup_uses {p : Program} (nodup : p.useIds.Nodup) :
    (p.resolution.uses.map (·.id)).Nodup := by
  rw [uses_eq, List.map_map]
  exact Program.nodup_notes unlabelled nodup

/-- With its statements in another order, a program has the same distances. -/
theorem Program.distances_perm {p q : Program} (perm : q.Perm p)
    (accepted : p.resolution.outcome = .ok ()) (nodup : p.useIds.Nodup) (id : Nat) :
    q.distances[id]? = p.distances[id]? := by
  have uses := (resolution_perm perm accepted).2
  have different := nodup_uses nodup
  refine Option.ext fun distance => ?_
  rw [distances, distances, Distances.insertUses_iff different,
    Distances.insertUses_iff ((uses.map _).nodup_iff.2 different)]
  simp only [uses.mem_iff]

/-! ## Other numbers -/

/-- A program with other numbers has the same distances under them. -/
theorem Program.distances_relabel {p : Program} (numbers : Nat → Nat)
    (nodup : Program.useIds (Stmt.relabelAll id numbers p) |>.Nodup) {i : Nat} (use : i ∈ p.useIds) :
    (Program.distances (Stmt.relabelAll id numbers p))[numbers i]? = p.distances[i]? := by
  have isMap : Program.useIds (Stmt.relabelAll id numbers p) = p.useIds.map numbers :=
    Stmt.allUseIds_relabelAll id numbers p
  have different := nodup_uses nodup
  rw [isMap] at nodup
  have inside : ∀ u ∈ p.resolution.uses, u.id ∈ p.useIds := by
    rw [uses_eq]
    intro u member
    obtain ⟨note, noted, rfl⟩ := List.mem_map.1 member
    exact Stmt.noted_insideAll unlabelled [] 0 0 p note noted
  refine Option.ext fun distance => ?_
  rw [distances, distances, Distances.insertUses_iff different,
    Distances.insertUses_iff (nodup_uses (List.Nodup.of_map numbers nodup)),
    Program.resolution_relabelAll, Resolution.relabel]
  simp only [List.mem_map, exists_exists_and_eq_and]
  refine exists_congr fun u => and_congr_right fun member => and_congr_left fun _ => ?_
  exact ⟨fun same => List.inj_on_of_nodup_map nodup (inside u member) use same,
    fun same => congrArg numbers same⟩

end Lox
