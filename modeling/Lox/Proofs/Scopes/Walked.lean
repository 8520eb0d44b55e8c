import Lox.Proofs.Scopes.Sites
import Lox.Proofs.Scopes.Tables

/-!
# Accepted walks

When a walk is not refused, a table can hold the distances of just those uses that it noted. Each part
of the tree then has its own distances, since all uses are different.
-/

namespace Lox

/-- The walk was not refused, and a table tells the distances of just those uses that were noted,
of all that there are. -/
structure Walked (T : Distances) (found : Findings Unit) (ids : List Nat) : Prop where
  accepted : found.refusal = none
  nodup : ids.Nodup
  noted : ∀ note ∈ found.notes, T[note.use.id]? = some note.use.distance
  only : ∀ id ∈ ids, (∀ note ∈ found.notes, note.use.id ≠ id) → T[id]? = none

theorem Findings.accepted_andThen {κ : Type} {first second : Findings κ}
    (accepted : (first.andThen second).refusal = none) :
    first.refusal = none ∧ second.refusal = none ∧
      (first.andThen second).notes = first.notes ++ second.notes := by
  unfold Findings.andThen at accepted ⊢
  cases stops : first.refusal with
  | some r => simp only [stops, reduceCtorEq] at accepted
  | none =>
    simp only [stops] at accepted ⊢
    exact ⟨trivial, accepted, trivial⟩

/-- The uses of both parts of a walk are different, so that each part has its own distances. -/
theorem Walked.andThen {T : Distances} {first second : Findings Unit} {ids ids' : List Nat}
    (walked : Walked T (first.andThen second) (ids ++ ids'))
    (inside : ∀ note ∈ first.notes, note.use.id ∈ ids)
    (inside' : ∀ note ∈ second.notes, note.use.id ∈ ids') :
    Walked T first ids ∧ Walked T second ids' := by
  obtain ⟨accepted, nodup, noted, only⟩ := walked
  obtain ⟨goesOn, goesOn', notes⟩ := Findings.accepted_andThen accepted
  obtain ⟨nodupFirst, nodupSecond, apart⟩ := List.nodup_append.1 nodup
  rw [notes] at noted only
  obtain ⟨notedFirst, notedSecond⟩ := List.forall_mem_append.1 noted
  refine ⟨⟨goesOn, nodupFirst, notedFirst, ?_⟩, ⟨goesOn', nodupSecond, notedSecond, ?_⟩⟩
  · intro id member missing
    refine only id (List.mem_append_left _ member) (List.forall_mem_append.2 ⟨missing, ?_⟩)
    intro note isNote same
    exact apart id member _ (inside' note isNote) same.symm
  · intro id member missing
    refine only id (List.mem_append_right _ member) (List.forall_mem_append.2 ⟨?_, missing⟩)
    intro note isNote same
    exact apart _ (inside note isNote) id member same

/-! ## What is noted in a part -/

section
variable {κ : Type} (label : ScopeNode → κ) (scopes : Scopes κ) (loops functions : Nat)

theorem Expr.noted_inside (e : Expr) :
    ∀ note ∈ (e.walk label scopes loops functions).notes, note.use.id ∈ e.useIds :=
  (Expr.walk_at label [] e scopes loops functions).inside (Expr.ids_sites label _ e)

theorem Expr.noted_insideAll (es : List Expr) :
    ∀ note ∈ (Expr.walkAll label scopes loops functions es).notes,
      note.use.id ∈ Expr.allUseIds es :=
  (Expr.walkAll_at label [] es scopes loops functions).inside (Expr.ids_allSites label _ es)

theorem Expr.noted_insideOption (e? : Option Expr) :
    ∀ note ∈ (Expr.walkOption label scopes loops functions e?).notes,
      note.use.id ∈ Expr.optionUseIds e? :=
  (Expr.walkOption_at label [] e? scopes loops functions).inside (Expr.ids_optionSites label _ e?)

theorem Stmt.noted_inside (s : Stmt) :
    ∀ note ∈ (s.walk label scopes loops functions).notes, note.use.id ∈ s.useIds :=
  (Stmt.walk_at label [] s scopes loops functions).inside (Stmt.ids_sites label _ s)

theorem Stmt.noted_insideAll (ss : List Stmt) :
    ∀ note ∈ (Stmt.walkAll label scopes loops functions ss).notes,
      note.use.id ∈ Stmt.allUseIds ss :=
  (Stmt.walkAll_at label [] ss scopes loops functions).inside (Stmt.ids_allSites label _ ss)

theorem Stmt.noted_insideOption (s? : Option Stmt) :
    ∀ note ∈ (Stmt.walkOption label scopes loops functions s?).notes,
      note.use.id ∈ Stmt.optionUseIds s? :=
  (Stmt.walkOption_at label [] s? scopes loops functions).inside (Stmt.ids_optionSites label _ s?)

theorem Scopes.noted_inside (id : Nat) (form : UseForm) (name : Token) :
    ∀ note ∈ (scopes.note id form name).notes, note.use.id ∈ [id] :=
  (Scopes.note_at scopes [] id form name).inside rfl

/-- What two parts note is in one of them. -/
theorem Findings.noted_andThen {first second : Findings κ} {ids ids' : List Nat}
    (inside : ∀ note ∈ first.notes, note.use.id ∈ ids)
    (inside' : ∀ note ∈ second.notes, note.use.id ∈ ids') :
    ∀ note ∈ (first.andThen second).notes, note.use.id ∈ ids ++ ids' := by
  intro note noted
  unfold Findings.andThen at noted
  split at noted
  · exact List.mem_append_left _ (inside note noted)
  · rcases List.mem_append.1 noted with member | member
    · exact List.mem_append_left _ (inside note member)
    · exact List.mem_append_right _ (inside' note member)

end

/-- Each of three parts of a walk has its own distances. -/
theorem Walked.three {T : Distances} {first second third : Findings Unit} {ids ids' ids'' : List Nat}
    (walked : Walked T (first.andThen (second.andThen third)) (ids ++ (ids' ++ ids'')))
    (inside : ∀ note ∈ first.notes, note.use.id ∈ ids)
    (inside' : ∀ note ∈ second.notes, note.use.id ∈ ids')
    (inside'' : ∀ note ∈ third.notes, note.use.id ∈ ids'') :
    Walked T first ids ∧ Walked T second ids' ∧ Walked T third ids'' := by
  obtain ⟨head, rest⟩ := walked.andThen inside (Findings.noted_andThen inside' inside'')
  exact ⟨head, rest.andThen inside' inside''⟩

/-! ## Programs -/

/-- The distances of an accepted program are those of just the uses that were noted. -/
theorem Program.walked {p : Program} (accepted : p.resolution.outcome = .ok ())
    (nodup : p.useIds.Nodup) : Walked p.distances (Program.findings unlabelled p) p.useIds := by
  have different := Program.nodup_notes unlabelled nodup
  refine ⟨Program.accepted_iff.1 accepted, nodup, fun note noted => ?_, fun id _ missing => ?_⟩
  · rw [Program.distances, p.uses_eq]
    refine Distances.insertUses_of_mem ?_ (List.mem_map_of_mem noted)
    rw [List.map_map]
    exact different
  · rw [Program.distances, p.uses_eq, Distances.insertUses_of_ne]
    · exact Std.TreeMap.getElem?_emptyc
    · intro u member
      obtain ⟨note, noted, rfl⟩ := List.mem_map.1 member
      exact missing note noted

end Lox
