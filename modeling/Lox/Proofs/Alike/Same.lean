import Lox.Proofs.Alike.Machines
import Lox.Proofs.Alike.Relabelled

/-!
# Runs that are the same

A tree is like itself. The frames are marked by what was entered to make them, so that the marks
around a use are what its site says. Two runs of the same tree that find variables at the same
distances end with equal values, errors and consoles, and with equal variables in all frames.
-/

namespace Lox

/-- What was entered to make a frame; nothing was for the global one. -/
abbrev Origin := Option ScopeNode

/-- Two trees are the same, with uses at the given sites. -/
def Likeness.same (sites : Nat × List Origin → Prop) : Likeness Origin where
  lines line line' := line' = line
  enters _ node node' mark := node' = node ∧ mark = some node
  uses around id name id' name' := id' = id ∧ name' = name ∧ sites (id, around)
  names _ name name' := name' = name
  missing name name' := name' = name

/-- All names correspond to themselves, in frames marked by what was entered to make them. -/
def Keys.plain : Keys Origin where
  key _ name := name
  injective _ := Function.injective_id
  root := none
  key_root _ := rfl

variable {sites sites' : Nat × List Origin → Prop}

theorem Likeness.same_below (more : ∀ site, sites site → sites' site) :
    (Likeness.same sites).Below (Likeness.same sites') :=
  ⟨id, id, fun ⟨isId, isName, isSite⟩ => ⟨isId, isName, more _ isSite⟩, id, id⟩

theorem Likeness.same_admits :
    (Likeness.same sites).Admits id id some sites where
  lines _ := rfl
  enters _ node := ⟨node.relabel_id, rfl⟩
  uses isSite _ := ⟨rfl, rfl, isSite⟩
  names _ _ := rfl

/-- A program is like itself. -/
theorem Program.same {p : Program} (inside : ∀ site ∈ Program.sites some [none] p, sites site) :
    Stmt.AllAlike (.same sites) [none] p p := by
  have alike := Stmt.allAlike_relabel Likeness.same_admits p [none] inside
  rwa [Stmt.relabelAll_id] at alike

/-- Uses at the given sites find their variables alike if their distances are the same. -/
theorem Likeness.same_finds {T T' : Distances}
    (agree : ∀ {id around}, sites (id, around) → T'[id]? = T[id]?) :
    (Likeness.same sites).Finds .plain T T' := by
  refine ⟨?_, ?_, ?_, ?_, ?_⟩
  · rintro _ _ _ _ _ ⟨_, rfl, _⟩
    rfl
  · rintro _ _ _ _ _ ⟨rfl, _, isSite⟩
    exact agree isSite
  · rintro _ _ _ _ _ ⟨_, rfl, _⟩ _ _ _ _
    exact ⟨rfl, rfl⟩
  · rintro _ _ _ _ _ ⟨_, rfl, _⟩ _
    rfl
  · rintro _ _ _ _ rfl
    rfl

/-- The steps of two machines agree if their distances are the same at the given sites. -/
theorem agreement_same {T T' : Distances}
    (agree : ∀ {id around}, sites (id, around) → T'[id]? = T[id]?) :
    Agreement (.same sites) (Machine.Alike (.same sites) .plain) (Access.distances T).steps
      (Access.distances T').steps :=
  agreement_of_finds (Likeness.same_finds agree)

/-! ## What is the same -/

section
variable {marks : List Origin}

theorem Value.Alike.eq_of_same {v v' : Value} (alike : v.Alike (.same sites) marks v') :
    v' = v :=
  alike.eq And.left

end

theorem Stop.Alike.eq_of_same {s s' : Stop} (alike : s.Alike (.same sites) s') : s' = s :=
  alike.eq (fun same => same) fun same => same

end Lox
