import Lox.Proofs.Alike.Same

/-!
# Runs that are the same up to the numbers of nodes

If uses of names have other numbers, but the same distances under them, then a run ends in the same
way and leaves the same values, functions up to the numbers in their bodies.
-/

namespace Lox

/-- What is entered, without the numbers of its nodes. -/
def ScopeNode.bare : ScopeNode → ScopeNode
  | .block statements => .block (Program.bare statements)
  | .function keyword params body name => .function keyword params (Program.bare body) name

theorem ScopeNode.bare_relabel (node : ScopeNode) (numbers : Nat → Nat) :
    (node.relabel id numbers).bare = node.bare := by
  cases node with
  | block statements => exact congrArg ScopeNode.block (Program.bare_relabelAll numbers statements)
  | function keyword params body name =>
    have sameParams : params.map (·.relabel id) = params := List.map_id' _
    have sameName : name.map (·.relabel id) = name := Option.map_id'
    simp only [relabel, bare, Program.bare_relabelAll, sameParams, sameName]
    rfl

/-- A function without the numbers in its body. -/
def Closure.bare (c : Closure) : Closure := { c with body := Program.bare c.body }

/-- A value, a function without the numbers in its body. -/
def Value.bare : Value → Value
  | .closure c => .closure c.bare
  | v => v

/-- Two trees are the same up to the numbers of their nodes; those of uses of names are changed as
given. -/
def Likeness.renumbered (numbers : Nat → Nat) : Likeness Origin where
  lines line line' := line' = line
  enters _ node node' _ := node'.bare = node.bare
  uses _ id name id' name' := id' = numbers id ∧ name' = name
  names _ name name' := name' = name
  missing name name' := name' = name

variable {numbers : Nat → Nat}

/-- Trees are the same up to a change of numbers that leaves those of their uses as they are. -/
theorem Likeness.same_below_renumbered {sites : Nat × List Origin → Prop}
    (kept : ∀ site, sites site → numbers site.1 = site.1) :
    (Likeness.same sites).Below (.renumbered numbers) := by
  refine ⟨id, ?_, ?_, id, id⟩
  · rintro _ _ _ _ ⟨rfl, _⟩
    rfl
  · rintro _ _ _ _ _ ⟨rfl, sameName, isSite⟩
    exact ⟨(kept _ isSite).symm, sameName⟩

/-- A tree with other numbers is the same up to its numbers. -/
theorem Likeness.renumbered_admits {sites : Nat × List Origin → Prop} {numbers' : Nat → Nat}
    (agree : ∀ site, sites site → numbers' site.1 = numbers site.1) :
    (Likeness.renumbered numbers).Admits id numbers' some sites where
  lines _ := rfl
  enters _ node := node.bare_relabel numbers'
  uses isSite _ := ⟨agree _ isSite, rfl⟩
  names _ _ := rfl

/-- Uses find their variables alike if their distances are the same under the other numbers. -/
theorem Likeness.renumbered_finds {T T' : Distances}
    (agree : ∀ id, T'[numbers id]? = T[id]?) :
    (Likeness.renumbered numbers).Finds .plain T T' := by
  refine ⟨?_, ?_, ?_, ?_, ?_⟩
  · rintro _ _ _ _ _ ⟨_, rfl⟩
    rfl
  · rintro _ _ _ _ _ ⟨rfl, _⟩
    exact agree _
  · rintro _ _ _ _ _ ⟨_, rfl⟩ _ _ _ _
    exact ⟨rfl, rfl⟩
  · rintro _ _ _ _ _ ⟨_, rfl⟩ _
    rfl
  · rintro _ _ _ _ rfl
    rfl

variable {marks : List Origin}

theorem Closure.Alike.bare_eq {c c' : Closure} (alike : c.Alike (.renumbered numbers) marks c') :
    c'.bare = c.bare := by
  obtain ⟨isIdentity, isEnv, _, _, _, _, _, same, _⟩ := alike
  obtain ⟨identity, keyword, params, body, name, env⟩ := c
  obtain ⟨identity', keyword', params', body', name', env'⟩ := c'
  obtain ⟨rfl, rfl, sameBody, rfl⟩ := ScopeNode.function.inj same
  cases isIdentity
  cases isEnv
  simp only [Closure.bare, sameBody]

theorem Value.Alike.bare_eq {v v' : Value} (alike : v.Alike (.renumbered numbers) marks v') :
    v'.bare = v.bare := by
  cases alike with
  | closure alike => rw [Value.bare, Value.bare, alike.bare_eq]
  | _ => rfl

theorem Stop.Alike.eq_of_renumbered {s s' : Stop} (alike : s.Alike (.renumbered numbers) s') :
    s' = s :=
  alike.eq (fun same => same) fun same => same

end Lox
