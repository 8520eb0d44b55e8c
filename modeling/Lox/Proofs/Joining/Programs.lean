import Lox.Proofs.Grammar.Exact
import Lox.Proofs.Joining.Texts
import Lox.Proofs.Scopes.Relabelled
import Lox.Proofs.Scopes.Tables
import Lox.Proofs.Sessions.Stages

/-!
# Programs under one another

The statements of two texts with a newline between them are those of the one and then those of the
other. Outside of all blocks and functions a walk leaves no scopes behind, so that the second text is
resolved as it is alone.
-/

namespace Lox

/-! ## Statements one after the other -/

theorem Grammar.Statements.append {ts us : List Token} {p q : Program} {i j k : Nat} :
    Statements ts p i j → Statements us q j k → Statements (ts ++ us) (p ++ q) i k
  | .nil, second => second
  | .cons first others, second => by
    rw [List.append_assoc]
    exact .cons first (others.append second)

/-- A program with its lines changed. -/
def Program.onLines (lines : Int → Int) (p : Program) : Program := Stmt.relabelAll lines id p

theorem Program.length_onLines (lines : Int → Int) (p : Program) :
    (p.onLines lines).length = p.length :=
  Stmt.length_relabelAll lines id p

/-- Tokens on other lines are the program on other lines, with the same numbers. -/
theorem Grammar.Statements.onLines {ts : List Token} {p : Program} {i j : Nat}
    (derived : Statements ts p i j) (lines : Int → Int) :
    Statements (ts.map (·.relabel lines)) (p.onLines lines) i j := by
  have next (k : Nat) (_ : i ≤ k) : id (k + 1) = id k + 1 := rfl
  exact derived.relabel next (Nat.le_refl i)

/-! ## Programs with other lines and numbers -/

/-- A program with other lines and numbers is accepted if it was, and its uses are at the same
distances. -/
theorem Program.resolution_relabel (lines : Int → Int) (numbers : Nat → Nat) {p : Program}
    (accepted : p.resolution.outcome = .ok ()) :
    Resolution.outcome (Program.resolution (Stmt.relabelAll lines numbers p)) = .ok () ∧
      (Resolution.uses (Program.resolution (Stmt.relabelAll lines numbers p))).map Use.outline =
        p.resolution.uses.map fun u => (numbers u.id, u.form, u.distance) := by
  rw [Program.resolution_relabelAll, Resolution.relabel, accepted]
  refine ⟨rfl, ?_⟩
  rw [List.map_map]
  rfl

/-! ## Walks over programs one after the other -/

theorem Stmt.walkAll_append {κ : Type} (label : ScopeNode → κ) (p q : Program) :
    Stmt.walkAll label [] 0 0 (p ++ q) =
      (Stmt.walkAll label [] 0 0 p).andThen (Stmt.walkAll label [] 0 0 q) := by
  induction p with
  | nil => rfl
  | cons s rest ih =>
    rw [List.cons_append, Stmt.walkAll, Stmt.walkAll, Stmt.after_nil, ih,
      Findings.andThen_assoc]

/-- Two accepted programs one after the other are accepted, with the uses of the one and those of
the other. -/
theorem Program.resolution_append {p q : Program} (accepted : p.resolution.outcome = .ok ())
    (accepted' : q.resolution.outcome = .ok ()) :
    Program.resolution (p ++ q) = ⟨p.resolution.uses ++ q.resolution.uses, .ok ()⟩ := by
  have goesOn := Program.accepted_iff.1 accepted
  have goesOn' := Program.accepted_iff.1 accepted'
  rw [Program.uses_eq, Program.uses_eq, Program.resolution_eq unlabelled (p ++ q)]
  rw [Program.findings, Stmt.walkAll_append]
  unfold Findings.andThen
  rw [Program.findings] at goesOn goesOn'
  simp only [goesOn, goesOn', Findings.uses, List.map_append, Program.findings]

/-! ## Accepted texts -/

/-- A text is scanned, read as a program that uses up the numbers from `n` up to `m`, and resolved,
all without an error. -/
def Accepted (text : List Char) (p : Program) (n m : Nat) : Prop :=
  ∃ stream, tokenize text = .ok stream ∧ stream.program n = (.ok p, m) ∧
    p.resolution.outcome = .ok ()

/-- Whether a text is scanned, read and resolved without an error. -/
def isAccepted (text : String) : Bool :=
  match tokenize text.toList with
  | .error _ => false
  | .ok stream =>
    match (stream.program 1).1 with
    | .error _ => false
    | .ok p => p.resolution.outcome.isOk

theorem exists_accepted {text : String} (accepted : isAccepted text) :
    ∃ p m, Accepted text.toList p 1 m := by
  unfold isAccepted at accepted
  split at accepted
  · cases accepted
  · next stream scanned =>
    split at accepted
    · cases accepted
    · next p isProgram =>
      refine ⟨p, (stream.program 1).2, stream, scanned, by rw [← isProgram], ?_⟩
      revert accepted
      cases p.resolution.outcome with
      | error r => exact nofun
      | ok u => exact fun _ => rfl

namespace Accepted

open Grammar

variable {text more : List Char} {p q : Program} {n m k : Nat}

theorem apart (accepted : Accepted text p n m) : Apart p.useIds n m ∧ n ≤ m := by
  obtain ⟨stream, scanned, isProgram, _⟩ := accepted
  exact apart_of_program (tokenize_stop scanned) isProgram

theorem statements (accepted : Accepted text p n m) :
    ∃ stream, tokenize text = .ok stream ∧ Statements stream.tokens p n m := by
  obtain ⟨stream, scanned, isProgram, _⟩ := accepted
  have inside := tokenize_ne_eof scanned
  exact ⟨stream, scanned, (program_eq_ok_iff (tokenize_stop scanned) inside p n m).1 isProgram⟩

theorem of_statements {stream : Stream} (scanned : tokenize text = .ok stream)
    (derived : Statements stream.tokens p n m) (resolved : p.resolution.outcome = .ok ()) :
    Accepted text p n m := by
  have inside := tokenize_ne_eof scanned
  have isProgram := (program_eq_ok_iff (tokenize_stop scanned) inside p n m).2 derived
  exact ⟨stream, scanned, isProgram, resolved⟩

/-- An accepted text is accepted with every number of its first node. -/
theorem renumber (accepted : Accepted text p n m) (i : Nat) : ∃ q j, Accepted text q i j := by
  obtain ⟨stream, scanned, derived⟩ := accepted.statements
  obtain ⟨_, _, _, resolved⟩ := accepted
  have next (l : Nat) (above : n ≤ l) : l + 1 - n + i = l - n + i + 1 := by omega
  have moved : Statements (stream.tokens.map (·.relabel id))
      (Stmt.relabelAll id (fun l => l - n + i) p) (n - n + i) (m - n + i) :=
    derived.relabel next (Nat.le_refl n)
  have sameTokens : stream.tokens.map (·.relabel id) = stream.tokens := List.map_id' _
  rw [sameTokens, Nat.sub_self, Nat.zero_add] at moved
  obtain ⟨resolved', _⟩ := Program.resolution_relabel id (fun l => l - n + i) resolved
  exact ⟨_, _, of_statements scanned moved resolved'⟩

/-- An accepted text is accepted under newlines, with its lines as much further down. -/
theorem lower (accepted : Accepted text p n m) (d : Nat) :
    Accepted (List.replicate d '\n' ++ text) (p.onLines (· + d)) n m := by
  obtain ⟨stream, scanned, derived⟩ := accepted.statements
  obtain ⟨_, _, _, resolved⟩ := accepted
  obtain ⟨stop, lower⟩ := tokenize_newlines_append scanned d
  obtain ⟨resolved', _⟩ := Program.resolution_relabel (· + d) id resolved
  exact of_statements lower (derived.onLines (· + d)) resolved'

/-- Two accepted texts with a newline between them are accepted, if the numbers of the second follow
those of the first. -/
theorem join (first : Accepted text p n m) (second : Accepted more q m k) :
    Accepted (text ++ '\n' :: more) (p ++ q.onLines (· + (1 + Text.newlines text : Nat))) n k := by
  obtain ⟨stream, scanned, derived⟩ := first.statements
  obtain ⟨stream', scanned', derived'⟩ := second.statements
  obtain ⟨_, _, _, resolved⟩ := first
  obtain ⟨_, _, _, resolved'⟩ := second
  obtain ⟨stop, together⟩ := tokenize_append_newline scanned scanned'
  obtain ⟨lower, _⟩ :=
    Program.resolution_relabel (· + (1 + Text.newlines text : Nat)) id resolved'
  refine of_statements together (derived.append (derived'.onLines _)) ?_
  exact congrArg Resolution.outcome (Program.resolution_append resolved lower)

end Accepted

end Lox
