import Lox.Proofs.Grammar.Complete
import Lox.Proofs.Grammar.Numbers

/-!
# What is read is what is derived

The reader of programs accepts the streams whose tokens the grammar derives, and returns the tree
that they derive. The numbers of the nodes are those of the rules, so that a stream of tokens has
one tree for each number of its first node, and these trees differ in their numbers alone.
-/

namespace Lox.Grammar

open Reading

/-- The program that a stream is, is the one that its tokens derive. -/
theorem program_eq_ok_iff {ts : List Token} {stop : Token} (isStop : stop.kind = .eof)
    (inside : ∀ t ∈ ts, t.kind ≠ .eof) (p : Program) (i j : Nat) :
    Stream.program ⟨ts, stop⟩ i = (.ok p, j) ↔ Statements ts p i j := by
  constructor
  · intro h
    simp only [Stream.program, Stream.read] at h
    split at h
    · next p' c read =>
      simp only [Prod.mk.injEq, Except.ok.injEq] at h
      obtain ⟨rfl, rfl⟩ := h
      obtain ⟨us, rest, k, rfl, rfl, derived, atEnd⟩ := program_reads isStop _ _ read
      cases rest with
      | nil => simpa using derived
      | cons t rest => exact absurd atEnd (inside t (by simp))
    · cases h
  · intro derived
    have read := derived.program isStop (by omega : _ ≤ 4 * ts.length + 4)
      (by omega : _ < 4 * ts.length + 4)
    simp only [Stream.program, Stream.read, Stream.depth, EStateM.run, read]

/-- The uses in a program that is read have numbers of their own, which are used up. -/
theorem apart_of_program {stream : Stream} (isStop : stream.stop.kind = .eof) {p : Program}
    {i j : Nat} (isProgram : stream.program i = (.ok p, j)) : Apart p.useIds i j ∧ i ≤ j := by
  obtain ⟨_, _, _, derived⟩ := derived_of_program isStop isProgram
  exact ⟨derived.apart, derived.le⟩

/-! ## Derivations up to numbers -/

/-- The tokens derive the program, whatever the numbers of its nodes. -/
def Derives (ts : List Token) (p : Program) : Prop :=
  ∃ (q : Program) (i j : Nat), Statements ts q i j ∧ q.bare = p.bare

/-- A derivation moves to every number of the first node. -/
theorem Statements.renumber {ts : List Token} {p : Program} {i j : Nat}
    (derived : Statements ts p i j) (n : Nat) :
    ∃ (q : Program) (m : Nat), Statements ts q n m ∧ q.bare = p.bare := by
  have next (k : Nat) (above : i ≤ k) : k + 1 - i + n = k - i + n + 1 := by omega
  have moved : Statements (ts.map (·.relabel id)) (Stmt.relabelAll id (fun k => k - i + n) p)
      (i - i + n) (j - i + n) := derived.relabel next (Nat.le_refl i)
  have sameTokens : ts.map (·.relabel id) = ts := List.map_id' ts
  rw [sameTokens, Nat.sub_self, Nat.zero_add] at moved
  exact ⟨_, _, moved, Program.bare_relabelAll _ p⟩

/-- From one number on, tokens derive one program. -/
theorem Statements.unique {ts : List Token} {p q : Program} {i j k : Nat}
    (inside : ∀ t ∈ ts, t.kind ≠ .eof) (first : Statements ts p i j)
    (second : Statements ts q i k) : p = q ∧ j = k := by
  have isStop : Token.kind ⟨.eof, "", .nil, 0⟩ = .eof := rfl
  have read := (program_eq_ok_iff isStop inside p i j).2 first
  rw [(program_eq_ok_iff isStop inside q i k).2 second] at read
  simp only [Prod.mk.injEq, Except.ok.injEq] at read
  exact ⟨read.1.symm, read.2.symm⟩

/-- Whatever their numbers, tokens derive one program. -/
theorem Derives.unique {ts : List Token} {p q : Program} (inside : ∀ t ∈ ts, t.kind ≠ .eof)
    (first : Derives ts p) (second : Derives ts q) : p.bare = q.bare := by
  obtain ⟨p', i, j, derived, same⟩ := first
  obtain ⟨q', i', j', derived', same'⟩ := second
  obtain ⟨q'', k, moved, same''⟩ := derived'.renumber i
  obtain ⟨rfl, _⟩ := Statements.unique inside derived moved
  rw [← same, same'', same']

/-- The reader accepts the streams that derive a program, with the tree that they derive. -/
theorem derives_iff_program {ts : List Token} {stop : Token} (isStop : stop.kind = .eof)
    (inside : ∀ t ∈ ts, t.kind ≠ .eof) (p : Program) (n : Nat) :
    Derives ts p ↔ ∃ (q : Program) (m : Nat), Stream.program ⟨ts, stop⟩ n = (.ok q, m) ∧
      q.bare = p.bare := by
  constructor
  · rintro ⟨q, i, j, derived, same⟩
    obtain ⟨q', m, moved, same'⟩ := derived.renumber n
    exact ⟨q', m, (program_eq_ok_iff isStop inside q' n m).2 moved, same'.trans same⟩
  · rintro ⟨q, m, read, same⟩
    exact ⟨q, n, m, (program_eq_ok_iff isStop inside q n m).1 read, same⟩

/-- Of every list of tokens whose only mark of the end is its last one, the reader returns a program
exactly if the grammar derives it from the tokens before that mark, and no tokens derive two
programs that differ in more than the numbers of their nodes. -/
theorem program_iff_derives {ts : List Token} {stop : Token} (isStop : stop.kind = .eof)
    (inside : ∀ t ∈ ts, t.kind ≠ .eof) :
    Stream.ofList? (ts ++ [stop]) = some ⟨ts, stop⟩ ∧
      (∀ (p : Program) (n m : Nat),
        Stream.program ⟨ts, stop⟩ n = (.ok p, m) ↔ Statements ts p n m) ∧
      (∀ (p : Program) (n : Nat), Derives ts p ↔ ∃ (q : Program) (m : Nat),
        Stream.program ⟨ts, stop⟩ n = (.ok q, m) ∧ q.bare = p.bare) ∧
      ∀ p q : Program, Derives ts p → Derives ts q → p.bare = q.bare :=
  ⟨Stream.ofList?_append [] inside isStop rfl isStop, program_eq_ok_iff isStop inside,
    derives_iff_program isStop inside, fun _ _ => Derives.unique inside⟩

/-- An assignment of a sum reads as derived, and the sum is the value that is assigned. -/
theorem assignment_of_sum_derived :
    let name : Token := ⟨.identifier, "x", .nil, 1⟩
    let sign : Token := ⟨.equal, "=", .nil, 1⟩
    let plus : Token := ⟨.plus, "+", .nil, 1⟩
    let tokens := [name, sign, name, plus, name, ⟨.semicolon, ";", .nil, 1⟩]
    (∀ t ∈ tokens, t.kind ≠ .eof) ∧
      Statements tokens [.expression (.assignment 4 name (.binary 3 (.reference 1 name) plus
        (.reference 2 name)))] 0 5 := by
  intro name sign plus tokens
  have inside : ∀ t ∈ tokens, t.kind ≠ .eof := by decide
  have isStop : Token.kind ⟨.eof, "", .nil, 1⟩ = .eof := rfl
  exact ⟨inside, ((program_iff_derives isStop inside).2.1 _ 0 5).1 rfl⟩

end Lox.Grammar
