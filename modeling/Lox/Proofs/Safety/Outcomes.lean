import Lox.Proofs.Runs.Fuel
import Lox.Proofs.Safety.Sessions

/-!
# How texts end

Whatever was run in a session before, a text never ends, or it ends with its result or with an error of
the program. No `break`, `continue` or `return` gets out of what it stands in, and where variables have
their values before they are used, the only names that are missing are those of global variables.
-/

namespace Lox

/-! ## Results and errors -/

/-- The failures that are errors of the program: in its characters, in its tokens, in its names, or
while it was running. -/
inductive Failure.OfProgram : Failure → Prop
  | lexical {defects : List Defect} (some : defects ≠ []) : OfProgram (.lexical defects)
  | grammar {e : SyntaxError} (proper : e.cause ≠ .tooDeep) : OfProgram (.grammar e)
  | resolution (e : ResolutionError) : OfProgram (.resolution e)
  | running (e : RuntimeError) : OfProgram (.stopped (.error e))

/-- The error that what was done in a session was stopped with while a program was running. -/
def Session.error? {α : Type} (s : Session) (acting : Acting α) : Option RuntimeError :=
  match (s.after acting).1 with
  | .error (.stopped (.error e)) => some e
  | _ => none

theorem Session.after_of_error {α : Type} {s : Session} {acting : Acting α} {e : RuntimeError}
    (stopped : s.error? acting = some e) :
    s.after acting = (.error (.stopped (.error e)), (s.after acting).2) := by
  unfold error? at stopped
  split at stopped
  · next ending =>
    cases stopped
    exact Prod.ext ending rfl
  · cases stopped

/-- What needs fuel never ends in a session, or with all fuel from some on it ends in the same way: with
a result or with an error of the program. -/
def Session.EndsProperly {α : Type} (s : Session) (acting : Nat → Acting α) : Prop :=
  (∀ fuel, (s.after (acting fuel)).1 = .error (.stopped .outOfFuel)) ∨
    ∃ ending s', (∀ failure, ending = .error failure → failure.OfProgram) ∧
      ∃ enough, ∀ fuel ≥ enough, s.after (acting fuel) = (ending, s')

theorem Failure.Expected.ofProgram {W : Usage} {failure : Failure} (expected : failure.Expected W)
    (ends : failure ≠ .stopped .outOfFuel) : failure.OfProgram := by
  cases failure with
  | lexical defects => exact .lexical expected
  | grammar e => exact .grammar expected
  | resolution e => exact .resolution e
  | misplaced kind => exact expected.elim
  | stopped stop =>
    cases stop with
    | error e => exact .running e
    | fault f => exact expected.elim
    | outOfFuel => exact absurd rfl ends

section
variable {programs : List Program} {definite : Prop} {s s' : Session} {α : Type}

/-- What ends well with all fuel, and ends the same way with more, ends properly. -/
theorem Session.endsProperly {acting : Nat → Acting α}
    (longer : ∀ {n m}, n ≤ m → Prolonged (.stopped .outOfFuel) (acting n) (acting m))
    (ends : ∀ n, EndsWell programs definite (acting n s)) : s.EndsProperly acting := by
  rcases settles longer s with never | ⟨enough, ended, same⟩
  · refine .inl fun fuel => ?_
    obtain ⟨s', stopped⟩ := never fuel
    rw [after, stopped]
  · refine .inr ⟨(s.after (acting enough)).1, (s.after (acting enough)).2, fun failure failed => ?_,
      enough, fun fuel more => ?_⟩
    · have failed : s.after (acting enough) = (.error failure, (s.after (acting enough)).2) :=
        Prod.ext failed rfl
      refine ((ends enough).expected failed).ofProgram ?_
      rintro rfl
      exact ended ⟨_, of_after_error failed⟩
    · rw [after, after, same fuel more]

/-- A program that is read has only nodes that belong where they stand. -/
theorem Acting.wellPlaced_parse {source : String} {p : Program}
    (parsed : parse source s = .ok p s') : Stmt.AllWellPlaced p := by
  have readAs := parse_readAs s source
  rw [parsed] at readAs
  cases readAs with
  | program scanned outcome _ => exact Stream.wellPlaced_program (tokenize_stop scanned) outcome

end

/-- In a session of any texts, with any input, any failing of input and output and any level of
debugging, a text never ends, or it ends with its result or with an error of the program, and all
statements that are noted for debugging can be printed. -/
theorem Session.ends_properly (console : Console) (debugLevel : Nat) (runs : List (Nat × String))
    (source : String) :
    let s := (Session.start console debugLevel).afterRuns runs
    s.EndsProperly (Acting.run · source) ∧ s.EndsProperly (Acting.runQuietly · source) ∧
      ∀ p s', Acting.parse source s = .ok p s' → ∀ t ∈ p, t.misplaced? = none := by
  intro s
  have fits : s.Fits _ False := Session.fits_afterRuns console debugLevel False.elim
  refine ⟨?_, ?_, fun p s' parsed t member => ?_⟩
  · exact Session.endsProperly (Acting.prolonged_run source) fun n =>
      endsWell_run fits False.elim n
  · exact Session.endsProperly (Acting.prolonged_runQuietly source) fun n =>
      endsWell_runQuietly fits False.elim n
  · exact Stmt.misplaced?_eq_none t ((Acting.wellPlaced_parse parsed).mem t member)

/-! ## Jumps -/

/-- A variable of a session has the value. -/
def Session.Holds (s : Session) (v : Value) : Prop :=
  ∃ (r : Ref) (name : String), (s.machine.store.bindings r)[name]? = some v

/-- With any fuel, the bodies of the functions that the variables of a session have end normally or
return, when they get values of variables and values that are no functions of a program. -/
def Session.BodiesEnd (s : Session) : Prop :=
  ∀ fuel c vs, s.Holds (.closure c) → (∀ v ∈ vs, v.Plain ∨ s.Holds v) → ∀ ended s',
    Acting.perform (fun steps => do
      let env ← steps.bindArguments c vs
      Running.inOrder (exec steps fuel env) c.body) s = .ok ended s' →
    ended = .finished ∨ ∃ v, ended = .returned v

section
variable {programs : List Program} {definite : Prop} {s s' : Session}

theorem Session.Fits.bodiesEnd (fits : s.Fits programs False) : s.BodiesEnd := by
  rintro fuel c vs ⟨r, name, found⟩ values ended s' done
  obtain ⟨known, knows, body⟩ := fits.store.values found
  have fitAll : ∀ v ∈ vs, v.Fits (s.usage programs False) s.machine.store := by
    intro v member
    rcases values v member with plain | ⟨r, name, found⟩
    · exact plain.fits _ _
    · exact fits.store.values found
  have safe := (safe_bindArguments knows fitAll False.elim).bind fun s' env _ inside =>
    safe_inOrder (safeAt (s.usage programs False) fuel).exec inside body
  have completion : Completion.Fits _ False True _ ended := Safe.wanted fits safe done
  cases ended with
  | finished => exact .inl rfl
  | returned v => exact .inr ⟨v, rfl⟩
  | broken | continued => exact completion.elim

/-- A program that is read and resolved fits, and so does the session that is to run it. -/
theorem Session.Fits.resolution {source : String} {p : Program} {s₁ s₂ : Session}
    (fits : s.Fits programs definite) (parsed : Acting.parse source s = .ok p s₁)
    (installed : Acting.install p.resolution s₁ = .ok () s₂) (orderly : definite → p.Orderly) :
    s₂.Fits (programs ++ [p]) definite ∧
      Stmt.AllFits (s₂.usage (programs ++ [p]) definite) [] False False p := by
  have readAs := Acting.parse_readAs s source
  rw [parsed] at readAs
  cases readAs with
  | program scanned outcome trace =>
    obtain ⟨apart, further⟩ := Grammar.apart_of_program (tokenize_stop scanned) outcome
    obtain ⟨accepted, trace', rfl⟩ := Acting.install_ok installed
    exact fits.accept apart further accepted orderly trace'

/-- After statements that were run, the others still fit. -/
theorem Session.Fits.goOn (fits : s.Fits programs definite) {fuel : Nat} {before after : Program}
    (allFit : Stmt.AllFits (s.usage programs definite) [] False False (before ++ after))
    (ran : Acting.runTrees fuel before s = .ok () s') :
    s'.Fits programs definite ∧
      Stmt.AllFits (s'.usage programs definite) [] False False after := by
  obtain ⟨fitBefore, fitAfter⟩ := allFit.parts
  have ends : EndsWell programs definite (Acting.runTrees fuel before s) :=
    endsWell_perform fits (safe_interpret fuel fits.store.root fitBefore)
  rw [ran] at ends
  refine ⟨ends, ?_⟩
  rw [usage, (Acting.perform_ok ran).2]
  exact fitAfter

/-- A statement that fits outside of loops and functions ends normally. -/
theorem Session.Fits.eq_finished (fits : s.Fits programs definite) {fuel : Nat} {t : Stmt}
    (fitStatement : t.Fits (s.usage programs definite) [] False False) {c : Completion}
    (done : Acting.perform (fun steps => exec steps fuel .global t) s = .ok c s') :
    c = .finished := by
  have safe := (safeAt (s.usage programs definite) fuel).exec (Env.Knows.global fits.store.root)
    fitStatement
  exact (Safe.wanted fits safe done).fits.eq_finished

end

/-- In a session of any texts, no text is stopped for a `break`, `continue` or `return` that has nothing
to leave. The functions that variables have when a text begins, or when some statements of a program
that was accepted have been run, end normally or return, and each of its statements ends normally. -/
theorem Session.jumps_stay_inside (console : Console) (debugLevel : Nat)
    (runs : List (Nat × String)) (fuel : Nat) (source : String) :
    let s := (Session.start console debugLevel).afterRuns runs
    (∀ e, s.error? (Acting.run fuel source) = some e → ¬ e.cause.IsStray) ∧
    s.BodiesEnd ∧
    ∀ p s₁ s₂, Acting.parse source s = .ok p s₁ → Acting.install p.resolution s₁ = .ok () s₂ →
      ∀ before t after s₃, p = before ++ t :: after →
        Acting.runTrees fuel before s₂ = .ok () s₃ →
        s₃.BodiesEnd ∧ ∀ c s₄,
          Acting.perform (fun steps => exec steps fuel .global t) s₃ = .ok c s₄ → c = .finished := by
  intro s
  have fits : s.Fits _ False := Session.fits_afterRuns console debugLevel False.elim
  refine ⟨fun e stopped => ?_, fits.bodiesEnd, ?_⟩
  · have expected := (endsWell_run fits False.elim fuel).expected (after_of_error stopped)
    exact expected.inPlace
  · intro p s₁ s₂ parsed installed before t after s₃ parts ran
    subst parts
    obtain ⟨fits₂, allFit⟩ := fits.resolution parsed installed False.elim
    obtain ⟨fits₃, fitStatement, _⟩ := fits₂.goOn allFit ran
    exact ⟨fits₃.bodiesEnd, fun _ _ => fits₃.eq_finished fitStatement⟩

/-! ## Missing names -/

/-- In a session of any texts whose programs are orderly, no text is stopped since a variable has no
value yet: an error about a name is that of a use which its program left without a distance, and the
global variable of that name is missing. -/
theorem Session.undefined_global (console : Console) (debugLevel : Nat) (runs : List (Nat × String))
    (fuel : Nat) (source : String)
    (orderly : ∀ p ∈ (Session.start console debugLevel).programs (runs ++ [(fuel, source)]),
      p.Orderly)
    {e : RuntimeError}
    (stopped : ((Session.start console debugLevel).afterRuns runs).error? (Acting.run fuel source) =
      some e)
    (isName : e.cause.kind = .name) :
    ∃ p ∈ (Session.start console debugLevel).programs (runs ++ [(fuel, source)]), ∃ id name,
      (id, name) ∈ p.uses ∧ p.distances[id]? = none ∧ e.cause = .undefined name.lexeme ∧
        e.line = some name.line := by
  have ends := endsWell_afterRuns console debugLevel fun (_ : True) => orderly
  have failed := after_of_error stopped
  obtain ⟨id, name, ⟨p, member, used⟩, noDistance, cause, line⟩ :=
    (ends.expected failed).isGlobal trivial isName
  refine ⟨p, member, id, name, used, ?_, cause, line⟩
  have fits := ends.fits
  rw [of_after_error failed] at fits
  obtain ⟨_, agree⟩ := fits.resolved p member id (Program.mem_useIds used)
  exact agree.symm.trans noDistance

/-- A function that was kept with a local variable uses a missing global one when it is called from a
later text. -/
theorem Session.undefined_in_kept_function :
    let start := Session.start (.ofInput "" none false fun _ => 0) 0
    let runs := [(20, "var h; \x7b var a; fun f() \x7b return a + g; \x7d h = f; \x7d")]
    let programs := start.programs (runs ++ [(20, "h();")])
    (∀ p ∈ programs, p.Orderly) ∧ ∃ e,
      (start.afterRuns runs).error? (Acting.run 20 "h();") = some e ∧ e.cause.kind = .name ∧
        ∃ p ∈ programs, ∃ id name, (id, name) ∈ p.uses ∧ p.distances[id]? = none ∧
          e.cause = .undefined name.lexeme ∧ e.line = some name.line := by
  intro start runs programs
  have orderly : ∀ p ∈ programs, p.Orderly := by decide +kernel
  have named : ((start.afterRuns runs).error? (Acting.run 20 "h();")).map (·.cause.kind) =
    some .name := by decide +kernel
  obtain ⟨e, stopped, isName⟩ := Option.map_eq_some_iff.1 named
  exact ⟨orderly, e, stopped, isName,
    Session.undefined_global _ 0 runs 20 "h();" orderly stopped isName⟩

-- A declaration that is skipped, and an assignment in the initializer of its variable: neither text is
-- orderly.
example : ((Session.start (.ofInput "" none false fun _ => 0) 0).error?
    (Acting.run 20 "\x7b if (false) var a; a; \x7d")).map (·.cause.text) =
      some "uninitialized variable 'a'" := by decide +kernel

example : ((Session.start (.ofInput "" none false fun _ => 0) 0).error?
    (Acting.run 20 "\x7b var a = (a = nil); \x7d")).map (·.cause.text) =
      some "uninitialized variable 'a'" := by decide +kernel

end Lox
