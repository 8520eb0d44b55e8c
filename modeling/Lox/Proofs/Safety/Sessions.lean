import Lox.Proofs.Grammar.Depth
import Lox.Proofs.Grammar.Exact
import Lox.Proofs.Grammar.Placed
import Lox.Proofs.Safety.Accepted
import Lox.Proofs.Safety.Runs
import Lox.Proofs.Sessions.Stages

/-!
# Sessions that fit

Every text that is run keeps the functions of a session fitting, with the distances of all programs
that were accepted so far, and fails in no other way than is to be expected. The uses of different
programs have different numbers, so that the distances of one do not disturb those of another.
-/

namespace Lox

/-! ## Programs that are accepted -/

/-- The program that a session runs a text as, if the text is one and its resolution succeeds. -/
def Session.accepted? (s : Session) (source : String) : Option Program :=
  match tokenize source.toList with
  | .error _ => none
  | .ok stream =>
    match (stream.program s.nextId).1 with
    | .error _ => none
    | .ok p => if p.resolution.outcome.isOk then some p else none

/-- The programs that a session runs texts as, one after the other. -/
def Session.programs (s : Session) : List (Nat × String) → List Program
  | [] => []
  | (fuel, source) :: rest =>
    (s.accepted? source).toList ++ (s.after (Acting.run fuel source)).2.programs rest

theorem Session.programs_concat (s : Session) (runs : List (Nat × String)) (fuel : Nat)
    (source : String) : s.programs (runs ++ [(fuel, source)]) =
      s.programs runs ++ ((s.afterRuns runs).accepted? source).toList := by
  induction runs generalizing s with
  | nil => rw [List.nil_append, programs, programs, programs, List.append_nil]; rfl
  | cons first rest ih =>
    rw [List.cons_append, programs, programs, ih, List.append_assoc]
    rfl

/-! ## What is taken for granted in a session -/

/-- The uses of programs, at the distances of a session. -/
def Session.usage (s : Session) (programs : List Program) (definite : Prop) : Usage :=
  ⟨s.table, fun id name => ∃ p ∈ programs, (id, name) ∈ p.uses, definite⟩

/-- The functions of a session fit, and the uses of its programs have numbers that are used up and the
distances of their own resolution. -/
structure Session.Fits (programs : List Program) (definite : Prop) (s : Session) : Prop where
  store : s.machine.store.Fits (s.usage programs definite)
  resolved : ∀ p ∈ programs, ∀ id ∈ p.useIds, id < s.nextId ∧ s.table[id]? = p.distances[id]?
  below : ∀ {id distance}, s.table[id]? = some distance → id < s.nextId

namespace Session

variable {s s' : Session} {programs programs' : List Program} {definite : Prop} {p : Program} {n : Nat}

/-- More programs at the same distances take no more for granted. -/
theorem usage_covers (more : ∀ p ∈ programs, p ∈ programs')
    (agree : ∀ p ∈ programs, ∀ id ∈ p.useIds, s'.table[id]? = s.table[id]?) :
    (s'.usage programs' definite).Covers (s.usage programs definite) where
  binds binds := by
    obtain ⟨⟨p, member, used⟩, bound⟩ := binds
    refine ⟨⟨p, more p member, used⟩, fun distance isDistance => bound distance ?_⟩
    rw [← isDistance]
    exact (agree p member _ (Program.mem_useIds used)).symm
  definite := id

namespace Fits

theorem start (console : Console) (debugLevel : Nat) :
    (Session.start console debugLevel).Fits [] definite where
  store := Store.fits_initial
  resolved _ member := absurd member List.not_mem_nil
  below found := by
    have empty {id : Nat} : (∅ : Distances)[id]? = none := Std.TreeMap.getElem?_emptyc
    rw [Session.start, empty] at found
    cases found

/-- Numbers are used up, and notes are made for debugging. -/
theorem onward (fits : s.Fits programs definite) (further : s.nextId ≤ n) (trace : Trace) :
    Fits programs definite { s.traced trace with nextId := n } where
  store := fits.store
  resolved p member id isUse :=
    have ⟨below, agree⟩ := fits.resolved p member id isUse
    ⟨Nat.lt_of_lt_of_le below further, agree⟩
  below found := Nat.lt_of_lt_of_le (fits.below found) further

section
variable (apart : Apart p.useIds s.nextId n) (further : s.nextId ≤ n)
include apart

/-- The uses that a resolution notes are those of new numbers. -/
private theorem table_resolved {id : Nat} (old : id < s.nextId) (trace : Trace) :
    (s.resolved p n trace).table[id]? = s.table[id]? := by
  refine Distances.insertUses_of_ne fun u member same => ?_
  have new := apart.low_le _ (Program.id_of_use member)
  omega

/-- The distances of the new numbers are those of the program alone. -/
private theorem table_program (fits : s.Fits programs definite) {id : Nat} (isUse : id ∈ p.useIds)
    (trace : Trace) : (s.resolved p n trace).table[id]? = p.distances[id]? := by
  refine Distances.insertUses_agree ?_ p.resolution.uses
  rw [Std.TreeMap.getElem?_emptyc]
  cases found : s.table[id]? with
  | none => rfl
  | some distance =>
    have old := fits.below found
    have new := apart.low_le id isUse
    omega

include further

/-- Resolving a program keeps a session fitting, however the resolution ends. -/
theorem resolve (fits : s.Fits programs definite) (trace : Trace) :
    (s.resolved p n trace).Fits programs definite where
  store := fits.store.covered <| usage_covers (fun _ => id) fun p member id isUse =>
    table_resolved apart (fits.resolved p member id isUse).1 trace
  resolved p member id isUse := by
    obtain ⟨below, agree⟩ := fits.resolved p member id isUse
    exact ⟨Nat.lt_of_lt_of_le below further, (table_resolved apart below trace).trans agree⟩
  below {id distance} found := by
    rcases Distances.of_insertUses found with ⟨u, member, rfl, _⟩ | before
    · exact apart.lt_high _ (Program.id_of_use member)
    · exact Nat.lt_of_lt_of_le (fits.below before) further

/-- An accepted program is one more whose uses find their frames. -/
theorem accept (fits : s.Fits programs definite) (accepted : p.resolution.outcome = .ok ())
    (orderly : definite → p.Orderly) (trace : Trace) :
    (s.resolved p n trace).Fits (programs ++ [p]) definite ∧
      Stmt.AllFits ((s.resolved p n trace).usage (programs ++ [p]) definite) [] False False p := by
  have resolved := fits.resolve apart further trace
  have member : p ∈ programs ++ [p] := List.mem_append_right _ List.mem_cons_self
  refine ⟨⟨?_, ?_, resolved.below⟩, ?_⟩
  · exact resolved.store.covered <|
      usage_covers (fun _ => List.mem_append_left _) fun _ _ _ _ => rfl
  · refine List.forall_mem_append.2 ⟨resolved.resolved, ?_⟩
    simp only [List.mem_singleton, forall_eq]
    exact fun id isUse => ⟨apart.lt_high id isUse, table_program apart fits isUse trace⟩
  · -- Alone the program fits with its own distances, which the session has for its uses.
    have covers : ((s.resolved p n trace).usage (programs ++ [p]) definite).Covers
        ⟨p.distances, fun id name => (id, name) ∈ p.uses, definite⟩ := by
      refine ⟨fun binds => ⟨⟨p, member, binds.used⟩, fun distance isDistance => ?_⟩, id⟩
      refine binds.bound distance (Eq.trans ?_ isDistance)
      exact (table_program apart fits (Program.mem_useIds binds.used) trace).symm
    exact Stmt.AllFits.mono covers p (Program.fits accepted apart.nodup orderly)

end

end Fits

end Session

/-! ## Texts that are run -/

/-- A failure that is to be expected. -/
def Failure.Expected (W : Usage) : Failure → Prop
  | .lexical defects => defects ≠ []
  | .grammar e => e.cause ≠ .tooDeep
  | .resolution _ => True
  | .misplaced _ => False
  | .stopped stop => stop.Expected W

/-- What was done left a session that fits, and failed in no other way than is to be expected. -/
def EndsWell {α : Type} (programs : List Program) (definite : Prop) :
    EStateM.Result Failure Session α → Prop
  | .ok _ s => s.Fits programs definite
  | .error failure s => s.Fits programs definite ∧ failure.Expected (s.usage programs definite)

section
variable {programs : List Program} {definite : Prop} {s : Session} {α : Type}

theorem EndsWell.fits {result : EStateM.Result Failure Session α}
    (ends : EndsWell programs definite result) : (stateLeft result).Fits programs definite := by
  cases result with
  | ok a s => exact ends
  | error failure s => exact ends.1

theorem EndsWell.expected {acting : Acting α} {failure : Failure} {s' : Session}
    (ends : EndsWell programs definite (acting s)) (failed : s.after acting = (.error failure, s')) :
    failure.Expected (s'.usage programs definite) := by
  rw [Session.of_after_error failed] at ends
  exact ends.2

theorem EndsWell.bind {β : Type} {acting : Acting α} {f : α → Acting β}
    (first : EndsWell programs definite (acting s))
    (second : ∀ a s', s'.Fits programs definite → EndsWell programs definite (f a s')) :
    EndsWell programs definite ((acting >>= f) s) := by
  cases done : acting s with
  | ok a s' =>
    rw [done] at first
    rw [run_bind_of_ok done]
    exact second a s' first
  | error failure s' =>
    rw [done] at first
    rw [run_bind_of_error done]
    exact first

/-- A safe run with the distances of a session leaves a session that fits. -/
theorem endsWell_perform (fits : s.Fits programs definite) {P : Store → α → Prop}
    {running : Steps Machine → Running α}
    (safe : Safe (s.usage programs definite) s.machine.store P
      (running (Access.distances s.table).steps)) :
    EndsWell programs definite (Acting.perform running s) := by
  obtain ⟨machine, table, nextId⟩ := s
  have ends := safe machine (.refl _) fits.store
  rw [Acting.perform]
  cases ran : running (Access.distances table).steps machine with
  | ok a m =>
    rw [ran] at ends
    obtain ⟨_, store, _⟩ := ends
    exact ⟨store, fits.resolved, fits.below⟩
  | error stop m =>
    rw [ran] at ends
    obtain ⟨_, store, expected⟩ := ends
    exact ⟨⟨store, fits.resolved, fits.below⟩, expected⟩

/-- The result of a safe run with the distances of a session is as wanted. -/
theorem Safe.wanted {α : Type} (fits : s.Fits programs definite) {P : Store → α → Prop}
    {running : Steps Machine → Running α}
    (safe : Safe (s.usage programs definite) s.machine.store P
      (running (Access.distances s.table).steps)) {a : α}
    (done : Acting.perform running s = .ok a s') : P s'.machine.store a := by
  obtain ⟨ran, _⟩ := Acting.perform_ok done
  have ends := safe s.machine (.refl _) fits.store
  rw [ran] at ends
  exact ends.2.2

/-- An accepted program is resolved and run. -/
theorem endsWell_accepted {p : Program} {n : Nat} (fits : s.Fits programs definite)
    (apart : Apart p.useIds s.nextId n) (further : s.nextId ≤ n)
    (accepted : p.resolution.outcome = .ok ()) (orderly : definite → p.Orderly) (trace : Trace)
    (fuel : Nat) (a : α) :
    EndsWell (programs ++ [p]) definite ((do
      Acting.install p.resolution
      Acting.perform fun steps => interpret steps fuel p
      return a) { s.traced trace with nextId := n }) := by
  obtain ⟨trace', installed⟩ := Acting.install_eq p.resolution { s.traced trace with nextId := n }
  have resolved : Acting.install p.resolution { s.traced trace with nextId := n } =
      .ok () (s.resolved p n trace') := by
    rw [installed, accepted]
    rfl
  obtain ⟨fits', allFit⟩ := fits.accept apart further accepted orderly trace'
  rw [run_bind_of_ok resolved]
  exact (endsWell_perform fits' (safe_interpret fuel fits'.store.root allFit)).bind
    fun _ _ fitsAfter => fitsAfter

/-- A program that is refused is not run. -/
theorem endsWell_refused {p : Program} {n : Nat} (fits : s.Fits programs definite)
    (apart : Apart p.useIds s.nextId n) (further : s.nextId ≤ n) (placed : Stmt.AllWellPlaced p)
    {refusal : Refusal} (refused : p.resolution.outcome = .error refusal) (trace : Trace)
    (goesOn : Unit → Acting α) :
    EndsWell programs definite
      ((Acting.install p.resolution >>= goesOn) { s.traced trace with nextId := n }) := by
  obtain ⟨trace', installed⟩ := Acting.install_eq p.resolution { s.traced trace with nextId := n }
  have fits' := fits.resolve apart further trace'
  cases refusal with
  | error e =>
    have stopped : Acting.install p.resolution { s.traced trace with nextId := n } =
        .error (.resolution e) (s.resolved p n trace') := by
      rw [installed, refused]
      rfl
    rw [run_bind_of_error stopped]
    exact ⟨fits', trivial⟩
  | misplaced kind => exact absurd refused (Program.resolution_proper placed kind)

/-- However it is noted that a text is read, the text is run as a program that is accepted, or it fails
in a way that is to be expected. -/
theorem endsWell_readAs {source : String} {reading : Acting Program}
    (readAs : Acting.ReadAs s source (reading s)) (fits : s.Fits programs definite)
    (orderly : definite → ∀ p ∈ s.accepted? source, p.Orderly) (fuel : Nat) (a : Program → α) :
    EndsWell (programs ++ (s.accepted? source).toList) definite ((do
      let p ← reading
      Acting.install p.resolution
      Acting.perform fun steps => interpret steps fuel p
      return a p) s) := by
  generalize read : reading s = result at readAs
  cases readAs with
  | @defects defects scanned =>
    have none : s.accepted? source = none := by rw [Session.accepted?, scanned]
    rw [run_bind_of_error read, none, Option.toList_none, List.append_nil]
    exact ⟨fits, tokenize_ne_nil scanned⟩
  | @refused stream e n scanned outcome trace =>
    have none : s.accepted? source = none := by
      simp only [Session.accepted?, scanned, outcome]
    have further := stream.nextId_le_program s.nextId
    rw [outcome] at further
    rw [run_bind_of_error read, none, Option.toList_none, List.append_nil]
    exact ⟨fits.onward further trace, Stream.program_ne_tooDeep (tokenize_stop scanned) outcome⟩
  | @program stream p n scanned outcome trace =>
    have isStop := tokenize_stop scanned
    obtain ⟨apart, further⟩ := Grammar.apart_of_program isStop outcome
    rw [run_bind_of_ok read]
    cases resolved : p.resolution.outcome with
    | error refusal =>
      have none : s.accepted? source = none := by
        simp only [Session.accepted?, scanned, outcome, resolved]
        rfl
      rw [none, Option.toList_none, List.append_nil]
      exact endsWell_refused fits apart further (Stream.wellPlaced_program isStop outcome) resolved
        trace _
    | ok u =>
      have some : s.accepted? source = some p := by
        simp only [Session.accepted?, scanned, outcome, resolved]
        rfl
      rw [some]
      exact endsWell_accepted fits apart further resolved (fun isDefinite => orderly isDefinite p some)
        trace fuel (a p)

theorem endsWell_run {source : String} (fits : s.Fits programs definite)
    (orderly : definite → ∀ p ∈ s.accepted? source, p.Orderly) (fuel : Nat) :
    EndsWell (programs ++ (s.accepted? source).toList) definite (Acting.run fuel source s) :=
  endsWell_readAs (Acting.parse_readAs s source) fits orderly fuel List.length

theorem endsWell_runQuietly {source : String} (fits : s.Fits programs definite)
    (orderly : definite → ∀ p ∈ s.accepted? source, p.Orderly) (fuel : Nat) :
    EndsWell (programs ++ (s.accepted? source).toList) definite
      (Acting.runQuietly fuel source s) := by
  have ends := endsWell_readAs (Acting.read_readAs s source) fits orderly fuel fun _ => ()
  simp only [bind_pure_unit, bind_assoc] at ends
  exact ends

/-- A session after any texts fits, with the programs among them. -/
theorem Session.Fits.afterRuns {runs : List (Nat × String)} (fits : s.Fits programs definite)
    (orderly : definite → ∀ p ∈ s.programs runs, p.Orderly) :
    (s.afterRuns runs).Fits (programs ++ s.programs runs) definite := by
  induction runs generalizing s programs with
  | nil =>
    rw [Session.programs, List.append_nil]
    exact fits
  | cons first rest ih =>
    obtain ⟨fuel, source⟩ := first
    have ends := endsWell_run fits (fun isDefinite p isProgram => orderly isDefinite p
      (List.mem_append_left _ (Option.mem_toList.2 isProgram))) fuel
    have later := ih ends.fits
    rw [← Session.after_eq] at later
    rw [Session.programs, ← List.append_assoc]
    exact later fun isDefinite p isProgram => orderly isDefinite p (List.mem_append_right _ isProgram)

end

section
variable (console : Console) (debugLevel : Nat) {runs : List (Nat × String)} {definite : Prop}

theorem Session.fits_afterRuns
    (orderly : definite → ∀ p ∈ (start console debugLevel).programs runs, p.Orderly) :
    ((start console debugLevel).afterRuns runs).Fits ((start console debugLevel).programs runs)
      definite :=
  (Fits.start console debugLevel).afterRuns orderly

/-- A text that is run after others ends well, with the programs among all of them. -/
theorem endsWell_afterRuns {fuel : Nat} {source : String} (orderly : definite →
      ∀ p ∈ (Session.start console debugLevel).programs (runs ++ [(fuel, source)]), p.Orderly) :
    EndsWell ((Session.start console debugLevel).programs (runs ++ [(fuel, source)])) definite
      (Acting.run fuel source ((Session.start console debugLevel).afterRuns runs)) := by
  rw [Session.programs_concat] at orderly ⊢
  have fits := Session.fits_afterRuns console debugLevel fun isDefinite p isProgram =>
    orderly isDefinite p (List.mem_append_left _ isProgram)
  exact endsWell_run fits (fun isDefinite p isProgram => orderly isDefinite p
    (List.mem_append_right _ (Option.mem_toList.2 isProgram))) fuel

end

end Lox
