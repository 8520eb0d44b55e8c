import Mathlib.Data.List.Forall2
import Mathlib.Data.List.Nodup
import Lox.Proofs.Scopes.Walk
import Lox.Proofs.Trees.Uses

/-!
# The sites of uses

Every use of a name stands in scopes that the tree alone tells. What a walk notes of a use is the
label of the scope at the noted distance among those around the site of the use.
-/

namespace Lox

variable {κ : Type} (label : ScopeNode → κ)

mutual

/-- The numbers of the uses in an expression, with the labels of the scopes around each. -/
def Expr.sites (around : List κ) : Expr → List (Nat × List κ)
  | .literal .. | .misplaced _ => []
  | .grouping _ inner => inner.sites around
  | .unary _ _ right => right.sites around
  | .binary _ left _ right => left.sites around ++ right.sites around
  | .logical _ left _ right => left.sites around ++ right.sites around
  | .step _ left _ => left.sites around
  | .reference id _ => [(id, around)]
  | .assignment id _ value => value.sites around ++ [(id, around)]
  | .call _ callee arguments _ => callee.sites around ++ Expr.allSites around arguments
  | .lambda _ keyword params body name =>
    Stmt.allSites (label (.function keyword params body name) :: around) body

/-- The sites of the uses in expressions. -/
def Expr.allSites (around : List κ) : List Expr → List (Nat × List κ)
  | [] => []
  | e :: rest => e.sites around ++ Expr.allSites around rest

/-- The sites of the uses in an optional expression. -/
def Expr.optionSites (around : List κ) : Option Expr → List (Nat × List κ)
  | none => []
  | some e => e.sites around

/-- The numbers of the uses in a statement, with the labels of the scopes around each. -/
def Stmt.sites (around : List κ) : Stmt → List (Nat × List κ)
  | .expression e => e.sites around
  | .declaration _ initializer => Expr.optionSites around initializer
  | .block statements => Stmt.allSites (label (.block statements) :: around) statements
  | .ifElse condition thenBranch elseBranch =>
    condition.sites around ++ (thenBranch.sites around ++ Stmt.optionSites around elseBranch)
  | .whileLoop condition body increment =>
    condition.sites around ++ (body.sites around ++ Expr.optionSites around increment)
  | .breakLoop _ | .continueLoop _ | .misplaced _ => []
  | .returnValue _ value => Expr.optionSites around value

/-- The sites of the uses in statements. -/
def Stmt.allSites (around : List κ) : List Stmt → List (Nat × List κ)
  | [] => []
  | s :: rest => s.sites around ++ Stmt.allSites around rest

/-- The sites of the uses in an optional statement. -/
def Stmt.optionSites (around : List κ) : Option Stmt → List (Nat × List κ)
  | none => []
  | some s => s.sites around

end

/-! ## The numbers of sites -/

mutual

theorem Expr.ids_sites (around : List κ) (e : Expr) :
    (e.sites label around).map Prod.fst = e.useIds := by
  cases e with
  | literal | misplaced | reference => rfl
  | grouping _ inner | unary _ _ inner | step _ inner _ => exact Expr.ids_sites around inner
  | binary _ left _ right | logical _ left _ right =>
    simp [Expr.sites, Expr.useIds, Expr.ids_sites around left, Expr.ids_sites around right]
  | assignment _ _ value => simp [Expr.sites, Expr.useIds, Expr.ids_sites around value]
  | call _ callee arguments _ =>
    simp [Expr.sites, Expr.useIds, Expr.ids_sites around callee, Expr.ids_allSites around arguments]
  | lambda _ _ _ body _ => exact Stmt.ids_allSites _ body

theorem Expr.ids_allSites (around : List κ) (es : List Expr) :
    (Expr.allSites label around es).map Prod.fst = Expr.allUseIds es := by
  cases es with
  | nil => rfl
  | cons e rest =>
    simp [Expr.allSites, Expr.allUseIds, Expr.ids_sites around e, Expr.ids_allSites around rest]

theorem Expr.ids_optionSites (around : List κ) (e? : Option Expr) :
    (Expr.optionSites label around e?).map Prod.fst = Expr.optionUseIds e? := by
  cases e? with
  | none => rfl
  | some e => exact Expr.ids_sites around e

theorem Stmt.ids_sites (around : List κ) (s : Stmt) :
    (s.sites label around).map Prod.fst = s.useIds := by
  cases s with
  | expression e => exact Expr.ids_sites around e
  | declaration _ initializer => exact Expr.ids_optionSites around initializer
  | block statements => exact Stmt.ids_allSites _ statements
  | ifElse condition thenBranch elseBranch =>
    simp [Stmt.sites, Stmt.useIds, Expr.ids_sites around condition,
      Stmt.ids_sites around thenBranch, Stmt.ids_optionSites around elseBranch]
  | whileLoop condition body increment =>
    simp [Stmt.sites, Stmt.useIds, Expr.ids_sites around condition,
      Stmt.ids_sites around body, Expr.ids_optionSites around increment]
  | breakLoop | continueLoop | misplaced => rfl
  | returnValue _ value => exact Expr.ids_optionSites around value

theorem Stmt.ids_allSites (around : List κ) (ss : List Stmt) :
    (Stmt.allSites label around ss).map Prod.fst = Stmt.allUseIds ss := by
  cases ss with
  | nil => rfl
  | cons s rest =>
    simp [Stmt.allSites, Stmt.allUseIds, Stmt.ids_sites around s, Stmt.ids_allSites around rest]

theorem Stmt.ids_optionSites (around : List κ) (s? : Option Stmt) :
    (Stmt.optionSites label around s?).map Prod.fst = Stmt.optionUseIds s? := by
  cases s? with
  | none => rfl
  | some s => exact Stmt.ids_sites around s

end

/-! ## The scopes at sites -/

/-- The numbers of the uses inside of what is entered. -/
def ScopeNode.useIds : ScopeNode → List Nat
  | .block statements => Stmt.allUseIds statements
  | .function _ _ body _ => Stmt.allUseIds body

/-- A use stands inside what is entered around it, short of what is around them all. -/
def Inside (around : List κ) (site : Nat × List κ) : Prop :=
  ∃ inner, site.2 = inner ++ around ∧
    ∀ owner ∈ inner, ∃ node : ScopeNode, owner = label node ∧ site.1 ∈ node.useIds

variable {label} in
theorem Inside.outwards {around : List κ} {site : Nat × List κ} {node : ScopeNode}
    (inside : Inside label (label node :: around) site) (within : site.1 ∈ node.useIds) :
    Inside label around site := by
  obtain ⟨inner, isSite, owners⟩ := inside
  refine ⟨inner ++ [label node], by rw [isSite, List.append_assoc]; rfl, fun owner member => ?_⟩
  rcases List.mem_append.1 member with member | last
  · exact owners owner member
  · exact ⟨node, List.mem_singleton.1 last, within⟩

mutual

theorem Expr.inside (e : Expr) (around : List κ) :
    ∀ site ∈ e.sites label around, Inside label around site := by
  cases e with
  | literal | misplaced => exact fun _ member => absurd member List.not_mem_nil
  | grouping _ inner | unary _ _ inner | step _ inner _ => exact Expr.inside inner around
  | binary _ left _ right | logical _ left _ right =>
    exact List.forall_mem_append.2 ⟨Expr.inside left around, Expr.inside right around⟩
  | reference id _ =>
    exact List.forall_mem_singleton.2 ⟨[], rfl, fun _ member => absurd member List.not_mem_nil⟩
  | assignment id _ value =>
    refine List.forall_mem_append.2 ⟨Expr.inside value around, ?_⟩
    exact List.forall_mem_singleton.2 ⟨[], rfl, fun _ member => absurd member List.not_mem_nil⟩
  | call _ callee arguments _ =>
    exact List.forall_mem_append.2 ⟨Expr.inside callee around, Expr.all_inside arguments around⟩
  | lambda _ keyword params body name =>
    intro site member
    refine (Stmt.all_inside body _ site member).outwards ?_
    rw [ScopeNode.useIds, ← Stmt.ids_allSites label _ body]
    exact List.mem_map_of_mem member

theorem Expr.all_inside (es : List Expr) (around : List κ) :
    ∀ site ∈ Expr.allSites label around es, Inside label around site := by
  cases es with
  | nil => exact fun _ member => absurd member List.not_mem_nil
  | cons e rest =>
    exact List.forall_mem_append.2 ⟨Expr.inside e around, Expr.all_inside rest around⟩

theorem Expr.option_inside (e? : Option Expr) (around : List κ) :
    ∀ site ∈ Expr.optionSites label around e?, Inside label around site := by
  cases e? with
  | none => exact fun _ member => absurd member List.not_mem_nil
  | some e => exact Expr.inside e around

theorem Stmt.inside (s : Stmt) (around : List κ) :
    ∀ site ∈ s.sites label around, Inside label around site := by
  cases s with
  | expression e => exact Expr.inside e around
  | declaration _ initializer => exact Expr.option_inside initializer around
  | block statements =>
    intro site member
    refine (Stmt.all_inside statements _ site member).outwards ?_
    rw [ScopeNode.useIds, ← Stmt.ids_allSites label _ statements]
    exact List.mem_map_of_mem member
  | ifElse condition thenBranch elseBranch =>
    refine List.forall_mem_append.2 ⟨Expr.inside condition around, ?_⟩
    exact List.forall_mem_append.2
      ⟨Stmt.inside thenBranch around, Stmt.option_inside elseBranch around⟩
  | whileLoop condition body increment =>
    refine List.forall_mem_append.2 ⟨Expr.inside condition around, ?_⟩
    exact List.forall_mem_append.2
      ⟨Stmt.inside body around, Expr.option_inside increment around⟩
  | breakLoop | continueLoop | misplaced => exact fun _ member => absurd member List.not_mem_nil
  | returnValue _ value => exact Expr.option_inside value around

theorem Stmt.all_inside (ss : List Stmt) (around : List κ) :
    ∀ site ∈ Stmt.allSites label around ss, Inside label around site := by
  cases ss with
  | nil => exact fun _ member => absurd member List.not_mem_nil
  | cons s rest =>
    exact List.forall_mem_append.2 ⟨Stmt.inside s around, Stmt.all_inside rest around⟩

theorem Stmt.option_inside (s? : Option Stmt) (around : List κ) :
    ∀ site ∈ Stmt.optionSites label around s?, Inside label around site := by
  cases s? with
  | none => exact fun _ member => absurd member List.not_mem_nil
  | some s => exact Stmt.inside s around

end

/-! ## The sites of what is noted -/

/-- The labels of scopes. -/
def Scopes.labels (scopes : Scopes κ) : List κ := scopes.map Prod.fst

namespace Scopes

theorem labels_declare (name : Token) (readiness : Readiness) (scopes : Scopes κ) :
    (scopes.declare name readiness).labels = scopes.labels := by
  cases scopes <;> rfl

theorem labels_declareAll (params : List Token) (scopes : Scopes κ) :
    (scopes.declareAll params).labels = scopes.labels := by
  induction params generalizing scopes with
  | nil => rfl
  | cons name rest ih => exact (ih _).trans (labels_declare name .ready scopes)

/-- The scope that a name is found in has its label at the distance. -/
theorem label_of_find {name : String} {scopes : Scopes κ} {distance : Nat} {owner : κ}
    {readiness : Readiness} (found : scopes.find name = some (distance, owner, readiness)) :
    scopes.labels[distance]? = some owner := by
  induction scopes generalizing distance with
  | nil => cases found
  | cons head outer ih =>
    obtain ⟨label, scope⟩ := head
    simp only [find] at found
    cases inside : scope[name]? with
    | some readiness' =>
      simp only [inside, Option.some.injEq, Prod.mk.injEq] at found
      obtain ⟨rfl, rfl, _⟩ := found
      rfl
    | none =>
      simp only [inside, Option.map_eq_some_iff] at found
      obtain ⟨⟨distance', rest⟩, further, same⟩ := found
      cases same
      exact ih further

end Scopes

mutual

theorem Stmt.labels_after (scopes : Scopes κ) (s : Stmt) :
    (s.after scopes).labels = scopes.labels := by
  cases s with
  | declaration name initializer =>
    cases initializer <;> simp [Stmt.after, Scopes.labels_declare]
  | ifElse _ thenBranch elseBranch =>
    rw [Stmt.after, Stmt.labels_optionAfter _ elseBranch, Stmt.labels_after _ thenBranch]
  | whileLoop _ body _ => rw [Stmt.after, Stmt.labels_after _ body]
  | _ => simp [Stmt.after]

theorem Stmt.labels_optionAfter (scopes : Scopes κ) (s? : Option Stmt) :
    (Stmt.optionAfter scopes s?).labels = scopes.labels := by
  cases s? with
  | none => rfl
  | some s => exact Stmt.labels_after scopes s

end

/-- A note is about the use at a site: it has the label at its distance among the scopes there, short
of what is around them all. -/
def NotedAt (outer : List κ) (note : Note κ) (site : Nat × List κ) : Prop :=
  note.use.id = site.1 ∧
    ∃ inner, site.2 = inner ++ outer ∧ inner[note.use.distance]? = some note.owner

/-- The notes are about some of the sites, in their order. -/
def Findings.At (outer : List κ) (found : Findings κ) (sites : List (Nat × List κ)) : Prop :=
  ∃ noted, noted.Sublist sites ∧ List.Forall₂ (NotedAt outer) found.notes noted

namespace Findings

variable {outer : List κ} {found found' : Findings κ} {sites sites' : List (Nat × List κ)}

theorem At.none (noNotes : found.notes = []) : found.At outer sites :=
  ⟨[], List.nil_sublist _, by rw [noNotes]; exact .nil⟩

theorem At.andThen (first : found.At outer sites) (second : found'.At outer sites') :
    (found.andThen found').At outer (sites ++ sites') := by
  obtain ⟨noted, within, about⟩ := first
  obtain ⟨noted', within', about'⟩ := second
  unfold Findings.andThen
  split
  · exact ⟨noted, within.trans (List.sublist_append_left _ _), about⟩
  · exact ⟨noted ++ noted', within.append within', List.rel_append about about'⟩

/-- Each note is about one of the sites. -/
theorem At.site (about : found.At outer sites) {note : Note κ} (noted : note ∈ found.notes) :
    ∃ site ∈ sites, NotedAt outer note site := by
  obtain ⟨some, within, about⟩ := about
  have among : ∃ site ∈ some, NotedAt outer note site := by
    clear within
    generalize found.notes = notes at about noted
    induction about with
    | nil => cases noted
    | cons isSite _ ih =>
      rcases List.mem_cons.1 noted with rfl | later
      · exact ⟨_, List.mem_cons_self, isSite⟩
      · obtain ⟨site, member, isSite⟩ := ih later
        exact ⟨site, List.mem_cons_of_mem _ member, isSite⟩
  obtain ⟨site, member, isSite⟩ := among
  exact ⟨site, within.subset member, isSite⟩

/-- The numbers of what is noted stand in the order of the sites. -/
theorem At.ids (about : found.At outer sites) :
    (found.notes.map (·.use.id)).Sublist (sites.map Prod.fst) := by
  obtain ⟨some, within, about⟩ := about
  have same : found.notes.map (·.use.id) = some.map Prod.fst := by
    clear within
    generalize found.notes = notes at about
    induction about with
    | nil => rfl
    | cons isSite _ ih => rw [List.map_cons, List.map_cons, isSite.1, ih]
  rw [same]
  exact within.map Prod.fst

/-- What is noted is among the uses with sites. -/
theorem At.inside (about : found.At outer sites) {ids : List Nat}
    (same : sites.map Prod.fst = ids) : ∀ note ∈ found.notes, note.use.id ∈ ids := by
  intro note noted
  obtain ⟨site, member, isSite, _⟩ := about.site noted
  rw [isSite, ← same]
  exact List.mem_map_of_mem member

end Findings

theorem Scopes.note_at (scopes : Scopes κ) (outer : List κ) (id : Nat) (form : UseForm)
    (name : Token) : (scopes.note id form name).At outer [(id, scopes.labels ++ outer)] := by
  unfold Scopes.note
  split
  · next found =>
    exact ⟨_, List.Sublist.refl _, .cons ⟨rfl, _, rfl, label_of_find found⟩ .nil⟩
  · exact .none rfl

theorem Scopes.checkReady_notes (scopes : Scopes κ) (name : Token) :
    (scopes.checkReady name).notes = [] := by
  unfold Scopes.checkReady
  split <;> rfl

section
variable (outer : List κ)

mutual

theorem Expr.walk_at (e : Expr) (scopes : Scopes κ) (loops functions : Nat) :
    (e.walk label scopes loops functions).At outer (e.sites label (scopes.labels ++ outer)) := by
  cases e with
  | literal => exact .none rfl
  | misplaced => exact .none rfl
  | grouping _ inner | unary _ _ inner | step _ inner _ =>
    exact Expr.walk_at inner scopes loops functions
  | binary _ left _ right | logical _ left _ right =>
    exact (Expr.walk_at left scopes loops functions).andThen
      (Expr.walk_at right scopes loops functions)
  | reference id name =>
    have nothing : (scopes.checkReady name).At outer [] := .none (scopes.checkReady_notes name)
    exact nothing.andThen (scopes.note_at outer id .reference name)
  | assignment id name value =>
    exact (Expr.walk_at value scopes loops functions).andThen
      (scopes.note_at outer id .assignment name)
  | call _ callee arguments _ =>
    exact (Expr.walk_at callee scopes loops functions).andThen
      (Expr.walkAll_at arguments scopes loops functions)
  | lambda _ keyword params body name =>
    have inner := Stmt.walkAll_at body
      (Scopes.declareAll params ((label (.function keyword params body name), ∅) :: scopes)) 0
      (functions + 1)
    rw [Scopes.labels_declareAll] at inner
    exact inner

theorem Expr.walkAll_at (es : List Expr) (scopes : Scopes κ) (loops functions : Nat) :
    (Expr.walkAll label scopes loops functions es).At outer
      (Expr.allSites label (scopes.labels ++ outer) es) := by
  cases es with
  | nil => exact .none rfl
  | cons e rest =>
    exact (Expr.walk_at e scopes loops functions).andThen
      (Expr.walkAll_at rest scopes loops functions)

theorem Expr.walkOption_at (e? : Option Expr) (scopes : Scopes κ) (loops functions : Nat) :
    (Expr.walkOption label scopes loops functions e?).At outer
      (Expr.optionSites label (scopes.labels ++ outer) e?) := by
  cases e? with
  | none => exact .none rfl
  | some e => exact Expr.walk_at e scopes loops functions

theorem Stmt.walk_at (s : Stmt) (scopes : Scopes κ) (loops functions : Nat) :
    (s.walk label scopes loops functions).At outer (s.sites label (scopes.labels ++ outer)) := by
  cases s with
  | expression e => exact Expr.walk_at e scopes loops functions
  | declaration name initializer =>
    cases initializer with
    | none => exact .none rfl
    | some e =>
      have inner := Expr.walk_at e (scopes.declare name e.readiness) loops functions
      rw [Scopes.labels_declare] at inner
      exact inner
  | block statements =>
    exact Stmt.walkAll_at statements ((label (.block statements), ∅) :: scopes) loops functions
  | ifElse condition thenBranch elseBranch =>
    have other := Stmt.walkOption_at elseBranch (thenBranch.after scopes) loops functions
    rw [Stmt.labels_after] at other
    exact (Expr.walk_at condition scopes loops functions).andThen
      ((Stmt.walk_at thenBranch scopes loops functions).andThen other)
  | whileLoop condition body increment =>
    have onward := Expr.walkOption_at increment (body.after scopes) loops functions
    rw [Stmt.labels_after] at onward
    exact (Expr.walk_at condition scopes loops functions).andThen
      ((Stmt.walk_at body scopes (loops + 1) functions).andThen onward)
  | breakLoop | continueLoop =>
    rw [Stmt.walk]
    split
    · exact .none rfl
    · exact .none rfl
  | returnValue _ value =>
    rw [Stmt.walk]
    split
    · exact .none rfl
    · exact Expr.walkOption_at value scopes loops functions
  | misplaced => exact .none rfl

theorem Stmt.walkAll_at (ss : List Stmt) (scopes : Scopes κ) (loops functions : Nat) :
    (Stmt.walkAll label scopes loops functions ss).At outer
      (Stmt.allSites label (scopes.labels ++ outer) ss) := by
  cases ss with
  | nil => exact .none rfl
  | cons s rest =>
    have others := Stmt.walkAll_at rest (s.after scopes) loops functions
    rw [Stmt.labels_after] at others
    exact (Stmt.walk_at s scopes loops functions).andThen others

theorem Stmt.walkOption_at (s? : Option Stmt) (scopes : Scopes κ) (loops functions : Nat) :
    (Stmt.walkOption label scopes loops functions s?).At outer
      (Stmt.optionSites label (scopes.labels ++ outer) s?) := by
  cases s? with
  | none => exact .none rfl
  | some s => exact Stmt.walk_at s scopes loops functions

end

end

/-- The sites of the uses in a program, with the labels of what is around the program. -/
def Program.sites (outer : List κ) (p : Program) : List (Nat × List κ) :=
  Stmt.allSites label outer p

theorem Program.ids_sites (outer : List κ) (p : Program) :
    (Program.sites label outer p).map Prod.fst = p.useIds :=
  Stmt.ids_allSites label outer p

/-- A use stands at one site, if all uses are different. -/
theorem Program.around_unique {label : ScopeNode → κ} {outer : List κ} {p : Program}
    (nodup : p.useIds.Nodup) {id : Nat} {around around' : List κ}
    (isSite : (id, around) ∈ Program.sites label outer p)
    (isSite' : (id, around') ∈ Program.sites label outer p) : around = around' := by
  rw [← Program.ids_sites label outer p] at nodup
  exact (Prod.mk.inj (List.inj_on_of_nodup_map nodup isSite isSite' rfl)).2

/-- What a walk over a program notes is about its sites. -/
theorem Program.findings_at (outer : List κ) (p : Program) :
    (Program.findings label p).At outer (Program.sites label outer p) :=
  Stmt.walkAll_at label outer p [] 0 0

/-- What is noted of a program are different uses in it, if all of its uses are. -/
theorem Program.nodup_notes {p : Program} (nodup : p.useIds.Nodup) :
    ((Program.findings label p).notes.map (·.use.id)).Nodup := by
  have ids := (Program.findings_at label [] p).ids
  rw [Program.ids_sites] at ids
  exact ids.nodup nodup

/-- What is noted of a use stands at its site, and belongs to a node that the use is inside of. -/
theorem Program.noted {p : Program} (outer : List κ) {note : Note κ}
    (noted : note ∈ (Program.findings label p).notes) :
    ∃ around, (note.use.id, around) ∈ Program.sites label outer p ∧
      around[note.use.distance]? = some note.owner ∧
      ∃ node, note.owner = label node ∧ note.use.id ∈ node.useIds := by
  obtain ⟨⟨id, around⟩, isSite, isId, inner, isAround, owner⟩ :=
    (Program.findings_at label outer p).site noted
  obtain ⟨inner', isAround', owners⟩ := Stmt.all_inside label p outer _ isSite
  cases List.append_cancel_right (isAround.symm.trans isAround')
  dsimp only at isId isAround
  subst isId isAround
  obtain ⟨inside, _⟩ := List.getElem?_eq_some_iff.1 owner
  refine ⟨_, isSite, ?_, owners _ (List.mem_of_getElem? owner)⟩
  rwa [List.getElem?_append_left inside]

/-- Uses that are noted are uses in the program. -/
theorem Program.id_of_use {p : Program} {u : Use} (member : u ∈ p.resolution.uses) :
    u.id ∈ p.useIds := by
  rw [Program.uses_eq] at member
  obtain ⟨note, noted, rfl⟩ := List.mem_map.1 member
  obtain ⟨around, isSite, _⟩ := Program.noted unlabelled [] noted
  rw [← Program.ids_sites unlabelled [] p]
  exact List.mem_map_of_mem isSite

end Lox
