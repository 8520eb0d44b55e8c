import Std.Data.TreeMap
import Lox.Text.Quoted
import Lox.Value.Basic

/-!
# Variables

A store holds frames of variables. A variable is looked up from frame to frame along an
environment, or in the one frame at a given distance.
-/

namespace Lox

/-- The variables of a frame. -/
abbrev Bindings := Std.TreeMap String Value

/-- All frames that were ever made. -/
structure Store where
  frames : Array Bindings

/-- Why a variable has no value. -/
inductive Missing
  /-- No frame of the environment has it. -/
  | undefined (name : String)
  /-- The frame at the distance does not have it. -/
  | uninitialized (name : String)
  /-- There is no frame at the distance: it is by so many greater than the least such one. -/
  | noFrame (excess : Nat)

/-- The frame at a distance. -/
def Env.frameAt (e : Env) (distance : Nat) : Except Missing Ref :=
  match e.chain[distance]? with
  | some r => .ok r
  | none => .error (.noFrame (distance - e.chain.length))

namespace Store

/-- The store without any frames. -/
def empty : Store := ⟨#[]⟩

/-- The variables of a frame. -/
def bindings (s : Store) (r : Ref) : Bindings := s.frames[r]?.getD ∅

/-- Gives a variable of a frame a value. -/
def bind (s : Store) (r : Ref) (name : String) (v : Value) : Store :=
  ⟨s.frames.modify r (·.insert name v)⟩

/-- The environment of the next frame, inside the given ones. -/
def nextEnv (s : Store) (outer : List Ref) : Env := ⟨s.frames.size, outer⟩

/-- Adds a frame without variables. -/
def grow (s : Store) : Store := ⟨s.frames.push ∅⟩

/-- Declares a variable in the innermost frame. -/
def define (s : Store) (e : Env) (name : String) (v : Value) : Store := s.bind e.frame name v

/-- Declares variables in the innermost frame, one after the other. -/
def defineAll (s : Store) (e : Env) (entries : List (String × Value)) : Store :=
  entries.foldl (fun s x => s.define e x.1 x.2) s

/-- The nearest frame that has a variable. -/
def owner (s : Store) (e : Env) (name : String) : Except Missing Ref :=
  match e.chain.find? fun r => (s.bindings r).contains name with
  | some r => .ok r
  | none => .error (.undefined name)

/-- The frame at a distance, if it has a variable. -/
def ownerAt (s : Store) (e : Env) (distance : Nat) (name : String) : Except Missing Ref := do
  let r ← e.frameAt distance
  if (s.bindings r).contains name then return r else .error (.uninitialized name)

/-- The value of a variable in the nearest frame that has it. -/
def get (s : Store) (e : Env) (name : String) : Except Missing Value :=
  match e.chain.findSome? fun r => (s.bindings r)[name]? with
  | some v => .ok v
  | none => .error (.undefined name)

/-- The value of a variable in the frame at a distance. -/
def getAt (s : Store) (e : Env) (distance : Nat) (name : String) : Except Missing Value := do
  let r ← e.frameAt distance
  match (s.bindings r)[name]? with
  | some v => return v
  | none => .error (.uninitialized name)

/-- Gives a variable a value in the nearest frame that has it. -/
def assign (s : Store) (e : Env) (name : String) (v : Value) : Except Missing Store :=
  (s.owner e name).map (s.bind · name v)

/-- Gives a variable a value in the frame at a distance. -/
def assignAt (s : Store) (e : Env) (distance : Nat) (name : String) (v : Value) :
    Except Missing Store :=
  (s.ownerAt e distance name).map (s.bind · name v)

/-- An environment by its depth and the variables of its innermost frame, in alphabetical order. -/
def description (s : Store) (e : Env) : String :=
  let names := (s.bindings e.frame).keys.map Text.quoted
  "<Environment depth=" ++ toString e.depth ++ " names=[" ++ ", ".intercalate names ++ "]>"

/-! ## What each change leaves in the frames -/

theorem bindings_bind (s : Store) (r r' : Ref) (name : String) (v : Value) :
    (s.bind r name v).bindings r' =
      if r = r' ∧ r < s.frames.size then (s.bindings r).insert name v else s.bindings r' := by
  by_cases same : r = r'
  · subst same
    by_cases inside : r < s.frames.size
    · simp [bindings, bind, inside, Array.getElem_modify]
    · simp [bindings, bind, inside]
  · simp [bindings, bind, Array.getElem?_modify, same]

theorem bindings_grow (s : Store) (r : Ref) : s.grow.bindings r = s.bindings r := by
  by_cases new : r = s.frames.size
  · subst new; simp [bindings, grow]
  · simp [bindings, grow, Array.getElem?_push, new]

theorem size_bind (s : Store) (r : Ref) (name : String) (v : Value) :
    (s.bind r name v).frames.size = s.frames.size := by
  simp [bind]

theorem size_grow (s : Store) : s.grow.frames.size = s.frames.size + 1 := by
  simp [grow]

/-! ## The global frame -/

/-- The store with the global frame and the native functions in it. -/
def initial : Store :=
  let names := [Native.clock, .print, .input]
  ⟨#[names.foldl (fun b n => b.insert n.name (.native n)) ∅]⟩

/-- The global variables without the native functions that still have their own names. -/
def globals (s : Store) : List (String × Value) :=
  (s.bindings Env.global.frame).toList.filter fun (name, v) =>
    match v with
    | .native n => name != n.name
    | _ => true

end Store

end Lox
