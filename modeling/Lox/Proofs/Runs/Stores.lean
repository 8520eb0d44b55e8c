import Lox.Proofs.Runs.Keeps
import Lox.Run.Machine

/-!
# What steps leave in the store

Most steps of a machine leave the store as it is, or at least as many frames in it.
-/

namespace Lox

/-- Two machines have the same frames with the same variables. -/
def Machine.SameStore (m m' : Machine) : Prop := m'.store = m.store

instance : Std.Refl Machine.SameStore := ⟨fun _ => rfl⟩

instance : Trans Machine.SameStore Machine.SameStore Machine.SameStore := ⟨fun first second =>
  Eq.trans second first⟩

/-- Two machines have as many frames. -/
def Machine.AsMany (m m' : Machine) : Prop := m'.store.frames.size = m.store.frames.size

instance : Std.Refl Machine.AsMany := ⟨fun _ => rfl⟩

instance : Trans Machine.AsMany Machine.AsMany Machine.AsMany := ⟨fun first second =>
  Eq.trans second first⟩

theorem Keeps.asMany {α : Type} {run : Running α} (keeps : Keeps Machine.SameStore run) :
    Keeps Machine.AsMany run :=
  fun m => congrArg (fun store : Store => store.frames.size) (keeps m)

namespace Running

variable {α : Type}

/-! ## Steps that leave the store -/

theorem keeps_ofFound (name : Token) (found : Except Missing α) :
    Keeps Machine.SameStore (ofFound name found) := by
  cases found with
  | ok a => exact keeps_pure a
  | error missing => exact keeps_throw _

theorem keeps_lookUp (access : Access) (env : Env) (id : Nat) (name : Token) :
    Keeps Machine.SameStore (lookUp access env id name) :=
  keeps_get.bind fun _ => keeps_ofFound name _

theorem keeps_ownerOf (access : Access) (env : Env) (id : Nat) (name : Token) :
    Keeps Machine.SameStore (ownerOf access env id name) :=
  keeps_get.bind fun _ => keeps_ofFound name _

theorem keeps_note (e : Event) : Keeps Machine.SameStore (note e) := keeps_modify fun _ => rfl

theorem keeps_close (env : Env) (keyword : Token) (params : List Token) (body : List Stmt)
    (name : Option Token) : Keeps Machine.SameStore (close env keyword params body name) :=
  fun _ => rfl

theorem keeps_modifyConsole (f : Console → Console) : Keeps Machine.SameStore (modifyConsole f) :=
  keeps_modify fun _ => rfl

theorem keeps_writeLine (text : String) : Keeps Machine.SameStore (writeLine text) := by
  refine keeps_get.bind fun m => ?_
  split
  · exact keeps_modifyConsole _
  · exact keeps_throw _

theorem keeps_takeLine (lines : List (List Char)) : Keeps Machine.SameStore (takeLine lines) := by
  cases lines with
  | nil => exact keeps_pure _
  | cons line rest => exact (keeps_modifyConsole _).bind fun _ => keeps_pure _

theorem keeps_readLine : Keeps Machine.SameStore readLine := by
  refine keeps_get.bind fun m => ?_
  dsimp only
  split
  · exact keeps_throw _
  · exact keeps_takeLine _

theorem keeps_callNative (f : Native) (arguments : List Value) :
    Keeps Machine.SameStore (callNative f arguments) := by
  cases f with
  | clock =>
    refine Keeps.bind ?_ fun _ => keeps_pure _
    exact keeps_get.bind fun _ => (keeps_modifyConsole _).bind fun _ => keeps_pure _
  | print => exact (keeps_writeLine _).bind fun _ => keeps_pure _
  | input =>
    refine keeps_readLine.bind fun line => ?_
    cases line <;> exact keeps_pure _

/-! ## Steps that give variables values -/

theorem keeps_bind (r : Ref) (name : String) (v : Value) :
    Keeps Machine.AsMany (modifyStore (·.bind r name v)) :=
  keeps_modify fun m => Store.size_bind m.store r name v

theorem keeps_assign (access : Access) (env : Env) (id : Nat) (name : Token) (v : Value) :
    Keeps Machine.AsMany (assign access env id name v) :=
  (keeps_ownerOf access env id name).asMany.bind fun r => keeps_bind r _ v

theorem keeps_define (env : Env) (name : Token) (v : Value) :
    Keeps Machine.AsMany (define env name v) :=
  (keeps_bind env.frame _ v).bind fun _ => (keeps_note _).asMany

end Running

end Lox
