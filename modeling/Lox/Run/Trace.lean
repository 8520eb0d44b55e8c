import Lox.Tree.Print
import Lox.Value.Basic

/-!
# Debug output

What is noted for debugging. Every event has a level, and a trace keeps the events up to its own.
-/

namespace Lox

/-- Something to be noted for debugging. -/
inductive Event
  | tokens (ts : List Token)
  | statement (s : Stmt)
  | declared (name : String) (value : Value)
  | condition (value : Value)
  | called (callee : Value) (count : Nat)
  | resolved (id distance : Nat)

/-- The least level at which an event is kept. -/
def Event.level : Event → Nat
  | tokens _ | statement _ => 1
  | declared .. => 2
  | condition _ | called .. => 3
  | resolved .. => 4

/-- The wording of an event. -/
def Event.text : Event → String
  | tokens ts => "tokens: " ++ " ".intercalate (ts.map (·.text))
  | statement s => "stmt: " ++ s.printed
  | declared name (.closure _) => "define function " ++ name
  | declared name value => "declare " ++ name ++ ": " ++ value.typeName ++ " = " ++ value.text
  | condition value =>
    "if condition " ++ value.text ++ " -> " ++ (Literal.bool value.truthy).quoted
  | called callee count =>
    "call " ++ callee.text ++ " with " ++ toString count ++ " argument(s)"
  | resolved id distance => "resolve #" ++ toString id ++ " at distance " ++ toString distance

/-- The events noted so far, up to a level. -/
structure Trace where
  level : Nat
  events : Array Event

/-- Notes an event, unless its level is above that of the trace. -/
def Trace.note (t : Trace) (e : Event) : Trace :=
  if e.level ≤ t.level then { t with events := t.events.push e } else t

theorem Trace.events_note (t : Trace) (e : Event) :
    (t.note e).events.toList = t.events.toList ++ if e.level ≤ t.level then [e] else [] := by
  unfold note
  split <;> simp

theorem Trace.level_note (t : Trace) (e : Event) : (t.note e).level = t.level := by
  unfold note
  split <;> rfl

/-- The debug output, a line for each event. -/
def Trace.output (t : Trace) : String := String.join (t.events.toList.map (·.text ++ "\n"))

end Lox
