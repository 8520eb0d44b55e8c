/-!
# Messages

What all error messages share: the line, if one is known, the kind of the error, and its text.
-/

namespace Lox

/-- The message of an error. -/
def message (kind : String) (line : Option Int) (text : String) : String :=
  match line with
  | none => kind ++ ": " ++ text
  | some n => "[line " ++ toString n ++ "] " ++ kind ++ ": " ++ text

end Lox
