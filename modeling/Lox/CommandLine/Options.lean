import Lox.Text.Decimal

/-!
# Command line options

`-v` raises the debug level and may be repeated, also in one word; `--debug-file` names the file
for debug output; `--help` and `-h` ask for help. At most one other word names a script. A long
option may be shortened as long as it is told from the others, and takes its value from behind an
equals sign or from the next word. After `--` no word is an option.
-/

namespace Lox.CommandLine

/-- The options. -/
inductive Flag
  | help
  | verbose
  | debugFile
  deriving DecidableEq

/-- Why there are no options to go by. -/
inductive Exit
  | help
  | usage
  deriving DecidableEq

/-- What the command line asks for. -/
structure Options where
  verbosity : Nat
  debugFile : String
  script : Option String
  deriving DecidableEq

/-- The value that a word gives for its option. -/
inductive Attached
  | nothing
  /-- It stands behind an equals sign. -/
  | assigned (value : List Char)
  /-- It stands right behind the option's letter. -/
  | joined (rest : List Char)

/-- What a word of the command line is. -/
inductive Word
  | plain (text : String)
  | separator
  | flag (f : Flag) (attached : Attached)
  | unknown

/-! ## Telling words apart -/

/-- Options of one letter. -/
def letterFlag? (c : Char) : Option Flag :=
  if c = 'h' then some .help else if c = 'v' then some .verbose else none

/-- Options with a long name. -/
def longFlags : List (List Char × Flag) :=
  [("--help".toList, .help), ("--debug-file".toList, .debugFile)]

/-- A text that is taken for a negative number: digits with at most one point, not at the end. -/
def isNegativeNumber (text : List Char) : Bool :=
  let text := if text.getLast? = some '\n' then text.dropLast else text
  match text with
  | '-' :: rest =>
    let fraction := rest.dropWhile Text.isDecimal
    match fraction with
    | [] => rest != []
    | '.' :: digits => digits != [] && digits.all Text.isDecimal
    | _ => false
  | _ => false

/-- A word with a dash that is no option. -/
def otherWord (text : List Char) : Word :=
  if isNegativeNumber text || ' ' ∈ text then .plain (String.ofList text) else .unknown

/-- What stands before the first equals sign, and what behind it. -/
def splitAssigned (text : List Char) : List Char × Attached :=
  match text.dropWhile (· != '=') with
  | [] => (text, .nothing)
  | _ :: value => (text.takeWhile (· != '='), .assigned value)

/-- A word that starts with two dashes: a long option, or the start of exactly one. -/
def longWord (text : List Char) : Except Exit Word :=
  let (name, attached) := splitAssigned text
  match longFlags.lookup name with
  | some f => .ok (.flag f attached)
  | none =>
    match longFlags.filter (name.isPrefixOf ·.1) with
    | [] => .ok (otherWord text)
    | [(_, f)] => .ok (.flag f attached)
    | _ => .error .usage

/-- A word that starts with a single dash and a letter. -/
def letterWord (letter : Char) (rest text : List Char) : Word :=
  match letterFlag? letter, rest with
  | some f, [] => .flag f .nothing
  | some f, '=' :: value => .flag f (.assigned value)
  | some f, rest => .flag f (.joined rest)
  | none, _ => otherWord text

/-- What a word is that no separator stands before. -/
def wordOf (text : String) : Except Exit Word :=
  match text.toList with
  | '-' :: '-' :: rest => longWord ('-' :: '-' :: rest)
  | '-' :: letter :: rest => .ok (letterWord letter rest ('-' :: letter :: rest))
  | _ => .ok (.plain text)

/-- What the words are; behind a separator all are plain. -/
def wordsOf : List String → Except Exit (List Word)
  | [] => .ok []
  | text :: rest =>
    if text = "--" then .ok (.separator :: rest.map .plain)
    else do
      let word ← wordOf text
      return word :: (← wordsOf rest)

/-! ## Following the words -/

/-- What the words so far ask for. -/
structure Progress where
  options : Options
  /-- A word was of no use. -/
  excess : Bool

/-- Counts a repetition, or ends for help. -/
def Progress.follow (p : Progress) : List Flag → Except Exit Progress
  | [] => .ok p
  | .verbose :: rest =>
    { p with options.verbosity := p.options.verbosity + 1 }.follow rest
  | _ :: _ => .error .help

/-- The options of one letter in a word, and whether it holds others. -/
def cluster (f : Flag) : List Char → Except Exit (List Flag × Bool)
  | [] => .ok ([f], false)
  | '-' :: _ => .error .usage
  | c :: rest =>
    match letterFlag? c with
    | none => .ok ([f], true)
    | some g =>
      if rest.head? = some '=' then .error .usage
      else do
        let (flags, excess) ← cluster g rest
        return (f :: flags, excess)

/-- Follows options of one letter. -/
def Progress.letters (p : Progress) (f : Flag) (rest : List Char) : Except Exit Progress := do
  let (flags, excess) ← cluster f rest
  { p with excess := p.excess || excess }.follow flags

/-- Names the file for debug output. -/
def Progress.setDebugFile (p : Progress) (name : String) : Progress :=
  { p with options.debugFile := name }

/-- Names the script. -/
def Progress.setScript (p : Progress) (name : String) : Progress :=
  { p with options.script := some name }

/-- Follows words. The separator belongs to the script's name, before it or right behind it. -/
def Progress.words (p : Progress) : List Word → Except Exit Progress
  | [] => .ok p
  | .unknown :: rest => { p with excess := true }.words rest
  | .flag .debugFile (.assigned value) :: rest => (p.setDebugFile (String.ofList value)).words rest
  | .flag .debugFile (.joined value) :: rest => (p.setDebugFile (String.ofList value)).words rest
  | .flag .debugFile .nothing :: .plain value :: rest => (p.setDebugFile value).words rest
  | .flag .debugFile .nothing :: _ => .error .usage
  | .flag _ (.assigned _) :: _ => .error .usage
  | .flag f .nothing :: rest => do (← p.letters f []).words rest
  | .flag f (.joined letters) :: rest => do (← p.letters f letters).words rest
  | .plain text :: .separator :: rest =>
    if p.options.script.isNone then (p.setScript text).words rest
    else .error .usage
  | .plain text :: rest =>
    if p.options.script.isNone then (p.setScript text).words rest
    else { p with excess := true }.words rest
  | .separator :: rest =>
    if p.options.script.isNone then p.words rest else .error .usage

/-- The options of a command line. -/
def Options.ofArguments (arguments : List String) : Except Exit Options := do
  let words ← wordsOf arguments
  let p ← Progress.words ⟨⟨0, "debug.txt", none⟩, false⟩ words
  if p.excess then .error .usage else return p.options

end Lox.CommandLine
