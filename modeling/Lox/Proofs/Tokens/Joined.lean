import Mathlib.Data.List.Basic
import Lox.Proofs.Tokens.Parts

/-!
# Scans of texts put together

A newline between two texts keeps their scans apart, and so does any white space between the lexemes
of tokens. Main statements: the scan of two texts under one another is the one scan with the other,
further down, behind it; and tokens that are spelled out with white space between them are scanned
again.
-/

namespace Lox

open Lox.Text (isDigit newlines)

/-! ## Two texts under one another -/

/-- A defect further down. -/
def Defect.lower (d : Nat) (defect : Defect) : Defect := { defect with line := defect.line + d }

/-- Defects of pieces that start further down stand as much further down. -/
theorem defectsOf_add (line d : Nat) (ps : List Piece) :
    defectsOf (line + d) ps = (defectsOf line ps).map (·.lower d) := by
  induction ps generalizing line with
  | nil => rfl
  | cons p rest ih =>
    have ends : p.lineAfter (line + d) = p.lineAfter line + d := by
      simp only [Piece.lineAfter_eq]
      omega
    have here : (p.defect? (line + d)).toList = (p.defect? line).toList.map (·.lower d) := by
      unfold Piece.defect?
      split <;> simp [Defect.lower]
    rw [defectsOf, defectsOf, ends, ih, here, List.map_append]

/-- An open string is told of. -/
theorem exists_unterminated {ps : List Piece} {p : Piece} (member : p ∈ ps)
    (isOpen : p.shape = .openString) (line : Nat) :
    ∃ d ∈ defectsOf line ps, d.cause = .unterminatedString := by
  induction ps generalizing line with
  | nil => simp at member
  | cons q rest ih =>
    rw [defectsOf]
    rcases List.mem_cons.1 member with rfl | later
    · refine ⟨⟨.unterminatedString, line⟩, List.mem_append_left _ ?_, rfl⟩
      simp [Piece.defect?, isOpen]
    · obtain ⟨d, isDefect, isCause⟩ := ih later (q.lineAfter line)
      exact ⟨d, List.mem_append_right _ isDefect, isCause⟩

theorem endMark_append_newline (text more : List Char) :
    endMark (lineAfterAll 1 (pieces (text ++ '\n' :: more))) =
      (endMark (lineAfterAll 1 (pieces more))).relabel (· + (1 + newlines text : Nat)) := by
  simp only [lineAfterAll_pieces, endMark, Token.relabel, newlines, List.count_append, List.count_cons_self,
    Token.mk.injEq, true_and]
  omega

/-- If all strings of a text are closed, scanning it with another text under it finds its tokens and
those of the other, further down by its lines, with one mark of the end; and likewise its defects
and those of the other. -/
theorem scan_append_newline {text : List Char}
    (closed : ∀ d ∈ (scan text).defects, d.cause ≠ .unterminatedString) (more : List Char) :
    let lines := 1 + newlines text
    (scan (text ++ '\n' :: more)).stream.toList =
        (scan text).stream.tokens ++ (scan more).stream.toList.map (·.relabel (· + lines)) ∧
      (scan (text ++ '\n' :: more)).defects =
        (scan text).defects ++ (scan more).defects.map (·.lower lines) := by
  intro lines
  have allClosed : ∀ p ∈ pieces text, p.shape ≠ .openString := by
    intro p member isOpen
    obtain ⟨d, isDefect, isCause⟩ := exists_unterminated member isOpen 1
    exact closed d isDefect isCause
  have together := pieces_append_newline allClosed more
  have reached : Piece.newline.lineAfter (lineAfterAll 1 (pieces text)) = 1 + lines := by
    rw [lineAfterAll_pieces, Piece.lineAfter_eq]
    show 1 + newlines text + 1 = 1 + (1 + newlines text)
    omega
  constructor
  · have below : tokensOf (lineAfterAll 1 (pieces text)) (.newline :: pieces more) =
        (tokensOf 1 (pieces more)).map (·.relabel (· + lines)) := by
      rw [tokensOf, reached, tokensOf_add]
      rfl
    simp only [scan, Stream.toList, together, tokensOf_append, below, List.map_append,
      List.map_singleton, List.append_assoc]
    rw [← together, endMark_append_newline]
  · have below : defectsOf (lineAfterAll 1 (pieces text)) (.newline :: pieces more) =
        (defectsOf 1 (pieces more)).map (·.lower lines) := by
      rw [defectsOf, reached, defectsOf_add]
      rfl
    simp only [scan, together, defectsOf_append, below]

/-- Half an operator at the end of a text does not join the other half, which starts the next. -/
theorem scan_operator_over_newline :
    let text := ['@', '<']
    let more := ['=', '@']
    (∀ d ∈ (scan text).defects, d.cause ≠ .unterminatedString) ∧
      (scan (text ++ '\n' :: more)).stream.toList = [⟨.less, "<", .nil, 1⟩, ⟨.equal, "=", .nil, 2⟩,
        ⟨.eof, "", .nil, 2⟩] ∧
      (scan (text ++ '\n' :: more)).defects =
        [⟨.strayCharacter '@', 1⟩, ⟨.strayCharacter '@', 2⟩] := by
  intro text more
  have found : (scan text).defects = [⟨.strayCharacter '@', 1⟩] := by cbv
  have closed : ∀ d ∈ (scan text).defects, d.cause ≠ .unterminatedString := by simp [found]
  obtain ⟨tokens, defects⟩ := scan_append_newline closed more
  refine ⟨closed, ?_, ?_⟩
  · rw [tokens]
    cbv
  · rw [defects]
    cbv

/-! ## Tokens that are spelled out -/

/-- Scanned by itself, the lexeme of a token is this token and nothing else. -/
def Token.Spelled (t : Token) : Prop :=
  (scan t.lexeme.toList).defects = [] ∧ (scan t.lexeme.toList).stream.tokens = [t]

/-- What a token is apart from its line. -/
def Token.content (t : Token) : Kind × String × Literal := (t.kind, t.lexeme, t.literal)

/-- The lexemes of tokens, each behind its gap. -/
def spelledOut (spaced : List (List Char × Token)) : List Char :=
  spaced.flatMap fun (gap, t) => gap ++ t.lexeme.toList

/-- Tokens with their gaps, which follow the given text: each has the line of its end. -/
def spelledTokens (before : List Char) : List (List Char × Token) → List Token
  | [] => []
  | (gap, t) :: rest =>
    let upTo := before ++ gap ++ t.lexeme.toList
    { t with line := (1 + newlines upTo : Nat) } :: spelledTokens upTo rest

/-! ### A token alone and before white space -/

namespace Token.Complete

variable {after text : List Char} {kind : Kind} {literal : Literal}

theorem ne_nil (complete : Complete after kind literal text) : text ≠ [] := by
  cases complete with
  | symbol listed =>
    rintro rfl
    exact absurd listed (by simp [Kind.symbols])
  | word => simp
  | whole nonempty => exact nonempty
  | fraction => simp
  | string => simp

/-- A token that is whole before some text is whole before none. -/
theorem alone (complete : Complete after kind literal text) : Complete [] kind literal text := by
  cases complete with
  | symbol listed => exact .symbol listed (by simp) (by simp)
  | word starts inside => exact .word starts inside (by simp)
  | whole nonempty inside => exact .whole nonempty inside (by simp) (by simp)
  | fraction nonempty inside nonempty' inside' =>
    exact .fraction nonempty inside nonempty' inside' (by simp)
  | string inside => exact .string inside

/-- White space makes no token longer. -/
theorem before_blank (complete : Complete [] kind literal text)
    (blank : ∀ c ∈ after.head?, isBlank c) : Complete after kind literal text := by
  have others {p : Char → Bool} (none : ∀ c ∈ [' ', '\t', '\r', '\n'], p c = false) :
      ∀ c ∈ after.head?, p c = false := by
    intro c isHead
    exact none c (isBlank_iff.1 (blank c isHead))
  have noDigit : ∀ c ∈ after.head?, isDigit c = false := others (by simp [isDigit])
  cases complete with
  | symbol listed =>
    refine .symbol listed ?_ ?_
    · intro c isHead longer listed'
      have lasts : ∀ symbol ∈ Kind.symbols, ∀ c ∈ symbol.1.getLast?, isBlank c = false := by
        simp [Kind.symbols, isBlank]
      have notBlank := lasts _ listed' c (by simp)
      rw [blank c isHead] at notBlank
      cases notBlank
    · rintro - isSlash
      exact absurd (blank '/' isSlash) (by decide)
  | word starts inside =>
    have noWord : ([' ', '\t', '\r', '\n'].all fun c => !continuesWord c) = true := by
      decide +kernel
    exact .word starts inside (others (by simpa using noWord))
  | whole nonempty inside =>
    refine .whole nonempty inside noDigit ?_
    rintro d more rfl
    exact absurd (blank '.' rfl) (by decide)
  | fraction nonempty inside nonempty' inside' =>
    exact .fraction nonempty inside nonempty' inside' noDigit
  | string inside => exact .string inside

end Token.Complete

theorem Part.Proper.text_ne_nil {before after : List Char} {part : Part}
    (proper : part.Proper before after) : part.text ≠ [] := by
  cases part with
  | token t => exact proper.1.ne_nil
  | white | comment | stray | openString => simp [Part.text]

theorem Part.AllProper.nil_of_flatMap {before : List Char} {parts : List Part}
    (proper : AllProper before parts) (nothing : parts.flatMap text = []) : parts = [] := by
  cases parts with
  | nil => rfl
  | cons part rest =>
    rw [List.flatMap_cons, List.append_eq_nil_iff] at nothing
    exact absurd nothing.1 proper.1.text_ne_nil

theorem Part.AllProper.of_append {before : List Char} {parts parts' : List Part}
    (proper : AllProper before (parts ++ parts')) :
    AllProper (before ++ parts.flatMap text) parts' := by
  induction parts generalizing before with
  | nil => simpa using proper
  | cons part rest ih =>
    have others := ih proper.2
    rwa [List.append_assoc] at others

/-- Among the parts of a text a token that is all of it is alone. -/
theorem Part.AllProper.eq_singleton {before : List Char} {parts : List Part} {t : Token}
    (proper : AllProper before parts) (member : .token t ∈ parts)
    (whole : parts.flatMap text = t.lexeme.toList) : parts = [.token t] := by
  obtain ⟨first, later, rfl⟩ := List.append_of_mem member
  have lengths := congrArg List.length whole
  simp only [List.flatMap_append, List.flatMap_cons, List.length_append, Part.text] at lengths
  have noneBefore : first.flatMap text = [] := List.length_eq_zero_iff.1 (by omega)
  have noneAfter : later.flatMap text = [] := List.length_eq_zero_iff.1 (by omega)
  have onward := proper.of_append
  obtain rfl : later = [] := onward.2.nil_of_flatMap noneAfter
  cases first with
  | nil => rfl
  | cons part rest =>
    rw [List.flatMap_cons, List.append_eq_nil_iff] at noneBefore
    exact absurd noneBefore.1 proper.1.text_ne_nil

/-- Every text is made up of proper parts. -/
theorem exists_properParts (text : List Char) :
    ∃ parts : List Part, parts.flatMap Part.text = text ∧ Part.AllProper [] parts := by
  obtain ⟨parts, arePieces, proper⟩ := exists_parts text []
  exact ⟨parts, by rw [Part.flatMap_text, arePieces, flatten_pieces], proper⟩

/-- What proper parts make up is scanned as they are. -/
theorem scan_flatMap {parts : List Part} (proper : Part.AllProper [] parts) :
    (scan (parts.flatMap Part.text)).stream.tokens = parts.filterMap Part.token? ∧
      (scan (parts.flatMap Part.text)).defects = parts.filterMap Part.defect? := by
  have tokens := tokensOf_parts proper
  have defects := defectsOf_parts proper
  rw [← pieces_of_parts proper] at tokens defects
  exact ⟨tokens, defects⟩

/-- A lexeme is its token alone if the token is whole before nothing. -/
theorem Token.spelled_iff {t : Token} : t.Spelled ↔
    Token.Complete [] t.kind t.literal t.lexeme.toList ∧
      t.line = (1 + newlines t.lexeme.toList : Nat) := by
  constructor
  · rintro ⟨-, isToken⟩
    obtain ⟨parts, whole, proper⟩ := exists_properParts t.lexeme.toList
    have tokens := (scan_flatMap proper).1
    rw [whole, isToken] at tokens
    have member : Part.token t ∈ parts := by
      have isOne : t ∈ parts.filterMap Part.token? := by simp [← tokens]
      obtain ⟨part, inside, isToken⟩ := List.mem_filterMap.1 isOne
      cases part <;> cases isToken
      exact inside
    obtain rfl := proper.eq_singleton member whole
    exact proper.1
  · intro complete
    have proper : Part.AllProper [] [.token t] := ⟨complete, trivial⟩
    have scanned := scan_flatMap proper
    have whole : [Part.token t].flatMap Part.text = t.lexeme.toList := by simp [Part.text]
    rw [whole] at scanned
    exact ⟨scanned.2, scanned.1⟩

/-! ### The parts of tokens that are spelled out -/

/-- The parts of tokens with gaps before them and white space behind them all. -/
def Part.spelled (before : List Char) (rest : List Char) : List (List Char × Token) → List Part
  | [] => rest.map .white
  | (gap, t) :: spaced =>
    let upTo := before ++ gap ++ t.lexeme.toList
    gap.map .white ++
      .token { t with line := (1 + newlines upTo : Nat) } :: Part.spelled upTo rest spaced

theorem Part.flatMap_white (gap : List Char) : (gap.map Part.white).flatMap text = gap := by
  induction gap with
  | nil => rfl
  | cons c rest ih => simp [Part.text, ih]

theorem Part.flatMap_spelled (before rest : List Char) (spaced : List (List Char × Token)) :
    (Part.spelled before rest spaced).flatMap text = spelledOut spaced ++ rest := by
  induction spaced generalizing before with
  | nil => exact Part.flatMap_white rest
  | cons entry spaced ih =>
    simp [Part.spelled, spelledOut, Part.flatMap_white, ih, Part.text]

/-- White space before proper parts is proper. -/
theorem Part.allProper_white {before gap : List Char} {parts : List Part}
    (blank : ∀ c ∈ gap, c ∈ [' ', '\t', '\r', '\n'])
    (proper : AllProper (before ++ gap) parts) : AllProper before (gap.map .white ++ parts) := by
  induction gap generalizing before with
  | nil => simpa using proper
  | cons c rest ih =>
    obtain ⟨first, others⟩ := List.forall_mem_cons.1 blank
    refine ⟨first, ih others ?_⟩
    simpa [Part.text] using proper

section
variable {rest : List Char} {spaced : List (List Char × Token)}

theorem isBlank_of_head {before : List Char}
    (blank : ∀ entry ∈ spaced, ∀ c ∈ entry.1, c ∈ [' ', '\t', '\r', '\n'])
    (apart : ∀ entry ∈ spaced, entry.1 ≠ [])
    (blankRest : ∀ c ∈ rest, c ∈ [' ', '\t', '\r', '\n']) :
    ∀ c ∈ ((Part.spelled before rest spaced).flatMap Part.text).head?, isBlank c := by
  rw [Part.flatMap_spelled]
  intro c isHead
  cases spaced with
  | nil => exact isBlank_iff.2 (blankRest c (List.mem_of_mem_head? isHead))
  | cons entry spaced =>
    obtain ⟨gap, t⟩ := entry
    obtain ⟨d, more, isGap⟩ := List.exists_cons_of_ne_nil (apart (gap, t) (by simp))
    have inGap := blank (gap, t) (by simp)
    simp only at isGap inGap
    subst isGap
    obtain rfl : d = c := by simpa [spelledOut] using isHead
    exact isBlank_iff.2 (inGap d (by simp))

theorem Part.allProper_spelled (before : List Char)
    (spelled : ∀ entry ∈ spaced, entry.2.Spelled)
    (blank : ∀ entry ∈ spaced, ∀ c ∈ entry.1, c ∈ [' ', '\t', '\r', '\n'])
    (apart : ∀ entry ∈ spaced.tail, entry.1 ≠ [])
    (blankRest : ∀ c ∈ rest, c ∈ [' ', '\t', '\r', '\n']) :
    Part.AllProper before (Part.spelled before rest spaced) := by
  induction spaced generalizing before with
  | nil =>
    have nothing : Part.AllProper (before ++ rest) [] := trivial
    simpa [Part.spelled] using Part.allProper_white blankRest nothing
  | cons entry spaced ih =>
    obtain ⟨gap, t⟩ := entry
    obtain ⟨isSpelled, othersSpelled⟩ := List.forall_mem_cons.1 spelled
    obtain ⟨isBlank, othersBlank⟩ := List.forall_mem_cons.1 blank
    refine Part.allProper_white isBlank ⟨⟨?_, rfl⟩, ?_⟩
    · exact (Token.spelled_iff.1 isSpelled).1.before_blank
        (isBlank_of_head othersBlank apart blankRest)
    · refine ih _ othersSpelled othersBlank fun entry member => ?_
      exact apart entry (List.mem_of_mem_tail member)

theorem Part.tokens_spelled (before rest : List Char) (spaced : List (List Char × Token)) :
    (Part.spelled before rest spaced).filterMap token? = spelledTokens before spaced := by
  have noToken (gap : List Char) : (gap.map Part.white).filterMap token? = [] := by
    induction gap <;> simp [token?]
  induction spaced generalizing before with
  | nil => exact noToken rest
  | cons entry spaced ih => simp [Part.spelled, spelledTokens, noToken, ih, token?]

theorem Part.defects_spelled (before rest : List Char) (spaced : List (List Char × Token)) :
    (Part.spelled before rest spaced).filterMap defect? = [] := by
  have noDefect (gap : List Char) : (gap.map Part.white).filterMap defect? = [] := by
    induction gap <;> simp [defect?]
  induction spaced generalizing before with
  | nil => exact noDefect rest
  | cons entry spaced ih =>
    rw [Part.spelled, List.filterMap_append, noDefect, List.nil_append, List.filterMap_cons, ih]
    rfl

end

/-! ### Lexemes with spaces between them -/

/-- A token on the line of its end in a text that is its lexeme alone. -/
def Token.onItsOwn (t : Token) : Token := { t with line := (1 + newlines t.lexeme.toList : Nat) }

/-- Tokens with a space before each but the first. -/
def spacedByOne : List Token → List (List Char × Token)
  | [] => []
  | t :: rest => ([], t.onItsOwn) :: rest.map fun t => ([' '], t.onItsOwn)

/-- The tokens of every text are spelled by their lexemes. -/
theorem spelled_of_scanned {text : List Char} {t : Token} (member : t ∈ (scan text).stream.tokens) :
    t.onItsOwn.Spelled := by
  obtain ⟨parts, rfl, proper⟩ := exists_properParts text
  rw [(scan_flatMap proper).1] at member
  obtain ⟨part, inside, isToken⟩ := List.mem_filterMap.1 member
  cases part <;> cases isToken
  obtain ⟨first, later, rfl⟩ := List.append_of_mem inside
  exact Token.spelled_iff.2 ⟨proper.of_append.1.1.alone, rfl⟩

theorem spelledOut_spacedByOne (ts : List Token) :
    spelledOut (spacedByOne ts) = [' '].intercalate (ts.map (·.lexeme.toList)) := by
  cases ts with
  | nil => rfl
  | cons t rest =>
    induction rest generalizing t with
    | nil => simp [spelledOut, spacedByOne, Token.onItsOwn]
    | cons u rest ih =>
      have others := ih u
      simp only [spelledOut, spacedByOne, List.map_cons, List.flatMap_cons, List.nil_append,
        List.intercalate_cons_cons, Token.onItsOwn, List.append_assoc] at others ⊢
      rw [← others]

theorem content_spelledTokens (before : List Char) (spaced : List (List Char × Token)) :
    (spelledTokens before spaced).map Token.content = spaced.map fun entry => entry.2.content := by
  induction spaced generalizing before with
  | nil => rfl
  | cons entry rest ih =>
    rw [spelledTokens, List.map_cons, List.map_cons, ih]
    rfl

theorem content_spacedByOne (ts : List Token) :
    ((spacedByOne ts).map fun entry => entry.2.content) = ts.map Token.content := by
  cases ts with
  | nil => rfl
  | cons t rest => simp [spacedByOne, Token.onItsOwn, Token.content]

theorem scan_spaced {spaced : List (List Char × Token)} {rest : List Char}
    (spelled : ∀ entry ∈ spaced, entry.2.Spelled)
    (blank : ∀ entry ∈ spaced, ∀ c ∈ entry.1, c ∈ [' ', '\t', '\r', '\n'])
    (apart : ∀ entry ∈ spaced.tail, entry.1 ≠ [])
    (blankRest : ∀ c ∈ rest, c ∈ [' ', '\t', '\r', '\n']) :
    (scan (spelledOut spaced ++ rest)).stream.tokens = spelledTokens [] spaced ∧
      (scan (spelledOut spaced ++ rest)).defects = [] := by
  have scanned := scan_flatMap (Part.allProper_spelled [] spelled blank apart blankRest)
  rwa [Part.flatMap_spelled, Part.tokens_spelled, Part.defects_spelled] at scanned

/-- Tokens that are spelled by their lexemes are scanned again, without any defect, from a text that
has these in order with white space between them: the same tokens, each on the line of its end, and
the mark of the end. So the tokens of every text are scanned again from their lexemes with spaces
between them, apart from their lines. -/
theorem scan_spelledOut :
    (∀ (spaced : List (List Char × Token)) (rest : List Char),
      (∀ entry ∈ spaced, entry.2.Spelled) →
      (∀ entry ∈ spaced, ∀ c ∈ entry.1, c ∈ [' ', '\t', '\r', '\n']) →
      (∀ entry ∈ spaced.tail, entry.1 ≠ []) → (∀ c ∈ rest, c ∈ [' ', '\t', '\r', '\n']) →
      let text := spelledOut spaced ++ rest
      (scan text).defects = [] ∧ (scan text).stream.toList =
        spelledTokens [] spaced ++ [⟨.eof, "", .nil, (1 + newlines text : Nat)⟩]) ∧
    ∀ text : List Char,
      let again := scan ([' '].intercalate ((scan text).stream.tokens.map (·.lexeme.toList)))
      again.defects = [] ∧
        again.stream.toList.map Token.content = (scan text).stream.toList.map Token.content := by
  constructor
  · intro spaced rest spelled blank apart blankRest text
    obtain ⟨tokens, defects⟩ := scan_spaced spelled blank apart blankRest
    refine ⟨defects, ?_⟩
    rw [Stream.toList, tokens, scan_stop]
    rfl
  · intro text
    have fromText : ∀ t ∈ (scan text).stream.tokens, t.onItsOwn.Spelled :=
      fun t => spelled_of_scanned
    revert fromText
    generalize isTokens : (scan text).stream.tokens = ts
    intro fromText again
    have spelled : ∀ entry ∈ spacedByOne ts, entry.2.Spelled := by
      cases ts with
      | nil => simp [spacedByOne]
      | cons t rest => simpa [spacedByOne] using fromText
    have blank : ∀ entry ∈ spacedByOne ts, ∀ c ∈ entry.1, c ∈ [' ', '\t', '\r', '\n'] := by
      cases ts <;> simp [spacedByOne]
    have apart : ∀ entry ∈ (spacedByOne ts).tail, entry.1 ≠ [] := by
      cases ts <;> simp [spacedByOne]
    have noRest : ∀ c ∈ ([] : List Char), c ∈ [' ', '\t', '\r', '\n'] := by simp
    obtain ⟨tokens, defects⟩ := scan_spaced spelled blank apart noRest
    rw [List.append_nil, spelledOut_spacedByOne] at tokens defects
    refine ⟨defects, ?_⟩
    rw [Stream.toList, Stream.toList, tokens, isTokens, List.map_append, List.map_append,
      content_spelledTokens, content_spacedByOne]
    rfl

/-- Two signs of equality stay apart, and a string stays whole with a comment and a line in it. -/
theorem scan_signs_and_string :
    let sign : Token := ⟨.equal, "=", .nil, 1⟩
    let string : Token := ⟨.string, "\"//\n\"", .str "//\n", 2⟩
    let spaced := [([], sign), (['\n'], sign), ([' ', '\t'], string)]
    (∀ entry ∈ spaced, entry.2.Spelled) ∧
      (∀ entry ∈ spaced, ∀ c ∈ entry.1, c ∈ [' ', '\t', '\r', '\n']) ∧
      (∀ entry ∈ spaced.tail, entry.1 ≠ []) ∧
      (scan (spelledOut spaced)).defects = [] ∧ (scan (spelledOut spaced)).stream.toList =
        [sign, { sign with line := 2 }, { string with line := 3 }, ⟨.eof, "", .nil, 3⟩] := by
  intro sign string spaced
  have signSpelled : sign.Spelled := by
    have chars : sign.lexeme.toList = ['='] := by decide
    rw [Token.spelled_iff, chars]
    exact ⟨.symbol (by decide) (by simp) (by simp), rfl⟩
  have stringSpelled : string.Spelled := by
    have chars : string.lexeme.toList = '"' :: ['/', '/', '\n'] ++ ['"'] := by decide
    rw [Token.spelled_iff, chars]
    exact ⟨.string (by decide), rfl⟩
  have spelled : ∀ entry ∈ spaced, entry.2.Spelled := by
    simp [spaced, signSpelled, stringSpelled]
  have blank : ∀ entry ∈ spaced, ∀ c ∈ entry.1, c ∈ [' ', '\t', '\r', '\n'] := by simp [spaced]
  have apart : ∀ entry ∈ spaced.tail, entry.1 ≠ [] := by simp [spaced]
  have scanned := scan_spelledOut.1 spaced [] spelled blank apart (by simp)
  rw [List.append_nil] at scanned
  have lines : spelledTokens [] spaced ++
        [⟨.eof, "", .nil, (1 + newlines (spelledOut spaced) : Nat)⟩] =
      [sign, { sign with line := 2 }, { string with line := 3 }, ⟨.eof, "", .nil, 3⟩] := by cbv
  exact ⟨spelled, blank, apart, scanned.1, scanned.2.trans lines⟩

end Lox
