import SourceCheck.Parse.Problem
import SourceCheck.Token.Basic

/-!
# Parsers

A parser yields a value or fails with one problem; other problems are only recorded. Failing does not undo what was
read. The context says how deep it is nested and whether struct literals may stand here.
-/

namespace SourceCheck

structure ParseContext where
  /-- The token that stands for the end when no token marks it. -/
  finish : Token
  /-- The number of enclosing expressions, types, patterns and blocks. -/
  depth : Nat := 0
  /-- Whether a name before a brace may start a struct literal. -/
  structLiterals : Bool := true

structure ParseState where
  rest : List Token
  previous : Token
  /-- Whether the first half of a double angle has closed an argument list. -/
  splitAngle : Bool := false
  problems : List (Report GrammarProblem) := []
  tooDeep : Bool := false

abbrev Parser (α : Type) :=
  ReaderT ParseContext (ExceptT (Report GrammarProblem) (StateM ParseState)) α

abbrev ParseResult (α : Type) :=
  Except (Report GrammarProblem) α × ParseState

namespace ParseState

def peekAt (s : ParseState) (finish : Token) (n : Nat) : Token :=
  s.rest[n]?.getD finish

def peek (s : ParseState) (finish : Token) : Token :=
  s.rest.head?.getD finish

/-- The state behind the next token. The end is never passed. -/
def advance (s : ParseState) : ParseState :=
  match s.rest with
  | t :: rest => if t.kind = .eof then s else { s with rest, previous := t }
  | [] => s

/-- Record a problem. Too deep nesting is recorded only once. -/
def report (s : ParseState) (r : Report GrammarProblem) : ParseState :=
  if r.cause = .nestingTooDeep then
    if s.tooDeep then s else { s with problems := s.problems ++ [r], tooDeep := true }
  else { s with problems := s.problems ++ [r] }

end ParseState

namespace Parser

/-! ### Looking ahead -/

def peekAt (n : Nat) : Parser Token := do
  return (← get).peekAt (← read).finish n

def peek : Parser Token := do
  return (← get).peek (← read).finish

def peekKind : Parser TokenKind := do
  return (← peek).kind

def here : Parser Span := do
  return (← peek).span

def at? (kind : TokenKind) : Parser Bool := do
  return (← peekKind) = kind

def atKeyword (k : Keyword) : Parser Bool := at? (.keyword k)

def atOperator (o : Operator) : Parser Bool := at? (.operator o)

def atMark (p : Punctuation) : Parser Bool := at? (.punctuation p)

def atEnd : Parser Bool := at? .eof

/-! ### Reading -/

def advance : Parser Span := do
  modify ParseState.advance
  return (← get).previous.span

def accept (kind : TokenKind) : Parser Bool := do
  if ← at? kind then
    discard advance
    return true
  else
    return false

def acceptKeyword (k : Keyword) : Parser Bool := accept (.keyword k)

def acceptOperator (o : Operator) : Parser Bool := accept (.operator o)

def acceptMark (p : Punctuation) : Parser Bool := accept (.punctuation p)

def failAt {α : Type} (span : Span) (cause : GrammarProblem) : Parser α :=
  throw ⟨cause, span⟩

def fail {α : Type} (cause : GrammarProblem) : Parser α := do
  failAt (← here) cause

def expected {α : Type} (what : String) : Parser α := do
  fail (.expected what (← peekKind).describe)

/-- Read a token of this kind, described as `what`. -/
def expect (kind : TokenKind) (what : String) : Parser Span := do
  if ← at? kind then advance else expected what

def expectKeyword (k : Keyword) (what : String) : Parser Span := expect (.keyword k) what

def expectOperator (o : Operator) (what : String) : Parser Span := expect (.operator o) what

def expectMark (p : Punctuation) (what : String) : Parser Span := expect (.punctuation p) what

def report (span : Span) (cause : GrammarProblem) : Parser Unit :=
  modify (·.report ⟨cause, span⟩)

def reportHere (cause : GrammarProblem) : Parser Unit := do
  report (← here) cause

def identifier : Parser String := do
  match ← peekKind with
  | .ident name =>
    discard advance
    return name
  | _ => expected "identifier"

def name : Parser Name := do
  let span ← here
  return ⟨← identifier, span⟩

def since (start : Span) : Parser Span := do
  let last := (← get).previous.span
  return if last.stop < start.start then start else start.merge last

/-- A double angle closes two lists: the first time it is marked, the second time read. -/
def closeAngle : Parser Unit := do
  if (← get).splitAngle then
    modify ({ · with splitAngle := false })
    discard advance
  else if ← acceptOperator .gt then
    return
  else if ← atOperator .shr then
    modify ({ · with splitAngle := true })
  else
    expected "'>'"

/-! ### Context -/

/-- Run `p` where struct literals may stand, or may not. -/
def withStructLiterals {α : Type} (allow : Bool) (p : Parser α) : Parser α :=
  withReader ({ · with structLiterals := allow }) p

/-! ### Repetition -/

/-- Repeat `step` until it gives nothing. Every round but the last reads a token. -/
def iterateFrom {β : Type} (step : β → Parser (Option β)) (context : ParseContext) (b : β)
    (s : ParseState) : ParseResult β :=
  match step b context s with
  | (.error e, s') => (.error e, s')
  | (.ok none, s') => (.ok b, s')
  | (.ok (some b'), s') =>
    if s'.rest.length < s.rest.length then iterateFrom step context b' s' else (.ok b', s')
termination_by s.rest.length

def iterate {β : Type} (step : β → Parser (Option β)) (b : β) : Parser β :=
  fun context s => iterateFrom step context b s

def nextItem {α : Type} (item : Parser α) (items : List α) : Parser (Option (List α)) := do
  if ← acceptMark .comma then return some (items ++ [← item]) else return none

def commaSeparated {α : Type} (item : Parser α) (first : α) : Parser (List α) :=
  iterate (nextItem item) [first]

def commaList {α : Type} (item : Parser α) : Parser (List α) := do
  commaSeparated item (← item)

def nextBraced {α : Type} (item : Parser α) (items : List α) : Parser (Option (List α)) := do
  if ← acceptMark .comma then
    if ← atMark .rBrace then return none else return some (items ++ [← item])
  else
    return none

def bracedList {α : Type} (item : Parser α) : Parser (List α) := do
  iterate (nextBraced item) [← item]

/-- Run `p` and give its value or its problem. -/
def attempt {α : Type} (p : Parser α) : Parser (Except (Report GrammarProblem) α) :=
  fun context s =>
    let (outcome, s') := p context s
    (.ok outcome, s')

def atClose : Parser Bool := do
  if ← atMark .rBrace then return true else atEnd

/-- Pass over a token if none was read since `before`. -/
def ensureProgress (before : List Token) : Parser Unit := do
  if (← get).rest.length = before.length then discard advance

/-- The same, but never pass over a brace that closes a block. -/
def ensureProgressInBlock (before : List Token) : Parser Unit := do
  if (← get).rest.length = before.length && !(← atMark .rBrace) then discard advance

/-- One more value unless `stop` holds. After a failure `recover` finds where to go on. -/
def roundWith {α : Type} (ensure : List Token → Parser Unit) (stop : Parser Bool) (item : Parser α)
    (recover : ParseState → ParseState) (items : List α) : Parser (Option (List α)) := do
  if ← stop then return none
  let before := (← get).rest
  match ← attempt item with
  | .ok a => return some (items ++ [a])
  | .error e =>
    modify fun s => recover (s.report e)
    ensure before
    return some items

def recoverRound {α : Type} :
    Parser Bool → Parser α → (ParseState → ParseState) → List α → Parser (Option (List α)) :=
  roundWith ensureProgress

/-- A round in a block of statements or arms. -/
def recoverRoundInBlock {α : Type} :
    Parser α → (ParseState → ParseState) → List α → Parser (Option (List α)) :=
  roundWith ensureProgressInBlock atClose

/-- Values until `stop` holds. -/
def recovering {α : Type} (stop : Parser Bool) (item : Parser α) (recover : ParseState → ParseState) :
    Parser (List α) :=
  iterate (recoverRound stop item recover) []

def recoveringInBlock {α : Type} (item : Parser α) (recover : ParseState → ParseState) : Parser (List α) :=
  iterate (recoverRoundInBlock item recover) []

end Parser

end SourceCheck
