import SourceCheck.Token.Literal

/-!
# Token streams

The first characters decide what a text starts with; longer operators win over shorter ones. A text is turned into its
tokens, with one end mark after the last. Reading never stops at a problem: it goes on behind the piece it was found
in.
-/

namespace SourceCheck

namespace Piece

/-- Up to the first end mark: the length and whether there is one. -/
def commentBody : List Char → Nat × Bool
  | [] => (0, false)
  | '*' :: '/' :: _ => (2, true)
  | _ :: cs => ((commentBody cs).1 + 1, (commentBody cs).2)

def blockComment (cs : List Char) : Piece :=
  match commentBody cs with
  | (n, true) => { extent := n + 1 }
  | (n, false) => bad .unterminatedComment (n + 1)

/-- A line comment behind its start mark. The line break is not part of it. -/
def lineComment (cs : List Char) : Piece :=
  { extent := run (· ≠ '\n') cs + 1 }

/-- A reserved word, a primitive type or an identifier. -/
def word (first : Char) (cs : List Char) : Piece :=
  let n := run isWordChar cs
  let text := String.ofList (first :: cs.take n)
  match Keyword.ofText? text, Primitive.ofText? text with
  | some k, _ => token (.keyword k) n
  | none, some p => token (.primitive p) n
  | none, none => token (.ident text) n

/-- After an operand a point is an access, elsewhere it may start a number. -/
def scan (afterOperand : Bool) (c : Char) (cs : List Char) : Piece :=
  match c, cs with
  | '/', '/' :: rest => lineComment rest
  | '/', '*' :: rest => blockComment rest
  | '/', _ => operator .slash
  | '+', _ => operator .plus
  | '-', '>' :: _ => mark .arrow 1
  | '-', _ => operator .minus
  | '*', '/' :: _ => bad .strayCommentEnd 1
  | '*', _ => operator .star
  | '%', _ => operator .percent
  | '^', _ => operator .caret
  | '~', _ => operator .tilde
  | '&', '&' :: _ => operator .andAnd 1
  | '&', _ => operator .amp
  | '|', '|' :: _ => operator .orOr 1
  | '|', _ => operator .pipe
  | '!', '=' :: _ => operator .notEq 1
  | '!', _ => operator .bang
  | '<', '<' :: _ => operator .shl 1
  | '<', '=' :: _ => operator .ltEq 1
  | '<', _ => operator .lt
  | '>', '>' :: _ => operator .shr 1
  | '>', '=' :: _ => operator .gtEq 1
  | '>', _ => operator .gt
  | '=', '=' :: _ => operator .eqEq 1
  | '=', '>' :: _ => mark .fatArrow 1
  | '=', _ => operator .eq
  | ',', _ => mark .comma
  | ';', _ => mark .semicolon
  | '#', _ => mark .hash
  | '@', _ => mark .atSign
  | '(', _ => mark .lParen
  | ')', _ => mark .rParen
  | '[', _ => mark .lBracket
  | ']', _ => mark .rBracket
  | '\x7b', _ => mark .lBrace
  | '\x7d', _ => mark .rBrace
  | ':', ':' :: _ => mark .colonColon 1
  | ':', _ => mark .colon
  | '.', rest =>
    match rest with
    | d :: _ => if d.isDigit && !afterOperand then fraction rest else mark .dot
    | [] => mark .dot
  | '"', rest => string rest
  | 'r', '"' :: '"' :: '"' :: rest => rawString rest
  | '\'', rest => char rest
  | c, rest =>
    if c.isDigit then number c rest
    else if isWordStart c then word c rest
    else bad (.unexpectedChar c) (untilBlank rest)

end Piece

/-! ### Streams -/

/-- The bytes before a place, its line, and the bytes before that line. -/
structure Place where
  offset : Nat := 0
  line : Nat := 1
  lineStart : Nat := 0
deriving DecidableEq, Repr

namespace Place

def next (p : Place) (c : Char) : Place :=
  let offset := p.offset + c.utf8Size
  if c = '\n' then ⟨offset, p.line + 1, offset⟩ else { p with offset }

def after (p : Place) (cs : List Char) : Place :=
  cs.foldl next p

def col (p : Place) : Nat :=
  p.offset - p.lineStart + 1

def spanTo (file : Nat) (p q : Place) : Span :=
  { file, start := p.offset, stop := q.offset, line := p.line, col := p.col }

end Place

structure Lexed where
  tokens : List Token
  problems : List (Report LexicalProblem)
deriving DecidableEq, Repr

namespace Lexed

def escapeReport (file : Nat) (start : Place) (text : List Char) (bad : Nat × Char) :
    Report LexicalProblem :=
  let first := start.after (text.take bad.1)
  let last := start.after (text.take (bad.1 + 2))
  { cause := .invalidEscape bad.2
    span := { file, start := first.offset, stop := last.offset, line := last.line
              col := first.offset - last.lineStart + 1 } }

/-- The reports about a piece that reads `text` from `start` to `stop`. -/
def pieceReports (file : Nat) (start stop : Place) (text : List Char) (piece : Piece) :
    List (Report LexicalProblem) :=
  piece.badEscapes.map (escapeReport file start text) ++
    piece.problem.toList.map fun p => ⟨p, start.spanTo file stop⟩

def ofChars (file : Nat) (place : Place) (afterOperand : Bool) : List Char → Lexed
  | [] => ⟨[⟨.eof, "", place.spanTo file place⟩], []⟩
  | c :: cs =>
    if isBlank c then ofChars file (place.next c) afterOperand cs
    else
      let piece := Piece.scan afterOperand c cs
      let text := c :: cs.take piece.extent
      let stop := place.after text
      let afterOperand := (piece.kind.map TokenKind.endsOperand).getD afterOperand
      let rest := ofChars file stop afterOperand (cs.drop piece.extent)
      let token := piece.kind.toList.map fun kind => ⟨kind, String.ofList text, place.spanTo file stop⟩
      ⟨token ++ rest.tokens, pieceReports file place stop text piece ++ rest.problems⟩
termination_by cs => cs.length
decreasing_by
  · simp
  · simp only [List.length_drop, List.length_cons]; omega

end Lexed

def lex (source : String) (file : Nat := 0) : Lexed :=
  Lexed.ofChars file {} false source.toList

end SourceCheck
