import SourceCheck.Diagnostic.Basic
import SourceCheck.Text.Blank
import SourceCheck.Text.Quoted
import SourceCheck.Token.Basic

/-!
# Pieces

A text is read piece by piece: a token, a comment, or text that is neither. A piece holds at least one character, so
reading ends.
-/

namespace SourceCheck

inductive LexicalProblem where
  | unexpectedChar (c : Char)
  | unterminatedString
  | unterminatedComment
  | strayCommentEnd
  | invalidEscape (c : Char)
  | invalidNumber (kind text : String)
  | missingDigits (kind text : String)
  | numberTooLarge (kind text : String)
  | emptyChar
  | unterminatedChar
  | longChar
deriving DecidableEq, Repr

namespace LexicalProblem

def diagnostic (span : Span) : LexicalProblem → Diagnostic
  | .unexpectedChar c =>
    { kind := .lexical, message := s!"Unexpected character '{escapeAscii c}'", span }
  | .unterminatedString =>
    { kind := .lexical, message := "Unterminated string literal", span
      hints := ["Close the string with '\"', or use \"\"\"...\"\"\" for multi-line text"] }
  | .unterminatedComment =>
    { kind := .lexical, message := "Unterminated block comment", span, notes := [nonNesting] }
  | .strayCommentEnd =>
    { kind := .lexical, message := "Unexpected '*/' outside of a comment", span, notes := [nonNesting] }
  | .invalidEscape c =>
    { kind := .lexical, message := s!"Invalid escape sequence '\\{escapeAscii c}'", span
      hints := ["Supported escapes: \\n \\t \\r \\\\ \\\" \\' \\0"] }
  | .invalidNumber kind text =>
    { kind := .lexical, message := invalid kind text, span }
  | .missingDigits kind text =>
    { kind := .lexical, message := invalid kind text, span, notes := [s!"Expected digits after '{text}'"] }
  | .numberTooLarge kind text =>
    { kind := .lexical, message := invalid kind text, span, notes := ["Integer literal out of range"] }
  | .emptyChar =>
    { kind := .lexical, message := "Invalid character literal: empty character literal", span }
  | .unterminatedChar =>
    { kind := .lexical, message := "Invalid character literal: unterminated character literal", span }
  | .longChar =>
    { kind := .lexical, message := "Invalid character literal: must contain exactly one character", span
      hints := ["Use double quotes for strings"] }
where
  nonNesting := "Block comments do not nest; the first '*/' closes the comment"
  invalid kind text := s!"Invalid {kind} literal '{text}'"

end LexicalProblem

/-! ### Pieces -/

structure Piece where
  extent : Nat
  kind : Option TokenKind := none
  /-- Characters after a backslash that stand for nothing, each with the number of characters before its backslash. -/
  badEscapes : List (Nat × Char) := []
  problem : Option LexicalProblem := none
deriving Repr

namespace Piece

def token (kind : TokenKind) (extent : Nat) : Piece :=
  { extent, kind := some kind }

def operator (o : Operator) (extent : Nat := 0) : Piece :=
  token (.operator o) extent

def mark (p : Punctuation) (extent : Nat := 0) : Piece :=
  token (.punctuation p) extent

def bad (problem : LexicalProblem) (extent : Nat) : Piece :=
  { extent, problem := some problem }

end Piece

def untilBlank (cs : List Char) : Nat :=
  (cs.takeWhile fun c => !isBlank c).length

def run (p : Char → Bool) (cs : List Char) : Nat :=
  (cs.takeWhile p).length

end SourceCheck
