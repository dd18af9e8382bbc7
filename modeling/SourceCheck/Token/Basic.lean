import SourceCheck.Source.Span
import SourceCheck.Vocabulary.Keyword
import SourceCheck.Vocabulary.Operator
import SourceCheck.Vocabulary.Primitive

/-!
# Tokens

Reserved words, primitive types, operators and punctuation are told apart by identity, never by spelling.
-/

namespace SourceCheck

inductive IntBase where
  | decimal
  | hex
  | binary
  | octal
deriving DecidableEq, Repr

namespace IntBase

def radix : IntBase → Nat
  | .decimal => 10
  | .hex => 16
  | .binary => 2
  | .octal => 8

def describe : IntBase → String
  | .decimal => "integer"
  | .hex => "hexadecimal"
  | .binary => "binary"
  | .octal => "octal"

end IntBase

inductive StringForm where
  | regular
  /-- Any number of lines between triple quotes, with escapes. -/
  | processed
  /-- Any number of lines between triple quotes, taken as they stand. -/
  | raw
deriving DecidableEq, Repr

inductive TokenKind where
  | keyword (k : Keyword)
  | primitive (p : Primitive)
  | operator (o : Operator)
  | punctuation (p : Punctuation)
  | ident (name : String)
  | int (value : Nat) (base : IntBase)
  | float (value : Float)
  | string (value : String) (form : StringForm)
  | char (value : Char)
  | eof
deriving DecidableEq, Repr

namespace TokenKind

def describe : TokenKind → String
  | .keyword k => s!"keyword '{k.spelling}'"
  | .primitive p => s!"type '{p.spelling}'"
  | .operator o => s!"'{o.spelling}'"
  | .punctuation p => s!"'{p.spelling}'"
  | .ident name => s!"identifier '{name}'"
  | .int _ _ => "integer literal"
  | .float _ => "float literal"
  | .string _ _ => "string literal"
  | .char _ => "character literal"
  | .eof => "end of file"

def isIdent : TokenKind → Bool
  | .ident _ => true
  | _ => false

/-- Whether a point after this token is an access, not the start of a number. -/
def endsOperand : TokenKind → Bool
  | .ident _ | .int _ _ | .float _ | .string _ _ | .char _ => true
  | .keyword k =>
    k = .selfKw || k = .trueKw || k = .falseKw || k = .resultKw || k = .optionKw
  | .punctuation p => p = .rParen || p = .rBracket || p = .rBrace
  | _ => false

end TokenKind

structure Token where
  kind : TokenKind
  lexeme : String
  span : Span
deriving DecidableEq, Repr

/-- The end of the input at byte `stop`, when no token marks it. -/
def Token.endOf (file stop : Nat) : Token :=
  ⟨.eof, "", { file := file, start := stop, stop := stop }⟩

instance : Inhabited Token := ⟨Token.endOf 0 0⟩

end SourceCheck
