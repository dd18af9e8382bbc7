/-!
# Operators

A higher precedence binds tighter; `=` is no expression operator and has precedence zero.
-/

namespace SourceCheck

inductive Operator where
  | orOr
  | andAnd
  | pipe
  | caret
  | amp
  | eqEq
  | notEq
  | lt
  | ltEq
  | gt
  | gtEq
  | shl
  | shr
  | plus
  | minus
  | star
  | slash
  | percent
  | bang
  | tilde
  | eq
deriving DecidableEq, Repr, Inhabited

namespace Operator

inductive Associativity where
  | left
  | right
deriving DecidableEq, Repr

/-- Whether the symbol stands between its operands or before its operand. -/
inductive Fixity where
  | infixOp
  | prefixOp
deriving DecidableEq, Repr

/-- What a symbol means when it stands before an operand. -/
inductive PrefixRole where
  | logical
  | pointer
deriving DecidableEq, Repr

def all : List Operator :=
  [.orOr, .andAnd, .pipe, .caret, .amp, .eqEq, .notEq, .lt, .ltEq, .gt, .gtEq, .shl, .shr, .plus,
   .minus, .star, .slash, .percent, .bang, .tilde, .eq]

def spelling : Operator → String
  | .orOr => "||"
  | .andAnd => "&&"
  | .pipe => "|"
  | .caret => "^"
  | .amp => "&"
  | .eqEq => "=="
  | .notEq => "!="
  | .lt => "<"
  | .ltEq => "<="
  | .gt => ">"
  | .gtEq => ">="
  | .shl => "<<"
  | .shr => ">>"
  | .plus => "+"
  | .minus => "-"
  | .star => "*"
  | .slash => "/"
  | .percent => "%"
  | .bang => "!"
  | .tilde => "~"
  | .eq => "="

def tag : Operator → String
  | .orOr => "OrOr"
  | .andAnd => "AndAnd"
  | .pipe => "Pipe"
  | .caret => "Caret"
  | .amp => "Amp"
  | .eqEq => "EqEq"
  | .notEq => "NotEq"
  | .lt => "Lt"
  | .ltEq => "LtEq"
  | .gt => "Gt"
  | .gtEq => "GtEq"
  | .shl => "Shl"
  | .shr => "Shr"
  | .plus => "Plus"
  | .minus => "Minus"
  | .star => "Star"
  | .slash => "Slash"
  | .percent => "Percent"
  | .bang => "Bang"
  | .tilde => "Tilde"
  | .eq => "Eq"

def precedence : Operator → Nat
  | .orOr => 1
  | .andAnd => 2
  | .pipe | .caret | .amp => 3
  | .eqEq | .notEq => 4
  | .lt | .ltEq | .gt | .gtEq => 5
  | .shl | .shr => 6
  | .plus | .minus => 7
  | .star | .slash | .percent => 8
  | .bang | .tilde => 9
  | .eq => 0

def associativity : Operator → Associativity
  | .eq => .right
  | _ => .left

def fixity : Operator → Fixity
  | .bang | .tilde => .prefixOp
  | _ => .infixOp

def prefixRole : Operator → Option PrefixRole
  | .bang | .minus | .tilde => some .logical
  | .star | .amp => some .pointer
  | _ => none

def ofText? (text : String) : Option Operator :=
  all.find? (·.spelling = text)

end Operator

/-! ### Punctuation -/

inductive Punctuation where
  | comma
  | semicolon
  | colon
  | dot
  | colonColon
  | arrow
  | fatArrow
  | hash
  | atSign
  | lParen
  | rParen
  | lBracket
  | rBracket
  | lBrace
  | rBrace
deriving DecidableEq, Repr, Inhabited

namespace Punctuation

inductive Category where
  | delimiter
  | separator
  | access
  | arrow
  | marker
deriving DecidableEq, Repr

def all : List Punctuation :=
  [.comma, .semicolon, .colon, .dot, .colonColon, .arrow, .fatArrow, .hash, .atSign, .lParen,
   .rParen, .lBracket, .rBracket, .lBrace, .rBrace]

def spelling : Punctuation → String
  | .comma => ","
  | .semicolon => ";"
  | .colon => ":"
  | .dot => "."
  | .colonColon => "::"
  | .arrow => "->"
  | .fatArrow => "=>"
  | .hash => "#"
  | .atSign => "@"
  | .lParen => "("
  | .rParen => ")"
  | .lBracket => "["
  | .rBracket => "]"
  | .lBrace => "\x7b"
  | .rBrace => "\x7d"

def tag : Punctuation → String
  | .comma => "Comma"
  | .semicolon => "Semicolon"
  | .colon => "Colon"
  | .dot => "Dot"
  | .colonColon => "ColonColon"
  | .arrow => "Arrow"
  | .fatArrow => "FatArrow"
  | .hash => "Hash"
  | .atSign => "At"
  | .lParen => "LParen"
  | .rParen => "RParen"
  | .lBracket => "LBracket"
  | .rBracket => "RBracket"
  | .lBrace => "LBrace"
  | .rBrace => "RBrace"

def category : Punctuation → Category
  | .comma | .semicolon | .colon => .separator
  | .dot | .colonColon => .access
  | .arrow | .fatArrow => .arrow
  | .hash | .atSign => .marker
  | .lParen | .rParen | .lBracket | .rBracket | .lBrace | .rBrace => .delimiter

def ofText? (text : String) : Option Punctuation :=
  all.find? (·.spelling = text)

end Punctuation

end SourceCheck
