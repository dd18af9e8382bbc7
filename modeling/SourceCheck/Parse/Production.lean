import SourceCheck.Parse.Recovery
import SourceCheck.Tree.Basic

/-!
# Productions

The parts of the grammar that contain each other. Their rules are written against `Subparsers`.
-/

namespace SourceCheck

inductive Production where
  | type
  | pattern
  /-- An expression with operators of at least this precedence. -/
  | expr (minPrecedence : Nat)
  /-- A primary expression and what is attached behind it. -/
  | operand
  | block
  | ifStmt
deriving DecidableEq, Repr

def Production.Output : Production → Type
  | .type => TypeExpr
  | .pattern => Pattern
  | .expr _ => Expr
  | .operand => Expr
  | .block => List Stmt
  | .ifStmt => Stmt

abbrev Subparsers := (p : Production) → Parser p.Output

namespace Subparsers

def type (sub : Subparsers) : Parser TypeExpr := sub .type

def pattern (sub : Subparsers) : Parser Pattern := sub .pattern

def expr (sub : Subparsers) : Parser Expr := sub (.expr 1)

def operand (sub : Subparsers) : Parser Expr := sub .operand

def block (sub : Subparsers) : Parser (List Stmt) := sub .block

end Subparsers

end SourceCheck
