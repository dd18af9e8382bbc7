import SourceCheck.Analysis.State

/-!
# Returning

Whether every way through statements ends in a `return` or in an expression that never returns.
-/

namespace SourceCheck

def neverReturns (types : SpanTable Ty) (e : Expr) : Bool :=
  (types.get? e.span).any Ty.isNever

mutual

def Stmt.returns (types : SpanTable Ty) : Stmt → Bool
  | .returnValue .. => true
  | .expr _ e => neverReturns types e
  | .ifThen _ _ body otherwise | .ifLet _ _ _ body otherwise =>
    Stmt.anyReturns types body && otherwise.returns types
  | .matchOn _ _ arms => !arms.isEmpty && MatchArm.allReturn types arms
  | .unsafeBlock _ body | .block _ body => Stmt.anyReturns types body
  | .letBinding .. | .assign .. | .forIn .. | .spawn .. | .spawnWithHandle .. | .breakLoop _
  | .continueLoop _ => false

def Stmt.anyReturns (types : SpanTable Ty) : List Stmt → Bool
  | [] => false
  | s :: ss => s.returns types || Stmt.anyReturns types ss

/-- Whether every way through an `else` returns. -/
def ElseBranch.returns (types : SpanTable Ty) : ElseBranch → Bool
  | .absent => false
  | .block body => Stmt.anyReturns types body
  | .elseIf s => s.returns types

def MatchArm.returns (types : SpanTable Ty) : MatchArm → Bool
  | .mk _ _ body => body.returns types

def MatchArm.allReturn (types : SpanTable Ty) : List MatchArm → Bool
  | [] => true
  | a :: as => a.returns types && MatchArm.allReturn types as

def ArmBody.returns (types : SpanTable Ty) : ArmBody → Bool
  | .block body => Stmt.anyReturns types body
  | .expr e => neverReturns types e

end

end SourceCheck
