import SourceCheck.Analysis.Annotations
import SourceCheck.Analysis.Expr
import SourceCheck.Analysis.Pattern

/-!
# Statements
-/

namespace SourceCheck

open Check

def Expr.isCall : Expr → Bool
  | .call .. | .assocCall .. | .dottedCall .. => true
  | _ => false

def checkLet (annotations : List Annotation) (mutable : Bool) (name : Name) (type : TypeExpr)
    (value : Expr) : Check Unit := do
  let t ← resolveType type
  let actual ← checkExpr value (some t)
  expectType t actual value.span
  checkAnnotations annotations .variable
  checkOwnership annotations name.node value
  declare (.local name.node t mutable .letBinding name.span)

def checkAssign (span : Span) (target value : Expr) : Check Unit := do
  let t ← checkExpr target none
  let actual ← checkExpr value (some t)
  expectType t actual value.span
  checkPlace target span .assign

def checkReturn (value : Expr) : Check Unit := do
  match (← read).function with
  | some f =>
    let actual ← checkExpr value (some f.returnType)
    expectType f.returnType actual value.span (.result f.name)
  | none =>
    let _ ← checkExpr value (some .unknown)

def checkCondition (condition : Expr) : Check Unit := do
  let t ← checkExpr condition (some .bool)
  expectType .bool t condition.span .condition

def checkSpawned (call : Expr) : Check Ty := do
  reportIf (!call.isCall) .spawnWithoutCall call.span
  checkExpr call none

def checkIterable (iterable : Expr) : Check Ty := do
  match ← checkExpr iterable none with
  | .slice t | .array t _ => return t
  | .infinite => return .usize
  | .unknown => return .unknown
  | other => refuse (.notIterable other) iterable.span

def checkArmPattern (t : Ty) (p : Pattern) : Check Bool := do
  let before ← problemCount
  checkPattern t p
  return (← problemCount) = before

mutual

def checkStmt : Stmt → Check Unit
  | .letBinding _ annotations mutable name type value => checkLet annotations mutable name type value
  | .assign span target value => checkAssign span target value
  | .returnValue _ value => checkReturn value
  | .ifThen _ condition body otherwise => do
    checkCondition condition
    inScope .block (checkStmts body)
    checkElse otherwise
  | .ifLet _ pattern value body otherwise => do
    let t ← checkExpr value none
    inScope .block do
      checkPattern t pattern
      checkStmts body
    checkElse otherwise
  | .forIn _ binding iterable body => do
    let t ← checkIterable iterable
    inScope .loop do
      declare (.local binding.node t false .forLoop binding.span)
      checkStmts body
  | .matchOn span scrutinee arms => do
    let t ← checkExpr scrutinee none
    let fine ← checkArms t arms
    if fine && !t.isUnknown then checkCoverage span (arms.map (·.pattern)) t
  | .spawn _ call => do
    let _ ← checkSpawned call
  | .spawnWithHandle _ handle call => do
    let t ← checkSpawned call
    declare (.local handle.node (.taskHandle t) false .taskHandle handle.span)
  | .unsafeBlock _ body => inScope .unsafeBlock (checkStmts body)
  | .block _ body => inScope .block (checkStmts body)
  | .breakLoop span => do
    reportIf (!(← inside .loop)) .breakOutsideLoop span
  | .continueLoop span => do
    reportIf (!(← inside .loop)) .continueOutsideLoop span
  | .expr _ value => do
    let _ ← checkExpr value none

def checkStmts : List Stmt → Check Unit
  | [] => pure ()
  | s :: ss => do
    checkStmt s
    checkStmts ss

def checkElse : ElseBranch → Check Unit
  | .absent => pure ()
  | .block body => inScope .block (checkStmts body)
  | .elseIf s => checkStmt s

def checkArmBody : ArmBody → Check Unit
  | .block body => checkStmts body
  | .expr value => do
    let _ ← checkExpr value none

def checkArm (t : Ty) : MatchArm → Check Bool
  | .mk _ pattern body =>
    inScope .block do
      let fine ← checkArmPattern t pattern
      checkArmBody body
      return fine

def checkArms (t : Ty) : List MatchArm → Check Bool
  | [] => return true
  | a :: as => do
    let fine ← checkArm t a
    let allFine ← checkArms t as
    return fine && allFine

end

end SourceCheck
