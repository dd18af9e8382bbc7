import SourceCheck.Parse.Annotations
import SourceCheck.Parse.Expr
import SourceCheck.Parse.Pattern

/-!
# Reading statements

A statement that fails is reported, and the block is read on from the next one. The heads of `if`, `for` and `match`
hold no struct literals.
-/

namespace SourceCheck

namespace Parser

def headExpr (sub : Subparsers) : Parser Expr :=
  withStructLiterals false sub.expr

def letStmt (sub : Subparsers) (start : Span) (annotations : List Annotation) : Parser Stmt := do
  discard <| expectKeyword .letKw "'let'"
  let mutable ← acceptKeyword .mutKw
  let bound ← name
  if !(← acceptMark .colon) then
    fail (.untypedBinding bound.node)
  let type ← sub.type
  discard <| expectOperator .eq "'=' and an initial value"
  let value ← sub.expr
  discard <| expectMark .semicolon "';' after let statement"
  return .letBinding (← since start) annotations mutable bound type value

def returnStmt (sub : Subparsers) (start : Span) : Parser Stmt := do
  if ← atMark .semicolon then
    fail .bareReturn
  let value ← sub.expr
  discard <| expectMark .semicolon "';' after return value"
  return .returnValue (← since start) value

def elseBranch (sub : Subparsers) : Parser ElseBranch := do
  if ← acceptKeyword .elseKw then
    if ← atKeyword .ifKw then
      return .elseIf (← nested (sub .ifStmt))
    return .block (← sub.block)
  return .absent

def ifRule (sub : Subparsers) : Parser Stmt := do
  let start ← expectKeyword .ifKw "'if'"
  if ← acceptKeyword .letKw then
    let pattern ← sub.pattern
    discard <| expectOperator .eq "'=' in 'if let'"
    let value ← headExpr sub
    let body ← sub.block
    let otherwise ← elseBranch sub
    return .ifLet (← since start) pattern value body otherwise
  let condition ← headExpr sub
  let body ← sub.block
  let otherwise ← elseBranch sub
  return .ifThen (← since start) condition body otherwise

def forStmt (sub : Subparsers) (start : Span) : Parser Stmt := do
  let binding ← name
  discard <| expectKeyword .inKw "'in' after loop variable"
  let iterable ← headExpr sub
  let body ← sub.block
  return .forIn (← since start) binding iterable body

def armBody (sub : Subparsers) : Parser ArmBody := do
  if ← atMark .lBrace then
    let body ← sub.block
    discard <| acceptMark .comma
    return .block body
  let value ← sub.expr
  if !(← acceptMark .comma) then
    if !(← atMark .rBrace) then
      expected "',' or '\x7d' after match arm"
  return .expr value

def matchArm (sub : Subparsers) : Parser MatchArm := do
  let start ← here
  let pattern ← sub.pattern
  discard <| expectMark .fatArrow "'=>' after match pattern"
  let body ← armBody sub
  return .mk (← since start) pattern body

def matchStmt (sub : Subparsers) (start : Span) : Parser Stmt := do
  let scrutinee ← headExpr sub
  discard <| expectMark .lBrace "'\x7b' to open match arms"
  let arms ← recoveringInBlock (matchArm sub) ParseState.toArm
  discard <| expectMark .rBrace "'\x7d' to close match"
  return .matchOn (← since start) scrutinee arms

def spawnStmt (sub : Subparsers) (start : Span) : Parser Stmt := do
  let call ← sub.expr
  discard <| expectMark .semicolon "';' after spawn"
  return .spawn (← since start) call

def spawnWithHandleStmt (sub : Subparsers) (start : Span) : Parser Stmt := do
  let handle ← name
  discard <| expectOperator .eq "'=' after handle name"
  let call ← sub.expr
  discard <| expectMark .semicolon "';' after spawn_with_handle"
  return .spawnWithHandle (← since start) handle call

def simpleStmt (sub : Subparsers) (start : Span) : Parser Stmt := do
  let value ← sub.expr
  if ← acceptOperator .eq then
    let source ← sub.expr
    discard <| expectMark .semicolon "';' after assignment"
    return .assign (← since start) value source
  discard <| expectMark .semicolon "';' after expression"
  return .expr (← since start) value

def stmtRule (sub : Subparsers) : Parser Stmt := do
  let start ← here
  match ← peekKind with
  | .punctuation .hash | .punctuation .atSign =>
    let annotations ← annotationList
    if !(← atKeyword .letKw) then
      expected "'let' after statement annotations"
    letStmt sub start annotations
  | .keyword .letKw => letStmt sub start []
  | .keyword .returnKw =>
    discard advance
    returnStmt sub start
  | .keyword .ifKw => ifRule sub
  | .keyword .forKw =>
    discard advance
    forStmt sub start
  | .keyword .matchKw =>
    discard advance
    matchStmt sub start
  | .keyword .spawnKw =>
    discard advance
    spawnStmt sub start
  | .keyword .spawnWithHandleKw =>
    discard advance
    spawnWithHandleStmt sub start
  | .keyword .unsafeKw =>
    discard advance
    let body ← sub.block
    return .unsafeBlock (← since start) body
  | .punctuation .lBrace =>
    let body ← sub.block
    return .block (← since start) body
  | .keyword .breakKw =>
    discard advance
    discard <| expectMark .semicolon "';' after 'break'"
    return .breakLoop (← since start)
  | .keyword .continueKw =>
    discard advance
    discard <| expectMark .semicolon "';' after 'continue'"
    return .continueLoop (← since start)
  | _ => simpleStmt sub start

def blockRule (sub : Subparsers) : Parser (List Stmt) := do
  discard <| expectMark .lBrace "'\x7b' to open block"
  let body ← recoveringInBlock (stmtRule sub) ParseState.toStatement
  discard <| expectMark .rBrace "'\x7d' to close block"
  return body

/-! ### The rules, tied together: a part is read only behind a token of the whole -/

/-- Types, patterns and blocks each nest one level deeper. -/
def rule (sub : Subparsers) : (p : Production) → Parser p.Output
  | .type => nested (typeRule sub)
  | .pattern => nested (patternRule sub)
  | .expr minPrecedence => exprRule sub minPrecedence
  | .operand => operandRule sub
  | .block => nested (blockRule sub)
  | .ifStmt => ifRule sub

/-- A part starts behind the start of the whole. -/
def parseAt (p : Production) (context : ParseContext) (s : ParseState) : ParseResult p.Output :=
  rule (fun q context' s' =>
    if s'.rest.length < s.rest.length then parseAt q context' s'
    else (.error ⟨.nestingTooDeep, (s'.peek context'.finish).span⟩, s')) p context s
termination_by s.rest.length

def grammar : Subparsers :=
  fun p context s => parseAt p context s

end Parser

end SourceCheck
