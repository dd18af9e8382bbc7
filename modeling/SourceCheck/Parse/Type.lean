import SourceCheck.Parse.Production

/-!
# Reading types

Primitive names, slices, arrays, pointers, the built-in generic types, tuples, and named types with arguments.
-/

namespace SourceCheck.Parser

def typeArgs (sub : Subparsers) : Parser (List TypeExpr) := do
  discard <| expectOperator .lt "'<'"
  let args ← commaList sub.type
  closeAngle
  return args

def optionalTypeArgs (sub : Subparsers) : Parser (List TypeExpr) := do
  if ← atOperator .lt then typeArgs sub else return []

def singleTypeArg (sub : Subparsers) (wrapper : String) : Parser TypeExpr := do
  discard <| expectOperator .lt s!"'<' after {wrapper}"
  let inner ← sub.type
  closeAngle
  return inner

def bracketType (sub : Subparsers) (start : Span) : Parser TypeExpr := do
  if ← acceptMark .rBracket then
    let elem ← sub.type
    return .slice (← since start) elem
  let size ← withStructLiterals true sub.expr
  discard <| expectMark .rBracket "']' after array size"
  let elem ← sub.type
  return .array (← since start) elem size

def pointerMutability : Parser Mutability := do
  if ← acceptKeyword .mutKw then
    return .mut
  if ← acceptKeyword .constKw then
    return .const
  expected "'mut' or 'const' after '*' in pointer type"

def pointerType (sub : Subparsers) (start : Span) : Parser TypeExpr := do
  let mutability ← pointerMutability
  let target ← sub.type
  return .pointer (← since start) mutability target

def tupleType (sub : Subparsers) (start : Span) : Parser TypeExpr := do
  if ← acceptMark .rParen then
    failAt (← since start) .unitType
  let elems ← commaList sub.type
  discard <| expectMark .rParen "')' after tuple type"
  if elems.length < 2 then
    failAt (← since start) .shortTupleType
  return .tuple (← since start) elems

def resultType (sub : Subparsers) (start : Span) : Parser TypeExpr := do
  discard <| expectOperator .lt "'<' after Result"
  let ok ← sub.type
  discard <| expectMark .comma "',' between Result type arguments"
  let err ← sub.type
  closeAngle
  return .result (← since start) ok err

def typeRule (sub : Subparsers) : Parser TypeExpr := do
  let start ← here
  match ← peekKind with
  | .primitive p =>
    discard advance
    return .primitive start p
  | .punctuation .lBracket =>
    discard advance
    bracketType sub start
  | .operator .star =>
    discard advance
    pointerType sub start
  | .punctuation .lParen =>
    discard advance
    tupleType sub start
  | .keyword .resultKw =>
    discard advance
    resultType sub start
  | .keyword .optionKw =>
    discard advance
    let inner ← singleTypeArg sub "Option"
    return .option (← since start) inner
  | .keyword .taskHandleKw =>
    discard advance
    let inner ← singleTypeArg sub "TaskHandle"
    return .taskHandle (← since start) inner
  | .ident name =>
    discard advance
    let args ← optionalTypeArgs sub
    return .named (← since start) name args
  | _ => expected "type"

end SourceCheck.Parser
