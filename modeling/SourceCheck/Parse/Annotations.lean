import SourceCheck.Parse.Recovery
import SourceCheck.Tree.Basic

/-!
# Reading annotations

`#[name]`, `#[name(none)]`, `#[name(value, ...)]` and `#[name(key = value, ...)]`. `@name` is reported and read as
`#[name]`.
-/

namespace SourceCheck.Parser

def annotationName : Parser String := do
  match ← peekKind with
  | .ident name =>
    discard advance
    return name
  | _ => expected "annotation name"

def annotationValue? : TokenKind → Option AnnotationValue
  | .string value _ => some (.str value)
  | .ident name => some (.ident name)
  | .int value _ => some (.int value)
  | .keyword .trueKw => some (.bool true)
  | .keyword .falseKw => some (.bool false)
  | _ => none

def annotationValue : Parser AnnotationValue := do
  match annotationValue? (← peekKind) with
  | some value =>
    discard advance
    return value
  | none => expected "annotation value (string, identifier, integer, or boolean)"

def annotationPair : Parser (String × AnnotationValue) := do
  let key ← identifier
  discard <| expectOperator .eq "'=' in named annotation argument"
  return (key, ← annotationValue)

def annotationArgs : Parser AnnotationArgs := do
  if ← acceptKeyword .noneKw then
    return .empty
  if ← atMark .rParen then
    reportHere (.emptyWithoutNone "annotation argument lists")
    return .empty
  if (← peekKind).isIdent && (← peekAt 1).kind = .operator .eq then
    return .named (← commaList annotationPair)
  return .values (← commaList annotationValue)

def parenArgs : Parser AnnotationArgs := do
  if ← acceptMark .lParen then
    let args ← annotationArgs
    discard <| expectMark .rParen "')' after annotation arguments"
    return args
  return .empty

def hashForm (start : Span) : Parser Annotation := do
  discard <| expectMark .lBracket "'[' after '#'"
  let name ← annotationName
  let args ← parenArgs
  discard <| expectMark .rBracket "']' to close annotation"
  return ⟨name, args, ← since start⟩

def atSignForm (start : Span) : Parser Annotation := do
  let name ← annotationName
  let span ← since start
  report span (.atSignForm name)
  return ⟨name, .empty, span⟩

def nextAnnotation (found : List Annotation) : Parser (Option (List Annotation)) := do
  match ← peekKind with
  | .punctuation .hash =>
    let start ← advance
    return some (found ++ [← hashForm start])
  | .punctuation .atSign =>
    let start ← advance
    return some (found ++ [← atSignForm start])
  | _ => return none

def annotationList : Parser (List Annotation) :=
  iterate nextAnnotation []

end SourceCheck.Parser
