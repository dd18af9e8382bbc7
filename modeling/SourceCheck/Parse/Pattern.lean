import SourceCheck.Parse.Production

/-!
# Reading patterns

Parentheses around one pattern only group it.
-/

namespace SourceCheck.Parser

def patternArgs (sub : Subparsers) : Parser (List Pattern) := do
  if ← acceptKeyword .noneKw then
    return []
  if ← atMark .rParen then
    reportHere (.emptyWithoutNone "pattern argument lists")
    return []
  commaList sub.pattern

def variantArgs (sub : Subparsers) : Parser (List Pattern) := do
  if ← acceptMark .lParen then
    let args ← patternArgs sub
    discard <| expectMark .rParen "')' after pattern arguments"
    return args
  return []

def variantPattern (sub : Subparsers) (enumName : String) (start : Span) : Parser Pattern := do
  let variant ← identifier
  let args ← variantArgs sub
  return .variant (← since start) enumName variant args

def namedPattern (sub : Subparsers) (head : String) (builtin : Bool) (start : Span) :
    Parser Pattern := do
  if head = "_" then return .wildcard start
  if ← atMark .colonColon then
    let span ← advance
    report span (.pathPattern head)
    return ← variantPattern sub head start
  if ← acceptMark .dot then
    return ← variantPattern sub head start
  if builtin then
    expected s!"'.' and a variant after '{head}'"
  return .binding start head false

def parenPattern (sub : Subparsers) (start : Span) : Parser Pattern := do
  let first ← sub.pattern
  if ← acceptMark .comma then
    let second ← sub.pattern
    let rest ← commaSeparated sub.pattern second
    discard <| expectMark .rParen "')' after tuple pattern"
    return .tuple (← since start) (first :: rest)
  discard <| expectMark .rParen "')' after pattern"
  return first

def literalPattern (start : Span) (value : Literal) : Parser Pattern := do
  discard advance
  return .literal start value

def patternRule (sub : Subparsers) : Parser Pattern := do
  let start ← here
  match ← peekKind with
  | .int value _ => literalPattern start (.int value)
  | .string value _ => literalPattern start (.string value)
  | .char value => literalPattern start (.char value)
  | .keyword .trueKw => literalPattern start (.bool true)
  | .keyword .falseKw => literalPattern start (.bool false)
  | .float _ => failAt start .floatPattern
  | .keyword .mutKw =>
    discard advance
    let name ← identifier
    return .binding (← since start) name true
  | .punctuation .lParen =>
    discard advance
    parenPattern sub start
  | .keyword .resultKw =>
    discard advance
    namedPattern sub "Result" true start
  | .keyword .optionKw =>
    discard advance
    namedPattern sub "Option" true start
  | .ident name =>
    discard advance
    namedPattern sub name false start
  | _ => expected "pattern"

end SourceCheck.Parser
