import SourceCheck.Parse.Stmt

/-!
# Reading declarations

A declaration without a visibility, other than an `impl` block, is reported and taken as private. Empty parameter
lists and bodies are written `none`.
-/

namespace SourceCheck.Parser

def startsDeclaration : TokenKind → Bool
  | .keyword .fnKw | .keyword .structKw | .keyword .enumKw | .keyword .externKw
  | .keyword .constKw => true
  | _ => false

def visibility : Parser Visibility := do
  if ← acceptKeyword .pubKw then
    return .pub
  if ← acceptKeyword .privKw then
    return .priv
  if startsDeclaration (← peekKind) then
    reportHere .missingVisibility
    return .priv
  expected "'pub' or 'priv'"

/-! ### Functions -/

/-- A type parameter. A bound behind it is reported and dropped. -/
def typeParam : Parser Name := do
  let param ← name
  if ← atMark .colon then
    let span ← advance
    report span .constrainedTypeParameter
    discard grammar.type
  return param

def typeParams : Parser (List Name) := do
  if ← acceptOperator .lt then
    let params ← commaList typeParam
    closeAngle
    return params
  return []

def param : Parser Param := do
  let start ← here
  let annotations ← annotationList
  let name ← identifier
  discard <| expectMark .colon "':' and a parameter type"
  let type ← grammar.type
  return ⟨← since start, annotations, name, type⟩

/-- The parameters of a function, and where its receiver is written. -/
structure ParamList where
  receiver : Option Span := none
  params : List Param := []

/-- A receiver is taken in methods only, in the first place. -/
def ParamList.next (list : ParamList) (isMethod : Bool) : Parser ParamList := do
  if ← atKeyword .selfKw then
    let span ← advance
    if !isMethod then
      report span .selfOutsideMethod
      return list
    if list.receiver.isSome || !list.params.isEmpty then
      report span .selfNotFirst
      return list
    return { list with receiver := some span }
  return { list with params := list.params ++ [← param] }

def nextParam (isMethod : Bool) (list : ParamList) : Parser (Option ParamList) := do
  if ← acceptMark .comma then return some (← list.next isMethod) else return none

def paramList (isMethod : Bool) : Parser ParamList := do
  if ← acceptKeyword .noneKw then
    return {}
  if ← atMark .rParen then
    reportHere (.emptyWithoutNone "parameter lists")
    return {}
  if ← at? (.primitive .void) then
    reportHere .voidParameters
    discard advance
    return {}
  iterate (nextParam isMethod) (← ParamList.next {} isMethod)

def functionDecl (annotations : List Annotation) (visibility : Visibility) (isMethod : Bool) :
    Parser FunctionDecl := do
  discard <| expectKeyword .fnKw "'fn'"
  let name ← name
  let typeParams ← typeParams
  discard <| expectMark .lParen "'(' after function name"
  let list ← paramList isMethod
  discard <| expectMark .rParen "')' after parameters"
  discard <| expectMark .arrow "'->' and a return type"
  let returnType ← grammar.type
  let body ← grammar.block
  return { annotations, visibility, name, typeParams, receiver := list.receiver,
           params := list.params, returnType, body }

def externLibrary : Parser (Option String) := do
  match ← peekKind with
  | .string value _ =>
    discard advance
    return some value
  | _ => return none

def externDecl (annotations : List Annotation) (visibility : Visibility) : Parser ExternDecl := do
  discard <| expectKeyword .externKw "'extern'"
  let library ← externLibrary
  discard <| expectKeyword .fnKw "'fn' after 'extern'"
  let name ← name
  discard <| expectMark .lParen "'(' after extern function name"
  let list ← paramList false
  discard <| expectMark .rParen "')' after parameters"
  discard <| expectMark .arrow "'->' and a return type"
  let returnAnnotations ← annotationList
  let returnType ← grammar.type
  if ← atMark .lBrace then
    fail .externBody
  discard <| expectMark .semicolon "';' after extern declaration"
  return { annotations, visibility, library, name, params := list.params, returnAnnotations,
           returnType }

/-! ### Types -/

/-- The members between the braces, described as `what` when there are none. -/
def members {α : Type} (what : String) (member : Parser α) : Parser (List α) := do
  if ← acceptKeyword .noneKw then
    return []
  if ← atMark .rBrace then
    reportHere (.emptyWithoutNone what)
    return []
  bracedList member

def fieldVisibility : Parser (Option Visibility) := do
  if ← acceptKeyword .pubKw then
    return some .pub
  if ← acceptKeyword .privKw then
    return some .priv
  return none

def fieldDecl : Parser FieldDecl := do
  let start ← here
  let annotations ← annotationList
  let visibility ← fieldVisibility
  let name ← identifier
  discard <| expectMark .colon "':' and a field type"
  let type ← grammar.type
  return ⟨← since start, annotations, visibility, name, type⟩

def structDecl (annotations : List Annotation) (visibility : Visibility) : Parser StructDecl := do
  discard <| expectKeyword .structKw "'struct'"
  let name ← name
  let typeParams ← typeParams
  discard <| expectMark .lBrace "'\x7b' to open struct body"
  let fields ← members "struct bodies" fieldDecl
  discard <| expectMark .rBrace "'\x7d' to close struct body"
  return { annotations, visibility, name, typeParams, fields }

def payloadTypes (variant : String) : Parser (List TypeExpr) := do
  if ← atMark .rParen then
    reportHere (.emptyPayload variant)
    return []
  commaList grammar.type

def payload (variant : String) : Parser (List TypeExpr) := do
  if ← acceptMark .lParen then
    let types ← payloadTypes variant
    discard <| expectMark .rParen "')' after variant payload"
    return types
  return []

def discriminant : Parser (Option Expr) := do
  if ← acceptOperator .eq then return some (← grammar.expr) else return none

def variantDecl : Parser VariantDecl := do
  let start ← here
  let name ← identifier
  let payload ← payload name
  let value ← discriminant
  return ⟨← since start, name, payload, value⟩

def enumDecl (annotations : List Annotation) (visibility : Visibility) : Parser EnumDecl := do
  discard <| expectKeyword .enumKw "'enum'"
  let name ← name
  let typeParams ← typeParams
  discard <| expectMark .lBrace "'\x7b' to open enum body"
  let variants ← members "enum bodies" variantDecl
  discard <| expectMark .rBrace "'\x7d' to close enum body"
  return { annotations, visibility, name, typeParams, variants }

/-! ### Constants and methods -/

def constDecl (annotations : List Annotation) (visibility : Visibility) : Parser ConstDecl := do
  discard <| expectKeyword .constKw "'const'"
  let name ← name
  discard <| expectMark .colon "':' and a const type"
  let type ← grammar.type
  discard <| expectOperator .eq "'=' and a const value"
  let value ← grammar.expr
  discard <| expectMark .semicolon "';' after const declaration"
  return { annotations, visibility, name, type, value }

def method : Parser (Spanned FunctionDecl) := do
  let start ← here
  let annotations ← annotationList
  let visibility ← visibility
  if !(← atKeyword .fnKw) then
    expected "'fn' in impl block"
  let decl ← functionDecl annotations visibility true
  return ⟨decl, ← since start⟩

def implBlock (annotations : List Annotation) : Parser ImplBlock := do
  discard <| expectKeyword .implKw "'impl'"
  let target ← name
  discard <| expectMark .lBrace "'\x7b' to open impl block"
  let methods ← recovering atClose method ParseState.toMethod
  discard <| expectMark .rBrace "'\x7d' to close impl block"
  return { annotations, target, methods }

/-- Any declaration but an `impl` block, behind annotations and visibility. -/
def itemDecl (annotations : List Annotation) (visibility : Visibility) : Parser Declaration := do
  match ← peekKind with
  | .keyword .fnKw => return .function (← functionDecl annotations visibility false)
  | .keyword .structKw => return .struct (← structDecl annotations visibility)
  | .keyword .enumKw => return .enum (← enumDecl annotations visibility)
  | .keyword .externKw => return .externFunction (← externDecl annotations visibility)
  | .keyword .constKw => return .const (← constDecl annotations visibility)
  | _ => expected "declaration ('fn', 'struct', 'enum', 'extern', 'const', or 'impl')"

/-- Any declaration but an `impl` block, behind annotations. -/
def visibleDecl (start : Span) (annotations : List Annotation) : Parser (Spanned Declaration) := do
  let visibility ← visibility
  let decl ← itemDecl annotations visibility
  return ⟨decl, ← since start⟩

def annotatedDecl (start : Span) (annotations : List Annotation) : Parser (Spanned Declaration) := do
  if ← atKeyword .implKw then
    let block ← implBlock annotations
    return ⟨.impl block, ← since start⟩
  if ← atKeyword .importKw then
    fail .lateImport
  visibleDecl start annotations

def declaration : Parser (Spanned Declaration) := do
  let start ← here
  let annotations ← annotationList
  annotatedDecl start annotations

end SourceCheck.Parser
