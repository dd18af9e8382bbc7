import SourceCheck.Parse.Type

/-!
# Reading expressions

Binary operators group to the left. An operand has at most one logical and one pointer operator before it. A name with
angles behind it is a generic type only if a double colon or a struct literal follows.
-/

namespace SourceCheck.Parser

/-! ### Operators before an operand -/

def logicalPrefix? : TokenKind → Option LogicalPrefix
  | .operator .bang => some .not
  | .operator .minus => some .neg
  | .operator .tilde => some .bitNot
  | _ => none

def isPointerPrefix : TokenKind → Bool
  | .operator .star | .operator .amp | .operator .andAnd => true
  | _ => false

def skipLogical : Parser Unit := do
  if (logicalPrefix? (← peekKind)).isSome then
    reportHere (.repeatedPrefix (← peek).lexeme)
    iterate (fun _ => do
      if (logicalPrefix? (← peekKind)).isSome then
        discard advance
        return some ()
      else
        return none) ()

def logicalOperator : Parser (Option LogicalPrefix) := do
  match logicalPrefix? (← peekKind) with
  | some op =>
    discard advance
    skipLogical
    return some op
  | none => return none

def skipPointers : Parser Unit := do
  if isPointerPrefix (← peekKind) then
    reportHere (.repeatedPrefix (← peek).lexeme)
    iterate (fun _ => do
      if isPointerPrefix (← peekKind) then
        discard advance
        discard <| acceptKeyword .mutKw
        return some ()
      else
        return none) ()

/-- The pointer operator, if there is one. A double ampersand is two of them. -/
def pointerOperator : Parser (Option PointerPrefix) := do
  match ← peekKind with
  | .operator .star =>
    discard advance
    skipPointers
    return some .deref
  | .operator .amp =>
    discard advance
    let mutable ← acceptKeyword .mutKw
    skipPointers
    return some (if mutable then .addressOfMut else .addressOf)
  | .operator .andAnd =>
    let span ← advance
    report span (.repeatedPrefix "&")
    discard <| acceptKeyword .mutKw
    skipPointers
    return some .addressOf
  | _ => return none

/-! ### Arguments -/

def callArgs (sub : Subparsers) : Parser (List Expr) := do
  discard <| expectMark .lParen "'('"
  if ← acceptMark .rParen then
    return []
  if ← acceptKeyword .noneKw then
    discard <| expectMark .rParen "')' after 'none'"
    return []
  if ← at? (.primitive .void) then
    let span ← advance
    report span .voidArguments
    discard <| expectMark .rParen "')' after arguments"
    return []
  let args ← withStructLiterals true (commaList sub.expr)
  discard <| expectMark .rParen "')' after arguments"
  return args

/-! ### Primary expressions -/

def startsFields (first second : TokenKind) : Bool :=
  first = .punctuation .rBrace ||
    (first = .keyword .noneKw && second = .punctuation .rBrace) ||
    (first.isIdent && second = .punctuation .colon)

def atStructLiteral : Parser Bool := do
  let context ← read
  let state ← get
  return context.structLiterals && (state.peek context.finish).kind = .punctuation .lBrace &&
    startsFields (state.peekAt context.finish 1).kind (state.peekAt context.finish 2).kind

def fieldInit (sub : Subparsers) : Parser FieldInit := do
  let field ← name
  discard <| expectMark .colon "':' after field name"
  return .mk field (← withStructLiterals true sub.expr)

def fieldInits (sub : Subparsers) : Parser (List FieldInit) := do
  if ← acceptKeyword .noneKw then
    return []
  if ← atMark .rBrace then
    return []
  bracedList (fieldInit sub)

def structLiteral (sub : Subparsers) (name : Name) (typeArgs : List TypeExpr) : Parser Expr := do
  discard <| expectMark .lBrace "'\x7b' to open struct literal"
  let fields ← fieldInits sub
  discard <| expectMark .rBrace "'\x7d' to close struct literal"
  return .structLit (← since name.span) name typeArgs fields

def associatedCall (sub : Subparsers) (typeName : Name) (typeArgs : List TypeExpr) : Parser Expr := do
  discard <| expectMark .colonColon "'::'"
  let function ← name
  if !(← atMark .lParen) then
    fail (.expectedArguments (← peekKind).describe)
  let args ← callArgs sub
  return .assocCall (← since typeName.span) typeName typeArgs function args

def dottedPair (sub : Subparsers) (head : Name) : Parser Expr := do
  let member ← name
  if ← atMark .lParen then
    let args ← callArgs sub
    return .dottedCall (← since head.span) head member args
  return .dotted (← since head.span) head member

/-- Type arguments before a double colon or struct literal. Otherwise nothing is read. -/
def genericSuffix (sub : Subparsers) : Parser (Option (List TypeExpr)) := do
  let before ← get
  match ← attempt (typeArgs sub) with
  | .ok args =>
    if !(← get).splitAngle then
      if ← atMark .colonColon then return some args
      if ← atStructLiteral then return some args
  | .error _ => pure ()
  set before
  return none

def nameExpr (sub : Subparsers) (first : Name) : Parser Expr := do
  discard advance
  match ← peekKind with
  | .punctuation .colonColon => associatedCall sub first []
  | .operator .lt =>
    match ← genericSuffix sub with
    | some args =>
      if ← atMark .colonColon then associatedCall sub first args
      else structLiteral sub first args
    | none => return .ident first.span first.node
  | .punctuation .dot =>
    if (← peekAt 1).kind.isIdent then
      discard advance
      dottedPair sub first
    else
      return .ident first.span first.node
  | _ =>
    if ← atStructLiteral then structLiteral sub first []
    else return .ident first.span first.node

def parenExpr (sub : Subparsers) (start : Span) : Parser Expr := do
  if ← acceptMark .rParen then
    return .literal (← since start) .unit
  withStructLiterals true do
    let first ← sub.expr
    if ← acceptMark .comma then
      let second ← sub.expr
      let rest ← commaSeparated sub.expr second
      discard <| expectMark .rParen "')' after tuple elements"
      return .tuple (← since start) (first :: rest)
    discard <| expectMark .rParen "')'"
    return .paren (← since start) first

def arrayExpr (sub : Subparsers) (start : Span) : Parser Expr := do
  if ← acceptKeyword .noneKw then
    discard <| expectMark .rBracket "']' after 'none'"
    return .array (← since start) []
  if ← atMark .rBracket then
    reportHere (.emptyWithoutNone "array literals")
    discard advance
    return .array (← since start) []
  withStructLiterals true do
    let first ← sub.expr
    if ← acceptMark .semicolon then
      let count ← sub.expr
      discard <| expectMark .rBracket "']' after repeat count"
      return .arrayRepeat (← since start) first count
    let elems ← commaSeparated sub.expr first
    discard <| expectMark .rBracket "']' after array elements"
    return .array (← since start) elems

def builtinVariant (sub : Subparsers) (head : Name) : Parser Expr := do
  discard advance
  discard <| expectMark .dot s!"'.' and a variant after '{head.node}'"
  dottedPair sub head

def literalExpr (start : Span) (value : Literal) : Parser Expr := do
  discard advance
  return .literal start value

def primaryRule (sub : Subparsers) : Parser Expr := do
  let start ← here
  match ← peekKind with
  | .int value _ => literalExpr start (.int value)
  | .float value => literalExpr start (.float value)
  | .string value _ => literalExpr start (.string value)
  | .char value => literalExpr start (.char value)
  | .keyword .trueKw => literalExpr start (.bool true)
  | .keyword .falseKw => literalExpr start (.bool false)
  | .keyword .selfKw =>
    discard advance
    return .selfRef start
  | .keyword .sizeofKw =>
    discard advance
    discard <| expectMark .lParen "'(' after sizeof"
    let type ← sub.type
    discard <| expectMark .rParen "')' after sizeof type"
    return .sizeof (← since start) type
  | .keyword .awaitKw =>
    discard advance
    let handle ← sub.operand
    return .await (← since start) handle
  | .punctuation .lParen =>
    discard advance
    parenExpr sub start
  | .punctuation .lBracket =>
    discard advance
    arrayExpr sub start
  | .keyword .resultKw => builtinVariant sub ⟨"Result", start⟩
  | .keyword .optionKw => builtinVariant sub ⟨"Option", start⟩
  | .ident first => nameExpr sub ⟨first, start⟩
  | .keyword .noneKw => failAt start .noneAsValue
  | _ => expected "expression"

/-! ### Behind an operand -/

def indexModulus : Nat := Nat.pow 2 64

def tupleIndex? (digits : List Char) : Option Nat :=
  if !digits.isEmpty && digits.all Char.isDigit then
    let value := digits.foldl (fun n d => n * 10 + (d.toNat - '0'.toNat)) 0
    if value < indexModulus then some value else none
  else none

def tupleIndexes? (lexeme : String) : Option (Nat × Nat) := do
  let first ← tupleIndex? (lexeme.toList.takeWhile (· ≠ '.'))
  let second ← tupleIndex? ((lexeme.toList.dropWhile (· ≠ '.')).drop 1)
  return (first, second)

/-- A field or tuple index. Two tuple indexes with a point between them are one token. -/
def memberAccess (base : Expr) : Parser Expr := do
  let token ← peek
  match token.kind with
  | .ident field =>
    discard advance
    return .field (← since base.span) base ⟨field, token.span⟩
  | .int value .decimal =>
    discard advance
    return .tupleIndex (← since base.span) base (value % indexModulus)
  | .float _ =>
    match tupleIndexes? token.lexeme with
    | some (first, second) =>
      discard advance
      let inner := base.span.merge { start := token.span.start, stop := token.span.start + 1 }
      return .tupleIndex (← since inner) (.tupleIndex inner base first) second
    | none => failAt token.span (.badTupleIndex token.lexeme)
  | _ => expected "field name or tuple index after '.'"

def sliceEnd (sub : Subparsers) : Parser (Option Expr) := do
  if ← atMark .rBracket then return none else return some (← sub.expr)

/-- An index or slice. The closing bracket is not read. -/
def bracketSuffix (sub : Subparsers) (base : Expr) : Parser (Span → Expr) := do
  if ← acceptMark .colon then
    let stop ← sliceEnd sub
    return fun span => .slice span base none stop
  let first ← sub.expr
  if ← acceptMark .colon then
    let stop ← sliceEnd sub
    return fun span => .slice span base (some first) stop
  return fun span => .index span base first

def suffix (sub : Subparsers) (base : Expr) : Parser (Option Expr) := do
  match ← peekKind with
  | .punctuation .lParen =>
    let args ← callArgs sub
    return some (.call (← since base.span) base args)
  | .punctuation .dot =>
    discard advance
    return some (← memberAccess base)
  | .punctuation .lBracket =>
    discard advance
    let build ← withStructLiterals true (bracketSuffix sub base)
    discard <| expectMark .rBracket "']' after index"
    return some (build (← since base.span))
  | _ => return none

def operandRule (sub : Subparsers) : Parser Expr := do
  iterate (suffix sub) (← nested (primaryRule sub))

def unaryRule (sub : Subparsers) : Parser Expr := do
  let start ← here
  let logical ← logicalOperator
  let pointer ← pointerOperator
  let operand ← operandRule sub
  if logical.isNone && pointer.isNone then
    return operand
  return .unary (start.merge operand.span) logical pointer operand

/-! ### Binary operators -/

def binaryOp? : TokenKind → Option BinaryOp
  | .operator o => BinaryOp.ofOperator? o
  | _ => none

/-- One operator of at least `minPrecedence` and its right operand, if any. -/
def operation (sub : Subparsers) (minPrecedence : Nat) (left : Expr) : Parser (Option Expr) := do
  match binaryOp? (← peekKind) with
  | some op =>
    if op.operator.precedence < minPrecedence then return none
    discard advance
    let right ← sub (.expr (op.operator.precedence + 1))
    return some (.binary (left.span.merge (Expr.span right)) left op right)
  | none => return none

/-- An expression with operators of at least `minPrecedence`. -/
def exprRule (sub : Subparsers) (minPrecedence : Nat) : Parser Expr := do
  iterate (operation sub minPrecedence) (← unaryRule sub)

end SourceCheck.Parser
