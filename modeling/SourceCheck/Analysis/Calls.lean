import SourceCheck.Analysis.Aggregates

/-!
# Calls

The type arguments of a generic call are found from the type that is expected of it and from the arguments, from left
to right.
-/

namespace SourceCheck

open Check

def giveUp (args : List Operand) : Check Ty := do
  Operand.checkAll args
  return .unknown

def refuseCall (p : SemanticProblem) (span : Span) (args : List Operand) : Check Ty := do
  report p span
  giveUp args

def checkArguments (callee : String) : List Operand → List (String × Ty) → Bindings → Check Bindings
  | o :: os, (name, t) :: params, b => do
    checkArguments callee os params (← checkAgainst o t b (.argument name callee))
  | _, _, b => return b

/-- The type of a call, when the parameters of `generics` are to be found. -/
def applySignature (callee : String) (sig : Signature) (generics : List String) (b : Bindings)
    (args : List Operand) (expected : Option Ty) (span : Span) : Check Ty := do
  if args.length ≠ sig.arity then
    report (.argumentCount callee (toString sig.arity) args.length) span
    Operand.checkAll args
    return sig.returnType.instantiate generics b
  let start :=
    match expected with
    | some t => if generics.isEmpty then b else sig.returnType.unify t b
    | none => b
  let found ← checkArguments callee args sig.params start
  return sig.returnType.instantiate generics found

def checkFunctionCall (span : Span) (module : Option String) (name : String) (info : FunctionInfo)
    (args : List Operand) (expected : Option Ty) : Check Ty := do
  match info.overload? args.length with
  | none => refuseCall (.argumentCount name info.arities args.length) span args
  | some (overload, sig) =>
    if info.isExtern then
      reportIf (!(← inside .unsafeBlock)) (.requiresUnsafe (.externCall name)) span
    recordCall span (.function module name overload info.isPredeclared)
    applySignature name sig sig.typeParams [] args expected span

def checkNamedCall (span : Span) (name : Name) (args : List Operand) (expected : Option Ty) : Check Ty := do
  match ← kind? name.node with
  | some (.function info) => checkFunctionCall span none name.node info args expected
  | some kind => refuseCall (.notCallable name.node kind.sort) name.span args
  | none => refuseCall (.unknownSymbol name.node) name.span args

def checkValueCall (callee : Operand) (args : List Operand) : Check Ty := do
  let t ← callee.check none
  Operand.checkAll args
  reportIf (!t.isUnknown) (.notCallableType t) callee.span
  return .unknown

def methodOf? (owner : Nominal) (method : Name) (kind : Option SymbolKind) :
    Check (Option (List String × MethodInfo)) := do
  match kind.bind SymbolKind.nominalInfo? with
  | none => return none
  | some info =>
    match info.methods.lookup method.node with
    | none =>
      report (.unknownMethod method.node owner.name) method.span
      return none
    | some found =>
      checkVisible owner found.visibility method
      return some (info.typeParams, found)

def findMethod? (owner : Nominal) (method : Name) : Check (Option (List String × MethodInfo)) := do
  methodOf? owner method (← nominal? owner)

def checkOwnMethodCall (span : Span) (owner : Nominal) (typeArgs : List Ty) (method : Name)
    (args : List Operand) (expected : Option Ty) : Check Ty := do
  match ← findMethod? owner method with
  | none => giveUp args
  | some (typeParams, info) =>
    reportIf (!info.hasSelf) (.notMethod method.node owner.name) method.span
    recordCall span (.method owner method.node)
    let sig := info.signature
    applySignature method.node sig sig.typeParams (.ofLists typeParams typeArgs) args expected span

def checkMethodCall (span : Span) (receiver : Ty) (method : Name) (args : List Operand)
    (expected : Option Ty) : Check Ty :=
  match receiver with
  | .struct n ts | .enum n ts => checkOwnMethodCall span n ts method args expected
  | .unknown => giveUp args
  | other => refuseCall (.noMethods other method.node) method.span args

/-- The type parameters of an owner that are to be found, and the types of the others. -/
def ownerArguments (typeName : Name) (params : List String) (typeArgs : List TypeExpr) :
    Check (List String × Bindings) := do
  if typeArgs.isEmpty then return (params, [])
  let ts ← resolveTypes typeArgs
  return ([], .ofLists params (← typeArguments typeName.node params ts typeName.span))

def checkAssociatedCall (span : Span) (typeName : Name) (typeArgs : List TypeExpr) (function : Name)
    (args : List Operand) (expected : Option Ty) : Check Ty := do
  match ← kind? typeName.node with
  | none => refuseCall (.unknownType typeName.node) typeName.span args
  | some kind =>
    match kind.nominalInfo? with
    | none => refuseCall (.noAssociatedFunctions typeName.node kind.sort) typeName.span args
    | some owner =>
      let (generics, b) ← ownerArguments typeName owner.typeParams typeArgs
      match ← findMethod? owner.nominal function with
      | none => giveUp args
      | some (_, info) =>
        reportIf info.hasSelf (.needsReceiver typeName.node function.node) function.span
        recordCall span (.method owner.nominal function.node)
        let sig := info.signature
        applySignature function.node sig (generics ++ sig.typeParams) b args expected span

end SourceCheck
