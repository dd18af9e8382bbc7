import SourceCheck.Analysis.Calls

/-!
# Dotted names

A dotted pair of names is a variant of an enum, a member of an imported module, or a field or method of a value.
-/

namespace SourceCheck

open Check

def dottedText (head member : Name) : String :=
  head.node ++ "." ++ member.node

inductive BuiltinVariant where
  | ok
  | err
  | someValue
  | noValue
deriving DecidableEq, Repr

namespace BuiltinVariant

def ofNames? (enum variant : String) : Option BuiltinVariant :=
  match enum, variant with
  | "Result", "Ok" => some .ok
  | "Result", "Err" => some .err
  | "Option", "Some" => some .someValue
  | "Option", "None" => some .noValue
  | _, _ => none

def arity : BuiltinVariant → Nat
  | .noValue => 0
  | _ => 1

def payload? : BuiltinVariant → Ty → Option Ty
  | .ok, .result t _ | .err, .result _ t | .someValue, .option t => some t
  | _, _ => none

/-- What the value does not tell comes from the type that is expected. -/
def type (v : BuiltinVariant) (payload : Ty) (expected : Option Ty) : Ty :=
  match v, expected with
  | .ok, some (.result _ t) => .result payload t
  | .ok, _ => .result payload .unknown
  | .err, some (.result t _) => .result t payload
  | .err, _ => .result .unknown payload
  | .someValue, _ => .option payload
  | .noValue, some (.option t) => .option t
  | .noValue, _ => .option .unknown

end BuiltinVariant

def checkBuiltinVariant (span : Span) (head member : Name) (args : List Operand) (expected : Option Ty) :
    Check Ty := do
  match BuiltinVariant.ofNames? head.node member.node with
  | none => refuseCall (.unknownVariant head.node member.node false) member.span args
  | some v =>
    if args.length ≠ v.arity then
      refuseCall (.argumentCount (dottedText head member) (toString v.arity) args.length) span args
    else
      recordCall span (.variant none member.node)
      match args with
      | [] => return v.type .unknown expected
      | o :: _ => return v.type (← o.check (expected.bind v.payload?)) expected

def checkPayload : List Operand → List Ty → Bindings → Check Bindings
  | o :: os, t :: ts, b => do
    checkPayload os ts (← checkAgainst o t b)
  | _, _, b => return b

def checkVariant (span : Span) (info : NominalInfo) (variants : List VariantInfo) (member : Name)
    (args : Option (List Operand)) (expected : Option Ty) : Check Ty := do
  let given := args.getD []
  match variants.find? (·.name = member.node) with
  | none =>
    let isFunction := args.isSome && (info.methods.lookup member.node).isSome
    refuseCall (.unknownVariant info.nominal.name member.node isFunction) member.span given
  | some v =>
    if given.length ≠ v.payload.length then
      let name := info.nominal.name ++ "." ++ v.name
      report (.argumentCount name (toString v.payload.length) given.length) span
      Operand.checkAll given
      return .enum info.nominal (info.typeParams.map fun _ => .unknown)
    let start :=
      match expected with
      | some (.enum n ts) => if n = info.nominal then Bindings.ofLists info.typeParams ts else []
      | _ => []
    let b ← checkPayload given v.payload start
    recordCall span (.variant (some info.nominal) v.name)
    return .enum info.nominal (b.typesOf info.typeParams)

/-- Nothing is known about the members of a module that is not read. -/
def checkExported (span : Span) (head member : Name) (args : Option (List Operand)) (expected : Option Ty) :
    Option ModuleExports → Check Ty
  | none => giveUp (args.getD [])
  | some exports =>
    match exports.item? member.node with
    | none => refuseCall (.unknownMember head.node member.node exports.module) member.span (args.getD [])
    | some item =>
      if item.visibility = .priv then
        refuseCall (.privateAccess member.node exports.module) member.span (args.getD [])
      else
        match item.kind, args with
        | .function info, some os =>
          checkFunctionCall span (some exports.module) member.node info os expected
        | .const t _, none => return t
        | .function _, none => refuse (.notValue (dottedText head member) .function) span
        | kind, _ => refuseCall (.memberUnusable (dottedText head member) kind.describe) span (args.getD [])

def checkModuleMember (span : Span) (target : Option String) (head member : Name)
    (args : Option (List Operand)) (expected : Option Ty) : Check Ty := do
  checkExported span head member args expected (target.bind (← read).library.module?)

def checkValueMember (span : Span) (head member : Name) (args : Option (List Operand)) (expected : Option Ty)
    (t : Ty) : Check Ty := do
  recordType head.span t
  match args with
  | none => fieldType t member
  | some os => checkMethodCall span t member os expected

def checkDotted (span : Span) (head member : Name) (args : Option (List Operand)) (expected : Option Ty) :
    Check Ty := do
  if head.node = "Result" || head.node = "Option" then
    checkBuiltinVariant span head member (args.getD []) expected
  else
    match ← kind? head.node with
    | some (.enum info variants) => checkVariant span info variants member args expected
    | some (.module _ target) => checkModuleMember span target head member args expected
    | some (.variable t _ _) | some (.const t _) => checkValueMember span head member args expected t
    | some kind => refuseCall (.noMembers head.node member.node kind.sort) head.span (args.getD [])
    | none => refuseCall (.unknownSymbol head.node) head.span (args.getD [])

end SourceCheck
