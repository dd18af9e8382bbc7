import SourceCheck.Analysis.Dotted
import SourceCheck.Coverage.Matrix

/-!
# Patterns

Patterns are checked against the type of the value, and their bindings enter the current scope.
-/

namespace SourceCheck

open Check

def Symbol.local (name : String) (type : Ty) (mutable : Bool) (origin : BindingOrigin) (span : Span) :
    Symbol :=
  { name, kind := .variable type mutable origin, span }

def builtinPayload? (span : Span) (enum variant : String) (expected : Ty) : Check (Option (List Ty)) := do
  match BuiltinVariant.ofNames? enum variant with
  | some .noValue => return some []
  | some v => return some [(v.payload? expected).getD .unknown]
  | none =>
    report (.unknownVariant enum variant false) span
    return none

def enumPayload? (span : Span) (enum variant : String) (expected : Ty) : Check (Option (List Ty)) := do
  match ← kind? enum with
  | some (.enum info variants) =>
    let args? :=
      match expected with
      | .enum n ts => if n = info.nominal then some ts else none
      | .unknown => some []
      | _ => none
    match args? with
    | none =>
      report (.mismatch (.type expected) (.variantOf enum) .plain) span
      return none
    | some args =>
      match variants.find? (·.name = variant) with
      | none =>
        report (.unknownVariant enum variant false) span
        return none
      | some v =>
        return some (v.payload.map (Ty.instantiate info.typeParams (.ofLists info.typeParams args)))
  | some kind =>
    report (.notEnum enum kind.sort) span
    return none
  | none =>
    report (.unknownType enum) span
    return none

def variantPayload? (span : Span) (enum variant : String) (expected : Ty) : Check (Option (List Ty)) :=
  match enum, expected with
  | "Result", .result .. | "Result", .unknown | "Option", .option _ | "Option", .unknown =>
    builtinPayload? span enum variant expected
  | "Result", _ | "Option", _ => do
    report (.mismatch (.type expected) (.variantOf enum) .plain) span
    return none
  | _, _ => enumPayload? span enum variant expected

def checkPatternLiteral (span : Span) (value : Literal) (expected : Ty) : Check Unit := do
  let t ← match value with
    | .int n => checkNumeral n false (some expected) span
    | _ => pure value.type
  expectType expected t span

def tuplePatternTypes (span : Span) (size : Nat) (expected : Ty) : Check (List Ty) := do
  match expected with
  | .tuple ts =>
    if ts.length = size then return ts
    report (.tupleArity ts.length size) span
  | .unknown => pure ()
  | _ => report (.mismatch (.type expected) .tuple .plain) span
  return List.replicate size .unknown

def variantPatternTypes (span : Span) (enum variant : String) (size : Nat) (expected : Ty) :
    Check (List Ty) := do
  match ← variantPayload? span enum variant expected with
  | none => return List.replicate size .unknown
  | some payload =>
    if size = 0 || size = payload.length then return payload
    report (.argumentCount (enum ++ "." ++ variant) (toString payload.length) size) span
    return List.replicate size .unknown

mutual

def checkPattern (expected : Ty) : Pattern → Check Unit
  | .wildcard _ => pure ()
  | .binding span name mutable => declare (.local name expected mutable .pattern span)
  | .literal span value => checkPatternLiteral span value expected
  | .tuple span elems => do
    checkPatterns (← tuplePatternTypes span elems.length expected) elems
  | .variant span enum variant args => do
    checkPatterns (← variantPatternTypes span enum variant args.length expected) args

def checkPatterns (types : List Ty) : List Pattern → Check Unit
  | [] => pure ()
  | p :: ps =>
    match types with
    | [] => pure ()
    | t :: ts => do
      checkPattern t p
      checkPatterns ts ps

end

def Findings.enum? (f : Findings) (setting : Setting) (n : Nominal) :
    Option (List String × List VariantInfo) :=
  match f.nominal? setting n with
  | some (.enum info variants) => some (info.typeParams, variants)
  | _ => none

def checkCoverage (span : Span) (patterns : List Pattern) (t : Ty) : Check Unit := do
  let cs := constructorsOf ((← get).enum? (← read))
  let shapes := patterns.map (cs.shape t)
  (patterns.zip (unreachableArms cs t shapes)).forM fun (p, unreachable) =>
    reportIf unreachable .unreachablePattern p.span
  let missing := missingShapes cs t shapes
  reportIf (!missing.isEmpty) (.nonExhaustive (missing.map Shape.text)) span

end SourceCheck
