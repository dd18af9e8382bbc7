import SourceCheck.Analysis.Operand

/-!
# Aggregates

Tuples, arrays, struct literals, and the parts of values.
-/

namespace SourceCheck

open Check

def Ty.resolved? (t : Ty) : Option Ty :=
  if t.isUnknown then none else some t

/-! ### Tuples and arrays -/

def checkTuple (span : Span) (elems : List Operand) (expected : Option Ty) : Check Ty := do
  match expected with
  | some (.tuple ts) =>
    if ts.length = elems.length then
      return .tuple (← (elems.zip ts).mapM fun (o, t) => o.check t.resolved?)
    report (.tupleArity ts.length elems.length) span
    Operand.checkAll elems
    return .unknown
  | _ => return .tuple (← elems.mapM fun o => o.check none)

def checkElement (want : Option Ty) (o : Operand) : Check (Option Ty) := do
  let t ← o.check want
  match want with
  | some w =>
    expectType w t o.span
    return some w
  | none => return some t

/-- The first element gives the type unless one is expected. -/
def checkArray (elems : List Operand) (expected : Option Ty) : Check Ty := do
  let t ← elems.foldlM checkElement (expected.bind Ty.element?)
  return .array (t.getD .unknown) (some elems.length)

def checkRepeat (value : Operand) (count : Expr) (expected : Option Ty) : Check Ty := do
  let t ← value.check (expected.bind Ty.element?)
  let n ← foldArraySize count
  recordType count.span .usize
  return .array t n

def checkTupleIndex (span : Span) (base : Operand) (index : Nat) : Check Ty := do
  match ← base.check none with
  | .tuple ts =>
    match ts[index]? with
    | some t => return t
    | none => refuse (.tupleIndexOutOfRange ts.length index) span
  | .unknown => return .unknown
  | other => refuse (.notTuple other) span

def checkIndexOperand (o : Operand) : Check Unit := do
  let t ← o.check (some .usize)
  reportIf (!t.isInteger && !t.isUnknown) (.mismatch .integer (.type t) .plain) o.span

def checkBounds (index : Operand) (size : Option Nat) : Check Unit :=
  match index.numeral?, size with
  | some i, some n => reportIf (n ≤ i) (.indexOutOfBounds i n) index.span
  | _, _ => pure ()

def checkIndex (base index : Operand) : Check Ty := do
  let t ← base.check none
  checkIndexOperand index
  match t with
  | .array elem n =>
    checkBounds index n
    return elem
  | .slice elem => return elem
  | .unknown => return .unknown
  | other => refuse (.notIndexable other) base.span

def checkSlice (base : Operand) (bounds : List Operand) : Check Ty := do
  let t ← base.check none
  bounds.forM checkIndexOperand
  match t with
  | .slice elem | .array elem _ => return .slice elem
  | .primitive .string => return .string
  | .unknown => return .unknown
  | other => refuse (.notSliceable other) base.span

def checkAwait (handle : Operand) : Check Ty := do
  match ← handle.check none with
  | .taskHandle t => return t
  | .unknown => return .unknown
  | other => refuse (.awaitNonHandle other) handle.span

/-! ### Structs -/

def findField? (fields : List FieldInfo) (name : String) : Option FieldInfo :=
  fields.find? (·.name = name)

def checkVisible (owner : Nominal) (visibility : Visibility) (name : Name) : Check Unit := do
  reportIf (owner.module ≠ (← read).module && visibility = .priv)
    (.privateAccess name.node owner.module) name.span

def fieldType (base : Ty) (field : Name) : Check Ty := do
  match base with
  | .struct n args =>
    match ← nominal? n with
    | some (.struct info fields) =>
      match findField? fields field.node with
      | some found =>
        checkVisible n found.visibility field
        return found.type.instantiate info.typeParams (.ofLists info.typeParams args)
      | none =>
        let isMethod := (info.methods.lookup field.node).any (·.hasSelf)
        refuse (.unknownField n.name field.node isMethod) field.span
    | _ => return .unknown
  | .pointer _ (.struct ..) => refuse (.fieldThroughPointer field.node base) field.span
  | .unknown => return .unknown
  | other => refuse (.unknownField other.text field.node false) field.span

structure FieldOperand where
  name : Name
  value : Operand

def checkFieldValue (name : String) (info : NominalInfo) (fields : List FieldInfo) (seen : List String)
    (b : Bindings) (f : FieldOperand) : Check Bindings := do
  if seen.contains f.name.node then
    report (.repeatedField f.name.node) f.name.span
    let _ ← f.value.check none
    return b
  match findField? fields f.name.node with
  | none =>
    report (.unknownField name f.name.node false) f.name.span
    let _ ← f.value.check none
    return b
  | some field =>
    checkVisible info.nominal field.visibility f.name
    checkAgainst f.value field.type b

def checkFieldValues (name : String) (info : NominalInfo) (fields : List FieldInfo) (seen : List String)
    (b : Bindings) : List FieldOperand → Check Bindings
  | [] => return b
  | f :: fs => do
    let b' ← checkFieldValue name info fields seen b f
    checkFieldValues name info fields (f.name.node :: seen) b' fs

/-- What is known about the type arguments before the values are looked at. -/
def literalBindings (name : Name) (info : NominalInfo) (typeArgs : List TypeExpr) (expected : Option Ty) :
    Check Bindings := do
  if !typeArgs.isEmpty then
    let ts ← resolveTypes typeArgs
    return .ofLists info.typeParams (← typeArguments name.node info.typeParams ts name.span)
  match expected with
  | some (.struct n args) => return if n = info.nominal then .ofLists info.typeParams args else []
  | _ => return []

def checkStructLiteral (span : Span) (name : Name) (typeArgs : List TypeExpr) (values : List FieldOperand)
    (expected : Option Ty) : Check Ty := do
  match ← kind? name.node with
  | some (.struct info fields) =>
    let b ← literalBindings name info typeArgs expected
    let b' ← checkFieldValues name.node info fields [] b values
    let given := values.map (·.name.node)
    let missing := (fields.map (·.name)).filter fun f => !given.contains f
    reportIf (!missing.isEmpty) (.missingFields name.node missing) span
    return .struct info.nominal (b'.typesOf info.typeParams)
  | other =>
    report (match other with
      | some kind => .notStruct name.node kind.sort
      | none => .unknownType name.node) name.span
    Operand.checkAll (values.map (·.value))
    return .unknown

end SourceCheck
