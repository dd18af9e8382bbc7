import SourceCheck.Analysis.Operand
import SourceCheck.Analysis.Place

/-!
# Operators
-/

namespace SourceCheck

open Check

/-! ### Before one operand -/

def checkPointerPrefix (span : Span) (op : Option PointerPrefix) (o : Operand) (expected : Option Ty) :
    Check Ty := do
  match op with
  | none => o.check expected
  | some .deref =>
    let pointer ← o.check none
    reportIf (!(← inside .unsafeBlock)) (.requiresUnsafe .dereference) span
    match pointer with
    | .pointer _ target => return target
    | .unknown => return .unknown
    | other => refuse (.notDereferenceable other) o.span
  | some .addressOf =>
    let hint :=
      match expected with
      | some (.pointer _ target) => some target
      | _ => none
    return .pointer .const (← o.check hint)
  | some .addressOfMut =>
    let t ← o.check none
    checkPlace o.expr o.span .borrow
    return .pointer .mut t

def Ty.isSigned (t : Ty) : Bool :=
  (t.primitive?.bind Primitive.numericClass).any (· ≠ .unsignedInt)

def checkLogicalPrefix (span : Span) (op : LogicalPrefix) (o : Operand) (t : Ty) : Check Ty := do
  if t.isUnknown then return t
  match op with
  | .not =>
    reportIf (!t.isBool) (.mismatch (.type .bool) (.type t) .plain) o.span
    return .bool
  | .neg => if t.isSigned then return t else refuse (.notNegatable t) span
  | .bitNot => if t.isInteger then return t else refuse (.mismatch .integer (.type t) .plain) o.span

/-- A minus sign before a numeral belongs to the number. -/
def checkUnary (span : Span) (logical : Option LogicalPrefix) (pointer : Option PointerPrefix)
    (o : Operand) (expected : Option Ty) : Check Ty := do
  match logical, pointer, o.numeral? with
  | some .neg, none, some n => recorded o.span (checkNumeral n true expected span)
  | _, _, _ =>
    let t ← checkPointerPrefix span pointer o expected
    match logical with
    | none => return t
    | some op => checkLogicalPrefix span op o t

/-! ### Between two operands -/

/-- The literal types take the type of the other side. -/
def Ty.joinNumeric? (a b : Ty) : Option Ty :=
  match a, b with
  | .primitive p, .primitive q =>
    if p = q then if a.isNumeric then some a else none
    else if p = .int && q.isInteger || p = .float && q.isFloat then some b
    else if q = .int && p.isInteger || q = .float && p.isFloat then some a
    else none
  | _, _ => none

def Ty.isOrdered (t : Ty) : Bool :=
  t.isNumeric || t = .primitive .char || t = .string

def BinaryOp.result? (op : BinaryOp) (l r : Ty) : Option Ty :=
  match op with
  | .shl | .shr => if l.isInteger && r.isInteger then some l else none
  | .bitAnd | .bitOr | .bitXor =>
    if l.isBool && r.isBool then some .bool else (l.joinNumeric? r).filter Ty.isInteger
  | .add => if l = .string && r = .string then some l else l.joinNumeric? r
  | _ => l.joinNumeric? r

def checkTruth (o : Operand) : Check Unit := do
  let t ← o.check (some .bool)
  reportIf (!t.isBool && !t.isUnknown) (.mismatch (.type .bool) (.type t) .plain) o.span

def checkComparison (span : Span) (op : BinaryOp) (l r : Ty) : Check Unit :=
  if !r.assignable l && !l.assignable r then report (.notComparable l r) span
  else reportIf (op ≠ .eq && op ≠ .notEq && !l.isOrdered) (.notOrdered op l) span

/-- The number type on the left is expected on the right. -/
def checkBinary (span : Span) (lhs : Operand) (op : BinaryOp) (rhs : Operand) (expected : Option Ty) :
    Check Ty := do
  if op.isLogical then
    checkTruth lhs
    checkTruth rhs
    return .bool
  let hint := expected.filter fun t => t.isNumeric && !op.isComparison
  let l ← lhs.check hint
  let r ← rhs.check (if l.isNumeric && l ≠ .primitive .int then some l else hint)
  if l.isUnknown || r.isUnknown then return if op.isComparison then .bool else .unknown
  if op.isComparison then
    checkComparison span op l r
    return .bool
  match op.result? l r with
  | some t => return t
  | none => refuse (.notOperands op l r) span

end SourceCheck
