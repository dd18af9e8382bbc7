import SourceCheck.Analysis.Fold
import SourceCheck.Ty.Assignable
import SourceCheck.Ty.Substitution

/-!
# Operands

The rules for expressions see operands: a part and how to check it. The expected type flows inward.
-/

namespace SourceCheck

/-- A part of an expression, and how to check it. -/
structure Operand where
  expr : Expr
  check : Option Ty → Check Ty

namespace Operand

def span (o : Operand) : Span :=
  o.expr.span

def numeral? (o : Operand) : Option Nat :=
  match o.expr with
  | .literal _ (.int n) => some n
  | _ => none

def checkAll (os : List Operand) : Check Unit :=
  os.forM fun o => do
    let _ ← o.check none

end Operand

open Check

def recorded (span : Span) (rule : Check Ty) : Check Ty := do
  let t ← rule
  recordType span t
  return t

def expectType (wanted actual : Ty) (span : Span) (site : MismatchSite := .plain) : Check Unit :=
  reportIf (!actual.assignable wanted) (.mismatch (.type wanted) (.type actual) site) span

def checkAgainst (o : Operand) (declared : Ty) (b : Bindings) (site : MismatchSite := .plain) :
    Check Bindings := do
  let actual ← o.check (some (declared.substitute b.type?))
  let b' := declared.unify actual b
  expectType (declared.substitute b'.type?) actual o.span site
  return b'

def Primitive.takesNumeral (p : Primitive) (n : Nat) (negative : Bool) : Bool :=
  if n ≤ ConstValue.maxInt then p.holds (if negative then -n else n) else p = .u128 && !negative

/-- The type of a numeral, perhaps negated: the integer type that is expected, if any. -/
def checkNumeral (n : Nat) (negative : Bool) (expected : Option Ty) (span : Span) : Check Ty := do
  match expected.bind Ty.primitive? with
  | some p =>
    if !p.isInteger then return .primitive .int
    if p ≠ .int && !p.takesNumeral n negative then
      report (.literalOutOfRange (if negative then -n else n) p) span
    return .primitive p
  | none => return .primitive .int

def Literal.type : Literal → Ty
  | .int _ => .primitive .int
  | .float _ => .primitive .float
  | .string _ => .string
  | .char _ => .primitive .char
  | .bool _ => .bool
  | .unit => .void

/-- A number takes the type that is expected. -/
def checkLiteral (span : Span) (value : Literal) (expected : Option Ty) : Check Ty :=
  match value, expected with
  | .int n, _ => checkNumeral n false expected span
  | .float _, some (.primitive .f32) => return .primitive .f32
  | .float _, some (.primitive .f64) => return .primitive .f64
  | _, _ => return value.type

def checkName (span : Span) (name : String) : Check Ty := do
  match ← kind? name with
  | some (.variable t _ _) | some (.const t _) => return t
  | some kind => refuse (.notValue name kind.sort) span
  | none => refuse (.unknownSymbol name) span

def checkSelf (span : Span) : Check Ty := do
  match ← kind? "self" with
  | some (.variable t _ _) => return t
  | _ => refuse .selfOutsideMethod span

end SourceCheck
