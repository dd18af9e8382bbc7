import SourceCheck.Ty.Basic

/-!
# Assignability

`int` and `float` fit every type of their class and are fitted by it, a fixed array fits a slice, a mutable pointer a
constant one, what never returns fits everything, and what could not be resolved fits and is fitted by everything.
-/

namespace SourceCheck.Ty

def primitiveFits (p q : Primitive) : Bool :=
  p.isInteger && q.isInteger && (p = .int || q = .int) ||
    p.isFloat && q.isFloat && (p = .float || q = .float)

def mutabilityFits (m k : Mutability) : Bool :=
  m = k || k = .const

def sizeFits (n m : Option Nat) : Bool :=
  n.isNone || m.isNone || n = m

mutual

def assignable (actual expected : Ty) : Bool :=
  if actual = expected then true
  else
    match actual, expected with
    | .unknown, _ | _, .unknown => true
    | .primitive .never, _ => true
    | .primitive p, .primitive q => primitiveFits p q
    | .slice a, .slice b => assignable a b
    | .array a _, .slice b => assignable a b
    | .array a n, .array b m => assignable a b && sizeFits n m
    | .pointer m a, .pointer k b => mutabilityFits m k && assignable a b
    | .result a₁ a₂, .result b₁ b₂ => assignable a₁ b₁ && assignable a₂ b₂
    | .option a, .option b => assignable a b
    | .taskHandle a, .taskHandle b => assignable a b
    | .tuple as, .tuple bs => allAssignable as bs
    | .struct n as, .struct m bs => n = m && allAssignable as bs
    | .enum n as, .enum m bs => n = m && allAssignable as bs
    | _, _ => false
termination_by structural actual

def allAssignable (actual expected : List Ty) : Bool :=
  match actual, expected with
  | [], [] => true
  | a :: as, b :: bs => assignable a b && allAssignable as bs
  | _, _ => false
termination_by structural actual

end

end SourceCheck.Ty
