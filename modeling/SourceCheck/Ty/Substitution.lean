import SourceCheck.Ty.Basic

/-!
# Type parameters

Replacing type parameters by types, and finding the replacement that makes one type from another.
-/

namespace SourceCheck

abbrev Bindings := List (String × Ty)

namespace Bindings

/-- Types for parameters one by one. The later of two counts. -/
def ofLists (params : List String) (args : List Ty) : Bindings :=
  (params.zip args).reverse

def add (b : Bindings) (x : String) (t : Ty) : Bindings :=
  match b.lookup x with
  | some _ => b
  | none => (x, t) :: b

def type? (b : Bindings) (x : String) : Option Ty :=
  b.lookup x

def typesOf (b : Bindings) (params : List String) : List Ty :=
  params.map fun x => (b.lookup x).getD .unknown

end Bindings

namespace Ty

mutual

/-- Replace the type parameters that have a type. -/
def substitute (types : String → Option Ty) : Ty → Ty
  | .param x => (types x).getD (.param x)
  | .slice t => .slice (t.substitute types)
  | .array t n => .array (t.substitute types) n
  | .pointer m t => .pointer m (t.substitute types)
  | .result a b => .result (a.substitute types) (b.substitute types)
  | .option t => .option (t.substitute types)
  | .taskHandle t => .taskHandle (t.substitute types)
  | .tuple ts => .tuple (substituteList types ts)
  | .struct n ts => .struct n (substituteList types ts)
  | .enum n ts => .enum n (substituteList types ts)
  | .primitive p => .primitive p
  | .infinite => .infinite
  | .unknown => .unknown

def substituteList (types : String → Option Ty) : List Ty → List Ty
  | [] => []
  | t :: ts => t.substitute types :: substituteList types ts

end

/-- The types of `bindings`, and an unresolved type for each other name of `params`. -/
def instantiation (params : List String) (bindings : Bindings) (x : String) : Option Ty :=
  match bindings.lookup x with
  | some t => some t
  | none => if params.contains x then some .unknown else none

/-- Type parameters of `params` without a type become unresolved. -/
def instantiate (params : List String) (bindings : Bindings) (t : Ty) : Ty :=
  t.substitute (instantiation params bindings)

mutual

/-- Add the types that make `actual` from `pattern`. The first type for a parameter counts, and the
unresolved type tells nothing. -/
def unify (pattern actual : Ty) (b : Bindings) : Bindings :=
  match pattern, actual with
  | _, .unknown => b
  | .param x, t => b.add x t
  | .slice p, .slice t | .slice p, .array t _ | .array p _, .array t _ | .pointer _ p, .pointer _ t
  | .option p, .option t | .taskHandle p, .taskHandle t => unify p t b
  | .result p₁ p₂, .result t₁ t₂ => unify p₂ t₂ (unify p₁ t₁ b)
  | .tuple ps, .tuple ts => unifyAll ps ts b
  | .struct n ps, .struct m ts | .enum n ps, .enum m ts => if n = m then unifyAll ps ts b else b
  | _, _ => b
termination_by structural pattern

/-- Add the types that make each type of `actual` from that of `patterns`. -/
def unifyAll (patterns actual : List Ty) (b : Bindings) : Bindings :=
  match patterns, actual with
  | p :: ps, t :: ts => unifyAll ps ts (unify p t b)
  | _, _ => b
termination_by structural patterns

end

end Ty

end SourceCheck
