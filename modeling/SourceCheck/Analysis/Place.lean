import SourceCheck.Analysis.State

/-!
# Places

A place is reached from its root through parentheses, fields and elements; the root decides whether it may be written.
-/

namespace SourceCheck

inductive PlaceUse where
  | assign
  | borrow
deriving DecidableEq, Repr

inductive PlaceRoot where
  | binding (name : String)
  | receiver
  | target (pointer : Expr)
  | none

/-- A dotted pair of names is a field of the first. -/
def Expr.placeRoot : Expr → PlaceRoot
  | .ident _ name => .binding name
  | .selfRef _ => .receiver
  | .dotted _ head _ => .binding head.node
  | .field _ base _ | .tupleIndex _ base _ | .index _ base _ | .paren _ base => base.placeRoot
  | .unary _ Option.none (some .deref) pointer => .target pointer
  | _ => .none

def bindingProblem? (usage : PlaceUse) (name : String) : SymbolKind → Option SemanticProblem
  | .variable _ mutable origin =>
    match usage, origin, mutable with
    | .assign, .selfParam, _ => some .assignSelf
    | .assign, .param, _ => some (.assignParam name)
    | .assign, _, false => some (.assignImmutable name)
    | .borrow, _, false => some (.borrowImmutable name)
    | _, _, true => none
  | .const .. => some (.assignConstant name)
  | _ => some .invalidTarget

def placeProblem? (f : Findings) (usage : PlaceUse) : PlaceRoot → Option SemanticProblem
  | .binding name => (f.symbols.symbol? name).bind fun s => bindingProblem? usage name s.kind
  | .receiver =>
    some (match usage with
      | .assign => .assignSelf
      | .borrow => .borrowSelf)
  | .target pointer =>
    match f.exprTypes.get? pointer.span with
    | some (.pointer .const _) => some .assignThroughConst
    | _ => none
  | .none => some .invalidTarget

def checkPlace (target : Expr) (span : Span) (usage : PlaceUse) : Check Unit := do
  match placeProblem? (← get) usage target.placeRoot with
  | some p => Check.report p span
  | Option.none => pure ()

end SourceCheck
