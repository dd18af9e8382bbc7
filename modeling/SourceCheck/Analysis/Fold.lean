import SourceCheck.Analysis.State

/-!
# Constant expressions and written types

Constants fold on demand. Sizes of array types are constant expressions, and these may ask for the size of a type, so
both are resolved together. A constant that is entered leaves the list of those that may be entered; one that is asked
for while it is being folded closes a cycle.
-/

namespace SourceCheck

/-- How to find a constant: the constants on the way to it, its name, and the place that asks. -/
abbrev Demand := List String → String → Span → Check (Option ConstValue)

open Check

def notFoldable {α : Type} (failure : FoldFailure) (span : Span) : Check (Option α) := do
  report (.notFoldable failure) span
  return none

def folded (span : Span) : Except ArithmeticProblem ConstValue → Check (Option ConstValue)
  | .ok v => return some v
  | .error problem => notFoldable (.arithmetic problem) span

def foldLiteral (span : Span) : Literal → Check (Option ConstValue)
  | .int n => if n ≤ ConstValue.maxInt then return some (.int n) else notFoldable .literalTooLarge span
  | .float x => return some (.float x)
  | .bool b => return some (.bool b)
  | .string s => return some (.str s)
  | .char c => return some (.char c)
  | .unit => notFoldable .unitLiteral span

def foldName (demand : Demand) (stack : List String) (span : Span) (name : String) :
    Check (Option ConstValue) := do
  match ← kind? name with
  | some (.const ..) => demand stack name span
  | some _ =>
    report (.nonConstReference name) span
    return none
  | none =>
    report (.unknownSymbol name) span
    return none

/-- The value of a member of another module. A member that is not known there has none, without a report. -/
def foldExported (span : Span) (head member : Name) : Option (String × ExportedItem) → Check (Option ConstValue)
  | none => return none
  | some (module, item) => do
    if item.visibility = .priv then
      report (.privateAccess member.node module) member.span
      return none
    match item.kind with
    | .const _ value => return value
    | _ =>
      report (.nonConstReference s!"{head.node}.{member.node}") span
      return none

def foldMember (span : Span) (head member : Name) : Check (Option ConstValue) := do
  match ← kind? head.node with
  | some (.module _ target) =>
    foldExported span head member ((← read).library.member? target member.node)
  | some _ => notFoldable (.notConstant head.node member.node) span
  | none =>
    report (.unknownSymbol head.node) head.span
    return none

def arraySize (span : Span) : Option ConstValue → Check (Option Nat)
  | none => return none
  | some (.int n) =>
    if 0 ≤ n ∧ n < Nat.pow 2 64 then do
      recordArraySize span n.toNat
      return some n.toNat
    else notFoldable (.sizeOutOfRange n) span
  | some v => notFoldable (.sizeSort v) span

def typeArguments (name : String) (params : List String) (args : List Ty) (span : Span) :
    Check (List Ty) := do
  if args.length = params.length then return args
  report (.genericArity name params.length args.length) span
  return params.map fun _ => .unknown

mutual

def resolveTypeWith (demand : Demand) : TypeExpr → Check Ty
  | .primitive _ p => return .primitive p
  | .slice _ elem => return .slice (← resolveTypeWith demand elem)
  | .array _ elem size => do
    let t ← resolveTypeWith demand elem
    let n ← foldWith demand [] size
    return .array t (← arraySize size.span n)
  | .pointer _ m target => return .pointer m (← resolveTypeWith demand target)
  | .result _ ok err => do
    let a ← resolveTypeWith demand ok
    let b ← resolveTypeWith demand err
    return .result a b
  | .option _ inner => return .option (← resolveTypeWith demand inner)
  | .taskHandle _ inner => return .taskHandle (← resolveTypeWith demand inner)
  | .tuple _ elems => return .tuple (← resolveTypesWith demand elems)
  | .named span name args => do
    match ← kind? name with
    | some .typeParam =>
      reportIf (!args.isEmpty) (.genericArity name 0 args.length) span
      return .param name
    | some (.struct info _) =>
      let ts ← resolveTypesWith demand args
      return .struct info.nominal (← typeArguments name info.typeParams ts span)
    | some (.enum info _) =>
      let ts ← resolveTypesWith demand args
      return .enum info.nominal (← typeArguments name info.typeParams ts span)
    | some kind => refuse (.notType name kind.sort) span
    | none => refuse (.unknownType name) span

def resolveTypesWith (demand : Demand) : List TypeExpr → Check (List Ty)
  | [] => return []
  | t :: ts => do
    let a ← resolveTypeWith demand t
    let as ← resolveTypesWith demand ts
    return a :: as

/-- The value of an expression, when the constants of `stack` are being folded. -/
def foldWith (demand : Demand) (stack : List String) : Expr → Check (Option ConstValue)
  | .literal span value => foldLiteral span value
  | .ident span name => foldName demand stack span name
  | .dotted span head member => foldMember span head member
  | .paren _ inner => foldWith demand stack inner
  | .unary span logical pointer operand => do
    if pointer.isSome then notFoldable .pointerOperation span
    else
      match ← foldWith demand stack operand with
      | none => return none
      | some v =>
        match logical with
        | none => return some v
        | some op => folded span (v.foldPrefix op)
  | .binary span lhs op rhs => do
    match ← foldWith demand stack lhs with
    | none => return none
    | some l =>
      match ← foldWith demand stack rhs with
      | none => return none
      | some r => folded span (ConstValue.foldBinary op l r)
  | .sizeof span type => do
    let t ← resolveTypeWith demand type
    match t.layout ((← get).nominals (← read)) with
    | some l => return some (.int l.size)
    | none => notFoldable (.noSize t) span
  | .call span .. | .assocCall span .. => notFoldable (.form "a function call") span
  | .dottedCall span .. => notFoldable (.form "an enum constructor") span
  | .structLit span .. => notFoldable (.form "a struct literal") span
  | .await span _ => notFoldable (.form "'await'") span
  | .selfRef span | .field span .. | .tupleIndex span .. | .index span .. | .slice span ..
  | .tuple span .. | .array span .. | .arrayRepeat span .. =>
    notFoldable (.form "this expression") span

end

def cycleFrom (stack : List String) (name : String) : List String :=
  if stack.contains name then stack.dropWhile (· ≠ name) else stack

def otherConstants (decls : List ConstDecl) (name : String) : List ConstDecl :=
  decls.filter (·.name.node ≠ name)

theorem length_otherConstants_lt {decls name decl} (h : decls.find? (·.name.node = name) = some decl) :
    (otherConstants decls name).length < decls.length := by
  unfold otherConstants
  rw [List.length_filter_lt_length_iff_exists]
  exact ⟨decl, List.mem_of_find?_eq_some h, by simpa using List.find?_some h⟩

/-- Only the constants of `remaining` may be entered. -/
def demandConst (remaining : List ConstDecl) (stack : List String) (name : String) (span : Span) :
    Check (Option ConstValue) := do
  match (← get).folding.lookup name with
  | some .finished => return (← get).constValues.lookup name
  | some .started =>
    let decl := (← read).constants.find? (·.name.node = name)
    report (.constCycle (cycleFrom stack name ++ [name])) ((decl.map (·.name.span)).getD span)
    return none
  | none =>
    let limit := (← read).constDepth
    if limit ≤ stack.length then
      report (.constTooDeep limit) span
      return none
    match _h : remaining.find? (·.name.node = name) with
    | none => return none
    | some decl =>
      recordFolding name .started
      let v ← foldWith (demandConst (otherConstants remaining name)) (stack ++ [name]) decl.value
      recordFolding name .finished
      v.forM (recordConst name)
      return v
termination_by remaining.length
decreasing_by exact length_otherConstants_lt ‹_›

def constValue (stack : List String) (name : String) (span : Span) : Check (Option ConstValue) := do
  demandConst (← read).constants stack name span

def foldExpr (e : Expr) : Check (Option ConstValue) :=
  foldWith constValue [] e

def foldArraySize (e : Expr) : Check (Option Nat) := do
  arraySize e.span (← foldExpr e)

def resolveType (t : TypeExpr) : Check Ty :=
  resolveTypeWith constValue t

def resolveTypes (ts : List TypeExpr) : Check (List Ty) :=
  resolveTypesWith constValue ts

end SourceCheck
