import SourceCheck.Analysis.Problem
import SourceCheck.Symbol.Table
import SourceCheck.Ty.Layout

/-!
# The state of an analysis

The analysis reads what is fixed (`Setting`) and adds to what is known (`Findings`). It never stops at a problem: the
unresolved type stands for what could not be found.
-/

namespace SourceCheck

inductive CallTarget where
  /-- A function, perhaps of another module, with the place of its signature. -/
  | function (module : Option String) (name : String) (overload : Nat) (predeclared : Bool)
  | method (owner : Nominal) (name : String)
  /-- A variant. `Result` and `Option` have no declaration to name. -/
  | variant (owner : Option Nominal) (name : String)
deriving DecidableEq, Repr

structure ExportedItem where
  kind : SymbolKind
  visibility : Visibility
  span : Span
deriving DecidableEq

/-- The declarations of a module as importers see them. -/
structure ModuleExports where
  module : String
  items : List (String × ExportedItem)
deriving DecidableEq

def ModuleExports.item? (e : ModuleExports) (name : String) : Option ExportedItem :=
  e.items.lookup name

/-- The declarations with a visibility, without imports. -/
def ModuleExports.ofTable (module : String) (symbols : SymbolTable) : ModuleExports :=
  { module
    items := symbols.globals.filterMap fun s =>
      match s.kind, s.visibility with
      | .module .., _ | _, none => none
      | kind, some visibility => some (s.name, { kind, visibility, span := s.span }) }

/-- The exports of modules. A module has one entry. -/
abbrev Library := List ModuleExports

namespace Library

def module? (l : Library) (name : String) : Option ModuleExports :=
  l.find? (·.module = name)

def add (l : Library) (e : ModuleExports) : Library :=
  e :: l.filter (·.module ≠ e.module)

def member? (l : Library) (target : Option String) (member : String) :
    Option (String × ExportedItem) := do
  let module ← target
  let exports ← l.module? module
  let item ← exports.item? member
  return (module, item)

end Library

structure FunctionContext where
  name : String
  returnType : Ty

structure Setting where
  module : String
  /-- How many constants may be nested in one another's values. -/
  constDepth : Nat
  /-- The exports of the modules that were analysed before. -/
  library : Library
  isEntry : Bool
  constants : List ConstDecl := []
  function : Option FunctionContext := none

inductive FoldProgress where
  | started
  | finished
deriving DecidableEq, Repr

structure Findings where
  symbols : SymbolTable := .initial
  problems : List (Report SemanticProblem) := []
  exprTypes : SpanTable Ty := []
  callTargets : SpanTable CallTarget := []
  arraySizes : SpanTable Nat := []
  constValues : List (String × ConstValue) := []
  folding : List (String × FoldProgress) := []

def Findings.constants (f : Findings) : List (String × ConstValue) :=
  f.constValues.foldr (fun v kept => v :: kept.filter (·.1 ≠ v.1)) []

def Findings.nominal? (f : Findings) (setting : Setting) (n : Nominal) : Option SymbolKind :=
  if n.module = setting.module then (f.symbols.global? n.name).map fun s => s.2.kind
  else ((setting.library.module? n.module).bind (·.item? n.name)).map fun item => item.kind

abbrev Check := ReaderT Setting (StateM Findings)

namespace Check

def report (p : SemanticProblem) (span : Span) : Check Unit :=
  modify fun f => { f with problems := ⟨p, span⟩ :: f.problems }

def reportIf (wrong : Bool) (p : SemanticProblem) (span : Span) : Check Unit :=
  if wrong then report p span else pure ()

def refuse (p : SemanticProblem) (span : Span) : Check Ty := do
  report p span
  return .unknown

def problemCount : Check Nat :=
  return (← get).problems.length

def recordType (span : Span) (t : Ty) : Check Unit :=
  modify fun f => { f with exprTypes := f.exprTypes.set span t }

def recordCall (span : Span) (target : CallTarget) : Check Unit :=
  modify fun f => { f with callTargets := f.callTargets.set span target }

def recordArraySize (span : Span) (n : Nat) : Check Unit :=
  modify fun f => { f with arraySizes := f.arraySizes.set span n }

def recordConst (name : String) (v : ConstValue) : Check Unit :=
  modify fun f => { f with constValues := (name, v) :: f.constValues }

def recordFolding (name : String) (p : FoldProgress) : Check Unit :=
  modify fun f => { f with folding := (name, p) :: f.folding }

def modifySymbols (f : SymbolTable → SymbolTable) : Check Unit :=
  modify fun s => { s with symbols := f s.symbols }

def inScope {α : Type} (kind : ScopeKind) (step : Check α) : Check α := do
  modifySymbols (·.enter kind)
  let a ← step
  modifySymbols SymbolTable.leave
  return a

def inside (kind : ScopeKind) : Check Bool :=
  return (← get).symbols.inside kind

def kind? (name : String) : Check (Option SymbolKind) :=
  return ((← get).symbols.symbol? name).map fun s => s.kind

def global? (name : String) : Check (Option (Nat × Symbol)) :=
  return (← get).symbols.global? name

def nominal? (n : Nominal) : Check (Option SymbolKind) :=
  return (← get).nominal? (← read) n

/-- Add a symbol to the current scope, or give the place of the one that has its name. -/
def define (s : Symbol) : Check (Except Span Nat) := do
  match (← get).symbols.define s with
  | .ok (id, symbols) =>
    modifySymbols fun _ => symbols
    return .ok id
  | .error previous => return .error previous

def declare (s : Symbol) : Check Unit := do
  match ← define s with
  | .ok _ => pure ()
  | .error previous => report (.duplicate s.name previous) s.span

def declareFirst (s : Symbol) : Check Unit := do
  let _ ← define s

end Check

/-- The types of the members. The payload of a variant counts as a tuple. -/
def SymbolKind.members? : SymbolKind → Option (List Ty)
  | .struct _ fields => some (fields.map (·.type))
  | .enum _ variants => some (variants.map fun v => .tuple v.payload)
  | _ => none

def SymbolKind.nominalInfo? : SymbolKind → Option NominalInfo
  | .struct info _ | .enum info _ => some info
  | _ => none

def SymbolKind.nominalType? (args : List Ty) : SymbolKind → Option Ty
  | .struct info _ => some (.struct info.nominal args)
  | .enum info _ => some (.enum info.nominal args)
  | _ => none

/-- The members of all structs and enums that a module sees. -/
def Findings.nominals (f : Findings) (setting : Setting) : NominalTable :=
  (f.symbols.globals.filterMap fun s =>
    s.kind.members?.map fun ts => (⟨setting.module, s.name⟩, ts)) ++
  (setting.library.filter (·.module ≠ setting.module)).flatMap fun e =>
    e.items.filterMap fun (name, item) =>
      item.kind.members?.map fun ts => (⟨e.module, name⟩, ts)

end SourceCheck
