import SourceCheck.Analysis.Declaration
import SourceCheck.Module.ImportPath
import SourceCheck.Vocabulary.RuntimeEntry

/-!
# Analysis of a module

A module is analysed against the exports of what it imports. At most a given number of problems is told; the others
are counted.
-/

namespace SourceCheck

def SymbolTable.ownership? (t : SymbolTable) (name : String) : Option String :=
  (t.global? name).bind fun s => s.2.kind.nominalInfo?.bind (·.ownership)

namespace RuntimeEntry

/-- Values that the module frees itself are not collected. -/
def forAllocation (ownership : Option String) : List RuntimeEntry :=
  if ownership = some "c" then [.alloc, .free] else [.alloc, .gcRegisterRoot, .gcUnregisterRoot]

def forPredeclared (name : String) : List RuntimeEntry :=
  match name with
  | "log" => [.log]
  | "panic" => [.panic]
  | _ => []

/-- A variant needs memory for its values if it has any. -/
def forCall (f : Findings) (module : String) (hasValues : Bool) : CallTarget → List RuntimeEntry
  | .function _ name _ true => forPredeclared name
  | .variant (some owner) _ =>
    if hasValues then
      forAllocation (if owner.module = module then f.symbols.ownership? owner.name else none)
    else []
  | _ => []

def forExpr (f : Findings) (module : String) : Expr → List RuntimeEntry
  | .literal _ (.string _) => [.stringCreate, .stringFree]
  | .structLit _ name _ _ => forAllocation (f.symbols.ownership? name.node)
  | .call span _ _ | .dotted span _ _ =>
    ((f.callTargets.get? span).map (forCall f module false)).getD []
  | .dottedCall span _ _ args =>
    ((f.callTargets.get? span).map (forCall f module !args.isEmpty)).getD []
  | _ => []

def forProgram (f : Findings) (module : String) (program : Program) : List RuntimeEntry :=
  let needed := program.nodes.flatMap fun
    | .expr e => forExpr f module e
    | _ => []
  all.filter needed.contains

end RuntimeEntry

/-! ### Findings of a module -/

structure AnalysisOptions where
  maxErrors : Nat := 100
  /-- How many constants may be nested in one another's values. -/
  constDepth : Nat := 64
  /-- The module with the entry point, by default the one whose package is `main`. -/
  entry : Option String := none
deriving DecidableEq, Repr

structure AnalyzedModule where
  name : String
  findings : Findings
  exports : ModuleExports
  diagnostics : List Diagnostic
  suppressed : Nat
  runtime : List RuntimeEntry

def AnalyzedModule.errorCount (m : AnalyzedModule) : Nat :=
  (m.diagnostics.filter (·.isError)).length + m.suppressed

abbrev Program.decls (program : Program) : List Declaration :=
  program.declarations.map (·.node)

def checkProgram (program : Program) (imports : List ImportBinding) : Check Unit := do
  imports.forM fun i => Check.declareFirst i.symbol
  let decls := program.decls
  let declared ← registerNames decls
  withReader (fun s => { s with constants := constantsOf declared }) do
    collectShapes decls declared
    checkDeclarations decls

def AnalysisOptions.setting (options : AnalysisOptions) (name package : String) (library : Library) :
    Setting :=
  { module := name
    constDepth := options.constDepth
    library
    isEntry := match options.entry with
      | some entry => entry = name
      | none => package = "main" }

def findingsOf (program : Program) (name : String) (imports : List ImportBinding) (library : Library)
    (options : AnalysisOptions) : Findings :=
  ((checkProgram program imports).run (options.setting name program.package.node library) |>.run {}).2

def analyzeModule (program : Program) (name : String) (imports : List ImportBinding) (library : Library)
    (options : AnalysisOptions) : AnalyzedModule :=
  let findings := findingsOf program name imports library options
  let diagnostics := findings.problems.reverse.map fun r => r.cause.diagnostic r.span
  { name
    findings
    exports := .ofTable name findings.symbols
    diagnostics := diagnostics.take options.maxErrors
    suppressed := diagnostics.length - options.maxErrors
    runtime := RuntimeEntry.forProgram findings name program }

def ImportDecl.unresolved (i : Spanned ImportDecl) : ImportBinding :=
  { binding := (i.node.localName.map (·.node)).getD (ImportPath.defaultBinding i.node.path)
    path := i.node.path
    target := none
    span := i.span }

/-- A module on its own is named after its package and has no library. -/
def analyze (program : Program) (options : AnalysisOptions) : AnalyzedModule :=
  analyzeModule program program.package.node (program.imports.map ImportDecl.unresolved) [] options

end SourceCheck
