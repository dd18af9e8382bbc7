import SourceCheck.Graph.Basic
import SourceCheck.Module.ImportPath
import SourceCheck.Parse.Program

/-!
# Imports of modules

Relative imports are looked up among the modules; all others lead outside. Modules on import cycles are left out of
the waves.
-/

namespace SourceCheck

structure SourceModule where
  /-- The name within the compilation, with slashes. -/
  name : String
  fileName : String := name ++ sourceEnding
  source : String
deriving DecidableEq, Repr

structure ParsedModule where
  name : String
  fileName : String
  source : String
  program : Program
  diagnostics : List Diagnostic
  texts : List String

def Token.internedText? (t : Token) : Option String :=
  match t.kind with
  | .ident name => some name
  | .string value _ => some value
  | _ => none

namespace ParsedModule

/-- Read a module. Spans carry the number of its file. -/
def ofSource (file : Nat) (m : SourceModule) : ParsedModule :=
  let lexed := lex m.source file
  let parsed := parse lexed.tokens
  { name := m.name
    fileName := m.fileName
    source := m.source
    program := parsed.program
    diagnostics := (lexed.problems.map fun r => r.cause.diagnostic r.span) ++ parsed.problems
    texts := lexed.tokens.filterMap Token.internedText? }

def isReadable (m : ParsedModule) : Bool :=
  m.diagnostics.all fun d => !(d.isError && (d.kind = .lexical || d.kind = .grammar))

end ParsedModule

/-- The number of a file is the place of its module. -/
def parseModules (sources : List SourceModule) : List ParsedModule :=
  sources.zipIdx.map fun (m, i) => .ofSource i m

inductive ImportProblem where
  | cycle (path : List String)
  | duplicateModule (name : String)
  | aliasCollision (name : String)
  | invalidPath (path : String) (reason : ImportPathProblem)
deriving DecidableEq, Repr

namespace ImportProblem

def text : ImportProblem → String
  | .cycle path => "import cycle detected: " ++ " -> ".intercalate path
  | .duplicateModule name => s!"module '{name}' is defined more than once"
  | .aliasCollision name => s!"import alias '{name}' is already in use"
  | .invalidPath path _ => s!"invalid import path '{path}'"

def diagnostic (span : Span) : ImportProblem → Diagnostic
  | .cycle path =>
    { kind := .importCycle, message := "Import cycle detected: " ++ " -> ".intercalate path, span
      notes := ["Modules in an import cycle are not analysed"] }
  | .duplicateModule name =>
    { kind := .duplicateDeclaration, message := s!"Module '{name}' is defined more than once", span }
  | .aliasCollision name =>
    { kind := .duplicateDeclaration, message := s!"Import alias '{name}' is already in use", span
      hints := ["Choose a different alias with: import \"path\" as other_name;"] }
  | .invalidPath path reason => reason.diagnostic path span

end ImportProblem

/-- What is wrong with the imports of a module, its number, and the place. -/
structure ModuleProblem where
  module : Nat
  problem : ImportProblem
  span : Span
deriving DecidableEq, Repr

def ModuleProblem.diagnostic (p : ModuleProblem) : Diagnostic :=
  p.problem.diagnostic p.span

structure ResolvedImport where
  path : String
  kind : ImportKind
  binding : String
  /-- The number of the module it leads to, if any. -/
  target : Option Nat
  span : Span
deriving DecidableEq, Repr

/-! ### Single imports -/

def moduleIndex? (modules : List ParsedModule) (name : String) : Option Nat :=
  modules.findIdx? (·.name = name)

def importTarget? (modules : List ParsedModule) (importer path : String) : ImportKind → Option Nat
  | .relative => (ImportPath.join importer path).bind (moduleIndex? modules)
  | .stdlib | .remote => none

def importBinding (i : Spanned ImportDecl) : Name :=
  i.node.localName.getD ⟨ImportPath.defaultBinding i.node.path, i.span⟩

/-- The imports that are in order, and what is wrong with the others. Names of `taken` are in use. -/
def resolveImports (modules : List ParsedModule) (importer : String) (taken : List String) :
    List (Spanned ImportDecl) → List ResolvedImport × List (Report ImportProblem)
  | [] => ([], [])
  | i :: rest =>
    let path := i.node.path
    match ImportPath.classify path with
    | .error reason =>
      let (imports, problems) := resolveImports modules importer taken rest
      (imports, ⟨.invalidPath path reason, i.span⟩ :: problems)
    | .ok kind =>
      let binding := importBinding i
      let (imports, problems) := resolveImports modules importer (binding.node :: taken) rest
      if taken.contains binding.node then
        (imports, ⟨.aliasCollision binding.node, binding.span⟩ :: problems)
      else
        let target := importTarget? modules importer path kind
        ({ path, kind, binding := binding.node, target, span := i.span } :: imports, problems)

def ParsedModule.resolveImports (modules : List ParsedModule) (m : ParsedModule) :
    List ResolvedImport × List (Report ImportProblem) :=
  SourceCheck.resolveImports modules m.name [] m.program.imports

/-! ### The graph -/

structure ModuleGraph where
  imports : List (List ResolvedImport)
  deps : Graph
  cyclic : List Nat
  waves : List (List Nat)

def dependencies (size : Nat) (imports : List ResolvedImport) : List Nat :=
  (List.range size).filter fun j => imports.any (·.target = some j)

def duplicateProblems (modules : List ParsedModule) : List ModuleProblem :=
  (modules.zipIdx.filter fun (m, i) => moduleIndex? modules m.name ≠ some i).map fun (m, i) =>
    { module := i, problem := .duplicateModule m.name, span := m.program.package.span }

def cycleSpan (m : ParsedModule) (imports : List ResolvedImport) (next : Nat) : Span :=
  ((imports.find? (·.target = some next)).map (·.span)).getD m.program.package.span

def cycleProblem (modules : List ParsedModule) (imports : List (List ResolvedImport)) (g : Graph)
    (component : List Nat) (v : Nat) : Option ModuleProblem :=
  (modules[v]?).map fun m =>
    let path := g.shortestCycle component v
    { module := v
      problem := .cycle (path.filterMap fun i => (modules[i]?).map (·.name))
      span := cycleSpan m (imports[v]?.getD []) (path[1]?.getD v) }

def Graph.cycles (g : Graph) : List (List Nat) :=
  g.components.filter g.isCycle

/-- The graph of modules and what is wrong: repeated names, then imports, then cycles. -/
def ModuleGraph.build (modules : List ParsedModule) : ModuleGraph × List ModuleProblem :=
  let resolved := modules.map (·.resolveImports modules)
  let imports := resolved.map (·.1)
  let deps : Graph := imports.map (dependencies modules.length)
  let importProblems := resolved.zipIdx.flatMap fun ((_, problems), i) =>
    problems.map fun r => { module := i, problem := r.cause, span := r.span }
  let cycleProblems := deps.cycles.flatMap fun c => c.filterMap (cycleProblem modules imports deps c)
  let cyclic := deps.vertices.filter fun v => deps.cycles.any (·.contains v)
  let waves := deps.waves (deps.vertices.filter fun v => !cyclic.contains v)
  ({ imports, deps, cyclic, waves }, duplicateProblems modules ++ importProblems ++ cycleProblems)

def ModuleGraph.order (g : ModuleGraph) : List Nat :=
  g.waves.flatten

def resolveModules (modules : List ParsedModule) : Except ModuleProblem ModuleGraph :=
  match ModuleGraph.build modules with
  | (g, []) => .ok g
  | (_, p :: _) => .error p

end SourceCheck
