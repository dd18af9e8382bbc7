import SourceCheck.Analysis.Module
import SourceCheck.Module.Resolve
import SourceCheck.Symbol.Interner

/-!
# Compilations

Modules are analysed wave by wave, each against the exports of the earlier ones. A module whose text is wrong, or on
an import cycle, is not; its members are unknown to its importers.
-/

namespace SourceCheck

structure Compilation where
  modules : List ParsedModule
  graph : ModuleGraph
  problems : List ModuleProblem
  analyzed : List (Nat × AnalyzedModule)
  interner : Interner

def importBindings (modules : List ParsedModule) (imports : List ResolvedImport) : List ImportBinding :=
  imports.map fun i =>
    { binding := i.binding
      path := i.path
      target := i.target.bind fun j => (modules[j]?).map (·.name)
      span := i.span }

def analyzeAt (modules : List ParsedModule) (g : ModuleGraph) (options : AnalysisOptions)
    (library : Library) (i : Nat) : Option (Nat × AnalyzedModule) :=
  match modules[i]? with
  | none => none
  | some m =>
    if m.isReadable then
      let imports := importBindings modules (g.imports[i]?.getD [])
      some (i, analyzeModule m.program m.name imports library options)
    else none

def analyzeWaves (modules : List ParsedModule) (g : ModuleGraph) (options : AnalysisOptions)
    (library : Library) : List (List Nat) → List (Nat × AnalyzedModule)
  | [] => []
  | wave :: rest =>
    let results := wave.filterMap (analyzeAt modules g options library)
    let library' := results.foldl (fun l r => l.add r.2.exports) library
    results ++ analyzeWaves modules g options library' rest

def compile (sources : List SourceModule) (options : AnalysisOptions) : Compilation :=
  let modules := parseModules sources
  let (graph, problems) := ModuleGraph.build modules
  { modules
    graph
    problems
    analyzed := analyzeWaves modules graph options [] graph.waves
    interner := ({} : Interner).internAll (modules.flatMap (·.texts)) }

namespace Compilation

def analyzed? (c : Compilation) (i : Nat) : Option AnalyzedModule :=
  c.analyzed.lookup i

/-- What is told about a module's text, imports and meaning. -/
def moduleDiagnostics (c : Compilation) (i : Nat) : List Diagnostic :=
  ((c.modules[i]?).map (·.diagnostics)).getD [] ++
    (c.problems.filter (·.module = i)).map (·.diagnostic) ++
    ((c.analyzed? i).map (·.diagnostics)).getD []

def diagnostics (c : Compilation) : List (Nat × Diagnostic) :=
  (List.range c.modules.length).flatMap fun i => (c.moduleDiagnostics i).map fun d => (i, d)

def errorCount (c : Compilation) : Nat :=
  ((c.modules.flatMap (·.diagnostics)).filter (·.isError)).length + c.problems.length +
    c.analyzed.foldl (fun n m => n + m.2.errorCount) 0

def hasErrors (c : Compilation) : Bool :=
  0 < c.errorCount

end Compilation

end SourceCheck
