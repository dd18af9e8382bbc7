import Mathlib
import SourceCheck.Proofs.Analysis.Visible
import SourceCheck.Proofs.Module.Published

/-!
# Analysis without annotations

What is wrong with annotations stands between all other problems. Yet no other check looks at them: without
annotations the same is found out about everything else, in the same order.
-/

namespace SourceCheck

open Check

/-- A module without its annotations. All places are kept. -/
def Program.unannotated (p : Program) : Program :=
  p.reannotate fun _ => []

def ModuleExports.unowned (e : ModuleExports) : ModuleExports :=
  { e with items := e.items.map fun p => (p.1, { p.2 with kind := p.2.kind.unowned }) }

/-- Problems of annotations are gone, no struct or enum has a memory strategy, and nothing is said about what is
needed of the runtime. -/
structure AnalyzedModule.Unannotated (m m' : AnalyzedModule) : Prop where
  name : m'.name = m.name
  diagnostics : m'.diagnostics = m.diagnostics.filter (·.kind ≠ .annotationConflict)
  suppressed : m'.suppressed = m.suppressed
  symbols : m'.findings.symbols = m.findings.symbols.mapSymbols Symbol.unowned
  exprTypes : m'.findings.exprTypes = m.findings.exprTypes
  callTargets : m'.findings.callTargets = m.findings.callTargets
  arraySizes : m'.findings.arraySizes = m.findings.arraySizes
  constValues : m'.findings.constValues = m.findings.constValues
  exports : m'.exports = m.exports.unowned

lemma ModuleExports.ofTable_unowned (module t) :
    ModuleExports.ofTable module (t.mapSymbols Symbol.unowned) = (ModuleExports.ofTable module t).unowned := by
  rw [ofTable, ofTable, ModuleExports.unowned, SymbolTable.globals_mapSymbols (g := Symbol.unowned) t fun _ => rfl,
    List.filterMap_map, List.map_filterMap]
  congr 2
  funext s
  obtain ⟨name, kind, span, scope, visibility⟩ := s
  cases kind <;> cases visibility <;> rfl

section

variable (program : Program) (own : String) (imports : List ImportBinding) (library : Library)
  (options : AnalysisOptions)

lemma findingsOf_unannotated :
    findingsOf program.unannotated own imports library options =
      (findingsOf program own imports library options).stripped true := by
  let F := Frame.visible own (fun _ => True) true False
  have hrun : Obeys F (checkProgram program imports) (checkProgram program.unannotated imports) :=
    scoped_checkProgram program (fun _ _ _ _ => trivial) Frame.constants_visible
  have hexported (k : SymbolKind) : k.Formed True fun n _ => Visible own (fun _ => True) n.module :=
    k.formed_of_forall trivial fun _ _ => .inr trivial
  have halike : (options.setting own program.package.node library).Alike own (fun _ => True) library :=
    ⟨rfl, fun _ _ => rfl, fun _ _ _ item _ => hexported item.2.kind, nofun⟩
  exact (hrun ⟨halike, rfl⟩ ⟨Findings.stripped_initial.symm, confined_initial⟩).knows.1

/-- Annotations are inert. Where all problems of a module are told, an analysis without its annotations tells the
same, less what is wrong with annotations. -/
theorem analyzeModule_unannotated
    (hall : (analyzeModule program own imports library options).errorCount ≤ options.maxErrors) :
    (analyzeModule program own imports library options).Unannotated
      (analyzeModule program.unannotated own imports library options) := by
  rw [errorCount_analyzeModule] at hall
  set f := findingsOf program own imports library options with hf
  have hfindings := findingsOf_unannotated program own imports library options
  have hsymbols : (f.stripped true).symbols = f.symbols.mapSymbols Symbol.unowned := rfl
  have hfewer : (f.stripped true).problems.length ≤ f.problems.length := List.length_filter_le _ _
  refine ⟨rfl, ?_, ?_, ?_, ?_, ?_, ?_, ?_, ?_⟩
  · simp only [analyzeModule, hfindings, ← hf]
    rw [List.take_of_length_le (by simpa using Nat.le_trans hfewer hall), List.take_of_length_le (by simpa using hall),
      List.filter_map, Findings.stripped, ← List.filter_reverse]
    refine congrArg _ (List.filter_congr fun r _ => ?_)
    simp [SemanticProblem.isRemark, SemanticProblem.diagnostic]
  · simp only [analyzeModule, hfindings, ← hf, List.length_map, List.length_reverse]
    omega
  all_goals simp only [analyzeModule, hfindings, ← hf]
  · exact hsymbols
  · rfl
  · rfl
  · rfl
  · rfl
  · rw [hsymbols, ModuleExports.ofTable_unowned]

end

/-- A constant with a memory strategy by mistake, and no value. -/
def annotatedSource : String := "package t;\n#[ownership(c)] pub const A: i32 = Z;\n"

/-- Of its two problems, that of its annotation is gone. -/
theorem analyzeModule_unannotated_annotatedSource :
    let program := (parseSource annotatedSource).program
    let m := analyzeModule program "t" [] [] {}
    let m' := analyzeModule program.unannotated "t" [] [] {}
    m.errorCount ≤ 100 ∧ m.diagnostics.map (·.kind) = [.annotationConflict, .unresolved] ∧
      m'.diagnostics.map (·.kind) = [.unresolved] ∧ m.Unannotated m' := by
  intro program m m'
  have hcount : m.errorCount ≤ 100 := by decide +kernel
  exact ⟨hcount, by decide +kernel, by decide +kernel, analyzeModule_unannotated program "t" [] [] {} hcount⟩

/-- A struct, and an `impl` block for it with an annotation. -/
def annotatedImpl (a : Annotation) : Program :=
  { package := ⟨"t", default⟩
    imports := []
    declarations :=
      [⟨.struct
          { annotations := [], visibility := .pub, name := ⟨"S", default⟩, typeParams := [], fields := [] }, default⟩,
        ⟨.impl { annotations := [a], target := ⟨"S", default⟩, methods := [] }, default⟩] }

/-- Arguments that are refused elsewhere are accepted on an `impl` block. -/
theorem annotatedImpl_accepted :
    let a : Annotation := ⟨"constant_time", .values [.int 5], default⟩
    argumentProblems .constantTime a ≠ [] ∧ (analyze (annotatedImpl a) {}).diagnostics = [] := by
  constructor
  · decide
  · cbv

end SourceCheck
