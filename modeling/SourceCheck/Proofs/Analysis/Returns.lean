import SourceCheck.Proofs.Analysis.Checked

/-!
# Functions that return

In a module without problems, the end of a body is never reached, unless the return type is `void` or `Never`.
-/

namespace SourceCheck

open Check

variable {decl : FunctionDecl} {sig : Signature} {imports : List ImportBinding}

section

variable {cs : Constructors} {types : SpanTable Ty} {σ : Setting} {f : Findings}

lemma Knows.congr {τ} (h : Knows σ cs f) (hmodule : τ.module = σ.module) (hlibrary : τ.library = σ.library) :
    Knows τ cs f := by
  have henum : f.enum? τ = f.enum? σ := by
    funext n
    rw [Findings.enum?_eq, Findings.enum?_eq, hmodule, hlibrary]
  exact ⟨hmodule ▸ h.sound, henum ▸ h.eq, h.distinct⟩

lemma settled_of_checkBody {outer owner} (hf : f.symbols.Between σ.module outer) (hknows : Knows σ cs f)
    (hclean : Clean (checkBody decl sig owner) σ f) (hnoted : (checkBody decl sig owner σ f).2.exprTypes ⊆ types) :
    Settled cs types (Stmt.listNodes (fun _ => true) decl.body) := by
  intro span scrutinee arms hn
  rw [← Stmt.map_node_listOccurrences { locals := decl.startingNames sig owner }] at hn
  obtain ⟨o, ho, hnode⟩ := List.mem_map.1 hn
  have hchecks : Checks outer (checkBody decl sig owner) _ := checks_checkBody fun name => Iff.rfl
  obtain ⟨function, g, -, hbefore, hrun, hafter⟩ := (hchecks.reached hf o ho).stmt _ hnode
  have hknows' : Knows { σ with function } cs g := (hknows.steps hbefore).congr rfl rfl
  exact takesAll_of_clean hknows' (problems_eq_of_steps hbefore hrun hafter hclean)
    (List.Subset.trans hafter.exprTypes_suffix.subset hnoted)

lemma not_completesAll_of_checkBody {outer owner} (hf : f.symbols.Between σ.module outer) (hknows : Knows σ cs f)
    (hclean : Clean (checkBody decl sig owner) σ f) (hnoted : (checkBody decl sig owner σ f).2.exprTypes ⊆ types)
    (hreturn : sig.returnType.mustReturn = true) : ¬ Stmt.CompletesAll cs types decl.body := by
  have hlast : Local (do
      reportIf (sig.returnType.mustReturn && !Stmt.anyReturns (← get).exprTypes decl.body)
        (.missingReturn decl.name.node sig.returnType) decl.name.span) :=
    local_get.bind fun _ => local_reportIf _ _ _
  obtain ⟨-, hrest⟩ := Clean.of_bind
    ((scoped_checkBodyScope (hosts_steps decl sig owner) (Stmt.allGuarded_of_nothing _)
      (Frame.covers _)).isLocal.inScope _)
    (fun _ => (local_checkConstantTime decl.annotations decl.body).bind fun _ => hlast) hclean
  obtain ⟨-, hend⟩ := Clean.of_bind (local_checkConstantTime decl.annotations decl.body) (fun _ => hlast) hrest
  obtain ⟨-, hreport⟩ := Clean.of_bind local_get (fun _ => local_reportIf _ _ _) hend
  have hreturns := clean_reportIf_iff.1 hreport
  rw [hreturn, Bool.true_and, Bool.not_eq_false'] at hreturns
  exact Stmt.not_completesAll (List.Subset.trans (hlast σ _).exprTypes_suffix.subset hnoted)
    (settled_of_checkBody hf hknows hclean hnoted) hreturns

end

/-! ### Modules without problems -/

lemma problems_eq_nil_of_diagnostics {program name library options}
    (htold : (analyzeModule program name imports library options).diagnostics = [])
    (hrest : (analyzeModule program name imports library options).suppressed = 0) :
    (findingsOf program name imports library options).problems = [] := by
  simp only [analyzeModule, List.take_eq_nil_iff, List.map_eq_nil_iff, List.reverse_eq_nil_iff,
    List.length_map, List.length_reverse] at htold hrest
  obtain hzero | hnil := htold
  · rw [hzero, Nat.sub_zero] at hrest
    exact List.length_eq_zero_iff.1 hrest
  · exact hnil

/-- In a module without problems, no path through a function or method whose return type is neither `void` nor `Never`
reaches the end of its body. -/
theorem not_completesAll_of_analyzed {program : Program} {name : String}
    {imports : List ImportBinding} {library : Library} {options : AnalysisOptions}
    (hlibrary : library.Analyzed)
    (htold : (analyzeModule program name imports library options).diagnostics = [])
    (hrest : (analyzeModule program name imports library options).suppressed = 0)
    {d : Spanned Declaration} (hd : d ∈ program.declarations) {decl : FunctionDecl}
    (hdecl : decl ∈ d.node.functions) (hreturn : decl.returnType.mustReturn = true) :
    let findings := (analyzeModule program name imports library options).findings
    let setting := options.setting name program.package.node library
    ¬ Stmt.CompletesAll (constructorsOf (findings.enum? setting)) findings.exprTypes decl.body := by
  intro findings setting
  have hnil := problems_eq_nil_of_diagnostics htold hrest
  obtain ⟨τ, g, sig, owner, hmodule, hτ, hof, hg, hsteps, hclean, hnoted⟩ :=
    body_of_problems_eq_nil hnil (List.mem_map_of_mem hd) hdecl
  -- The enums are known from the collection on.
  have hsound := sound_collectDeclarations imports (program.declarations.map (·.node)) setting
  have hend : Findings.Steps _ findings :=
    (steps_constantsFolded setting imports _).trans (steps_findingsOf program name imports library options)
  have hdistinct := (inModule_findingsOf program name imports library options).distinct hlibrary
  have hknows : Knows setting (constructorsOf (findings.enum? setting)) g :=
    Knows.steps ⟨hsound, by rw [hend.enum?_eq hsound], hdistinct⟩ hsteps
  exact not_completesAll_of_checkBody (hmodule ▸ hg) (hknows.congr hmodule hτ) hclean hnoted (hof.mustReturn hreturn)

/-! ### Modules of one function -/

def paramX (type : Primitive) : Param :=
  { span := default, annotations := [], name := "x", type := .primitive default type }

def exprX (start : Nat) : Expr :=
  .ident { start, stop := start + 1 } "x"

def functionF (params : List Param) (returnType : Primitive) (body : List Stmt) : FunctionDecl :=
  { annotations := [], visibility := .pub, name := ⟨"f", default⟩, typeParams := [], receiver := none
    params, returnType := .primitive default returnType, body }

def moduleOf (decl : FunctionDecl) : Program :=
  { package := ⟨"m", default⟩, imports := [], declarations := [⟨.function decl, default⟩] }

def analyzedAlone (decl : FunctionDecl) : AnalyzedModule :=
  analyzeModule (moduleOf decl) "m" [] [] {}

def constructorsAlone (decl : FunctionDecl) : Constructors :=
  constructorsOf ((analyzedAlone decl).findings.enum? (AnalysisOptions.setting {} "m" "m" []))

def returnsFromBoth : FunctionDecl :=
  functionF [paramX .bool] .bool [.ifThen default (exprX 1) [.returnValue default (exprX 3)]
    (.block [.returnValue default (exprX 5)])]

/-- The end of a function that returns from both branches is not reached. -/
theorem not_completesAll_of_analyzed_returnsFromBoth :
    (analyzedAlone returnsFromBoth).diagnostics = [] ∧ (analyzedAlone returnsFromBoth).suppressed = 0 ∧
      returnsFromBoth.returnType.mustReturn = true ∧
      ¬ Stmt.CompletesAll (constructorsAlone returnsFromBoth)
        (analyzedAlone returnsFromBoth).findings.exprTypes returnsFromBoth.body := by
  have htold : (analyzedAlone returnsFromBoth).diagnostics = [] := by decide +kernel
  have hrest : (analyzedAlone returnsFromBoth).suppressed = 0 := by decide +kernel
  exact ⟨htold, hrest, rfl, not_completesAll_of_analyzed .nil htold hrest List.mem_cons_self
    List.mem_cons_self rfl⟩

def emptyNever : FunctionDecl :=
  functionF [] .never []

/-- In a module without problems, the end of a function of type `Never` can be reached. -/
theorem completesAll_emptyNever :
    (analyzedAlone emptyNever).diagnostics = [] ∧ (analyzedAlone emptyNever).suppressed = 0 ∧
      emptyNever.returnType = .primitive default .never ∧
      Stmt.CompletesAll (constructorsAlone emptyNever) (analyzedAlone emptyNever).findings.exprTypes
        emptyNever.body := by
  refine ⟨?_, ?_, rfl, .nil⟩
  · decide +kernel
  · decide +kernel

end SourceCheck
