import SourceCheck.Parse.Program
import SourceCheck.Proofs.Analysis.Mutability

/-!
# Unsafe operations and loops

In a module without problems, pointers are followed and extern functions called only inside `unsafe` blocks of the
same function, and `break` and `continue` stand inside its loops. A constant expression is not looked at behind an
operand without a value.
-/

namespace SourceCheck

open Check Occurrence

variable {expected : Option Ty}

lemma Library.member?_eq_some {l : Library} {target member module item}
    (h : l.member? target member = some (module, item)) :
    target = some module ∧ ∃ exports, l.module? module = some exports ∧ exports.item? member = some item := by
  simp only [Library.member?, Option.bind_eq_bind, Option.bind_eq_some_iff, Option.pure_def, Option.some.injEq,
    Prod.mk.injEq] at h
  obtain ⟨_, htarget, exports, hmodule, _, hitem, rfl, rfl⟩ := h
  exact ⟨htarget, exports, hmodule, hitem⟩

def Stmt.leavesLoop : Stmt → Bool
  | .breakLoop _ | .continueLoop _ => true
  | _ => false

/-! ### Checks that pass -/

section Passing

variable {σ : Setting} {f : Findings}

lemma clean_of_recorded {span rule} (hrule : Local rule) (h : Clean (recorded span rule) σ f) : Clean rule σ f :=
  (Clean.of_bind hrule (fun t => (local_recordType span t).bind fun _ => local_pure t) h).1

lemma inside_of_reportIf {α : Type} {kind p span} {k : Unit → Check α} (hk : ∀ u, Local (k u))
    (h : Clean (inside kind >>= fun b => reportIf (!b) p span >>= k) σ f) : f.symbols.inside kind = true := by
  have hreport : Clean (reportIf (!f.symbols.inside kind) p span >>= k) σ f := h
  simpa using clean_reportIf_iff.1 (hreport.of_bind (local_reportIf _ _ _) hk).1

lemma inside_of_deref {span logical operand}
    (h : Clean (checkExpr (.unary span logical (some .deref) operand) expected) σ f) :
    f.symbols.inside .unsafeBlock = true := by
  have hoperand := local_operand operand
  have hpointer : Clean (checkPointerPrefix span (some .deref) ⟨operand, checkExpr operand⟩ expected) σ f := by
    rw [checkExpr] at h
    have hunary := clean_of_recorded (infers_checkUnary _ _ _ hoperand trivial (.inl (expects_steps _))).isLocal h
    unfold checkUnary at hunary
    split at hunary
    · contradiction
    · refine (hunary.of_bind (infers_checkPointerPrefix _ _ hoperand (.inl (expects_steps _))).isLocal fun t => ?_).1
      split
      · exact local_pure t
      · exact (plain_checkLogicalPrefix _ _ _ _).steps
  rw [checkPointerPrefix] at hpointer
  rw [← (plain_checkExpr operand none).symbols σ f]
  refine inside_of_reportIf (fun _ => ?_) (hpointer.of_bind (hoperand.check none) fun t => ?_).2
  · split
    · exact local_pure _
    · exact local_pure _
    · exact local_refuse _ _
  · refine (local_inside _).bind fun _ => (local_reportIf _ _ _).bind fun _ => ?_
    split
    · exact local_pure _
    · exact local_pure _
    · exact local_refuse _ _

lemma not_clean_refuseCall {p span args} (hargs : ∀ o ∈ args, o.Local) : ¬ Clean (refuseCall p span args) σ f :=
  not_clean_report_bind fun _ => local_giveUp hargs

lemma inside_of_functionCall {span module name} {info : FunctionInfo}
    {args} (hargs : ∀ o ∈ args, o.Local) (hforeign : info.isExtern = true)
    (h : Clean (checkFunctionCall span module name info args expected) σ f) :
    f.symbols.inside .unsafeBlock = true := by
  unfold checkFunctionCall at h
  split at h
  · exact absurd h (not_clean_refuseCall hargs)
  · rename_i overload sig _
    simp only [hforeign, ↓reduceIte] at h
    refine inside_of_reportIf (fun _ => (local_recordCall _ _).bind fun _ => ?_) h
    exact local_applySignature hargs _ _ _ _ _ _

lemma inside_of_namedCall {span nameSpan name args s info} (hsymbol : f.symbols.symbol? name = some s)
    (hkind : s.kind = .function info)
    (hforeign : info.isExtern = true) (h : Clean (checkExpr (.call span (.ident nameSpan name) args) expected) σ f) :
    f.symbols.inside .unsafeBlock = true := by
  rw [checkExpr] at h
  have hcall := clean_of_recorded
    (infers_checkNamedCall _ _ (local_operands args) (.inl rfl) (.inl (expects_steps _))).isLocal h
  rw [Clean, checkNamedCall, run_kind?_bind, hsymbol, Option.map_some, hkind] at hcall
  exact inside_of_functionCall (local_operands args) hforeign hcall

lemma inside_of_memberCall {span} {head member : Name} {args s path target module item info}
    (hresult : head.node ≠ "Result") (hoption : head.node ≠ "Option")
    (hsymbol : f.symbols.symbol? head.node = some s)
    (hkind : s.kind = .module path target) (hmember : σ.library.member? target member.node = some (module, item))
    (hitem : item.kind = .function info) (hforeign : info.isExtern = true)
    (h : Clean (checkExpr (.dottedCall span head member args) expected) σ f) :
    f.symbols.inside .unsafeBlock = true := by
  have hargs : ∀ o ∈ (some (operands args)).getD [], o.Local := local_operands args
  rw [checkExpr] at h
  have hcall := clean_of_recorded (infers_checkDotted _ trivial _ hargs (.inr (.inl ⟨rfl, rfl⟩))
    (fun _ => .inl (expects_steps _)) fun _ => .inl (expects_steps _)).isLocal h
  rw [Clean, checkDotted, if_neg (by simp [hresult, hoption]), run_kind?_bind, hsymbol, Option.map_some, hkind] at hcall
  have hfound : Clean (checkModuleMember span target head member (some (operands args)) expected) σ f := hcall
  obtain ⟨rfl, exports, hmodule, hlookup⟩ := Library.member?_eq_some hmember
  rw [Clean, checkModuleMember, run_read_bind] at hfound
  simp only [Option.bind_some, checkExported, hmodule, hlookup, hitem] at hfound
  split at hfound
  · exact absurd hfound (not_clean_refuseCall hargs)
  · exact inside_of_functionCall (local_operands args) hforeign hfound

lemma inside_of_leavesLoop {s} (hs : s.leavesLoop = true) (h : Clean (checkStmt s) σ f) :
    f.symbols.inside .loop = true := by
  cases s with
  | breakLoop span | continueLoop span =>
    rw [checkStmt] at h
    have hreport : Clean (reportIf (!f.symbols.inside .loop) _ span) σ f := h
    simpa using clean_reportIf_iff.1 hreport
  | _ => cases hs

end Passing

/-! ### Modules -/

/-- A call of an extern function of the module or an import, where `locals` are the local names. -/
inductive CallsExtern (imports : List ImportBinding) (library : Library) (decls : List Declaration)
    (locals : List String) : Expr → Prop where
  | own {span nameSpan name args decl} :
    name ∉ locals →
    .externFunction decl ∈ decls →
    decl.name.node = name →
    CallsExtern imports library decls locals (.call span (.ident nameSpan name) args)
  | imported {span head member args binding module item info} :
    head.node ∉ locals →
    head.node ≠ "Result" →
    head.node ≠ "Option" →
    imports.find? (·.binding = head.node) = some binding →
    library.member? binding.target member.node = some (module, item) →
    item.kind = .function info →
    info.isExtern = true →
    CallsExtern imports library decls locals (.dottedCall span head member args)

/-- What needs an `unsafe` block or a loop is in one. -/
structure Occurrence.Gated (imports : List ImportBinding) (library : Library) (decls : List Declaration)
    (o : Occurrence) : Prop where
  deref : ∀ span logical operand, o.node = .expr (.unary span logical (some .deref) operand) →
    o.around.isUnsafe = true
  foreign : ∀ e, o.node = .expr e → CallsExtern imports library decls o.around.locals e → o.around.isUnsafe = true
  loop : ∀ s, o.node = .stmt s → s.leavesLoop = true → o.around.inLoop = true

section Analysis

variable {imports : List ImportBinding} {library : Library} {decls : List Declaration} {C : ConstContext}

lemma not_evaluates_deref {span logical operand v} : ¬ Evaluates C (.unary span logical (some .deref) operand) v := by
  rintro ⟨⟩

lemma CallsExtern.not_evaluates {locals e} (h : CallsExtern imports library decls locals e)
    {v} : ¬ Evaluates C e v := by
  cases h <;> rintro ⟨⟩

lemma CallsExtern.inside {σ f module outer declared S e}
    (h : CallsExtern imports library decls S.locals e) (hlibrary : σ.library = library)
    (hmodule : outer.AtModule module)
    (houter : Declares module imports decls declared outer)
    (hdeclared : ∀ decl, .externFunction decl ∈ decls → ∃ id, (.externFunction decl, id) ∈ declared)
    (hf : f.symbols.Fits module outer S) (hclean : Clean (checkExpr e expected) σ f) :
    f.symbols.inside .unsafeBlock = true := by
  subst hlibrary
  cases h with
  | @own _ _ _ _ decl hlocal hdecl hname =>
    subst hname
    obtain ⟨id, hid⟩ := hdeclared decl hdecl
    obtain ⟨s, hglobal, hgives⟩ := houter.found hid
    have hsymbol := (hf.others _ hlocal).trans (hmodule.symbol?_eq hglobal)
    have hshapes := hgives.shapes
    cases hkind : s.kind with
    | function info =>
      rw [hkind] at hshapes
      exact inside_of_namedCall hsymbol hkind hshapes hclean
    | _ =>
      rw [hkind] at hshapes
      exact hshapes.elim
  | imported hlocal hresult hoption hbinding hmember hitem hforeign =>
    obtain ⟨id, s, hglobal, hkind⟩ := houter.imported hbinding
    have hsymbol := (hf.others _ hlocal).trans (hmodule.symbol?_eq hglobal)
    exact inside_of_memberCall hresult hoption hsymbol hkind hmember hitem hforeign hclean

variable {program : Program} {name : String} {options : AnalysisOptions}

/-- In a module without problems, all that needs an `unsafe` block or a loop is in one of the same body, apart from
what stands in a constant expression behind an operand without a value. -/
theorem gated_of_analyzed
    (htold : (analyzeModule program name imports library options).diagnostics = [])
    (hrest : (analyzeModule program name imports library options).suppressed = 0)
    {d : Spanned Declaration} (hd : d ∈ program.declarations) {decl : FunctionDecl}
    (hdecl : decl ∈ d.node.functions)
    {o : Occurrence}
    (ho : o ∈ Stmt.listOccurrences { locals := d.node.bodyNames (program.declarations.map (·.node)) decl } decl.body)
    (hbefore : ∀ e ∈ o.around.before,
      HasValue (constContext imports library (program.declarations.map (·.node))) e) :
    o.Gated imports library (program.declarations.map (·.node)) := by
  have hnil := problems_eq_nil_of_diagnostics htold hrest
  have hpasses := occurrences_pass hnil (List.mem_map_of_mem hd) hdecl o ho
  obtain ⟨hcollect, -, -⟩ := clean_of_problems_eq_nil hnil
  -- in a constant expression nothing of the kind has a value
  have hexpr {e : Expr} (he : o.node = .expr e) (hchecks : o.around.checks e = true)
      (hconstant : ∀ v, ¬ Evaluates (constContext imports library (program.declarations.map (·.node))) e v) :=
    hpasses.expr e he (by
      by_contra hsite
      obtain ⟨v, hv⟩ := hpasses.constant e he (Option.isSome_iff_ne_none.mpr hsite) hbefore
      exact hconstant v hv) hchecks
  refine ⟨fun span logical operand he => ?_, fun e he hcall => ?_, fun s hs hleaves => ?_⟩
  · obtain ⟨σ, g, expected, hσ, -, hg, hclean⟩ := hexpr he rfl fun v => not_evaluates_deref
    rw [← hg.isUnsafe]
    exact inside_of_deref hclean
  · obtain ⟨σ, g, expected, -, hlibrary, hg, hclean⟩ :=
      hexpr he (by cases hcall <;> rfl) fun v => hcall.not_evaluates
    rw [← hg.isUnsafe]
    exact hcall.inside hlibrary (atModule_constantsFolded _ _ _) (declares_constantsFolded _ _ _)
      (fun decl hdecl => mem_collectDeclarations hcollect hdecl rfl) hg hclean
  · obtain ⟨σ, g, -, -, hg, hclean⟩ := hpasses.stmt s hs
    rw [← hg.inLoop]
    exact inside_of_leavesLoop hleaves hclean

end Analysis

def targetOfPUnsafely : Occurrence :=
  ⟨{ locals := ["p", "x"], isUnsafe := true }, .expr targetOfP⟩

/-- What the pointer points to is used in an `unsafe` block. -/
theorem gated_of_analyzed_writesThroughPointer :
    (analyzedAlone writesThroughPointer).diagnostics = [] ∧ (analyzedAlone writesThroughPointer).suppressed = 0 ∧
      targetOfPUnsafely ∈ Stmt.listOccurrences { locals := [] } writesThroughPointer.body ∧
      targetOfPUnsafely.Gated [] [] [.function writesThroughPointer] := by
  have htold : (analyzedAlone writesThroughPointer).diagnostics = [] := by decide +kernel
  have hrest : (analyzedAlone writesThroughPointer).suppressed = 0 := by decide +kernel
  have hmem : targetOfPUnsafely ∈ Stmt.listOccurrences { locals := [] } writesThroughPointer.body := by
    exact List.mem_of_getElem? (i := 10) rfl
  refine ⟨htold, hrest, hmem, ?_⟩
  exact gated_of_analyzed htold hrest List.mem_cons_self List.mem_cons_self hmem (by simp [targetOfPUnsafely])

def importIo : ImportBinding :=
  { binding := "io", path := "stdlib/io", target := none, span := default }

def constantOfIo : Expr :=
  .dotted { start := 24, stop := 28 } ⟨"io", default⟩ ⟨"X", default⟩

/-- An array whose size adds what a pointer points to to `io.X`. -/
def sizesByPointer : FunctionDecl :=
  functionF
    [{ span := default, annotations := [], name := "p", type := .pointer default .const (.primitive default .usize) }]
    .void
    [.letBinding default [] false ⟨"a", default⟩ (.slice default (.primitive default .i32))
      (.arrayRepeat { start := 20, stop := 43 } (.literal { start := 21, stop := 22 } (.int 0))
        (.binary { start := 24, stop := 42 } constantOfIo .add targetOfP))]

def targetOfPInSize : Occurrence :=
  ⟨{ locals := ["p"], site := some (.size (.binary { start := 24, stop := 42 } constantOfIo .add targetOfP))
     before := [constantOfIo] }, .expr targetOfP⟩

/-- A pointer in the size of an array is used outside any `unsafe` block, without problems. -/
theorem not_gated_sizesByPointer :
    (analyzeModule (moduleOf sizesByPointer) "m" [importIo] [] {}).diagnostics = [] ∧
      (analyzeModule (moduleOf sizesByPointer) "m" [importIo] [] {}).suppressed = 0 ∧
      targetOfPInSize ∈ Stmt.listOccurrences { locals := ["p"] } sizesByPointer.body ∧
      ¬ targetOfPInSize.Gated [importIo] [] [.function sizesByPointer] := by
  refine ⟨by decide +kernel, by decide +kernel, ?_, fun h => ?_⟩
  · exact List.mem_of_getElem? (i := 7) rfl
  · exact Bool.false_ne_true (h.deref _ _ _ rfl)

def importA : ImportBinding :=
  { binding := "a", path := "./a", target := some "a", span := default }

/-- A private constant of another module is used behind `io.X`, without problems. -/
theorem private_behind_unknown :
    let a := analyze (parseSource "package a;\npriv const S: i32 = 1;\n").program {}
    let m := analyzeModule (parseSource "package m;\npub const A: i32 = io.X + a.S;\n").program "m" [importIo, importA]
      [a.exports] {}
    (a.exports.item? "S").map (·.visibility) = some .priv ∧ m.diagnostics = [] ∧ m.suppressed = 0 := by
  decide +kernel

end SourceCheck
