import SourceCheck.Proofs.Analysis.Interface
import SourceCheck.Proofs.Analysis.Stays
import SourceCheck.Proofs.Analysis.Tracks

/-!
# Every body of a module is checked

The body of every function and method that was found is checked as a whole, and the names that are not local in it
stand for the declarations of the module.
-/

namespace SourceCheck

open Check Occurrence List

variable {f g : Findings} {σ : Setting} {info : NominalInfo} {d : Declaration}

/-! ### Declarations -/

lemma SymbolKind.owner?_eq_some {k : SymbolKind} {info} (h : k.nominalInfo? = some info) :
    ∃ t, k.owner? = some ⟨t, info⟩ := by
  cases k with
  | struct i fields | enum i variants => exact ⟨_, congrArg _ (congrArg _ (Option.some.inj h))⟩
  | _ => simp [nominalInfo?] at h

section Declarations

variable {outer : SymbolTable} {σ : Setting} {f h : Findings} {decl : FunctionDecl}

lemma plain_declaredSignature? (name) : Plain (declaredSignature? name) :=
  (infers_declaredSignature? name).plain

lemma checks_checkSigned (decl sig) : Checks outer (checkSigned decl sig) [] := by
  have hbody : Checks outer (checkBody decl sig none) [] := (checks_checkBody fun _ => .rfl).nil
  refine plain_read.beforeChecks fun σ => ?_
  split
  · exact (plain_reportIf _ _ _).beforeChecks fun _ => hbody
  · exact hbody

lemma checks_checkFunction (decl) : Checks outer (checkFunction decl) [] := by
  refine (plain_checkAnnotations _ _ _).beforeChecks fun _ => ?_
  refine (plain_declaredSignature? _).beforeChecks fun s => ?_
  cases s with
  | none => exact (plain_pure ()).checks
  | some sig => exact checks_checkSigned decl sig

lemma checks_checkMethod (owner decl) : Checks outer (checkMethod owner decl) [] := by
  refine (plain_checkAnnotations _ _ _).beforeChecks fun _ => ?_
  split
  · split
    · exact (checks_checkBody fun _ => .rfl).nil
    · exact (plain_pure ()).checks
  · exact (plain_pure ()).checks

lemma checks_checkDeclaration (d) : Checks outer (checkDeclaration d) [] := by
  cases d with
  | function decl => exact checks_checkFunction decl
  | impl block =>
    refine (plain_global? _).beforeChecks fun g => ?_
    split
    · exact (plain_pure ()).checks
    · exact checks_forM fun m => checks_checkMethod _ m.node
  | externFunction decl =>
    refine (plain_checkAnnotations _ _ _).beforeChecks fun _ => (plain_declaredSignature? _).beforeChecks fun sig => ?_
    exact (checks_forM fun p => (plain_checkAnnotations _ _ _).checks).after fun _ => plain_checkAnnotations _ _ _
  | struct decl =>
    exact (plain_checkAnnotations _ _ _).beforeChecks fun _ => checks_forM fun f =>
      (plain_checkAnnotations _ _ _).checks
  | enum decl => exact (plain_checkAnnotations _ _ _).checks
  | const decl => exact (plain_pure ()).checks

/-- Whose methods the functions of a declaration are. -/
inductive Declaration.Owned (t : SymbolTable) : Declaration → Option Owner → Prop where
  | function {decl : FunctionDecl} : Owned t (.function decl) none
  | method {block : ImplBlock} {id : Nat} {s : Symbol} {owner : Owner} :
    t.global? block.target.node = some (id, s) →
    s.kind.nominalInfo? = some owner.info →
    Owned t (.impl block) (some owner)

/-- The body of a function or method is checked between two states. -/
def ChecksBody (outer : SymbolTable) (σ : Setting) (f h : Findings) (d : Declaration) (decl : FunctionDecl) : Prop :=
  ∃ (g : Findings) (sig : Signature) (owner : Option Owner), sig.Of decl ∧ d.Owned g.symbols owner ∧
    g.symbols.Between σ.module outer ∧
    Findings.Steps f g ∧ Findings.Steps (checkBody decl sig owner σ g).2 h

lemma checksBody_checkFunction (hf : f.symbols.Between σ.module outer) {id} (hfound : f.HasFunction id decl) :
    ChecksBody outer σ f (checkFunction decl σ f).2 (.function decl) decl := by
  obtain ⟨⟨_, _, _, _, _⟩, info, sig, hglobal, rfl, rfl, hhead, hof⟩ := hfound
  have hannotations := plain_checkAnnotations decl.annotations .function none
  have hentry : Plain (checkEntryPoint decl sig) := plain_reportIf _ _ _
  let g := (checkAnnotations decl.annotations .function none σ f).2
  have hg : g.symbols.Between σ.module outer := hannotations.checks.between hf
  have hrun : checkFunction decl σ f = checkSigned decl sig σ g := by
    have hsig : declaredSignature? decl.name σ g = (some sig, g) := by
      rw [declaredSignature?, run_global?_bind, hannotations.symbols σ f, hglobal]
      simp [hhead, run_pure]
    rw [checkFunction, run_bind, run_bind, hsig]
  rw [hrun, checkSigned, run_read_bind]
  split
  · exact ⟨_, sig, none, hof, .function, hentry.checks.between hg,
    (hannotations.steps σ f).trans (hentry.steps σ g),
      .refl⟩
  · exact ⟨g, sig, none, hof, .function, hg, hannotations.steps σ f, .refl⟩

lemma checksBody_checkImpl (hf : f.symbols.Between σ.module outer) {block : ImplBlock} {m : Spanned FunctionDecl}
    (hm : m ∈ block.methods) (hfound : f.HasMethod block.target.node m.node) :
    ChecksBody outer σ f (checkImpl block σ f).2 (.impl block) m.node := by
  obtain ⟨id, s, info, mi, hglobal, hinfo, hlookup, hspan, hof⟩ := hfound
  obtain ⟨t, howner⟩ := SymbolKind.owner?_eq_some hinfo
  have hrun : checkImpl block σ f = (block.methods.forM fun m => checkMethod ⟨t, info⟩ m.node) σ f := by
    rw [checkImpl, run_global?_bind, hglobal]
    simp only [Option.bind_some, howner]
  obtain ⟨g, hbefore, hg, hafter⟩ :=
    Checks.of_forM (fun m : Spanned FunctionDecl => checks_checkMethod ⟨t, info⟩ m.node) (σ := σ) hf hm
  have hannotations := plain_checkAnnotations m.node.annotations .method none
  have hmethod : checkMethod ⟨t, info⟩ m.node σ g =
      checkBody m.node mi.signature (some ⟨t, info⟩) σ
        (checkAnnotations m.node.annotations .method none σ g).2 := by
    rw [checkMethod, run_bind]
    simp only [hlookup, hspan, ↓reduceIte]
  have hsteps : Findings.Steps f _ := hbefore.trans (hannotations.steps σ g)
  rw [hmethod] at hafter
  rw [hrun]
  exact ⟨_, mi.signature, some ⟨t, info⟩, hof,
    .method (hsteps.global?_eq hf.sound (Symbol.fixed_of_nominal hinfo) hglobal) hinfo, hannotations.checks.between hg,
    hsteps, hafter⟩

end Declarations

variable {decl : FunctionDecl} {name : String}

/-! ### Modules -/

/-- The names that a body starts with. -/
def Declaration.bodyNames (decls : List Declaration) (d : Declaration) (decl : FunctionDecl) : List String :=
  (match d with
    | .impl block => (decls.filter (·.name.node = block.target.node)).flatMap (·.typeParams)
    | _ => []) ++
  decl.typeParams.map (·.node) ++ decl.receiver.toList.map (fun _ => "self") ++ decl.params.map (·.name)

section Modules

variable {imports : List ImportBinding} {library : Library} {decls : List Declaration}
  {declared : List (Declaration × Nat)} {module : String} {t : SymbolTable}

lemma Declaration.Shapes.writtenIn {k} (h : d.Shapes module decls k)
    (hinfo : k.nominalInfo? = some info) : info.WrittenIn module decls d := by
  match d, k, h with
  | .struct _, .struct .., h =>
    cases hinfo
    exact h.1
  | .enum _, .enum .., h =>
    cases hinfo
    exact h
  | .function _, .function _, _ | .externFunction _, .function _, _ | .const _, .const .., _ => cases hinfo

lemma Declaration.exists_symbol?_of_typeParams (module) {p} (hp : p ∈ d.typeParams) :
    ∃ s, d.symbol? module = some s := by
  cases d with
  | struct decl | enum decl => exact ⟨_, rfl⟩
  | _ => exact absurd hp not_mem_nil

lemma Signature.Of.mem_startingNames {sig} (h : sig.Of decl) (owner name) :
    name ∈ decl.startingNames sig owner ↔
      name ∈ (owner.map (·.info.typeParams)).getD [] ++ decl.typeParams.map (·.node) ++
        decl.receiver.toList.map (fun _ => "self") ++ decl.params.map (·.name) := by
  have hlength : sig.params.length = decl.params.length := by
    simpa using congrArg List.length h.params
  have hparams : (decl.params.zip sig.params).map (·.2.1) = decl.params.map (·.name) := by
    have hzip := congrArg (List.map (·.1)) (map_snd_zip (Nat.le_of_eq hlength))
    rw [map_map] at hzip
    exact hzip.trans h.params
  simp only [FunctionDecl.startingNames, hparams, mem_append, mem_reverse]
  tauto

lemma declaration_eq_of_name_eq (hclean : Clean (collectDeclarations imports decls) σ {}) {d'}
    (hd : d ∈ decls) (hd' : d' ∈ decls) {s s'} (hs : d.symbol? σ.module = some s)
    (hs' : d'.symbol? σ.module = some s') (hname : d.name.node = d'.name.node) : d = d' := by
  have hdeclares := declares_collectDeclarations imports decls σ
  obtain ⟨id, hid⟩ := mem_collectDeclarations hclean hd hs
  obtain ⟨id', hid'⟩ := mem_collectDeclarations hclean hd' hs'
  obtain ⟨_, hglobal, -⟩ := hdeclares.found hid
  obtain ⟨_, hglobal', -⟩ := hdeclares.found hid'
  rw [hname, hglobal'] at hglobal
  obtain rfl : id' = id := congrArg Prod.fst (Option.some.inj hglobal)
  exact hdeclares.unique hid hid'

lemma Declaration.Owned.mem_bodyNames {owner} (howned : d.Owned g.symbols owner)
    (hclean : Clean (collectDeclarations imports decls) σ {})
    (hsteps : Findings.Steps (collectDeclarations imports decls σ {}).2 g) {sig} (hof : sig.Of decl)
    (name) : name ∈ d.bodyNames decls decl ↔ name ∈ decl.startingNames sig owner := by
  rw [hof.mem_startingNames]
  cases howned with
  | function => rfl
  | @method block id s owner hglobal hinfo =>
    have hdeclares := (declares_collectDeclarations imports decls σ).steps hsteps
    obtain ⟨d, hd, hname, hgives⟩ := hdeclares.exists_of_nominal hglobal hinfo
    have hwritten := hgives.shapes.writtenIn hinfo
    have hparams (p : String) : p ∈ owner.info.typeParams ↔
        p ∈ (decls.filter (·.name.node = block.target.node)).flatMap (·.typeParams) := by
      rw [hwritten.typeParams]
      constructor
      · intro hp
        have hmem : d ∈ decls.filter (·.name.node = block.target.node) :=
          mem_filter.2 ⟨mem_of_registerNames hd, decide_eq_true hname⟩
        exact mem_flatMap.2 ⟨d, hmem, hp⟩
      · intro hp
        obtain ⟨d', hmem, hp⟩ := mem_flatMap.1 hp
        obtain ⟨hd', hname'⟩ := mem_filter.1 hmem
        obtain ⟨s', hs'⟩ := Declaration.exists_symbol?_of_typeParams σ.module hp
        obtain ⟨s₀, hs₀, -⟩ := hgives.symbol
        obtain rfl := declaration_eq_of_name_eq hclean (mem_of_registerNames hd) hd' hs₀ hs'
          (hname.trans (of_decide_eq_true hname').symm)
        exact hp
    simp only [Declaration.bodyNames, mem_append, Option.map_some, Option.getD_some, hparams]

lemma SymbolTable.AtModule.symbol?_eq (h : t.AtModule module) {id s}
    (hglobal : t.global? name = some (id, s)) : t.symbol? name = some s := by
  obtain ⟨k, hlookup, hget⟩ := Option.bind_eq_some_iff.1 hglobal
  obtain ⟨s', hs', heq⟩ := Option.map_eq_some_iff.1 hget
  cases heq
  have hfrom : t.lookup name = some id := by
    rw [SymbolTable.lookup, h.current, SymbolTable.lookupFrom_eq]
    rw [SymbolTable.lookupGlobal] at hlookup
    rw [hlookup, Option.some_or]
  rw [SymbolTable.symbol?, hfrom, Option.bind_some, hs']

lemma steps_constantsFolded (σ imports decls) :
    Findings.Steps (collectDeclarations imports decls σ {}).2 (constantsFolded σ imports decls) :=
  local_forM (fun d _ => local_checkConstDeclaration d) _ _

lemma stays_constantsFolded (σ imports decls) : SymbolTable.initial.Stays (constantsFolded σ imports decls).symbols :=
  (keepsTable_collectDeclarations imports decls σ {}).trans
    (keepsTable_forM (fun d _ => keepsTable_checkConstDeclaration d) _ _)

lemma atModule_constantsFolded (σ imports decls) : (constantsFolded σ imports decls).symbols.AtModule σ.module :=
  (atModule_initial σ.module).stays (stays_constantsFolded σ imports decls)
    ((steps_constantsFolded σ imports decls).sound (sound_collectDeclarations imports decls σ))

lemma between_constantsFolded (σ imports decls) :
    let t := (constantsFolded σ imports decls).symbols
    t.Between σ.module t :=
  have hmodule := atModule_constantsFolded σ imports decls
  ⟨hmodule, hmodule.sound, .refl _⟩

lemma steps_findingsOf (program name imports library options) :
    let σ := options.setting name program.package.node library
    Findings.Steps (constantsFolded σ imports program.decls) (findingsOf program name imports library options) :=
  local_forM (fun d _ => local_checkDeclaration d) _ _

lemma checksBody_constantsFolded (hclean : Clean (collectDeclarations imports decls) σ {}) (hd : d ∈ decls)
    (hdecl : decl ∈ d.functions) :
    let τ : Setting := { σ with constants := constantsOf (collectDeclarations imports decls σ {}).1 }
    let f := constantsFolded σ imports decls
    ChecksBody f.symbols τ f ((decls.forM checkDeclaration) τ f).2 d decl := by
  intro τ f
  obtain ⟨g, hbefore, hg, hafter⟩ := Checks.of_forM (fun d => checks_checkDeclaration d) (σ := τ)
    (between_constantsFolded σ imports decls) hd
  have hsound := sound_collectDeclarations imports decls σ
  have hsteps := (steps_constantsFolded σ imports decls).trans hbefore
  have hbody : ChecksBody f.symbols τ g (checkDeclaration d τ g).2 d decl := by
    cases d with
    | function decl' =>
      obtain rfl := mem_singleton.1 hdecl
      obtain ⟨id, hfound⟩ := hasFunction_collectDeclarations hclean hd
      exact checksBody_checkFunction hg (hfound.steps hsound hsteps)
    | impl block =>
      obtain ⟨m, hm, rfl⟩ := mem_map.1 hdecl
      exact checksBody_checkImpl hg hm ((hasMethod_collectDeclarations hclean hd hm).steps hsound hsteps)
    | _ => exact absurd hdecl not_mem_nil
  obtain ⟨g', sig, owner, hof, howned, hg', hsteps', hafter'⟩ := hbody
  exact ⟨g', sig, owner, hof, howned, hg', hbefore.trans hsteps', hafter'.trans hafter⟩

lemma clean_of_problems_eq_nil {program options}
    (hnil : (findingsOf program name imports library options).problems = []) :
    let σ := options.setting name program.package.node library
    let decls := program.decls
    let collected := collectDeclarations imports decls σ {}
    let τ : Setting := { σ with constants := constantsOf collected.1 }
    Clean (collectDeclarations imports decls) σ {} ∧ Clean (decls.forM checkConstDeclaration) τ collected.2 ∧
      Clean (decls.forM checkDeclaration) τ (constantsFolded σ imports decls) := by
  intro σ decls collected τ
  have hprogram : Clean (checkProgram program imports) σ {} := hnil
  rw [checkProgram_eq] at hprogram
  obtain ⟨hcollect, hclean⟩ := hprogram.of_grows
    ((grows_imports imports).bind fun _ => (grows_registerNames decls).bind (grows_collectNamed decls))
    fun declared => ((local_checkDeclarations decls).withReader _).grows
  have hconsts : Local (decls.forM checkConstDeclaration) := local_forM fun d _ => local_checkConstDeclaration d
  have hdecls : Local (decls.forM checkDeclaration) := local_forM fun d _ => local_checkDeclaration d
  have hphases : Clean
    (decls.forM checkConstDeclaration >>= fun _ => decls.forM checkDeclaration) τ collected.2 := hclean
  exact ⟨hcollect, hphases.of_bind hconsts fun _ => hdecls⟩

/-- In a module without problems, every body is checked without problems. -/
lemma body_of_problems_eq_nil {program options} (hnil : (findingsOf program name imports library options).problems = [])
    (hd : d ∈ program.decls) (hdecl : decl ∈ d.functions) :
    let σ := options.setting name program.package.node library
    let decls := program.decls
    ∃ (τ : Setting) (g : Findings) (sig : Signature) (owner : Option Owner), τ.module = σ.module ∧
      τ.library = σ.library ∧ sig.Of decl ∧
        g.symbols.Between σ.module (constantsFolded σ imports decls).symbols ∧
      Findings.Steps (collectDeclarations imports decls σ {}).2 g ∧ Clean (checkBody decl sig owner) τ g ∧
      (checkBody decl sig owner τ g).2.exprTypes ⊆ (findingsOf program name imports library options).exprTypes := by
  intro σ decls
  obtain ⟨hcollect, -, hbodies⟩ := clean_of_problems_eq_nil hnil
  obtain ⟨g, sig, owner, hof, -, hg, hbefore, hafter⟩ := checksBody_constantsFolded hcollect hd hdecl
  let τ : Setting := { σ with constants := constantsOf (collectDeclarations imports decls σ {}).1 }
  refine ⟨τ, g, sig, owner, rfl, rfl, hof, hg, (steps_constantsFolded σ imports decls).trans hbefore, ?_,
    hafter.exprTypes_suffix.subset⟩
  exact problems_eq_of_steps hbefore (local_checkBody decl sig owner τ g) hafter hbodies

lemma Check.RunsAt.exists_clean {α : Type} {c : Check α} {outer : SymbolTable} {S : Surroundings}
    {h : Findings} (hrun : RunsAt outer S σ f h c) (hproblems : h.problems = f.problems) :
    ∃ function g, g.symbols.Fits σ.module outer S ∧ Findings.Steps f g ∧ Clean c { σ with function } g := by
  obtain ⟨function, g, hg, hbefore, hrun, hafter⟩ := hrun
  exact ⟨function, g, hg, hbefore, problems_eq_of_steps hbefore hrun hafter hproblems⟩

lemma evaluates_of_site {h outer S site}
    (hσ : σ.Tells library decls declared) (hf : Declares σ.module imports decls declared f.symbols)
    (hsettled : (constContext imports library decls).Settled f) (hrun : RunsAt outer S σ f h site.check)
    (hproblems : h.problems = f.problems) (hsite : S.site = some site) {o} (ho : o ∈ site.occurrences S)
    (hbefore : ∀ e ∈ o.around.before, HasValue (constContext imports library decls) e) {e}
    (he : o.node = .expr e) : ∃ v, Evaluates (constContext imports library decls) e v := by
  obtain ⟨function, g, -, hsteps, hclean⟩ := hrun.exists_clean hproblems
  have hreads : (constContext imports library decls).Reads { σ with function } g.symbols :=
    Declares.reads (σ := { σ with function }) (hf.steps hsteps) ⟨hσ.library, hσ.constants, hσ.declared⟩
  have hserves := ConstContext.serves_settled hreads
  cases site with
  | size size =>
    obtain ⟨hfold, -⟩ := Clean.of_bind (local_foldArraySize size) (fun _ => local_pure ()) hclean
    obtain ⟨⟨v, hv, -⟩, -⟩ :=
      (yields_foldArraySize hserves size).finds trivial g rfl (hsettled.steps hsteps) hfold
    exact hv.part (by simp [hsite]) ho hbefore he
  | types types =>
    obtain ⟨hresolve, -⟩ := Clean.of_bind (local_resolveTypes types) (fun _ => local_pure ()) hclean
    obtain ⟨hresolves, -⟩ :=
      (yields_resolveTypes hserves types).finds trivial g rfl (hsettled.steps hsteps) hresolve
    exact hresolves.part (by simp [hsite]) ho hbefore he

lemma declares_constantsFolded (σ imports decls) :
    Declares σ.module imports decls (collectDeclarations imports decls σ {}).1
      (constantsFolded σ imports decls).symbols :=
  (declares_collectDeclarations imports decls σ).steps (steps_constantsFolded σ imports decls)

/-- A part passes: it is checked without problems, or looked at in a constant expression by the rules. -/
structure Occurrence.Passes (module : String) (C : ConstContext) (outer : SymbolTable) (o : Occurrence) : Prop where
  expr : ∀ e, o.node = .expr e → o.around.site = none → o.around.checks e = true →
    ∃ (σ : Setting) (g : Findings) (expected : Option Ty), σ.module = module ∧ σ.library = C.library ∧
      g.symbols.Fits module outer o.around ∧ Clean (checkExpr e expected) σ g
  stmt : ∀ s, o.node = .stmt s → ∃ (σ : Setting) (g : Findings), σ.module = module ∧
    σ.library = C.library ∧
      g.symbols.Fits module outer o.around ∧ Clean (checkStmt s) σ g
  constant : ∀ e, o.node = .expr e → o.around.site.isSome → (∀ e ∈ o.around.before, HasValue C e) →
    ∃ v, Evaluates C e v

lemma occurrences_pass {program options} (hnil : (findingsOf program name imports library options).problems = [])
    (hd : d ∈ program.decls) (hdecl : decl ∈ d.functions) :
    let σ := options.setting name program.package.node library
    let decls := program.decls
    ∀ o ∈ Stmt.listOccurrences { locals := d.bodyNames decls decl } decl.body,
      o.Passes σ.module (constContext imports library decls) (constantsFolded σ imports decls).symbols := by
  intro σ decls o ho
  obtain ⟨hcollect, hconsts, hbodies⟩ := clean_of_problems_eq_nil hnil
  obtain ⟨hσ, hsettled⟩ := settled_checkConstDeclarations (S := .any) (σ := σ) rfl hcollect
  obtain ⟨g, sig, owner, hof, howned, hg, hbefore, hafter⟩ := checksBody_constantsFolded hcollect hd hdecl
  have hbody : Checks (constantsFolded σ imports decls).symbols (checkBody decl sig owner)
      (Stmt.listOccurrences { locals := d.bodyNames decls decl } decl.body) :=
    checks_checkBody (howned.mem_bodyNames hcollect ((steps_constantsFolded σ imports decls).trans hbefore) hof)
  have hreached := (hbody.reached hg o ho).extend hbefore (hbody.steps _ g) hafter
  refine ⟨fun e he hsite hchecks => ?_, fun s hs => ?_, fun e he hsite hbefore => ?_⟩
  · obtain ⟨expected, hrun⟩ := hreached.expr e he hsite hchecks
    obtain ⟨function, g, hg, -, hclean⟩ := hrun.exists_clean hbodies
    exact ⟨_, g, expected, by rfl, by rfl, hg, hclean⟩
  · obtain ⟨function, g, hg, -, hclean⟩ := (hreached.stmt s hs).exists_clean hbodies
    exact ⟨_, g, by rfl, by rfl, hg, hclean⟩
  · obtain ⟨site, hsite⟩ := Option.isSome_iff_exists.1 hsite
    obtain ⟨S, hS, hmem, hrun⟩ := hreached.site site hsite hbodies
    exact evaluates_of_site hσ (declares_constantsFolded σ imports decls) (hsettled hconsts) hrun hbodies hS hmem
      hbefore he

end Modules

end SourceCheck
