import SourceCheck.Proofs.Analysis.Outline
import SourceCheck.Proofs.Analysis.Values
import SourceCheck.Proofs.Analysis.Writes

/-!
# What a module publishes

What a module publishes depends on its declarations, not on bodies and places: names, shapes and constants are
collected alike without places, and a body declares nothing that others see.
-/

namespace SourceCheck

open Check List SymbolTable

/-! ### Which declaration gets a name -/

section Names

variable {σ : Setting} {f : Findings}

lemma run_registerNames_cons (d ds σ f) :
    registerNames (d :: ds) σ f =
      (((registerName d σ f).1.map (d, ·)).toList ++ (registerNames ds σ (registerName d σ f).2).1,
        (registerNames ds σ (registerName d σ f).2).2) := by
  simp only [registerNames, run_bind]
  cases (registerName d σ f).1 <;> rfl

lemma SymbolTable.AtModule.global?_eq_none_iff {module} {t : SymbolTable} (ht : t.AtModule module)
    {name} : t.global? name = none ↔ t.lookupLocal name = none := by
  have hlocal : t.lookupLocal name = t.lookupGlobal name := by rw [lookupLocal, lookupGlobal, ht.current]
  rw [hlocal]
  constructor
  · intro hnone
    cases hlookup : t.lookupGlobal name with
    | none => rfl
    | some id =>
      obtain ⟨c, hscope, hmem⟩ := mem_of_lookupIn hlookup
      obtain ⟨s, hget, -, -⟩ := ht.sound.linked hscope hmem
      simp [global?, hlookup, hget] at hnone
  · intro hnone
    simp [global?, hnone]

section

variable (hf : f.symbols.AtModule σ.module)

include hf

lemma global?_eq_none_of_registerName {d : Declaration} {id}
    (h : (registerName d σ f).1 = some id) : f.symbols.global? d.name.node = none := by
  cases hsym : d.symbol? σ.module with
  | none =>
    rw [run_registerName_none hsym] at h
    cases h
  | some s =>
    cases hdefine : f.symbols.define s with
    | error previous =>
      rw [run_registerName_error hsym hdefine] at h
      cases h
    | ok p =>
      obtain ⟨id, table⟩ := p
      obtain ⟨hname, -⟩ := Declaration.symbol?_eq hsym
      obtain ⟨hfree, -⟩ := define_eq_ok hdefine
      exact hname ▸ hf.global?_eq_none_iff.2 hfree

lemma global?_registerName_const (c) :
    (registerName (.const c) σ f).2.symbols.global? c.name.node ≠ none := by
  cases hglobal : f.symbols.global? c.name.node with
  | some p =>
    rw [global?_registerName hf hglobal]
    exact Option.some_ne_none p
  | none =>
    obtain ⟨s, hsym, hname⟩ : ∃ s, (Declaration.const c).symbol? σ.module = some s ∧ s.name = c.name.node :=
      ⟨_, rfl, rfl⟩
    rw [← hname] at hglobal ⊢
    obtain ⟨⟨id, table⟩, hdefine⟩ : ∃ p, f.symbols.define s = .ok p :=
      ⟨_, by rw [SymbolTable.define, hf.global?_eq_none_iff.1 hglobal]⟩
    rw [run_registerName_ok hsym hdefine, SymbolTable.global?_define_self hdefine hf.current hf.scope]
    exact Option.some_ne_none _

lemma global?_eq_none_of_registerNames {ds}
    {p} (hp : p ∈ (registerNames ds σ f).1) : f.symbols.global? p.1.name.node = none := by
  induction ds generalizing f with
  | nil => exact absurd hp not_mem_nil
  | cons d ds ih =>
    rw [run_registerNames_cons] at hp
    obtain hp | hp := mem_append.1 hp
    · obtain ⟨id, hid, rfl⟩ := Option.map_eq_some_iff.1 (Option.mem_toList.1 hp)
      exact global?_eq_none_of_registerName hf hid
    · have hlater := ih (atModule_registerName d σ f hf) hp
      cases hglobal : f.symbols.global? p.1.name.node with
      | none => rfl
      | some q =>
        rw [global?_registerName hf hglobal] at hlater
        cases hlater

lemma mem_of_registerNames_const {done rest c} {p} (hp : p ∈ (registerNames (done ++ .const c :: rest) σ f).1)
    (hname : p.1.name.node = c.name.node) : p.1 ∈ done ∨ p.1 = .const c := by
  induction done generalizing f with
  | nil =>
    rw [nil_append, run_registerNames_cons] at hp
    obtain hp | hp := mem_append.1 hp
    · obtain ⟨id, -, rfl⟩ := Option.map_eq_some_iff.1 (Option.mem_toList.1 hp)
      exact .inr rfl
    · have hfree := global?_eq_none_of_registerNames (atModule_registerName _ σ f hf) hp
      exact absurd (hname ▸ hfree) (global?_registerName_const hf c)
  | cons d done ih =>
    rw [cons_append, run_registerNames_cons] at hp
    obtain hp | hp := mem_append.1 hp
    · obtain ⟨id, -, rfl⟩ := Option.map_eq_some_iff.1 (Option.mem_toList.1 hp)
      exact .inl mem_cons_self
    · exact (ih (atModule_registerName d σ f hf) hp).imp_left (mem_cons_of_mem d)

end

end Names

/-! ### Constants, one after another -/

lemma SymbolTable.modifySymbol_eq_self {t : SymbolTable} {id g}
    (h : ∀ s, t.get? id = some s → g s = s) : t.modifySymbol id g = t := by
  have hsymbols : t.symbols.modify id g = t.symbols := by
    refine Array.ext_getElem? fun k => ?_
    rw [Array.getElem?_modify]
    split
    · rename_i hk
      subst hk
      cases hget : t.symbols[id]? with
      | none => rfl
      | some s => exact congrArg some (h s hget)
    · rfl
  rw [modifySymbol, hsymbols]

section Phase

variable {σ : Setting} {imports : List ImportBinding} {decls done rest : List Declaration}
  {declared : List (Declaration × Nat)} {c : ConstDecl} {f f' : Findings}

lemma Findings.Outlines.of_eq {g : Findings} (h : g.Outlines f') (hsymbols : g.symbols = f.symbols)
    (hfolding : g.folding = f.folding)
    (hvalues : ∀ name, g.constValues.lookup name = f.constValues.lookup name) : f.Outlines f' where
  symbols := by rw [h.symbols, hsymbols]
  values name := (h.values name).trans (hvalues name)
  folding name := (h.folding name).trans (by rw [hfolding])
  fresh name hname := (hvalues name).symm.trans (h.fresh name (by rw [hfolding, hname]))

lemma Findings.Told.outlines {c₁ : ConstDecl} {id} {s : Symbol} {t v} (h : f.Told σ.constDepth c₁ id)
    (hname : c₁.name.node = c.name.node) (horderly : f.Orderly) (hget : f.symbols.get? id = some s)
    (hkind : s.kind = .const t v) (hf : (foldDeclared c id t σ f).2.Outlines f') : f.Outlines f' := by
  have htyped : Findings.Orderly { f with exprTypes := f.exprTypes.set c.value.span t } :=
    horderly.step (.type f c.value.span t)
  obtain ⟨hrecalls, hdemanded, -⟩ := demanded_demandConst σ.constants [] c.name.node c.name.span σ
    { f with exprTypes := f.exprTypes.set c.value.span t }
  have hlookup := htyped.lookup_demandConst σ.constants [] c.name.node c.name.span σ
  have hrun : (foldDeclared c id t σ f).2 = (noteValue c id t
      (demandConst σ.constants [] c.name.node c.name.span σ
        { f with exprTypes := f.exprTypes.set c.value.span t }).1 σ
      (demandConst σ.constants [] c.name.node c.name.span σ
        { f with exprTypes := f.exprTypes.set c.value.span t }).2).2 := rfl
  rw [hrun] at hf
  generalize demandConst σ.constants [] c.name.node c.name.span σ
    { f with exprTypes := f.exprTypes.set c.value.span t } = result at *
  obtain ⟨w, g⟩ := result
  obtain rfl : g.constValues.lookup c.name.node = w := hlookup
  have hsame : g.folding = f.folding ∧ g.constValues = f.constValues := by
    cases hprogress : f.folding.lookup c.name.node with
    | none => exact hrecalls.idle (h.entered (hname ▸ hprogress))
    | some p => exact hdemanded.kept (by simp [hprogress])
  obtain ⟨hfolding, hvalues⟩ := hsame
  cases hw : g.constValues.lookup c.name.node with
  | none =>
    rw [hw] at hf
    exact hf.of_eq hrecalls.symbols hfolding fun _ => congrArg _ hvalues
  | some x =>
    rw [hw] at hf
    cases hfit : x.misfit? t with
    | some m =>
      simp only [noteValue, hfit] at hf
      exact hf.of_eq hrecalls.symbols hfolding fun _ => congrArg _ hvalues
    | none =>
      simp only [noteValue, hfit] at hf
      -- The symbol has the value already.
      obtain ⟨s', t', v', hget', -, hkind', hsays⟩ := h.value (hname ▸ hvalues ▸ hw)
      obtain rfl : s = s' := Option.some.inj (hget.symm.trans hget')
      obtain ⟨rfl, rfl⟩ : t = t' ∧ v = v' := SymbolKind.const.inj (hkind.symm.trans hkind')
      have hv : v = some x := by
        obtain ⟨hv, -⟩ | ⟨m, hm, -⟩ := hsays
        · exact hv
        · rw [hfit] at hm
          cases hm
      refine Findings.Outlines.of_eq (g := g.withValue c.name.node id x) hf ?_ hfolding fun other => ?_
      · show g.symbols.modifySymbol id _ = f.symbols
        rw [hrecalls.symbols]
        refine modifySymbol_eq_self fun s' hs' => ?_
        obtain rfl : s = s' := Option.some.inj (hget.symm.trans hs')
        rw [hkind, SymbolKind.withValue, ← hv, ← hkind]
      · exact (lookup_cons_of_lookup hw other).trans (by rw [hvalues])

lemma echoes_foldDeclared (c n t) : Echoes (foldDeclared c n t) id (foldDeclared c.unplaced n t) := by
  refine Echoes.bind (g := id) (fun _ _ _ h => ⟨rfl, h.symbols, h.values, h.folding, h.fresh⟩) fun _ σ f f' h => ?_
  obtain ⟨hvalue, hf⟩ := echoes_constValue [] c.name.node c.name.span default σ f f' h
  have hfinished : (constValue [] c.name.node c.name.span σ f).1 ≠ none →
      (constValue [] c.name.node c.name.span σ f).2.folding.lookup c.name.node = some .finished :=
    (demanded_demandConst σ.constants [] c.name.node c.name.span σ f).2.1.finished
  rw [run_bind, run_bind]
  dsimp only [ConstDecl.unplaced, Spanned.unplaced] at hvalue hf ⊢
  rw [hvalue, id_eq]
  cases hv : (constValue [] c.name.node c.name.span σ f).1 with
  | none => exact ⟨rfl, hf⟩
  | some x =>
    unfold noteValue
    dsimp only
    cases x.misfit? t with
    | some m => exact echoes_report _ _ _ _ σ _ _ hf
    | none =>
      have hwith (k : SymbolKind) : (k.withValue x).unplaced = k.unplaced.withValue x := by cases k <;> rfl
      have hset := (echoes_setKind n hwith σ _ _ hf).2
      refine ⟨rfl, hset.recordConst x fun hnone => ?_⟩
      exact Option.some_ne_none _ ((hfinished (by simp [hv])).symm.trans hnone)

lemma run_checkAnnotations (list target type σ f) :
    ∃ problems, checkAnnotations list target type σ f = ((), { f with problems }) := by
  unfold checkAnnotations
  induction annotationProblems list target type generalizing f with
  | nil => exact ⟨f.problems, rfl⟩
  | cons r rs ih =>
    obtain ⟨problems, hrun⟩ := ih { f with problems := r :: f.problems }
    exact ⟨problems, hrun⟩

/-- Some constants of a module are folded, with and without places. -/
structure ConstantPhase (σ : Setting) (imports : List ImportBinding) (decls : List Declaration)
    (declared : List (Declaration × Nat)) (done : List Declaration) (f f' : Findings) : Prop where
  outlines : f.Outlines f'
  declares : Declares σ.module imports decls declared f.symbols
  valued : f.Valued σ.constDepth declared done

/-- One that did not get its name is left alone with places, and folded once more without. -/
lemma ConstantPhase.next (h : ConstantPhase σ imports decls declared done f f')
    (hconstants : σ.constants = constantsOf declared)
    (hfirst : ∀ p ∈ declared, p.1.name.node = c.name.node → p.1 ∈ done ∨ p.1 = .const c) :
    ConstantPhase σ imports decls declared (done ++ [.const c]) (checkConst c σ f).2
      (checkConst c.unplaced σ.unplaced f').2 := by
  refine ⟨?_, h.declares.steps (local_checkConst c σ f), valued_checkConst h.valued hconstants h.declares c⟩
  have hglobal' : f'.symbols.global? c.unplaced.name.node =
      (f.symbols.global? c.name.node).map fun p => (p.1, p.2.unplaced) := by
    rw [h.outlines.symbols]
    exact global?_unplaced f.symbols c.name.node
  by_cases hconst : ∃ id s t v, f.symbols.global? c.name.node = some (id, s) ∧ s.kind = .const t v
  · obtain ⟨id, s, t, v, hglobal, hkind⟩ := hconst
    have hechoes := (echoes_foldDeclared c id t σ f f' h.outlines).2
    rw [hglobal] at hglobal'
    have hkind' : s.unplaced.kind = .const t v := by
      rw [Symbol.unplaced, hkind]
      rfl
    have hpasses : s.unplaced.span = c.unplaced.name.span := rfl
    rw [run_checkConst_const hglobal' hkind', if_pos hpasses, run_checkConst_const hglobal hkind]
    split
    · exact hechoes
    · rename_i hother
      have hget := get?_of_global? hglobal
      obtain ⟨c₁, hc₁, hname, hspan⟩ := h.declares.exists_const hget hkind
      have hname : c₁.name.node = c.name.node := hname.trans (h.declares.sound.name_eq hglobal)
      obtain hdone | hsame := hfirst _ hc₁ hname
      · exact (h.valued.told hc₁ hdone).outlines hname h.valued.orderly hget hkind hechoes
      · cases hsame
        exact absurd hspan hother
  · have hother (id s t v) (hglobal : f.symbols.global? c.name.node = some (id, s)) : s.kind ≠ .const t v :=
      fun hkind => hconst ⟨id, s, t, v, hglobal, hkind⟩
    have hother' (id s t v) (hs : f'.symbols.global? c.unplaced.name.node = some (id, s)) : s.kind ≠ .const t v := by
      rw [hglobal'] at hs
      obtain ⟨⟨id₁, s₁⟩, hglobal, heq⟩ := Option.map_eq_some_iff.1 hs
      cases heq
      intro hkind
      refine hother id₁ s₁ t v hglobal ?_
      rw [Symbol.unplaced] at hkind
      cases hk : s₁.kind <;> simp_all [SymbolKind.unplaced]
    rw [run_checkConst_other hother, run_checkConst_other hother']
    exact h.outlines

lemma ConstantPhase.checkAll (body : List Stmt → List Stmt) (rest)
    (h : ConstantPhase σ imports decls declared done f f')
    (hconstants : σ.constants = constantsOf declared)
    (hfirst : ∀ done' c rest', done ++ rest = done' ++ .const c :: rest' → ∀ p ∈ declared,
      p.1.name.node = c.name.node → p.1 ∈ done' ∨ p.1 = .const c) :
    ConstantPhase σ imports decls declared (done ++ rest) (rest.forM checkConstDeclaration σ f).2
      ((rest.map (·.unplaced body)).forM checkConstDeclaration σ.unplaced f').2 := by
  induction rest generalizing done f f' with
  | nil =>
    rw [append_nil]
    exact h
  | cons d rest ih =>
    have hnext : ConstantPhase σ imports decls declared (done ++ [d]) (checkConstDeclaration d σ f).2
        (checkConstDeclaration (d.unplaced body) σ.unplaced f').2 := by
      cases d with
      | const c =>
        have hsteps := local_checkAnnotations c.annotations .const none σ f
        have hretains := (infers_checkAnnotations (F := .retaining σ.constDepth (constantsOf declared))
          c.annotations .const none).goes_alone (σ := σ) ⟨rfl, hconstants⟩ f
        have houtlines : (checkAnnotations c.annotations .const none σ f).2.Outlines
            (checkAnnotations c.unplaced.annotations .const none σ.unplaced f').2 := by
          obtain ⟨problems, hrun⟩ := run_checkAnnotations c.annotations .const none σ f
          obtain ⟨problems', hrun'⟩ := run_checkAnnotations c.unplaced.annotations .const none σ.unplaced f'
          rw [hrun, hrun']
          exact ⟨h.outlines.symbols, h.outlines.values, h.outlines.folding, h.outlines.fresh⟩
        have hphase : ConstantPhase σ imports decls declared done _ _ :=
          ⟨houtlines, h.declares.steps hsteps, h.valued.keeps hsteps hretains⟩
        exact hphase.next hconstants (hfirst done c rest rfl)
      | _ =>
        refine ⟨h.outlines, h.declares, h.valued.next fun {c id} _ heq => ?_⟩
        cases heq
    rw [append_cons] at hfirst ⊢
    exact ih hnext hfirst

end Phase

/-! ### Bodies -/

lemma ofTable_define {t t' s id} (h : t.define s = .ok (id, t'))
    (hs : s.visibility = none) (module) : ModuleExports.ofTable module t' = ModuleExports.ofTable module t := by
  obtain ⟨-, -, rfl⟩ := define_eq_ok h
  refine congrArg (ModuleExports.mk module) ?_
  rw [globals, globals, Array.toList_push, filter_append, filterMap_append]
  refine (congrArg (_ ++ ·) (filterMap_eq_nil_iff.2 fun s' hs' => ?_)).trans (append_nil _)
  rw [mem_singleton.1 (mem_filter.1 hs').1, hs]
  cases s.kind <;> rfl

/-- A run after which the module exports what it did before. -/
abbrev Frame.unpublished : Frame :=
  .alone (fun _ => True) fun f g => ∀ module, ModuleExports.ofTable module g.symbols = .ofTable module f.symbols

lemma scopes_unpublished : Frame.Scopes fun f g => ∀ module,
    ModuleExports.ofTable module g.symbols = .ofTable module f.symbols where
  refl _ _ := rfl
  trans hfg hgh module := (hgh module).trans (hfg module)
  problem _ _ _ := rfl
  type _ _ _ _ := rfl
  call _ _ _ _ := rfl
  size _ _ _ _ := rfl
  holds _ _ _ := trivial
  define _ hhidden hdefine := ofTable_define hdefine hhidden
  enter _ _ _ := rfl
  leave f module := by
    obtain ⟨i, hleave⟩ := leave_eq f.symbols
    simp only [hleave]
    rfl

instance : Frame.unpublished.Lawful :=
  scopes_unpublished.lawful

lemma Frame.foldable_unpublished : Frame.unpublished.Foldable id where
  name _ := rfl
  value _ := rfl
  reads hσ := by rw [hσ.1, map_id]; exact ⟨rfl, rfl⟩
  knows hf := by rw [hf.1]; exact ⟨rfl, rfl⟩
  changes _ _ hf := ⟨⟨by rw [hf.1], trivial⟩, fun _ => rfl⟩
  cycle _ _ hf := ⟨⟨by rw [hf.1], trivial⟩, fun _ => rfl⟩

instance : Frame.unpublished.Folding :=
  Frame.foldable_unpublished.folding

instance : Frame.unpublished.Declares :=
  scopes_unpublished.declares fun _ _ _ => trivial

/-! ### Modules -/

def ImportBinding.unplaced (i : ImportBinding) : ImportBinding :=
  { i with span := default }

lemma constantsOf_unplaced (body : List Stmt → List Stmt) (declared) :
    constantsOf (declared.map fun p => (p.1.unplaced body, p.2)) = (constantsOf declared).map ConstDecl.unplaced := by
  rw [constantsOf, constantsOf, filterMap_map, map_filterMap]
  refine congrArg (List.filterMap · declared) (funext fun p => ?_)
  obtain ⟨d, id⟩ := p
  cases d <;> rfl

lemma echoes_collectDeclarations (body : List Stmt → List Stmt) (imports decls) :
    Echoes (collectDeclarations imports decls) (List.map fun p => (p.1.unplaced body, p.2))
      (collectDeclarations (imports.map (·.unplaced)) (decls.map (·.unplaced body))) := by
  refine (echoes_forM fun i _ => (echoes_define i.symbol).bind fun _ => echoes_pure ()).bind fun _ => ?_
  refine (echoes_registerNames body decls).bind fun declared => ?_
  refine ((echoes_collectShapes body decls declared).withReader fun σ => ?_).bind fun _ => echoes_pure declared
  simp only [Setting.unplaced, constantsOf_unplaced]

/-- What is known when constants are folded and bodies are not checked yet. -/
def constantsFolded (σ : Setting) (imports : List ImportBinding) (decls : List Declaration) : Findings :=
  let collected := collectDeclarations imports decls σ {}
  (decls.forM checkConstDeclaration { σ with constants := constantsOf collected.1 } collected.2).2

lemma initial_unplaced : initial.unplaced = initial := by
  have hsymbols : initial.symbols.map Symbol.unplaced = initial.symbols := by decide +kernel
  rw [unplaced, hsymbols]

lemma outlines_initial : Findings.Outlines {} {} where
  symbols := initial_unplaced.symm
  values _ := rfl
  folding _ := rfl
  fresh _ _ := rfl

lemma outlines_constantsFolded (body : List Stmt → List Stmt) (σ imports decls) :
    (constantsFolded σ imports decls).Outlines
      (constantsFolded σ.unplaced (imports.map (·.unplaced)) (decls.map (·.unplaced body))) := by
  obtain ⟨hdeclared, hcollected⟩ := echoes_collectDeclarations body imports decls σ {} {} outlines_initial
  let τ : Setting := { σ with constants := constantsOf (collectDeclarations imports decls σ {}).1 }
  have hphase : ConstantPhase τ imports decls (collectDeclarations imports decls σ {}).1 []
      (collectDeclarations imports decls σ {}).2
      (collectDeclarations (imports.map (·.unplaced)) (decls.map (·.unplaced body)) σ.unplaced {}).2 :=
    ⟨hcollected, declares_collectDeclarations imports decls σ, (unset_collectDeclarations imports decls σ).valued⟩
  have hfolded := (hphase.checkAll body decls rfl fun done c rest hdecls p hp hname => by
    obtain rfl : decls = done ++ .const c :: rest := hdecls
    exact mem_of_registerNames_const (atModule_imports imports σ {} (atModule_initial σ.module)) hp hname).outlines
  unfold constantsFolded
  simp only [hdeclared, constantsOf_unplaced]
  exact hfolded

lemma exports_eq_constantsFolded (program name imports library options) :
    (analyzeModule program name imports library options).exports =
      .ofTable name (constantsFolded (options.setting name program.package.node library) imports
        program.decls).symbols := by
  let σ := options.setting name program.package.node library
  let decls := program.decls
  have hbodies := runs_forM fun d (_ : d ∈ decls) => scoped_checkDeclaration (F := .unpublished) d
  exact hbodies.goes_alone
    (σ := { σ with constants := constantsOf (collectDeclarations imports decls σ {}).1 }) trivial
    _ name

lemma exports_unplaced (program name imports library options) :
    (analyzeModule program name imports library options).exports.unplaced =
      (analyzeModule program.outline name (imports.map (·.unplaced)) (library.map (·.unplaced)) options).exports := by
  have houtlines := outlines_constantsFolded (fun _ => []) (options.setting name program.package.node library) imports
    program.decls
  rw [exports_eq_constantsFolded, exports_eq_constantsFolded, ← ModuleExports.ofTable_unplaced, ← houtlines.symbols]
  have hdecls : program.outline.decls = program.decls.map (·.unplaced fun _ => []) := by
    simp [Program.decls, Program.outline, Program.unplaced]
  rw [hdecls]
  rfl

end SourceCheck
