import SourceCheck.Proofs.Analysis.Declared
import SourceCheck.Proofs.Analysis.Evaluation

/-!
# Constants are folded before bodies are checked

In a module without problems, every constant is folded before bodies are checked, by the rules for constant
expressions, whichever declaration demanded it first.
-/

namespace SourceCheck

open Check List
open ConstContext (ofConstants_knows serves_knows)

variable {name : String} {s : Symbol} {α : Type} {id : Nat}

/-! ### The constants of a module -/

def Declaration.const? : Declaration → Option ConstDecl
  | .const c => some c
  | _ => none

/-- What constant expressions depend on. The size of a type may differ from time to time. -/
def constContext (imports : List ImportBinding) (library : Library) (decls : List Declaration) : ConstContext where
  imports := imports
  library := library
  constants := decls.filterMap (·.const?)
  scopes _ := True
  size _ _ := True

/-- What may be said about the sizes of types. -/
structure Sizing where
  size : Ty → Nat → Prop
  found : ∀ {table : NominalTable} {type : Ty} {l : Layout}, type.layout table = some l → size type l.size

def Sizing.any : Sizing :=
  ⟨fun _ _ => True, fun _ => trivial⟩

/-- The constant expressions of a module where something is said about sizes. -/
def Sizing.context (S : Sizing) (imports : List ImportBinding) (library : Library) (decls : List Declaration) :
    ConstContext :=
  { constContext imports library decls with size := S.size }

section

variable {imports : List ImportBinding} {library : Library} {decls : List Declaration}
  {declared : List (Declaration × Nat)} {σ : Setting} {f g : Findings} {S : Sizing}

lemma constantsOf_registerNames {ds} (h : Clean (registerNames ds) σ f) :
    constantsOf (registerNames ds σ f).1 = ds.filterMap (·.const?) := by
  induction ds generalizing f with
  | nil => rfl
  | cons d ds ih =>
    obtain ⟨hfirst, hrest⟩ := clean_registerNames_cons h
    simp only [registerNames, run_bind]
    cases hsym : d.symbol? σ.module with
    | none =>
      rw [run_registerName_none hsym] at hrest ⊢
      cases d with
      | impl block => exact ih hrest
      | _ => cases hsym
    | some s =>
      cases hdefine : f.symbols.define s with
      | error previous =>
        rw [Clean, run_registerName_error hsym hdefine] at hfirst
        exact absurd hfirst (cons_ne_self _ _)
      | ok p =>
        rw [run_registerName_ok hsym hdefine] at hrest ⊢
        have hconstants := ih hrest
        cases d with
        | const c => exact congrArg (c :: ·) hconstants
        | _ => exact hconstants

/-- A setting for the constants of a module whose declarations got their names. -/
structure Setting.Tells (σ : Setting) (library : Library) (decls : List Declaration)
    (declared : List (Declaration × Nat)) : Prop where
  library : σ.library = library
  constants : σ.constants = decls.filterMap (·.const?)
  declared : constantsOf declared = decls.filterMap (·.const?)

lemma SymbolTable.Sound.exists_of_symbol? {module} {t : SymbolTable} (hs : t.Sound module)
    (h : t.symbol? name = some s) : ∃ id, t.get? id = some s ∧ s.name = name := by
  obtain ⟨id, hlookup, hget⟩ := Option.bind_eq_some_iff.1 h
  obtain ⟨i, hin⟩ := SymbolTable.lookupIn_of_lookupFrom hlookup
  obtain ⟨scope, hscope, hmem⟩ := SymbolTable.mem_of_lookupIn hin
  obtain ⟨s', hget', hname, -⟩ := hs.linked hscope hmem
  obtain rfl : s' = s := Option.some.inj (hget'.symm.trans hget)
  exact ⟨id, hget, hname⟩

lemma Declares.const_found {module t} (h : Declares module imports decls declared t) {c}
    (hc : (.const c, id) ∈ declared) :
    ∃ s type v, t.global? c.name.node = some (id, s) ∧ s.kind = .const type v ∧ s.span = c.name.span := by
  obtain ⟨s, hglobal, hgives⟩ := h.found hc
  have hshapes := hgives.shapes
  cases hk : s.kind with
  | const type v => exact ⟨s, type, v, hglobal, hk, hgives.span⟩
  | _ =>
    rw [hk] at hshapes
    exact hshapes.elim

lemma Declares.exists_const {module t} (h : Declares module imports decls declared t) {id s type v}
    (hget : t.get? id = some s) (hkind : s.kind = .const type v) :
    ∃ c, (.const c, id) ∈ declared ∧ c.name.node = s.name ∧ s.span = c.name.span := by
  cases h.source hget with
  | bound hlocal =>
    rw [hkind] at hlocal
    cases hlocal
  | predeclared hk | imported _ hk =>
    rw [hkind] at hk
    cases hk
  | @declared d hd =>
    obtain ⟨hgives, hname⟩ := h.gives hd hget
    have hshapes := hgives.shapes
    rw [hkind] at hshapes
    cases d with
    | const c => exact ⟨c, hd, hname.symm, hgives.span⟩
    | _ => exact hshapes.elim

lemma Declares.reads_context {t} (h : Declares σ.module imports decls declared t)
    (hσ : σ.Tells library decls declared) : (S.context imports library decls).Reads σ t where
  library := hσ.library
  constants := hσ.constants
  target {name s path target} hs hkind := by
    obtain ⟨id, hget, rfl⟩ := h.sound.exists_of_symbol? hs
    cases h.source hget with
    | bound hlocal => simp [hkind, SymbolKind.isLocal] at hlocal
    | predeclared hfunction => simp [hkind] at hfunction
    | @imported i hfind hmodule =>
      rw [hkind] at hmodule
      cases hmodule
      simp [ConstContext.target?, Sizing.context, constContext, hfind]
    | @declared d hd =>
      have hshapes := (h.gives hd hget).1.shapes
      rw [hkind] at hshapes
      exact hshapes.ne_module.elim
  constant {name s type v} hs hkind := by
    obtain ⟨id, hget, rfl⟩ := h.sound.exists_of_symbol? hs
    obtain ⟨c, hd, hname, -⟩ := h.exists_const hget hkind
    have hc : c ∈ decls.filterMap (·.const?) := hσ.declared ▸ mem_filterMap.2 ⟨_, hd, rfl⟩
    intro hnone
    exact List.find?_eq_none.1 hnone c hc (decide_eq_true hname)
  scopes := trivial
  size _ _ _ hl := S.found hl

lemma Declares.reads {t} (h : Declares σ.module imports decls declared t)
    (hσ : σ.Tells library decls declared) : (constContext imports library decls).Reads σ t :=
  h.reads_context (S := .any) hσ

end

/-! ### Steps that keep what is known -/

namespace Check

variable {imports : List ImportBinding} {library : Library} {decls : List Declaration}
  {declared : List (Declaration × Nat)} {α β : Type} {c : Check α} {k : α → Check β} {S : Sizing}

def SkipsConstants (c : Check α) : Prop :=
  ∀ σ f, (c σ f).2.folding = f.folding ∧ (c σ f).2.constValues = f.constValues

lemma skips_pure (a : α) : SkipsConstants (pure a) :=
  fun _ _ => ⟨rfl, rfl⟩

lemma skips_report (p span) : SkipsConstants (report p span) :=
  fun _ _ => ⟨rfl, rfl⟩

lemma SkipsConstants.bind (h : SkipsConstants c) (hk : ∀ a, SkipsConstants (k a)) : SkipsConstants (c >>= k) :=
  fun σ f => ⟨(hk _ σ _).1.trans (h σ f).1, (hk _ σ _).2.trans (h σ f).2⟩

lemma skips_forM {l : List α} {k} (h : ∀ a, SkipsConstants (k a)) : SkipsConstants (l.forM k) := by
  induction l with
  | nil => exact skips_pure ()
  | cons a l ih => exact (h a).bind fun _ => ih

lemma skips_reportIf (wrong p span) : SkipsConstants (reportIf wrong p span) := by
  unfold reportIf
  split
  · exact skips_report p span
  · exact skips_pure ()

lemma skips_define (s) : SkipsConstants (define s) := by
  intro σ f
  cases hdefine : f.symbols.define s with
  | ok p =>
    rw [run_define_ok hdefine]
    exact ⟨rfl, rfl⟩
  | error previous =>
    rw [run_define_error hdefine]
    exact ⟨rfl, rfl⟩

lemma skips_setKind (id) (g : SymbolKind → SymbolKind) : SkipsConstants (setKind id g) :=
  fun _ _ => ⟨rfl, rfl⟩

/-- A step that, without problems, keeps what is known of constants by the rules. -/
structure Upholds (S : Sizing) (imports : List ImportBinding) (library : Library) (decls : List Declaration)
    (declared : List (Declaration × Nat)) (c : Check α) : Prop where
  steps : Local c
  knows : ∀ σ f, Setting.Tells σ library decls declared → Declares σ.module imports decls declared f.symbols →
    (S.context imports library decls).Knows (S.context imports library decls).constants f →
    Clean c σ f → (S.context imports library decls).Knows (S.context imports library decls).constants (c σ f).2

lemma upholds_of_skips (h : Local c) (hc : SkipsConstants c) : Upholds S imports library decls declared c :=
  ⟨h, fun σ f _ _ hknows _ => ofConstants_knows _ _ (hc σ f).1 (hc σ f).2 hknows⟩

lemma upholds_pure (a : α) : Upholds S imports library decls declared (pure a) :=
  upholds_of_skips (local_pure a) (skips_pure a)

lemma Upholds.bind (h : Upholds S imports library decls declared c)
    (hk : ∀ a, Upholds S imports library decls declared (k a)) :
    Upholds S imports library decls declared (c >>= k) where
  steps := h.steps.bind fun a => (hk a).steps
  knows σ f hσ hf hknows hclean := by
    obtain ⟨hfirst, hsecond⟩ := hclean.of_bind h.steps fun a => (hk a).steps
    exact (hk _).knows σ _ hσ (hf.steps (h.steps σ f)) (h.knows σ f hσ hf hknows hfirst) hsecond

lemma upholds_forM {l : List α} {k} (h : ∀ a ∈ l, Upholds S imports library decls declared (k a)) :
    Upholds S imports library decls declared (l.forM k) := by
  induction l with
  | nil => exact upholds_pure ()
  | cons a l ih =>
    exact (h a mem_cons_self).bind fun _ => ih fun b hb => h b (mem_cons_of_mem _ hb)

lemma Upholds.inScope (h : Upholds S imports library decls declared c) (kind) :
    Upholds S imports library decls declared (inScope kind c) where
  steps := h.steps.inScope kind
  knows σ f hσ hf hknows hclean := by
    have hknows' := h.knows σ (f.enter kind) hσ (hf.steps (.single (.enter f kind)))
      (ofConstants_knows _ _ (f := f) rfl rfl hknows) hclean
    exact ofConstants_knows _ _ (f := (c σ (f.enter kind)).2) rfl rfl hknows'

lemma Upholds.of_yields {Q : SymbolTable → α → Prop} (h : Local c)
    (hc : ∀ σ t, (S.context imports library decls).Reads σ t →
      Yields True ((S.context imports library decls).Knows (S.context imports library decls).constants) σ t c (Q t)) :
    Upholds S imports library decls declared c :=
  ⟨h, fun σ f hσ hf hknows hclean =>
    ((hc σ f.symbols (hf.reads_context hσ)).finds trivial f rfl hknows hclean).2.1⟩

end Check

section Shapes

variable {imports : List ImportBinding} {library : Library} {decls : List Declaration}
  {declared : List (Declaration × Nat)} {S : Sizing}

lemma upholds_declare (hs : s.kind.isLocal = true) : Upholds S imports library decls declared (declare s) := by
  refine upholds_of_skips (local_declare hs) ((skips_define s).bind fun r => ?_)
  cases r with
  | ok id => exact skips_pure ()
  | error previous => exact skips_report _ _

lemma upholds_withTypeParams (params) {step : Check α} (h : Upholds S imports library decls declared step) :
    Upholds S imports library decls declared (withTypeParams params step) := by
  unfold withTypeParams
  split
  · exact h
  · exact ((upholds_forM fun p _ => upholds_declare rfl).bind fun _ => h).inScope _

/-- A signature as it is written, with types by the rules. -/
structure Signature.Resolved (C : ConstContext) (names : TypeNames) (typeParams : List Name) (params : List Param)
    (returnType : TypeExpr) (sig : Signature) : Prop where
  typeParams : sig.typeParams = typeParams.map (·.node)
  params : List.Forall₂ (fun p q => q.1 = p.name ∧ Resolves C names p.type q.2) params sig.params
  returnType : Resolves C names returnType sig.returnType

def FieldInfo.Resolved (C : ConstContext) (names : TypeNames) (f : FieldDecl) (i : FieldInfo) : Prop :=
  Resolves C names f.type i.type ∧
    i = { name := f.name, type := i.type, visibility := f.visibility.getD .pub, span := f.span }

/-- The discriminant of a variant, from the value of its expression. -/
def ConstValue.discriminant? : Option ConstValue → Option Int
  | some (.int n) => some n
  | _ => none

structure VariantInfo.Resolved (C : ConstContext) (names : TypeNames) (v : VariantDecl) (i : VariantInfo) : Prop where
  name : i.name = v.name
  payload : ResolvesAll C names v.payload i.payload
  absent : v.value = none → i.discriminant = none
  present : ∀ e ∈ v.value, ∃ w, Evaluates C e w ∧ i.discriminant = ConstValue.discriminant? w

section

variable {C : ConstContext} {P : Prop} {I : Findings → Prop} {σ : Setting} {t : SymbolTable} (h : C.Serves I σ t)

include h

lemma yields_resolveParams (seen params) :
    Yields P I σ t (resolveParams seen params)
      (List.Forall₂ (fun p q => q.1 = p.name ∧ Resolves C t.typeNames p.type q.2) params) := by
  induction params generalizing seen P with
  | nil => exact yields_pure fun _ => .nil
  | cons p params ih =>
    have hrest : Yields P I σ t (do
        let u ← resolveType p.type
        let rest ← resolveParams ((p.name, p.span) :: seen) params
        return (p.name, u) :: rest)
          (List.Forall₂ (fun p q => q.1 = p.name ∧ Resolves C t.typeNames p.type q.2) (p :: params)) :=
      (yields_resolveType h p.type).bind fun u => (ih _).map fun qs hp hqs => .cons ⟨rfl, hp.2⟩ hqs
    unfold resolveParams
    dsimp only
    split
    · exact yields_report fun _ => hrest.steps
    · exact hrest

lemma yields_resolveSignature (typeParams params returnType) :
    Yields P I σ t (resolveSignature typeParams params returnType)
      (Signature.Resolved C t.typeNames typeParams params returnType) :=
  (yields_resolveParams h [] params).bind fun _ => (yields_resolveType h returnType).map fun _ hp hu =>
    ⟨rfl, hp.2, hu⟩

lemma yields_resolveFields (seen fields) :
    Yields P I σ t (resolveFields seen fields) (List.Forall₂ (FieldInfo.Resolved C t.typeNames) fields) := by
  induction fields generalizing seen P with
  | nil => exact yields_pure fun _ => .nil
  | cons decl fields ih =>
    unfold resolveFields
    split
    · exact yields_report fun _ => (ih (P := True) _).steps
    · refine (yields_resolveType h decl.type).bind fun u => ?_
      exact (ih _).map fun infos hp hinfos => .cons ⟨hp.2, rfl⟩ hinfos

lemma yields_resolveDiscriminant (enum variant value) :
    Yields P I σ t (resolveDiscriminant enum variant value)
      fun n => ∃ w, Evaluates C value w ∧ n = ConstValue.discriminant? w := by
  refine (yields_foldExpr h value).bind fun v => ?_
  split
  · exact yields_pure fun hp => ⟨_, hp.2, rfl⟩
  · exact yields_pure fun hp => ⟨_, hp.2, rfl⟩
  · exact yields_report fun _ => local_pure _

lemma yields_resolveVariants (enum seen variants) :
    Yields P I σ t (resolveVariants enum seen variants)
      (List.Forall₂ (VariantInfo.Resolved C t.typeNames) variants) := by
  induction variants generalizing seen P with
  | nil => exact yields_pure fun _ => .nil
  | cons v variants ih =>
    unfold resolveVariants
    split
    · exact yields_report fun _ => (ih (P := True) _).steps
    · refine (yields_resolveTypes h v.payload).bind fun payload => ?_
      cases hvalue : v.value with
      | none =>
        exact (ih _).map fun infos hp hinfos => .cons ⟨rfl, hp.2, fun _ => rfl, by simp [hvalue]⟩ hinfos
      | some value =>
        refine (yields_resolveDiscriminant h _ _ _).bind fun n => ?_
        refine (ih _).map fun infos hp hinfos => .cons ⟨rfl, hp.1.2, by simp [hvalue], fun e he => ?_⟩ hinfos
        cases hvalue.symm.trans he
        exact hp.2

end

lemma upholds_resolveSignature (typeParams params returnType) :
    Upholds S imports library decls declared (resolveSignature typeParams params returnType) :=
  .of_yields (local_resolveSignature _ _ _) fun _ _ hreads =>
    yields_resolveSignature (serves_knows hreads) _ _ _

lemma upholds_resolveMethods (owner seen methods) :
    Upholds S imports library decls declared (resolveMethods owner seen methods) := by
  induction methods generalizing seen with
  | nil => exact upholds_pure _
  | cons decl methods ih =>
    unfold resolveMethods
    split
    · exact (upholds_of_skips (local_report _ _) (skips_report _ _)).bind fun _ => ih _
    · refine (upholds_withTypeParams _ (upholds_resolveSignature _ _ _)).bind fun _ => ?_
      exact (ih _).bind fun _ => upholds_pure _

lemma upholds_checkSize (d) : Upholds S imports library decls declared (checkSize d) := by
  refine upholds_of_skips (local_checkSize d) ?_
  cases d with
  | struct _ | enum _ => exact fun σ f => skips_reportIf _ _ _ σ f
  | _ => exact skips_pure ()

end Shapes

/-! ### Phases -/

section Phases

variable {imports : List ImportBinding} {library : Library} {decls : List Declaration}
  {declared : List (Declaration × Nat)} {σ : Setting} {f : Findings} {S : Sizing}

/-- What is known between the declarations of a collected module. -/
structure Findings.Knowing (S : Sizing) (imports : List ImportBinding) (library : Library) (decls : List Declaration)
    (declared : List (Declaration × Nat)) (module : String) (f : Findings) : Prop where
  declares : Declares module imports decls declared f.symbols
  knows : (S.context imports library decls).Knows (S.context imports library decls).constants f

section

variable (hσ : σ.Tells library decls declared) (h : f.Knowing S imports library decls declared σ.module)

include hσ h

lemma Findings.Knowing.upholds {c : Check α} (hc : Upholds S imports library decls declared c)
    (hclean : Clean c σ f) :
    (c σ f).2.Knowing S imports library decls declared σ.module :=
  ⟨h.declares.steps (hc.steps σ f), hc.knows σ f hσ h.declares h.knows hclean⟩

lemma knowing_resolveShape {d : Declaration} (hd : (d, id) ∈ declared) (hclean : Clean (resolveShape d id) σ f) :
    (resolveShape d id σ f).2.Knowing S imports library decls declared σ.module := by
  refine ⟨declares_resolveShape hd h.declares, ?_⟩
  -- The shape is put into a symbol only after it is resolved.
  have hset {α : Type} {c : Check α} (k : α → SymbolKind → SymbolKind)
    (hc : Upholds S imports library decls declared c)
      (hclean : Clean (c >>= fun a => setKind id (k a)) σ f) :
      (S.context imports library decls).Knows (S.context imports library decls).constants
        ((c >>= fun a => setKind id (k a)) σ f).2 := by
    obtain ⟨hfirst, -⟩ := hclean.of_grows hc.steps.grows fun _ => grows_setKind _ _
    exact ofConstants_knows _ _ (f := (c σ f).2) rfl rfl (hc.knows σ f hσ h.declares h.knows hfirst)
  cases d with
  | function decl => exact hset _ (upholds_withTypeParams _ (upholds_resolveSignature _ _ _)) hclean
  | externFunction decl => exact hset _ (upholds_resolveSignature _ _ _) hclean
  | struct decl => exact hset _ (upholds_withTypeParams _ (.of_yields (local_resolveFields _ _)
      fun _ _ hreads => yields_resolveFields (serves_knows hreads) _ _)) hclean
  | enum decl => exact hset _ (upholds_withTypeParams _ (.of_yields (local_resolveVariants _ _ _)
      fun _ _ hreads => yields_resolveVariants (serves_knows hreads) _ _ _)) hclean
  | const decl =>
    exact hset _ (.of_yields (local_resolveType _) fun _ _ hreads => yields_resolveType (serves_knows hreads) _) hclean
  | impl block => exact h.knows

lemma knowing_resolveShapes (hclean : Clean (declared.forM fun (d, id) => resolveShape d id) σ f) :
    ((declared.forM fun (d, id) => resolveShape d id) σ f).2.Knowing S imports library decls declared σ.module :=
  hclean.forM_induction (fun _ => gathers_grows.resolveShape _ _)
    (fun _ hp _ hfirst hf => knowing_resolveShape hσ hf hp hfirst) h

lemma knowing_collectImpl {block} (hblock : .impl block ∈ decls) (hclean : Clean (collectImpl block) σ f) :
    (collectImpl block σ f).2.Knowing S imports library decls declared σ.module := by
  refine ⟨declares_collectImpl hblock h.declares, ?_⟩
  obtain ⟨id, s, info, hglobal, hinfo⟩ := exists_of_clean_collectImpl hclean
  have hmethods : Upholds S imports library decls declared (resolveImpl block info) :=
    upholds_resolveMethods _ _ _
  have hadd (methods : List (String × MethodInfo)) : SkipsConstants (addResolved id info methods) := by
    refine (skips_setKind _ _).bind fun _ => skips_forM fun m => ?_
    unfold reportSecond
    split
    · exact skips_report _ _
    · exact skips_pure ()
  rw [Clean, run_collectImpl hglobal hinfo] at hclean
  rw [run_collectImpl hglobal hinfo]
  obtain ⟨hfirst, -⟩ := Clean.of_grows hmethods.steps.grows (grows_addResolved id info) hclean
  exact ofConstants_knows _ _ (hadd _ σ _).1 (hadd _ σ _).2
    (hmethods.knows σ f hσ h.declares h.knows hfirst)

lemma knowing_collectMethods (hclean : Clean (decls.forM collectMethods) σ f) :
    ((decls.forM collectMethods) σ f).2.Knowing S imports library decls declared σ.module := by
  refine hclean.forM_induction gathers_grows.collectMethods (fun d hd f hfirst hf => ?_) h
  cases d with
  | impl block => exact knowing_collectImpl hσ hf hd hfirst
  | _ => exact hf

lemma knowing_checkSizes (hclean : Clean (collectShapes decls declared) σ f) :
    (decls.forM checkSize σ ((declared.forM fun (d, id) => resolveShape d id) σ f).2).2.Knowing S imports
      library decls
      declared σ.module := by
  obtain ⟨hresolve, hsize, -⟩ := clean_collectShapes hclean
  exact (knowing_resolveShapes hσ h hresolve).upholds hσ (upholds_forM fun d _ => upholds_checkSize d) hsize

end

lemma skips_registerNames (ds) : SkipsConstants (registerNames ds) := by
  intro σ f
  let P (g : Findings) : Prop := g.folding = f.folding ∧ g.constValues = f.constValues
  exact registerNames_induction (P := P)
    (fun _ _ _ hg => registerName_induction (P := P) hg (fun _ _ => hg) fun _ => hg) ⟨rfl, rfl⟩

lemma skips_imports (imports : List ImportBinding) : SkipsConstants (imports.forM fun i => declareFirst i.symbol) :=
  skips_forM fun _ => (skips_define _).bind fun _ => skips_pure ()

lemma knowing_registerNames (hlibrary : σ.library = library)
    (hclean : Clean (collectDeclarations imports decls) σ {}) :
    let registered := registerNames decls σ ((imports.forM fun i => declareFirst i.symbol) σ {}).2
    Setting.Tells { σ with constants := constantsOf registered.1 } library decls registered.1 ∧
      registered.2.Knowing S imports library decls registered.1 σ.module := by
  have hconstants := constantsOf_registerNames (clean_phases hclean).1
  refine ⟨⟨hlibrary, hconstants, hconstants⟩, declares_registerNames imports decls σ, ?_⟩
  obtain ⟨hfolding, hvalues⟩ := (skips_imports imports).bind (fun _ => skips_registerNames decls) σ {}
  refine ofConstants_knows _ _ (f := {}) hfolding hvalues ⟨fun {name} h => ?_, fun _ => rfl, fun _ => rfl⟩
  simp at h

lemma knowing_collectDeclarations (hlibrary : σ.library = library)
    (hclean : Clean (collectDeclarations imports decls) σ {}) :
    let declared := (collectDeclarations imports decls σ {}).1
    Setting.Tells { σ with constants := constantsOf declared } library decls declared ∧
      (collectDeclarations imports decls σ {}).2.Knowing S imports library decls declared σ.module := by
  obtain ⟨hσ, hknowing⟩ := knowing_registerNames (S := S) hlibrary hclean
  have hshapes := (clean_phases hclean).2
  exact ⟨hσ, knowing_collectMethods hσ (knowing_checkSizes hσ hknowing hshapes)
    (clean_collectShapes hshapes).2.2⟩

lemma mem_collectDeclarations (hclean : Clean (collectDeclarations imports decls) σ {}) {d}
    (hd : d ∈ decls) (hsym : d.symbol? σ.module = some s) :
    ∃ id, (d, id) ∈ (collectDeclarations imports decls σ {}).1 := by
  exact mem_registerNames (clean_phases hclean).1 hd hsym

lemma finished_demandConst {remaining stack span}
    (hfind : f.folding.lookup name = none → remaining.find? (·.name.node = name) ≠ none)
    (hclean : Clean (demandConst remaining stack name span) σ f) :
    (demandConst remaining stack name span σ f).2.folding.lookup name = some .finished := by
  have hfinds := finds_demandConst remaining stack name span σ f
  rw [Clean] at hclean
  generalize demandConst remaining stack name span σ f = result at hclean hfinds ⊢
  cases hfinds with
  | finished hname => exact hname
  | cycle place _ | deep place _ _ => exact absurd hclean (cons_ne_self _ _)
  | unknown hname hnone => exact absurd hnone (hfind hname)
  | entered _ _ _ _ => exact Findings.lookup_finish _ _

lemma ConstContext.Knows.recordConst {C remaining decl v} (h : C.Knows remaining f)
    (hdecl : C.constant? name = some decl)
    (hv : Evaluates C decl.value (some v)) (hfinished : f.folding.lookup name = some .finished) :
    C.Knows remaining { f with constValues := (name, v) :: f.constValues } where
  finished {other} hother := by
    by_cases hname : other = name
    · subst hname
      exact ⟨decl, hdecl, by rwa [lookup_cons_self]⟩
    · rw [lookup_cons, beq_false_of_ne hname]
      exact h.finished hother
  fresh {other} hother := by
    have hname : other ≠ name := by
      rintro rfl
      exact hother hfinished
    rw [lookup_cons, beq_false_of_ne hname]
    exact h.fresh hother
  remaining := h.remaining

lemma run_checkConst_const {c t v}
    (hglobal : f.symbols.global? c.name.node = some (id, s)) (hkind : s.kind = .const t v) :
    checkConst c σ f = if s.span = c.name.span then foldDeclared c id t σ f else ((), f) := by
  obtain ⟨name, kind, span, scope, visibility⟩ := s
  obtain rfl : kind = .const t v := hkind
  rw [checkConst, run_global?_bind, hglobal]
  dsimp only
  split
  · rfl
  · rfl

lemma run_checkConst_other {c}
    (h : ∀ id s t v, f.symbols.global? c.name.node = some (id, s) → s.kind ≠ .const t v) :
    checkConst c σ f = ((), f) := by
  rw [checkConst, run_global?_bind]
  cases hglobal : f.symbols.global? c.name.node with
  | none => rfl
  | some p =>
    obtain ⟨id, name, kind, span, scope, visibility⟩ := p
    cases kind with
    | const t v => exact absurd rfl (h _ _ t v hglobal)
    | _ => rfl

lemma grows_noteValue (c id t v) : Grows (noteValue c id t v) := by
  unfold noteValue
  split
  · exact (local_pure ()).grows
  · split
    · exact (local_report _ _).grows
    · exact (grows_setKind _ _).bind fun _ _ _ => suffix_rfl

lemma folding_noteValue (c id t v σ f) : (noteValue c id t v σ f).2.folding = f.folding := by
  cases v with
  | none => rfl
  | some v =>
    cases hmisfit : v.misfit? t with
    | some m | none =>
      simp only [noteValue, hmisfit]
      rfl

lemma knowing_checkConst {c} (hc : (.const c, id) ∈ declared)
    (h : f.Knowing S imports library decls declared σ.module) (hσ : σ.Tells library decls declared)
    (hclean : Clean (checkConst c) σ f) : (checkConst c σ f).2.Knowing S imports library decls declared σ.module ∧
      (checkConst c σ f).2.folding.lookup c.name.node = some .finished := by
  obtain ⟨s, t, v, hglobal, hkind, hspan⟩ := h.declares.const_found hc
  have hdeclares := h.declares.steps (local_checkConst c σ f)
  let f' : Findings := { f with exprTypes := f.exprTypes.set c.value.span t }
  have hrun : checkConst c σ f = (constValue [] c.name.node c.name.span >>= noteValue c id t) σ f' := by
    rw [run_checkConst_const hglobal hkind, if_pos hspan]
    rfl
  rw [Clean, hrun] at hclean
  rw [hrun] at hdeclares ⊢
  obtain ⟨hdemanded, hnoted⟩ :=
    Clean.of_grows (σ := σ) (f := f') (local_constValue [] c.name.node c.name.span trivial).isLocal.grows
    (grows_noteValue c id t) hclean
  have hname : (S.context imports library decls).constant? c.name.node ≠ none := by
    have hmem : c ∈ decls.filterMap (·.const?) := hσ.declared ▸ mem_filterMap.2 ⟨_, hc, rfl⟩
    intro hnone
    exact List.find?_eq_none.1 hnone c hmem (decide_eq_true rfl)
  have hserves := serves_knows (h.declares.reads_context (S := S) hσ)
  obtain ⟨⟨decl, hdecl, hv⟩, hknows, -⟩ := (hserves.demand [] c.name.node c.name.span).finds hname f' rfl
    (ofConstants_knows _ _ (f := f) rfl rfl h.knows) hdemanded
  have hfinished : (constValue [] c.name.node c.name.span σ f').2.folding.lookup c.name.node = some .finished :=
    finished_demandConst (fun _ => hσ.constants ▸ hname) hdemanded
  rw [run_bind] at hdeclares ⊢
  refine ⟨⟨hdeclares, ?_⟩, by rw [folding_noteValue, hfinished]⟩
  cases hvalue : (constValue [] c.name.node c.name.span σ f').1 with
  | none => exact hknows
  | some v =>
    rw [hvalue] at hv
    cases hmisfit : v.misfit? t with
    | some m =>
      simp only [noteValue, hmisfit]
      exact ofConstants_knows _ _ (f := (constValue [] c.name.node c.name.span σ f').2) rfl rfl hknows
    | none =>
      simp only [noteValue, hmisfit]
      exact ConstContext.Knows.recordConst (ofConstants_knows _ _
        (f := (constValue [] c.name.node c.name.span σ f').2) rfl rfl hknows) hdecl hv hfinished

lemma knowing_checkConstDeclarations {l : List Declaration}
    (hl : ∀ c, .const c ∈ l → ∃ id, (.const c, id) ∈ declared)
    (h : f.Knowing S imports library decls declared σ.module) (hσ : σ.Tells library decls declared)
    (hclean : Clean (l.forM checkConstDeclaration) σ f) :
    ((l.forM checkConstDeclaration) σ f).2.Knowing S imports library decls declared σ.module ∧
      ∀ c, .const c ∈ l → ((l.forM checkConstDeclaration) σ f).2.folding.lookup c.name.node =
        some .finished := by
  induction l generalizing f with
  | nil => exact ⟨h, fun c hc => absurd hc not_mem_nil⟩
  | cons d l ih =>
    have hlocal : Local (l.forM checkConstDeclaration) := local_forM fun d _ => local_checkConstDeclaration d
    obtain ⟨hfirst, hrest⟩ := Clean.of_bind (local_checkConstDeclaration d) (fun _ => hlocal) hclean
    have hdecl : (checkConstDeclaration d σ f).2.Knowing S imports library decls declared σ.module ∧
        ∀ c, d = .const c → (checkConstDeclaration d σ f).2.folding.lookup c.name.node = some .finished := by
      cases d with
      | const c =>
        obtain ⟨id, hid⟩ := hl c mem_cons_self
        have hannotations : Upholds S imports library decls declared (checkAnnotations c.annotations .const none) :=
          upholds_of_skips (local_checkAnnotations _ _ _) (skips_forM fun _ => skips_report _ _)
        obtain ⟨hnoted, hconst⟩ := Clean.of_bind hannotations.steps (fun _ => local_checkConst c) hfirst
        obtain ⟨hknowing, hfinished⟩ := knowing_checkConst hid (h.upholds hσ hannotations hnoted) hσ hconst
        refine ⟨hknowing, fun c' hc' => ?_⟩
        cases hc'
        exact hfinished
      | _ => exact ⟨h, nofun⟩
    obtain ⟨hknowing, hfinished⟩ := ih (fun c hc => hl c (mem_cons_of_mem _ hc)) hdecl.1 hrest
    refine ⟨hknowing, fun c hc => ?_⟩
    obtain heq | hc := mem_cons.1 hc
    · exact ((hlocal σ _).lookup_finished (hdecl.2 c heq.symm)).1
    · exact hfinished c hc

lemma settled_checkConstDeclarations (hlibrary : σ.library = library)
    (hclean : Clean (collectDeclarations imports decls) σ {}) :
    let declared := (collectDeclarations imports decls σ {}).1
    let τ : Setting := { σ with constants := constantsOf declared }
    τ.Tells library decls declared ∧
      (Clean (decls.forM checkConstDeclaration) τ (collectDeclarations imports decls σ {}).2 →
        (S.context imports library decls).Settled
          ((decls.forM checkConstDeclaration) τ (collectDeclarations imports decls σ {}).2).2) := by
  intro declared τ
  obtain ⟨hσ, hknowing⟩ := knowing_collectDeclarations hlibrary hclean
  refine ⟨hσ, fun hconstants => ?_⟩
  obtain ⟨hsettled, hfinished⟩ := knowing_checkConstDeclarations (σ := τ)
    (fun c hc => mem_collectDeclarations hclean hc rfl) hknowing hσ hconstants
  intro name decl hdecl
  have hmem := mem_of_find?_eq_some hdecl
  have hname : decl.name.node = name := by simpa using List.find?_some hdecl
  obtain ⟨d, hd, hconst⟩ := mem_filterMap.1 hmem
  cases d with
  | const c =>
    cases hconst
    have hlookup := hfinished decl hd
    rw [hname] at hlookup
    obtain ⟨decl', hdecl', hv⟩ := hsettled.knows.finished hlookup
    obtain rfl : decl = decl' := Option.some.inj (hdecl.symm.trans hdecl')
    exact ⟨hlookup, hv⟩
  | _ => cases hconst

end Phases

end SourceCheck
