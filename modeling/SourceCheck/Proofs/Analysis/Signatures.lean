import SourceCheck.Proofs.Analysis.Collected

/-!
# Signatures that are found again

A function of a module that is collected without problems is found again by its name, with the return type that is
written for it; and so is a method.
-/

namespace SourceCheck

open Check List SymbolTable Clean

variable {σ : Setting} {f g : Findings} {owner : List Name} {decl : FunctionDecl} {module name target : String}
  {s : Symbol} {ds : List Declaration} {info : NominalInfo} {declared : List (Declaration × Nat)} {k : Nat}
  {block : ImplBlock} {m : Spanned FunctionDecl}

/-! ### Return types -/

def TypeExpr.mustReturn : TypeExpr → Bool
  | .primitive _ p => p ≠ .void && p ≠ .never
  | _ => true

lemma mustReturn_resolveType {t} (h : Clean (resolveType t) σ f) (ht : t.mustReturn = true) :
    (resolveType t σ f).1.mustReturn = true := by
  unfold resolveType at h ⊢
  cases t with
  | primitive span p =>
    cases p <;> first | rfl | simp [TypeExpr.mustReturn] at ht
  | named span name args =>
    unfold Clean at h
    rw [resolveTypeWith, run_kind?_bind] at h ⊢
    generalize (f.symbols.symbol? name).map (·.kind) = kind at h ⊢
    have hrefuse : ∀ p, (refuse p span σ f).2.problems ≠ f.problems :=
      fun p => not_clean_report_pure
    cases kind with
    | none => exact absurd h (hrefuse _)
    | some k =>
      cases k with
      | typeParam | struct info fields | enum info variants => rfl
      | _ => exact absurd h (hrefuse _)
  | _ => rfl

lemma clean_withTypeParams {α : Type} {params} {step : Check α} (hstep : Local step)
    (h : Clean (withTypeParams params step) σ f) :
    ∃ g, Clean step σ g ∧ (withTypeParams params step σ f).1 = (step σ g).1 := by
  unfold withTypeParams at h ⊢
  split
  · rename_i hempty
    rw [if_pos hempty] at h
    exact ⟨f, h, rfl⟩
  · rename_i hfull
    rw [if_neg hfull] at h
    obtain ⟨-, hclean⟩ := of_bind (local_forM fun p _ => local_declare rfl) (fun _ => hstep) h
    exact ⟨_, hclean, rfl⟩

lemma mustReturn_resolveSignature {typeParams} {params : List Param} {returnType}
    (h : Clean (withTypeParams owner (resolveSignature typeParams params returnType)) σ f)
    (ht : returnType.mustReturn = true) :
    (withTypeParams owner (resolveSignature typeParams params returnType) σ f).1.returnType.mustReturn = true := by
  obtain ⟨g, hclean, hfst⟩ := clean_withTypeParams (local_resolveSignature _ _ _) h
  obtain ⟨-, hrest⟩ := of_bind (infers_resolveParams [] params).isLocal
    (fun _ => (local_resolveType returnType).bind fun _ => local_pure _) hclean
  obtain ⟨hreturn, -⟩ := of_bind (local_resolveType returnType) (fun _ => local_pure _) hrest
  rw [hfst]
  exact mustReturn_resolveType hreturn ht

lemma map_fst_resolveParams (seen params σ f) :
    (resolveParams seen params σ f).1.map (·.1) = params.map (·.name) := by
  induction params generalizing seen f with
  | nil => rfl
  | cons p params ih =>
    unfold resolveParams
    cases seen.lookup p.name with
    | none | some previous => exact congrArg (p.name :: ·) (ih _ _)

/-- The parameters have their written names, and a `return` is demanded if the written type demands it. -/
structure Signature.Of (sig : Signature) (decl : FunctionDecl) : Prop where
  params : sig.params.map (·.1) = decl.params.map (·.name)
  mustReturn : decl.returnType.mustReturn = true → sig.returnType.mustReturn = true

lemma of_resolveSignature
    (h : Clean (withTypeParams owner (resolveSignature decl.typeParams decl.params decl.returnType)) σ f) :
    (withTypeParams owner (resolveSignature decl.typeParams decl.params decl.returnType) σ f).1.Of decl where
  params := by
    obtain ⟨g, hg⟩ := withTypeParams_fst owner (resolveSignature decl.typeParams decl.params decl.returnType) σ f
    rw [hg]
    exact map_fst_resolveParams [] decl.params σ g
  mustReturn := mustReturn_resolveSignature h

/-! ### Declarations that stay -/

def Symbol.Fixed (s : Symbol) : Prop :=
  ∀ t v, s.kind ≠ .const t v

lemma Findings.Steps.global?_eq (h : Findings.Steps f g) (hs : f.symbols.Sound module) {id} (hfixed : s.Fixed)
    (hglobal : f.symbols.global? name = some (id, s)) : g.symbols.global? name = some (id, s) := by
  induction h with
  | refl => exact hglobal
  | @tail b c hb hstep ih =>
    cases hstep with
    | enter kind => rw [global?_enter, ih]
    | leave => rw [global?_leave, ih]
    | define hlocal hdefine =>
      obtain hsame | ⟨hnone, -⟩ := (Findings.Steps.sound hb hs).global?_define hdefine name
      · rw [hsame, ih]
      · simp [ih] at hnone
    | @constant k g hg =>
      rw [global?_modifySymbol, ih]
      obtain hsame | ⟨t, v, w, hconst, -⟩ := hg s.kind
      · by_cases hk : k = id <;> simp [hk, hsame]
      · exact absurd hconst (hfixed t v)
    | _ => exact ih

/-! ### Names -/

section

variable {σ : Setting}

lemma global?_registerName {d} (hf : f.symbols.AtModule σ.module) {p} (h : f.symbols.global? name = some p) :
    (registerName d σ f).2.symbols.global? name = some p := by
  cases hsym : d.symbol? σ.module with
  | none => rw [run_registerName_none hsym, h]
  | some s =>
    cases hdefine : f.symbols.define s with
    | ok q =>
      rw [run_registerName_ok hsym hdefine]
      obtain hsame | ⟨hnone, -⟩ := hf.sound.global?_define hdefine name
      · exact hsame.trans h
      · simp [h] at hnone
    | error previous =>
      rw [run_registerName_error hsym hdefine]
      exact h

lemma global?_registerNames (hf : f.symbols.AtModule σ.module) {p}
    (h : f.symbols.global? name = some p) : (registerNames ds σ f).2.symbols.global? name = some p :=
  (registerNames_induction (P := fun g => g.symbols.AtModule σ.module ∧ g.symbols.global? name = some p)
    (fun d _ g hg => ⟨atModule_registerName d σ g hg.1, global?_registerName hg.1 hg.2⟩) ⟨hf, h⟩).2

lemma registerName_eq_some {d} (hf : f.symbols.AtModule σ.module) {id} (h : (registerName d σ f).1 = some id) :
    id = f.symbols.symbols.size ∧ (registerName d σ f).2.symbols.symbols.size = id + 1 ∧
      ∃ s, d.symbol? σ.module = some s ∧
        (registerName d σ f).2.symbols.global? s.name = some (id, { s with scope := moduleScope }) := by
  cases hsym : d.symbol? σ.module with
  | none => simp [run_registerName_none hsym] at h
  | some s =>
    cases hdefine : f.symbols.define s with
    | ok q =>
      obtain ⟨k, table⟩ := q
      rw [run_registerName_ok hsym hdefine] at h ⊢
      obtain rfl : k = id := by simpa using h
      have hglobal := global?_define_self hdefine hf.current hf.scope
      rw [hf.current] at hglobal
      obtain ⟨-, hk, rfl⟩ := define_eq_ok hdefine
      exact ⟨hk, by simp [hk], s, rfl, hglobal⟩
    | error previous => simp [run_registerName_error hsym hdefine] at h

lemma size_registerName (d f) : f.symbols.symbols.size ≤ (registerName d σ f).2.symbols.symbols.size := by
  refine registerName_induction (P := fun g => f.symbols.symbols.size ≤ g.symbols.symbols.size) (Nat.le_refl _)
    (fun _ hdefine => ?_) fun _ => Nat.le_refl _
  obtain ⟨-, -, rfl⟩ := define_eq_ok hdefine
  simp

/-- Each declaration is found under its name, and the numbers differ. -/
structure Registered (module : String) (f : Findings) (declared : List (Declaration × Nat)) : Prop where
  found {d id} : (d, id) ∈ declared →
    ∃ s, d.symbol? module = some s ∧ f.symbols.global? s.name = some (id, { s with scope := moduleScope })
  nodup : (declared.map (·.2)).Nodup

lemma registered_registerNames (ds f) (hf : f.symbols.AtModule σ.module) :
    Registered σ.module (registerNames ds σ f).2 (registerNames ds σ f).1 ∧
      ∀ p ∈ (registerNames ds σ f).1, f.symbols.symbols.size ≤ p.2 := by
  induction ds generalizing f with
  | nil => exact ⟨⟨by simp [registerNames, run_pure], nodup_nil⟩, by simp [registerNames, run_pure]⟩
  | cons d ds ih =>
    have hfirst := atModule_registerName d σ f hf
    obtain ⟨hrest, hbound⟩ := ih _ hfirst
    have hsize := size_registerName (σ := σ) d f
    simp only [registerNames, run_bind]
    cases hid : (registerName d σ f).1 with
    | none => exact ⟨hrest, fun p hp => Nat.le_trans hsize (hbound p hp)⟩
    | some id =>
      obtain ⟨hnext, hafter, s, hsym, hglobal⟩ := registerName_eq_some hf hid
      refine ⟨⟨?_, ?_⟩, ?_⟩
      · intro d' id' hmem
        obtain heq | hmem := mem_cons.1 hmem
        · obtain ⟨rfl, rfl⟩ := Prod.mk.inj heq
          exact ⟨s, hsym, global?_registerNames hfirst hglobal⟩
        · exact hrest.found hmem
      · refine nodup_cons.2 ⟨?_, hrest.nodup⟩
        intro hmem
        obtain ⟨p, hp, heq⟩ := mem_map.1 hmem
        have hle := hbound p hp
        rw [hafter, show p.2 = id from heq] at hle
        omega
      · refine forall_mem_cons.2 ⟨by omega, fun p hp => ?_⟩
        exact Nat.le_trans hsize (hbound p hp)

lemma mem_of_registerNames {ds p} (hp : p ∈ (registerNames ds σ f).1) : p.1 ∈ ds := by
  induction ds generalizing f with
  | nil => exact absurd hp not_mem_nil
  | cons d ds ih =>
    simp only [registerNames, run_bind] at hp
    cases hid : (registerName d σ f).1 with
    | none =>
      rw [hid] at hp
      exact mem_cons_of_mem _ (ih hp)
    | some id =>
      rw [hid] at hp
      obtain rfl | hp := mem_cons.1 hp
      · exact mem_cons_self
      · exact mem_cons_of_mem _ (ih hp)

/-- Each symbol was there before or belongs to a declaration that got its name. -/
lemma get?_registerNames {ds id s} (h : (registerNames ds σ f).2.symbols.get? id = some s) :
    f.symbols.get? id = some s ∨ ∃ d, (d, id) ∈ (registerNames ds σ f).1 := by
  induction ds generalizing f with
  | nil => exact .inl h
  | cons d ds ih =>
    simp only [registerNames, run_bind] at h ⊢
    cases hsym : d.symbol? σ.module with
    | none =>
      rw [run_registerName_none hsym] at h ⊢
      exact ih h
    | some s₀ =>
      cases hdefine : f.symbols.define s₀ with
      | error previous =>
        rw [run_registerName_error hsym hdefine] at h ⊢
        exact ih (f := { f with problems := _ }) h
      | ok p =>
        obtain ⟨k, table⟩ := p
        rw [run_registerName_ok hsym hdefine] at h ⊢
        obtain hget | ⟨e, he⟩ := ih h
        · rw [get?_define hdefine] at hget
          split at hget
          · rename_i hid
            exact .inr ⟨d, hid ▸ mem_cons_self⟩
          · exact .inl hget
        · exact .inr ⟨e, mem_cons_of_mem _ he⟩

lemma grows_registerName (d) : Grows (registerName d) := fun _ f =>
  registerName_induction (P := fun g => f.problems <:+ g.problems) suffix_rfl (fun _ _ => suffix_rfl)
    fun r => suffix_cons r f.problems

lemma grows_registerNames (ds) : Grows (registerNames ds) := fun σ f =>
  registerNames_induction (P := fun g => f.problems <:+ g.problems)
    (fun d _ g hg => hg.trans (grows_registerName d σ g)) suffix_rfl

lemma clean_registerNames_cons (h : Clean (registerNames (d :: ds)) σ f) :
    Clean (registerName d) σ f ∧ Clean (registerNames ds) σ (registerName d σ f).2 := by
  obtain ⟨hfirst, hrest⟩ := h.of_grows (grows_registerName d) fun id? =>
    (grows_registerNames ds).bind fun rest => by
      cases id? with
      | none | some id => exact (local_pure _).grows
  refine ⟨hfirst, (hrest.of_grows (grows_registerNames ds) fun rest => ?_).1⟩
  cases (registerName d σ f).1 with
  | none | some id => exact (local_pure _).grows

lemma mem_registerNames (h : Clean (registerNames ds) σ f) {d} (hd : d ∈ ds) (hsym : d.symbol? σ.module = some s) :
    ∃ id, (d, id) ∈ (registerNames ds σ f).1 := by
  induction ds generalizing f with
  | nil => simp at hd
  | cons e ds ih =>
    obtain ⟨hfirst, hrest⟩ := clean_registerNames_cons h
    simp only [registerNames, run_bind]
    obtain rfl | hd := mem_cons.1 hd
    · cases hdefine : f.symbols.define s with
      | ok q =>
        rw [run_registerName_ok hsym hdefine]
        exact ⟨q.1, mem_cons_self⟩
      | error previous =>
        rw [Clean, run_registerName_error hsym hdefine] at hfirst
        exact absurd hfirst (cons_ne_self _ _)
    · obtain ⟨id, hid⟩ := ih hrest hd
      cases (registerName e σ f).1 with
      | none => exact ⟨id, hid⟩
      | some k => exact ⟨id, mem_cons_of_mem _ hid⟩

end

variable {id : Nat}

/-! ### Shapes -/

section

variable {id : Nat} {d : Declaration}

def Findings.HasFunction (f : Findings) (id : Nat) (decl : FunctionDecl) : Prop :=
  ∃ s info sig, f.symbols.global? decl.name.node = some (id, s) ∧ s.kind = .function info ∧
    s.span = decl.name.span ∧ info.signatures.head? = some sig ∧ sig.Of decl

lemma Symbol.fixed_of_function {info} (h : s.kind = .function info) : s.Fixed := by
  intro t v hconst
  simp [h] at hconst

lemma Findings.HasFunction.steps (h : f.HasFunction id decl) (hs : f.symbols.Sound module)
    (hsteps : Findings.Steps f g) : g.HasFunction id decl := by
  obtain ⟨s, info, sig, hglobal, hkind, hrest⟩ := h
  exact ⟨s, info, sig, hsteps.global?_eq hs (Symbol.fixed_of_function hkind) hglobal, hkind, hrest⟩

lemma run_global?_setKind (id) (g : SymbolKind → SymbolKind) (name) :
    (setKind id g σ f).2.symbols.global? name =
      (f.symbols.global? name).map fun p => (p.1, if id = p.1 then { p.2 with kind := g p.2.kind } else p.2) :=
  global?_modifySymbol ..

lemma global?_setKind {g} (h : f.symbols.global? name = some (k, s)) (hne : k ≠ id) :
    (setKind id g σ f).2.symbols.global? name = some (k, s) := by
  rw [run_global?_setKind, h]
  simp [Ne.symm hne]

lemma global?_setKind_self {g} (h : f.symbols.global? name = some (id, s)) :
    (setKind id g σ f).2.symbols.global? name = some (id, { s with kind := g s.kind }) := by
  rw [run_global?_setKind, h]
  simp

lemma grows_setKind (id) (g : SymbolKind → SymbolKind) : Grows (setKind id g) :=
  fun _ _ => suffix_rfl

lemma run_resolveShape (d id σ f) :
    ∃ g, Findings.Steps f g ∧
      ((resolveShape d id σ f).2 = g ∨ ∃ k, (resolveShape d id σ f).2 = (setKind id k σ g).2) := by
  obtain heq | ⟨α, params, step, k, heq, hstep, -⟩ := resolveShape_cases d id
  · exact ⟨f, .refl, .inl (by rw [heq]; rfl)⟩
  · exact ⟨_, local_withTypeParams params (hstep .steps).isLocal σ f, .inr ⟨_, by rw [heq, run_bind]⟩⟩

lemma gathers_grows : Gathers Grows where
  bind _ hc hP hk σ f := (hc σ f).trans (hk _ (hP σ f) σ _)
  quiet hc σ f := (hc σ f).symm ▸ suffix_rfl
  typed params _ hc := (local_withTypeParams params (hc .steps).isLocal).grows
  setKind id g _ := grows_setKind id g

end

def Declaration.functions : Declaration → List FunctionDecl
  | .function decl => [decl]
  | .impl block => block.methods.map (·.node)
  | _ => []

/-! ### Methods -/

/-- A method has the signature of its declaration and the place of its name. -/
def MethodInfo.Of (m : MethodInfo) (decl : FunctionDecl) : Prop :=
  m.span = decl.name.span ∧ m.signature.Of decl

/-- A method is found under its name with its type. -/
def Findings.HasMethod (f : Findings) (target : String) (decl : FunctionDecl) : Prop :=
  ∃ id s info m, f.symbols.global? target = some (id, s) ∧ s.kind.nominalInfo? = some info ∧
    info.methods.lookup decl.name.node = some m ∧ m.Of decl

/-- A method of which something is known is found under its name. -/
def Findings.HasMethodWith (f : Findings) (target name : String) (P : MethodInfo → Prop) : Prop :=
  ∃ id s info m, f.symbols.global? target = some (id, s) ∧ s.kind.nominalInfo? = some info ∧
    info.methods.lookup name = some m ∧ P m

section

variable {I : Findings → Prop} {P : MethodInfo → Prop}

lemma Symbol.fixed_of_nominal (h : s.kind.nominalInfo? = some info) : s.Fixed := by
  intro t v hconst
  simp [hconst, SymbolKind.nominalInfo?] at h

lemma Findings.HasMethodWith.steps (h : f.HasMethodWith target name P) (hs : f.symbols.Sound module)
    (hsteps : Findings.Steps f g) : g.HasMethodWith target name P := by
  obtain ⟨id, s, info, m, hglobal, hinfo, hrest⟩ := h
  exact ⟨id, s, info, m, hsteps.global?_eq hs (Symbol.fixed_of_nominal hinfo) hglobal, hinfo, hrest⟩

lemma Findings.HasMethod.steps (h : f.HasMethod target decl) (hs : f.symbols.Sound module)
    (hsteps : Findings.Steps f g) : g.HasMethod target decl :=
  HasMethodWith.steps (P := (·.Of decl)) h hs hsteps

/-- What holds of each signature when it is resolved holds of the methods found. -/
lemma resolveMethods_of_clean {Q : FunctionDecl → Signature → Prop} {decls} (hstep : ∀ decl ∈ decls, ∀ f,
      let sig := withTypeParams (owner ++ decl.typeParams)
        (resolveSignature decl.typeParams decl.params decl.returnType)
      I f → Clean sig σ f → Q decl (sig σ f).1 ∧ I (sig σ f).2)
    {seen} (hf : I f) (h : Clean (resolveMethods owner seen decls) σ f) (hmem : decl ∈ decls) :
    seen.lookup decl.name.node = none ∧
      ∃ m, (resolveMethods owner seen decls σ f).1.lookup decl.name.node = some m ∧ m.span = decl.name.span ∧
        Q decl m.signature := by
  induction decls generalizing seen f with
  | nil => simp at hmem
  | cons first decls ih =>
    unfold resolveMethods at h ⊢
    cases hseen : seen.lookup first.name.node with
    | some previous =>
      rw [hseen] at h
      exact absurd h (not_clean_report_bind fun _ => local_resolveMethods _ _ _)
    | none =>
      rw [hseen] at h
      obtain ⟨hsig, hrest⟩ := of_bind
        (local_withTypeParams _ (local_resolveSignature first.typeParams first.params first.returnType))
        (fun _ => (local_resolveMethods _ _ _).bind fun _ => local_pure _) h
      obtain ⟨hrest, -⟩ := of_bind (local_resolveMethods _ _ _) (fun _ => local_pure _) hrest
      simp only [run_bind, run_pure]
      obtain ⟨hQ, hafter⟩ := hstep first mem_cons_self f hf hsig
      obtain rfl | hmem := mem_cons.1 hmem
      · exact ⟨hseen, _, lookup_cons_self, rfl, hQ⟩
      · obtain ⟨hfresh, m, hlookup, hm⟩ :=
        ih (fun decl hdecl => hstep decl (mem_cons_of_mem _ hdecl)) hafter hrest hmem
        rw [lookup_cons] at hfresh
        split at hfresh
        · cases hfresh
        · rename_i hne
          exact ⟨hfresh, m, by simpa [lookup_cons, hne] using hlookup, hm⟩

lemma run_collectImpl (hglobal : f.symbols.global? block.target.node = some (id, s))
    (hinfo : s.kind.nominalInfo? = some info) : collectImpl block σ f =
      (resolveImpl block info >>= addResolved id info) σ f := by
  unfold collectImpl
  rw [run_global?_bind, hglobal]
  simp only [implOwner?, Option.bind_some, hinfo, Option.map_some]
  rfl

/-- The target is a struct or enum of the module, or a problem is noted. -/
lemma collectImpl_cases (block σ f) :
    collectImpl block σ f = report (.unknownImplTarget block.target.node) block.target.span σ f ∨
      ∃ id s info, f.symbols.global? block.target.node = some (id, s) ∧ s.kind.nominalInfo? = some info := by
  unfold collectImpl
  rw [run_global?_bind]
  cases f.symbols.global? block.target.node with
  | none => exact .inl rfl
  | some p =>
    cases hinfo : p.2.kind.nominalInfo? with
    | none => exact .inl (by simp only [implOwner?, Option.bind_some, hinfo, Option.map_none, addImpl])
    | some info => exact .inr ⟨p.1, p.2, info, rfl, hinfo⟩

lemma exists_of_clean_collectImpl (h : Clean (collectImpl block) σ f) :
    ∃ id s info, f.symbols.global? block.target.node = some (id, s) ∧ s.kind.nominalInfo? = some info := by
  obtain hrun | htarget := collectImpl_cases block σ f
  · rw [Clean, hrun] at h
    exact absurd h not_clean_report
  · exact htarget

lemma local_reportSecond (info) (m : String × MethodInfo) : Local (reportSecond info m) := by
  unfold reportSecond
  split
  · exact local_report _ _
  · exact local_pure ()

lemma local_reportSeconds (info) (methods : List (String × MethodInfo)) : Local (methods.forM (reportSecond info)) :=
  local_forM fun m _ => local_reportSecond info m

lemma grows_addResolved (id info methods) : Grows (addResolved id info methods) :=
  (grows_setKind _ _).bind fun _ => (local_reportSeconds info methods).grows

lemma nominalInfo?_addMethods {k : SymbolKind} (h : k.nominalInfo? = some info) (methods) :
    (k.addMethods methods).nominalInfo? = some { info with methods := info.methods ++ methods } := by
  cases k with
  | struct i fields | enum i variants =>
    simp only [SymbolKind.nominalInfo?, Option.some.injEq] at h
    subst h
    rfl
  | _ => simp [SymbolKind.nominalInfo?] at h

lemma Symbol.Fixed.addMethods {s : Symbol} (h : s.Fixed) (methods) :
    Symbol.Fixed { s with kind := s.kind.addMethods methods } := by
  intro t v hconst
  cases hkind : s.kind with
  | const t v => exact h t v hkind
  | _ => simp [hkind, SymbolKind.addMethods] at hconst

/-- A symbol, when the type with a number gets more methods. -/
def Symbol.withMethods (s : Symbol) (same : Bool) (methods : List (String × MethodInfo)) : Symbol :=
  if same then { s with kind := s.kind.addMethods methods } else s

lemma global?_addResolved (hs : f.symbols.Sound σ.module) (id) (info : NominalInfo)
    (methods) (hfixed : s.Fixed) (h : f.symbols.global? name = some (k, s)) :
    (addResolved id info methods σ f).2.symbols.global? name =
      some (k, s.withMethods (k = id) (info.lacking methods)) := by
  have hsound := gathers_keeps.setKind id (SymbolKind.reshaping_addMethods (info.lacking methods)) σ f hs
  have hsteps := local_reportSeconds info methods σ (setKind id (·.addMethods (info.lacking methods)) σ f).2
  by_cases hk : k = id
  · subst hk
    simp only [Symbol.withMethods, decide_true, ↓reduceIte]
    exact hsteps.global?_eq hsound (hfixed.addMethods _) (global?_setKind_self h)
  · simp only [Symbol.withMethods, hk, decide_false, Bool.false_eq_true, ↓reduceIte]
    exact hsteps.global?_eq hsound hfixed (global?_setKind h hk)

lemma global?_collectImpl (hs : f.symbols.Sound σ.module) {t}
    (htarget : f.symbols.global? block.target.node = some (id, t)) (hinfo : t.kind.nominalInfo? = some info)
    (hfixed : s.Fixed) (h : f.symbols.global? name = some (k, s)) : (collectImpl block σ f).2.symbols.global? name =
      some (k, s.withMethods (k = id) (info.lacking (resolveImpl block info σ f).1)) := by
  have hsteps := local_resolveImpl block info σ f
  rw [run_collectImpl htarget hinfo, run_bind]
  exact global?_addResolved (hsteps.sound hs) id info _ hfixed (hsteps.global?_eq hs hfixed h)

lemma hasMethodWith_collectImpl (hs : f.symbols.Sound σ.module) (hclean : Clean (collectImpl block) σ f)
    (h : f.HasMethodWith target name P) : (collectImpl block σ f).2.HasMethodWith target name P := by
  obtain ⟨k, t, info, htarget, hinfo⟩ := exists_of_clean_collectImpl hclean
  obtain ⟨id, s, sinfo, m, hglobal, hsinfo, hlookup, hm⟩ := h
  have hlater := global?_collectImpl hs htarget hinfo (Symbol.fixed_of_nominal hsinfo) hglobal
  by_cases hk : id = k
  · simp only [Symbol.withMethods, hk, decide_true, ↓reduceIte] at hlater
    refine ⟨k, _, _, m, hlater, nominalInfo?_addMethods hsinfo _, ?_, hm⟩
    simp [lookup_append, hlookup]
  · refine ⟨id, _, sinfo, m, hlater, ?_, hlookup, hm⟩
    simpa [Symbol.withMethods, hk] using hsinfo

lemma NominalInfo.lookup_lacking {methods m} (hlacks : info.methods.lookup name = none)
    (h : methods.lookup name = some m) : (info.lacking methods).lookup name = some m := by
  induction methods with
  | nil => simp at h
  | cons first methods ih =>
    obtain ⟨first, mi⟩ := first
    rw [lookup_cons] at h
    by_cases hname : name = first
    · subst hname
      simp only [beq_self_eq_true] at h
      simpa [NominalInfo.lacking, hlacks, lookup_cons] using h
    · have hne : (name == first) = false := by simpa using hname
      simp only [hne] at h
      have hrest := ih h
      unfold NominalInfo.lacking at hrest ⊢
      rw [filter_cons]
      split
      · rwa [lookup_cons, hne]
      · exact hrest

lemma lookup_eq_none_of_clean {methods : List (String × MethodInfo)}
    (h : Clean (methods.forM (reportSecond info)) σ f) {m}
    (hlookup : methods.lookup name = some m) : info.methods.lookup name = none := by
  induction methods generalizing f with
  | nil => simp at hlookup
  | cons first methods ih =>
    obtain ⟨hfirst, hrest⟩ := of_bind (local_reportSecond info first)
      (fun _ => local_reportSeconds info methods) h
    rw [lookup_cons] at hlookup
    split at hlookup
    · rename_i hname
      rw [beq_iff_eq] at hname
      unfold reportSecond at hfirst
      rw [← hname] at hfirst
      split at hfirst
      · exact absurd hfirst not_clean_report
      · assumption
    · exact ih hrest hlookup

lemma hasMethodWith_of_mem (hs : f.symbols.Sound σ.module) (hclean : Clean (collectImpl block) σ f)
    (hfound : ∀ id s info, f.symbols.global? block.target.node = some (id, s) → s.kind.nominalInfo? = some info →
      Clean (resolveImpl block info) σ f → ∃ m, (resolveImpl block info σ f).1.lookup name = some m ∧ P m) :
    (collectImpl block σ f).2.HasMethodWith block.target.node name P := by
  obtain ⟨k, t, info, htarget, hinfo⟩ := exists_of_clean_collectImpl hclean
  have hlater := global?_collectImpl hs htarget hinfo (Symbol.fixed_of_nominal hinfo) htarget
  have hparts := hclean
  unfold Clean at hparts
  rw [run_collectImpl htarget hinfo] at hparts
  obtain ⟨hmethods, hadd⟩ := of_grows (local_resolveImpl _ _).grows
    (fun methods => grows_addResolved k info methods) hparts
  obtain ⟨-, hreports⟩ := of_grows (grows_setKind _ _) (fun _ => (local_reportSeconds info _).grows) hadd
  obtain ⟨mi, hlookup, hof⟩ := hfound k t info htarget hinfo hmethods
  have hlacks := lookup_eq_none_of_clean hreports hlookup
  simp only [Symbol.withMethods, decide_true, ↓reduceIte] at hlater
  refine ⟨k, _, _, mi, hlater, nominalInfo?_addMethods hinfo _, ?_, hof⟩
  rw [lookup_append, hlacks, Option.none_or]
  exact NominalInfo.lookup_lacking hlacks hlookup

lemma hasMethodWith_collectMethods (hs : f.symbols.Sound σ.module) {d} (hclean : Clean (collectMethods d) σ f)
    (h : f.HasMethodWith target name P) : (collectMethods d σ f).2.HasMethodWith target name P := by
  cases d with
  | impl block => exact hasMethodWith_collectImpl hs hclean h
  | _ => exact h

lemma forM_collectMethods_induction {P : Findings → Prop} (ds : List Declaration)
    (hstep : ∀ d f, f.symbols.Sound σ.module → Clean (collectMethods d) σ f → P f →
      P (collectMethods d σ f).2)
    (hs : f.symbols.Sound σ.module) (h : Clean (ds.forM collectMethods) σ f) (hp : P f) :
    P ((ds.forM collectMethods) σ f).2 := by
  refine (forM_induction (P := fun f => f.symbols.Sound σ.module ∧ P f) gathers_grows.collectMethods
    (fun d _ f hclean hf => ?_) h ⟨hs, hp⟩).2
  exact ⟨gathers_keeps.collectMethods d σ f hf.1, hstep d f hf.1 hclean hf.2⟩

lemma hasMethodWith_forM_collectMethods
    (hI : ∀ d ∈ ds, ∀ f, I f → Clean (collectMethods d) σ f → I (collectMethods d σ f).2)
    (hfound : ∀ f, I f → f.symbols.Sound σ.module → Clean (collectImpl block) σ f →
      (collectImpl block σ f).2.HasMethodWith block.target.node name P)
    (hs : f.symbols.Sound σ.module) (hf : I f) (h : Clean (ds.forM collectMethods) σ f)
    (hblock : .impl block ∈ ds) :
    ((ds.forM collectMethods) σ f).2.HasMethodWith block.target.node name P := by
  induction ds generalizing f with
  | nil => simp at hblock
  | cons d ds ih =>
    obtain ⟨hfirst, hrest⟩ :=
      of_grows (gathers_grows.collectMethods d) (fun _ => gathers_grows.forM gathers_grows.collectMethods) h
    have hsound := gathers_keeps.collectMethods d σ f hs
    obtain rfl | hblock := mem_cons.1 hblock
    · exact forM_collectMethods_induction ds
        (fun _ _ hs hclean => hasMethodWith_collectMethods hs hclean) hsound hrest (hfound f hf hs hfirst)
    · exact ih (fun d hd => hI d (mem_cons_of_mem _ hd)) hsound (hI d mem_cons_self f hf hfirst) hrest hblock

end

/-! ### Modules -/

section

variable {σ : Setting} {imports : List ImportBinding} {decls : List Declaration}

lemma grows_imports (imports : List ImportBinding) : Grows (imports.forM fun i => declareFirst i.symbol) := fun _ f =>
  imports_induction (P := fun g => f.problems <:+ g.problems) (fun _ _ _ _ _ hg _ => hg) suffix_rfl

lemma grows_collectNamed (decls declared) : Grows (collectNamed decls declared) :=
  ((gathers_grows.collectShapes decls declared).withReader _).bind fun _ => (local_pure declared).grows

lemma clean_collectDeclarations (h : Clean (collectDeclarations imports decls) σ {}) :
    ∃ τ f declared, f.symbols.Sound τ.module ∧ Registered σ.module f declared ∧
      (∀ d ∈ decls, (d.symbol? σ.module).isSome = true → ∃ id, (d, id) ∈ declared) ∧
      Clean (collectShapes decls declared) τ f ∧
      (collectDeclarations imports decls σ {}).2 = (collectShapes decls declared τ f).2 := by
  obtain ⟨-, hrest⟩ := of_grows (grows_imports imports)
    (fun _ => (grows_registerNames decls).bind (grows_collectNamed decls)) h
  obtain ⟨hnames, hshapes⟩ := of_grows (grows_registerNames decls) (grows_collectNamed decls) hrest
  have himports := atModule_imports imports σ {} (atModule_initial σ.module)
  refine ⟨{ σ with constants := constantsOf _ }, _, _, (atModule_registerNames decls σ _ himports).sound,
    (registered_registerNames decls _ himports).1, fun d hd hsome => ?_, hshapes, rfl⟩
  obtain ⟨s, hs⟩ := Option.isSome_iff_exists.1 hsome
  exact mem_registerNames hnames hd hs

lemma clean_collectShapes {f} (h : Clean (collectShapes decls declared) σ f) :
    let resolved := ((declared.forM fun (d, id) => resolveShape d id) σ f).2
    Clean (declared.forM fun (d, id) => resolveShape d id) σ f ∧ Clean (decls.forM checkSize) σ resolved ∧
      Clean (decls.forM collectMethods) σ (decls.forM checkSize σ resolved).2 := by
  have hsize : Grows (decls.forM checkSize) := gathers_grows.forM gathers_grows.checkSize
  have hmethods : Grows (decls.forM collectMethods) := gathers_grows.forM gathers_grows.collectMethods
  obtain ⟨hresolve, hrest⟩ :=
    of_grows (gathers_grows.resolveShapes declared) (fun _ => hsize.bind fun _ => hmethods) h
  exact ⟨hresolve, of_grows hsize (fun _ => hmethods) hrest⟩

lemma steps_checkSizes (decls : List Declaration) (f) : Findings.Steps f (decls.forM checkSize σ f).2 :=
  local_forM (fun d _ => local_checkSize d) σ f

lemma hasMethod_collectDeclarations (h : Clean (collectDeclarations imports decls) σ {})
    (hblock : .impl block ∈ decls) (hm : m ∈ block.methods) :
    (collectDeclarations imports decls σ {}).2.HasMethod block.target.node m.node := by
  obtain ⟨τ, f, declared, hsound, -, -, hshapes, heq⟩ := clean_collectDeclarations h
  obtain ⟨-, -, hmethods⟩ := clean_collectShapes hshapes
  have hkeeps := gathers_keeps.resolveShapes declared τ f hsound
  rw [heq]
  refine hasMethodWith_forM_collectMethods (I := fun _ => True) (P := (·.Of m.node)) (fun _ _ _ _ _ => trivial)
    (fun f _ hs hclean => hasMethodWith_of_mem hs hclean fun id s info hglobal hinfo hresolved => ?_)
    ((steps_checkSizes decls _).sound hkeeps) trivial hmethods hblock
  exact (resolveMethods_of_clean (I := fun _ => True) (Q := fun decl sig => sig.Of decl)
    (fun decl _ f _ hsig => ⟨of_resolveSignature hsig, trivial⟩) trivial hresolved (mem_map_of_mem hm)).2

end

end SourceCheck
