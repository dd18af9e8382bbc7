import SourceCheck.Proofs.Analysis.Returns

/-!
# Type parameters stay in their declarations

A type that is noted in a guarded body mentions only type parameters of the function and its owner. Without the guard,
a parameter of the callee can get into the caller, as the type that an argument takes over.
-/

namespace SourceCheck

open Check TypeScope List

/-! ### Libraries -/

lemma SymbolKind.Formed.merge {k : SymbolKind} {free : Prop} {N N' R : Nominal → Nat → Prop} (h : k.Formed free N)
    (h' : k.Formed True N') (hN : ∀ n m, N n m → N' n m → R n m) : k.Formed free R := by
  have htype {P P' : String → Prop} {t : Ty} (h : t.Formed P N) (h' : t.Formed P' N') : t.Formed P R :=
    h.merge (fun _ hx _ => hx) hN h'
  have hsig {s : Signature} {owner : List String} (h : s.Formed free N owner) (h' : s.Formed True N' owner) :
      s.Formed free R owner :=
    ⟨fun p hp => htype (h.1 p hp) (h'.1 p hp), htype h.2 h'.2⟩
  match k with
  | .const .. => exact htype h h'
  | .function _ => exact fun s hs => hsig (h s hs) (h' s hs)
  | .struct .. => exact ⟨fun m hm => hsig (h.1 m hm) (h'.1 m hm), fun f hf => htype (h.2 f hf) (h'.2 f hf)⟩
  | .enum .. =>
    exact ⟨fun m hm => hsig (h.1 m hm) (h'.1 m hm),
      fun v hv => (h.2 v hv).merge (fun _ hx _ => hx) hN (h'.2 v hv)⟩
  | .variable .. | .typeParam | .module .. => exact trivial

lemma TypeScope.Kind.transfer {own other module name} {k : SymbolKind} {declared declared'}
    (h : (atModule own declared).Kind module name k) (hk : k.Formed True fun n _ => n.module = module)
    (hsame : ∀ n : Nominal, n.module = module → declared' n = declared n) :
    (atModule other declared').Kind module name k where
  formed := h.formed.merge hk fun n _ hn hmodule => hn.trans (congrArg List.length (hsame n hmodule).symm)
  nominal info hinfo := by
    obtain ⟨hnominal, hparams⟩ := h.nominal info hinfo
    refine ⟨hnominal, hparams.trans (hsame _ ?_).symm⟩
    rw [hnominal]
  generic _ _ := .inl rfl

/-- All exports are well-formed, by the type parameters of structs and enums. -/
def Library.Shaped (declared : Nominal → List String) (l : Library) : Prop :=
  ∀ e ∈ l, e.Confined ∧ ∀ p ∈ e.items, (atModule e.module declared).Kind e.module p.1 p.2.kind

section

variable {program : Program} {own package : String} {imports : List ImportBinding} {library : Library}
  {options : AnalysisOptions} {others : Nominal → List String}

lemma mem_of_item? {l : Library} {target member e item} (he : l.module? target = some e)
    (hitem : e.item? member = some item) : e ∈ l ∧ e.module = target ∧ (member, item) ∈ e.items := by
  obtain ⟨before, after, hitems, -⟩ := lookup_eq_some_iff.1 hitem
  refine ⟨mem_of_find?_eq_some he, ?_, by simp [hitems]⟩
  simpa using List.find?_some he

lemma Library.Shaped.reads (h : library.Shaped others) (declared : Nominal → List String)
    (hothers : ∀ n : Nominal, n.module ≠ own → declared n = others n) :
    (atModule own declared).Reads (options.setting own package library) where
  module := rfl
  exported target e member item htarget he hitem := by
    obtain ⟨hmem, rfl, hitem⟩ := mem_of_item? he hitem
    obtain ⟨hconfined, hkinds⟩ := h e hmem
    refine (hkinds _ hitem).transfer (hconfined _ hitem) fun n hn => hothers n ?_
    rwa [hn]
  returned c hc := by cases hc

lemma collecting_analysis (h : library.Shaped others) (program : Program) (own imports) (options : AnalysisOptions) :
    let σ := options.setting own program.package.node library
    let decls := program.decls
    ∃ declared entered, (∀ n : Nominal, n.module ≠ own → declared n = others n) ∧
      Collecting own declared imports decls entered (collectDeclarations imports decls σ {}).2 := by
  intro σ decls
  exact collecting_collectDeclarations (σ := σ) imports decls h.reads

lemma exists_of_mem_items {module t p} (h : p ∈ (ModuleExports.ofTable module t).items) :
    ∃ id s, t.get? id = some s ∧ s.name = p.1 ∧ s.kind = p.2.kind := by
  obtain ⟨s, hs, hexport⟩ := mem_filterMap.1 h
  obtain ⟨id, hid⟩ := Array.mem_iff_getElem?.mp (Array.mem_toList_iff.1 (mem_of_mem_filter hs))
  refine ⟨id, s, hid, ?_⟩
  split at hexport
  · cases hexport
  · cases hexport
  · cases hexport
    exact ⟨rfl, rfl⟩

lemma Library.Analyzed.exists_shaped {l : Library} (h : l.Analyzed) : ∃ declared, l.Shaped declared := by
  induction h with
  | nil => exact ⟨fun _ => [], fun e he => absurd he not_mem_nil⟩
  | @add l library program name imports options _ _ ih ihlibrary =>
    obtain ⟨older, holder⟩ := ih
    obtain ⟨others, hothers⟩ := ihlibrary
    obtain ⟨declared, entered, -, hcollected⟩ := collecting_analysis hothers program name imports options
    have hconfined : (analyzeModule program name imports library options).exports.Confined :=
      confined_exports fun e he => (hothers e he).1
    have hsteps : Findings.Steps _ (findingsOf program name imports library options) :=
      local_checkDeclarations _ _ _
    have hkinds := hsteps.forall_symbols (P := fun s => (atModule name declared).Kind name s.name s.kind)
      (fun s hs => kind_of_isLocal hs _ _) (fun s u v w hs hk => by
        rw [hs] at hk
        exact hk.const) hcollected.described.knows.kinds
    refine ⟨fun n => if n.module = name then declared n else older n, fun e he => ?_⟩
    obtain rfl | he := mem_cons.1 he
    · refine ⟨hconfined, fun p hp => ?_⟩
      obtain ⟨id, s, hget, hname, hkind⟩ := exists_of_mem_items hp
      have hk := hkinds id s hget
      rw [hname, hkind] at hk
      exact hk.transfer (hconfined p hp) fun n hn => if_pos hn
    · obtain ⟨he, hne⟩ := mem_filter.1 he
      obtain ⟨hconfined, hkinds⟩ := holder e he
      refine ⟨hconfined, fun p hp => (hkinds p hp).transfer (hconfined p hp) fun n hn => if_neg ?_⟩
      rw [hn]
      simpa [analyzeModule, ModuleExports.ofTable] using hne

end

/-! ### Generic names -/

def Declaration.generics (d : Declaration) : List String :=
  (d.functions.filter (!·.typeParams.isEmpty)).map (·.name.node) ++
    if d.typeParams.isEmpty then [] else [d.name.node]

/-- The generic functions, methods, structs and enums of a program and a library. -/
def Program.generics (program : Program) (library : Library) : List String :=
  Predeclared.all.flatMap (fun p => p.symbol.kind.generics p.spelling) ++
    program.declarations.flatMap (·.node.generics) ++
    library.flatMap fun e => e.items.flatMap fun p => p.2.kind.generics p.1

def Program.isGeneric (program : Program) (library : Library) (name : String) : Bool :=
  (program.generics library).contains name

section

variable {program : Program} {library : Library} {imports : List ImportBinding}

lemma mem_generics_of_function {d : Declaration} {f} (hf : f ∈ d.functions)
    (hparams : f.typeParams.map (·.node) ≠ []) : f.name.node ∈ d.generics := by
  refine mem_append_left _ (mem_map_of_mem (mem_filter.2 ⟨hf, ?_⟩))
  simpa using hparams

lemma mem_generics_of_typeParams {d : Declaration} (hparams : d.typeParams ≠ []) : d.name.node ∈ d.generics := by
  refine mem_append_right _ ?_
  simp [hparams]

lemma Program.isGeneric_of_declaration {d} (hd : d ∈ program.decls)
    {name} (hname : name ∈ d.generics) : program.isGeneric library name = true := by
  obtain ⟨e, he, rfl⟩ := mem_map.1 hd
  refine contains_iff_mem.2 (mem_append_left _ (mem_append_right _ ?_))
  exact mem_flatMap.2 ⟨e, he, hname⟩

lemma Symbol.Origin.isGeneric {s : Symbol} (h : s.Origin imports program.decls)
    {name} (hname : name ∈ s.kind.generics s.name) : program.isGeneric library name = true := by
  have hnominal {info : NominalInfo} (h : info.Origin program.decls s.name)
      (hname : name ∈ (if info.typeParams.isEmpty then [] else [s.name]) ++
        (info.methods.filter (·.2.signature.isGeneric)).map (·.1)) :
      program.isGeneric library name = true := by
    obtain hname | hname := mem_append.1 hname
    · obtain ⟨d, hd, hown, hparams⟩ := h.declared
      split at hname
      · exact absurd hname not_mem_nil
      · rename_i hfull
        rw [mem_singleton.1 hname, ← hown]
        refine Program.isGeneric_of_declaration hd (mem_generics_of_typeParams ?_)
        simpa [← hparams] using hfull
    · obtain ⟨m, hm, rfl⟩ := mem_map.1 hname
      obtain ⟨hm, hgeneric⟩ := mem_filter.1 hm
      obtain ⟨block, hblock, -, f, hf, hfname, hparams⟩ := h.methods m hm
      have hmem := mem_generics_of_function (d := .impl block) hf
        (by simpa [Signature.isGeneric, hparams] using hgeneric)
      rw [hfname] at hmem
      exact Program.isGeneric_of_declaration hblock hmem
  unfold Symbol.Origin at h
  cases hk : s.kind with
  | function info =>
    rw [hk] at h hname
    rw [SymbolKind.generics] at hname
    split at hname
    · rename_i hany
      obtain ⟨sig, hsig, hgeneric⟩ := any_eq_true.1 hany
      rw [mem_singleton.1 hname]
      cases h sig hsig with
      | declared hd hf hfname hparams =>
        have hmem := mem_generics_of_function hf (by simpa [Signature.isGeneric, hparams] using hgeneric)
        rw [hfname] at hmem
        exact Program.isGeneric_of_declaration hd hmem
      | plain hparams => simp [Signature.isGeneric, hparams] at hgeneric
      | predeclared p hscope hspelling hsig =>
        refine contains_iff_mem.2 (mem_append_left _ (mem_append_left _ ?_))
        refine mem_flatMap.2 ⟨p, by cases p <;> decide, ?_⟩
        have hany : (p.signatures.map Predeclared.signatureInfo).any Signature.isGeneric = true :=
          any_eq_true.2 ⟨sig, hsig, hgeneric⟩
        rw [hspelling, Predeclared.symbol, SymbolKind.generics, if_pos hany]
        exact mem_singleton_self _
    · exact absurd hname not_mem_nil
  | struct info _ | enum info _ =>
    rw [hk] at h hname
    exact hnominal h hname
  | _ =>
    rw [hk] at hname
    exact absurd hname not_mem_nil

end

/-! ### Bodies and their declarations -/

/-- Type parameters that a body may mention: of functions of its name and place, and of the type that its `impl` block
is for. -/
inductive TypeParamOf (decls : List Declaration) (d : Declaration) (f : FunctionDecl) (x : String) : Prop where
  | function {e : Declaration} {g : FunctionDecl} :
    e ∈ decls →
    g ∈ e.functions →
    g.name = f.name →
    x ∈ g.typeParams.map (·.node) →
    TypeParamOf decls d f x
  | owner {block : ImplBlock} {e : Declaration} :
    d = .impl block →
    e ∈ decls →
    e.name.node = block.target.node →
    x ∈ e.typeParams →
    TypeParamOf decls d f x

def FunctionDecl.places (f : FunctionDecl) : List (Nat × Nat) :=
  (Stmt.listNodes (fun _ => true) f.body).flatMap Node.places

/-- A noted type is that of a constant, without type parameters, or stands in a body and mentions only its function's,
if the body is guarded. -/
def Attributed (generic : String → Bool) (decls : List Declaration) (entry : (Nat × Nat) × Ty) : Prop :=
  (∃ c, .const c ∈ decls ∧ entry.1 = c.value.span.key ∧ entry.2.params = []) ∨
    ∃ d ∈ decls, ∃ f ∈ d.functions, entry.1 ∈ f.places ∧
      (Stmt.allGuarded generic f.body = true → ∀ x ∈ entry.2.params, TypeParamOf decls d f x)

/-- The scope in which the declarations of a program are checked. -/
def Program.scope (program : Program) (library : Library) (imports : List ImportBinding) (own : String)
    (declared : Nominal → List String) : TypeScope :=
  { atModule own declared with
    generic := program.isGeneric library
    imports := fun target => ∃ i ∈ imports, i.target = some target }

/-- The scope of a body, with the type parameters that it may mention. -/
def TypeScope.body (S : TypeScope) (decls : List Declaration) (d : Declaration) (f : FunctionDecl) : TypeScope :=
  { S with params := TypeParamOf decls d f, place := (· ∈ f.places) }

def TypeScope.anyBody (S : TypeScope) (f : FunctionDecl) : TypeScope :=
  { S with params := fun _ => True, generic := fun _ => false, place := (· ∈ f.places) }

namespace Check

variable {α β : Type}

/-- A step that keeps what is known about declarations and notes types attributed to one of them. -/
def Attributes (S : TypeScope) (imports : List ImportBinding) (decls : List Declaration) (c : Check α)
    (Q : α → Prop) : Prop :=
  ∀ σ f, S.Reads σ → Described S imports decls f.symbols → Q (c σ f).1 ∧
    Described S imports decls (c σ f).2.symbols ∧
      ∀ entry ∈ (c σ f).2.exprTypes, entry ∈ f.exprTypes ∨ Attributed S.generic decls entry

variable {S : TypeScope} {imports : List ImportBinding} {decls : List Declaration} {c : Check α} {Q : α → Prop}
  {R : β → Prop}

lemma Attributes.bind {k} (h : Attributes S imports decls c Q)
    (hk : ∀ a, Q a → Attributes S imports decls (k a) R) : Attributes S imports decls (c >>= k) R := by
  intro σ f hσ hf
  obtain ⟨hQ, hg, hentries⟩ := h σ f hσ hf
  obtain ⟨hR, hg', hentries'⟩ := hk _ hQ σ _ hσ hg
  exact ⟨hR, hg', fun entry hentry => (hentries' entry hentry).elim (hentries entry) .inr⟩

lemma attributes_forM {l : List α} {k} (h : ∀ a ∈ l, Attributes S imports decls (k a) fun _ => True) :
    Attributes S imports decls (l.forM k) fun _ => True := by
  induction l with
  | nil => exact fun _ _ _ hf => ⟨trivial, hf, fun _ hentry => .inl hentry⟩
  | cons a l ih => exact (h a (by simp)).bind fun _ _ => ih fun b hb => h b (by simp [hb])

lemma attributes_read_bind {k} (h : ∀ σ, Attributes S imports decls (k σ) Q) :
    Attributes S imports decls (read >>= k) Q :=
  fun σ f hσ hf => h σ σ f hσ hf

lemma Runs.attributes {c'} (h : Runs S.frame True c c' Q) (hplace : ∀ k, ¬ S.place k) :
    Attributes S imports decls c Q := by
  intro σ f hσ hf
  have hends := h ⟨rfl, hσ⟩ ⟨rfl, hf.knows, hf.isOpen⟩
  refine ⟨hends.result, hends.symbols trivial ▸ hf, fun entry hentry => ?_⟩
  exact (hends.goes.2 entry hentry).imp_right fun hnew => absurd hnew.1 (hplace _)

end Check

section

variable {program : Program} {library : Library} {imports : List ImportBinding} {own : String}
  {declared : Nominal → List String}

lemma inner_body (d f) :
    (program.scope library imports own declared).Inner
      ((program.scope library imports own declared).body program.decls d f) where
  module := rfl
  declared := rfl
  imports := rfl
  params _ := False.elim
  generic _ hn := .inl (hn.resolve_right fun hall => hall "")

lemma inner_anyBody (f) :
    (program.scope library imports own declared).Inner ((program.scope library imports own declared).anyBody f) where
  module := rfl
  declared := rfl
  imports := rfl
  params _ := False.elim
  generic _ _ := .inr fun _ => trivial

lemma Frame.Hosts.any {S : TypeScope} {decls d f sig owner} (h : (S.body decls d f).frame.Hosts f sig owner) :
    (S.anyBody f).frame.Hosts f sig owner where
  typeParams _ _ := trivial
  ownerParams _ _ _ _ := trivial
  selfType o ho := (h.selfType o ho).mono fun _ _ => trivial
  params p hp := (h.params p hp).mono fun _ _ => trivial
  returnType := h.returnType.mono fun _ _ => trivial

lemma covers_places {S : TypeScope} {f : FunctionDecl} (h : ∀ k ∈ f.places, S.place k) :
    S.frame.Covers (Stmt.listNodes (fun _ => true) f.body) :=
  fun n hn k hk => h k (mem_flatMap.2 ⟨n, hn, hk⟩)

lemma not_imports_scope (himports : ∀ i ∈ imports, i.target ≠ some own) :
    ¬ (program.scope library imports own declared).imports own := by
  rintro ⟨i, hi, htarget⟩
  exact himports i hi htarget

lemma attributes_checkBody (himports : ∀ i ∈ imports, i.target ≠ some own) {d : Declaration}
    (hd : d ∈ program.decls) {f} (hf : f ∈ d.functions) {sig owner}
    (h : ((program.scope library imports own declared).body program.decls d f).frame.Hosts f sig owner) :
    Attributes (program.scope library imports own declared) imports program.decls (checkBody f sig owner)
      fun _ => True := by
  intro σ g hσ hg
  have hself : ¬ (program.scope library imports own declared).imports own := not_imports_scope himports
  obtain ⟨hrestores, hplaces⟩ := noted_checkBody (inner_anyBody f) hself h.any
    (Stmt.allGuarded_of_nothing f.body) (covers_places fun _ hk => hk) hσ hg.knows hg.isOpen
  refine ⟨trivial, hg.steps (local_checkBody f sig owner σ g) hrestores, fun entry hentry => ?_⟩
  obtain hold | ⟨hplace, -⟩ := hplaces entry hentry
  · exact .inl hold
  · by_cases hguard : Stmt.allGuarded (program.isGeneric library) f.body = true
    · obtain ⟨-, hnoted⟩ := noted_checkBody (inner_body d f) hself h hguard (covers_places fun _ hk => hk) hσ
        hg.knows hg.isOpen
      obtain hold | ⟨-, hadmits⟩ := hnoted entry hentry
      · exact .inl hold
      · exact .inr (.inr ⟨d, hd, f, hf, hplace, fun _ => hadmits.of_mem_params⟩)
    · exact .inr (.inr ⟨d, hd, f, hf, hplace, fun h => absurd h hguard⟩)

/-- What is known about a declaration that is found. -/
structure DeclaredAs (S : TypeScope) (imports : List ImportBinding) (decls : List Declaration) (name : String)
    (s : Symbol) : Prop where
  kind : S.Kind S.module name s.kind
  origin : s.Origin imports decls
  name_eq : s.name = name
  scope_eq : s.scope = moduleScope

lemma attributes_global? {S decls} (name) :
    Attributes S imports decls (global? name) fun o => ∀ p ∈ o, DeclaredAs S imports decls name p.2 := by
  refine fun σ f _ hf => ⟨fun p hp => ?_, hf, fun _ hentry => .inl hentry⟩
  obtain ⟨hname, hscope⟩ := hf.knows.sound.of_global? hp
  exact ⟨hf.knows.global? hp, hf.origin p.1 p.2 (SymbolTable.get?_of_global? hp), hname, hscope⟩

lemma not_place_scope (k : Nat × Nat) : ¬ (program.scope library imports own declared).place k :=
  id

lemma attributes_pure {α : Type} {a} {Q : α → Prop} (h : Q a) :
    Attributes (program.scope library imports own declared) imports program.decls (pure a) Q :=
  (runs_pure h).attributes not_place_scope

lemma attributes_declaredSignature? (name) :
    Attributes (program.scope library imports own declared) imports program.decls (declaredSignature? name)
      fun o => ∀ sig ∈ o, sig.Formed False (program.scope library imports own declared).nominal [] ∧
        ∀ x ∈ sig.typeParams, ∃ e ∈ program.decls, ∃ g ∈ e.functions, g.name = name ∧
          x ∈ g.typeParams.map (·.node) := by
  refine (attributes_global? name.node).bind fun o ho => ?_
  split
  · rename_i id sname info span scope visibility
    obtain ⟨hkind, horigin, hname, hscope⟩ := ho _ rfl
    refine attributes_pure fun sig hsig => ?_
    split at hsig
    · rename_i hspan
      have hmem := mem_of_mem_head? hsig
      refine ⟨hkind.formed sig hmem, fun x hx => ?_⟩
      cases horigin sig hmem with
      | @declared e g he hg hgname hparams =>
        refine ⟨e, he, g, hg, ?_, hparams ▸ hx⟩
        rw [hgname, show sname = name.node from hname, show span = name.span from hspan]
      | plain hparams =>
        rw [hparams] at hx
        exact absurd hx not_mem_nil
      | predeclared p hroot => exact absurd hscope hroot
    · cases hsig
  · exact attributes_pure (by simp)

section

variable (himports : ∀ i ∈ imports, i.target ≠ some own)

include himports

lemma attributes_checkAnnotations (list target type) :
    Attributes (program.scope library imports own declared) imports program.decls (checkAnnotations list target type)
      fun _ => True :=
  have := (program.scope library imports own declared).checking (not_imports_scope himports)
  (infers_checkAnnotations list target type).attributes not_place_scope

lemma attributes_checkFunction {f} (hf : .function f ∈ program.decls) :
    Attributes (program.scope library imports own declared) imports program.decls (checkFunction f)
      fun _ => True := by
  refine (attributes_checkAnnotations himports _ _ _).bind fun _ _ => ?_
  refine (attributes_declaredSignature? f.name).bind fun o ho => ?_
  split
  · exact attributes_pure trivial
  · rename_i sig
    obtain ⟨hsig, hparams⟩ := ho sig rfl
    have hown (x : String) (hx : False ∨ x ∈ [] ++ sig.typeParams) :
        TypeParamOf program.decls (.function f) f x := by
      obtain ⟨e, he, g, hg, hname, hx⟩ := hparams x (hx.resolve_left id)
      exact .function he hg hname hx
    have hbody : Attributes (program.scope library imports own declared) imports program.decls
        (checkBody f sig none) fun _ => True :=
      attributes_checkBody himports hf mem_cons_self
        { typeParams := fun p hp => .function hf mem_cons_self rfl (mem_map_of_mem hp)
          ownerParams := nofun
          selfType := nofun
          params := fun p hp => (hsig.1 p hp).mono hown
          returnType := hsig.2.mono hown }
    refine attributes_read_bind fun σ => ?_
    split
    · exact ((runs_reportIf _ _ _ rfl).attributes not_place_scope).bind fun _ _ => hbody
    · exact hbody

lemma attributes_checkExtern (f) :
    Attributes (program.scope library imports own declared) imports program.decls (checkExtern f) fun _ => True := by
  have hannotations := @attributes_checkAnnotations program library imports own declared himports
  refine (hannotations _ _ _).bind fun _ _ => (attributes_declaredSignature? _).bind fun _ _ => ?_
  exact (attributes_forM fun _ _ => hannotations _ _ _).bind fun _ _ => hannotations _ _ _

end

lemma DeclaredAs.owner {S decls name s}
    (h : DeclaredAs S imports decls name s) {owner} (howner : s.kind.owner? = some owner) :
    owner.info.Origin decls name ∧ S.nominal owner.info.nominal owner.info.typeParams.length ∧
      (owner.selfType = .struct owner.info.nominal (owner.info.typeParams.map .param) ∨
        owner.selfType = .enum owner.info.nominal (owner.info.typeParams.map .param)) ∧
      ∀ m ∈ owner.info.methods, m.2.signature.Formed False S.nominal owner.info.typeParams := by
  obtain ⟨hkind, horigin, hname, -⟩ := h
  unfold Symbol.Origin at horigin
  rw [hname] at horigin
  match hk : s.kind with
  | .struct info fields =>
    rw [hk] at horigin hkind howner
    cases howner
    exact ⟨horigin, congrArg List.length (hkind.nominal info rfl).2, .inl rfl, hkind.formed.1⟩
  | .enum info variants =>
    rw [hk] at horigin hkind howner
    cases howner
    exact ⟨horigin, congrArg List.length (hkind.nominal info rfl).2, .inr rfl, hkind.formed.1⟩
  | .variable .. | .function _ | .const .. | .typeParam | .module .. =>
    rw [hk] at howner
    cases howner

lemma attributes_checkImpl (himports : ∀ i ∈ imports, i.target ≠ some own) {block}
    (hblock : .impl block ∈ program.decls) :
    Attributes (program.scope library imports own declared) imports program.decls (checkImpl block)
      fun _ => True := by
  refine (attributes_global? block.target.node).bind fun o ho => ?_
  split
  · exact attributes_pure trivial
  · rename_i owner howner
    obtain ⟨p, rfl, howner⟩ := Option.bind_eq_some_iff.1 howner
    obtain ⟨horigin, hlength, hself, hmethods⟩ := (ho p rfl).owner howner
    have hparams (f : FunctionDecl) :
        ∀ x ∈ owner.info.typeParams, TypeParamOf program.decls (.impl block) f x := by
      intro x hx
      obtain ⟨e, he, hname, htypeParams⟩ := horigin.declared
      exact .owner rfl he hname (htypeParams ▸ hx)
    refine attributes_forM fun m hm => ?_
    have hmem : m.node ∈ (Declaration.impl block).functions := mem_map_of_mem hm
    refine (attributes_checkAnnotations himports _ _ _).bind fun _ _ => ?_
    split
    · rename_i mi hlookup
      split
      · rename_i hspan
        obtain ⟨before, after, hlist, -⟩ := lookup_eq_some_iff.1 hlookup
        have hfound : (m.node.name.node, mi) ∈ owner.info.methods := by simp [hlist]
        have hown (x : String) (hx : False ∨ x ∈ owner.info.typeParams ++ mi.signature.typeParams) :
            TypeParamOf program.decls (.impl block) m.node x := by
          obtain hx | hx := mem_append.1 (hx.resolve_left id)
          · exact hparams m.node x hx
          · obtain ⟨other, hother, -, g, hg, hname, htypeParams⟩ := horigin.methods _ hfound
            refine .function hother hg ?_ (htypeParams ▸ hx)
            rw [hname, hspan]
        refine attributes_checkBody himports hblock hmem
          { typeParams := fun p hp => .function hblock hmem rfl (mem_map_of_mem hp)
            ownerParams := fun o ho => by
              cases ho
              exact hparams m.node
            selfType := fun o ho => ?_
            params := fun p hp => ((hmethods _ hfound).1 p hp).mono hown
            returnType := (hmethods _ hfound).2.mono hown }
        cases ho
        obtain hself | hself := hself <;> rw [hself]
        · exact ⟨by rw [length_map]; exact hlength, Ty.allFormed_map_param (hparams m.node)⟩
        · exact ⟨by rw [length_map]; exact hlength, Ty.allFormed_map_param (hparams m.node)⟩
      · exact attributes_pure trivial
    · exact attributes_pure trivial

lemma attributes_checkConst {c} (hc : .const c ∈ program.decls) :
    Attributes (program.scope library imports own declared) imports program.decls (checkConst c) fun _ => True := by
  refine (attributes_global? c.name.node).bind fun o ho => ?_
  split
  · rename_i id sname t value span scope visibility
    have hformed := (ho _ rfl).kind.formed
    split
    · have hrecord : Attributes (program.scope library imports own declared) imports program.decls
          (recordType c.value.span t) fun _ => True := by
        refine fun σ f _ hf => ⟨trivial, hf, fun entry hentry => ?_⟩
        obtain rfl | hentry := mem_cons.1 hentry
        · refine .inr (.inl ⟨c, hc, rfl, ?_⟩)
          exact eq_nil_iff_forall_not_mem.2 hformed.of_mem_params
        · exact .inl hentry
      refine hrecord.bind fun _ _ => ((Frame.Folding.demand _ _ _ rfl).attributes not_place_scope).bind fun v _ => ?_
      unfold noteValue
      split
      · exact attributes_pure trivial
      · split
        · exact (runs_report _ _ (by unfold misfitProblem; split <;> rfl)).attributes not_place_scope
        · rename_i v _ _
          refine Attributes.bind (Q := fun _ => True) (fun σ f hσ hf => ?_)
            fun _ _ => (TypeScope.foldable.recordConst _ _).attributes not_place_scope
          refine ⟨trivial, described_setKind hf ?_ fun s hs => ?_, fun _ hentry => .inl hentry⟩
          · refine (local_setKind (fun k => ?_) σ f).sound hf.knows.sound
            cases k with
            | const t v => exact .inr ⟨t, v, _, rfl, rfl⟩
            | _ => exact .inl rfl
          · have hkind := hf.knows.kinds id s hs
            cases hk : s.kind with
            | const t v =>
              rw [hk] at hkind
              exact .inr ⟨rfl, hkind.const, trivial⟩
            | _ => exact .inl rfl
    · exact attributes_pure trivial
  · exact attributes_pure trivial

lemma attributes_checkDeclarations (himports : ∀ i ∈ imports, i.target ≠ some own) :
    Attributes (program.scope library imports own declared) imports program.decls
      (checkDeclarations program.decls) fun _ => True := by
  have hannotations (list : List Annotation) (target : Directive.Target) :=
    @attributes_checkAnnotations program library imports own declared himports list target none
  refine (attributes_forM fun d hd => ?_).bind fun _ _ => attributes_forM fun d hd => ?_
  · cases d with
    | const c => exact (hannotations _ _).bind fun _ _ => attributes_checkConst hd
    | _ => exact attributes_pure trivial
  · cases d with
    | function f => exact attributes_checkFunction himports hd
    | externFunction f => exact attributes_checkExtern himports f
    | struct s => exact (hannotations _ _).bind fun _ _ => attributes_forM fun _ _ => hannotations _ _
    | enum e => exact hannotations _ _
    | impl block => exact attributes_checkImpl himports hd
    | const c => exact attributes_pure trivial

lemma described_of_collecting {entered} {f : Findings} (h : Collecting own declared imports program.decls entered f) :
    Described (program.scope library imports own declared) imports program.decls f.symbols := by
  obtain ⟨⟨hknows, hopen, horigin⟩, -, -⟩ := h
  refine ⟨⟨hknows.sound, fun id s hs => ?_, fun id s hs path target hk => ?_, fun name s hs => ?_⟩,
    hopen, horigin⟩
  · obtain ⟨hformed, hnominal, -⟩ := hknows.kinds id s hs
    exact ⟨hformed, hnominal, fun n hn => .inl ((horigin id s hs).isGeneric hn)⟩
  · have hold := horigin id s hs
    rw [Symbol.Origin, hk] at hold
    exact hold
  · exact hknows.visible name s hs

lemma Library.Shaped.reads_scope {others} (h : library.Shaped others)
    (hothers : ∀ n : Nominal, n.module ≠ own → declared n = others n) {package} {options : AnalysisOptions} :
    (program.scope library imports own declared).Reads (options.setting own package library) where
  module := rfl
  exported target e member item htarget he hitem := by
    have hreads : (atModule own declared).Reads (options.setting own package library) := h.reads declared hothers
    obtain ⟨hformed, hnominal, -⟩ := hreads.exported target e member item htarget he hitem
    refine ⟨hformed, hnominal, fun n hn => .inl ?_⟩
    obtain ⟨hmem, -, hitem⟩ := mem_of_item? he hitem
    refine contains_iff_mem.2 (mem_append_right _ ?_)
    exact mem_flatMap.2 ⟨e, hmem, mem_flatMap.2 ⟨_, hitem, hn⟩⟩
  returned c hc := by cases hc

/-- Every type that is noted is that of a constant, which mentions no type parameters, or is noted at a place in the
body of a function or method. There it mentions only type parameters of that function and of the type that its `impl`
block is for, if in the body the arguments of what is generic have types of their own. -/
theorem typeParams_of_analyzed {options : AnalysisOptions} (hlibrary : library.Analyzed)
    (himports : ∀ i ∈ imports, i.target ≠ some own) {entry : (Nat × Nat) × Ty}
    (hentry : entry ∈ (analyzeModule program own imports library options).findings.exprTypes) :
    (∃ c, .const c ∈ program.decls ∧ entry.1 = c.value.span.key ∧ entry.2.params = []) ∨
      ∃ d ∈ program.decls, ∃ f ∈ d.functions, entry.1 ∈ f.places ∧
        (Stmt.allGuarded (program.isGeneric library) f.body = true →
          ∀ x ∈ entry.2.params, TypeParamOf program.decls d f x) := by
  obtain ⟨others, hshaped⟩ := hlibrary.exists_shaped
  obtain ⟨declared, entered, hothers, hcollected⟩ := collecting_analysis hshaped program own imports options
  have hreads : (program.scope library imports own declared).Reads
      (options.setting own program.package.node library) :=
    hshaped.reads_scope hothers
  obtain ⟨-, -, hentries⟩ := attributes_checkDeclarations himports _ _ hreads.withConstants
    (described_of_collecting hcollected)
  obtain hold | hnew := hentries entry hentry
  · rw [hcollected.untyped] at hold
    exact absurd hold List.not_mem_nil
  · exact hnew

end

/-! ### Modules of two functions -/

def Span.between (start stop : Nat) : Span :=
  { start, stop }

def typeT : TypeExpr :=
  .named default "T" []

def genericFunction (name : Name) (type returnType : TypeExpr) (body : List Stmt) : FunctionDecl :=
  { annotations := [], visibility := .pub, name, typeParams := [⟨"T", default⟩], receiver := none
    params := [{ span := default, annotations := [], name := "x", type }], returnType, body }

def moduleOfTwo (first second : FunctionDecl) : Program :=
  { package := ⟨"m", default⟩, imports := []
    declarations := [⟨.function first, default⟩, ⟨.function second, default⟩] }

def typesOfTwo (first second : FunctionDecl) : SpanTable Ty :=
  (analyzeModule (moduleOfTwo first second) "m" [] [] {}).findings.exprTypes

def identity : FunctionDecl :=
  genericFunction ⟨"id", default⟩ typeT typeT [.returnValue default (exprX 3)]

def callsIdentity : FunctionDecl :=
  functionF [] .i32 [.returnValue default (.call (.between 10 15) (.ident (.between 10 12) "id")
    [.literal (.between 13 14) (.int 1)])]

/-- A generic function mentions its type parameter, and the call of it is guarded. -/
theorem typeParams_of_analyzed_callsIdentity :
    ((3, 4), Ty.param "T") ∈ typesOfTwo identity callsIdentity ∧
      ((10, 15), Ty.primitive .i32) ∈ typesOfTwo identity callsIdentity ∧
      Stmt.allGuarded ((moduleOfTwo identity callsIdentity).isGeneric []) callsIdentity.body = true ∧
      ((∃ c, .const c ∈ (moduleOfTwo identity callsIdentity).decls ∧ (3, 4) = c.value.span.key ∧
          (Ty.param "T").params = []) ∨
        ∃ d ∈ (moduleOfTwo identity callsIdentity).decls, ∃ f ∈ d.functions, (3, 4) ∈ f.places ∧
          (Stmt.allGuarded ((moduleOfTwo identity callsIdentity).isGeneric []) f.body = true →
            ∀ x ∈ (Ty.param "T").params, TypeParamOf (moduleOfTwo identity callsIdentity).decls d f x)) := by
  have hparam : ((3, 4), Ty.param "T") ∈ typesOfTwo identity callsIdentity := by decide +kernel
  refine ⟨hparam, by decide +kernel, by decide +kernel, ?_⟩
  exact typeParams_of_analyzed .nil (fun _ hi => absurd hi List.not_mem_nil) hparam

def takesOption : FunctionDecl :=
  genericFunction ⟨"g", default⟩ (.option default typeT) (.primitive default .void) []

/-- A call with `Option.None` of the function of an optional value. -/
def passesNone : FunctionDecl :=
  functionF [] .void [.expr default (.call (.between 20 34) (.ident (.between 20 21) "g")
    [.dotted (.between 22 33) ⟨"Option", .between 22 28⟩ ⟨"None", .between 29 33⟩])]

/-- A type parameter of the callee is noted in a function without any, without problems. -/
theorem param_mem_typesOfTwo_passesNone :
    (analyzeModule (moduleOfTwo takesOption passesNone) "m" [] [] {}).diagnostics = [] ∧
      ((22, 33), Ty.option (.param "T")) ∈ typesOfTwo takesOption passesNone ∧
      (22, 33) ∈ passesNone.places ∧ (22, 33) ∉ takesOption.places ∧
      ¬ TypeParamOf (moduleOfTwo takesOption passesNone).decls (.function passesNone) passesNone "T" := by
  refine ⟨by decide +kernel, by decide +kernel, by decide +kernel, by decide +kernel, fun h => ?_⟩
  cases h with
  | @function e g he hg hname hx =>
    obtain rfl | rfl : e = .function takesOption ∨ e = .function passesNone := by
      simpa [Program.decls, moduleOfTwo] using he
    · obtain rfl := List.mem_singleton.mp hg
      exact absurd hname (by decide)
    · obtain rfl := List.mem_singleton.mp hg
      exact absurd hx List.not_mem_nil
  | owner himpl => cases himpl

end SourceCheck
