import SourceCheck.Proofs.Analysis.Shapes

/-!
# Where symbols come from

A symbol is a local name, a predeclared function, an import, or that of a declaration that got its name. The latter is
found under it as long as the module is checked, and stands for what is written, up to types.
-/

namespace SourceCheck

open Check List SymbolTable SymbolKind

/-! ### Symbols of declarations -/

def MethodInfo.WrittenIn (decls : List Declaration) (owner name : String) (m : MethodInfo) : Prop :=
  ∃ block, .impl block ∈ decls ∧ block.target.node = owner ∧
    ∃ f ∈ block.methods.map (·.node), f.name.node = name ∧ m.visibility = f.visibility

/-- Written type parameters, and methods of `impl` blocks. -/
structure NominalInfo.WrittenIn (module : String) (decls : List Declaration) (d : Declaration) (info : NominalInfo) :
    Prop where
  nominal : info.nominal = ⟨module, d.name.node⟩
  typeParams : info.typeParams = d.typeParams
  methods : ∀ m ∈ info.methods, m.2.WrittenIn decls d.name.node m.1

/-- A field without a visibility is public. -/
def FieldInfo.Spells (i : FieldInfo) (f : FieldDecl) : Prop :=
  i.name = f.name ∧ i.visibility = f.visibility.getD .pub

def Declaration.Shapes (module : String) (decls : List Declaration) (d : Declaration) (k : SymbolKind) : Prop :=
  match d, k with
  | .function _, .function info => info.isExtern = false
  | .externFunction _, .function info => info.isExtern = true
  | .struct s, .struct info fields =>
    info.WrittenIn module decls d ∧ ∀ i ∈ fields, ∃ f ∈ s.fields, i.Spells f
  | .enum _, .enum info _ => info.WrittenIn module decls d
  | .const _, .const .. => True
  | _, _ => False

structure Declaration.Gives (module : String) (decls : List Declaration) (d : Declaration) (s : Symbol) : Prop where
  symbol : ∃ s₀, d.symbol? module = some s₀ ∧ s = { s₀ with kind := s.kind, scope := moduleScope }
  shapes : d.Shapes module decls s.kind

/-- What a symbol comes from. The first import with a name gets it. -/
inductive Symbol.Source (imports : List ImportBinding) (declared : List (Declaration × Nat)) (id : Nat) (s : Symbol) :
    Prop where
  | bound : s.kind.isLocal = true → Source imports declared id s
  | predeclared {info : FunctionInfo} :
    s.kind = .function info →
    info.isExtern = false →
    Source imports declared id s
  | imported {i : ImportBinding} :
    imports.find? (·.binding = s.name) = some i →
    s.kind = i.symbol.kind →
    Source imports declared id s
  | declared {d : Declaration} : (d, id) ∈ declared → Source imports declared id s

/-- Imports and declarations are found under their names, and each symbol has a source. -/
structure Declares (module : String) (imports : List ImportBinding) (decls : List Declaration)
    (declared : List (Declaration × Nat)) (t : SymbolTable) : Prop where
  sound : t.Sound module
  nodup : (declared.map (·.2)).Nodup
  imported {name i} : imports.find? (·.binding = name) = some i →
    ∃ id s, t.global? name = some (id, s) ∧ s.kind = i.symbol.kind
  found {d id} : (d, id) ∈ declared → ∃ s, t.global? d.name.node = some (id, s) ∧ d.Gives module decls s
  source {id s} : t.get? id = some s → s.Source imports declared id

variable {d : Declaration} {id : Nat}

section

variable {module : String} {imports : List ImportBinding} {decls : List Declaration}
  {declared : List (Declaration × Nat)} {t : SymbolTable} {σ : Setting} {f g : Findings}

lemma Declaration.Gives.withKind {s} (h : d.Gives module decls s) {k}
    (hk : d.Shapes module decls k) : d.Gives module decls { s with kind := k } := by
  obtain ⟨s₀, hsym, hs⟩ := h.symbol
  refine ⟨⟨s₀, hsym, ?_⟩, hk⟩
  rw [hs]

lemma Declaration.Gives.span {s} (h : d.Gives module decls s) : s.span = d.name.span := by
  obtain ⟨s₀, hsym, hs⟩ := h.symbol
  rw [hs]
  exact (Declaration.symbol?_eq hsym).2.1

lemma Declaration.gives_symbol? {s} (h : d.symbol? module = some s) :
    d.Gives module decls { s with scope := moduleScope } := by
  refine ⟨⟨s, h, rfl⟩, ?_⟩
  cases d with
  | impl block => cases h
  | function _ | externFunction _ =>
    cases h
    exact rfl
  | const _ =>
    cases h
    exact trivial
  | struct _ =>
    cases h
    exact ⟨⟨rfl, rfl, fun m hm => absurd hm not_mem_nil⟩, fun i hi => absurd hi not_mem_nil⟩
  | enum _ =>
    cases h
    exact ⟨rfl, rfl, fun m hm => absurd hm not_mem_nil⟩

lemma Declaration.Shapes.const {d : Declaration} {u u' v w}
    (h : d.Shapes module decls (.const u v)) : d.Shapes module decls (.const u' w) := by
  cases d with
  | const _ => exact trivial
  | _ => exact h.elim

lemma Symbol.Source.withKind {s : Symbol} (h : s.Source imports declared id) {u u' v w} (hs : s.kind = .const u v) :
    Symbol.Source imports declared id { s with kind := .const u' w } := by
  cases h with
  | bound hlocal => simp [hs, isLocal] at hlocal
  | predeclared hkind => simp [hs] at hkind
  | imported _ hkind => simp [hs, ImportBinding.symbol] at hkind
  | declared hd => exact .declared hd

/-! ### Checking keeps declarations -/

lemma Findings.Steps.exists_global? (h : Findings.Steps f g) (hs : f.symbols.Sound module) {name s}
    (hglobal : f.symbols.global? name = some (id, s)) :
    ∃ k, g.symbols.global? name = some (id, { s with kind := k }) ∧
      (k = s.kind ∨ ∃ u v w, s.kind = .const u v ∧ k = .const u w) := by
  by_cases hfixed : s.Fixed
  · exact ⟨s.kind, h.global?_eq hs hfixed hglobal, .inl rfl⟩
  · unfold Symbol.Fixed at hfixed
    push Not at hfixed
    obtain ⟨u, v, hconst⟩ := hfixed
    suffices ∃ w, g.symbols.global? name = some (id, { s with kind := .const u w }) by
      obtain ⟨w, hw⟩ := this
      exact ⟨_, hw, .inr ⟨u, v, w, hconst, rfl⟩⟩
    induction h with
    | refl => exact ⟨v, by rw [hglobal, ← hconst]⟩
    | @tail b c hb hstep ih =>
      obtain ⟨w, hw⟩ := ih
      cases hstep with
      | enter kind => exact ⟨w, by rw [global?_enter, hw]⟩
      | leave => exact ⟨w, by rw [global?_leave, hw]⟩
      | define hlocal hdefine =>
        obtain hsame | ⟨hnone, -⟩ := (Findings.Steps.sound hb hs).global?_define hdefine name
        · exact ⟨w, by rw [hsame, hw]⟩
        · simp [hw] at hnone
      | @constant k g hg =>
        rw [global?_modifySymbol, hw]
        by_cases hk : k = id
        · obtain hsame | ⟨u', v', w', heq, hnew⟩ := hg (.const u w)
          · exact ⟨w, by simp [hk, hsame]⟩
          · cases heq
            exact ⟨w', by simp [hk, hnew]⟩
        · exact ⟨w, by simp [hk]⟩
      | _ => exact ⟨w, hw⟩

lemma Declares.steps (h : Declares module imports decls declared f.symbols) (hsteps : Findings.Steps f g) :
    Declares module imports decls declared g.symbols where
  sound := hsteps.sound h.sound
  nodup := h.nodup
  imported hi := by
    obtain ⟨id, s, hglobal, hkind⟩ := h.imported hi
    have hfixed : s.Fixed := fun u v hconst => by simp [hkind, ImportBinding.symbol] at hconst
    exact ⟨id, s, hsteps.global?_eq h.sound hfixed hglobal, hkind⟩
  found hd := by
    obtain ⟨s, hglobal, hgives⟩ := h.found hd
    obtain ⟨k, hlater, rfl | ⟨u, v, w, hconst, rfl⟩⟩ := hsteps.exists_global? h.sound hglobal
    · exact ⟨_, hlater, hgives⟩
    · have hshapes := hgives.shapes
      rw [hconst] at hshapes
      exact ⟨_, hlater, hgives.withKind hshapes.const⟩
  source {id s} :=
    hsteps.forall_get? (P := fun id s => s.Source imports declared id) (fun _ _ hlocal => .bound hlocal)
      (fun _ _ _ _ _ hconst hsource => hsource.withKind hconst) (fun _ _ => h.source) id s

lemma Declares.gives (h : Declares module imports decls declared t) {s}
    (hd : (d, id) ∈ declared) (hget : t.get? id = some s) : d.Gives module decls s ∧ s.name = d.name.node := by
  obtain ⟨s', hglobal, hgives⟩ := h.found hd
  obtain rfl : s' = s := Option.some.inj ((get?_of_global? hglobal).symm.trans hget)
  exact ⟨hgives, h.sound.name_eq hglobal⟩

lemma Declaration.Shapes.ne_module {path target} : ¬ d.Shapes module decls (.module path target) := by
  cases d <;> exact id

lemma Declares.unique (h : Declares module imports decls declared t) {d'}
    (hd : (d, id) ∈ declared) (hd' : (d', id) ∈ declared) : d = d' :=
  congrArg Prod.fst (inj_on_of_nodup_map h.nodup hd hd' rfl)

lemma Declares.setKind (h : Declares σ.module imports decls declared f.symbols) {d id} (hd : (d, id) ∈ declared) {k}
    (hsound : (SourceCheck.setKind id k σ f).2.symbols.Sound σ.module)
    (hk : ∀ kind, d.Shapes σ.module decls kind → d.Shapes σ.module decls (k kind)) :
    Declares σ.module imports decls declared (SourceCheck.setKind id k σ f).2.symbols where
  sound := hsound
  nodup := h.nodup
  imported hi := by
    obtain ⟨id', s, hglobal, hkind⟩ := h.imported hi
    refine ⟨id', s, global?_setKind hglobal fun hid => ?_, hkind⟩
    have hshapes := (h.gives (hid ▸ hd) (get?_of_global? hglobal)).1.shapes
    rw [hkind] at hshapes
    exact hshapes.ne_module
  found {d' id'} hd' := by
    obtain ⟨s, hglobal, hgives⟩ := h.found hd'
    by_cases hid : id' = id
    · subst hid
      obtain rfl := h.unique hd hd'
      exact ⟨_, global?_setKind_self hglobal, hgives.withKind (hk _ hgives.shapes)⟩
    · exact ⟨s, global?_setKind hglobal hid, hgives⟩
  source {id' s} hget := by
    have hrun : (SourceCheck.setKind id k σ f).2.symbols.get? id' = _ := get?_modifySymbol _ _ _ _
    rw [hrun] at hget
    split at hget
    · rename_i hid
      exact .declared (hid ▸ hd)
    · exact h.source hget

/-! ### Shapes -/

lemma spells_resolveFields (seen fields σ f) :
    ∀ i ∈ (resolveFields seen fields σ f).1, ∃ decl ∈ fields, i.Spells decl := by
  induction fields generalizing seen f with
  | nil => exact fun i hi => absurd hi not_mem_nil
  | cons decl fields ih =>
    unfold resolveFields
    intro i hi
    cases hseen : seen.lookup decl.name with
    | some previous =>
      rw [hseen] at hi
      obtain ⟨other, hother, hspells⟩ := ih _ _ i hi
      exact ⟨other, mem_cons_of_mem _ hother, hspells⟩
    | none =>
      rw [hseen] at hi
      obtain rfl | hi := mem_cons.1 hi
      · exact ⟨decl, mem_cons_self, rfl, rfl⟩
      · obtain ⟨other, hother, hspells⟩ := ih _ _ i hi
        exact ⟨other, mem_cons_of_mem _ hother, hspells⟩

lemma written_resolveMethods (owner seen methods σ f) :
    ∀ m ∈ (resolveMethods owner seen methods σ f).1,
      ∃ decl ∈ methods, decl.name.node = m.1 ∧ m.2.visibility = decl.visibility := by
  induction methods generalizing seen f with
  | nil => exact fun m hm => absurd hm not_mem_nil
  | cons decl methods ih =>
    unfold resolveMethods
    intro m hm
    cases hseen : seen.lookup decl.name.node with
    | some previous =>
      rw [hseen] at hm
      obtain ⟨other, hother, hwritten⟩ := ih _ _ m hm
      exact ⟨other, mem_cons_of_mem _ hother, hwritten⟩
    | none =>
      rw [hseen] at hm
      obtain rfl | hm := mem_cons.1 hm
      · exact ⟨decl, mem_cons_self, rfl, rfl⟩
      · obtain ⟨other, hother, hwritten⟩ := ih _ _ m hm
        exact ⟨other, mem_cons_of_mem _ hother, hwritten⟩

lemma declares_resolveShape (hd : (d, id) ∈ declared) (h : Declares σ.module imports decls declared f.symbols) :
    Declares σ.module imports decls declared (resolveShape d id σ f).2.symbols := by
  have hsound := gathers_keeps.resolveShape d id σ f h.sound
  cases d with
  | function decl =>
    have hsteps := local_withTypeParams decl.typeParams
      (local_resolveSignature decl.typeParams decl.params decl.returnType) σ f
    refine (h.steps hsteps).setKind hd hsound fun kind hkind => ?_
    cases kind with
    | function info => exact hkind
    | _ => exact hkind.elim
  | externFunction decl =>
    have hsteps := local_resolveSignature [] decl.params decl.returnType σ f
    refine (h.steps hsteps).setKind hd hsound fun kind hkind => ?_
    cases kind with
    | function info => exact hkind
    | _ => exact hkind.elim
  | struct decl =>
    have hsteps := local_withTypeParams decl.typeParams (local_resolveFields [] decl.fields) σ f
    rw [resolveShape, run_bind] at hsound ⊢
    refine (h.steps hsteps).setKind hd hsound fun kind hkind => ?_
    obtain ⟨g, hg⟩ := withTypeParams_fst decl.typeParams (resolveFields [] decl.fields) σ f
    cases kind with
    | struct info fields =>
      rw [hg]
      exact ⟨hkind.1, spells_resolveFields [] decl.fields σ g⟩
    | _ => exact hkind.elim
  | enum decl =>
    have hsteps := local_withTypeParams decl.typeParams (local_resolveVariants decl.name.node [] decl.variants) σ f
    rw [resolveShape, run_bind] at hsound ⊢
    refine (h.steps hsteps).setKind hd hsound fun kind hkind => ?_
    cases kind with
    | enum info variants => exact hkind
    | _ => exact hkind.elim
  | const decl =>
    rw [resolveShape, run_bind] at hsound ⊢
    refine (h.steps (local_resolveType decl.type σ f)).setKind hd hsound fun kind hkind => ?_
    cases kind with
    | const u v => exact trivial
    | _ => exact hkind.elim
  | impl block => exact h

lemma declares_resolveShapes (h : Declares σ.module imports decls declared f.symbols) :
    Declares σ.module imports decls declared ((declared.forM fun (d, id) => resolveShape d id) σ f).2.symbols :=
  forM_induction (P := fun f => Declares σ.module imports decls declared f.symbols)
    (fun _ hp _ hf => declares_resolveShape hp hf) h

/-! ### Methods -/

lemma Declaration.Shapes.addMethods {kind} (h : d.Shapes module decls kind)
    {methods} (hmethods : ∀ m ∈ methods, m.2.WrittenIn decls d.name.node m.1) :
    d.Shapes module decls (kind.addMethods methods) := by
  have hinfo {info : NominalInfo} (h : info.WrittenIn module decls d) :
      NominalInfo.WrittenIn module decls d { info with methods := info.methods ++ methods } :=
    ⟨h.nominal, h.typeParams, fun m hm => (mem_append.1 hm).elim (h.methods m) (hmethods m)⟩
  match d, kind, h with
  | .struct _, .struct .., h => exact ⟨hinfo h.1, h.2⟩
  | .enum _, .enum .., h => exact hinfo h
  | .function _, .function _, h | .externFunction _, .function _, h | .const _, .const .., h => exact h

lemma Declares.exists_of_nominal (h : Declares module imports decls declared t) {name s info}
    (hglobal : t.global? name = some (id, s)) (hinfo : s.kind.nominalInfo? = some info) :
    ∃ d, (d, id) ∈ declared ∧ d.name.node = name ∧ d.Gives module decls s := by
  cases h.source (get?_of_global? hglobal) with
  | bound hlocal =>
    cases hkind : s.kind <;> simp [hkind, nominalInfo?, isLocal] at hinfo hlocal
  | predeclared hkind => simp [hkind, nominalInfo?] at hinfo
  | imported _ hkind => simp [hkind, ImportBinding.symbol, nominalInfo?] at hinfo
  | @declared d hd =>
    obtain ⟨hgives, hname⟩ := h.gives hd (get?_of_global? hglobal)
    exact ⟨d, hd, hname.symm.trans (h.sound.name_eq hglobal), hgives⟩

lemma declares_collectImpl {block} (hblock : .impl block ∈ decls)
    (h : Declares σ.module imports decls declared f.symbols) :
    Declares σ.module imports decls declared (collectImpl block σ f).2.symbols := by
  obtain hrun | ⟨id, s, info, hglobal, hinfo⟩ := collectImpl_cases block σ f
  · rw [hrun]
    exact h
  · obtain ⟨d, hd, hname, -⟩ := h.exists_of_nominal hglobal hinfo
    have hsteps := local_resolveImpl block info σ f
    rw [run_collectImpl hglobal hinfo, run_bind, addResolved, run_bind]
    refine Declares.steps ?_ (local_reportSeconds info _ σ _)
    refine (h.steps hsteps).setKind hd
      (gathers_keeps.setKind _ (reshaping_addMethods _) σ _ (hsteps.sound h.sound)) fun kind hkind => ?_
    refine hkind.addMethods fun m hm => ?_
    obtain ⟨decl, hdecl, hmname, hvisibility⟩ := written_resolveMethods _ _ _ σ f m (mem_of_mem_filter hm)
    exact ⟨block, hblock, hname.symm, decl, hdecl, hmname, hvisibility⟩

lemma declares_collectMethods (h : Declares σ.module imports decls declared f.symbols) :
    Declares σ.module imports decls declared ((decls.forM collectMethods) σ f).2.symbols := by
  refine forM_induction (P := fun f => Declares σ.module imports decls declared f.symbols) (fun d hd f hf => ?_) h
  cases d with
  | impl block => exact declares_collectImpl hd hf
  | _ => exact hf

lemma declares_collectShapes (h : Declares σ.module imports decls declared f.symbols) :
    Declares σ.module imports decls declared (collectShapes decls declared σ f).2.symbols := by
  have hsize : Local (decls.forM checkSize) := local_forM fun d _ => local_checkSize d
  have hshapes := declares_resolveShapes h
  exact declares_collectMethods (hshapes.steps (hsize σ _))

/-! ### Names -/

lemma SymbolTable.AtModule.lookupLocal_eq_none_iff (ht : t.AtModule module) {name} :
    t.lookupLocal name = none ↔ t.global? name = none := by
  rw [lookupLocal, ht.current, global?, lookupGlobal]
  refine ⟨fun h => by rw [h]; rfl, fun h => ?_⟩
  cases hlookup : t.lookupIn moduleScope name with
  | none => rfl
  | some id =>
    obtain ⟨scope, hscope, hmem⟩ := mem_of_lookupIn hlookup
    obtain ⟨s, hget, -⟩ := ht.sound.linked hscope hmem
    simp [hlookup, hget] at h

/-- Some imports have entered: the first one with a name gets it. -/
structure Importing (module : String) (imports : List ImportBinding) (declared : List (Declaration × Nat))
    (before : List ImportBinding) (t : SymbolTable) : Prop where
  atModule : t.AtModule module
  source : ∀ id s, t.get? id = some s → s.Source imports declared id
  free {name} : before.find? (·.binding = name) = none → t.global? name = none
  found {name i} : before.find? (·.binding = name) = some i →
    ∃ id s, t.global? name = some (id, s) ∧ s.kind = i.symbol.kind

lemma Importing.declareFirst {i before after}
    (h : Importing σ.module imports declared before f.symbols) (hi : imports = before ++ i :: after) :
    Importing σ.module imports declared (before ++ [i]) (Check.declareFirst i.symbol σ f).2.symbols := by
  have hother {name : String} (hname : name ≠ i.binding) :
      (before ++ [i]).find? (·.binding = name) = before.find? (·.binding = name) := by
    simp [List.find?_append, Ne.symm hname]
  have hmodule : (Check.declareFirst i.symbol σ f).2.symbols.AtModule σ.module :=
    atModule_imports [i] σ f h.atModule
  have hdefined : (Check.declareFirst i.symbol σ f).2 = (define i.symbol σ f).2 := rfl
  cases hdefine : f.symbols.define i.symbol with
  | error previous =>
    have hrun : (Check.declareFirst i.symbol σ f).2 = f := by rw [hdefined, run_define_error hdefine]
    -- The name is taken, by an import that entered before.
    obtain ⟨j, hj⟩ : ∃ j, before.find? (·.binding = i.binding) = some j := by
      refine Option.ne_none_iff_exists'.mp fun hnone => ?_
      have hfree : f.symbols.lookupLocal i.symbol.name = none :=
        h.atModule.lookupLocal_eq_none_iff.2 (h.free hnone)
      rw [SymbolTable.define, hfree] at hdefine
      cases hdefine
    have hsame (name : String) : (before ++ [i]).find? (·.binding = name) = before.find? (·.binding = name) := by
      by_cases hname : name = i.binding
      · rw [hname, List.find?_append, hj, Option.some_or]
      · exact hother hname
    rw [hrun]
    exact ⟨h.atModule, h.source, fun {name} hnone => h.free (hsame name ▸ hnone),
      fun {name i} hfind => h.found (hsame name ▸ hfind)⟩
  | ok p =>
    have hrun : (Check.declareFirst i.symbol σ f).2 = { f with symbols := p.2 } := by
      rw [hdefined, run_define_ok hdefine]
    rw [hrun] at hmodule ⊢
    have hself := global?_define_self hdefine h.atModule.current h.atModule.scope
    have hfirst : before.find? (·.binding = i.binding) = none := by
      have hfree : f.symbols.global? i.binding = none :=
        h.atModule.lookupLocal_eq_none_iff.1 (define_eq_ok hdefine).1
      cases hfind : before.find? (·.binding = i.binding) with
      | none => rfl
      | some j =>
        obtain ⟨id, s, hglobal, -⟩ := h.found hfind
        exact absurd (hglobal.symm.trans hfree) (Option.some_ne_none _)
    have hglobal {name : String} (hname : name ≠ i.binding) : p.2.global? name = f.symbols.global? name := by
      obtain hsame | ⟨-, hnew⟩ := h.atModule.sound.global?_define hdefine name
      · exact hsame
      · exact absurd (hmodule.sound.name_eq hnew).symm hname
    refine ⟨hmodule, fun id s hget => ?_, fun {name} hnone => ?_, fun {name j} hfind => ?_⟩
    · rw [get?_define hdefine] at hget
      split at hget
      · cases hget
        refine .imported (i := i) ?_ rfl
        rw [ImportBinding.symbol, hi, List.find?_append, hfirst]
        simp
      · exact h.source id s hget
    · have hname : name ≠ i.binding := by
        rintro rfl
        simp [List.find?_append] at hnone
      rw [hother hname] at hnone
      rw [hglobal hname]
      exact h.free hnone
    · by_cases hname : name = i.binding
      · subst hname
        obtain rfl : i = j := by simpa [List.find?_append, hfirst] using hfind
        exact ⟨_, _, hself, rfl⟩
      · rw [hother hname] at hfind
        rw [hglobal hname]
        exact h.found hfind

lemma importing_imports {before l} (hl : imports = before ++ l)
    (h : Importing σ.module imports declared before f.symbols) :
    Importing σ.module imports declared imports ((l.forM fun i => declareFirst i.symbol) σ f).2.symbols := by
  induction l generalizing f before with
  | nil =>
    rw [append_nil] at hl
    subst hl
    exact h
  | cons i l ih =>
    exact ih (f := (declareFirst i.symbol σ f).2) (hl.trans (append_cons before i l)) (h.declareFirst hl)

lemma declares_registerNames (imports decls σ) :
    let start := ((imports.forM fun i => declareFirst i.symbol) σ {}).2
    Declares σ.module imports decls (registerNames decls σ start).1 (registerNames decls σ start).2.symbols := by
  intro start
  have hinitial : Importing σ.module imports (registerNames decls σ start).1 [] initial := by
    refine ⟨atModule_initial σ.module, fun id s hget => ?_, fun {name} _ => ?_, fun hfind => by cases hfind⟩
    · cases (entered_initial hget : Entered σ.module [] [] _ id s) with
      | predeclared p hp =>
        subst hp
        exact .predeclared rfl rfl
      | imported hi => exact absurd hi not_mem_nil
      | declared hd => exact absurd hd not_mem_nil
    · have hempty : (initial.scope? moduleScope).map (·.names) = some [] := by decide +kernel
      obtain ⟨scope, hscope, hnames⟩ := Option.map_eq_some_iff.1 hempty
      simp [SymbolTable.global?, SymbolTable.lookupGlobal, SymbolTable.lookupIn, hscope, hnames]
  have himports : Importing σ.module imports (registerNames decls σ start).1 imports start.symbols :=
    importing_imports (f := {}) (nil_append imports).symm hinitial
  have hregistered := (registered_registerNames decls start himports.atModule).1
  refine ⟨(atModule_registerNames decls σ start himports.atModule).sound, hregistered.nodup, fun {name i} hi => ?_,
    fun {d id} hd => ?_, fun {id s} hget => ?_⟩
  · obtain ⟨id, s, hglobal, hkind⟩ := himports.found hi
    exact ⟨id, s, global?_registerNames himports.atModule hglobal, hkind⟩
  · obtain ⟨s, hsym, hglobal⟩ := hregistered.found hd
    obtain ⟨hname, -⟩ := Declaration.symbol?_eq hsym
    exact ⟨_, hname ▸ hglobal, Declaration.gives_symbol? hsym⟩
  · obtain hold | ⟨d, hd⟩ := get?_registerNames hget
    · exact himports.source id s hold
    · exact .declared hd

lemma declares_collectDeclarations (imports decls σ) :
    Declares σ.module imports decls (collectDeclarations imports decls σ {}).1
      (collectDeclarations imports decls σ {}).2.symbols :=
  declares_collectShapes (σ := { σ with constants := constantsOf _ }) (declares_registerNames imports decls σ)

/-! ### What is resolved -/

inductive Contents where
  | signatures (l : List Signature)
  | fields (l : List FieldInfo)
  | variants (l : List VariantInfo)
  | type (t : Ty)

def SymbolKind.contents? : SymbolKind → Option Contents
  | .function info => some (.signatures info.signatures)
  | .struct _ fields => some (.fields fields)
  | .enum _ variants => some (.variants variants)
  | .const t _ => some (.type t)
  | _ => none

def Findings.contents? (f : Findings) (name : String) : Option Contents :=
  (f.symbols.global? name).bind fun p => p.2.kind.contents?

lemma Findings.Steps.contents?_eq (h : Findings.Steps f g) (hs : f.symbols.Sound module) (name) :
    g.contents? name = f.contents? name := by
  induction h with
  | refl => rfl
  | tail hb hstep ih =>
    rw [← ih]
    refine hstep.global?_bind_eq (·.kind.contents?) (fun s hlocal => ?_) (fun s t v w hkind => ?_)
      (Findings.Steps.sound hb hs) name
    · cases hk : s.kind <;> simp [hk, SymbolKind.isLocal, SymbolKind.contents?] at hlocal ⊢
    · simp [hkind, SymbolKind.contents?]

lemma contents?_resolveShape_of_ne (h : Declares σ.module imports decls declared f.symbols) {d e id k}
    (hd : (d, k) ∈ declared) (hne : k ≠ id) :
    (resolveShape e id σ f).2.contents? d.name.node = f.contents? d.name.node := by
  obtain ⟨g, hsteps, hrun | ⟨kind, hrun⟩⟩ := run_resolveShape e id σ f
  · rw [hrun, hsteps.contents?_eq h.sound]
  · obtain ⟨s, hglobal, -⟩ := (h.steps hsteps).found hd
    rw [hrun, ← hsteps.contents?_eq h.sound, Findings.contents?, Findings.contents?,
      global?_setKind hglobal hne, hglobal]

lemma contents?_addMethods (id methods name) :
    (setKind id (·.addMethods methods) σ f).2.contents? name = f.contents? name := by
  rw [Findings.contents?, run_global?_setKind, Findings.contents?]
  cases f.symbols.global? name with
  | none => rfl
  | some p =>
    simp only [Option.map_some, Option.bind_some]
    split
    · cases p.2.kind <;> rfl
    · rfl

lemma contents?_collectMethods (hs : f.symbols.Sound σ.module) {d} (hclean : Clean (collectMethods d) σ f)
    (name) : (collectMethods d σ f).2.contents? name = f.contents? name := by
  cases d with
  | impl block =>
    obtain ⟨id, s, info, hglobal, hinfo⟩ := exists_of_clean_collectImpl hclean
    have hsteps := local_resolveImpl block info σ f
    rw [collectMethods, run_collectImpl hglobal hinfo, run_bind, addResolved, run_bind,
      (local_reportSeconds info _ σ _).contents?_eq
        (gathers_keeps.setKind _ (reshaping_addMethods _) σ _ (hsteps.sound hs)), contents?_addMethods,
      hsteps.contents?_eq hs]
  | _ => rfl

section

variable {I : Findings → Prop} {P : Declaration → Option Contents → Prop}
  (hI : ∀ f, I f → Declares σ.module imports decls declared f.symbols)
  (hstep : ∀ d id f, (d, id) ∈ declared → I f → Clean (resolveShape d id) σ f →
    I (resolveShape d id σ f).2 ∧ P d ((resolveShape d id σ f).2.contents? d.name.node))

include hI hstep

/-- What holds of each declaration when its shape is resolved holds of all in the end. -/
lemma forall_resolveShapes {l : List (Declaration × Nat)} (hl : ∀ p ∈ l, p ∈ declared)
    (hnodup : (l.map (·.2)).Nodup) (hf : I f)
    (hclean : Clean (l.forM fun (d, id) => resolveShape d id) σ f) :
    ∀ p ∈ l, P p.1 (((l.forM fun (d, id) => resolveShape d id) σ f).2.contents? p.1.name.node) := by
  -- The shapes of other declarations stay.
  have hlater {l : List (Declaration × Nat)} (hl : ∀ p ∈ l, p ∈ declared) {f : Findings}
      (hf : Declares σ.module imports decls declared f.symbols) {p : Declaration × Nat} (hp : p ∈ declared)
      (hnot : p.2 ∉ l.map (·.2)) :
      ((l.forM fun (d, id) => resolveShape d id) σ f).2.contents? p.1.name.node = f.contents? p.1.name.node := by
    induction l generalizing f with
    | nil => rfl
    | cons q l ih =>
      obtain ⟨hne, hnot⟩ := ne_and_not_mem_of_not_mem_cons hnot
      exact (ih (fun p hp => hl p (mem_cons_of_mem _ hp)) (declares_resolveShape (hl q mem_cons_self) hf)
        hnot).trans (contents?_resolveShape_of_ne hf hp hne)
  induction l generalizing f with
  | nil => exact fun p hp => absurd hp not_mem_nil
  | cons q l ih =>
    obtain ⟨hfirst, hrest⟩ :=
      Clean.of_grows (gathers_grows.resolveShape q.1 q.2) (fun _ => gathers_grows.resolveShapes l) hclean
    obtain ⟨hq, hnodup⟩ := nodup_cons.1 hnodup
    obtain ⟨hafter, hP⟩ := hstep q.1 q.2 f (hl q mem_cons_self) hf hfirst
    have hl' : ∀ p ∈ l, p ∈ declared := fun p hp => hl p (mem_cons_of_mem _ hp)
    intro p hp
    obtain rfl | hp := mem_cons.1 hp
    · exact (hlater hl' (hI _ hafter) (hl p mem_cons_self) hq).symm ▸ hP
    · exact ih hl' hnodup hafter hrest p hp

lemma forall_collectShapes (hf : I f) (hclean : Clean (collectShapes decls declared) σ f) :
    ∀ p ∈ declared, P p.1 ((collectShapes decls declared σ f).2.contents? p.1.name.node) := by
  intro p hp
  obtain ⟨hresolve, -, hmethods⟩ := clean_collectShapes hclean
  have hsound := (declares_resolveShapes (hI f hf)).sound
  have hsteps := steps_checkSizes (σ := σ) decls ((declared.forM fun (d, id) => resolveShape d id) σ f).2
  have hcontents := forM_collectMethods_induction
    (P := fun h => h.contents? p.1.name.node = (decls.forM checkSize σ _).2.contents? p.1.name.node) decls
    (fun d h hs hclean hh => (contents?_collectMethods hs hclean _).trans hh) (hsteps.sound hsound) hmethods rfl
  refine (hcontents.trans (hsteps.contents?_eq hsound _)).symm ▸ ?_
  exact forall_resolveShapes hI hstep (fun _ hp => hp) (hI f hf).nodup hf hresolve p hp

end

lemma clean_phases (h : Clean (collectDeclarations imports decls) σ {}) :
    let start := ((imports.forM fun i => declareFirst i.symbol) σ {}).2
    let registered := registerNames decls σ start
    Clean (registerNames decls) σ start ∧
      Clean (collectShapes decls registered.1) { σ with constants := constantsOf registered.1 } registered.2 := by
  obtain ⟨-, hrest⟩ := Clean.of_grows (grows_imports imports)
    (fun _ => (grows_registerNames decls).bind (grows_collectNamed decls)) h
  exact Clean.of_grows (grows_registerNames decls) (grows_collectNamed decls) hrest

lemma contents?_resolveShape_function (h : Declares σ.module imports decls declared f.symbols) {decl id}
    (hd : (.function decl, id) ∈ declared) (hclean : Clean (resolveShape (.function decl) id) σ f) :
    ∃ sig, (resolveShape (.function decl) id σ f).2.contents? (Declaration.function decl).name.node =
      some (.signatures [sig]) ∧ sig.Of decl := by
  have hlocal := local_withTypeParams decl.typeParams
    (local_resolveSignature decl.typeParams decl.params decl.returnType)
  obtain ⟨hclean, -⟩ := hclean.of_grows hlocal.grows fun _ => grows_setKind _ _
  obtain ⟨s, hglobal, hgives⟩ := (h.steps (hlocal σ f)).found hd
  have hshapes := hgives.shapes
  refine ⟨_, ?_, of_resolveSignature hclean⟩
  rw [resolveShape, run_bind, Findings.contents?, global?_setKind_self hglobal]
  cases hk : s.kind with
  | function info => rfl
  | _ =>
    rw [hk] at hshapes
    exact hshapes.elim

lemma hasFunction_collectDeclarations (h : Clean (collectDeclarations imports decls) σ {}) {decl}
    (hdecl : .function decl ∈ decls) : ∃ id, (collectDeclarations imports decls σ {}).2.HasFunction id decl := by
  obtain ⟨hnames, hshapes⟩ := clean_phases h
  obtain ⟨id, hid⟩ := mem_registerNames hnames hdecl rfl
  obtain ⟨sig, hcontents, hof⟩ := forall_collectShapes (σ := { σ with constants := constantsOf _ })
    (P := fun d x => ∀ decl, d = .function decl → ∃ sig, x = some (.signatures [sig]) ∧ sig.Of decl)
    (fun _ hf => hf)
    (fun d id f hd hf hclean => ⟨declares_resolveShape hd hf, by
      rintro decl rfl
      exact contents?_resolveShape_function hf hd hclean⟩)
    (declares_registerNames imports decls σ) hshapes _ hid decl rfl
  obtain ⟨s, hglobal, hgives⟩ := (declares_collectDeclarations imports decls σ).found hid
  have hkind : s.kind.contents? = some (.signatures [sig]) := by
    have hfound : (collectDeclarations imports decls σ {}).2.contents? _ = _ := hcontents
    rwa [Findings.contents?, hglobal] at hfound
  cases hk : s.kind with
  | function info =>
    rw [hk] at hkind
    obtain ⟨signatures, _⟩ := info
    cases hkind
    exact ⟨id, s, _, sig, hglobal, hk, hgives.span, rfl, hof⟩
  | _ =>
    rw [hk] at hkind
    cases hkind

end

end SourceCheck
