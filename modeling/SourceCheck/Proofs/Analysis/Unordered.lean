import SourceCheck.Proofs.Analysis.Checked
import SourceCheck.Proofs.Analysis.Infinite

/-!
# The order of declarations

What a module without problems says does not depend on the order of its declarations, as long as no constant
expression measures a struct or enum. The size of one whose members are not known yet is that of an empty one, so with
such measures the order matters.
-/

namespace SourceCheck

open Check List ConstContext Bool

/-! ### Plain expressions -/

mutual

/-- A type measured in a constant expression has no names in it. -/
def Expr.isPlain : Expr → Bool
  | .paren _ e | .unary _ _ _ e => e.isPlain
  | .binary _ lhs _ rhs => lhs.isPlain && rhs.isPlain
  | .sizeof _ type => type.isPlain false
  | _ => true

/-- The sizes of arrays are plain, and there are no names unless allowed. -/
def TypeExpr.isPlain (named : Bool) : TypeExpr → Bool
  | .primitive .. => true
  | .slice _ type | .pointer _ _ type | .option _ type | .taskHandle _ type => type.isPlain named
  | .array _ elem size => elem.isPlain named && size.isPlain
  | .result _ ok err => ok.isPlain named && err.isPlain named
  | .tuple _ elems => TypeExpr.allPlain named elems
  | .named _ _ args => named && TypeExpr.allPlain named args

def TypeExpr.allPlain (named : Bool) : List TypeExpr → Bool
  | [] => true
  | type :: types => type.isPlain named && TypeExpr.allPlain named types

end

/-- Sizes that a type may have, whatever is known of structs and enums. -/
def Sizing.possible : Sizing :=
  ⟨fun type n => ∃ table l, type.layout table = some l ∧ n = l.size, fun h => ⟨_, _, h, rfl⟩⟩

mutual

lemma Resolves.layoutWith_eq {C names type t} (h : Resolves C names type t) (htype : type.isPlain false = true)
    (members members' : Nominal → Option (List Layout)) : t.layoutWith members = t.layoutWith members' := by
  match h with
  | .primitive | .slice _ | .pointer _ | .taskHandle _ => rfl
  | .array helem _ _ =>
    rw [TypeExpr.isPlain, and_eq_true] at htype
    rw [Ty.layoutWith, Ty.layoutWith, helem.layoutWith_eq htype.1 members members']
  | .option hinner => rw [Ty.layoutWith, Ty.layoutWith, hinner.layoutWith_eq htype members members']
  | .result hok herr =>
    rw [TypeExpr.isPlain, and_eq_true] at htype
    rw [Ty.layoutWith, Ty.layoutWith, hok.layoutWith_eq htype.1 members members',
      herr.layoutWith_eq htype.2 members members']
  | .tuple helems => rw [Ty.layoutWith, Ty.layoutWith, helems.layoutsWith_eq htype members members']
  | .named _ _ => cases htype

lemma ResolvesAll.layoutsWith_eq {C names types ts}
    (h : ResolvesAll C names types ts) (htypes : TypeExpr.allPlain false types = true)
    (members members' : Nominal → Option (List Layout)) : Ty.layoutsWith members ts = Ty.layoutsWith members' ts := by
  match h with
  | .nil => rfl
  | .cons ht hts =>
    rw [TypeExpr.allPlain, and_eq_true] at htypes
    rw [Ty.layoutsWith, Ty.layoutsWith, ht.layoutWith_eq htypes.1 members members',
      hts.layoutsWith_eq htypes.2 members members']

end

/-! ### One value, one type -/

/-- Contexts with the same constants, which are plain. -/
structure ConstContext.Agrees (C C' : ConstContext) : Prop where
  imports : C'.imports = C.imports
  library : C'.library = C.library
  constant {name decl decl'} : C.constant? name = some decl → C'.constant? name = some decl' →
    decl = decl' ∧ decl.value.isPlain = true
  size {type n} : C.size type n → Sizing.possible.size type n
  size' {type n} : C'.size type n → Sizing.possible.size type n

/-- Names that stand for the same types. -/
def TypeNames.Agrees (names names' : TypeNames) : Prop :=
  ∀ name args t t', names name args t → names' name args t' → t = t'

section Agree

variable {C C' : ConstContext}

mutual

lemma Evaluates.agree (h : C.Agrees C') {e v w} (hv : Evaluates C e v)
    (hw : Evaluates C' e w) (he : e.isPlain = true) : v = w := by
  match hv, hw with
  | .literal hv, .literal hw => exact hv.symm.trans hw
  | .name hdecl hv, .name hdecl' hw =>
    obtain ⟨rfl, hplain⟩ := h.constant hdecl hdecl'
    exact hv.agree h hw hplain
  | .unknown _ _, .unknown _ _ => rfl
  | .unknown htarget hunknown, .member htarget' hmember _ _ =>
    rw [target?, h.imports] at htarget'
    cases htarget.symm.trans htarget'
    rw [h.library, hunknown] at hmember
    cases hmember
  | .member htarget hmember _ _, .unknown htarget' hunknown =>
    rw [target?, h.imports] at htarget'
    cases htarget.symm.trans htarget'
    rw [h.library, hmember] at hunknown
    cases hunknown
  | .member htarget hmember _ hkind, .member htarget' hmember' _ hkind' =>
    rw [target?, h.imports] at htarget'
    cases htarget.symm.trans htarget'
    rw [h.library] at hmember'
    cases hmember.symm.trans hmember'
    cases hkind.symm.trans hkind'
    rfl
  | .paren hv, .paren hw => exact hv.agree h hw he
  | .unaryNone _, .unaryNone _ => rfl
  | .unaryNone hv, .plain hw => exact hv.agree h hw he
  | .unaryNone hv, .logical hw _ => cases hv.agree h hw he
  | .plain hv, .unaryNone hw | .plain hv, .plain hw => exact hv.agree h hw he
  | .logical hv _, .unaryNone hw => cases hv.agree h hw he
  | .logical hv hfold, .logical hw hfold' =>
    cases hv.agree h hw he
    cases hfold.symm.trans hfold'
    rfl
  | .leftNone _, .leftNone _ | .leftNone _, .rightNone _ _ | .rightNone _ _, .leftNone _
  | .rightNone _ _, .rightNone _ _ => rfl
  | .leftNone hv, .binary hw _ _ | .binary hv _ _, .leftNone hw => cases hv.agree h hw (and_eq_true_iff.1 he).1
  | .rightNone _ hv, .binary _ hw _ | .binary _ hv _, .rightNone _ hw =>
    cases hv.agree h hw (and_eq_true_iff.1 he).2
  | .binary hl hr hfold, .binary hl' hr' hfold' =>
    cases hl.agree h hl' (and_eq_true_iff.1 he).1
    cases hr.agree h hr' (and_eq_true_iff.1 he).2
    cases hfold.symm.trans hfold'
    rfl
  | .sizeof _ ht hsize, .sizeof _ ht' hsize' =>
    obtain rfl := ht.agree h ht' (by rintro ⟨⟩) he
    obtain ⟨table, l, hl, rfl⟩ := h.size hsize
    obtain ⟨table', l', hl', rfl⟩ := h.size' hsize'
    rw [Ty.layout, ht.layoutWith_eq he _ table'.memberLayouts] at hl
    cases hl.symm.trans hl'
    rfl

lemma Resolves.agree (h : C.Agrees C') {names names' type t t'}
    (ht : Resolves C names type t) (ht' : Resolves C' names' type t') {named}
    (hnames : named = true → names.Agrees names') (htype : type.isPlain named = true) : t = t' := by
  match ht, ht' with
  | .primitive, .primitive => rfl
  | .slice ht, .slice ht' | .pointer ht, .pointer ht' | .option ht, .option ht' | .taskHandle ht, .taskHandle ht' =>
    rw [ht.agree h ht' hnames htype]
  | .array ht hv hn, .array ht' hv' hn' =>
    obtain ⟨htype, hsize⟩ := and_eq_true_iff.1 htype
    cases hv.agree h hv' hsize
    cases hn.symm.trans hn'
    rw [ht.agree h ht' hnames htype]
  | .result hok herr, .result hok' herr' =>
    obtain ⟨hplain, hplain'⟩ := and_eq_true_iff.1 htype
    rw [hok.agree h hok' hnames hplain, herr.agree h herr' hnames hplain']
  | .tuple hts, .tuple hts' => rw [hts.agree h hts' hnames htype]
  | .named hts hname, .named hts' hname' =>
    obtain ⟨hnamed, hplain⟩ := and_eq_true_iff.1 htype
    cases hts.agree h hts' hnames hplain
    exact hnames hnamed _ _ _ _ hname hname'

lemma ResolvesAll.agree (h : C.Agrees C') {names names' types ts ts'}
    (hts : ResolvesAll C names types ts) (hts' : ResolvesAll C' names' types ts') {named}
    (hnames : named = true → names.Agrees names') (htypes : TypeExpr.allPlain named types = true) : ts = ts' := by
  match hts, hts' with
  | .nil, .nil => rfl
  | .cons ht hts, .cons ht' hts' =>
    obtain ⟨hplain, hplains⟩ := and_eq_true_iff.1 htypes
    rw [ht.agree h ht' hnames hplain, hts.agree h hts' hnames hplains]

end

end Agree

/-! ### What names of types stand for -/

def Declaration.type? (module : String) (args : List Ty) : Declaration → Option Ty
  | .struct s => some (.struct ⟨module, s.name.node⟩ args)
  | .enum e => some (.enum ⟨module, e.name.node⟩ args)
  | _ => none

/-- The types that names stand for among declarations and type parameters. -/
def typeNamed (module : String) (decls : List Declaration) (params : List String) : TypeNames := fun name args t =>
  if name ∈ params then t = .param name
  else (∀ d ∈ decls, d.name.node = name → ∀ u ∈ d.type? module args, t = u) ∧
    ((∀ d ∈ decls, d.name.node = name → d.type? module args = none) → t = .param name)

/-- Names that stand for types among declarations and type parameters. -/
abbrev TypeNames.Among (names : TypeNames) (module : String) (decls : List Declaration) (params : List String) : Prop :=
  ∀ name args t, names name args t → typeNamed module decls params name args t

lemma agrees_typeNamed {module decls decls'} (hmem : ∀ d, d ∈ decls' ↔ d ∈ decls) (params) :
    TypeNames.Agrees (typeNamed module decls params) (typeNamed module decls' params) := by
  intro name args t t' ht ht'
  unfold typeNamed at ht ht'
  split at ht
  · rw [if_pos ‹_›] at ht'
    rw [ht, ht']
  · rw [if_neg ‹_›] at ht'
    simp only [hmem] at ht'
    by_cases hnone : ∀ d ∈ decls, d.name.node = name → d.type? module args = none
    · rw [ht.2 hnone, ht'.2 hnone]
    · push Not at hnone
      obtain ⟨d, hd, hname, htype⟩ := hnone
      obtain ⟨u, hu⟩ := Option.ne_none_iff_exists'.mp htype
      rw [ht.1 d hd hname u hu, ht'.1 d hd hname u hu]

lemma Declaration.Shapes.type?_eq {module decls} {d : Declaration} {k : SymbolKind} (h : d.Shapes module decls k)
    {args t} (ht : k.Types d.name.node args t) : d.type? module args = some t := by
  match d, k, h with
  | .struct _, .struct .., h =>
    rw [ht.2, h.1.nominal]
    rfl
  | .enum _, .enum .., h =>
    rw [ht.2, h.nominal]
    rfl
  | .function _, .function _, _ | .externFunction _, .function _, _ | .const _, .const .., _ => exact ht.elim

section Collecting

variable {S : Sizing} {imports : List ImportBinding} {library : Library} {decls : List Declaration}
  {declared : List (Declaration × Nat)} {σ : Setting} {f : Findings} {d : Declaration} {id : Nat} {params : List Name}

/-- The state between declarations whose shapes are resolved. -/
structure Findings.Ready (S : Sizing) (imports : List ImportBinding) (library : Library) (decls : List Declaration)
    (declared : List (Declaration × Nat)) (σ : Setting) (f : Findings) : Prop where
  tells : σ.Tells library decls declared
  knowing : f.Knowing S imports library decls declared σ.module
  atModule : f.symbols.AtModule σ.module
  named {d : Declaration} {s : Symbol} : d ∈ decls → d.symbol? σ.module = some s → ∃ id, (d, id) ∈ declared
  written {d : Declaration} {id : Nat} : (d, id) ∈ declared → d ∈ decls

lemma Findings.Ready.stands (h : f.Ready S imports library decls declared σ) {name} {s : Symbol}
    (hs : f.symbols.symbol? name = some s) {params} (hparams : name ∉ params) {args t}
    (ht : s.kind.Types name args t) : typeNamed σ.module decls params name args t := by
  rw [typeNamed, if_neg hparams]
  refine ⟨fun d hd hname u hu => ?_, fun hnone => ?_⟩
  · -- A declared name is found before any other.
    obtain ⟨id, hid⟩ : ∃ id, (d, id) ∈ declared := by
      cases d with
      | struct _ | enum _ => exact h.named hd rfl
      | _ => cases hu
    obtain ⟨s', hglobal, hgives⟩ := h.knowing.declares.found hid
    rw [hname] at hglobal
    obtain rfl := Option.some.inj (hs.symm.trans (h.atModule.symbol?_eq hglobal))
    subst hname
    exact Option.some.inj ((hgives.shapes.type?_eq ht).symm.trans hu)
  · obtain ⟨id, hget, rfl⟩ := h.knowing.declares.sound.exists_of_symbol? hs
    cases h.knowing.declares.source hget with
    | bound hlocal =>
      cases hk : s.kind <;> rw [hk] at hlocal ht <;> first | exact ht.2 | exact ht.elim | cases hlocal
    | predeclared hkind | imported _ hkind =>
      rw [hkind] at ht
      exact ht.elim
    | @declared d hd =>
      obtain ⟨hgives, hname⟩ := h.knowing.declares.gives hd hget
      rw [hname] at ht
      cases (hgives.shapes.type?_eq ht).symm.trans (hnone d (h.written hd) hname.symm)

open SymbolTable in
lemma symbol?_declareParams (hs : f.symbols.Sound σ.module) (hopen : f.symbols.Open)
    (hclean : Clean (params.forM fun p => declare (typeParamSymbol p)) σ f) (name) :
    let t := ((params.forM fun p => declare (typeParamSymbol p)) σ f).2.symbols
    (name ∈ params.map (·.node) → ∃ s, t.symbol? name = some s ∧ s.kind = .typeParam) ∧
      (name ∉ params.map (·.node) → t.symbol? name = f.symbols.symbol? name) := by
  induction params generalizing f with
  | nil => exact ⟨fun h => absurd h not_mem_nil, fun _ => rfl⟩
  | cons p params ih =>
    obtain ⟨hfirst, hrest⟩ :=
      Clean.of_bind (local_declare rfl) (fun _ => local_forM fun _ _ => local_declare rfl) hclean
    cases hdefine : f.symbols.define (typeParamSymbol p) with
    | error previous =>
      rw [Clean, declare, run_bind, run_define_error hdefine] at hfirst
      exact absurd hfirst not_clean_report
    | ok q =>
      have hrun : declare (typeParamSymbol p) σ f = ((), { f with symbols := q.2 }) := by
        rw [declare, run_bind, run_define_ok hdefine]
        rfl
      have hforM := congrArg (fun r => ((params.forM fun p => declare (typeParamSymbol p)) σ r.2).2.symbols) hrun
      rw [hrun] at hrest
      obtain ⟨hin, hout⟩ := ih (f := { f with symbols := q.2 }) (hs.define hdefine (Findings.placed_of_isLocal rfl))
        ((extends_define hdefine).isOpen hopen) hrest
      have hsymbol := symbol?_define hs hopen hdefine name
      refine ⟨fun hmem => ?_, fun hnot => ?_⟩
      · by_cases hlater : name ∈ params.map (·.node)
        · exact hforM ▸ hin hlater
        · obtain hname | hmem := mem_cons.1 hmem
          · exact ⟨_, hforM ▸ (hout hlater).trans (hsymbol.trans (if_pos hname)), rfl⟩
          · exact absurd hmem hlater
      · obtain ⟨hne, hnot⟩ := ne_and_not_mem_of_not_mem_cons hnot
        exact hforM ▸ (hout hnot).trans (hsymbol.trans (if_neg hne))

lemma Findings.Ready.yields (h : f.Ready S imports library decls declared σ) {α : Type} {step}
    (hlocal : Local step) {Q : TypeNames → α → Prop}
    (hstep : ∀ t, let C := S.context imports library decls
      C.Serves (C.Knows C.constants) σ t → Yields True (C.Knows C.constants) σ t step (Q t.typeNames))
    (hclean : Clean (withTypeParams params step) σ f) :
    ∃ names : TypeNames, names.Among σ.module decls (params.map (·.node)) ∧
      Q names (withTypeParams params step σ f).1 := by
  unfold withTypeParams at hclean ⊢
  by_cases hempty : params.isEmpty = true
  · rw [if_pos hempty] at hclean ⊢
    obtain rfl := List.isEmpty_iff.1 hempty
    refine ⟨f.symbols.typeNames, fun _ _ _ ⟨s, hs, ht⟩ => h.stands hs not_mem_nil ht, ?_⟩
    have hserves := serves_knows (h.knowing.declares.reads_context (S := S) h.tells)
    exact ((hstep _ hserves).finds trivial f rfl h.knowing.knows hclean).1
  · rw [if_neg hempty] at hclean ⊢
    let entered : Findings := { f with symbols := f.symbols.enter .block }
    let g := ((params.forM fun p => declare (typeParamSymbol p)) σ entered).2
    have hdeclare : Upholds S imports library decls declared (params.forM fun p => declare (typeParamSymbol p)) :=
      upholds_forM fun p _ => upholds_declare rfl
    obtain ⟨hdeclared, hclean⟩ := Clean.of_bind (σ := σ) (f := entered) hdeclare.steps (fun _ => hlocal) hclean
    have hentered := h.knowing.declares.steps (.single (.enter f .block))
    have hknows := hdeclare.knows σ entered h.tells hentered
      (ofConstants_knows _ _ (f := f) rfl rfl h.knowing.knows) hdeclared
    have hreads := (hentered.steps (hdeclare.steps σ entered)).reads_context (S := S) h.tells
    refine ⟨g.symbols.typeNames, ?_, ((hstep _ (serves_knows hreads)).finds trivial g rfl hknows hclean).1⟩
    rintro name args t ⟨s, hs, ht⟩
    obtain ⟨hin, hout⟩ :=
      symbol?_declareParams (f := entered) hentered.sound (SymbolTable.isOpen_enter _ _) hdeclared name
    by_cases hmem : name ∈ params.map (·.node)
    · obtain ⟨s', hs', hkind⟩ := hin hmem
      cases hs.symm.trans hs'
      rw [hkind] at ht
      rw [typeNamed, if_pos hmem]
      exact ht.2
    · refine h.stands (s := s) ?_ hmem ht
      rw [← SymbolTable.symbol?_enter h.atModule.isOpen .block, ← hout hmem]
      exact hs

/-! ### Shapes by the rules -/

def Declaration.paramNames : Declaration → List String
  | .function f => f.typeParams.map (·.node)
  | d => d.typeParams

/-- What is resolved is as it is written, with types and values by the rules. -/
def Declaration.Resolved (C : ConstContext) (names : TypeNames) : Declaration → Option Contents → Prop
  | .function f, some (.signatures l) => ∃ sig, l = [sig] ∧ sig.Resolved C names f.typeParams f.params f.returnType
  | .externFunction f, some (.signatures l) => ∃ sig, l = [sig] ∧ sig.Resolved C names [] f.params f.returnType
  | .struct s, some (.fields l) => List.Forall₂ (FieldInfo.Resolved C names) s.fields l
  | .enum e, some (.variants l) => List.Forall₂ (VariantInfo.Resolved C names) e.variants l
  | .const c, some (.type t) => Resolves C names c.type t
  | _, _ => False

lemma Findings.Ready.resolved (h : f.Ready S imports library decls declared σ) (hd : (d, id) ∈ declared)
    (hclean : Clean (resolveShape d id) σ f) :
    (resolveShape d id σ f).2.Ready S imports library decls declared σ ∧
      ∃ names : TypeNames, names.Among σ.module decls d.paramNames ∧
        d.Resolved (S.context imports library decls) names
          ((resolveShape d id σ f).2.contents? d.name.node) := by
  have hknowing := knowing_resolveShape h.tells h.knowing hd hclean
  refine ⟨⟨h.tells, hknowing,
    h.atModule.stays (gathers_keepsTable.resolveShape d id σ f) hknowing.declares.sound, h.named,
    h.written⟩, ?_⟩
  -- The shape is put into the symbol of the declaration once it is resolved.
  have hset {α : Type} (params : List Name) {step : Check α} (k : α → SymbolKind → SymbolKind)
    (hlocal : Local step)
      (Q : TypeNames → α → Prop)
      (hstep : ∀ t, let C := S.context imports library decls
        C.Serves (C.Knows C.constants) σ t → Yields True (C.Knows C.constants) σ t step (Q t.typeNames))
      (hclean : Clean (withTypeParams params step >>= fun a => setKind id (k a)) σ f)
      (hQ : ∀ names a kind, Q names a → d.Shapes σ.module decls kind →
        d.Resolved (S.context imports library decls) names (k a kind).contents?) :
      ∃ names : TypeNames, names.Among σ.module decls (params.map (·.node)) ∧
        d.Resolved (S.context imports library decls) names
          (((withTypeParams params step >>= fun a => setKind id (k a)) σ f).2.contents? d.name.node) := by
    have hparams := local_withTypeParams params hlocal
    obtain ⟨hresolve, -⟩ := hclean.of_grows hparams.grows fun _ => grows_setKind _ _
    obtain ⟨names, hnames, ha⟩ := h.yields hlocal hstep hresolve
    obtain ⟨s, hglobal, hgives⟩ := (h.knowing.declares.steps (hparams σ f)).found hd
    refine ⟨names, hnames, ?_⟩
    rw [run_bind, Findings.contents?, global?_setKind_self hglobal]
    exact hQ names _ _ ha hgives.shapes
  cases d with
  | function decl =>
    refine hset decl.typeParams _ (local_resolveSignature _ _ _) (fun names => Signature.Resolved _ names _ _ _)
      (fun t hserves => yields_resolveSignature hserves _ _ _) hclean fun names sig kind hsig hkind => ?_
    cases kind with
    | function => exact ⟨sig, rfl, hsig⟩
    | _ => exact hkind.elim
  | externFunction decl =>
    refine hset [] _ (local_resolveSignature _ _ _) (fun names => Signature.Resolved _ names _ _ _)
      (fun t hserves => yields_resolveSignature hserves _ _ _) hclean fun names sig kind hsig hkind => ?_
    cases kind with
    | function => exact ⟨sig, rfl, hsig⟩
    | _ => exact hkind.elim
  | struct decl =>
    refine hset decl.typeParams _ (local_resolveFields _ _) (fun names => List.Forall₂ (FieldInfo.Resolved _ names) _)
      (fun t hserves => yields_resolveFields hserves _ _) hclean fun names fields kind hfields hkind => ?_
    cases kind with
    | struct => exact hfields
    | _ => exact hkind.elim
  | enum decl =>
    refine hset decl.typeParams _ (local_resolveVariants _ _ _)
      (fun names => List.Forall₂ (VariantInfo.Resolved _ names) _)
      (fun t hserves => yields_resolveVariants hserves _ _ _) hclean fun names variants kind hvariants hkind => ?_
    cases kind with
    | enum => exact hvariants
    | _ => exact hkind.elim
  | const decl =>
    refine hset [] _ (local_resolveType _) (fun names => Resolves _ names _)
      (fun t hserves => yields_resolveType hserves _) hclean fun names u kind hu hkind => ?_
    cases kind with
    | const => exact hu
    | _ => exact hkind.elim
  | impl block =>
    obtain ⟨s, -, hgives⟩ := h.knowing.declares.found hd
    exact hgives.shapes.elim

/-! ### Methods by the rules -/

/-- The signature of a method is as written, with the owner's type parameters in scope. -/
def FunctionDecl.Signs (decl : FunctionDecl) (C : ConstContext) (module : String) (decls : List Declaration)
    (owner : List String) (sig : Signature) : Prop :=
  ∃ names : TypeNames, names.Among module decls (owner ++ decl.typeParams.map (·.node)) ∧
    sig.Resolved C names decl.typeParams decl.params decl.returnType

/-- A method is as an `impl` block writes it, with types by the rules. -/
def FunctionDecl.Gives (decl : FunctionDecl) (C : ConstContext) (module : String) (decls : List Declaration)
    (target : String) (m : MethodInfo) : Prop :=
  ∃ d ∈ decls, d.name.node = target ∧ (d.symbol? module).isSome ∧
    decl.Signs C module decls d.typeParams m.signature

lemma Findings.Ready.hasMethodWith (h : f.Ready S imports library decls declared σ) {block}
    (hclean : Clean (collectImpl block) σ f) {m} (hm : m ∈ block.methods) :
    (collectImpl block σ f).2.HasMethodWith block.target.node m.node.name.node
      (m.node.Gives (S.context imports library decls) σ.module decls block.target.node) := by
  refine hasMethodWith_of_mem h.atModule.sound hclean fun id s info hglobal hinfo => ?_
  obtain ⟨d, hd, hname, hgives⟩ := h.knowing.declares.exists_of_nominal hglobal hinfo
  have hparams : (info.typeParams.map fun p => (⟨p, block.target.span⟩ : Name)).map (·.node) = d.typeParams := by
    simpa [Function.comp_def] using (hgives.shapes.writtenIn hinfo).typeParams
  have hstep (decl : FunctionDecl) (f : Findings) :
      let sig := withTypeParams (info.typeParams.map (fun p => ⟨p, block.target.span⟩) ++ decl.typeParams)
        (resolveSignature decl.typeParams decl.params decl.returnType)
      f.Ready S imports library decls declared σ → Clean sig σ f →
        decl.Signs (S.context imports library decls) σ.module decls d.typeParams (sig σ f).1 ∧
          (sig σ f).2.Ready S imports library decls declared σ := by
    intro sig hf hsig
    have hknowing := hf.knowing.upholds hf.tells (upholds_withTypeParams _ (upholds_resolveSignature _ _ _)) hsig
    have hnames := hf.yields (local_resolveSignature _ _ _) (Q := fun names => Signature.Resolved _ names _ _ _)
      (fun t hserves => yields_resolveSignature hserves _ _ _) hsig
    rw [map_append, hparams] at hnames
    have hmodule := hf.atModule.stays (keepsTable_withTypeParams _ (infers_resolveSignature _ _ _).plain σ _)
      hknowing.declares.sound
    exact ⟨hnames, hf.tells, hknowing, hmodule, hf.named, hf.written⟩
  intro hresolved
  obtain ⟨-, mi, hlookup, -, hsig⟩ := resolveMethods_of_clean (fun decl _ => hstep decl) h hresolved
    (mem_map_of_mem hm)
  obtain ⟨s₀, hsym, -⟩ := hgives.symbol
  exact ⟨mi, hlookup, d, h.written hd, hname, Option.isSome_iff_exists.2 ⟨s₀, hsym⟩, hsig⟩

lemma Findings.Ready.next (h : f.Ready S imports library decls declared σ) (hd : d ∈ decls)
    (hclean : Clean (collectMethods d) σ f) : (collectMethods d σ f).2.Ready S imports library decls declared σ := by
  cases d with
  | impl block =>
    have hknowing := knowing_collectImpl h.tells h.knowing hd hclean
    exact ⟨h.tells, hknowing,
      h.atModule.stays (gathers_keepsTable.collectImpl block σ f) hknowing.declares.sound, h.named,
      h.written⟩
  | _ => exact h

end Collecting

/-! ### One shape -/

def plainSignature (params : List Param) (returnType : TypeExpr) : Bool :=
  params.all (·.type.isPlain true) && returnType.isPlain true

/-- No constant expression of a declaration measures a type with names in it. -/
def Declaration.isPlain : Declaration → Bool
  | .function f => plainSignature f.params f.returnType
  | .externFunction f => plainSignature f.params f.returnType
  | .struct s => s.fields.all (·.type.isPlain true)
  | .enum e => e.variants.all fun v => TypeExpr.allPlain true v.payload && v.value.all Expr.isPlain
  | .const c => c.type.isPlain true && c.value.isPlain
  | .impl block => block.methods.all fun m => plainSignature m.node.params m.node.returnType

lemma eq_of_forall₂ {α β : Type} {R R' : α → β → Prop} {l m m'} (h : List.Forall₂ R l m)
    (h' : List.Forall₂ R' l m') (heq : ∀ a ∈ l, ∀ b b', R a b → R' a b' → b = b') : m = m' := by
  induction h generalizing m' with
  | nil =>
    cases h'
    rfl
  | cons hab _ ih =>
    cases h' with
    | cons hab' h' =>
      rw [heq _ mem_cons_self _ _ hab hab', ih h' fun a ha => heq a (mem_cons_of_mem _ ha)]

section Agree

variable {C C' : ConstContext} {names names' : TypeNames} (h : C.Agrees C') (hnames : names.Agrees names')
include h hnames

lemma Signature.Resolved.agree {typeParams params returnType} {sig sig' : Signature}
    (hs : sig.Resolved C names typeParams params returnType)
    (hs' : sig'.Resolved C' names' typeParams params returnType)
    (hplain : plainSignature params returnType = true) : sig = sig' := by
  obtain ⟨hparams, hreturn⟩ := and_eq_true_iff.1 hplain
  have hparams : sig.params = sig'.params := by
    refine eq_of_forall₂ hs.params hs'.params fun p hp q q' hq hq' => Prod.ext (hq.1.trans hq'.1.symm) ?_
    exact hq.2.agree h hq'.2 (fun _ => hnames) (all_eq_true.1 hparams p hp)
  have htypeParams := hs.typeParams.trans hs'.typeParams.symm
  have hreturn := hs.returnType.agree h hs'.returnType (fun _ => hnames) hreturn
  cases sig
  cases sig'
  cases hparams
  cases htypeParams
  cases hreturn
  rfl

lemma Declaration.Resolved.agree {d : Declaration} {x x'} (hx : d.Resolved C names x)
    (hx' : d.Resolved C' names' x') (hplain : d.isPlain = true) : x = x' := by
  match d, x, x', hx, hx' with
  | .function _, some (.signatures _), some (.signatures _), ⟨_, rfl, hs⟩, ⟨_, rfl, hs'⟩
  | .externFunction _, some (.signatures _), some (.signatures _), ⟨_, rfl, hs⟩, ⟨_, rfl, hs'⟩ =>
    rw [hs.agree h hnames hs' hplain]
  | .struct _, some (.fields _), some (.fields _), hf, hf' =>
    rw [eq_of_forall₂ hf hf' fun f hf i i' hi hi' => ?_]
    rw [hi.2, hi'.2, hi.1.agree h hi'.1 (fun _ => hnames) (all_eq_true.1 hplain f hf)]
  | .enum _, some (.variants _), some (.variants _), hv, hv' =>
    rw [eq_of_forall₂ hv hv' fun v hv i i' hi hi' => ?_]
    obtain ⟨hpayload, hvalue⟩ := and_eq_true_iff.1 (all_eq_true.1 hplain v hv)
    have hpayload := hi.payload.agree h hi'.payload (fun _ => hnames) hpayload
    have hdiscriminant : i.discriminant = i'.discriminant := by
      cases hv : v.value with
      | none => rw [hi.absent hv, hi'.absent hv]
      | some e =>
        obtain ⟨w, hw, heq⟩ := hi.present e hv
        obtain ⟨w', hw', heq'⟩ := hi'.present e hv
        rw [hv] at hvalue
        rw [heq, heq', hw.agree h hw' hvalue]
    have hname := hi.name.trans hi'.name.symm
    cases i
    cases i'
    cases hname
    cases hpayload
    cases hdiscriminant
    rfl
  | .const _, some (.type _), some (.type _), ht, ht' =>
    rw [Resolves.agree h ht ht' (fun _ => hnames) (and_eq_true_iff.1 hplain).1]

end Agree

/-! ### Modules -/

section Modules

variable {program : Program} {name : String} {imports : List ImportBinding} {library : Library}
  {options : AnalysisOptions}

def Findings.methodSignature? (f : Findings) (target name : String) : Option Signature :=
  (f.symbols.global? target).bind fun p => p.2.kind.nominalInfo?.bind fun info =>
    (info.methods.lookup name).map (·.signature)

lemma Findings.HasMethodWith.exists_signature {f : Findings} {target method} {P : MethodInfo → Prop}
    (h : f.HasMethodWith target method P) : ∃ m, f.methodSignature? target method = some m.signature ∧ P m := by
  obtain ⟨id, s, info, m, hglobal, hinfo, hlookup, hP⟩ := h
  exact ⟨m, by simp [methodSignature?, hglobal, hinfo, hlookup], hP⟩

/-- What is found in a module without problems follows the rules. -/
lemma resolved_findingsOf (S : Sizing) (hnil : (findingsOf program name imports library options).problems = []) :
    let decls := program.decls
    let f := findingsOf program name imports library options
    let C := S.context imports library decls
    C.Settled f ∧ (∀ d ∈ decls, (d.symbol? name).isSome →
      ∃ names : TypeNames, names.Among name decls d.paramNames ∧
        d.Resolved C names (f.contents? d.name.node)) ∧
      ∀ block, .impl block ∈ decls → ∀ m ∈ block.methods, f.HasMethodWith block.target.node m.node.name.node
        (m.node.Gives C name decls block.target.node) := by
  intro decls f C
  let σ := options.setting name program.package.node library
  obtain ⟨hcollect, hconsts, -⟩ := clean_of_problems_eq_nil hnil
  obtain ⟨hregistered, hshapes⟩ := clean_phases hcollect
  let registered := registerNames decls σ ((imports.forM fun i => declareFirst i.symbol) σ {}).2
  let τ : Setting := { σ with constants := constantsOf registered.1 }
  have hbodies : Findings.Steps _ f := steps_findingsOf program name imports library options
  have hsteps : Findings.Steps (collectDeclarations imports decls σ {}).2 f :=
    (steps_constantsFolded σ imports decls).trans hbodies
  have hsound := sound_collectDeclarations imports decls σ
  obtain ⟨hσ, hknowing⟩ := knowing_registerNames (S := S) (σ := σ) (rfl : σ.library = library) hcollect
  have hmodule := atModule_registerNames decls σ _ (atModule_imports imports σ {} (atModule_initial σ.module))
  have hstart : registered.2.Ready S imports library decls registered.1 τ :=
    ⟨hσ, hknowing, hmodule, fun hd hs => mem_registerNames hregistered hd hs, fun hd => mem_of_registerNames hd⟩
  refine ⟨?_, fun d hd hsym => ?_, fun block hblock m hm => ?_⟩
  · exact Settled.steps ((settled_checkConstDeclarations (S := S) (σ := σ) rfl hcollect).2 hconsts) hbodies
  · obtain ⟨s, hs⟩ := Option.isSome_iff_exists.1 hsym
    obtain ⟨id, hid⟩ := mem_registerNames hregistered hd hs
    have hresolved := forall_collectShapes (σ := τ) (P := fun d x => ∃ names : TypeNames,
        names.Among name decls d.paramNames ∧ d.Resolved C names x) (fun _ hf => hf.knowing.declares)
      (fun d id f hd (hf : f.Ready S imports library decls registered.1 τ) hclean => hf.resolved hd hclean) hstart
      hshapes _ hid
    rw [hsteps.contents?_eq hsound]
    exact hresolved
  · have hsized := knowing_checkSizes (σ := τ) hσ hknowing hshapes
    have hready : (decls.forM checkSize τ
      ((registered.1.forM fun p => resolveShape p.1 p.2) τ registered.2).2).2.Ready
        S imports library decls registered.1 τ := by
      refine ⟨hσ, hsized, hmodule.stays ?_ hsized.declares.sound, hstart.named, hstart.written⟩
      exact ((gathers_keepsTable.resolveShapes _).bind fun _ =>
        gathers_keepsTable.forM gathers_keepsTable.checkSize) τ registered.2
    refine Findings.HasMethodWith.steps ?_ hsound hsteps
    exact hasMethodWith_forM_collectMethods (fun d hd f hf hclean => hf.next hd hclean)
      (fun f hf _ hclean => hf.hasMethodWith hclean hm) hready.atModule.sound hready (clean_collectShapes hshapes).2.2
      hblock

lemma mem_of_constant? {S : Sizing} {decls n} {c : ConstDecl}
    (hc : (S.context imports library decls).constant? n = some c) : .const c ∈ decls ∧ c.name.node = n := by
  obtain ⟨d, hd, hconst⟩ := mem_filterMap.1 (mem_of_find?_eq_some hc)
  cases d with
  | const _ =>
    cases hconst
    exact ⟨hd, by simpa using List.find?_some hc⟩
  | _ => cases hconst

lemma exists_constant? (S : Sizing) {decls c} (hc : .const c ∈ decls) :
    ∃ c', (S.context imports library decls).constant? c.name.node = some c' := by
  refine Option.isSome_iff_exists.1 (List.find?_isSome.2 ⟨c, mem_filterMap.2 ⟨_, hc, rfl⟩, ?_⟩)
  exact decide_eq_true rfl

lemma agrees_context {decls decls'} (hmem : ∀ d, d ∈ decls' ↔ d ∈ decls)
    (hplain : ∀ d ∈ decls, d.isPlain = true)
    (hunique : ∀ c c', .const c ∈ decls → .const c' ∈ decls → c.name.node = c'.name.node → c = c') :
    (Sizing.possible.context imports library decls).Agrees (Sizing.possible.context imports library decls') := by
  refine ⟨rfl, rfl, fun {n c c'} hc hc' => ?_, id, id⟩
  obtain ⟨hd, hname⟩ := mem_of_constant? hc
  obtain ⟨hd', hname'⟩ := mem_of_constant? hc'
  exact ⟨hunique c c' hd ((hmem _).mp hd') (hname.trans hname'.symm), (and_eq_true_iff.1 (hplain _ hd)).2⟩

/-- In a module without problems in which no constant expression measures a struct or enum, the order of declarations
does not matter: constants have the same values, and signatures, fields, variants and types are the same. -/
theorem findingsOf_perm {ds : List (Spanned Declaration)} (hperm : ds.Perm program.declarations)
    (hplain : ∀ d ∈ program.declarations, d.node.isPlain = true)
    (hnil : (findingsOf program name imports library options).problems = [])
    (hnil' : (findingsOf { program with declarations := ds } name imports library options).problems = []) :
    let decls := program.declarations.map (·.node)
    let f := findingsOf program name imports library options
    let g := findingsOf { program with declarations := ds } name imports library options
    (∀ c, .const c ∈ decls → g.constValues.lookup c.name.node = f.constValues.lookup c.name.node) ∧
      (∀ d ∈ decls, (d.symbol? name).isSome →
        ∃ x, f.contents? d.name.node = some x ∧ g.contents? d.name.node = some x) ∧
      ∀ block, .impl block ∈ decls → ∀ m ∈ block.methods, ∃ sig,
        f.methodSignature? block.target.node m.node.name.node = some sig ∧
          g.methodSignature? block.target.node m.node.name.node = some sig := by
  intro decls f g
  obtain ⟨hsettled, hresolved, hmethods⟩ := resolved_findingsOf .possible hnil
  obtain ⟨hsettled', hresolved', hmethods'⟩ := resolved_findingsOf .possible hnil'
  have hmem (d : Declaration) : d ∈ ds.map (·.node) ↔ d ∈ decls := (hperm.map _).mem_iff
  have hplain (d : Declaration) (hd : d ∈ decls) : d.isPlain = true := by
    obtain ⟨e, he, rfl⟩ := List.mem_map.mp hd
    exact hplain e he
  have hunique {d d' : Declaration} (hd : d ∈ decls) (hd' : d' ∈ decls) (hsym : (d.symbol? name).isSome)
      (hsym' : (d'.symbol? name).isSome) (hname : d.name.node = d'.name.node) : d = d' := by
    obtain ⟨s, hs⟩ := Option.isSome_iff_exists.mp hsym
    obtain ⟨s', hs'⟩ := Option.isSome_iff_exists.mp hsym'
    exact declaration_eq_of_name_eq (σ := options.setting name program.package.node library)
      (clean_of_problems_eq_nil hnil).1 hd hd' hs hs' hname
  have hagrees : (Sizing.possible.context imports library decls).Agrees
      (Sizing.possible.context imports library (ds.map (·.node))) :=
    agrees_context hmem hplain fun c c' hc hc' hname => Declaration.const.inj (hunique hc hc' rfl rfl hname)
  have hnames {names names' : TypeNames} {params : List String} (hn : names.Among name decls params)
      (hn' : names'.Among name (ds.map (·.node)) params) : names.Agrees names' :=
    fun _ _ _ _ ht ht' => agrees_typeNamed hmem params _ _ _ _ (hn _ _ _ ht) (hn' _ _ _ ht')
  refine ⟨fun c hc => ?_, fun d hd hsym => ?_, fun block hblock m hm => ?_⟩
  · obtain ⟨c₁, hc₁⟩ := exists_constant? .possible hc
    obtain ⟨c₂, hc₂⟩ := exists_constant? .possible ((hmem _).mpr hc)
    obtain ⟨rfl, hvalue⟩ := hagrees.constant hc₁ hc₂
    exact ((hsettled _ _ hc₁).2.agree hagrees (hsettled' _ _ hc₂).2 hvalue).symm
  · obtain ⟨names, hn, hx⟩ := hresolved d hd hsym
    obtain ⟨names', hn', hx'⟩ := hresolved' d ((hmem d).mpr hd) hsym
    have heq := hx.agree hagrees (hnames hn hn') hx' (hplain d hd)
    cases hf : f.contents? d.name.node with
    | some x => exact ⟨x, rfl, by rw [← hf]; exact heq.symm⟩
    | none =>
      rw [hf] at hx
      cases d <;> exact hx.elim
  · obtain ⟨mi, hsig, d, hd, hname, hsym, names, hn, hresolved⟩ := (hmethods block hblock m hm).exists_signature
    obtain ⟨mi', hsig', d', hd', hname', hsym', names', hn', hresolved'⟩ :=
      (hmethods' block ((hmem _).mpr hblock) m hm).exists_signature
    obtain rfl := hunique hd ((hmem _).mp hd') hsym hsym' (hname.trans hname'.symm)
    have heq := hresolved.agree hagrees (hnames hn hn') hresolved'
      (List.all_eq_true.mp (hplain _ hblock) m hm)
    exact ⟨_, hsig, heq ▸ hsig'⟩

end Modules

/-- A constant, and a function with a parameter whose array size it is. -/
def moduleOfArray : Program :=
  let size : Expr := .binary { start := 1 } (.literal { start := 2 } (.int 1)) .add (.literal { start := 3 } (.int 2))
  let param : Param := ⟨default, [], "xs", .array default (.primitive default .u8) (.ident { start := 4 } "N")⟩
  { package := ⟨"t", default⟩
    imports := []
    declarations := [⟨.const ⟨[], .pub, ⟨"N", { start := 5 }⟩, .primitive default .usize, size⟩, default⟩,
      ⟨.function ⟨[], .pub, ⟨"f", { start := 6 }⟩, [], none, [param], .primitive default .void, []⟩,
        default⟩] }

theorem findingsOf_perm_array :
    let p := moduleOfArray
    let f := findingsOf p "t" [] [] {}
    let g := findingsOf { p with declarations := p.declarations.reverse } "t" [] [] {}
    ∀ d ∈ p.declarations.map (·.node), ∃ x, f.contents? d.name.node = some x ∧
      g.contents? d.name.node = some x := by
  intro p f g d hd
  have hsym : ∀ d ∈ p.declarations.map (·.node), (d.symbol? "t").isSome := by decide +kernel
  exact (findingsOf_perm (List.reverse_perm p.declarations) (by decide +kernel) (by decide +kernel)
    (by decide +kernel)).2.1 d hd (hsym d hd)

/-- The size of a struct is 0 where a shape before it asks for it, and 8 after it. -/
theorem shapesOf_order_matters :
    let struct (name field : String) (type : TypeExpr) : Declaration :=
      .struct ⟨[], .pub, ⟨name, default⟩, [], [⟨default, [], none, field, type⟩]⟩
    let t := struct "T" "a" (.array default (.primitive default .u8) (.ident { start := 1 } "N"))
    let s := struct "S" "x" (.primitive default .i64)
    let n := .const ⟨[], .pub, ⟨"N", default⟩, .primitive default .usize,
      .sizeof { start := 2 } (.named default "S" [])⟩
    let found (decls : List Declaration) :=
      let σ := ({} : AnalysisOptions).setting "t" "t" []
      shapesOf decls { σ with constants := constantsOf (registerNames decls σ {}).1 }
    [t, s, n].Perm [s, t, n] ∧ (found [t, s, n]).constValues.lookup "N" = some (.int 0) ∧
      (found [s, t, n]).constValues.lookup "N" = some (.int 8) ∧ (found [t, s, n]).problems = [] ∧
      (found [s, t, n]).problems = [] :=
  ⟨.swap .., by decide +kernel, by decide +kernel, by decide +kernel, by decide +kernel⟩

end SourceCheck
