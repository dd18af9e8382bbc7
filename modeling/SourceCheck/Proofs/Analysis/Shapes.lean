import SourceCheck.Proofs.Analysis.TypeScope
import SourceCheck.Proofs.Analysis.Signatures

/-!
# Shapes mention their own type parameters

After collection, the types of each declaration mention no type parameters but its own, as written: `Symbol.Origin`
says from which declaration they come.
-/

namespace SourceCheck

open Check TypeScope List SymbolTable Findings

variable {id : Nat} {t : SymbolTable} {d : Declaration}

/-! ### Where type parameters come from -/

def Declaration.typeParams : Declaration → List String
  | .struct decl => decl.typeParams.map (·.node)
  | .enum decl => decl.typeParams.map (·.node)
  | _ => []

/-- A declaration with the name and place of the function, one without type parameters, or a predeclared function. -/
inductive Signature.Origin (decls : List Declaration) (s : Symbol) (sig : Signature) : Prop where
  | declared {d : Declaration} {f : FunctionDecl} :
    d ∈ decls →
    f ∈ d.functions →
    f.name = ⟨s.name, s.span⟩ →
    sig.typeParams = f.typeParams.map (·.node) →
    Origin decls s sig
  | plain : sig.typeParams = [] → Origin decls s sig
  | predeclared (p : Predeclared) :
    s.scope ≠ moduleScope →
    s.name = p.spelling →
    sig ∈ p.signatures.map Predeclared.signatureInfo →
    Origin decls s sig

def MethodInfo.Origin (decls : List Declaration) (owner name : String) (m : MethodInfo) : Prop :=
  ∃ block, .impl block ∈ decls ∧ block.target.node = owner ∧
    ∃ f ∈ block.methods.map (·.node), f.name = ⟨name, m.span⟩ ∧
      m.signature.typeParams = f.typeParams.map (·.node)

/-- It comes from a declaration of its name, and its methods from `impl` blocks. -/
structure NominalInfo.Origin (decls : List Declaration) (name : String) (info : NominalInfo) : Prop where
  declared : ∃ d ∈ decls, d.name.node = name ∧ info.typeParams = d.typeParams
  methods : ∀ m ∈ info.methods, m.2.Origin decls name m.1

def Symbol.Origin (imports : List ImportBinding) (decls : List Declaration) (s : Symbol) : Prop :=
  match s.kind with
  | .function info => ∀ sig ∈ info.signatures, sig.Origin decls s
  | .struct info _ | .enum info _ => info.Origin decls s.name
  | .module _ target => ∃ i ∈ imports, i.target = target
  | .variable .. | .typeParam | .const .. => True

/-- All declarations are well-formed and have an origin. -/
structure Described (S : TypeScope) (imports : List ImportBinding) (decls : List Declaration)
    (t : SymbolTable) : Prop where
  knows : S.Knows t
  isOpen : t.Open
  origin : ∀ id s, t.get? id = some s → s.Origin imports decls

section

variable {S : TypeScope} {imports : List ImportBinding} {decls : List Declaration} {σ : Setting} {f g : Findings}

lemma Symbol.origin_of_isLocal {s : Symbol} (h : s.kind.isLocal = true) : s.Origin imports decls := by
  unfold Symbol.Origin
  match s.kind, h with
  | .variable .., _ | .typeParam, _ => exact trivial

lemma Findings.Steps.origin (hsteps : Steps f g)
    (h : ∀ id s, f.symbols.get? id = some s → s.Origin imports decls) :
    ∀ id s, g.symbols.get? id = some s → s.Origin imports decls :=
  hsteps.forall_symbols (fun _ hs => Symbol.origin_of_isLocal hs) (fun _ _ _ _ _ _ => trivial) h

lemma Described.steps (h : Described S imports decls f.symbols) (hsteps : Steps f g)
    (hr : f.symbols.Restores g.symbols) : Described S imports decls g.symbols where
  knows := h.knows.steps hsteps fun name s hs =>
    h.knows.visible name s (by rwa [hr.symbol? h.knows.sound h.isOpen] at hs)
  isOpen := hr.isOpen h.isOpen
  origin := hsteps.origin h.origin

def SymbolKind.isShape : SymbolKind → Bool
  | .function _ | .struct .. | .enum .. | .const .. => true
  | .variable .. | .typeParam | .module .. => false

lemma TypeScope.local_of_isShape {k} (h : k.isShape = true) (name) : S.Local name k := by
  match k, h with
  | .function _, _ | .struct .., _ | .enum .., _ | .const .., _ => exact trivial

/-- What a declaration may be changed to: a well-formed one with an origin. -/
structure Symbol.Reshaped (S : TypeScope) (imports : List ImportBinding) (decls : List Declaration) (s : Symbol)
    (k : SymbolKind) : Prop where
  isShape : k.isShape = true
  kind : S.Kind S.module s.name k
  origin : Symbol.Origin imports decls { s with kind := k }

lemma described_setKind (h : Described S imports decls f.symbols) {k}
    (hsound : (setKind id k σ f).2.symbols.Sound S.module)
    (hk : ∀ s, f.symbols.get? id = some s → k s.kind = s.kind ∨ s.Reshaped S imports decls (k s.kind)) :
    Described S imports decls (setKind id k σ f).2.symbols := by
  have hcases {i : Nat} {s : Symbol} (hget : (setKind id k σ f).2.symbols.get? i = some s) :
      f.symbols.get? i = some s ∨ ∃ s₀, f.symbols.get? i = some s₀ ∧ s = { s₀ with kind := k s₀.kind } ∧
        s₀.Reshaped S imports decls (k s₀.kind) := by
    have hrun : (setKind id k σ f).2.symbols.get? i = _ := get?_modifySymbol _ _ _ _
    rw [hrun] at hget
    split at hget
    · rename_i hi
      obtain ⟨s₀, hs₀, rfl⟩ := Option.map_eq_some_iff.1 hget
      obtain hsame | hnew := hk s₀ (hi ▸ hs₀)
      · exact .inl (by rw [hsame, hs₀])
      · exact .inr ⟨s₀, hs₀, rfl, hnew⟩
    · exact .inl hget
  refine ⟨⟨hsound, fun i s hget => ?_, fun i s hget path target hmodule => ?_, fun name s hs => ?_⟩, h.isOpen,
    fun i s hget => ?_⟩
  · obtain hold | ⟨s₀, -, rfl, hnew⟩ := hcases hget
    · exact h.knows.kinds i s hold
    · exact hnew.kind
  · obtain hold | ⟨s₀, -, rfl, hnew⟩ := hcases hget
    · exact h.knows.imported i s hold path target hmodule
    · have hshape := hnew.isShape
      rw [show k s₀.kind = .module path (some target) from hmodule] at hshape
      cases hshape
  · obtain ⟨i, hlookup, hget⟩ := Option.bind_eq_some_iff.1 hs
    have hfound : f.symbols.lookup name = some i :=
      (lookup_modifySymbol f.symbols id _ name).symm.trans hlookup
    obtain hold | ⟨s₀, -, rfl, hnew⟩ := hcases hget
    · exact h.knows.visible name s (by rw [symbol?, hfound, Option.bind_some, hold])
    · exact local_of_isShape hnew.isShape name
  · obtain hold | ⟨s₀, -, rfl, hnew⟩ := hcases hget
    · exact h.origin i s hold
    · exact hnew.origin

end

/-! ### Shapes -/

lemma infers_checkSize_frame {S : TypeScope} (d) : Heeds S.frame (checkSize d) := by
  refine runs_read_bind fun σ σ' hσ => ?_
  rw [hσ.1]
  cases d with
  | struct | enum =>
    refine runs_get_bind fun f f' hf => runs_read_bind fun τ τ' hτ => ?_
    rw [hf.1, hτ.1]
    exact runs_reportIf _ _ _ rfl
  | _ => exact runs_pure trivial

/-! ### Declarations in the scope of a module -/

/-- The scope of a module's declarations, without type parameters. -/
def TypeScope.atModule (module : String) (declared : Nominal → List String) : TypeScope where
  module := module
  params _ := False
  declared := declared
  generic _ := true
  imports _ := True
  place _ := False

def TypeScope.withParams (S : TypeScope) (names : List String) : TypeScope :=
  { S with params := (· ∈ names) }

lemma TypeScope.inner_withParams (module) (declared : Nominal → List String) (names) :
    (atModule module declared).Inner ((atModule module declared).withParams names) where
  module := rfl
  declared := rfl
  imports := rfl
  params _ := False.elim
  generic _ _ := .inl rfl

section

variable {own : String} {declared : Nominal → List String} {imports : List ImportBinding}
  {decls : List Declaration} {σ : Setting} {f : Findings}

lemma TypeScope.Noted.exprTypes_eq_nil {S : TypeScope} {g : Findings} (h : S.Noted f g)
    (hplace : ∀ k, ¬ S.place k) (hf : f.exprTypes = []) : g.exprTypes = [] := by
  rw [eq_nil_iff_forall_not_mem]
  intro entry hentry
  obtain hold | hnew := h entry hentry
  · rw [hf] at hold
    exact not_mem_nil hold
  · exact hplace _ hnew.1

structure Collecting (own : String) (declared : Nominal → List String) (imports : List ImportBinding)
    (decls : List Declaration) (entered : List (Declaration × Nat)) (f : Findings) : Prop where
  described : Described (atModule own declared) imports decls f.symbols
  named : ∀ p ∈ entered, ∃ s, f.symbols.get? p.2 = some s ∧ s.name = p.1.name.node ∧ s.span = p.1.name.span
  untyped : f.exprTypes = []

variable {entered : List (Declaration × Nat)}

lemma formed_of_written {names t} (h : ((atModule own declared).withParams names).frame.Writes t) :
    t.Formed (fun x => False ∨ x ∈ names) (atModule own declared).nominal :=
  h.imp (fun _ => .inr) fun _ _ => And.left

section

variable (h : Collecting own declared imports decls entered f)

include h

lemma Collecting.steps {g}
    (hsteps : Steps f g) (hr : f.symbols.Restores g.symbols) (htypes : g.exprTypes = []) :
    Collecting own declared imports decls entered g where
  described := h.described.steps hsteps hr
  named p hp := by
    obtain ⟨s, hs, hname⟩ := h.named p hp
    exact ⟨s, hr.kept p.2 s hs, hname⟩
  untyped := htypes

lemma Collecting.infers {α : Type} {c} {Q : α → Prop}
    (hσ : (atModule own declared).Reads σ) (hc : Infers (atModule own declared).frame c Q) (hlocal : Local c) :
    Q (c σ f).1 ∧ Collecting own declared imports decls entered (c σ f).2 := by
  have hends := hc ⟨rfl, hσ⟩ ⟨rfl, h.described.knows, h.described.isOpen⟩
  refine ⟨hends.result, h.steps (hlocal σ f) (hends.symbols trivial ▸ .refl _) ?_⟩
  exact hends.goes.2.exprTypes_eq_nil (fun _ => False.elim) h.untyped

lemma Collecting.withTypeParams {α : Type} {step} {Q : α → Prop}
    (hσ : (atModule own declared).Reads σ) (params) (hlocal : Local step)
    (hstep : Infers ((atModule own declared).withParams (params.map (·.node))).frame step Q) :
    Q (SourceCheck.withTypeParams params step σ f).1 ∧
      Collecting own declared imports decls entered (SourceCheck.withTypeParams params step σ f).2 := by
  have hinner := inner_withParams own declared (params.map (·.node))
  have hsteps := local_withTypeParams params hlocal σ f
  unfold SourceCheck.withTypeParams at hsteps ⊢
  split
  · rename_i hempty
    rw [if_pos hempty] at hsteps
    have hends := hstep ⟨rfl, hinner.reads hσ⟩ ⟨rfl, hinner.knows h.described.knows, h.described.isOpen⟩
    refine ⟨hends.result, h.steps hsteps (hends.symbols trivial ▸ .refl _) ?_⟩
    exact hends.goes.2.exprTypes_eq_nil (fun _ => False.elim) h.untyped
  · rename_i hfull
    rw [if_neg hfull] at hsteps
    have hscoped := (runs_forM fun (p : Name) hp =>
      scoped_declare (s := typeParamSymbol p) ⟨rfl, mem_map_of_mem hp, rfl⟩).bind fun _ _ => hstep.scoped
    obtain ⟨hQ, -, hrestores, hnoted⟩ := hscoped.restores .block (hinner.reads hσ)
      (hinner.knows h.described.knows) h.described.isOpen
    exact ⟨hQ, h.steps hsteps hrestores (hnoted.exprTypes_eq_nil (fun _ => False.elim) h.untyped)⟩

lemma collecting_setKind {k} (hsound : (setKind id k σ f).2.symbols.Sound own)
    (hk : ∀ s, f.symbols.get? id = some s →
      k s.kind = s.kind ∨ s.Reshaped (atModule own declared) imports decls (k s.kind)) :
    Collecting own declared imports decls entered (setKind id k σ f).2 where
  described := described_setKind h.described hsound hk
  named p hp := by
    obtain ⟨s, hs, hname⟩ := h.named p hp
    have hrun : (setKind id k σ f).2.symbols.get? p.2 = _ := get?_modifySymbol _ _ _ _
    rw [hrun, hs]
    split
    · exact ⟨_, rfl, hname⟩
    · exact ⟨s, rfl, hname⟩
  untyped := h.untyped

lemma collecting_withSignature {sig}
    (hsound : (setKind id (·.withSignature sig) σ f).2.symbols.Sound own)
    (hsig : sig.Formed False (atModule own declared).nominal [])
    (horigin : ∀ s, f.symbols.get? id = some s → ∀ k, sig.Origin decls { s with kind := k }) :
    Collecting own declared imports decls entered (setKind id (·.withSignature sig) σ f).2 := by
  refine collecting_setKind h hsound fun s hs => ?_
  cases hk : s.kind with
  | function info =>
    refine .inr ⟨rfl, ⟨fun sig' hsig' => ?_, nofun, fun _ _ => .inl rfl⟩, fun sig' hsig' => ?_⟩
    · rw [mem_singleton.1 hsig']
      exact hsig
    · rw [mem_singleton.1 hsig']
      exact horigin s hs _
  | _ => exact .inl rfl

lemma Collecting.typeParams_eq
    (hdeclared : ∀ p ∈ entered, declared ⟨own, p.1.name.node⟩ = p.1.typeParams) (hp : (d, id) ∈ entered) {s}
    (hs : f.symbols.get? id = some s) :
    ∀ info, s.kind.nominalInfo? = some info → info.typeParams = d.typeParams := by
  intro info hinfo
  obtain ⟨s', hs', hname, -⟩ := h.named _ hp
  obtain rfl := Option.some.inj (hs'.symm.trans hs)
  obtain ⟨hnominal, htypeParams⟩ := (h.described.knows.kinds id s' hs).nominal info hinfo
  rw [htypeParams, hnominal, hname]
  exact hdeclared _ hp

lemma collecting_resolveShape (hσ : (atModule own declared).Reads σ) (hdecls : ∀ p ∈ entered, p.1 ∈ decls)
    (hdeclared : ∀ p ∈ entered, declared ⟨own, p.1.name.node⟩ = p.1.typeParams)
    (hp : (d, id) ∈ entered) : Collecting own declared imports decls entered (resolveShape d id σ f).2 := by
  have hsound := gathers_keeps.resolveShape d id σ f (hσ.module.symm ▸ h.described.knows.sound)
  rw [hσ.module] at hsound
  cases d with
  | function decl =>
    obtain ⟨⟨htypeParams, hsig⟩, hg⟩ := h.withTypeParams hσ decl.typeParams
      (local_resolveSignature decl.typeParams decl.params decl.returnType) (infers_resolveSignature _ _ _)
    rw [resolveShape, run_bind] at hsound ⊢
    refine collecting_withSignature hg hsound ?_ fun s hs k => ?_
    · rw [Signature.Formed, htypeParams]
      exact ⟨fun p hp => formed_of_written (hsig.1 p hp), formed_of_written hsig.2⟩
    · obtain ⟨s', hs', hname, hspan⟩ := hg.named _ hp
      obtain rfl := Option.some.inj (hs'.symm.trans hs)
      refine .declared (hdecls _ hp) mem_cons_self ?_ htypeParams
      rw [hname, hspan]
      rfl
  | externFunction decl =>
    obtain ⟨⟨htypeParams, hsig⟩, hg⟩ := h.infers hσ (infers_resolveSignature [] decl.params decl.returnType)
      (local_resolveSignature _ _ _)
    rw [resolveShape, run_bind] at hsound ⊢
    refine collecting_withSignature hg hsound ?_ fun _ _ _ => .plain htypeParams
    exact ⟨fun p hp => (hsig.1 p hp).imp (fun _ => False.elim) fun _ _ => And.left,
      hsig.2.imp (fun _ => False.elim) fun _ _ => And.left⟩
  | struct decl =>
    obtain ⟨hfields, hg⟩ := h.withTypeParams hσ decl.typeParams (local_resolveFields [] decl.fields)
      (infers_resolveFields [] decl.fields)
    rw [resolveShape, run_bind] at hsound ⊢
    refine collecting_setKind hg hsound fun s hs => ?_
    have hkind := hg.described.knows.kinds id s hs
    have horigin := hg.described.origin id s hs
    have hparams := hg.typeParams_eq hdeclared hp hs
    unfold Symbol.Origin at horigin
    cases hk : s.kind with
    | struct info old =>
      rw [hk] at hkind horigin hparams
      refine .inr ⟨rfl, ⟨⟨hkind.formed.1, fun field hfield => ?_⟩, hkind.nominal,
        fun _ _ => .inl rfl⟩, horigin⟩
      rw [hparams info rfl]
      exact formed_of_written (hfields field hfield)
    | _ => exact .inl rfl
  | enum decl =>
    obtain ⟨hvariants, hg⟩ := h.withTypeParams hσ decl.typeParams
      (local_resolveVariants decl.name.node [] decl.variants) (infers_resolveVariants _ [] decl.variants)
    rw [resolveShape, run_bind] at hsound ⊢
    refine collecting_setKind hg hsound fun s hs => ?_
    have hkind := hg.described.knows.kinds id s hs
    have horigin := hg.described.origin id s hs
    have hparams := hg.typeParams_eq hdeclared hp hs
    unfold Symbol.Origin at horigin
    cases hk : s.kind with
    | enum info old =>
      rw [hk] at hkind horigin hparams
      refine .inr ⟨rfl, ⟨⟨hkind.formed.1, fun v hv => ?_⟩, hkind.nominal, fun _ _ => .inl rfl⟩, horigin⟩
      rw [hparams info rfl]
      exact (hvariants v hv).imp (fun _ => .inr) fun _ _ => And.left
    | _ => exact .inl rfl
  | const decl =>
    obtain ⟨ht, hg⟩ := h.infers hσ (infers_resolveType decl.type) (local_resolveType _)
    rw [resolveShape, run_bind] at hsound ⊢
    refine collecting_setKind hg hsound fun s hs => ?_
    cases s.kind with
    | const old value =>
      refine .inr ⟨rfl, ⟨ht.imp (fun _ hx => hx) fun _ _ => And.left, ?_, fun _ _ => .inl rfl⟩, trivial⟩
      rintro _ ⟨⟩
    | _ => exact .inl rfl
  | impl block => exact h

lemma Collecting.resolveMethods (hσ : (atModule own declared).Reads σ) (owner seen fs) :
    (∀ m ∈ (resolveMethods owner seen fs σ f).1,
      m.2.signature.Formed False (atModule own declared).nominal (owner.map (·.node)) ∧
        ∃ d ∈ fs, d.name = ⟨m.1, m.2.span⟩ ∧ m.2.signature.typeParams = d.typeParams.map (·.node)) ∧
      Collecting own declared imports decls entered (resolveMethods owner seen fs σ f).2 := by
  induction fs generalizing seen f with
  | nil => exact ⟨fun m hm => absurd hm not_mem_nil, h⟩
  | cons d fs ih =>
    unfold SourceCheck.resolveMethods
    cases seen.lookup d.name.node with
    | some previous =>
      obtain ⟨-, hg⟩ := h.infers hσ (runs_report (.duplicate d.name.node previous) d.name.span rfl)
        (local_report _ _)
      obtain ⟨hmethods, hrest⟩ := ih hg seen
      refine ⟨fun m hm => ?_, hrest⟩
      obtain ⟨hformed, e, he, hname⟩ := hmethods m hm
      exact ⟨hformed, e, mem_cons_of_mem _ he, hname⟩
    | none =>
      obtain ⟨⟨htypeParams, hsig⟩, hg⟩ := h.withTypeParams hσ (owner ++ d.typeParams)
        (local_resolveSignature d.typeParams d.params d.returnType) (infers_resolveSignature _ _ _)
      have hformed : Signature.Formed False (atModule own declared).nominal (owner.map (·.node))
          (SourceCheck.withTypeParams (owner ++ d.typeParams)
            (resolveSignature d.typeParams d.params d.returnType) σ f).1 := by
        rw [Signature.Formed, htypeParams, ← map_append]
        exact ⟨fun p hp => formed_of_written (hsig.1 p hp), formed_of_written hsig.2⟩
      obtain ⟨hmethods, hrest⟩ := ih hg ((d.name.node, d.name.span) :: seen)
      refine ⟨fun m hm => ?_, hrest⟩
      obtain rfl | hm := mem_cons.1 hm
      · exact ⟨hformed, d, mem_cons_self, rfl, htypeParams⟩
      · obtain ⟨hformed, e, he, hname⟩ := hmethods m hm
        exact ⟨hformed, e, mem_cons_of_mem _ he, hname⟩

lemma collecting_addMethods {s info} (hs : f.symbols.get? id = some s) (hinfo : s.kind.nominalInfo? = some info)
    {methods}
    (hformed : ∀ m ∈ methods, m.2.signature.Formed False (atModule own declared).nominal info.typeParams)
    (horigin : ∀ m ∈ methods, m.2.Origin decls s.name m.1) (hσ : σ.module = own) :
    Collecting own declared imports decls entered (setKind id (·.addMethods methods) σ f).2 := by
  have hsound := gathers_keeps.setKind id (SymbolKind.reshaping_addMethods methods) σ f
    (hσ.symm ▸ h.described.knows.sound)
  rw [hσ] at hsound
  refine collecting_setKind h hsound fun s' hs' => ?_
  obtain rfl := Option.some.inj (hs'.symm.trans hs)
  have hkind := h.described.knows.kinds id s' hs
  have hold := h.described.origin id s' hs
  unfold Symbol.Origin at hold
  cases hk : s'.kind with
  | struct i fields | enum i fields =>
    rw [hk] at hkind hold hinfo
    obtain rfl : i = info := Option.some.inj hinfo
    refine .inr ⟨rfl, ⟨⟨fun m hm => ?_, hkind.formed.2⟩, fun info' hinfo' => ?_, fun _ _ => .inl rfl⟩,
      hold.declared, fun m hm => ?_⟩
    · obtain hm | hm := mem_append.1 hm
      · exact hkind.formed.1 m hm
      · exact hformed m hm
    · cases hinfo'
      exact hkind.nominal i rfl
    · obtain hm | hm := mem_append.1 hm
      · exact hold.methods m hm
      · exact horigin m hm
  | _ => exact .inl rfl

lemma collecting_collectImpl (hσ : (atModule own declared).Reads σ) {block} (hblock : .impl block ∈ decls) :
    Collecting own declared imports decls entered (collectImpl block σ f).2 := by
  obtain hrun | ⟨id, s, info, hglobal, hinfo⟩ := collectImpl_cases block σ f
  · rw [hrun]
    exact (h.infers hσ (runs_report _ _ rfl) (local_report _ _)).2
  · rw [run_collectImpl hglobal hinfo, run_bind]
    obtain ⟨hmethods, hg⟩ := h.resolveMethods hσ (info.typeParams.map fun p => ⟨p, block.target.span⟩) []
      (block.methods.map (·.node))
    have hsteps := local_resolveImpl block info σ f
    have hlater := hsteps.global?_eq h.described.knows.sound (Symbol.fixed_of_nominal hinfo) hglobal
    have hname := h.described.knows.sound.name_eq hglobal
    refine (Collecting.infers (collecting_addMethods hg (get?_of_global? hlater) hinfo
      (fun m hm => ?_) (fun m hm => ?_) hσ.module) hσ (runs_forM fun m _ => ?_)
      (local_reportSeconds info _)).2
    · have hformed := (hmethods m (mem_filter.1 hm).1).1
      simpa only [map_map, Function.comp_def, map_id'] using hformed
    · obtain ⟨-, d, hd, hd'⟩ := hmethods m (mem_filter.1 hm).1
      exact ⟨block, hblock, hname.symm, d, hd, hd'⟩
    · unfold reportSecond
      split
      · exact runs_report _ _ rfl
      · exact runs_pure trivial

lemma collecting_collectShapes (hσ : (atModule own declared).Reads σ) (hdecls : ∀ p ∈ entered, p.1 ∈ decls)
    (hdeclared : ∀ p ∈ entered, declared ⟨own, p.1.name.node⟩ = p.1.typeParams) :
    Collecting own declared imports decls entered (collectShapes decls entered σ f).2 := by
  have hshapes := forM_induction (k := fun p : Declaration × Nat => resolveShape p.1 p.2)
    (fun p hp f hf => collecting_resolveShape hf hσ hdecls hdeclared hp) h
  have hsizes := forM_induction (P := Collecting own declared imports decls entered) (l := decls)
    (fun d _ f hf => (hf.infers hσ (infers_checkSize_frame d) (local_checkSize d)).2) hshapes
  refine forM_induction (fun d hd f hf => ?_) hsizes
  cases d with
  | impl block => exact collecting_collectImpl hf hσ hd
  | _ => exact hf

end

end

/-! ### Names -/

/-- A symbol before shapes are resolved: predeclared, an import, or a declaration under its name. -/
inductive Entered (own : String) (imports : List ImportBinding) (decls : List Declaration) (t : SymbolTable)
    (id : Nat) (s : Symbol) : Prop where
  | predeclared (p : Predeclared) : s = { p.symbol with scope := rootScope } → Entered own imports decls t id s
  | imported {i : ImportBinding} : i ∈ imports → s.kind = i.symbol.kind → Entered own imports decls t id s
  | declared {d : Declaration} {s₀ : Symbol} :
    d ∈ decls →
    d.symbol? own = some s₀ →
    s = { s₀ with scope := moduleScope } →
    t.global? s.name = some (id, s) →
    Entered own imports decls t id s

variable {s : Symbol}

section

variable {own : String} {imports : List ImportBinding} {decls : List Declaration} {σ : Setting} {f : Findings}

lemma entered_initial (h : initial.get? id = some s) :
    Entered own imports decls initial id s := by
  obtain ⟨p, hp⟩ := get?_initial h
  exact .predeclared p hp

lemma Entered.of_nil {t'} (h : Entered own imports [] t id s) : Entered own imports decls t' id s := by
  cases h with
  | predeclared p hp => exact .predeclared p hp
  | imported hi hs => exact .imported hi hs
  | declared hd => exact absurd hd not_mem_nil

lemma entered_imports (imports : List ImportBinding) (σ) :
    ∀ id s, ((imports.forM fun i => declareFirst i.symbol) σ {}).2.symbols.get? id = some s →
      Entered own imports [] ((imports.forM fun i => declareFirst i.symbol) σ {}).2.symbols id s := by
  refine imports_induction
    (P := fun f => ∀ id s, f.symbols.get? id = some s → Entered own imports [] f.symbols id s)
    (fun i hi f _ table h hdefine id s hget => ?_) fun _ _ => entered_initial
  rw [get?_define hdefine] at hget
  split at hget
  · cases hget
    exact .imported hi rfl
  · exact (h id s hget).of_nil

lemma entered_registerNames (ds) (hf : f.symbols.AtModule σ.module)
    (h : ∀ id s, f.symbols.get? id = some s → Entered σ.module imports [] f.symbols id s) :
    ∀ id s, (registerNames ds σ f).2.symbols.get? id = some s →
      Entered σ.module imports ds (registerNames ds σ f).2.symbols id s := by
  intro id s hget
  obtain hold | ⟨d, hd⟩ := get?_registerNames hget
  · exact (h id s hold).of_nil
  · obtain ⟨s₀, hsym, hglobal⟩ := (registered_registerNames ds f hf).1.found hd
    obtain rfl := Option.some.inj (hget.symm.trans (get?_of_global? hglobal))
    exact .declared (mem_of_registerNames hd) hsym rfl hglobal

lemma exprTypes_registerNames (ds σ f) : (registerNames ds σ f).2.exprTypes = f.exprTypes :=
  registerNames_induction (P := fun g => g.exprTypes = f.exprTypes)
    (fun _ _ _ hg => registerName_induction (P := fun g => g.exprTypes = f.exprTypes) hg
      (fun _ _ => hg) fun _ => hg) rfl

/-- The type parameters of a struct or enum of the module. -/
def Findings.typeParams (f : Findings) (name : String) : List String :=
  (((f.symbols.global? name).bind (·.2.kind.nominalInfo?)).map (·.typeParams)).getD []

/-- The type parameters of structs and enums, those of other modules by `others`. -/
def Findings.typeParamsWith (f : Findings) (own : String) (others : Nominal → List String) (n : Nominal) :
    List String :=
  if n.module = own then f.typeParams n.name else others n

lemma Declaration.symbol?_eq (h : d.symbol? own = some s) : s.name = d.name.node ∧ s.span = d.name.span ∧
      ((s.kind.nominalInfo?).map (·.typeParams)).getD [] = d.typeParams := by
  cases d with
  | impl block => cases h
  | _ =>
    cases h
    exact ⟨rfl, rfl, rfl⟩

lemma Findings.typeParams_eq {name} (h : f.symbols.global? name = some (id, s)) :
    f.typeParams name = ((s.kind.nominalInfo?).map (·.typeParams)).getD [] := by
  rw [typeParams, h, Option.bind_some]

lemma formed_predeclared (p : Predeclared) (N : Nominal → Nat → Prop) : p.symbol.kind.Formed False N := by
  intro sig hsig
  obtain ⟨shape, hshape, rfl⟩ := mem_map.1 hsig
  cases p <;> simp only [Predeclared.signatures, mem_cons, not_mem_nil, or_false] at hshape <;> first
    | subst hshape; simp [Signature.Formed, Predeclared.signatureInfo, Predeclared.Shape.type, Ty.Formed]
    | obtain rfl | rfl := hshape <;>
        simp [Signature.Formed, Predeclared.signatureInfo, Predeclared.Shape.type, Ty.Formed]

lemma Entered.kind (h : Entered own imports decls f.symbols id s) (others : Nominal → List String) :
    (atModule own (f.typeParamsWith own others)).Kind own s.name s.kind := by
  cases h with
  | predeclared p hp =>
    rw [hp]
    exact ⟨formed_predeclared p _, nofun, fun _ _ => .inl rfl⟩
  | imported hi hs =>
    rw [hs]
    exact ⟨trivial, nofun, fun _ _ => .inl rfl⟩
  | @declared d s₀ hd hsym hs hglobal =>
    have hparams := typeParams_eq hglobal
    cases d with
    | impl block => cases hsym
    | struct decl | enum decl =>
      cases hsym
      subst hs
      refine ⟨⟨fun m hm => absurd hm not_mem_nil, fun m hm => absurd hm not_mem_nil⟩,
        fun info hinfo => ?_, fun _ _ => .inl rfl⟩
      cases hinfo
      refine ⟨rfl, ?_⟩
      show _ = f.typeParamsWith own others ⟨own, decl.name.node⟩
      rw [typeParamsWith, if_pos rfl]
      exact hparams.symm
    | function decl | externFunction decl =>
      cases hsym
      subst hs
      exact ⟨fun _ hm => absurd hm not_mem_nil, nofun, fun _ _ => .inl rfl⟩
    | const decl =>
      cases hsym
      subst hs
      exact ⟨trivial, nofun, fun _ _ => .inl rfl⟩

lemma Entered.origin (h : Entered own imports decls t id s) : s.Origin imports decls := by
  unfold Symbol.Origin
  cases h with
  | predeclared p hp =>
    subst hp
    exact fun sig hsig => .predeclared p (show rootScope ≠ moduleScope by decide) rfl hsig
  | @imported i hi hs =>
    rw [hs]
    exact ⟨i, hi, rfl⟩
  | @declared d s₀ hd hsym hs hglobal =>
    cases d with
    | impl block => cases hsym
    | struct decl | enum decl =>
      cases hsym
      subst hs
      exact ⟨⟨_, hd, rfl, rfl⟩, fun m hm => absurd hm not_mem_nil⟩
    | function decl | externFunction decl =>
      cases hsym
      subst hs
      exact fun _ hm => absurd hm not_mem_nil
    | const decl =>
      cases hsym
      subst hs
      exact trivial

lemma Entered.local (h : Entered own imports decls t id s) (S : TypeScope) (name) : S.Local name s.kind := by
  cases h with
  | predeclared p hp =>
    subst hp
    exact trivial
  | imported hi hs =>
    rw [hs]
    exact trivial
  | @declared d s₀ hd hsym hs hglobal =>
    cases d with
    | impl block => cases hsym
    | _ =>
      cases hsym
      subst hs
      exact trivial

lemma collecting_registerNames (hf : f.symbols.AtModule σ.module) (huntyped : f.exprTypes = [])
    (h : ∀ id s, f.symbols.get? id = some s → Entered σ.module imports [] f.symbols id s)
    (others : Nominal → List String) :
    let g := (registerNames decls σ f).2
    Collecting σ.module (g.typeParamsWith σ.module others) imports decls (registerNames decls σ f).1 g ∧
      ∀ p ∈ (registerNames decls σ f).1,
        g.typeParamsWith σ.module others ⟨σ.module, p.1.name.node⟩ = p.1.typeParams := by
  intro g
  have hentered := entered_registerNames decls hf h
  have hmodule := atModule_registerNames decls σ f hf
  have hregistered := (registered_registerNames decls f hf).1
  refine ⟨⟨⟨⟨hmodule.sound, fun id s hs => (hentered id s hs).kind others, fun _ _ _ _ _ _ => trivial,
    fun name s hs => ?_⟩, ?_, fun id s hs => (hentered id s hs).origin⟩, fun p hp => ?_, ?_⟩, fun p hp => ?_⟩
  · obtain ⟨id, -, hget⟩ := Option.bind_eq_some_iff.1 hs
    exact (hentered id s hget).local _ name
  · rw [Open, hmodule.current]
    exact (Array.getElem?_eq_some_iff.1 (Option.isSome_iff_exists.1 hmodule.scope).choose_spec).1
  · obtain ⟨s, hsym, hglobal⟩ := hregistered.found hp
    obtain ⟨hname, hspan, -⟩ := Declaration.symbol?_eq hsym
    exact ⟨_, get?_of_global? hglobal, hname, hspan⟩
  · rw [exprTypes_registerNames, huntyped]
  · obtain ⟨s, hsym, hglobal⟩ := hregistered.found hp
    obtain ⟨hname, -, hparams⟩ := Declaration.symbol?_eq hsym
    rw [typeParamsWith, if_pos rfl]
    exact (hname ▸ typeParams_eq hglobal).trans hparams

lemma collecting_collectDeclarations (imports decls)
    {others : Nominal → List String}
    (hσ : ∀ declared, (∀ n : Nominal, n.module ≠ σ.module → declared n = others n) →
      (atModule σ.module declared).Reads σ) :
    ∃ declared entered, (∀ n : Nominal, n.module ≠ σ.module → declared n = others n) ∧
      Collecting σ.module declared imports decls entered (collectDeclarations imports decls σ {}).2 := by
  have hmodule := atModule_imports imports σ {} (atModule_initial σ.module)
  obtain ⟨hnames, hdeclared⟩ :=
    collecting_registerNames hmodule
      (imports_induction (P := fun g => g.exprTypes = []) (fun _ _ _ _ _ hg _ => hg) rfl)
        (entered_imports imports σ) others
  have hothers : ∀ n : Nominal, n.module ≠ σ.module → typeParamsWith
      (registerNames decls σ ((imports.forM fun i => declareFirst i.symbol) σ {}).2).2 σ.module others n =
        others n :=
    fun n hn => if_neg hn
  exact ⟨_, _, hothers, collecting_collectShapes (σ := { σ with constants := _ }) hnames
    (hσ _ hothers).withConstants (fun _ => mem_of_registerNames) hdeclared⟩

end

end SourceCheck
