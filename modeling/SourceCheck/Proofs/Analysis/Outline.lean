import SourceCheck.Proofs.Analysis.Visible
import SourceCheck.Proofs.Tree.Unplaced

/-!
# Collecting without places

Names, shapes and constants are collected without a look at places and bodies. `Check.Echoes` says that a second step
does without places what the first does.
-/

namespace SourceCheck

open Check List SymbolTable

def Setting.unplaced (σ : Setting) : Setting :=
  { σ with
    library := σ.library.map ModuleExports.unplaced
    constants := σ.constants.map ConstDecl.unplaced }

/-- The same symbols, values and foldings, without places. A constant has no value before it is folded. -/
structure Findings.Outlines (f f' : Findings) : Prop where
  symbols : f'.symbols = f.symbols.unplaced
  values : ∀ name, f'.constValues.lookup name = f.constValues.lookup name
  folding : ∀ name, f'.folding.lookup name = f.folding.lookup name
  fresh : ∀ name, f.folding.lookup name = none → f.constValues.lookup name = none

lemma Findings.Outlines.recordFolding {f f' : Findings} (h : f.Outlines f') (name p) :
    Findings.Outlines { f with folding := (name, p) :: f.folding } { f' with folding := (name, p) :: f'.folding } where
  symbols := h.symbols
  values := h.values
  folding other := by rw [lookup_cons, lookup_cons, h.folding]
  fresh other hnone := by
    rw [lookup_cons] at hnone
    split at hnone
    · cases hnone
    · exact h.fresh other hnone

lemma Findings.Outlines.recordConst {f f' : Findings} (h : f.Outlines f') {name} (v)
    (hname : f.folding.lookup name ≠ none) :
    Findings.Outlines { f with constValues := (name, v) :: f.constValues }
      { f' with constValues := (name, v) :: f'.constValues } where
  symbols := h.symbols
  values other := by rw [lookup_cons, lookup_cons, h.values]
  folding := h.folding
  fresh other hnone := by
    have hne : (other == name) = false := beq_false_of_ne fun e => hname (e ▸ hnone)
    rw [lookup_cons, hne]
    exact h.fresh other hnone

lemma Findings.Outlines.nominals {f f' : Findings} (h : f.Outlines f') (σ) :
    f'.nominals σ.unplaced = f.nominals σ := by
  have hown : f'.symbols.globals.filterMap (fun s => s.kind.members?.map fun ts =>
        ((⟨σ.module, s.name⟩ : Nominal), ts)) =
      f.symbols.globals.filterMap fun s => s.kind.members?.map fun ts => (⟨σ.module, s.name⟩, ts) := by
    rw [h.symbols, globals_unplaced, filterMap_map]
    congr 1
    funext s
    simp [Symbol.unplaced]
  have hothers : ((σ.library.map ModuleExports.unplaced).filter (·.module ≠ σ.module)).flatMap
    ModuleExports.nominals =
      (σ.library.filter (·.module ≠ σ.module)).flatMap ModuleExports.nominals := by
    rw [filter_map, flatMap_nominals_unplaced]
    rfl
  rw [Findings.nominals_eq, Findings.nominals_eq]
  exact congrArg₂ _ hown hothers

namespace Check

variable {α α' β β' : Type} {c : Check α} {c' : Check α'} {g : α → α'} {k : α → Check β}
  {k' : α' → Check β'}
  {g' : β → β'}

/-- The second step does without places what the first does, up to `g`. -/
def Echoes (c : Check α) (g : α → α') (c' : Check α') : Prop :=
  ∀ σ f f', Findings.Outlines f f' → (c' σ.unplaced f').1 = g (c σ f).1 ∧
    (c σ f).2.Outlines (c' σ.unplaced f').2

/-! ### Ways of putting steps together -/

lemma echoes_pure (a : α) : Echoes (pure a) g (pure (g a)) :=
  fun _ _ _ h => ⟨rfl, h⟩

lemma Echoes.bind (h : Echoes c g c') (hk : ∀ a, Echoes (k a) g' (k' (g a))) : Echoes (c >>= k) g' (c' >>= k') := by
  intro σ f f' hf
  obtain ⟨hresult, hf₁⟩ := h σ f f' hf
  rw [run_bind, run_bind, hresult]
  exact hk _ σ _ _ hf₁

lemma echoes_ite {p p' : Prop} [Decidable p] [Decidable p'] {d d'} (hp : p ↔ p') (hc : Echoes c g c')
    (hd : Echoes d g d') : Echoes (if p then c else d) g (if p' then c' else d') := by
  by_cases h : p
  · rw [if_pos h, if_pos (hp.1 h)]
    exact hc
  · rw [if_neg h, if_neg (mt hp.2 h)]
    exact hd

lemma echoes_forM {γ γ' : Type} {u : γ → γ'} {l : List γ} {k : γ → Check Unit} {k' : γ' → Check Unit}
    (h : ∀ a ∈ l, Echoes (k a) id (k' (u a))) : Echoes (l.forM k) id ((l.map u).forM k') := by
  induction l with
  | nil => exact echoes_pure ()
  | cons a l ih => exact (h a (by simp)).bind fun _ => ih fun b hb => h b (by simp [hb])

lemma Echoes.inScope (kind) (h : Echoes c g c') : Echoes (inScope kind c) g (inScope kind c') := by
  intro σ f f' hf
  have henter : (f.enter kind).Outlines (f'.enter kind) :=
    ⟨congrArg (·.enter kind) hf.symbols, hf.values, hf.folding, hf.fresh⟩
  obtain ⟨hresult, hbody⟩ := h σ _ _ henter
  rw [run_inScope, run_inScope]
  refine ⟨hresult, ?_, hbody.values, hbody.folding, hbody.fresh⟩
  dsimp only
  rw [hbody.symbols, leave_unplaced]

lemma Echoes.withReader {u u'} (h : Echoes c g c') (hu : ∀ σ : Setting, (u σ).unplaced = u' σ.unplaced) :
    Echoes (withReader u c) g (withReader u' c') := by
  intro σ f f' hf
  have hrun := h (u σ) f f' hf
  rw [hu] at hrun
  exact hrun

/-! ### Single steps -/

lemma echoes_report (p p' span span') : Echoes (report p span) id (report p' span') :=
  fun _ _ _ h => ⟨rfl, h.symbols, h.values, h.folding, h.fresh⟩

lemma echoes_reportIf (wrong wrong' p p' span span') :
    Echoes (reportIf wrong p span) id (reportIf wrong' p' span') := by
  cases wrong <;> cases wrong' <;> exact fun _ _ _ h => ⟨rfl, h.symbols, h.values, h.folding, h.fresh⟩

lemma echoes_report_bind {a} (p p' span span') :
    Echoes (report p span >>= fun _ => pure a) g (report p' span' >>= fun _ => pure (g a)) :=
  (echoes_report p p' span span').bind fun _ => echoes_pure a

lemma echoes_refuse (p p' span span') : Echoes (refuse p span) id (refuse p' span') :=
  echoes_report_bind p p' span span'

lemma echoes_finish (name) (v : Option ConstValue) :
    Echoes (recordFolding name .finished >>= fun _ => v.forM (recordConst name) >>= fun _ => pure v) id
      (recordFolding name .finished >>= fun _ => v.forM (recordConst name) >>= fun _ => pure v) := by
  intro σ f f' h
  have hfinished := h.recordFolding name .finished
  cases v with
  | none => exact ⟨rfl, hfinished⟩
  | some v => exact ⟨rfl, hfinished.recordConst v (by simp)⟩

lemma echoes_kind? (name) : Echoes (kind? name) (Option.map SymbolKind.unplaced) (kind? name) := by
  intro σ f f' h
  refine ⟨?_, h⟩
  show (f'.symbols.symbol? name).map (·.kind) = ((f.symbols.symbol? name).map (·.kind)).map SymbolKind.unplaced
  rw [h.symbols, symbol?_unplaced, Option.map_map, Option.map_map]
  rfl

lemma echoes_global? (name) : Echoes (global? name) (Option.map fun p => (p.1, p.2.unplaced)) (global? name) := by
  intro σ f f' h
  refine ⟨?_, h⟩
  show f'.symbols.global? name = (f.symbols.global? name).map fun p => (p.1, p.2.unplaced)
  rw [h.symbols, global?_unplaced]

lemma echoes_get {k k'}
    (hk : ∀ f f', Findings.Outlines f f' → Echoes (k f) g' (k' f')) : Echoes (get >>= k) g' (get >>= k') :=
  fun σ f f' h => hk f f' h σ f f' h

lemma echoes_read {k k'} (hk : ∀ σ, Echoes (k σ) g' (k' σ.unplaced)) : Echoes (read >>= k) g' (read >>= k') :=
  fun σ f f' h => hk σ σ f f' h

lemma echoes_define (s) :
    Echoes (define s) (fun | .ok id => .ok id | .error _ => .error default) (define s.unplaced) := by
  intro σ f f' h
  have hdefine := define_unplaced f.symbols s
  rw [← h.symbols] at hdefine
  cases e : f.symbols.define s with
  | ok p =>
    obtain ⟨id, t⟩ := p
    rw [e] at hdefine
    rw [run_define_ok e, run_define_ok hdefine]
    exact ⟨rfl, rfl, h.values, h.folding, h.fresh⟩
  | error previous =>
    rw [e] at hdefine
    rw [run_define_error e, run_define_error hdefine]
    exact ⟨rfl, h⟩

lemma echoes_declare (s) : Echoes (declare s) id (declare s.unplaced) := by
  refine (echoes_define s).bind fun r => ?_
  cases r with
  | ok id => exact echoes_pure ()
  | error previous => exact echoes_report _ _ _ _

lemma echoes_setKind (n) {u u'}
    (hu : ∀ k : SymbolKind, (u k).unplaced = u' k.unplaced) : Echoes (setKind n u) id (setKind n u') := by
  intro σ f f' h
  refine ⟨rfl, ?_, h.values, h.folding, h.fresh⟩
  show f'.symbols.modifySymbol n (fun s => { s with kind := u' s.kind }) =
    (f.symbols.modifySymbol n fun s => { s with kind := u s.kind }).unplaced
  rw [modifySymbol_unplaced f.symbols n hu, h.symbols]

end Check

/-! ### Constants and types -/

def Demand.Echoes (demand demand' : Demand) : Prop :=
  ∀ stack name span span', Check.Echoes (demand stack name span) id (demand' stack name span')

lemma echoes_notFoldable {α : Type} (failure failure' span span') :
    Echoes (notFoldable failure span : Check (Option α)) id (notFoldable failure' span') :=
  echoes_report_bind _ _ _ _

lemma echoes_folded (span span' r) : Echoes (folded span r) id (folded span' r) := by
  cases r with
  | ok v => exact echoes_pure _
  | error p => exact echoes_notFoldable _ _ _ _

lemma echoes_foldLiteral (span span' value) : Echoes (foldLiteral span value) id (foldLiteral span' value) := by
  cases value with
  | int n => exact echoes_ite Iff.rfl (echoes_pure _) (echoes_notFoldable _ _ _ _)
  | unit => exact echoes_notFoldable _ _ _ _
  | _ => exact echoes_pure _

lemma echoes_foldName {demand demand'} (h : demand.Echoes demand') (stack span span' name) :
    Echoes (foldName demand stack span name) id (foldName demand' stack span' name) := by
  refine (echoes_kind? name).bind fun o => ?_
  cases o with
  | none => exact echoes_report_bind _ _ _ _
  | some kind =>
    cases kind with
    | const => exact h _ _ _ _
    | _ => exact echoes_report_bind _ _ _ _

lemma echoes_foldMember (span span' head member) :
    Echoes (foldMember span head member) id (foldMember span' head.unplaced member.unplaced) := by
  refine (echoes_kind? head.node).bind fun o => ?_
  cases o with
  | none => exact echoes_report_bind _ _ _ _
  | some kind =>
    cases kind with
    | module path target =>
      refine echoes_read fun σ => ?_
      have hmember := Library.member?_unplaced σ.library target member.node
      change Echoes (foldExported span head member (σ.library.member? target member.node)) id
        (foldExported span' head.unplaced member.unplaced
          (Library.member? (σ.library.map ModuleExports.unplaced) target member.node))
      rw [hmember]
      cases σ.library.member? target member.node with
      | none => exact echoes_pure _
      | some p =>
        obtain ⟨module, kind, visibility, place⟩ := p
        refine echoes_ite Iff.rfl (echoes_report_bind _ _ _ _) ?_
        cases kind with
        | const => exact echoes_pure _
        | _ => exact echoes_report_bind _ _ _ _
    | _ => exact echoes_notFoldable _ _ _ _

lemma echoes_arraySize (span span' v) : Echoes (arraySize span v) id (arraySize span' v) := by
  unfold arraySize
  split
  · exact echoes_pure _
  · refine echoes_ite Iff.rfl ?_ (echoes_notFoldable _ _ _ _)
    exact fun _ _ _ h => ⟨rfl, h.symbols, h.values, h.folding, h.fresh⟩
  · exact echoes_notFoldable _ _ _ _

mutual

lemma echoes_resolveTypeWith {demand demand'} (h : demand.Echoes demand') (t) :
    Echoes (resolveTypeWith demand t) id (resolveTypeWith demand' t.unplaced) := by
  match t with
  | .primitive .. => exact echoes_pure _
  | .slice _ a | .pointer _ _ a | .option _ a | .taskHandle _ a =>
    exact (echoes_resolveTypeWith h a).bind fun _ => echoes_pure _
  | .array _ elem size =>
    refine (echoes_resolveTypeWith h elem).bind fun _ => ?_
    refine (echoes_foldWith h [] size).bind fun v => ?_
    exact (echoes_arraySize _ _ v).bind fun _ => echoes_pure _
  | .result _ ok err =>
    refine (echoes_resolveTypeWith h ok).bind fun _ => ?_
    exact (echoes_resolveTypeWith h err).bind fun _ => echoes_pure _
  | .tuple _ elems => exact (echoes_resolveTypesWith h elems).bind fun _ => echoes_pure _
  | .named span name args =>
    refine (echoes_kind? name).bind fun o => ?_
    cases o with
    | none => exact echoes_refuse _ _ _ _
    | some kind =>
      cases kind with
      | typeParam => exact (echoes_reportIf _ _ _ _ _ _).bind fun _ => echoes_pure _
      | struct | enum =>
        refine (echoes_resolveTypesWith h args).bind fun _ => ?_
        exact (echoes_ite Iff.rfl (echoes_pure _) (echoes_report_bind _ _ _ _)).bind fun _ => echoes_pure _
      | _ => exact echoes_refuse _ _ _ _

lemma echoes_resolveTypesWith {demand demand'} (h : demand.Echoes demand') (ts) :
    Echoes (resolveTypesWith demand ts) id (resolveTypesWith demand' (TypeExpr.allUnplaced ts)) := by
  match ts with
  | [] => exact echoes_pure _
  | t :: ts =>
    refine (echoes_resolveTypeWith h t).bind fun _ => ?_
    exact (echoes_resolveTypesWith h ts).bind fun _ => echoes_pure _

lemma echoes_foldWith {demand demand' : Demand} (h : demand.Echoes demand') (stack e) :
    Echoes (foldWith demand stack e) id (foldWith demand' stack e.unplaced) := by
  match e with
  | .literal .. => exact echoes_foldLiteral _ _ _
  | .ident .. => exact echoes_foldName h _ _ _ _
  | .dotted .. => exact echoes_foldMember _ _ _ _
  | .paren _ inner => exact echoes_foldWith h stack inner
  | .unary _ logical pointer operand =>
    refine echoes_ite Iff.rfl (echoes_notFoldable _ _ _ _) ((echoes_foldWith h stack operand).bind fun v => ?_)
    cases v with
    | none => exact echoes_pure _
    | some v =>
      cases logical with
      | none => exact echoes_pure _
      | some op => exact echoes_folded _ _ _
  | .binary _ lhs _ rhs =>
    refine (echoes_foldWith h stack lhs).bind fun l => ?_
    cases l with
    | none => exact echoes_pure _
    | some l =>
      refine (echoes_foldWith h stack rhs).bind fun r => ?_
      cases r with
      | none => exact echoes_pure _
      | some r => exact echoes_folded _ _ _
  | .sizeof _ type =>
    refine (echoes_resolveTypeWith h type).bind fun t => echoes_get fun f f' hf => echoes_read fun σ => ?_
    rw [hf.nominals σ, id_eq]
    cases t.layout (f.nominals σ) with
    | none => exact echoes_notFoldable _ _ _ _
    | some l => exact echoes_pure _
  | .call .. | .assocCall .. | .dottedCall .. | .structLit .. | .await .. | .selfRef .. | .field ..
  | .tupleIndex .. | .index .. | .slice .. | .tuple .. | .array .. | .arrayRepeat .. =>
    exact echoes_notFoldable _ _ _ _

end

lemma otherConstants_unplaced (decls name) :
    otherConstants (decls.map (·.unplaced)) name = (otherConstants decls name).map (·.unplaced) := by
  rw [otherConstants, otherConstants, filter_map]
  rfl

lemma find?_unplaced (decls : List ConstDecl) (name) :
    (decls.map (·.unplaced)).find? (·.name.node = name) = (decls.find? (·.name.node = name)).map (·.unplaced) := by
  rw [List.find?_map]
  rfl

lemma echoes_demandConst (remaining : List ConstDecl) :
    Demand.Echoes (demandConst remaining) (demandConst (remaining.map (·.unplaced))) := by
  intro stack name span span'
  rw [demandConst, demandConst]
  refine echoes_get fun f f' hf => ?_
  rw [hf.folding name]
  cases f.folding.lookup name with
  | some p =>
    cases p with
    | finished =>
      refine echoes_get fun f f' hf => ?_
      rw [hf.values name]
      exact echoes_pure _
    | started => exact echoes_read fun σ => echoes_report_bind _ _ _ _
  | none =>
    refine echoes_read fun σ => echoes_ite Iff.rfl (echoes_report_bind _ _ _ _) ?_
    have hunplaced := find?_unplaced remaining name
    split
    · rename_i hfind
      rw [hfind] at hunplaced
      split
      · exact echoes_pure _
      · rename_i hfind'
        rw [hfind'] at hunplaced
        cases hunplaced
    · rename_i decl hfind
      rw [hfind] at hunplaced
      split
      · rename_i hfind'
        rw [hfind'] at hunplaced
        cases hunplaced
      · rename_i decl' hfind'
        rw [hfind'] at hunplaced
        cases hunplaced
        rw [otherConstants_unplaced]
        refine Echoes.bind (g := id) (fun _ _ _ h => ⟨rfl, h.recordFolding name _⟩) fun _ => ?_
        refine (echoes_foldWith (echoes_demandConst (otherConstants remaining name)) _ _).bind fun v => ?_
        exact echoes_finish name v
termination_by remaining.length
decreasing_by exact length_otherConstants_lt ‹_›

lemma echoes_constValue : Demand.Echoes constValue constValue :=
  fun stack name span span' => echoes_read fun σ => echoes_demandConst σ.constants stack name span span'

lemma echoes_resolveType (t) : Echoes (resolveType t) id (resolveType t.unplaced) :=
  echoes_resolveTypeWith echoes_constValue t

lemma echoes_resolveTypes (ts) : Echoes (resolveTypes ts) id (resolveTypes (ts.map (·.unplaced))) := by
  rw [← TypeExpr.allUnplaced_eq]
  exact echoes_resolveTypesWith echoes_constValue ts

/-! ### Shapes -/

lemma echoes_withTypeParams {α α' : Type} {c : Check α} {c' : Check α'} {g : α → α'} (params)
    (h : Echoes c g c') : Echoes (withTypeParams params c) g (withTypeParams (params.map (·.unplaced)) c') := by
  refine echoes_ite (by simp) h (Echoes.inScope _ ?_)
  have hparams : Echoes (params.forM fun p => declare (typeParamSymbol p)) id
      ((params.map (·.unplaced)).forM fun p => declare (typeParamSymbol p)) :=
    echoes_forM fun p _ => echoes_declare (typeParamSymbol p)
  have hbody : ∀ u : Unit, Echoes ((fun _ => c) u) g ((fun _ => c') (id u)) := fun _ => h
  exact hparams.bind hbody

def unplacedSeen (seen : List (String × Span)) : List (String × Span) :=
  seen.map fun p => (p.1, default)

lemma lookup_unplacedSeen (seen name) : (unplacedSeen seen).lookup name = (seen.lookup name).map fun _ => default :=
  lookup_map_snd (fun _ => default) seen name

lemma echoes_resolveParams (seen ps) :
    Echoes (resolveParams seen ps) id (resolveParams (unplacedSeen seen) (ps.map (·.unplaced))) := by
  induction ps generalizing seen with
  | nil => exact echoes_pure _
  | cons p ps ih =>
    rw [map_cons, resolveParams, resolveParams, show p.unplaced.name = p.name from rfl, lookup_unplacedSeen]
    cases seen.lookup p.name with
    | none =>
      refine (echoes_resolveType p.type).bind fun t => (ih ((p.name, p.span) :: seen)).bind fun rest => ?_
      exact echoes_pure (g := id) ((p.name, t) :: rest)
    | some previous =>
      refine (echoes_report _ _ _ _).bind fun _ => ?_
      refine (echoes_resolveType p.type).bind fun t => (ih ((p.name, p.span) :: seen)).bind fun rest => ?_
      exact echoes_pure (g := id) ((p.name, t) :: rest)

lemma echoes_resolveSignature (typeParams params returnType) :
    Echoes (resolveSignature typeParams params returnType) id
      (resolveSignature (typeParams.map (·.unplaced)) (params.map (·.unplaced)) returnType.unplaced) := by
  refine (echoes_resolveParams [] params).bind fun ps => (echoes_resolveType returnType).bind fun t => ?_
  have hnames : (typeParams.map (·.unplaced)).map (·.node) = typeParams.map (·.node) := by
    rw [map_map]
    rfl
  rw [hnames]
  exact echoes_pure _

lemma echoes_resolveFields (seen fs) :
    Echoes (resolveFields seen fs) (List.map FieldInfo.unplaced)
      (resolveFields (unplacedSeen seen) (fs.map (·.unplaced))) := by
  induction fs generalizing seen with
  | nil => exact echoes_pure []
  | cons f fs ih =>
    rw [map_cons, resolveFields, resolveFields, show f.unplaced.name = f.name from rfl, lookup_unplacedSeen]
    cases seen.lookup f.name with
    | none =>
      refine (echoes_resolveType f.type).bind fun t => (ih ((f.name, f.span) :: seen)).bind fun rest => ?_
      exact echoes_pure (FieldInfo.mk f.name t (f.visibility.getD .pub) f.span :: rest)
    | some previous => exact (echoes_report _ _ _ _).bind fun _ => ih seen

lemma echoes_resolveDiscriminant (enum variant value) :
    Echoes (resolveDiscriminant enum variant value) id (resolveDiscriminant enum variant value.unplaced) := by
  refine (echoes_foldWith echoes_constValue [] value).bind fun v => ?_
  cases v with
  | none => exact echoes_pure _
  | some v =>
    cases v with
    | int n => exact echoes_pure _
    | _ => exact echoes_notFoldable _ _ _ _

lemma echoes_resolveVariants (enum seen vs) :
    Echoes (resolveVariants enum seen vs) id (resolveVariants enum (unplacedSeen seen) (vs.map (·.unplaced))) := by
  induction vs generalizing seen with
  | nil => exact echoes_pure _
  | cons v vs ih =>
    rw [map_cons, resolveVariants, resolveVariants, show v.unplaced.name = v.name from rfl, lookup_unplacedSeen]
    cases seen.lookup v.name with
    | none =>
      refine (echoes_resolveTypes v.payload).bind fun ts => ?_
      obtain ⟨span, name, payload, value⟩ := v
      cases value with
      | none =>
        refine (echoes_pure (g := id) none).bind fun d => (ih ((name, span) :: seen)).bind fun rest => ?_
        exact echoes_pure (g := id) (VariantInfo.mk name ts d :: rest)
      | some value =>
        refine (echoes_resolveDiscriminant _ _ value).bind fun d => ?_
        refine (ih ((name, span) :: seen)).bind fun rest => ?_
        exact echoes_pure (g := id) (VariantInfo.mk name ts d :: rest)
    | some previous => exact (echoes_report _ _ _ _).bind fun _ => ih seen

lemma echoes_withSignature (sig n) : Echoes (setKind n (·.withSignature sig)) id (setKind n (·.withSignature sig)) :=
  echoes_setKind n fun k => by cases k <;> rfl

variable (body : List Stmt → List Stmt)

lemma echoes_resolveShape (d n) :
    Echoes (resolveShape d n) id (resolveShape (d.unplaced body) n) := by
  cases d with
  | function f =>
    refine (echoes_withTypeParams _ (echoes_resolveSignature f.typeParams _ _)).bind fun sig => ?_
    exact echoes_withSignature sig n
  | externFunction f => exact (echoes_resolveSignature [] _ _).bind fun sig => echoes_withSignature sig n
  | struct s =>
    refine (echoes_withTypeParams _ (echoes_resolveFields [] s.fields)).bind fun fields => ?_
    exact echoes_setKind n fun k => by cases k <;> rfl
  | enum e =>
    refine (echoes_withTypeParams _ (echoes_resolveVariants _ [] e.variants)).bind fun variants => ?_
    exact echoes_setKind n fun k => by cases k <;> rfl
  | const c =>
    refine (echoes_resolveType c.type).bind fun t => ?_
    exact echoes_setKind n fun k => by cases k <;> rfl
  | impl block => exact echoes_pure ()

lemma echoes_checkSize (d) : Echoes (checkSize d) id (checkSize (d.unplaced body)) := by
  refine echoes_read fun σ => ?_
  cases d with
  | struct s | enum e => exact echoes_get fun _ _ _ => echoes_read fun _ => echoes_reportIf _ _ _ _ _ _
  | _ => exact echoes_pure ()

/-! ### Methods -/

def unplacedMethod (m : String × MethodInfo) : String × MethodInfo :=
  (m.1, m.2.unplaced)

lemma echoes_resolveMethods (ownerParams seen fs) :
    Echoes (resolveMethods ownerParams seen fs) (List.map unplacedMethod)
      (resolveMethods (ownerParams.map (·.unplaced)) (unplacedSeen seen) (fs.map (·.unplaced body))) := by
  induction fs generalizing seen with
  | nil => exact echoes_pure []
  | cons f fs ih =>
    rw [map_cons, resolveMethods, resolveMethods,
      show (f.unplaced body).name.node = f.name.node from rfl, lookup_unplacedSeen]
    cases seen.lookup f.name.node with
    | none =>
      have hparams : ownerParams.map (·.unplaced) ++ (f.unplaced body).typeParams =
          (ownerParams ++ f.typeParams).map (·.unplaced) := by
        rw [map_append]
        rfl
      have hreceiver : (f.unplaced body).receiver.isSome = f.receiver.isSome := Option.isSome_map
      rw [hparams, hreceiver]
      refine (echoes_withTypeParams _ (echoes_resolveSignature f.typeParams _ _)).bind fun sig => ?_
      refine (ih ((f.name.node, f.name.span) :: seen)).bind fun rest => ?_
      exact echoes_pure ((f.name.node, MethodInfo.mk sig f.receiver.isSome f.visibility f.name.span) :: rest)
    | some previous => exact (echoes_report _ _ _ _).bind fun _ => ih seen

lemma echoes_addMethods (methods n) :
    Echoes (setKind n (·.addMethods methods)) id (setKind n (·.addMethods (methods.map unplacedMethod))) := by
  refine echoes_setKind n fun k => ?_
  cases k <;> simp [SymbolKind.addMethods, SymbolKind.unplaced, NominalInfo.unplaced, unplacedMethod]

lemma implOwner?_unplaced (o) :
    implOwner? (o.map fun p => (p.1, p.2.unplaced)) = (implOwner? o).map fun p => (p.1, p.2.unplaced) := by
  cases o with
  | none => rfl
  | some p =>
    simp only [implOwner?, Option.map_some, Option.bind_some, Symbol.unplaced, SymbolKind.nominalInfo?_unplaced]
    cases p.2.kind.nominalInfo? <;> rfl

lemma echoes_addImpl (block o) :
    Echoes (addImpl block o) id (addImpl (block.unplaced body) (o.map fun p => (p.1, p.2.unplaced))) := by
  cases o with
  | none => exact echoes_report _ _ _ _
  | some p =>
    obtain ⟨n, info⟩ := p
    have hmethods : (block.unplaced body).methods.map (·.node) =
        (block.methods.map (·.node)).map (·.unplaced body) := by
      simp [ImplBlock.unplaced]
    have hparams : info.unplaced.typeParams.map (fun p => (⟨p, default⟩ : Name)) =
        (info.typeParams.map fun p => (⟨p, block.target.span⟩ : Name)).map (·.unplaced) := by
      rw [map_map]
      rfl
    rw [addImpl, Option.map_some, addImpl, resolveImpl, resolveImpl, hmethods]
    change Echoes _ _ (resolveMethods (info.unplaced.typeParams.map (fun p => (⟨p, default⟩ : Name))) [] _ >>= _)
    rw [hparams]
    refine (echoes_resolveMethods body _ [] _).bind fun methods => ?_
    have hfresh : info.unplaced.lacking (methods.map unplacedMethod) = (info.lacking methods).map unplacedMethod := by
      rw [NominalInfo.lacking, filter_map]
      congr 1
      refine filter_congr fun m _ => ?_
      simp [unplacedMethod]
    rw [addResolved, addResolved, hfresh]
    refine (echoes_addMethods _ n).bind fun _ => echoes_forM fun m _ => ?_
    obtain ⟨name, m⟩ := m
    simp only [reportSecond, unplacedMethod, NominalInfo.lookup_unplaced]
    cases info.methods.lookup name with
    | none => exact echoes_pure ()
    | some previous => exact echoes_report _ _ _ _

lemma echoes_collectImpl (block) :
    Echoes (collectImpl block) id (collectImpl (block.unplaced body)) := by
  rw [collectImpl, collectImpl]
  refine (echoes_global? block.target.node).bind fun o => ?_
  rw [implOwner?_unplaced]
  exact echoes_addImpl body block (implOwner? o)

lemma echoes_collectMethods (d) :
    Echoes (collectMethods d) id (collectMethods (d.unplaced body)) := by
  cases d with
  | impl block => exact echoes_collectImpl body block
  | _ => exact echoes_pure ()

lemma echoes_collectShapes (decls declared) :
    Echoes (collectShapes decls declared) id
      (collectShapes (decls.map (·.unplaced body)) (declared.map fun p => (p.1.unplaced body, p.2))) := by
  refine (echoes_forM fun p _ => echoes_resolveShape body p.1 p.2).bind fun _ => ?_
  refine (echoes_forM fun d _ => echoes_checkSize body d).bind fun _ => ?_
  exact echoes_forM fun d _ => echoes_collectMethods body d

/-! ### Names -/

lemma ownershipMode?_unplaced (list) : ownershipMode? (list.map (·.unplaced)) = ownershipMode? list := by
  rw [ownershipMode?, ownershipMode?, findDirective?, findDirective?, List.find?_map, Option.bind_map]
  rfl

lemma Declaration.symbol?_unplaced (module) (d : Declaration) :
    (d.unplaced body).symbol? module = (d.symbol? module).map (·.unplaced) := by
  have hnames (params : List Name) : (params.map (·.unplaced)).map (·.node) = params.map (·.node) := by
    rw [map_map]
    rfl
  cases d with
  | struct d =>
    simp only [Declaration.unplaced, Declaration.symbol?, StructDecl.unplaced, hnames, ownershipMode?_unplaced]
    rfl
  | enum d =>
    simp only [Declaration.unplaced, Declaration.symbol?, EnumDecl.unplaced, hnames, ownershipMode?_unplaced]
    rfl
  | _ => rfl

lemma echoes_registerName (d : Declaration) :
    Echoes (registerName d) id (registerName (d.unplaced body)) := by
  refine echoes_read fun σ => ?_
  rw [show σ.unplaced.module = σ.module from rfl, Declaration.symbol?_unplaced]
  cases d.symbol? σ.module with
  | none => exact echoes_pure _
  | some s =>
    refine (echoes_define s).bind fun r => ?_
    cases r with
    | ok n => exact echoes_pure _
    | error previous => exact echoes_report_bind _ _ _ _

lemma echoes_registerNames (ds) :
    Echoes (registerNames ds) (List.map fun p => (p.1.unplaced body, p.2))
      (registerNames (ds.map (·.unplaced body))) := by
  induction ds with
  | nil => exact echoes_pure []
  | cons d ds ih =>
    refine (echoes_registerName body d).bind fun n => ih.bind fun rest => ?_
    cases n with
    | none => exact echoes_pure rest
    | some n => exact echoes_pure ((d, n) :: rest)

end SourceCheck
