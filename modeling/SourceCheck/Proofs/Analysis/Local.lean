import SourceCheck.Proofs.Analysis.Declarations
import SourceCheck.Proofs.Analysis.Recalls

/-!
# Checkers take local steps

Every checker is `Check.Local`: single runs keep to the frame of local steps.
-/

namespace SourceCheck

open Check SourceCheck.Frame

/-! ### Single runs and scopes -/

/-- Changes of what is known that may be made in scopes. -/
structure Frame.Scopes (goes : Findings → Findings → Prop) (holds : Findings → Prop := fun _ => True) : Prop
    extends Notes goes holds where
  define {f : Findings} {s id table} : s.kind.isLocal = true → s.visibility = none →
    f.symbols.define s = .ok (id, table) → goes f { f with symbols := table }
  enter (f : Findings) (kind) : goes f (f.enter kind)
  leave (f : Findings) : goes f { f with symbols := f.symbols.leave }

namespace Frame.Scopes

variable {reads : Setting → Prop} {goes : Findings → Findings → Prop} {holds : Findings → Prop}
  (h : Scopes goes holds)

include h

lemma declaring [(alone reads goes holds).Folding] : (alone reads goes holds).Declaring where
  define_ok hf hs hdefine := ⟨_, hf.1 ▸ hdefine, ⟨by rw [hf.1], h.holds hf.2 rfl fun _ => .inl⟩,
    h.define hs.isLocal hs.hidden hdefine⟩
  define_error hf hdefine := hf.1 ▸ hdefine

lemma declares [(alone reads goes holds).Folding]
    (hreads : ∀ σ c, reads σ → reads { σ with function := some c }) :
    (alone reads goes holds).Declares :=
  have : (alone reads goes holds).Declaring := h.declaring
  { remark := fun p span hf hp => h.report span (by rintro path rfl; cases hp) hf
    enter := fun kind hf => ⟨by rw [hf.1], h.holds hf.2 rfl fun _ => .inl⟩
    leave := fun kind _ hgoes hg => ⟨⟨by rw [hg.1], h.holds hg.2 rfl fun _ => .inl⟩,
      h.trans (h.trans (h.enter _ kind) hgoes) (h.leave _)⟩
    returned := fun hσ => ⟨by rw [hσ.1], fun _ _ => admits_alone _⟩
    function := fun hσ _ => ⟨by rw [hσ.1], hreads _ _ hσ.2⟩
    armPattern := fun p ht => scoped_checkArmPattern (fun _ _ hf => by rw [hf.1]) ht p
    params := fun _ => trivial
    place := fun _ => trivial
    generic := rfl
    global := fun _ _ => seen_alone _ _
    global? := fun name hf => by rw [hf.1]
    isEntry := fun hσ => by rw [hσ.1] }

end Frame.Scopes

/-! ### Local steps -/

abbrev Frame.steps : Frame :=
  .alone (fun _ => True) Findings.Steps

lemma scopes_steps : Scopes Findings.Steps where
  refl _ := .refl
  trans := .trans
  problem f r := .single (.problem f r)
  type f span t := .single (.type f span t)
  call f span target := .single (.call f span target)
  size f span n := .single (.size f span n)
  holds _ _ _ := trivial
  define hs _ hdefine := .single (.define hs hdefine)
  enter f kind := .single (.enter f kind)
  leave f := .single (.leave f)

instance : Frame.steps.Lawful :=
  scopes_steps.lawful

lemma Check.Runs.isLocal {α : Type} {still : Prop} {c c'} {Q : α → Prop} (h : Runs .steps still c c' Q) : Local c :=
  fun _ f => h.goes_alone trivial f

abbrev Demand.Local (demand : Demand) : Prop :=
  demand.Runs .steps demand

lemma local_demandConst (remaining) : Demand.Local (demandConst remaining) := by
  refine fun stack name span _ => runs_alone fun σ f _ => ⟨?_, fun _ => ?_⟩
  · have hfinds := finds_demandConst remaining stack name span σ f
    generalize demandConst remaining stack name span σ f = result at hfinds ⊢
    cases hfinds with
    | cycle place hname | deep place hname hdepth => exact .single (.problem f _)
    | @entered decl v g hname hdepth hfind hfold =>
      have hsteps := (infers_foldWith_all (local_demandConst (otherConstants remaining name)) (stack ++ [name])
        decl.value).isLocal σ (f.start name)
      -- The constant is not folded a second time on the way.
      have hrecalls := recalls_foldWith (otherConstants remaining name) (stack ++ [name]) decl.value σ (f.start name)
      rw [hfold] at hsteps hrecalls
      exact (Relation.ReflTransGen.head (.start hname) hsteps).tail (.finish _ (hrecalls.folding List.lookup_cons_self))
    | _ => exact .refl
  · exact (demanded_demandConst remaining stack name span σ f).1.symbols
termination_by remaining.length
decreasing_by exact length_otherConstants_lt ‹_›

lemma local_constValue : Demand.Local constValue :=
  fun stack name span _ => runs_read_bind fun σ _ hσ =>
    hσ.1 ▸ local_demandConst σ.constants stack name span trivial

instance : Frame.steps.Folding where
  demand stack name span _ := local_constValue stack name span trivial

instance : Frame.steps.Declares :=
  scopes_steps.declares fun _ _ _ => trivial

lemma expects_steps (expected) : Frame.steps.Expects expected :=
  fun t _ => admits_alone t

lemma fit_steps (b : Bindings) : b.Fit Frame.steps fun _ => False :=
  ⟨fun p _ => admits_alone p.2, fun _ => False.elim⟩

/-! ### Types and constants -/

lemma local_typeArguments (name params args span) : Local (typeArguments name params args span) :=
  local_ite (local_pure _) ((local_report _ _).bind fun _ => local_pure _)

lemma local_foldArraySize (e) : Local (foldArraySize e) :=
  (infers_foldArraySize e).isLocal

lemma local_resolveType (t) : Local (resolveType t) :=
  (infers_resolveType t).isLocal

lemma local_resolveTypes (ts) : Local (resolveTypes ts) :=
  (infers_resolveTypes ts).isLocal

/-! ### Expressions -/

abbrev Operand.Local (o : Operand) : Prop :=
  o.Infers Frame.steps

lemma Operand.Local.check {o : Operand} (h : o.Local) (expected) : Check.Local (o.check expected) :=
  (h.of_expects (expects_steps expected)).isLocal

lemma local_findMethod? (owner method) : Local (findMethod? owner method) :=
  (local_nominal? owner).bind fun _ =>
    (infers_methodOf? owner method fun k _ => ⟨(seen_alone owner.name k).kind, fun _ _ => trivial⟩).isLocal

section

variable {args : List Operand} (h : ∀ o ∈ args, o.Local)

include h

lemma local_giveUp : Local (giveUp args) :=
  (infers_giveUp h).isLocal

lemma local_applySignature (callee sig generics b expected span) :
    Local (applySignature callee sig generics b args expected span) := by
  have htype (t : Ty) :
    t.Formed (fun x => Frame.steps.Unrestricted ∨ x ∈ [] ++ sig.typeParams) Frame.steps.nominal :=
    Ty.formed_of_forall (fun _ => .inl fun _ => trivial) (fun _ _ => trivial) t
  exact (infers_applySignature callee ⟨fun _ _ => htype _, htype _⟩ (fit_steps b) h (fun _ _ => .inr (.inl trivial))
    (.inl fun _ _ => .inl trivial) (.inl (expects_steps expected)) span).isLocal

end

section

variable {fs : List FieldOperand} (h : ∀ f ∈ fs, f.value.Local)

include h

lemma local_checkFieldValues (name info fields seen b) : Local (checkFieldValues name info fields seen b fs) :=
  (infers_checkFieldValues name info (fun f _ => admits_alone f.type) seen (fit_steps b) h
    (.inl fun _ _ => .inl trivial)).isLocal

end

lemma local_operand (e) : Operand.Local ⟨e, checkExpr e⟩ :=
  infers_checkExpr e e.guarded_of_nothing (covers _)

lemma local_checkExpr (e expected) : Local (checkExpr e expected) :=
  (local_operand e).check expected

lemma local_operands (es) : ∀ o ∈ operands es, o.Local :=
  infers_operands es (Expr.allGuarded_of_nothing es) (covers _)

lemma local_optionOperand (e) : ∀ o ∈ optionOperand e, o.Local :=
  infers_optionOperand e (Expr.optionGuarded_of_nothing e) (covers _)

lemma local_fieldOperands (fs) : ∀ f ∈ fieldOperands fs, f.value.Local :=
  infers_fieldOperands fs (FieldInit.allGuarded_of_nothing fs) (covers _)

/-! ### Patterns -/

lemma local_variantPayload? (span enum variant expected) : Local (variantPayload? span enum variant expected) :=
  (infers_variantPayload? span enum variant (admits_alone expected)).isLocal

lemma local_tuplePatternTypes (span size expected) : Local (tuplePatternTypes span size expected) :=
  (infers_tuplePatternTypes span size (admits_alone expected)).isLocal

lemma local_variantPatternTypes (span enum variant size expected) :
    Local (variantPatternTypes span enum variant size expected) :=
  (infers_variantPatternTypes span enum variant size (admits_alone expected)).isLocal

lemma local_checkPattern (expected p) : Local (checkPattern expected p) :=
  (scoped_checkPattern (admits_alone expected) p).isLocal

lemma local_checkPatterns (types ps) : Local (checkPatterns types ps) :=
  (scoped_checkPatterns (Ty.allFormed_of_forall (fun _ => trivial) (fun _ _ => trivial) types) ps).isLocal

lemma local_checkCoverage (span patterns t) : Local (checkCoverage span patterns t) :=
  (infers_checkCoverage span patterns (admits_alone t)).isLocal

/-! ### Statements -/

lemma local_checkAnnotations (list target type) : Local (checkAnnotations list target type) :=
  (infers_checkAnnotations list target type).isLocal

lemma local_checkArm (t a) : Local (checkArm t a) :=
  (scoped_checkArm (admits_alone t) a a.guarded_of_nothing (covers _)).isLocal

lemma local_checkArms (t as) : Local (checkArms t as) :=
  (scoped_checkArms (admits_alone t) as (MatchArm.allGuarded_of_nothing as) (covers _)).isLocal

/-! ### Bodies -/

lemma local_checkConstantTime (list body) : Local (checkConstantTime list body) :=
  (infers_checkConstantTime list body).isLocal

lemma hosts_steps (d sig owner) : Frame.steps.Hosts d sig owner where
  typeParams _ _ := trivial
  ownerParams _ _ _ _ := trivial
  selfType o _ := admits_alone o.selfType
  params p _ := admits_alone p.2
  returnType := admits_alone sig.returnType

lemma local_checkBody (d sig owner) : Local (checkBody d sig owner) :=
  (scoped_checkBody (hosts_steps d sig owner) (allGuarded _) (covers _)).isLocal

/-! ### Shapes of declarations -/

lemma local_withTypeParams {α : Type} (params) {step : Check α} (h : Local step) :
    Local (withTypeParams params step) := by
  refine local_ite h (Local.inScope _ ((local_forM fun p _ => ?_).bind fun _ => h))
  exact local_declare rfl

lemma local_resolveSignature (typeParams params returnType) : Local (resolveSignature typeParams params returnType) :=
  (infers_resolveSignature typeParams params returnType).isLocal

lemma local_resolveFields (seen fs) : Local (resolveFields seen fs) :=
  (infers_resolveFields seen fs).isLocal

lemma local_resolveVariants (enum seen vs) : Local (resolveVariants enum seen vs) :=
  (infers_resolveVariants enum seen vs).isLocal

lemma local_resolveMethods (ownerParams seen fs) : Local (resolveMethods ownerParams seen fs) :=
  (scoped_resolveMethods ownerParams seen fs []).isLocal

lemma local_resolveImpl (block info) : Local (resolveImpl block info) :=
  local_resolveMethods _ _ _

lemma local_checkSize (d) : Local (checkSize d) := by
  refine local_read.bind fun σ => ?_
  cases d with
  | struct s | enum e => exact local_get.bind fun f => local_read.bind fun σ => local_reportIf _ _ _
  | _ => exact local_pure ()

/-! ### Declarations -/

lemma local_setKind {id g} (h : ∀ k, g k = k ∨ ∃ t v w, k = .const t v ∧ g k = .const t w) :
    Local (setKind id g) :=
  fun _ _ => .single (.constant h)

lemma local_checkConst (c) : Local (checkConst c) := by
  refine (local_global? _).bind fun g => ?_
  split
  · split
    · refine (local_recordType _ _).bind fun _ σ f => ?_
      have hvalue := (local_constValue [] c.name.node c.name.span trivial).isLocal σ f
      rw [run_bind]
      cases hv : (constValue [] c.name.node c.name.span σ f).1 with
      | none => exact hvalue
      | some v =>
        have hnoted := lookup_demandConst hv
        rename_i id _ t _ _ _ _ _ _
        rw [noteValue]
        cases v.misfit? t with
        | some m => exact hvalue.trans (local_report _ _ _ _)
        | none =>
          dsimp only
          rw [run_bind]
          refine (hvalue.trans (local_setKind (fun k => ?_) σ _)).tail (.value hnoted)
          cases k with
          | const t w => exact .inr ⟨t, w, _, rfl, rfl⟩
          | _ => exact .inl rfl
    · exact local_pure ()
  · exact local_pure ()

lemma local_checkDeclaration (d) : Local (checkDeclaration d) :=
  (scoped_checkDeclaration d).isLocal

lemma local_checkConstDeclaration (d) : Local (checkConstDeclaration d) := by
  cases d with
  | const c => exact (local_checkAnnotations _ _ _).bind fun _ => local_checkConst c
  | _ => exact local_pure ()

lemma local_checkDeclarations (decls) : Local (checkDeclarations decls) :=
  (local_forM fun d _ => local_checkConstDeclaration d).bind fun _ =>
    local_forM fun d _ => local_checkDeclaration d

end SourceCheck
