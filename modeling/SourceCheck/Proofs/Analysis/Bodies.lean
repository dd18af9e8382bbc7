import SourceCheck.Proofs.Analysis.Inference
import SourceCheck.Proofs.Coverage.Agree
import SourceCheck.Proofs.Tree.Reannotated

/-!
# Bodies keep to frames

The statements of a guarded body declare and note types in scope. A body that is not guarded still notes types at its
own places only: with every type parameter in scope, each expression is guarded.
-/

namespace SourceCheck

open Check SourceCheck.Frame List

variable {expected : Ty} {value : Expr}

/-! ### Guarded statements -/

mutual

def Stmt.guarded (generic : String → Bool) : Stmt → Bool
  | .letBinding _ _ _ _ _ e | .returnValue _ e | .spawn _ e | .spawnWithHandle _ _ e | .expr _ e =>
    e.guarded generic
  | .assign _ target value => target.guarded generic && value.guarded generic
  | .ifThen _ e body otherwise | .ifLet _ _ e body otherwise =>
    e.guarded generic && Stmt.allGuarded generic body && otherwise.guarded generic
  | .forIn _ _ e body => e.guarded generic && Stmt.allGuarded generic body
  | .matchOn _ e arms => e.guarded generic && MatchArm.allGuarded generic arms
  | .unsafeBlock _ body | .block _ body => Stmt.allGuarded generic body
  | .breakLoop _ | .continueLoop _ => true

def Stmt.allGuarded (generic : String → Bool) : List Stmt → Bool
  | [] => true
  | s :: ss => s.guarded generic && Stmt.allGuarded generic ss

def ElseBranch.guarded (generic : String → Bool) : ElseBranch → Bool
  | .absent => true
  | .block body => Stmt.allGuarded generic body
  | .elseIf s => s.guarded generic

def ArmBody.guarded (generic : String → Bool) : ArmBody → Bool
  | .block body => Stmt.allGuarded generic body
  | .expr e => e.guarded generic

def MatchArm.guarded (generic : String → Bool) : MatchArm → Bool
  | .mk _ _ body => body.guarded generic

def MatchArm.allGuarded (generic : String → Bool) : List MatchArm → Bool
  | [] => true
  | a :: as => a.guarded generic && MatchArm.allGuarded generic as

end

attribute [local simp] Expr.guarded

mutual

lemma Expr.guarded_of_nothing (e : Expr) : e.guarded (fun _ => false) = true := by
  match e with
  | .literal .. | .ident .. | .selfRef _ | .dotted .. | .sizeof .. => rfl
  | .binary _ a _ b | .index _ a b => simp [a.guarded_of_nothing, b.guarded_of_nothing]
  | .unary _ _ _ a | .field _ a _ | .tupleIndex _ a _ | .paren _ a | .await _ a | .arrayRepeat _ a _ =>
    simp [a.guarded_of_nothing]
  | .slice _ base start stop =>
    simp [base.guarded_of_nothing, Expr.optionGuarded_of_nothing start, Expr.optionGuarded_of_nothing stop]
  | .tuple _ elems | .array _ elems => simp [Expr.allGuarded_of_nothing elems]
  | .call _ callee args =>
    have hname : callee.namesGeneric (fun _ => false) = false := by cases callee <;> rfl
    simp [callee.guarded_of_nothing, Expr.allGuarded_of_nothing args, hname]
  | .assocCall _ _ _ _ args | .dottedCall _ _ _ args => simp [Expr.allGuarded_of_nothing args]
  | .structLit _ _ _ fields => simp [FieldInit.allGuarded_of_nothing fields]

lemma Expr.optionGuarded_of_nothing (e) : Expr.optionGuarded (fun _ => false) e = true := by
  match e with
  | none => rfl
  | some e => exact e.guarded_of_nothing

lemma Expr.allGuarded_of_nothing (es) : Expr.allGuarded (fun _ => false) es = true := by
  match es with
  | [] => rfl
  | e :: es => simp [Expr.allGuarded, e.guarded_of_nothing, Expr.allGuarded_of_nothing es]

lemma FieldInit.guarded_of_nothing (f : FieldInit) : f.guarded (fun _ => false) = true := by
  match f with
  | .mk _ value => exact value.guarded_of_nothing

lemma FieldInit.allGuarded_of_nothing (fs) : FieldInit.allGuarded (fun _ => false) fs = true := by
  match fs with
  | [] => rfl
  | f :: fs => simp [FieldInit.allGuarded, f.guarded_of_nothing, FieldInit.allGuarded_of_nothing fs]

end

mutual

lemma Stmt.guarded_of_nothing (s : Stmt) : s.guarded (fun _ => false) = true := by
  match s with
  | .letBinding _ _ _ _ _ e | .returnValue _ e | .spawn _ e | .spawnWithHandle _ _ e | .expr _ e =>
    exact e.guarded_of_nothing
  | .assign _ target value => simp [Stmt.guarded, target.guarded_of_nothing, value.guarded_of_nothing]
  | .ifThen _ e body otherwise | .ifLet _ _ e body otherwise =>
    simp [Stmt.guarded, e.guarded_of_nothing, Stmt.allGuarded_of_nothing body, otherwise.guarded_of_nothing]
  | .forIn _ _ e body => simp [Stmt.guarded, e.guarded_of_nothing, Stmt.allGuarded_of_nothing body]
  | .matchOn _ e arms => simp [Stmt.guarded, e.guarded_of_nothing, MatchArm.allGuarded_of_nothing arms]
  | .unsafeBlock _ body | .block _ body => exact Stmt.allGuarded_of_nothing body
  | .breakLoop _ | .continueLoop _ => rfl

lemma Stmt.allGuarded_of_nothing (ss) : Stmt.allGuarded (fun _ => false) ss = true := by
  match ss with
  | [] => rfl
  | s :: ss => simp [Stmt.allGuarded, s.guarded_of_nothing, Stmt.allGuarded_of_nothing ss]

lemma ElseBranch.guarded_of_nothing (e : ElseBranch) : e.guarded (fun _ => false) = true := by
  match e with
  | .absent => rfl
  | .block body => exact Stmt.allGuarded_of_nothing body
  | .elseIf s => exact s.guarded_of_nothing

lemma ArmBody.guarded_of_nothing (b : ArmBody) : b.guarded (fun _ => false) = true := by
  match b with
  | .block body => exact Stmt.allGuarded_of_nothing body
  | .expr e => exact e.guarded_of_nothing

lemma MatchArm.guarded_of_nothing (a : MatchArm) : a.guarded (fun _ => false) = true := by
  match a with
  | .mk _ _ body => exact body.guarded_of_nothing

lemma MatchArm.allGuarded_of_nothing (as) : MatchArm.allGuarded (fun _ => false) as = true := by
  match as with
  | [] => rfl
  | a :: as => simp [MatchArm.allGuarded, a.guarded_of_nothing, MatchArm.allGuarded_of_nothing as]

end

variable {F : Frame}

/-! ### Declaring names -/

structure Frame.Declarable (F : Frame) (s : Symbol) : Prop where
  isLocal : s.kind.isLocal = true
  admitted : F.Local s.name s.kind
  hidden : s.visibility = none

/-- A frame that the declaration of local names keeps to. -/
class Frame.Declaring (F : Frame) : Prop extends F.Folding where
  define_ok {f f' s id table} : F.knows f f' → F.Declarable s → f.symbols.define s = .ok (id, table) →
    ∃ table', f'.symbols.define s = .ok (id, table') ∧
      F.knows { f with symbols := table } { f' with symbols := table' } ∧ F.goes f { f with symbols := table }
  define_error {f f' s previous} : F.knows f f' → f.symbols.define s = .error previous →
    f'.symbols.define s = .error previous

lemma declarable_local (name) {t} (h : F.Admits t) (mutable origin span) :
    F.Declarable (Symbol.local name t mutable origin span) :=
  ⟨rfl, h, rfl⟩

section

variable [F.Declaring]

lemma scoped_define {s} (hs : F.Declarable s) : Obeys F (define s) (define s) := by
  intro σ σ' f f' _ hf
  cases hdefine : f.symbols.define s with
  | ok p =>
    obtain ⟨table', hdefine', hknows, hgoes⟩ := Declaring.define_ok hf hs hdefine
    rw [run_define_ok hdefine, run_define_ok hdefine']
    exact ⟨rfl, trivial, hknows, hgoes, False.elim⟩
  | error previous =>
    rw [run_define_error hdefine, run_define_error (Declaring.define_error hf hdefine)]
    exact ⟨rfl, trivial, hf, Tame.refl f, False.elim⟩

lemma scoped_declare {s} (hs : F.Declarable s) : Obeys F (declare s) (declare s) := by
  refine (scoped_define hs).bind fun r _ => ?_
  cases r with
  | ok id => exact runs_pure trivial
  | error previous => exact runs_report _ _ rfl

lemma scoped_declareFirst {s} (hs : F.Declarable s) : Obeys F (declareFirst s) (declareFirst s) :=
  (scoped_define hs).bind fun _ _ => runs_pure trivial

end

/-! ### Patterns -/

-- The linter does not see the uses of a variable in recursive calls.
set_option linter.unusedSectionVars false

section

variable [F.Lawful]

lemma infers_builtinPayload? (span enum variant) (h : F.Admits expected) :
    Infers F (builtinPayload? span enum variant expected) fun o => ∀ ts ∈ o,
      Ty.AllFormed F.params F.nominal ts := by
  unfold builtinPayload?
  split
  · refine runs_pure fun ts hts => ?_
    cases hts
    exact trivial
  · rename_i v _ _
    refine runs_pure fun ts hts => ?_
    cases hts
    have hpayload := (expects_some h).payload? v
    rw [Option.bind_some] at hpayload
    cases hv : v.payload? expected with
    | none => exact ⟨trivial, trivial⟩
    | some t => exact ⟨hpayload t hv, trivial⟩
  · exact runs_report_bind (by simp) rfl

lemma infers_enumPayload? (span enum variant) (h : F.Admits expected) :
    Infers F (enumPayload? span enum variant expected) fun o => ∀ ts ∈ o, Ty.AllFormed F.params F.nominal ts := by
  refine runs_kind?_bind fun k hk => ?_
  split
  · rename_i info variants
    dsimp only
    split
    · exact runs_report_bind (by simp) rfl
    · rename_i args hargs
      have hargs : Ty.AllFormed F.params F.nominal args := by
        split at hargs
        · split at hargs <;> cases hargs
          exact h.2
        · cases hargs
          exact trivial
        · cases hargs
      split
      · exact runs_report_bind (by simp) rfl
      · rename_i v hv
        have hpayload := Ty.allFormed_iff.1 ((hk _ rfl).kind.formed.2 v (mem_of_find?_eq_some hv))
        refine runs_pure fun ts hts => Ty.allFormed_iff.2 fun t ht => ?_
        cases hts
        obtain ⟨u, hu, rfl⟩ := mem_map.1 ht
        refine (hpayload u hu).instantiate (Bindings.formed_ofLists hargs) fun x hx => ?_
        exact hx.elim (fun hfree => .inr (.inl (hfree x))) .inl
  · exact runs_report_bind (by simp) rfl
  · exact runs_report_bind (by simp) rfl

lemma infers_variantPayload? (span enum variant) (h : F.Admits expected) :
    Infers F (variantPayload? span enum variant expected) fun o => ∀ ts ∈ o,
      Ty.AllFormed F.params F.nominal ts := by
  unfold variantPayload?
  split
  · exact infers_builtinPayload? _ _ _ h
  · exact infers_builtinPayload? _ _ _ h
  · exact infers_builtinPayload? _ _ _ h
  · exact infers_builtinPayload? _ _ _ h
  · exact runs_report_bind (by simp) rfl
  · exact runs_report_bind (by simp) rfl
  · exact infers_enumPayload? _ _ _ h

lemma infers_tuplePatternTypes (span size) (h : F.Admits expected) :
    Infers F (tuplePatternTypes span size expected) (Ty.AllFormed F.params F.nominal) := by
  unfold tuplePatternTypes
  split
  · exact runs_ite (runs_pure h) (runs_report_bind (Ty.allFormed_replicate_unknown _) rfl)
  · exact runs_pure (Ty.allFormed_replicate_unknown _)
  · exact runs_report_bind (Ty.allFormed_replicate_unknown _) rfl

lemma infers_variantPatternTypes (span enum variant size) (h : F.Admits expected) :
    Infers F (variantPatternTypes span enum variant size expected) (Ty.AllFormed F.params F.nominal) := by
  refine (infers_variantPayload? _ _ _ h).bind fun p hp => ?_
  split
  · exact runs_pure (Ty.allFormed_replicate_unknown _)
  · exact runs_ite (runs_pure (hp _ rfl)) (runs_report_bind (Ty.allFormed_replicate_unknown _) rfl)

def SymbolKind.enum? : SymbolKind → Option (List String × List VariantInfo)
  | .enum info variants => some (info.typeParams, variants)
  | _ => none

lemma Findings.enum?_eq_bind (f : Findings) (σ n) : f.enum? σ n = (f.nominal? σ n).bind SymbolKind.enum? := by
  unfold Findings.enum?
  split
  · rename_i hkind
    simp [hkind, SymbolKind.enum?]
  · rename_i hkind
    cases hn : f.nominal? σ n with
    | none => rfl
    | some k =>
      cases k with
      | enum info variants => exact absurd hn (hkind info variants)
      | _ => rfl

lemma constructors_agree {σ σ' f f'} (hσ : F.reads σ σ') (hf : F.knows f f') :
    Constructors.Agree F.params F.nominal (constructorsOf (f.enum? σ)) (constructorsOf (f'.enum? σ')) := by
  have henum (f : Findings) (σ : Setting) (n : Nominal) :
      f.enum? σ n = ((f.nominal? σ n).map (·.unowned.unplaced)).bind SymbolKind.enum? := by
    rw [Findings.enum?_eq_bind, Option.bind_map]
    congr 1
    funext k
    cases k <;> rfl
  refine constructorsOf_agree (fun n m hn => ?_) fun n m params variants hn henum => ?_
  · rw [henum, henum, Lawful.nominal? hσ hf hn]
  · rw [Findings.enum?] at henum
    split at henum
    · rename_i info vs hk
      cases henum
      intro v hv
      refine ((Lawful.nominalKind hσ hf hn hk).1.formed.2 v hv).imp (fun x hx => ?_) fun _ _ => id
      exact hx.elim (fun hfree => .inr (hfree x)) .inl
    · cases henum

lemma infers_checkCoverage (span patterns) {t} (h : F.Admits t) : Heeds F (checkCoverage span patterns t) := by
  refine runs_get_bind fun f f' hf => runs_read_bind fun σ σ' hσ => ?_
  have hagree := constructors_agree hσ hf
  have hshapes : patterns.map (Constructors.shape (constructorsOf (f'.enum? σ')) t) =
      patterns.map (Constructors.shape (constructorsOf (f.enum? σ)) t) :=
    map_congr_left fun p _ => hagree.shape h p
  simp only [hshapes, hagree.unreachableArms h, hagree.missingShapes h]
  exact (runs_forM fun a _ => runs_reportIf _ _ _ rfl).bind fun _ _ => runs_reportIf _ _ _ rfl

end

section

variable [F.Inferring]

lemma infers_checkPatternLiteral (span value expected) : Heeds F (checkPatternLiteral span value expected) := by
  unfold checkPatternLiteral
  split
  · exact (infers_checkNumeral _ _ _ _).bind fun _ _ => infers_expectType _ _ _ _
  · exact infers_expectType _ _ _ _

section

variable [F.Declaring]

mutual

lemma scoped_checkPattern {expected} (h : F.Admits expected) (p) :
    Obeys F (checkPattern expected p) (checkPattern expected p) := by
  match p with
  | .wildcard _ => exact runs_pure trivial
  | .binding .. => exact scoped_declare (declarable_local _ h _ _ _)
  | .literal .. => exact (infers_checkPatternLiteral _ _ _).scoped
  | .tuple _ elems =>
    exact (infers_tuplePatternTypes _ _ h).scoped.bind fun ts hts => scoped_checkPatterns hts elems
  | .variant _ _ _ args =>
    exact (infers_variantPatternTypes _ _ _ _ h).scoped.bind fun ts hts => scoped_checkPatterns hts args

lemma scoped_checkPatterns {types} (h : Ty.AllFormed F.params F.nominal types) (ps) :
    Obeys F (checkPatterns types ps) (checkPatterns types ps) := by
  match ps, types with
  | [], _ | _ :: _, [] => exact runs_pure trivial
  | p :: ps, t :: ts =>
    exact (scoped_checkPattern h.1 p).bind fun _ _ => scoped_checkPatterns h.2 ps

end

lemma scoped_checkArmPattern (hcount : ∀ f f', F.knows f f' → f'.problems.length = f.problems.length) {t}
    (h : F.Admits t) (p) : Obeys F (checkArmPattern t p) (checkArmPattern t p) := by
  refine runs_get_bind fun f f' hf => (scoped_checkPattern h p).bind fun _ _ => runs_get_bind fun g g' hg => ?_
  rw [hcount f f' hf, hcount g g' hg]
  exact runs_pure trivial

end

end

/-! ### Annotations -/

class Frame.Checking (F : Frame) : Prop extends F.Declaring, F.Inferring where
  /-- What is wrong with annotations is noted where there are any. -/
  remark {f f'} (p : SemanticProblem) (span) :
    F.knows f f' → p.kind = .annotationConflict → F.knows (f.noted p span)
        (if F.bare then f' else f'.noted p span) ∧
      F.goes f (f.noted p span)
  enter {f f'} (kind) : F.knows f f' → F.knows (f.enter kind) (f'.enter kind)
  leave {f f' g g'} (kind) : F.knows f f' → F.goes (f.enter kind) g → F.knows g g' →
    F.knows { g with symbols := g.symbols.leave } { g' with symbols := g'.symbols.leave } ∧
      F.goes f { g with symbols := g.symbols.leave }
  returned {σ σ'} : F.reads σ σ' → σ'.function = σ.function ∧ ∀ c ∈ σ.function, F.Admits c.returnType
  function {σ σ'} {c : FunctionContext} : F.reads σ σ' → F.Admits c.returnType →
    F.reads { σ with function := some c } { σ' with function := some c }
  armPattern {t} (p : Pattern) : F.Admits t → Obeys F (checkArmPattern t p) (checkArmPattern t p)

section

variable [F.Checking]

lemma Check.Runs.inScope {α : Type} {still : Prop} {c c'} {Q : α → Prop} (kind)
    (h : Runs F still c c' Q) : Scoped F (inScope kind c) (inScope kind c') Q := by
  intro σ σ' f f' hσ hf
  have hends := h hσ (Checking.enter kind hf)
  obtain ⟨hknows, hgoes⟩ := Checking.leave kind hf hends.goes hends.knows
  exact ⟨hends.same, hends.result, hknows, hgoes, False.elim⟩

lemma infers_remarks {problems problems' : List (Report SemanticProblem)}
    (hkind : ∀ r ∈ problems, r.cause.kind = .annotationConflict)
    (hsame : problems' = if F.bare then [] else problems) :
    Runs F True (problems.forM fun r => report r.cause r.span) (problems'.forM fun r => report r.cause r.span)
      fun _ => True := by
  induction problems generalizing problems' with
  | nil =>
    obtain rfl : problems' = [] := by simpa using hsame
    exact runs_pure trivial
  | cons r problems ih =>
    have hrest := fun problems' => @ih problems' fun q hq => hkind q (by simp [hq])
    intro σ σ' f f' hσ hf
    obtain ⟨hknows, hgoes⟩ := Checking.remark r.cause r.span hf (hkind r (by simp))
    cases hbare : F.bare with
    | true =>
      obtain rfl : problems' = [] := by simpa [hbare] using hsame
      rw [hbare, if_pos rfl] at hknows
      have hends := hrest [] (by simp [hbare]) hσ hknows
      exact { hends with goes := Tame.trans hgoes hends.goes }
    | false =>
      obtain rfl : problems' = r :: problems := by simpa [hbare] using hsame
      rw [hbare, if_neg (by decide)] at hknows
      have hends := hrest problems (by simp [hbare]) hσ hknows
      exact { hends with goes := Tame.trans hgoes hends.goes }

lemma kind_of_mem_annotationProblems {list target type r} (h : r ∈ annotationProblems list target type) :
    r.cause.kind = .annotationConflict := by
  obtain h | h := mem_append.1 h
  · obtain ⟨category, -, hconflict⟩ := mem_filterMap.1 h
    unfold conflict? at hconflict
    split at hconflict <;> cases hconflict
    cases category <;> rfl
  · obtain ⟨⟨d, a⟩, -, hmem⟩ := mem_flatMap.1 h
    obtain ⟨p, hp, rfl⟩ := mem_map.1 hmem
    unfold directiveProblems argumentProblems borrowProblems at hp
    grind [SemanticProblem.kind]

lemma infers_checkAnnotations (list target type) :
    Runs F True (checkAnnotations list target type) (checkAnnotations (F.annotations list) target type)
      fun _ => True := by
  refine infers_remarks (fun r => kind_of_mem_annotationProblems) ?_
  unfold Frame.annotations
  cases F.bare <;> rfl

lemma infers_checkOwnership (list name value) :
    Runs F True (checkOwnership list name value) (checkOwnership (F.annotations list) name value) fun _ => True := by
  let problems (list : List Annotation) : List (Report SemanticProblem) :=
    (findDirective? .ownership list).elim [] fun a =>
      if value.allocates then [] else [⟨.nothingAllocated name, a.span⟩]
  have hrun (list : List Annotation) : checkOwnership list name value =
      (problems list).forM fun r => report r.cause r.span := by
    unfold checkOwnership
    dsimp only [problems]
    cases findDirective? .ownership list with
    | none => rfl
    | some a => cases value.allocates <;> rfl
  rw [hrun, hrun]
  refine infers_remarks (fun r hr => ?_) ?_
  · dsimp only [problems] at hr
    cases hfound : findDirective? .ownership list with
    | none =>
      rw [hfound] at hr
      cases hr
    | some a =>
      rw [hfound, Option.elim_some] at hr
      split at hr
      · cases hr
      · obtain rfl := mem_singleton.1 hr
        rfl
  · unfold Frame.annotations
    cases F.bare <;> rfl

lemma infers_checkConstantTime (list body) :
    Runs F True (checkConstantTime list body)
      (checkConstantTime (F.annotations list) (Stmt.reannotateAll F.annotations body)) fun _ => True := by
  let problems (list : List Annotation) (body : List Stmt) : List (Report SemanticProblem) :=
    if hasDirective .constantTime list then variableTimeProblems body else []
  have hrun (list : List Annotation) (body : List Stmt) : checkConstantTime list body =
      (problems list body).forM fun r => report r.cause r.span := by
    unfold checkConstantTime
    dsimp only [problems]
    split <;> rfl
  rw [hrun, hrun]
  refine infers_remarks (fun r hr => ?_) ?_
  · dsimp only [problems] at hr
    split at hr
    · obtain ⟨n, -, hn⟩ := mem_filterMap.1 hr
      cases n with
      | stmt s | expr e =>
        obtain ⟨c, -, rfl⟩ := Option.map_eq_some_iff.1 hn
        rfl
      | _ => cases hn
    · cases hr
  · unfold Frame.annotations
    cases F.bare with
    | true => rfl
    | false => exact congrArg (problems list) (Stmt.reannotateAll_id body)

/-! ### Statements -/

/-- A guarded expression whose places are those of the frame. -/
structure Frame.Holds (F : Frame) (e : Expr) : Prop where
  guarded : e.guarded F.generic = true
  covers : F.Covers e.nodes

lemma Frame.Holds.some {e} (h : F.Holds e) {t} (ht : F.Admits t) : Infers F (checkExpr e (some t)) F.Admits :=
  infers_checkExpr e h.guarded h.covers _ (.inl (expects_some ht))

lemma Frame.Holds.none {e} (h : F.Holds e) : Infers F (checkExpr e none) F.Admits :=
  (infers_checkExpr e h.guarded h.covers).none

lemma scoped_checkLet (annotations mutable name type)
    (h : F.Holds value) : Obeys F (checkLet annotations mutable name type value)
      (checkLet (F.annotations annotations) mutable name type value) := by
  refine (infers_resolveType _).scoped.bind fun t ht => ?_
  have ht := admits_of_writes ht
  refine (h.some ht).scoped.bind fun actual _ => ?_
  refine (infers_expectType _ _ _ _).scoped.bind fun _ _ => ?_
  refine (infers_checkAnnotations _ _ _).scoped.bind fun _ _ => ?_
  refine (infers_checkOwnership _ _ _).scoped.bind fun _ _ => ?_
  exact scoped_declare (declarable_local _ ht _ _ _)

lemma infers_checkAssign (span) {target} (htarget : F.Holds target)
    (hvalue : F.Holds value) : Heeds F (checkAssign span target value) := by
  refine htarget.none.bind fun t ht => (hvalue.some ht).bind fun _ _ => ?_
  exact (infers_expectType _ _ _ _).bind fun _ _ => infers_checkPlace _ _ _

lemma infers_checkReturn (h : F.Holds value) : Heeds F (checkReturn value) := by
  refine runs_read_bind fun σ σ' hσ => ?_
  obtain ⟨hsame, hreturned⟩ := Checking.returned hσ
  rw [hsame]
  split
  · rename_i f hf
    exact (h.some (hreturned f hf)).bind fun _ _ => infers_expectType _ _ _ _
  · exact (h.some (t := .unknown) trivial).bind fun _ _ => runs_pure trivial

lemma infers_checkSpawned {call} (h : F.Holds call) : Infers F (checkSpawned call) F.Admits :=
  (runs_reportIf _ _ _ rfl).bind fun _ _ => h.none

lemma infers_checkIterable {iterable} (h : F.Holds iterable) : Infers F (checkIterable iterable) F.Admits := by
  refine h.none.bind fun t ht => ?_
  split
  · exact runs_pure ht
  · exact runs_pure ht
  · exact runs_pure trivial
  · exact runs_pure trivial
  · exact infers_refuse _ _ rfl

mutual

lemma scoped_checkStmt (s) (hguard : s.guarded F.generic = true)
    (hcovers : F.Covers (Stmt.innerNodes (fun _ => true) s)) :
    Obeys F (checkStmt s) (checkStmt (s.reannotate F.annotations)) := by
  match s with
  | .letBinding .. => exact scoped_checkLet _ _ _ _ ⟨hguard, hcovers.right⟩
  | .assign .. =>
    rw [Stmt.guarded, Bool.and_eq_true] at hguard
    exact (infers_checkAssign _ ⟨hguard.1, hcovers.left⟩ ⟨hguard.2, hcovers.right⟩).scoped
  | .returnValue .. => exact (infers_checkReturn ⟨hguard, hcovers⟩).scoped
  | .ifThen _ condition body otherwise =>
    simp only [Stmt.guarded, Bool.and_eq_true] at hguard
    have hcondition : F.Holds _ := ⟨hguard.1.1, hcovers.left.left⟩
    refine ((hcondition.some (t := .bool) trivial).bind fun _ _ => infers_expectType _ _ _ _).scoped.bind fun _ _ => ?_
    refine ((scoped_checkStmts body hguard.1.2 hcovers.left.right).inScope _).bind fun _ _ => ?_
    exact scoped_checkElse otherwise hguard.2 hcovers.right
  | .ifLet _ pattern value body otherwise =>
    simp only [Stmt.guarded, Bool.and_eq_true] at hguard
    have hvalue : F.Holds value := ⟨hguard.1.1, hcovers.left.left.right⟩
    refine hvalue.none.scoped.bind fun t ht => ?_
    have hbody := (scoped_checkPattern ht pattern).bind fun _ _ =>
      scoped_checkStmts body hguard.1.2 hcovers.left.right
    exact (hbody.inScope _).bind fun _ _ => scoped_checkElse otherwise hguard.2 hcovers.right
  | .forIn _ binding iterable body =>
    rw [Stmt.guarded, Bool.and_eq_true] at hguard
    refine (infers_checkIterable ⟨hguard.1, hcovers.left⟩).scoped.bind fun t ht => ?_
    refine Runs.inScope _ ((scoped_declare (declarable_local _ ht _ _ _)).bind fun _ _ => ?_)
    exact scoped_checkStmts body hguard.2 hcovers.right
  | .matchOn _ scrutinee arms =>
    rw [Stmt.guarded, Bool.and_eq_true] at hguard
    have hscrutinee : F.Holds scrutinee := ⟨hguard.1, hcovers.left⟩
    refine hscrutinee.none.scoped.bind fun t ht => ?_
    refine (scoped_checkArms ht arms hguard.2 hcovers.right).bind fun fine _ => ?_
    rw [MatchArm.map_pattern_reannotateAll]
    exact runs_ite (infers_checkCoverage _ _ ht).scoped (runs_pure trivial)
  | .spawn .. => exact ((infers_checkSpawned ⟨hguard, hcovers⟩).bind fun _ _ => runs_pure trivial).scoped
  | .spawnWithHandle .. =>
    exact (infers_checkSpawned ⟨hguard, hcovers⟩).scoped.bind fun t ht =>
      scoped_declare (declarable_local _ (t := .taskHandle t) ht _ _ _)
  | .unsafeBlock _ body | .block _ body => exact (scoped_checkStmts body hguard hcovers).inScope _
  | .breakLoop _ | .continueLoop _ => exact ((infers_inside _).bind fun _ _ => runs_reportIf _ _ _ rfl).scoped
  | .expr _ value =>
    have hvalue : F.Holds value := ⟨hguard, hcovers⟩
    exact (hvalue.none.bind fun _ _ => runs_pure trivial).scoped

lemma scoped_checkStmts (ss) (hguard : Stmt.allGuarded F.generic ss = true)
    (hcovers : F.Covers (Stmt.listNodes (fun _ => true) ss)) :
    Obeys F (checkStmts ss) (checkStmts (Stmt.reannotateAll F.annotations ss)) := by
  match ss with
  | [] => exact runs_pure trivial
  | s :: ss =>
    rw [Stmt.allGuarded, Bool.and_eq_true] at hguard
    refine (scoped_checkStmt s hguard.1 hcovers.left.tail).bind fun _ _ => ?_
    exact scoped_checkStmts ss hguard.2 hcovers.right

lemma scoped_checkElse (e) (hguard : e.guarded F.generic = true) (hcovers : F.Covers (e.nodes fun _ => true)) :
    Obeys F (checkElse e) (checkElse (e.reannotate F.annotations)) := by
  match e with
  | .absent => exact runs_pure trivial
  | .block body => exact (scoped_checkStmts body hguard hcovers).inScope _
  | .elseIf s => exact scoped_checkStmt s hguard hcovers.tail

lemma scoped_checkArmBody (b) (hguard : b.guarded F.generic = true) (hcovers : F.Covers (b.nodes fun _ => true)) :
    Obeys F (checkArmBody b) (checkArmBody (b.reannotate F.annotations)) := by
  match b with
  | .block body => exact scoped_checkStmts body hguard hcovers
  | .expr value =>
    have hvalue : F.Holds value := ⟨hguard, hcovers⟩
    exact (hvalue.none.bind fun _ _ => runs_pure trivial).scoped

lemma scoped_checkArm {t} (h : F.Admits t) (a) (hguard : a.guarded F.generic = true)
    (hcovers : F.Covers (a.nodes fun _ => true)) :
    Obeys F (checkArm t a) (checkArm t (a.reannotate F.annotations)) := by
  match a with
  | .mk _ pattern body =>
    refine Runs.inScope _ ((Checking.armPattern pattern h).bind fun _ _ => ?_)
    exact (scoped_checkArmBody body hguard hcovers.right).bind fun _ _ => runs_pure trivial

lemma scoped_checkArms {t} (h : F.Admits t) (as) (hguard : MatchArm.allGuarded F.generic as = true)
    (hcovers : F.Covers (MatchArm.listNodes (fun _ => true) as)) :
    Obeys F (checkArms t as) (checkArms t (MatchArm.reannotateAll F.annotations as)) := by
  match as with
  | [] => exact runs_pure trivial
  | a :: as =>
    rw [MatchArm.allGuarded, Bool.and_eq_true] at hguard
    refine (scoped_checkArm h a hguard.1 hcovers.left).bind fun _ _ => ?_
    exact (scoped_checkArms h as hguard.2 hcovers.right).bind fun _ _ => runs_pure trivial

end

/-! ### Bodies -/

lemma scoped_declareTypeParam {p} (h : F.params p.node) :
    Obeys F (declareFirst (typeParamSymbol p)) (declareFirst (typeParamSymbol p)) :=
  scoped_declareFirst ⟨rfl, h, rfl⟩

lemma scoped_declareReceiver {owner} (h : ∀ o ∈ owner, F.Admits o.selfType) (span) :
    Obeys F (declareReceiver owner span) (declareReceiver owner span) := by
  unfold declareReceiver
  split
  · rename_i o
    exact scoped_declareFirst (declarable_local _ (h o rfl) _ _ _)
  · exact (infers_refuse _ _ rfl).scoped.bind fun _ ht => scoped_declareFirst (declarable_local _ ht _ _ _)

lemma scoped_declareParam (p name) {t} (h : F.Admits t) :
    Obeys F (declareParam p name t) (declareParam (p.reannotate F.annotations) name t) :=
  (infers_checkAnnotations _ _ _).scoped.bind fun _ _ =>
    scoped_declareFirst (declarable_local _ h _ _ _)

lemma scoped_declareParams (ps : List Param) {params} (h : ∀ p ∈ params, F.Admits p.2) :
    Obeys F ((ps.zip params).forM fun (p, name, t) => declareParam p name t)
      (((ps.map (·.reannotate F.annotations)).zip params).forM fun (p, name, t) => declareParam p name t) := by
  induction ps generalizing params with
  | nil => exact runs_pure trivial
  | cons p ps ih =>
    cases params with
    | nil => exact runs_pure trivial
    | cons q params =>
      have hrest := @ih params fun r hr => h r (by simp [hr])
      exact (scoped_declareParam p q.1 (h q (by simp))).bind fun _ _ => hrest

/-- What a body sees of its function and its owner. -/
structure Frame.Hosts (F : Frame) (f : FunctionDecl) (sig : Signature) (owner : Option Owner) : Prop where
  typeParams : ∀ p ∈ f.typeParams, F.params p.node
  ownerParams : ∀ o ∈ owner, ∀ x ∈ o.info.typeParams, F.params x
  selfType : ∀ o ∈ owner, F.Admits o.selfType
  params : ∀ p ∈ sig.params, F.Admits p.2
  returnType : F.Admits sig.returnType

variable {d : FunctionDecl} {sig : Signature} {owner : Option Owner} (h : F.Hosts d sig owner)
  (hguard : Stmt.allGuarded F.generic d.body = true) (hcovers : F.Covers (Stmt.listNodes (fun _ => true) d.body))

include h hguard hcovers

lemma scoped_checkBodyScope :
    Obeys F (checkBodyScope d sig owner) (checkBodyScope (d.reannotate F.annotations) sig owner) := by
  refine (runs_forM fun x hx => scoped_declareTypeParam ?_).bind fun _ _ => ?_
  · cases owner with
    | none => simp at hx
    | some o => exact h.ownerParams o rfl x hx
  refine (runs_forM fun p hp => scoped_declareTypeParam (h.typeParams p hp)).bind fun _ _ => ?_
  refine (runs_option_forM fun span _ => scoped_declareReceiver h.selfType span).bind fun _ _ => ?_
  refine (scoped_declareParams d.params h.params).bind fun _ _ => ?_
  intro σ σ' f f' hσ hf
  exact scoped_checkStmts d.body hguard hcovers (Checking.function hσ h.returnType) hf

lemma scoped_checkBody : Obeys F (checkBody d sig owner) (checkBody (d.reannotate F.annotations) sig owner) := by
  refine ((scoped_checkBodyScope h hguard hcovers).inScope _).bind fun _ _ => ?_
  refine (infers_checkConstantTime _ _).scoped.bind fun _ _ => runs_get_bind fun f f' hf => ?_
  rw [Lawful.exprTypes hf]
  simp only [FunctionDecl.reannotate, Stmt.anyReturns_reannotateAll]
  exact runs_reportIf _ _ _ rfl

end

end SourceCheck
