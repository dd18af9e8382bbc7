import SourceCheck.Proofs.Analysis.Coverage

/-!
# Ways through statements

When a run of statements can reach their end. An `if` may take either branch and a loop may run no times; a `match`
takes the first arm whose pattern takes the value, which has the types found for its expression.
-/

namespace SourceCheck

open List

variable {t : Ty}

attribute [local simp] Stmt.innerNodes

def TypeAt (types : SpanTable Ty) (e : Expr) (t : Ty) : Prop :=
  (e.span.key, t) ∈ types

/-- A value that has the types of an expression, as far as these are resolved. -/
def MayBe (cs : Constructors) (types : SpanTable Ty) (e : Expr) (v : Value) : Prop :=
  ∀ t, TypeAt types e t → t = .unknown ∨ HasType cs t v

def Listed (cs : Constructors) (types : SpanTable Ty) (e : Expr) : Prop :=
  ∀ t, TypeAt types e t → (cs t).isSome = true

mutual

inductive Stmt.Completes (cs : Constructors) (types : SpanTable Ty) : Stmt → Prop where
  | letBinding {span annotations mutable name type value} :
    Stmt.Completes cs types (.letBinding span annotations mutable name type value)
  | assign {span target value} :
    Stmt.Completes cs types (.assign span target value)
  | spawn {span call} :
    Stmt.Completes cs types (.spawn span call)
  | spawnWithHandle {span handle call} :
    Stmt.Completes cs types (.spawnWithHandle span handle call)
  | expr {span e} :
    ¬ TypeAt types e .never →
    Stmt.Completes cs types (.expr span e)
  | thenBranch {span condition body otherwise} :
    Stmt.CompletesAll cs types body →
    Stmt.Completes cs types (.ifThen span condition body otherwise)
  | elseBranch {span condition body otherwise} :
    otherwise.Completes cs types →
    Stmt.Completes cs types (.ifThen span condition body otherwise)
  | letBranch {span pattern value body otherwise} :
    Stmt.CompletesAll cs types body →
    Stmt.Completes cs types (.ifLet span pattern value body otherwise)
  | letElse {span pattern value body otherwise} :
    otherwise.Completes cs types →
    Stmt.Completes cs types (.ifLet span pattern value body otherwise)
  | forIn {span binding iterable body} :
    Stmt.Completes cs types (.forIn span binding iterable body)
  | arm {span scrutinee v} {before after : List MatchArm} {a : MatchArm} :
    MayBe cs types scrutinee v →
    (∀ b ∈ before, b.pattern.takes v = false) →
    a.pattern.takes v = true →
    a.body.Completes cs types →
    Stmt.Completes cs types (.matchOn span scrutinee (before ++ a :: after))
  | noArm {span scrutinee v} {arms : List MatchArm} :
    MayBe cs types scrutinee v →
    Listed cs types scrutinee →
    (∀ a ∈ arms, a.pattern.takes v = false) →
    Stmt.Completes cs types (.matchOn span scrutinee arms)
  | unsafeBlock {span body} :
    Stmt.CompletesAll cs types body →
    Stmt.Completes cs types (.unsafeBlock span body)
  | block {span body} :
    Stmt.CompletesAll cs types body →
    Stmt.Completes cs types (.block span body)

/-- Statements in a row that can be left at the end. -/
inductive Stmt.CompletesAll (cs : Constructors) (types : SpanTable Ty) : List Stmt → Prop where
  | nil : Stmt.CompletesAll cs types []
  | cons {s ss} :
    s.Completes cs types →
    Stmt.CompletesAll cs types ss →
    Stmt.CompletesAll cs types (s :: ss)

/-- What follows the body of an `if` and can be left at its end. -/
inductive ElseBranch.Completes (cs : Constructors) (types : SpanTable Ty) : ElseBranch → Prop where
  | absent : ElseBranch.Completes cs types .absent
  | block {body} :
    Stmt.CompletesAll cs types body →
    ElseBranch.Completes cs types (.block body)
  | elseIf {s} :
    s.Completes cs types →
    ElseBranch.Completes cs types (.elseIf s)

/-- Bodies of arms that can be left at their end. -/
inductive ArmBody.Completes (cs : Constructors) (types : SpanTable Ty) : ArmBody → Prop where
  | block {body} :
    Stmt.CompletesAll cs types body →
    ArmBody.Completes cs types (.block body)
  | expr {e} :
    ¬ TypeAt types e .never →
    ArmBody.Completes cs types (.expr e)

end

/-! ### Matches that take every value -/

/-- The arms take every value that the matched expression may have, if its type has finitely many constructors. -/
def TakesAll (cs : Constructors) (types : SpanTable Ty) (scrutinee : Expr) (arms : List MatchArm) :
    Prop :=
  ∀ v, MayBe cs types scrutinee v → Listed cs types scrutinee → ∃ a ∈ arms, a.pattern.takes v = true

/-- Every match among the parts takes every value. -/
def Settled (cs : Constructors) (types : SpanTable Ty) (nodes : List Node) : Prop :=
  ∀ span scrutinee arms, .stmt (.matchOn span scrutinee arms) ∈ nodes → TakesAll cs types scrutinee arms

lemma Settled.of_subset {cs types nodes nodes'}
    (h : Settled cs types nodes) (hsub : ∀ n ∈ nodes', n ∈ nodes) : Settled cs types nodes' :=
  fun span scrutinee arms hn => h span scrutinee arms (hsub _ hn)

lemma Settled.inner {cs types nodes} {s : Stmt} (h : Settled cs types (s.nodes fun _ => true))
    (hsub : ∀ n ∈ nodes, n ∈ s.innerNodes fun _ => true) : Settled cs types nodes :=
  h.of_subset fun n hn => mem_cons_of_mem _ (hsub n hn)

/-! ### Statements that return -/

section

variable {cs : Constructors} {types later : SpanTable Ty}

lemma typeAt_never {e} (h : neverReturns types e = true) (hsub : types ⊆ later) : TypeAt later e .never := by
  obtain ⟨t, hget, hnever⟩ := (Option.any_eq_true _ _).mp h
  obtain ⟨before, after, htypes, -⟩ := lookup_eq_some_iff.1 hget
  obtain rfl : t = .never := by
    cases t with
    | primitive p => cases p <;> first | rfl | simp [Ty.isNever] at hnever
    | _ => simp [Ty.isNever] at hnever
  exact hsub (by simp [htypes])

mutual

lemma Stmt.not_completes {s : Stmt} (hsub : types ⊆ later) (hs : Settled cs later (s.nodes fun _ => true))
    (h : s.returns types = true) : ¬ s.Completes cs later := by
  intro hc
  match s, hc with
  | .letBinding .., _ | .assign .., _ | .forIn .., _ | .spawn .., _ | .spawnWithHandle .., _ =>
    simp [Stmt.returns] at h
  | .expr _ e, .expr hne => exact hne (typeAt_never h hsub)
  | .ifThen _ _ body otherwise, hc =>
    obtain ⟨hbody, hother⟩ := Bool.and_eq_true_iff.1 h
    cases hc with
    | thenBranch hc => exact Stmt.not_completesAll hsub (hs.inner fun n hn => by simp [hn]) hbody hc
    | elseBranch hc => exact ElseBranch.not_completes hsub (hs.inner fun n hn => by simp [hn]) hother hc
  | .ifLet _ _ _ body otherwise, hc =>
    obtain ⟨hbody, hother⟩ := Bool.and_eq_true_iff.1 h
    cases hc with
    | letBranch hc => exact Stmt.not_completesAll hsub (hs.inner fun n hn => by simp [hn]) hbody hc
    | letElse hc => exact ElseBranch.not_completes hsub (hs.inner fun n hn => by simp [hn]) hother hc
  | .matchOn _ scrutinee arms, hc =>
    obtain ⟨-, hall⟩ := Bool.and_eq_true_iff.1 h
    have harms := MatchArm.not_completes hsub (hs.inner fun n hn => by simp [hn]) hall
    cases hc with
    | @arm _ _ _ before after a _ _ _ hbody => exact harms a (by simp) hbody
    | noArm hv hlisted hnone =>
      obtain ⟨a, ha, htakes⟩ := hs _ _ _ mem_cons_self _ hv hlisted
      simp [hnone a ha] at htakes
  | .unsafeBlock _ body, .unsafeBlock hc | .block _ body, .block hc =>
    exact Stmt.not_completesAll hsub (hs.inner fun n hn => by simp [hn]) h hc

lemma Stmt.not_completesAll {ss} (hsub : types ⊆ later) (hs : Settled cs later (Stmt.listNodes (fun _ => true) ss))
    (h : Stmt.anyReturns types ss = true) : ¬ Stmt.CompletesAll cs later ss := by
  intro hc
  match ss with
  | [] => simp [Stmt.anyReturns] at h
  | s :: ss =>
    obtain ⟨⟩ | ⟨hfirst, hrest⟩ := hc
    obtain h | h := Bool.or_eq_true_iff.1 h
    · exact Stmt.not_completes hsub (hs.of_subset fun n hn => mem_append_left _ hn) h hfirst
    · exact Stmt.not_completesAll hsub (hs.of_subset fun n hn => mem_append_right _ hn) h hrest

lemma ElseBranch.not_completes {e : ElseBranch} (hsub : types ⊆ later) (hs : Settled cs later (e.nodes fun _ => true))
    (h : e.returns types = true) : ¬ e.Completes cs later := by
  intro hc
  match e, hc with
  | .absent, _ => simp [ElseBranch.returns] at h
  | .block body, .block hc => exact Stmt.not_completesAll hsub hs h hc
  | .elseIf s, .elseIf hc => exact Stmt.not_completes hsub hs h hc

lemma ArmBody.not_completes {b : ArmBody} (hsub : types ⊆ later) (hs : Settled cs later (b.nodes fun _ => true))
    (h : b.returns types = true) : ¬ b.Completes cs later := by
  intro hc
  match b, hc with
  | .block body, .block hc => exact Stmt.not_completesAll hsub hs h hc
  | .expr e, .expr hne => exact hne (typeAt_never h hsub)

lemma MatchArm.not_completes {as} (hsub : types ⊆ later)
    (hs : Settled cs later (MatchArm.listNodes (fun _ => true) as)) (h : MatchArm.allReturn types as = true) :
    ∀ a ∈ as, ¬ a.body.Completes cs later := by
  match as with
  | [] => simp
  | .mk span pattern body :: as =>
    obtain ⟨hfirst, hrest⟩ := Bool.and_eq_true_iff.1 h
    refine forall_mem_cons.2 ⟨ArmBody.not_completes hsub ?_ hfirst, MatchArm.not_completes hsub ?_ hrest⟩
    · exact hs.of_subset fun n hn => mem_append_left _ (mem_append_right _ hn)
    · exact hs.of_subset fun n hn => mem_append_right _ hn

end

end

/-! ### Statements that were checked -/

open Check

lemma typeAt_checkExpr (e expected σ f) :
    TypeAt (checkExpr e expected σ f).2.exprTypes e (checkExpr e expected σ f).1 := by
  cases e with
  | call span callee args => cases callee <;> exact mem_cons_self
  | _ => exact mem_cons_self

/-- Types have the given constructors, each once. -/
structure Knows (σ : Setting) (cs : Constructors) (f : Findings) : Prop where
  sound : f.symbols.Sound σ.module
  eq : constructorsOf (f.enum? σ) = cs
  distinct : cs.Distinct

lemma Knows.steps {σ cs f g} (h : Knows σ cs f) (hs : Findings.Steps f g) : Knows σ cs g :=
  ⟨hs.sound h.sound, by rw [hs.enum?_eq h.sound, h.eq], h.distinct⟩

section

variable {σ : Setting} {cs : Constructors} {f : Findings} {types : SpanTable Ty}

lemma checkArmPattern_of_clean {p} (h : Clean (checkArmPattern t p) σ f) :
    (checkArmPattern t p σ f).1 = true ∧ Clean (checkPattern t p) σ f := by
  have hclean : Clean (checkPattern t p) σ f := h
  refine ⟨?_, hclean⟩
  have hrun : (checkArmPattern t p σ f).1 =
    decide ((checkPattern t p σ f).2.problems.length = f.problems.length) := rfl
  rw [hrun, hclean]
  simp

lemma checkArms_of_clean {as : List MatchArm} (h : Clean (checkArms t as) σ f) : (checkArms t as σ f).1 = true ∧
      ∀ a ∈ as, ∃ g, Findings.Steps f g ∧ Clean (checkPattern t a.pattern) σ g := by
  induction as generalizing f with
  | nil => exact ⟨rfl, by simp⟩
  | cons a as ih =>
    obtain ⟨span, pattern, body⟩ := a
    obtain ⟨harm, hrest⟩ := Clean.of_bind (local_checkArm t _)
      (fun _ => (local_checkArms t as).bind fun _ => local_pure _) h
    obtain ⟨harms, -⟩ := Clean.of_bind (local_checkArms t as) (fun _ => local_pure _) hrest
    obtain ⟨hpattern, -⟩ := Clean.of_bind (Frame.Checking.armPattern pattern (Frame.admits_alone t)).isLocal
      (fun _ => (scoped_checkArmBody body body.guarded_of_nothing (Frame.covers _)).isLocal.bind fun _ =>
        local_pure _) harm
    obtain ⟨hfine, hclean⟩ := checkArmPattern_of_clean hpattern
    obtain ⟨hfines, hpatterns⟩ := ih harms
    have hsteps := local_checkArm t (.mk span pattern body) σ f
    constructor
    · have hrun : (checkArms t (.mk span pattern body :: as) σ f).1 =
          ((checkArmPattern t pattern σ { f with symbols := f.symbols.enter .block }).1 &&
            (checkArms t as σ (checkArm t (.mk span pattern body) σ f).2).1) := rfl
      rw [hrun, hfine, hfines]
      rfl
    · refine forall_mem_cons.2 ⟨⟨_, .single (.enter f .block), hclean⟩, ?_⟩
      intro b hb
      obtain ⟨g, hg, hgclean⟩ := hpatterns b hb
      exact ⟨g, hsteps.trans hg, hgclean⟩

lemma missingShapes_of_clean {span patterns} (h : Clean (checkCoverage span patterns t) σ f) :
    missingShapes (constructorsOf (f.enum? σ)) t (patterns.map ((constructorsOf (f.enum? σ)).shape t)) = [] := by
  by_contra hne
  have hlength := congrArg List.length (h.symm.trans (problems_checkCoverage span patterns t σ f))
  simp [hne] at hlength
  omega

def checkCases (span : Span) (arms : List MatchArm) (t : Ty) : Check Unit := do
  let fine ← checkArms t arms
  if fine && !t.isUnknown then checkCoverage span (arms.map (·.pattern)) t

lemma local_checkCases (span arms t) : Local (checkCases span arms t) :=
  (local_checkArms t arms).bind fun _ => local_ite (local_checkCoverage _ _ _) (local_pure ())

lemma checkStmt_matchOn (span scrutinee arms) :
    checkStmt (.matchOn span scrutinee arms) = checkExpr scrutinee none >>= checkCases span arms :=
  rfl

lemma checkCases_of_clean {span arms} (h : Clean (checkCases span arms t) σ f) :
    Clean (checkArms t arms) σ f ∧ (t.isUnknown = false →
        Clean (checkCoverage span (arms.map (·.pattern)) t) σ (checkArms t arms σ f).2) := by
  obtain ⟨harms, hcoverage⟩ := Clean.of_bind (local_checkArms t arms)
    (fun fine => local_ite (local_checkCoverage _ _ _) (local_pure ())) h
  refine ⟨harms, fun hunknown => ?_⟩
  simpa only [(checkArms_of_clean harms).1, hunknown, Bool.not_false, Bool.and_self, ↓reduceIte] using hcoverage

lemma takesAll_of_clean {span scrutinee arms} (hk : Knows σ cs f)
    (h : Clean (checkStmt (.matchOn span scrutinee arms)) σ f)
    (hsub : (checkStmt (.matchOn span scrutinee arms) σ f).2.exprTypes ⊆ types) :
    TakesAll cs types scrutinee arms := by
  intro v hv hlisted
  have hfound := typeAt_checkExpr scrutinee none σ f
  have hk₁ := hk.steps (local_checkExpr scrutinee none σ f)
  rw [checkStmt_matchOn] at h hsub
  obtain ⟨-, hcases⟩ := Clean.of_bind (c := checkExpr scrutinee none) (local_checkExpr scrutinee none)
    (local_checkCases span arms) h
  rw [run_bind] at hsub
  generalize (checkExpr scrutinee none σ f).1 = t at *
  generalize (checkExpr scrutinee none σ f).2 = f₁ at *
  obtain ⟨harms, hcoverage⟩ := checkCases_of_clean hcases
  have htype : TypeAt types scrutinee t :=
    hsub ((local_checkCases span arms t σ f₁).exprTypes_suffix.subset hfound)
  obtain ⟨all, hall⟩ := Option.isSome_iff_exists.1 (hlisted t htype)
  have hunknown : t.isUnknown = false := by
    cases t with
    | unknown => simp [← hk.eq, constructorsOf] at hall
    | _ => rfl
  have hvalue : HasType cs t v := by
    obtain rfl | hv := hv t htype
    · simp [Ty.isUnknown] at hunknown
    · exact hv
  have hfit : ∀ p ∈ arms.map (·.pattern), Pattern.Fits cs t p := by
    intro p hp
    obtain ⟨a, ha, rfl⟩ := mem_map.1 hp
    obtain ⟨g, hg, hclean⟩ := (checkArms_of_clean harms).2 a ha
    have hkg := hk₁.steps hg
    rw [← hkg.eq]
    exact fits_of_clean hkg.sound hclean
  have hmissing := missingShapes_of_clean (hcoverage hunknown)
  rw [(hk₁.steps (local_checkArms t arms σ f₁)).eq] at hmissing
  obtain ⟨p, hp, htakes⟩ := taken_of_missingShapes_eq_nil hk.distinct hfit hall hmissing hvalue
  obtain ⟨a, ha, rfl⟩ := mem_map.1 hp
  exact ⟨a, ha, htakes⟩

end

end SourceCheck
