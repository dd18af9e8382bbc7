import SourceCheck.Analysis.Expr
import SourceCheck.Proofs.Ty.Assignable
import SourceCheck.Proofs.Ty.Matching

/-!
# Arguments of calls

Arguments are compared one by one, each with what is known about the type parameters by then. Later ones tell nothing
that would change an earlier comparison, so a call is checked as if its type parameters had been known from the start.
-/

namespace SourceCheck

open Check

/-! ### Types that are known -/

/-- Whether `types` has the types that are known. -/
def Bindings.Within (b : Bindings) (types : String → Option Ty) : Prop :=
  ∀ x t, b.type? x = some t → types x = some t

namespace Ty

variable {types types' : String → Option Ty}

mutual

/-- Whether a type suits depends on what it tells about the type parameters only. -/
lemma Suits.of_unify : ∀ {p a : Ty} {b : Bindings}, (p.unify a b).Within types → (p.unify a b).Within types' →
    Suits a (p.substitute types) → Suits a (p.substitute types')
  | .param x, a, b, hb, hb', h => by
    by_cases ha : a = .unknown
    · exact ha ▸ .ofUnknown
    · -- The argument binds `x` unless it was bound, so both substitutions have the same type for it.
      rw [unify_param x ha] at hb hb'
      obtain ⟨t, ht⟩ : ∃ t, (b.add x a).type? x = some t := by
        rw [Bindings.type?_add, if_pos rfl]
        cases b.type? x <;> simp
      rw [substitute, hb x t ht] at h
      rwa [substitute, hb' x t ht]
  | .primitive _, _, _, _, _, h | .infinite, _, _, _, _, h | .unknown, _, _, _, _, h => h
  | .slice p, _, b, hb, hb', h => by
    cases h with
    | ofUnknown | never => constructor
    | slice h => exact .slice (Suits.of_unify (b := b) hb hb' h)
    | arraySlice h => exact .arraySlice (Suits.of_unify (b := b) hb hb' h)
  | .array p _, _, b, hb, hb', h => by
    cases h with
    | ofUnknown | never => constructor
    | array h hsize => exact .array (Suits.of_unify (b := b) hb hb' h) hsize
  | .pointer _ p, _, b, hb, hb', h => by
    cases h with
    | ofUnknown | never => constructor
    | pointer hm h => exact .pointer hm (Suits.of_unify (b := b) hb hb' h)
  | .result p q, _, b, hb, hb', h => by
    cases h with
    | ofUnknown | never => constructor
    | result h₁ h₂ =>
      -- What the first part tells is still known after the second.
      rw [unify] at hb hb'
      refine .result (Suits.of_unify (b := b) ?_ ?_ h₁) (Suits.of_unify hb hb' h₂)
      · exact fun x t ht => hb x t (type?_unify _ _ ht)
      · exact fun x t ht => hb' x t (type?_unify _ _ ht)
  | .option p, _, b, hb, hb', h => by
    cases h with
    | ofUnknown | never => constructor
    | option h => exact .option (Suits.of_unify (b := b) hb hb' h)
  | .taskHandle p, _, b, hb, hb', h => by
    cases h with
    | ofUnknown | never => constructor
    | taskHandle h => exact .taskHandle (Suits.of_unify (b := b) hb hb' h)
  | .tuple ps, _, b, hb, hb', h => by
    cases h with
    | ofUnknown | never => constructor
    | tuple h => exact .tuple (AllSuit.of_unifyAll (b := b) hb hb' h)
  | .struct n ps, _, b, hb, hb', h => by
    cases h with
    | ofUnknown | never => constructor
    | struct h =>
      rw [unify, if_pos rfl] at hb hb'
      exact .struct (AllSuit.of_unifyAll hb hb' h)
  | .enum n ps, _, b, hb, hb', h => by
    cases h with
    | ofUnknown | never => constructor
    | enum h =>
      rw [unify, if_pos rfl] at hb hb'
      exact .enum (AllSuit.of_unifyAll hb hb' h)

lemma AllSuit.of_unifyAll : ∀ {ps as : List Ty} {b : Bindings}, (unifyAll ps as b).Within types →
    (unifyAll ps as b).Within types' → AllSuit as (substituteList types ps) → AllSuit as (substituteList types' ps)
  | [], _, _, _, _, h => h
  | p :: ps, _, b, hb, hb', h => by
    cases h with
    | cons h hrest =>
      rw [unifyAll] at hb hb'
      refine .cons (Suits.of_unify (b := b) ?_ ?_ h) (AllSuit.of_unifyAll hb hb' hrest)
      · exact fun x t ht => hb x t (type?_unifyAll _ _ ht)
      · exact fun x t ht => hb' x t (type?_unifyAll _ _ ht)

end

/-- Types for the parameters that agree with what an argument tells decide alike. -/
lemma assignable_substitute_iff {p a : Ty} {b} (h : (p.unify a b).Within types) (h' : (p.unify a b).Within types') :
    a.assignable (p.substitute types) = true ↔ a.assignable (p.substitute types') = true := by
  rw [assignable_iff, assignable_iff]
  exact ⟨Suits.of_unify h h', Suits.of_unify h' h⟩

end Ty

/-! ### The arguments of a call -/

/-- The type of an argument, what was known when it was found, and when it was compared. -/
structure ArgumentCheck where
  param : String × Ty
  type : Ty
  found : Findings
  compared : Findings

/-- The checks of the arguments of a call, from left to right. -/
def argumentChecks (callee : String) (σ : Setting) :
    List Operand → List (String × Ty) → Bindings → Findings → List ArgumentCheck
  | o :: os, p :: params, b, f =>
    let own := o.check (some (p.2.substitute b.type?)) σ f
    let whole := checkAgainst o p.2 b (.argument p.1 callee) σ f
    ⟨p, own.1, own.2, whole.2⟩ :: argumentChecks callee σ os params whole.1 whole.2
  | _, _, _, _ => []

/-- What is known about the type parameters before arguments are checked. -/
def Signature.bindingsFrom (sig : Signature) (generics : List String) (b : Bindings) (expected : Option Ty) :
    Bindings :=
  match expected with
  | some t => if generics.isEmpty then b else sig.returnType.unify t b
  | none => b

variable {σ : Setting} {f : Findings} {b : Bindings} {callee : String}

/-- A mismatch is reported unless the type is assignable. -/
lemma problems_checkAgainst (o t b site) :
    (checkAgainst o t b site σ f).2.problems = (o.check (some (t.substitute b.type?)) σ f).2.problems ↔
      (o.check (some (t.substitute b.type?)) σ f).1.assignable
        (t.substitute (checkAgainst o t b site σ f).1.type?) = true := by
  have hrun : checkAgainst o t b site σ f =
      let own := o.check (some (t.substitute b.type?)) σ f
      (t.unify own.1 b, (expectType (t.substitute (t.unify own.1 b).type?) own.1 o.span site σ own.2).2) := rfl
  rw [hrun]
  generalize o.check (some (t.substitute b.type?)) σ f = own
  dsimp only
  rw [expectType, reportIf]
  cases own.1.assignable (t.substitute (t.unify own.1 b).type?) with
  | true => exact iff_of_true rfl rfl
  | false => exact iff_of_false (List.cons_ne_self _ _) Bool.false_ne_true

/-- A type that is known for a type parameter stays. -/
lemma within_checkArguments (os params) (b : Bindings) (f) :
    b.Within (checkArguments callee os params b σ f).1.type? := by
  induction os generalizing params b f with
  | nil => exact fun _ _ h => h
  | cons o os ih =>
    cases params with
    | nil => exact fun _ _ h => h
    | cons p params => exact fun x t h => ih params _ _ x t (Ty.type?_unify p.2 _ h)

/-- A mismatch is reported for exactly the arguments that are not assignable in the end. -/
lemma problems_argumentChecks {types} (os) {params b f} (h : (checkArguments callee os params b σ f).1.Within types) :
    ∀ c ∈ argumentChecks callee σ os params b f,
      c.compared.problems = c.found.problems ↔ c.type.assignable (c.param.2.substitute types) = true := by
  induction os generalizing params b f with
  | nil => exact fun c hc => absurd hc List.not_mem_nil
  | cons o os ih =>
    cases params with
    | nil => exact fun c hc => absurd hc List.not_mem_nil
    | cons p params =>
      intro c hc
      rw [argumentChecks, List.mem_cons] at hc
      obtain rfl | hc := hc
      · -- Later arguments add types to those with which this one was compared, and change none.
        refine (problems_checkAgainst o p.2 b _).trans ?_
        refine Ty.assignable_substitute_iff (b := b) (fun _ _ ht => ht) fun x t ht => ?_
        exact h x t (within_checkArguments os params _ _ x t ht)
      · exact ih h c hc

/-- Each parameter has its check, and the last one leaves what all leave. -/
lemma getLast?_argumentChecks {os params} (hlength : os.length = params.length) (b f) :
    (argumentChecks callee σ os params b f).map (·.param) = params ∧ (checkArguments callee os params b σ f).2 =
        ((argumentChecks callee σ os params b f).getLast?.map (·.compared)).getD f := by
  induction os generalizing params b f with
  | nil =>
    cases params with
    | nil => exact ⟨rfl, rfl⟩
    | cons p params => cases hlength
  | cons o os ih =>
    cases params with
    | nil => cases hlength
    | cons p params =>
      have hrest := @ih params (by simpa using hlength) (checkAgainst o p.2 b (.argument p.1 callee) σ f).1
        (checkAgainst o p.2 b (.argument p.1 callee) σ f).2
      refine ⟨by rw [argumentChecks, List.map_cons, hrest.1], hrest.2.trans ?_⟩
      rw [argumentChecks, List.getLast?_cons]
      cases (argumentChecks callee σ os params _ _).getLast? <;> rfl

/-- A call with as many arguments as there are parameters. -/
lemma applySignature_eq {sig args} (hlength : args.length = sig.arity) (generics b expected span) :
    applySignature callee sig generics b args expected span σ f =
      let run := checkArguments callee args sig.params (sig.bindingsFrom generics b expected) σ f
      (sig.returnType.instantiate generics run.1, run.2) := by
  unfold applySignature
  rw [if_neg (by simpa using hlength)]
  rfl

lemma within_bindingsFrom (sig : Signature) (generics) (b : Bindings) (expected) :
    b.Within (sig.bindingsFrom generics b expected).type? := by
  intro x t h
  unfold Signature.bindingsFrom
  split
  · split
    · exact h
    · exact Ty.type?_unify _ _ h
  · exact h

lemma within_instantiation (generics) (b : Bindings) : b.Within (Ty.instantiation generics b) := by
  intro x t h
  rw [Ty.instantiation, show b.lookup x = some t from h]

/-- A call is checked against the types that are found for its type parameters in the end: a mismatch is reported for
an argument exactly if its type is not assignable to that of its parameter, and the type of the call is the return
type. Type parameters that were known keep their types. -/
theorem applySignature_sound (callee : String) (sig : Signature) (generics : List String) (b : Bindings)
    (args : List Operand) (expected : Option Ty) (span : Span) (hlength : args.length = sig.arity) :
    let start := sig.bindingsFrom generics b expected
    let checks := argumentChecks callee σ args sig.params start f
    let found := (checkArguments callee args sig.params start σ f).1
    let result := applySignature callee sig generics b args expected span σ f
    checks.map (·.param) = sig.params ∧ result.2 = (checks.getLast?.map (·.compared)).getD f ∧
      b.Within found.type? ∧ result.1 = sig.returnType.instantiate generics found ∧
      ∀ c ∈ checks, c.compared.problems = c.found.problems ↔
        c.type.assignable (c.param.2.instantiate generics found) = true := by
  intro start checks found result
  have hresult : result = (sig.returnType.instantiate generics found, _) :=
    applySignature_eq hlength generics b expected span
  obtain ⟨hparams, hlast⟩ := @getLast?_argumentChecks σ callee args sig.params hlength start f
  refine ⟨hparams, ?_, ?_, ?_, ?_⟩
  · rw [hresult]
    exact hlast
  · intro x t h
    exact within_checkArguments args sig.params start f x t (within_bindingsFrom sig generics b expected x t h)
  · rw [hresult]
  · exact problems_argumentChecks args (within_instantiation generics found)

/-- A function `choose` of type `T, []T → Option<T>`. -/
def chooseSignature : Signature :=
  ⟨["T"], [("a", .param "T"), ("b", .slice (.param "T"))], .option (.param "T")⟩

/-- The arguments `true` and `[false]`. -/
def chooseArguments : List Operand :=
  operands [.literal default (.bool true), .array default [.literal default (.bool false)]]

theorem applySignature_sound_choose :
    let σ : Setting := { module := "m", constDepth := 1, library := [], isEntry := false }
    let checks := argumentChecks "choose" σ chooseArguments chooseSignature.params [] {}
    chooseArguments.length = chooseSignature.arity ∧
      (applySignature "choose" chooseSignature ["T"] [] chooseArguments none default σ {}).1 = .option .bool ∧
      checks.map (·.type) = [.bool, .array .bool (some 1)] ∧
      ∀ c ∈ checks, c.compared.problems = c.found.problems ↔
        c.type.assignable (c.param.2.instantiate ["T"] [("T", .bool)]) = true := by
  intro σ checks
  have hfound : (checkArguments "choose" chooseArguments chooseSignature.params [] σ {}).1 = [("T", .bool)] := by
    decide +kernel
  have hsound := @applySignature_sound σ {} "choose" chooseSignature ["T"] [] chooseArguments none default rfl
  obtain ⟨-, -, -, htype, hchecks⟩ := hsound
  refine ⟨rfl, ?_, by decide +kernel, ?_⟩
  · rw [htype]
    exact congrArg (Ty.instantiate ["T"] · (.option (.param "T"))) hfound
  · exact hfound ▸ hchecks

end SourceCheck
