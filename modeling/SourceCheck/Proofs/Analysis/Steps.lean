import Mathlib.Logic.Relation
import Mathlib.Tactic.Lemma
import SourceCheck.Analysis.Stmt

/-!
# What checking does to what is known

Checking notes problems, types, calls, sizes and values, opens and leaves scopes and enters local names.
`Findings.Step` lists these, and what is made of them is `Check.Local`. Problems and types are only added, so the
parts of a run without new problems (`Check.Clean`) have none.
-/

namespace SourceCheck

variable {f : Findings} {p : SemanticProblem} {s : Symbol} {σ : Setting} {span : Span}

/-- Variables and type parameters, which no other module sees. -/
def SymbolKind.isLocal : SymbolKind → Bool
  | .variable .. | .typeParam => true
  | _ => false

namespace Findings

abbrev noted (f : Findings) (p : SemanticProblem) (span : Span) : Findings :=
  { f with problems := ⟨p, span⟩ :: f.problems }

abbrev enter (f : Findings) (kind : ScopeKind) : Findings :=
  { f with symbols := f.symbols.enter kind }

abbrev start (f : Findings) (name : String) : Findings :=
  { f with folding := (name, .started) :: f.folding }

def finish (f : Findings) (name : String) (v : Option ConstValue) : Findings :=
  { f with
    folding := (name, .finished) :: f.folding
    constValues := match v with
      | some v => (name, v) :: f.constValues
      | none => f.constValues }

/-- What checking a body does. A constant is folded once, and its value may be noted again. -/
inductive Step : Findings → Findings → Prop where
  | problem (f : Findings) (r : Report SemanticProblem) :
    Step f { f with problems := r :: f.problems }
  | type (f : Findings) (span : Span) (t : Ty) :
    Step f { f with exprTypes := f.exprTypes.set span t }
  | call (f : Findings) (span : Span) (target : CallTarget) :
    Step f { f with callTargets := f.callTargets.set span target }
  | size (f : Findings) (span : Span) (n : Nat) :
    Step f { f with arraySizes := f.arraySizes.set span n }
  | start {f : Findings} {name : String} :
    f.folding.lookup name = none →
    Step f { f with folding := (name, .started) :: f.folding }
  | finish {f : Findings} {name : String} (v : Option ConstValue) :
    f.folding.lookup name = some .started →
    Step f (f.finish name v)
  | value {f : Findings} {name : String} {v : ConstValue} :
    f.constValues.lookup name = some v →
    Step f { f with constValues := (name, v) :: f.constValues }
  | enter (f : Findings) (kind : ScopeKind) :
    Step f { f with symbols := f.symbols.enter kind }
  | leave (f : Findings) :
    Step f { f with symbols := f.symbols.leave }
  | define {f : Findings} {s : Symbol} {id : Nat} {table : SymbolTable} :
    s.kind.isLocal = true →
    f.symbols.define s = .ok (id, table) →
    Step f { f with symbols := table }
  | constant {f : Findings} {id : Nat} {g : SymbolKind → SymbolKind} :
    (∀ k, g k = k ∨ ∃ t v w, k = .const t v ∧ g k = .const t w) →
    Step f { f with symbols := f.symbols.modifySymbol id fun s => { s with kind := g s.kind } }

abbrev Steps : Findings → Findings → Prop := Relation.ReflTransGen Step

lemma Step.problems_suffix {g} (h : Step f g) : f.problems <:+ g.problems := by
  cases h with
  | problem r => exact List.suffix_cons r f.problems
  | _ => exact List.suffix_rfl

lemma Steps.problems_suffix {f g} (h : Steps f g) : f.problems <:+ g.problems := by
  induction h with
  | refl => exact List.suffix_rfl
  | tail _ hstep ih => exact ih.trans hstep.problems_suffix

lemma Step.exprTypes_suffix {g} (h : Step f g) : f.exprTypes <:+ g.exprTypes := by
  cases h with
  | type span t => exact List.suffix_cons (span.key, t) f.exprTypes
  | _ => exact List.suffix_rfl

lemma Steps.exprTypes_suffix {f g} (h : Steps f g) : f.exprTypes <:+ g.exprTypes := by
  induction h with
  | refl => exact List.suffix_rfl
  | tail _ hstep ih => exact ih.trans hstep.exprTypes_suffix

end Findings

open Findings (Steps)

namespace Check

variable {α β : Type}

lemma run_bind (c : Check α) (k : α → Check β) (σ f) : (c >>= k) σ f = k (c σ f).1 σ (c σ f).2 :=
  rfl

lemma run_pure (a : α) (σ f) : (pure a : Check α) σ f = (a, f) :=
  rfl

lemma run_get_bind (k : Findings → Check α) (σ f) : (get >>= k) σ f = k f σ f :=
  rfl

lemma run_kind?_bind (name) (k : Option SymbolKind → Check α) (σ f) :
    (kind? name >>= k) σ f = k ((f.symbols.symbol? name).map (·.kind)) σ f :=
  rfl

lemma run_global?_bind (name) (k : Option (Nat × Symbol) → Check α) (σ f) :
    (global? name >>= k) σ f = k (f.symbols.global? name) σ f :=
  rfl

lemma run_read_bind (k : Setting → Check α) (σ f) : (read >>= k) σ f = k σ σ f :=
  rfl

lemma run_inScope (kind) (c : Check α) (σ f) :
    inScope kind c σ f = ((c σ (f.enter kind)).1, { (c σ (f.enter kind)).2 with
          symbols := (c σ (f.enter kind)).2.symbols.leave }) :=
  rfl

/-- A checker that only takes the steps of checking declarations. -/
def Local (c : Check α) : Prop :=
  ∀ σ f, Steps f (c σ f).2

/-! ### Ways of putting checkers together -/

lemma local_pure (a : α) : Local (pure a) :=
  fun _ _ => .refl

lemma local_get : Local get :=
  fun _ _ => .refl

lemma local_read : Local read :=
  fun _ _ => .refl

lemma Local.bind {c} {k : α → Check β} (h : Local c) (hk : ∀ a, Local (k a)) : Local (c >>= k) :=
  fun σ f => (h σ f).trans (hk _ σ _)

lemma Local.withReader {c : Check α} (g : Setting → Setting) (h : Local c) : Local (withReader g c) :=
  fun σ f => h (g σ) f

lemma local_ite {p : Prop} [Decidable p] {c d : Check α} (hc : Local c) (hd : Local d) :
    Local (if p then c else d) := by
  split
  · exact hc
  · exact hd

lemma local_forM {l : List α} {k : α → Check Unit} (h : ∀ a ∈ l, Local (k a)) : Local (l.forM k) := by
  induction l with
  | nil => exact local_pure ()
  | cons a l ih => exact (h a (by simp)).bind fun _ => ih fun b hb => h b (by simp [hb])

/-! ### Single steps -/

lemma local_report (p span) : Local (report p span) :=
  fun _ f => .single (.problem f ⟨p, span⟩)

lemma local_reportIf (wrong p span) : Local (reportIf wrong p span) :=
  local_ite (local_report p span) (local_pure ())

lemma local_refuse (p span) : Local (refuse p span) :=
  (local_report p span).bind fun _ => local_pure _

lemma local_recordType (span t) : Local (recordType span t) :=
  fun _ f => .single (.type f span t)

lemma local_recordCall (span target) : Local (recordCall span target) :=
  fun _ f => .single (.call f span target)

lemma Local.inScope {c : Check α} (kind) (h : Local c) : Local (inScope kind c) := by
  intro σ f
  have henter := Findings.Step.enter f kind
  have hbody := h σ (f.enter kind)
  have hleave := Findings.Step.leave (c σ (f.enter kind)).2
  exact (Relation.ReflTransGen.head henter hbody).tail hleave

lemma local_inside (kind) : Local (inside kind) :=
  fun _ _ => .refl

lemma local_kind? (name) : Local (kind? name) :=
  fun _ _ => .refl

lemma local_global? (name) : Local (global? name) :=
  fun _ _ => .refl

lemma local_nominal? (n) : Local (nominal? n) :=
  fun _ _ => .refl

lemma run_define_ok {id table} (h : f.symbols.define s = .ok (id, table)) :
    define s σ f = (.ok id, { f with symbols := table }) := by
  simp only [define, bind, ReaderT.bind, StateT.bind, get, getThe, MonadStateOf.get, liftM, monadLift,
    MonadLift.monadLift, StateT.get, pure, h]
  rfl

lemma run_define_error {previous} (h : f.symbols.define s = .error previous) :
    define s σ f = (.error previous, f) := by
  simp only [define, bind, ReaderT.bind, StateT.bind, get, getThe, MonadStateOf.get, liftM, monadLift,
    MonadLift.monadLift, StateT.get, pure, h]
  rfl

lemma local_define (h : s.kind.isLocal = true) : Local (define s) := by
  intro σ f
  cases e : f.symbols.define s with
  | ok p =>
    rw [run_define_ok e]
    exact .single (.define h e)
  | error previous =>
    rw [run_define_error e]

lemma local_declare (h : s.kind.isLocal = true) : Local (declare s) := by
  refine (local_define h).bind fun r => ?_
  cases r with
  | ok id => exact local_pure ()
  | error previous => exact local_report _ _

lemma run_declareFirst (s σ f) : (declareFirst s σ f).2 = (define s σ f).2 :=
  rfl

lemma forM_induction {P : Findings → Prop} {l : List α} {k : α → Check Unit}
    (h : ∀ a ∈ l, ∀ f, P f → P (k a σ f).2) (hf : P f) : P (l.forM k σ f).2 := by
  induction l generalizing f with
  | nil => exact hf
  | cons a l ih => exact ih (fun b hb => h b (by simp [hb])) (h a (by simp) f hf)

/-! ### Runs without problems -/

def Grows (c : Check α) : Prop :=
  ∀ σ f, f.problems <:+ (c σ f).2.problems

lemma Local.grows {c : Check α} (h : Local c) : Grows c :=
  fun σ f => (h σ f).problems_suffix

lemma Grows.bind {c} {k : α → Check β} (h : Grows c) (hk : ∀ a, Grows (k a)) : Grows (c >>= k) :=
  fun σ f => (h σ f).trans (hk _ σ _)

lemma Grows.withReader {c : Check α} (g : Setting → Setting) (h : Grows c) : Grows (withReader g c) :=
  fun σ f => h (g σ) f

lemma grows_forM {l : List α} {k : α → Check Unit} (h : ∀ a, Grows (k a)) : Grows (l.forM k) := by
  induction l with
  | nil => exact (local_pure ()).grows
  | cons a l ih => exact (h a).bind fun _ => ih

def Clean (c : Check α) (σ : Setting) (f : Findings) : Prop :=
  (c σ f).2.problems = f.problems

lemma Clean.of_grows {c} {k : α → Check β} (hc : Grows c) (hk : ∀ a, Grows (k a)) (h : Clean (c >>= k) σ f) :
    Clean c σ f ∧ Clean (k (c σ f).1) σ (c σ f).2 := by
  have hfirst := hc σ f
  have hsecond := hk (c σ f).1 σ (c σ f).2
  have htotal : (k (c σ f).1 σ (c σ f).2).2.problems = f.problems := h
  have hmiddle : (c σ f).2.problems = f.problems := by
    refine (hfirst.eq_of_length ?_).symm
    refine Nat.le_antisymm hfirst.length_le ?_
    rw [← htotal]
    exact hsecond.length_le
  exact ⟨hmiddle, htotal.trans hmiddle.symm⟩

/-- What each part of a clean run keeps, the run keeps. -/
lemma Clean.forM_induction {P : Findings → Prop} {l : List α} {k : α → Check Unit} (hk : ∀ a, Grows (k a))
    (h : ∀ a ∈ l, ∀ f, Clean (k a) σ f → P f → P (k a σ f).2) (hclean : Clean (l.forM k) σ f) (hf : P f) :
    P (l.forM k σ f).2 := by
  induction l generalizing f with
  | nil => exact hf
  | cons a l ih =>
    obtain ⟨hfirst, hrest⟩ := hclean.of_grows (hk a) fun _ => grows_forM hk
    exact ih (fun b hb => h b (by simp [hb])) hrest (h a (by simp) f hfirst hf)

lemma Clean.of_bind {c : Check α} {k : α → Check β} (hc : Local c) (hk : ∀ a, Local (k a))
    (h : Clean (c >>= k) σ f) :
    Clean c σ f ∧ Clean (k (c σ f).1) σ (c σ f).2 :=
  h.of_grows hc.grows fun a => (hk a).grows

lemma not_clean_report : ¬ Clean (report p span) σ f :=
  fun h => List.cons_ne_self _ _ h

lemma not_clean_report_bind {k : Unit → Check α} (hk : ∀ a, Local (k a)) : ¬ Clean (report p span >>= k) σ f :=
  fun h => not_clean_report (h.of_bind (local_report _ _) hk).1

lemma not_clean_report_pure {a : α} : ¬ Clean (report p span >>= fun _ => pure a) σ f :=
  not_clean_report_bind fun _ => local_pure a

lemma clean_reportIf_iff {wrong} : Clean (reportIf wrong p span) σ f ↔ wrong = false := by
  cases wrong with
  | false => exact iff_of_true rfl rfl
  | true => exact iff_of_false not_clean_report (by simp)

end Check

end SourceCheck
