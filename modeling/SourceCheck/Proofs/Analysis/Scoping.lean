import SourceCheck.Analysis.Module
import SourceCheck.Proofs.Analysis.Recalls

/-!
# The scope of constants

A constant is folded where it is asked for. As long as no name in constants stands for something else there, this is
as good as in the scope of the module. A type parameter with the name of a constant is enough to lose values.
-/

namespace SourceCheck

open Check

def SymbolTable.atModuleScope (t : SymbolTable) : SymbolTable :=
  { t with current := moduleScope }

/-- Tables that agree on the names in parts of a program, and on declarations. -/
structure SymbolTable.AgreesOn (nodes : List Node) (t t' : SymbolTable) : Prop where
  symbol? : ∀ name, LooksUp nodes name → t'.symbol? name = t.symbol? name
  globals : t'.globals = t.globals

/-! ### Steps with another table -/

/-- A step that leaves the table `t` alone and does the same with `t'`. -/
def Check.Ports {α : Type} (t t' : SymbolTable) (c : Check α) : Prop :=
  ∀ σ f, f.symbols = t → (c σ f).2.symbols = t ∧
    c σ { f with symbols := t' } = ((c σ f).1, { (c σ f).2 with symbols := t' })

/-- Runs with the table `t`, compared with the same runs with `t'`. -/
def Frame.ported (t t' : SymbolTable) : Frame :=
  { Frame.alone (fun _ => True) fun _ _ => True with
    knows := fun f f' => f.symbols = t ∧ f' = { f with symbols := t' } }

section

variable {t t' : SymbolTable}

lemma Frame.tame_ported (hglobals : t'.globals = t.globals) : (Frame.ported t t').Tame where
  nominal _ := trivial
  refl _ := trivial
  trans _ _ := trivial
  report p span hf _ := ⟨⟨hf.1, by rw [hf.2]⟩, trivial⟩
  size span n hf := ⟨⟨hf.1, by rw [hf.2]⟩, trivial⟩
  library hσ _ := by rw [hσ.1]
  layout hσ hf _ := by rw [hσ.1, hf.2, Findings.nominals, Findings.nominals, hglobals, hf.1]

lemma Frame.foldable_ported : (Frame.ported t t').Foldable id where
  name _ := rfl
  value _ := rfl
  reads hσ := by simp [hσ.1]
  knows hf := by simp [hf.2]
  changes _ _ hf := ⟨⟨hf.1, by rw [hf.2]⟩, trivial⟩
  cycle _ _ hf := ⟨⟨hf.1, by rw [hf.2]⟩, trivial⟩

lemma Frame.looks_ported {nodes} (h : t.AgreesOn nodes t') : (Frame.ported t t').Looks nodes := by
  rintro name hname f _ ⟨hf, rfl⟩
  refine ⟨fun s _ => ?_, by rw [h.symbol? name hname, hf]⟩
  have hseen : (Frame.alone (fun _ => True) fun _ _ => True).Seen name s.kind := Frame.seen_alone _ _
  exact { hseen with }

lemma ports_demandConst (remaining) (hall : ∀ c ∈ remaining, t.AgreesOn c.value.nodes t')
    (stack name span) : Ports t t' (demandConst remaining stack name span) := by
  intro σ f hf
  cases remaining with
  | nil =>
    simp only [run_demandConst, demandBy, List.find?_nil]
    split
    · exact ⟨hf, rfl⟩
    · exact ⟨hf, rfl⟩
    · split <;> exact ⟨hf, rfl⟩
  | cons c remaining =>
    have := Frame.tame_ported (hall c (by simp)).globals
    have hlooks := fun c hc => Frame.looks_ported (hall c hc)
    have hruns := Frame.foldable_ported.demandConst _ hlooks stack name span trivial
    have hends := hruns (σ := σ) ⟨rfl, trivial⟩ ⟨hf, rfl⟩
    rw [List.map_id] at hends
    exact ⟨hends.knows.1, Prod.ext hends.same hends.knows.2⟩

end

/-- A constant is folded as in the scope of the module, wherever it is asked for, if the names in constants stand
there for what they stand for in that scope. -/
theorem constValue_atModule (name : String) (span : Span) (σ : Setting) (f : Findings)
    (h : ∀ c ∈ σ.constants, ∀ other, LooksUp c.value.nodes other →
      f.symbols.atModuleScope.symbol? other = f.symbols.symbol? other) :
    let r := constValue [] name span σ f
    constValue [] name span σ { f with symbols := f.symbols.atModuleScope } =
      (r.1, { r.2 with symbols := f.symbols.atModuleScope }) :=
  (ports_demandConst σ.constants (fun c hc => ⟨h c hc, rfl⟩) [] name span σ f rfl).2

/-- Constants `M` and `N: usize = M` behind a function with a type parameter and a parameter of type `[N]u8`. -/
def moduleOfSized (typeParam : String) : Program :=
  let constant (name : String) (start : Nat) (value : Expr) : Declaration :=
    .const ⟨[], .pub, ⟨name, { start }⟩, .primitive default .usize, value⟩
  let param : Param := ⟨default, [], "x", .array default (.primitive default .u8) (.ident default "N")⟩
  let decls : List Declaration := [
    .function ⟨[], .pub, ⟨"f", { start := 1 }⟩, [⟨typeParam, { start := 2 }⟩], none, [param],
      .primitive default .void, []⟩,
    constant "M" 3 (.literal { start := 4 } (.int 3)),
    constant "N" 5 (.ident { start := 6 } "M")]
  { package := ⟨"t", default⟩, imports := [], declarations := decls.map (⟨·, default⟩) }

/-- A type parameter with the name of a constant keeps another constant from its value. -/
theorem constValue_lost :
    (findingsOf (moduleOfSized "T") "t" [] [] {}).constValues.lookup "N" = some (.int 3) ∧
      (findingsOf (moduleOfSized "M") "t" [] [] {}).constValues.lookup "N" = none := by
  decide +kernel

/-- With a type parameter of another name in scope, a constant has its value. -/
theorem constValue_atModule_typeParam :
    let m : ConstDecl := ⟨[], .pub, ⟨"M", default⟩, .primitive default .usize, .literal default (.int 3)⟩
    let n : ConstDecl := ⟨[], .pub, ⟨"N", default⟩, .primitive default .usize, .ident default "M"⟩
    let σ : Setting := { ({} : AnalysisOptions).setting "t" "t" [] with constants := [m, n] }
    let g : Findings := (registerNames [.const m, .const n] σ {}).2
    let f : Findings := (declare (typeParamSymbol ⟨"T", default⟩) σ { g with symbols := g.symbols.enter .block }).2
    (f.symbols.symbol? "T").isSome ∧ (constValue [] "N" default σ f).1 = some (.int 3) ∧
      (constValue [] "N" default σ { f with symbols := f.symbols.atModuleScope }).1 = some (.int 3) := by
  intro m n σ g f
  have hvalue : (constValue [] "N" default σ f).1 = some (.int 3) := by decide +kernel
  have hname : f.symbols.atModuleScope.symbol? "M" = f.symbols.symbol? "M" := by decide +kernel
  have h := constValue_atModule "N" default σ f fun c hc other hother => by
    obtain rfl | rfl : c = m ∨ c = n := by simpa [σ] using hc
    · cases hother <;> simp_all [m, Expr.nodes]
    · cases hother <;> simp_all [n, Expr.nodes]
  exact ⟨by decide +kernel, hvalue, by rw [h]; exact hvalue⟩

end SourceCheck
