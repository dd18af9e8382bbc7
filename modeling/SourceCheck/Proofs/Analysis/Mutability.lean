import SourceCheck.Proofs.Analysis.Returns

/-!
# Mutability

In a module without problems, assignments and `&mut` start at a mutable variable or at what a pointer points to that
is not a `*const`. The variant `Option.None` passes for a place.
-/

namespace SourceCheck

open Check

lemma allowed_checkBody {types decl sig owner σ f} (h : Goes types [] (checkBody decl sig owner) σ f) :
    ∀ w ∈ Stmt.allWritten [] decl.body, w.Allowed types := by
  have hscope : Tracks f.symbols _ _ (checkBodyScope decl sig owner) _ _ _ :=
    tracks_checkBodyScope fun name => Iff.refl (name ∈ decl.startingNames sig owner)
  refine hscope.allowed (h.first (hscope.steps.inScope _) fun _ => ?_).inner
  exact (local_checkConstantTime decl.annotations decl.body).bind fun _ => local_get.bind fun _ => local_reportIf _ _ _

section Analysis

variable {program : Program} {name : String} {imports : List ImportBinding} {library : Library}
  {options : AnalysisOptions}

/-- In a module without problems, whatever a body assigns to or takes a mutable pointer of may be written, apart from
`Option.None`: it starts at a local variable that was declared mutable or at what a pointer points to that is not a
`*const`. -/
theorem writable_of_analyzed
    (htold : (analyzeModule program name imports library options).diagnostics = [])
    (hrest : (analyzeModule program name imports library options).suppressed = 0)
    {d : Spanned Declaration} (hd : d ∈ program.declarations) {decl : FunctionDecl}
    (hdecl : decl ∈ d.node.functions) {w : Written} (hw : w ∈ Stmt.allWritten [] decl.body)
    (hroot : w.place.startsAtNone = false) :
    Writable (analyzeModule program name imports library options).findings.exprTypes w.locals.Mutable
      w.place := by
  have hnil := problems_eq_nil_of_diagnostics htold hrest
  obtain ⟨τ, g, sig, owner, hmodule, -, -, hg, -, hclean, hnoted⟩ :=
    body_of_problems_eq_nil hnil (List.mem_map_of_mem hd) hdecl
  have hsees := (((stays_constantsFolded _ _ _).immutable immutable_initial).sees hg.atModule.sound).of_restores
    hg.restores hg.sound
  rw [← hmodule] at hsees
  exact allowed_checkBody ⟨hsees, hclean, hnoted⟩ w hw hroot

end Analysis

def exprP (start : Nat) : Expr :=
  .ident { start, stop := start + 1 } "p"

def targetOfP : Expr :=
  .unary { start := 40, stop := 42 } none (some .deref) (exprP 41)

/-- A mutable pointer of a variable is taken and written through. -/
def writesThroughPointer : FunctionDecl :=
  functionF [] .void [.letBinding default [] true ⟨"x", default⟩ (.primitive default .i32)
    (.literal default (.int 1)),
      .letBinding default [] false ⟨"p", default⟩ (.pointer default .mut (.primitive default .i32))
        (.unary { start := 20, stop := 26 } none (some .addressOfMut) (exprX 25)),
      .unsafeBlock default [.assign default targetOfP (.literal { start := 45, stop := 46 } (.int 2))]]

/-- The variable and what the pointer points to may be written. -/
theorem writable_of_analyzed_writesThroughPointer :
    (analyzedAlone writesThroughPointer).diagnostics = [] ∧
      (analyzedAlone writesThroughPointer).suppressed = 0 ∧
      Writable (analyzedAlone writesThroughPointer).findings.exprTypes (Locals.Mutable [("x", true)])
        (exprX 25) ∧
      Writable (analyzedAlone writesThroughPointer).findings.exprTypes
        (Locals.Mutable [("p", false), ("x", true)]) targetOfP := by
  have htold : (analyzedAlone writesThroughPointer).diagnostics = [] := by decide +kernel
  have hrest : (analyzedAlone writesThroughPointer).suppressed = 0 := by decide +kernel
  have hwritten : Stmt.allWritten [] writesThroughPointer.body =
    [⟨[("x", true)], exprX 25⟩, ⟨[("p", false), ("x", true)], targetOfP⟩] := rfl
  refine ⟨htold, hrest, ?_, ?_⟩
  · exact writable_of_analyzed htold hrest List.mem_cons_self List.mem_cons_self
      (hwritten ▸ List.mem_cons_self) rfl
  · exact writable_of_analyzed htold hrest List.mem_cons_self List.mem_cons_self
      (hwritten ▸ List.mem_cons_of_mem _ List.mem_cons_self) rfl

def noneVariant : Expr :=
  .dotted { start := 20, stop := 31 } ⟨"Option", { start := 20, stop := 26 }⟩
    ⟨"None", { start := 27, stop := 31 }⟩

def assignsToNone : FunctionDecl :=
  functionF [] .void [.assign default noneVariant noneVariant]

/-- The variant `Option.None` is assigned to without problems, though it is no place. -/
theorem not_writable_assignsToNone :
    (analyzedAlone assignsToNone).diagnostics = [] ∧ (analyzedAlone assignsToNone).suppressed = 0 ∧
      Stmt.allWritten [] assignsToNone.body = [⟨[], noneVariant⟩] ∧
      ¬ Writable (analyzedAlone assignsToNone).findings.exprTypes (Locals.Mutable []) noneVariant := by
  refine ⟨by decide +kernel, by decide +kernel, rfl, fun h => ?_⟩
  cases h with
  | member hmutable => cases hmutable

end SourceCheck
