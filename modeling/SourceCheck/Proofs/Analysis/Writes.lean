import SourceCheck.Proofs.Analysis.Places
import SourceCheck.Proofs.Symbol.Scopes

/-!
# What statements write to

The places that statements write to, each with the local variables in scope there, and tables that know no other
mutable names than these.
-/

namespace SourceCheck

open Check

/-- Local variables, innermost first, and whether they may change. -/
abbrev Locals := List (String × Bool)

def Locals.Mutable (Γ : Locals) (name : String) : Prop :=
  Γ.lookup name = some true

mutual

def Pattern.bound : Pattern → Locals
  | .wildcard _ | .literal .. => []
  | .binding _ name mutable => [(name, mutable)]
  | .variant _ _ _ ps | .tuple _ ps => Pattern.allBound ps

def Pattern.allBound : List Pattern → Locals
  | [] => []
  | p :: ps => Pattern.allBound ps ++ p.bound

end

mutual

def Stmt.bound : Stmt → Locals
  | .letBinding _ _ mutable name _ _ => [(name.node, mutable)]
  | .spawnWithHandle _ handle _ => [(handle.node, false)]
  | .ifThen _ _ _ otherwise | .ifLet _ _ _ _ otherwise => otherwise.bound
  | _ => []

/-- A statement behind `else` has no scope of its own. -/
def ElseBranch.bound : ElseBranch → Locals
  | .elseIf s => s.bound
  | _ => []

end

def Stmt.allBound : List Stmt → Locals
  | [] => []
  | s :: ss => Stmt.allBound ss ++ s.bound

def ArmBody.bound : ArmBody → Locals
  | .block body => Stmt.allBound body
  | .expr _ => []

/-- A place that is written, and the local variables there. -/
structure Written where
  locals : Locals
  place : Expr

/-- A place that may be written. What starts at `Option.None` is excepted. -/
def Written.Allowed (types : SpanTable Ty) (w : Written) : Prop :=
  w.place.startsAtNone = false → Writable types w.locals.Mutable w.place

/-- The places that mutable pointers are taken of. -/
def Expr.written (Γ : Locals) (e : Expr) : List Written :=
  e.borrowed.map fun place => ⟨Γ, place⟩

mutual

/-- Targets of assignments and operands of `&mut`. -/
def Stmt.written (Γ : Locals) : Stmt → List Written
  | .letBinding _ _ _ _ _ e | .returnValue _ e | .spawn _ e | .spawnWithHandle _ _ e | .expr _ e =>
    e.written Γ
  | .assign _ target value => ⟨Γ, target⟩ :: (target.written Γ ++ value.written Γ)
  | .ifThen _ condition body otherwise =>
    condition.written Γ ++ (Stmt.allWritten Γ body ++ otherwise.written Γ)
  | .ifLet _ pattern value body otherwise =>
    value.written Γ ++ (Stmt.allWritten (pattern.bound ++ Γ) body ++ otherwise.written Γ)
  | .forIn _ binding iterable body =>
    iterable.written Γ ++ Stmt.allWritten ((binding.node, false) :: Γ) body
  | .matchOn _ scrutinee arms => scrutinee.written Γ ++ MatchArm.allWritten Γ arms
  | .unsafeBlock _ body | .block _ body => Stmt.allWritten Γ body
  | .breakLoop _ | .continueLoop _ => []

def Stmt.allWritten (Γ : Locals) : List Stmt → List Written
  | [] => []
  | s :: ss => s.written Γ ++ Stmt.allWritten (s.bound ++ Γ) ss

/-- The places that are written to behind `else`. -/
def ElseBranch.written (Γ : Locals) : ElseBranch → List Written
  | .absent => []
  | .block body => Stmt.allWritten Γ body
  | .elseIf s => s.written Γ

def ArmBody.written (Γ : Locals) : ArmBody → List Written
  | .block body => Stmt.allWritten Γ body
  | .expr e => e.written Γ

def MatchArm.written (Γ : Locals) : MatchArm → List Written
  | .mk _ pattern body => body.written (pattern.bound ++ Γ)

def MatchArm.allWritten (Γ : Locals) : List MatchArm → List Written
  | [] => []
  | a :: as => a.written Γ ++ MatchArm.allWritten Γ as

end

/-! ### Local variables and the table of symbols -/

/-- A table with no other mutable names than the given variables. -/
structure SymbolTable.Sees (module : String) (Γ : Locals) (t : SymbolTable) : Prop where
  sound : t.Sound module
  isOpen : t.Open
  mutable : ∀ name, t.Mutable name → Γ.Mutable name

namespace SymbolTable

variable {module : String} {Γ : Locals} {t t' : SymbolTable}

lemma mutable_congr (h : ∀ name, t'.symbol? name = t.symbol? name) {name} : t'.Mutable name ↔ t.Mutable name := by
  rw [Mutable, Mutable, h]

lemma Sees.mono {Γ'} (h : t.Sees module Γ) (hsub : ∀ name, Γ.Mutable name → Γ'.Mutable name) :
    t.Sees module Γ' :=
  { h with mutable := fun name hname => hsub name (h.mutable name hname) }

lemma Sees.enter (h : t.Sees module Γ) (kind) : (t.enter kind).Sees module Γ where
  sound := h.sound.enter kind
  isOpen := isOpen_enter t kind
  mutable name hname := h.mutable name ((mutable_congr (symbol?_enter h.isOpen kind)).mp hname)

lemma Sees.of_restores (h : t.Sees module Γ) (hr : Restores t t') (hsound : t'.Sound module) : t'.Sees module Γ where
  sound := hsound
  isOpen := hr.isOpen h.isOpen
  mutable name hname := h.mutable name ((mutable_congr (hr.symbol? h.sound h.isOpen)).mp hname)

lemma Sees.define {Γ' s id} (h : t.Sees module Γ) (hdefine : t.define s = .ok (id, t'))
    (hlocal : s.kind.isLocal = true)
    (hself : s.kind.isMutable = true → Γ'.Mutable s.name)
    (hothers : ∀ name, name ≠ s.name → Γ.Mutable name → Γ'.Mutable name) : t'.Sees module Γ' where
  sound := h.sound.define hdefine (Findings.placed_of_isLocal hlocal)
  isOpen := (extends_define hdefine).isOpen h.isOpen
  mutable name hname := by
    obtain ⟨s', hs', hmutable⟩ := hname
    rw [symbol?_define h.sound h.isOpen hdefine] at hs'
    split at hs'
    · rename_i heq
      cases hs'
      exact heq ▸ hself hmutable
    · rename_i hne
      exact hothers name hne (h.mutable name ⟨s', hs', hmutable⟩)

end SymbolTable

lemma Written.Allowed.of_sees {module types Γ} {t : SymbolTable} (h : t.Sees module Γ) {place : Expr}
    (hplace : place.startsAtNone = false → Writable types t.Mutable place) : Written.Allowed types ⟨Γ, place⟩ :=
  fun hroot => (hplace hroot).mono (List.Subset.refl _) h.mutable

/-! ### Steps that declare nothing -/

lemma plain_expectType (wanted actual span site) : Plain (expectType wanted actual span site) :=
  plain_reportIf _ _ _

lemma plain_checkAnnotations (list target type) : Plain (checkAnnotations list target type) :=
  (infers_checkAnnotations list target type).plain

def checkAssigned (target value : Expr) : Check Unit := do
  let t ← checkExpr target none
  let actual ← checkExpr value (some t)
  expectType t actual value.span

lemma checkAssign_eq (span target value) :
    checkAssign span target value = (do
      checkAssigned target value
      checkPlace target span .assign) :=
  rfl

lemma plain_checkAssigned (target value) : Plain (checkAssigned target value) :=
  (plain_checkExpr target none).bind fun t => (plain_checkExpr value (some t)).bind fun _ =>
    plain_expectType _ _ _ _

lemma plain_problemCount : Plain problemCount :=
  ⟨fun _ _ => .refl, fun _ _ => rfl⟩

lemma length_tuplePatternTypes (span size expected σ f) :
    size ≤ (tuplePatternTypes span size expected σ f).1.length := by
  unfold tuplePatternTypes
  split
  · split
    · rename_i hlength
      exact Nat.le_of_eq hlength.symm
    · exact Nat.le_of_eq List.length_replicate.symm
  · exact Nat.le_of_eq List.length_replicate.symm
  · exact Nat.le_of_eq List.length_replicate.symm

lemma length_variantPatternTypes (span enum variant size expected σ f) :
    size ≤ (variantPatternTypes span enum variant size expected σ f).1.length := by
  unfold variantPatternTypes
  rw [run_bind]
  cases (variantPayload? span enum variant expected σ f).1 with
  | none => exact Nat.le_of_eq List.length_replicate.symm
  | some payload =>
    dsimp only
    split
    · rename_i hfits
      simp only [Bool.or_eq_true, decide_eq_true_eq] at hfits
      change size ≤ payload.length
      omega
    · exact Nat.le_of_eq List.length_replicate.symm

end SourceCheck
