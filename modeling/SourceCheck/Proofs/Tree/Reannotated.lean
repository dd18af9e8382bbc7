import SourceCheck.Analysis.Returns
import Mathlib.Tactic.Lemma

/-!
# Trees with other annotations

`reannotate` replaces the annotations everywhere in a tree and keeps all else.
-/

namespace SourceCheck

mutual

def Stmt.reannotate (g : List Annotation → List Annotation) : Stmt → Stmt
  | .letBinding span annotations mutable name type value => .letBinding span (g annotations) mutable name type value
  | .assign span target value => .assign span target value
  | .returnValue span value => .returnValue span value
  | .ifThen span condition body otherwise =>
    .ifThen span condition (Stmt.reannotateAll g body) (otherwise.reannotate g)
  | .ifLet span pattern value body otherwise =>
    .ifLet span pattern value (Stmt.reannotateAll g body) (otherwise.reannotate g)
  | .forIn span binding iterable body => .forIn span binding iterable (Stmt.reannotateAll g body)
  | .matchOn span scrutinee arms => .matchOn span scrutinee (MatchArm.reannotateAll g arms)
  | .spawn span call => .spawn span call
  | .spawnWithHandle span handle call => .spawnWithHandle span handle call
  | .unsafeBlock span body => .unsafeBlock span (Stmt.reannotateAll g body)
  | .block span body => .block span (Stmt.reannotateAll g body)
  | .breakLoop span => .breakLoop span
  | .continueLoop span => .continueLoop span
  | .expr span value => .expr span value

def Stmt.reannotateAll (g : List Annotation → List Annotation) : List Stmt → List Stmt
  | [] => []
  | s :: ss => s.reannotate g :: Stmt.reannotateAll g ss

def ElseBranch.reannotate (g : List Annotation → List Annotation) : ElseBranch → ElseBranch
  | .absent => .absent
  | .block body => .block (Stmt.reannotateAll g body)
  | .elseIf s => .elseIf (s.reannotate g)

def ArmBody.reannotate (g : List Annotation → List Annotation) : ArmBody → ArmBody
  | .block body => .block (Stmt.reannotateAll g body)
  | .expr value => .expr value

def MatchArm.reannotate (g : List Annotation → List Annotation) : MatchArm → MatchArm
  | .mk span pattern body => .mk span pattern (body.reannotate g)

def MatchArm.reannotateAll (g : List Annotation → List Annotation) : List MatchArm → List MatchArm
  | [] => []
  | a :: as => a.reannotate g :: MatchArm.reannotateAll g as

end

section

variable (g : List Annotation → List Annotation)

def Param.reannotate (p : Param) : Param :=
  { p with annotations := g p.annotations }

def FunctionDecl.reannotate (d : FunctionDecl) : FunctionDecl :=
  { d with
    annotations := g d.annotations
    params := d.params.map (·.reannotate g)
    body := Stmt.reannotateAll g d.body }

def FieldDecl.reannotate (d : FieldDecl) : FieldDecl :=
  { d with annotations := g d.annotations }

def ConstDecl.reannotate (d : ConstDecl) : ConstDecl :=
  { d with annotations := g d.annotations }

def Declaration.reannotate : Declaration → Declaration
  | .function d => .function (d.reannotate g)
  | .struct d => .struct { d with annotations := g d.annotations, fields := d.fields.map (·.reannotate g) }
  | .enum d => .enum { d with annotations := g d.annotations }
  | .externFunction d =>
    .externFunction { d with
      annotations := g d.annotations
      params := d.params.map (·.reannotate g)
      returnAnnotations := g d.returnAnnotations }
  | .const d => .const (d.reannotate g)
  | .impl d =>
    .impl { d with
      annotations := g d.annotations
      methods := d.methods.map fun m => ⟨m.node.reannotate g, m.span⟩ }

def Program.reannotate (p : Program) : Program :=
  { p with declarations := p.declarations.map fun d => ⟨d.node.reannotate g, d.span⟩ }

end

/-! ### The same annotations -/

mutual

lemma Stmt.reannotate_id (s : Stmt) : s.reannotate id = s := by
  match s with
  | .letBinding .. | .assign .. | .returnValue .. | .spawn .. | .spawnWithHandle .. | .breakLoop _
  | .continueLoop _ | .expr .. => rfl
  | .ifThen _ _ body otherwise | .ifLet _ _ _ body otherwise =>
    simp only [Stmt.reannotate, Stmt.reannotateAll_id body, otherwise.reannotate_id]
  | .forIn _ _ _ body | .unsafeBlock _ body | .block _ body =>
    simp only [Stmt.reannotate, Stmt.reannotateAll_id body]
  | .matchOn _ _ arms => simp only [Stmt.reannotate, MatchArm.reannotateAll_id arms]

lemma Stmt.reannotateAll_id (ss) : Stmt.reannotateAll id ss = ss := by
  match ss with
  | [] => rfl
  | s :: ss => simp only [Stmt.reannotateAll, s.reannotate_id, Stmt.reannotateAll_id ss]

lemma ElseBranch.reannotate_id (e : ElseBranch) : e.reannotate id = e := by
  match e with
  | .absent => rfl
  | .block body => simp only [ElseBranch.reannotate, Stmt.reannotateAll_id body]
  | .elseIf s => simp only [ElseBranch.reannotate, s.reannotate_id]

lemma ArmBody.reannotate_id (b : ArmBody) : b.reannotate id = b := by
  match b with
  | .block body => simp only [ArmBody.reannotate, Stmt.reannotateAll_id body]
  | .expr _ => rfl

lemma MatchArm.reannotate_id (a : MatchArm) : a.reannotate id = a := by
  match a with
  | .mk _ _ body => simp only [MatchArm.reannotate, body.reannotate_id]

lemma MatchArm.reannotateAll_id (as) : MatchArm.reannotateAll id as = as := by
  match as with
  | [] => rfl
  | a :: as => simp only [MatchArm.reannotateAll, a.reannotate_id, MatchArm.reannotateAll_id as]

end

lemma FunctionDecl.reannotate_id (d : FunctionDecl) : d.reannotate id = d := by
  have hparams : d.params.map (Param.reannotate id) = d.params := List.map_id' d.params
  simp [FunctionDecl.reannotate, hparams, Stmt.reannotateAll_id]

lemma Declaration.reannotate_id (d : Declaration) : d.reannotate id = d := by
  cases d with
  | function d => rw [Declaration.reannotate, d.reannotate_id]
  | struct d =>
    have hfields : d.fields.map (FieldDecl.reannotate id) = d.fields := List.map_id' d.fields
    simp [Declaration.reannotate, hfields]
  | externFunction d =>
    have hparams : d.params.map (Param.reannotate id) = d.params := List.map_id' d.params
    simp [Declaration.reannotate, hparams]
  | impl d => simp [Declaration.reannotate, FunctionDecl.reannotate_id]
  | enum | const => rfl

lemma Program.reannotate_id (p : Program) : p.reannotate id = p := by
  simp [Program.reannotate, Declaration.reannotate_id]

/-! ### What annotations have no part in -/

section

variable (g : List Annotation → List Annotation)

lemma MatchArm.map_pattern_reannotateAll (as) :
    (MatchArm.reannotateAll g as).map (·.pattern) = as.map (·.pattern) := by
  induction as with
  | nil => rfl
  | cons a as ih =>
    obtain ⟨_, _, _⟩ := a
    exact congrArg (_ :: ·) ih

variable (types : SpanTable Ty)

mutual

lemma Stmt.returns_reannotate (s : Stmt) : (s.reannotate g).returns types = s.returns types := by
  match s with
  | .letBinding .. | .assign .. | .returnValue .. | .forIn .. | .spawn .. | .spawnWithHandle .. | .breakLoop _
  | .continueLoop _ | .expr .. => rfl
  | .ifThen _ _ body otherwise | .ifLet _ _ _ body otherwise =>
    simp only [Stmt.reannotate, Stmt.returns, Stmt.anyReturns_reannotateAll body, otherwise.returns_reannotate]
  | .matchOn _ _ [] => rfl
  | .matchOn _ _ (a :: as) =>
    have h := MatchArm.allReturn_reannotateAll (a :: as)
    simp only [MatchArm.reannotateAll] at h
    simp only [Stmt.reannotate, Stmt.returns, MatchArm.reannotateAll, h, List.isEmpty_cons]
  | .unsafeBlock _ body | .block _ body =>
    simp only [Stmt.reannotate, Stmt.returns, Stmt.anyReturns_reannotateAll body]

lemma Stmt.anyReturns_reannotateAll (ss) :
    Stmt.anyReturns types (Stmt.reannotateAll g ss) = Stmt.anyReturns types ss := by
  match ss with
  | [] => rfl
  | s :: ss =>
    simp only [Stmt.reannotateAll, Stmt.anyReturns, s.returns_reannotate, Stmt.anyReturns_reannotateAll ss]

lemma ElseBranch.returns_reannotate (e : ElseBranch) : (e.reannotate g).returns types = e.returns types := by
  match e with
  | .absent => rfl
  | .block body => simp only [ElseBranch.reannotate, ElseBranch.returns, Stmt.anyReturns_reannotateAll body]
  | .elseIf s => simp only [ElseBranch.reannotate, ElseBranch.returns, s.returns_reannotate]

lemma MatchArm.returns_reannotate (a : MatchArm) : (a.reannotate g).returns types = a.returns types := by
  match a with
  | .mk _ _ (.block body) =>
    simp only [MatchArm.reannotate, ArmBody.reannotate, MatchArm.returns, ArmBody.returns,
      Stmt.anyReturns_reannotateAll body]
  | .mk _ _ (.expr _) => rfl

lemma MatchArm.allReturn_reannotateAll (as) :
    MatchArm.allReturn types (MatchArm.reannotateAll g as) = MatchArm.allReturn types as := by
  match as with
  | [] => rfl
  | a :: as =>
    simp only [MatchArm.reannotateAll, MatchArm.allReturn, a.returns_reannotate, MatchArm.allReturn_reannotateAll as]

end

end

end SourceCheck
