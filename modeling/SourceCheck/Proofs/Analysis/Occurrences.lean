import SourceCheck.Proofs.Analysis.Evaluation
import SourceCheck.Proofs.Analysis.Writes

/-!
# Where the parts of a body stand

Each part of a body with what is around it: local names, `unsafe` blocks and loops, and the constant expression or
written types that it belongs to, with the operands before it.
-/

namespace SourceCheck

open List

/-- What is folded or resolved as a whole: the size of an array, or types in a row. -/
inductive ConstantSite where
  | size (e : Expr)
  | types (ts : List TypeExpr)

structure Surroundings where
  locals : List String
  isUnsafe : Bool := false
  inLoop : Bool := false
  isCallee : Bool := false
  site : Option ConstantSite := none
  /-- The operands that are folded before it and must have a value. -/
  before : List Expr := []

namespace Surroundings

def part (S : Surroundings) : Surroundings :=
  { S with isCallee := false }

def callee (S : Surroundings) : Surroundings :=
  { S with isCallee := true }

def rightOf (S : Surroundings) (lhs : Expr) : Surroundings :=
  match S.site with
  | none => S.part
  | some _ => { S.part with before := S.before ++ [lhs] }

/-- Around what is folded or resolved, unless something around it is. -/
def within (S : Surroundings) (site : ConstantSite) : Surroundings :=
  match S.site with
  | none => { S.part with site := some site }
  | some _ => S.part

def binding (S : Surroundings) (names : List String) : Surroundings :=
  { S with locals := names ++ S.locals }

def unsafely (S : Surroundings) : Surroundings :=
  { S with isUnsafe := true }

def looping (S : Surroundings) : Surroundings :=
  { S with inLoop := true }

end Surroundings

structure Occurrence where
  around : Surroundings
  node : Node

/-! ### Expressions and types -/

mutual

def Expr.occurrences : Surroundings → Expr → List Occurrence
  | S, e@(.literal ..) | S, e@(.ident ..) | S, e@(.selfRef ..) | S, e@(.dotted ..) => [⟨S, .expr e⟩]
  | S, e@(.binary _ l _ r) => ⟨S, .expr e⟩ :: l.occurrences S.part ++ r.occurrences (S.rightOf l)
  | S, e@(.index _ l r) => ⟨S, .expr e⟩ :: l.occurrences S.part ++ r.occurrences S.part
  | S, e@(.arrayRepeat _ l r) => ⟨S, .expr e⟩ :: l.occurrences S.part ++ r.occurrences (S.within (.size r))
  | S, e@(.unary _ _ _ a) | S, e@(.field _ a _) | S, e@(.tupleIndex _ a _) | S, e@(.paren _ a)
  | S, e@(.await _ a) => ⟨S, .expr e⟩ :: a.occurrences S.part
  | S, e@(.call _ callee args) => ⟨S, .expr e⟩ :: callee.occurrences S.callee ++ Expr.listOccurrences S.part args
  | S, e@(.assocCall _ _ types _ args) =>
    ⟨S, .expr e⟩ :: TypeExpr.listOccurrences (S.within (.types types)) types ++ Expr.listOccurrences S.part args
  | S, e@(.dottedCall _ _ _ args) => ⟨S, .expr e⟩ :: Expr.listOccurrences S.part args
  | S, e@(.slice _ base start stop) =>
    ⟨S, .expr e⟩ :: base.occurrences S.part ++ Expr.optionOccurrences S.part start ++ Expr.optionOccurrences
      S.part stop
  | S, e@(.structLit _ _ types fields) =>
    ⟨S, .expr e⟩ :: TypeExpr.listOccurrences
      (S.within (.types types)) types ++ FieldInit.listOccurrences S.part fields
  | S, e@(.tuple _ elems) | S, e@(.array _ elems) => ⟨S, .expr e⟩ :: Expr.listOccurrences S.part elems
  | S, e@(.sizeof _ type) => ⟨S, .expr e⟩ :: type.occurrences (S.within (.types [type]))

def Expr.optionOccurrences : Surroundings → Option Expr → List Occurrence
  | _, none => []
  | S, some e => e.occurrences S

def Expr.listOccurrences : Surroundings → List Expr → List Occurrence
  | _, [] => []
  | S, e :: es => e.occurrences S ++ Expr.listOccurrences S es

def FieldInit.occurrences : Surroundings → FieldInit → List Occurrence
  | S, .mk _ value => value.occurrences S

def FieldInit.listOccurrences : Surroundings → List FieldInit → List Occurrence
  | _, [] => []
  | S, f :: fs => f.occurrences S ++ FieldInit.listOccurrences S fs

def TypeExpr.occurrences : Surroundings → TypeExpr → List Occurrence
  | S, t@(.primitive ..) => [⟨S, .type t⟩]
  | S, t@(.slice _ a) | S, t@(.pointer _ _ a) | S, t@(.option _ a) | S, t@(.taskHandle _ a) =>
    ⟨S, .type t⟩ :: a.occurrences S
  | S, t@(.array _ elem size) => ⟨S, .type t⟩ :: elem.occurrences S ++ size.occurrences S
  | S, t@(.result _ ok err) => ⟨S, .type t⟩ :: ok.occurrences S ++ err.occurrences S
  | S, t@(.tuple _ elems) | S, t@(.named _ _ elems) => ⟨S, .type t⟩ :: TypeExpr.listOccurrences S elems

def TypeExpr.listOccurrences : Surroundings → List TypeExpr → List Occurrence
  | _, [] => []
  | S, t :: ts => t.occurrences S ++ TypeExpr.listOccurrences S ts

end

attribute [local simp] Expr.nodes TypeExpr.nodes Expr.occurrences TypeExpr.occurrences TypeExpr.listOccurrences
  FieldInit.listOccurrences Expr.optionOccurrences

mutual

lemma Expr.map_node_occurrences (S) (e : Expr) : (e.occurrences S).map (·.node) = e.nodes := by
  match e with
  | .literal .. | .ident .. | .selfRef .. | .dotted .. => simp
  | .binary _ l _ r | .index _ l r | .arrayRepeat _ l r =>
    simp [Expr.map_node_occurrences _ l, Expr.map_node_occurrences _ r]
  | .unary _ _ _ a | .field _ a _ | .tupleIndex _ a _ | .paren _ a | .await _ a =>
    simp [Expr.map_node_occurrences _ a]
  | .call _ callee args =>
    simp [Expr.map_node_occurrences _ callee, Expr.map_node_listOccurrences _ args]
  | .assocCall _ _ types _ args =>
    simp [TypeExpr.map_node_listOccurrences _ types, Expr.map_node_listOccurrences _ args]
  | .dottedCall _ _ _ args => simp [Expr.map_node_listOccurrences _ args]
  | .slice _ base start stop =>
    simp [Expr.map_node_occurrences _ base, Expr.map_node_optionOccurrences _ start,
      Expr.map_node_optionOccurrences _ stop]
  | .structLit _ _ types fields =>
    simp [TypeExpr.map_node_listOccurrences _ types, FieldInit.map_node_listOccurrences _ fields]
  | .tuple _ elems | .array _ elems =>
    simp [Expr.map_node_listOccurrences _ elems]
  | .sizeof _ type => simp [TypeExpr.map_node_occurrences _ type]

lemma Expr.map_node_optionOccurrences (S e) : (Expr.optionOccurrences S e).map (·.node) = Expr.optionNodes e := by
  match e with
  | none => simp [Expr.optionNodes]
  | some e => simp [Expr.optionNodes, Expr.map_node_occurrences _ e]

lemma Expr.map_node_listOccurrences (S es) : (Expr.listOccurrences S es).map (·.node) = Expr.listNodes es := by
  match es with
  | [] => simp [Expr.listOccurrences, Expr.listNodes]
  | e :: es =>
    simp [Expr.listOccurrences, Expr.listNodes, Expr.map_node_occurrences _ e, Expr.map_node_listOccurrences _ es]

lemma FieldInit.map_node_occurrences (S) (f : FieldInit) : (f.occurrences S).map (·.node) = f.nodes := by
  match f with
  | .mk _ value => simp [FieldInit.occurrences, FieldInit.nodes, Expr.map_node_occurrences _ value]

lemma FieldInit.map_node_listOccurrences (S fs) :
    (FieldInit.listOccurrences S fs).map (·.node) = FieldInit.listNodes fs := by
  match fs with
  | [] => simp [FieldInit.listNodes]
  | f :: fs =>
    simp [FieldInit.listNodes, FieldInit.map_node_occurrences _ f, FieldInit.map_node_listOccurrences _ fs]

lemma TypeExpr.map_node_occurrences (S) (t : TypeExpr) : (t.occurrences S).map (·.node) = t.nodes := by
  match t with
  | .primitive .. => simp
  | .slice _ a | .pointer _ _ a | .option _ a | .taskHandle _ a =>
    simp [TypeExpr.map_node_occurrences _ a]
  | .array _ elem size =>
    simp [TypeExpr.map_node_occurrences _ elem, Expr.map_node_occurrences _ size]
  | .result _ ok err =>
    simp [TypeExpr.map_node_occurrences _ ok, TypeExpr.map_node_occurrences _ err]
  | .tuple _ elems | .named _ _ elems =>
    simp [TypeExpr.map_node_listOccurrences _ elems]

lemma TypeExpr.map_node_listOccurrences (S ts) :
    (TypeExpr.listOccurrences S ts).map (·.node) = TypeExpr.listNodes ts := by
  match ts with
  | [] => simp [TypeExpr.listNodes]
  | t :: ts =>
    simp [TypeExpr.listNodes, TypeExpr.map_node_occurrences _ t, TypeExpr.map_node_listOccurrences _ ts]

end

/-! ### Statements -/

def Locals.names (Γ : Locals) : List String :=
  Γ.map (·.1)

mutual

def Stmt.occurrences (S : Surroundings) : Stmt → List Occurrence
  | .letBinding _ annotations _ _ type value =>
    annotations.map (⟨S, .directive ·⟩) ++ type.occurrences (S.within (.types [type])) ++ value.occurrences S
  | .assign _ target value => target.occurrences S ++ value.occurrences S
  | .returnValue _ e | .spawn _ e | .spawnWithHandle _ _ e | .expr _ e => e.occurrences S
  | .ifThen _ condition body otherwise =>
    condition.occurrences S ++ Stmt.listOccurrences S body ++ otherwise.occurrences S
  | .ifLet _ pattern value body otherwise =>
    pattern.nodes.map (⟨S, ·⟩) ++ value.occurrences S ++
      Stmt.listOccurrences (S.binding pattern.bound.names) body ++ otherwise.occurrences S
  | .forIn _ binding iterable body =>
    iterable.occurrences S ++ Stmt.listOccurrences (S.looping.binding [binding.node]) body
  | .matchOn _ scrutinee arms => scrutinee.occurrences S ++ MatchArm.listOccurrences S arms
  | .unsafeBlock _ body => Stmt.listOccurrences S.unsafely body
  | .block _ body => Stmt.listOccurrences S body
  | .breakLoop _ | .continueLoop _ => []

def Stmt.listOccurrences (S : Surroundings) : List Stmt → List Occurrence
  | [] => []
  | s :: ss => ⟨S, .stmt s⟩ :: s.occurrences S ++ Stmt.listOccurrences (S.binding s.bound.names) ss

def ElseBranch.occurrences (S : Surroundings) : ElseBranch → List Occurrence
  | .absent => []
  | .block body => Stmt.listOccurrences S body
  | .elseIf s => ⟨S, .stmt s⟩ :: s.occurrences S

def MatchArm.occurrences (S : Surroundings) : MatchArm → List Occurrence
  | .mk _ pattern body => pattern.nodes.map (⟨S, ·⟩) ++ body.occurrences (S.binding pattern.bound.names)

def MatchArm.listOccurrences (S : Surroundings) : List MatchArm → List Occurrence
  | [] => []
  | a :: as => a.occurrences S ++ MatchArm.listOccurrences S as

def ArmBody.occurrences (S : Surroundings) : ArmBody → List Occurrence
  | .block body => Stmt.listOccurrences S body
  | .expr e => e.occurrences S

end

attribute [local simp] Stmt.nodes Stmt.innerNodes Stmt.occurrences Expr.map_node_occurrences ElseBranch.occurrences

mutual

lemma Stmt.map_node_occurrences (S) (s : Stmt) :
    (s.occurrences S).map (·.node) = Stmt.innerNodes (fun _ => true) s := by
  match s with
  | .letBinding _ annotations _ _ type value =>
    simp [TypeExpr.map_node_occurrences]
  | .assign .. | .returnValue .. | .spawn .. | .spawnWithHandle .. | .expr .. =>
    simp
  | .ifThen _ condition body otherwise =>
    simp [Stmt.map_node_listOccurrences _ body, ElseBranch.map_node_occurrences _ otherwise]
  | .ifLet _ pattern value body otherwise =>
    simp [Stmt.map_node_listOccurrences _ body, ElseBranch.map_node_occurrences _ otherwise, Function.comp_def]
  | .forIn _ binding iterable body =>
    simp [Stmt.map_node_listOccurrences _ body]
  | .matchOn _ scrutinee arms =>
    simp [MatchArm.map_node_listOccurrences _ arms]
  | .unsafeBlock _ body | .block _ body =>
    simp [Stmt.map_node_listOccurrences _ body]
  | .breakLoop _ | .continueLoop _ => simp

lemma Stmt.map_node_listOccurrences (S ss) :
    (Stmt.listOccurrences S ss).map (·.node) = Stmt.listNodes (fun _ => true) ss := by
  match ss with
  | [] => simp [Stmt.listOccurrences, Stmt.listNodes]
  | s :: ss =>
    simp [Stmt.listOccurrences, Stmt.listNodes, Stmt.map_node_occurrences _ s, Stmt.map_node_listOccurrences _ ss]

lemma ElseBranch.map_node_occurrences (S e) : (e.occurrences S).map (·.node) = ElseBranch.nodes (fun _ => true) e := by
  match e with
  | .absent => simp [ElseBranch.nodes]
  | .block body => simp [ElseBranch.nodes, Stmt.map_node_listOccurrences _ body]
  | .elseIf s => simp [ElseBranch.nodes, Stmt.map_node_occurrences _ s]

lemma MatchArm.map_node_occurrences (S a) : (a.occurrences S).map (·.node) = MatchArm.nodes (fun _ => true) a := by
  match a with
  | .mk _ pattern body =>
    simp [MatchArm.occurrences, MatchArm.nodes, ArmBody.map_node_occurrences _ body, Function.comp_def]

lemma MatchArm.map_node_listOccurrences (S as) :
    (MatchArm.listOccurrences S as).map (·.node) = MatchArm.listNodes (fun _ => true) as := by
  match as with
  | [] => simp [MatchArm.listOccurrences, MatchArm.listNodes]
  | a :: as =>
    simp [MatchArm.listOccurrences, MatchArm.listNodes, MatchArm.map_node_occurrences _ a,
      MatchArm.map_node_listOccurrences _ as]

lemma ArmBody.map_node_occurrences (S) (b : ArmBody) :
    (b.occurrences S).map (·.node) = ArmBody.nodes (fun _ => true) b := by
  match b with
  | .block body => simp [ArmBody.occurrences, ArmBody.nodes, Stmt.map_node_listOccurrences _ body]
  | .expr e => simp [ArmBody.occurrences, ArmBody.nodes, Expr.map_node_occurrences _ e]

end

/-! ### Parts of constant expressions -/

namespace Surroundings

/-- A part is folded or resolved with what is around it, behind the same operands and names. -/
structure Covers (S S' : Surroundings) : Prop where
  site : S.site.isSome → S'.site = S.site
  before : ∀ e ∈ S.before, e ∈ S'.before
  locals : S'.locals = S.locals
  isUnsafe : S'.isUnsafe = S.isUnsafe
  inLoop : S'.inLoop = S.inLoop

lemma Covers.refl (S : Surroundings) : S.Covers S :=
  ⟨fun _ => rfl, fun _ he => he, rfl, rfl, rfl⟩

lemma Covers.trans {S S' S'' : Surroundings} (h : S.Covers S') (h' : S'.Covers S'') : S.Covers S'' where
  site hS := (h'.site (by rwa [h.site hS])).trans (h.site hS)
  before e he := h'.before e (h.before e he)
  locals := h'.locals.trans h.locals
  isUnsafe := h'.isUnsafe.trans h.isUnsafe
  inLoop := h'.inLoop.trans h.inLoop

lemma covers_part (S : Surroundings) : S.Covers S.part :=
  ⟨fun _ => rfl, fun _ he => he, rfl, rfl, rfl⟩

lemma covers_callee (S : Surroundings) : S.Covers S.callee :=
  ⟨fun _ => rfl, fun _ he => he, rfl, rfl, rfl⟩

lemma covers_within (S : Surroundings) (site) : S.Covers (S.within site) := by
  unfold within
  split
  · rename_i hsite
    exact ⟨fun h => by simp [hsite] at h, fun _ he => he, rfl, rfl, rfl⟩
  · exact S.covers_part

lemma covers_rightOf (S : Surroundings) (lhs) : S.Covers (S.rightOf lhs) := by
  unfold rightOf
  split
  · exact S.covers_part
  · exact ⟨fun _ => rfl, fun _ he => mem_append_left _ he, rfl, rfl, rfl⟩

end Surroundings

open Surroundings

/-- A part of an expression or type, which is no statement. -/
structure Occurrence.Inside (S : Surroundings) (o : Occurrence) : Prop extends S.Covers o.around where
  noStmt : ∀ s, o.node ≠ .stmt s

lemma Occurrence.inside_expr (S e) : Occurrence.Inside S ⟨S, .expr e⟩ :=
  { Covers.refl S with noStmt := fun _ => Node.noConfusion }

lemma Occurrence.inside_type (S t) : Occurrence.Inside S ⟨S, .type t⟩ :=
  { Covers.refl S with noStmt := fun _ => Node.noConfusion }

lemma Surroundings.Covers.all {S S' : Surroundings} {os : List Occurrence} (h : S.Covers S')
    (hos : ∀ o ∈ os, o.Inside S') : ∀ o ∈ os, o.Inside S :=
  fun o ho => { h.trans (hos o ho).toCovers with noStmt := (hos o ho).noStmt }

open Occurrence (inside_expr inside_type)
open List (forall_mem_append forall_mem_cons forall_mem_singleton)

lemma Occurrence.inside_cons {S e} {os : List Occurrence} (h : ∀ o ∈ os, o.Inside S) :
    ∀ o ∈ ⟨S, .expr e⟩ :: os, o.Inside S :=
  forall_mem_cons.2 ⟨inside_expr S e, h⟩

open Occurrence (inside_cons)

attribute [local simp] covers_part covers_callee covers_within covers_rightOf

mutual

lemma Expr.inside_occurrences (S) (e : Expr) : ∀ o ∈ e.occurrences S, o.Inside S := by
  match e with
  | .literal .. | .ident .. | .selfRef .. | .dotted .. =>
    exact forall_mem_singleton.2 (inside_expr S _)
  | .binary _ l _ r | .index _ l r | .arrayRepeat _ l r =>
    refine inside_cons (forall_mem_append.2
      ⟨Covers.all ?_ (l.inside_occurrences _), Covers.all ?_ (r.inside_occurrences _)⟩)
    all_goals simp
  | .unary _ _ _ a | .field _ a _ | .tupleIndex _ a _ | .paren _ a | .await _ a =>
    exact inside_cons (S.covers_part.all (a.inside_occurrences _))
  | .call _ callee args =>
    exact inside_cons (forall_mem_append.2 ⟨S.covers_callee.all (callee.inside_occurrences _),
      S.covers_part.all (Expr.inside_listOccurrences _ args)⟩)
  | .assocCall _ _ types _ args =>
    exact inside_cons (forall_mem_append.2 ⟨(S.covers_within _).all (TypeExpr.inside_listOccurrences _ types),
      S.covers_part.all (Expr.inside_listOccurrences _ args)⟩)
  | .dottedCall _ _ _ args | .tuple _ args | .array _ args =>
    exact inside_cons (S.covers_part.all (Expr.inside_listOccurrences _ args))
  | .slice _ base start stop =>
    exact inside_cons (forall_mem_append.2 ⟨forall_mem_append.2
      ⟨S.covers_part.all (base.inside_occurrences _), S.covers_part.all (Expr.inside_optionOccurrences _ start)⟩,
      S.covers_part.all (Expr.inside_optionOccurrences _ stop)⟩)
  | .structLit _ _ types fields =>
    exact inside_cons (forall_mem_append.2 ⟨(S.covers_within _).all (TypeExpr.inside_listOccurrences _ types),
      S.covers_part.all (FieldInit.inside_listOccurrences _ fields)⟩)
  | .sizeof _ type => exact inside_cons ((S.covers_within _).all (type.inside_occurrences _))

lemma Expr.inside_optionOccurrences (S e) : ∀ o ∈ Expr.optionOccurrences S e, o.Inside S := by
  match e with
  | none => simp
  | some e => exact e.inside_occurrences S

lemma Expr.inside_listOccurrences (S es) : ∀ o ∈ Expr.listOccurrences S es, o.Inside S := by
  match es with
  | [] => simp [Expr.listOccurrences]
  | e :: es =>
    exact forall_mem_append.2 ⟨e.inside_occurrences S, Expr.inside_listOccurrences S es⟩

lemma FieldInit.inside_occurrences (S) (f : FieldInit) : ∀ o ∈ f.occurrences S, o.Inside S := by
  match f with
  | .mk _ value => exact value.inside_occurrences S

lemma FieldInit.inside_listOccurrences (S fs) : ∀ o ∈ FieldInit.listOccurrences S fs, o.Inside S := by
  match fs with
  | [] => simp
  | f :: fs =>
    exact forall_mem_append.2 ⟨f.inside_occurrences S, FieldInit.inside_listOccurrences S fs⟩

lemma TypeExpr.inside_occurrences (S) (t : TypeExpr) : ∀ o ∈ t.occurrences S, o.Inside S := by
  match t with
  | .primitive .. =>
    exact forall_mem_singleton.2 (inside_type S _)
  | .slice _ a | .pointer _ _ a | .option _ a | .taskHandle _ a =>
    exact forall_mem_cons.2 ⟨inside_type S _, a.inside_occurrences S⟩
  | .array _ elem size =>
    exact forall_mem_cons.2 ⟨inside_type S _, forall_mem_append.2
      ⟨elem.inside_occurrences S, size.inside_occurrences S⟩⟩
  | .result _ ok err =>
    exact forall_mem_cons.2
      ⟨inside_type S _, forall_mem_append.2 ⟨ok.inside_occurrences S, err.inside_occurrences S⟩⟩
  | .tuple _ elems | .named _ _ elems =>
    exact forall_mem_cons.2 ⟨inside_type S _, TypeExpr.inside_listOccurrences S elems⟩

lemma TypeExpr.inside_listOccurrences (S ts) : ∀ o ∈ TypeExpr.listOccurrences S ts, o.Inside S := by
  match ts with
  | [] => simp
  | t :: ts =>
    exact forall_mem_append.2 ⟨t.inside_occurrences S, TypeExpr.inside_listOccurrences S ts⟩

end

section Parts

variable {C : ConstContext} {S : Surroundings} {o : Occurrence}

lemma Expr.occurrences_eq_cons (S) (e : Expr) : e.occurrences S = ⟨S, .expr e⟩ :: (e.occurrences S).tail := by
  cases e <;> simp

mutual

lemma Evaluates.part {e v S} (h : Evaluates C e v) (hsite : S.site.isSome) (ho : o ∈ e.occurrences S)
    (hbefore : ∀ b ∈ o.around.before, HasValue C b) {e'} (he' : o.node = .expr e') : ∃ w, Evaluates C e' w := by
  have hpart : S.part.site.isSome := hsite
  rw [Expr.occurrences_eq_cons] at ho
  obtain rfl | ho := mem_cons.1 ho
  · cases he'
    exact ⟨v, h⟩
  match e with
  | .literal .. | .ident .. | .dotted .. => simp at ho
  | .paren _ a =>
    cases h with
    | paren h => exact h.part hpart ho hbefore he'
  | .unary _ _ _ a =>
    cases h with
    | unaryNone h | plain h | logical h _ => exact h.part hpart ho hbefore he'
  | .binary _ l _ r =>
    obtain ho | ho := mem_append.1 ho
    · cases h with
      | leftNone h | rightNone h _ | binary h _ _ => exact h.part hpart ho hbefore he'
    · obtain ⟨site, hs⟩ := Option.isSome_iff_exists.1 hsite
      have hright : (S.rightOf l).site.isSome ∧ l ∈ (S.rightOf l).before := by
        simp [Surroundings.rightOf, hs, Surroundings.part]
      have hleft : HasValue C l := hbefore l ((r.inside_occurrences _ o ho).before l hright.2)
      cases h with
      | leftNone h => exact absurd hleft h.not_hasValue
      | rightNone _ h | binary _ h _ => exact h.part hright.1 ho hbefore he'
  | .sizeof _ type =>
    have hwithin : (S.within (.types [type])).site.isSome := by
      rw [(S.covers_within _).site hsite]
      exact hsite
    cases h with
    | sizeof _ h _ => exact h.part hwithin ho hbefore he'
  | .call .. | .assocCall .. | .dottedCall .. | .structLit .. | .await .. | .selfRef .. | .field ..
  | .tupleIndex .. | .index .. | .slice .. | .tuple .. | .array .. | .arrayRepeat .. => cases h

lemma Resolves.part {names type t S} (h : Resolves C names type t)
    (hsite : S.site.isSome) (ho : o ∈ type.occurrences S) (hbefore : ∀ b ∈ o.around.before, HasValue C b)
    {e'} (he' : o.node = .expr e') : ∃ w, Evaluates C e' w := by
  match type with
  | .primitive .. =>
    obtain rfl := mem_singleton.1 (by simpa only [TypeExpr.occurrences] using ho)
    cases he'
  | .slice .. | .pointer .. | .option .. | .taskHandle .. | .tuple .. =>
    cases h
    rename_i h
    obtain rfl | ho := mem_cons.1 ho
    · cases he'
    · exact h.part hsite ho hbefore he'
  | .array _ elem size =>
    simp only [TypeExpr.occurrences, cons_append, mem_cons, mem_append] at ho
    cases h with
    | array ht hv _ =>
      obtain rfl | ho | ho := ho
      · cases he'
      · exact ht.part hsite ho hbefore he'
      · exact hv.part hsite ho hbefore he'
  | .result _ ok err =>
    simp only [TypeExpr.occurrences, cons_append, mem_cons, mem_append] at ho
    cases h with
    | result ht hu =>
      obtain rfl | ho | ho := ho
      · cases he'
      · exact ht.part hsite ho hbefore he'
      · exact hu.part hsite ho hbefore he'
  | .named _ _ args =>
    cases h with
    | named h _ =>
      obtain rfl | ho := mem_cons.1 ho
      · cases he'
      · exact h.part hsite ho hbefore he'

lemma ResolvesAll.part {names types ts S} (h : ResolvesAll C names types ts) (hsite : S.site.isSome)
    (ho : o ∈ TypeExpr.listOccurrences S types) (hbefore : ∀ b ∈ o.around.before, HasValue C b) {e'}
    (he' : o.node = .expr e') : ∃ w, Evaluates C e' w := by
  match types with
  | [] => simp at ho
  | type :: types =>
    simp only [TypeExpr.listOccurrences, mem_append] at ho
    cases h with
    | cons ht hts =>
      obtain ho | ho := ho
      · exact ht.part hsite ho hbefore he'
      · exact hts.part hsite ho hbefore he'

end

end Parts

end SourceCheck
