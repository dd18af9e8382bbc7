import Mathlib.Tactic.ByContra
import SourceCheck.Proofs.Analysis.Frame

/-!
# Expressions mention type parameters in scope

The type expected of an argument of a generic call mentions type parameters without a type yet. Some forms take it
over, so a type parameter of the callee can get into the caller. It does not where such arguments have a type of their
own (`Expr.guarded`).
-/

namespace SourceCheck

open Check SourceCheck.Frame List Option
open Bindings (formed_nil formed_ofLists has_ofLists)

variable {o base : Operand} {expected : Option Ty} {name : String} {os args : List Operand} {t : Ty} {b : Bindings}
  {fields : List FieldInfo}

/-! ### Arguments with a type of their own -/

def Expr.namesGeneric (generic : String → Bool) : Expr → Bool
  | .ident _ name => generic name
  | .field _ _ method => generic method.node
  | _ => false

def isBuiltinEnum (name : String) : Bool :=
  name = "Result" || name = "Option"

mutual

/-- The type of an expression is independent of the expected one, up to the size of numbers. -/
def Expr.selfTyped (generic : String → Bool) : Expr → Bool
  | .literal .. | .ident .. | .selfRef _ | .binary .. | .field .. | .tupleIndex .. | .index .. | .slice ..
  | .sizeof .. | .await .. => true
  | .unary _ _ pointer operand =>
    pointer = some .deref || pointer = some .addressOfMut || operand.selfTyped generic
  | .paren _ e | .arrayRepeat _ e _ => e.selfTyped generic
  | .tuple _ elems => Expr.allSelfTyped generic elems
  | .array .. => false
  | .call _ callee _ => !callee.namesGeneric generic
  | .assocCall _ typeName typeArgs function _ =>
    !generic function.node && (!typeArgs.isEmpty || !generic typeName.node)
  | .dotted _ head _ => !isBuiltinEnum head.node && !generic head.node
  | .dottedCall _ head member args =>
    if isBuiltinEnum head.node then
      head.node = "Option" && member.node = "Some" && Expr.allSelfTyped generic args
    else !generic head.node && !generic member.node
  | .structLit _ name typeArgs _ => !typeArgs.isEmpty || !generic name.node

/-- The types of expressions are independent of the expected ones. -/
def Expr.allSelfTyped (generic : String → Bool) : List Expr → Bool
  | [] => true
  | e :: es => e.selfTyped generic && Expr.allSelfTyped generic es

end

def FieldInit.allSelfTyped (generic : String → Bool) : List FieldInit → Bool
  | [] => true
  | .mk _ value :: fs => value.selfTyped generic && FieldInit.allSelfTyped generic fs

attribute [local simp] Expr.selfTyped

mutual

/-- Arguments, literals and variants of what is generic have types of their own, unless type arguments are written. -/
def Expr.guarded (generic : String → Bool) : Expr → Bool
  | .literal .. | .ident .. | .selfRef _ | .dotted .. | .sizeof .. => true
  | .binary _ a _ b | .index _ a b => a.guarded generic && b.guarded generic
  | .unary _ _ _ e | .field _ e _ | .tupleIndex _ e _ | .paren _ e | .await _ e | .arrayRepeat _ e _ =>
    e.guarded generic
  | .slice _ base start stop =>
    base.guarded generic && Expr.optionGuarded generic start && Expr.optionGuarded generic stop
  | .tuple _ elems | .array _ elems => Expr.allGuarded generic elems
  | .call _ callee args =>
    callee.guarded generic && Expr.allGuarded generic args &&
      (!callee.namesGeneric generic || Expr.allSelfTyped generic args)
  | .assocCall _ typeName typeArgs function args =>
    Expr.allGuarded generic args && (!generic function.node && (!typeArgs.isEmpty || !generic typeName.node) ||
        Expr.allSelfTyped generic args)
  | .dottedCall _ head member args =>
    Expr.allGuarded generic args && (isBuiltinEnum head.node || !generic head.node && !generic member.node ||
        Expr.allSelfTyped generic args)
  | .structLit _ name typeArgs fields =>
    FieldInit.allGuarded generic fields &&
      (!typeArgs.isEmpty || !generic name.node || FieldInit.allSelfTyped generic fields)

def Expr.optionGuarded (generic : String → Bool) : Option Expr → Bool
  | none => true
  | some e => e.guarded generic

def Expr.allGuarded (generic : String → Bool) : List Expr → Bool
  | [] => true
  | e :: es => e.guarded generic && Expr.allGuarded generic es

def FieldInit.guarded (generic : String → Bool) : FieldInit → Bool
  | .mk _ value => value.guarded generic

def FieldInit.allGuarded (generic : String → Bool) : List FieldInit → Bool
  | [] => true
  | f :: fs => f.guarded generic && FieldInit.allGuarded generic fs

end

/-! ### Places -/

/-- Where types are noted: at the expression, and at the head of a dotted pair. -/
def Expr.places : Expr → List (Nat × Nat)
  | .dotted span head _ | .dottedCall span head _ _ => [span.key, head.span.key]
  | e => [e.span.key]

def Node.places : Node → List (Nat × Nat)
  | .expr e => e.places
  | _ => []

def Frame.Covers (F : Frame) (nodes : List Node) : Prop :=
  ∀ n ∈ nodes, ∀ k ∈ n.places, F.place k

namespace Frame

variable {F : Frame} {nodes more : List Node} {e : Expr}

lemma covers_append : F.Covers (nodes ++ more) ↔ F.Covers nodes ∧ F.Covers more := by
  simp only [Covers, mem_append, or_imp, forall_and]

lemma covers_cons {n} : F.Covers (n :: nodes) ↔ (∀ k ∈ n.places, F.place k) ∧ F.Covers nodes := by
  simp only [Covers, mem_cons, or_imp, forall_and, forall_eq]

lemma Covers.tail {n} (h : F.Covers (n :: nodes)) : F.Covers nodes :=
  (covers_cons.1 h).2

lemma Covers.left (h : F.Covers (nodes ++ more)) : F.Covers nodes :=
  (covers_append.1 h).1

lemma Covers.right (h : F.Covers (nodes ++ more)) : F.Covers more :=
  (covers_append.1 h).2

lemma mem_places (e : Expr) : e.span.key ∈ e.places := by
  cases e <;> simp [Expr.places, Expr.span]

lemma mem_nodes (e : Expr) : .expr e ∈ e.nodes := by
  cases e <;> simp [Expr.nodes]

lemma Covers.place (h : F.Covers e.nodes) : F.place e.span.key :=
  h _ (mem_nodes e) _ (mem_places e)

end Frame

variable {F : Frame}

/-! ### Operands -/

/-- An expression with a type of its own, where not every type parameter is in scope. -/
def Frame.SelfTyped (F : Frame) (e : Expr) : Prop :=
  e.selfTyped F.generic = true ∧ ¬ F.Unrestricted

/-- Types for parameters in scope, among them all of `P`. -/
structure Bindings.Fit (F : Frame) (P : String → Prop) (b : Bindings) : Prop where
  formed : b.Formed F.params F.nominal
  has : ∀ x, P x → b.Has x

/-- An operand with a type in scope, if the expected type is in scope or makes no difference. -/
def Operand.Infers (F : Frame) (o : Operand) : Prop :=
  ∀ expected, F.Expects expected ∨ F.SelfTyped o.expr → Check.Infers F (o.check expected) F.Admits

lemma Operand.Infers.of_expects (h : o.Infers F)
    (hexpected : F.Expects expected) : Check.Infers F (o.check expected) F.Admits :=
  h expected (.inl hexpected)

lemma Operand.Infers.none (h : o.Infers F) : Check.Infers F (o.check .none) F.Admits :=
  h.of_expects expects_none

lemma fit_nil : Bindings.Fit F (fun _ => False) [] :=
  ⟨formed_nil, fun _ => False.elim⟩

/-! ### What is generic -/

lemma Frame.params_or_selfTyped {typeParams} (hgeneric : typeParams ≠ [] → F.Generic name)
    (hguard : F.generic name = false ∨ ∀ o ∈ os, o.expr.selfTyped F.generic = true) :
    (∀ x ∈ typeParams, F.params x) ∨ ∀ o ∈ os, F.SelfTyped o.expr := by
  by_cases hfree : F.Unrestricted
  · exact .inl fun x _ => hfree x
  · refine hguard.imp (fun hname => ?_) fun hself o ho => ⟨hself o ho, hfree⟩
    by_cases hnil : typeParams = []
    · simp [hnil]
    · obtain hname' | hfree' := hgeneric hnil
      · simp [hname] at hname'
      · exact absurd hfree' hfree

lemma Frame.Generic.eq_nil {typeParams : List String} (hgeneric : typeParams ≠ [] → F.Generic name)
    (hname : F.generic name = false) (hfree : ¬ F.Unrestricted) : typeParams = [] := by
  by_contra hne
  obtain hname' | hfree' := hgeneric hne
  · simp [hname] at hname'
  · exact hfree hfree'

lemma Frame.Kind.generic_name {k} (h : F.Kind name k)
    {info} (hinfo : k.nominalInfo? = some info) (hne : info.typeParams ≠ []) : F.Generic name := by
  refine h.generic name ?_
  match k with
  | .struct .. | .enum .. =>
    cases hinfo
    simp [SymbolKind.generics, hne]

/-- A method that is found, with its owner's type parameters. -/
structure MethodFound (F : Frame) (owner : Nominal) (method : String) (p : List String × MethodInfo) :
    Prop where
  params : F.declared owner p.1
  formed : p.2.signature.Formed F.Unrestricted F.nominal p.1
  generic : p.2.signature.typeParams ≠ [] → F.Generic method

lemma Frame.Kind.method {name k} (h : F.Kind name k) {info} (hinfo : k.nominalInfo? = some info) {method m}
    (hm : (method, m) ∈ info.methods) :
    m.signature.Formed F.Unrestricted F.nominal info.typeParams ∧
      (m.signature.typeParams ≠ [] → F.Generic method) := by
  have hmem (hne : m.signature.typeParams ≠ []) :
      method ∈ (info.methods.filter (·.2.signature.isGeneric)).map (·.1) :=
    mem_map.2 ⟨(method, m), mem_filter.2 ⟨hm, by simpa [Signature.isGeneric] using hne⟩, rfl⟩
  match k with
  | .struct .. | .enum .. =>
    cases hinfo
    exact ⟨h.formed.1 _ hm, fun hne => h.generic _ (mem_append_right _ (hmem hne))⟩

/-! ### Facts about types and problems -/

lemma formed_literalType {P : String → Prop} {N : Nominal → Nat → Prop} (value : Literal) :
    value.type.Formed P N := by
  cases value <;> exact trivial

lemma admits_of_isNumeric (h : t.isNumeric = true) : F.Admits t := by
  cases t with
  | primitive => exact trivial
  | _ => cases h

lemma Ty.joinNumeric?_eq_some {a b : Ty} (h : a.joinNumeric? b = some t) : ∃ p, t = .primitive p := by
  unfold Ty.joinNumeric? at h
  split at h
  · split at h
    · split at h <;> cases h
      exact ⟨_, rfl⟩
    · split at h
      · cases h
        exact ⟨_, rfl⟩
      · split at h <;> cases h
        exact ⟨_, rfl⟩
  · cases h

lemma BinaryOp.result?_eq_some {op : BinaryOp} {l r} (h : op.result? l r = some t) :
    t = l ∨ ∃ p, t = .primitive p := by
  cases op with
  | shl | shr =>
    rw [BinaryOp.result?, ite_none_right_eq_some] at h
    exact .inl (some.inj h.2).symm
  | bitAnd | bitOr | bitXor =>
    rw [BinaryOp.result?] at h
    split at h
    · cases h
      exact .inr ⟨_, rfl⟩
    · exact .inr (Ty.joinNumeric?_eq_some (filter_eq_some_iff.1 h).1)
  | add =>
    rw [BinaryOp.result?] at h
    split at h
    · exact .inl (some.inj h).symm
    · exact .inr (Ty.joinNumeric?_eq_some h)
  | _ => exact .inr (Ty.joinNumeric?_eq_some h)

lemma admits_result? {op : BinaryOp} {l r} (hl : F.Admits l) (h : op.result? l r = some t) : F.Admits t := by
  obtain rfl | ⟨p, rfl⟩ := BinaryOp.result?_eq_some h
  · exact hl
  · exact trivial

lemma admits_builtinVariantType (v : BuiltinVariant) {payload} (hpayload : F.Admits payload)
    (hexpected : F.Expects expected ∨ v = .someValue) : F.Admits (v.type payload expected) := by
  unfold BuiltinVariant.type
  split
  · exact ⟨hpayload, ((hexpected.resolve_right (by simp)) (.result _ _) rfl).2⟩
  · exact ⟨hpayload, trivial⟩
  · exact ⟨((hexpected.resolve_right (by simp)) (.result _ _) rfl).1, hpayload⟩
  · exact ⟨trivial, hpayload⟩
  · exact hpayload
  · exact (hexpected.resolve_right (by simp)) (.option _) rfl
  · exact trivial

lemma isSpecial_of_placeProblem? {f usage root p} (h : placeProblem? f usage root = some p) : p.isSpecial = false := by
  unfold placeProblem? at h
  split at h
  · obtain ⟨s, -, hs⟩ := bind_eq_some_iff.1 h
    unfold bindingProblem? at hs
    split at hs
    · split at hs <;> cases hs <;> rfl
    · cases hs
      rfl
    · cases hs
      rfl
  · cases h
    cases usage <;> rfl
  · split at h <;> cases h
    rfl
  · cases h
    rfl

lemma mem_of_findField? {f} (h : findField? fields name = some f) : f ∈ fields :=
  mem_of_find?_eq_some h

lemma findField?_unplaced (fields name) :
    findField? (fields.map (·.unplaced)) name = (findField? fields name).map (·.unplaced) := by
  rw [findField?, findField?, List.find?_map]
  rfl

lemma FunctionInfo.mem_of_overload? {f : FunctionInfo} {args i sig}
    (h : f.overload? args = some (i, sig)) : sig ∈ f.signatures := by
  obtain ⟨s, hs, heq⟩ := map_eq_some_iff.1 h
  obtain ⟨-, rfl⟩ := Prod.mk.inj heq
  exact fst_mem_of_mem_zipIdx (mem_of_find?_eq_some hs)

lemma checkFieldValues_unowned (name info fields seen b fs) :
    checkFieldValues name info.unowned fields seen b fs = checkFieldValues name info fields seen b fs := by
  induction fs generalizing seen b with
  | nil => rfl
  | cons f fs ih =>
    simp only [checkFieldValues, ih]
    rfl

lemma selfTyped_operands (generic : String → Bool) {es}
    (h : Expr.allSelfTyped generic es = true) : ∀ o ∈ operands es, o.expr.selfTyped generic = true := by
  induction es with
  | nil => simp [operands]
  | cons e es ih =>
    rw [Expr.allSelfTyped, Bool.and_eq_true] at h
    rw [operands]
    exact forall_mem_cons.2 ⟨h.1, ih h.2⟩

lemma selfTyped_fieldOperands (generic : String → Bool) {fs} (h : FieldInit.allSelfTyped generic fs = true) :
    ∀ f ∈ fieldOperands fs, f.value.expr.selfTyped generic = true := by
  induction fs with
  | nil => simp [fieldOperands]
  | cons f fs ih =>
    obtain ⟨name, value⟩ := f
    rw [FieldInit.allSelfTyped, Bool.and_eq_true] at h
    rw [fieldOperands]
    exact forall_mem_cons.2 ⟨h.1, ih h.2⟩

/-! ### Rules for operands -/

section

variable [F.Inferring]

lemma infers_checkAll (h : ∀ o ∈ os, o.Infers F) : Heeds F (Operand.checkAll os) :=
  runs_forM fun o ho => (h o ho).none.bind fun _ _ => runs_pure trivial

lemma infers_recorded {span rule} (hspan : F.place span.key)
    (h : Infers F rule F.Admits) : Infers F (recorded span rule) F.Admits :=
  h.bind fun _ ht => (infers_recordType hspan ht).bind fun _ _ => runs_pure ht

lemma infers_expectType (wanted actual span site) : Heeds F (expectType wanted actual span site) :=
  runs_reportIf _ _ _ rfl

lemma infers_checkAgainst (h : o.Infers F) {P Q : String → Prop} {declared} (hdeclared : declared.Formed Q F.nominal)
    (hb : b.Fit F P) (hhint : (∀ x, Q x → F.params x ∨ P x) ∨ F.SelfTyped o.expr) (site) :
    Infers F (checkAgainst o declared b site) (Bindings.Fit F P) := by
  refine (h _ (hhint.imp_left fun hQ => ?_)).bind fun actual hactual => ?_
  · exact expects_some (hdeclared.substitute_type? hb.formed fun x hx => (hQ x hx).imp_right (hb.has x))
  · refine (infers_expectType _ _ _ _).bind fun _ _ => runs_pure ⟨?_, fun x hx => ?_⟩
    · exact hactual.unify declared hb.formed
    · exact Ty.has_unify declared actual (hb.has x hx)

lemma infers_checkNumeral (n negative expected span) : Infers F (checkNumeral n negative expected span) F.Admits := by
  unfold checkNumeral
  split
  · refine runs_ite (runs_pure trivial) ?_
    split
    · exact runs_report_bind trivial rfl
    · exact runs_pure trivial
  · exact runs_pure trivial

lemma infers_checkLiteral (span value expected) : Infers F (checkLiteral span value expected) F.Admits := by
  unfold checkLiteral
  split
  · exact infers_checkNumeral _ _ _ _
  · exact runs_pure trivial
  · exact runs_pure trivial
  · exact runs_pure (formed_literalType value)

lemma infers_checkName (span name) : Infers F (checkName span name) F.Admits := by
  refine runs_kind?_bind fun k hk => ?_
  split
  · exact runs_pure (hk _ rfl).isLocal
  · exact runs_pure ((hk _ rfl).kind.formed.mono fun x hfree => hfree x)
  · exact infers_refuse _ _ rfl
  · exact infers_refuse _ _ rfl

lemma infers_checkSelf (span) : Infers F (checkSelf span) F.Admits := by
  refine runs_kind?_bind fun k hk => ?_
  split
  · exact runs_pure (hk _ rfl).isLocal
  · exact infers_refuse _ _ rfl

/-! ### Rules for expressions -/

lemma infers_checkPlace (target span usage) : Heeds F (checkPlace target span usage) := by
  refine runs_get_bind fun f f' hf => ?_
  rw [Lawful.placeProblem? _ _ hf]
  split
  · rename_i p hp
    exact runs_report _ _ (isSpecial_of_placeProblem? hp)
  · exact runs_pure trivial

lemma infers_checkPointerPrefix (span op) (h : o.Infers F)
    (hexpected : F.Expects expected ∨ (op = some .deref ∨ op = some .addressOfMut) ∨ F.SelfTyped o.expr) :
    Infers F (checkPointerPrefix span op o expected) F.Admits := by
  unfold checkPointerPrefix
  split
  · exact h _ (hexpected.imp_right fun h => h.resolve_left (by simp))
  · refine h.none.bind fun t ht => (infers_inside _).bind fun _ _ => ?_
    refine (runs_reportIf _ _ _ rfl).bind fun _ _ => ?_
    split
    · exact runs_pure ht
    · exact runs_pure trivial
    · exact infers_refuse _ _ rfl
  · refine (h _ (hexpected.imp (fun hexpected => ?_) fun h => h.resolve_left (by simp))).bind
      fun _ ht => runs_pure ht
    split
    · exact expects_some (hexpected (.pointer _ _) rfl)
    · exact expects_none
  · exact h.none.bind fun _ ht => (infers_checkPlace _ _ _).bind fun _ _ => runs_pure ht

lemma infers_checkLogicalPrefix (span op o) (ht : F.Admits t) : Infers F (checkLogicalPrefix span op o t) F.Admits := by
  refine runs_ite (runs_pure ht) ?_
  cases op with
  | not => exact (runs_reportIf _ _ _ rfl).bind fun _ _ => runs_pure trivial
  | neg | bitNot => exact runs_ite (runs_pure ht) (infers_refuse _ _ rfl)

lemma infers_checkUnary (span logical pointer) (h : o.Infers F) (hplace : F.place o.span.key)
    (hexpected : F.Expects expected ∨ (pointer = some .deref ∨ pointer = some .addressOfMut) ∨
      F.SelfTyped o.expr) :
    Infers F (checkUnary span logical pointer o expected) F.Admits := by
  unfold checkUnary
  split
  · exact infers_recorded hplace (infers_checkNumeral _ _ _ _)
  · refine (infers_checkPointerPrefix _ _ h hexpected).bind fun t ht => ?_
    split
    · exact runs_pure ht
    · exact infers_checkLogicalPrefix _ _ _ ht

lemma infers_checkTruth (h : o.Infers F) : Heeds F (checkTruth o) :=
  (h.of_expects (expects_some (t := .bool) trivial)).bind fun _ _ => runs_reportIf _ _ _ rfl

lemma infers_checkBinary (span) {lhs rhs : Operand} (op) (hl : lhs.Infers F) (hr : rhs.Infers F) (expected) :
    Infers F (checkBinary span lhs op rhs expected) F.Admits := by
  have hhint : F.Expects (expected.filter fun t => t.isNumeric && !op.isComparison) := by
    intro t ht
    have hnumeric := (filter_eq_some_iff.1 ht).2
    rw [Bool.and_eq_true] at hnumeric
    exact admits_of_isNumeric hnumeric.1
  refine runs_ite ?_ ?_
  · refine (infers_checkTruth hl).bind fun _ _ => (infers_checkTruth hr).bind fun _ _ => ?_
    exact runs_pure trivial
  · refine (hl.of_expects hhint).bind fun l hl => (hr.of_expects ?_).bind fun r hr => ?_
    · split
      · exact expects_some hl
      · exact hhint
    · refine runs_ite (runs_pure ?_) (runs_ite ?_ ?_)
      · split <;> exact trivial
      · exact (runs_ite (runs_report _ _ rfl) (runs_reportIf _ _ _ rfl)).bind fun _ _ => runs_pure trivial
      · split
        · rename_i hresult
          exact runs_pure (admits_result? hl hresult)
        · exact infers_refuse _ _ rfl

lemma infers_checkTuple (span) {elems} (h : ∀ o ∈ elems, o.Infers F)
    (hexpected : F.Expects expected ∨ ∀ o ∈ elems, F.SelfTyped o.expr) :
    Infers F (checkTuple span elems expected) F.Admits := by
  unfold checkTuple
  split
  · rename_i ts
    refine runs_ite ?_ ?_
    · refine (infers_mapM (R := F.Admits) ?_).bind fun _ hus => runs_pure (Ty.allFormed_iff.2 hus)
      rintro ⟨o, t⟩ hmem
      obtain ⟨ho, ht⟩ := of_mem_zip hmem
      refine h o ho _ (hexpected.imp (fun hexpected => ?_) fun hself => hself o ho)
      exact expects_resolved? (Ty.allFormed_iff.1 (hexpected (.tuple ts) rfl) t ht)
    · refine (runs_report _ _ rfl).bind fun _ _ => (infers_checkAll h).bind fun _ _ => ?_
      exact runs_pure trivial
  · exact (infers_mapM fun o ho => (h o ho).none).bind fun _ hus =>
      runs_pure (Ty.allFormed_iff.2 hus)

lemma infers_checkArray {elems} (h : ∀ o ∈ elems, o.Infers F)
    (hexpected : F.Expects expected) : Infers F (checkArray elems expected) F.Admits := by
  refine (infers_foldlM hexpected.element? ?_).bind fun found hfound => runs_pure ?_
  · intro want hwant o ho
    refine ((h o ho).of_expects hwant).bind fun t ht => ?_
    split
    · exact (infers_expectType _ _ _ _).bind fun _ _ => runs_pure hwant
    · exact runs_pure (expects_some ht)
  · cases found with
    | none => exact trivial
    | some t => exact hfound t rfl

lemma infers_checkRepeat {value} (h : value.Infers F) (count) (hcount : F.place count.span.key)
    (hexpected : F.Expects expected ∨ F.SelfTyped value.expr) :
    Infers F (checkRepeat value count expected) F.Admits := by
  refine (h _ (hexpected.imp_left Expects.element?)).bind fun _ ht => ?_
  refine (infers_foldArraySize count).bind fun _ _ => ?_
  have husize : F.Admits .usize := trivial
  exact (infers_recordType hcount husize).bind fun _ _ => runs_pure ht

lemma infers_checkTupleIndex (span) (h : base.Infers F) (index) :
    Infers F (checkTupleIndex span base index) F.Admits := by
  refine h.none.bind fun t ht => ?_
  split
  · split
    · rename_i hindex
      exact runs_pure (Ty.allFormed_iff.1 ht _ (mem_of_getElem? hindex))
    · exact infers_refuse _ _ rfl
  · exact runs_pure trivial
  · exact infers_refuse _ _ rfl

lemma infers_checkIndexOperand (h : o.Infers F) : Heeds F (checkIndexOperand o) :=
  (h.of_expects (expects_some (t := .usize) trivial)).bind fun _ _ => runs_reportIf _ _ _ rfl

lemma infers_checkBounds (index size) : Heeds F (checkBounds index size) := by
  unfold checkBounds
  split
  · exact runs_reportIf _ _ _ rfl
  · exact runs_pure trivial

lemma infers_checkIndex {index} (hb : base.Infers F) (hi : index.Infers F) :
    Infers F (checkIndex base index) F.Admits := by
  refine hb.none.bind fun t ht => (infers_checkIndexOperand hi).bind fun _ _ => ?_
  split
  · exact (infers_checkBounds _ _).bind fun _ _ => runs_pure ht
  · exact runs_pure ht
  · exact runs_pure trivial
  · exact infers_refuse _ _ rfl

lemma infers_checkSlice {bounds} (hb : base.Infers F)
    (hs : ∀ o ∈ bounds, o.Infers F) : Infers F (checkSlice base bounds) F.Admits := by
  refine hb.none.bind fun t ht => ?_
  refine (runs_forM fun o ho => infers_checkIndexOperand (hs o ho)).bind fun _ _ => ?_
  split
  · exact runs_pure ht
  · exact runs_pure ht
  · exact runs_pure trivial
  · exact runs_pure trivial
  · exact infers_refuse _ _ rfl

lemma infers_checkAwait {handle} (h : handle.Infers F) : Infers F (checkAwait handle) F.Admits := by
  refine h.none.bind fun t ht => ?_
  split
  · exact runs_pure ht
  · exact runs_pure trivial
  · exact infers_refuse _ _ rfl

/-! ### Structs -/

lemma infers_checkVisible (owner visibility name) : Heeds F (checkVisible owner visibility name) :=
  runs_read_bind fun σ σ' hσ => by
    rw [Lawful.module hσ]
    exact runs_reportIf _ _ _ rfl

lemma infers_fieldType {base} (hbase : F.Admits base) (field) : Infers F (fieldType base field) F.Admits := by
  unfold fieldType
  split
  · refine infers_nominal?_bind hbase.1 (fun kind => ?_) fun k hk => ?_
    · cases kind with
      | struct info fields =>
        have hmethod : info.unowned.unplaced.methods.lookup field.node =
          (info.methods.lookup field.node).map (·.unplaced) := NominalInfo.lookup_unplaced info.unowned field.node
        simp only [SymbolKind.unowned, SymbolKind.unplaced, findField?_unplaced, hmethod]
        cases findField? fields field.node with
        | none =>
          simp only [map_none]
          cases info.methods.lookup field.node <;> rfl
        | some found => rfl
      | _ => rfl
    split
    · rename_i info fields
      split
      · rename_i found hfound
        have htype := (hk _ rfl).1.formed.2 found (mem_of_findField? hfound)
        refine (infers_checkVisible _ _ _).bind fun _ _ => runs_pure ?_
        refine htype.instantiate (formed_ofLists hbase.2) fun x hx => ?_
        exact hx.elim (fun hfree => .inr (.inl (hfree x))) .inl
      · exact infers_refuse _ _ rfl
    · exact runs_pure trivial
  · exact infers_refuse _ _ rfl
  · exact runs_pure trivial
  · exact infers_refuse _ _ rfl

lemma infers_checkFieldValue (name info) {P Q : String → Prop} (hfields : ∀ f ∈ fields, f.type.Formed Q F.nominal)
    (seen) (hb : b.Fit F P) {f} (h : f.value.Infers F)
    (hhint : (∀ x, Q x → F.params x ∨ P x) ∨ F.SelfTyped f.value.expr) :
    Infers F (checkFieldValue name info fields seen b f) (Bindings.Fit F P) := by
  refine runs_ite ?_ ?_
  · exact (runs_report _ _ rfl).bind fun _ _ => h.none.bind fun _ _ => runs_pure hb
  · split
    · exact (runs_report _ _ rfl).bind fun _ _ => h.none.bind fun _ _ => runs_pure hb
    · rename_i field hfield
      refine (infers_checkVisible _ _ _).bind fun _ _ => ?_
      exact infers_checkAgainst h (hfields field (mem_of_findField? hfield)) hb hhint _

lemma infers_checkFieldValues (name info) {P Q : String → Prop}
    (hfields : ∀ f ∈ fields, f.type.Formed Q F.nominal)
    (seen) (hb : b.Fit F P) {fs} (h : ∀ f ∈ fs, f.value.Infers F)
    (hhint : (∀ x, Q x → F.params x ∨ P x) ∨ ∀ f ∈ fs, F.SelfTyped f.value.expr) :
    Infers F (checkFieldValues name info fields seen b fs) (Bindings.Fit F P) := by
  induction fs generalizing seen b with
  | nil => exact runs_pure hb
  | cons f fs ih =>
    refine (infers_checkFieldValue _ _ hfields _ hb (h f (by simp)) ?_).bind fun b' hb' => ?_
    · exact hhint.imp_right fun hself => hself f (by simp)
    · exact ih _ hb' (fun g hg => h g (by simp [hg])) (hhint.imp_right fun hself g hg => hself g (by simp [hg]))

/-- Written type arguments leave no type parameter without a type. -/
lemma infers_literalBindings (name info typeArgs)
    (hexpected : F.Expects expected ∨ typeArgs.isEmpty = false ∨ info.typeParams = []) :
    Infers F (literalBindings name info typeArgs expected)
      (Bindings.Fit F fun x => typeArgs.isEmpty = false ∧ x ∈ info.typeParams) := by
  unfold literalBindings
  cases hempty : typeArgs.isEmpty with
  | false =>
    refine (infers_resolveTypes _).bind fun ts hts => ?_
    refine (infers_typeArguments _ _ hts _).bind fun us hus => runs_pure ⟨?_, fun x hx => ?_⟩
    · exact formed_ofLists (allAdmits_of_allWrites hus.2)
    · exact has_ofLists hus.1 hx.2
  | true =>
    have hfit {b : Bindings} (hb : b.Formed F.params F.nominal) :
        b.Fit F fun x => true = false ∧ x ∈ info.typeParams :=
      ⟨hb, fun _ hx => by simp at hx⟩
    simp only [Bool.not_true, Bool.false_eq_true, ↓reduceIte]
    split
    · rename_i n args
      refine runs_pure (hfit ?_)
      split
      · obtain hexpected | hwritten | hnil := hexpected
        · exact formed_ofLists (hexpected (.struct n args) rfl).2
        · simp [hempty] at hwritten
        · simp [hnil, Bindings.ofLists, formed_nil]
      · exact formed_nil
    · exact runs_pure (hfit formed_nil)

lemma infers_checkStructLiteral (span name typeArgs) {values : List FieldOperand}
    (h : ∀ f ∈ values, f.value.Infers F)
    (hguard : typeArgs.isEmpty = false ∨ F.generic name.node = false ∨
      ∀ f ∈ values, f.value.expr.selfTyped F.generic = true) (hexpected : F.Expects expected ∨
      (typeArgs.isEmpty = false ∨ F.generic name.node = false) ∧ ¬ F.Unrestricted) :
    Infers F (checkStructLiteral span name typeArgs values expected) F.Admits := by
  have hvalues : ∀ o ∈ values.map (·.value), o.Infers F := by
    intro o ho
    obtain ⟨f, hf, rfl⟩ := mem_map.1 ho
    exact h f hf
  refine runs_kind?_bind (fun k hk => ?_) ?owned
  case owned =>
    intro kind
    cases kind with
    | struct info fields =>
      simp only [SymbolKind.unowned, checkFieldValues_unowned]
      rfl
    | _ => rfl
  split
  · rename_i info fields
    have hk := hk _ rfl
    have hgeneric : info.typeParams ≠ [] → F.Generic name.node := hk.kind.generic_name rfl
    refine (infers_literalBindings name info typeArgs ?_).bind fun b hb => ?_
    · refine hexpected.imp_right fun hself => hself.1.imp_right fun hname => ?_
      exact Generic.eq_nil hgeneric hname hself.2
    · refine (infers_checkFieldValues _ _ hk.kind.formed.2 _ hb h ?_).bind fun b' hb' => ?_
      · obtain hwritten | hguard := hguard
        · exact .inl fun x hx => hx.elim (fun hfree => .inl (hfree x)) fun hx => .inr ⟨hwritten, hx⟩
        · have hguard : F.generic name.node = false ∨
              ∀ o ∈ values.map (·.value), o.expr.selfTyped F.generic = true := by
            refine hguard.imp_right fun hself o ho => ?_
            obtain ⟨f, hf, rfl⟩ := mem_map.1 ho
            exact hself f hf
          exact (params_or_selfTyped hgeneric hguard).imp
            (fun hparams x hx => .inl (hx.elim (· x) (hparams x))) fun hself f hf => hself _ (mem_map_of_mem hf)
      · refine (runs_reportIf _ _ _ rfl).bind fun _ _ => runs_pure ⟨?_, hb'.formed.typesOf _⟩
        rw [Bindings.typesOf, length_map]
        exact Tame.nominal (hk.declared info rfl).1
  · refine (runs_report _ _ (by split <;> rfl)).bind fun _ _ => (infers_checkAll hvalues).bind fun _ _ => ?_
    exact runs_pure trivial

/-! ### Calls -/

lemma infers_giveUp (h : ∀ o ∈ args, o.Infers F) : Infers F (giveUp args) F.Admits :=
  (infers_checkAll h).bind fun _ _ => runs_pure trivial

lemma infers_refuseCall (p span) (h : ∀ o ∈ args, o.Infers F) (hp : p.isSpecial = false) :
    Infers F (refuseCall p span args) F.Admits :=
  (runs_report _ _ hp).bind fun _ _ => infers_giveUp h

lemma infers_checkArguments (callee) (h : ∀ o ∈ os, o.Infers F)
    {P Q : String → Prop} {params} (hparams : ∀ p ∈ params, p.2.Formed Q F.nominal)
    (hb : b.Fit F P) (hhint : (∀ x, Q x → F.params x ∨ P x) ∨ ∀ o ∈ os, F.SelfTyped o.expr) :
    Infers F (checkArguments callee os params b) (Bindings.Fit F P) := by
  induction os generalizing params b with
  | nil => exact runs_pure hb
  | cons o os ih =>
    cases params with
    | nil => exact runs_pure hb
    | cons p params =>
      have hfirst := hhint.imp_right fun hself => hself o (by simp)
      refine (infers_checkAgainst (h o (by simp)) (hparams p (by simp)) hb hfirst _).bind fun b' hb' => ?_
      exact ih (fun o ho => h o (by simp [ho])) (fun q hq => hparams q (by simp [hq])) hb'
        (hhint.imp_right fun hself o ho => hself o (by simp [ho]))

/-- Type parameters that are not to be found have a type from the beginning. -/
lemma infers_applySignature (callee) {sig owner} (hsig : sig.Formed F.Unrestricted F.nominal owner)
    {P : String → Prop} {generics} (hb : b.Fit F P) (h : ∀ o ∈ args, o.Infers F)
    (hfound : ∀ x ∈ owner ++ sig.typeParams, x ∈ generics ∨ F.params x ∨ P x)
    (hhint : (∀ x ∈ owner ++ sig.typeParams, F.params x ∨ P x) ∨ ∀ o ∈ args, F.SelfTyped o.expr)
    (hexpected : F.Expects expected ∨ generics = []) (span) :
    Infers F (applySignature callee sig generics b args expected span) F.Admits := by
  have hreturn {b : Bindings} (hb : b.Fit F P) : F.Admits (sig.returnType.instantiate generics b) :=
    hsig.2.instantiate hb.formed fun x hx => hx.elim (fun hfree => .inr (.inl (hfree x)))
      fun hx => (hfound x hx).imp_right (.imp_right (hb.has x))
  refine runs_ite ?_ ?_
  · refine (runs_report _ _ rfl).bind fun _ _ => (infers_checkAll h).bind fun _ _ => ?_
    exact runs_pure (hreturn hb)
  · have hhint := hhint.imp_left fun hhint x (hx : F.Unrestricted ∨ _) =>
      hx.elim (fun hfree => .inl (hfree x)) (hhint x)
    refine (infers_checkArguments _ h hsig.1 ?_ hhint).bind fun found hfit => runs_pure (hreturn hfit)
    split
    · split
      · exact hb
      · rename_i t hgenerics
        have ht := hexpected.resolve_right fun hnil => hgenerics (by simp [hnil])
        refine ⟨(ht _ rfl).unify _ hb.formed, fun x hx => ?_⟩
        exact Ty.has_unify _ _ (hb.has x hx)
    · exact hb

lemma infers_checkFunctionCall (span module) {info : FunctionInfo} (hinfo : F.Kind name (.function info))
    (h : ∀ o ∈ args, o.Infers F)
    (hguard : F.generic name = false ∨ ∀ o ∈ args, o.expr.selfTyped F.generic = true)
    (hexpected : F.Expects expected ∨ F.generic name = false ∧ ¬ F.Unrestricted) :
    Infers F (checkFunctionCall span module name info args expected) F.Admits := by
  unfold checkFunctionCall
  split
  · exact infers_refuseCall _ _ h rfl
  · rename_i overload sig hoverload
    have hmem := FunctionInfo.mem_of_overload? hoverload
    have hgeneric : sig.typeParams ≠ [] → F.Generic name := by
      intro hne
      refine hinfo.generic name ?_
      have hany : info.signatures.any Signature.isGeneric = true :=
        any_eq_true.2 ⟨sig, hmem, by simpa [Signature.isGeneric] using hne⟩
      simp [SymbolKind.generics, hany]
    have hhint := params_or_selfTyped hgeneric hguard
    have happly : Infers F (applySignature name sig sig.typeParams [] args expected span) F.Admits := by
      refine infers_applySignature name (hinfo.formed sig hmem) fit_nil h (fun x hx => .inl hx) ?_ ?_ span
      · exact hhint.imp_left fun hparams x hx => .inl (hparams x hx)
      · exact hexpected.imp_right fun hname => Generic.eq_nil hgeneric hname.1 hname.2
    split
    · refine (infers_inside _).bind fun _ _ => (runs_reportIf _ _ _ rfl).bind fun _ _ => ?_
      exact (infers_recordCall _ _).bind fun _ _ => happly
    · exact (infers_recordCall _ _).bind fun _ _ => happly

lemma infers_checkNamedCall (span name) (h : ∀ o ∈ args, o.Infers F)
    (hguard : F.generic name.node = false ∨ ∀ o ∈ args, o.expr.selfTyped F.generic = true)
    (hexpected : F.Expects expected ∨ F.generic name.node = false ∧ ¬ F.Unrestricted) :
    Infers F (checkNamedCall span name args expected) F.Admits := by
  refine runs_kind?_bind fun k hk => ?_
  split
  · exact infers_checkFunctionCall _ _ (hk _ rfl).kind h hguard hexpected
  · exact infers_refuseCall _ _ h rfl
  · exact infers_refuseCall _ _ h rfl

lemma infers_checkValueCall {callee} (hc : callee.Infers F)
    (h : ∀ o ∈ args, o.Infers F) : Infers F (checkValueCall callee args) F.Admits :=
  hc.none.bind fun _ _ => (infers_checkAll h).bind fun _ _ =>
    (runs_reportIf _ _ _ rfl).bind fun _ _ => runs_pure trivial

lemma infers_methodOf? (owner method) {o} (h : ∀ kind ∈ o, F.Kind owner.name kind ∧
      ∀ info, kind.nominalInfo? = some info → F.declared owner info.typeParams) :
    Infers F (methodOf? owner method o) fun o => ∀ p ∈ o, MethodFound F owner method.node p := by
  unfold methodOf?
  split
  · exact runs_pure (by simp)
  · rename_i info hinfo
    obtain ⟨kind, rfl, hinfo⟩ := bind_eq_some_iff.1 hinfo
    obtain ⟨hk, hdeclared⟩ := h kind rfl
    split
    · exact runs_report_bind (by simp) rfl
    · rename_i found hfound
      obtain ⟨before, after, hlist, -⟩ := lookup_eq_some_iff.1 hfound
      have hmem : (method.node, found) ∈ info.methods := by simp [hlist]
      obtain ⟨hformed, hgeneric⟩ := hk.method hinfo hmem
      refine (infers_checkVisible _ _ _).bind fun _ _ => runs_pure fun p hp => ?_
      cases hp
      exact ⟨hdeclared info hinfo, hformed, hgeneric⟩

lemma infers_findMethod?_bind {α : Type} {Q : α → Prop} {owner m} (howner : F.nominal owner m) (method) {k}
    (hplace : ∀ params (m : MethodInfo), k (some (params, m.unplaced)) = k (some (params, m)))
    (hk : ∀ o, (∀ p ∈ o, MethodFound F owner method.node p) → Infers F (k o) Q) :
    Infers F (findMethod? owner method >>= k) Q := by
  have hassoc : findMethod? owner method >>= k = nominal? owner >>= fun o => methodOf? owner method o >>= k := rfl
  rw [hassoc]
  refine infers_nominal?_bind howner (fun kind => ?_) fun o ho => (infers_methodOf? owner method ho).bind hk
  have hinfo : kind.unowned.unplaced.nominalInfo? = kind.nominalInfo?.map fun info => info.unowned.unplaced := by
    cases kind <;> rfl
  simp only [methodOf?, bind_some, hinfo]
  cases kind.nominalInfo? with
  | none => rfl
  | some info =>
    have hmethod : info.unowned.unplaced.methods.lookup method.node =
      (info.methods.lookup method.node).map (·.unplaced) := NominalInfo.lookup_unplaced info.unowned method.node
    simp only [map_some, hmethod]
    cases info.methods.lookup method.node with
    | none => rfl
    | some found =>
      exact congrArg (fun c => checkVisible owner found.visibility method >>= fun _ => c) (hplace info.typeParams found)

lemma infers_checkOwnMethodCall (span) {owner : Nominal} {typeArgs : List Ty}
    (htypes : F.nominal owner typeArgs.length ∧ Ty.AllFormed F.params F.nominal typeArgs) (method)
    (h : ∀ o ∈ args, o.Infers F)
    (hguard : F.generic method.node = false ∨ ∀ o ∈ args, o.expr.selfTyped F.generic = true)
    (hexpected : F.Expects expected ∨ F.generic method.node = false ∧ ¬ F.Unrestricted) :
    Infers F (checkOwnMethodCall span owner typeArgs method args expected) F.Admits := by
  refine infers_findMethod?_bind htypes.1 method (fun _ _ => rfl) fun k hk => ?_
  split
  · exact infers_giveUp h
  · rename_i typeParams info
    have hk := hk _ rfl
    refine (runs_reportIf _ _ _ rfl).bind fun _ _ => (infers_recordCall _ _).bind fun _ _ => ?_
    have hb : (Bindings.ofLists typeParams typeArgs).Fit F
        fun x => typeArgs.length = typeParams.length ∧ x ∈ typeParams :=
      ⟨formed_ofLists htypes.2, fun x hx => has_ofLists hx.1 hx.2⟩
    have howner (x : String) (hx : x ∈ typeParams) :
        F.params x ∨ typeArgs.length = typeParams.length ∧ x ∈ typeParams :=
      (Lawful.length_eq htypes.1 hk.params).symm.imp (· x) fun hlength => ⟨hlength, hx⟩
    refine infers_applySignature _ hk.formed hb h (fun x hx => ?_) ?_ ?_ _
    · exact (mem_append.1 hx).symm.imp_right (howner x)
    · refine (params_or_selfTyped hk.generic hguard).imp_left fun hparams x hx => ?_
      exact (mem_append.1 hx).elim (howner x) fun hx => .inl (hparams x hx)
    · exact hexpected.imp_right fun hname => Generic.eq_nil hk.generic hname.1 hname.2

lemma infers_checkMethodCall (span) {receiver} (hreceiver : F.Admits receiver) (method) (h : ∀ o ∈ args, o.Infers F)
    (hguard : F.generic method.node = false ∨ ∀ o ∈ args, o.expr.selfTyped F.generic = true)
    (hexpected : F.Expects expected ∨ F.generic method.node = false ∧ ¬ F.Unrestricted) :
    Infers F (checkMethodCall span receiver method args expected) F.Admits := by
  unfold checkMethodCall
  split
  · exact infers_checkOwnMethodCall _ hreceiver _ h hguard hexpected
  · exact infers_checkOwnMethodCall _ hreceiver _ h hguard hexpected
  · exact infers_giveUp h
  · exact infers_refuseCall _ _ h rfl

lemma infers_ownerArguments (typeName params typeArgs) :
    Infers F (ownerArguments typeName params typeArgs) fun p =>
      (p.1 = if typeArgs.isEmpty then params else []) ∧ p.2.Fit F fun x => typeArgs.isEmpty = false ∧
        x ∈ params := by
  unfold ownerArguments
  cases hempty : typeArgs.isEmpty with
  | true => exact runs_pure ⟨rfl, formed_nil, fun _ hx => by simp at hx⟩
  | false =>
    refine (infers_resolveTypes _).bind fun ts hts => ?_
    refine (infers_typeArguments _ _ hts _).bind fun us hus => runs_pure ⟨rfl, ?_, fun x hx => ?_⟩
    · exact formed_ofLists (allAdmits_of_allWrites hus.2)
    · exact has_ofLists hus.1 hx.2

lemma infers_checkAssociatedCall (span typeName typeArgs function) (h : ∀ o ∈ args, o.Infers F)
    (hguard : F.generic function.node = false ∧ (typeArgs.isEmpty = false ∨ F.generic typeName.node = false) ∨
      ∀ o ∈ args, o.expr.selfTyped F.generic = true) (hexpected : F.Expects expected ∨
      (F.generic function.node = false ∧ (typeArgs.isEmpty = false ∨ F.generic typeName.node = false)) ∧
        ¬ F.Unrestricted) : Infers F (checkAssociatedCall span typeName typeArgs function args expected) F.Admits := by
  refine runs_kind?_bind fun k hk => ?_
  split
  · exact infers_refuseCall _ _ h rfl
  · rename_i kind
    split
    · exact infers_refuseCall _ _ h rfl
    · rename_i owner howner
      have hk := hk kind rfl
      have hgeneric := hk.kind.generic_name howner
      have hdeclared := (hk.declared owner howner).1
      refine (infers_ownerArguments _ _ _).bind fun p hp => ?_
      obtain ⟨generics, b⟩ := p
      obtain ⟨rfl, hb⟩ := hp
      refine infers_findMethod?_bind (Tame.nominal hdeclared) function (fun _ _ => rfl) fun m hm => ?_
      split
      · exact infers_giveUp h
      · rename_i typeParams info
        have hm := hm _ rfl
        refine (runs_reportIf _ _ _ rfl).bind fun _ _ => (infers_recordCall _ _).bind fun _ _ => ?_
        by_cases hfree : F.Unrestricted
        · refine infers_applySignature _ hm.formed hb h (fun x _ => .inr (.inl (hfree x)))
            (.inl fun x _ => .inl (hfree x)) (.inl ?_) _
          exact hexpected.resolve_right fun hself => hself.2 hfree
        obtain rfl : typeParams = owner.typeParams := (Lawful.params_eq hm.params hdeclared).resolve_right hfree
        refine infers_applySignature _ hm.formed hb h (fun x hx => ?_) ?_ ?_ _
        · cases hempty : typeArgs.isEmpty with
          | true => exact .inl hx
          | false =>
            obtain hx | hx := mem_append.1 hx
            · exact .inr (.inr ⟨rfl, hx⟩)
            · exact .inl hx
        · refine hguard.imp (fun ⟨hfunction, howner⟩ x hx => ?_) fun hself o ho => ⟨hself o ho, hfree⟩
          rw [Generic.eq_nil hm.generic hfunction hfree, append_nil] at hx
          obtain hwritten | hname := howner
          · exact .inr ⟨hwritten, hx⟩
          · simp [Generic.eq_nil hgeneric hname hfree] at hx
        · refine hexpected.imp_right fun ⟨⟨hfunction, howner⟩, hfree⟩ => ?_
          rw [Generic.eq_nil hm.generic hfunction hfree, append_nil]
          obtain hwritten | hname := howner
          · simp [hwritten]
          · simp [Generic.eq_nil hgeneric hname hfree]

/-! ### Dotted names -/

lemma infers_checkBuiltinVariant (span) (head member : Name) (h : ∀ o ∈ args, o.Infers F)
    (hexpected : F.Expects expected ∨ (head.node = "Option" ∧ member.node = "Some") ∧
      ∀ o ∈ args, F.SelfTyped o.expr) :
    Infers F (checkBuiltinVariant span head member args expected) F.Admits := by
  unfold checkBuiltinVariant
  split
  · exact infers_refuseCall _ _ h rfl
  · rename_i v hv
    have htype : F.Expects expected ∨ v = .someValue := by
      refine hexpected.imp_right fun hsome => ?_
      rw [hsome.1.1, hsome.1.2] at hv
      exact (some.inj hv).symm
    refine runs_ite (infers_refuseCall _ _ h rfl) ((infers_recordCall _ _).bind fun _ _ => ?_)
    split
    · have hunknown : F.Admits .unknown := trivial
      exact runs_pure (admits_builtinVariantType _ hunknown htype)
    · refine (h _ (by simp) _ ?_).bind fun t ht => runs_pure (admits_builtinVariantType _ ht htype)
      exact hexpected.imp (fun hexpected => hexpected.payload? v) fun hself => hself.2 _ (by simp)

lemma infers_checkPayload (h : ∀ o ∈ os, o.Infers F) {P Q : String → Prop} {ts}
    (hts : Ty.AllFormed Q F.nominal ts)
    (hb : b.Fit F P) (hhint : (∀ x, Q x → F.params x ∨ P x) ∨ ∀ o ∈ os, F.SelfTyped o.expr) :
    Infers F (checkPayload os ts b) (Bindings.Fit F P) := by
  induction os generalizing ts b with
  | nil => exact runs_pure hb
  | cons o os ih =>
    cases ts with
    | nil => exact runs_pure hb
    | cons t ts =>
      have hfirst := hhint.imp_right fun hself => hself o (by simp)
      refine (infers_checkAgainst (h o (by simp)) hts.1 hb hfirst _).bind fun b' hb' => ?_
      exact ih (fun o ho => h o (by simp [ho])) hts.2 hb' (hhint.imp_right fun hself o ho => hself o (by simp [ho]))

lemma infers_checkVariant (span) {info : NominalInfo}
    {variants : List VariantInfo} (hkind : F.Seen name (.enum info variants)) (member)
    {args : Option (List Operand)} (h : ∀ o ∈ args.getD [], o.Infers F)
    (hguard : F.generic name = false ∨ ∀ o ∈ args.getD [], o.expr.selfTyped F.generic = true)
    (hexpected : F.Expects expected ∨ F.generic name = false ∧ ¬ F.Unrestricted) :
    Infers F (checkVariant span info variants member args expected) F.Admits := by
  have hgeneric : info.typeParams ≠ [] → F.Generic name := hkind.kind.generic_name rfl
  have hnominal : F.nominal info.nominal info.typeParams.length := Tame.nominal (hkind.declared info rfl).1
  unfold checkVariant
  split
  · exact infers_refuseCall _ _ h rfl
  · rename_i v hv
    refine runs_ite ?_ ?_
    · refine (runs_report _ _ rfl).bind fun _ _ => (infers_checkAll h).bind fun _ _ => ?_
      exact runs_pure ⟨by rwa [length_map], Ty.allFormed_unknowns _⟩
    · have hpayload := hkind.kind.formed.2 v (mem_of_find?_eq_some hv)
      refine (infers_checkPayload (P := fun _ => False) h hpayload ⟨?_, fun _ => False.elim⟩ ?_).bind
        fun b hb => ?_
      · split
        · split
          · obtain hexpected | ⟨hname, hfree⟩ := hexpected
            · exact formed_ofLists (hexpected (.enum _ _) rfl).2
            · simp [Generic.eq_nil hgeneric hname hfree, Bindings.ofLists, formed_nil]
          · exact formed_nil
        · exact formed_nil
      · exact (params_or_selfTyped hgeneric hguard).imp_left
          fun hparams x hx => .inl (hx.elim (· x) (hparams x))
      · refine (infers_recordCall _ _).bind fun _ _ => runs_pure ⟨?_, hb.formed.typesOf _⟩
        rwa [Bindings.typesOf, length_map]

lemma checkExported_unplaced (span head member args expected e) :
    checkExported span head member args expected (some e.unplaced) =
      checkExported span head member args expected (some e) := by
  simp only [checkExported, ModuleExports.item?_unplaced]
  cases e.item? member.node with
  | none => rfl
  | some item =>
    obtain ⟨kind, visibility, place⟩ := item
    cases kind <;> cases args <;> rfl

lemma infers_checkModuleMember (span) {target} (htarget : ∀ name ∈ target, F.imports name) (head member) {args}
    (h : ∀ o ∈ args.getD [], o.Infers F)
    (hguard : F.generic member.node = false ∨ ∀ o ∈ args.getD [], o.expr.selfTyped F.generic = true)
    (hexpected : F.Expects expected ∨ (args.isSome = true → F.generic member.node = false) ∧ ¬ F.Unrestricted) :
    Infers F (checkModuleMember span target head member args expected) F.Admits := by
  refine runs_read_bind fun σ σ' hσ => ?_
  have hsame : checkExported span head member args expected (target.bind σ'.library.module?) =
      checkExported span head member args expected (target.bind σ.library.module?) := by
    cases target with
    | none => rfl
    | some name =>
      exact eq_of_map_unplaced_eq (Tame.library hσ (htarget name rfl)) (checkExported span head member args expected)
        (checkExported_unplaced span head member args expected)
  show Runs F True (checkExported span head member args expected (target.bind σ.library.module?))
    (checkExported span head member args expected (target.bind σ'.library.module?)) F.Admits
  rw [hsame]
  unfold checkExported
  split
  · exact infers_giveUp h
  · rename_i exports hexports
    obtain ⟨name, rfl, hexports⟩ := bind_eq_some_iff.1 hexports
    split
    · exact infers_refuseCall _ _ h rfl
    · rename_i item hitem
      have hkind := Inferring.exported hσ (htarget name rfl) hexports hitem
      refine runs_ite (infers_refuseCall _ _ h rfl) ?_
      split
      · rename_i hfunction
        rw [hfunction] at hkind
        exact infers_checkFunctionCall _ _ hkind h hguard (hexpected.imp_right (.imp_left fun h => h rfl))
      · rename_i hconst
        rw [hconst] at hkind
        exact runs_pure (hkind.formed.mono fun x hfree => hfree x)
      · exact infers_refuse _ _ rfl
      · exact infers_refuseCall _ _ h rfl

lemma infers_checkValueMember (span) {head} (hhead : F.place head.span.key) (member)
    {args} (h : ∀ o ∈ args.getD [], o.Infers F)
    (hguard : F.generic member.node = false ∨ ∀ o ∈ args.getD [], o.expr.selfTyped F.generic = true)
    (hexpected : F.Expects expected ∨ (args.isSome = true → F.generic member.node = false) ∧ ¬ F.Unrestricted)
    (ht : F.Admits t) : Infers F (checkValueMember span head member args expected t) F.Admits := by
  refine (infers_recordType hhead ht).bind fun _ _ => ?_
  cases args with
  | none => exact infers_fieldType ht _
  | some os => exact infers_checkMethodCall _ ht _ h hguard (hexpected.imp_right (.imp_left fun h => h rfl))

lemma infers_checkDotted (span) {head} (hhead : F.place head.span.key) (member)
    {args} (h : ∀ o ∈ args.getD [], o.Infers F) (hguard : isBuiltinEnum head.node = true ∨
      F.generic head.node = false ∧ F.generic member.node = false ∨
      ∀ o ∈ args.getD [], o.expr.selfTyped F.generic = true)
    (hbuiltin : isBuiltinEnum head.node = true → F.Expects expected ∨
      (head.node = "Option" ∧ member.node = "Some") ∧ ∀ o ∈ args.getD [], F.SelfTyped o.expr)
    (hother : isBuiltinEnum head.node = false → F.Expects expected ∨
      (F.generic head.node = false ∧ (args.isSome = true → F.generic member.node = false)) ∧ ¬ F.Unrestricted) :
    Infers F (checkDotted span head member args expected) F.Admits := by
  show Infers F (if isBuiltinEnum head.node = true then _ else _) F.Admits
  cases hname : isBuiltinEnum head.node with
  | true => exact infers_checkBuiltinVariant _ _ _ h (hbuiltin hname)
  | false =>
    have hguard := hguard.resolve_left (by simp [hname])
    have hother := hother hname
    have hmember : F.Expects expected ∨ (args.isSome = true → F.generic member.node = false) ∧
      ¬ F.Unrestricted :=
      hother.imp_right (.imp_left And.right)
    rw [if_neg (by simp)]
    refine runs_kind?_bind fun k hk => ?_
    split
    · exact infers_checkVariant _ (hk _ rfl) _ h (hguard.imp_left And.left) (hother.imp_right (.imp_left And.left))
    · refine infers_checkModuleMember _ ?_ _ _ h (hguard.imp_left And.right) hmember
      rintro _ rfl
      exact (hk _ rfl).imported _ _ rfl
    · exact infers_checkValueMember span hhead member h (hguard.imp_left And.right) hmember (hk _ rfl).isLocal
    · exact infers_checkValueMember span hhead member h (hguard.imp_left And.right) hmember
        ((hk _ rfl).kind.formed.mono fun x hfree => hfree x)
    · exact infers_refuseCall _ _ h rfl
    · exact infers_refuseCall _ _ h rfl

/-! ### Expressions -/

lemma infers_checkExpr_call {span callee args} (hspan : F.place span.key)
    (hc : Operand.Infers F ⟨callee, checkExpr callee⟩)
    (hr : ∀ s receiver method, callee = .field s receiver method →
      Operand.Infers F ⟨receiver, checkExpr receiver⟩) (h : ∀ o ∈ operands args, o.Infers F)
    (hguard : callee.namesGeneric F.generic = false ∨ Expr.allSelfTyped F.generic args = true)
    (hexpected : F.Expects expected ∨ callee.namesGeneric F.generic = false ∧ ¬ F.Unrestricted) :
    Infers F (checkExpr (.call span callee args) expected) F.Admits := by
  have hguard := hguard.imp_right (selfTyped_operands F.generic)
  cases callee with
  | ident s name =>
    exact infers_recorded hspan (infers_checkNamedCall _ ⟨name, s⟩ h hguard hexpected)
  | field _ receiver _ =>
    refine infers_recorded hspan ((hr _ _ _ rfl).none.bind fun t ht => ?_)
    exact infers_checkMethodCall _ ht _ h hguard hexpected
  | _ => exact infers_recorded hspan (infers_checkValueCall hc h)

-- The linter does not see the uses of a variable in recursive calls.
set_option linter.unusedSectionVars false

mutual

lemma infers_checkExpr (e) (hguard : e.guarded F.generic = true) (hcovers : F.Covers e.nodes) :
    Operand.Infers F ⟨e, checkExpr e⟩ := by
  intro expected hexpected
  have hspan := hcovers.place
  match e with
  | .literal .. => exact infers_recorded hspan (infers_checkLiteral _ _ _)
  | .ident .. => exact infers_recorded hspan (infers_checkName _ _)
  | .selfRef _ => exact infers_recorded hspan (infers_checkSelf _)
  | .binary _ lhs _ rhs =>
    rw [Expr.guarded, Bool.and_eq_true] at hguard
    rw [Expr.nodes] at hcovers
    have hl := infers_checkExpr lhs hguard.1 hcovers.left.tail
    have hr := infers_checkExpr rhs hguard.2 hcovers.right
    exact infers_recorded hspan (infers_checkBinary _ _ hl hr _)
  | .unary _ _ pointer operand =>
    rw [Expr.guarded] at hguard
    rw [Expr.nodes] at hcovers
    refine infers_recorded hspan (infers_checkUnary _ _ _ (infers_checkExpr operand hguard hcovers.tail)
      hcovers.tail.place (hexpected.imp_right fun hself => ?_))
    have hown := hself.1
    simp only [Expr.selfTyped, Bool.or_eq_true, decide_eq_true_eq] at hown
    exact hown.imp_right fun h => ⟨h, hself.2⟩
  | .call _ callee args =>
    simp only [Expr.guarded, Bool.and_eq_true, Bool.or_eq_true, Bool.not_eq_true'] at hguard
    rw [Expr.nodes] at hcovers
    have hc := infers_checkExpr callee hguard.1.1 hcovers.left.tail
    refine infers_checkExpr_call hspan hc ?_ (infers_operands args hguard.1.2 hcovers.right) hguard.2
      (hexpected.imp_right fun hself => ⟨by simpa using hself.1, hself.2⟩)
    rintro s receiver method rfl
    have hcallee := hcovers.left.tail
    rw [Expr.nodes] at hcallee
    exact infers_checkExpr receiver (by simpa [Expr.guarded] using hguard.1.1) hcallee.tail
  | .assocCall _ _ typeArgs _ args =>
    simp only [Expr.guarded, Bool.and_eq_true, Bool.or_eq_true, Bool.not_eq_true'] at hguard
    rw [Expr.nodes] at hcovers
    refine infers_recorded hspan (infers_checkAssociatedCall _ _ _ _
      (infers_operands args hguard.1 hcovers.right) (hguard.2.imp_right (selfTyped_operands _))
      (hexpected.imp_right fun hself => ⟨?_, hself.2⟩))
    simpa using hself.1
  | .dotted span head member =>
    have hhead : F.place head.span.key :=
      hcovers (.expr (.dotted span head member)) (by simp [Expr.nodes]) _ (by simp [Node.places, Expr.places])
    refine infers_recorded hspan (infers_checkDotted _ hhead _ (by simp) (.inr (.inr (by simp))) ?_ ?_)
    · refine fun hname => hexpected.imp_right fun hself => ?_
      simp [Frame.SelfTyped, hname] at hself
    · refine fun hname => hexpected.imp_right fun hself => ⟨⟨?_, by simp⟩, hself.2⟩
      simpa [hname] using hself.1
  | .dottedCall span head member args =>
    have hhead : F.place head.span.key :=
      hcovers (.expr (.dottedCall span head member args)) (by simp [Expr.nodes]) _ (by simp [Node.places, Expr.places])
    simp only [Expr.guarded, Bool.and_eq_true, Bool.or_eq_true, Bool.not_eq_true'] at hguard
    rw [Expr.nodes] at hcovers
    have hargs : ∀ o ∈ (some (operands args)).getD [], o.Infers F :=
      infers_operands args hguard.1 hcovers.tail
    refine infers_recorded hspan (infers_checkDotted _ hhead _ hargs ?_ ?_ ?_)
    · exact (or_assoc.1 hguard.2).imp_right (.imp_right (selfTyped_operands _))
    · refine fun hname => hexpected.imp_right fun hself => ?_
      have hown := hself.1
      simp only [Expr.selfTyped, hname, ↓reduceIte, Bool.and_eq_true, decide_eq_true_eq] at hown
      exact ⟨hown.1, fun o ho => ⟨selfTyped_operands _ hown.2 o ho, hself.2⟩⟩
    · refine fun hname => hexpected.imp_right fun hself => ⟨?_, hself.2⟩
      have hown := hself.1
      simp only [Expr.selfTyped, hname, Bool.false_eq_true, ↓reduceIte, Bool.and_eq_true, Bool.not_eq_true'] at hown
      exact ⟨hown.1, fun _ => hown.2⟩
  | .field _ base _ =>
    rw [Expr.guarded] at hguard
    rw [Expr.nodes] at hcovers
    have hbase := infers_checkExpr base hguard hcovers.tail
    exact infers_recorded hspan (hbase.none.bind fun _ ht => infers_fieldType ht _)
  | .tupleIndex _ base _ =>
    rw [Expr.guarded] at hguard
    rw [Expr.nodes] at hcovers
    exact infers_recorded hspan (infers_checkTupleIndex _ (infers_checkExpr base hguard hcovers.tail) _)
  | .index _ base index =>
    rw [Expr.guarded, Bool.and_eq_true] at hguard
    rw [Expr.nodes] at hcovers
    have hbase := infers_checkExpr base hguard.1 hcovers.left.tail
    exact infers_recorded hspan (infers_checkIndex hbase (infers_checkExpr index hguard.2 hcovers.right))
  | .slice _ base start stop =>
    simp only [Expr.guarded, Bool.and_eq_true] at hguard
    rw [Expr.nodes] at hcovers
    have hbase := infers_checkExpr base hguard.1.1 hcovers.left.left.tail
    refine infers_recorded hspan (infers_checkSlice hbase fun o ho => ?_)
    obtain ho | ho := mem_append.1 ho
    · exact infers_optionOperand start hguard.1.2 hcovers.left.right o ho
    · exact infers_optionOperand stop hguard.2 hcovers.right o ho
  | .structLit _ _ _ fields =>
    simp only [Expr.guarded, Bool.and_eq_true, Bool.or_eq_true, Bool.not_eq_true'] at hguard
    rw [Expr.nodes] at hcovers
    refine infers_recorded hspan (infers_checkStructLiteral _ _ _ (infers_fieldOperands fields hguard.1 hcovers.right)
      ((or_assoc.1 hguard.2).imp_right (.imp_right (selfTyped_fieldOperands _)))
      (hexpected.imp_right fun hself => ⟨?_, hself.2⟩))
    simpa using hself.1
  | .tuple _ elems =>
    rw [Expr.guarded] at hguard
    rw [Expr.nodes] at hcovers
    refine infers_recorded hspan (infers_checkTuple _ (infers_operands elems hguard hcovers.tail)
      (hexpected.imp_right fun hself o ho => ⟨?_, hself.2⟩))
    exact selfTyped_operands _ (by simpa using hself.1) o ho
  | .array _ elems =>
    rw [Expr.guarded] at hguard
    rw [Expr.nodes] at hcovers
    have hexpected := hexpected.resolve_right fun hself => by
      simp [Frame.SelfTyped] at hself
    exact infers_recorded hspan (infers_checkArray (infers_operands elems hguard hcovers.tail) hexpected)
  | .arrayRepeat _ value count =>
    rw [Expr.guarded] at hguard
    rw [Expr.nodes] at hcovers
    refine infers_recorded hspan (infers_checkRepeat (infers_checkExpr value hguard hcovers.left.tail) _
      hcovers.right.place (hexpected.imp_right fun hself => ⟨?_, hself.2⟩))
    simpa using hself.1
  | .paren _ inner =>
    rw [Expr.guarded] at hguard
    rw [Expr.nodes] at hcovers
    refine infers_recorded hspan (infers_checkExpr inner hguard hcovers.tail _
      (hexpected.imp_right fun hself => ⟨?_, hself.2⟩))
    simpa using hself.1
  | .sizeof .. =>
    exact infers_recorded hspan ((infers_resolveType _).bind fun _ _ => runs_pure trivial)
  | .await _ handle =>
    rw [Expr.guarded] at hguard
    rw [Expr.nodes] at hcovers
    exact infers_recorded hspan (infers_checkAwait (infers_checkExpr handle hguard hcovers.tail))

lemma infers_operands (es : List Expr) (hguard : Expr.allGuarded F.generic es = true)
    (hcovers : F.Covers (Expr.listNodes es)) : ∀ o ∈ operands es, o.Infers F := by
  intro o ho
  match es with
  | [] => simp [operands] at ho
  | e :: es =>
    rw [Expr.allGuarded, Bool.and_eq_true] at hguard
    rw [Expr.listNodes] at hcovers
    obtain rfl | ho := mem_cons.1 (by simpa [operands] using ho)
    · exact infers_checkExpr e hguard.1 hcovers.left
    · exact infers_operands es hguard.2 hcovers.right o ho

lemma infers_optionOperand (e : Option Expr) (hguard : Expr.optionGuarded F.generic e = true)
    (hcovers : F.Covers (Expr.optionNodes e)) : ∀ o ∈ optionOperand e, o.Infers F := by
  intro o ho
  match e with
  | none => simp [optionOperand] at ho
  | some e =>
    obtain rfl : o = ⟨e, checkExpr e⟩ := by simpa [optionOperand] using ho
    exact infers_checkExpr e (by simpa [Expr.optionGuarded] using hguard) (by simpa [Expr.optionNodes] using hcovers)

lemma infers_fieldOperand (f) (hguard : f.guarded F.generic = true)
    (hcovers : F.Covers f.nodes) : (fieldOperand f).value.Infers F := by
  match f with
  | .mk _ value =>
    exact infers_checkExpr value (by simpa [FieldInit.guarded] using hguard) (by simpa [FieldInit.nodes] using hcovers)

lemma infers_fieldOperands (fs : List FieldInit) (hguard : FieldInit.allGuarded F.generic fs = true)
    (hcovers : F.Covers (FieldInit.listNodes fs)) : ∀ f ∈ fieldOperands fs, f.value.Infers F := by
  intro f hf
  match fs with
  | [] => simp [fieldOperands] at hf
  | g :: gs =>
    rw [FieldInit.allGuarded, Bool.and_eq_true] at hguard
    rw [FieldInit.listNodes] at hcovers
    obtain rfl | hf := mem_cons.1 (by simpa [fieldOperands] using hf)
    · exact infers_fieldOperand g hguard.1 hcovers.left
    · exact infers_fieldOperands gs hguard.2 hcovers.right f hf

end

end

end SourceCheck
