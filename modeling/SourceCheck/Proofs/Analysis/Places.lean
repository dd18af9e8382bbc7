import SourceCheck.Proofs.Analysis.Operands
import SourceCheck.Proofs.Analysis.Paths

/-!
# Places that may be written

A place may be written if its root is a mutable variable, or what a pointer points to that is not a `*const`. The
check enforces this, but `Option.None` passes for a place.
-/

namespace SourceCheck

open Check

variable {e : Expr} {rule : Check Ty} {os : List Operand}

/-- Places that may be written, where `mutable` are the variables that may change. -/
inductive Writable (types : SpanTable Ty) (mutable : String → Prop) : Expr → Prop where
  | binding {span name} :
    mutable name →
    Writable types mutable (.ident span name)
  | member {span head member} :
    mutable head.node →
    Writable types mutable (.dotted span head member)
  | field {span base name} :
    Writable types mutable base →
    Writable types mutable (.field span base name)
  | tupleIndex {span base index} :
    Writable types mutable base →
    Writable types mutable (.tupleIndex span base index)
  | index {span base index} :
    Writable types mutable base →
    Writable types mutable (.index span base index)
  | paren {span inner} :
    Writable types mutable inner →
    Writable types mutable (.paren span inner)
  | target {span pointer t} :
    TypeAt types pointer t →
    (∀ u, t ≠ .pointer .const u) →
    Writable types mutable (.unary span none (some .deref) pointer)

def Expr.startsAtNone : Expr → Bool
  | .dotted _ head member => head.node = "Option" && member.node = "None"
  | .field _ base _ | .tupleIndex _ base _ | .index _ base _ | .paren _ base => base.startsAtNone
  | _ => false

lemma Writable.mono {types types'} {mutable mutable' : String → Prop} (htypes : types ⊆ types')
    (hmutable : ∀ name, mutable name → mutable' name) (h : Writable types mutable e) :
    Writable types' mutable' e := by
  induction h with
  | binding h => exact .binding (hmutable _ h)
  | member h => exact .member (hmutable _ h)
  | field _ ih => exact .field ih
  | tupleIndex _ ih => exact .tupleIndex ih
  | index _ ih => exact .index ih
  | paren _ ih => exact .paren ih
  | target ht hconst => exact .target (htypes ht) hconst

/-! ### Roots -/

lemma TypeAt.exists_get? {types t} (h : TypeAt types e t) : ∃ u, types.get? e.span = some u ∧ TypeAt types e u := by
  have hsome : (types.lookup e.span.key).isSome := by
    rw [Option.isSome_iff_ne_none, ne_eq, List.lookup_eq_none_iff]
    intro hnone
    simpa using hnone _ h
  obtain ⟨u, hu⟩ := Option.isSome_iff_exists.1 hsome
  obtain ⟨l₁, l₂, rfl, -⟩ := List.lookup_eq_some_iff.1 hu
  exact ⟨u, hu, by simp [TypeAt]⟩

def SymbolKind.isMutable : SymbolKind → Bool
  | .variable _ mutable _ => mutable
  | _ => false

def SymbolTable.Mutable (t : SymbolTable) (name : String) : Prop :=
  ∃ s, t.symbol? name = some s ∧ s.kind.isMutable = true

lemma isMutable_of_bindingProblem? {usage name k} (h : bindingProblem? usage name k = none) : k.isMutable = true := by
  unfold bindingProblem? at h
  split at h
  · split at h <;> simp_all [SymbolKind.isMutable]
  · cases h
  · cases h

lemma clean_checkPlace_iff {target span usage σ f} :
    Clean (checkPlace target span usage) σ f ↔ placeProblem? f usage target.placeRoot = none := by
  unfold Clean checkPlace
  rw [run_get_bind]
  cases placeProblem? f usage target.placeRoot with
  | none => exact iff_of_true rfl rfl
  | some p => exact iff_of_false not_clean_report (by simp)

section Passed

variable {σ : Setting} {t : SymbolTable} {types : SpanTable Ty} {span : Span} {expected : Option Ty}

lemma Check.Passed.of_recorded (hrule : Plain rule) (h : Passed σ t types (recorded span rule)) :
    Passed σ t types rule :=
  (h.of_bind hrule (fun u => (plain_recordType span u).bind fun _ => plain_pure u)).1

lemma symbol?_of_checkName {name} (h : Passed σ t types (checkName span name)) : ∃ s, t.symbol? name = some s := by
  obtain ⟨f, rfl, hclean, -⟩ := h
  cases hs : f.symbols.symbol? name with
  | some s => exact ⟨s, rfl⟩
  | none =>
    rw [Clean, checkName, run_kind?_bind, hs] at hclean
    exact absurd hclean not_clean_report_pure

lemma symbol?_of_checkDotted {head member} (h : Passed σ t types (checkDotted span head member none expected)) :
    (head.node = "Option" ∧ member.node = "None") ∨ ∃ s, t.symbol? head.node = some s := by
  obtain ⟨f, rfl, hclean, -⟩ := h
  unfold checkDotted at hclean
  split at hclean
  · unfold checkBuiltinVariant at hclean
    split at hclean
    · exact absurd hclean (not_clean_report_bind fun _ => (local_giveUp (by simp)))
    · rename_i v hv
      split at hclean
      · exact absurd hclean (not_clean_report_bind fun _ => (local_giveUp (by simp)))
      · rename_i harity
        -- Only `None` holds no value.
        unfold BuiltinVariant.ofNames? at hv
        split at hv <;> cases hv
        · simp [BuiltinVariant.arity] at harity
        · simp [BuiltinVariant.arity] at harity
        · simp [BuiltinVariant.arity] at harity
        · exact .inl ⟨‹_›, ‹_›⟩
  · cases hs : f.symbols.symbol? head.node with
    | some s => exact .inr ⟨s, rfl⟩
    | none =>
      rw [Clean, run_kind?_bind, hs] at hclean
      exact absurd hclean (not_clean_report_bind fun _ => (local_giveUp (by simp)))

lemma Check.Visits.passed_part (hv : Visits os rule) (h : Passed σ t types (recorded span rule)) {part}
    (hpart : ⟨part, checkExpr part⟩ ∈ os) : ∃ expected, Passed σ t types (checkExpr part expected) :=
  (visits_recorded hv).passed σ t types h ⟨part, checkExpr part⟩ hpart

/-- Where a root found nothing wrong, the place may be written, if the types of its parts are noted. -/
lemma writable_of_placeProblem? {f usage} (e expected) (hroot : e.startsAtNone = false)
    (hpassed : Passed σ f.symbols f.exprTypes (checkExpr e expected))
    (hplace : placeProblem? f usage e.placeRoot = none) : Writable f.exprTypes f.symbols.Mutable e := by
  have hname {name : String} (h : ∃ s, f.symbols.symbol? name = some s)
      (hplace : placeProblem? f usage (.binding name) = none) : f.symbols.Mutable name := by
    obtain ⟨s, hs⟩ := h
    rw [placeProblem?, hs] at hplace
    exact ⟨s, hs, isMutable_of_bindingProblem? hplace⟩
  match e with
  | .ident .. =>
    exact .binding (hname (symbol?_of_checkName (hpassed.of_recorded (infers_checkName _ _).plain)) hplace)
  | .dotted span head member =>
    have hno : ∀ o ∈ (none : Option (List Operand)).getD [], o.Plain := by simp
    have hv := visits_checkDotted span head member hno expected
    obtain ⟨hhead, hmember⟩ | hs := symbol?_of_checkDotted (hpassed.of_recorded hv.plain)
    · simp [Expr.startsAtNone, hhead, hmember] at hroot
    · exact .member (hname hs hplace)
  | .field _ base name =>
    have hv := ((plain_checkExpr base).visits none).after fun t => plain_fieldType t name
    obtain ⟨_, hbase⟩ := hv.passed_part hpassed List.mem_cons_self
    exact .field (writable_of_placeProblem? base _ hroot hbase hplace)
  | .tupleIndex span base i =>
    obtain ⟨_, hbase⟩ :=
      (visits_checkTupleIndex span (plain_checkExpr base) i).passed_part hpassed List.mem_cons_self
    exact .tupleIndex (writable_of_placeProblem? base _ hroot hbase hplace)
  | .index _ base index =>
    have hv := visits_checkIndex (plain_checkExpr base) (plain_checkExpr index)
    obtain ⟨_, hbase⟩ := hv.passed_part hpassed List.mem_cons_self
    exact .index (writable_of_placeProblem? base _ hroot hbase hplace)
  | .paren _ inner =>
    obtain ⟨_, hinner⟩ := ((plain_checkExpr inner).visits expected).passed_part hpassed List.mem_cons_self
    exact .paren (writable_of_placeProblem? inner _ hroot hinner hplace)
  | .unary span none (some .deref) pointer =>
    have hv := visits_checkUnary span none (some .deref) (plain_checkExpr pointer) (.inl rfl) expected
    obtain ⟨want, g, -, -, htypes⟩ := hv.passed_part hpassed List.mem_cons_self
    -- The table has a type for the pointer, so it was this type that was looked at.
    have hnoted : TypeAt f.exprTypes pointer _ := htypes (typeAt_checkExpr pointer want σ g)
    obtain ⟨t, hget, htype⟩ := hnoted.exists_get?
    refine .target htype ?_
    rintro u rfl
    simp [Expr.placeRoot, placeProblem?, hget] at hplace
  | .unary _ none none _ | .unary _ none (some .addressOf) _ | .unary _ none (some .addressOfMut) _
  | .unary _ (some _) _ _ | .literal .. | .selfRef _ | .binary .. | .call .. | .assocCall ..
  | .dottedCall .. | .slice .. | .structLit .. | .tuple .. | .array .. | .arrayRepeat .. | .sizeof ..
  | .await .. => cases hplace

lemma writable_of_checkPointerPrefix (hroot : e.startsAtNone = false)
    (h : Passed σ t types (checkPointerPrefix span (some .addressOfMut) ⟨e, checkExpr e⟩ expected)) :
    Writable types t.Mutable e := by
  obtain ⟨f, rfl, hclean, htypes⟩ := h
  have hplain : Plain (checkExpr e none) := plain_checkExpr e none
  have hplace := plain_checkPlace e e.span .borrow
  obtain ⟨hoperand, hrest⟩ := hclean.of_bind hplain.steps fun _ => hplace.steps.bind fun _ => local_pure _
  obtain ⟨hplace, -⟩ := hrest.of_bind hplace.steps fun _ => local_pure _
  have hsymbols := hplain.symbols σ f
  have hnoted : (checkExpr e none σ f).2.exprTypes ⊆ types :=
    List.Subset.trans ((infers_checkPlace e e.span .borrow).isLocal σ _).exprTypes_suffix.subset htypes
  have hpassed : Passed σ (checkExpr e none σ f).2.symbols (checkExpr e none σ f).2.exprTypes
      (checkExpr e none) := ⟨f, hsymbols.symm, hoperand, List.Subset.refl _⟩
  have hwritable := writable_of_placeProblem? e none hroot hpassed (clean_checkPlace_iff.1 hplace)
  exact hwritable.mono hnoted fun name hname => hsymbols ▸ hname

lemma writable_of_addressOfMut {logical} (hroot : e.startsAtNone = false)
    (h : Passed σ t types (checkExpr (.unary span logical (some .addressOfMut) e) expected)) :
    Writable types t.Mutable e := by
  have hplain := plain_checkExpr e
  have hunary := visits_checkUnary span logical (some .addressOfMut) hplain (.inl rfl) expected
  have hborrow := h.of_recorded hunary.plain
  rw [checkUnary_eq span logical (.inl rfl)] at hborrow
  have hfirst := (visits_checkPointerPrefix span (some .addressOfMut) hplain expected).plain
  obtain ⟨hborrow, -⟩ := hborrow.of_bind hfirst (plain_afterPointerPrefix span logical _)
  exact writable_of_checkPointerPrefix hroot hborrow

end Passed

/-! ### Operands of `&mut` -/

mutual

/-- The operands of `&mut`, outside of constants such as the size of an array. -/
def Expr.borrowed : Expr → List Expr
  | .literal .. | .ident .. | .selfRef _ | .dotted .. | .sizeof .. => []
  | .unary _ _ pointer operand =>
    (if pointer = some .addressOfMut then [operand] else []) ++ operand.borrowed
  | .field _ e _ | .tupleIndex _ e _ | .arrayRepeat _ e _ | .paren _ e | .await _ e => e.borrowed
  | .binary _ a _ b | .index _ a b => a.borrowed ++ b.borrowed
  | .call _ callee args => callee.borrowed ++ Expr.allBorrowed args
  | .assocCall _ _ _ _ es | .dottedCall _ _ _ es | .tuple _ es | .array _ es => Expr.allBorrowed es
  | .slice _ base start stop =>
    base.borrowed ++ (Expr.optionBorrowed start ++ Expr.optionBorrowed stop)
  | .structLit _ _ _ fields => FieldInit.allBorrowed fields

def Expr.allBorrowed : List Expr → List Expr
  | [] => []
  | e :: es => e.borrowed ++ Expr.allBorrowed es

def Expr.optionBorrowed : Option Expr → List Expr
  | none => []
  | some e => e.borrowed

def FieldInit.borrowed : FieldInit → List Expr
  | .mk _ value => value.borrowed

def FieldInit.allBorrowed : List FieldInit → List Expr
  | [] => []
  | f :: fs => f.borrowed ++ FieldInit.allBorrowed fs

end

lemma plain_operands (es) : ∀ o ∈ operands es, o.Plain :=
  fun o ho expected => ((local_operands es o ho).of_expects (expects_steps expected)).plain

lemma plain_optionOperand (e) : ∀ o ∈ optionOperand e, o.Plain :=
  fun o ho expected => ((local_optionOperand e o ho).of_expects (expects_steps expected)).plain

end SourceCheck
