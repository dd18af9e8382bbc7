import SourceCheck.Proofs.Analysis.Local

/-!
# What constant expressions stand for

A constant expression has a value, or none because a constant of another module is not known. What folding finds
without problems follows the rules, also on demand and when values are recalled.
-/

namespace SourceCheck

open Check

/-! ### Rules -/

abbrev TypeNames := String → List Ty → Ty → Prop

structure ConstContext where
  imports : List ImportBinding
  library : Library
  constants : List ConstDecl
  /-- What the names of types may stand for where a type is measured. -/
  scopes : TypeNames → Prop
  size : Ty → Nat → Prop

namespace ConstContext

def target? (C : ConstContext) (name : String) : Option (Option String) :=
  (C.imports.find? (·.binding = name)).map (·.target)

def constant? (C : ConstContext) (name : String) : Option ConstDecl :=
  C.constants.find? (·.name.node = name)

end ConstContext

def Literal.constValue? : Literal → Option ConstValue
  | .int n => if n ≤ ConstValue.maxInt then some (.int n) else none
  | .float x => some (.float x)
  | .bool b => some (.bool b)
  | .string s => some (.str s)
  | .char c => some (.char c)
  | .unit => none

/-- The size of an array, perhaps unknown, unless the value is refused. -/
def ConstValue.sizeOf? : Option ConstValue → Option (Option Nat)
  | none => some none
  | some (.int n) => if 0 ≤ n ∧ n < Nat.pow 2 64 then some (some n.toNat) else none
  | some _ => none

mutual

/-- The value of an expression, `none` if it rests on what is not known of another module. -/
inductive Evaluates (C : ConstContext) : Expr → Option ConstValue → Prop where
  | literal {span value v} :
    value.constValue? = some v →
    Evaluates C (.literal span value) (some v)
  | name {span name decl v} :
    C.constant? name = some decl →
    Evaluates C decl.value v →
    Evaluates C (.ident span name) v
  | unknown {span head member target} :
    C.target? head.node = some target →
    C.library.member? target member.node = none →
    Evaluates C (.dotted span head member) none
  | member {span head member target module item t v} :
    C.target? head.node = some target →
    C.library.member? target member.node = some (module, item) →
    item.visibility = .pub →
    item.kind = .const t v →
    Evaluates C (.dotted span head member) v
  | paren {span inner v} :
    Evaluates C inner v →
    Evaluates C (.paren span inner) v
  | unaryNone {span logical operand} :
    Evaluates C operand none →
    Evaluates C (.unary span logical none operand) none
  | plain {span operand v} :
    Evaluates C operand (some v) →
    Evaluates C (.unary span none none operand) (some v)
  | logical {span op operand v w} :
    Evaluates C operand (some v) →
    v.foldPrefix op = .ok w →
    Evaluates C (.unary span (some op) none operand) (some w)
  | leftNone {span lhs op rhs} :
    Evaluates C lhs none →
    Evaluates C (.binary span lhs op rhs) none
  | rightNone {span lhs op rhs l} :
    Evaluates C lhs (some l) →
    Evaluates C rhs none →
    Evaluates C (.binary span lhs op rhs) none
  | binary {span lhs op rhs l r v} :
    Evaluates C lhs (some l) →
    Evaluates C rhs (some r) →
    ConstValue.foldBinary op l r = .ok v →
    Evaluates C (.binary span lhs op rhs) (some v)
  | sizeof {span type names t n} :
    C.scopes names →
    Resolves C names type t →
    C.size t n →
    Evaluates C (.sizeof span type) (some (.int n))

/-- The type that a written type stands for, given what names stand for. -/
inductive Resolves (C : ConstContext) : TypeNames → TypeExpr → Ty → Prop where
  | primitive {names span p} :
    Resolves C names (.primitive span p) (.primitive p)
  | slice {names span elem t} :
    Resolves C names elem t →
    Resolves C names (.slice span elem) (.slice t)
  | array {names span elem size t v n} :
    Resolves C names elem t →
    Evaluates C size v →
    ConstValue.sizeOf? v = some n →
    Resolves C names (.array span elem size) (.array t n)
  | pointer {names span m target t} :
    Resolves C names target t →
    Resolves C names (.pointer span m target) (.pointer m t)
  | result {names span ok err t u} :
    Resolves C names ok t →
    Resolves C names err u →
    Resolves C names (.result span ok err) (.result t u)
  | option {names span inner t} :
    Resolves C names inner t →
    Resolves C names (.option span inner) (.option t)
  | taskHandle {names span inner t} :
    Resolves C names inner t →
    Resolves C names (.taskHandle span inner) (.taskHandle t)
  | tuple {names span elems ts} :
    ResolvesAll C names elems ts →
    Resolves C names (.tuple span elems) (.tuple ts)
  | named {names span name args ts t} :
    ResolvesAll C names args ts →
    names name ts t →
    Resolves C names (.named span name args) t

inductive ResolvesAll (C : ConstContext) : TypeNames → List TypeExpr → List Ty → Prop where
  | nil {names} :
    ResolvesAll C names [] []
  | cons {names type types t ts} :
    Resolves C names type t →
    ResolvesAll C names types ts →
    ResolvesAll C names (type :: types) (t :: ts)

end

def HasValue (C : ConstContext) (e : Expr) : Prop :=
  ∃ v, Evaluates C e (some v)

lemma Evaluates.isSome_eq {C e v w} (hv : Evaluates C e v) (hw : Evaluates C e w) : v.isSome = w.isSome := by
  match hv, hw with
  | .literal _, .literal _ => rfl
  | .name hdecl h, .name hdecl' h' =>
    cases hdecl.symm.trans hdecl'
    exact h.isSome_eq h'
  | .unknown _ _, .unknown _ _ => rfl
  | .unknown htarget hunknown, .member htarget' hmember _ _ | .member htarget hmember _ _, .unknown htarget' hunknown =>
    cases htarget.symm.trans htarget'
    cases hunknown.symm.trans hmember
  | .member htarget hmember _ hkind, .member htarget' hmember' _ hkind' =>
    cases htarget.symm.trans htarget'
    cases hmember.symm.trans hmember'
    cases hkind.symm.trans hkind'
    rfl
  | .paren h, .paren h' => exact h.isSome_eq h'
  | .unaryNone _, .unaryNone _ => rfl
  | .unaryNone h, .plain h' => exact h.isSome_eq h'
  | .unaryNone h, .logical h' _ => exact (h.isSome_eq h' :)
  | .plain h, .unaryNone h' => exact h.isSome_eq h'
  | .plain _, .plain _ => rfl
  | .logical h _, .unaryNone h' => exact (h.isSome_eq h' :)
  | .logical _ _, .logical _ _ | .leftNone _, .leftNone _ | .leftNone _, .rightNone _ _ => rfl
  | .leftNone h, .binary h' _ _ => exact (h.isSome_eq h' :)
  | .rightNone _ _, .leftNone _ | .rightNone _ _, .rightNone _ _ => rfl
  | .rightNone _ h, .binary _ h' _ | .binary h _ _, .leftNone h' | .binary _ h _, .rightNone _ h' =>
    exact (h.isSome_eq h' :)
  | .binary _ _ _, .binary _ _ _ | .sizeof _ _ _, .sizeof _ _ _ => rfl

lemma Evaluates.not_hasValue {C e} (h : Evaluates C e none) : ¬ HasValue C e := by
  rintro ⟨w, hw⟩
  exact Bool.false_ne_true (h.isSome_eq hw)

/-! ### Runs without problems -/

/-- The type that a name of a kind stands for with type arguments. -/
def SymbolKind.Types (name : String) (args : List Ty) (type : Ty) : SymbolKind → Prop
  | .typeParam => args = [] ∧ type = .param name
  | .struct info _ => args.length = info.typeParams.length ∧ type = .struct info.nominal args
  | .enum info _ => args.length = info.typeParams.length ∧ type = .enum info.nominal args
  | _ => False

def SymbolTable.typeNames (t : SymbolTable) : TypeNames :=
  fun name args type => ∃ s, t.symbol? name = some s ∧ s.kind.Types name args type

/-- Names stand for what they stand for in a context. -/
structure ConstContext.Reads (C : ConstContext) (σ : Setting) (t : SymbolTable) : Prop where
  library : σ.library = C.library
  constants : σ.constants = C.constants
  target : ∀ {name s path target}, t.symbol? name = some s → s.kind = .module path target →
    C.target? name = some target
  constant : ∀ {name s type v}, t.symbol? name = some s → s.kind = .const type v → C.constant? name ≠ none
  scopes : C.scopes t.typeNames
  size : ∀ {f : Findings}, f.symbols = t → ∀ {type l}, type.layout (f.nominals σ) = some l → C.size type l.size

/-- What is known of constants follows the rules. Those not folded yet may still be entered. -/
structure ConstContext.Knows (C : ConstContext) (remaining : List ConstDecl) (f : Findings) : Prop where
  finished : ∀ {name}, f.folding.lookup name = some .finished →
    ∃ decl, C.constant? name = some decl ∧ Evaluates C decl.value (f.constValues.lookup name)
  fresh : ∀ {name}, f.folding.lookup name ≠ some .finished → f.constValues.lookup name = none
  remaining : ∀ {name}, f.folding.lookup name = none → remaining.find? (·.name.node = name) = C.constant? name

def ConstContext.Settled (C : ConstContext) (f : Findings) : Prop :=
  ∀ name decl, C.constant? name = some decl →
    f.folding.lookup name = some .finished ∧ Evaluates C decl.value (f.constValues.lookup name)

def Findings.OfConstants (I : Findings → Prop) : Prop :=
  ∀ {f g : Findings}, g.folding = f.folding → g.constValues = f.constValues → I f → I g

lemma ConstContext.ofConstants_knows (C : ConstContext) (remaining) : Findings.OfConstants (C.Knows remaining) := by
  intro f g hfolding hvalues h
  refine ⟨?_, ?_, ?_⟩
  · rw [hfolding, hvalues]
    exact h.finished
  · rw [hfolding, hvalues]
    exact h.fresh
  · rw [hfolding]
    exact h.remaining

lemma ConstContext.ofConstants_settled (C : ConstContext) : Findings.OfConstants C.Settled := by
  intro f g hfolding hvalues h
  rw [ConstContext.Settled, hfolding, hvalues]
  exact h

namespace Check

variable {α β : Type} {P : Prop} {I : Findings → Prop} {σ : Setting} {t : SymbolTable} {c : Check α}
  {k : α → Check β}
  {Q : α → Prop} {R : β → Prop}

/-- What a run without problems finds if `P` holds, where `t` has the symbols and `I` is known. -/
structure Yields (P : Prop) (I : Findings → Prop) (σ : Setting) (t : SymbolTable) (c : Check α) (Q : α → Prop) :
    Prop where
  steps : Local c
  finds : P → ∀ f, f.symbols = t → I f → Clean c σ f → Q (c σ f).1 ∧ I (c σ f).2 ∧
    (c σ f).2.symbols = t

lemma Yields.imp {P' : Prop} {Q' : α → Prop} (h : Yields P' I σ t c Q) (hP : P → P')
    (hQ : ∀ a, P → Q a → Q' a) :
    Yields P I σ t c Q' :=
  ⟨h.steps, fun hp f ht hknows hclean => (h.finds (hP hp) f ht hknows hclean).imp_left (hQ _ hp)⟩

lemma yields_pure {a} (h : P → Q a) : Yields P I σ t (pure a) Q :=
  ⟨local_pure a, fun hp _ ht hknows _ => ⟨h hp, hknows, ht⟩⟩

lemma Yields.bind (h : Yields P I σ t c Q) (hk : ∀ a, Yields (P ∧ Q a) I σ t (k a) R) :
    Yields P I σ t (c >>= k) R := by
  refine ⟨h.steps.bind fun a => (hk a).steps, fun hp f ht hknows hclean => ?_⟩
  obtain ⟨hfirst, hsecond⟩ := hclean.of_bind h.steps fun a => (hk a).steps
  obtain ⟨hQ, hknows, ht⟩ := h.finds hp f ht hknows hfirst
  exact (hk _).finds ⟨hp, hQ⟩ _ ht hknows hsecond

lemma Yields.map {g : α → β} (h : Yields P I σ t c Q) (hR : ∀ a, P → Q a → R (g a)) :
    Yields P I σ t (c >>= fun a => pure (g a)) R :=
  h.bind fun a => yields_pure fun hp => hR a hp.1 hp.2

lemma yields_report {p span k} (hk : ∀ a, Local (k a)) : Yields P I σ t (report p span >>= k) Q :=
  ⟨(local_report p span).bind hk, fun _ _ _ _ hclean => absurd hclean (not_clean_report_bind hk)⟩

lemma yields_ite {p : Prop} [Decidable p] {c d} (hc : p → Yields P I σ t c Q)
    (hd : ¬ p → Yields P I σ t d Q) : Yields P I σ t (if p then c else d) Q := by
  split
  · exact hc ‹_›
  · exact hd ‹_›

lemma yields_kind? (name) : Yields P I σ t (kind? name) fun o => (t.symbol? name).map (·.kind) = o :=
  ⟨local_kind? name, fun _ _ ht hknows _ => ⟨by rw [← ht]; rfl, hknows, ht⟩⟩

lemma yields_read : Yields P I σ t read fun σ' => σ' = σ :=
  ⟨local_read, fun _ _ ht hknows _ => ⟨rfl, hknows, ht⟩⟩

lemma yields_get : Yields P I σ t get fun f => f.symbols = t :=
  ⟨local_get, fun _ _ ht hknows _ => ⟨ht, hknows, ht⟩⟩

end Check

section Folding

variable {C : ConstContext} {P : Prop} {I : Findings → Prop} {σ : Setting} {t : SymbolTable}
  {remaining : List ConstDecl} {demand : Demand}

def Demand.Yields (C : ConstContext) (I : Findings → Prop) (σ : Setting) (t : SymbolTable)
    (demand : Demand) : Prop :=
  ∀ stack name span, Check.Yields (C.constant? name ≠ none) I σ t (demand stack name span) fun v =>
      ∃ decl, C.constant? name = some decl ∧ Evaluates C decl.value v

lemma yields_notFoldable {α : Type} {Q : Option α → Prop} (failure span) :
    Yields P I σ t (notFoldable failure span) Q :=
  yields_report fun _ => local_pure none

lemma yields_folded (span r) : Yields P I σ t (folded span r) fun v => ∃ w, r = .ok w ∧ v = some w := by
  cases r with
  | ok v => exact yields_pure fun _ => ⟨v, rfl, rfl⟩
  | error p => exact yields_notFoldable _ _

lemma yields_foldLiteral (span value) :
    Yields P I σ t (foldLiteral span value) (Evaluates C (.literal span value)) := by
  cases value with
  | int n =>
    exact yields_ite (fun h => yields_pure fun _ => .literal (if_pos h)) fun _ => yields_notFoldable _ _
  | unit => exact yields_notFoldable _ _
  | _ => exact yields_pure fun _ => .literal rfl

lemma yields_foldName (hreads : C.Reads σ t) (h : demand.Yields C I σ t) (stack span name) :
    Yields P I σ t (foldName demand stack span name) (Evaluates C (.ident span name)) := by
  refine (yields_kind? name).bind fun o => ?_
  split
  · refine (h stack name span).imp (fun hp => ?_) ?_
    · obtain ⟨s, hs, hkind⟩ := Option.map_eq_some_iff.1 hp.2
      exact hreads.constant hs hkind
    · rintro v - ⟨decl, hdecl, hv⟩
      exact .name hdecl hv
  · exact yields_report fun _ => local_pure none
  · exact yields_report fun _ => local_pure none

lemma yields_foldMember (hreads : C.Reads σ t) (span head member) :
    Yields P I σ t (foldMember span head member) (Evaluates C (.dotted span head member)) := by
  refine (yields_kind? head.node).bind fun o => ?_
  split
  · rename_i path target
    have htarget (hkind : (t.symbol? head.node).map (·.kind) = some (.module path target)) :
        C.target? head.node = some target := by
      obtain ⟨s, hs, hkind⟩ := Option.map_eq_some_iff.1 hkind
      exact hreads.target hs hkind
    refine yields_read.bind fun σ' => ?_
    unfold foldExported
    split
    · rename_i hmember
      exact yields_pure fun hp => .unknown (htarget hp.1.2) (hreads.library ▸ hp.2 ▸ hmember)
    · rename_i module item hmember
      refine yields_ite (fun _ => yields_report fun _ => local_pure none) fun hpublic => ?_
      have hpublic : item.visibility = .pub := by
        cases hv : item.visibility with
        | pub => rfl
        | priv => exact absurd hv hpublic
      split
      · rename_i hconst
        exact yields_pure fun hp => .member (htarget hp.1.2) (hreads.library ▸ hp.2 ▸ hmember) hpublic hconst
      · exact yields_report fun _ => local_pure none
  · exact yields_notFoldable _ _
  · exact yields_report fun _ => local_pure none

lemma yields_arraySize (hI : Findings.OfConstants I) (span v) :
    Yields P I σ t (arraySize span v) fun n => ConstValue.sizeOf? v = some n := by
  unfold arraySize
  split
  · exact yields_pure fun _ => rfl
  · refine yields_ite (fun h => ?_) fun _ => yields_notFoldable _ _
    refine Yields.bind (Q := fun _ => True) ⟨fun _ f => .single (.size f _ _), ?_⟩ fun _ =>
      yields_pure fun _ => if_pos h
    exact fun _ f ht hknows _ => ⟨trivial, hI (f := f) rfl rfl hknows, ht⟩
  · exact yields_notFoldable _ _

lemma yields_typeArguments (name params args span) :
    Yields P I σ t (typeArguments name params args span) fun ts =>
      ts = args ∧ args.length = params.length := by
  refine yields_ite (fun h => yields_pure fun _ => ⟨rfl, h⟩) fun _ => ?_
  exact yields_report fun _ => local_pure _

mutual

lemma yields_resolveTypeWith {P} (hreads : C.Reads σ t) (hI : Findings.OfConstants I)
    (h : demand.Yields C I σ t) (type) :
    Yields P I σ t (resolveTypeWith demand type) (Resolves C t.typeNames type) := by
  match type with
  | .primitive .. => exact yields_pure fun _ => .primitive
  | .slice _ elem => exact (yields_resolveTypeWith hreads hI h elem).map fun _ _ => .slice
  | .array _ elem size =>
    refine (yields_resolveTypeWith hreads hI h elem).bind fun u => ?_
    refine (yields_foldWith hreads hI h [] size).bind fun v => ?_
    exact (yields_arraySize hI _ v).map fun n hp hn => .array hp.1.2 hp.2 hn
  | .pointer _ _ target => exact (yields_resolveTypeWith hreads hI h target).map fun _ _ => .pointer
  | .result _ ok err =>
    refine (yields_resolveTypeWith hreads hI h ok).bind fun a => ?_
    exact (yields_resolveTypeWith hreads hI h err).map fun b hp hb => .result hp.2 hb
  | .option _ inner => exact (yields_resolveTypeWith hreads hI h inner).map fun _ _ => .option
  | .taskHandle _ inner => exact (yields_resolveTypeWith hreads hI h inner).map fun _ _ => .taskHandle
  | .tuple _ elems => exact (yields_resolveTypesWith hreads hI h elems).map fun _ _ => .tuple
  | .named span name args =>
    have htypes {k : SymbolKind} {ts u} (hkind : (t.symbol? name).map (·.kind) = some k) (hk : k.Types name ts u) :
        t.typeNames name ts u := by
      obtain ⟨s, hs, rfl⟩ := Option.map_eq_some_iff.1 hkind
      exact ⟨s, hs, hk⟩
    refine (yields_kind? name).bind fun o => ?_
    split
    · cases args with
      | nil => exact yields_pure fun hp => .named .nil (htypes hp.2 ⟨rfl, rfl⟩)
      | cons arg args => exact yields_report fun _ => local_pure _
    · refine (yields_resolveTypesWith hreads hI h args).bind fun ts => (yields_typeArguments _ _ _ _).map ?_
      rintro _ hp ⟨rfl, hlength⟩
      exact .named hp.2 (htypes hp.1.2 ⟨hlength, rfl⟩)
    · refine (yields_resolveTypesWith hreads hI h args).bind fun ts => (yields_typeArguments _ _ _ _).map ?_
      rintro _ hp ⟨rfl, hlength⟩
      exact .named hp.2 (htypes hp.1.2 ⟨hlength, rfl⟩)
    · exact yields_report fun _ => local_pure _
    · exact yields_report fun _ => local_pure _

lemma yields_resolveTypesWith {P} (hreads : C.Reads σ t) (hI : Findings.OfConstants I) (h : demand.Yields C I σ t)
    (types) : Yields P I σ t (resolveTypesWith demand types) (ResolvesAll C t.typeNames types) := by
  match types with
  | [] => exact yields_pure fun _ => .nil
  | type :: types =>
    refine (yields_resolveTypeWith hreads hI h type).bind fun a => ?_
    exact (yields_resolveTypesWith hreads hI h types).map fun as hp has => .cons hp.2 has

lemma yields_foldWith {P} (hreads : C.Reads σ t) (hI : Findings.OfConstants I)
    (h : demand.Yields C I σ t) (stack e) : Yields P I σ t (foldWith demand stack e) (Evaluates C e) := by
  match e with
  | .literal .. => exact yields_foldLiteral _ _
  | .ident .. => exact yields_foldName hreads h _ _ _
  | .dotted .. => exact yields_foldMember hreads _ _ _
  | .paren _ inner => exact (yields_foldWith hreads hI h stack inner).imp id fun _ _ => .paren
  | .unary span logical pointer operand =>
    cases pointer with
    | some pointer => exact yields_notFoldable _ _
    | none =>
      refine (yields_foldWith hreads hI h stack operand).bind fun v => ?_
      cases v with
      | none => exact yields_pure fun hp => .unaryNone hp.2
      | some v =>
        cases logical with
        | none => exact yields_pure fun hp => .plain hp.2
        | some op =>
          refine (yields_folded _ _).imp id ?_
          rintro _ hp ⟨w, hw, rfl⟩
          exact .logical hp.2 hw
  | .binary span lhs op rhs =>
    refine (yields_foldWith hreads hI h stack lhs).bind fun l => ?_
    cases l with
    | none => exact yields_pure fun hp => .leftNone hp.2
    | some l =>
      refine (yields_foldWith hreads hI h stack rhs).bind fun r => ?_
      cases r with
      | none => exact yields_pure fun hp => .rightNone hp.1.2 hp.2
      | some r =>
        refine (yields_folded _ _).imp id ?_
        rintro _ hp ⟨w, hw, rfl⟩
        exact .binary hp.1.2 hp.2 hw
  | .sizeof span type =>
    refine (yields_resolveTypeWith hreads hI h type).bind fun u => yields_get.bind fun f =>
      yields_read.bind fun σ' => ?_
    split
    · rename_i l hl
      exact yields_pure fun hp => .sizeof hreads.scopes hp.1.1.2 (hreads.size hp.1.2 (hp.2 ▸ hl))
    · exact yields_notFoldable _ _
  | .call .. | .assocCall .. | .dottedCall .. | .structLit .. | .await .. | .selfRef .. | .field ..
  | .tupleIndex .. | .index .. | .slice .. | .tuple .. | .array .. | .arrayRepeat .. =>
    exact yields_notFoldable _ _

end

/-! ### Constants on demand -/

lemma find?_otherConstants {decls name other} (h : other ≠ name) :
    (otherConstants decls name).find? (·.name.node = other) = decls.find? (·.name.node = other) := by
  rw [otherConstants, List.find?_filter]
  congr 1
  funext decl
  by_cases hdecl : decl.name.node = other
  · simp [hdecl, h]
  · simp [hdecl]

lemma ConstContext.Knows.start {name f} (h : C.Knows remaining f) (hname : f.folding.lookup name = none) :
    C.Knows (otherConstants remaining name) (f.start name) := by
  have hother {other : String} (hne : other ≠ name) :
      ((name, FoldProgress.started) :: f.folding).lookup other = f.folding.lookup other := by
    rw [List.lookup_cons, beq_false_of_ne hne]
  refine ⟨fun {other} hfinished => ?_, fun {other} hfresh => ?_, fun {other} hnone => ?_⟩
  · by_cases hne : other = name
    · subst hne
      rw [List.lookup_cons_self] at hfinished
      cases hfinished
    · rw [hother hne] at hfinished
      exact h.finished hfinished
  · by_cases hne : other = name
    · subst hne
      exact h.fresh (by simp [hname])
    · rw [hother hne] at hfresh
      exact h.fresh hfresh
  · have hne : other ≠ name := by
      rintro rfl
      rw [List.lookup_cons_self] at hnone
      cases hnone
    rw [hother hne] at hnone
    rw [find?_otherConstants hne]
    exact h.remaining hnone

lemma ConstContext.Knows.finish {name decl v g} (hdecl : C.constant? name = some decl)
    (hg : C.Knows (otherConstants remaining name) g) (hstarted : g.folding.lookup name = some .started)
    (hv : Evaluates C decl.value v) : C.Knows remaining (g.finish name v) where
  finished {other} hother := by
    by_cases hne : other = name
    · subst hne
      refine ⟨decl, hdecl, ?_⟩
      cases v with
      | some v =>
        rwa [show (g.finish other (some v)).constValues.lookup other = some v from List.lookup_cons_self]
      | none =>
        have hfresh : (g.finish other none).constValues.lookup other = none := hg.fresh (by simp [hstarted])
        rwa [hfresh]
    · rw [(g.lookup_finish_of_ne v hne).1] at hother
      rw [(g.lookup_finish_of_ne v hne).2]
      exact hg.finished hother
  fresh {other} hother := by
    have hne : other ≠ name := by
      rintro rfl
      exact hother (g.lookup_finish v)
    rw [(g.lookup_finish_of_ne v hne).1] at hother
    rw [(g.lookup_finish_of_ne v hne).2]
    exact hg.fresh hother
  remaining {other} hother := by
    have hne : other ≠ name := by
      rintro rfl
      rw [g.lookup_finish v] at hother
      cases hother
    rw [(g.lookup_finish_of_ne v hne).1] at hother
    rw [← find?_otherConstants hne]
    exact hg.remaining hother

lemma yields_demandConst (hreads : C.Reads σ t) (remaining : List ConstDecl) :
    Demand.Yields C (C.Knows remaining) σ t (demandConst remaining) := by
  refine fun stack name span =>
    ⟨(local_demandConst remaining stack name span trivial).isLocal, fun hname f ht hknows hclean => ?_⟩
  have hfinds := finds_demandConst remaining stack name span σ f
  rw [Clean] at hclean
  generalize demandConst remaining stack name span σ f = result at hclean hfinds ⊢
  obtain ⟨decl, hdecl⟩ := Option.ne_none_iff_exists'.mp hname
  cases hfinds with
  | finished hprogress => exact ⟨hknows.finished hprogress, hknows, ht⟩
  | cycle place _ | deep place _ _ => exact absurd hclean (List.cons_ne_self _ _)
  | unknown hprogress hfind =>
    rw [hknows.remaining hprogress, hdecl] at hfind
    cases hfind
  | @entered decl' v g hprogress hdepth hfind hfold =>
    obtain rfl : decl = decl' := by
      rw [hknows.remaining hprogress, hdecl] at hfind
      exact Option.some.inj hfind
    let f' : Findings := f.start name
    have hinner := (yields_foldWith hreads (C.ofConstants_knows _)
      (yields_demandConst hreads (otherConstants remaining name)) (stack ++ [name]) decl.value).finds trivial f' ht
      (hknows.start hprogress)
    have hrecalls := recalls_foldWith (otherConstants remaining name) (stack ++ [name]) decl.value σ f'
    rw [Clean, hfold] at hinner
    rw [hfold] at hrecalls
    obtain ⟨hv, hknows', ht'⟩ := hinner hclean
    exact ⟨⟨decl, hdecl, hv⟩,
      ConstContext.Knows.finish hdecl hknows' (hrecalls.folding List.lookup_cons_self) hv, ht'⟩
termination_by remaining.length
decreasing_by exact length_otherConstants_lt ‹_›

/-- A way to find constants that follows the rules, as long as `I` is known. -/
structure ConstContext.Serves (C : ConstContext) (I : Findings → Prop) (σ : Setting) (t : SymbolTable) : Prop where
  reads : C.Reads σ t
  ofConstants : Findings.OfConstants I
  demand : Demand.Yields C I σ t constValue

lemma ConstContext.serves_knows (hreads : C.Reads σ t) : C.Serves (C.Knows C.constants) σ t where
  reads := hreads
  ofConstants := C.ofConstants_knows _
  demand stack name span := by
    refine ⟨(local_constValue stack name span trivial).isLocal, fun hname f ht hknows hclean => ?_⟩
    have hrun : constValue stack name span σ f = demandConst C.constants stack name span σ f := by
      rw [← hreads.constants]
      rfl
    rw [Clean, hrun] at hclean
    exact hrun ▸ (yields_demandConst hreads C.constants stack name span).finds hname f ht hknows hclean

lemma ConstContext.serves_settled (hreads : C.Reads σ t) : C.Serves C.Settled σ t where
  reads := hreads
  ofConstants := C.ofConstants_settled
  demand stack name span := by
    refine ⟨(local_constValue stack name span trivial).isLocal, fun hname f ht hsettled _ => ?_⟩
    obtain ⟨decl, hdecl⟩ := Option.ne_none_iff_exists'.mp hname
    obtain ⟨hfinished, hv⟩ := hsettled name decl hdecl
    have hrun : constValue stack name span σ f = (f.constValues.lookup name, f) := by
      change demandConst σ.constants stack name span σ f = _
      rw [run_demandConst, demandBy, hfinished]
    rw [hrun]
    exact ⟨⟨decl, hdecl, hv⟩, hsettled, ht⟩

lemma yields_foldExpr (h : C.Serves I σ t) (e : Expr) : Yields P I σ t (foldExpr e) (Evaluates C e) :=
  yields_foldWith h.reads h.ofConstants h.demand [] e

lemma yields_resolveType (h : C.Serves I σ t) (type : TypeExpr) :
    Yields P I σ t (resolveType type) (Resolves C t.typeNames type) :=
  yields_resolveTypeWith h.reads h.ofConstants h.demand type

lemma yields_resolveTypes (h : C.Serves I σ t) (types : List TypeExpr) :
    Yields P I σ t (resolveTypes types) (ResolvesAll C t.typeNames types) :=
  yields_resolveTypesWith h.reads h.ofConstants h.demand types

lemma yields_foldArraySize (h : C.Serves I σ t) (e : Expr) :
    Yields P I σ t (foldArraySize e) fun n => ∃ v, Evaluates C e v ∧ ConstValue.sizeOf? v = some n :=
  (yields_foldExpr h e).bind fun v => (yields_arraySize h.ofConstants _ v).imp id fun _ hp hn => ⟨v, hp.2, hn⟩

lemma ConstContext.Settled.steps {f g} (h : C.Settled f) (hsteps : Findings.Steps f g) : C.Settled g := by
  intro name decl hdecl
  obtain ⟨hfinished, hv⟩ := h name decl hdecl
  obtain ⟨hfinished', hvalue⟩ := hsteps.lookup_finished hfinished
  exact ⟨hfinished', hvalue ▸ hv⟩

end Folding

end SourceCheck
