import SourceCheck.Proofs.Analysis.Local

/-!
# Rules check all operands

A rule for expressions checks each of its operands, whatever is wrong, and does not change the table of symbols.
-/

namespace SourceCheck

open List

namespace Check

variable {α β : Type} {c : Check α} {k : α → Check β} {os os' : List Operand}

/-! ### Steps that declare nothing -/

/-- A step of checking that leaves the table of symbols as it is. -/
structure Plain (c : Check α) : Prop where
  steps : Local c
  symbols : ∀ σ f, (c σ f).2.symbols = f.symbols

lemma Runs.plain {c'} {Q : α → Prop} (h : Runs .steps True c c' Q) : Plain c where
  steps := h.isLocal
  symbols _ _ := (h ⟨rfl, trivial⟩ ⟨rfl, trivial⟩).symbols trivial

lemma plain_pure (a : α) : Plain (pure a) :=
  ⟨local_pure a, fun _ _ => rfl⟩

lemma Plain.bind (h : Plain c) (hk : ∀ a, Plain (k a)) : Plain (c >>= k) where
  steps := h.steps.bind fun a => (hk a).steps
  symbols σ f := ((hk _).symbols σ _).trans (h.symbols σ f)

lemma plain_report (p span) : Plain (report p span) :=
  ⟨local_report p span, fun _ _ => rfl⟩

lemma plain_reportIf (wrong p) (span : Span) : Plain (reportIf wrong p span) := by
  cases wrong with
  | false => exact plain_pure ()
  | true => exact plain_report p span

lemma plain_refuse (p span) : Plain (refuse p span) :=
  (plain_report p span).bind fun _ => plain_pure _

lemma plain_get : Plain get :=
  ⟨local_get, fun _ _ => rfl⟩

lemma plain_read : Plain read :=
  ⟨local_read, fun _ _ => rfl⟩

lemma plain_kind? (name) : Plain (kind? name) :=
  ⟨local_kind? name, fun _ _ => rfl⟩

lemma plain_inside (kind) : Plain (inside kind) :=
  ⟨local_inside kind, fun _ _ => rfl⟩

lemma plain_recordType (span t) : Plain (recordType span t) :=
  ⟨local_recordType span t, fun _ _ => rfl⟩

lemma plain_recordCall (span target) : Plain (recordCall span target) :=
  ⟨local_recordCall span target, fun _ _ => rfl⟩

lemma plain_fieldType (t field) : Plain (fieldType t field) :=
  (infers_fieldType (Frame.admits_alone t) field).plain

lemma plain_checkPlace (target span) (usage : PlaceUse) : Plain (checkPlace target span usage) :=
  (infers_checkPlace _ _ _).plain

/-! ### Operands that are checked -/

/-- A step is run between two states, where names stand for what they stand for in the first. -/
def RunsIn (σ : Setting) (f h : Findings) (c : Check α) : Prop :=
  ∃ g, g.symbols = f.symbols ∧ Findings.Steps f g ∧ Findings.Steps g (c σ g).2 ∧ Findings.Steps (c σ g).2 h

lemma RunsIn.extend {σ f f' h h'} (hc : RunsIn σ f' h c) (hsymbols : f'.symbols = f.symbols)
    (hf : Findings.Steps f f') (hh : Findings.Steps h h') : RunsIn σ f h' c := by
  obtain ⟨g, hg, hbefore, hrun, hafter⟩ := hc
  exact ⟨g, hg.trans hsymbols, hf.trans hbefore, hrun, hafter.trans hh⟩

/-- A step that declares nothing and checks the given operands. -/
structure Visits (os : List Operand) (c : Check α) : Prop where
  plain : Plain c
  runs : ∀ σ f, ∀ o ∈ os, ∃ expected, RunsIn σ f (c σ f).2 (o.check expected)

lemma Visits.of_subset (h : Visits os c) (hsub : os' ⊆ os) : Visits os' c :=
  ⟨h.plain, fun σ f o ho => h.runs σ f o (hsub ho)⟩

lemma Plain.visits (h : Plain c) : Visits [] c :=
  ⟨h, fun _ _ _ ho => by cases ho⟩

lemma Visits.bind (h : Visits os c) (hk : ∀ a, Visits os' (k a)) : Visits (os ++ os') (c >>= k) where
  plain := h.plain.bind fun a => (hk a).plain
  runs σ f o ho := by
    obtain ho | ho := mem_append.1 ho
    · obtain ⟨expected, hrun⟩ := h.runs σ f o ho
      exact ⟨expected, hrun.extend rfl .refl ((hk _).plain.steps σ _)⟩
    · obtain ⟨expected, hrun⟩ := (hk (c σ f).1).runs σ (c σ f).2 o ho
      exact ⟨expected, hrun.extend (h.plain.symbols σ f) (h.plain.steps σ f) .refl⟩

lemma Visits.after (h : Visits os c) (hk : ∀ a, Plain (k a)) : Visits os (c >>= k) :=
  (h.bind fun a => (hk a).visits).of_subset (by simp)

lemma Plain.before (h : Plain c) (hk : ∀ a, Visits os (k a)) : Visits os (c >>= k) :=
  h.visits.bind hk

lemma visits_ite {p : Prop} [Decidable p] {c d : Check α} (hc : p → Visits os c)
    (hd : ¬ p → Visits os d) : Visits os (if p then c else d) := by
  split
  · exact hc ‹_›
  · exact hd ‹_›

lemma visits_forM {l : List α} {k part} (h : ∀ a ∈ l, Visits (part a) (k a)) :
    Visits (l.flatMap part) (l.forM k) := by
  induction l with
  | nil => exact (plain_pure ()).visits
  | cons a l ih =>
    rw [flatMap_cons]
    exact (h a (by simp)).bind fun _ => ih fun b hb => h b (by simp [hb])

lemma visits_mapM {l : List α} {k : α → Check β} {part : α → List Operand}
    (h : ∀ a ∈ l, Visits (part a) (k a)) : Visits (l.flatMap part) (l.mapM k) := by
  induction l with
  | nil => exact (plain_pure []).visits
  | cons a l ih =>
    rw [mapM_cons, flatMap_cons]
    refine (h a (by simp)).bind fun b => ?_
    exact (ih fun b hb => h b (by simp [hb])).after fun _ => plain_pure _

lemma visits_foldlM {l : List α} {k part} (b : β)
    (h : ∀ b, ∀ a ∈ l, Visits (part a) (k b a)) : Visits (l.flatMap part) (l.foldlM k b) := by
  induction l generalizing b with
  | nil => exact (plain_pure b).visits
  | cons a l ih =>
    rw [foldlM_cons, flatMap_cons]
    exact (h b a (by simp)).bind fun c => ih c fun d e he => h d e (by simp [he])

/-! ### Steps that passed -/

/-- A step was run where names stand for given symbols, and noted given types and no problem. -/
def Passed (σ : Setting) (t : SymbolTable) (types : SpanTable Ty) (c : Check α) : Prop :=
  ∃ f, f.symbols = t ∧ Clean c σ f ∧ (c σ f).2.exprTypes ⊆ types

lemma Passed.of_bind {σ t types} (hc : Plain c) (hk : ∀ a, Plain (k a)) (h : Passed σ t types (c >>= k)) :
    Passed σ t types c ∧ ∃ a, Passed σ t types (k a) := by
  obtain ⟨f, rfl, hclean, htypes⟩ := h
  obtain ⟨hfirst, hsecond⟩ := hclean.of_bind hc.steps fun a => (hk a).steps
  have hlater := ((hk (c σ f).1).steps σ (c σ f).2).exprTypes_suffix.subset
  exact ⟨⟨f, rfl, hfirst, List.Subset.trans hlater htypes⟩, _, _, hc.symbols σ f, hsecond, htypes⟩

lemma problems_eq_of_steps {f f₀ h h₀} (hf : Findings.Steps f₀ f) (hrun : Findings.Steps f h)
    (hh : Findings.Steps h h₀) (heq : h₀.problems = f₀.problems) : h.problems = f.problems := by
  have hfirst := hf.problems_suffix.length_le
  have hlast := hh.problems_suffix.length_le
  rw [heq] at hlast
  exact (hrun.problems_suffix.eq_of_length
    (Nat.le_antisymm hrun.problems_suffix.length_le (Nat.le_trans hlast hfirst))).symm

lemma RunsIn.passed {σ f h types} (hc : RunsIn σ f h c)
    (hproblems : h.problems = f.problems) (htypes : h.exprTypes ⊆ types) : Passed σ f.symbols types c := by
  obtain ⟨g, hg, hbefore, hrun, hafter⟩ := hc
  exact ⟨g, hg, problems_eq_of_steps hbefore hrun hafter hproblems,
    List.Subset.trans hafter.exprTypes_suffix.subset htypes⟩

lemma Visits.passed (hv : Visits os c) (σ t) (types : SpanTable Ty) (h : Passed σ t types c) :
    ∀ o ∈ os, ∃ expected, Passed σ t types (o.check expected) := by
  intro o ho
  obtain ⟨f, rfl, hclean, htypes⟩ := h
  obtain ⟨expected, hrun⟩ := hv.runs σ f o ho
  exact ⟨expected, hrun.passed hclean htypes⟩

end Check

open Check

def Operand.Plain (o : Operand) : Prop :=
  ∀ expected, Check.Plain (o.check expected)

lemma Operand.Plain.visits {o} (h : o.Plain) (expected) : Visits [o] (o.check expected) where
  plain := h expected
  runs σ f o' ho' := by
    obtain rfl := mem_singleton.1 ho'
    exact ⟨expected, f, rfl, .refl, (h expected).steps σ f, .refl⟩

lemma plain_checkExpr (e) : Operand.Plain ⟨e, checkExpr e⟩ :=
  fun expected => ((local_operand e).of_expects (expects_steps expected)).plain

section Rules

variable {o lhs rhs base index value callee : Operand} {os elems args bounds : List Operand}

lemma visits_checkAll (h : ∀ o ∈ os, o.Plain) : Visits os (Operand.checkAll os) := by
  refine Visits.of_subset (visits_forM fun o ho => ((h o ho).visits none).after fun _ => plain_pure _) ?_
  simp

lemma visits_recorded {span rule} (h : Visits os rule) : Visits os (recorded span rule) :=
  h.after fun t => (plain_recordType span t).bind fun _ => plain_pure t

lemma visits_checkAgainst (h : o.Plain) (declared b) (site : MismatchSite) :
    Visits [o] (checkAgainst o declared b site) :=
  (h.visits _).after fun _ => (plain_reportIf _ _ _).bind fun _ => plain_pure _

/-! ### Operators -/

lemma visits_checkPointerPrefix (span op) (h : o.Plain)
    (expected : Option Ty) : Visits [o] (checkPointerPrefix span op o expected) := by
  unfold checkPointerPrefix
  split
  · exact h.visits expected
  · refine (h.visits none).after fun t => (plain_inside _).bind fun _ => ?_
    refine (plain_reportIf _ _ _).bind fun _ => ?_
    split
    · exact plain_pure _
    · exact plain_pure _
    · exact plain_refuse _ _
  · exact (h.visits _).after fun _ => plain_pure _
  · exact (h.visits none).after fun _ => (plain_checkPlace _ _ _).bind fun _ => plain_pure _

lemma plain_checkLogicalPrefix (span op) (o : Operand) (t : Ty) : Plain (checkLogicalPrefix span op o t) :=
  (infers_checkLogicalPrefix span op o (Frame.admits_alone t)).plain

lemma checkUnary_eq (span logical) {pointer} (h : pointer.isSome ∨ o.numeral? = none) (expected : Option Ty) :
    checkUnary span logical pointer o expected = (do
      let t ← checkPointerPrefix span pointer o expected
      match logical with
      | none => return t
      | some op => checkLogicalPrefix span op o t) := by
  unfold checkUnary
  split
  · rename_i hnumeral
    simp [hnumeral] at h
  · rfl

lemma plain_afterPointerPrefix (span logical) (o : Operand) (t : Ty) :
    Plain (match logical with
      | none => pure t
      | some op => checkLogicalPrefix span op o t) := by
  cases logical with
  | none => exact plain_pure t
  | some op => exact plain_checkLogicalPrefix span op o t

lemma visits_checkUnary (span logical) (pointer : Option PointerPrefix)
    (h : o.Plain) (hoperand : pointer.isSome ∨ o.numeral? = none) (expected : Option Ty) :
    Visits [o] (checkUnary span logical pointer o expected) := by
  rw [checkUnary_eq span logical hoperand]
  exact (visits_checkPointerPrefix span pointer h expected).after fun t =>
    plain_afterPointerPrefix span logical o t

lemma visits_checkTruth (h : o.Plain) : Visits [o] (checkTruth o) :=
  (h.visits _).after fun _ => plain_reportIf _ _ _

lemma plain_checkComparison (span op) (l r : Ty) : Plain (checkComparison span op l r) := by
  unfold checkComparison
  split
  · exact plain_report _ _
  · exact plain_reportIf _ _ _

lemma visits_checkBinary (span op) (hl : lhs.Plain) (hr : rhs.Plain)
    (expected : Option Ty) : Visits [lhs, rhs] (checkBinary span lhs op rhs expected) := by
  unfold checkBinary
  split
  · exact (visits_checkTruth hl).bind fun _ => (visits_checkTruth hr).after fun _ => plain_pure _
  · refine (hl.visits _).bind fun l => (hr.visits _).after fun r => ?_
    split
    · exact plain_pure _
    · split
      · exact (plain_checkComparison _ _ _ _).bind fun _ => plain_pure _
      · split
        · exact plain_pure _
        · exact plain_refuse _ _

/-! ### Aggregates -/

lemma visits_checkTuple (span : Span) (h : ∀ o ∈ elems, o.Plain) (expected : Option Ty) :
    Visits elems (checkTuple span elems expected) := by
  unfold checkTuple
  split
  · rename_i ts
    split
    · rename_i hlength
      have hzip : elems ⊆ (elems.zip ts).flatMap fun p => [p.1] := by
        rw [← map_eq_flatMap, map_fst_zip (Nat.le_of_eq hlength.symm)]
        exact List.Subset.refl _
      refine Visits.of_subset ?_ hzip
      refine Visits.after (visits_mapM fun p hp => ?_) fun _ => plain_pure _
      exact (h p.1 (of_mem_zip hp).1).visits _
    · exact (plain_report _ _).before fun _ => (visits_checkAll h).after fun _ => plain_pure _
  · refine Visits.of_subset (Visits.after (visits_mapM fun o ho => (h o ho).visits none) fun _ =>
      plain_pure _) ?_
    simp

lemma visits_checkArray (h : ∀ o ∈ elems, o.Plain) (expected : Option Ty) :
    Visits elems (checkArray elems expected) := by
  have helement (want : Option Ty) : ∀ o ∈ elems, Visits [o] (checkElement want o) := by
    intro o ho
    refine ((h o ho).visits want).after fun t => ?_
    split
    · exact (plain_reportIf _ _ _).bind fun _ => plain_pure _
    · exact plain_pure _
  refine Visits.of_subset ((visits_foldlM _ helement).after fun _ => plain_pure _) ?_
  simp

lemma visits_checkRepeat (h : value.Plain) (count expected) : Visits [value] (checkRepeat value count expected) := by
  refine (h.visits _).after fun t => Plain.bind ?_ fun n => ?_
  · exact (infers_foldArraySize count).plain
  · exact (plain_recordType _ _).bind fun _ => plain_pure _

lemma visits_checkTupleIndex (span) (h : base.Plain) (i) : Visits [base] (checkTupleIndex span base i) := by
  refine (h.visits none).after fun t => ?_
  split
  · split
    · exact plain_pure _
    · exact plain_refuse _ _
  · exact plain_pure _
  · exact plain_refuse _ _

lemma visits_checkIndexOperand (h : o.Plain) : Visits [o] (checkIndexOperand o) :=
  (h.visits _).after fun _ => plain_reportIf _ _ _

lemma visits_checkIndex (hb : base.Plain) (hi : index.Plain) : Visits [base, index] (checkIndex base index) := by
  refine (hb.visits none).bind fun t => (visits_checkIndexOperand hi).after fun _ => ?_
  split
  · exact (infers_checkBounds _ _).plain.bind fun _ => plain_pure _
  · exact plain_pure _
  · exact plain_pure _
  · exact plain_refuse _ _

lemma visits_checkSlice (hb : base.Plain) (hs : ∀ o ∈ bounds, o.Plain) :
    Visits (base :: bounds) (checkSlice base bounds) := by
  have hbounds : Visits bounds (bounds.forM checkIndexOperand) :=
    Visits.of_subset (visits_forM fun o ho => visits_checkIndexOperand (hs o ho)) (by simp)
  refine (hb.visits none).bind fun t => hbounds.after fun _ => ?_
  split
  · exact plain_pure _
  · exact plain_pure _
  · exact plain_pure _
  · exact plain_pure _
  · exact plain_refuse _ _

lemma visits_checkAwait (h : o.Plain) : Visits [o] (checkAwait o) := by
  refine (h.visits none).after fun t => ?_
  split
  · exact plain_pure _
  · exact plain_pure _
  · exact plain_refuse _ _

/-! ### Structs -/

lemma visits_checkFieldValue (name info) (fields : List FieldInfo) (seen : List String)
    (b) {f} (h : f.value.Plain) : Visits [f.value] (checkFieldValue name info fields seen b f) := by
  unfold checkFieldValue
  split
  · exact (plain_report _ _).before fun _ => (h.visits none).after fun _ => plain_pure b
  · split
    · exact (plain_report _ _).before fun _ => (h.visits none).after fun _ => plain_pure b
    · exact (infers_checkVisible _ _ _).plain.before fun _ => visits_checkAgainst h _ _ _

lemma visits_checkFieldValues (name info) (fields : List FieldInfo) (seen : List String) (b) {fs}
    (h : ∀ f ∈ fs, f.value.Plain) : Visits (fs.map (·.value)) (checkFieldValues name info fields seen b fs) := by
  induction fs generalizing seen b with
  | nil => exact (plain_pure b).visits
  | cons f fs ih =>
    exact (visits_checkFieldValue name info fields seen b (h f (by simp))).bind fun b' =>
      ih _ b' fun g hg => h g (by simp [hg])

lemma visits_checkStructLiteral (span name) (typeArgs : List TypeExpr) {values} (h : ∀ f ∈ values, f.value.Plain)
    (expected : Option Ty) :
    Visits (values.map (·.value)) (checkStructLiteral span name typeArgs values expected) := by
  refine (plain_kind? _).before fun k => ?_
  split
  · refine Plain.before ?_ fun b => (visits_checkFieldValues _ _ _ _ _ h).after fun _ => ?_
    · exact (infers_literalBindings _ _ _ (.inl (expects_steps _))).plain
    · exact (plain_reportIf _ _ _).bind fun _ => plain_pure _
  · refine (plain_report _ _).before fun _ => (visits_checkAll fun o ho => ?_).after fun _ => plain_pure _
    obtain ⟨f, hf, rfl⟩ := mem_map.1 ho
    exact h f hf

/-! ### Calls -/

lemma visits_giveUp (h : ∀ o ∈ args, o.Plain) : Visits args (giveUp args) :=
  (visits_checkAll h).after fun _ => plain_pure _

lemma visits_refuseCall (p span) (h : ∀ o ∈ args, o.Plain) : Visits args (refuseCall p span args) :=
  (plain_report _ _).before fun _ => visits_giveUp h

lemma visits_checkArguments (name) (h : ∀ o ∈ args, o.Plain) {params} (hlength : args.length = params.length)
    (b) : Visits args (checkArguments name args params b) := by
  induction args generalizing params b with
  | nil => exact (plain_pure b).visits
  | cons o os ih =>
    cases params with
    | nil => cases hlength
    | cons p params =>
      refine (visits_checkAgainst (h o (by simp)) p.2 b _).bind fun b' => ?_
      exact ih (fun o ho => h o (by simp [ho])) (by simpa using hlength) b'

lemma visits_applySignature (name sig) (generics : List String) (b : Bindings) (h : ∀ o ∈ args, o.Plain)
    (expected span) : Visits args (applySignature name sig generics b args expected span) := by
  unfold applySignature
  split
  · exact (plain_report _ _).before fun _ => (visits_checkAll h).after fun _ => plain_pure _
  · rename_i hlength
    exact (visits_checkArguments name h (not_not.1 hlength) _).after fun _ => plain_pure _

lemma visits_checkFunctionCall (span module) (name : String) (info : FunctionInfo) (h : ∀ o ∈ args, o.Plain)
    (expected) : Visits args (checkFunctionCall span module name info args expected) := by
  unfold checkFunctionCall
  split
  · exact visits_refuseCall _ _ h
  · rename_i overload sig _
    have happly := visits_applySignature name sig sig.typeParams [] h expected span
    split
    · refine (plain_inside _).before fun _ => (plain_reportIf _ _ _).before fun _ => ?_
      exact (plain_recordCall _ _).before fun _ => happly
    · exact (plain_recordCall _ _).before fun _ => happly

lemma visits_checkNamedCall (span name) (h : ∀ o ∈ args, o.Plain)
    (expected : Option Ty) : Visits args (checkNamedCall span name args expected) := by
  refine (plain_kind? _).before fun k => ?_
  split
  · exact visits_checkFunctionCall _ _ _ _ h expected
  · exact visits_refuseCall _ _ h
  · exact visits_refuseCall _ _ h

lemma visits_checkValueCall (hc : callee.Plain) (h : ∀ o ∈ args, o.Plain) :
    Visits (callee :: args) (checkValueCall callee args) :=
  (hc.visits none).bind fun _ => (visits_checkAll h).after fun _ =>
    (plain_reportIf _ _ _).bind fun _ => plain_pure _

lemma plain_findMethod? (owner method) : Plain (findMethod? owner method) := by
  have hnominal : Plain (nominal? owner) := ⟨local_nominal? owner, fun _ _ => rfl⟩
  refine hnominal.bind fun _ => (infers_methodOf? owner method fun k _ => ?_).plain
  exact ⟨(Frame.seen_alone owner.name k).kind, fun _ _ => trivial⟩

lemma visits_checkOwnMethodCall (span owner) (typeArgs : List Ty) (method : Name) (h : ∀ o ∈ args, o.Plain)
    (expected) :
    Visits args (checkOwnMethodCall span owner typeArgs method args expected) := by
  refine (plain_findMethod? owner method).before fun found => ?_
  split
  · exact visits_giveUp h
  · refine (plain_reportIf _ _ _).before fun _ => (plain_recordCall _ _).before fun _ => ?_
    exact visits_applySignature _ _ _ _ h expected span

lemma visits_checkMethodCall (span receiver) (method : Name) (h : ∀ o ∈ args, o.Plain)
    (expected : Option Ty) : Visits args (checkMethodCall span receiver method args expected) := by
  unfold checkMethodCall
  split
  · exact visits_checkOwnMethodCall _ _ _ _ h expected
  · exact visits_checkOwnMethodCall _ _ _ _ h expected
  · exact visits_giveUp h
  · exact visits_refuseCall _ _ h

lemma visits_checkAssociatedCall (span typeName) (typeArgs : List TypeExpr)
    (function : Name) (h : ∀ o ∈ args, o.Plain) (expected) :
    Visits args (checkAssociatedCall span typeName typeArgs function args expected) := by
  refine (plain_kind? _).before fun k => ?_
  split
  · exact visits_refuseCall _ _ h
  · split
    · exact visits_refuseCall _ _ h
    · refine Plain.before ?_ fun p => (plain_findMethod? _ _).before fun found => ?_
      · exact (infers_ownerArguments _ _ _).plain
      · split
        · exact visits_giveUp h
        · refine (plain_reportIf _ _ _).before fun _ => (plain_recordCall _ _).before fun _ => ?_
          exact visits_applySignature _ _ _ _ h expected span

/-! ### Dotted names -/

lemma visits_checkBuiltinVariant (span head member) (h : ∀ o ∈ args, o.Plain)
    (expected : Option Ty) : Visits args (checkBuiltinVariant span head member args expected) := by
  unfold checkBuiltinVariant
  split
  · exact visits_refuseCall _ _ h
  · rename_i v _
    split
    · exact visits_refuseCall _ _ h
    · rename_i hlength
      refine (plain_recordCall _ _).before fun _ => ?_
      split
      · exact (plain_pure _).visits
      · rename_i o rest
        have hrest : rest = [] := by
          have harity : v.arity ≤ 1 := by cases v <;> decide
          rw [not_not, length_cons] at hlength
          exact length_eq_zero_iff.1 (by omega)
        rw [hrest]
        exact ((h o (by simp)).visits _).after fun _ => plain_pure _

lemma visits_checkPayload (h : ∀ o ∈ args, o.Plain) {ts} (hlength : args.length = ts.length)
    (b) : Visits args (checkPayload args ts b) := by
  induction args generalizing ts b with
  | nil => exact (plain_pure b).visits
  | cons o os ih =>
    cases ts with
    | nil => cases hlength
    | cons t ts =>
      refine (visits_checkAgainst (h o (by simp)) t b _).bind fun b' => ?_
      exact ih (fun o ho => h o (by simp [ho])) (by simpa using hlength) b'

lemma visits_checkVariant (span : Span) (info) (variants : List VariantInfo) (member : Name)
    {args} (h : ∀ o ∈ args.getD [], o.Plain) (expected) :
    Visits (args.getD []) (checkVariant span info variants member args expected) := by
  unfold checkVariant
  split
  · exact visits_refuseCall _ _ h
  · refine visits_ite (fun _ => ?_) fun hlength => ?_
    · exact (plain_report _ _).before fun _ => (visits_checkAll h).after fun _ => plain_pure _
    · refine (visits_checkPayload h (not_not.1 hlength) _).after fun b => ?_
      exact (plain_recordCall _ _).bind fun _ => plain_pure _

lemma visits_checkModuleMember (span target) (head member : Name) {args} (h : ∀ o ∈ args.getD [], o.Plain)
    (expected : Option Ty) : Visits (args.getD []) (checkModuleMember span target head member args expected) := by
  refine plain_read.before fun σ => ?_
  unfold checkExported
  split
  · exact visits_giveUp h
  · split
    · exact visits_refuseCall _ _ h
    · split
      · exact visits_refuseCall _ _ h
      · split
        · exact visits_checkFunctionCall _ _ _ _ h expected
        · exact (plain_pure _).visits
        · exact (plain_refuse _ _).visits
        · exact visits_refuseCall _ _ h

lemma visits_checkValueMember (span head member) {args} (h : ∀ o ∈ args.getD [], o.Plain)
    (expected : Option Ty) (t : Ty) : Visits (args.getD []) (checkValueMember span head member args expected t) := by
  refine (plain_recordType _ _).before fun _ => ?_
  cases args with
  | none => exact (plain_fieldType t member).visits
  | some os => exact visits_checkMethodCall span t member h expected

lemma visits_checkDotted (span head member) {args} (h : ∀ o ∈ args.getD [], o.Plain)
    (expected : Option Ty) : Visits (args.getD []) (checkDotted span head member args expected) := by
  unfold checkDotted
  split
  · exact visits_checkBuiltinVariant span head member h expected
  · refine (plain_kind? _).before fun k => ?_
    split
    · exact visits_checkVariant _ _ _ _ h expected
    · exact visits_checkModuleMember _ _ _ _ h expected
    · exact visits_checkValueMember span head member h expected _
    · exact visits_checkValueMember span head member h expected _
    · exact visits_refuseCall _ _ h
    · exact visits_refuseCall _ _ h

end Rules

end SourceCheck
