import SourceCheck.Proofs.Analysis.Occurrences

/-!
# Every part of a body is checked

The check of a body gets to each of its parts, whatever is wrong, where the table fits what is around
(`SymbolTable.Fits`). What a call names and numerals are not checked on their own. What is folded or resolved as a
whole is run if nothing else is wrong.
-/

namespace SourceCheck

open Check List Surroundings Findings

variable {span : Span} {typeArgs : List TypeExpr}

attribute [local simp] Expr.occurrences

/-! ### Places in a body -/

def Surroundings.entering (S : Surroundings) : ScopeKind → Surroundings
  | .unsafeBlock => S.unsafely
  | .loop => S.looping
  | .function | .method => { S with isUnsafe := false, inLoop := false }
  | .root | .module | .block => S

/-- A table at a place of a body: local names stand for something local, others for what they stand for outside. -/
structure SymbolTable.Fits (t : SymbolTable) (module : String) (outer : SymbolTable) (S : Surroundings) : Prop where
  sound : t.Sound module
  isOpen : t.Open
  isUnsafe : t.inside .unsafeBlock = S.isUnsafe
  inLoop : t.inside .loop = S.inLoop
  inner : ∀ name id s, t.lookupLocal name = some id → t.get? id = some s → s.kind.isLocal = true
  bound : ∀ name ∈ S.locals, ∃ s, t.symbol? name = some s ∧ s.kind.isLocal = true
  others : ∀ name, name ∉ S.locals → t.symbol? name = outer.symbol? name

namespace SymbolTable.Fits

variable {module : String} {outer t t' : SymbolTable} {S S' : Surroundings}

section

variable (h : t.Fits module outer S)

include h

lemma congr (hlocals : ∀ name, name ∈ S'.locals ↔ name ∈ S.locals)
    (hmarked : S'.isUnsafe = S.isUnsafe) (hloop : S'.inLoop = S.inLoop) : t.Fits module outer S' :=
  { h with
    isUnsafe := hmarked ▸ h.isUnsafe
    inLoop := hloop ▸ h.inLoop
    bound := fun name hname => h.bound name ((hlocals name).mp hname)
    others := fun name hname => h.others name fun hlocal => hname ((hlocals name).mpr hlocal) }

lemma enter (kind) : (t.enter kind).Fits module outer (S.entering kind) where
  sound := h.sound.enter kind
  isOpen := isOpen_enter t kind
  isUnsafe := by
    rw [inside_enter h.isOpen kind .unsafeBlock (by decide), h.isUnsafe]
    cases kind <;> simp [entering, unsafely, looping]
  inLoop := by
    rw [inside_enter h.isOpen kind .loop (by decide), h.inLoop]
    cases kind <;> simp [entering, unsafely, looping]
  inner name id s hid := by simp [lookupLocal_enter] at hid
  bound name hname := by
    rw [symbol?_enter h.isOpen kind]
    refine h.bound name ?_
    cases kind <;> exact hname
  others name hname := by
    rw [symbol?_enter h.isOpen kind]
    refine h.others name fun hlocal => hname ?_
    cases kind <;> exact hlocal

lemma of_restores (hr : Restores t t') (hsound : t'.Sound module) :
    t'.Fits module outer S where
  sound := hsound
  isOpen := hr.isOpen h.isOpen
  isUnsafe := (hr.inside h.isOpen _).trans h.isUnsafe
  inLoop := (hr.inside h.isOpen _).trans h.inLoop
  inner name id s hid hs := by
    have hold : t.lookupLocal name = some id := by rwa [lookupLocal, lookupIn, hr.current, hr.inner] at hid
    obtain ⟨c, hscope, hmem⟩ := mem_of_lookupIn hold
    obtain ⟨s', hs', -⟩ := h.sound.linked hscope hmem
    obtain rfl : s = s' := Option.some.inj (hs.symm.trans (hr.kept id s' hs'))
    exact h.inner name id s hold hs'
  bound name hname := by
    rw [hr.symbol? h.sound h.isOpen name]
    exact h.bound name hname
  others name hname := (hr.symbol? h.sound h.isOpen name).trans (h.others name hname)

lemma taken {name id} (hid : t.lookupLocal name = some id) :
    t.Fits module outer (S.binding [name]) where
  __ := h
  bound x hx := by
    obtain rfl | hx := mem_cons.1 hx
    · obtain ⟨c, hscope, hmem⟩ := mem_of_lookupIn hid
      obtain ⟨s, hs, -⟩ := h.sound.linked hscope hmem
      have hlookup : t.lookup x = some id := by
        rw [lookup, lookupFrom_eq]
        rw [lookupLocal] at hid
        rw [hid, Option.some_or]
      refine ⟨s, ?_, h.inner x id s hid hs⟩
      rw [symbol?, hlookup, Option.bind_some, hs]
    · exact h.bound x hx
  others x hx := h.others x fun hlocal => hx (mem_append_right _ hlocal)

lemma define {s id} (hdefine : t.define s = .ok (id, t'))
    (hlocal : s.kind.isLocal = true) : t'.Fits module outer (S.binding [s.name]) where
  sound := h.sound.define hdefine (placed_of_isLocal hlocal)
  isOpen := (extends_define hdefine).isOpen h.isOpen
  isUnsafe := ((extends_define hdefine).inside h.isOpen _).trans h.isUnsafe
  inLoop := ((extends_define hdefine).inside h.isOpen _).trans h.inLoop
  inner name k s' hk hs' := by
    rw [lookupLocal_define h.isOpen hdefine] at hk
    rw [get?_define hdefine] at hs'
    split at hs'
    · cases hs'
      exact hlocal
    · rename_i hne
      split at hk
      · exact absurd (Option.some.inj hk).symm hne
      · exact h.inner name k s' hk hs'
  bound name hname := by
    rw [symbol?_define h.sound h.isOpen hdefine]
    split
    · exact ⟨_, rfl, hlocal⟩
    · rename_i hne
      exact h.bound name ((mem_cons.1 hname).resolve_left hne)
  others name hname := by
    obtain ⟨hne, hname⟩ := not_or.1 (mem_cons.not.1 hname)
    rw [symbol?_define h.sound h.isOpen hdefine, if_neg hne]
    exact h.others name hname

end

end SymbolTable.Fits

/-! ### Parts that are checked -/

def ConstantSite.check : ConstantSite → Check Unit
  | .size e => do
    let _ ← foldArraySize e
  | .types ts => do
    let _ ← resolveTypes ts

def ConstantSite.occurrences (S : Surroundings) : ConstantSite → List Occurrence
  | .size e => e.occurrences S
  | .types ts => TypeExpr.listOccurrences S ts

/-- What a call names is not checked on its own, and a numeral need not be. -/
def Surroundings.checks (S : Surroundings) : Expr → Bool
  | .literal .. => false
  | .ident .. | .field .. => !S.isCallee
  | _ => true

namespace Check

variable {α β : Type} {outer : SymbolTable} {S : Surroundings} {σ : Setting} {f f' h h' : Findings} {c : Check α}
  {k : α → Check β}

/-- A step is run between two states, in some body and where the table fits. -/
def RunsAt (outer : SymbolTable) (S : Surroundings) (σ : Setting) (f h : Findings) (c : Check α) : Prop :=
  ∃ function g, g.symbols.Fits σ.module outer S ∧ Findings.Steps f g ∧
    Findings.Steps g (c { σ with function } g).2 ∧ Findings.Steps (c { σ with function } g).2 h

lemma RunsAt.extend (hc : RunsAt outer S σ f' h c) (hf : Steps f f') (hh : Steps h h') :
    RunsAt outer S σ f h' c := by
  obtain ⟨function, g, hg, hbefore, hrun, hafter⟩ := hc
  exact ⟨function, g, hg, hf.trans hbefore, hrun, hafter.trans hh⟩

lemma RunsIn.at (hc : RunsIn σ f h c) (hf : f.symbols.Fits σ.module outer S) : RunsAt outer S σ f h c := by
  obtain ⟨g, hg, hbefore, hrun, hafter⟩ := hc
  exact ⟨σ.function, g, hg ▸ hf, hbefore, hrun, hafter⟩

lemma Local.runsIn (hc : Local c) (σ f) : RunsIn σ f (c σ f).2 c :=
  ⟨f, rfl, .refl, hc σ f, .refl⟩

lemma RunsIn.first {γ : Type} {d : Check γ} (hd : RunsIn σ f (c σ f).2 d) (hk : ∀ a, Local (k a)) :
    RunsIn σ f ((c >>= k) σ f).2 d :=
  hd.extend rfl .refl (hk _ σ _)

end Check

/-- A part of a body is checked between two states. -/
structure Occurrence.Reached (outer : SymbolTable) (σ : Setting) (f h : Findings) (o : Occurrence) : Prop where
  expr : ∀ e, o.node = .expr e → o.around.site = none → o.around.checks e = true →
    ∃ expected, RunsAt outer o.around σ f h (checkExpr e expected)
  stmt : ∀ s, o.node = .stmt s → RunsAt outer o.around σ f h (checkStmt s)
  site : ∀ site, o.around.site = some site → h.problems = f.problems →
    ∃ S, S.site = some site ∧ o ∈ site.occurrences S ∧ RunsAt outer S σ f h site.check

variable {expected : Option Ty}

namespace Occurrence

variable {outer : SymbolTable} {S : Surroundings} {σ : Setting} {f f' h h' : Findings} {o : Occurrence}

lemma Reached.extend (ho : o.Reached outer σ f' h) (hf : Steps f f') (hrun : Steps f' h)
    (hh : Steps h h') : o.Reached outer σ f h' where
  expr e he hsite hchecks := by
    obtain ⟨expected, hexpr⟩ := ho.expr e he hsite hchecks
    exact ⟨expected, hexpr.extend hf hh⟩
  stmt s hs := (ho.stmt s hs).extend hf hh
  site site hsite hproblems := by
    obtain ⟨S, hS, hmem, hsite⟩ := ho.site site hsite (problems_eq_of_steps hf hrun hh hproblems)
    exact ⟨S, hS, hmem, hsite.extend hf hh⟩

/-- A part is checked between two states, where names stand for what they stand for before. -/
structure ReachedIn (σ : Setting) (f h : Findings) (o : Occurrence) : Prop where
  expr : ∀ e, o.node = .expr e → o.around.site = none → o.around.checks e = true →
    ∃ expected, RunsIn σ f h (checkExpr e expected)
  noStmt : ∀ s, o.node ≠ .stmt s
  site : ∀ site, o.around.site = some site → h.problems = f.problems →
    ∃ S, S.site = some site ∧ o ∈ site.occurrences S ∧ RunsIn σ f h site.check

lemma ReachedIn.extend (ho : o.ReachedIn σ f' h) (hsymbols : f'.symbols = f.symbols) (hf : Steps f f')
    (hrun : Steps f' h) (hh : Steps h h') : o.ReachedIn σ f h' where
  expr e he hsite hchecks := by
    obtain ⟨expected, hexpr⟩ := ho.expr e he hsite hchecks
    exact ⟨expected, hexpr.extend hsymbols hf hh⟩
  noStmt := ho.noStmt
  site site hsite hproblems := by
    obtain ⟨S, hS, hmem, hsite⟩ := ho.site site hsite (problems_eq_of_steps hf hrun hh hproblems)
    exact ⟨S, hS, hmem, hsite.extend hsymbols hf hh⟩

lemma reachedIn_expr {e} (hS : S.site = none) (hrun : RunsIn σ f h (checkExpr e expected)) :
    ReachedIn σ f h ⟨S, .expr e⟩ where
  expr e' he' _ _ := by
    cases he'
    exact ⟨expected, hrun⟩
  noStmt _ := Node.noConfusion
  site site hsite := by simp [hS] at hsite

lemma reachedIn_unchecked {e} (hS : S.site = none) (he : S.checks e = false) : ReachedIn σ f h ⟨S, .expr e⟩ where
  expr e' he' _ hchecks := by
    cases he'
    simp [he] at hchecks
  noStmt _ := Node.noConfusion
  site site hsite := by simp [hS] at hsite

lemma reachedIn_site {site} (hS : S.site = some site) (ho : o ∈ site.occurrences S) (hin : o.Inside S)
    (hrun : h.problems = f.problems → RunsIn σ f h site.check) : o.ReachedIn σ f h := by
  have hsite : o.around.site = some site := (hin.site (by simp [hS])).trans hS
  refine ⟨fun e _ hnone => by simp [hsite] at hnone, hin.noStmt, ?_⟩
  intro site' hsite' hproblems
  obtain rfl : site' = site := Option.some.inj (hsite'.symm.trans hsite)
  exact ⟨S, hS, ho, hrun hproblems⟩

end Occurrence

open Occurrence
open List (forall_mem_append forall_mem_cons forall_mem_singleton)

lemma SymbolTable.Fits.cover {module} {outer t : SymbolTable} {S S'}
    (h : t.Fits module outer S) (hc : S.Covers S') : t.Fits module outer S' :=
  h.congr (fun _ => by rw [hc.locals]) hc.isUnsafe hc.inLoop

lemma ConstantSite.inside_occurrences (S) (site : ConstantSite) : ∀ o ∈ site.occurrences S, o.Inside S := by
  cases site with
  | size e => exact e.inside_occurrences S
  | types ts => exact TypeExpr.inside_listOccurrences S ts

lemma Occurrence.ReachedIn.reached {outer} {σ : Setting} {f h} {o : Occurrence}
    (ho : o.ReachedIn σ f h) (hf : f.symbols.Fits σ.module outer o.around) : o.Reached outer σ f h where
  expr e he hsite hchecks := by
    obtain ⟨expected, hrun⟩ := ho.expr e he hsite hchecks
    exact ⟨expected, hrun.at hf⟩
  stmt s hs := absurd hs (ho.noStmt s)
  site site hsite hproblems := by
    obtain ⟨S, hS, hmem, hrun⟩ := ho.site site hsite hproblems
    have hc := (site.inside_occurrences S o hmem).toCovers
    exact ⟨S, hS, hmem, hrun.at (hf.congr (fun _ => by rw [hc.locals]) hc.isUnsafe.symm hc.inLoop.symm)⟩

/-! ### Expressions -/

def Operand.Reaches (σ : Setting) (op : Operand) (o : Occurrence) : Prop :=
  ∀ f expected, o.ReachedIn σ f (op.check expected σ f).2

section Expressions

variable {S : Surroundings} {σ : Setting} {e : Expr} {os : List Operand} {o : Occurrence}

lemma reaches_self (hS : S.site = none) (e) : Operand.Reaches σ ⟨e, checkExpr e⟩ ⟨S, .expr e⟩ :=
  fun f expected => reachedIn_expr hS ((local_checkExpr e expected).runsIn σ f)

section

variable {rule : Option Ty → Check Ty} (hv : ∀ expected, Visits os (rule expected))
  (hrule : ∀ expected, checkExpr e expected = recorded span (rule expected)) {op : Operand} {l : List Occurrence}

include hv hrule

lemma reaches_of_visits (hop : op ∈ os) (ho : op.Reaches σ o) : Operand.Reaches σ ⟨e, checkExpr e⟩ o := by
  intro f expected
  obtain ⟨expected', g, hg, hbefore, hrun, hafter⟩ :=
    (visits_recorded (hv expected)).runs σ f op hop
  dsimp only
  rw [hrule]
  exact (ho g expected').extend hg hbefore hrun hafter

lemma reaches_part (hop : op ∈ os) (h : ∀ o ∈ l, op.Reaches σ o) :
    ∀ o ∈ l, Operand.Reaches σ ⟨e, checkExpr e⟩ o :=
  fun o ho => reaches_of_visits hv hrule hop (h o ho)

lemma reaches_parts (h : ∀ o ∈ l, ∃ op ∈ os, op.Reaches σ o) :
    ∀ o ∈ l, Operand.Reaches σ ⟨e, checkExpr e⟩ o := by
  intro o ho
  obtain ⟨op, hop, hreach⟩ := h o ho
  exact reaches_of_visits hv hrule hop hreach

end

lemma reaches_site (site : ConstantSite) (hS : S.site = none)
    (hrun : ∀ f expected, Clean (checkExpr e expected) σ f →
      RunsIn σ f (checkExpr e expected σ f).2 site.check) :
    ∀ o ∈ site.occurrences (S.within site), Operand.Reaches σ ⟨e, checkExpr e⟩ o := by
  intro o ho f expected
  have hwithin : (S.within site).site = some site := by rw [within, hS]
  exact reachedIn_site hwithin ho (site.inside_occurrences _ o ho) (hrun f expected)

/-! ### What is folded or resolved -/

variable {f : Findings}

lemma runsIn_noTypes {h} (hsteps : Steps f h) : RunsIn σ f h (ConstantSite.types []).check :=
  ⟨f, rfl, .refl, .refl, hsteps⟩

lemma runsIn_sizeof (span type expected) :
    RunsIn σ f (checkExpr (.sizeof span type) expected σ f).2 (ConstantSite.types [type]).check := by
  have hresolve : RunsIn σ f (resolveType type σ f).2 (ConstantSite.types [type]).check :=
    ⟨f, rfl, .refl, local_resolveType type σ f, .refl⟩
  rw [checkExpr]
  exact RunsIn.first (RunsIn.first hresolve fun _ => local_pure _) fun t =>
    (local_recordType span t).bind fun _ => local_pure t

lemma runsIn_repeat (span value count expected) :
    RunsIn σ f (checkExpr (.arrayRepeat span value count) expected σ f).2 (ConstantSite.size count).check := by
  have hfold (g : Findings) : RunsIn σ g (foldArraySize count σ g).2 (ConstantSite.size count).check :=
    ⟨g, rfl, .refl, local_foldArraySize count σ g, .refl⟩
  rw [checkExpr]
  refine RunsIn.first ?_ fun t => (local_recordType span t).bind fun _ => local_pure t
  have hvalue := plain_checkExpr value
  exact ((hfold _).first fun n => (local_recordType _ _).bind fun _ => local_pure _).extend
    ((hvalue _).symbols σ f) ((hvalue _).steps σ f) .refl

lemma runsIn_resolveTypes : RunsIn σ f (resolveTypes typeArgs σ f).2 (ConstantSite.types typeArgs).check :=
  ⟨f, rfl, .refl, local_resolveTypes typeArgs σ f, .refl⟩

lemma runsIn_ownerArguments (typeName params typeArgs) :
    RunsIn σ f (ownerArguments typeName params typeArgs σ f).2 (ConstantSite.types typeArgs).check := by
  cases typeArgs with
  | nil => exact runsIn_noTypes .refl
  | cons t ts =>
    exact runsIn_resolveTypes.first fun _ => (local_typeArguments _ _ _ _).bind fun _ => local_pure _

lemma runsIn_literalBindings (name info typeArgs expected) :
    RunsIn σ f (literalBindings name info typeArgs expected σ f).2 (ConstantSite.types typeArgs).check := by
  cases typeArgs with
  | nil => exact runsIn_noTypes ((infers_literalBindings name info [] (.inl (expects_steps expected))).isLocal σ f)
  | cons t ts =>
    exact runsIn_resolveTypes.first fun _ => (local_typeArguments _ _ _ _).bind fun _ => local_pure _

lemma runsIn_checkAssociatedCall {typeName : Name} {function args} (hargs : ∀ o ∈ args, o.Local)
    (hclean : Clean (checkAssociatedCall span typeName typeArgs function args expected) σ f) :
    RunsIn σ f (checkAssociatedCall span typeName typeArgs function args expected σ f).2
      (ConstantSite.types typeArgs).check := by
  have hrefused {p : SemanticProblem} {span : Span} : ¬ Clean (refuseCall p span args) σ f :=
    not_clean_report_bind fun _ => local_giveUp hargs
  rw [Clean, checkAssociatedCall, run_kind?_bind] at hclean
  rw [checkAssociatedCall, run_kind?_bind]
  cases hkind : (f.symbols.symbol? typeName.node).map (·.kind) with
  | none =>
    rw [hkind] at hclean
    exact absurd hclean hrefused
  | some kind =>
    rw [hkind] at hclean
    dsimp only at hclean ⊢
    cases hinfo : kind.nominalInfo? with
    | none =>
      rw [hinfo] at hclean
      exact absurd hclean hrefused
    | some owner =>
      refine RunsIn.first (runsIn_ownerArguments _ _ _) fun p => (local_findMethod? _ _).bind fun found => ?_
      cases found with
      | none => exact local_giveUp hargs
      | some q =>
        exact (local_reportIf _ _ _).bind fun _ => (local_recordCall _ _).bind fun _ =>
          local_applySignature hargs _ _ _ _ _ _

lemma runsIn_checkStructLiteral {name : Name} {values} (hvalues : ∀ v ∈ values, v.value.Local)
    (hclean : Clean (checkStructLiteral span name typeArgs values expected) σ f) :
    RunsIn σ f (checkStructLiteral span name typeArgs values expected σ f).2 (ConstantSite.types typeArgs).check := by
  have hrest : Local (do
      Operand.checkAll (values.map (·.value))
      return Ty.unknown) := by
    refine (infers_checkAll fun o ho => ?_).isLocal.bind fun _ => local_pure _
    obtain ⟨v, hv, rfl⟩ := mem_map.1 ho
    exact hvalues v hv
  rw [Clean, checkStructLiteral, run_kind?_bind] at hclean
  rw [checkStructLiteral, run_kind?_bind]
  generalize (f.symbols.symbol? name.node).map (·.kind) = kind at hclean ⊢
  cases kind with
  | none => exact absurd hclean (not_clean_report_bind fun _ => hrest)
  | some kind =>
    cases kind with
    | struct info fields =>
      refine RunsIn.first (runsIn_literalBindings _ _ _ _) fun b => ?_
      exact (local_checkFieldValues hvalues _ _ _ _ _).bind fun _ => (local_reportIf _ _ _).bind fun _ => local_pure _
    | _ => exact absurd hclean (not_clean_report_bind fun _ => hrest)

lemma runsIn_recorded {α : Type} {c : Check α} {rule} (hrule : Local rule) (hclean : Clean (recorded span rule) σ f)
    (hrun : Clean rule σ f → RunsIn σ f (rule σ f).2 c) : RunsIn σ f (recorded span rule σ f).2 c := by
  have hrest (t : Ty) : Local (recordType span t >>= fun _ => pure t) :=
    (local_recordType span t).bind fun _ => local_pure t
  exact (hrun (hclean.of_bind hrule hrest).1).first hrest

/-! ### Parts of expressions -/

lemma Surroundings.rightOf_eq (hS : S.site = none) (lhs) : S.rightOf lhs = S.part := by
  rw [rightOf, hS]

lemma reaches_call (hS : S.site = none) {callee : Expr} {args}
    (hc : ∀ o ∈ callee.occurrences S.callee, Operand.Reaches σ ⟨callee, checkExpr callee⟩ o)
    (hr : ∀ s receiver method, callee = .field s receiver method →
      ∀ o ∈ receiver.occurrences S.part, Operand.Reaches σ ⟨receiver, checkExpr receiver⟩ o)
    (ha : ∀ o ∈ Expr.listOccurrences S.part args, ∃ op ∈ operands args, op.Reaches σ o) :
    ∀ o ∈ (Expr.call span callee args).occurrences S,
      Operand.Reaches σ ⟨.call span callee args, checkExpr (.call span callee args)⟩ o := by
  simp only [Expr.occurrences, cons_append, forall_mem_cons, forall_mem_append]
  have hargs := plain_operands args
  have hunchecked {e : Expr} (he : S.callee.checks e = false) :
      Operand.Reaches σ ⟨.call span callee args, checkExpr (.call span callee args)⟩ ⟨S.callee, .expr e⟩ :=
    fun _ _ => reachedIn_unchecked hS he
  have hvalue := visits_checkValueCall (plain_checkExpr callee) hargs
  refine ⟨reaches_self hS _, ?_⟩
  cases callee with
  | ident nameSpan name =>
    have hv := visits_checkNamedCall span ⟨name, nameSpan⟩ hargs
    refine ⟨?_, reaches_parts hv (fun _ => rfl) ha⟩
    simp only [Expr.occurrences, forall_mem_singleton]
    exact hunchecked rfl
  | field fieldSpan receiver method =>
    have hv (expected : Option Ty) := ((plain_checkExpr receiver).visits none).bind fun t =>
      visits_checkMethodCall span t method hargs expected
    refine ⟨?_, fun o ho => ?_⟩
    · simp only [Expr.occurrences, forall_mem_cons]
      exact ⟨hunchecked rfl, reaches_part hv (fun _ => rfl) mem_cons_self (hr _ _ _ rfl)⟩
    · obtain ⟨op, hop, hreach⟩ := ha o ho
      exact reaches_of_visits hv (fun _ => rfl) (mem_cons_of_mem _ hop) hreach
  | _ =>
    refine ⟨reaches_part (fun _ => hvalue) (fun _ => rfl) mem_cons_self hc, fun o ho => ?_⟩
    obtain ⟨op, hop, hreach⟩ := ha o ho
    exact reaches_of_visits (fun _ => hvalue) (fun _ => rfl) (mem_cons_of_mem _ hop) hreach

lemma reaches_unary (hS : S.site = none) {logical : Option LogicalPrefix} {pointer a}
    (ha : ∀ o ∈ a.occurrences S.part, Operand.Reaches σ ⟨a, checkExpr a⟩ o) :
    ∀ o ∈ (Expr.unary span logical pointer a).occurrences S,
      Operand.Reaches σ ⟨.unary span logical pointer a, checkExpr (.unary span logical pointer a)⟩ o := by
  simp only [Expr.occurrences, forall_mem_cons]
  refine ⟨reaches_self hS _, fun o ho => ?_⟩
  by_cases hoperand : pointer.isSome ∨ (⟨a, checkExpr a⟩ : Operand).numeral? = none
  · have hv := visits_checkUnary span logical pointer (plain_checkExpr a) hoperand
    exact reaches_of_visits hv (fun _ => rfl) (mem_singleton_self _) (ha o ho)
  · obtain ⟨-, hnumeral⟩ := not_or.1 hoperand
    cases a with
    | literal literalSpan value =>
      obtain rfl := mem_singleton.1 (by simpa only [Expr.occurrences] using ho)
      exact fun _ _ => reachedIn_unchecked hS rfl
    | _ => exact absurd rfl hnumeral

attribute [local simp] FieldInit.listOccurrences

mutual

lemma reaches_checkExpr {S : Surroundings} (hS : S.site = none) (e) :
    ∀ o ∈ e.occurrences S, Operand.Reaches σ ⟨e, checkExpr e⟩ o := by
  have hpart : S.part.site = none := hS
  have hcallee : S.callee.site = none := hS
  match e with
  | .literal .. | .ident .. | .selfRef .. | .dotted .. =>
    exact forall_mem_singleton.2 (reaches_self hS _)
  | .unary _ _ _ a => exact reaches_unary hS (reaches_checkExpr hpart a)
  | .call _ callee args =>
    refine reaches_call hS (reaches_checkExpr hcallee callee) ?_ (reaches_operands hpart args)
    rintro _ receiver _ rfl
    exact reaches_checkExpr hpart receiver
  | .field _ base name =>
    have hv := ((plain_checkExpr base).visits none).after fun t => plain_fieldType t name
    exact forall_mem_cons.2
      ⟨reaches_self hS _, reaches_part (fun _ => hv) (fun _ => rfl) (by simp) (reaches_checkExpr hpart base)⟩
  | .tupleIndex span base i =>
    have hv := visits_checkTupleIndex span (plain_checkExpr base) i
    exact forall_mem_cons.2
      ⟨reaches_self hS _, reaches_part (fun _ => hv) (fun _ => rfl) (by simp) (reaches_checkExpr hpart base)⟩
  | .paren _ inner =>
    have hv := (plain_checkExpr inner).visits
    exact forall_mem_cons.2
      ⟨reaches_self hS _, reaches_part hv (fun _ => rfl) (by simp) (reaches_checkExpr hpart inner)⟩
  | .await _ handle =>
    have hv := visits_checkAwait (plain_checkExpr handle)
    exact forall_mem_cons.2
      ⟨reaches_self hS _, reaches_part (fun _ => hv) (fun _ => rfl) (by simp) (reaches_checkExpr hpart handle)⟩
  | .binary span a op b =>
    have hv := visits_checkBinary span op (plain_checkExpr a) (plain_checkExpr b)
    simp only [Expr.occurrences, cons_append, forall_mem_cons, forall_mem_append,
      rightOf_eq hS]
    exact ⟨reaches_self hS _, reaches_part hv (fun _ => rfl) (by simp) (reaches_checkExpr hpart a),
      reaches_part hv (fun _ => rfl) (by simp) (reaches_checkExpr hpart b)⟩
  | .index _ a b =>
    have hv := visits_checkIndex (plain_checkExpr a) (plain_checkExpr b)
    refine forall_mem_cons.2 ⟨reaches_self hS _, forall_mem_append.2 ⟨?_, ?_⟩⟩
    · exact reaches_part (fun _ => hv) (fun _ => rfl) (by simp) (reaches_checkExpr hpart a)
    · exact reaches_part (fun _ => hv) (fun _ => rfl) (by simp) (reaches_checkExpr hpart b)
  | .arrayRepeat span value count =>
    have hv := visits_checkRepeat (plain_checkExpr value) count
    refine forall_mem_cons.2 ⟨reaches_self hS _, forall_mem_append.2 ⟨fun o ho => ?_, ?_⟩⟩
    · exact reaches_of_visits hv (fun _ => rfl) (by simp) (reaches_checkExpr hpart value o ho)
    · exact reaches_site (.size count) hS fun f expected _ => runsIn_repeat span value count expected
  | .assocCall span typeName typeArgs function args =>
    have hv := visits_checkAssociatedCall span typeName typeArgs function (plain_operands args)
    refine forall_mem_cons.2 ⟨reaches_self hS _, forall_mem_append.2 ⟨?_, fun o ho => ?_⟩⟩
    · have hargs := local_operands args
      exact reaches_site (.types typeArgs) hS fun f expected hclean =>
        runsIn_recorded (infers_checkAssociatedCall _ _ _ _ hargs (.inl ⟨rfl, .inr rfl⟩)
          (.inl (expects_steps _))).isLocal hclean (runsIn_checkAssociatedCall hargs)
    · exact reaches_parts hv (fun _ => rfl) (reaches_operands hpart args) o ho
  | .dottedCall span head member args =>
    have hplain : ∀ o ∈ (some (operands args)).getD [], o.Plain := plain_operands args
    have hv := visits_checkDotted span head member hplain
    exact forall_mem_cons.2 ⟨reaches_self hS _, reaches_parts hv (fun _ => rfl) (reaches_operands hpart args)⟩
  | .tuple span elems =>
    have hv := visits_checkTuple span (plain_operands elems)
    exact forall_mem_cons.2 ⟨reaches_self hS _, reaches_parts hv (fun _ => rfl) (reaches_operands hpart elems)⟩
  | .array span elems =>
    have hv := visits_checkArray (plain_operands elems)
    exact forall_mem_cons.2 ⟨reaches_self hS _, reaches_parts hv (fun _ => rfl) (reaches_operands hpart elems)⟩
  | .slice _ base start stop =>
    have hbounds := forall_mem_append.2 ⟨plain_optionOperand start, plain_optionOperand stop⟩
    have hv := visits_checkSlice (plain_checkExpr base) hbounds
    simp only [Expr.occurrences, cons_append, forall_mem_cons, forall_mem_append]
    refine ⟨reaches_self hS _, ⟨fun o ho => ?_, fun o ho => ?_⟩, fun o ho => ?_⟩
    · exact reaches_of_visits (fun _ => hv) (fun _ => rfl) (by simp) (reaches_checkExpr hpart base o ho)
    · obtain ⟨op, hop, hreach⟩ := reaches_optionOperand hpart start o ho
      exact reaches_of_visits (fun _ => hv) (fun _ => rfl) (by simp [hop]) hreach
    · obtain ⟨op, hop, hreach⟩ := reaches_optionOperand hpart stop o ho
      exact reaches_of_visits (fun _ => hv) (fun _ => rfl) (by simp [hop]) hreach
  | .structLit span name typeArgs fields =>
    have hv := visits_checkStructLiteral span name typeArgs fun f hf expected =>
      ((local_fieldOperands fields f hf).of_expects (expects_steps expected)).plain
    refine forall_mem_cons.2 ⟨reaches_self hS _, forall_mem_append.2 ⟨?_, fun o ho => ?_⟩⟩
    · have hvalues := local_fieldOperands fields
      exact reaches_site (.types typeArgs) hS fun f expected hclean =>
        runsIn_recorded (infers_checkStructLiteral _ _ _ hvalues (.inr (.inl rfl))
          (.inl (expects_steps _))).isLocal hclean (runsIn_checkStructLiteral hvalues)
    · obtain ⟨field, hfield, hreach⟩ := reaches_fieldOperands hpart fields o ho
      exact reaches_of_visits hv (fun _ => rfl) (mem_map_of_mem hfield) hreach
  | .sizeof span type =>
    refine forall_mem_cons.2 ⟨reaches_self hS _, fun o ho => ?_⟩
    refine reaches_site (.types [type]) hS (fun f expected _ => runsIn_sizeof span type expected) o ?_
    simpa [ConstantSite.occurrences, TypeExpr.listOccurrences] using ho

lemma reaches_operands {S} (hS : S.site = none) (es) :
    ∀ o ∈ Expr.listOccurrences S es, ∃ op ∈ operands es, op.Reaches σ o := by
  intro o ho
  match es with
  | [] => simp [Expr.listOccurrences] at ho
  | e :: es =>
    simp only [Expr.listOccurrences, mem_append] at ho
    simp only [operands, mem_cons]
    obtain ho | ho := ho
    · exact ⟨_, .inl rfl, reaches_checkExpr hS e o ho⟩
    · obtain ⟨op, hop, hreach⟩ := reaches_operands hS es o ho
      exact ⟨op, .inr hop, hreach⟩

lemma reaches_optionOperand {S} (hS : S.site = none) (e) :
    ∀ o ∈ Expr.optionOccurrences S e, ∃ op ∈ optionOperand e, op.Reaches σ o := by
  intro o ho
  match e with
  | none => simp [Expr.optionOccurrences] at ho
  | some e =>
    simp only [Expr.optionOccurrences] at ho
    simp only [optionOperand, mem_singleton]
    exact ⟨_, rfl, reaches_checkExpr hS e o ho⟩

lemma reaches_fieldOperand {S} (hS : S.site = none) (field) :
    ∀ o ∈ field.occurrences S, (fieldOperand field).value.Reaches σ o := by
  intro o ho
  match field with
  | .mk _ value =>
    simp only [FieldInit.occurrences] at ho
    rw [fieldOperand]
    exact reaches_checkExpr hS value o ho

lemma reaches_fieldOperands {S} (hS : S.site = none) (fields) :
    ∀ o ∈ FieldInit.listOccurrences S fields, ∃ field ∈ fieldOperands fields, field.value.Reaches σ o := by
  intro o ho
  match fields with
  | [] => simp at ho
  | field :: fields =>
    simp only [FieldInit.listOccurrences, mem_append] at ho
    simp only [fieldOperands, mem_cons]
    obtain ho | ho := ho
    · exact ⟨_, .inl rfl, reaches_fieldOperand hS field o ho⟩
    · obtain ⟨field', hfield, hreach⟩ := reaches_fieldOperands hS fields o ho
      exact ⟨field', .inr hfield, hreach⟩

end

/-! ### Operands of `&mut` -/

/-- A mutable pointer is taken in one of the parts, outside of constant expressions. -/
def Borrows (place : Expr) (os : List Occurrence) : Prop :=
  ∃ S span logical, S.site = none ∧ ⟨S, .expr (.unary span logical (some .addressOfMut) place)⟩ ∈ os

lemma Borrows.mono {place os os'} (h : Borrows place os) (hsub : ∀ o ∈ os, o ∈ os') : Borrows place os' := by
  obtain ⟨S, span, logical, hS, ho⟩ := h
  exact ⟨S, span, logical, hS, hsub _ ho⟩

mutual

lemma borrows_occurrences {S} (hS : S.site = none) (e : Expr) : ∀ p ∈ e.borrowed, Borrows p (e.occurrences S) := by
  have hpart : S.part.site = none := hS
  have hcallee : S.callee.site = none := hS
  intro p hp
  match e with
  | .literal .. | .ident .. | .selfRef _ | .dotted .. | .sizeof .. => simp [Expr.borrowed] at hp
  | .unary span logical pointer a =>
    obtain hp | hp := mem_append.1 (by simpa only [Expr.borrowed] using hp)
    · split at hp
      · rename_i hpointer
        obtain rfl := mem_singleton.1 hp
        exact ⟨S, span, logical, hS, by simp [hpointer]⟩
      · cases hp
    · exact (borrows_occurrences hpart a p hp).mono fun o ho => by simp [ho]
  | .field _ a _ | .tupleIndex _ a _ | .arrayRepeat _ a _ | .paren _ a | .await _ a =>
    rw [Expr.borrowed] at hp
    exact (borrows_occurrences hpart a p hp).mono fun o ho => by simp [ho]
  | .binary _ a _ b | .index _ a b =>
    obtain hp | hp := mem_append.1 (by simpa only [Expr.borrowed] using hp)
    · exact (borrows_occurrences hpart a p hp).mono fun o ho => by simp [ho]
    · exact (borrows_occurrences hpart b p hp).mono fun o ho => by
        simp [rightOf_eq hS, ho]
  | .call _ callee args =>
    obtain hp | hp := mem_append.1 (by simpa only [Expr.borrowed] using hp)
    · exact (borrows_occurrences hcallee callee p hp).mono fun o ho => by simp [ho]
    · exact (borrows_listOccurrences hpart args p hp).mono fun o ho => by simp [ho]
  | .assocCall _ _ _ _ es | .dottedCall _ _ _ es | .tuple _ es | .array _ es =>
    rw [Expr.borrowed] at hp
    exact (borrows_listOccurrences hpart es p hp).mono fun o ho => by simp [ho]
  | .slice _ base start stop =>
    rw [Expr.borrowed, mem_append, mem_append] at hp
    obtain hp | hp | hp := hp
    · exact (borrows_occurrences hpart base p hp).mono fun o ho => by simp [ho]
    · exact (borrows_optionOccurrences hpart start p hp).mono fun o ho => by simp [ho]
    · exact (borrows_optionOccurrences hpart stop p hp).mono fun o ho => by simp [ho]
  | .structLit _ _ _ fields =>
    rw [Expr.borrowed] at hp
    exact (borrows_fieldOccurrences hpart fields p hp).mono fun o ho => by simp [ho]

lemma borrows_listOccurrences {S} (hS : S.site = none) (es) :
    ∀ p ∈ Expr.allBorrowed es, Borrows p (Expr.listOccurrences S es) := by
  intro p hp
  match es with
  | [] => simp [Expr.allBorrowed] at hp
  | e :: es =>
    obtain hp | hp := mem_append.1 (by simpa only [Expr.allBorrowed] using hp)
    · exact (borrows_occurrences hS e p hp).mono fun o ho => by simp [Expr.listOccurrences, ho]
    · exact (borrows_listOccurrences hS es p hp).mono fun o ho => by simp [Expr.listOccurrences, ho]

lemma borrows_optionOccurrences {S} (hS : S.site = none) (e) :
    ∀ p ∈ Expr.optionBorrowed e, Borrows p (Expr.optionOccurrences S e) := by
  intro p hp
  match e with
  | none => simp [Expr.optionBorrowed] at hp
  | some e => exact borrows_occurrences hS e p hp

lemma borrows_fieldOccurrences {S} (hS : S.site = none) (fs) :
    ∀ p ∈ FieldInit.allBorrowed fs, Borrows p (FieldInit.listOccurrences S fs) := by
  intro p hp
  match fs with
  | [] => simp [FieldInit.allBorrowed] at hp
  | .mk _ value :: fs =>
    obtain hp | hp := mem_append.1 (by simpa only [FieldInit.allBorrowed, FieldInit.borrowed] using hp)
    · exact (borrows_occurrences hS value p hp).mono fun o ho => by
        simp [FieldInit.occurrences, ho]
    · exact (borrows_fieldOccurrences hS fs p hp).mono fun o ho => by simp [ho]

end

/-- The operands of `&mut` may be written in an expression that passes. -/
lemma writable_of_borrowed {t types} (h : Passed σ t types (checkExpr e expected)) :
    ∀ p ∈ e.borrowed, p.startsAtNone = false → Writable types t.Mutable p := by
  intro p hp hroot
  obtain ⟨S, span, logical, hS, ho⟩ := borrows_occurrences (S := { locals := [] }) rfl e p hp
  obtain ⟨f, rfl, hclean, htypes⟩ := h
  obtain ⟨expected', hrun⟩ := (reaches_checkExpr rfl e _ ho f expected).expr _ rfl hS rfl
  exact writable_of_addressOfMut hroot (hrun.passed hclean htypes)

end Expressions

end SourceCheck
