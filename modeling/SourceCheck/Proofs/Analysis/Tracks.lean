import SourceCheck.Proofs.Analysis.Reached

/-!
# Every statement of a body is checked

While statements are checked, the table keeps fitting what is around them: what a statement declares is among what it
binds, and scopes are left as they were entered.
-/

namespace SourceCheck

open Check Occurrence List Locals

namespace Surroundings

variable {S : Surroundings} {names names' : List String}

lemma binding_binding (S : Surroundings) (names names') :
    (S.binding names).binding names' = S.binding (names' ++ names) := by
  simp [binding]

end Surroundings

/-- Neither an expression nor a statement, and not folded or resolved. -/
structure Occurrence.IsOther (o : Occurrence) : Prop where
  site : o.around.site = none
  noExpr : ∀ e, o.node ≠ .expr e
  noStmt : ∀ s, o.node ≠ .stmt s

lemma Occurrence.IsOther.reached {o : Occurrence} (h : o.IsOther) {outer σ f g} : o.Reached outer σ f g :=
  ⟨fun e he => absurd he (h.noExpr e), fun s hs => absurd hs (h.noStmt s),
    fun site hsite => by simp [h.site] at hsite⟩

namespace Locals

lemma mutable_append {Γ Δ : Locals} {name} :
    (Δ ++ Γ).Mutable name ↔ Δ.Mutable name ∨ List.lookup name Δ = none ∧ Γ.Mutable name := by
  simp [Mutable, lookup_append, Option.or_eq_some_iff]

/-- Variables that may not change. -/
def fixed (names : List String) : Locals :=
  names.map (·, false)

lemma names_fixed (l) : (fixed l).names = l := by
  simp [names, fixed, Function.comp_def]

lemma fixed_append (l l') : fixed (l ++ l') = fixed l ++ fixed l' :=
  map_append

lemma not_mutable_fixed (l name) : ¬ (fixed l).Mutable name := by
  intro h
  obtain ⟨l₁, l₂, heq, -⟩ := lookup_eq_some_iff.1 h
  have hmem : (name, true) ∈ fixed l := by simp [heq]
  simp [fixed] at hmem

end Locals

namespace Check

variable {α β : Type} {outer : SymbolTable} {S : Surroundings} {types : SpanTable Ty} {Γ Δ Δ' : Locals}
  {os os' : List Occurrence} {ws ws' : List Written} {c : Check α} {k : α → Check β} {σ : Setting} {f : Findings}

/-- A run without problems where given variables are in scope, with types among given ones. -/
structure Goes (types : SpanTable Ty) (Γ : Locals) (c : Check α) (σ : Setting) (f : Findings) : Prop where
  sees : f.symbols.Sees σ.module Γ
  clean : Clean c σ f
  noted : (c σ f).2.exprTypes ⊆ types

/-- A step that checks the given parts, keeps the table fitting with more variables, and finds nothing wrong only if
the given places may be written. -/
structure Tracks (outer : SymbolTable) (S : Surroundings) (Γ : Locals) (c : Check α) (Δ : Locals)
    (os : List Occurrence)
    (ws : List Written) : Prop where
  steps : Local c
  table : ∀ {σ : Setting} {f : Findings}, f.symbols.Open → f.symbols.Extends (c σ f).2.symbols
  fits : ∀ {σ : Setting} {f : Findings}, f.symbols.Fits σ.module outer S →
    (c σ f).2.symbols.Fits σ.module outer (S.binding Δ.names)
  sees : ∀ {σ : Setting} {f : Findings}, f.symbols.Sees σ.module Γ → Clean c σ f →
    (c σ f).2.symbols.Sees σ.module (Δ ++ Γ)
  reached : ∀ {σ : Setting} {f : Findings}, f.symbols.Fits σ.module outer S →
    ∀ o ∈ os, o.Reached outer σ f (c σ f).2
  allowed : ∀ {types : SpanTable Ty} {σ : Setting} {f : Findings}, Goes types Γ c σ f →
    ∀ w ∈ ws, w.Allowed types

lemma Goes.first (hc : Local c) (hk : ∀ a, Local (k a)) (h : Goes types Γ (c >>= k) σ f) :
    Goes types Γ c σ f where
  sees := h.sees
  clean := (h.clean.of_bind hc hk).1
  noted := List.Subset.trans (hk _ σ _).exprTypes_suffix.subset h.noted

lemma Goes.second (hc : Tracks outer S Γ c Δ os ws) (hk : ∀ a, Local (k a))
    (h : Goes types Γ (c >>= k) σ f) : Goes types (Δ ++ Γ) (k (c σ f).1) σ (c σ f).2 where
  sees := hc.sees h.sees (h.first hc.steps hk).clean
  clean := (h.clean.of_bind hc.steps hk).2
  noted := h.noted

lemma Goes.inner {kind} (h : Goes types Γ (inScope kind c) σ f) : Goes types Γ c σ (f.enter kind) :=
  ⟨h.sees.enter kind, h.clean, h.noted⟩

lemma Tracks.also (h : Tracks outer S Γ c Δ os ws) (hos : ∀ o ∈ os', o.IsOther) :
    Tracks outer S Γ c Δ (os' ++ os) ws :=
  { h with
    reached := fun hf => forall_mem_append.2 ⟨fun o ho => (hos o ho).reached, h.reached hf⟩ }

lemma Tracks.bind_of {P : α → Prop} (h : Tracks outer S Γ c Δ os ws) (hP : ∀ σ f, P (c σ f).1)
    (hlocal : ∀ a, Local (k a)) (hk : ∀ a, P a → Tracks outer (S.binding Δ.names) (Δ ++ Γ) (k a) Δ' os' ws') :
    Tracks outer S Γ (c >>= k) (Δ' ++ Δ) (os ++ os') (ws ++ ws') where
  steps := h.steps.bind hlocal
  table {σ f} hf := (h.table hf).trans ((hk _ (hP σ f)).table ((h.table hf).isOpen hf))
  fits {σ f} hf := by
    rw [Locals.names, map_append, ← Surroundings.binding_binding]
    exact (hk _ (hP σ f)).fits (h.fits hf)
  sees {σ f} hf hclean := by
    obtain ⟨hfirst, hsecond⟩ := hclean.of_bind h.steps hlocal
    rw [append_assoc]
    exact (hk _ (hP σ f)).sees (h.sees hf hfirst) hsecond
  reached {σ f} hf o ho := by
    obtain ho | ho := mem_append.1 ho
    · exact (h.reached hf o ho).extend .refl (h.steps σ f) (hlocal _ σ _)
    · exact ((hk _ (hP σ f)).reached (h.fits hf) o ho).extend (h.steps σ f) (hlocal _ σ _) .refl
  allowed {_ σ f} hgoes w hw := by
    obtain hw | hw := mem_append.1 hw
    · exact h.allowed (hgoes.first h.steps hlocal) w hw
    · exact (hk _ (hP σ f)).allowed (hgoes.second h hlocal) w hw

lemma Tracks.bind (h : Tracks outer S Γ c Δ os ws)
    (hk : ∀ a, Tracks outer (S.binding Δ.names) (Δ ++ Γ) (k a) Δ' os' ws') :
    Tracks outer S Γ (c >>= k) (Δ' ++ Δ) (os ++ os') (ws ++ ws') :=
  h.bind_of (P := fun _ => True) (fun _ _ => trivial) (fun a => (hk a).steps) fun a _ => hk a

lemma Plain.tracks_of (h : Plain c)
    (hos : ∀ σ f, f.symbols.Fits σ.module outer S → ∀ o ∈ os, o.Reached outer σ f (c σ f).2)
    (hws : ∀ types σ f, Goes types Γ c σ f → ∀ w ∈ ws, w.Allowed types) : Tracks outer S Γ c [] os ws where
  steps := h.steps
  table {σ f} hf := by
    rw [h.symbols σ f]
    exact .refl _
  fits {σ f} hf := by
    rw [h.symbols σ f]
    exact hf
  sees {σ f} hf _ := by
    rw [h.symbols σ f]
    exact hf
  reached {σ f} := hos σ f
  allowed {types σ f} := hws types σ f

lemma Plain.tracks (h : Plain c) : Tracks outer S Γ c [] [] [] :=
  h.tracks_of (fun _ _ _ _ ho => by cases ho) fun _ _ _ _ _ hw => by cases hw

lemma Tracks.after (h : Tracks outer S Γ c Δ os ws) (hk : ∀ a, Plain (k a)) :
    Tracks outer S Γ (c >>= k) Δ os ws := by
  simpa using h.bind fun a => (hk a).tracks

lemma Tracks.andThen (h : Tracks outer S Γ c [] os ws) (hk : ∀ a, Tracks outer S Γ (k a) Δ os' ws') :
    Tracks outer S Γ (c >>= k) Δ (os ++ os') (ws ++ ws') := by
  simpa using h.bind hk

lemma Plain.beforeTracks (h : Plain c) (hk : ∀ a, Tracks outer S Γ (k a) Δ os ws) :
    Tracks outer S Γ (c >>= k) Δ os ws := by
  simpa using h.tracks.bind hk

lemma Tracks.restores (h : Tracks outer S Γ c Δ os ws) {kind σ} {f : Findings} (hf : f.symbols.Open) :
    f.symbols.Restores (inScope kind c σ f).2.symbols :=
  (h.table (σ := σ) (f := f.enter kind) (SymbolTable.isOpen_enter _ kind)).restores_leave hf

lemma Tracks.scoped {kind} (h : Tracks outer (S.entering kind) Γ c Δ os ws) :
    Tracks outer S Γ (inScope kind c) [] os ws := by
  refine ⟨h.steps.inScope kind, fun hf => (h.restores hf).toExtends, fun {σ f} hf => ?_, fun {σ f} hf hclean => ?_,
    fun {σ f} hf o ho => ?_, fun hgoes => h.allowed hgoes.inner⟩
  · have hafter := h.fits (σ := σ) (f := f.enter kind) (hf.enter kind)
    exact hf.of_restores (h.restores hf.isOpen) hafter.sound.leave
  · have hafter := h.sees (σ := σ) (f := f.enter kind) (hf.enter kind) hclean
    exact hf.of_restores (h.restores hf.isOpen) hafter.sound.leave
  · have hreached := h.reached (σ := σ) (f := f.enter kind) (hf.enter kind) o ho
    exact hreached.extend (.single (.enter f kind)) (h.steps σ _) (.single (.leave _))

lemma Tracks.withFunction (h : Tracks outer S Γ c Δ os ws) (context : Setting → Option FunctionContext) :
    Tracks outer S Γ (withReader (fun σ => { σ with function := context σ }) c) Δ os ws where
  steps := h.steps.withReader _
  table {σ _} hf := h.table (σ := { σ with function := context σ }) hf
  fits {σ _} hf := h.fits (σ := { σ with function := context σ }) hf
  sees {σ _} hf hclean := h.sees (σ := { σ with function := context σ }) hf hclean
  reached {σ _} hf o ho :=
    have hreached := h.reached (σ := { σ with function := context σ }) hf o ho
    ⟨hreached.expr, hreached.stmt, hreached.site⟩
  allowed {_ σ _} hgoes :=
    h.allowed (σ := { σ with function := context σ }) ⟨hgoes.sees, hgoes.clean, hgoes.noted⟩

lemma Tracks.congr {S' : Surroundings} {Γ'} (h : Tracks outer S' Γ' c Δ os ws)
    (hlocals : ∀ name, name ∈ S'.locals ↔ name ∈ S.locals) (hmarked : S'.isUnsafe = S.isUnsafe)
    (hloop : S'.inLoop = S.inLoop) (hmutable : ∀ name, Γ'.Mutable name ↔ Γ.Mutable name) :
    Tracks outer S Γ c Δ os ws := by
  have hfits {module : String} {t : SymbolTable} (ht : t.Fits module outer S) : t.Fits module outer S' :=
    ht.congr hlocals hmarked hloop
  have hsees {module : String} {t : SymbolTable} (ht : t.Sees module Γ) : t.Sees module Γ' :=
    ht.mono fun name => (hmutable name).mpr
  refine ⟨h.steps, h.table, fun hf => ?_, fun hf hclean => ?_, fun hf => h.reached (hfits hf),
    fun hgoes => h.allowed ⟨hsees hgoes.sees, hgoes.clean, hgoes.noted⟩⟩
  · refine (h.fits (hfits hf)).congr (fun name => ?_) hmarked.symm hloop.symm
    simp only [Surroundings.binding, mem_append, hlocals]
  · refine (h.sees (hsees hf) hclean).mono fun name => ?_
    rw [mutable_append, mutable_append, hmutable]
    exact id

/-- A step that defines a symbol and may report that it cannot. -/
lemma tracks_of_define {s mutable} {k : Except Span Nat → Check Unit} (hlocal : s.kind.isLocal = true)
    (hk : ∀ r, Plain (k r))
    (hsees : ∀ σ f, f.symbols.Sees σ.module Γ → Clean (define s >>= k) σ f →
      (define s σ f).2.symbols.Sees σ.module ((s.name, mutable) :: Γ)) :
    Tracks outer S Γ (define s >>= k) [(s.name, mutable)] [] [] := by
  have hsymbols (σ : Setting) (f : Findings) : ((define s >>= k) σ f).2.symbols = (define s σ f).2.symbols :=
    (hk _).symbols σ _
  refine ⟨(local_define hlocal).bind fun r => (hk r).steps, fun {σ f} hf => ?_, fun {σ f} hf => ?_,
    fun {σ f} hf hclean => hsymbols σ f ▸ hsees σ f hf hclean, fun _ _ ho => (by cases ho),
    fun _ _ hw => (by cases hw)⟩
  · rw [hsymbols]
    cases hdefine : f.symbols.define s with
    | ok p =>
      rw [run_define_ok hdefine]
      exact SymbolTable.extends_define hdefine
    | error previous =>
      rw [run_define_error hdefine]
      exact .refl _
  · rw [hsymbols]
    cases hdefine : f.symbols.define s with
    | ok p =>
      rw [run_define_ok hdefine]
      exact hf.define hdefine hlocal
    | error previous =>
      rw [run_define_error hdefine]
      obtain ⟨id, hid⟩ := SymbolTable.define_eq_error hdefine
      exact hf.taken hid

lemma tracks_declare (name type mutable origin span) :
    Tracks outer S Γ (declare (.local name type mutable origin span)) [(name, mutable)] [] [] := by
  refine tracks_of_define rfl (fun r => ?_) fun σ f hf hclean => ?_
  · cases r with
    | ok id => exact plain_pure ()
    | error previous => exact plain_report _ _
  · cases hdefine : f.symbols.define (.local name type mutable origin span) with
    | ok p =>
      rw [run_define_ok hdefine]
      refine hf.define hdefine rfl ?_ fun x hne hx => ?_
      · rintro (rfl : mutable = true)
        exact lookup_cons_self
      · rw [Mutable, lookup_cons, beq_false_of_ne hne]
        exact hx
    | error previous =>
      rw [Clean, run_bind, run_define_error hdefine] at hclean
      exact absurd hclean not_clean_report

/-- Where no variable may change, a name may be taken. -/
lemma tracks_declareFirst {s} (hlocal : s.kind.isLocal = true) (hfixed : s.kind.isMutable = false)
    (names) : Tracks outer S (.fixed names) (declareFirst s) (.fixed [s.name]) [] [] := by
  refine tracks_of_define hlocal (fun _ => plain_pure ()) fun σ f hf _ => ?_
  have hnone {name : String} (h : f.symbols.Mutable name) : False :=
    not_mutable_fixed names name (hf.mutable name h)
  cases hdefine : f.symbols.define s with
  | ok p =>
    rw [run_define_ok hdefine]
    exact hf.define hdefine hlocal (by simp [hfixed]) fun x _ hx => absurd hx (not_mutable_fixed names x)
  | error previous =>
    rw [run_define_error hdefine]
    exact { hf with mutable := fun name hname => (hnone hname).elim }

lemma Tracks.bind_fixed {l l'} (h : Tracks outer S (.fixed l) c (.fixed l') [] [])
    (hk : ∀ a, Tracks outer (S.binding l') (.fixed (l' ++ l)) (k a) Δ os ws) :
    Tracks outer S (.fixed l) (c >>= k) (Δ ++ .fixed l') os ws :=
  h.bind fun a => by
    rw [names_fixed, ← fixed_append]
    exact hk a

lemma tracks_forM_names {l : List α} {k name}
    (h : ∀ S names a, Tracks outer S (.fixed names) (k a) (.fixed [name a]) [] []) (S names) :
    Tracks outer S (.fixed names) (l.forM k) (.fixed (l.map name).reverse) [] [] := by
  induction l generalizing S names with
  | nil => exact (plain_pure ()).tracks
  | cons a l ih =>
    rw [map_cons, reverse_cons, fixed_append]
    exact (h S names a).bind_fixed fun _ => ih _ _

end Check

section Statements

variable {outer : SymbolTable} {S : Surroundings} {Γ : Locals}

/-! ### Expressions in statements -/

section

variable (hS : S.site = none)

include hS

lemma tracks_checkExpr (e expected) :
    Tracks outer S Γ (checkExpr e expected) [] (e.occurrences S) (e.written Γ) := by
  refine (plain_checkExpr e expected).tracks_of (fun σ f hf o ho => ?_) fun types σ f hgoes w hw => ?_
  · exact (reaches_checkExpr hS e o ho f expected).reached (hf.cover (e.inside_occurrences S o ho).toCovers)
  · obtain ⟨place, hplace, rfl⟩ := mem_map.1 hw
    have hpassed : Passed σ f.symbols types (checkExpr e expected) := ⟨f, rfl, hgoes.clean, hgoes.noted⟩
    exact .of_sees hgoes.sees (writable_of_borrowed hpassed place hplace)

lemma tracks_resolveType (type) :
    Tracks outer S Γ (resolveType type) [] (type.occurrences (S.within (.types [type]))) [] := by
  refine (infers_resolveType type).plain.tracks_of (fun σ f hf o ho => ?_) fun _ _ _ _ _ hw => by cases hw
  have hsite : (S.within (.types [type])).site = some (.types [type]) := by rw [Surroundings.within, hS]
  have hin := type.inside_occurrences _ o ho
  have hreached : o.ReachedIn σ f (resolveType type σ f).2 :=
    reachedIn_site hsite (by simpa [ConstantSite.occurrences, TypeExpr.listOccurrences] using ho) hin
      fun _ => ⟨f, rfl, .refl, local_resolveType type σ f, .refl⟩
  exact hreached.reached ((hf.cover (S.covers_within _)).cover hin.toCovers)

lemma tracks_checkLet (annotations mutable name type value) :
    Tracks outer S Γ (checkLet annotations mutable name type value) [(name.node, mutable)]
      (annotations.map (⟨S, .directive ·⟩) ++ type.occurrences (S.within (.types [type])) ++ value.occurrences S)
      (value.written Γ) := by
  rw [append_assoc]
  refine Tracks.also ?_ ?_
  · rw [← append_nil (value.occurrences S), ← append_nil (value.written Γ)]
    refine (tracks_resolveType hS type).andThen fun t => (tracks_checkExpr hS value (some t)).andThen fun actual => ?_
    refine (plain_expectType _ _ _ _).beforeTracks fun _ => ?_
    refine (plain_checkAnnotations _ _ _).beforeTracks fun _ => ?_
    refine (infers_checkOwnership _ _ _).plain.beforeTracks fun _ => ?_
    exact tracks_declare _ _ _ _ _
  · intro o ho
    obtain ⟨a, -, rfl⟩ := mem_map.1 ho
    exact ⟨hS, fun _ => Node.noConfusion, fun _ => Node.noConfusion⟩

lemma tracks_checkAssign (span target value) :
    Tracks outer S Γ (checkAssign span target value) [] (target.occurrences S ++ value.occurrences S)
      (⟨Γ, target⟩ :: (target.written Γ ++ value.written Γ)) := by
  have hplain := plain_checkAssigned target value
  have hplace := plain_checkPlace target span .assign
  have hassigned : Tracks outer S Γ (checkAssigned target value) [] _ _ :=
    (tracks_checkExpr hS target none).andThen fun _ => (tracks_checkExpr hS value _).after fun _ =>
      plain_expectType _ _ _ _
  have hassign := hassigned.after fun _ => hplace
  rw [checkAssign_eq]
  refine { hassign with allowed := fun {types σ f} hgoes => forall_mem_cons.2 ⟨?_, hassign.allowed hgoes⟩ }
  have hlast := hgoes.second hassigned fun _ => hplace.steps
  have hrest (t : Ty) : Local (checkExpr value (some t) >>= fun actual => expectType t actual value.span) :=
    (local_checkExpr value _).bind fun _ => local_reportIf _ _ _
  have htarget := (hgoes.first hplain.steps fun _ => hplace.steps).first (local_checkExpr target none) hrest
  -- The target is a place by what is known after both sides were checked.
  have hpassed : Passed σ (checkAssigned target value σ f).2.symbols
      (checkAssigned target value σ f).2.exprTypes (checkExpr target none) :=
    ⟨f, (hplain.symbols σ f).symm, htarget.clean, (hrest _ σ _).exprTypes_suffix.subset⟩
  refine .of_sees hlast.sees fun hroot => ?_
  have hwritable := writable_of_placeProblem? target none hroot hpassed (clean_checkPlace_iff.1 hlast.clean)
  have hnoted : (checkAssigned target value σ f).2.exprTypes ⊆ types :=
    List.Subset.trans (hplace.steps σ _).exprTypes_suffix.subset hlast.noted
  exact hwritable.mono hnoted fun _ h => h

lemma tracks_checkReturn (value) :
    Tracks outer S Γ (checkReturn value) [] (value.occurrences S) (value.written Γ) := by
  refine plain_read.beforeTracks fun σ => ?_
  split
  · exact (tracks_checkExpr hS value _).after fun _ => plain_expectType _ _ _ _
  · exact (tracks_checkExpr hS value _).after fun _ => plain_pure _

lemma tracks_checkSpawned (call) :
    Tracks outer S Γ (checkSpawned call) [] (call.occurrences S) (call.written Γ) :=
  (plain_reportIf _ _ _).beforeTracks fun _ => tracks_checkExpr hS call none

lemma tracks_checkIterable (iterable) :
    Tracks outer S Γ (checkIterable iterable) [] (iterable.occurrences S) (iterable.written Γ) := by
  refine (tracks_checkExpr hS iterable none).after fun t => ?_
  split
  · exact plain_pure _
  · exact plain_pure _
  · exact plain_pure _
  · exact plain_pure _
  · exact plain_refuse _ _

end

/-! ### Patterns -/

mutual

lemma Pattern.exists_of_mem_nodes (p : Pattern) : ∀ n ∈ p.nodes, ∃ q, n = .pattern q := by
  match p with
  | .wildcard _ | .binding .. | .literal .. => simp [Pattern.nodes]
  | .variant _ _ _ ps | .tuple _ ps => simpa [Pattern.nodes] using Pattern.exists_of_mem_listNodes ps

lemma Pattern.exists_of_mem_listNodes (ps) : ∀ n ∈ Pattern.listNodes ps, ∃ q, n = .pattern q := by
  match ps with
  | [] => simp [Pattern.listNodes]
  | p :: ps =>
    rw [Pattern.listNodes]
    exact forall_mem_append.2 ⟨p.exists_of_mem_nodes, Pattern.exists_of_mem_listNodes ps⟩

end

lemma isOther_pattern (hS : S.site = none) (p : Pattern) :
    ∀ o ∈ p.nodes.map (⟨S, ·⟩ : Node → Occurrence), o.IsOther := by
  intro o ho
  obtain ⟨n, hn, rfl⟩ := mem_map.1 ho
  obtain ⟨q, rfl⟩ := p.exists_of_mem_nodes n hn
  exact ⟨hS, fun _ => Node.noConfusion, fun _ => Node.noConfusion⟩

mutual

lemma tracks_checkPattern {S Γ} (expected p) : Tracks outer S Γ (checkPattern expected p) p.bound [] [] := by
  match p with
  | .wildcard _ => exact (plain_pure ()).tracks
  | .binding .. => exact tracks_declare _ _ _ _ _
  | .literal span value =>
    exact (infers_checkPatternLiteral span value expected).plain.tracks
  | .tuple span elems =>
    have htypes := (infers_tuplePatternTypes span elems.length (Frame.admits_alone expected)).plain
    rw [Pattern.bound, ← append_nil (Pattern.allBound elems)]
    exact htypes.tracks.bind_of (length_tuplePatternTypes span elems.length expected)
      (fun ts => local_checkPatterns ts elems) fun ts hts => tracks_checkPatterns hts
  | .variant span enum variant args =>
    have htypes := (infers_variantPatternTypes span enum variant args.length (Frame.admits_alone expected)).plain
    rw [Pattern.bound, ← append_nil (Pattern.allBound args)]
    exact htypes.tracks.bind_of (length_variantPatternTypes span enum variant args.length expected)
      (fun ts => local_checkPatterns ts args) fun ts hts => tracks_checkPatterns hts

lemma tracks_checkPatterns {S Γ ts ps}
    (h : ps.length ≤ ts.length) : Tracks outer S Γ (checkPatterns ts ps) (Pattern.allBound ps) [] [] := by
  match ps, ts with
  | [], _ => exact (plain_pure ()).tracks
  | p :: ps, t :: ts =>
    have hrest : ps.length ≤ ts.length := Nat.le_of_succ_le_succ h
    exact (tracks_checkPattern t p).bind fun _ => tracks_checkPatterns hrest

end

lemma tracks_checkArmPattern (t p) : Tracks outer S Γ (checkArmPattern t p) p.bound [] [] :=
  plain_problemCount.beforeTracks fun _ => (tracks_checkPattern t p).after fun _ =>
    plain_problemCount.bind fun _ => plain_pure _

/-! ### Statements -/

lemma Check.Tracks.stmt {s Δ os ws} (hS : S.site = none)
    (h : Tracks outer S Γ (checkStmt s) Δ os ws) :
    Tracks outer S Γ (checkStmt s) Δ (⟨S, .stmt s⟩ :: os) ws := by
  refine { h with reached := fun {σ f} hf => forall_mem_cons.2 ⟨?_, h.reached hf⟩ }
  refine ⟨fun _ => Node.noConfusion, fun s' hs' => ?_, fun site hsite => by simp [hS] at hsite⟩
  cases hs'
  exact ⟨σ.function, f, hf, .refl, h.steps σ f, .refl⟩

mutual

lemma tracks_checkStmt {S Γ} (hS : S.site = none) (s : Stmt) :
    Tracks outer S Γ (checkStmt s) s.bound (⟨S, .stmt s⟩ :: s.occurrences S) (s.written Γ) := by
  refine Tracks.stmt hS ?_
  match s with
  | .letBinding .. => exact tracks_checkLet hS _ _ _ _ _
  | .assign .. => exact tracks_checkAssign hS _ _ _
  | .returnValue .. => exact tracks_checkReturn hS _
  | .ifThen _ condition body otherwise =>
    rw [Stmt.occurrences, append_assoc]
    refine ((tracks_checkExpr hS condition _).after fun _ => plain_expectType _ _ _ _).andThen fun _ => ?_
    exact Tracks.andThen (.scoped (tracks_checkStmts hS body)) fun _ => tracks_checkElse hS otherwise
  | .ifLet _ pattern value body otherwise =>
    rw [Stmt.occurrences, append_assoc, append_assoc]
    refine Tracks.also ?_ (isOther_pattern hS pattern)
    refine (tracks_checkExpr hS value none).andThen fun t => ?_
    refine Tracks.andThen ?_ fun _ => tracks_checkElse hS otherwise
    exact .scoped ((tracks_checkPattern t pattern).bind fun _ => tracks_checkStmts (S := S.binding _) hS body)
  | .forIn _ binding iterable body =>
    refine (tracks_checkIterable hS iterable).andThen fun t => ?_
    exact .scoped ((tracks_declare _ _ _ _ _).bind fun _ => tracks_checkStmts (S := S.looping.binding _) hS body)
  | .matchOn span scrutinee arms =>
    refine (tracks_checkExpr hS scrutinee none).andThen fun t => (tracks_checkArms hS t arms).after fun fine => ?_
    split
    · exact (infers_checkCoverage _ _ (Frame.admits_alone _)).plain
    · exact plain_pure ()
  | .spawn _ call => exact (tracks_checkSpawned hS call).after fun _ => plain_pure ()
  | .spawnWithHandle _ handle call =>
    rw [Stmt.occurrences, Stmt.written, ← append_nil (call.occurrences S), ← append_nil (call.written Γ)]
    exact (tracks_checkSpawned hS call).andThen fun t => tracks_declare _ _ _ _ _
  | .unsafeBlock _ body => exact .scoped (tracks_checkStmts (S := S.unsafely) hS body)
  | .block _ body => exact .scoped (tracks_checkStmts hS body)
  | .breakLoop _ | .continueLoop _ => exact ((plain_inside .loop).bind fun _ => plain_reportIf _ _ _).tracks
  | .expr _ value => exact (tracks_checkExpr hS value none).after fun _ => plain_pure ()

lemma tracks_checkStmts {S Γ} (hS : S.site = none) (ss) :
    Tracks outer S Γ (checkStmts ss) (Stmt.allBound ss) (Stmt.listOccurrences S ss) (Stmt.allWritten Γ ss) := by
  match ss with
  | [] => exact (plain_pure ()).tracks
  | s :: ss =>
    rw [Stmt.listOccurrences]
    exact (tracks_checkStmt hS s).bind fun _ => tracks_checkStmts (S := S.binding _) hS ss

lemma tracks_checkElse {S Γ} (hS : S.site = none) (e) :
    Tracks outer S Γ (checkElse e) e.bound (e.occurrences S) (e.written Γ) := by
  match e with
  | .absent => exact (plain_pure ()).tracks
  | .block body => exact .scoped (tracks_checkStmts hS body)
  | .elseIf s => exact tracks_checkStmt hS s

lemma tracks_checkArmBody {S Γ} (hS : S.site = none) (b) :
    Tracks outer S Γ (checkArmBody b) b.bound (b.occurrences S) (b.written Γ) := by
  match b with
  | .block body => exact tracks_checkStmts hS body
  | .expr value => exact (tracks_checkExpr hS value none).after fun _ => plain_pure ()

lemma tracks_checkArm {S Γ} (hS : S.site = none) (t) (a : MatchArm) :
    Tracks outer S Γ (checkArm t a) [] (a.occurrences S) (a.written Γ) := by
  match a with
  | .mk _ pattern body =>
    rw [MatchArm.occurrences]
    refine Tracks.also ?_ (isOther_pattern hS pattern)
    exact .scoped ((tracks_checkArmPattern t pattern).bind fun fine =>
      (tracks_checkArmBody (S := S.binding _) hS body).after fun _ => plain_pure fine)

lemma tracks_checkArms {S Γ} (hS : S.site = none) (t as) :
    Tracks outer S Γ (checkArms t as) [] (MatchArm.listOccurrences S as) (MatchArm.allWritten Γ as) := by
  match as with
  | [] => exact (plain_pure true).tracks
  | a :: as =>
    exact (tracks_checkArm hS t a).andThen fun fine => (tracks_checkArms hS t as).after fun _ => plain_pure _

end

/-! ### Bodies -/

/-- The names that a body starts with, the last first. -/
def FunctionDecl.startingNames (decl : FunctionDecl) (sig : Signature) (owner : Option Owner) : List String :=
  ((decl.params.zip sig.params).map (·.2.1)).reverse ++ decl.receiver.toList.map (fun _ => "self") ++
    (decl.typeParams.map (·.node)).reverse ++ ((owner.map (·.info.typeParams)).getD []).reverse

section

variable {names : List String}

lemma tracks_declareReceiver (owner span) :
    Tracks outer S (.fixed names) (declareReceiver owner span) (.fixed ["self"]) [] [] := by
  have hdeclare (t : Ty) : Tracks outer S (.fixed names) (declareFirst (.local "self" t false .selfParam span))
      (.fixed ["self"]) [] [] := tracks_declareFirst rfl rfl names
  unfold declareReceiver
  split
  · exact hdeclare _
  · exact (plain_refuse _ _).beforeTracks fun t => hdeclare t

lemma tracks_declareParam (p name t) : Tracks outer S (.fixed names) (declareParam p name t) (.fixed [name]) [] [] :=
  (plain_checkAnnotations _ _ _).beforeTracks fun _ =>
    tracks_declareFirst rfl rfl names

lemma tracks_declareTypeParam (p) :
    Tracks outer S (.fixed names) (declareFirst (typeParamSymbol p)) (.fixed [p.node]) [] [] :=
  tracks_declareFirst rfl rfl names

end

lemma tracks_checkBodyScope {decl : FunctionDecl} {sig owner names}
    (hnames : ∀ name, name ∈ names ↔ name ∈ decl.startingNames sig owner) :
    Tracks outer { locals := [] } [] (checkBodyScope decl sig owner)
      (Stmt.allBound decl.body ++ .fixed (decl.startingNames sig owner))
      (Stmt.listOccurrences { locals := names } decl.body) (Stmt.allWritten [] decl.body) := by
  have howner (S : Surroundings) : Tracks outer S (.fixed [])
      (((owner.map (·.info.typeParams)).getD []).forM fun p => declareFirst (typeParamSymbol ⟨p, decl.name.span⟩))
      (.fixed ((owner.map (·.info.typeParams)).getD []).reverse) [] [] := by
    simpa using tracks_forM_names (fun _ _ p => tracks_declareTypeParam ⟨p, decl.name.span⟩) S []
  have htypes (S : Surroundings) (l : List String) : Tracks outer S (.fixed l)
      (decl.typeParams.forM fun p => declareFirst (typeParamSymbol p))
      (.fixed (decl.typeParams.map (·.node)).reverse) [] [] :=
    tracks_forM_names (fun _ _ p => tracks_declareTypeParam p) S l
  have hreceiver (S : Surroundings) (l : List String) : Tracks outer S (.fixed l)
      (decl.receiver.forM (declareReceiver owner)) (.fixed (decl.receiver.toList.map fun _ => "self")) [] [] := by
    cases decl.receiver with
    | none => exact (plain_pure ()).tracks
    | some span => exact tracks_declareReceiver owner span
  have hparams (S : Surroundings) (l : List String) : Tracks outer S (.fixed l)
      ((decl.params.zip sig.params).forM fun p => declareParam p.1 p.2.1 p.2.2)
      (.fixed ((decl.params.zip sig.params).map (·.2.1)).reverse) [] [] :=
    tracks_forM_names (fun _ _ p => tracks_declareParam p.1 p.2.1 p.2.2) S l
  have hbody (S : Surroundings) (hlocals : S.locals = decl.startingNames sig owner) (hmarked : S.isUnsafe = false)
      (hloop : S.inLoop = false) (l : List String) := by
    have hstmts : Tracks outer { locals := names } [] (checkStmts decl.body) (Stmt.allBound decl.body)
        (Stmt.listOccurrences { locals := names } decl.body) (Stmt.allWritten [] decl.body) :=
      tracks_checkStmts rfl decl.body
    exact (Tracks.congr (S := S) (Γ := .fixed l) hstmts (fun name => by rw [hlocals, hnames]) hmarked.symm hloop.symm
      fun name => iff_of_false (not_mutable_fixed [] name) (not_mutable_fixed l name)).withFunction
        fun _ => some ⟨decl.name.node, sig.returnType⟩
  rw [FunctionDecl.startingNames, fixed_append, fixed_append, fixed_append, ← append_assoc,
    ← append_assoc, ← append_assoc]
  refine (howner _).bind_fixed fun _ => (htypes _ _).bind_fixed fun _ => (hreceiver _ _).bind_fixed fun _ =>
    (hparams _ _).bind_fixed fun _ => ?_
  exact hbody _ (by simp [Surroundings.binding, FunctionDecl.startingNames]) rfl rfl _

end Statements

/-! ### Between declarations -/

/-- Nothing is in scope that was not before the first declaration. -/
structure SymbolTable.Between (t : SymbolTable) (module : String) (outer : SymbolTable) : Prop where
  atModule : outer.AtModule module
  sound : t.Sound module
  restores : outer.Restores t

lemma SymbolTable.AtModule.isOpen {module} {t : SymbolTable} (h : t.AtModule module) : t.Open := by
  rw [Open, h.current]
  exact (Array.getElem?_eq_some_iff.1 (Option.isSome_iff_exists.1 h.scope).choose_spec).1

namespace SymbolTable.Between

variable {module : String} {outer t t' : SymbolTable}

lemma isOpen (h : t.Between module outer) : t.Open :=
  h.restores.isOpen h.atModule.isOpen

lemma of_restores (h : t.Between module outer) (hr : Restores t t') (hsound : t'.Sound module) :
    t'.Between module outer :=
  ⟨h.atModule, hsound, h.restores.trans hr⟩

lemma enter (h : t.Between module outer) {kind} (hkind : kind = .method ∨ kind = .function) :
    (t.enter kind).Fits module outer { locals := [] } where
  sound := h.sound.enter kind
  isOpen := isOpen_enter t kind
  isUnsafe := by
    rw [inside_enter h.isOpen kind .unsafeBlock (by decide)]
    obtain rfl | rfl := hkind <;> rfl
  inLoop := by
    rw [inside_enter h.isOpen kind .loop (by decide)]
    obtain rfl | rfl := hkind <;> rfl
  inner name id s hid := by simp [lookupLocal_enter] at hid
  bound name hname := absurd hname not_mem_nil
  others name _ :=
    (symbol?_enter h.isOpen kind name).trans (h.restores.symbol? h.atModule.sound h.atModule.isOpen name)

end SymbolTable.Between

namespace Check

variable {α β : Type} {outer : SymbolTable} {os : List Occurrence} {c : Check α} {k : α → Check β}

/-- A step between declarations that checks the given parts. -/
structure Checks (outer : SymbolTable) (c : Check α) (os : List Occurrence) : Prop where
  steps : Local c
  between : ∀ {σ : Setting} {f : Findings}, f.symbols.Between σ.module outer →
    (c σ f).2.symbols.Between σ.module outer
  reached : ∀ {σ : Setting} {f : Findings}, f.symbols.Between σ.module outer →
    ∀ o ∈ os, o.Reached outer σ f (c σ f).2

lemma Checks.nil (h : Checks outer c os) : Checks outer c [] :=
  { h with reached := fun _ _ ho => absurd ho not_mem_nil }

lemma Plain.checks (h : Plain c) : Checks outer c [] where
  steps := h.steps
  between {σ f} hf := by
    rw [h.symbols σ f]
    exact hf
  reached _ _ ho := absurd ho not_mem_nil

lemma Checks.after (h : Checks outer c os) (hk : ∀ a, Plain (k a)) : Checks outer (c >>= k) os where
  steps := h.steps.bind fun a => (hk a).steps
  between {σ f} hf := (hk (c σ f).1).checks.between (h.between hf)
  reached {σ f} hf o ho := (h.reached hf o ho).extend .refl (h.steps σ f) ((hk _).steps σ _)

lemma Plain.beforeChecks (h : Plain c) (hk : ∀ a, Checks outer (k a) os) : Checks outer (c >>= k) os where
  steps := h.steps.bind fun a => (hk a).steps
  between {σ f} hf := (hk (c σ f).1).between (h.checks.between hf)
  reached {σ f} hf o ho := ((hk _).reached (h.checks.between hf) o ho).extend (h.steps σ f) ((hk _).steps σ _) .refl

lemma checks_forM {l : List α} {k} (h : ∀ a, Checks outer (k a) []) : Checks outer (l.forM k) [] := by
  induction l with
  | nil => exact (plain_pure ()).checks
  | cons a l ih =>
    refine ⟨(h a).steps.bind fun _ => ih.steps, fun {σ f} hf => ih.between ((h a).between hf), ?_⟩
    exact fun _ _ ho => absurd ho not_mem_nil

lemma Tracks.checks {kind Γ Δ ws} (hkind : kind = .method ∨ kind = .function)
    (h : Tracks outer { locals := [] } Γ c Δ os ws) : Checks outer (inScope kind c) os := by
  refine ⟨h.steps.inScope kind, fun {σ f} hf => ?_, fun {σ f} hf o ho => ?_⟩
  · have hafter := h.fits (σ := σ) (f := f.enter kind) (hf.enter hkind)
    exact hf.of_restores (h.restores hf.isOpen) hafter.sound.leave
  · have hreached := h.reached (σ := σ) (f := f.enter kind) (hf.enter hkind) o ho
    exact hreached.extend (.single (.enter f kind)) (h.steps σ _) (.single (.leave _))

lemma Checks.of_forM {k : α → Check Unit} (hk : ∀ a, Checks outer (k a) []) {l : List α} {σ f}
    (hf : f.symbols.Between σ.module outer) {a} (ha : a ∈ l) :
    ∃ g, Findings.Steps f g ∧ g.symbols.Between σ.module outer ∧
      Findings.Steps (k a σ g).2 ((l.forM k) σ f).2 := by
  induction l generalizing f with
  | nil => exact absurd ha not_mem_nil
  | cons b l ih =>
    have hrest : Local (l.forM k) := local_forM fun a _ => (hk a).steps
    obtain rfl | ha := mem_cons.1 ha
    · exact ⟨f, .refl, hf, hrest σ _⟩
    · obtain ⟨g, hsteps, hg, hafter⟩ := ih ((hk b).between hf) ha
      exact ⟨g, ((hk b).steps σ f).trans hsteps, hg, hafter⟩

end Check

lemma checks_checkBody {outer decl sig owner names}
    (hnames : ∀ name, name ∈ names ↔ name ∈ decl.startingNames sig owner) :
    Checks outer (checkBody decl sig owner) (Stmt.listOccurrences { locals := names } decl.body) := by
  refine ((tracks_checkBodyScope hnames).checks ?_).after fun _ => ?_
  · split
    · exact .inl rfl
    · exact .inr rfl
  · refine Plain.bind ?_ fun _ => plain_get.bind fun _ => plain_reportIf _ _ _
    exact (infers_checkConstantTime _ _).plain

end SourceCheck
