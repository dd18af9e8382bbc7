import SourceCheck.Proofs.Analysis.Folded

/-!
# The table of constants

Values get into the table when constants are folded, which may be before their types are looked at. A value that does
not fit stays there, and others are computed from it, but a problem is noted.
-/

namespace SourceCheck

open Check List Findings SymbolTable

/-! ### One value for each name -/

/-- Names have one value, and only if they were folded. -/
structure Findings.Orderly (f : Findings) : Prop where
  fresh : ∀ {name}, f.folding.lookup name ≠ some .finished → f.constValues.lookup name = none
  agree : ∀ p ∈ f.constValues, f.constValues.lookup p.1 = some p.2

lemma lookup_cons_of_lookup {values : List (String × ConstValue)} {name v}
    (h : values.lookup name = some v) (other) : ((name, v) :: values).lookup other = values.lookup other := by
  rw [lookup_cons]
  by_cases hname : other = name
  · rw [hname, beq_self_eq_true, h]
  · rw [beq_false_of_ne hname]

lemma mem_of_lookup {α β : Type} [BEq α] [LawfulBEq α] {l : List (α × β)} {key v}
    (h : l.lookup key = some v) : (key, v) ∈ l := by
  obtain ⟨l₁, l₂, rfl, -⟩ := lookup_eq_some_iff.1 h
  simp

namespace Findings.Orderly

variable {f g : Findings}

lemma finished (h : f.Orderly) {name v} (hv : f.constValues.lookup name = some v) :
    f.folding.lookup name = some .finished := by
  by_contra hnot
  rw [h.fresh hnot] at hv
  cases hv

lemma step (h : f.Orderly) (hstep : Step f g) : g.Orderly := by
  cases hstep with
  | @start name hfree =>
    refine ⟨fun {other} hother => h.fresh fun hfinished => hother ?_, h.agree⟩
    have hne : other ≠ name := by
      rintro rfl
      rw [hfree] at hfinished
      cases hfinished
    rw [lookup_cons, beq_false_of_ne hne, hfinished]
  | @finish name v hstarted =>
    refine ⟨fun {other} hother => ?_, fun p hp => ?_⟩
    · have hne : other ≠ name := by
        rintro rfl
        exact hother (f.lookup_finish v)
      rw [(f.lookup_finish_of_ne v hne).1] at hother
      rw [(f.lookup_finish_of_ne v hne).2, h.fresh hother]
    · -- The name had no value before.
      have hnone : f.constValues.lookup name = none := h.fresh (by simp [hstarted])
      have hold (hp : p ∈ f.constValues) : (f.finish name v).constValues.lookup p.1 = some p.2 := by
        have hne : p.1 ≠ name := by
          intro hname
          have hagree := h.agree p hp
          rw [hname, hnone] at hagree
          cases hagree
        rw [(f.lookup_finish_of_ne v hne).2, h.agree p hp]
      cases v with
      | none => exact hold hp
      | some v =>
        obtain rfl | hp := mem_cons.1 hp
        · exact lookup_cons_self
        · exact hold hp
  | @value name v hvalue =>
    refine ⟨fun hother => (lookup_cons_of_lookup hvalue _).trans (h.fresh hother), fun p hp => ?_⟩
    rw [lookup_cons_of_lookup hvalue]
    obtain rfl | hp := mem_cons.1 hp
    · exact hvalue
    · exact h.agree p hp
  | _ => exact ⟨h.fresh, h.agree⟩

lemma steps (h : f.Orderly) (hsteps : Steps f g) : g.Orderly := by
  induction hsteps with
  | refl => exact h
  | tail _ hstep ih => exact ih.step hstep

lemma lookup_steps (h : f.Orderly) (hsteps : Steps f g) {name v}
    (hv : f.constValues.lookup name = some v) : g.constValues.lookup name = some v :=
  (hsteps.lookup_finished (h.finished hv)).2.trans hv

lemma lookup_demandConst (h : f.Orderly) (remaining stack name span σ) :
    (demandConst remaining stack name span σ f).2.constValues.lookup name =
      (demandConst remaining stack name span σ f).1 := by
  obtain ⟨-, hdemanded, -⟩ := demanded_demandConst remaining stack name span σ f
  have hlater := h.steps ((local_demandConst remaining stack name span trivial).isLocal σ f)
  by_cases hfinished : (demandConst remaining stack name span σ f).2.folding.lookup name = some .finished
  · exact hdemanded.value hfinished fun hnone => h.fresh (by simp [hnone])
  · rw [hlater.fresh hfinished]
    by_contra hne
    exact hfinished (hdemanded.finished (Ne.symm hne))

end Findings.Orderly

/-! ### Constants that values rest on -/

def Expr.Refers (name : String) : Expr → Prop
  | .ident _ other => other = name
  | .paren _ e | .unary _ _ _ e => e.Refers name
  | .binary _ lhs _ rhs => lhs.Refers name ∨ rhs.Refers name
  | .literal .. | .dotted .. | .sizeof .. => False
  | e => ∃ span, .expr (.ident span name) ∈ e.nodes

def RefersTo (constants : List ConstDecl) (name other : String) : Prop :=
  ∃ c, constants.find? (·.name.node = name) = some c ∧ c.value.Refers other

/-- A declared constant from which no references go on forever. -/
structure Founded (constants : List ConstDecl) (name : String) : Prop where
  declared : ∃ c ∈ constants, c.name.node = name
  acc : Acc (fun other name => RefersTo constants name other) name

lemma lookup_foldWith (remaining stack e) {σ f} (hf : f.Orderly) {v}
    (hv : (foldWith (demandConst remaining) stack e σ f).1 = some v) {name} (hname : e.Refers name) :
    ∃ w, (foldWith (demandConst remaining) stack e σ f).2.constValues.lookup name = some w := by
  have hlocal (e : Expr) (f : Findings) : Steps f (foldWith (demandConst remaining) stack e σ f).2 :=
    (infers_foldWith_all (local_demandConst remaining) stack e).isLocal σ f
  have hfolded (span : Span) (r : Except ArithmeticProblem ConstValue) (f : Findings) :
      Steps f (folded span r σ f).2 := (infers_folded span r).isLocal σ f
  match e with
  | .ident span other =>
    obtain rfl : other = name := hname
    rw [foldWith, foldName, run_kind?_bind] at hv ⊢
    cases hkind : (f.symbols.symbol? other).map (·.kind) with
    | none =>
      rw [hkind] at hv
      cases hv
    | some kind =>
      rw [hkind] at hv
      cases kind with
      | const => exact ⟨v, (hf.lookup_demandConst remaining stack other span σ).trans hv⟩
      | _ => cases hv
  | .paren _ inner => exact lookup_foldWith remaining stack inner hf hv hname
  | .unary span logical pointer operand =>
    rw [foldWith] at hv ⊢
    split at hv
    · cases hv
    · rename_i hpointer
      rw [if_neg hpointer]
      rw [run_bind] at hv ⊢
      cases hr : (foldWith (demandConst remaining) stack operand σ f).1 with
      | none =>
        rw [hr] at hv
        cases hv
      | some w =>
        obtain ⟨x, hx⟩ := lookup_foldWith remaining stack operand hf hr hname
        refine ⟨x, (hf.steps (hlocal operand f)).lookup_steps ?_ hx⟩
        cases logical with
        | none => exact .refl
        | some op => exact hfolded span _ _
  | .binary span lhs op rhs =>
    rw [foldWith, run_bind] at hv ⊢
    cases hl : (foldWith (demandConst remaining) stack lhs σ f).1 with
    | none =>
      rw [hl] at hv
      cases hv
    | some l =>
      rw [hl] at hv
      dsimp only at hv ⊢
      rw [run_bind] at hv ⊢
      have hg := hf.steps (hlocal lhs f)
      have hrhs := hlocal rhs (foldWith (demandConst remaining) stack lhs σ f).2
      cases hr : (foldWith (demandConst remaining) stack rhs σ
        (foldWith (demandConst remaining) stack lhs σ f).2).1 with
      | none =>
        rw [hr] at hv
        cases hv
      | some r =>
        obtain hname | hname := hname
        · obtain ⟨x, hx⟩ := lookup_foldWith remaining stack lhs hf hl hname
          exact ⟨x, hg.lookup_steps (hrhs.trans (hfolded span _ _)) hx⟩
        · obtain ⟨x, hx⟩ := lookup_foldWith remaining stack rhs hg hr hname
          exact ⟨x, (hg.steps hrhs).lookup_steps (hfolded span _ _) hx⟩
  | .literal .. | .dotted .. | .sizeof .. => exact hname.elim
  | .call .. | .assocCall .. | .dottedCall .. | .structLit .. | .await .. | .selfRef .. | .field .. | .tupleIndex ..
  | .index .. | .slice .. | .tuple .. | .array .. | .arrayRepeat .. => cases hv

/-! ### What folding leaves alone -/

/-- A run that gives values only to constants not folded before, if any may be entered, and leaves their symbols
alone. -/
structure Findings.Retains (depth : Nat) (constants : List ConstDecl) (f g : Findings) : Prop where
  entered : ∀ p ∈ g.constValues, p ∈ f.constValues ∨ f.folding.lookup p.1 = none ∧ depth ≠ 0 ∧
    (f.Orderly → (∀ q ∈ f.constValues, Founded constants q.1) → Founded constants p.1)
  folding : ∀ {name}, g.folding.lookup name = none → f.folding.lookup name = none
  symbols : ∀ {id s t v}, s.kind = .const t v → (g.symbols.get? id = some s ↔ f.symbols.get? id = some s)
  orderly : f.Orderly → g.Orderly

section Retains

variable {depth : Nat} {constants : List ConstDecl} {f g : Findings}

lemma Findings.Retains.founded (h : f.Retains depth constants g) (hf : f.Orderly)
    (hall : ∀ p ∈ f.constValues, Founded constants p.1) : ∀ p ∈ g.constValues, Founded constants p.1 := by
  intro p hp
  obtain hp | ⟨-, -, hfounded⟩ := h.entered p hp
  · exact hall p hp
  · exact hfounded hf hall

lemma Findings.Retains.trans {h} (hfg : f.Retains depth constants g) (hgh : g.Retains depth constants h) :
    f.Retains depth constants h where
  entered p hp := by
    obtain hp | ⟨hname, hopen, hfounded⟩ := hgh.entered p hp
    · exact hfg.entered p hp
    · exact .inr ⟨hfg.folding hname, hopen, fun hf hall => hfounded (hfg.orderly hf) (hfg.founded hf hall)⟩
  folding hname := hfg.folding (hgh.folding hname)
  symbols hkind := (hgh.symbols hkind).trans (hfg.symbols hkind)
  orderly hf := hgh.orderly (hfg.orderly hf)

lemma Findings.retains_of_eq (hfolding : g.folding = f.folding) (hvalues : g.constValues = f.constValues)
    (hsymbols : ∀ {id s t v}, s.kind = .const t v → (g.symbols.get? id = some s ↔ f.symbols.get? id = some s)) :
    f.Retains depth constants g where
  entered _ hp := .inl (hvalues ▸ hp)
  folding hname := hfolding ▸ hname
  symbols := hsymbols
  orderly hf := ⟨fun hname => hvalues ▸ hf.fresh (hfolding ▸ hname), hvalues ▸ hf.agree⟩

/-- The frame of a run that leaves folded constants alone. -/
abbrev Frame.retaining (depth : Nat) (constants : List ConstDecl) : Frame :=
  .alone (fun σ => σ.constDepth = depth ∧ σ.constants = constants) (Findings.Retains depth constants)

lemma scopes_retains (depth constants) : Frame.Scopes (Retains depth constants) where
  refl _ := retains_of_eq rfl rfl fun _ => .rfl
  trans := .trans
  problem _ _ := retains_of_eq rfl rfl fun _ => .rfl
  type _ _ _ := retains_of_eq rfl rfl fun _ => .rfl
  call _ _ _ := retains_of_eq rfl rfl fun _ => .rfl
  size _ _ _ := retains_of_eq rfl rfl fun _ => .rfl
  holds _ _ _ := trivial
  define {f s id table} hlocal _ hdefine := by
    refine retains_of_eq rfl rfl fun {id' s' t v} hkind => ?_
    rw [get?_define hdefine]
    split
    · refine ⟨fun hs => ?_, fun hs => absurd ‹_› (ne_of_get?_eq_some hdefine hs)⟩
      cases hs
      rw [show s.kind = _ from hkind] at hlocal
      cases hlocal
    · rfl
  enter _ _ := retains_of_eq rfl rfl fun _ => .rfl
  leave f := by
    obtain ⟨i, hleave⟩ := leave_eq f.symbols
    rw [hleave]
    exact retains_of_eq rfl rfl fun _ => .rfl

instance : (Frame.retaining depth constants).Lawful :=
  (scopes_retains depth constants).lawful

lemma retains_demandConst (remaining) (hsub : ∀ {name decl},
    remaining.find? (·.name.node = name) = some decl → constants.find? (·.name.node = name) = some decl) :
    Demand.Runs (.retaining depth constants) (demandConst remaining) (demandConst remaining) := by
  refine fun stack name span _ => runs_alone fun σ f hσ =>
    ⟨?_, fun _ => (demanded_demandConst remaining stack name span σ f).1.symbols⟩
  have hfinds := finds_demandConst remaining stack name span σ f
  have hsteps := (local_demandConst remaining stack name span trivial).isLocal σ f
  generalize demandConst remaining stack name span σ f = result at hfinds hsteps ⊢
  cases hfinds with
  | cycle place _ | deep place _ _ => exact (scopes_retains depth constants).problem f _
  | @entered decl v g hname hdepth hfind hfold =>
    have hdemand : Demand.Runs (.retaining depth constants) (demandConst (otherConstants remaining name))
        (demandConst (otherConstants remaining name)) :=
      retains_demandConst _ fun {other _} hother => hsub (by
        by_cases hne : other = name
        · have hmem := mem_of_find?_eq_some hother
          have hkey := List.find?_some hother
          simp_all [otherConstants]
        · rwa [find?_otherConstants hne] at hother)
    have hretains := (infers_foldWith_all hdemand (stack ++ [name]) decl.value).goes_alone hσ
      (f.start name)
    rw [hfold] at hretains
    have hfree {other : String} (h : ((name, FoldProgress.started) :: f.folding).lookup other = none) :
        f.folding.lookup other = none := by
      rw [lookup_cons] at h
      split at h
      · cases h
      · exact h
    have hstart (hf : f.Orderly) : ((f.start name) : Findings).Orderly :=
      hf.step (.start hname)
    have hold (p) (hp : p ∈ g.constValues) : p ∈ f.constValues ∨ f.folding.lookup p.1 = none ∧ depth ≠ 0 ∧
        (f.Orderly → (∀ q ∈ f.constValues, Founded constants q.1) → Founded constants p.1) :=
      (hretains.entered p hp).imp_right fun h => ⟨hfree h.1, h.2.1, fun hf => h.2.2 (hstart hf)⟩
    refine ⟨fun p hp => ?_, fun {other} h => ?_, hretains.symbols, fun hf => hf.steps hsteps⟩
    · cases v with
      | none => exact hold p hp
      | some v =>
        obtain rfl | hp := mem_cons.1 hp
        · have hdecl := hsub hfind
          refine .inr ⟨hname, by omega,
            fun hf hall => ⟨⟨decl, mem_of_find?_eq_some hdecl, ?_⟩, .intro _ ?_⟩⟩
          · simpa using List.find?_some hdecl
          · -- The constants that it refers to had their values before.
            rintro other ⟨c, hc, hrefers⟩
            cases hdecl.symm.trans hc
            have hlookup := lookup_foldWith (otherConstants remaining name) (stack ++ [name]) decl.value (hstart hf)
              (congrArg Prod.fst hfold) hrefers
            rw [hfold] at hlookup
            obtain ⟨w, hw⟩ := hlookup
            exact (hretains.founded (hstart hf) hall _ (mem_of_lookup hw)).acc
        · exact hold p hp
    · by_cases hne : other = name
      · rw [hne, g.lookup_finish v] at h
        cases h
      · rw [(g.lookup_finish_of_ne v hne).1] at h
        exact hfree (hretains.folding h)
  | _ => exact (scopes_retains depth constants).refl f
termination_by remaining.length
decreasing_by exact length_otherConstants_lt ‹_›

instance : (Frame.retaining depth constants).Folding where
  demand stack name span _ := runs_read_bind fun σ σ' hσ => by
    obtain ⟨rfl, -, hconstants⟩ := hσ
    exact retains_demandConst _ (fun hc => hconstants ▸ hc) stack name span trivial

instance : (Frame.retaining depth constants).Declares :=
  (scopes_retains depth constants).declares fun _ _ hσ => hσ

end Retains

/-! ### Before constants are checked -/

/-- No constant has a value yet, whatever the table says. -/
structure Findings.Unset (constants : List ConstDecl) (f : Findings) : Prop where
  orderly : f.Orderly
  founded : ∀ p ∈ f.constValues, Founded constants p.1
  valueless : ∀ {id s t v}, f.symbols.get? id = some s → s.kind = .const t v → v = none

namespace Check

variable {α β : Type} {constants : List ConstDecl} {c : Check α} {k : α → Check β}

/-- A step after which no constant has a value if none had one before. -/
def Withholds (constants : List ConstDecl) (c : Check α) : Prop :=
  ∀ σ f, σ.constants = constants → f.Unset constants → (c σ f).2.Unset constants

lemma Runs.withholds {still : Prop} {c'} {Q : Nat → α → Prop}
    (h : ∀ depth, Runs (.retaining depth constants) still c c' (Q depth)) : Withholds constants c := by
  intro σ f hσ hf
  have hretains := (h σ.constDepth).goes_alone (σ := σ) ⟨rfl, hσ⟩ f
  exact ⟨hretains.orderly hf.orderly, hretains.founded hf.orderly hf.founded,
    fun hget hkind => hf.valueless ((hretains.symbols hkind).mp hget) hkind⟩

lemma withholds_setKind {id g}
    (h : ∀ {k t v}, g k = .const t v → ∃ t', k = .const t' v) : Withholds constants (setKind id g) := by
  refine fun σ f hσ hf => ⟨⟨hf.orderly.fresh, hf.orderly.agree⟩, hf.founded, fun {id' s t v} hget hkind => ?_⟩
  rw [show (setKind id g σ f).2.symbols.get? id' = _ from get?_modifySymbol ..] at hget
  split at hget
  · obtain ⟨s', hs', rfl⟩ := Option.map_eq_some_iff.1 hget
    obtain ⟨t', hk⟩ := h hkind
    exact hf.valueless hs' hk
  · exact hf.valueless hget hkind

end Check

section Collecting

variable {constants : List ConstDecl}

lemma gathers_withholds (constants) : Gathers (Withholds constants) where
  bind _ hc hP hk σ f hσ hf := hk _ (hP σ f) σ _ hσ (hc σ f hσ hf)
  quiet hc σ f _ hf := (hc σ f).symm ▸ hf
  typed params _ hc := Runs.withholds fun depth => scoped_withTypeParams params (hc (.retaining depth constants))
  setKind _ _ hg := withholds_setKind hg.const

lemma unset_collectDeclarations (imports decls σ) :
    (collectDeclarations imports decls σ {}).2.Unset (constantsOf (collectDeclarations imports decls σ {}).1) := by
  have hmodule := atModule_imports imports σ {} (atModule_initial σ.module)
  have hentered := entered_registerNames decls hmodule (entered_imports imports σ)
  have hvalues : (registerNames decls σ ((imports.forM fun i => declareFirst i.symbol) σ {}).2).2.constValues = [] :=
    ((skips_imports imports).bind (fun _ => skips_registerNames decls) σ {}).2
  refine (gathers_withholds _).collectShapes decls _ { σ with constants := _ }
    (registerNames decls σ ((imports.forM fun i => declareFirst i.symbol) σ {}).2).2 rfl ?_
  refine ⟨⟨fun _ => by rw [hvalues]; rfl, fun p hp => ?_⟩, fun p hp => ?_, fun {id s t v} hget hkind => ?_⟩
  · rw [hvalues] at hp
    cases hp
  · rw [hvalues] at hp
    cases hp
  cases hentered id s hget with
  | predeclared p hp =>
    rw [hp] at hkind
    cases hkind
  | imported _ hi =>
    rw [hi] at hkind
    cases hkind
  | @declared d s₀ _ hsym hs =>
    rw [hs] at hkind
    cases d <;> cases hsym <;> cases hkind
    rfl

end Collecting

/-! ### Constants that are checked -/

/-- A checked constant was folded if allowed, and its value is that of its symbol or a problem is noted. -/
structure Findings.Told (depth : Nat) (c : ConstDecl) (id : Nat) (f : Findings) : Prop where
  entered : f.folding.lookup c.name.node = none → depth = 0
  value {x} : f.constValues.lookup c.name.node = some x →
    ∃ s t v, f.symbols.get? id = some s ∧ s.name = c.name.node ∧ s.kind = .const t v ∧
      (v = some x ∧ x.misfit? t = none ∨ ∃ m, x.misfit? t = some m ∧
        ⟨misfitProblem t x m, c.value.span⟩ ∈ f.problems)

/-- What the table says about the constants of a module, some of them checked. -/
structure Findings.Valued (depth : Nat) (declared : List (Declaration × Nat)) (done : List Declaration)
    (f : Findings) : Prop where
  orderly : f.Orderly
  founded : ∀ p ∈ f.constValues, Founded (constantsOf declared) p.1
  backed {id s t x} : f.symbols.get? id = some s → s.kind = .const t (some x) →
    f.constValues.lookup s.name = some x ∧ x.misfit? t = none
  told {c id} : (.const c, id) ∈ declared → .const c ∈ done → f.Told depth c id

section Valued

variable {depth id : Nat} {declared : List (Declaration × Nat)} {done : List Declaration} {c : ConstDecl}
  {f g : Findings} {s : Symbol} {t : Ty} {v : Option ConstValue} {x : ConstValue}

lemma Findings.Told.keeps {constants} (h : f.Told depth c id) (hf : f.Orderly)
    (hsteps : Steps f g) (hretains : f.Retains depth constants g) : g.Told depth c id := by
  refine ⟨fun hname => h.entered (hretains.folding hname), fun {x} hx => ?_⟩
  obtain hmem | ⟨hname, hopen, -⟩ := hretains.entered _ (mem_of_lookup hx)
  · obtain ⟨s, t, v, hget, hname, hkind, hsays⟩ := h.value (hf.agree _ hmem)
    refine ⟨s, t, v, (hretains.symbols hkind).mpr hget, hname, hkind, hsays.imp_right fun hmisfit => ?_⟩
    obtain ⟨m, hm, hproblem⟩ := hmisfit
    exact ⟨m, hm, hsteps.problems_suffix.subset hproblem⟩
  · exact absurd (h.entered hname) hopen

lemma Findings.Unset.valued (h : f.Unset (constantsOf declared)) : f.Valued depth declared [] := by
  refine ⟨h.orderly, h.founded, fun hget hkind => ?_, fun _ hc => by cases hc⟩
  cases h.valueless hget hkind

lemma Findings.Valued.keeps (h : f.Valued depth declared done) (hsteps : Steps f g)
    (hretains : f.Retains depth (constantsOf declared) g) : g.Valued depth declared done where
  orderly := h.orderly.steps hsteps
  founded := hretains.founded h.orderly h.founded
  backed hget hkind := by
    obtain ⟨hlookup, hfit⟩ := h.backed ((hretains.symbols hkind).mp hget) hkind
    exact ⟨h.orderly.lookup_steps hsteps hlookup, hfit⟩
  told hd hc := (h.told hd hc).keeps h.orderly hsteps hretains

lemma Findings.Valued.next (h : f.Valued depth declared done) {d}
    (htold : ∀ {c id}, (.const c, id) ∈ declared → d = .const c → f.Told depth c id) :
    f.Valued depth declared (done ++ [d]) where
  orderly := h.orderly
  founded := h.founded
  backed := h.backed
  told hd hc := by
    obtain hc | hc := mem_append.1 hc
    · exact h.told hd hc
    · exact htold hd (mem_singleton.1 hc).symm

/-- What is known when a value is put into its symbol. -/
def Findings.withValue (f : Findings) (name : String) (id : Nat) (x : ConstValue) : Findings :=
  { f with
    symbols := f.symbols.modifySymbol id fun s => { s with kind := s.kind.withValue x }
    constValues := (name, x) :: f.constValues }

lemma Findings.get?_withValue (hget : f.symbols.get? id = some s) (hkind : s.kind = .const t v) (name x other) :
    (f.withValue name id x).symbols.get? other =
      if id = other then some { s with kind := .const t (some x) } else f.symbols.get? other := by
  rw [withValue, get?_modifySymbol]
  split
  · subst other
    rw [hget, Option.map_some, hkind]
    rfl
  · rfl

lemma Findings.Valued.withValue (h : f.Valued depth declared done) (hget : f.symbols.get? id = some s)
    (hkind : s.kind = .const t v) (hx : f.constValues.lookup s.name = some x) (hfit : x.misfit? t = none) :
    (f.withValue s.name id x).Valued depth declared done := by
  have hlookup (name : String) : (f.withValue s.name id x).constValues.lookup name = f.constValues.lookup name :=
    lookup_cons_of_lookup hx name
  have hwith (k : SymbolKind) : k.withValue x = k ∨ ∃ t v w, k = .const t v ∧ k.withValue x = .const t w := by
    cases k <;> simp [SymbolKind.withValue]
  have hset : Step f
      { f with symbols := f.symbols.modifySymbol id fun s => { s with kind := s.kind.withValue x } } := .constant hwith
  have horderly := (h.orderly.step hset).step (.value hx)
  refine ⟨horderly, fun p hp => ?_, fun {id' s' t' y} hget' hkind' => ?_,
    fun {c id'} hd hc => ⟨(h.told hd hc).entered, fun {y} hy => ?_⟩⟩
  · obtain rfl | hp := mem_cons.1 hp
    · exact h.founded _ (mem_of_lookup hx)
    · exact h.founded p hp
  · rw [hlookup]
    rw [get?_withValue hget hkind] at hget'
    split at hget'
    · cases hget'
      cases hkind'
      exact ⟨hx, hfit⟩
    · exact h.backed hget' hkind'
  · rw [hlookup] at hy
    obtain ⟨s', t', v', hget', hname', hkind', hsays⟩ := (h.told hd hc).value hy
    rw [get?_withValue hget hkind]
    split
    · subst id'
      obtain rfl : s = s' := Option.some.inj (hget.symm.trans hget')
      -- The symbol has the name of the constant, so that its value is the one that was looked up.
      obtain rfl : x = y := Option.some.inj (hx.symm.trans (hname' ▸ hy))
      exact ⟨_, t, some x, rfl, hname', rfl, .inl ⟨rfl, hfit⟩⟩
    · exact ⟨s', t', v', hget', hname', hkind', hsays⟩

variable {σ : Setting} {imports : List ImportBinding} {decls : List Declaration}

lemma valued_noteValue (h : f.Valued depth declared done) (hget : f.symbols.get? id = some s)
    (hname : s.name = c.name.node) (hkind : s.kind = .const t v) :
    (noteValue c id t (f.constValues.lookup c.name.node) σ f).2.Valued depth declared done ∧
      ((f.folding.lookup c.name.node = none → depth = 0) →
        (noteValue c id t (f.constValues.lookup c.name.node) σ f).2.Told depth c id) := by
  cases hlookup : f.constValues.lookup c.name.node with
  | none =>
    refine ⟨h, fun hopen => ⟨hopen, fun {x} hx => ?_⟩⟩
    rw [show f.constValues.lookup c.name.node = some x from hx] at hlookup
    cases hlookup
  | some x =>
    cases hmisfit : x.misfit? t with
    | some m =>
      have hrun : (noteValue c id t (some x) σ f).2 =
          { f with problems := ⟨misfitProblem t x m, c.value.span⟩ :: f.problems } := by
        simp only [noteValue, hmisfit]
        rfl
      rw [hrun]
      refine ⟨h.keeps (.single (.problem f _)) ((scopes_retains _ _).problem f _),
        fun hopen => ⟨hopen, fun {y} hy => ?_⟩⟩
      obtain rfl : x = y := Option.some.inj (hlookup.symm.trans hy)
      exact ⟨s, t, v, hget, hname, hkind, .inr ⟨m, hmisfit, mem_cons_self⟩⟩
    | none =>
      have hrun : (noteValue c id t (some x) σ f).2 = f.withValue s.name id x := by
        simp only [noteValue, hmisfit, hname]
        rfl
      rw [hrun]
      refine ⟨h.withValue hget hkind (hname ▸ hlookup) hmisfit, fun hopen => ⟨hopen, fun {y} hy => ?_⟩⟩
      rw [withValue, lookup_cons_of_lookup (hname ▸ hlookup), hlookup] at hy
      cases hy
      refine ⟨{ s with kind := .const t (some x) }, t, some x, ?_, hname, rfl, .inl ⟨rfl, hmisfit⟩⟩
      rw [get?_withValue hget hkind, if_pos rfl]

lemma valued_checkConst (h : f.Valued σ.constDepth declared done) (hconstants : σ.constants = constantsOf declared)
    (hdeclares : Declares σ.module imports decls declared f.symbols) (c) :
    (checkConst c σ f).2.Valued σ.constDepth declared (done ++ [.const c]) := by
  by_cases hconst : ∃ id s t v,
      f.symbols.global? c.name.node = some (id, s) ∧ s.kind = .const t v ∧ s.span = c.name.span
  · obtain ⟨id, s, t, v, hglobal, hkind, hspan⟩ := hconst
    let f' : Findings := { f with exprTypes := f.exprTypes.set c.value.span t }
    have hrun : checkConst c σ f =
      (demandConst σ.constants [] c.name.node c.name.span >>= noteValue c id t) σ f' := by
      rw [run_checkConst_const hglobal hkind, if_pos hspan]
      rfl
    have hretains : f'.Retains σ.constDepth σ.constants
      (demandConst σ.constants [] c.name.node c.name.span σ f').2 :=
      (retains_demandConst σ.constants (fun hc => hc) [] c.name.node c.name.span trivial).goes_alone ⟨rfl, rfl⟩ f'
    have hsteps := (local_demandConst σ.constants [] c.name.node c.name.span trivial).isLocal σ f'
    obtain ⟨hrecalls, -, hentered⟩ := demanded_demandConst σ.constants [] c.name.node c.name.span σ f'
    have hf' : f'.Valued σ.constDepth declared done :=
      h.keeps (.single (.type f _ _)) ((scopes_retains _ _).type f _ _)
    have hw := hf'.orderly.lookup_demandConst σ.constants [] c.name.node c.name.span σ
    rw [hrun, run_bind]
    generalize demandConst σ.constants [] c.name.node c.name.span σ f' = result at *
    obtain ⟨w, g⟩ := result
    have hg := hf'.keeps hsteps (hconstants ▸ hretains)
    have hget : g.symbols.get? id = some s := hrecalls.symbols ▸ get?_of_global? hglobal
    obtain ⟨hvalued, htold⟩ := valued_noteValue (σ := σ) (c := c) hg hget (hdeclares.sound.name_eq hglobal) hkind
    rw [hw] at hvalued htold
    refine hvalued.next fun {c' id'} hd heq => ?_
    cases heq
    obtain ⟨s', t', v', hglobal', -⟩ := hdeclares.const_found hd
    obtain rfl : id = id' := congrArg Prod.fst (Option.some.inj (hglobal.symm.trans hglobal'))
    refine htold fun hnone => Nat.eq_zero_of_not_pos fun hpos => hentered hpos ?_ hnone
    rw [hconstants, List.find?_isSome]
    exact ⟨c, mem_filterMap.2 ⟨_, hd, rfl⟩, decide_eq_true rfl⟩
  · have hrun : checkConst c σ f = ((), f) := by
      by_cases hkind : ∃ id s t v, f.symbols.global? c.name.node = some (id, s) ∧ s.kind = .const t v
      · obtain ⟨id, s, t, v, hglobal, hkind⟩ := hkind
        rw [run_checkConst_const hglobal hkind, if_neg fun hspan => hconst ⟨id, s, t, v, hglobal, hkind, hspan⟩]
      · exact run_checkConst_other fun id s t v hglobal hk => hkind ⟨id, s, t, v, hglobal, hk⟩
    rw [hrun]
    refine h.next fun {c' id'} hd heq => ?_
    cases heq
    obtain ⟨s, t, v, hfound⟩ := hdeclares.const_found hd
    exact absurd ⟨id', s, t, v, hfound⟩ hconst

lemma valued_checkConstDeclarations (rest : List Declaration) (h : f.Valued σ.constDepth declared done)
    (hconstants : σ.constants = constantsOf declared)
    (hdeclares : Declares σ.module imports decls declared f.symbols) :
    (rest.forM checkConstDeclaration σ f).2.Valued σ.constDepth declared (done ++ rest) := by
  induction rest generalizing done f with
  | nil =>
    rw [append_nil]
    exact h
  | cons d rest ih =>
    have hnext : (checkConstDeclaration d σ f).2.Valued σ.constDepth declared (done ++ [d]) := by
      cases d with
      | const c =>
        have hannotations := (infers_checkAnnotations (F := .retaining σ.constDepth (constantsOf declared))
          c.annotations .const none).goes_alone (σ := σ) ⟨rfl, hconstants⟩ f
        have hsteps := local_checkAnnotations c.annotations .const none σ f
        exact valued_checkConst (h.keeps hsteps hannotations) hconstants (hdeclares.steps hsteps) c
      | _ =>
        refine h.next fun {c id} _ heq => ?_
        cases heq
    rw [append_cons]
    exact ih hnext (hdeclares.steps (local_checkConstDeclaration d σ f))

lemma valued_findingsOf (program name imports library options) :
    let σ := options.setting name program.package.node library
    let decls := program.decls
    let declared := (collectDeclarations imports decls σ {}).1
    (findingsOf program name imports library options).Valued options.constDepth declared decls ∧
      Declares name imports decls declared (findingsOf program name imports library options).symbols := by
  intro σ decls declared
  let τ : Setting := { σ with constants := constantsOf declared }
  have hunset := unset_collectDeclarations imports decls σ
  have hdeclares := declares_collectDeclarations imports decls σ
  have hchecked := valued_checkConstDeclarations (σ := τ) decls hunset.valued rfl hdeclares
  have hbodies := runs_forM fun d (_ : d ∈ decls) =>
    scoped_checkDeclaration (F := .retaining τ.constDepth τ.constants) d
  have hlocal : Local (decls.forM checkDeclaration) := local_forM fun d _ => local_checkDeclaration d
  exact ⟨hchecked.keeps (hlocal τ _) (hbodies.goes_alone (σ := τ) ⟨rfl, rfl⟩ _),
    hdeclares.steps (local_checkDeclarations decls τ _)⟩

end Valued

/-- Every entry of the table is the value of a constant of the module, unless a problem says that it does not fit,
and every value of a constant is in the table and fits. -/
theorem constValues_findingsOf (program : Program) (name : String) (imports : List ImportBinding) (library : Library)
    (options : AnalysisOptions) :
    let f := findingsOf program name imports library options
    (∀ p ∈ f.constValues, ∃ c id s t v, .const c ∈ program.declarations.map (·.node) ∧ c.name.node = p.1 ∧
        f.symbols.global? p.1 = some (id, s) ∧ s.kind = .const t v ∧ f.constValues.lookup p.1 = some p.2 ∧
        (v = some p.2 ∧ p.2.misfit? t = none ∨
          v = none ∧ ∃ m, p.2.misfit? t = some m ∧ ⟨misfitProblem t p.2 m, c.value.span⟩ ∈ f.problems)) ∧
      ∀ id s t x, f.symbols.get? id = some s → s.kind = .const t (some x) →
        (s.name, x) ∈ f.constValues ∧ x.misfit? t = none := by
  intro f
  obtain ⟨hvalued, hdeclares⟩ := valued_findingsOf program name imports library options
  refine ⟨fun p hp => ?_, fun id s t x hget hkind => ?_⟩
  · obtain ⟨c, hc, hname⟩ := (hvalued.founded p hp).declared
    obtain ⟨⟨d, id⟩, hd, hconst⟩ := List.mem_filterMap.mp hc
    obtain rfl : d = .const c := by
      cases d <;> cases hconst
      rfl
    have hlookup := hvalued.orderly.agree p hp
    have hmem := mem_of_registerNames hd
    obtain ⟨s, t, v, hget, -, hkind, hsays⟩ := (hvalued.told hd hmem).value (hname ▸ hlookup)
    obtain ⟨s', t', v', hglobal, -⟩ := hdeclares.const_found hd
    obtain rfl : s' = s := Option.some.inj ((SymbolTable.get?_of_global? hglobal).symm.trans hget)
    refine ⟨c, id, s', t, v, hmem, hname, hname ▸ hglobal, hkind, hlookup,
      hsays.imp_right fun hmisfit => ⟨?_, hmisfit⟩⟩
    -- A symbol with a value has the one in the table, which does not fit.
    cases v with
    | none => rfl
    | some y =>
      obtain ⟨hy, hfit⟩ := hvalued.backed hget hkind
      have hname' : s'.name = p.1 := (hdeclares.sound.name_eq hglobal).trans hname
      obtain rfl : y = p.2 := Option.some.inj (hy.symm.trans (hname' ▸ hlookup))
      obtain ⟨m, hm, -⟩ := hmisfit
      rw [hfit] at hm
      cases hm
  · obtain ⟨hlookup, hfit⟩ := hvalued.backed hget hkind
    exact ⟨mem_of_lookup hlookup, hfit⟩

/-- Constants `A: i8` and `B: i32 = A + 1`. -/
def moduleOfSuccessor (n : Nat) : Program :=
  let constant (name : String) (start : Nat) (type : Primitive) (value : Expr) : Spanned Declaration :=
    ⟨.const ⟨[], .pub, ⟨name, { start }⟩, .primitive default type, value⟩, default⟩
  { package := ⟨"t", default⟩
    imports := []
    declarations := [constant "A" 1 .i8 (.literal { start := 2 } (.int n)), constant "B" 3 .i32 (.binary { start := 4 }
      (.ident { start := 5 } "A") .add (.literal { start := 6 } (.int 1)))] }

theorem constValues_findingsOf_successor :
    let f := findingsOf (moduleOfSuccessor 1) "t" [] [] {}
    ("B", .int 2) ∈ f.constValues ∧
      ∃ c id s t v, .const c ∈ (moduleOfSuccessor 1).declarations.map (·.node) ∧
      c.name.node = "B" ∧ f.symbols.global? "B" = some (id, s) ∧ s.kind = .const t v ∧
      f.constValues.lookup "B" = some (.int 2) ∧
      (v = some (.int 2) ∧ (ConstValue.int 2).misfit? t = none ∨
        v = none ∧ ∃ m, (ConstValue.int 2).misfit? t = some m ∧
          ⟨misfitProblem t (.int 2) m, c.value.span⟩ ∈ f.problems) := by
  have hmem : ("B", .int 2) ∈ (findingsOf (moduleOfSuccessor 1) "t" [] [] {}).constValues := by decide +kernel
  exact ⟨hmem, (constValues_findingsOf (moduleOfSuccessor 1) "t" [] [] {}).1 ("B", .int 2) hmem⟩

/-- A value that does not fit is in the table, and another is computed from it. -/
theorem constValues_of_unfit :
    let f := findingsOf (moduleOfSuccessor 300) "t" [] [] {}
    f.constValues.lookup "A" = some (.int 300) ∧
      ((f.symbols.global? "A").map fun p => p.2.kind) = some (.const (.primitive .i8) none) ∧
      ((ConstValue.int 300).misfit? (.primitive .i8)).isSome ∧ f.constValues.lookup "B" = some (.int 301) ∧
      ((f.symbols.global? "B").map fun p => p.2.kind) = some (.const (.primitive .i32) (some (.int 301))) := by
  refine ⟨by decide +kernel, by decide +kernel, by decide, by decide +kernel, by decide +kernel⟩

end SourceCheck
