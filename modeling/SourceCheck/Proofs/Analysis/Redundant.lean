import SourceCheck.Proofs.Analysis.Coverage
import SourceCheck.Proofs.Coverage.Useful

/-!
# Unreachable arms

An arm is told to be unreachable just when arms before it take all that it takes, if it tests values of known types
only. Where the type of a part is not known, a variant without arguments is set against no fields.
-/

namespace SourceCheck

open Check Constructors

namespace Pattern

mutual

/-- A pattern tests values only where their type is known. -/
def testsKnown (cs : Constructors) (t : Ty) : Pattern → Bool
  | .wildcard _ | .binding .. => true
  | .literal .. => !t.isUnknown
  | .tuple _ elems => !t.isUnknown && allTestKnown cs (cs.fieldsOf t (.tuple elems.length) elems.length) elems
  | .variant _ enum name args => !t.isUnknown && allTestKnown cs ((cs.fields? t (.variant enum name)).getD []) args

/-- Patterns test values only where their type is known. -/
def allTestKnown (cs : Constructors) (ts : List Ty) : List Pattern → Bool
  | [] => true
  | p :: ps =>
    match ts with
    | [] => true
    | t :: ts => p.testsKnown cs t && allTestKnown cs ts ps

end

end Pattern

/-! ### Patterns against types without a list of constructors -/

section

variable {σ : Setting} {f : Findings} {span : Span} {enum variant : String} {t : Ty}

lemma not_assignable_bool {enum?}
    (hopen : constructorsOf enum? t = none) (hknown : t.isUnknown = false) : (Ty.bool).assignable t = false := by
  cases t with
  | primitive q =>
    have hq : q ≠ .bool := by
      rintro rfl
      cases hopen
    unfold Ty.assignable
    cases q <;> first | rfl | exact absurd rfl hq
  | unknown => cases hknown
  | _ => rfl

lemma typed_literal {value} (hopen : constructorsOf (f.enum? σ) t = none) (hknown : t.isUnknown = false)
    (h : Clean (checkPatternLiteral span value t) σ f) :
    ((constructorsOf (f.enum? σ)).shape t (.literal span value)).Typed (constructorsOf (f.enum? σ)) t := by
  cases value with
  | bool b =>
    have hassign : (Ty.bool).assignable t = true := by simpa [Literal.type] using clean_reportIf_iff.1 h
    rw [not_assignable_bool hopen hknown] at hassign
    cases hassign
  | _ => exact .literal _ hopen

lemma not_clean_tuplePatternTypes {enum? size} (hopen : constructorsOf enum? t = none) (hknown : t.isUnknown = false) :
    ¬ Clean (tuplePatternTypes span size t) σ f := by
  cases t with
  | tuple ts => cases hopen
  | unknown => cases hknown
  | _ => exact not_clean_report_pure

lemma not_clean_variantPayload? (hs : f.symbols.Sound σ.module) (hopen : constructorsOf (f.enum? σ) t = none)
    (hknown : t.isUnknown = false) : ¬ Clean (variantPayload? span enum variant t) σ f := by
  intro h
  unfold variantPayload? at h
  split at h
  · cases hopen
  · cases hknown
  · cases hopen
  · cases hknown
  · exact not_clean_report_pure h
  · exact not_clean_report_pure h
  · unfold enumPayload? Clean at h
    rw [run_kind?_bind] at h
    cases hkind : (f.symbols.symbol? enum).map (·.kind) with
    | none =>
      rw [hkind] at h
      exact not_clean_report_pure h
    | some k =>
      rw [hkind] at h
      cases k with
      | enum info variants =>
        obtain ⟨rfl, henum⟩ := enum?_of_symbol? hs hkind
        cases t with
        | enum n args =>
          -- An enum that is named in the module lists its variants.
          have hn : n ≠ info.nominal := by
            rintro rfl
            simp [constructorsOf, henum] at hopen
          simp only [hn, ↓reduceIte] at h
          exact not_clean_report_pure h
        | unknown => cases hknown
        | _ => exact not_clean_report_pure h
      | _ => exact not_clean_report_pure h

end

mutual

lemma typed_of_clean {σ f} (hs : f.symbols.Sound σ.module) {t p}
    (h : Clean (checkPattern t p) σ f) (hknown : p.testsKnown (constructorsOf (f.enum? σ)) t = true) :
    ((constructorsOf (f.enum? σ)).shape t p).Typed (constructorsOf (f.enum? σ)) t := by
  match p with
  | .wildcard _ | .binding .. => exact .any
  | .literal span value =>
    have ht : t.isUnknown = false := by simpa [Pattern.testsKnown] using hknown
    cases hall : constructorsOf (f.enum? σ) t with
    | none => exact typed_literal hall ht h
    | some all =>
      cases fits_literal hall h with
      | bool hfields =>
        obtain ⟨all', hall', hc⟩ := mem_of_fields? hfields
        exact .ctor hall' hc .nil
      | unlisted hopen =>
        rw [hopen] at hall
        cases hall
  | .tuple span elems =>
    rw [Pattern.testsKnown, Bool.and_eq_true, Bool.not_eq_true'] at hknown
    obtain ⟨htypes, hrest⟩ :=
      Clean.of_bind (local_tuplePatternTypes _ _ _) (fun ts => local_checkPatterns ts elems) h
    cases hall : constructorsOf (f.enum? σ) t with
    | none => exact absurd htypes (not_clean_tuplePatternTypes hall hknown.1)
    | some all =>
      obtain ⟨hfields, hsize⟩ := tuplePatternTypes_spec hall htypes
      have hsteps := local_tuplePatternTypes span elems.length t σ f
      obtain ⟨all', hall', hc⟩ := mem_of_fields? hfields
      rw [shape]
      rw [fieldsOf_eq hfields hsize.symm] at hknown ⊢
      refine .ctor hall' hc ?_
      rw [← hsteps.enum?_eq hs] at hknown ⊢
      exact typedAll_of_clean (hsteps.sound hs) hsize hrest hknown.2
  | .variant span enum variant args =>
    rw [Pattern.testsKnown, Bool.and_eq_true, Bool.not_eq_true'] at hknown
    obtain ⟨htypes, hrest⟩ := Clean.of_bind (local_variantPatternTypes _ _ _ _ _)
      (fun ts => local_checkPatterns ts args) h
    cases hall : constructorsOf (f.enum? σ) t with
    | none =>
      obtain ⟨hpayload, -⟩ := Clean.of_bind (local_variantPayload? _ _ _ _) (fun p => by
        split
        · exact local_pure _
        · exact local_ite (local_pure _) ((local_report _ _).bind fun _ => local_pure _)) htypes
      exact absurd hpayload (not_clean_variantPayload? hs hall hknown.1)
    | some all =>
      obtain ⟨hfields, hsize⟩ := variantPatternTypes_spec hs hall htypes
      have hsteps := local_variantPatternTypes span enum variant args.length t σ f
      obtain ⟨all', hall', hc⟩ := mem_of_fields? hfields
      rw [hfields, Option.getD_some] at hknown
      simp only [shape, hfields]
      refine .ctor hall' hc ?_
      split
      · exact .anys _
      · rename_i hargs
        rw [← hsteps.enum?_eq hs] at hknown ⊢
        refine typedAll_of_clean (hsteps.sound hs) (hsize.resolve_left fun hnone => hargs ?_) hrest hknown.2
        rw [List.length_eq_zero_iff.1 hnone]
        rfl

lemma typedAll_of_clean {σ f} (hs : f.symbols.Sound σ.module) {ts ps} (hlength : ps.length = ts.length)
    (h : Clean (checkPatterns ts ps) σ f)
    (hknown : Pattern.allTestKnown (constructorsOf (f.enum? σ)) ts ps = true) :
    Shape.TypedAll (constructorsOf (f.enum? σ)) ts ((constructorsOf (f.enum? σ)).shapes ts ps) := by
  match ps, ts with
  | [], [] => exact .nil
  | p :: ps, t :: ts =>
    rw [Pattern.allTestKnown, Bool.and_eq_true] at hknown
    obtain ⟨hp, hps⟩ := Clean.of_bind (local_checkPattern t p) (fun _ => local_checkPatterns ts ps) h
    have hsteps := local_checkPattern t p σ f
    refine .cons (typed_of_clean hs hp hknown.1) ?_
    rw [← hsteps.enum?_eq hs] at hknown ⊢
    exact typedAll_of_clean (hsteps.sound hs) (by simpa using hlength) hps hknown.2

end

/-! ### Arms -/

lemma getElem?_unreachableArms (cs : Constructors) (t) (patterns : List Pattern) (k) :
    (unreachableArms cs t (patterns.map (cs.shape t)))[k]? = (patterns[k]?).map fun p =>
      !Matrix.useful cs (((patterns.take k).map (cs.shape t)).map ([·])) [cs.shape t p] [t] := by
  simp [unreachableArms, List.getElem?_zipIdx, List.map_take, Function.comp_def]

lemma useful_arm_iff {cs : Constructors} (hd : cs.Distinct) {t} (hp : Peopled cs t) {before : List Pattern}
    {p : Pattern} (hbefore : ∀ q ∈ before, Pattern.Fits cs t q) (hfit : Pattern.Fits cs t p)
    (htyped : (cs.shape t p).Typed cs t) :
    Matrix.useful cs ((before.map (cs.shape t)).map ([·])) [cs.shape t p] [t] = true ↔
      ∃ v, HasType cs t v ∧ p.takes v = true ∧ ¬ ∃ q ∈ before, q.takes v = true := by
  have hatomic : Matrix.Atomic ((before.map (cs.shape t)).map ([·])) := by
    intro row hrow
    simp only [List.mem_map, exists_exists_and_eq_and] at hrow
    obtain ⟨q, -, rfl⟩ := hrow
    simp [Shape.allAtomic, atomic_shape]
  rw [Matrix.useful_iff_adds hd (fits_arms hbefore) hatomic (.cons htyped .nil) (by simpa using hp)]
  constructor
  · rintro ⟨vs, hvs, htakes, hnot⟩
    cases hvs with
    | cons hv hnil =>
      cases hnil
      rw [covers_arms_iff hd hbefore hv] at hnot
      rw [Shape.takesAll, takes_shape hd hfit hv, Bool.and_eq_true] at htakes
      exact ⟨_, hv, htakes.1, hnot⟩
  · rintro ⟨v, hv, htakes, hnot⟩
    refine ⟨[v], .cons hv .nil, ?_, ?_⟩
    · rw [Shape.takesAll, takes_shape hd hfit hv, htakes]
      rfl
    · rwa [covers_arms_iff hd hbefore hv]

lemma cause_ne_unreachable {missing : List Shape} {span} {r : Report SemanticProblem}
    (h : r ∈ if missing = [] then [] else [⟨.nonExhaustive (missing.map Shape.text), span⟩]) :
    r.cause ≠ .unreachablePattern := by
  split at h
  · cases h
  · cases List.mem_singleton.1 h
    rintro ⟨⟩

/-- Unreachable arms are told exactly. When the patterns passed and every type reached has a value, an arm that tests
values of known types only is told to be unreachable just when every value that it takes is taken by an arm before it.
-/
theorem checkCoverage_unreachable {σ : Setting} {f₀ f : Findings} (hmodule : InModule σ f₀)
    (hlibrary : σ.library.Analyzed) (hsteps : Findings.Steps f₀ f) {t : Ty}
    (hp : Peopled (constructorsOf (f.enum? σ)) t) {patterns : List Pattern}
    (hpass : ∀ p ∈ patterns, ∃ g, Findings.Steps f₀ g ∧ Clean (checkPattern t p) σ g) (span : Span) :
    ∃ (missing : List (Report SemanticProblem)) (unreachable : List Bool),
      (checkCoverage span patterns t σ f).2.problems =
        missing ++ (((patterns.zip unreachable).filter (·.2)).map fun a =>
          ⟨.unreachablePattern, a.1.span⟩).reverse ++ f.problems ∧
      (∀ r ∈ missing, r.cause ≠ .unreachablePattern) ∧
      unreachable.length = patterns.length ∧
      ∀ k p, patterns[k]? = some p → p.testsKnown (constructorsOf (f.enum? σ)) t = true →
        (unreachable[k]? = some true ↔
          ∀ v, HasType (constructorsOf (f.enum? σ)) t v → p.takes v = true →
            ∃ q ∈ patterns.take k, q.takes v = true) := by
  have hd := (hmodule.steps hsteps).distinct hlibrary
  have hfit := fits_of_passed hmodule hsteps hpass
  refine ⟨_, _, problems_checkCoverage span patterns t σ f, fun r => cause_ne_unreachable,
    by simp [unreachableArms], fun k p hk hknown => ?_⟩
  have hmem := List.mem_of_getElem? hk
  have htyped : ((constructorsOf (f.enum? σ)).shape t p).Typed (constructorsOf (f.enum? σ)) t := by
    obtain ⟨g, hg, hclean⟩ := hpass p hmem
    have henum : g.enum? σ = f.enum? σ := (hg.enum?_eq hmodule.sound).trans (hsteps.enum?_eq hmodule.sound).symm
    rw [← henum] at hknown ⊢
    exact typed_of_clean (hmodule.steps hg).sound hclean hknown
  have hbefore : ∀ q ∈ patterns.take k, Pattern.Fits (constructorsOf (f.enum? σ)) t q :=
    fun q hq => hfit q (List.mem_of_mem_take hq)
  have huseful := useful_arm_iff hd hp hbefore (hfit p hmem) htyped
  rw [getElem?_unreachableArms, hk, Option.map_some, Option.some_inj, Bool.not_eq_true', ← Bool.not_eq_true, huseful]
  push Not
  rfl

def anySome : Pattern :=
  .variant default "Option" "Some" []

/-- Behind an arm for any `Option.Some`, one for `Option.Some(true)` is unreachable. -/
theorem checkCoverage_unreachable_anySome :
    let cs := constructorsOf (plainFindings.enum? plainSetting)
    ∃ (missing : List (Report SemanticProblem)) (unreachable : List Bool),
      (checkCoverage default [anySome, someTrue] (.option .bool) plainSetting plainFindings).2.problems =
        missing ++ ((([anySome, someTrue].zip unreachable).filter (·.2)).map fun a =>
          ⟨.unreachablePattern, a.1.span⟩).reverse ++ plainFindings.problems ∧
      (∀ r ∈ missing, r.cause ≠ .unreachablePattern) ∧
      unreachable.length = 2 ∧
      (unreachable[1]? = some true ↔
        ∀ v, HasType cs (.option .bool) v → someTrue.takes v = true → ∃ q ∈ [anySome], q.takes v = true) := by
  have hmodule : InModule plainSetting plainFindings := ⟨plainSetting, [], [], rfl, .refl⟩
  have hpass : ∀ p ∈ [anySome, someTrue],
      ∃ g, Findings.Steps plainFindings g ∧ Clean (checkPattern (.option .bool) p) plainSetting g := by
    intro p hp
    refine ⟨plainFindings, .refl, ?_⟩
    obtain rfl | hp := List.mem_cons.mp hp
    · rfl
    · obtain rfl := List.mem_singleton.mp hp
      exact clean_someTrue
  obtain ⟨missing, unreachable, hproblems, hmissing, hlength, hexact⟩ :=
    checkCoverage_unreachable hmodule .nil .refl (peopled_option_bool _) hpass default
  exact ⟨missing, unreachable, hproblems, hmissing, hlength, hexact 1 someTrue rfl rfl⟩

def someAnySome : Pattern :=
  .variant default "Option" "Some" [anySome]

def someSomeOne : Pattern :=
  .variant default "Option" "Some" [.variant default "Option" "Some" [.literal default (.int 1)]]

/-- Where the type of the payload is not known, an arm may go unnoticed although the arm before it takes all that it
takes. -/
theorem checkCoverage_misses_bare :
    (∀ p ∈ [someAnySome, someSomeOne], Clean (checkPattern (.option .unknown) p) plainSetting plainFindings) ∧
      (∀ v, someSomeOne.takes v = true → someAnySome.takes v = true) ∧
      ∀ r ∈ (checkCoverage default [someAnySome, someSomeOne]
        (.option .unknown) plainSetting plainFindings).2.problems,
        r.cause ≠ .unreachablePattern := by
  refine ⟨fun p hp => ?_, fun v hv => ?_, ?_⟩
  · obtain rfl | hp := List.mem_cons.mp hp
    · rfl
    · obtain rfl := List.mem_singleton.mp hp
      rfl
  · cases v with
    | other n => cases hv
    | ctor c vs =>
      cases vs with
      | nil => simp [someSomeOne, Pattern.takes, Pattern.takesAll] at hv
      | cons w ws =>
        cases w with
        | other n => simp [someSomeOne, Pattern.takes, Pattern.takesAll] at hv
        | ctor d us =>
          simp only [someSomeOne, someAnySome, anySome, Pattern.takes, Pattern.takesAll, Bool.and_eq_true,
            Bool.or_eq_true] at hv ⊢
          obtain ⟨hc, hempty | ⟨⟨hd, -⟩, hws⟩⟩ := hv
          · cases hempty
          · exact ⟨hc, .inr ⟨⟨hd, .inl rfl⟩, hws⟩⟩
  · have hreached : unreachableArms (constructorsOf (plainFindings.enum? plainSetting)) (.option .unknown)
        ([someAnySome, someSomeOne].map
          ((constructorsOf (plainFindings.enum? plainSetting)).shape (.option .unknown))) =
          [false, false] := by
      simp [unreachableArms, someAnySome, someSomeOne, anySome, Constructors.shape, Constructors.shapes,
        Constructors.fields?, Constructors.fieldsOf, constructorsOf, Matrix.useful, Matrix.specialize,
        Matrix.specializeRow]
    intro r hr
    rw [problems_checkCoverage, hreached] at hr
    obtain hr | hr := List.mem_append.mp hr
    · obtain hr | hr := List.mem_append.mp hr
      · exact cause_ne_unreachable hr
      · cases hr
    · cases hr

end SourceCheck
