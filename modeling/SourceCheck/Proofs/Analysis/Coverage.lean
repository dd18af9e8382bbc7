import SourceCheck.Proofs.Analysis.Collected
import SourceCheck.Proofs.Coverage.Lowering

/-!
# Coverage of checked matches

A pattern that passes its check fits the type of the value, so what is told about values that no arm takes is exact.
-/

namespace SourceCheck

open Check List

/-! ### Payloads of variants -/

lemma fields?_of_ofNames? (enum? : Nominal → Option (List String × List VariantInfo)) {enum variant v t}
    (h : BuiltinVariant.ofNames? enum variant = some v)
    (ht : enum = "Result" ∧ (∃ a b, t = .result a b) ∨ enum = "Option" ∧ ∃ a, t = .option a) :
    (constructorsOf enum?).fields? t (.variant enum variant) =
      some (if v = .noValue then [] else [(v.payload? t).getD .unknown]) := by
  unfold BuiltinVariant.ofNames? at h
  split at h
  all_goals cases h
  all_goals
    obtain ⟨he, a, b, rfl⟩ | ⟨he, a, rfl⟩ := ht
    · first | rfl | simp at he
    · first | rfl | simp at he

section

variable {σ : Setting} {f : Findings} {span : Span} {enum variant : String} {t : Ty}

lemma builtinPayload?_spec (h : Clean (builtinPayload? span enum variant t) σ f)
    (ht : enum = "Result" ∧ (∃ a b, t = .result a b) ∨ enum = "Option" ∧ ∃ a, t = .option a) :
    ∃ ts, (builtinPayload? span enum variant t σ f).1 = some ts ∧
      (constructorsOf (f.enum? σ)).fields? t (.variant enum variant) = some ts := by
  unfold builtinPayload? at h ⊢
  cases hv : BuiltinVariant.ofNames? enum variant with
  | none =>
    rw [hv] at h
    exact absurd h not_clean_report_pure
  | some v =>
    have hfields := fields?_of_ofNames? (f.enum? σ) hv ht
    cases v with
    | noValue => exact ⟨[], rfl, hfields⟩
    | ok | err | someValue => exact ⟨_, rfl, hfields⟩

lemma enum?_of_symbol? (hs : f.symbols.Sound σ.module) {info variants}
    (h : (f.symbols.symbol? enum).map (·.kind) = some (.enum info variants)) :
    info.nominal.name = enum ∧ f.enum? σ info.nominal = some (info.typeParams, variants) := by
  obtain ⟨sym, hsym, hkind⟩ := Option.map_eq_some_iff.1 h
  obtain ⟨id, hglobal, hnominal⟩ := hs.global?_of_enum hsym hkind
  refine ⟨by rw [hnominal], ?_⟩
  rw [Findings.enum?_eq, hnominal, if_pos rfl]
  simp [Findings.ownEnum?, hglobal, hkind, SymbolKind.enum?]

lemma lookup_variants {n : Nominal} {g : VariantInfo → List Ty} {variants : List VariantInfo}
    {v : VariantInfo} (h : variants.find? (·.name = variant) = some v) :
    (variants.map fun v => (Ctor.variant n.name v.name, g v)).lookup (.variant n.name variant) = some (g v) := by
  induction variants with
  | nil => simp at h
  | cons w variants ih =>
    rw [List.find?_cons] at h
    rw [map_cons, lookup_cons]
    by_cases hw : w.name = variant
    · simp only [hw, decide_true, Option.some.injEq] at h
      subst h
      simp [hw]
    · have hne : (Ctor.variant n.name variant == Ctor.variant n.name w.name) = false := by
        simpa using Ne.symm hw
      simp only [hw, decide_false] at h
      simpa [hne] using ih h

attribute [local simp] constructorsOf

lemma enumPayload?_spec (hs : f.symbols.Sound σ.module) {all} (hall : constructorsOf (f.enum? σ) t = some all)
    (h : Clean (enumPayload? span enum variant t) σ f) :
    ∃ ts, (enumPayload? span enum variant t σ f).1 = some ts ∧
      (constructorsOf (f.enum? σ)).fields? t (.variant enum variant) = some ts := by
  unfold enumPayload? Clean at h
  unfold enumPayload?
  rw [run_kind?_bind] at h ⊢
  cases hkind : (f.symbols.symbol? enum).map (·.kind) with
  | none =>
    rw [hkind] at h
    exact absurd h not_clean_report_pure
  | some k =>
    rw [hkind] at h
    cases k with
    | enum info variants =>
      obtain ⟨rfl, henum⟩ := enum?_of_symbol? hs hkind
      cases t with
      | enum n args =>
        by_cases hn : n = info.nominal
        · subst hn
          simp only [↓reduceIte] at h ⊢
          cases hv : variants.find? (·.name = variant) with
          | none =>
            rw [hv] at h
            exact absurd h not_clean_report_pure
          | some v =>
            refine ⟨_, rfl, ?_⟩
            simp only [Constructors.fields?, constructorsOf, henum, Option.map_some, Option.bind_some]
            exact lookup_variants hv
        · simp only [hn, ↓reduceIte] at h
          exact absurd h not_clean_report_pure
      | unknown => simp at hall
      | _ => exact absurd h not_clean_report_pure
    | _ => exact absurd h not_clean_report_pure

lemma variantPayload?_spec (hs : f.symbols.Sound σ.module) {all} (hall : constructorsOf (f.enum? σ) t = some all)
    (h : Clean (variantPayload? span enum variant t) σ f) :
    ∃ ts, (variantPayload? span enum variant t σ f).1 = some ts ∧
      (constructorsOf (f.enum? σ)).fields? t (.variant enum variant) = some ts := by
  unfold variantPayload? at h ⊢
  split at h
  · exact builtinPayload?_spec h (.inl ⟨rfl, _, _, rfl⟩)
  · simp at hall
  · exact builtinPayload?_spec h (.inr ⟨rfl, _, rfl⟩)
  · simp at hall
  · exact absurd h not_clean_report_pure
  · exact absurd h not_clean_report_pure
  · exact enumPayload?_spec hs hall h

lemma variantPatternTypes_spec (hs : f.symbols.Sound σ.module) {all size}
    (hall : constructorsOf (f.enum? σ) t = some all) (h : Clean (variantPatternTypes span enum variant size t) σ f) :
    (constructorsOf (f.enum? σ)).fields? t (.variant enum variant) =
        some (variantPatternTypes span enum variant size t σ f).1 ∧
      (size = 0 ∨ size = (variantPatternTypes span enum variant size t σ f).1.length) := by
  obtain ⟨hpayload, hrest⟩ := Clean.of_bind (local_variantPayload? _ _ _ _) (fun p => by
    split
    · exact local_pure _
    · exact local_ite (local_pure _) ((local_report _ _).bind fun _ => local_pure _)) h
  obtain ⟨ts, hts, hfields⟩ := variantPayload?_spec hs hall hpayload
  unfold variantPatternTypes
  simp only [run_bind, hts] at hrest ⊢
  by_cases hsize : (size = 0 || size = ts.length) = true
  · simp only [hsize, ↓reduceIte, run_pure]
    exact ⟨hfields, by simpa using hsize⟩
  · simp only [hsize] at hrest
    exact absurd hrest not_clean_report_pure

lemma tuplePatternTypes_spec {all size} (hall : constructorsOf (f.enum? σ) t = some all)
    (h : Clean (tuplePatternTypes span size t) σ f) :
    (constructorsOf (f.enum? σ)).fields? t (.tuple size) = some (tuplePatternTypes span size t σ f).1 ∧
      size = (tuplePatternTypes span size t σ f).1.length := by
  unfold tuplePatternTypes at h ⊢
  cases t with
  | tuple ts =>
    by_cases hsize : ts.length = size
    · subst hsize
      simp [run_pure, Constructors.fields?]
    · simp only [hsize, ↓reduceIte] at h
      exact absurd h not_clean_report_pure
  | unknown => simp at hall
  | _ => exact absurd h not_clean_report_pure

/-! ### Patterns -/

lemma eq_bool_of_assignable {enum? all p} (hp : p ≠ .never) (hall : constructorsOf enum? t = some all)
    (h : (Ty.primitive p).assignable t = true) : p = .bool ∧ t = .bool := by
  cases t with
  | primitive q =>
    obtain rfl : q = .bool := by
      cases q <;> first | rfl | simp at hall
    refine ⟨?_, rfl⟩
    by_contra hne
    unfold Ty.assignable at h
    have hint : Primitive.bool.isInteger = false := rfl
    have hfloat : Primitive.bool.isFloat = false := rfl
    simp [hne, Ty.primitiveFits, hint, hfloat] at h
  | unknown => simp at hall
  | _ =>
    unfold Ty.assignable at h
    simp [hp] at h

lemma checkNumeral_of_listed {enum? all} (hall : constructorsOf enum? t = some all) (n) :
    checkNumeral n false (some t) span σ f = (.primitive .int, f) := by
  cases t with
  | primitive q =>
    obtain rfl : q = .bool := by
      cases q <;> first | rfl | simp at hall
    rfl
  | _ => rfl

lemma fits_literal {all value} (hall : constructorsOf (f.enum? σ) t = some all)
    (h : Clean (checkPatternLiteral span value t) σ f) :
    Pattern.Fits (constructorsOf (f.enum? σ)) t (.literal span value) := by
  have hassign : value.type.assignable t = true := by
    cases value with
    | int n =>
      unfold checkPatternLiteral Clean at h
      simp only [run_bind, checkNumeral_of_listed hall] at h
      simpa [Literal.type] using clean_reportIf_iff.1 h
    | _ => simpa using clean_reportIf_iff.1 h
  cases value with
  | bool b =>
    obtain ⟨-, rfl⟩ := eq_bool_of_assignable (by decide) hall hassign
    refine .bool ?_
    cases b <;> rfl
  | _ =>
    obtain ⟨hp, -⟩ := eq_bool_of_assignable (by decide) hall hassign
    cases hp

end

mutual

lemma fits_of_clean {σ f} (hs : f.symbols.Sound σ.module) {t p}
    (h : Clean (checkPattern t p) σ f) : Pattern.Fits (constructorsOf (f.enum? σ)) t p := by
  cases hall : constructorsOf (f.enum? σ) t with
  | none => exact .unlisted hall
  | some all =>
    match p with
    | .wildcard _ => exact .wildcard
    | .binding .. => exact .binding
    | .literal span value => exact fits_literal hall h
    | .tuple span elems =>
      obtain ⟨htypes, hrest⟩ :=
        Clean.of_bind (local_tuplePatternTypes _ _ _) (fun ts => local_checkPatterns ts elems) h
      obtain ⟨hfields, hsize⟩ := tuplePatternTypes_spec hall htypes
      have hsteps := local_tuplePatternTypes span elems.length t σ f
      have helems := fitsAll_of_clean (hsteps.sound hs) hsize hrest
      rw [hsteps.enum?_eq hs] at helems
      exact .tuple hfields helems
    | .variant span enum variant args =>
      obtain ⟨htypes, hrest⟩ := Clean.of_bind (local_variantPatternTypes _ _ _ _ _)
        (fun ts => local_checkPatterns ts args) h
      obtain ⟨hfields, hsize⟩ := variantPatternTypes_spec hs hall htypes
      have hsteps := local_variantPatternTypes span enum variant args.length t σ f
      obtain hnone | hsize := hsize
      · obtain rfl := length_eq_zero_iff.1 hnone
        exact .bare hfields
      · have hargs := fitsAll_of_clean (hsteps.sound hs) hsize hrest
        rw [hsteps.enum?_eq hs] at hargs
        exact .variant hfields hargs

lemma fitsAll_of_clean {σ f} (hs : f.symbols.Sound σ.module) {ts ps} (hlength : ps.length = ts.length)
    (h : Clean (checkPatterns ts ps) σ f) :
    Pattern.FitsAll (constructorsOf (f.enum? σ)) ts ps := by
  match ps, ts with
  | [], [] => exact .nil
  | p :: ps, t :: ts =>
    obtain ⟨hp, hps⟩ := Clean.of_bind (local_checkPattern t p) (fun _ => local_checkPatterns ts ps) h
    have hsteps := local_checkPattern t p σ f
    have hrest := fitsAll_of_clean (hsteps.sound hs) (by simpa using hlength) hps
    rw [hsteps.enum?_eq hs] at hrest
    exact .cons (fits_of_clean hs hp) hrest

end

lemma fits_of_passed {σ f₀ f} (hmodule : InModule σ f₀) (hsteps : Findings.Steps f₀ f) {t}
    {patterns : List Pattern}
    (hpass : ∀ p ∈ patterns, ∃ g, Findings.Steps f₀ g ∧ Clean (checkPattern t p) σ g) :
    ∀ p ∈ patterns, Pattern.Fits (constructorsOf (f.enum? σ)) t p := by
  intro p hmem
  obtain ⟨g, hg, hclean⟩ := hpass p hmem
  have hfits := fits_of_clean (hmodule.steps hg).sound hclean
  rwa [hg.enum?_eq hmodule.sound, ← hsteps.enum?_eq hmodule.sound] at hfits

/-! ### Matches -/

lemma problems_forM_reportIf {α : Type} (l : List α) (wrong : α → Bool) (p) (span : α → Span) (σ f) :
    ((l.forM fun a => reportIf (wrong a) p (span a)) σ f).2 =
      { f with problems := ((l.filter wrong).map fun a => ⟨p, span a⟩).reverse ++ f.problems } := by
  induction l generalizing f with
  | nil => rfl
  | cons a l ih =>
    have hcons : (((a :: l).forM fun a => reportIf (wrong a) p (span a)) σ f).2 =
        ((l.forM fun a => reportIf (wrong a) p (span a)) σ (reportIf (wrong a) p (span a) σ f).2).2 := rfl
    rw [hcons, ih]
    cases ha : wrong a with
    | false => simp [ha, reportIf, run_pure]
    | true =>
      have hreport : (report p (span a) σ f).2 = { f with problems := ⟨p, span a⟩ :: f.problems } := rfl
      simp [ha, reportIf, hreport]

lemma problems_checkCoverage (span patterns t σ f) :
    let cs := constructorsOf (f.enum? σ)
    let shapes := patterns.map (cs.shape t)
    (checkCoverage span patterns t σ f).2.problems = (if missingShapes cs t shapes = [] then []
        else [⟨.nonExhaustive ((missingShapes cs t shapes).map Shape.text), span⟩]) ++
      (((patterns.zip (unreachableArms cs t shapes)).filter (·.2)).map fun a =>
        ⟨.unreachablePattern, a.1.span⟩).reverse ++ f.problems := by
  intro cs shapes
  have hrun : (checkCoverage span patterns t σ f).2 = (reportIf (!(missingShapes cs t shapes).isEmpty)
        (.nonExhaustive ((missingShapes cs t shapes).map Shape.text)) span σ
        (((patterns.zip (unreachableArms cs t shapes)).forM fun a =>
          reportIf a.2 .unreachablePattern a.1.span) σ f).2).2 := rfl
  rw [hrun, problems_forM_reportIf]
  cases hmissing : missingShapes cs t shapes with
  | nil | cons s missing => rfl

open scoped Classical in
/-- Coverage is told exactly. When the patterns passed and every type reached has a value, a match is told to leave
values out just when some value is taken by no arm. One problem names the constructors with such values in order, each
by a well-typed pattern that takes such a value. -/
theorem checkCoverage_exact {σ : Setting} {f₀ f : Findings} (hmodule : InModule σ f₀)
    (hlibrary : σ.library.Analyzed) (hsteps : Findings.Steps f₀ f) {t : Ty} {all}
    (hall : constructorsOf (f.enum? σ) t = some all) (hp : Peopled (constructorsOf (f.enum? σ)) t)
    {patterns : List Pattern}
    (hpass : ∀ p ∈ patterns, ∃ g, Findings.Steps f₀ g ∧ Clean (checkPattern t p) σ g) (span : Span) :
    ∃ missing unreachable,
      (checkCoverage span patterns t σ f).2.problems =
        (if missing = [] then [] else [⟨.nonExhaustive (missing.map Shape.text), span⟩]) ++
          unreachable ++ f.problems ∧
      (∀ r ∈ unreachable, r.cause = .unreachablePattern) ∧
      (missing ≠ [] ↔ ∃ v, Untaken (constructorsOf (f.enum? σ)) t patterns v) ∧
      missing.map Shape.ctor? =
        ((all.map (·.1)).filter fun c =>
          ∃ vs, Untaken (constructorsOf (f.enum? σ)) t patterns (.ctor c vs)).map some ∧
      ∀ s ∈ missing, Shape.Typed (constructorsOf (f.enum? σ)) t s ∧
        ∃ v, Untaken (constructorsOf (f.enum? σ)) t patterns v ∧ s.takes v = true := by
  have hd := (hmodule.steps hsteps).distinct hlibrary
  have hfit := fits_of_passed hmodule hsteps hpass
  refine ⟨_, _, problems_checkCoverage span patterns t σ f, ?_, ⟨?_, ?_⟩,
    ctors_missingShapes hd hfit hp hall, fun s hs => mem_missingShapes hd hfit hp hs⟩
  · intro r hr
    obtain ⟨a, -, rfl⟩ := List.mem_map.mp (List.mem_reverse.mp hr)
    rfl
  · intro hne
    obtain ⟨s, hs⟩ := List.exists_mem_of_ne_nil _ hne
    obtain ⟨-, v, hv, -⟩ := mem_missingShapes hd hfit hp hs
    exact ⟨v, hv⟩
  · rintro ⟨v, hv⟩ hnil
    obtain ⟨p, hmem, htakes⟩ := taken_of_missingShapes_eq_nil hd hfit hall hnil hv.1
    simp [hv.2 p hmem] at htakes

def plainSetting : Setting :=
  { module := "m", constDepth := 64, library := [], isEntry := false }

def plainFindings : Findings :=
  (collectDeclarations [] [] plainSetting {}).2

def someTrue : Pattern :=
  .variant default "Option" "Some" [.literal default (.bool true)]

lemma peopled_option_bool (enum? : Nominal → Option (List String × List VariantInfo)) :
    Peopled (constructorsOf enum?) (.option .bool) := by
  have hbool : ∀ w, Reaches (constructorsOf enum?) .bool w → w = .bool := by
    intro w hw
    cases hw with
    | refl => rfl
    | step hall hc hu _ =>
      cases hall
      simp only [mem_cons, Prod.mk.injEq, not_mem_nil, or_false] at hc
      obtain ⟨-, rfl⟩ | ⟨-, rfl⟩ := hc <;> simp at hu
  intro w hw
  cases hw with
  | refl => exact ⟨.ctor (.variant "Option" "None") [], .ctor rfl (by simp) .nil⟩
  | step hall hc hu hw =>
    cases hall
    simp only [mem_cons, Prod.mk.injEq, not_mem_nil, or_false] at hc
    obtain ⟨-, rfl⟩ | ⟨-, rfl⟩ := hc
    · obtain rfl := mem_singleton.1 hu
      obtain rfl := hbool w hw
      exact ⟨.ctor (.bool true) [], .ctor rfl (by simp) .nil⟩
    · simp at hu

lemma clean_someTrue : Clean (checkPattern (.option .bool) someTrue) plainSetting plainFindings :=
  rfl

open scoped Classical in
/-- A single arm for `Some(true)` passes its check. -/
theorem checkCoverage_exact_someTrue :
    let cs := constructorsOf (plainFindings.enum? plainSetting)
    ∃ missing unreachable,
      (checkCoverage default [someTrue] (.option .bool) plainSetting plainFindings).2.problems =
        (if missing = [] then [] else [⟨.nonExhaustive (missing.map Shape.text), default⟩]) ++
          unreachable ++ plainFindings.problems ∧
      (∀ r ∈ unreachable, r.cause = .unreachablePattern) ∧
      (missing ≠ [] ↔ ∃ v, Untaken cs (.option .bool) [someTrue] v) ∧
      missing.map Shape.ctor? =
        ([Ctor.variant "Option" "Some", .variant "Option" "None"].filter fun c =>
          ∃ vs, Untaken cs (.option .bool) [someTrue] (.ctor c vs)).map some ∧
      ∀ s ∈ missing, Shape.Typed cs (.option .bool) s ∧
        ∃ v, Untaken cs (.option .bool) [someTrue] v ∧ s.takes v = true := by
  have hmodule : InModule plainSetting plainFindings := ⟨plainSetting, [], [], rfl, .refl⟩
  refine checkCoverage_exact hmodule .nil .refl rfl (peopled_option_bool _) ?_ default
  intro p hp
  obtain rfl := List.mem_singleton.mp hp
  exact ⟨plainFindings, .refl, clean_someTrue⟩

end SourceCheck
