import SourceCheck.Proofs.Coverage.Witness

/-!
# Patterns and their shapes

A pattern that fits a type takes the same values as its shape, which fits the type. So `missingShapes` names exactly
the constructors with a value that no pattern takes.
-/

namespace SourceCheck

open List Shape SourceCheck.Matrix

variable {cs : Constructors} {patterns : List Pattern}

namespace Pattern

mutual

/-- Patterns that demand only constructors of the type, where it has finitely many. -/
inductive Fits (cs : Constructors) : Ty → Pattern → Prop where
  | wildcard {t span} : Fits cs t (.wildcard span)
  | binding {t span name mutable} : Fits cs t (.binding span name mutable)
  | bool {t span b} :
    cs.fields? t (.bool b) = some [] →
    Fits cs t (.literal span (.bool b))
  | tuple {t ts span elems} :
    cs.fields? t (.tuple elems.length) = some ts →
    FitsAll cs ts elems →
    Fits cs t (.tuple span elems)
  | bare {t ts span enum name} :
    cs.fields? t (.variant enum name) = some ts →
    Fits cs t (.variant span enum name [])
  | variant {t ts span enum name args} :
    cs.fields? t (.variant enum name) = some ts →
    FitsAll cs ts args →
    Fits cs t (.variant span enum name args)
  | unlisted {t p} :
    cs t = none →
    Fits cs t p

/-- Rows of patterns that demand only constructors of the types. -/
inductive FitsAll (cs : Constructors) : List Ty → List Pattern → Prop where
  | nil : FitsAll cs [] []
  | cons {t ts p ps} :
    Fits cs t p →
    FitsAll cs ts ps →
    FitsAll cs (t :: ts) (p :: ps)

end

lemma FitsAll.length_eq {cs ts ps} (h : FitsAll cs ts ps) : ps.length = ts.length := by
  match h with
  | .nil => rfl
  | .cons _ hs => simp [hs.length_eq]

end Pattern

attribute [local simp] Constructors.shape takes Pattern.takes takesAll

namespace Constructors

lemma mem_of_fields? {t c ts} (h : cs.fields? t c = some ts) : ∃ all, cs t = some all ∧ (c, ts) ∈ all := by
  obtain ⟨all, hall, hlookup⟩ := Option.bind_eq_some_iff.1 h
  obtain ⟨before, after, rfl, -⟩ := lookup_eq_some_iff.1 hlookup
  exact ⟨_, hall, by simp⟩

lemma fieldsOf_eq {t c ts n} (h : cs.fields? t c = some ts) (hn : ts.length = n) : cs.fieldsOf t c n = ts := by
  simp [fieldsOf, h, hn]

lemma fields?_eq_none {t} (c) (h : cs t = none) : cs.fields? t c = none := by
  simp [fields?, h]

mutual

lemma shape_fits {cs t p} (h : Pattern.Fits cs t p) : (cs.shape t p).Fits cs t := by
  match h with
  | .wildcard | .binding => exact .any
  | .bool hb =>
    obtain ⟨all, hall, hmem⟩ := mem_of_fields? hb
    exact .ctor hall hmem .nil
  | .tuple hf hs =>
    obtain ⟨all, hall, hmem⟩ := mem_of_fields? hf
    rw [shape, fieldsOf_eq hf hs.length_eq.symm]
    exact .ctor hall hmem (shapes_fit hs)
  | .bare hf =>
    obtain ⟨all, hall, hmem⟩ := mem_of_fields? hf
    simp only [shape, hf, isEmpty_nil, ↓reduceIte, map_const']
    exact .ctor hall hmem (FitsAll.anys _)
  | @Pattern.Fits.variant _ _ ts _ _ _ args hf hs =>
    obtain ⟨all, hall, hmem⟩ := mem_of_fields? hf
    simp only [shape, hf]
    refine .ctor hall hmem ?_
    split
    · rw [map_const']
      exact FitsAll.anys ts
    · exact shapes_fit hs
  | .unlisted hopen =>
    cases p with
    | wildcard | binding => exact .any
    | literal span l => cases l <;> exact .unlisted hopen
    | variant span enum name args =>
      simp only [shape, fields?_eq_none _ hopen]
      exact .unlisted hopen
    | tuple span elems => exact .unlisted hopen

lemma shapes_fit {cs ts ps} (h : Pattern.FitsAll cs ts ps) : FitsAll cs ts (cs.shapes ts ps) := by
  match h with
  | .nil => exact .nil
  | .cons hp hs => exact .cons (shape_fits hp) (shapes_fit hs)

end

lemma hasTypes_of_fields? (hd : cs.Distinct) {t c ts vs}
    (hf : cs.fields? t c = some ts) (hv : HasType cs t (.ctor c vs)) : HasTypes cs ts vs := by
  obtain ⟨all, hall, hmem⟩ := mem_of_fields? hf
  cases hv with
  | @ctor _ all' _ us _ hall' hmem' hvs =>
    obtain rfl : all' = all := Option.some.inj (hall'.symm.trans hall)
    obtain rfl := fields_unique hd hall hmem hmem'
    exact hvs
  | literal _ hopen _ => simp [hopen] at hall

lemma takes_shape_unlisted {t p v} (hopen : cs t = none) (hv : HasType cs t v) :
    (cs.shape t p).takes v = p.takes v := by
  cases hv with
  | ctor hall _ _ => simp [hopen] at hall
  | literal l _ _ =>
    cases p with
    | wildcard | binding => simp
    | literal span k => cases k <;> simp [eq_comm]
    | variant span enum name args =>
      simp [fields?_eq_none _ hopen]
    | tuple span elems => simp
  | other n _ _ =>
    cases p with
    | wildcard | binding => simp
    | literal span k => cases k <;> simp
    | variant span enum name args =>
      simp [fields?_eq_none _ hopen]
    | tuple span elems => simp

mutual

lemma takes_shape {cs} (hd : cs.Distinct) {t p v} (h : Pattern.Fits cs t p)
    (hv : HasType cs t v) : (cs.shape t p).takes v = p.takes v := by
  match h with
  | .wildcard | .binding => simp
  | .unlisted hopen => exact takes_shape_unlisted hopen hv
  | .bool hb =>
    cases v with
    | other n => simp
    | ctor c vs =>
      cases vs <;> simp [eq_comm]
  | @Pattern.Fits.tuple _ _ ts _ elems hf hs =>
    cases v with
    | other n => simp
    | ctor c vs =>
      rw [shape, fieldsOf_eq hf hs.length_eq.symm]
      simp only [takes, Pattern.takes]
      by_cases hc : c = .tuple elems.length
      · subst hc
        rw [takesAll_shapes hd hs (hasTypes_of_fields? hd hf hv)]
      · simp [hc, Ne.symm hc]
  | @Pattern.Fits.bare _ _ ts _ enum name hf =>
    cases v with
    | other n => simp [hf]
    | ctor c vs =>
      simp only [shape, hf, takes, Pattern.takes, isEmpty_nil, ↓reduceIte, Bool.true_or, Bool.and_true]
      by_cases hc : c = .variant enum name
      · subst hc
        rw [takesAll_anys_of_hasTypes (hasTypes_of_fields? hd hf hv)]
        simp
      · simp [hc, Ne.symm hc]
  | @Pattern.Fits.variant _ _ ts _ enum name args hf hs =>
    cases v with
    | other n => simp [hf]
    | ctor c vs =>
      simp only [shape, hf, takes, Pattern.takes]
      by_cases hc : c = .variant enum name
      · subst hc
        have hvs := hasTypes_of_fields? hd hf hv
        split
        · rename_i hempty
          rw [takesAll_anys_of_hasTypes hvs]
          simp [hempty]
        · rename_i hfull
          rw [takesAll_shapes hd hs hvs]
          simp [hfull]
      · simp [hc, Ne.symm hc]

lemma takesAll_shapes {cs} (hd : cs.Distinct) {ts ps vs} (h : Pattern.FitsAll cs ts ps)
    (hvs : HasTypes cs ts vs) : takesAll (cs.shapes ts ps) vs = Pattern.takesAll ps vs := by
  match h with
  | .nil =>
    cases hvs
    rfl
  | .cons hp hs =>
    cases hvs with
    | cons hv hvs =>
      simp only [shapes, takesAll, Pattern.takesAll]
      rw [takes_shape hd hp hv, takesAll_shapes hd hs hvs]

end

end Constructors

/-! ### One column -/

def Untaken (cs : Constructors) (t : Ty) (patterns : List Pattern) (v : Value) : Prop :=
  HasType cs t v ∧ ∀ p ∈ patterns, p.takes v = false

lemma covers_arms_iff (hd : cs.Distinct) {t v} (hfit : ∀ p ∈ patterns, Pattern.Fits cs t p) (hv : HasType cs t v) :
    Covers ((patterns.map (cs.shape t)).map ([·])) [v] ↔ ∃ p ∈ patterns, p.takes v = true := by
  constructor
  · rintro ⟨row, hrow, htakes⟩
    simp only [mem_map, exists_exists_and_eq_and] at hrow
    obtain ⟨p, hp, rfl⟩ := hrow
    refine ⟨p, hp, ?_⟩
    rw [← Constructors.takes_shape hd (hfit p hp) hv]
    simpa using htakes
  · rintro ⟨p, hp, htakes⟩
    refine ⟨[cs.shape t p], mem_map_of_mem (mem_map_of_mem hp), ?_⟩
    rw [← Constructors.takes_shape hd (hfit p hp) hv] at htakes
    simpa using htakes

lemma fits_arms {cs t} (hfit : ∀ p ∈ patterns, Pattern.Fits cs t p) :
    Fits cs [t] ((patterns.map (cs.shape t)).map ([·])) := by
  intro row hrow
  simp only [mem_map, exists_exists_and_eq_and] at hrow
  obtain ⟨p, hp, rfl⟩ := hrow
  exact .cons (Constructors.shape_fits (hfit p hp)) .nil

/-- The witness that is searched for one constructor. -/
def armWitness? (cs : Constructors) (arms : List Shape) (c : Ctor) (fields : List Ty) :
    Option (List Shape) :=
  Matrix.witness? cs (Matrix.specialize (arms.map ([·])) c fields.length) fields

lemma armWitness?_spec (hd : cs.Distinct) {t all c fields}
    (hfit : ∀ p ∈ patterns, Pattern.Fits cs t p) (hp : Peopled cs t) (hall : cs t = some all)
    (hc : (c, fields) ∈ all) : (armWitness? cs (patterns.map (cs.shape t)) c fields = none →
      ∀ vs, ¬ Untaken cs t patterns (.ctor c vs)) ∧
    ∀ args, armWitness? cs (patterns.map (cs.shape t)) c fields = some args → Typed cs t (.ctor c args) ∧
        ∃ vs, Untaken cs t patterns (.ctor c vs) ∧ (ctor c args).takes (.ctor c vs) = true := by
  have hmfit := (fits_arms hfit).specialize hd hall hc
  rw [append_nil] at hmfit
  constructor
  · rintro hnone vs ⟨hv, huntaken⟩
    cases hv with
    | @ctor _ all' _ us _ hall' hmem hvs =>
      obtain rfl : all' = all := Option.some.inj (hall'.symm.trans hall)
      obtain rfl := fields_unique hd hall hc hmem
      have hcov := covers_of_witness?_eq_none hd hmfit hvs hnone
      rw [← append_nil vs, covers_specialize hd (fits_arms hfit) hall hc hvs] at hcov
      obtain ⟨p, hp, htakes⟩ := (covers_arms_iff hd hfit (.ctor hall hc hvs)).mp hcov
      simp [huntaken p hp] at htakes
    | literal _ hopen _ => simp [hopen] at hall
  · intro args hsome
    obtain ⟨htyped, vs, hvs, htakes, hnot⟩ :=
      witness?_spec hd hmfit (fun u hu => hp.field hall hc hu) hsome
    refine ⟨.ctor hall hc htyped, vs, ⟨.ctor hall hc hvs, ?_⟩, by simpa using htakes⟩
    rw [← append_nil vs, covers_specialize hd (fits_arms hfit) hall hc hvs,
      covers_arms_iff hd hfit (.ctor hall hc hvs)] at hnot
    simpa using hnot

def Shape.ctor? : Shape → Option Ctor
  | .any => none
  | .ctor c _ => some c

open scoped Classical in
lemma ctors_missingShapes (hd : cs.Distinct) {t all}
    (hfit : ∀ p ∈ patterns, Pattern.Fits cs t p) (hp : Peopled cs t) (hall : cs t = some all) :
    (missingShapes cs t (patterns.map (cs.shape t))).map ctor? =
      ((all.map (·.1)).filter fun c => ∃ vs, Untaken cs t patterns (.ctor c vs)).map some := by
  have hspec : ∀ entry ∈ all, (armWitness? cs (patterns.map (cs.shape t)) entry.1 entry.2).isSome =
      decide (∃ vs, Untaken cs t patterns (.ctor entry.1 vs)) := by
    intro entry hentry
    obtain ⟨c, fields⟩ := entry
    obtain ⟨hnone, hsome⟩ := armWitness?_spec hd hfit hp hall hentry
    cases hw : armWitness? cs (patterns.map (cs.shape t)) c fields with
    | none => simpa using hnone hw
    | some args =>
      obtain ⟨-, vs, huntaken, -⟩ := hsome args hw
      simpa using ⟨vs, huntaken⟩
  simp only [missingShapes, hall]
  clear hall
  induction all with
  | nil => rfl
  | cons entry all ih =>
    have hentry := hspec entry (by simp)
    have hrest := ih fun e he => hspec e (by simp [he])
    simp only [armWitness?] at hentry
    cases hw : witness? cs (specialize ((patterns.map (cs.shape t)).map ([·])) entry.1
        entry.2.length) entry.2 with
    | none =>
      rw [hw] at hentry
      simp only [filterMap_cons, hw, Option.map_none, map_cons, filter_cons,
        ← hentry, Option.isSome_none, Bool.false_eq_true, ↓reduceIte]
      exact hrest
    | some args =>
      rw [hw] at hentry
      simp only [filterMap_cons, hw, Option.map_some, map_cons, filter_cons,
        ← hentry, Option.isSome_some, ↓reduceIte, ctor?]
      rw [hrest]

lemma mem_missingShapes (hd : cs.Distinct) {t s} (hfit : ∀ p ∈ patterns, Pattern.Fits cs t p) (hp : Peopled cs t)
    (hs : s ∈ missingShapes cs t (patterns.map (cs.shape t))) :
    Typed cs t s ∧ ∃ v, Untaken cs t patterns v ∧ s.takes v = true := by
  unfold missingShapes at hs
  split at hs
  · simp at hs
  · rename_i all hall
    obtain ⟨⟨c, fields⟩, hmem, hw⟩ := mem_filterMap.1 hs
    obtain ⟨args, hargs, rfl⟩ := Option.map_eq_some_iff.1 hw
    obtain ⟨htyped, vs, huntaken, htakes⟩ := (armWitness?_spec hd hfit hp hall hmem).2 args hargs
    exact ⟨htyped, _, huntaken, htakes⟩

/-- Where nothing is told missing, every value is taken, even if parts of the type have no values. -/
lemma taken_of_missingShapes_eq_nil (hd : cs.Distinct) {t all v} (hfit : ∀ p ∈ patterns, Pattern.Fits cs t p)
    (hall : cs t = some all) (h : missingShapes cs t (patterns.map (cs.shape t)) = []) (hv : HasType cs t v) :
    ∃ p ∈ patterns, p.takes v = true := by
  cases hv with
  | @ctor _ all' c us vs hall' hc hvs =>
    obtain rfl : all' = all := Option.some.inj (hall'.symm.trans hall)
    simp only [missingShapes, hall, filterMap_eq_nil_iff, Option.map_eq_none_iff] at h
    have hmfit := (fits_arms hfit).specialize hd hall hc
    rw [append_nil] at hmfit
    have hcov := covers_of_witness?_eq_none hd hmfit hvs (h (c, us) hc)
    rw [← append_nil vs, covers_specialize hd (fits_arms hfit) hall hc hvs] at hcov
    exact (covers_arms_iff hd hfit (.ctor hall hc hvs)).mp hcov
  | literal _ hopen _ | other _ hopen _ => simp [hopen] at hall

end SourceCheck
