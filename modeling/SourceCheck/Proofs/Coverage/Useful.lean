import SourceCheck.Proofs.Coverage.Lowering

/-!
# Useful rows

`Matrix.useful` says of a row whether it takes values that no row of the matrix takes. Each step of its recursion is
an equivalence between rows that add something.
-/

namespace SourceCheck

open List Shape

variable {m : Matrix} {all : List (Ctor × List Ty)}

attribute [local simp] takesAll takes

/-! ### Literals -/

namespace Shape

mutual

def atomic : Shape → Bool
  | .any => true
  | .ctor (.literal _) args => args.isEmpty
  | .ctor (.variant ..) args | .ctor (.bool _) args | .ctor (.tuple _) args => allAtomic args

def allAtomic : List Shape → Bool
  | [] => true
  | a :: as => a.atomic && allAtomic as

end

lemma allAtomic_iff {as} : allAtomic as = true ↔ ∀ a ∈ as, a.atomic = true := by
  induction as with
  | nil => simp [allAtomic]
  | cons a as ih => simp [allAtomic, ih]

lemma allAtomic_append {as bs} : allAtomic (as ++ bs) = (allAtomic as && allAtomic bs) := by
  induction as with
  | nil => rfl
  | cons a as ih => simp [allAtomic, ih, Bool.and_assoc]

lemma allAtomic_anys (n) : allAtomic (List.replicate n .any) = true := by
  rw [allAtomic_iff]
  intro a ha
  rw [eq_of_mem_replicate ha]
  rfl

lemma allAtomic_of_ctor {c args} (h : (ctor c args).atomic = true) : allAtomic args = true := by
  cases c with
  | literal l =>
    obtain rfl : args = [] := by simpa [atomic] using h
    rfl
  | _ => exact h

lemma TypedAll.append {cs ts us as bs} (h : TypedAll cs ts as) (h' : TypedAll cs us bs) :
    TypedAll cs (ts ++ us) (as ++ bs) := by
  match h with
  | .nil => exact h'
  | .cons ha hs => exact .cons ha (hs.append h')

end Shape

namespace Constructors

variable (cs : Constructors)

lemma fields?_of_mem {cs : Constructors} (hd : cs.Distinct) {t all c ts} (hall : cs t = some all)
    (hc : (c, ts) ∈ all) : cs.fields? t c = some ts := by
  cases hfields : cs.fields? t c with
  | none =>
    rw [fields?, hall, Option.bind_some, lookup_eq_none_iff] at hfields
    simpa using hfields (c, ts) hc
  | some us =>
    obtain ⟨all', hall', hc'⟩ := mem_of_fields? hfields
    obtain rfl : all' = all := Option.some.inj (hall'.symm.trans hall)
    rw [Matrix.fields_unique hd hall hc' hc]

mutual

lemma atomic_shape (t p) : (cs.shape t p).atomic = true := by
  match p with
  | .wildcard _ | .binding .. => rfl
  | .literal _ l => cases l <;> rfl
  | .tuple _ elems => exact atomic_shapes _ elems
  | .variant _ enum variant args =>
    rw [shape]
    split
    · rw [atomic]
      split
      · rw [map_const']
        exact allAtomic_anys _
      · exact atomic_shapes _ args
    · exact atomic_shapes _ args

lemma atomic_shapes (ts ps) : allAtomic (cs.shapes ts ps) = true := by
  match ps, ts with
  | [], _ | _ :: _, [] => rfl
  | p :: ps, t :: ts => simp [shapes, allAtomic, atomic_shape t p, atomic_shapes ts ps]

end

end Constructors

namespace Matrix

def Atomic (m : Matrix) : Prop :=
  ∀ row ∈ m, Shape.allAtomic row = true

lemma Atomic.specialize (h : m.Atomic) (c arity) : (m.specialize c arity).Atomic := by
  intro out hout
  obtain ⟨as, hrow, rfl⟩ | ⟨args, as, hrow, rfl⟩ := mem_specialize.1 hout
  · rw [allAtomic_append, allAtomic_anys]
    exact h (.any :: as) hrow
  · have hatomic := h _ hrow
    rw [allAtomic, Bool.and_eq_true] at hatomic
    rw [allAtomic_append, allAtomic_of_ctor hatomic.1, hatomic.2]
    rfl

lemma Atomic.defaultRows (h : m.Atomic) : m.defaultRows.Atomic :=
  fun out hout => h (.any :: out) (mem_defaultRows.1 hout)

lemma Atomic.args_eq_nil (h : m.Atomic) {l args as} (hrow : .ctor (.literal l) args :: as ∈ m) : args = [] := by
  have hargs := h _ hrow
  rw [allAtomic, Bool.and_eq_true] at hargs
  exact List.isEmpty_iff.1 hargs.1

lemma Fits.specialize_literal {cs t rest} (h : Fits cs (t :: rest) m)
    (hatomic : m.Atomic) (l) : Fits cs rest (m.specialize (.literal l) 0) := by
  intro out hout
  obtain ⟨as, hrow, rfl⟩ | ⟨args, as, hrow, rfl⟩ := mem_specialize.1 hout
  · cases h _ hrow with
    | cons _ has => exact has
  · obtain rfl := hatomic.args_eq_nil hrow
    cases h _ hrow with
    | cons _ has => exact has

/-! ### Rows that add something -/

/-- The row takes values that no row of the matrix takes. -/
def Adds (cs : Constructors) (m : Matrix) (row : List Shape) (ts : List Ty) : Prop :=
  ∃ vs, HasTypes cs ts vs ∧ Shape.takesAll row vs = true ∧ ¬ m.Covers vs

section

variable {cs : Constructors} {m : Matrix} {t : Ty} {rest : List Ty} {as : List Shape}

lemma adds_nil_iff (hfit : Fits cs [] m) : Adds cs m [] [] ↔ m.isEmpty = true := by
  constructor
  · rintro ⟨vs, hvs, -, hnot⟩
    cases hvs
    rw [List.isEmpty_iff]
    by_contra hne
    obtain ⟨row, hrow⟩ := exists_mem_of_ne_nil m hne
    cases hfit row hrow
    exact hnot ⟨[], hrow, rfl⟩
  · intro hempty
    rw [List.isEmpty_iff] at hempty
    subst hempty
    exact ⟨[], .nil, rfl, fun ⟨_, hrow, _⟩ => by cases hrow⟩

lemma adds_ctor_iff (hd : cs.Distinct) (hfit : Fits cs (t :: rest) m) {c us} (hall : cs t = some all)
    (hc : (c, us) ∈ all) {args} (hargs : args.length = us.length) :
    Adds cs m (.ctor c args :: as) (t :: rest) ↔ Adds cs (m.specialize c us.length) (args ++ as) (us ++ rest) := by
  constructor
  · rintro ⟨vs, hvs, htakes, hnot⟩
    cases hvs with
    | @cons _ _ v vs hv hvs =>
      rw [takesAll, Bool.and_eq_true] at htakes
      cases hv with
      | @ctor _ all' d us' ws hall' hd' hws =>
        rw [takes, Bool.and_eq_true, decide_eq_true_eq] at htakes
        obtain ⟨⟨rfl, hfields⟩, htail⟩ := htakes
        obtain rfl : all' = all := Option.some.inj (hall'.symm.trans hall)
        obtain rfl := fields_unique hd hall hd' hc
        refine ⟨ws ++ vs, hws.append hvs, ?_, fun hcov => hnot ?_⟩
        · rw [takesAll_append (length_eq_of_takesAll hfields), hfields, htail]
          rfl
        · exact (covers_specialize hd hfit hall hc hws).mp hcov
      | literal _ hnone _ | other _ hnone _ => rw [hnone] at hall; cases hall
  · rintro ⟨vs, hvs, htakes, hnot⟩
    obtain ⟨ws, vs, rfl, hws, hvs⟩ := hvs.split
    rw [takesAll_append (hargs.trans hws.length_eq.symm), Bool.and_eq_true] at htakes
    refine ⟨.ctor c ws :: vs, .cons (.ctor hall hc hws) hvs, ?_, fun hcov => hnot ?_⟩
    · simp [htakes]
    · exact (covers_specialize hd hfit hall hc hws).mpr hcov

lemma covers_specialize_literal (hatomic : m.Atomic) {l vs} :
    (m.specialize (.literal l) 0).Covers vs ↔ m.Covers (.ctor (.literal l) [] :: vs) := by
  constructor
  · rintro ⟨out, hout, htakes⟩
    obtain ⟨as, hrow, rfl⟩ | ⟨args, as, hrow, rfl⟩ := mem_specialize.1 hout
    · exact ⟨_, hrow, htakes⟩
    · obtain rfl := hatomic.args_eq_nil hrow
      exact ⟨_, hrow, by simpa using htakes⟩
  · rintro ⟨row, hrow, htakes⟩
    obtain _ | ⟨_ | ⟨d, _ | ⟨a, args⟩⟩, rest⟩ := row
    · cases htakes
    · exact ⟨rest, mem_specialize.2 (.inl ⟨rest, hrow, rfl⟩), htakes⟩
    · rw [takesAll, Bool.and_eq_true, takes, Bool.and_eq_true, decide_eq_true_eq] at htakes
      obtain ⟨⟨rfl, -⟩, hrest⟩ := htakes
      exact ⟨rest, mem_specialize.2 (.inr ⟨[], rest, hrow, rfl⟩), hrest⟩
    · simp at htakes

lemma adds_literal_iff (hatomic : m.Atomic) (hopen : cs t = none) (hne : t ≠ .never) {l} :
    Adds cs m (.ctor (.literal l) [] :: as) (t :: rest) ↔ Adds cs (m.specialize (.literal l) 0) as rest := by
  constructor
  · rintro ⟨vs, hvs, htakes, hnot⟩
    cases hvs with
    | @cons _ _ v vs hv hvs =>
      rw [takesAll, Bool.and_eq_true] at htakes
      match v, htakes with
      | .ctor d [], htakes =>
        rw [takes, Bool.and_eq_true, decide_eq_true_eq] at htakes
        obtain ⟨⟨rfl, -⟩, hrest⟩ := htakes
        exact ⟨vs, hvs, hrest, fun hcov => hnot ((covers_specialize_literal hatomic).mp hcov)⟩
      | .ctor d (w :: ws), htakes => simp at htakes
  · rintro ⟨vs, hvs, htakes, hnot⟩
    refine ⟨.ctor (.literal l) [] :: vs, .cons (.literal l hopen hne) hvs, ?_, fun hcov => hnot ?_⟩
    · simpa using htakes
    · exact (covers_specialize_literal hatomic).mpr hcov

lemma adds_any_iff_exists (hall : cs t = some all) : Adds cs m (.any :: as) (t :: rest) ↔
      ∃ entry ∈ all, Adds cs m (.ctor entry.1 (List.replicate entry.2.length .any) :: as) (t :: rest) := by
  constructor
  · rintro ⟨vs, hvs, htakes, hnot⟩
    cases hvs with
    | @cons _ _ v vs hv hvs =>
      cases hv with
      | @ctor _ all' c us ws hall' hc hws =>
        obtain rfl : all' = all := Option.some.inj (hall'.symm.trans hall)
        refine ⟨(c, us), hc, .ctor c ws :: vs, .cons (.ctor hall hc hws) hvs, ?_, hnot⟩
        rw [← hws.length_eq]
        simp only [takesAll, takes, takesAll_anys, Bool.and_eq_true] at htakes ⊢
        exact ⟨⟨decide_true _, trivial⟩, htakes.2⟩
      | literal _ hnone _ | other _ hnone _ => rw [hnone] at hall; cases hall
  · rintro ⟨entry, -, vs, hvs, htakes, hnot⟩
    refine ⟨vs, hvs, ?_, hnot⟩
    cases hvs with
    | cons hv hvs =>
      rw [takesAll, Bool.and_eq_true] at htakes ⊢
      exact ⟨rfl, htakes.2⟩

lemma adds_any_iff_defaultRows {v} (hv : HasType cs t v)
    (hheads : ∀ d args as, .ctor d args :: as ∈ m → (ctor d args).takes v = false) :
    Adds cs m (.any :: as) (t :: rest) ↔ Adds cs m.defaultRows as rest := by
  constructor
  · rintro ⟨vs, hvs, htakes, hnot⟩
    cases hvs with
    | cons hw hvs =>
      rw [takesAll, Bool.and_eq_true] at htakes
      exact ⟨_, hvs, htakes.2, fun hcov => hnot (covers_of_defaultRows _ hcov)⟩
  · rintro ⟨vs, hvs, htakes, hnot⟩
    refine ⟨v :: vs, .cons hv hvs, ?_, fun hcov => hnot (covers_defaultRows hheads hcov)⟩
    simpa using htakes

lemma exists_absent (hall : cs t = some all) (hp : Peopled cs t) (hheads : ¬ m.hasHeads all = true) :
    ∃ v, HasType cs t v ∧ ∀ d args as, .ctor d args :: as ∈ m → (ctor d args).takes v = false := by
  obtain ⟨c, us, hc, habsent, -⟩ := absentHead_spec hheads
  obtain ⟨ws, hws⟩ := Peopled.exists_values fun u hu => hp.field hall hc hu
  refine ⟨.ctor c ws, .ctor hall hc hws, ?_⟩
  intro d args as hrow
  have hne : d ≠ c := by
    rintro rfl
    rw [hasHead_of_row_mem hrow] at habsent
    cases habsent
  simp [hne]

end

lemma useful_iff_adds {cs : Constructors} (hd : cs.Distinct) {row ts} (hfit : Fits cs ts m) (hatomic : m.Atomic)
    (hrow : TypedAll cs ts row) (hp : ∀ t ∈ ts, Peopled cs t) : m.useful cs row ts = true ↔ Adds cs m row ts := by
  -- The induction follows the recursion of the search, where the matrix, the row and the types change together.
  fun_induction useful cs m row ts with
  | case1 m ts =>
    cases hrow
    exact (adds_nil_iff hfit).symm
  | case2 m ts c args as ih =>
    cases hrow with
    | @cons t rest _ _ ha has =>
      simp only [headD_cons, tail_cons] at ih ⊢
      have hrest : ∀ u ∈ rest, Peopled cs u := fun u hu => hp u (by simp [hu])
      cases ha with
      | @ctor _ all _ us _ hall hc hargs =>
        have hfields : cs.fieldsOf t c args.length = us :=
          Constructors.fieldsOf_eq (Constructors.fields?_of_mem hd hall hc) hargs.length_eq.symm
        rw [hfields, hargs.length_eq] at ih
        rw [hfields, hargs.length_eq, adds_ctor_iff hd hfit hall hc hargs.length_eq]
        refine ih (hfit.specialize hd hall hc) (hatomic.specialize c _) (hargs.append has) fun u hu => ?_
        obtain hu | hu := mem_append.1 hu
        · exact (hp t (by simp)).field hall hc hu
        · exact hrest u hu
      | literal l hopen =>
        have hfields : cs.fieldsOf t (.literal l) 0 = [] := by
          simp [Constructors.fieldsOf, Constructors.fields?_eq_none _ hopen]
        simp only [length_nil, hfields, nil_append] at ih ⊢
        rw [adds_literal_iff hatomic hopen ((hp t (by simp)).ne_never hopen)]
        exact ih (Fits.specialize_literal hfit hatomic l) (hatomic.specialize _ 0) has hrest
  | case3 m ts as hopen ih =>
    cases hrow with
    | @cons t rest _ _ _ has =>
      rw [headD_cons] at hopen
      rw [tail_cons] at ih ⊢
      have hother : HasType cs t (.other 0) := .other 0 hopen ((hp t (by simp)).ne_never hopen)
      rw [adds_any_iff_defaultRows hother fun _ _ _ _ => rfl]
      exact ih hfit.defaultRows hatomic.defaultRows has fun u hu => hp u (by simp [hu])
  | case4 m ts as all hall hheads ih =>
    cases hrow with
    | @cons t rest _ _ _ has =>
      rw [headD_cons] at hall
      rw [tail_cons] at ih ⊢
      rw [adds_any_iff_exists hall, any_eq_true]
      have hentry : ∀ entry (hentry : entry ∈ all),
          useful cs (m.specialize entry.1 entry.2.length) (List.replicate entry.2.length .any ++ as)
              (entry.2 ++ rest) = true ↔
            Adds cs m (.ctor entry.1 (List.replicate entry.2.length .any) :: as) (t :: rest) := by
        intro entry hentry
        rw [adds_ctor_iff hd hfit hall hentry (by simp)]
        refine ih entry hentry (hfit.specialize hd hall hentry) (hatomic.specialize _ _) ?_ fun u hu => ?_
        · have hanys : TypedAll cs entry.2 (entry.2.map fun _ => .any) := TypedAll.anys entry.2
          rw [map_const'] at hanys
          exact hanys.append has
        · obtain hu | hu := mem_append.1 hu
          · exact (hp t (by simp)).field hall hentry hu
          · exact hp u (by simp [hu])
      constructor
      · rintro ⟨⟨entry, hmem⟩, -, huseful⟩
        exact ⟨entry, hmem, (hentry entry hmem).mp huseful⟩
      · rintro ⟨entry, hmem, hadds⟩
        exact ⟨⟨entry, hmem⟩, mem_attach _ _, (hentry entry hmem).mpr hadds⟩
  | case5 m ts as all hall hheads ih =>
    cases hrow with
    | @cons t rest _ _ _ has =>
      rw [headD_cons] at hall
      rw [tail_cons] at ih ⊢
      obtain ⟨v, hv, habsent⟩ := exists_absent hall (hp t (by simp)) hheads
      rw [adds_any_iff_defaultRows hv habsent]
      exact ih hfit.defaultRows hatomic.defaultRows has fun u hu => hp u (by simp [hu])

end Matrix

end SourceCheck
