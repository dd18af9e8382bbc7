import Mathlib.Data.List.Nodup
import SourceCheck.Proofs.Coverage.Value

/-!
# Witnesses are exact

`Matrix.witness?` finds a row of shapes just when some row of values is taken by no row of the matrix. Splitting and
dropping a column are read back as statements about the values that are taken; the induction then only moves values
between columns.
-/

namespace SourceCheck

open List Shape Option

variable {cs : Constructors} {m : Matrix}

namespace Matrix

def Covers (m : Matrix) (vs : List Value) : Prop :=
  ∃ row ∈ m, Shape.takesAll row vs = true

/-- Every row demands only constructors of the types. -/
def Fits (cs : Constructors) (ts : List Ty) (m : Matrix) : Prop :=
  ∀ row ∈ m, Shape.FitsAll cs ts row

/-! ### Splitting a column -/

lemma fields_unique (hd : cs.Distinct) {t all c ts us} (hall : cs t = some all)
    (h1 : (c, ts) ∈ all) (h2 : (c, us) ∈ all) : ts = us := by
  have hn : (all.map (·.1)).Nodup := hd t all hall
  have e := inj_on_of_nodup_map hn h1 h2 rfl
  exact congrArg Prod.snd e

lemma mem_specialize {c n out} : out ∈ m.specialize c n ↔
    (∃ as, .any :: as ∈ m ∧ out = replicate n .any ++ as) ∨ ∃ args as, .ctor c args :: as ∈ m ∧
      out = args ++ as := by
  rw [specialize, mem_filterMap]
  constructor
  · rintro ⟨_ | ⟨_ | ⟨d, args⟩, as⟩, hrow, hspec⟩
    · cases hspec
    · cases hspec
      exact .inl ⟨as, hrow, rfl⟩
    · rw [specializeRow, ite_none_right_eq_some, some_inj] at hspec
      obtain ⟨rfl, rfl⟩ := hspec
      exact .inr ⟨args, as, hrow, rfl⟩
  · rintro (⟨as, hrow, rfl⟩ | ⟨args, as, hrow, rfl⟩)
    · exact ⟨_, hrow, rfl⟩
    · exact ⟨_, hrow, by simp [specializeRow]⟩

lemma mem_defaultRows {out} : out ∈ m.defaultRows ↔ .any :: out ∈ m := by
  rw [defaultRows, mem_filterMap]
  refine ⟨?_, fun h => ⟨_, h, rfl⟩⟩
  rintro ⟨_ | ⟨_ | ⟨d, args⟩, as⟩, hrow, hdef⟩ <;> cases hdef
  exact hrow

lemma Fits.of_ctor_mem (hd : cs.Distinct) {t rest all c ts args as} (h : Fits cs (t :: rest) m) (hall : cs t = some all)
    (hc : (c, ts) ∈ all) (hrow : .ctor c args :: as ∈ m) : FitsAll cs ts args ∧ FitsAll cs rest as := by
  cases h _ hrow with
  | cons ha has =>
    cases ha with
    | @ctor _ all' d us args hall' hd' hargs =>
      obtain rfl : all' = all := some.inj (hall'.symm.trans hall)
      obtain rfl := fields_unique hd hall hd' hc
      exact ⟨hargs, has⟩
    | unlisted hnone => simp [hnone] at hall

lemma Fits.specialize (hd : cs.Distinct) {t rest all c ts m} (h : Fits cs (t :: rest) m) (hall : cs t = some all)
    (hc : (c, ts) ∈ all) : Fits cs (ts ++ rest) (m.specialize c ts.length) := by
  intro out hout
  obtain ⟨as, hrow, rfl⟩ | ⟨args, as, hrow, rfl⟩ := mem_specialize.1 hout
  · cases h _ hrow with
    | cons _ has => exact (FitsAll.anys ts).append has
  · obtain ⟨hargs, has⟩ := h.of_ctor_mem hd hall hc hrow
    exact hargs.append has

lemma Fits.defaultRows {cs t rest m} (h : Fits cs (t :: rest) m) : Fits cs rest m.defaultRows := by
  intro out hout
  cases h _ (mem_defaultRows.1 hout) with
  | cons _ has => exact has

attribute [local simp] takesAll

lemma covers_specialize (hd : cs.Distinct) {t rest all c ts m vs ws}
    (h : Fits cs (t :: rest) m) (hall : cs t = some all) (hc : (c, ts) ∈ all) (hvs : HasTypes cs ts vs) :
    (m.specialize c ts.length).Covers (vs ++ ws) ↔ m.Covers (.ctor c vs :: ws) := by
  constructor
  · rintro ⟨out, hout, htakes⟩
    obtain ⟨as, hrow, rfl⟩ | ⟨args, as, hrow, rfl⟩ := mem_specialize.1 hout
    · rw [← hvs.length_eq, takesAll_append (by simp), Bool.and_eq_true] at htakes
      exact ⟨_, hrow, by simpa [takes] using htakes.2⟩
    · have hargs := (h.of_ctor_mem hd hall hc hrow).1
      rw [takesAll_append (hargs.length_eq.trans hvs.length_eq.symm)] at htakes
      exact ⟨_, hrow, by simpa [takes] using htakes⟩
  · rintro ⟨row, hrow, htakes⟩
    cases row with
    | nil => simp at htakes
    | cons a as =>
      simp only [takesAll, Bool.and_eq_true] at htakes
      obtain ⟨ha, has⟩ := htakes
      cases a with
      | any =>
        refine ⟨_, mem_specialize.2 (.inl ⟨as, hrow, rfl⟩), ?_⟩
        rw [← hvs.length_eq, takesAll_append (by simp), takesAll_anys, has]
        rfl
      | ctor d args =>
        simp only [takes, Bool.and_eq_true, decide_eq_true_eq] at ha
        obtain ⟨rfl, hargs⟩ := ha
        refine ⟨_, mem_specialize.2 (.inr ⟨args, as, hrow, rfl⟩), ?_⟩
        rw [takesAll_append (length_eq_of_takesAll hargs), hargs, has]
        rfl

/-! ### Dropping a column -/

lemma covers_of_defaultRows {vs} (v) (h : m.defaultRows.Covers vs) : m.Covers (v :: vs) := by
  obtain ⟨out, hout, htakes⟩ := h
  exact ⟨_, mem_defaultRows.1 hout, by simpa [takes] using htakes⟩

lemma covers_defaultRows {v vs} (hv : ∀ d args as, .ctor d args :: as ∈ m → (ctor d args).takes v = false)
    (h : m.Covers (v :: vs)) : m.defaultRows.Covers vs := by
  obtain ⟨row, hrow, htakes⟩ := h
  cases row with
  | nil => simp at htakes
  | cons a as =>
    simp only [takesAll, Bool.and_eq_true] at htakes
    cases a with
    | any => exact ⟨as, mem_defaultRows.2 hrow, htakes.2⟩
    | ctor d args => simp [hv d args as hrow] at htakes

lemma hasHead_of_row_mem {d args as} (h : .ctor d args :: as ∈ m) : m.hasHead d = true :=
  any_eq_true.2 ⟨_, h, by simp⟩

/-! ### The search -/

lemma covers_of_witness?_eq_none (hd : cs.Distinct) {m ts vs}
    (hfit : Fits cs ts m) (hvs : HasTypes cs ts vs) (h : m.witness? cs ts = none) : m.Covers vs := by
  fun_induction witness? cs m ts generalizing vs with
  | case1 m hempty => simp at h
  | case2 m hempty =>
    obtain ⟨row, hrow⟩ := exists_mem_of_ne_nil m (by simpa using hempty)
    cases hvs
    cases hfit row hrow
    exact ⟨[], hrow, rfl⟩
  | case3 m t rest hopen ih =>
    cases hvs with
    | cons hv hvs =>
      exact covers_of_defaultRows _ (ih hfit.defaultRows hvs (by simpa using h))
  | case4 m t rest all hall hheads ih =>
    cases hvs with
    | cons hv hvs =>
      cases hv with
      | @ctor _ all' c us ws hall' hc hws =>
        obtain rfl : all' = all := some.inj (hall'.symm.trans hall)
        have hnone := List.findSome?_eq_none_iff.1 h ⟨(c, us), hc⟩ (mem_attach _ _)
        have hcov := ih (c, us) hc (hfit.specialize hd hall hc) (hws.append hvs) (by simpa using hnone)
        exact (covers_specialize hd hfit hall hc hws).mp hcov
      | literal _ hnone _ | other _ hnone _ => simp [hnone] at hall
  | case5 m t rest all hall hheads ih =>
    cases hvs with
    | cons hv hvs =>
      exact covers_of_defaultRows _ (ih hfit.defaultRows hvs (by simpa using h))

lemma absentHead_spec {all} (h : ¬ m.hasHeads all = true) :
    ∃ c ts, (c, ts) ∈ all ∧ m.hasHead c = false ∧ m.absentHead all = .ctor c (ts.map fun _ => .any) := by
  have hex : ∃ entry ∈ all, (!m.hasHead entry.1) = true := by
    simpa [hasHeads] using h
  unfold absentHead
  cases hfind : all.find? fun entry => !m.hasHead entry.1 with
  | none =>
    obtain ⟨entry, hmem, habsent⟩ := hex
    exact absurd habsent (List.find?_eq_none.1 hfind entry hmem)
  | some entry =>
    have habsent := List.find?_some hfind
    exact ⟨entry.1, entry.2, mem_of_find?_eq_some hfind, by simpa using habsent, rfl⟩

lemma witness?_spec (hd : cs.Distinct) {m ts row}
    (hfit : Fits cs ts m) (hp : ∀ t ∈ ts, Peopled cs t) (h : m.witness? cs ts = some row) : TypedAll cs ts row ∧
      ∃ vs, HasTypes cs ts vs ∧ takesAll row vs = true ∧ ¬ m.Covers vs := by
  fun_induction witness? cs m ts generalizing row with
  | case1 m hempty =>
    cases h
    refine ⟨.nil, [], .nil, rfl, ?_⟩
    rintro ⟨row, hrow, -⟩
    simp_all
  | case2 m hempty => simp at h
  | case3 m t rest hopen ih =>
    obtain ⟨found, hfound, rfl⟩ := map_eq_some_iff.1 h
    obtain ⟨htyped, vs, hvs, htakes, hnot⟩ :=
      ih hfit.defaultRows (fun u hu => hp u (by simp [hu])) hfound
    have hne := (hp t (by simp)).ne_never hopen
    refine ⟨.cons .any htyped, .other 0 :: vs, .cons (.other 0 hopen hne) hvs, ?_, ?_⟩
    · simpa [takes] using htakes
    · exact fun hcov => hnot (covers_defaultRows (fun _ _ _ _ => by simp [takes]) hcov)
  | case4 m t rest all hall hheads ih =>
    obtain ⟨⟨⟨c, us⟩, hc⟩, -, hentry⟩ := exists_of_findSome?_eq_some h
    obtain ⟨found, hfound, rfl⟩ := map_eq_some_iff.1 hentry
    have hpeopled : ∀ u ∈ us ++ rest, Peopled cs u := by
      intro u hu
      rcases mem_append.1 hu with hu | hu
      · exact (hp t (by simp)).field hall hc hu
      · exact hp u (by simp [hu])
    obtain ⟨htyped, vs, hvs, htakes, hnot⟩ :=
      ih (c, us) hc (hfit.specialize hd hall hc) hpeopled hfound
    obtain ⟨hleft, hright⟩ := htyped.split
    obtain ⟨xs, ys, rfl, hxs, hys⟩ := hvs.split
    refine ⟨.cons (.ctor hall hc hleft) hright, .ctor c xs :: ys, .cons (.ctor hall hc hxs) hys, ?_, ?_⟩
    · have hlen : (found.take us.length).length = xs.length := by
        rw [hleft.length_eq, hxs.length_eq]
      rw [← take_append_drop us.length found, takesAll_append hlen, Bool.and_eq_true]
        at htakes
      simpa [takes] using htakes
    · exact fun hcov => hnot ((covers_specialize hd hfit hall hc hxs).mpr hcov)
  | case5 m t rest all hall hheads ih =>
    obtain ⟨found, hfound, rfl⟩ := map_eq_some_iff.1 h
    obtain ⟨htyped, vs, hvs, htakes, hnot⟩ :=
      ih hfit.defaultRows (fun u hu => hp u (by simp [hu])) hfound
    obtain ⟨c, us, hc, habsent, hshape⟩ := absentHead_spec hheads
    obtain ⟨ws, hws⟩ := Peopled.exists_values fun u hu => (hp t (by simp)).field hall hc hu
    rw [hshape]
    refine ⟨.cons (.ctor hall hc (TypedAll.anys us)) htyped, .ctor c ws :: vs,
      .cons (.ctor hall hc hws) hvs, ?_, ?_⟩
    · have hany := takesAll_anys_of_hasTypes hws
      simp only [takesAll, takes, hany, htakes, decide_true, Bool.and_self]
    · refine fun hcov => hnot (covers_defaultRows ?_ hcov)
      intro d args as hrow
      have hpresent := hasHead_of_row_mem hrow
      have hne : d ≠ c := by
        rintro rfl
        simp [hpresent] at habsent
      simp [takes, hne]

end Matrix

end SourceCheck
