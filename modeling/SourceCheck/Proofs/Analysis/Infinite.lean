import SourceCheck.Analysis.Module
import SourceCheck.Proofs.Ty.Layout

/-!
# Types that contain themselves

A struct or enum has no finite size if it holds itself by value. The search looks at names only, so what it reports is
right, but it does not see a type that comes in as an argument. Where arguments hold no structs and enums by value, it
finds all.
-/

namespace SourceCheck

open Relation List

/-! ### The search -/

namespace NominalTable

variable {table : NominalTable} {n k root : Nominal}

def Lists (table : NominalTable) (n k : Nominal) : Prop :=
  k ∈ Ty.inlineNominalsAll ((table.lookup n).getD [])

lemma lists_of_erase (h : (table.erase n).Lists k root) : table.Lists k root := by
  unfold Lists at h
  rw [lookup_erase] at h
  split at h
  · cases h
  · exact h

lemma exists_path_erase (n) (h : ReflTransGen table.Lists k root) :
    ReflTransGen (table.erase n).Lists k root ∨ ∃ j, table.Lists n j ∧
      ReflTransGen (table.erase n).Lists j root := by
  induction h using ReflTransGen.head_induction_on with
  | refl => exact .inl .refl
  | @head k j hkj _ ih =>
    obtain hpath | hpath := ih
    · by_cases hk : k = n
      · exact .inr ⟨j, hk ▸ hkj, hpath⟩
      · refine .inl (.head ?_ hpath)
        unfold Lists
        rw [lookup_erase, if_neg hk]
        exact hkj
    · exact .inr hpath

lemma reaches_iff (table : NominalTable) (root pending) :
    table.reaches root pending = true ↔ ∃ n ∈ pending, ReflTransGen table.Lists n root := by
  fun_induction NominalTable.reaches table root pending with
  | case1 => simp
  | case2 => simp only [true_iff]; exact ⟨root, by simp, .refl⟩
  | case3 table n rest hne hnone ih =>
    rw [ih]
    constructor
    · rintro ⟨k, hk, hpath⟩
      exact ⟨k, by simp [hk], hpath⟩
    · rintro ⟨k, hk, hpath⟩
      obtain rfl | hk := mem_cons.1 hk
      · obtain rfl | ⟨j, hj, -⟩ := hpath.cases_head
        · exact absurd rfl hne
        · rw [Lists, hnone] at hj
          cases hj
      · exact ⟨k, hk, hpath⟩
  | case4 table n rest hne members hsome ih =>
    have hlists (j : Nominal) : table.Lists n j ↔ j ∈ Ty.inlineNominalsAll members := by
      rw [Lists, hsome]
      rfl
    rw [ih]
    constructor
    · rintro ⟨k, hk, hpath⟩
      have hpath := ReflTransGen.mono (fun _ _ => lists_of_erase) _ _ hpath
      obtain hk | hk := mem_append.1 hk
      · exact ⟨n, by simp, .head ((hlists k).mpr hk) hpath⟩
      · exact ⟨k, by simp [hk], hpath⟩
    · rintro ⟨k, hk, hpath⟩
      obtain hpath' | ⟨j, hj, hpath'⟩ := exists_path_erase n hpath
      · obtain rfl | hk := mem_cons.1 hk
        · obtain rfl | ⟨j, hj, -⟩ := hpath'.cases_head
          · exact absurd rfl hne
          · rw [Lists, lookup_erase, if_pos rfl] at hj
            cases hj
        · exact ⟨k, by simp [hk], hpath'⟩
      · exact ⟨j, mem_append.2 (.inl ((hlists j).mp hj)), hpath'⟩

lemma isInfinite_iff (table : NominalTable) (n) : table.isInfinite n = true ↔ TransGen table.Lists n n := by
  rw [NominalTable.isInfinite, reaches_iff, TransGen.head'_iff]
  rfl

/-! ### Containment with type arguments -/

/-- The members with type arguments in place of type parameters. -/
def instantiated (table : NominalTable) (params : Nominal → List String) (n : Nominal) (args : List Ty) : List Ty :=
  ((table.lookup n).getD []).map (·.substitute (Bindings.ofLists (params n) args).type?)

def ContainsItself (table : NominalTable) (params : Nominal → List String) (n : Nominal) : Prop :=
  ∃ t ∈ table.instantiated params n ((params n).map .param), ∃ u, Ty.Holds (table.instantiated params) t u ∧
    u.nominal? = some n

end NominalTable

namespace Ty

variable {members : Nominal → List Ty → List Ty} {types : String → Option Ty} {t u : Ty} {k n : Nominal}

/-- What is held by value inside a type as it is written. -/
abbrev HoldsWritten : Ty → Ty → Prop :=
  Holds fun _ _ => []

/-- Type arguments of what is held by value hold no structs and enums by value. -/
def PlainArgs (t : Ty) : Prop :=
  ∀ u, HoldsWritten t u → ∀ n args, u = .struct n args ∨ u = .enum n args → inlineNominalsAll args = []

lemma mem_inlineNominalsAll {ts} : k ∈ inlineNominalsAll ts ↔ ∃ t ∈ ts, k ∈ t.inlineNominals := by
  induction ts with
  | nil => simp [inlineNominalsAll]
  | cons t ts ih => simp [inlineNominalsAll, ih]

lemma inlineNominals_of_nominal (h : t.nominal? = some n) : t.inlineNominals = [n] := by
  cases t <;> cases h
  all_goals rfl

lemma mem_inlineNominals_of_none (members : Nominal → List Ty → List Ty) (h : t.nominal? = none) :
    k ∈ t.inlineNominals ↔ ∃ u ∈ t.parts members, k ∈ u.inlineNominals := by
  cases t with
  | tuple ts => exact mem_inlineNominalsAll
  | array _ _ | option _ | result _ _ => simp [inlineNominals, parts]
  | struct _ _ | enum _ _ => cases h
  | _ => simp [inlineNominals, parts]

lemma parts_of_nominal (h : t.nominal? = some n) : ∃ args, ∀ members, t.parts members = members n args := by
  cases t <;> cases h
  all_goals exact ⟨_, fun _ => rfl⟩

lemma substituteList_eq_map (ts) : substituteList types ts = ts.map (·.substitute types) := by
  induction ts with
  | nil => rfl
  | cons t ts ih => rw [substituteList, ih, map_cons]

lemma nominal?_substitute (types : String → Option Ty) (h : t.nominal? = some n) :
    (t.substitute types).nominal? = some n := by
  cases t <;> cases h
  all_goals rfl

attribute [local simp] substitute

/-- The parts of a type without members are replaced one by one. -/
lemma mem_parts_substitute (hparam : ∀ x, t ≠ .param x) (hn : t.nominal? = none) :
    u ∈ (t.substitute types).parts members ↔ ∃ v ∈ t.parts fun _ _ => [], u = v.substitute types := by
  cases t with
  | tuple ts => simp [parts, substituteList_eq_map, eq_comm]
  | array _ _ | option _ | result _ _ => simp [parts]
  | param x => exact absurd rfl (hparam x)
  | struct _ _ | enum _ _ => cases hn
  | _ => simp [parts]

/-- What is named by value is held, whatever the type parameters stand for. -/
lemma exists_holds_substitute (t : Ty) (h : k ∈ t.inlineNominals) :
    ∃ u, Holds members (t.substitute types) u ∧ u.nominal? = some k := by
  cases hn : t.nominal? with
  | some n =>
    rw [inlineNominals_of_nominal hn, mem_singleton] at h
    exact ⟨_, .refl, h ▸ nominal?_substitute types hn⟩
  | none =>
    obtain ⟨v, hv, hk⟩ := (mem_inlineNominals_of_none (fun _ _ => []) hn).mp h
    obtain ⟨u, hu, huk⟩ := exists_holds_substitute v hk
    refine ⟨u, .head ((mem_parts_substitute ?_ hn).mpr ⟨v, hv, rfl⟩) hu, huk⟩
    rintro x rfl
    cases hv
termination_by sizeOf t
decreasing_by exact sizeOf_lt_of_mem_parts hv

/-! ### Arguments without structs and enums -/

lemma inlineNominals_substitute (htypes : ∀ x v, types x = some v → v.inlineNominals = []) (t : Ty) :
    k ∈ (t.substitute types).inlineNominals ↔ k ∈ t.inlineNominals := by
  cases hn : t.nominal? with
  | some n => rw [inlineNominals_of_nominal hn, inlineNominals_of_nominal (nominal?_substitute types hn)]
  | none =>
    by_cases hparam : ∃ x, t = .param x
    · obtain ⟨x, rfl⟩ := hparam
      cases hx : types x with
      | none => simp [hx]
      | some v => simp [hx, htypes x v hx, inlineNominals]
    · have hparam (x : String) : t ≠ .param x := fun h => hparam ⟨x, h⟩
      have hn' : (t.substitute types).nominal? = none := by
        cases t with
        | struct _ _ | enum _ _ => cases hn
        | param x => exact absurd rfl (hparam x)
        | _ => rfl
      rw [mem_inlineNominals_of_none (fun _ _ => []) hn', mem_inlineNominals_of_none (fun _ _ => []) hn]
      constructor
      · rintro ⟨u, hu, hk⟩
        obtain ⟨v, hv, rfl⟩ := (mem_parts_substitute hparam hn).mp hu
        exact ⟨v, hv, (inlineNominals_substitute htypes v).mp hk⟩
      · rintro ⟨v, hv, hk⟩
        exact ⟨_, (mem_parts_substitute hparam hn).mpr ⟨v, hv, rfl⟩,
          (inlineNominals_substitute htypes v).mpr hk⟩
termination_by sizeOf t
decreasing_by all_goals exact sizeOf_lt_of_mem_parts hv

/-- What a type holds after a replacement was written in it, or comes from a replacement. -/
lemma holdsWritten_substitute (htypes : ∀ x v, types x = some v → v.inlineNominals = [])
    (h : HoldsWritten (t.substitute types) u) :
    (∃ v, HoldsWritten t v ∧ u = v.substitute types) ∨ u.inlineNominals = [] := by
  have hpart {w w' : Ty} (hw : w.inlineNominals = []) (hpart : HasPart (fun _ _ => []) w w') :
      w'.inlineNominals = [] := by
    cases hn : w.nominal? with
    | some n => simp [inlineNominals_of_nominal hn] at hw
    | none =>
      refine eq_nil_iff_forall_not_mem.2 fun k hk => ?_
      have hmem := (mem_inlineNominals_of_none (fun _ _ => []) hn).mpr ⟨w', hpart, hk⟩
      simp [hw] at hmem
  induction h with
  | refl => exact .inl ⟨t, .refl, rfl⟩
  | @tail w w' _ hww' ih =>
    obtain ⟨v, hv, rfl⟩ | hw := ih
    · cases hn : v.nominal? with
      | some n =>
        obtain ⟨args, hparts⟩ := parts_of_nominal (nominal?_substitute types hn)
        rw [HasPart, hparts] at hww'
        cases hww'
      | none =>
        by_cases hparam : ∃ x, v = .param x
        · obtain ⟨x, rfl⟩ := hparam
          refine .inr (hpart (eq_nil_iff_forall_not_mem.2 fun k hk => ?_) hww')
          rw [inlineNominals_substitute htypes] at hk
          cases hk
        · obtain ⟨v', hv', rfl⟩ := (mem_parts_substitute (fun x hx => hparam ⟨x, hx⟩) hn).mp hww'
          exact .inl ⟨v', hv.tail hv', rfl⟩
    · exact .inr (hpart hw hww')

lemma PlainArgs.substitute (ht : t.PlainArgs) (htypes : ∀ x v, types x = some v → v.inlineNominals = []) :
    (t.substitute types).PlainArgs := by
  intro u hu n args hargs
  have hnominal : u.inlineNominals = [n] := by
    rcases hargs with rfl | rfl <;> rfl
  obtain ⟨v, hv, rfl⟩ | hnil := holdsWritten_substitute htypes hu
  · have hlist (ts : List Ty) (hts : inlineNominalsAll ts = []) :
    inlineNominalsAll (substituteList types ts) = [] := by
      refine eq_nil_iff_forall_not_mem.2 fun k hk => ?_
      rw [substituteList_eq_map, mem_inlineNominalsAll] at hk
      obtain ⟨_, hmem, hk⟩ := hk
      obtain ⟨s, hs, rfl⟩ := mem_map.1 hmem
      have hmem := mem_inlineNominalsAll.2 ⟨s, hs, (inlineNominals_substitute htypes s).mp hk⟩
      simp [hts] at hmem
    cases v with
    | struct m ts =>
      obtain ⟨-, rfl⟩ : m = n ∧ substituteList types ts = args := by simpa [Ty.substitute] using hargs
      exact hlist ts (ht _ hv m ts (.inl rfl))
    | enum m ts =>
      obtain ⟨-, rfl⟩ : m = n ∧ substituteList types ts = args := by simpa [Ty.substitute] using hargs
      exact hlist ts (ht _ hv m ts (.inr rfl))
    | param x =>
      have hmem := (inlineNominals_substitute htypes (.param x)).mp (hnominal ▸ mem_singleton_self n)
      cases hmem
    | _ => simp [Ty.substitute] at hargs
  · rw [hnominal] at hnil
    cases hnil

end Ty

namespace NominalTable

variable {table : NominalTable} {params : Nominal → List String} {n k : Nominal} {t u : Ty}

/-- Type arguments of what is held by value hold no structs and enums by value. -/
def PlainArgs (table : NominalTable) : Prop :=
  ∀ n members, table.lookup n = some members → ∀ t ∈ members, t.PlainArgs

lemma exists_holds_of_lists (h : TransGen table.Lists n k) (args) :
    ∃ t ∈ table.instantiated params n args, ∃ u, Ty.Holds (table.instantiated params) t u ∧
      u.nominal? = some k := by
  have hstep {n k : Nominal} (h : table.Lists n k) (args : List Ty) : ∃ t ∈ table.instantiated params n args,
      ∃ u, Ty.Holds (table.instantiated params) t u ∧ u.nominal? = some k := by
    obtain ⟨t, ht, hk⟩ := Ty.mem_inlineNominalsAll.1 h
    exact ⟨_, mem_map.2 ⟨t, ht, rfl⟩, Ty.exists_holds_substitute t hk⟩
  induction h with
  | single h => exact hstep h args
  | tail _ h ih =>
    obtain ⟨t, ht, u, hu, hn⟩ := ih
    obtain ⟨args', hparts⟩ := Ty.parts_of_nominal hn
    obtain ⟨v, hv, w, hw, hk⟩ := hstep h args'
    have huv : Ty.HasPart (table.instantiated params) u v := by rw [Ty.HasPart, hparts]; exact hv
    exact ⟨t, ht, w, hu.trans (.head huv hw), hk⟩

lemma inlineNominals_of_type? {args} (hargs : Ty.inlineNominalsAll args = []) (names x v)
    (h : (Bindings.ofLists names args).type? x = some v) : v.inlineNominals = [] := by
  obtain ⟨l₁, l₂, hl, -⟩ := lookup_eq_some_iff.1 h
  have hmem : (x, v) ∈ (names.zip args).reverse := by
    rw [← Bindings.ofLists, hl]
    simp
  have hv := (of_mem_zip (mem_reverse.1 hmem)).2
  refine eq_nil_iff_forall_not_mem.2 fun k hk => ?_
  have hall := Ty.mem_inlineNominalsAll.2 ⟨v, hv, hk⟩
  simp [hargs] at hall

/-- Members of what has plain arguments have plain arguments and name what it lists. -/
lemma PlainArgs.member (h : table.PlainArgs) {args} (hargs : Ty.inlineNominalsAll args = [])
    (hu : u ∈ table.instantiated params n args) : u.PlainArgs ∧ ∀ k ∈ u.inlineNominals, table.Lists n k := by
  obtain ⟨m, hm, rfl⟩ := mem_map.1 hu
  have htypes := inlineNominals_of_type? hargs (params n)
  cases hmembers : table.lookup n with
  | none =>
    rw [hmembers] at hm
    cases hm
  | some members =>
    rw [hmembers] at hm
    refine ⟨(h n members hmembers m hm).substitute htypes, fun k hk => ?_⟩
    rw [Lists, hmembers]
    exact Ty.mem_inlineNominalsAll.2 ⟨m, hm, (Ty.inlineNominals_substitute htypes m).mp hk⟩

lemma PlainArgs.step (h : table.PlainArgs) (ht : t.PlainArgs) (hu : Ty.HasPart (table.instantiated params) t u) :
    u.PlainArgs ∧ ∀ k ∈ u.inlineNominals, k ∈ t.inlineNominals ∨
      ∃ n ∈ t.inlineNominals, table.Lists n k := by
  cases t with
  | struct n args =>
    obtain ⟨hplain, hlists⟩ := h.member (ht _ .refl n args (.inl rfl)) hu
    exact ⟨hplain, fun k hk => .inr ⟨n, mem_singleton_self n, hlists k hk⟩⟩
  | enum n args =>
    obtain ⟨hplain, hlists⟩ := h.member (ht _ .refl n args (.inr rfl)) hu
    exact ⟨hplain, fun k hk => .inr ⟨n, mem_singleton_self n, hlists k hk⟩⟩
  | _ =>
    refine ⟨fun v hv => ht v (.head hu hv), fun k hk => .inl ?_⟩
    exact (Ty.mem_inlineNominals_of_none _ rfl).mpr ⟨u, hu, hk⟩

lemma PlainArgs.exists_lists (h : table.PlainArgs) (ht : t.PlainArgs) (hu : Ty.Holds (table.instantiated params) t u)
    (hk : u.nominal? = some k) : ∃ n ∈ t.inlineNominals, ReflTransGen table.Lists n k := by
  induction hu using ReflTransGen.head_induction_on with
  | refl => exact ⟨k, by simp [Ty.inlineNominals_of_nominal hk], .refl⟩
  | head hpart _ ih =>
    obtain ⟨hplain, hlists⟩ := h.step ht hpart
    obtain ⟨n, hn, hpath⟩ := ih hplain
    obtain hn | ⟨m, hm, hmn⟩ := hlists n hn
    · exact ⟨n, hn, hpath⟩
    · exact ⟨m, hm, .head hmn hpath⟩

lemma containsItself_of_isInfinite (h : table.isInfinite n = true) : table.ContainsItself params n :=
  exists_holds_of_lists ((isInfinite_iff table n).mp h) _

lemma PlainArgs.isInfinite_iff (h : table.PlainArgs) : table.isInfinite n = true ↔ table.ContainsItself params n := by
  refine ⟨containsItself_of_isInfinite, ?_⟩
  rintro ⟨t, ht, u, hu, hn⟩
  have hargs : Ty.inlineNominalsAll ((params n).map .param) = [] := by
    refine eq_nil_iff_forall_not_mem.2 fun k hk => ?_
    obtain ⟨p, hp, hk⟩ := Ty.mem_inlineNominalsAll.1 hk
    obtain ⟨x, -, rfl⟩ := mem_map.1 hp
    cases hk
  obtain ⟨hplain, hlists⟩ := h.member hargs ht
  obtain ⟨j, hj, hpath⟩ := h.exists_lists hplain hu hn
  exact (NominalTable.isInfinite_iff table n).mpr (.head' (hlists j hj) hpath)

end NominalTable

/-! ### What is reported -/

def Declaration.isType : Declaration → Bool
  | .struct _ | .enum _ => true
  | _ => false

def Declaration.infiniteSize (d : Declaration) : Report SemanticProblem :=
  ⟨.infiniteSize d.sort d.name.node, d.name.span⟩

def Findings.paramsOf (f : Findings) (σ : Setting) (n : Nominal) : List String :=
  (((f.nominal? σ n).bind SymbolKind.nominalInfo?).map (·.typeParams)).getD []

lemma run_checkSize (d σ f) :
    (checkSize d σ f).2 =
      if d.isType ∧ (f.nominals σ).isInfinite ⟨σ.module, d.name.node⟩ then
        { f with problems := d.infiniteSize :: f.problems }
      else f := by
  have hreport (p : SemanticProblem) (span : Span) (wrong : Bool) :
      (Check.reportIf wrong p span σ f).2 =
        if wrong then { f with problems := ⟨p, span⟩ :: f.problems } else f := by
    cases wrong <;> rfl
  cases d with
  | struct s | enum s =>
    simp only [Declaration.isType, true_and]
    exact hreport _ _ _
  | _ => rfl

/-- Only problems are added, one for each type that reaches itself by names. -/
lemma run_forM_checkSize (decls : List Declaration) (σ f) :
    ∃ added, (decls.forM checkSize σ f).2 = { f with problems := added ++ f.problems } ∧
      ∀ r, r ∈ added ↔ ∃ d ∈ decls, d.isType = true ∧
        (f.nominals σ).isInfinite ⟨σ.module, d.name.node⟩ = true ∧
        r = d.infiniteSize := by
  induction decls generalizing f with
  | nil => exact ⟨[], rfl, by simp⟩
  | cons d ds ih =>
    have hrun : ((d :: ds).forM checkSize σ f).2 = (ds.forM checkSize σ (checkSize d σ f).2).2 := rfl
    rw [hrun, run_checkSize]
    split
    · rename_i hd
      obtain ⟨added, hadded, hmem⟩ := ih { f with problems := d.infiniteSize :: f.problems }
      refine ⟨added ++ [d.infiniteSize], by rw [hadded]; simp, fun r => ?_⟩
      rw [mem_append, hmem, mem_singleton]
      constructor
      · rintro (⟨d', hd', h⟩ | rfl)
        · exact ⟨d', by simp [hd'], h⟩
        · exact ⟨d, by simp, hd.1, hd.2, rfl⟩
      · rintro ⟨d', hd', h⟩
        obtain rfl | hd' := mem_cons.1 hd'
        · exact .inr h.2.2
        · exact .inl ⟨d', hd', h⟩
    · rename_i hd
      obtain ⟨added, hadded, hmem⟩ := ih f
      refine ⟨added, hadded, fun r => ?_⟩
      rw [hmem]
      constructor
      · rintro ⟨d', hd', h⟩
        exact ⟨d', by simp [hd'], h⟩
      · rintro ⟨d', hd', h⟩
        obtain rfl | hd' := mem_cons.1 hd'
        · exact absurd ⟨h.1, h.2.1⟩ hd
        · exact ⟨d', hd', h⟩

/-- A struct or enum that is reported contains itself. If type arguments hold no structs and enums by value, all
that contain themselves are reported. -/
theorem checkSize_reports (decls : List Declaration) (σ : Setting) (f : Findings) :
    ∃ added, (decls.forM checkSize σ f).2 = { f with problems := added ++ f.problems } ∧
      (∀ r ∈ added, ∃ d ∈ decls, d.isType = true ∧ r = d.infiniteSize ∧
        (f.nominals σ).ContainsItself (f.paramsOf σ) ⟨σ.module, d.name.node⟩) ∧
      ((f.nominals σ).PlainArgs → ∀ d ∈ decls, d.isType = true →
        (f.nominals σ).ContainsItself (f.paramsOf σ) ⟨σ.module, d.name.node⟩ → d.infiniteSize ∈ added) := by
  obtain ⟨added, hadded, hmem⟩ := run_forM_checkSize decls σ f
  refine ⟨added, hadded, fun r hr => ?_, fun hplain d hd htype hcontains => ?_⟩
  · obtain ⟨d, hd, htype, hinfinite, hr⟩ := (hmem r).mp hr
    exact ⟨d, hd, htype, hr, NominalTable.containsItself_of_isInfinite hinfinite⟩
  · exact (hmem _).mpr ⟨d, hd, htype, hplain.isInfinite_iff.mpr hcontains, rfl⟩

/-- A generic struct with one field, and a struct `A` with a field of a type. -/
def wrapped (type : TypeExpr) : List Declaration :=
  let struct (name : String) (params : List Name) (type : TypeExpr) : Declaration :=
    .struct ⟨[], .pub, ⟨name, default⟩, params, [⟨default, [], none, "x", type⟩]⟩
  [struct "Box" [⟨"T", default⟩] (.named default "T" []), struct "A" [] type]

def shapesOf (decls : List Declaration) (σ : Setting) : Findings :=
  ((do (← registerNames decls).forM fun (d, id) => resolveShape d id) σ {}).2

/-- A struct with an optional field of its own type is reported. -/
theorem checkSize_reports_optional :
    let σ := ({} : AnalysisOptions).setting "t" "t" []
    let decls := wrapped (.option default (.named default "A" []))
    ∃ d ∈ decls, d.name.node = "A" ∧
      d.infiniteSize ∈ (decls.forM checkSize σ (shapesOf decls σ)).2.problems := by
  intro σ decls
  let a : Nominal := ⟨"t", "A"⟩
  have htable : (shapesOf decls σ).nominals σ =
    [(⟨"t", "Box"⟩, [.param "T"]), (a, [.option (.struct a [])])] := by
    decide +kernel
  obtain ⟨added, hadded, -, hall⟩ := checkSize_reports decls σ (shapesOf decls σ)
  refine ⟨decls[1], by simp [decls, wrapped], rfl, ?_⟩
  rw [hadded]
  refine List.mem_append.mpr (.inl (hall ?_ _ (by simp [decls, wrapped]) rfl ?_))
  · rw [htable]
    have hparam : (Ty.param "T").PlainArgs := by
      intro u hu n args hargs
      obtain rfl | ⟨_, hw, -⟩ := hu.cases_head
      · simp at hargs
      · cases hw
    have hoption : (Ty.option (.struct a [])).PlainArgs := by
      intro u hu n args hargs
      obtain rfl | ⟨w, hw, hu⟩ := hu.cases_head
      · simp at hargs
      · cases List.mem_singleton.mp hw
        obtain rfl | ⟨_, hw, -⟩ := hu.cases_head
        · obtain ⟨-, rfl⟩ : a = n ∧ [] = args := by simpa using hargs
          rfl
        · cases hw
    intro n members hmembers t ht
    obtain ⟨l₁, l₂, hl, -⟩ := List.lookup_eq_some_iff.mp hmembers
    have hmem : (n, members) ∈ [(⟨"t", "Box"⟩, [Ty.param "T"]), (a, [.option (.struct a [])])] := by simp [hl]
    obtain ⟨-, rfl⟩ | ⟨-, rfl⟩ :
      (n = ⟨"t", "Box"⟩ ∧ members = [.param "T"]) ∨ (n = a ∧ members = [.option (.struct a [])]) := by
      simpa using hmem
    · exact List.mem_singleton.mp ht ▸ hparam
    · exact List.mem_singleton.mp ht ▸ hoption
  · rw [htable]
    exact ⟨.option (.struct a []), by decide +kernel, .struct a [], .single (List.mem_singleton.mpr rfl), rfl⟩

/-- A struct that contains itself as an argument of another is not reported. -/
theorem checkSize_misses_argument :
    let σ := ({} : AnalysisOptions).setting "t" "t" []
    let decls := wrapped (.named default "Box" [.named default "A" []])
    let f := shapesOf decls σ
    (f.nominals σ).ContainsItself (f.paramsOf σ) ⟨"t", "A"⟩ ∧ (decls.forM checkSize σ f).2.problems = [] := by
  intro σ decls f
  let a : Nominal := ⟨"t", "A"⟩
  let box : Nominal := ⟨"t", "Box"⟩
  have htable : f.nominals σ = [(box, [.param "T"]), (a, [.struct box [.struct a []]])] := by decide +kernel
  have hparams : f.paramsOf σ box = ["T"] := by decide +kernel
  have hown : f.paramsOf σ a = [] := by decide +kernel
  have hproblems : f.problems = [] := by decide +kernel
  clear_value f
  constructor
  · refine ⟨.struct box [.struct a []], ?_, .struct a [], .single ?_, rfl⟩
    · rw [NominalTable.instantiated, htable, hown]
      decide +kernel
    · rw [Ty.HasPart, Ty.parts, NominalTable.instantiated, htable, hparams]
      decide +kernel
  · have hbox (k : Nominal) : ¬ (f.nominals σ).Lists box k := by
      rw [NominalTable.Lists, htable]
      exact List.not_mem_nil
    have ha (k : Nominal) (hk : (f.nominals σ).Lists a k) : k = box := by
      rw [NominalTable.Lists, htable] at hk
      exact List.mem_singleton.mp hk
    obtain ⟨added, hadded, hmem⟩ := run_forM_checkSize decls σ f
    have hnone : added = [] := by
      refine List.eq_nil_iff_forall_not_mem.mpr fun r hr => ?_
      obtain ⟨d, hd, -, hinfinite, -⟩ := (hmem r).mp hr
      obtain ⟨k, hk, hpath⟩ := TransGen.head'_iff.mp ((NominalTable.isInfinite_iff _ _).mp hinfinite)
      obtain rfl | rfl : d = decls[0] ∨ d = decls[1] := by simpa [decls, wrapped] using hd
      · exact hbox k hk
      · obtain rfl := ha k hk
        obtain hcases | ⟨j, hj, -⟩ := hpath.cases_head
        · exact absurd hcases (by decide)
        · exact hbox j hj
    rw [hadded, hnone, hproblems]
    rfl

end SourceCheck
