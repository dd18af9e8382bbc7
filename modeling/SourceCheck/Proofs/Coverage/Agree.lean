import Mathlib.Data.List.Basic
import SourceCheck.Coverage.Matrix
import SourceCheck.Proofs.Ty.Formed

/-!
# Coverage by constructors that agree

The coverage of a match depends only on the constructors of the types that can be reached from the type of the value.
-/

namespace SourceCheck

open List

variable {P : String → Prop} {N : Nominal → Nat → Prop} {cs other : Constructors} {t : Ty} {ts : List Ty}

/-- Two accounts that tell the same about the types that may be mentioned, with fields of such types. -/
structure Constructors.Agree (P : String → Prop) (N : Nominal → Nat → Prop) (cs other : Constructors) : Prop where
  same : ∀ t : Ty, t.Formed P N → other t = cs t
  fields : ∀ (t : Ty) (all : List (Ctor × List Ty)), t.Formed P N → cs t = some all →
    ∀ entry ∈ all, Ty.AllFormed P N entry.2

lemma constructorsOf_agree {enum? enum?'} (hsame : ∀ n k, N n k → enum?' n = enum? n)
    (hpayload : ∀ n k params variants, N n k → enum? n = some (params, variants) →
      ∀ v ∈ variants, Ty.AllFormed (fun x => x ∈ params ∨ P x) N v.payload) :
    Constructors.Agree P N (constructorsOf enum?) (constructorsOf enum?') where
  same t ht := by
    cases t with
    | enum n args => simp only [constructorsOf, hsame n _ ht.1]
    | primitive p => cases p <;> rfl
    | _ => rfl
  fields t all ht hall entry hentry := by
    cases t with
    | primitive p =>
      cases p with
      | bool =>
        cases hall
        simp only [mem_cons, not_mem_nil, or_false] at hentry
        obtain rfl | rfl := hentry <;> exact trivial
      | _ => cases hall
    | tuple ts =>
      cases hall
      obtain rfl := mem_singleton.1 hentry
      exact ht
    | result a b =>
      cases hall
      simp only [mem_cons, not_mem_nil, or_false] at hentry
      obtain rfl | rfl := hentry
      · exact ⟨ht.1, trivial⟩
      · exact ⟨ht.2, trivial⟩
    | option a =>
      cases hall
      simp only [mem_cons, not_mem_nil, or_false] at hentry
      obtain rfl | rfl := hentry
      · exact ⟨ht, trivial⟩
      · exact trivial
    | enum n args =>
      obtain ⟨⟨params, variants⟩, hn, rfl⟩ := Option.map_eq_some_iff.1 hall
      obtain ⟨v, hv, rfl⟩ := mem_map.1 hentry
      have hv := Ty.allFormed_iff.1 (hpayload n _ params variants ht.1 hn v hv)
      refine Ty.allFormed_iff.2 fun u hu => ?_
      obtain ⟨p, hp, rfl⟩ := mem_map.1 hu
      exact (hv p hp).instantiate (Bindings.formed_ofLists ht.2) fun x hx => hx.imp_right .inl
    | _ => cases hall

namespace Constructors.Agree

lemma fields? (h : Agree P N cs other) (ht : t.Formed P N) (c) : other.fields? t c = cs.fields? t c := by
  rw [Constructors.fields?, Constructors.fields?, h.same t ht]

lemma formed_fields? (h : Agree P N cs other) (ht : t.Formed P N) {c}
    (hts : cs.fields? t c = some ts) : Ty.AllFormed P N ts := by
  obtain ⟨all, hall, hlookup⟩ := Option.bind_eq_some_iff.1 hts
  obtain ⟨before, after, rfl, -⟩ := lookup_eq_some_iff.1 hlookup
  exact h.fields t _ ht hall (c, ts) (by simp)

lemma fieldsOf (h : Agree P N cs other) (ht : t.Formed P N) (c arity) :
    other.fieldsOf t c arity = cs.fieldsOf t c arity := by
  rw [Constructors.fieldsOf, Constructors.fieldsOf, h.fields? ht]

lemma formed_fieldsOf (h : Agree P N cs other) (ht : t.Formed P N) (c arity) :
    Ty.AllFormed P N (cs.fieldsOf t c arity) := by
  rw [Constructors.fieldsOf]
  split
  · rename_i ts hts
    split
    · exact h.formed_fields? ht hts
    · exact Ty.allFormed_replicate_unknown arity
  · exact Ty.allFormed_replicate_unknown arity

/-! ### Shapes -/

mutual

lemma shape (h : Agree P N cs other) {t} (ht : t.Formed P N) (p) : other.shape t p = cs.shape t p := by
  match p with
  | .wildcard _ | .binding .. => simp [Constructors.shape]
  | .literal _ value => cases value <;> simp [Constructors.shape]
  | .tuple _ elems =>
    simp only [Constructors.shape, h.fieldsOf ht, shapes h (h.formed_fieldsOf ht _ _) elems]
  | .variant _ enum variant args =>
    simp only [Constructors.shape, h.fields? ht]
    cases hfields : cs.fields? t (.variant enum variant) with
    | none => simp only [shapes h (Ty.allFormed_unknowns args) args]
    | some ts => simp only [shapes h (h.formed_fields? ht hfields) args]

lemma shapes (h : Agree P N cs other) {ts} (hts : Ty.AllFormed P N ts) (ps) : other.shapes ts ps = cs.shapes ts ps := by
  match ps, ts with
  | [], _ | _ :: _, [] => simp [Constructors.shapes]
  | p :: ps, t :: ts => simp only [Constructors.shapes, shape h hts.1 p, shapes h hts.2 ps]

end

/-! ### Matrices -/

lemma formed_headD (hts : Ty.AllFormed P N ts) : (ts.headD .unknown).Formed P N := by
  cases ts with
  | nil => exact trivial
  | cons t ts => exact hts.1

lemma formed_tail (hts : Ty.AllFormed P N ts) : Ty.AllFormed P N ts.tail := by
  cases ts with
  | nil => exact trivial
  | cons t ts => exact hts.2

lemma useful (h : Agree P N cs other) (m row) (hts : Ty.AllFormed P N ts) :
    Matrix.useful other m row ts = Matrix.useful cs m row ts := by
  fun_induction Matrix.useful cs m row ts with
  | case1 => rw [Matrix.useful]
  | case2 m ts c args rest ih =>
    have hhead := formed_headD hts
    rw [Matrix.useful, h.fieldsOf hhead]
    exact ih (Ty.allFormed_append.2 ⟨h.formed_fieldsOf hhead _ _, formed_tail hts⟩)
  | case3 m ts rest hnone ih =>
    have hother := (h.same _ (formed_headD hts)).trans hnone
    rw [Matrix.useful]
    simp only [hother]
    exact ih (formed_tail hts)
  | case4 m ts rest all hall hheads ih =>
    have hother := (h.same _ (formed_headD hts)).trans hall
    rw [Matrix.useful]
    simp only [hother, hheads, dif_pos]
    refine congrArg all.attach.any (funext fun ⟨entry, hentry⟩ => ?_)
    have hfields := h.fields _ all (formed_headD hts) hall entry hentry
    exact ih entry hentry (Ty.allFormed_append.2 ⟨hfields, formed_tail hts⟩)
  | case5 m ts rest all hall hheads ih =>
    have hother := (h.same _ (formed_headD hts)).trans hall
    rw [Matrix.useful]
    simp only [hother, hheads]
    exact ih (formed_tail hts)

lemma witness? (h : Agree P N cs other) (m) (hts : Ty.AllFormed P N ts) :
    Matrix.witness? other m ts = Matrix.witness? cs m ts := by
  fun_induction Matrix.witness? cs m ts with
  | case1 | case2 => simp_all [Matrix.witness?]
  | case3 m t rest hnone ih =>
    have hother := (h.same t hts.1).trans hnone
    rw [Matrix.witness?]
    simp only [hother, ih hts.2]
  | case4 m t rest all hall hheads ih =>
    have hother := (h.same t hts.1).trans hall
    rw [Matrix.witness?]
    simp only [hother, hheads, dif_pos]
    refine congrArg all.attach.findSome? (funext fun ⟨entry, hentry⟩ => ?_)
    have hfields := h.fields t all hts.1 hall entry hentry
    simp only [ih entry hentry (Ty.allFormed_append.2 ⟨hfields, hts.2⟩)]
  | case5 m t rest all hall hheads ih =>
    have hother := (h.same t hts.1).trans hall
    rw [Matrix.witness?]
    simp only [hother, hheads, Bool.false_eq_true, dite_false, ih hts.2]

lemma unreachableArms (h : Agree P N cs other) (ht : t.Formed P N) (arms) :
    unreachableArms other t arms = unreachableArms cs t arms := by
  have hts : Ty.AllFormed P N [t] := ⟨ht, trivial⟩
  simp only [SourceCheck.unreachableArms, h.useful _ _ hts]

lemma missingShapes (h : Agree P N cs other) (ht : t.Formed P N) (arms) :
    missingShapes other t arms = missingShapes cs t arms := by
  rw [SourceCheck.missingShapes, SourceCheck.missingShapes, h.same t ht]
  cases hall : cs t with
  | none => rfl
  | some all =>
    refine filterMap_congr fun entry hentry => ?_
    simp only [h.witness? _ (h.fields t all ht hall entry hentry)]

end Constructors.Agree

end SourceCheck
