import Mathlib.Tactic.Lemma
import SourceCheck.Coverage.Matrix

/-!
# Values and the patterns that take them

A value of a type with finitely many constructors is one of these with values for its fields. The values of every
other type are endlessly many: one for each literal, and others that no literal names. The type of what never returns
has no values.
-/

namespace SourceCheck

/-- A value, as far as patterns can tell values apart. -/
inductive Value where
  | ctor (c : Ctor) (fields : List Value)
  /-- A value that no literal names. -/
  | other (n : Nat)

/-! ### Types of values -/

mutual

inductive HasType (cs : Constructors) : Ty → Value → Prop where
  | ctor {t all c ts vs} :
    cs t = some all →
    (c, ts) ∈ all →
    HasTypes cs ts vs →
    HasType cs t (.ctor c vs)
  | literal {t} (l : Literal) :
    cs t = none →
    t ≠ .never →
    HasType cs t (.ctor (.literal l) [])
  | other {t} (n : Nat) :
    cs t = none →
    t ≠ .never →
    HasType cs t (.other n)

inductive HasTypes (cs : Constructors) : List Ty → List Value → Prop where
  | nil : HasTypes cs [] []
  | cons {t ts v vs} :
    HasType cs t v →
    HasTypes cs ts vs →
    HasTypes cs (t :: ts) (v :: vs)

end

/-! ### Matching -/

namespace Shape

mutual

def takes : Shape → Value → Bool
  | .any, _ => true
  | .ctor c args, .ctor d vs => c = d && takesAll args vs
  | .ctor .., .other _ => false

def takesAll : List Shape → List Value → Bool
  | [], [] => true
  | a :: as, v :: vs => a.takes v && takesAll as vs
  | [], _ :: _ | _ :: _, [] => false

end

end Shape

namespace Pattern

mutual

/-- A variant without a list of arguments takes any fields. -/
def takes : Pattern → Value → Bool
  | .wildcard _, _ | .binding .., _ => true
  | .literal _ (.bool b), .ctor c vs => c = .bool b && vs.isEmpty
  | .literal _ value, .ctor c vs => c = .literal value && vs.isEmpty
  | .tuple _ elems, .ctor c vs => c = .tuple elems.length && takesAll elems vs
  | .variant _ enum name args, .ctor c vs =>
    c = .variant enum name && (args.isEmpty || takesAll args vs)
  | .literal .., .other _ | .tuple .., .other _ | .variant .., .other _ => false

def takesAll : List Pattern → List Value → Bool
  | [], [] => true
  | p :: ps, v :: vs => p.takes v && takesAll ps vs
  | [], _ :: _ | _ :: _, [] => false

end

end Pattern

/-! ### Types of shapes -/

namespace Shape

mutual

/-- Shapes that demand only constructors of the type, where it has finitely many. -/
inductive Fits (cs : Constructors) : Ty → Shape → Prop where
  | any {t} : Fits cs t .any
  | ctor {t all c ts args} :
    cs t = some all →
    (c, ts) ∈ all →
    FitsAll cs ts args →
    Fits cs t (.ctor c args)
  | unlisted {t c args} :
    cs t = none →
    Fits cs t (.ctor c args)

/-- Rows of shapes that demand only constructors of the types. -/
inductive FitsAll (cs : Constructors) : List Ty → List Shape → Prop where
  | nil : FitsAll cs [] []
  | cons {t ts a as} :
    Fits cs t a →
    FitsAll cs ts as →
    FitsAll cs (t :: ts) (a :: as)

end

mutual

/-- Constructors with shapes for all fields, and literals where the type has no list of constructors. -/
inductive Typed (cs : Constructors) : Ty → Shape → Prop where
  | any {t} : Typed cs t .any
  | ctor {t all c ts args} :
    cs t = some all →
    (c, ts) ∈ all →
    TypedAll cs ts args →
    Typed cs t (.ctor c args)
  | literal {t} (l : Literal) :
    cs t = none →
    Typed cs t (.ctor (.literal l) [])

/-- Rows of shapes that are well-typed patterns. -/
inductive TypedAll (cs : Constructors) : List Ty → List Shape → Prop where
  | nil : TypedAll cs [] []
  | cons {t ts a as} :
    Typed cs t a →
    TypedAll cs ts as →
    TypedAll cs (t :: ts) (a :: as)

end

end Shape

/-! ### Types with values -/

/-- The types of the parts of values of a type, at any depth. -/
inductive Reaches (cs : Constructors) : Ty → Ty → Prop where
  | refl (t) : Reaches cs t t
  | step {t all c ts u w} :
    cs t = some all →
    (c, ts) ∈ all →
    u ∈ ts →
    Reaches cs u w →
    Reaches cs t w

def Peopled (cs : Constructors) (t : Ty) : Prop :=
  ∀ u, Reaches cs t u → ∃ v, HasType cs u v

def Constructors.Distinct (cs : Constructors) : Prop :=
  ∀ t all, cs t = some all → (all.map (·.1)).Nodup

/-! ### Rows -/

lemma HasTypes.length_eq {cs ts vs} (h : HasTypes cs ts vs) : vs.length = ts.length := by
  match h with
  | .nil => rfl
  | .cons _ hs => simp [hs.length_eq]

lemma HasTypes.append {cs ts us vs ws} (h : HasTypes cs ts vs) (h' : HasTypes cs us ws) :
    HasTypes cs (ts ++ us) (vs ++ ws) := by
  match h with
  | .nil => exact h'
  | .cons hv hs => exact .cons hv (hs.append h')

lemma HasTypes.split {cs ts us vs} (h : HasTypes cs (ts ++ us) vs) :
    ∃ xs ys, vs = xs ++ ys ∧ HasTypes cs ts xs ∧ HasTypes cs us ys := by
  induction ts generalizing vs with
  | nil => exact ⟨[], vs, rfl, .nil, h⟩
  | cons t ts ih =>
    cases h with
    | cons hv hs =>
      obtain ⟨xs, ys, rfl, hx, hy⟩ := ih hs
      exact ⟨_ :: xs, ys, rfl, .cons hv hx, hy⟩

namespace Shape

lemma FitsAll.length_eq {cs ts as} (h : FitsAll cs ts as) : as.length = ts.length := by
  match h with
  | .nil => rfl
  | .cons _ hs => simp [hs.length_eq]

lemma FitsAll.append {cs ts us as bs} (h : FitsAll cs ts as) (h' : FitsAll cs us bs) :
    FitsAll cs (ts ++ us) (as ++ bs) := by
  match h with
  | .nil => exact h'
  | .cons ha hs => exact .cons ha (hs.append h')

lemma FitsAll.anys {cs} (ts) : FitsAll cs ts (List.replicate ts.length .any) := by
  induction ts with
  | nil => exact .nil
  | cons t ts ih => exact .cons .any ih

lemma TypedAll.length_eq {cs ts as} (h : TypedAll cs ts as) : as.length = ts.length := by
  match h with
  | .nil => rfl
  | .cons _ hs => simp [hs.length_eq]

lemma TypedAll.split {cs ts us as} (h : TypedAll cs (ts ++ us) as) :
    TypedAll cs ts (as.take ts.length) ∧ TypedAll cs us (as.drop ts.length) := by
  induction ts generalizing as with
  | nil => exact ⟨.nil, h⟩
  | cons t ts ih =>
    cases h with
    | cons ha hs =>
      obtain ⟨h1, h2⟩ := ih hs
      exact ⟨.cons ha h1, h2⟩

lemma TypedAll.anys {cs} (ts) : TypedAll cs ts (ts.map fun _ => .any) := by
  induction ts with
  | nil => exact .nil
  | cons t ts ih => exact .cons .any ih

lemma length_eq_of_takesAll {as vs} (h : takesAll as vs = true) : as.length = vs.length := by
  induction as generalizing vs with
  | nil =>
    cases vs with
    | nil => rfl
    | cons v vs => simp [takesAll] at h
  | cons a as ih =>
    cases vs with
    | nil => simp [takesAll] at h
    | cons v vs =>
      simp only [takesAll, Bool.and_eq_true] at h
      simp [ih h.2]

lemma takesAll_append {as bs vs ws} (h : as.length = vs.length) :
    takesAll (as ++ bs) (vs ++ ws) = (takesAll as vs && takesAll bs ws) := by
  induction as generalizing vs with
  | nil =>
    obtain rfl := List.length_eq_zero_iff.1 h.symm
    simp [takesAll]
  | cons a as ih =>
    cases vs with
    | nil => simp at h
    | cons v vs =>
      simp only [List.length_cons, Nat.add_right_cancel_iff] at h
      simp [takesAll, ih h, Bool.and_assoc]

lemma takesAll_anys (vs) : takesAll (List.replicate vs.length .any) vs = true := by
  induction vs with
  | nil => rfl
  | cons v vs ih => simpa [List.replicate_succ, takesAll, takes] using ih

lemma takesAll_anys_of_hasTypes {cs ts vs} (h : HasTypes cs ts vs) : takesAll (ts.map fun _ => .any) vs = true := by
  rw [List.map_const', ← h.length_eq]
  exact takesAll_anys vs

end Shape

/-! ### Types with values -/

lemma Peopled.field {cs t all c ts u} (h : Peopled cs t) (hall : cs t = some all)
    (hc : (c, ts) ∈ all) (hu : u ∈ ts) : Peopled cs u := by
  intro w hw
  exact h w (.step hall hc hu hw)

lemma Peopled.exists_values {cs ts} (h : ∀ t ∈ ts, Peopled cs t) : ∃ vs, HasTypes cs ts vs := by
  induction ts with
  | nil => exact ⟨[], .nil⟩
  | cons t ts ih =>
    obtain ⟨v, hv⟩ := h t (by simp) t (.refl t)
    obtain ⟨vs, hvs⟩ := ih fun u hu => h u (by simp [hu])
    exact ⟨v :: vs, .cons hv hvs⟩

lemma Peopled.ne_never {cs t} (h : Peopled cs t) (hopen : cs t = none) : t ≠ .never := by
  obtain ⟨v, hv⟩ := h t (.refl t)
  cases hv with
  | ctor hall _ _ => simp [hopen] at hall
  | literal _ _ hne | other _ _ hne => exact hne

end SourceCheck
