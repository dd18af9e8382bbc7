import Mathlib.Logic.Relation
import Mathlib.Order.Bounds.Basic
import SourceCheck.Proofs.Ty.Within

/-!
# Layouts without a bound

Over all natural numbers, each member stands at the first multiple of its alignment that is still free, and a type
ends at the first multiple of its alignment behind its last member. A type has a layout exactly when what it holds by
value is sized, nothing among it holds itself, and no size reaches the bound.
-/

namespace SourceCheck

open List Option NominalTable

variable {align : Nat} {ms ls : List Layout} {t u : Ty} {ts : List Ty}

namespace Layout

def Slots (n align : Nat) : Set Nat :=
  { k | n ≤ k ∧ align ∣ k }

/-- Members one behind the other from a place on, up to where the last one ends. -/
inductive Placed : Nat → List Layout → Nat → Prop
  | nil (n : Nat) : Placed n [] n
  | cons {n start last : Nat} {m : Layout} {ms : List Layout} :
    IsLeast (Slots n m.align) start → Placed (start + m.size) ms last → Placed n (m :: ms) last

structure Packs (ms : List Layout) (l : Layout) : Prop where
  align : l.align = (ms.map Layout.align).foldl max 1
  size : ∃ last, Placed 0 ms last ∧ IsLeast (Slots last l.align) l.size

def widest (ms : List Layout) : Layout :=
  ⟨(ms.map Layout.size).foldl max 0, (ms.map Layout.align).foldl max 1⟩

def Aligned (l : Layout) : Prop :=
  l.align = 1 ∨ l.align = 2 ∨ l.align = 4 ∨ l.align = 8

/-- What holds of the layouts of types, also inside other types. -/
structure Fits (l : Layout) : Prop where
  aligned : l.Aligned
  dvd : l.align ∣ l.size
  lt : l.size < bound

lemma Aligned.pos {l : Layout} (h : l.Aligned) : 0 < l.align := by
  unfold Aligned at h
  omega

/-! ### Rounding up -/

def up (n align : Nat) : Nat :=
  (n + align - 1) / align * align

lemma le_up (n) (h : 0 < align) : n ≤ up n align := by
  have hdiv := Nat.div_add_mod (n + align - 1) align
  have hmod := Nat.mod_lt (n + align - 1) h
  rw [Nat.mul_comm] at hdiv
  unfold up
  omega

lemma isLeast_up (n) (h : 0 < align) : IsLeast (Slots n align) (up n align) := by
  refine ⟨⟨le_up n h, Nat.dvd_mul_left _ _⟩, ?_⟩
  rintro k ⟨hk, c, rfl⟩
  unfold up
  rw [Nat.mul_comm align c]
  apply Nat.mul_le_mul_right
  rw [Nat.div_le_iff_le_mul_add_pred h]
  omega

lemma isLeast_slots_iff {n k} (h : 0 < align) : IsLeast (Slots n align) k ↔ k = up n align :=
  ⟨fun hk => hk.unique (isLeast_up n h), fun hk => hk ▸ isLeast_up n h⟩

/-! ### Members in order -/

def ending (n : Nat) (ms : List Layout) : Nat :=
  ms.foldl (fun n m => up n m.align + m.size) n

def packed (ms : List Layout) : Layout :=
  ⟨up (ending 0 ms) ((ms.map Layout.align).foldl max 1), (ms.map Layout.align).foldl max 1⟩

section

variable (h : ∀ m ∈ ms, m.Aligned)

include h

lemma le_ending (n) : n ≤ ending n ms := by
  induction ms generalizing n with
  | nil => exact Nat.le_refl n
  | cons m ms ih =>
    calc n ≤ up n m.align := le_up n (h m (by simp)).pos
      _ ≤ up n m.align + m.size := Nat.le_add_right _ _
      _ ≤ ending n (m :: ms) := ih (fun k hk => h k (by simp [hk])) _

lemma placed_iff (n last) : Placed n ms last ↔ last = ending n ms := by
  induction ms generalizing n with
  | nil =>
    constructor
    · rintro ⟨⟩
      rfl
    · rintro rfl
      exact .nil _
  | cons m ms ih =>
    have hm := (h m (by simp)).pos
    have ih := ih (fun k hk => h k (by simp [hk]))
    constructor
    · rintro (_ | ⟨hstart, hrest⟩)
      rw [(isLeast_slots_iff hm).mp hstart] at hrest
      exact (ih _).mp hrest
    · rintro rfl
      exact .cons (isLeast_up n hm) ((ih _).mpr rfl)

lemma aligned_foldl_max (l : Layout) (hl : l.Aligned)
    (size) : Aligned ⟨size, (ms.map Layout.align).foldl max l.align⟩ := by
  induction ms generalizing l with
  | nil => exact hl
  | cons m ms ih =>
    refine ih (fun k hk => h k (by simp [hk])) ⟨0, max l.align m.align⟩ ?_
    have hm := h m (by simp)
    unfold Aligned at hl hm ⊢
    simp only
    omega

lemma aligned_packed : (packed ms).Aligned :=
  aligned_foldl_max h ⟨0, 1⟩ (.inl rfl) _

lemma aligned_widest : (widest ms).Aligned :=
  aligned_foldl_max h ⟨0, 1⟩ (.inl rfl) _

lemma packs_iff (l) : Packs ms l ↔ l = packed ms := by
  have hpos := (aligned_packed h).pos
  constructor
  · rintro ⟨halign, last, hlast, hsize⟩
    rw [halign, (placed_iff h 0 last).mp hlast] at hsize
    have hsize := (isLeast_slots_iff hpos).mp hsize
    obtain ⟨size, align⟩ := l
    cases halign
    cases hsize
    rfl
  · rintro rfl
    exact ⟨rfl, _, (placed_iff h 0 _).mpr rfl, isLeast_up _ hpos⟩

end

/-! ### What is computed -/

lemma checked_of_lt {n} (h : n < bound) : checked n = some n :=
  if_pos h

lemma checked_of_le {n} (h : bound ≤ n) : checked n = none :=
  if_neg (Nat.not_lt.2 h)

lemma roundUp_eq (n align) : roundUp n align = checked (up n align) :=
  rfl

lemma push_eq (l m) : push l m = (checked (up l.size m.align + m.size)).map (⟨·, max l.align m.align⟩) := by
  have hle : up l.size m.align ≤ up l.size m.align + m.size := Nat.le_add_right _ _
  rcases Nat.lt_or_ge (up l.size m.align + m.size) bound with hlt | hge
  · simp only [push, roundUp_eq, checked_of_lt (Nat.lt_of_le_of_lt hle hlt), bind_eq_bind,
      bind_some, checked_of_lt hlt]
    rfl
  · -- The start may still be in bounds, but the end is not.
    rw [checked_of_le hge, push, roundUp_eq]
    rcases Nat.lt_or_ge (up l.size m.align) bound with hstart | hstart
    · simp [checked_of_lt hstart, checked_of_le hge]
    · simp [checked_of_le hstart]

lemma foldlM_push (h : ∀ m ∈ ms, m.Aligned) (l) (hl : l.size < bound) : ms.foldlM push l =
      (checked (ending l.size ms)).map (⟨·, (ms.map Layout.align).foldl max l.align⟩) := by
  induction ms generalizing l with
  | nil => simp [ending, checked_of_lt hl]
  | cons m ms ih =>
    have hms : ∀ k ∈ ms, k.Aligned := fun k hk => h k (by simp [hk])
    rw [foldlM_cons, push_eq l m]
    rcases Nat.lt_or_ge (up l.size m.align + m.size) bound with hlt | hge
    · rw [checked_of_lt hlt]
      exact ih hms _ hlt
    · have hend : bound ≤ ending l.size (m :: ms) := Nat.le_trans hge (le_ending hms _)
      rw [checked_of_le hge, checked_of_le hend]
      rfl

lemma aggregate_eq (h : ∀ m ∈ ms, m.Aligned) :
    aggregate ms = if (packed ms).size < bound then some (packed ms) else none := by
  have hle : ending 0 ms ≤ (packed ms).size := le_up _ (aligned_packed h).pos
  rw [aggregate, foldlM_push h ⟨0, 1⟩ (Nat.two_pow_pos 64)]
  rcases Nat.lt_or_ge (ending 0 ms) bound with hlt | hge
  · rw [checked_of_lt hlt]
    change (checked (packed ms).size).bind _ = _
    split
    · next hsize =>
      rw [checked_of_lt hsize]
      rfl
    · next hsize =>
      rw [checked_of_le (Nat.not_lt.1 hsize)]
      rfl
  · rw [checked_of_le hge, if_neg (by omega)]
    rfl

lemma foldl_union (ms : List Layout) (l) :
    ms.foldl union l = ⟨(ms.map Layout.size).foldl max l.size, (ms.map Layout.align).foldl max l.align⟩ := by
  induction ms generalizing l with
  | nil => rfl
  | cons m ms ih => exact ih (l.union m)

lemma union_eq_widest {a b : Layout} (ha : a.Aligned) : a.union b = widest [a, b] := by
  have hpos := ha.pos
  simp only [union, widest, map_cons, map_nil, foldl_cons, foldl_nil, mk.injEq]
  omega

lemma widest_singleton {l : Layout} (h : l.Aligned) : widest [l] = l := by
  have hpos := h.pos
  obtain ⟨size, align⟩ := l
  simp only [widest, map_cons, map_nil, foldl_cons, foldl_nil, mk.injEq] at hpos ⊢
  omega

lemma aggregate_eq_some (h : ∀ m ∈ ms, m.Aligned) {l : Layout}
    (hl : aggregate ms = some l) : (∀ m, Packs ms m ↔ m = l) ∧ l.Fits := by
  rw [aggregate_eq h] at hl
  split at hl
  · next hlt =>
    cases hl
    exact ⟨packs_iff h, aligned_packed h, (isLeast_up _ (aligned_packed h).pos).1.2, hlt⟩
  · cases hl

lemma aggregate_of_lt (h : ∀ m ∈ ms, m.Aligned) (hlt : ∀ l, Packs ms l → l.size < bound) :
    ∃ l, aggregate ms = some l :=
  ⟨packed ms, by rw [aggregate_eq h, if_pos (hlt _ ((packs_iff h _).mpr rfl))]⟩

lemma aligned_tag : tag.Aligned :=
  .inr (.inr (.inl rfl))

lemma aligned_tagged {payload} (h : payload.Aligned) : ∀ m ∈ [tag, payload], m.Aligned := by
  simp [aligned_tag, h]

end Layout

open Layout

/-! ### Types and their parts -/

/-- The types of the members, without regard to type arguments. -/
def NominalTable.listed (table : NominalTable) (n : Nominal) (_ : List Ty) : List Ty :=
  (table.lookup n).getD []

namespace Ty

def parts (members : Nominal → List Ty → List Ty) : Ty → List Ty
  | .array t _ | .option t => [t]
  | .tuple ts => ts
  | .result a b => [a, b]
  | .struct n args | .enum n args => members n args
  | .primitive _ | .slice _ | .pointer _ _ | .taskHandle _ | .param _ | .infinite | .unknown => []

def HasPart (members : Nominal → List Ty → List Ty) (t u : Ty) : Prop :=
  u ∈ t.parts members

abbrev Holds (members : Nominal → List Ty → List Ty) : Ty → Ty → Prop :=
  Relation.ReflTransGen (HasPart members)

def nominal? : Ty → Option Nominal
  | .struct n _ | .enum n _ => some n
  | _ => none

inductive Form where
  | scalar (layout : Option Layout)
  | array (elem : Ty) (size : Option Nat)
  | product
  | sum

def form : Ty → Form
  | .primitive p => .scalar (p.sizeBytes.map scalar)
  | .pointer _ _ | .taskHandle _ => .scalar (some address)
  | .slice _ => .scalar (some fat)
  | .param _ | .infinite | .unknown => .scalar none
  | .array elem size => .array elem size
  | .tuple _ | .struct _ _ => .product
  | .option _ | .result _ _ | .enum _ _ => .sum

/-- Whether nothing but its parts keeps a type from having a size. -/
def Sized (table : NominalTable) : Ty → Prop
  | .primitive p => p ≠ .never
  | .array _ size => size ≠ none
  | .struct n _ | .enum n _ => table.lookup n ≠ none
  | .param _ | .infinite | .unknown => False
  | .slice _ | .pointer _ _ | .taskHandle _ | .option _ | .result _ _ | .tuple _ => True

mutual

inductive Takes (table : NominalTable) : Ty → Layout → Prop
  | scalar {t : Ty} {l : Layout} : t.form = .scalar (some l) → Takes table t l
  | array {elem : Ty} {n : Nat} {l : Layout} : Takes table elem l →
    Takes table (.array elem (some n)) ⟨l.size * n, l.align⟩
  | product {t : Ty} {ms : List Layout} {l : Layout} : t.form = .product → t.Sized table →
    TakeAll table (t.parts table.listed) ms → Packs ms l → Takes table t l
  | sum {t : Ty} {ms : List Layout} {l : Layout} : t.form = .sum → t.Sized table →
    TakeAll table (t.parts table.listed) ms → Packs [tag, widest ms] l → Takes table t l

inductive TakeAll (table : NominalTable) : List Ty → List Layout → Prop
  | nil : TakeAll table [] []
  | cons {t : Ty} {ts : List Ty} {l : Layout} {ls : List Layout} : Takes table t l → TakeAll table ts ls →
    TakeAll table (t :: ts) (l :: ls)

end

structure LaysOut (table : NominalTable) (t : Ty) : Prop where
  sized : ∀ u, Holds table.listed t u → u.Sized table
  /-- No struct or enum that the type holds is held by one of its own parts. -/
  acyclic : ∀ u v w, Holds table.listed t u → HasPart table.listed u v → Holds table.listed v w →
    u.nominal? ≠ none → w.nominal? ≠ u.nominal?
  lt : ∀ u l, Holds table.listed t u → Takes table u l → l.size < bound

variable {table : NominalTable}

lemma LaysOut.held (h : t.LaysOut table) (hu : Holds table.listed t u) : u.LaysOut table where
  sized v hv := h.sized v (hu.trans hv)
  acyclic v w x hv := h.acyclic v w x (hu.trans hv)
  lt v l hv := h.lt v l (hu.trans hv)

/-! ### Layouts that are computed -/

structure Settles (table : NominalTable) (t : Ty) (l : Layout) : Prop where
  takes : ∀ m, Takes table t m ↔ m = l
  fits : l.Fits

structure SettleAll (table : NominalTable) (ts : List Ty) (ls : List Layout) : Prop where
  takes : ∀ ms, TakeAll table ts ms ↔ ms = ls
  fits : ∀ l ∈ ls, l.Fits

lemma SettleAll.aligned {ts ls} (h : SettleAll table ts ls) : ∀ l ∈ ls, l.Aligned :=
  fun l hl => (h.fits l hl).aligned

/-- Layouts of members that are those of the rules. -/
def Exact (table : NominalTable) (members : Nominal → Option (List Layout)) : Prop :=
  ∀ n ls, members n = some ls → table.lookup n ≠ none ∧ SettleAll table (table.listed n []) ls

def partLayouts (members : Nominal → Option (List Layout)) : Ty → Option (List Layout)
  | .struct n _ | .enum n _ => members n
  | t => layoutsWith members (t.parts fun _ _ => [])

variable {members : Nominal → Option (List Layout)}

lemma layoutWith_scalar {layout} (h : t.form = .scalar layout) : t.layoutWith members = layout := by
  cases t <;> cases h
  all_goals rfl

lemma layoutWith_product (h : t.form = .product) : t.layoutWith members = (t.partLayouts members).bind aggregate := by
  cases t <;> cases h
  all_goals rfl

lemma layoutWith_sum (h : t.form = .sum) (ha : ∀ ls, t.partLayouts members = some ls → ∀ l ∈ ls, l.Aligned) :
    t.layoutWith members = (t.partLayouts members).bind fun ls => aggregate [tag, widest ls] := by
  cases t with
  | option inner =>
    simp only [layoutWith, partLayouts, parts, layoutsWith, tagged] at ha ⊢
    cases hi : inner.layoutWith members with
    | none => rfl
    | some i =>
      simp only [hi, bind_eq_bind, bind_some, Option.pure_def, some.injEq] at ha ⊢
      rw [widest_singleton (ha _ rfl i (by simp))]
  | result ok err =>
    simp only [layoutWith, partLayouts, parts, layoutsWith, tagged] at ha ⊢
    cases ho : ok.layoutWith members with
    | none => rfl
    | some a =>
      cases he : err.layoutWith members with
      | none => rfl
      | some b =>
        simp only [ho, he, bind_eq_bind, bind_some, Option.pure_def, some.injEq] at ha ⊢
        rw [union_eq_widest (ha _ rfl a (by simp))]
  | enum n args =>
    simp only [layoutWith, partLayouts, tagged, foldl_union]
    rfl
  | _ => cases h

lemma fits_scalar {l} (h : t.form = .scalar (some l)) : l.Fits := by
  cases t with
  | primitive p =>
    cases p <;> cases h
    all_goals exact ⟨by simp [Aligned, Layout.scalar], by simp [Layout.scalar], by simp [Layout.scalar, bound]⟩
  | pointer _ _ | taskHandle _ | slice _ =>
    cases h
    exact ⟨.inr (.inr (.inr rfl)), by simp [address, fat], by simp [address, fat, bound]⟩
  | _ => cases h

lemma sizeOf_lt_of_mem_parts (h : u ∈ t.parts fun _ _ => []) : sizeOf u < sizeOf t := by
  cases t with
  | tuple ts =>
    have hlt : sizeOf u < sizeOf ts := sizeOf_lt_of_mem h
    simp only [tuple.sizeOf_spec]
    omega
  | array _ _ | option _ =>
    cases mem_singleton.1 h
    simp only [array.sizeOf_spec, option.sizeOf_spec]
    omega
  | result a b =>
    obtain rfl | h := mem_cons.1 h
    · simp only [result.sizeOf_spec]
      omega
    · cases mem_singleton.1 h
      simp only [result.sizeOf_spec]
      omega
  | _ => cases h

lemma settleAll_of_layoutsWith (hts : ∀ t ∈ ts, ∀ l, t.layoutWith members = some l → Settles table t l)
    (h : layoutsWith members ts = some ls) : SettleAll table ts ls := by
  induction ts generalizing ls with
  | nil =>
    cases h
    refine ⟨fun ms => ⟨?_, ?_⟩, by simp⟩
    · rintro ⟨⟩
      rfl
    · rintro rfl
      exact .nil
  | cons t ts ih =>
    simp only [layoutsWith, bind_eq_bind, bind_eq_some_iff, Option.pure_def, some.injEq] at h
    obtain ⟨l, hl, ls, hls, rfl⟩ := h
    have ht := hts t (by simp) l hl
    have ih := ih (fun u hu => hts u (by simp [hu])) hls
    refine ⟨fun ms => ⟨?_, ?_⟩, forall_mem_cons.2 ⟨ht.fits, ih.fits⟩⟩
    · rintro (_ | ⟨hm, hms⟩)
      rw [(ht.takes _).mp hm, (ih.takes _).mp hms]
    · rintro rfl
      exact .cons ((ht.takes _).mpr rfl) ((ih.takes _).mpr rfl)

/-- The parts of a product or sum are settled if those written inside it are. -/
lemma settleAll_of_partLayouts (hm : Exact table members) (ht : t.form = .product ∨ t.form = .sum)
    (hparts : ∀ u ∈ t.parts fun _ _ => [], ∀ l, u.layoutWith members = some l → Settles table u l)
    (h : t.partLayouts members = some ls) : t.Sized table ∧ SettleAll table (t.parts table.listed) ls := by
  cases t with
  | struct n _ | enum n _ => exact hm n ls h
  | tuple _ | option _ | result _ _ => exact ⟨trivial, settleAll_of_layoutsWith hparts h⟩
  | _ => rcases ht with ht | ht <;> cases ht

lemma settles_of_layoutWith (hm : Exact table members) (t) {l} (h : t.layoutWith members = some l) :
    Settles table t l := by
  have hinside (u : Ty) (hu : u ∈ t.parts fun _ _ => []) (k : Layout) (hk : u.layoutWith members = some k) :
      Settles table u k := settles_of_layoutWith hm u hk
  cases hform : t.form with
  | scalar layout =>
    rw [layoutWith_scalar hform] at h
    subst h
    refine ⟨fun m => ⟨fun hm => ?_, ?_⟩, fits_scalar hform⟩
    · cases hm with
      | scalar hm =>
        rw [hform] at hm
        cases hm
        rfl
      | array => cases hform
      | product hm | sum hm =>
        rw [hform] at hm
        cases hm
    · rintro rfl
      exact .scalar hform
  | array elem size =>
    obtain rfl : t = .array elem size := by
      cases t <;> cases hform
      rfl
    simp only [layoutWith, bind_eq_bind, bind_eq_some_iff, Option.pure_def, some.injEq] at h
    obtain ⟨e, he, n, rfl, total, htotal, rfl⟩ := h
    have helem := hinside elem (mem_singleton.2 rfl) e he
    unfold checked at htotal
    split at htotal
    · next hlt =>
      cases htotal
      refine ⟨fun m => ⟨fun hm => ?_, ?_⟩, helem.fits.aligned, Nat.dvd_mul_right_of_dvd helem.fits.dvd n, hlt⟩
      · cases hm with
        | array hm => rw [(helem.takes _).mp hm]
        | scalar hm | product hm | sum hm => cases hm
      · rintro rfl
        exact .array ((helem.takes _).mpr rfl)
    · cases htotal
  | product =>
    rw [layoutWith_product hform, bind_eq_some_iff] at h
    obtain ⟨ls, hls, hl⟩ := h
    obtain ⟨hsized, hall⟩ := settleAll_of_partLayouts hm (.inl hform) hinside hls
    obtain ⟨hpacks, hl⟩ := aggregate_eq_some hall.aligned hl
    refine ⟨fun m => ?_, hl⟩
    rw [← hpacks]
    refine ⟨fun hm => ?_, .product hform hsized ((hall.takes _).mpr rfl)⟩
    cases hm with
    | product _ _ hms hm => exact (hall.takes _).mp hms ▸ hm
    | array => cases hform
    | scalar hm | sum hm =>
      rw [hform] at hm
      cases hm
  | sum =>
    rw [layoutWith_sum hform fun _ hls => (settleAll_of_partLayouts hm (.inr hform) hinside hls).2.aligned,
      bind_eq_some_iff] at h
    obtain ⟨ls, hls, hl⟩ := h
    obtain ⟨hsized, hall⟩ := settleAll_of_partLayouts hm (.inr hform) hinside hls
    obtain ⟨hpacks, hl⟩ := aggregate_eq_some (aligned_tagged (aligned_widest hall.aligned)) hl
    refine ⟨fun m => ?_, hl⟩
    rw [← hpacks]
    refine ⟨fun hm => ?_, .sum hform hsized ((hall.takes _).mpr rfl)⟩
    cases hm with
    | sum _ _ hms hm => exact (hall.takes _).mp hms ▸ hm
    | array => cases hform
    | scalar hm | product hm =>
      rw [hform] at hm
      cases hm
termination_by sizeOf t
decreasing_by exact sizeOf_lt_of_mem_parts hu

/-! ### Parts of what has a layout -/

lemma exists_partLayouts {l} (h : t.layoutWith members = some l)
    (ht : t.form = .product ∨ t.form = .sum) : ∃ ls, t.partLayouts members = some ls := by
  cases t with
  | tuple _ | struct _ _ | enum _ _ =>
    obtain ⟨ls, hls, -⟩ := bind_eq_some_iff.1 h
    exact ⟨ls, hls⟩
  | option _ =>
    obtain ⟨i, hi, -⟩ := bind_eq_some_iff.1 h
    exact ⟨[i], by simp only [partLayouts, parts, layoutsWith, hi]; rfl⟩
  | result _ _ =>
    obtain ⟨a, ha, h⟩ := bind_eq_some_iff.1 h
    obtain ⟨b, hb, -⟩ := bind_eq_some_iff.1 h
    exact ⟨[a, b], by simp only [partLayouts, parts, layoutsWith, ha, hb]; rfl⟩
  | _ => rcases ht with ht | ht <;> cases ht

lemma exists_of_mem_layoutsWith (h : layoutsWith members ts = some ls)
    (ht : t ∈ ts) : ∃ l, t.layoutWith members = some l := by
  induction ts generalizing ls with
  | nil => cases ht
  | cons u us ih =>
    obtain ⟨l, hl, h⟩ := bind_eq_some_iff.1 h
    obtain ⟨ls, hls, -⟩ := bind_eq_some_iff.1 h
    rcases mem_cons.1 ht with rfl | ht
    · exact ⟨l, hl⟩
    · exact ih hls ht

end Ty

namespace NominalTable

def Within (table other : NominalTable) : Prop :=
  ∀ n members, table.lookup n = some members → other.lookup n = some members

lemma within_self (table : NominalTable) : table.Within table :=
  fun _ _ h => h

lemma Within.erase {table other : NominalTable} (h : table.Within other) (n) : (table.erase n).Within other := by
  intro m members hm
  rw [lookup_erase] at hm
  split at hm
  · cases hm
  · exact h m members hm

lemma memberLayouts_eq_some {table : NominalTable} {n} :
    table.memberLayouts n = some ls ↔ ∃ members, table.lookup n = some members ∧
      Ty.layoutsWith (memberLayouts (table.erase n)) members = some ls := by
  rw [memberLayouts]
  split
  · next h => simp [h]
  · next members h => simp [h]

lemma Within.exact {table other : NominalTable} (h : table.Within other) :
    Ty.Exact other (memberLayouts table) := by
  intro n ls hls
  obtain ⟨members, hmembers, hls⟩ := memberLayouts_eq_some.1 hls
  have hother := h n members hmembers
  refine ⟨by simp [hother], ?_⟩
  rw [listed, hother]
  exact Ty.settleAll_of_layoutsWith (fun t _ l => Ty.settles_of_layoutWith (h.erase n).exact t) hls
termination_by table.length
decreasing_by exact length_erase_lt ‹_›

end NominalTable

namespace Ty

/-- Having a layout by a part of the table. Inside a struct or enum it is a part without the type itself. -/
def Measured (table : NominalTable) (t : Ty) : Prop :=
  ∃ table' : NominalTable, table'.Within table ∧ ∃ l, t.layout table' = some l

variable {table other : NominalTable}

section

variable (h : t.Measured table)

include h

lemma Measured.settles : ∃ l, Settles table t l := by
  obtain ⟨table', hin, l, hl⟩ := h
  exact ⟨l, settles_of_layoutWith hin.exact t hl⟩

/-- A struct or enum with a layout is listed, and its members are measured without it. -/
lemma Measured.nominal {n} (hn : t.nominal? = some n) :
    ∃ members, table.lookup n = some members ∧ ∀ u ∈ members, u.Measured (table.erase n) := by
  obtain ⟨table', hin, l, hl⟩ := h
  have hlayouts : ∃ ls, table'.memberLayouts n = some ls := by
    cases t <;> cases hn
    all_goals exact exists_partLayouts hl (by simp [form])
  obtain ⟨ls, hls⟩ := hlayouts
  obtain ⟨members, hmembers, hls⟩ := memberLayouts_eq_some.1 hls
  refine ⟨members, hin n members hmembers, fun u hu => ⟨table'.erase n, ?_, exists_of_mem_layoutsWith hls hu⟩⟩
  intro m ts hm
  rw [lookup_erase] at hm ⊢
  split at hm
  · cases hm
  · next hne => rw [if_neg hne, hin m ts hm]

lemma Measured.sized : t.Sized table := by
  cases t with
  | struct n _ | enum n _ =>
    obtain ⟨members, hmembers, -⟩ := h.nominal rfl
    simp [Sized, hmembers]
  | slice _ | pointer _ _ | taskHandle _ | option _ | result _ _ | tuple _ => trivial
  | primitive p =>
    obtain ⟨_, _, l, hl⟩ := h
    rintro rfl
    cases hl
  | array elem size =>
    obtain ⟨_, _, l, hl⟩ := h
    rintro rfl
    simp [layout, layoutWith] at hl
  | param _ | infinite | unknown =>
    obtain ⟨_, _, l, hl⟩ := h
    cases hl

lemma Measured.part (hsub : table.Within other)
    (hu : HasPart other.listed t u) : u.Measured table := by
  cases hn : t.nominal? with
  | some n =>
    obtain ⟨members, hmembers, hall⟩ := h.nominal hn
    obtain ⟨table', hin, hl⟩ := hall u (by
      cases t <;> cases hn
      all_goals simpa [HasPart, parts, listed, hsub n members hmembers] using hu)
    exact ⟨table', fun m ts hm => (within_self table).erase n m ts (hin m ts hm), hl⟩
  | none =>
    obtain ⟨table', hin, l, hl⟩ := h
    refine ⟨table', hin, ?_⟩
    cases t with
    | array elem _ =>
      obtain ⟨m, hm, -⟩ := bind_eq_some_iff.1 hl
      rw [mem_singleton.1 hu]
      exact ⟨m, hm⟩
    | tuple _ | option _ | result _ _ =>
      obtain ⟨ls, hls⟩ := exists_partLayouts hl (by simp [form])
      exact exists_of_mem_layoutsWith hls hu
    | struct | enum => cases hn
    | primitive | slice | pointer | taskHandle | param | infinite | unknown => cases hu

lemma Measured.held (hsub : table.Within other) (hu : Holds other.listed t u) :
    u.Measured table := by
  induction hu with
  | refl => exact h
  | tail _ hpart ih => exact ih.part hsub hpart

lemma Measured.laysOut : t.LaysOut table := by
  have hself := table.within_self
  constructor
  · exact fun u hu => (h.held hself hu).sized
  · intro u v w hu hv hw hn hwn
    obtain ⟨n, hn⟩ := ne_none_iff_exists'.mp hn
    obtain ⟨members, hmembers, hall⟩ := (h.held hself hu).nominal hn
    have hv : v ∈ members := by
      cases u <;> cases hn
      all_goals simpa [HasPart, parts, listed, hmembers] using hv
    -- Below `u` everything is measured without `n`, so `n` is not among it.
    obtain ⟨_, hnone, -⟩ := ((hall v hv).held (hself.erase n) hw).nominal (hwn.trans hn)
    simp [lookup_erase] at hnone
  · intro u l hu hl
    obtain ⟨m, hsettles⟩ := (h.held hself hu).settles
    rw [(hsettles.takes l).mp hl]
    exact hsettles.fits.lt

end

/-! ### Layouts that must be there -/

variable {members : Nominal → Option (List Layout)}

lemma exists_layoutsWith (h : ∀ t ∈ ts, ∃ l, t.layoutWith members = some l) :
    ∃ ls, layoutsWith members ts = some ls := by
  induction ts with
  | nil => exact ⟨[], rfl⟩
  | cons t ts ih =>
    obtain ⟨l, hl⟩ := h t (by simp)
    obtain ⟨ls, hls⟩ := ih fun u hu => h u (by simp [hu])
    exact ⟨l :: ls, by simp only [layoutsWith, hl, hls]; rfl⟩

lemma LaysOut.exists_layoutWith (hm : Exact table members) {t} (ht : t.LaysOut table)
    (hn : ∀ u n, Holds table.listed t u → u.nominal? = some n → ∃ ls, members n = some ls) :
    ∃ l, t.layoutWith members = some l := by
  have hlt (l : Layout) : Takes table t l → l.size < bound := ht.lt t l .refl
  have hinside (u : Ty) (hu : u ∈ t.parts fun _ _ => []) : ∃ l, u.layoutWith members = some l := by
    have hpart : HasPart table.listed t u := by
      cases t with
      | struct | enum => cases hu
      | _ => exact hu
    exact LaysOut.exists_layoutWith hm (ht.held (.single hpart)) fun v n hv => hn v n (.head hpart hv)
  have hsettles (u : Ty) (_ : u ∈ t.parts fun _ _ => []) (l : Layout) := settles_of_layoutWith (l := l) hm u
  have hparts (hform : t.form = .product ∨ t.form = .sum) : ∃ ls, t.partLayouts members = some ls := by
    cases t with
    | struct n _ | enum n _ => exact hn _ n .refl rfl
    | tuple _ | option _ | result _ _ => exact exists_layoutsWith hinside
    | _ => rcases hform with hform | hform <;> cases hform
  cases hform : t.form with
  | scalar layout =>
    rw [layoutWith_scalar hform]
    have hsized := ht.sized t .refl
    cases t with
    | primitive p =>
      cases hform
      cases p with
      | never => exact absurd rfl hsized
      | _ => exact ⟨_, rfl⟩
    | pointer | taskHandle | slice =>
      cases hform
      exact ⟨_, rfl⟩
    | param | infinite | unknown => exact hsized.elim
    | _ => cases hform
  | array elem size =>
    obtain rfl : t = .array elem size := by
      cases t <;> cases hform
      rfl
    obtain ⟨n, rfl⟩ := ne_none_iff_exists'.mp (ht.sized _ .refl)
    obtain ⟨e, he⟩ := hinside elem (mem_singleton.2 rfl)
    have htotal := hlt _ (.array (((settles_of_layoutWith hm elem he).takes _).mpr rfl))
    exact ⟨_, by simp only [layoutWith, he, bind_eq_bind, bind_some, checked_of_lt htotal]; rfl⟩
  | product =>
    obtain ⟨ls, hls⟩ := hparts (.inl hform)
    obtain ⟨hsized, hall⟩ := settleAll_of_partLayouts hm (.inl hform) hsettles hls
    rw [layoutWith_product hform, hls]
    exact aggregate_of_lt hall.aligned fun l hl => hlt l (.product hform hsized ((hall.takes _).mpr rfl) hl)
  | sum =>
    obtain ⟨ls, hls⟩ := hparts (.inr hform)
    obtain ⟨hsized, hall⟩ := settleAll_of_partLayouts hm (.inr hform) hsettles hls
    rw [layoutWith_sum hform fun _ hls => (settleAll_of_partLayouts hm (.inr hform) hsettles hls).2.aligned, hls]
    exact aggregate_of_lt (aligned_tagged (aligned_widest hall.aligned))
      fun l hl => hlt l (.sum hform hsized ((hall.takes _).mpr rfl) hl)
termination_by sizeOf t
decreasing_by exact sizeOf_lt_of_mem_parts hu

/-- The table that is left lists all that the type holds. Since none of it holds itself, this stays so when
the type is entered. -/
lemma LaysOut.exists_memberLayouts {table' : NominalTable} (hsub : table'.Within table) {t}
    (ht : t.LaysOut table) {n} (hn : t.nominal? = some n)
    (hall : ∀ u k, Holds table.listed t u → u.nominal? = some k → table'.lookup k = table.lookup k) :
    ∃ ls, table'.memberLayouts n = some ls := by
  have hsized := ht.sized t .refl
  obtain ⟨members, hmembers⟩ : ∃ members, table.lookup n = some members := by
    cases t <;> cases hn
    all_goals exact ne_none_iff_exists'.mp hsized
  have hmembers' : table'.lookup n = some members := by rw [hall t n .refl hn, hmembers]
  have hpart : ∀ u ∈ members, HasPart table.listed t u := by
    intro u hu
    cases t <;> cases hn
    all_goals simpa [HasPart, parts, listed, hmembers] using hu
  obtain ⟨ls, hls⟩ := exists_layoutsWith fun u hu =>
    (ht.held (.single (hpart u hu))).exists_layoutWith (hsub.erase n).exact fun v k hv hk => by
      have hheld : Holds table.listed t v := .head (hpart u hu) hv
      refine LaysOut.exists_memberLayouts (hsub.erase n) (ht.held hheld) hk fun w i hw hi => ?_
      have hne : i ≠ n := by
        rintro rfl
        exact ht.acyclic t u w .refl (hpart u hu) (hv.trans hw) (by simp [hn]) (hi.trans hn.symm)
      rw [lookup_erase, if_neg hne]
      exact hall w i (hheld.trans hw) hi
  exact ⟨ls, memberLayouts_eq_some.2 ⟨members, hmembers', hls⟩⟩
termination_by table'.length
decreasing_by exact length_erase_lt hmembers'

/-- A type has a layout exactly when all it holds by value is sized, no struct or enum among it holds itself, and
it is in bounds by the rules. Its layout is then the only one that the rules allow, and its alignment divides its
size. -/
theorem exists_layout_iff (table : NominalTable) (t : Ty) :
    ((∃ l, t.layout table = some l) ↔ t.LaysOut table) ∧
      ∀ l, t.layout table = some l →
        (∀ m, Takes table t m ↔ m = l) ∧ (l.align = 1 ∨ l.align = 2 ∨ l.align = 4 ∨ l.align = 8) ∧
          l.align ∣ l.size := by
  have hself := table.within_self
  refine ⟨⟨fun hl => ?_, fun ht => ?_⟩, fun l hl => ?_⟩
  · have hmeasured : t.Measured table := ⟨table, hself, hl⟩
    exact hmeasured.laysOut
  · exact ht.exists_layoutWith hself.exact fun u n hu hn =>
      (ht.held hu).exists_memberLayouts hself hn fun _ _ _ _ => rfl
  · have hsettles := settles_of_layoutWith hself.exact t hl
    exact ⟨hsettles.takes, hsettles.fits.aligned, hsettles.fits.dvd⟩

/-- A struct of a byte and an enum, whose payloads are an address and a pair. -/
def nestedTable : NominalTable :=
  [(⟨"m", "S"⟩, [.primitive .u8, .enum ⟨"m", "E"⟩ []]),
    (⟨"m", "E"⟩, [.tuple [.pointer .mut (.struct ⟨"m", "S"⟩ [])], .tuple [.primitive .i64, .primitive .u16]])]

theorem exists_layout_iff_nested :
    (Ty.struct ⟨"m", "S"⟩ []).layout nestedTable = some ⟨32, 8⟩ ∧
      Takes nestedTable (.struct ⟨"m", "S"⟩ []) ⟨32, 8⟩ := by
  have hl : (Ty.struct ⟨"m", "S"⟩ []).layout nestedTable = some ⟨32, 8⟩ := by decide +kernel
  exact ⟨hl, (((exists_layout_iff nestedTable (.struct ⟨"m", "S"⟩ [])).2 _ hl).1 _).mpr rfl⟩

end Ty

end SourceCheck
