import Mathlib.Order.Defs.Unbundled
import Mathlib.Tactic.Lemma
import SourceCheck.Ty.Assignable
import SourceCheck.Ty.Substitution

/-!
# The order of types

Assignability by rules, one for each way in which two types fit. It is an order of the types that leave nothing open,
and does not depend on what type parameters stand for.
-/

namespace SourceCheck.Ty

/-! ### Rules -/

mutual

/-- Where a value of one type may stand for one of another. -/
inductive Suits : Ty → Ty → Prop where
  | ofUnknown {b} : Suits .unknown b
  | toUnknown {a} : Suits a .unknown
  | never {b} : Suits (.primitive .never) b
  | primitive {p q} : p = q ∨ primitiveFits p q = true → Suits (.primitive p) (.primitive q)
  | slice {a b} : Suits a b → Suits (.slice a) (.slice b)
  | arraySlice {a b n} : Suits a b → Suits (.array a n) (.slice b)
  | array {a b n m} : Suits a b → sizeFits n m = true → Suits (.array a n) (.array b m)
  | pointer {a b m k} : mutabilityFits m k = true → Suits a b → Suits (.pointer m a) (.pointer k b)
  | result {a₁ a₂ b₁ b₂} : Suits a₁ b₁ → Suits a₂ b₂ → Suits (.result a₁ a₂) (.result b₁ b₂)
  | option {a b} : Suits a b → Suits (.option a) (.option b)
  | taskHandle {a b} : Suits a b → Suits (.taskHandle a) (.taskHandle b)
  | tuple {as bs} : AllSuit as bs → Suits (.tuple as) (.tuple bs)
  | struct {n as bs} : AllSuit as bs → Suits (.struct n as) (.struct n bs)
  | enum {n as bs} : AllSuit as bs → Suits (.enum n as) (.enum n bs)
  | param {x} : Suits (.param x) (.param x)
  | infinite : Suits .infinite .infinite

inductive AllSuit : List Ty → List Ty → Prop where
  | nil : AllSuit [] []
  | cons {a b as bs} : Suits a b → AllSuit as bs → AllSuit (a :: as) (b :: bs)

end

lemma sizeFits_self (n) : sizeFits n n = true := by
  simp [sizeFits]

lemma mutabilityFits_self (m) : mutabilityFits m m = true := by
  simp [mutabilityFits]

mutual

lemma Suits.refl : ∀ t : Ty, Suits t t
  | .primitive _ => .primitive (.inl rfl)
  | .slice t => .slice (Suits.refl t)
  | .array t n => .array (Suits.refl t) (sizeFits_self n)
  | .pointer m t => .pointer (mutabilityFits_self m) (Suits.refl t)
  | .result t u => .result (Suits.refl t) (Suits.refl u)
  | .option t => .option (Suits.refl t)
  | .taskHandle t => .taskHandle (Suits.refl t)
  | .tuple ts => .tuple (AllSuit.refl ts)
  | .struct _ ts => .struct (AllSuit.refl ts)
  | .enum _ ts => .enum (AllSuit.refl ts)
  | .param _ => .param
  | .infinite => .infinite
  | .unknown => .ofUnknown

lemma AllSuit.refl : ∀ ts : List Ty, AllSuit ts ts
  | [] => .nil
  | t :: ts => .cons (Suits.refl t) (AllSuit.refl ts)

end

mutual

lemma suits_of_assignable : ∀ {a b : Ty}, assignable a b = true → Suits a b := by
  intro a b h
  unfold assignable at h
  split at h
  · rename_i heq
    exact heq ▸ Suits.refl a
  · split at h
    · exact .ofUnknown
    · exact .toUnknown
    · exact .never
    · exact .primitive (.inr h)
    · exact .slice (suits_of_assignable h)
    · exact .arraySlice (suits_of_assignable h)
    · rw [Bool.and_eq_true] at h
      exact .array (suits_of_assignable h.1) h.2
    · rw [Bool.and_eq_true] at h
      exact .pointer h.1 (suits_of_assignable h.2)
    · rw [Bool.and_eq_true] at h
      exact .result (suits_of_assignable h.1) (suits_of_assignable h.2)
    · exact .option (suits_of_assignable h)
    · exact .taskHandle (suits_of_assignable h)
    · exact .tuple (allSuit_of_allAssignable h)
    · rw [Bool.and_eq_true, decide_eq_true_eq] at h
      exact h.1 ▸ .struct (allSuit_of_allAssignable h.2)
    · rw [Bool.and_eq_true, decide_eq_true_eq] at h
      exact h.1 ▸ .enum (allSuit_of_allAssignable h.2)
    · cases h

lemma allSuit_of_allAssignable : ∀ {as bs : List Ty}, allAssignable as bs = true → AllSuit as bs := by
  intro as bs h
  unfold allAssignable at h
  split at h
  · exact .nil
  · rw [Bool.and_eq_true] at h
    exact .cons (suits_of_assignable h.1) (allSuit_of_allAssignable h.2)
  · cases h

end

mutual

lemma Suits.assignable : ∀ {a b : Ty}, Suits a b → a.assignable b = true := by
  intro a b h
  unfold Ty.assignable
  split
  · rfl
  · rename_i hne
    cases h with
    | ofUnknown => rfl
    | never => cases b <;> rfl
    | toUnknown => cases a <;> rfl
    | primitive h =>
      have h := h.resolve_left fun heq => hne (heq ▸ rfl)
      split <;> simp_all
    | slice h | arraySlice h | option h | taskHandle h => exact Suits.assignable h
    | array h hsize => exact Bool.and_eq_true_iff.2 ⟨Suits.assignable h, hsize⟩
    | pointer hm h => exact Bool.and_eq_true_iff.2 ⟨hm, Suits.assignable h⟩
    | result h₁ h₂ => exact Bool.and_eq_true_iff.2 ⟨Suits.assignable h₁, Suits.assignable h₂⟩
    | tuple h => exact AllSuit.allAssignable h
    | struct h | enum h => simpa using AllSuit.allAssignable h
    | param | infinite => exact absurd rfl hne

lemma AllSuit.allAssignable : ∀ {as bs : List Ty}, AllSuit as bs → Ty.allAssignable as bs = true := by
  intro as bs h
  cases h with
  | nil => rfl
  | cons h hrest => exact Bool.and_eq_true_iff.2 ⟨Suits.assignable h, AllSuit.allAssignable hrest⟩

end

lemma assignable_iff {a b} : a.assignable b = true ↔ Suits a b :=
  ⟨suits_of_assignable, Suits.assignable⟩

/-! ### Types that leave nothing open -/

mutual

/-- No unresolved part, no literal type and no array of unknown size. -/
def Definite : Ty → Prop
  | .primitive p => p ≠ .int ∧ p ≠ .float
  | .array t n => t.Definite ∧ n ≠ none
  | .slice t | .pointer _ t | .option t | .taskHandle t => t.Definite
  | .result t u => t.Definite ∧ u.Definite
  | .tuple ts | .struct _ ts | .enum _ ts => AllDefinite ts
  | .param _ | .infinite => True
  | .unknown => False

def AllDefinite : List Ty → Prop
  | [] => True
  | t :: ts => t.Definite ∧ AllDefinite ts

end

lemma primitiveFits_eq_false {p q} (hp : p ≠ .int ∧ p ≠ .float) (hq : q ≠ .int ∧ q ≠ .float) :
    primitiveFits p q = false := by
  simp [primitiveFits, hp, hq]

lemma primitiveFits_trans {p q r} (hpq : p = q ∨ primitiveFits p q = true) (hq : q ≠ .int ∧ q ≠ .float)
    (hqr : q = r ∨ primitiveFits q r = true) : p = r ∨ primitiveFits p r = true := by
  obtain rfl | hpq := hpq
  · exact hqr
  obtain rfl | hqr := hqr
  · exact .inr hpq
  -- Both sides are then the literal type of the class of `q`.
  left
  simp only [primitiveFits, hq.1, hq.2, decide_false, Bool.or_false, Bool.false_or, Bool.or_eq_true, Bool.and_eq_true,
    decide_eq_true_eq] at hpq hqr
  grind [Primitive.isInteger, Primitive.isFloat]

lemma sizeFits_trans {n m k} (hnm : sizeFits n m = true) (hm : m ≠ none) (hmk : sizeFits m k = true) :
    sizeFits n k = true := by
  cases m with
  | none => exact absurd rfl hm
  | some i => grind [sizeFits]

lemma sizeFits_eq {n m} (h : sizeFits n m = true) (hn : n ≠ none) (hm : m ≠ none) : n = m := by
  simpa [sizeFits, hn, hm] using h

lemma mutabilityFits_trans {m k l} (hmk : mutabilityFits m k = true) (hkl : mutabilityFits k l = true) :
    mutabilityFits m l = true := by
  grind [mutabilityFits]

lemma mutabilityFits_antisymm {m k} (hmk : mutabilityFits m k = true) (hkm : mutabilityFits k m = true) : m = k := by
  grind [mutabilityFits]

mutual

/-- Two assignments are one, unless the type between them leaves something open. -/
lemma Suits.trans : ∀ {a b c : Ty}, Suits a b → b.Definite → Suits b c → Suits a c := by
  intro a b c hab hb hbc
  match hab, hb, hbc with
  | .ofUnknown, _, _ => exact .ofUnknown
  | .never, _, _ => exact .never
  | _, _, .toUnknown => exact .toUnknown
  | .primitive (.inl rfl), _, .never => exact .never
  | .primitive h, hb, .primitive h' => exact .primitive (primitiveFits_trans h hb h')
  | .slice h, hb, .slice h' => exact .slice (Suits.trans h hb h')
  | .arraySlice h, hb, .slice h' => exact .arraySlice (Suits.trans h hb h')
  | .array h _, hb, .arraySlice h' => exact .arraySlice (Suits.trans h hb.1 h')
  | .array h hsize, hb, .array h' hsize' =>
    exact .array (Suits.trans h hb.1 h') (sizeFits_trans hsize hb.2 hsize')
  | .pointer hm h, hb, .pointer hm' h' => exact .pointer (mutabilityFits_trans hm hm') (Suits.trans h hb h')
  | .result h₁ h₂, hb,
    .result h₁' h₂' => exact .result (Suits.trans h₁ hb.1 h₁') (Suits.trans h₂ hb.2 h₂')
  | .option h, hb, .option h' => exact .option (Suits.trans h hb h')
  | .taskHandle h, hb, .taskHandle h' => exact .taskHandle (Suits.trans h hb h')
  | .tuple h, hb, .tuple h' => exact .tuple (AllSuit.trans h hb h')
  | .struct h, hb, .struct h' => exact .struct (AllSuit.trans h hb h')
  | .enum h, hb, .enum h' => exact .enum (AllSuit.trans h hb h')
  | .param, _, h | .infinite, _, h => exact h

lemma AllSuit.trans :
    ∀ {as bs cs : List Ty}, AllSuit as bs → AllDefinite bs → AllSuit bs cs → AllSuit as cs := by
  intro as bs cs hab hbs hbc
  cases hab with
  | nil => exact hbc
  | cons h hrest =>
    cases hbc with
    | cons h' hrest' => exact .cons (Suits.trans h hbs.1 h') (AllSuit.trans hrest hbs.2 hrest')

end

mutual

lemma Suits.antisymm : ∀ {a b : Ty}, Suits a b → Suits b a → a.Definite → b.Definite → a = b := by
  intro a b hab hba ha hb
  -- A slice is never assignable to an array, so the step to slices has no way back.
  match hab, hba with
  | .never, .primitive h => exact congrArg _ (h.resolve_right (by simp [primitiveFits_eq_false hb ha])).symm
  | .never, .never => rfl
  | .primitive h, _ => exact congrArg _ (h.resolve_right (by simp [primitiveFits_eq_false ha hb]))
  | .slice h, .slice h' => rw [Suits.antisymm h h' ha hb]
  | .array h hsize, .array h' _ => rw [Suits.antisymm h h' ha.1 hb.1, sizeFits_eq hsize ha.2 hb.2]
  | .pointer hm h, .pointer hm' h' => rw [Suits.antisymm h h' ha hb, mutabilityFits_antisymm hm hm']
  | .result h₁ h₂, .result h₁' h₂' =>
    rw [Suits.antisymm h₁ h₁' ha.1 hb.1, Suits.antisymm h₂ h₂' ha.2 hb.2]
  | .option h, .option h' => rw [Suits.antisymm h h' ha hb]
  | .taskHandle h, .taskHandle h' => rw [Suits.antisymm h h' ha hb]
  | .tuple h, .tuple h' => rw [AllSuit.antisymm h h' ha hb]
  | .struct h, .struct h' => rw [AllSuit.antisymm h h' ha hb]
  | .enum h, .enum h' => rw [AllSuit.antisymm h h' ha hb]
  | .param, _ | .infinite, _ => rfl

lemma AllSuit.antisymm :
    ∀ {as bs : List Ty}, AllSuit as bs → AllSuit bs as → AllDefinite as → AllDefinite bs →
    as = bs := by
  intro as bs hab hba has hbs
  cases hab with
  | nil => rfl
  | cons h hrest =>
    cases hba with
    | cons h' hrest' => rw [Suits.antisymm h h' has.1 hbs.1, AllSuit.antisymm hrest hrest' has.2 hbs.2]

end

/-! ### Substitution -/

mutual

lemma Suits.substitute (types : String → Option Ty) : ∀ {a b : Ty}, Suits a b →
    Suits (a.substitute types) (b.substitute types) := by
  intro a b h
  cases h with
  | ofUnknown => exact .ofUnknown
  | toUnknown => exact .toUnknown
  | never => exact .never
  | primitive h => exact .primitive h
  | slice h => exact .slice (Suits.substitute types h)
  | arraySlice h => exact .arraySlice (Suits.substitute types h)
  | array h hsize => exact .array (Suits.substitute types h) hsize
  | pointer hm h => exact .pointer hm (Suits.substitute types h)
  | result h₁ h₂ => exact .result (Suits.substitute types h₁) (Suits.substitute types h₂)
  | option h => exact .option (Suits.substitute types h)
  | taskHandle h => exact .taskHandle (Suits.substitute types h)
  | tuple h => exact .tuple (AllSuit.substituteList types h)
  | struct h => exact .struct (AllSuit.substituteList types h)
  | enum h => exact .enum (AllSuit.substituteList types h)
  | param | infinite => exact Suits.refl _

lemma AllSuit.substituteList (types : String → Option Ty) : ∀ {as bs : List Ty}, AllSuit as bs →
    AllSuit (Ty.substituteList types as) (Ty.substituteList types bs) := by
  intro as bs h
  cases h with
  | nil => exact .nil
  | cons h hrest => exact .cons (Suits.substitute types h) (AllSuit.substituteList types hrest)

end

/-- Assignability is what the rules say. It is an order of the types that leave nothing open, and stays when type
parameters are replaced. -/
theorem assignable_partialOrder :
    (∀ a b : Ty, a.assignable b = true ↔ Suits a b) ∧
      IsPartialOrder {t : Ty // t.Definite} (fun a b => a.1.assignable b.1 = true) ∧
      ∀ (a b : Ty) (types : String → Option Ty), a.assignable b = true →
        (a.substitute types).assignable (b.substitute types) = true := by
  refine ⟨fun _ _ => assignable_iff, { refl := ?_, trans := ?_, antisymm := ?_ }, ?_⟩
  · intro a
    exact (Suits.refl a.1).assignable
  · intro a b c hab hbc
    exact ((assignable_iff.mp hab).trans b.2 (assignable_iff.mp hbc)).assignable
  · intro a b hab hba
    exact Subtype.ext ((assignable_iff.mp hab).antisymm (assignable_iff.mp hba) a.2 b.2)
  · intro a b types h
    exact ((assignable_iff.mp h).substitute types).assignable

theorem assignable_partialOrder_pointers :
    let a : Ty := .array (.pointer .mut (.param "T")) (some 3)
    let b : Ty := .slice (.pointer .const (.param "T"))
    let types : String → Option Ty := fun x => if x = "T" then some .usize else none
    a.assignable b = true ∧ b.assignable a = false ∧
      (a.substitute types).assignable (b.substitute types) = true :=
  ⟨by decide, by decide, assignable_partialOrder.2.2 _ _ _ (by decide)⟩

end SourceCheck.Ty
