import Mathlib.Data.Int.Bitwise
import Mathlib.Tactic.Lemma
import SourceCheck.Const.Arithmetic

/-!
# Exact arithmetic on constants

An operation on integer constants gives the result over all integers, or is refused: for a divisor of zero, a shift
amount not below the number of bits, and a result that is no constant. But a shift to the left agrees in the lowest
128 bits only, and the remainder of the least constant by `-1` is refused.
-/

namespace SourceCheck

open Int

namespace ConstValue

def Representable (n : Int) : Prop :=
  minInt ≤ n ∧ n ≤ maxInt

instance (n : Int) : Decidable (Representable n) :=
  inferInstanceAs (Decidable (_ ∧ _))

/-- The result over all integers. Shifts move all bits, and negative integers have infinitely many. -/
def exactResult (op : BinaryOp) (a b : Int) : ConstValue :=
  match op with
  | .add => .int (a + b)
  | .sub => .int (a - b)
  | .mul => .int (a * b)
  | .div => .int (a.tdiv b)
  | .mod => .int (a.tmod b)
  | .bitAnd => .int (a.land b)
  | .bitOr => .int (a.lor b)
  | .bitXor => .int (a.xor b)
  | .shl => .int (a * 2 ^ b.toNat)
  | .shr => .int (a / 2 ^ b.toNat)
  | .eq => .bool (a = b)
  | .notEq => .bool (a ≠ b)
  | .lt => .bool (a < b)
  | .ltEq => .bool (a ≤ b)
  | .gt => .bool (a > b)
  | .gtEq => .bool (a ≥ b)
  | .and => .bool (a ≠ 0 ∧ b ≠ 0)
  | .or => .bool (a ≠ 0 ∨ b ≠ 0)

/-- Why an operation has no result among the constants, if it has none. -/
def refusal? (op : BinaryOp) (a b : Int) : Option ArithmeticProblem :=
  if (op = .div ∨ op = .mod) ∧ b = 0 then some .divisionByZero
  else if (op = .shl ∨ op = .shr) ∧ ¬ (0 ≤ b ∧ b < 128) then some .shiftAmount
  else
    match exactResult op a b with
    | .int n => if Representable n then none else some .overflow
    | _ => none

def exactly (op : BinaryOp) (a b : Int) : Except ArithmeticProblem ConstValue :=
  (refusal? op a b).elim (.ok (exactResult op a b)) .error

/-! ### Bits -/

lemma representable_natCast {m : Nat} : Representable (m : Int) ↔ m < 2 ^ 127 := by
  simp only [Representable, minInt, maxInt, Nat.pow_eq]
  omega

lemma representable_negSucc {m} : Representable (.negSucc m) ↔ m < 2 ^ 127 := by
  simp only [Representable, minInt, maxInt, Nat.pow_eq]
  omega

lemma toInt_ofInt_of_representable {n} (h : Representable n) : (BitVec.ofInt intBits n).toInt = n := by
  simp only [Representable, minInt, maxInt, Nat.pow_eq] at h
  rw [BitVec.toInt_ofInt, intBits]
  apply bmod_eq_of_le <;> omega

section

variable (w : Nat) (a b : Int)

lemma ofNat_ldiff (m n) : BitVec.ofNat w (m.ldiff n) = BitVec.ofNat w m &&& ~~~BitVec.ofNat w n := by
  apply BitVec.eq_of_getLsbD_eq
  intro i hi
  rw [BitVec.getLsbD_and, BitVec.getLsbD_not, BitVec.getLsbD_ofNat, BitVec.getLsbD_ofNat, BitVec.getLsbD_ofNat,
    Nat.testBit_ldiff]
  simp [hi]

attribute [local simp] BitVec.ofInt_negSucc_eq_not_ofNat

lemma ofInt_land : BitVec.ofInt w (a.land b) = BitVec.ofInt w a &&& BitVec.ofInt w b := by
  apply BitVec.eq_of_getLsbD_eq
  intro i hi
  cases a <;> cases b <;> simp [land, ofNat_ldiff, hi, Bool.and_comm]

lemma ofInt_lor : BitVec.ofInt w (a.lor b) = BitVec.ofInt w a ||| BitVec.ofInt w b := by
  apply BitVec.eq_of_getLsbD_eq
  intro i hi
  cases a <;> cases b <;> simp [lor, ofNat_ldiff, hi, Bool.or_comm]

lemma ofInt_xor : BitVec.ofInt w (a.xor b) = BitVec.ofInt w a ^^^ BitVec.ofInt w b := by
  apply BitVec.eq_of_getLsbD_eq
  intro i hi
  cases a <;> cases b <;> simp [Int.xor, hi]

end

section

variable {a b : Int} (ha : Representable a) (hb : Representable b)

include ha hb

lemma representable_land : Representable (a.land b) := by
  cases a <;> cases b <;>
    simp only [land, Nat.ldiff, ofNat_eq_natCast, representable_natCast, representable_negSucc] at ha hb ⊢
  · exact Nat.and_lt_two_pow _ hb
  · exact Nat.bitwise_lt_two_pow ha hb
  · exact Nat.bitwise_lt_two_pow hb ha
  · exact Nat.or_lt_two_pow ha hb

lemma representable_lor : Representable (a.lor b) := by
  cases a <;> cases b <;>
    simp only [lor, Nat.ldiff, ofNat_eq_natCast, representable_natCast, representable_negSucc] at ha hb ⊢
  · exact Nat.or_lt_two_pow ha hb
  · exact Nat.bitwise_lt_two_pow hb ha
  · exact Nat.bitwise_lt_two_pow ha hb
  · exact Nat.and_lt_two_pow _ hb

lemma representable_xor : Representable (a.xor b) := by
  cases a <;> cases b <;>
    simp only [Int.xor, Int.ofNat_eq_natCast, representable_natCast, representable_negSucc] at ha hb ⊢ <;>
    exact Nat.xor_lt_two_pow ha hb

lemma bitwise_and : bitwise (· &&& ·) a b = a.land b := by
  rw [bitwise, ← ofInt_land, toInt_ofInt_of_representable (representable_land ha hb)]

lemma bitwise_or : bitwise (· ||| ·) a b = a.lor b := by
  rw [bitwise, ← ofInt_lor, toInt_ofInt_of_representable (representable_lor ha hb)]

lemma bitwise_xor : bitwise (· ^^^ ·) a b = a.xor b := by
  rw [bitwise, ← ofInt_xor, toInt_ofInt_of_representable (representable_xor ha hb)]

end

/-! ### Quotients, remainders and shifts -/

section

variable {a : Int} (ha : Representable a)

include ha

lemma representable_tdiv {b} (h : ¬ (a = minInt ∧ b = -1)) : Representable (a.tdiv b) := by
  have habs : (a.tdiv b).natAbs = a.natAbs / b.natAbs := natAbs_tdiv a b
  have hcases : b = 0 ∨ b = 1 ∨ b = -1 ∨ 2 ≤ b.natAbs := by omega
  simp only [Representable, minInt, maxInt, Nat.pow_eq] at ha h ⊢
  obtain rfl | rfl | rfl | hb := hcases
  · rw [Int.tdiv_zero]
    omega
  · rw [Int.tdiv_one]
    exact ha
  · rw [Int.tdiv_neg, Int.tdiv_one]
    omega
  · have hhalf : a.natAbs / b.natAbs ≤ a.natAbs / 2 := Nat.div_le_div_left hb (by omega)
    omega

lemma representable_tmod (b) : Representable (a.tmod b) := by
  have hle : (a.tmod b).natAbs ≤ a.natAbs := by
    rw [natAbs_tmod]
    exact Nat.mod_le _ _
  simp only [Representable, minInt, maxInt, Nat.pow_eq] at ha ⊢
  obtain hneg | hpos := Int.lt_or_le a 0
  · have hsign := Int.tmod_nonneg b (Int.neg_nonneg_of_nonpos (Int.le_of_lt hneg))
    rw [Int.neg_tmod] at hsign
    omega
  · have hsign := tmod_nonneg b hpos
    omega

lemma representable_shiftRight (n) : Representable (a / 2 ^ n) := by
  have hpos : (0 : Int) < 2 ^ n := Int.pow_pos (by decide)
  simp only [Representable, minInt, maxInt, Nat.pow_eq] at ha ⊢
  obtain hneg | hnonneg := Int.lt_or_le a 0
  · have hupper := Int.ediv_neg_of_neg_of_pos hneg hpos
    have hlower : a ≤ a / 2 ^ n := by
      apply Int.le_ediv_of_mul_le hpos
      have := Int.mul_le_mul_of_nonpos_left (Int.le_of_lt hneg) (show (1 : Int) ≤ 2 ^ n from hpos)
      omega
    omega
  · have hupper := ediv_le_self (2 ^ n) hnonneg
    have hlower := Int.ediv_nonneg hnonneg (Int.le_of_lt hpos)
    omega

lemma representable_lnot : Representable a.lnot := by
  cases a <;> simpa only [lnot, ofNat_eq_natCast, representable_natCast, representable_negSucc] using ha

end

lemma bmod_spec (n) :
    Representable (n.bmod (Nat.pow 2 intBits)) ∧ (2 ^ 128 : Int) ∣ n - n.bmod (Nat.pow 2 intBits) ∧
      (Representable n → n.bmod (Nat.pow 2 intBits) = n) := by
  have hlower := le_bmod (x := n) (m := 2 ^ 128) (by decide)
  have hupper := bmod_lt (x := n) (m := 2 ^ 128) (by decide)
  refine ⟨?_, dvd_self_sub_bmod (x := n) (m := 2 ^ 128), fun h => ?_⟩
  · simp only [Representable, minInt, maxInt, Nat.pow_eq, intBits]
    omega
  · rw [Nat.pow_eq, ← BitVec.toInt_ofInt]
    exact toInt_ofInt_of_representable h

/-! ### Operations -/

lemma checkedInt_eq (n) : checkedInt n = if Representable n then .ok n else .error .overflow := rfl

lemma shiftAmount_eq (b) :
    shiftAmount b = if 0 ≤ b ∧ b < 128 then .ok b.toNat else .error .shiftAmount := rfl

lemma exactly_of_int {op a b n} (hresult : exactResult op a b = .int n)
    (hdivisor : ¬ ((op = .div ∨ op = .mod) ∧ b = 0)) (hshift : op ≠ .shl ∧ op ≠ .shr) :
    exactly op a b = (do return .int (← checkedInt n)) := by
  have hamount : ¬ ((op = .shl ∨ op = .shr) ∧ ¬ (0 ≤ b ∧ b < 128)) := fun h => h.1.elim hshift.1 hshift.2
  rw [exactly, refusal?, if_neg hdivisor, if_neg hamount, hresult, checkedInt_eq]
  by_cases hn : Representable n
  · simp only [hn, ↓reduceIte]
    rfl
  · simp only [hn, ↓reduceIte]
    rfl

/-- Operations on integer constants are exact or refused. This leaves out shifts to the left, which drop bits beyond
the 128 of a constant, and the remainder of the least constant by `-1`, which is refused. -/
theorem foldInts_exact {a b : Int} (ha : Representable a) (hb : Representable b) :
    (∀ op, op ≠ .and → op ≠ .or → op ≠ .shl → ¬ (op = .mod ∧ a = minInt ∧ b = -1) →
        foldBinary op (.int a) (.int b) = exactly op a b) ∧
      (a = minInt → b = -1 → foldBinary .mod (.int a) (.int b) = .error .overflow) ∧
      (¬ (0 ≤ b ∧ b < 128) → foldBinary .shl (.int a) (.int b) = .error .shiftAmount) ∧
      (0 ≤ b ∧ b < 128 → ∃ n, foldBinary .shl (.int a) (.int b) = .ok (.int n) ∧ Representable n ∧
        (2 ^ 128 : Int) ∣ a * 2 ^ b.toNat - n ∧ (Representable (a * 2 ^ b.toNat) → n = a * 2 ^ b.toNat)) ∧
      foldPrefix .neg (.int a) = (if Representable (-a) then .ok (.int (-a)) else .error .overflow) ∧
      foldPrefix .bitNot (.int a) = .ok (.int a.lnot) ∧ Representable a.lnot := by
  refine ⟨fun op hand hor hshl hmod => ?_, ?_, ?_, ?_, ?_, ?_, representable_lnot ha⟩
  · cases op with
    | and => exact absurd rfl hand
    | or => exact absurd rfl hor
    | shl => exact absurd rfl hshl
    | add | sub | mul => rw [exactly_of_int rfl (by simp) (by simp)]; rfl
    | bitAnd =>
      rw [exactly_of_int rfl (by simp) (by simp), checkedInt_eq, if_pos (representable_land ha hb),
        ← bitwise_and ha hb]
      rfl
    | bitOr =>
      rw [exactly_of_int rfl (by simp) (by simp), checkedInt_eq, if_pos (representable_lor ha hb), ← bitwise_or ha hb]
      rfl
    | bitXor =>
      rw [exactly_of_int rfl (by simp) (by simp), checkedInt_eq, if_pos (representable_xor ha hb),
        ← bitwise_xor ha hb]
      rfl
    | div =>
      by_cases hzero : b = 0
      · subst hzero
        rfl
      · rw [exactly_of_int rfl (by simp [hzero]) (by simp)]
        exact if_neg hzero
    | mod =>
      by_cases hzero : b = 0
      · subst hzero
        rfl
      · rw [exactly_of_int rfl (by simp [hzero]) (by simp), checkedInt_eq, if_pos (representable_tmod ha b)]
        have hquotient : Representable (a.tdiv b) := representable_tdiv ha fun h => hmod ⟨rfl, h⟩
        simp only [foldBinary, foldInts, if_neg hzero, checkedInt_eq, if_pos hquotient]
        rfl
    | shr =>
      by_cases hamount : 0 ≤ b ∧ b < 128
      · have hshift : a >>> b.toNat = a / 2 ^ b.toNat := by
          rw [Int.shiftRight_eq_div_pow]
          norm_cast
        have hrefusal : refusal? .shr a b = none := by
          simp [refusal?, exactResult, hamount, representable_shiftRight ha b.toNat]
        simp only [foldBinary, foldInts, shiftAmount_eq, if_pos hamount]
        rw [exactly, hrefusal, exactResult, ← hshift]
        rfl
      · have hrefusal : refusal? .shr a b = some .shiftAmount := by
          rw [refusal?, if_neg (by simp), if_pos ⟨.inr rfl, hamount⟩]
        simp only [foldBinary, foldInts, shiftAmount_eq, if_neg hamount]
        rw [exactly, hrefusal]
        rfl
    | eq | notEq | lt | ltEq | gt | gtEq => simp [foldBinary, foldInts, exactly, refusal?, exactResult]
  · rintro rfl rfl
    decide
  · intro hamount
    simp only [foldBinary, foldInts, shiftAmount_eq, if_neg hamount]
    rfl
  · intro hamount
    obtain ⟨hrepresentable, hdvd, hexact⟩ := bmod_spec (a * 2 ^ b.toNat)
    have hpower : ((Nat.pow 2 b.toNat : Nat) : Int) = 2 ^ b.toNat := by norm_cast
    refine ⟨_, ?_, hrepresentable, hdvd, hexact⟩
    simp only [foldBinary, foldInts, shiftAmount_eq, if_pos hamount]
    rw [← hpower]
    rfl
  · rw [foldPrefix, checkedInt_eq]
    split
    · rfl
    · rfl
  · have hlnot : a.lnot = -a - 1 := by
      cases a with
      | ofNat m => simp only [Int.lnot, Int.ofNat_eq_natCast]; omega
      | negSucc m => simp only [Int.lnot]; omega
    rw [hlnot]
    rfl

/-- The greatest constant plus one is refused, and its shift to the left loses bits. -/
theorem foldInts_exact_maxInt :
    (foldBinary .add (.int maxInt) (.int 1) = exactly .add maxInt 1 ∧ exactly .add maxInt 1 = .error .overflow) ∧
      ∃ n, foldBinary .shl (.int maxInt) (.int 1) = .ok (.int n) ∧ Representable n ∧
        (2 ^ 128 : Int) ∣ maxInt * 2 ^ (1 : Int).toNat - n ∧
        (Representable (maxInt * 2 ^ (1 : Int).toNat) → n = maxInt * 2 ^ (1 : Int).toNat) := by
  obtain ⟨hexact, -, -, hshift, -⟩ :=
    foldInts_exact (a := maxInt) (b := 1) (by decide) (by decide)
  refine ⟨⟨hexact .add (by decide) (by decide) (by decide) (by decide), by decide⟩, hshift (by decide)⟩

/-- A shift to the left that loses the only bit, and a remainder refused although it is zero. -/
theorem foldInts_inexact :
    foldBinary .shl (.int 4) (.int 126) = .ok (.int 0) ∧ exactResult .shl 4 126 = .int (2 ^ 128) ∧
      foldBinary .mod (.int minInt) (.int (-1)) = .error .overflow ∧ exactResult .mod minInt (-1) = .int 0 := by
  decide

end ConstValue

end SourceCheck
