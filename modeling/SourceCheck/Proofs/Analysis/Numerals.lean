import Mathlib
import SourceCheck.Analysis.Operand
import SourceCheck.Proofs.Const.Exact

/-!
# Numerals

A numeral is refused where the expected integer type does not hold its value. There are two exceptions: `int` takes
every numeral, and the least value of `i128` is refused.
-/

namespace SourceCheck

/-- The values of an integer type. `int` has those of `i64`. -/
def Primitive.range : Primitive → Set Int
  | .i8 => Set.Ico (-2 ^ 7) (2 ^ 7)
  | .i16 => Set.Ico (-2 ^ 15) (2 ^ 15)
  | .i32 => Set.Ico (-2 ^ 31) (2 ^ 31)
  | .i64 | .isize | .int => Set.Ico (-2 ^ 63) (2 ^ 63)
  | .i128 => Set.Ico (-2 ^ 127) (2 ^ 127)
  | .u8 => Set.Ico 0 (2 ^ 8)
  | .u16 => Set.Ico 0 (2 ^ 16)
  | .u32 => Set.Ico 0 (2 ^ 32)
  | .u64 | .usize => Set.Ico 0 (2 ^ 64)
  | .u128 => Set.Ico 0 (2 ^ 128)
  | .float | .f32 | .f64 | .bool | .string | .void | .char | .never => ∅

variable {p : Primitive} {n : Nat} {v : Int}

lemma Primitive.holds_iff : p.holds v = true ↔ v ∈ p.range := by
  cases p <;> simp [holds, bits, sizeBytes, numericClass, range]

/-- The minus sign is read after the numeral, so the numeral of the least value is too large. -/
lemma Primitive.takesNumeral_iff (hp : p.isInteger = true) (hn : n < 2 ^ 128) (negative) :
    p.takesNumeral n negative = true ↔
      (if negative then -n else n : Int) ∈ p.range ∧ (if negative then -n else n : Int) ≠ ConstValue.minInt := by
  have hmin : ConstValue.minInt = -2 ^ 127 := by decide
  have hmax : ConstValue.maxInt = 2 ^ 127 - 1 := by decide
  rw [takesNumeral, hmin, hmax]
  split
  · rename_i hle
    rw [holds_iff]
    refine ⟨fun h => ⟨h, ?_⟩, And.left⟩
    split <;> omega
  · -- From here on the value is above every signed type, and only `u128` takes it.
    rename_i hlt
    cases p <;> cases negative <;> simp [range] <;> (try cases hp) <;> omega

lemma misfit?_int (hp : p.isInteger = true) (v) :
    (ConstValue.int v).misfit? (.primitive p) = none ↔ v ∈ p.range := by
  rw [← Primitive.holds_iff]
  simp [ConstValue.misfit?, hp]

lemma checkNumeral_eq (hp : p.isInteger = true) (n negative span σ f) :
    checkNumeral n negative (some (.primitive p)) span σ f =
      (.primitive p, if p = .int ∨ p.takesNumeral n negative = true then f
        else { f with problems := ⟨.literalOutOfRange (if negative then -n else n) p, span⟩ :: f.problems }) := by
  unfold checkNumeral
  simp only [Option.bind_some, Ty.primitive?, hp]
  by_cases hint : p = .int
  · simp only [hint]
    rfl
  · cases p.takesNumeral n negative
    all_goals
      simp [hint]
      rfl

/-- Where an integer type is expected, a numeral takes it, and is refused exactly if the type does not hold the value
or it is the least of all; `int` takes every numeral. Constants are refused for the range alone. -/
theorem checkNumeral_problems (hp : p.isInteger = true) (hn : n < 2 ^ 128) (negative : Bool) (span : Span)
    (σ : Setting)
    (f : Findings) :
    let v : Int := if negative then -n else n
    let result := checkNumeral n negative (some (.primitive p)) span σ f
    result.1 = .primitive p ∧
      (result.2 = f ∨ result.2 = { f with problems := ⟨.literalOutOfRange v p, span⟩ :: f.problems }) ∧
      (result.2.problems = f.problems ↔ p = .int ∨ v ∈ p.range ∧ v ≠ ConstValue.minInt) ∧
      ((ConstValue.int v).misfit? (.primitive p) = none ↔ v ∈ p.range) := by
  intro v result
  have hresult : result = _ := checkNumeral_eq hp n negative span σ f
  rw [hresult, ← Primitive.takesNumeral_iff hp hn]
  refine ⟨rfl, ?_, ?_, misfit?_int hp v⟩
  · split
    · exact .inl rfl
    · exact .inr rfl
  · split
    · rename_i h
      exact iff_of_true rfl h
    · rename_i h
      exact iff_of_false (List.cons_ne_self _ _) h

theorem checkNumeral_problems_byte :
    (checkNumeral 256 false (some (.primitive .u8)) default ⟨"", 0, [], false, [], none⟩ {}).2.problems ≠ [] := by
  intro hnone
  obtain hint | ⟨hrange, -⟩ := (checkNumeral_problems (p := .u8) (n := 256) rfl (by decide) false default
    ⟨"", 0, [], false, [], none⟩ {}).2.2.1.mp hnone
  · cases hint
  · simp [Primitive.range] at hrange

/-- The least value of `i128` is refused, and `int` takes a value above its range. -/
theorem checkNumeral_inexact :
    let problems p n negative :=
      (checkNumeral n negative (some (.primitive p)) default ⟨"", 0, [], false, [], none⟩ {}).2.problems
    (-2 ^ 127 ∈ Primitive.range .i128 ∧ problems .i128 (2 ^ 127) true ≠ []) ∧
      2 ^ 63 ∉ Primitive.range .int ∧ problems .int (2 ^ 63) false = [] := by
  refine ⟨⟨?_, List.cons_ne_nil _ _⟩, ?_, rfl⟩
  · simp [Primitive.range]
  · simp [Primitive.range]

end SourceCheck
