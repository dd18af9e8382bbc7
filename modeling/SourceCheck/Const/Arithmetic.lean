import SourceCheck.Const.Value

/-!
# Arithmetic on constants

Integers of 128 bits with a sign; a result that does not fit is refused, but a left shift drops bits. Operators apply
to two values of one sort.
-/

namespace SourceCheck

/-- The remainder toward zero, with the sign of `x`. -/
def floatRemainder (x y : Float) : Float :=
  if x.isNaN || y.isNaN || x.isInf || y == 0 then 0 / 0
  else if y.isInf then x
  else
    let a := Binary.ofFloat x
    let b := Binary.ofFloat y
    let unit := min a.exponent b.exponent
    let dividend := a.mantissa * Nat.pow 2 (a.exponent - unit).toNat
    let divisor := b.mantissa * Nat.pow 2 (b.exponent - unit).toNat
    let rest := dividend % divisor
    let size := (Float.ofNat rest).scaleB unit
    if Nat.pow 2 63 ≤ x.toBits.toNat then -size else size

inductive ArithmeticProblem where
  | overflow
  | divisionByZero
  | shiftAmount
  /-- An operator before an operand that it does not apply to. -/
  | inapplicable
  | requiresBool (op : BinaryOp)
  /-- An operator on values of a sort that it does not apply to. -/
  | notFor (op : BinaryOp) (sort : String)
  | mismatched (left right : String)
deriving DecidableEq, Repr

def ArithmeticProblem.text : ArithmeticProblem → String
  | .overflow => "integer overflow"
  | .divisionByZero => "division by zero"
  | .shiftAmount => "shift amount out of range"
  | .inapplicable => "operator does not apply to this constant"
  | .requiresBool op => s!"'{op.spelling}' requires bool operands"
  | .notFor op sort => s!"'{op.spelling}' does not apply to {sort}"
  | .mismatched left right => s!"mismatched operands {left} and {right}"

namespace ConstValue

def intBits : Nat := 128

def minInt : Int := -Nat.pow 2 127

def maxInt : Int := Nat.pow 2 127 - 1

def checkedInt (n : Int) : Except ArithmeticProblem Int :=
  if minInt ≤ n ∧ n ≤ maxInt then .ok n else .error .overflow

def bitwise (f : BitVec intBits → BitVec intBits → BitVec intBits) (a b : Int) : Int :=
  (f (BitVec.ofInt intBits a) (BitVec.ofInt intBits b)).toInt

def shiftAmount (b : Int) : Except ArithmeticProblem Nat :=
  if 0 ≤ b ∧ b < intBits then .ok b.toNat else .error .shiftAmount

def foldInts (op : BinaryOp) (a b : Int) : Except ArithmeticProblem ConstValue :=
  match op with
  | .add => return .int (← checkedInt (a + b))
  | .sub => return .int (← checkedInt (a - b))
  | .mul => return .int (← checkedInt (a * b))
  | .div =>
    if b = 0 then .error .divisionByZero else return .int (← checkedInt (a.tdiv b))
  | .mod =>
    if b = 0 then .error .divisionByZero
    else do
      let _ ← checkedInt (a.tdiv b)
      return .int (a.tmod b)
  | .bitAnd => .ok (.int (bitwise (· &&& ·) a b))
  | .bitOr => .ok (.int (bitwise (· ||| ·) a b))
  | .bitXor => .ok (.int (bitwise (· ^^^ ·) a b))
  | .shl => return .int ((a * Nat.pow 2 (← shiftAmount b)).bmod (Nat.pow 2 intBits))
  | .shr => return .int (a >>> (← shiftAmount b))
  | .eq => .ok (.bool (a = b))
  | .notEq => .ok (.bool (a ≠ b))
  | .lt => .ok (.bool (a < b))
  | .ltEq => .ok (.bool (a ≤ b))
  | .gt => .ok (.bool (a > b))
  | .gtEq => .ok (.bool (a ≥ b))
  | .and | .or => .error (.requiresBool op)

def foldFloats (op : BinaryOp) (a b : Float) : Except ArithmeticProblem ConstValue :=
  match op with
  | .add => .ok (.float (a + b))
  | .sub => .ok (.float (a - b))
  | .mul => .ok (.float (a * b))
  | .div => .ok (.float (a / b))
  | .mod => .ok (.float (floatRemainder a b))
  | .eq => .ok (.bool (a == b))
  | .notEq => .ok (.bool (a != b))
  | .lt => .ok (.bool (a < b))
  | .ltEq => .ok (.bool (a ≤ b))
  | .gt => .ok (.bool (a > b))
  | .gtEq => .ok (.bool (a ≥ b))
  | _ => .error (.notFor op "floats")

def foldBools (op : BinaryOp) (a b : Bool) : Except ArithmeticProblem ConstValue :=
  match op with
  | .and | .bitAnd => .ok (.bool (a && b))
  | .or | .bitOr => .ok (.bool (a || b))
  | .eq => .ok (.bool (a == b))
  | .notEq | .bitXor => .ok (.bool (a != b))
  | _ => .error (.notFor op "bools")

def foldStrings (op : BinaryOp) (a b : String) : Except ArithmeticProblem ConstValue :=
  match op with
  | .add => .ok (.str (a ++ b))
  | .eq => .ok (.bool (a = b))
  | .notEq => .ok (.bool (a ≠ b))
  | _ => .error (.notFor op "strings")

def foldChars (op : BinaryOp) (a b : Char) : Except ArithmeticProblem ConstValue :=
  match op with
  | .eq => .ok (.bool (a = b))
  | .notEq => .ok (.bool (a ≠ b))
  | .lt => .ok (.bool (a < b))
  | .ltEq => .ok (.bool (a ≤ b))
  | .gt => .ok (.bool (a > b))
  | .gtEq => .ok (.bool (a ≥ b))
  | _ => .error (.notFor op "chars")

def foldBinary (op : BinaryOp) (l r : ConstValue) : Except ArithmeticProblem ConstValue :=
  match l, r with
  | .int a, .int b => foldInts op a b
  | .float a, .float b => foldFloats op a b
  | .bool a, .bool b => foldBools op a b
  | .str a, .str b => foldStrings op a b
  | .char a, .char b => foldChars op a b
  | l, r => .error (.mismatched l.typeName r.typeName)

def foldPrefix (op : LogicalPrefix) (v : ConstValue) : Except ArithmeticProblem ConstValue :=
  match op, v with
  | .neg, .int n => return .int (← checkedInt (-n))
  | .neg, .float x => .ok (.float (-x))
  | .not, .bool b => .ok (.bool (!b))
  | .bitNot, .int n => .ok (.int (-n - 1))
  | _, _ => .error .inapplicable

end ConstValue

end SourceCheck
