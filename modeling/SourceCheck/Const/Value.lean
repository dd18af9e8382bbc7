import SourceCheck.Decimal.FloatText
import SourceCheck.Text.Quoted
import SourceCheck.Ty.Basic

/-!
# Constant values

The values that constants fold to, and their text.
-/

namespace SourceCheck

inductive ConstValue where
  | int (n : Int)
  | float (x : Float)
  | bool (b : Bool)
  | str (s : String)
  | char (c : Char)
deriving DecidableEq, Repr

namespace ConstValue

def typeName : ConstValue → String
  | .int _ => "int"
  | .float _ => "float"
  | .bool _ => "bool"
  | .str _ => "string"
  | .char _ => "char"

def text : ConstValue → String
  | .int n => toString n
  | .float x => FloatFormat.value.write x
  | .bool b => toString b
  | .str s => quoteString s
  | .char c => quoteChar c

end ConstValue

/-! ### Which values the types of constants hold -/

namespace Primitive

def bits (p : Primitive) : Option Nat :=
  p.sizeBytes.map (· * 8)

/-- Whether an integer type holds `n`. -/
def holds (p : Primitive) (n : Int) : Bool :=
  match p.bits, p.numericClass with
  | some bits, some .unsignedInt => 0 ≤ n && n < Nat.pow 2 bits
  | some bits, some .signedInt => -Nat.pow 2 (bits - 1) ≤ n && n < Nat.pow 2 (bits - 1)
  | _, _ => false

end Primitive

inductive Misfit where
  | wrongKind
  | outOfRange
deriving DecidableEq, Repr

namespace ConstValue

def misfit? (v : ConstValue) (t : Ty) : Option Misfit :=
  match t, v with
  | .unknown, _ => none
  | .primitive p, .int n =>
    if p.isInteger then if p.holds n then none else some .outOfRange else some .wrongKind
  | .primitive p, .float _ => if p.isFloat then none else some .wrongKind
  | .primitive .bool, .bool _ | .primitive .string, .str _ | .primitive .char, .char _ => none
  | _, _ => some .wrongKind

end ConstValue

end SourceCheck
