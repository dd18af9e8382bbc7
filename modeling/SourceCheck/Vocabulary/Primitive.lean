/-!
# Primitive types

`int` and `float` are the types of literals that nothing pins down; they are as wide as `i64` and `f64`.
-/

namespace SourceCheck

inductive Primitive where
  | int
  | float
  | bool
  | string
  | void
  | usize
  | isize
  | u8
  | i8
  | u16
  | i16
  | u32
  | i32
  | u64
  | i64
  | u128
  | i128
  | f32
  | f64
  | char
  | never
deriving DecidableEq, Repr, Inhabited

namespace Primitive

inductive NumericClass where
  | signedInt
  | unsignedInt
  | float
deriving DecidableEq, Repr

def all : List Primitive :=
  [.int, .float, .bool, .string, .void, .usize, .isize, .u8, .i8, .u16, .i16, .u32, .i32, .u64, .i64,
   .u128, .i128, .f32, .f64, .char, .never]

def spelling : Primitive → String
  | .int => "int"
  | .float => "float"
  | .bool => "bool"
  | .string => "string"
  | .void => "void"
  | .usize => "usize"
  | .isize => "isize"
  | .u8 => "u8"
  | .i8 => "i8"
  | .u16 => "u16"
  | .i16 => "i16"
  | .u32 => "u32"
  | .i32 => "i32"
  | .u64 => "u64"
  | .i64 => "i64"
  | .u128 => "u128"
  | .i128 => "i128"
  | .f32 => "f32"
  | .f64 => "f64"
  | .char => "char"
  | .never => "Never"

def tag : Primitive → String
  | .int => "Int"
  | .float => "Float"
  | .bool => "Bool"
  | .string => "String"
  | .void => "Void"
  | .usize => "Usize"
  | .isize => "Isize"
  | .u8 => "U8"
  | .i8 => "I8"
  | .u16 => "U16"
  | .i16 => "I16"
  | .u32 => "U32"
  | .i32 => "I32"
  | .u64 => "U64"
  | .i64 => "I64"
  | .u128 => "U128"
  | .i128 => "I128"
  | .f32 => "F32"
  | .f64 => "F64"
  | .char => "Char"
  | .never => "Never"

def numericClass : Primitive → Option NumericClass
  | .int | .isize | .i8 | .i16 | .i32 | .i64 | .i128 => some .signedInt
  | .usize | .u8 | .u16 | .u32 | .u64 | .u128 => some .unsignedInt
  | .float | .f32 | .f64 => some .float
  | .bool | .string | .void | .char | .never => none

def sizeBytes : Primitive → Option Nat
  | .void => some 0
  | .bool | .u8 | .i8 => some 1
  | .u16 | .i16 => some 2
  | .u32 | .i32 | .f32 | .char => some 4
  | .int | .float | .usize | .isize | .u64 | .i64 | .f64 => some 8
  | .string | .u128 | .i128 => some 16
  | .never => none

def isInteger (p : Primitive) : Bool :=
  p.numericClass = some .signedInt || p.numericClass = some .unsignedInt

def isFloat (p : Primitive) : Bool :=
  p.numericClass = some .float

def ofText? (text : String) : Option Primitive :=
  all.find? (·.spelling = text)

end Primitive

end SourceCheck
