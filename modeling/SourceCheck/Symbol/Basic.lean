import SourceCheck.Const.Value

/-!
# Symbols

Variables, functions, types, constants, type parameters and imports.
-/

namespace SourceCheck

inductive BindingOrigin where
  | letBinding
  | param
  | selfParam
  | pattern
  | forLoop
  | taskHandle
deriving DecidableEq, Repr

structure Signature where
  typeParams : List String
  params : List (String × Ty)
  returnType : Ty
deriving DecidableEq

def Signature.arity (s : Signature) : Nat :=
  s.params.length

/-- A function. Its signatures differ in the number of arguments. -/
structure FunctionInfo where
  signatures : List Signature
  isExtern : Bool := false
  isPredeclared : Bool := false
deriving DecidableEq

namespace FunctionInfo

def overload? (f : FunctionInfo) (args : Nat) : Option (Nat × Signature) :=
  (f.signatures.zipIdx.find? fun s => s.1.arity = args).map fun s => (s.2, s.1)

def arities (f : FunctionInfo) : String :=
  " or ".intercalate (f.signatures.map fun s => toString s.arity)

end FunctionInfo

structure FieldInfo where
  name : String
  type : Ty
  visibility : Visibility
  span : Span
deriving DecidableEq

structure MethodInfo where
  signature : Signature
  hasSelf : Bool
  visibility : Visibility
  span : Span
deriving DecidableEq

structure VariantInfo where
  name : String
  payload : List Ty
  discriminant : Option Int
deriving DecidableEq

structure NominalInfo where
  nominal : Nominal
  typeParams : List String
  /-- The methods by name, in the order of their declarations. -/
  methods : List (String × MethodInfo) := []
  /-- How values are kept in memory, if the declaration says it. -/
  ownership : Option String
deriving DecidableEq

inductive SymbolKind where
  | variable (type : Ty) (mutable : Bool) (origin : BindingOrigin)
  | function (info : FunctionInfo)
  | struct (info : NominalInfo) (fields : List FieldInfo)
  | enum (info : NominalInfo) (variants : List VariantInfo)
  /-- A constant. The value is absent until it is folded, and when folding fails. -/
  | const (type : Ty) (value : Option ConstValue)
  | typeParam
  /-- An import, and the module it names unless that is external. -/
  | module (path : String) (target : Option String)
deriving DecidableEq

inductive SymbolSort where
  | variable
  | function
  | struct
  | enum
  | const
  | typeParam
  | module
deriving DecidableEq, Repr

def SymbolSort.describe : SymbolSort → String
  | .variable => "variable"
  | .function => "function"
  | .struct => "struct"
  | .enum => "enum"
  | .const => "constant"
  | .typeParam => "type parameter"
  | .module => "module"

def SymbolKind.sort : SymbolKind → SymbolSort
  | .variable .. => .variable
  | .function .. => .function
  | .struct .. => .struct
  | .enum .. => .enum
  | .const .. => .const
  | .typeParam => .typeParam
  | .module .. => .module

def SymbolKind.describe (k : SymbolKind) : String :=
  k.sort.describe

structure Symbol where
  name : String
  kind : SymbolKind
  span : Span
  scope : Nat := 0
  visibility : Option Visibility := none
deriving DecidableEq

end SourceCheck
