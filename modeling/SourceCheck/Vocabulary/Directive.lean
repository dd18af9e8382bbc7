/-!
# Directives

The annotation names with a meaning. Each has a category, the places it may stand and a form of its arguments. Any
other name is a free tag.
-/

namespace SourceCheck

inductive Directive where
  | ownership
  | transferFull
  | transferNone
  | borrowed
  | constantTime
  | volatileMemory
  | humanReview
  | nonDeterministic
  | deprecated
  | doc
deriving DecidableEq, Repr

namespace Directive

inductive Category where
  | ownership
  | ffiTransfer
  | security
  | review
  | semantic
deriving DecidableEq, Repr

def Category.isExclusive : Category → Bool
  | .ownership | .ffiTransfer => true
  | _ => false

inductive Target where
  | function
  | method
  | externFunction
  | struct
  | enum
  | const
  | variable
  | field
  | param
  | externParam
  | externReturn
deriving DecidableEq, Repr

def Target.all : List Target :=
  [.function, .method, .externFunction, .struct, .enum, .const, .variable, .field, .param,
   .externParam, .externReturn]

def Target.describe : Target → String
  | .function => "function"
  | .method => "method"
  | .externFunction => "extern function"
  | .struct => "struct"
  | .enum => "enum"
  | .const => "const"
  | .variable => "variable"
  | .field => "field"
  | .param => "parameter"
  | .externParam => "extern parameter"
  | .externReturn => "extern return type"

inductive ArgumentForm where
  | flag
  | oneOf (words : List String)
  | any
deriving DecidableEq, Repr

def all : List Directive :=
  [.ownership, .transferFull, .transferNone, .borrowed, .constantTime, .volatileMemory, .humanReview,
   .nonDeterministic, .deprecated, .doc]

def spelling : Directive → String
  | .ownership => "ownership"
  | .transferFull => "transfer_full"
  | .transferNone => "transfer_none"
  | .borrowed => "borrowed"
  | .constantTime => "constant_time"
  | .volatileMemory => "volatile_memory"
  | .humanReview => "human_review"
  | .nonDeterministic => "non_deterministic"
  | .deprecated => "deprecated"
  | .doc => "doc"

def category : Directive → Category
  | .ownership => .ownership
  | .transferFull | .transferNone | .borrowed => .ffiTransfer
  | .constantTime | .volatileMemory => .security
  | .humanReview => .review
  | .nonDeterministic | .deprecated | .doc => .semantic

def targets : Directive → List Target
  | .ownership => [.struct, .enum, .variable]
  | .transferFull | .transferNone => [.param, .externParam, .externReturn]
  | .borrowed => [.externParam]
  | .constantTime => [.function, .method]
  | .volatileMemory => [.variable, .field, .param, .externParam]
  | .humanReview => [.function, .method, .externFunction, .struct, .enum, .const]
  | .nonDeterministic => [.function, .method, .externFunction]
  | .deprecated | .doc => Target.all

def ownershipModes : List String := ["gc", "c", "pinned"]

def reviewPriorities : List String := ["low", "medium", "high"]

def arguments : Directive → ArgumentForm
  | .ownership => .oneOf ownershipModes
  | .humanReview => .oneOf reviewPriorities
  | .transferFull | .transferNone | .borrowed | .constantTime | .volatileMemory
  | .nonDeterministic => .flag
  | .deprecated | .doc => .any

def allowedOn (d : Directive) (target : Target) : Bool :=
  d.targets.contains target

def ofText? (text : String) : Option Directive :=
  all.find? (·.spelling = text)

end Directive

end SourceCheck
