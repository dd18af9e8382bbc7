import SourceCheck.Tree.Basic

/-!
# Resolved types

Structs and enums are told apart by the module that declares them and by name.
-/

namespace SourceCheck

structure Nominal where
  module : String
  name : String
deriving DecidableEq, Repr, Inhabited

inductive Ty where
  | primitive (p : Primitive)
  | slice (elem : Ty)
  /-- The size is absent when it could not be folded. -/
  | array (elem : Ty) (size : Option Nat)
  | pointer (mutability : Mutability) (target : Ty)
  | result (ok err : Ty)
  | option (inner : Ty)
  | taskHandle (inner : Ty)
  | tuple (elems : List Ty)
  | struct (nominal : Nominal) (args : List Ty)
  | enum (nominal : Nominal) (args : List Ty)
  | param (name : String)
  | infinite
  /-- What could not be resolved, and members of packages that are not read. -/
  | unknown
deriving Inhabited

namespace Ty

/-! ### Equality -/

mutual

def beq : Ty → Ty → Bool
  | .primitive p, .primitive q => p = q
  | .slice a, .slice b => beq a b
  | .array a n, .array b m => beq a b && n = m
  | .pointer m a, .pointer k b => m = k && beq a b
  | .result a b, .result c d => beq a c && beq b d
  | .option a, .option b => beq a b
  | .taskHandle a, .taskHandle b => beq a b
  | .tuple as, .tuple bs => listBeq as bs
  | .struct n as, .struct m bs => n = m && listBeq as bs
  | .enum n as, .enum m bs => n = m && listBeq as bs
  | .param x, .param y => x = y
  | .infinite, .infinite => true
  | .unknown, .unknown => true
  | _, _ => false

def listBeq : List Ty → List Ty → Bool
  | [], [] => true
  | a :: as, b :: bs => beq a b && listBeq as bs
  | _, _ => false

end

mutual

theorem beq_iff : ∀ a b : Ty, beq a b = true ↔ a = b
  | .primitive _, b => by cases b <;> simp [beq]
  | .slice a, b => by cases b <;> simp [beq, beq_iff a]
  | .array a _, b => by cases b <;> simp [beq, beq_iff a]
  | .pointer _ a, b => by cases b <;> simp [beq, beq_iff a]
  | .result a₁ a₂, b => by cases b <;> simp [beq, beq_iff a₁, beq_iff a₂]
  | .option a, b => by cases b <;> simp [beq, beq_iff a]
  | .taskHandle a, b => by cases b <;> simp [beq, beq_iff a]
  | .tuple as, b => by cases b <;> simp [beq, listBeq_iff as]
  | .struct _ as, b => by cases b <;> simp [beq, listBeq_iff as]
  | .enum _ as, b => by cases b <;> simp [beq, listBeq_iff as]
  | .param _, b => by cases b <;> simp [beq]
  | .infinite, b => by cases b <;> simp [beq]
  | .unknown, b => by cases b <;> simp [beq]

theorem listBeq_iff : ∀ as bs : List Ty, listBeq as bs = true ↔ as = bs
  | [], bs => by cases bs <;> simp [listBeq]
  | a :: as, bs => by cases bs <;> simp [listBeq, beq_iff a, listBeq_iff as]

end

instance : DecidableEq Ty :=
  fun a b => decidable_of_iff _ (beq_iff a b)

/-! ### Kinds of types -/

def void : Ty := .primitive .void

def never : Ty := .primitive .never

def bool : Ty := .primitive .bool

def usize : Ty := .primitive .usize

def string : Ty := .primitive .string

def primitive? : Ty → Option Primitive
  | .primitive p => some p
  | _ => none

def isUnknown : Ty → Bool
  | .unknown => true
  | _ => false

def isNever : Ty → Bool
  | .primitive .never => true
  | _ => false

def isVoid : Ty → Bool
  | .primitive .void => true
  | _ => false

def isBool : Ty → Bool
  | .primitive .bool => true
  | _ => false

def isInteger : Ty → Bool
  | .primitive p => p.isInteger
  | _ => false

def isFloat : Ty → Bool
  | .primitive p => p.isFloat
  | _ => false

def isNumeric (t : Ty) : Bool :=
  t.isInteger || t.isFloat

def element? : Ty → Option Ty
  | .slice t | .array t _ => some t
  | _ => none

mutual

def hasParams : Ty → Bool
  | .param _ => true
  | .slice t | .array t _ | .pointer _ t | .option t | .taskHandle t => t.hasParams
  | .result a b => a.hasParams || b.hasParams
  | .tuple ts | .struct _ ts | .enum _ ts => anyHasParams ts
  | .primitive _ | .infinite | .unknown => false

def anyHasParams : List Ty → Bool
  | [] => false
  | t :: ts => t.hasParams || anyHasParams ts

end

/-! ### Text -/

mutual

def text : Ty → String
  | .primitive p => p.spelling
  | .slice t => "[]" ++ t.text
  | .array t (some n) => "[" ++ toString n ++ "]" ++ t.text
  | .array t none => "[_]" ++ t.text
  | .pointer .mut t => "*mut " ++ t.text
  | .pointer .const t => "*const " ++ t.text
  | .result a b => "Result<" ++ a.text ++ ", " ++ b.text ++ ">"
  | .option t => "Option<" ++ t.text ++ ">"
  | .taskHandle t => "TaskHandle<" ++ t.text ++ ">"
  | .tuple ts => "(" ++ listText ts ++ ")"
  | .struct n [] | .enum n [] => n.name
  | .struct n (t :: ts) | .enum n (t :: ts) => n.name ++ "<" ++ listText (t :: ts) ++ ">"
  | .param x => x
  | .infinite => "InfiniteIterator"
  | .unknown => "\x7bunknown\x7d"

def listText : List Ty → String
  | [] => ""
  | [t] => t.text
  | t :: ts => t.text ++ ", " ++ listText ts

end

end Ty

end SourceCheck
