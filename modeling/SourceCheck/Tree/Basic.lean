import SourceCheck.Source.Span
import SourceCheck.Vocabulary.Operator
import SourceCheck.Vocabulary.Primitive

/-!
# Parsed programs

The tree of a module as it is written, with the span of every part. The size of an array type is an expression, and an
expression may name types.
-/

namespace SourceCheck

inductive Visibility where
  | pub
  | priv
deriving DecidableEq, Repr, Inhabited

inductive Literal where
  | int (value : Nat)
  | float (value : Float)
  | string (value : String)
  | char (value : Char)
  | bool (value : Bool)
  | unit
deriving DecidableEq, Repr

inductive BinaryOp where
  | or
  | and
  | bitOr
  | bitXor
  | bitAnd
  | eq
  | notEq
  | lt
  | ltEq
  | gt
  | gtEq
  | shl
  | shr
  | add
  | sub
  | mul
  | div
  | mod
deriving DecidableEq, Repr

namespace BinaryOp

def operator : BinaryOp → Operator
  | .or => .orOr
  | .and => .andAnd
  | .bitOr => .pipe
  | .bitXor => .caret
  | .bitAnd => .amp
  | .eq => .eqEq
  | .notEq => .notEq
  | .lt => .lt
  | .ltEq => .ltEq
  | .gt => .gt
  | .gtEq => .gtEq
  | .shl => .shl
  | .shr => .shr
  | .add => .plus
  | .sub => .minus
  | .mul => .star
  | .div => .slash
  | .mod => .percent

def spelling (op : BinaryOp) : String :=
  op.operator.spelling

def ofOperator? : Operator → Option BinaryOp
  | .orOr => some .or
  | .andAnd => some .and
  | .pipe => some .bitOr
  | .caret => some .bitXor
  | .amp => some .bitAnd
  | .eqEq => some .eq
  | .notEq => some .notEq
  | .lt => some .lt
  | .ltEq => some .ltEq
  | .gt => some .gt
  | .gtEq => some .gtEq
  | .shl => some .shl
  | .shr => some .shr
  | .plus => some .add
  | .minus => some .sub
  | .star => some .mul
  | .slash => some .div
  | .percent => some .mod
  | .eq | .bang | .tilde => none

def isLogical : BinaryOp → Bool
  | .or | .and => true
  | _ => false

def isComparison : BinaryOp → Bool
  | .eq | .notEq | .lt | .ltEq | .gt | .gtEq => true
  | _ => false

def isBitwise : BinaryOp → Bool
  | .bitOr | .bitXor | .bitAnd | .shl | .shr => true
  | _ => false

end BinaryOp

inductive LogicalPrefix where
  | not
  | neg
  | bitNot
deriving DecidableEq, Repr

/-- The second kind of prefix. It binds tighter than the first. -/
inductive PointerPrefix where
  | deref
  | addressOf
  | addressOfMut
deriving DecidableEq, Repr

inductive Mutability where
  | mut
  | const
deriving DecidableEq, Repr

mutual

inductive TypeExpr where
  | primitive (span : Span) (p : Primitive)
  | slice (span : Span) (elem : TypeExpr)
  | array (span : Span) (elem : TypeExpr) (size : Expr)
  | pointer (span : Span) (mutability : Mutability) (target : TypeExpr)
  | result (span : Span) (ok err : TypeExpr)
  | option (span : Span) (inner : TypeExpr)
  | taskHandle (span : Span) (inner : TypeExpr)
  | tuple (span : Span) (elems : List TypeExpr)
  | named (span : Span) (name : String) (args : List TypeExpr)

inductive Expr where
  | literal (span : Span) (value : Literal)
  | ident (span : Span) (name : String)
  | selfRef (span : Span)
  | binary (span : Span) (lhs : Expr) (op : BinaryOp) (rhs : Expr)
  | unary (span : Span) (logical : Option LogicalPrefix) (pointer : Option PointerPrefix)
      (operand : Expr)
  | call (span : Span) (callee : Expr) (args : List Expr)
  /-- A function of a type, as in `Name<T>::function(args)`. -/
  | assocCall (span : Span) (typeName : Name) (typeArgs : List TypeExpr) (function : Name)
      (args : List Expr)
  /-- A variant, a field, or a member of a module. -/
  | dotted (span : Span) (head member : Name)
  /-- A variant, a method, or a function of a module, with arguments. -/
  | dottedCall (span : Span) (head member : Name) (args : List Expr)
  | field (span : Span) (base : Expr) (name : Name)
  | tupleIndex (span : Span) (base : Expr) (index : Nat)
  | index (span : Span) (base index : Expr)
  | slice (span : Span) (base : Expr) (start stop : Option Expr)
  | structLit (span : Span) (name : Name) (typeArgs : List TypeExpr) (fields : List FieldInit)
  | tuple (span : Span) (elems : List Expr)
  | array (span : Span) (elems : List Expr)
  | arrayRepeat (span : Span) (value count : Expr)
  | paren (span : Span) (inner : Expr)
  | sizeof (span : Span) (type : TypeExpr)
  | await (span : Span) (handle : Expr)

inductive FieldInit where
  | mk (name : Name) (value : Expr)

end

instance : Inhabited Expr := ⟨.selfRef default⟩

instance : Inhabited TypeExpr := ⟨.primitive default default⟩

def TypeExpr.span : TypeExpr → Span
  | .primitive s _ | .slice s _ | .array s _ _ | .pointer s _ _ | .result s _ _ | .option s _
  | .taskHandle s _ | .tuple s _ | .named s _ _ => s

def Expr.span : Expr → Span
  | .literal s _ | .ident s _ | .selfRef s | .binary s _ _ _ | .unary s _ _ _ | .call s _ _
  | .assocCall s _ _ _ _ | .dotted s _ _ | .dottedCall s _ _ _ | .field s _ _ | .tupleIndex s _ _
  | .index s _ _ | .slice s _ _ _ | .structLit s _ _ _ | .tuple s _ | .array s _
  | .arrayRepeat s _ _ | .paren s _ | .sizeof s _ | .await s _ => s

inductive Pattern where
  | wildcard (span : Span)
  | binding (span : Span) (name : String) (mutable : Bool)
  | literal (span : Span) (value : Literal)
  | variant (span : Span) (enumName variant : String) (args : List Pattern)
  | tuple (span : Span) (elems : List Pattern)

instance : Inhabited Pattern := ⟨.wildcard default⟩

def Pattern.span : Pattern → Span
  | .wildcard s | .binding s _ _ | .literal s _ | .variant s _ _ _ | .tuple s _ => s

inductive AnnotationValue where
  | str (value : String)
  | ident (name : String)
  | int (value : Nat)
  | bool (value : Bool)
deriving DecidableEq, Repr

inductive AnnotationArgs where
  | empty
  | values (values : List AnnotationValue)
  | named (pairs : List (String × AnnotationValue))
deriving DecidableEq, Repr

/-- An annotation on a declaration, parameter, field or binding. -/
structure Annotation where
  name : String
  args : AnnotationArgs
  span : Span
deriving DecidableEq, Repr

mutual

inductive Stmt where
  | letBinding (span : Span) (annotations : List Annotation) (mutable : Bool) (name : Name)
      (type : TypeExpr) (value : Expr)
  | assign (span : Span) (target value : Expr)
  | returnValue (span : Span) (value : Expr)
  | ifThen (span : Span) (condition : Expr) (body : List Stmt) (otherwise : ElseBranch)
  | ifLet (span : Span) (pattern : Pattern) (value : Expr) (body : List Stmt)
      (otherwise : ElseBranch)
  | forIn (span : Span) (binding : Name) (iterable : Expr) (body : List Stmt)
  | matchOn (span : Span) (scrutinee : Expr) (arms : List MatchArm)
  | spawn (span : Span) (call : Expr)
  | spawnWithHandle (span : Span) (handle : Name) (call : Expr)
  | unsafeBlock (span : Span) (body : List Stmt)
  | block (span : Span) (body : List Stmt)
  | breakLoop (span : Span)
  | continueLoop (span : Span)
  | expr (span : Span) (value : Expr)

inductive ElseBranch where
  | absent
  | block (body : List Stmt)
  | elseIf (stmt : Stmt)

inductive MatchArm where
  | mk (span : Span) (pattern : Pattern) (body : ArmBody)

inductive ArmBody where
  | block (body : List Stmt)
  | expr (value : Expr)

end

instance : Inhabited Stmt := ⟨.breakLoop default⟩

def Stmt.span : Stmt → Span
  | .letBinding s _ _ _ _ _ | .assign s _ _ | .returnValue s _ | .ifThen s _ _ _ | .ifLet s _ _ _ _
  | .forIn s _ _ _ | .matchOn s _ _ | .spawn s _ | .spawnWithHandle s _ _ | .unsafeBlock s _
  | .block s _ | .breakLoop s | .continueLoop s | .expr s _ => s

namespace MatchArm

def span : MatchArm → Span
  | .mk s _ _ => s

def pattern : MatchArm → Pattern
  | .mk _ p _ => p

def body : MatchArm → ArmBody
  | .mk _ _ b => b

end MatchArm

structure Param where
  span : Span
  annotations : List Annotation
  name : String
  type : TypeExpr

structure FunctionDecl where
  annotations : List Annotation
  visibility : Visibility
  name : Name
  typeParams : List Name
  /-- Where `self` is written, if the function is a method. -/
  receiver : Option Span
  params : List Param
  returnType : TypeExpr
  body : List Stmt

/-- Fields are public unless they say otherwise. -/
structure FieldDecl where
  span : Span
  annotations : List Annotation
  visibility : Option Visibility
  name : String
  type : TypeExpr

structure StructDecl where
  annotations : List Annotation
  visibility : Visibility
  name : Name
  typeParams : List Name
  fields : List FieldDecl

structure VariantDecl where
  span : Span
  name : String
  payload : List TypeExpr
  value : Option Expr

structure EnumDecl where
  annotations : List Annotation
  visibility : Visibility
  name : Name
  typeParams : List Name
  variants : List VariantDecl

structure ExternDecl where
  annotations : List Annotation
  visibility : Visibility
  library : Option String
  name : Name
  params : List Param
  returnAnnotations : List Annotation
  returnType : TypeExpr

structure ConstDecl where
  annotations : List Annotation
  visibility : Visibility
  name : Name
  type : TypeExpr
  value : Expr

structure ImplBlock where
  annotations : List Annotation
  target : Name
  methods : List (Spanned FunctionDecl)

inductive Declaration where
  | function (decl : FunctionDecl)
  | struct (decl : StructDecl)
  | enum (decl : EnumDecl)
  | externFunction (decl : ExternDecl)
  | const (decl : ConstDecl)
  | impl (decl : ImplBlock)

namespace Declaration

/-- The name a declaration introduces, or the type an `impl` block belongs to. -/
def name : Declaration → Name
  | .function d => d.name
  | .struct d => d.name
  | .enum d => d.name
  | .externFunction d => d.name
  | .const d => d.name
  | .impl d => d.target

def annotations : Declaration → List Annotation
  | .function d => d.annotations
  | .struct d => d.annotations
  | .enum d => d.annotations
  | .externFunction d => d.annotations
  | .const d => d.annotations
  | .impl d => d.annotations

def sort : Declaration → String
  | .function _ => "function"
  | .struct _ => "struct"
  | .enum _ => "enum"
  | .externFunction _ => "extern"
  | .const _ => "const"
  | .impl _ => "impl"

end Declaration

structure ImportDecl where
  path : String
  localName : Option Name
deriving DecidableEq, Repr

structure Program where
  package : Name
  imports : List (Spanned ImportDecl)
  declarations : List (Spanned Declaration)

end SourceCheck
