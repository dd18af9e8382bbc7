import SourceCheck.Const.Arithmetic
import SourceCheck.Diagnostic.Basic
import SourceCheck.Symbol.Basic
import SourceCheck.Vocabulary.Directive

/-!
# Semantic problems

What can be wrong with a module that is well formed as a text, and how it is told.
-/

namespace SourceCheck

inductive FoldFailure where
  | literalTooLarge
  | unitLiteral
  | pointerOperation
  | arithmetic (problem : ArithmeticProblem)
  | noSize (type : Ty)
  | form (what : String)
  /-- A dotted pair whose head is no import. -/
  | notConstant (head member : String)
  | discriminant (enum variant : String) (found : ConstValue)
  | sizeOutOfRange (n : Int)
  | sizeSort (found : ConstValue)
deriving DecidableEq

def FoldFailure.text : FoldFailure → String
  | .literalTooLarge => "integer literal is too large"
  | .unitLiteral => "'()' has no constant value"
  | .pointerOperation => "pointer operations are not constant"
  | .arithmetic problem => problem.text
  | .noSize t => s!"'{t.text}' has no known size"
  | .form what => s!"{what} is not allowed in a const expression"
  | .notConstant head member => s!"'{head}.{member}' is not a constant"
  | .discriminant enum variant found =>
    s!"discriminant of '{enum}.{variant}' must be an integer, found {found.typeName}"
  | .sizeOutOfRange n => s!"array size {n} is negative"
  | .sizeSort found => s!"array size must be an integer, found {found.typeName}"

inductive Wanted where
  | type (t : Ty)
  | integer
deriving DecidableEq

def Wanted.text : Wanted → String
  | .type t => t.text
  | .integer => "an integer"

inductive Found where
  | type (t : Ty)
  | tuple
  | variantOf (enum : String)
  | value (v : ConstValue)
deriving DecidableEq

def Found.text : Found → String
  | .type t => t.text
  | .tuple => "a tuple"
  | .variantOf enum => enum
  | .value v => v.typeName

/-- The place of a mismatch, as far as a reader is told about it. -/
inductive MismatchSite where
  | plain
  | result (function : String)
  | condition
  | argument (param callee : String)
  | range (value : ConstValue)
deriving DecidableEq

def MismatchSite.notes (wanted : Wanted) : MismatchSite → List String
  | .plain => []
  | .result function => [s!"'{function}' is declared to return '{wanted.text}'"]
  | .condition => ["Conditions are never converted to bool implicitly"]
  | .argument param callee => [s!"for parameter '{param}' of '{callee}'"]
  | .range value => [s!"{value.text} does not fit in '{wanted.text}'"]

inductive UnsafeOperation where
  | dereference
  | externCall (name : String)
deriving DecidableEq

def UnsafeOperation.text : UnsafeOperation → String
  | .dereference => "Pointer dereference"
  | .externCall name => s!"Call to extern function '{name}'"

/-- What code that runs in constant time may not contain. -/
inductive VariableTime where
  | ifThen
  | ifLet
  | matchOn
  | forIn
  | division
  | modulo
  | index
deriving DecidableEq, Repr

def VariableTime.text : VariableTime → String
  | .ifThen => "An 'if' statement"
  | .ifLet => "An 'if let' statement"
  | .matchOn => "A 'match' statement"
  | .forIn => "A 'for' loop"
  | .division => "Division by a non-constant value"
  | .modulo => "Modulo by a non-constant value"
  | .index => "Indexing with a non-constant index"

inductive SemanticProblem where
  -- names
  | duplicate (name : String) (previous : Span)
  | repeatedField (name : String)
  | unknownSymbol (name : String)
  | unknownMember (head member module : String)
  | unknownType (name : String)
  | unknownImplTarget (name : String)
  | notType (name : String) (sort : SymbolSort)
  | unknownField (owner field : String) (isMethod : Bool)
  | unknownVariant (enum variant : String) (isFunction : Bool)
  | unknownMethod (method owner : String)
  | noMethods (type : Ty) (method : String)
  | privateAccess (name module : String)
  -- places
  | assignImmutable (name : String)
  | assignParam (name : String)
  | assignSelf
  | assignThroughConst
  | assignConstant (name : String)
  | invalidTarget
  | borrowSelf
  | borrowImmutable (name : String)
  -- types
  | mismatch (wanted : Wanted) (found : Found) (site : MismatchSite)
  | infiniteSize (noun name : String)
  | requiresUnsafe (operation : UnsafeOperation)
  | awaitNonHandle (type : Ty)
  | spawnWithoutCall
  | notValue (name : String) (sort : SymbolSort)
  | memberUnusable (name : String) (noun : String)
  | selfOutsideMethod
  | tupleIndexOutOfRange (size index : Nat)
  | notTuple (type : Ty)
  | indexOutOfBounds (index size : Nat)
  | notIndexable (type : Ty)
  | notSliceable (type : Ty)
  | notDereferenceable (type : Ty)
  | notNegatable (type : Ty)
  | notComparable (left right : Ty)
  | notOrdered (op : BinaryOp) (type : Ty)
  | notOperands (op : BinaryOp) (left right : Ty)
  | literalOutOfRange (value : Int) (type : Primitive)
  | notCallableType (type : Ty)
  | notCallable (name : String) (sort : SymbolSort)
  | notMethod (method owner : String)
  | needsReceiver (type function : String)
  | noAssociatedFunctions (name : String) (sort : SymbolSort)
  | noMembers (name member : String) (sort : SymbolSort)
  | fieldThroughPointer (field : String) (type : Ty)
  | notStruct (name : String) (sort : SymbolSort)
  | notEnum (name : String) (sort : SymbolSort)
  | missingFields (name : String) (fields : List String)
  | notIterable (type : Ty)
  | breakOutsideLoop
  | continueOutsideLoop
  | badEntryPoint (params : Nat) (returnType : Ty)
  | strayReceiver
  | missingReturn (function : String) (returnType : Ty)
  -- numbers of parts
  | genericArity (name : String) (wanted found : Nat)
  | tupleArity (wanted found : Nat)
  | argumentCount (name wanted : String) (found : Nat)
  -- matches
  | nonExhaustive (missing : List String)
  | unreachablePattern
  -- annotations
  | conflictingTransfers (first second : String)
  | conflictingOwnership (first second : String)
  | borrowedReturn
  | misplacedDirective (name : String) (target : Directive.Target)
  | directiveArgument (name : String) (words : List String)
  | directiveTakesNothing (name : String)
  | borrowedNonPointer (type : Ty)
  | variableTime (construct : VariableTime)
  | nothingAllocated (name : String)
  -- constants
  | constCycle (path : List String)
  | nonConstReference (name : String)
  | constTooDeep (limit : Nat)
  | notFoldable (failure : FoldFailure)
deriving DecidableEq

namespace SemanticProblem

def kind : SemanticProblem → ProblemKind
  | .duplicate .. | .repeatedField .. => .duplicateDeclaration
  | .unknownSymbol .. | .unknownMember .. | .unknownType .. | .unknownImplTarget .. | .notType ..
  | .unknownField .. | .unknownVariant .. | .unknownMethod .. | .noMethods .. => .unresolved
  | .privateAccess .. => .visibility
  | .assignImmutable .. | .assignParam .. | .assignSelf | .assignThroughConst | .assignConstant ..
  | .invalidTarget | .borrowSelf | .borrowImmutable .. => .mutability
  | .spawnWithoutCall => .grammar
  | .tupleIndexOutOfRange .. | .genericArity .. | .tupleArity .. | .argumentCount .. => .arity
  | .nonExhaustive .. | .unreachablePattern => .exhaustiveness
  | .conflictingTransfers .. | .conflictingOwnership .. | .borrowedReturn | .misplacedDirective ..
  | .directiveArgument .. | .directiveTakesNothing .. | .borrowedNonPointer .. | .variableTime ..
  | .nothingAllocated .. => .annotationConflict
  | .constCycle .. | .nonConstReference .. | .constTooDeep .. | .notFoldable .. => .constEval
  | _ => .typeMismatch

def message : SemanticProblem → String
  | .duplicate name _ => s!"'{name}' is already declared in this scope"
  | .repeatedField name => s!"Field '{name}' is initialised more than once"
  | .unknownSymbol name => s!"Unknown symbol '{name}'"
  | .unknownMember head member _ => s!"Unknown symbol '{head}.{member}'"
  | .unknownType name | .unknownImplTarget name => s!"Unknown type '{name}'"
  | .notType name sort => s!"'{name}' is a {sort.describe}, not a type"
  | .unknownField owner field _ => s!"Type '{owner}' has no field or method '{field}'"
  | .unknownVariant enum variant _ => s!"Enum '{enum}' has no variant '{variant}'"
  | .unknownMethod method owner => s!"No method '{method}' on type '{owner}'"
  | .noMethods t method => s!"Type '{t.text}' has no method '{method}'"
  | .privateAccess name module => s!"'{name}' is private to module '{module}'"
  | .assignImmutable name => s!"Cannot assign to '{name}' - binding is immutable"
  | .assignParam name => s!"Cannot assign to parameter '{name}'"
  | .assignSelf => "Cannot assign to 'self' or its fields"
  | .assignThroughConst => "Cannot assign through a '*const' pointer"
  | .assignConstant name => s!"Cannot assign to constant '{name}'"
  | .invalidTarget => "Invalid assignment target"
  | .borrowSelf => "Cannot take a mutable pointer to 'self' or its fields"
  | .borrowImmutable name => s!"Cannot take a mutable pointer to immutable binding '{name}'"
  | .mismatch wanted found _ => s!"Type mismatch: expected '{wanted.text}', found '{found.text}'"
  | .infiniteSize noun name =>
    s!"Recursive {noun} '{name}' contains itself by value and has infinite size"
  | .requiresUnsafe operation => s!"{operation.text} requires an unsafe block"
  | .awaitNonHandle t => s!"'await' requires a task handle, found '{t.text}'"
  | .spawnWithoutCall => "spawn requires a function call"
  | .notValue name sort => s!"'{name}' is a {sort.describe} and cannot be used as a value"
  | .memberUnusable name noun => s!"'{name}' is a {noun} and cannot be used here"
  | .selfOutsideMethod => "'self' is only available inside methods"
  | .tupleIndexOutOfRange size index => s!"Tuple of {size} elements has no element .{index}"
  | .notTuple t => s!"'{t.text}' is not a tuple"
  | .indexOutOfBounds index size => s!"Index {index} is out of bounds for an array of length {size}"
  | .notIndexable t => s!"Cannot index into '{t.text}'"
  | .notSliceable t => s!"Cannot slice '{t.text}'"
  | .notDereferenceable t => s!"Cannot dereference non-pointer type '{t.text}'"
  | .notNegatable t => s!"Cannot negate a value of type '{t.text}'"
  | .notComparable l r => s!"Cannot compare '{l.text}' with '{r.text}'"
  | .notOrdered op t => s!"Operator '{op.spelling}' needs ordered operands, found '{t.text}'"
  | .notOperands op l r =>
    s!"Operator '{op.spelling}' cannot be applied to '{l.text}' and '{r.text}'"
  | .literalOutOfRange value p => s!"Integer literal {value} does not fit in '{p.spelling}'"
  | .notCallableType t => s!"Type '{t.text}' is not callable"
  | .notCallable name sort => s!"'{name}' is a {sort.describe} and cannot be called"
  | .notMethod method owner => s!"'{method}' is an associated function of '{owner}', not a method"
  | .needsReceiver t function => s!"'{t}::{function}' takes 'self' and must be called on a value"
  | .noAssociatedFunctions name sort =>
    s!"'{name}' is a {sort.describe} and has no associated functions"
  | .noMembers name _ sort => s!"'{name}' is a {sort.describe} and has no members"
  | .fieldThroughPointer field t =>
    s!"Cannot access field '{field}' through pointer type '{t.text}'"
  | .notStruct name sort => s!"'{name}' is a {sort.describe}, not a struct"
  | .notEnum name sort => s!"'{name}' is a {sort.describe}, not an enum"
  | .missingFields name fields =>
    s!"Missing field(s) in '{name}' literal: " ++ ", ".intercalate fields
  | .notIterable t => s!"Cannot iterate over '{t.text}'"
  | .breakOutsideLoop => "'break' outside of a loop"
  | .continueOutsideLoop => "'continue' outside of a loop"
  | .badEntryPoint params t =>
    "'main' must be declared as 'fn main(none) -> i32' or 'fn main(none) -> void', " ++
      s!"found {params} parameter(s) returning '{t.text}'"
  | .strayReceiver => "'self' parameter is only allowed on methods inside an 'impl' block"
  | .missingReturn function t =>
    s!"Function '{function}' may finish without returning a value of type '{t.text}'"
  | .genericArity name wanted found =>
    s!"Type '{name}' expects {wanted} type argument(s), found {found}"
  | .tupleArity wanted found =>
    s!"Tuple arity mismatch: expected {wanted} element(s), found {found}"
  | .argumentCount name wanted found => s!"'{name}' expects {wanted} argument(s), found {found}"
  | .nonExhaustive missing =>
    "Non-exhaustive match: missing patterns for " ++ ", ".intercalate missing
  | .unreachablePattern => "Unreachable pattern: already covered by an earlier arm"
  | .conflictingTransfers a b =>
    s!"Conflicting FFI annotations: '#[{a}]' and '#[{b}]' are mutually exclusive. " ++
      "Only one FFI transfer annotation is allowed per declaration."
  | .conflictingOwnership a b =>
    s!"Conflicting ownership annotations: '{a}' and '{b}' are mutually exclusive"
  | .borrowedReturn => "FFI annotation '#[borrowed]' is not allowed on return types."
  | .misplacedDirective name target =>
    s!"Annotation '#[{name}]' is not allowed on a {target.describe}"
  | .directiveArgument name words =>
    s!"Invalid argument for '#[{name}]': expected one of " ++ ", ".intercalate words
  | .directiveTakesNothing name => s!"Annotation '#[{name}]' takes no arguments"
  | .borrowedNonPointer t => s!"'#[borrowed]' requires a pointer parameter, found '{t.text}'"
  | .variableTime construct => s!"{construct.text} is not allowed in constant-time code"
  | .nothingAllocated name =>
    s!"Ownership annotation on '{name}' requires an allocating initializer"
  | .constCycle path => "Const dependency cycle detected: " ++ " -> ".intercalate path
  | .nonConstReference name => s!"Non-const name '{name}' is not allowed in a const expression"
  | .constTooDeep limit => s!"Const evaluation exceeded the maximum depth of {limit}"
  | .notFoldable failure => s!"Cannot evaluate const expression: {failure.text}"

def handleNotes (wanted found : String) : List String :=
  if wanted.startsWith "TaskHandle<" || found.startsWith "TaskHandle<" then
    ["Task handles are produced by spawn_with_handle and consumed by await"]
  else []

def unpackingHints (wanted found : String) : List String :=
  (if found.startsWith "Result<" && !wanted.startsWith "Result<" then
    ["Result is never unwrapped implicitly; use match to extract the value"]
  else []) ++
  if found.startsWith "Option<" && !wanted.startsWith "Option<" then
    ["Option is never unwrapped implicitly; use match or 'if let'"]
  else []

def notes : SemanticProblem → List String
  | .duplicate _ previous => [s!"previous declaration at {previous.line}:{previous.col}"]
  | .unknownMember _ member module => [s!"module '{module}' has no member '{member}'"]
  | .unknownImplTarget _ =>
    ["'impl' blocks attach methods to a struct or enum declared in the same module"]
  | .assignSelf | .borrowSelf => ["Method receivers are immutable"]
  | .invalidTarget =>
    ["Only variables, fields, indexed elements, and dereferenced pointers can be assigned"]
  | .mismatch wanted found site => handleNotes wanted.text found.text ++ site.notes wanted
  | .notNegatable t => if t.isInteger then ["Unsigned integers have no negative values"] else []
  | .badEntryPoint .. => ["Command-line arguments are available through args()"]
  | .variableTime _ =>
    ["'#[constant_time]' bodies run straight-line code with constant divisors and indices"]
  | .nothingAllocated _ =>
    ["Struct, enum, tuple, array and string values and call results carry an ownership strategy"]
  | _ => []

def hints : SemanticProblem → List String
  | .unknownSymbol _ | .unknownMember .. => ["Did you forget to import it or declare it?"]
  | .unknownField _ field true => [s!"'{field}' is a method: call it with {field}(...)"]
  | .unknownVariant enum variant true =>
    [s!"'{variant}' is an associated function: {enum}::{variant}(...)"]
  | .privateAccess name _ => [s!"Declare '{name}' with 'pub' to use it from other modules"]
  | .assignImmutable name | .borrowImmutable name =>
    [s!"Declare with 'mut' to allow mutation: let mut {name}: ..."]
  | .assignParam name => [s!"Copy it into a local first: let mut {name}_copy: ... = {name};"]
  | .assignThroughConst => ["Use a '*mut' pointer for writable memory"]
  | .mismatch wanted found _ => unpackingHints wanted.text found.text
  | .infiniteSize _ name => [s!"Store the recursive member behind a pointer, e.g. '*mut {name}'"]
  | .requiresUnsafe _ => ["Wrap the operation in 'unsafe \x7b ... \x7d'"]
  | .awaitNonHandle _ => ["Create a handle with: spawn_with_handle h = task(...);"]
  | .notValue name .function => [s!"Call it: {name}(...)"]
  | .literalOutOfRange .. => ["Use a wider integer type"]
  | .notCallable name .struct =>
    [s!"Build a value with a struct literal: {name} \x7b ... \x7d"]
  | .notMethod method owner => [s!"Call it as {owner}::{method}(...)"]
  | .needsReceiver _ function => [s!"value.{function}(...)"]
  | .noMembers name member .struct =>
    [s!"Associated functions are called as {name}::{member}(...)"]
  | .fieldThroughPointer .. => ["Dereference first inside an unsafe block: (*p).field"]
  | .notIterable _ => ["'for' loops iterate slices, fixed arrays, and infinite()"]
  | .missingReturn .. => ["Add a 'return' statement on every path"]
  | .nonExhaustive _ => ["Add the missing cases or use '_' as a wildcard"]
  | _ => []

def diagnostic (p : SemanticProblem) (span : Span) : Diagnostic :=
  { kind := p.kind, message := p.message, span, notes := p.notes, hints := p.hints }

end SemanticProblem

end SourceCheck
