import SourceCheck.Symbol.Basic
import SourceCheck.Vocabulary.Predeclared

/-!
# Symbol tables

The root holds the predeclared functions, the module's scope stands below it, and every function, method and block
opens one below the current. Names are looked up outward. Scopes that are left are kept.
-/

namespace SourceCheck

inductive ScopeKind where
  | root
  | module
  | function
  | method
  | block
  | unsafeBlock
  | loop
deriving DecidableEq, Repr

structure Scope where
  parent : Option Nat
  kind : ScopeKind
  names : List (String × Nat) := []
deriving DecidableEq, Repr

structure SymbolTable where
  symbols : Array Symbol
  scopes : Array Scope
  current : Nat

def rootScope : Nat := 0

def moduleScope : Nat := 1

namespace Predeclared

def anyElement : String := "T"

def Shape.type : Shape → Ty
  | .primitive p => .primitive p
  | .sliceOf p => .slice (.primitive p)
  | .anySlice => .slice (.param anyElement)
  | .infiniteIterator => .infinite

def signatureInfo (s : Predeclared.Signature) : SourceCheck.Signature :=
  { typeParams := if s.params.any (·.2 = .anySlice) then [anyElement] else []
    params := s.params.map fun p => (p.1, p.2.type)
    returnType := s.returns.type }

def symbol (p : Predeclared) : Symbol :=
  { name := p.spelling
    kind := .function { signatures := p.signatures.map signatureInfo, isPredeclared := true }
    span := default }

end Predeclared

namespace SymbolTable

def scope? (t : SymbolTable) (i : Nat) : Option Scope :=
  t.scopes[i]?

def currentKind (t : SymbolTable) : ScopeKind :=
  ((t.scope? t.current).map (·.kind)).getD .root

def enter (t : SymbolTable) (kind : ScopeKind) : SymbolTable :=
  { t with scopes := t.scopes.push { parent := some t.current, kind }, current := t.scopes.size }

/-- Go back to the scope around. The root is never left. -/
def leave (t : SymbolTable) : SymbolTable :=
  match (t.scope? t.current).bind (·.parent) with
  | some parent => { t with current := parent }
  | none => t

def lookupIn (t : SymbolTable) (i : Nat) (name : String) : Option Nat :=
  (t.scope? i).bind fun s => s.names.lookup name

def lookupFrom (t : SymbolTable) (name : String) (i : Nat) : Option Nat :=
  match t.lookupIn i name with
  | some id => some id
  | none =>
    match (t.scope? i).bind (·.parent) with
    | some parent => if parent < i then t.lookupFrom name parent else none
    | none => none
termination_by i

def lookup (t : SymbolTable) (name : String) : Option Nat :=
  t.lookupFrom name t.current

def lookupLocal (t : SymbolTable) (name : String) : Option Nat :=
  t.lookupIn t.current name

def lookupGlobal (t : SymbolTable) (name : String) : Option Nat :=
  t.lookupIn moduleScope name

def get? (t : SymbolTable) (id : Nat) : Option Symbol :=
  t.symbols[id]?

def symbol? (t : SymbolTable) (name : String) : Option Symbol :=
  (t.lookup name).bind t.get?

def global? (t : SymbolTable) (name : String) : Option (Nat × Symbol) :=
  (t.lookupGlobal name).bind fun id => (t.get? id).map fun s => (id, s)

def modifySymbol (t : SymbolTable) (id : Nat) (f : Symbol → Symbol) : SymbolTable :=
  { t with symbols := t.symbols.modify id f }

/-- Add a symbol to the current scope, or give the place of the one that has its name. -/
def define (t : SymbolTable) (s : Symbol) : Except Span (Nat × SymbolTable) :=
  match t.lookupLocal s.name with
  | some id => .error (((t.get? id).map (·.span)).getD default)
  | none =>
    let id := t.symbols.size
    .ok (id,
      { t with
        symbols := t.symbols.push { s with scope := t.current }
        scopes := t.scopes.modify t.current fun c => { c with names := (s.name, id) :: c.names } })

/-- Functions and methods hide what is around them, except that they lie in the module. -/
def insideFrom (t : SymbolTable) (kind : ScopeKind) (i : Nat) : Bool :=
  match t.scope? i with
  | none => false
  | some s =>
    if s.kind = kind then true
    else if (s.kind = .function || s.kind = .method) && kind ≠ .module then false
    else
      match s.parent with
      | some parent => if parent < i then t.insideFrom kind parent else false
      | none => false
termination_by i

def inside (t : SymbolTable) (kind : ScopeKind) : Bool :=
  t.insideFrom kind t.current

def globals (t : SymbolTable) : List Symbol :=
  t.symbols.toList.filter (·.scope = moduleScope)

def defineAll (t : SymbolTable) (symbols : List Symbol) : SymbolTable :=
  symbols.foldl (fun t s =>
    match t.define s with
    | .ok (_, t') => t'
    | .error _ => t) t

def bare : SymbolTable :=
  { symbols := #[], scopes := #[{ parent := none, kind := .root }], current := rootScope }

def initial : SymbolTable :=
  (bare.defineAll (Predeclared.all.map Predeclared.symbol)).enter .module

end SymbolTable

end SourceCheck
