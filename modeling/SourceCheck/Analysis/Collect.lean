import SourceCheck.Analysis.Annotations
import SourceCheck.Analysis.Fold

/-!
# Declarations and their shapes

Every declaration enters its name. Then signatures, fields, variants and types of constants are resolved, and the
methods of `impl` blocks join their types.
-/

namespace SourceCheck

open Check

structure ImportBinding where
  binding : String
  path : String
  /-- The module it names, unless that is an external package. -/
  target : Option String
  span : Span
deriving DecidableEq, Repr

def ImportBinding.symbol (i : ImportBinding) : Symbol :=
  { name := i.binding, kind := .module i.path i.target, span := i.span }

/-! ### Names -/

/-- The symbol before the shape is known. An `impl` block has none. -/
def Declaration.symbol? (module : String) (d : Declaration) : Option Symbol :=
  let named kind visibility : Symbol :=
    { name := d.name.node, kind, span := d.name.span, visibility := some visibility }
  match d with
  | .function f => some (named (.function { signatures := [] }) f.visibility)
  | .externFunction f => some (named (.function { signatures := [], isExtern := true }) f.visibility)
  | .struct s =>
    let info : NominalInfo :=
      { nominal := ⟨module, s.name.node⟩
        typeParams := s.typeParams.map (·.node)
        ownership := ownershipMode? s.annotations }
    some (named (.struct info []) s.visibility)
  | .enum e =>
    let info : NominalInfo :=
      { nominal := ⟨module, e.name.node⟩
        typeParams := e.typeParams.map (·.node)
        ownership := ownershipMode? e.annotations }
    some (named (.enum info []) e.visibility)
  | .const c => some (named (.const .unknown none) c.visibility)
  | .impl _ => none

/-- The number of the new symbol, unless the name is taken. -/
def registerName (d : Declaration) : Check (Option Nat) := do
  match d.symbol? (← read).module with
  | none => return none
  | some s =>
    match ← define s with
    | .ok id => return some id
    | .error previous =>
      report (.duplicate s.name previous) s.span
      return none

def registerNames : List Declaration → Check (List (Declaration × Nat))
  | [] => return []
  | d :: ds => do
    let id? ← registerName d
    let rest ← registerNames ds
    match id? with
    | some id => return (d, id) :: rest
    | none => return rest

def constantsOf (declared : List (Declaration × Nat)) : List ConstDecl :=
  declared.filterMap fun
    | (.const c, _) => some c
    | _ => none

/-! ### Shapes -/

def typeParamSymbol (p : Name) : Symbol :=
  { name := p.node, kind := .typeParam, span := p.span }

def withTypeParams {α : Type} (params : List Name) (step : Check α) : Check α :=
  if params.isEmpty then step
  else inScope .block do
    params.forM fun p => declare (typeParamSymbol p)
    step

/-- A repeated name is noted. -/
def resolveParams (seen : List (String × Span)) : List Param → Check (List (String × Ty))
  | [] => return []
  | p :: ps => do
    match seen.lookup p.name with
    | some previous => report (.duplicate p.name previous) p.span
    | none => pure ()
    let t ← resolveType p.type
    let rest ← resolveParams ((p.name, p.span) :: seen) ps
    return (p.name, t) :: rest

def resolveSignature (typeParams : List Name) (params : List Param) (returnType : TypeExpr) :
    Check Signature := do
  let params ← resolveParams [] params
  let returnType ← resolveType returnType
  return { typeParams := typeParams.map (·.node), params, returnType }

/-- A repeated name is noted and left out. -/
def resolveFields (seen : List (String × Span)) : List FieldDecl → Check (List FieldInfo)
  | [] => return []
  | f :: fs => do
    match seen.lookup f.name with
    | some previous =>
      report (.duplicate f.name previous) f.span
      resolveFields seen fs
    | none =>
      let type ← resolveType f.type
      let rest ← resolveFields ((f.name, f.span) :: seen) fs
      return { name := f.name, type, visibility := f.visibility.getD .pub, span := f.span } :: rest

def resolveDiscriminant (enum variant : String) (value : Expr) : Check (Option Int) := do
  match ← foldExpr value with
  | none => return none
  | some (.int n) => return some n
  | some v => notFoldable (.discriminant enum variant v) value.span

/-- A repeated name is noted and left out. -/
def resolveVariants (enum : String) (seen : List (String × Span)) :
    List VariantDecl → Check (List VariantInfo)
  | [] => return []
  | v :: vs => do
    match seen.lookup v.name with
    | some previous =>
      report (.duplicate v.name previous) v.span
      resolveVariants enum seen vs
    | none =>
      let payload ← resolveTypes v.payload
      let discriminant ← match v.value with
        | some value => resolveDiscriminant enum v.name value
        | none => pure none
      let rest ← resolveVariants enum ((v.name, v.span) :: seen) vs
      return { name := v.name, payload, discriminant } :: rest

def setKind (id : Nat) (f : SymbolKind → SymbolKind) : Check Unit :=
  modifySymbols (·.modifySymbol id fun s => { s with kind := f s.kind })

def SymbolKind.withSignature (sig : Signature) : SymbolKind → SymbolKind
  | .function info => .function { info with signatures := [sig] }
  | k => k

def resolveShape (d : Declaration) (id : Nat) : Check Unit := do
  match d with
  | .function f =>
    let sig ← withTypeParams f.typeParams (resolveSignature f.typeParams f.params f.returnType)
    setKind id (·.withSignature sig)
  | .externFunction f =>
    let sig ← resolveSignature [] f.params f.returnType
    setKind id (·.withSignature sig)
  | .struct s =>
    let fields ← withTypeParams s.typeParams (resolveFields [] s.fields)
    setKind id fun
      | .struct info _ => .struct info fields
      | k => k
  | .enum e =>
    let variants ← withTypeParams e.typeParams (resolveVariants e.name.node [] e.variants)
    setKind id fun
      | .enum info _ => .enum info variants
      | k => k
  | .const c =>
    let t ← resolveType c.type
    setKind id fun
      | .const _ value => .const t value
      | k => k
  | .impl _ => pure ()

/-! ### Types that contain themselves -/

def checkSize (d : Declaration) : Check Unit := do
  let root : Nominal := ⟨(← read).module, d.name.node⟩
  match d with
  | .struct _ | .enum _ =>
    let nominals := (← get).nominals (← read)
    reportIf (nominals.isInfinite root) (.infiniteSize d.sort d.name.node) d.name.span
  | _ => pure ()

/-! ### Methods -/

/-- A repeated name is noted and left out. -/
def resolveMethods (ownerParams : List Name) (seen : List (String × Span)) :
    List FunctionDecl → Check (List (String × MethodInfo))
  | [] => return []
  | f :: fs => do
    match seen.lookup f.name.node with
    | some previous =>
      report (.duplicate f.name.node previous) f.name.span
      resolveMethods ownerParams seen fs
    | none =>
      let signature ← withTypeParams (ownerParams ++ f.typeParams)
        (resolveSignature f.typeParams f.params f.returnType)
      let rest ← resolveMethods ownerParams ((f.name.node, f.name.span) :: seen) fs
      let info : MethodInfo :=
        { signature, hasSelf := f.receiver.isSome, visibility := f.visibility, span := f.name.span }
      return (f.name.node, info) :: rest

def SymbolKind.addMethods (methods : List (String × MethodInfo)) : SymbolKind → SymbolKind
  | .struct info fields => .struct { info with methods := info.methods ++ methods } fields
  | .enum info variants => .enum { info with methods := info.methods ++ methods } variants
  | k => k

def NominalInfo.lacking (info : NominalInfo) (methods : List (String × MethodInfo)) :
    List (String × MethodInfo) :=
  methods.filter fun m => (info.methods.lookup m.1).isNone

def reportSecond (info : NominalInfo) (m : String × MethodInfo) : Check Unit :=
  match info.methods.lookup m.1 with
  | some previous => report (.duplicate m.1 previous.span) m.2.span
  | none => pure ()

/-- A method that the type has from an earlier block is noted and left out. -/
def addResolved (id : Nat) (info : NominalInfo) (methods : List (String × MethodInfo)) : Check Unit := do
  setKind id (·.addMethods (info.lacking methods))
  methods.forM (reportSecond info)

def resolveImpl (block : ImplBlock) (info : NominalInfo) : Check (List (String × MethodInfo)) :=
  resolveMethods (info.typeParams.map fun p => ⟨p, block.target.span⟩) [] (block.methods.map (·.node))

/-- Add the methods of an `impl` block to the type that it names. -/
def addImpl (block : ImplBlock) : Option (Nat × NominalInfo) → Check Unit
  | none => report (.unknownImplTarget block.target.node) block.target.span
  | some (id, info) => resolveImpl block info >>= addResolved id info

def implOwner? (o : Option (Nat × Symbol)) : Option (Nat × NominalInfo) :=
  o.bind fun p => p.2.kind.nominalInfo?.map (p.1, ·)

def collectImpl (block : ImplBlock) : Check Unit := do
  addImpl block (implOwner? (← global? block.target.node))

def collectMethods : Declaration → Check Unit
  | .impl block => collectImpl block
  | _ => pure ()

/-- Resolve the shapes of what got its name, and add the methods of `impl` blocks. -/
def collectShapes (decls : List Declaration) (declared : List (Declaration × Nat)) : Check Unit := do
  declared.forM fun (d, id) => resolveShape d id
  decls.forM checkSize
  decls.forM collectMethods

end SourceCheck
