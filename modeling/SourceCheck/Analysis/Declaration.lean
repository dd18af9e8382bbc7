import SourceCheck.Analysis.Collect
import SourceCheck.Analysis.Returns
import SourceCheck.Analysis.Stmt

/-!
# Declarations

Values of constants, bodies, the entry point, and the annotations on all of them.
-/

namespace SourceCheck

open Check

/-! ### Constants -/

def misfitProblem (t : Ty) (v : ConstValue) : Misfit → SemanticProblem
  | .wrongKind => .mismatch (.type t) (.value v) .plain
  | .outOfRange => .mismatch (.type t) (.value v) (.range v)

def SymbolKind.withValue (v : ConstValue) : SymbolKind → SymbolKind
  | .const t _ => .const t (some v)
  | k => k

def noteValue (c : ConstDecl) (id : Nat) (t : Ty) : Option ConstValue → Check Unit
  | none => pure ()
  | some v =>
    match v.misfit? t with
    | some m => report (misfitProblem t v m) c.value.span
    | none => do
      setKind id (·.withValue v)
      recordConst c.name.node v

def foldDeclared (c : ConstDecl) (id : Nat) (t : Ty) : Check Unit := do
  recordType c.value.span t
  noteValue c id t (← constValue [] c.name.node c.name.span)

/-- A declaration that did not get its name is left alone. -/
def checkConst (c : ConstDecl) : Check Unit := do
  match ← global? c.name.node with
  | some (id, { kind := .const t _, span, .. }) =>
    if span = c.name.span then foldDeclared c id t
  | _ => pure ()

/-! ### Functions -/

def declaredSignature? (name : Name) : Check (Option Signature) := do
  match ← global? name.node with
  | some (_, { kind := .function info, span, .. }) =>
    return if span = name.span then info.signatures.head? else none
  | _ => return none

def Ty.isExitCode : Ty → Bool
  | .primitive .i32 | .primitive .void | .unknown => true
  | _ => false

def checkEntryPoint (f : FunctionDecl) (sig : Signature) : Check Unit :=
  reportIf (!sig.params.isEmpty || !sig.returnType.isExitCode || !f.typeParams.isEmpty)
    (.badEntryPoint sig.arity sig.returnType) f.name.span

structure Owner where
  selfType : Ty
  info : NominalInfo

def declareReceiver (owner : Option Owner) (span : Span) : Check Unit := do
  let t ← match owner with
    | some o => pure o.selfType
    | none => refuse .strayReceiver span
  declareFirst (.local "self" t false .selfParam span)

def declareParam (p : Param) (name : String) (t : Ty) : Check Unit := do
  checkAnnotations p.annotations .param (some t)
  declareFirst (.local name t false .param p.span)

def checkBodyScope (f : FunctionDecl) (sig : Signature) (owner : Option Owner) : Check Unit := do
  let ownerParams := (owner.map (·.info.typeParams)).getD []
  ownerParams.forM fun p => declareFirst (typeParamSymbol ⟨p, f.name.span⟩)
  f.typeParams.forM fun p => declareFirst (typeParamSymbol p)
  f.receiver.forM (declareReceiver owner)
  (f.params.zip sig.params).forM fun (p, name, t) => declareParam p name t
  withReader (fun s => { s with function := some ⟨f.name.node, sig.returnType⟩ }) (checkStmts f.body)

def Ty.mustReturn (t : Ty) : Bool :=
  !t.isVoid && !t.isNever && !t.isUnknown

def checkBody (f : FunctionDecl) (sig : Signature) (owner : Option Owner) : Check Unit := do
  inScope (if owner.isSome then .method else .function) (checkBodyScope f sig owner)
  checkConstantTime f.annotations f.body
  reportIf (sig.returnType.mustReturn && !Stmt.anyReturns (← get).exprTypes f.body)
    (.missingReturn f.name.node sig.returnType) f.name.span

def checkSigned (f : FunctionDecl) (sig : Signature) : Check Unit := do
  if (← read).isEntry && f.name.node = "main" then checkEntryPoint f sig
  checkBody f sig none

def checkFunction (f : FunctionDecl) : Check Unit := do
  checkAnnotations f.annotations .function
  match ← declaredSignature? f.name with
  | none => pure ()
  | some sig => checkSigned f sig

def checkExtern (f : ExternDecl) : Check Unit := do
  checkAnnotations f.annotations .externFunction
  let sig ← declaredSignature? f.name
  f.params.zipIdx.forM fun (p, i) =>
    checkAnnotations p.annotations .externParam (sig.bind fun s => (s.params[i]?).map (·.2))
  checkAnnotations f.returnAnnotations .externReturn (sig.map (·.returnType))

def checkMethod (owner : Owner) (f : FunctionDecl) : Check Unit := do
  checkAnnotations f.annotations .method
  match owner.info.methods.lookup f.name.node with
  | some m => if m.span = f.name.span then checkBody f m.signature (some owner)
  | none => pure ()

def SymbolKind.owner? (kind : SymbolKind) : Option Owner := do
  let info ← kind.nominalInfo?
  let selfType ← kind.nominalType? (info.typeParams.map .param)
  return { selfType, info }

def checkImpl (block : ImplBlock) : Check Unit := do
  match (← global? block.target.node).bind (·.2.kind.owner?) with
  | none => pure ()
  | some owner => block.methods.forM fun m => checkMethod owner m.node

def checkDeclaration (d : Declaration) : Check Unit :=
  match d with
  | .function f => checkFunction f
  | .externFunction f => checkExtern f
  | .struct s => do
    checkAnnotations s.annotations .struct
    s.fields.forM fun f => checkAnnotations f.annotations .field
  | .enum e => checkAnnotations e.annotations .enum
  | .impl block => checkImpl block
  | .const _ => pure ()

def checkConstDeclaration (d : Declaration) : Check Unit :=
  match d with
  | .const c => do
    checkAnnotations c.annotations .const
    checkConst c
  | _ => pure ()

/-- First the constants, then the others. -/
def checkDeclarations (decls : List Declaration) : Check Unit := do
  decls.forM checkConstDeclaration
  decls.forM checkDeclaration

end SourceCheck
