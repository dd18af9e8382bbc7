import Mathlib.Tactic.Lemma
import SourceCheck.Tree.Basic

/-!
# Trees without places

`unplaced` forgets the places of a tree and keeps all else. Bodies are treated apart: the outline of a module is what
is left when they are empty.
-/

namespace SourceCheck

def Spanned.unplaced {α : Type} (x : Spanned α) : Spanned α :=
  ⟨x.node, default⟩

mutual

def TypeExpr.unplaced : TypeExpr → TypeExpr
  | .primitive _ p => .primitive default p
  | .slice _ elem => .slice default elem.unplaced
  | .array _ elem size => .array default elem.unplaced size.unplaced
  | .pointer _ m target => .pointer default m target.unplaced
  | .result _ ok err => .result default ok.unplaced err.unplaced
  | .option _ inner => .option default inner.unplaced
  | .taskHandle _ inner => .taskHandle default inner.unplaced
  | .tuple _ elems => .tuple default (TypeExpr.allUnplaced elems)
  | .named _ name args => .named default name (TypeExpr.allUnplaced args)

def TypeExpr.allUnplaced : List TypeExpr → List TypeExpr
  | [] => []
  | t :: ts => t.unplaced :: TypeExpr.allUnplaced ts

def Expr.unplaced : Expr → Expr
  | .literal _ value => .literal default value
  | .ident _ name => .ident default name
  | .selfRef _ => .selfRef default
  | .binary _ lhs op rhs => .binary default lhs.unplaced op rhs.unplaced
  | .unary _ logical pointer operand => .unary default logical pointer operand.unplaced
  | .call _ callee args => .call default callee.unplaced (Expr.allUnplaced args)
  | .assocCall _ typeName typeArgs function args =>
    .assocCall default typeName.unplaced (TypeExpr.allUnplaced typeArgs) function.unplaced (Expr.allUnplaced args)
  | .dotted _ head member => .dotted default head.unplaced member.unplaced
  | .dottedCall _ head member args =>
    .dottedCall default head.unplaced member.unplaced (Expr.allUnplaced args)
  | .field _ base name => .field default base.unplaced name.unplaced
  | .tupleIndex _ base index => .tupleIndex default base.unplaced index
  | .index _ base index => .index default base.unplaced index.unplaced
  | .slice _ base start stop =>
    .slice default base.unplaced (Expr.optionUnplaced start) (Expr.optionUnplaced stop)
  | .structLit _ name typeArgs fields =>
    .structLit default name.unplaced (TypeExpr.allUnplaced typeArgs) (FieldInit.allUnplaced fields)
  | .tuple _ elems => .tuple default (Expr.allUnplaced elems)
  | .array _ elems => .array default (Expr.allUnplaced elems)
  | .arrayRepeat _ value count => .arrayRepeat default value.unplaced count.unplaced
  | .paren _ inner => .paren default inner.unplaced
  | .sizeof _ type => .sizeof default type.unplaced
  | .await _ handle => .await default handle.unplaced

def Expr.allUnplaced : List Expr → List Expr
  | [] => []
  | e :: es => e.unplaced :: Expr.allUnplaced es

def Expr.optionUnplaced : Option Expr → Option Expr
  | none => none
  | some e => some e.unplaced

def FieldInit.unplaced : FieldInit → FieldInit
  | .mk name value => .mk name.unplaced value.unplaced

def FieldInit.allUnplaced : List FieldInit → List FieldInit
  | [] => []
  | f :: fs => f.unplaced :: FieldInit.allUnplaced fs

end

lemma TypeExpr.allUnplaced_eq (ts) : TypeExpr.allUnplaced ts = ts.map (·.unplaced) := by
  induction ts with
  | nil => rfl
  | cons t ts ih => rw [allUnplaced, ih, List.map_cons]

/-! ### Declarations -/

def Annotation.unplaced (a : Annotation) : Annotation :=
  { a with span := default }

def Param.unplaced (p : Param) : Param :=
  { span := default
    annotations := p.annotations.map (·.unplaced)
    name := p.name
    type := p.type.unplaced }

def FunctionDecl.unplaced (body : List Stmt → List Stmt) (d : FunctionDecl) : FunctionDecl :=
  { annotations := d.annotations.map (·.unplaced)
    visibility := d.visibility
    name := d.name.unplaced
    typeParams := d.typeParams.map (·.unplaced)
    receiver := d.receiver.map fun _ => default
    params := d.params.map (·.unplaced)
    returnType := d.returnType.unplaced
    body := body d.body }

def FieldDecl.unplaced (d : FieldDecl) : FieldDecl :=
  { span := default
    annotations := d.annotations.map (·.unplaced)
    visibility := d.visibility
    name := d.name
    type := d.type.unplaced }

def StructDecl.unplaced (d : StructDecl) : StructDecl :=
  { annotations := d.annotations.map (·.unplaced)
    visibility := d.visibility
    name := d.name.unplaced
    typeParams := d.typeParams.map (·.unplaced)
    fields := d.fields.map (·.unplaced) }

def VariantDecl.unplaced (d : VariantDecl) : VariantDecl :=
  { span := default
    name := d.name
    payload := d.payload.map (·.unplaced)
    value := d.value.map (·.unplaced) }

def EnumDecl.unplaced (d : EnumDecl) : EnumDecl :=
  { annotations := d.annotations.map (·.unplaced)
    visibility := d.visibility
    name := d.name.unplaced
    typeParams := d.typeParams.map (·.unplaced)
    variants := d.variants.map (·.unplaced) }

def ExternDecl.unplaced (d : ExternDecl) : ExternDecl :=
  { annotations := d.annotations.map (·.unplaced)
    visibility := d.visibility
    library := d.library
    name := d.name.unplaced
    params := d.params.map (·.unplaced)
    returnAnnotations := d.returnAnnotations.map (·.unplaced)
    returnType := d.returnType.unplaced }

def ConstDecl.unplaced (d : ConstDecl) : ConstDecl :=
  { annotations := d.annotations.map (·.unplaced)
    visibility := d.visibility
    name := d.name.unplaced
    type := d.type.unplaced
    value := d.value.unplaced }

def ImplBlock.unplaced (body : List Stmt → List Stmt) (d : ImplBlock) : ImplBlock :=
  { annotations := d.annotations.map (·.unplaced)
    target := d.target.unplaced
    methods := d.methods.map fun m => ⟨m.node.unplaced body, default⟩ }

def Declaration.unplaced (body : List Stmt → List Stmt) : Declaration → Declaration
  | .function d => .function (d.unplaced body)
  | .struct d => .struct d.unplaced
  | .enum d => .enum d.unplaced
  | .externFunction d => .externFunction d.unplaced
  | .const d => .const d.unplaced
  | .impl d => .impl (d.unplaced body)

def ImportDecl.unplaced (d : ImportDecl) : ImportDecl :=
  { d with localName := d.localName.map (·.unplaced) }

def Program.unplaced (body : List Stmt → List Stmt) (p : Program) : Program :=
  { package := p.package.unplaced
    imports := p.imports.map fun i => ⟨i.node.unplaced, default⟩
    declarations := p.declarations.map fun d => ⟨d.node.unplaced body, default⟩ }

/-- A module without places and bodies. -/
def Program.outline (p : Program) : Program :=
  p.unplaced fun _ => []

end SourceCheck
