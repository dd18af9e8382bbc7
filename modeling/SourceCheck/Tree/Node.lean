import SourceCheck.Tree.Basic

/-!
# Nodes of a program

The parts of a program in the order of its text, a part before those inside it. A caller may leave out what is inside
some statements.
-/

namespace SourceCheck

inductive Node where
  | declaration (decl : Spanned Declaration)
  | function (decl : FunctionDecl)
  | directive (a : Annotation)
  | stmt (stmt : Stmt)
  | expr (expr : Expr)
  | type (type : TypeExpr)
  | pattern (pattern : Pattern)

mutual

def Expr.nodes : Expr → List Node
  | e@(.literal ..) | e@(.ident ..) | e@(.selfRef ..) | e@(.dotted ..) => [.expr e]
  | e@(.binary _ l _ r) | e@(.index _ l r) | e@(.arrayRepeat _ l r) => .expr e :: l.nodes ++ r.nodes
  | e@(.unary _ _ _ a) | e@(.field _ a _) | e@(.tupleIndex _ a _) | e@(.paren _ a)
  | e@(.await _ a) => .expr e :: a.nodes
  | e@(.call _ callee args) => .expr e :: callee.nodes ++ Expr.listNodes args
  | e@(.assocCall _ _ types _ args) => .expr e :: TypeExpr.listNodes types ++ Expr.listNodes args
  | e@(.dottedCall _ _ _ args) => .expr e :: Expr.listNodes args
  | e@(.slice _ base start stop) =>
    .expr e :: base.nodes ++ Expr.optionNodes start ++ Expr.optionNodes stop
  | e@(.structLit _ _ types fields) => .expr e :: TypeExpr.listNodes types ++ FieldInit.listNodes fields
  | e@(.tuple _ elems) | e@(.array _ elems) => .expr e :: Expr.listNodes elems
  | e@(.sizeof _ type) => .expr e :: type.nodes

def Expr.optionNodes : Option Expr → List Node
  | none => []
  | some e => e.nodes

def Expr.listNodes : List Expr → List Node
  | [] => []
  | e :: es => e.nodes ++ Expr.listNodes es

def FieldInit.nodes : FieldInit → List Node
  | .mk _ value => value.nodes

def FieldInit.listNodes : List FieldInit → List Node
  | [] => []
  | f :: fs => f.nodes ++ FieldInit.listNodes fs

def TypeExpr.nodes : TypeExpr → List Node
  | t@(.primitive ..) => [.type t]
  | t@(.slice _ a) | t@(.pointer _ _ a) | t@(.option _ a) | t@(.taskHandle _ a) => .type t :: a.nodes
  | t@(.array _ elem size) => .type t :: elem.nodes ++ size.nodes
  | t@(.result _ ok err) => .type t :: ok.nodes ++ err.nodes
  | t@(.tuple _ elems) | t@(.named _ _ elems) => .type t :: TypeExpr.listNodes elems

def TypeExpr.listNodes : List TypeExpr → List Node
  | [] => []
  | t :: ts => t.nodes ++ TypeExpr.listNodes ts

end

mutual

def Pattern.nodes : Pattern → List Node
  | p@(.wildcard _) | p@(.binding ..) | p@(.literal ..) => [.pattern p]
  | p@(.variant _ _ _ args) | p@(.tuple _ args) => .pattern p :: Pattern.listNodes args

def Pattern.listNodes : List Pattern → List Node
  | [] => []
  | p :: ps => p.nodes ++ Pattern.listNodes ps

end

mutual

/-- Nothing inside statements that `descend` refuses. -/
def Stmt.innerNodes (descend : Stmt → Bool) : Stmt → List Node
  | .letBinding _ annotations _ _ type value => annotations.map .directive ++ type.nodes ++ value.nodes
  | .assign _ target value => target.nodes ++ value.nodes
  | .returnValue _ e | .spawn _ e | .spawnWithHandle _ _ e | .expr _ e => e.nodes
  | .ifThen _ condition body otherwise =>
    condition.nodes ++ Stmt.listNodes descend body ++ ElseBranch.nodes descend otherwise
  | .ifLet _ pattern value body otherwise =>
    pattern.nodes ++ value.nodes ++ Stmt.listNodes descend body ++ ElseBranch.nodes descend otherwise
  | .forIn _ _ iterable body => iterable.nodes ++ Stmt.listNodes descend body
  | .matchOn _ scrutinee arms => scrutinee.nodes ++ MatchArm.listNodes descend arms
  | .unsafeBlock _ body | .block _ body => Stmt.listNodes descend body
  | .breakLoop _ | .continueLoop _ => []

def Stmt.listNodes (descend : Stmt → Bool) : List Stmt → List Node
  | [] => []
  | s :: ss => (.stmt s :: if descend s then Stmt.innerNodes descend s else []) ++ Stmt.listNodes descend ss

def ElseBranch.nodes (descend : Stmt → Bool) : ElseBranch → List Node
  | .absent => []
  | .block body => Stmt.listNodes descend body
  | .elseIf s => .stmt s :: if descend s then Stmt.innerNodes descend s else []

def MatchArm.nodes (descend : Stmt → Bool) : MatchArm → List Node
  | .mk _ pattern body => pattern.nodes ++ ArmBody.nodes descend body

def MatchArm.listNodes (descend : Stmt → Bool) : List MatchArm → List Node
  | [] => []
  | a :: as => a.nodes descend ++ MatchArm.listNodes descend as

def ArmBody.nodes (descend : Stmt → Bool) : ArmBody → List Node
  | .block body => Stmt.listNodes descend body
  | .expr e => e.nodes

end

/-- A statement and the parts inside it, if `descend` allows them. -/
def Stmt.nodes (descend : Stmt → Bool) (s : Stmt) : List Node :=
  .stmt s :: if descend s then Stmt.innerNodes descend s else []

def Param.nodes (p : Param) : List Node :=
  p.annotations.map .directive ++ p.type.nodes

def FunctionDecl.nodes (d : FunctionDecl) : List Node :=
  .function d :: d.params.flatMap Param.nodes ++ d.returnType.nodes ++
    Stmt.listNodes (fun _ => true) d.body

def Declaration.innerNodes : Declaration → List Node
  | .function d => d.nodes
  | .struct d => d.fields.flatMap fun f => f.annotations.map .directive ++ f.type.nodes
  | .enum d => d.variants.flatMap fun v => TypeExpr.listNodes v.payload ++ Expr.optionNodes v.value
  | .externFunction d =>
    d.params.flatMap Param.nodes ++ d.returnAnnotations.map .directive ++ d.returnType.nodes
  | .const d => d.type.nodes ++ d.value.nodes
  | .impl d => d.methods.flatMap fun m => m.node.annotations.map .directive ++ m.node.nodes

def Program.nodes (p : Program) : List Node :=
  p.declarations.flatMap fun d =>
    .declaration d :: d.node.annotations.map .directive ++ d.node.innerNodes

end SourceCheck
