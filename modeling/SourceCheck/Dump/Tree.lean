import SourceCheck.Decimal.FloatText
import SourceCheck.Text.Quoted
import SourceCheck.Token.Basic
import SourceCheck.Tree.Basic

/-!
# Dumps of tokens and programs

The pictures that the command line shows of what it has read.
-/

namespace SourceCheck

inductive Dump where
  | atom (text : String)
  | group (name : String) (parts : List Dump)
  | record (name : String) (fields : List (String × Dump))
  | list (parts : List Dump)

namespace Dump

mutual

def compact : Dump → String
  | .atom text => text
  | .group name parts => name ++ "(" ++ compactParts parts ++ ")"
  | .record name fields => name ++ " \x7b " ++ compactFields fields ++ " \x7d"
  | .list parts => "[" ++ compactParts parts ++ "]"

def compactParts : List Dump → String
  | [] => ""
  | [d] => d.compact
  | d :: ds => d.compact ++ ", " ++ compactParts ds

def compactFields : List (String × Dump) → String
  | [] => ""
  | [(name, d)] => name ++ ": " ++ d.compact
  | (name, d) :: rest => name ++ ": " ++ d.compact ++ ", " ++ compactFields rest

end

def indent : String := "    "

mutual

def pretty (pad : String) : Dump → String
  | .atom text => text
  | .group name parts => name ++ "(\n" ++ prettyParts (pad ++ indent) parts ++ pad ++ ")"
  | .record name fields => name ++ " \x7b\n" ++ prettyFields (pad ++ indent) fields ++ pad ++ "\x7d"
  | .list [] => "[]"
  | .list (d :: ds) => "[\n" ++ prettyParts (pad ++ indent) (d :: ds) ++ pad ++ "]"

def prettyParts (pad : String) : List Dump → String
  | [] => ""
  | d :: ds => pad ++ d.pretty pad ++ ",\n" ++ prettyParts pad ds

def prettyFields (pad : String) : List (String × Dump) → String
  | [] => ""
  | (name, d) :: rest => pad ++ name ++ ": " ++ d.pretty pad ++ ",\n" ++ prettyFields pad rest

end

def text (d : Dump) : String :=
  d.pretty ""

def ofNat (n : Nat) : Dump :=
  .atom (toString n)

def ofBool (b : Bool) : Dump :=
  .atom (toString b)

def ofString (s : String) : Dump :=
  .atom (quoteString s)

def ofChar (c : Char) : Dump :=
  .atom (quoteChar c)

def ofFloat (x : Float) : Dump :=
  .atom (FloatFormat.dump.write x)

def ofOption {α : Type} (f : α → Dump) : Option α → Dump
  | none => .atom "None"
  | some a => .group "Some" [f a]

def ofList {α : Type} (f : α → Dump) (as : List α) : Dump :=
  .list (as.map f)

def ofSpan (s : Span) : Dump :=
  .record "Span"
    [("file", .group "FileId" [ofNat s.file]), ("start", ofNat s.start), ("end", ofNat s.stop),
     ("line", ofNat s.line), ("col", ofNat s.col)]

def spanned (s : Span) (node : Dump) : Dump :=
  .record "Spanned" [("node", node), ("span", ofSpan s)]

def ofName (n : Name) : Dump :=
  spanned n.span (ofString n.node)

/-! ### Tokens -/

def ofIntBase : IntBase → Dump
  | .decimal => .atom "Decimal"
  | .hex => .atom "Hex"
  | .binary => .atom "Binary"
  | .octal => .atom "Octal"

def ofStringForm : StringForm → Dump
  | .regular => .atom "Regular"
  | .processed => .atom "Processed"
  | .raw => .atom "Raw"

def ofTokenKind : TokenKind → Dump
  | .keyword k => .group "Keyword" [.atom k.tag]
  | .primitive p => .group "Primitive" [.atom p.tag]
  | .operator o => .group "Operator" [.atom o.tag]
  | .punctuation p => .group "Punctuation" [.atom p.tag]
  | .ident name => .group "Ident" [ofString name]
  | .int value base => .record "Int" [("value", ofNat value), ("base", ofIntBase base)]
  | .float value => .group "Float" [ofFloat value]
  | .string value form => .record "String" [("value", ofString value), ("form", ofStringForm form)]
  | .char value => .group "Char" [ofChar value]
  | .eof => .atom "Eof"

/-! ### Parts of programs -/

def ofVisibility : Visibility → Dump
  | .pub => .atom "Public"
  | .priv => .atom "Private"

def ofLiteral : Literal → Dump
  | .int n => .group "Int" [ofNat n]
  | .float x => .group "Float" [ofFloat x]
  | .string s => .group "String" [ofString s]
  | .char c => .group "Char" [ofChar c]
  | .bool b => .group "Bool" [ofBool b]
  | .unit => .atom "Unit"

def ofAnnotationValue : AnnotationValue → Dump
  | .str s => .group "Str" [ofString s]
  | .ident name => .group "Ident" [ofString name]
  | .int n => .group "Int" [ofNat n]
  | .bool b => .group "Bool" [ofBool b]

def ofAnnotationArgs : AnnotationArgs → Dump
  | .empty => .atom "Empty"
  | .values vs => .group "Values" [ofList ofAnnotationValue vs]
  | .named pairs =>
    .group "Named" [ofList (fun (key, v) => .group "" [ofString key, ofAnnotationValue v]) pairs]

def ofAnnotated (a : Annotation) : Dump :=
  .record "Annotation" [("name", ofString a.name), ("args", ofAnnotationArgs a.args), ("span", ofSpan a.span)]

def ofAnnotations (list : List Annotation) : Dump :=
  ofList ofAnnotated list

def ofBinaryOp : BinaryOp → Dump
  | .or => .atom "Or"
  | .and => .atom "And"
  | .bitOr => .atom "BitOr"
  | .bitXor => .atom "BitXor"
  | .bitAnd => .atom "BitAnd"
  | .eq => .atom "Eq"
  | .notEq => .atom "NotEq"
  | .lt => .atom "Lt"
  | .ltEq => .atom "LtEq"
  | .gt => .atom "Gt"
  | .gtEq => .atom "GtEq"
  | .shl => .atom "Shl"
  | .shr => .atom "Shr"
  | .add => .atom "Add"
  | .sub => .atom "Sub"
  | .mul => .atom "Mul"
  | .div => .atom "Div"
  | .mod => .atom "Mod"

def ofLogical : LogicalPrefix → Dump
  | .not => .atom "Not"
  | .neg => .atom "Neg"
  | .bitNot => .atom "BitNot"

def ofPointer : PointerPrefix → Dump
  | .deref => .atom "Deref"
  | .addressOf => .atom "AddressOf"
  | .addressOfMut => .atom "AddressOfMut"

def ofMutability : Mutability → Dump
  | .mut => .atom "Mut"
  | .const => .atom "Const"

def ofDotted (head member : Name) (args : Dump) : Dump :=
  .group "EnumConstructor"
    [.record "EnumConstructor" [("head", ofName head), ("variant", ofName member), ("args", args)]]

mutual

def ofType : TypeExpr → Dump
  | .primitive s p => spanned s (.group "Primitive" [.atom p.tag])
  | .slice s elem => spanned s (.group "Slice" [ofType elem])
  | .array s elem size => spanned s (.group "FixedArray" [ofType elem, ofExpr size])
  | .pointer s m target => spanned s (.group "Pointer" [ofMutability m, ofType target])
  | .result s ok err => spanned s (.group "Result" [ofType ok, ofType err])
  | .option s inner => spanned s (.group "Option" [ofType inner])
  | .taskHandle s inner => spanned s (.group "TaskHandle" [ofType inner])
  | .tuple s elems => spanned s (.group "Tuple" [.list (ofTypes elems)])
  | .named s name args => spanned s (.group "Named" [ofString name, .list (ofTypes args)])

def ofTypes : List TypeExpr → List Dump
  | [] => []
  | t :: ts => ofType t :: ofTypes ts

def ofExpr : Expr → Dump
  | .literal s value => spanned s (.group "Literal" [ofLiteral value])
  | .ident s name => spanned s (.group "Ident" [ofString name])
  | .selfRef s => spanned s (.atom "SelfExpr")
  | .binary s lhs op rhs => spanned s (.group "Binary" [ofExpr lhs, ofBinaryOp op, ofExpr rhs])
  | .unary s logical pointer operand =>
    spanned s (.group "Unary"
      [.record "UnaryPrefix" [("logical", ofOption ofLogical logical), ("pointer", ofOption ofPointer pointer)],
       ofExpr operand])
  | .call s callee args => spanned s (.group "Call" [ofExpr callee, .list (ofExprs args)])
  | .assocCall s typeName typeArgs function args =>
    spanned s (.group "AssociatedCall"
      [.record "AssociatedCall"
        [("type_name", ofName typeName), ("type_args", .list (ofTypes typeArgs)),
         ("function", ofName function), ("args", .list (ofExprs args))]])
  | .dotted s head member => spanned s (ofDotted head member (.atom "None"))
  | .dottedCall s head member args =>
    spanned s (ofDotted head member (.group "Some" [.list (ofExprs args)]))
  | .field s base name => spanned s (.group "Field" [ofExpr base, ofName name])
  | .tupleIndex s base index => spanned s (.group "TupleIndex" [ofExpr base, ofNat index])
  | .index s base index => spanned s (.group "Index" [ofExpr base, ofExpr index])
  | .slice s base start stop =>
    spanned s (.group "Slice"
      [ofExpr base, .record "SliceBounds" [("start", ofOptionExpr start), ("end", ofOptionExpr stop)]])
  | .structLit s name typeArgs fields =>
    spanned s (.group "StructLiteral"
      [.record "StructLiteral"
        [("name", ofName name), ("type_args", .list (ofTypes typeArgs)), ("fields", .list (ofFields fields))]])
  | .tuple s elems => spanned s (.group "Tuple" [.list (ofExprs elems)])
  | .array s elems => spanned s (.group "Array" [.list (ofExprs elems)])
  | .arrayRepeat s value count => spanned s (.group "ArrayRepeat" [ofExpr value, ofExpr count])
  | .paren s inner => spanned s (.group "Paren" [ofExpr inner])
  | .sizeof s type => spanned s (.group "Sizeof" [ofType type])
  | .await s handle => spanned s (.group "Await" [ofExpr handle])

def ofExprs : List Expr → List Dump
  | [] => []
  | e :: es => ofExpr e :: ofExprs es

def ofOptionExpr : Option Expr → Dump
  | none => .atom "None"
  | some e => .group "Some" [ofExpr e]

def ofField : FieldInit → Dump
  | .mk name value => .group "" [ofName name, ofExpr value]

def ofFields : List FieldInit → List Dump
  | [] => []
  | f :: fs => ofField f :: ofFields fs

end

mutual

def ofPattern : Pattern → Dump
  | .wildcard s => spanned s (.atom "Wildcard")
  | .binding s name mutable =>
    spanned s (.record "Binding" [("name", ofString name), ("mutable", ofBool mutable)])
  | .literal s value => spanned s (.group "Literal" [ofLiteral value])
  | .variant s enum variant args =>
    spanned s (.record "EnumVariant"
      [("enum_name", ofString enum), ("variant", ofString variant), ("args", .list (ofPatterns args))])
  | .tuple s elems => spanned s (.group "Tuple" [.list (ofPatterns elems)])

def ofPatterns : List Pattern → List Dump
  | [] => []
  | p :: ps => ofPattern p :: ofPatterns ps

end

mutual

def ofStmt : Stmt → Dump
  | .letBinding s annotations mutable name type value =>
    spanned s (.group "Let"
      [.record "LetStmt"
        [("annotations", ofAnnotations annotations), ("mutable", ofBool mutable), ("name", ofName name),
         ("ty", ofType type), ("value", ofExpr value)]])
  | .assign s target value =>
    spanned s (.group "Assign" [.record "AssignStmt" [("target", ofExpr target), ("value", ofExpr value)]])
  | .returnValue s value => spanned s (.group "Return" [ofExpr value])
  | .ifThen s condition body otherwise =>
    spanned s (.group "If"
      [.record "IfStmt"
        [("condition", ofExpr condition), ("then_block", .list (ofStmts body)),
         ("else_branch", ofElse otherwise)]])
  | .ifLet s pattern value body otherwise =>
    spanned s (.group "IfLet"
      [.record "IfLetStmt"
        [("pattern", ofPattern pattern), ("value", ofExpr value), ("then_block", .list (ofStmts body)),
         ("else_branch", ofElse otherwise)]])
  | .forIn s binding iterable body =>
    spanned s (.group "For"
      [.record "ForStmt"
        [("binding", ofName binding), ("iterable", ofExpr iterable), ("body", .list (ofStmts body))]])
  | .matchOn s scrutinee arms =>
    spanned s (.group "Match"
      [.record "MatchStmt" [("scrutinee", ofExpr scrutinee), ("arms", .list (ofArms arms))]])
  | .spawn s call => spanned s (.group "Spawn" [ofExpr call])
  | .spawnWithHandle s handle call =>
    spanned s (.group "SpawnWithHandle"
      [.record "SpawnWithHandleStmt" [("handle", ofName handle), ("call", ofExpr call)]])
  | .unsafeBlock s body => spanned s (.group "Unsafe" [.list (ofStmts body)])
  | .block s body => spanned s (.group "Block" [.list (ofStmts body)])
  | .breakLoop s => spanned s (.atom "Break")
  | .continueLoop s => spanned s (.atom "Continue")
  | .expr s value => spanned s (.group "Expr" [ofExpr value])

def ofStmts : List Stmt → List Dump
  | [] => []
  | s :: ss => ofStmt s :: ofStmts ss

def ofElse : ElseBranch → Dump
  | .absent => .atom "None"
  | .block body => .group "Some" [.group "Block" [.list (ofStmts body)]]
  | .elseIf s => .group "Some" [.group "If" [ofStmt s]]

def ofArmBody : ArmBody → Dump
  | .block body => .group "Block" [.list (ofStmts body)]
  | .expr value => .group "Expr" [ofExpr value]

def ofArm : MatchArm → Dump
  | .mk s pattern body =>
    spanned s (.record "MatchArm" [("pattern", ofPattern pattern), ("body", ofArmBody body)])

def ofArms : List MatchArm → List Dump
  | [] => []
  | a :: as => ofArm a :: ofArms as

end

def ofParam (p : Param) : Dump :=
  spanned p.span (.record "Param"
    [("annotations", ofAnnotations p.annotations), ("name", ofString p.name), ("ty", ofType p.type)])

def ofFunction (d : FunctionDecl) : Dump :=
  .record "FunctionDecl"
    [("annotations", ofAnnotations d.annotations), ("visibility", ofVisibility d.visibility),
     ("name", ofName d.name), ("type_params", ofList ofName d.typeParams),
     ("receiver", ofOption ofSpan d.receiver), ("params", ofList ofParam d.params),
     ("return_type", ofType d.returnType), ("body", .list (ofStmts d.body))]

def ofFieldDecl (f : FieldDecl) : Dump :=
  spanned f.span (.record "FieldDecl"
    [("annotations", ofAnnotations f.annotations), ("visibility", ofOption ofVisibility f.visibility),
     ("name", ofString f.name), ("ty", ofType f.type)])

def ofVariantDecl (v : VariantDecl) : Dump :=
  spanned v.span (.record "VariantDecl"
    [("name", ofString v.name), ("payload", .list (ofTypes v.payload)), ("value", ofOptionExpr v.value)])

def ofDeclaration : Declaration → Dump
  | .function d => .group "Function" [ofFunction d]
  | .struct d =>
    .group "Struct"
      [.record "StructDecl"
        [("annotations", ofAnnotations d.annotations), ("visibility", ofVisibility d.visibility),
         ("name", ofName d.name), ("type_params", ofList ofName d.typeParams),
         ("fields", ofList ofFieldDecl d.fields)]]
  | .enum d =>
    .group "Enum"
      [.record "EnumDecl"
        [("annotations", ofAnnotations d.annotations), ("visibility", ofVisibility d.visibility),
         ("name", ofName d.name), ("type_params", ofList ofName d.typeParams),
         ("variants", ofList ofVariantDecl d.variants)]]
  | .externFunction d =>
    .group "Extern"
      [.record "ExternDecl"
        [("annotations", ofAnnotations d.annotations), ("visibility", ofVisibility d.visibility),
         ("library", ofOption ofString d.library), ("name", ofName d.name),
         ("params", ofList ofParam d.params), ("return_annotations", ofAnnotations d.returnAnnotations),
         ("return_type", ofType d.returnType)]]
  | .const d =>
    .group "Const"
      [.record "ConstDecl"
        [("annotations", ofAnnotations d.annotations), ("visibility", ofVisibility d.visibility),
         ("name", ofName d.name), ("ty", ofType d.type), ("value", ofExpr d.value)]]
  | .impl d =>
    .group "Impl"
      [.record "ImplBlock"
        [("annotations", ofAnnotations d.annotations), ("target", ofName d.target),
         ("methods", ofList (fun m => spanned m.span (ofFunction m.node)) d.methods)]]

def ofImport (i : ImportDecl) : Dump :=
  .record "ImportDecl" [("path", ofString i.path), ("alias", ofOption ofName i.localName)]

def ofProgram (p : Program) : Dump :=
  .record "Program"
    [("package", ofName p.package),
     ("imports", ofList (fun i => spanned i.span (ofImport i.node)) p.imports),
     ("declarations", ofList (fun d => spanned d.span (ofDeclaration d.node)) p.declarations)]

end Dump

end SourceCheck
