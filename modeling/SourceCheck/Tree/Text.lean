import SourceCheck.Tree.Basic

/-!
# Text of tree parts

How types and annotation arguments are shown. The size of a fixed array is left out.
-/

namespace SourceCheck

mutual

def TypeExpr.text : TypeExpr → String
  | .primitive _ p => p.spelling
  | .slice _ elem => "[]" ++ elem.text
  | .array _ elem _ => "[_]" ++ elem.text
  | .pointer _ .mut target => "*mut " ++ target.text
  | .pointer _ .const target => "*const " ++ target.text
  | .result _ ok err => "Result<" ++ ok.text ++ ", " ++ err.text ++ ">"
  | .option _ inner => "Option<" ++ inner.text ++ ">"
  | .taskHandle _ inner => "TaskHandle<" ++ inner.text ++ ">"
  | .tuple _ elems => "(" ++ TypeExpr.listText elems ++ ")"
  | .named _ name [] => name
  | .named _ name (arg :: args) => name ++ "<" ++ TypeExpr.listText (arg :: args) ++ ">"

def TypeExpr.listText : List TypeExpr → String
  | [] => ""
  | [t] => t.text
  | t :: ts => t.text ++ ", " ++ TypeExpr.listText ts

end

namespace AnnotationValue

def text : AnnotationValue → String
  | .str s => "\"" ++ s ++ "\""
  | .ident name => name
  | .int n => toString n
  | .bool b => toString b

def word : AnnotationValue → String
  | .str s => s
  | v => v.text

end AnnotationValue

namespace Annotation

def firstWord? (a : Annotation) : Option String :=
  match a.args with
  | .values (v :: _) => some v.word
  | _ => none

def singleWord? (a : Annotation) : Option String :=
  match a.args with
  | .values [v] => some v.word
  | .named [(_, v)] => some v.word
  | _ => none

def isBare (a : Annotation) : Bool :=
  match a.args with
  | .empty | .values [] | .named [] => true
  | _ => false

def argValues (a : Annotation) : List AnnotationValue :=
  match a.args with
  | .empty => []
  | .values vs => vs
  | .named pairs => pairs.map (·.2)

end Annotation

def Pattern.isIrrefutable : Pattern → Bool
  | .wildcard _ | .binding _ _ _ => true
  | .tuple _ elems => allIrrefutable elems
  | .literal _ _ | .variant _ _ _ _ => false
where
  allIrrefutable : List Pattern → Bool
    | [] => true
    | p :: ps => p.isIrrefutable && allIrrefutable ps

end SourceCheck
