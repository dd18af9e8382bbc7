import SourceCheck.Analysis.State
import SourceCheck.Tree.Node
import SourceCheck.Tree.Text

/-!
# Annotations

Only the names that the language knows are checked; two of them also say something about the code they stand on.
-/

namespace SourceCheck

def knownAnnotations (list : List Annotation) : List (Directive × Annotation) :=
  list.filterMap fun a => (Directive.ofText? a.name).map fun d => (d, a)

def hasDirective (d : Directive) (list : List Annotation) : Bool :=
  list.any fun a => Directive.ofText? a.name = some d

def findDirective? (d : Directive) (list : List Annotation) : Option Annotation :=
  list.find? fun a => Directive.ofText? a.name = some d

def ownershipMode? (list : List Annotation) : Option String :=
  (findDirective? .ownership list).bind (·.singleWord?)

/-! ### Placement and arguments -/

def conflictProblem (category : Directive.Category) (first second : Annotation) : SemanticProblem :=
  match category with
  | .ownership =>
    .conflictingOwnership (first.singleWord?.getD first.name) (second.singleWord?.getD second.name)
  | _ => .conflictingTransfers first.name second.name

/-- The conflict within a category, at the second of its two annotations. -/
def conflict? (known : List (Directive × Annotation)) (category : Directive.Category) :
    Option (Report SemanticProblem) :=
  match known.filter (·.1.category = category) with
  | (_, first) :: (_, second) :: _ => some ⟨conflictProblem category first second, second.span⟩
  | _ => none

def argumentProblems (d : Directive) (a : Annotation) : List SemanticProblem :=
  match d.arguments with
  | .flag => if a.isBare then [] else [.directiveTakesNothing a.name]
  | .oneOf words =>
    if a.singleWord?.any words.contains then [] else [.directiveArgument a.name words]
  | .any => []

def borrowProblems (d : Directive) : Option Ty → List SemanticProblem
  | none | some (.pointer ..) | some .unknown => []
  | some t => if d = .borrowed then [.borrowedNonPointer t] else []

def directiveProblems (target : Directive.Target) (type : Option Ty) (d : Directive) (a : Annotation) :
    List SemanticProblem :=
  if d.allowedOn target then argumentProblems d a ++ borrowProblems d type
  else if d = .borrowed && target = .externReturn then [.borrowedReturn]
  else [.misplacedDirective a.name target]

/-- Categories of which a target may have one directive, in the order of their reports. -/
def exclusiveCategories : List Directive.Category := [.ffiTransfer, .ownership]

/-- The members of a conflict are not looked at further. -/
def annotationProblems (list : List Annotation) (target : Directive.Target) (type : Option Ty) :
    List (Report SemanticProblem) :=
  let known := knownAnnotations list
  let conflicting := exclusiveCategories.filter fun c => (conflict? known c).isSome
  exclusiveCategories.filterMap (conflict? known) ++
    (known.filter fun k => !conflicting.contains k.1.category).flatMap fun (d, a) =>
      (directiveProblems target type d a).map fun p => ⟨p, a.span⟩

def checkAnnotations (list : List Annotation) (target : Directive.Target) (type : Option Ty := none) :
    Check Unit :=
  (annotationProblems list target type).forM fun r => Check.report r.cause r.span

/-! ### Constant time -/

def Expr.isNumeral : Expr → Bool
  | .literal _ (.int _) | .literal _ (.float _) => true
  | .paren _ inner => inner.isNumeral
  | _ => false

def Stmt.variableTime? : Stmt → Option VariableTime
  | .ifThen .. => some .ifThen
  | .ifLet .. => some .ifLet
  | .matchOn .. => some .matchOn
  | .forIn .. => some .forIn
  | _ => none

def Expr.variableTime? : Expr → Option VariableTime
  | .binary _ _ .div rhs => if rhs.isNumeral then none else some .division
  | .binary _ _ .mod rhs => if rhs.isNumeral then none else some .modulo
  | .index _ _ i => if i.isNumeral then none else some .index
  | _ => none

def Node.variableTime? : Node → Option (Report SemanticProblem)
  | .stmt s => s.variableTime?.map fun c => ⟨.variableTime c, s.span⟩
  | .expr e => e.variableTime?.map fun c => ⟨.variableTime c, e.span⟩
  | _ => none

/-- Nothing inside a branch or loop is looked at. -/
def variableTimeProblems (body : List Stmt) : List (Report SemanticProblem) :=
  (Stmt.listNodes (·.variableTime?.isNone) body).filterMap Node.variableTime?

def checkConstantTime (list : List Annotation) (body : List Stmt) : Check Unit :=
  if hasDirective .constantTime list then
    (variableTimeProblems body).forM fun r => Check.report r.cause r.span
  else pure ()

/-! ### Ownership of bindings -/

def Expr.allocates : Expr → Bool
  | .literal _ (.string _) => true
  | .paren _ inner => inner.allocates
  | .call .. | .assocCall .. | .dotted .. | .dottedCall .. | .structLit .. | .tuple .. | .array ..
  | .arrayRepeat .. | .slice .. | .await .. => true
  | .literal .. | .ident .. | .selfRef .. | .binary .. | .unary .. | .field .. | .tupleIndex ..
  | .index .. | .sizeof .. => false

def checkOwnership (list : List Annotation) (name : String) (value : Expr) : Check Unit :=
  match findDirective? .ownership list with
  | some a => Check.reportIf (!value.allocates) (.nothingAllocated name) a.span
  | none => pure ()

end SourceCheck
