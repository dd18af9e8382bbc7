import SourceCheck.Source.Span

/-!
# Diagnostics

What a reader is told about one problem. Each phase has causes of its own; `Report` pairs a cause with its place.
-/

namespace SourceCheck

inductive ProblemKind where
  | lexical
  | grammar
  | importCycle
  | duplicateDeclaration
  | visibility
  | mutability
  | typeMismatch
  | arity
  | exhaustiveness
  | annotationConflict
  | constEval
  | unresolved
deriving DecidableEq, Repr

namespace ProblemKind

def all : List ProblemKind :=
  [.lexical, .grammar, .importCycle, .duplicateDeclaration, .visibility, .mutability, .typeMismatch,
   .arity, .exhaustiveness, .annotationConflict, .constEval, .unresolved]

def code : ProblemKind → String
  | .lexical => "asthra::lexical"
  | .grammar => "asthra::syntax"
  | .importCycle => "asthra::import_cycle"
  | .duplicateDeclaration => "asthra::duplicate_declaration"
  | .visibility => "asthra::visibility"
  | .mutability => "asthra::mutability"
  | .typeMismatch => "asthra::type_mismatch"
  | .arity => "asthra::arity"
  | .exhaustiveness => "asthra::exhaustiveness"
  | .annotationConflict => "asthra::annotation_conflict"
  | .constEval => "asthra::const_eval"
  | .unresolved => "asthra::unresolved"

def describe : ProblemKind → String
  | .lexical => "lexical error"
  | .grammar => "syntax error"
  | .importCycle => "import cycle"
  | .duplicateDeclaration => "duplicate declaration"
  | .visibility => "visibility error"
  | .mutability => "mutability error"
  | .typeMismatch => "type error"
  | .arity => "arity error"
  | .exhaustiveness => "exhaustiveness error"
  | .annotationConflict => "annotation error"
  | .constEval => "const evaluation error"
  | .unresolved => "unresolved name"

def ofCode? (text : String) : Option ProblemKind :=
  all.find? (·.code = text)

end ProblemKind

inductive Severity where
  | error
  | warning
deriving DecidableEq, Repr

def Severity.describe : Severity → String
  | .error => "error"
  | .warning => "warning"

structure Diagnostic where
  kind : ProblemKind
  message : String
  span : Span
  severity : Severity := .error
  notes : List String := []
  hints : List String := []
deriving DecidableEq, Repr

namespace Diagnostic

def isError (d : Diagnostic) : Bool :=
  d.severity = .error

def headline (d : Diagnostic) : String :=
  s!"{d.kind.describe}: {d.message}"

def nestingPhrase : String := "Nesting too deep"

def isNestingTooDeep (d : Diagnostic) : Bool :=
  d.kind = .grammar && d.message.startsWith nestingPhrase

/-- The hints, one a line, then the notes, each marked as one. -/
def help (d : Diagnostic) : String :=
  d.notes.foldl
    (fun text note => (if text.isEmpty then text else text ++ "\n") ++ "note: " ++ note)
    ("\n".intercalate d.hints)

structure Label where
  offset : Nat
  length : Nat
  text : String
deriving DecidableEq, Repr

def label (d : Diagnostic) : Label :=
  ⟨d.span.start, d.span.length, d.kind.describe⟩

end Diagnostic

structure Report (α : Type) where
  cause : α
  span : Span
deriving DecidableEq, Repr

end SourceCheck
