import SourceCheck.Diagnostic.Basic

/-!
# Grammar problems

What can be wrong with the order of tokens, and how it is told.
-/

namespace SourceCheck

def nestingLimit : Nat := 128

inductive GrammarProblem where
  | expected (what found : String)
  /-- The name of an associated function without its arguments. -/
  | expectedArguments (found : String)
  | missingPackage (found : String)
  | lateImport
  | missingVisibility
  | atSignForm (name : String)
  | emptyWithoutNone (what : String)
  | voidParameters
  | voidArguments
  | selfOutsideMethod
  | selfNotFirst
  | constrainedTypeParameter
  | emptyPayload (variant : String)
  | externBody
  | unitType
  | shortTupleType
  | floatPattern
  | pathPattern (head : String)
  | untypedBinding (name : String)
  | bareReturn
  | repeatedPrefix (op : String)
  | badTupleIndex (text : String)
  | noneAsValue
  | nestingTooDeep
deriving DecidableEq, Repr

namespace GrammarProblem

def diagnostic (span : Span) : GrammarProblem → Diagnostic
  | .expected what found =>
    { kind := .grammar, message := s!"Expected {what}, found {found}", span }
  | .expectedArguments found =>
    { kind := .grammar, message := s!"Expected '(' after associated function name, found {found}", span
      hints := ["Enum variants use '.', e.g. Color.Red"] }
  | .missingPackage found =>
    { kind := .grammar, message := s!"Expected 'package' declaration, found {found}", span
      hints := ["Every file starts with: package name;"] }
  | .lateImport =>
    { kind := .grammar, message := "Imports must appear before declarations", span
      hints := ["Move this import directly below the package declaration"] }
  | .missingVisibility =>
    { kind := .grammar, message := "Missing visibility modifier", span
      hints := ["Add 'pub' or 'priv' before the declaration"] }
  | .atSignForm name =>
    { kind := .grammar, message := s!"'@{name}' is not a valid annotation", span
      hints := [s!"Use '#[{name}]' annotation syntax"] }
  | .emptyWithoutNone what =>
    { kind := .grammar, message := s!"Empty {what} must be written as 'none'", span
      hints := [s!"Use 'none' for empty {what}"] }
  | .voidParameters =>
    { kind := .grammar, message := "'void' is not a parameter list", span
      hints := ["Use 'none' for empty parameter lists"] }
  | .voidArguments =>
    { kind := .grammar, message := "'void' is not an argument list", span
      hints := ["Use 'none' for empty argument lists"] }
  | .selfOutsideMethod =>
    { kind := .grammar, message := "'self' parameter is only allowed in methods", span }
  | .selfNotFirst =>
    { kind := .grammar, message := "'self' must be the first parameter", span }
  | .constrainedTypeParameter =>
    { kind := .grammar, message := "Type parameter constraints are not supported", span
      notes := ["Generic parameters are unconstrained; write '<T>'"] }
  | .emptyPayload variant =>
    { kind := .grammar, message := "Empty variant payload", span
      hints := [s!"Write the variant without parentheses: {variant}"] }
  | .externBody =>
    { kind := .grammar, message := "Extern functions cannot have a body", span
      hints := ["End the declaration with ';'"] }
  | .unitType =>
    { kind := .grammar, message := "'()' is not a type", span
      hints := ["Use 'void' for the empty type"] }
  | .shortTupleType =>
    { kind := .grammar, message := "Tuple types need at least two elements", span
      hints := ["Remove the parentheses for a single type"] }
  | .floatPattern =>
    { kind := .grammar, message := "Float literals cannot be used as patterns", span }
  | .pathPattern head =>
    { kind := .grammar, message := s!"'{head}::' is not valid in a pattern", span
      hints := ["Use '.' instead of '::' for enum variants"] }
  | .untypedBinding name =>
    { kind := .grammar, message := s!"Missing type annotation for '{name}'", span
      hints := [s!"Add a type annotation: let {name}: Type = value;"] }
  | .bareReturn =>
    { kind := .grammar, message := "'return' requires a value", span
      hints := ["Use 'return ();' to return from a void function"] }
  | .repeatedPrefix op =>
    { kind := .grammar, message := s!"Repeated prefix operator '{op}' is not allowed", span
      notes := ["A unary expression takes at most one logical and one pointer prefix"]
      hints := ["Use parentheses if the nesting is intentional"] }
  | .badTupleIndex text =>
    { kind := .grammar, message := s!"Invalid tuple index '{text}'", span }
  | .noneAsValue =>
    { kind := .grammar, message := "'none' is not a value", span
      notes :=
        ["'none' only marks an intentionally empty list (parameters, bodies, arrays, arguments)"] }
  | .nestingTooDeep =>
    { kind := .grammar, message := s!"{Diagnostic.nestingPhrase} (limit is {nestingLimit} levels)", span
      hints := ["Split the expression or block into named helpers"] }

end GrammarProblem

end SourceCheck
