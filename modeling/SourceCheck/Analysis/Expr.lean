import SourceCheck.Analysis.Dotted
import SourceCheck.Analysis.Operators

/-!
# Expressions

The type of every part is noted; the name of a function and the pair of a receiver and a method are no parts in this
sense.
-/

namespace SourceCheck

mutual

def checkExpr : Expr → Option Ty → Check Ty
  | .literal span value, expected => recorded span (checkLiteral span value expected)
  | .ident span name, _ => recorded span (checkName span name)
  | .selfRef span, _ => recorded span (checkSelf span)
  | .binary span lhs op rhs, expected =>
    recorded span (checkBinary span ⟨lhs, checkExpr lhs⟩ op ⟨rhs, checkExpr rhs⟩ expected)
  | .unary span logical pointer operand, expected =>
    recorded span (checkUnary span logical pointer ⟨operand, checkExpr operand⟩ expected)
  | .call span (.ident nameSpan name) args, expected =>
    recorded span (checkNamedCall span ⟨name, nameSpan⟩ (operands args) expected)
  | .call span (.field _ receiver method) args, expected =>
    recorded span do
      let t ← checkExpr receiver none
      checkMethodCall span t method (operands args) expected
  | .call span callee args, _ =>
    recorded span (checkValueCall ⟨callee, checkExpr callee⟩ (operands args))
  | .assocCall span typeName typeArgs function args, expected =>
    recorded span (checkAssociatedCall span typeName typeArgs function (operands args) expected)
  | .dotted span head member, expected =>
    recorded span (checkDotted span head member none expected)
  | .dottedCall span head member args, expected =>
    recorded span (checkDotted span head member (some (operands args)) expected)
  | .field span base name, _ =>
    recorded span do
      let t ← checkExpr base none
      fieldType t name
  | .tupleIndex span base index, _ =>
    recorded span (checkTupleIndex span ⟨base, checkExpr base⟩ index)
  | .index span base index, _ =>
    recorded span (checkIndex ⟨base, checkExpr base⟩ ⟨index, checkExpr index⟩)
  | .slice span base start stop, _ =>
    recorded span (checkSlice ⟨base, checkExpr base⟩ (optionOperand start ++ optionOperand stop))
  | .structLit span name typeArgs fields, expected =>
    recorded span (checkStructLiteral span name typeArgs (fieldOperands fields) expected)
  | .tuple span elems, expected => recorded span (checkTuple span (operands elems) expected)
  | .array span elems, expected => recorded span (checkArray (operands elems) expected)
  | .arrayRepeat span value count, expected =>
    recorded span (checkRepeat ⟨value, checkExpr value⟩ count expected)
  | .paren span inner, expected => recorded span (checkExpr inner expected)
  | .sizeof span type, _ =>
    recorded span do
      let _ ← resolveType type
      return .usize
  | .await span handle, _ => recorded span (checkAwait ⟨handle, checkExpr handle⟩)

def operands : List Expr → List Operand
  | [] => []
  | e :: es => ⟨e, checkExpr e⟩ :: operands es

def optionOperand : Option Expr → List Operand
  | none => []
  | some e => [⟨e, checkExpr e⟩]

def fieldOperand : FieldInit → FieldOperand
  | .mk name value => ⟨name, ⟨value, checkExpr value⟩⟩

def fieldOperands : List FieldInit → List FieldOperand
  | [] => []
  | f :: fs => fieldOperand f :: fieldOperands fs

end

end SourceCheck
