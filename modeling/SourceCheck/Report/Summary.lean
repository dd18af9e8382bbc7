import SourceCheck.Dump.Tree
import SourceCheck.Module.Compilation

/-!
# Reports

What is found out about tokens, trees and modules, as a document for tools and as lines for a reader.
-/

namespace SourceCheck

inductive Document where
  | bool (value : Bool)
  | number (value : Nat)
  | text (value : String)
  | list (items : List Document)
  | object (members : List (String × Document))

namespace Document

def texts (values : List String) : Document :=
  .list (values.map .text)

def escapeControl (c : Char) : String :=
  let digits := hexDigits c.toNat
  "\\u" ++ String.ofList (List.replicate (4 - digits.length) '0' ++ digits)

def escape (c : Char) : String :=
  match c with
  | '"' => "\\\""
  | '\\' => "\\\\"
  | '\n' => "\\n"
  | '\r' => "\\r"
  | '\t' => "\\t"
  | '\x08' => "\\b"
  | '\x0c' => "\\f"
  | _ => if c.toNat < 32 then escapeControl c else String.ofList [c]

def quote (s : String) : String :=
  "\"" ++ String.join (s.toList.map escape) ++ "\""

def indent : String := "  "

mutual

def written (pad : String) : Document → String
  | .bool value => toString value
  | .number value => toString value
  | .text value => quote value
  | .list [] => "[]"
  | .list (d :: ds) => "[\n" ++ writtenItems (pad ++ indent) (d :: ds) ++ "\n" ++ pad ++ "]"
  | .object [] => "\x7b\x7d"
  | .object (m :: ms) =>
    "\x7b\n" ++ writtenMembers (pad ++ indent) (m :: ms) ++ "\n" ++ pad ++ "\x7d"

def writtenItems (pad : String) : List Document → String
  | [] => ""
  | [d] => pad ++ d.written pad
  | d :: ds => pad ++ d.written pad ++ ",\n" ++ writtenItems pad ds

def writtenMembers (pad : String) : List (String × Document) → String
  | [] => ""
  | [(name, d)] => pad ++ quote name ++ ": " ++ d.written pad
  | (name, d) :: rest => pad ++ quote name ++ ": " ++ d.written pad ++ ",\n" ++ writtenMembers pad rest

end

def render (d : Document) : String :=
  d.written ""

end Document

/-! ### Summaries -/

def Document.textsIfAny (name : String) (values : List String) : List (String × Document) :=
  if values.isEmpty then [] else [(name, .texts values)]

namespace Diagnostic

def document (fileName : String) (d : Diagnostic) : Document :=
  .object
    ([("file", .text fileName), ("line", .number d.span.line), ("col", .number d.span.col),
      ("start", .number d.span.start), ("end", .number d.span.stop),
      ("severity", .text d.severity.describe), ("code", .text d.kind.code), ("message", .text d.message)] ++
      Document.textsIfAny "notes" d.notes ++ Document.textsIfAny "hints" d.hints)

def lines (fileName : String) (d : Diagnostic) : List String :=
  [s!"{d.severity.describe}: {d.headline}", s!"  --> {fileName}:{d.span.line}:{d.span.col}"] ++
    d.hints.map (fun hint => s!"  help: {hint}") ++ d.notes.map (fun note => s!"  note: {note}")

end Diagnostic

namespace Lexed

def diagnostics (l : Lexed) : List Diagnostic :=
  l.problems.map fun r => r.cause.diagnostic r.span

def document (fileName : String) (l : Lexed) : Document :=
  .object
    [("tokens", .list (l.tokens.map fun t => .object
       [("line", .number t.span.line), ("col", .number t.span.col),
        ("kind", .text (Dump.ofTokenKind t.kind).compact), ("lexeme", .text t.lexeme)])),
     ("diagnostics", .list (l.diagnostics.map (·.document fileName)))]

/-- A line for each token, then what is wrong. -/
def lines (fileName : String) (l : Lexed) : List String :=
  (l.tokens.map fun t =>
    s!"{t.span.line}:{t.span.col}\t{(Dump.ofTokenKind t.kind).compact}\t{t.lexeme}") ++
    l.diagnostics.flatMap (·.lines fileName)

end Lexed

namespace Parsed

def document (fileName : String) (p : Parsed) : Document :=
  .object
    [("package", .text p.program.package.node),
     ("imports", .texts (p.program.imports.map (·.node.path))),
     ("declarations", .list (p.program.declarations.map fun d => .object
       [("kind", .text d.node.sort), ("name", .text d.node.name.node), ("line", .number d.span.line)])),
     ("diagnostics", .list (p.problems.map (·.document fileName)))]

/-- All of the tree, then what is wrong. -/
def lines (fileName : String) (p : Parsed) : List String :=
  (Dump.ofProgram p.program).text :: p.problems.flatMap (·.lines fileName)

end Parsed

namespace Compilation

def suppressed (c : Compilation) (i : Nat) : Nat :=
  ((c.analyzed? i).map (·.suppressed)).getD 0

def moduleDocument (c : Compilation) (m : ParsedModule) (i : Nat) : Document :=
  .object
    [("name", .text m.name), ("file", .text m.fileName), ("analysed", .bool (c.analyzed? i).isSome),
     ("suppressed", .number (c.suppressed i))]

def document (c : Compilation) : Document :=
  .object
    [("modules", .list (c.modules.zipIdx.map fun (m, i) => c.moduleDocument m i)),
     ("diagnostics", .list (c.modules.zipIdx.flatMap fun (m, i) =>
       (c.moduleDiagnostics i).map (·.document m.fileName))),
     ("error_count", .number c.errorCount)]

/-- What is wrong, and how much more there is. -/
def moduleLines (c : Compilation) (maxErrors : Nat) (m : ParsedModule) (i : Nat) : List String :=
  (c.moduleDiagnostics i).flatMap (·.lines m.fileName) ++
    if c.suppressed i = 0 then []
    else [s!"note: {c.suppressed i} more error(s) in '{m.name}' not shown (limit {maxErrors})"]

def verdict (c : Compilation) : String :=
  if c.errorCount = 0 then s!"✓ {c.modules.length} module(s) checked"
  else s!"{c.errorCount} error(s) in {c.modules.length} module(s)"

def lines (c : Compilation) (maxErrors : Nat) : List String :=
  c.modules.zipIdx.flatMap (fun (m, i) => c.moduleLines maxErrors m i) ++ [c.verdict]

end Compilation

end SourceCheck
