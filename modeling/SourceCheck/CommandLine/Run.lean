import SourceCheck.CommandLine.Arguments
import SourceCheck.Report.Summary

/-!
# Running commands

A command reads its files in order, and stops at the first one that cannot be read.
-/

namespace SourceCheck

inductive ReadFailure where
  | missing
  | notDirectory
  | isDirectory
  | denied
  | other (text : String)
deriving DecidableEq, Repr

def ReadFailure.text : ReadFailure → String
  | .missing => "No such file or directory (os error 2)"
  | .notDirectory => "Not a directory (os error 20)"
  | .isDirectory => "Is a directory (os error 21)"
  | .denied => "Permission denied (os error 13)"
  | .other text => text

inductive InputProblem where
  | unreadable (path : String) (failure : ReadFailure)
  | notText (path : String)
  | tooLarge (path : String) (size : Nat)
deriving DecidableEq, Repr

def InputProblem.message : InputProblem → String
  | .unreadable path failure => s!"cannot read '{path}': {failure.text}"
  | .notText path => s!"cannot read '{path}': stream did not contain valid UTF-8"
  | .tooLarge path size => s!"'{path}' is {size} bytes, over the source size limit"

def sourceLimit : Nat := 100 * 1024 * 1024

def decodeSource (path : String) (bytes : Except ReadFailure ByteArray) : Except InputProblem String :=
  match bytes with
  | .error failure => .error (.unreadable path failure)
  | .ok content =>
    if sourceLimit < content.size then .error (.tooLarge path content.size)
    else
      match String.fromUTF8? content with
      | some text => .ok text
      | none => .error (.notText path)

inductive Output where
  | document (d : Document)
  | lines (texts : List String)

def Output.text : Output → String
  | .document d => d.render ++ "\n"
  | .lines texts => String.join (texts.map (· ++ "\n"))

structure Outcome where
  output : Output
  failed : Bool

def exitCode (failed : Bool) : Nat :=
  if failed then 1 else 0

def OutputFormat.choose (format : OutputFormat) (lines : List String) (document : Document) : Output :=
  match format with
  | .human => .lines lines
  | .json => .document document

section

variable {m : Type → Type} [Monad m] (read : String → m (Except ReadFailure ByteArray))

def readSource (path : String) : m (Except InputProblem String) := do
  return decodeSource path (← read path)

def readSources : List String → m (Except InputProblem (List (String × String)))
  | [] => return .ok []
  | path :: rest => do
    match ← readSource read path with
    | .error problem => return .error problem
    | .ok text =>
      match ← readSources rest with
      | .error problem => return .error problem
      | .ok more => return .ok ((path, text) :: more)

end

def modulesOfFiles (files : List (String × String)) : List SourceModule :=
  let root := FilePath.commonRoot (files.map fun f => .ofText f.1)
  files.map fun (path, source) => { name := moduleName root (.ofText path), fileName := path, source }

def checkOptions (maxErrors : Option Nat) (entry : Option String) : AnalysisOptions :=
  let plain : AnalysisOptions := {}
  { plain with maxErrors := maxErrors.getD plain.maxErrors, entry }

def checkOutcome (options : AnalysisOptions) (format : OutputFormat) (files : List (String × String)) :
    Outcome :=
  let c := compile (modulesOfFiles files) options
  { output := format.choose (c.lines options.maxErrors) c.document, failed := c.hasErrors }

def lexOutcome (format : OutputFormat) (path source : String) : Outcome :=
  let lexed := lex source 0
  { output := format.choose (lexed.lines path) (lexed.document path), failed := !lexed.problems.isEmpty }

def parseOutcome (format : OutputFormat) (path source : String) : Outcome :=
  let parsed := parseSource source 0
  { output := format.choose (parsed.lines path) (parsed.document path)
    failed := !parsed.problems.isEmpty }

def Invocation.run {m : Type → Type} [Monad m] (read : String → m (Except ReadFailure ByteArray))
    (i : Invocation) : m (Except InputProblem Outcome) := do
  match i.task with
  | .check files maxErrors entry =>
    return (← readSources read files).map (checkOutcome (checkOptions maxErrors entry) i.format)
  | .lex file => return (← readSource read file).map (lexOutcome i.format file)
  | .parse file => return (← readSource read file).map (parseOutcome i.format file)

end SourceCheck
