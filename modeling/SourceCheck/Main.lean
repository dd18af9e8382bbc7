import SourceCheck.CommandLine.Run

/-!
# The command line

`check FILES…` checks modules, `lex FILE` shows tokens and `parse FILE` shows a tree.
-/

namespace SourceCheck

def helpText : String :=
  "\n".intercalate
    ["Front end of the Asthra programming language compiler",
     "",
     "Usage: asthra [--format human|json] <COMMAND>",
     "",
     "Commands:",
     "  check [--max-errors N] [--sequential] [--entry MODULE] <FILES>...",
     "  lex <FILE>",
     "  parse <FILE>",
     "  help [COMMAND]"]

def versionText : String := "asthra 0.1.0-alpha.1"

def UsageProblem.message : UsageProblem → String
  | .helpWanted | .nothingGiven => helpText
  | .versionWanted => versionText
  | .missingCommand => "error: a command is needed"
  | .unknownCommand => "error: there is no such command"
  | .missingFile => "error: a file is needed"
  | .unknownArgument => "error: an argument is not known"
  | .invalidValue => "error: an option needs another value"
  | .malformedNumber => "error: the limit of errors is no number"
  | .repeatedOption => "error: an option is given twice"
  | .valueForSwitch => "error: a switch takes no value"

def UsageProblem.isRequest : UsageProblem → Bool
  | .helpWanted | .versionWanted => true
  | _ => false

def readBytes (path : String) : IO (Except ReadFailure ByteArray) := do
  try
    return .ok (← IO.FS.readBinFile path)
  catch e =>
    match e with
    | .noFileOrDirectory .. => return .error .missing
    | .permissionDenied .. => return .error .denied
    | .inappropriateType .. => return .error .isDirectory
    | _ => return .error (.other (toString e))

end SourceCheck

open SourceCheck in
def main (args : List String) : IO UInt32 := do
  match readArguments args with
  | .error problem =>
    if problem.isRequest then
      IO.println problem.message
      return 0
    else
      IO.eprintln problem.message
      return 2
  | .ok invocation =>
    match ← invocation.run readBytes with
    | .error problem =>
      IO.eprintln s!"error: {problem.message}"
      return 1
    | .ok outcome =>
      IO.print outcome.output.text
      return (exitCode outcome.failed).toUInt32
