import SourceCheck.Diagnostic.Basic
import SourceCheck.Source.Path
import SourceCheck.Text.Blank

/-!
# Import paths

How a path starts tells what it refers to: the standard library, a remote package, or a module beside the importing
one.
-/

namespace SourceCheck

inductive ImportKind where
  | stdlib
  | remote
  | relative
deriving DecidableEq, Repr

def ImportKind.describe : ImportKind → String
  | .stdlib => "standard library"
  | .remote => "remote"
  | .relative => "relative"

inductive ImportPathProblem where
  | empty
  | whitespace
  | internal
  | bareName
  | unknownRoot
  /-- A host, or the standard library, with nothing behind it. -/
  | missingModule
deriving DecidableEq, Repr

def ImportPathProblem.diagnostic (path : String) (span : Span) : ImportPathProblem → Diagnostic
  | .empty =>
    { kind := .unresolved, message := "Import path is empty", span
      hints := ["Specify a path like \"stdlib/io\""] }
  | .whitespace =>
    { kind := .unresolved, message := s!"Import path '{path}' contains stray whitespace", span
      hints := ["Remove leading, trailing, or repeated spaces"] }
  | .internal =>
    { kind := .unresolved, message := s!"Import path '{path}' refers to an internal runtime package"
      span, hints := ["Internal packages cannot be imported by user code"] }
  | .bareName =>
    { kind := .unresolved, message := s!"Import path '{path}' has no root", span
      hints := [s!"Use \"./{path}\" for a local module or \"stdlib/{path}\" for the standard library"] }
  | .unknownRoot =>
    { kind := .unresolved, message := s!"Import path '{path}' has an unknown root", span
      hints := ["Use \"./\" for local modules, \"stdlib/\" or a host like \"github.com/user/repo\""] }
  | .missingModule =>
    { kind := .unresolved, message := s!"Import path '{path}' names no module", span
      hints := ["Add the module name, e.g. \"stdlib/string\" or \"github.com/user/repository\""] }

def sourceEnding : String := ".asthra"

namespace ImportPath

def stdlibRoot : String := "stdlib/"

def internalRoot : String := "internal/"

def remoteHosts : List String :=
  ["github.com/", "gitlab.com/", "bitbucket.org/", "codeberg.org/", "sr.ht/"]

def startsWith (start text : String) : Bool :=
  start.toList.isPrefixOf text.toList

def hasStrayBlanks (path : String) : Bool :=
  trimBlank path.toList ≠ path.toList || (textBehind? "  " path).isSome

def behindHost? (path : String) : Option String :=
  remoteHosts.findSome? fun host => textBehind? host path

def classify (path : String) : Except ImportPathProblem ImportKind :=
  if path = "" then .error .empty
  else if hasStrayBlanks path then .error .whitespace
  else if startsWith stdlibRoot path then
    if path = stdlibRoot then .error .missingModule else .ok .stdlib
  else if startsWith internalRoot path then .error .internal
  else
    match behindHost? path with
    | some rest => if rest = "" then .error .missingModule else .ok .remote
    | none =>
      if startsWith "./" path || startsWith "../" path then .ok .relative
      else if path.toList.contains '/' then .error .unknownRoot
      else .error .bareName

def step (directory : List String) (part : String) : Option (List String) :=
  if part = "" || part = "." then some directory
  else if part = ".." then
    match directory with
    | [] => none
    | _ => some directory.dropLast
  else some (directory ++ [withoutEnding sourceEnding part])

/-- The module that a relative path names, unless the path leads out of the project. -/
def join (importer path : String) : Option String :=
  let directory := ((segments '/' importer).filter (· ≠ "")).dropLast
  match (segments '/' path).foldlM step directory with
  | some [] => none
  | some parts => some ("/".intercalate parts)
  | none => none

/-- The name an import binds by default: the last part of its path. -/
def defaultBinding (path : String) : String :=
  let body := (path.toList.reverse.dropWhile (· = '/')).reverse
  let last := ((segmentsOf '/' body).getLast?).getD []
  withoutEnding sourceEnding (String.ofList last)

end ImportPath

def moduleName (root file : FilePath) : String :=
  let relative := (root.below? file).getD file
  "/".intercalate (relative.withoutExtension.components.map (·.text))

end SourceCheck
