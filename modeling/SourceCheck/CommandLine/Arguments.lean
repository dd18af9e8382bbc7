/-!
# Arguments

The value of an option is looked at only when the next option or word is reached, so of two faults the later one may
be told.
-/

namespace SourceCheck

/-- Why arguments are refused, or what they ask for instead of a command. -/
inductive UsageProblem where
  | helpWanted
  | versionWanted
  | nothingGiven
  | missingCommand
  | unknownCommand
  | missingFile
  | unknownArgument
  /-- A value is absent, or not one of those that the option has. -/
  | invalidValue
  | malformedNumber
  | repeatedOption
  | valueForSwitch
deriving DecidableEq, Repr

inductive OutputFormat where
  | human
  | json
deriving DecidableEq, Repr

def OutputFormat.ofText? : String → Option OutputFormat
  | "human" => some .human
  | "json" => some .json
  | _ => none

def countBound : Nat := Nat.pow 2 64

def digitsValue? (cs : List Char) : Option Nat :=
  if !cs.isEmpty && cs.all Char.isDigit then
    some (cs.foldl (fun n c => n * 10 + (c.toNat - '0'.toNat)) 0)
  else none

/-- Decimal digits, perhaps behind a plus. -/
def readCount? (text : String) : Option Nat :=
  let digits := match text.toList with
    | '+' :: cs => cs
    | cs => cs
  (digitsValue? digits).filter (· < countBound)

inductive ValueOption where
  | format
  | maxErrors
  | entry
deriving DecidableEq, Repr

inductive Switch where
  | sequential
  | help
  | version
deriving DecidableEq, Repr

structure Settings where
  format : Option OutputFormat := none
  maxErrors : Option Nat := none
  entry : Option String := none
  sequential : Bool := false
  files : List String := []
deriving DecidableEq, Repr

namespace Settings

def has (s : Settings) : ValueOption → Bool
  | .format => s.format.isSome
  | .maxErrors => s.maxErrors.isSome
  | .entry => s.entry.isSome

def assign (s : Settings) (value : String) : ValueOption → Except UsageProblem Settings
  | .format =>
    match OutputFormat.ofText? value with
    | some format => .ok { s with format := some format }
    | none => .error .invalidValue
  | .maxErrors =>
    match readCount? value with
    | some count => .ok { s with maxErrors := some count }
    | none => .error .malformedNumber
  | .entry => .ok { s with entry := some value }

/-- Set an option, once. An absent value is refused before a second one. -/
def setOption (s : Settings) (option : ValueOption) : Option String → Except UsageProblem Settings
  | none => .error .invalidValue
  | some value => if s.has option then .error .repeatedOption else s.assign value option

def turnOn (s : Settings) : Switch → Except UsageProblem Settings
  | .sequential => if s.sequential then .error .repeatedOption else .ok { s with sequential := true }
  | .help => .error .helpWanted
  | .version => .error .versionWanted

/-- Add files. The name of a file is not empty. -/
def addFiles (s : Settings) (names : List String) : Except UsageProblem Settings :=
  if names.any String.isEmpty then .error .invalidValue else .ok { s with files := s.files ++ names }

end Settings

/-! ### Reading arguments -/

inductive CommandName where
  | check
  | lex
  | parse
  | help
deriving DecidableEq, Repr

def CommandName.ofText? : String → Option CommandName
  | "check" => some .check
  | "lex" => some .lex
  | "parse" => some .parse
  | "help" => some .help
  | _ => none

/-- Whether an argument stands before or behind the name of a command. -/
inductive Level where
  | top
  | files
  | file
deriving DecidableEq, Repr

namespace Level

def option? (level : Level) (name : String) : Option ValueOption :=
  match name with
  | "format" => some .format
  | "max-errors" => if level = .files then some .maxErrors else none
  | "entry" => if level = .files then some .entry else none
  | _ => none

def switch? (level : Level) (name : String) : Option Switch :=
  match name with
  | "help" => some .help
  | "version" => if level = .top then some .version else none
  | "sequential" => if level = .files then some .sequential else none
  | _ => none

def letter? (level : Level) (c : Char) : Option Switch :=
  match c with
  | 'h' => some .help
  | 'V' => if level = .top then some .version else none
  | _ => none

end Level

inductive Argument where
  | wordsFollow
  /-- An option by name, with the value behind an equals sign. -/
  | long (name : String) (value : Option String)
  | short (letter : Char)
  | word (text : String)
deriving DecidableEq, Repr

def Argument.splitValue (cs : List Char) : Argument :=
  match cs.dropWhile (· ≠ '=') with
  | [] => .long (String.ofList cs) none
  | _ :: value => .long (String.ofList (cs.takeWhile (· ≠ '='))) (some (String.ofList value))

def Argument.ofText (text : String) : Argument :=
  match text.toList with
  | ['-', '-'] => .wordsFollow
  | '-' :: '-' :: cs => .splitValue cs
  | '-' :: c :: _ => .short c
  | _ => .word text

inductive Pending where
  | nothing
  | option (o : ValueOption) (value : Option String)
  | words (texts : List String)
deriving DecidableEq, Repr

structure Progress where
  settings : Settings := {}
  pending : Pending := .nothing
  wordsOnly : Bool := false
deriving DecidableEq, Repr

namespace Progress

def isWaiting (p : Progress) : Bool :=
  match p.pending with
  | .option _ none => true
  | _ => false

def settle (p : Progress) : Except UsageProblem Progress := do
  match p.pending with
  | .nothing => return p
  | .option o value => return { p with settings := ← p.settings.setOption o value, pending := .nothing }
  | .words texts => return { p with settings := ← p.settings.addFiles texts, pending := .nothing }

def settleThen (p : Progress) (f : Settings → Except UsageProblem Settings) :
    Except UsageProblem Progress := do
  let q ← p.settle
  return { q with settings := ← f q.settings }

def readLong (level : Level) (p : Progress) (name : String) (value : Option String) :
    Except UsageProblem Progress :=
  match level.option? name with
  | some o =>
    match value with
    | some v => p.settleThen fun s => s.setOption o (some v)
    | none => do return { (← p.settle) with pending := .option o none }
  | none =>
    match level.switch? name with
    | some switch =>
      match value with
      | some _ => .error .valueForSwitch
      | none => p.settleThen fun s => s.turnOn switch
    | none => .error .unknownArgument

def readShort (level : Level) (p : Progress) (letter : Char) : Except UsageProblem Progress :=
  match level.letter? letter with
  | some switch => p.settleThen fun s => s.turnOn switch
  | none => .error .unknownArgument

/-- One file more than the command takes is an unknown argument. -/
def addWord (level : Level) (p : Progress) (text : String) : Except UsageProblem Progress :=
  match level with
  | .top =>
    if p.wordsOnly && (CommandName.ofText? text).isSome then .error .unknownArgument
    else .error .unknownCommand
  | .files =>
    match p.pending with
    | .words texts => .ok { p with pending := .words (texts ++ [text]) }
    | _ => do return { (← p.settle) with pending := .words [text] }
  | .file =>
    match p.pending with
    | .words _ => .error .unknownArgument
    | _ =>
      if p.settings.files.isEmpty then do return { (← p.settle) with pending := .words [text] }
      else .error .unknownArgument

/-- The value that an option waits for, or the name of a file. -/
def readWord (level : Level) (p : Progress) (text : String) : Except UsageProblem Progress :=
  match p.pending with
  | .option o none => .ok { p with pending := .option o (some text) }
  | _ => p.addWord level text

def step (level : Level) (p : Progress) (text : String) : Except UsageProblem Progress :=
  if p.wordsOnly then p.addWord level text
  else
    match Argument.ofText text with
    | .wordsFollow => .ok { p with wordsOnly := true }
    | .long name value => p.readLong level name value
    | .short letter => p.readShort level letter
    | .word word => p.readWord level word

def command? (p : Progress) (text : String) : Option CommandName :=
  if p.wordsOnly || p.isWaiting then none else CommandName.ofText? text

end Progress

def readBehind (level : Level) (p : Progress) : List String → Except UsageProblem Settings
  | [] => do
    let q ← p.settle
    if q.settings.files.isEmpty then .error .missingFile else .ok q.settings
  | text :: rest => do
    let q ← p.step level text
    readBehind level q rest

inductive Task where
  | check (files : List String) (maxErrors : Option Nat) (entry : Option String)
  | lex (file : String)
  | parse (file : String)
deriving DecidableEq, Repr

structure Invocation where
  task : Task
  format : OutputFormat
deriving DecidableEq, Repr

def helpProblem : List String → UsageProblem
  | [] => .helpWanted
  | [name] => if (CommandName.ofText? name).isSome then .helpWanted else .unknownCommand
  | _ => .unknownCommand

def readCommand (name : CommandName) (rest : List String) : Except UsageProblem (Task × Option OutputFormat) :=
  match name with
  | .check => do
    let s ← readBehind .files {} rest
    return (.check s.files s.maxErrors s.entry, s.format)
  | .lex => do
    let s ← readBehind .file {} rest
    return (.lex (s.files.headD ""), s.format)
  | .parse => do
    let s ← readBehind .file {} rest
    return (.parse (s.files.headD ""), s.format)
  | .help => .error (helpProblem rest)

/-- What stands before the name of a command is looked at last. A format behind the name wins. -/
def readFrom (p : Progress) : List String → Except UsageProblem Invocation
  | [] => do
    let q ← p.settle
    .error (if q.settings.format.isNone then .nothingGiven else .missingCommand)
  | text :: rest =>
    match p.command? text with
    | some name => do
      let (task, format) ← readCommand name rest
      let q ← p.settle
      return { task, format := (format.or q.settings.format).getD .human }
    | none => do
      let q ← p.step .top text
      readFrom q rest

def readArguments (args : List String) : Except UsageProblem Invocation :=
  readFrom {} args

end SourceCheck
