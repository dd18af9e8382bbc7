/-!
# Reserved words

The order of `Keyword.all` is the order in which the words are listed.
-/

namespace SourceCheck

inductive Keyword where
  | packageKw
  | importKw
  | asKw
  | pubKw
  | privKw
  | fnKw
  | structKw
  | enumKw
  | externKw
  | implKw
  | constKw
  | letKw
  | mutKw
  | selfKw
  | ifKw
  | elseKw
  | forKw
  | inKw
  | returnKw
  | matchKw
  | breakKw
  | continueKw
  | unsafeKw
  | spawnKw
  | spawnWithHandleKw
  | awaitKw
  | sizeofKw
  | trueKw
  | falseKw
  | noneKw
  | resultKw
  | optionKw
  | taskHandleKw
deriving DecidableEq, Repr, Inhabited

namespace Keyword

/-- The part of the language a reserved word belongs to. -/
inductive Category where
  | module
  | declaration
  | binding
  | controlFlow
  | concurrency
  | expression
  | literal
  | type
deriving DecidableEq, Repr

inductive Usage where
  | declaration
  | statement
  | expression
  | modifier
  | type
  | marker
deriving DecidableEq, Repr

def all : List Keyword :=
  [.packageKw, .importKw, .asKw, .pubKw, .privKw, .fnKw, .structKw, .enumKw, .externKw,
   .implKw, .constKw, .letKw, .mutKw, .selfKw, .ifKw, .elseKw, .forKw, .inKw, .returnKw,
   .matchKw, .breakKw, .continueKw, .unsafeKw, .spawnKw, .spawnWithHandleKw, .awaitKw,
   .sizeofKw, .trueKw, .falseKw, .noneKw, .resultKw, .optionKw, .taskHandleKw]

def spelling : Keyword → String
  | .packageKw => "package"
  | .importKw => "import"
  | .asKw => "as"
  | .pubKw => "pub"
  | .privKw => "priv"
  | .fnKw => "fn"
  | .structKw => "struct"
  | .enumKw => "enum"
  | .externKw => "extern"
  | .implKw => "impl"
  | .constKw => "const"
  | .letKw => "let"
  | .mutKw => "mut"
  | .selfKw => "self"
  | .ifKw => "if"
  | .elseKw => "else"
  | .forKw => "for"
  | .inKw => "in"
  | .returnKw => "return"
  | .matchKw => "match"
  | .breakKw => "break"
  | .continueKw => "continue"
  | .unsafeKw => "unsafe"
  | .spawnKw => "spawn"
  | .spawnWithHandleKw => "spawn_with_handle"
  | .awaitKw => "await"
  | .sizeofKw => "sizeof"
  | .trueKw => "true"
  | .falseKw => "false"
  | .noneKw => "none"
  | .resultKw => "Result"
  | .optionKw => "Option"
  | .taskHandleKw => "TaskHandle"

def tag : Keyword → String
  | .packageKw => "Package"
  | .importKw => "Import"
  | .asKw => "As"
  | .pubKw => "Pub"
  | .privKw => "Priv"
  | .fnKw => "Fn"
  | .structKw => "Struct"
  | .enumKw => "Enum"
  | .externKw => "Extern"
  | .implKw => "Impl"
  | .constKw => "Const"
  | .letKw => "Let"
  | .mutKw => "Mut"
  | .selfKw => "SelfKw"
  | .ifKw => "If"
  | .elseKw => "Else"
  | .forKw => "For"
  | .inKw => "In"
  | .returnKw => "Return"
  | .matchKw => "Match"
  | .breakKw => "Break"
  | .continueKw => "Continue"
  | .unsafeKw => "Unsafe"
  | .spawnKw => "Spawn"
  | .spawnWithHandleKw => "SpawnWithHandle"
  | .awaitKw => "Await"
  | .sizeofKw => "Sizeof"
  | .trueKw => "True"
  | .falseKw => "False"
  | .noneKw => "None"
  | .resultKw => "Result"
  | .optionKw => "Option"
  | .taskHandleKw => "TaskHandle"

def category : Keyword → Category
  | .packageKw | .importKw | .asKw => .module
  | .pubKw | .privKw | .fnKw | .structKw | .enumKw | .externKw | .implKw | .constKw => .declaration
  | .letKw | .mutKw | .selfKw => .binding
  | .ifKw | .elseKw | .forKw | .inKw | .returnKw | .matchKw | .breakKw | .continueKw
  | .unsafeKw => .controlFlow
  | .spawnKw | .spawnWithHandleKw | .awaitKw => .concurrency
  | .sizeofKw => .expression
  | .trueKw | .falseKw | .noneKw => .literal
  | .resultKw | .optionKw | .taskHandleKw => .type

def usage : Keyword → Usage
  | .packageKw | .importKw | .fnKw | .structKw | .enumKw | .externKw | .implKw | .constKw => .declaration
  | .asKw | .pubKw | .privKw | .mutKw | .elseKw | .inKw => .modifier
  | .letKw | .ifKw | .forKw | .returnKw | .matchKw | .breakKw | .continueKw | .unsafeKw
  | .spawnKw | .spawnWithHandleKw => .statement
  | .selfKw | .awaitKw | .sizeofKw | .trueKw | .falseKw => .expression
  | .noneKw => .marker
  | .resultKw | .optionKw | .taskHandleKw => .type

/-- Words that recovery after a syntax error may stop in front of. -/
def isSyncPoint (k : Keyword) : Bool :=
  k.usage = .declaration || k.usage = .statement || k = .pubKw || k = .privKw

def ofText? (text : String) : Option Keyword :=
  all.find? (·.spelling = text)

end Keyword

end SourceCheck
