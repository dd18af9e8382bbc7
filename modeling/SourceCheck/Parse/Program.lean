import SourceCheck.Parse.Declaration
import SourceCheck.Token.Stream

/-!
# Reading modules

A package line, then imports, then declarations. What cannot be read is reported and left out.
-/

namespace SourceCheck

/-- A program as far as it can be read, and what is wrong with it. -/
structure Parsed where
  program : Program
  problems : List Diagnostic

namespace Parser

def packageLine : Parser Name := do
  if !(← acceptKeyword .packageKw) then
    fail (.missingPackage (← peekKind).describe)
  let package ← name
  discard <| expectMark .semicolon "';' after package name"
  return package

def package : Parser Name := do
  match ← attempt packageLine with
  | .ok package => return package
  | .error e =>
    let span ← here
    modify fun s => (s.report e).toDeclaration
    return ⟨"", span⟩

def stringLiteral : Parser String := do
  match ← peekKind with
  | .string value _ =>
    discard advance
    return value
  | _ => expected "string literal"

def importName : Parser (Option Name) := do
  if ← acceptKeyword .asKw then return some (← name) else return none

def importDecl : Parser (Spanned ImportDecl) := do
  let start ← expectKeyword .importKw "'import'"
  let path ← stringLiteral
  let localName ← importName
  discard <| expectMark .semicolon "';' after import"
  return ⟨{ path, localName }, ← since start⟩

def program : Parser Program := do
  let package ← package
  let imports ← recovering (return !(← atKeyword .importKw)) importDecl ParseState.toDeclaration
  let declarations ← recovering atEnd declaration ParseState.toDeclaration
  return { package, imports, declarations }

end Parser

def finishOf (tokens : List Token) : Token :=
  match tokens.getLast? with
  | some last => Token.endOf last.span.file last.span.stop
  | none => Token.endOf 0 0

def parse (tokens : List Token) : Parsed :=
  let finish := finishOf tokens
  match Parser.program { finish } { rest := tokens, previous := finish } with
  | (.ok program, s) => ⟨program, s.problems.map fun r => r.cause.diagnostic r.span⟩
  | (.error e, s) =>
    ⟨⟨⟨"", finish.span⟩, [], []⟩, (s.problems ++ [e]).map fun r => r.cause.diagnostic r.span⟩

/-- What is wrong with the tokens comes first. -/
def parseSource (source : String) (file : Nat := 0) : Parsed :=
  let lexed := lex source file
  let parsed := parse lexed.tokens
  { parsed with
    problems := (lexed.problems.map fun r => r.cause.diagnostic r.span) ++ parsed.problems }

end SourceCheck
