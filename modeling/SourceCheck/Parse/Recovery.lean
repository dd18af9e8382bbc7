import SourceCheck.Parse.State

/-!
# Recovery

After a problem, reading goes on where a statement, arm, method or declaration can start. Nothing passes the end.
-/

namespace SourceCheck

namespace Recovery

/-- Behind a semicolon, or before a closing brace or a word that starts a statement or declaration. Gives the last
token passed and the rest. -/
def toStatement (previous : Token) : List Token → Token × List Token
  | [] => (previous, [])
  | t :: rest =>
    match t.kind with
    | .eof | .punctuation .rBrace => (previous, t :: rest)
    | .punctuation .semicolon => (t, rest)
    | .keyword k => if k.isSyncPoint then (previous, t :: rest) else toStatement t rest
    | _ => toStatement t rest

/-- Behind a semicolon or the brace that closes a body, or before an annotation, a visibility word, `impl` or
`import`. `depth` counts open braces. -/
def toDeclaration (previous : Token) (depth : Nat) : List Token → Token × List Token
  | [] => (previous, [])
  | t :: rest =>
    match t.kind with
    | .eof => (previous, t :: rest)
    | .punctuation .rBrace => if depth ≤ 1 then (t, rest) else toDeclaration t (depth - 1) rest
    | .punctuation .lBrace => toDeclaration t (depth + 1) rest
    | .punctuation .semicolon => if depth = 0 then (t, rest) else toDeclaration t depth rest
    | .punctuation .hash | .keyword .pubKw | .keyword .privKw | .keyword .implKw
    | .keyword .importKw => if depth = 0 then (previous, t :: rest) else toDeclaration t depth rest
    | _ => toDeclaration t depth rest

/-- To the next method, but never past the brace that closes the block. -/
def toMethod (previous : Token) (depth : Nat) : List Token → Token × List Token
  | [] => (previous, [])
  | t :: rest =>
    match t.kind with
    | .eof => (previous, t :: rest)
    | .punctuation .rBrace =>
      match depth with
      | 0 => (previous, t :: rest)
      | 1 => (t, rest)
      | depth => toMethod t (depth - 1) rest
    | .punctuation .lBrace => toMethod t (depth + 1) rest
    | .punctuation .hash | .keyword .pubKw | .keyword .privKw =>
      if depth = 0 then (previous, t :: rest) else toMethod t depth rest
    | _ => toMethod t depth rest

/-- Behind a comma, or a braced body and the comma after it, but never past the brace that closes the `match`. -/
def toArm (previous : Token) (depth : Nat) : List Token → Token × List Token
  | [] => (previous, [])
  | t :: rest =>
    match t.kind with
    | .eof => (previous, t :: rest)
    | .punctuation .lBrace => toArm t (depth + 1) rest
    | .punctuation .rBrace =>
      match depth with
      | 0 => (previous, t :: rest)
      | 1 =>
        match rest with
        | c :: rest' => if c.kind = .punctuation .comma then (c, rest') else (t, rest)
        | [] => (t, rest)
      | depth => toArm t (depth - 1) rest
    | .punctuation .comma => if depth = 0 then (t, rest) else toArm t depth rest
    | _ => toArm t depth rest

/-- Behind the bracket that closes the first one opened here. -/
def toGroupEnd (previous : Token) (depth : Nat) : List Token → Token × List Token
  | [] => (previous, [])
  | t :: rest =>
    match t.kind with
    | .eof => (previous, t :: rest)
    | .punctuation .lParen | .punctuation .lBracket | .punctuation .lBrace =>
      toGroupEnd t (depth + 1) rest
    | .punctuation .rParen | .punctuation .rBracket | .punctuation .rBrace =>
      match depth with
      | 0 => (previous, t :: rest)
      | 1 => (t, rest)
      | depth => toGroupEnd t (depth - 1) rest
    | _ => toGroupEnd t depth rest

end Recovery

namespace ParseState

def moveTo (s : ParseState) (find : Token → List Token → Token × List Token) : ParseState :=
  let (previous, rest) := find s.previous s.rest
  { s with previous, rest }

def toStatement (s : ParseState) : ParseState :=
  { s with splitAngle := false }.moveTo Recovery.toStatement

def toDeclaration (s : ParseState) : ParseState :=
  { s with splitAngle := false }.moveTo (Recovery.toDeclaration · 0)

def toMethod (s : ParseState) : ParseState :=
  s.moveTo (Recovery.toMethod · 0)

def toArm (s : ParseState) : ParseState :=
  s.moveTo (Recovery.toArm · 0)

def toGroupEnd (s : ParseState) : ParseState :=
  s.moveTo (Recovery.toGroupEnd · 0)

end ParseState

namespace Parser

/-- Run `p` one level deeper. At the limit the group that starts here is passed over, with a failure. -/
def nested {α : Type} (p : Parser α) : Parser α := do
  if nestingLimit ≤ (← read).depth then
    let span ← here
    modify ParseState.toGroupEnd
    failAt span .nestingTooDeep
  else
    withReader (fun c => { c with depth := c.depth + 1 }) p

end Parser

end SourceCheck
