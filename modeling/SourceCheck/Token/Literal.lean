import SourceCheck.Token.Piece

/-!
# Literals

Integers are decimal, or hexadecimal, binary or octal after a base mark. A number that runs on into letters is one
mistake up to the next blank. A regular string ends on its line. One between triple quotes may span lines; a raw one
takes backslashes as they stand. An escape that stands for nothing is reported and leaves no character.
-/

namespace SourceCheck

def digitValue (c : Char) : Nat :=
  if c.isDigit then c.toNat - '0'.toNat
  else if 'a' ≤ c ∧ c ≤ 'f' then c.toNat - 'a'.toNat + 10
  else c.toNat - 'A'.toNat + 10

def isDigitOf (radix : Nat) (c : Char) : Bool :=
  (c.isDigit || ('a' ≤ c && c ≤ 'f') || ('A' ≤ c && c ≤ 'F')) && digitValue c < radix

def digitsValue (radix : Nat) (digits : List Char) : Nat :=
  digits.foldl (fun n d => n * radix + digitValue d) 0

def intLimit : Nat := Nat.pow 2 128

namespace Piece

/-- The text is the base mark with its leading zero. -/
def prefixedInt (base : IntBase) (text : List Char) (cs : List Char) : Piece :=
  let n := run isWordChar cs
  let digits := cs.take n
  let text := String.ofList (text ++ digits)
  if digits.isEmpty then
    bad (.missingDigits base.describe text) (1 + n + untilBlank (cs.drop n))
  else if !digits.all (isDigitOf base.radix) then
    bad (.invalidNumber base.describe text) (1 + n + untilBlank (cs.drop n))
  else
    let value := digitsValue base.radix digits
    if value < intLimit then token (.int value base) (1 + n)
    else bad (.numberTooLarge base.describe text) (1 + n)

/-- A number over `first` and `extent` more characters, if no letter or digit follows. -/
def endNumber (kind : String) (first : Char) (cs : List Char) (extent : Nat) (piece : Piece) : Piece :=
  match cs.drop extent with
  | c :: rest =>
    if isWordChar c then
      let extent := extent + untilBlank (c :: rest)
      bad (.invalidNumber kind (String.ofList (first :: cs.take extent))) extent
    else piece
  | [] => piece

def floatOf (whole fraction : List Char) : TokenKind :=
  .float (Float.ofScientific (digitsValue 10 (whole ++ fraction)) true fraction.length)

def decimal (first : Char) (cs : List Char) : Piece :=
  let n := run Char.isDigit cs
  let whole := first :: cs.take n
  let integer : Piece :=
    let value := digitsValue 10 whole
    if value < intLimit then token (.int value .decimal) n
    else bad (.numberTooLarge "integer" (String.ofList whole)) n
  match cs.drop n with
  | '.' :: rest =>
    match rest with
    | d :: _ =>
      if d.isDigit then
        let m := run Char.isDigit rest
        let extent := n + 1 + m
        endNumber "float" first cs extent (token (floatOf whole (rest.take m)) extent)
      else if d = '.' || isWordStart d then endNumber "integer" first cs n integer
      else endNumber "float" first cs (n + 1) (token (floatOf whole []) (n + 1))
    | [] => token (floatOf whole []) (n + 1)
  | _ => endNumber "integer" first cs n integer

def number (first : Char) (cs : List Char) : Piece :=
  match first, cs with
  | '0', 'x' :: rest => prefixedInt .hex ['0', 'x'] rest
  | '0', 'X' :: rest => prefixedInt .hex ['0', 'X'] rest
  | '0', 'b' :: rest => prefixedInt .binary ['0', 'b'] rest
  | '0', 'B' :: rest => prefixedInt .binary ['0', 'B'] rest
  | '0', 'o' :: rest => prefixedInt .octal ['0', 'o'] rest
  | _, _ => decimal first cs

def fraction (cs : List Char) : Piece :=
  let n := run Char.isDigit cs
  endNumber "float" '.' cs n (token (floatOf [] (cs.take n)) n)

end Piece

/-! ### Strings and characters -/

def unescape? : Char → Option Char
  | 'n' => some '\n'
  | 't' => some '\t'
  | 'r' => some '\r'
  | '\\' => some '\\'
  | '"' => some '"'
  | '\'' => some '\''
  | '0' => some '\x00'
  | _ => none

/-- The inside of a string, with the quotes that end it. -/
structure StringBody where
  size : Nat
  value : List Char
  badEscapes : List (Nat × Char)
  closed : Bool

namespace StringBody

def finish (size : Nat) (closed : Bool) : StringBody :=
  ⟨size, [], [], closed⟩

def push (c : Char) (body : StringBody) : StringBody :=
  { body with value := c :: body.value, size := body.size + 1 }

/-- One more escape in front, at character `position` of the string. -/
def pushEscape (position : Nat) (c : Char) (body : StringBody) : StringBody :=
  match unescape? c with
  | some v => { body with value := v :: body.value, size := body.size + 2 }
  | none => { body with badEscapes := (position, c) :: body.badEscapes, size := body.size + 2 }

def ofLine (position : Nat) : List Char → StringBody
  | [] => finish 0 false
  | '\n' :: _ => finish 0 false
  | '"' :: _ => finish 1 true
  | ['\\'] => finish 1 false
  | '\\' :: c :: cs => pushEscape position c (ofLine (position + 2) cs)
  | c :: cs => push c (ofLine (position + 1) cs)

/-- The rest of a triple-quoted string with escapes from `position` on. -/
def ofBlock (position : Nat) : List Char → StringBody
  | [] => finish 0 false
  | '"' :: '"' :: '"' :: _ => finish 3 true
  | ['\\'] => finish 1 false
  | '\\' :: c :: cs => pushEscape position c (ofBlock (position + 2) cs)
  | c :: cs => push c (ofBlock (position + 1) cs)

def ofRaw : List Char → StringBody
  | [] => finish 0 false
  | '"' :: '"' :: '"' :: _ => finish 3 true
  | c :: cs => push c (ofRaw cs)

/-- The string with this body, after `opening` characters beyond the first. -/
def piece (body : StringBody) (form : StringForm) (opening : Nat) : Piece :=
  { extent := opening + body.size
    kind := if body.closed then some (.string (String.ofList body.value) form) else none
    badEscapes := body.badEscapes
    problem := if body.closed then none else some .unterminatedString }

end StringBody

namespace Piece

def string : List Char → Piece
  | '"' :: '"' :: cs => (StringBody.ofBlock 3 cs).piece .processed 2
  | cs => (StringBody.ofLine 1 cs).piece .regular 0

def rawString (cs : List Char) : Piece :=
  (StringBody.ofRaw cs).piece .raw 3

def untilQuote : List Char → Nat
  | [] => 0
  | '\n' :: _ => 0
  | '\'' :: _ => 1
  | _ :: cs => untilQuote cs + 1

/-- The end of a character literal that has used `size` characters. -/
def endChar (value : Option Char) (badEscapes : List (Nat × Char)) (size : Nat) : List Char → Piece
  | '\'' :: _ => { extent := size + 1, kind := value.map .char, badEscapes }
  | cs => { extent := size + untilQuote cs, badEscapes, problem := some .longChar }

def char : List Char → Piece
  | [] => bad .unterminatedChar 0
  | '\n' :: _ => bad .unterminatedChar 0
  | '\'' :: _ => bad .emptyChar 1
  | ['\\'] => bad .unterminatedChar 1
  | '\\' :: c :: cs =>
    match unescape? c with
    | some v => endChar (some v) [] 2 cs
    | none => endChar none [(1, c)] 2 cs
  | c :: cs => endChar (some c) [] 1 cs

end Piece

end SourceCheck
