import SourceCheck.Text.Shown

/-!
# Quoted text

`escapeAscii` keeps only printable ASCII; `quoteString` and `quoteChar` also keep every other character that is shown
as itself, between quotes.
-/

namespace SourceCheck

/-- The hexadecimal digits of `n`, in lower case and without leading zeros. -/
def hexDigits (n : Nat) : List Char :=
  Nat.toDigits 16 n

def escapeCode (c : Char) : List Char :=
  ['\\', 'u', '\x7b'] ++ hexDigits c.toNat ++ ['\x7d']

/-- Printable ASCII, with a backslash before quotes and the backslash; tab and line ends by letter; everything else by
code point. -/
def escapeAscii (c : Char) : String :=
  match c with
  | '\t' => "\\t"
  | '\n' => "\\n"
  | '\r' => "\\r"
  | '\'' => "\\'"
  | '"' => "\\\""
  | '\\' => "\\\\"
  | c =>
    if 0x20 ≤ c.toNat ∧ c.toNat < 0x7F then String.ofList [c] else String.ofList (escapeCode c)

/-- Only the enclosing quote is escaped, the other one is kept. -/
def escapeInside (quote c : Char) : List Char :=
  match c with
  | '\x00' => ['\\', '0']
  | '\t' => ['\\', 't']
  | '\n' => ['\\', 'n']
  | '\r' => ['\\', 'r']
  | '\\' => ['\\', '\\']
  | c =>
    if c = quote then ['\\', c]
    else if c = '"' ∨ c = '\'' ∨ isShown c then [c]
    else escapeCode c

def quoteString (text : String) : String :=
  String.ofList (['"'] ++ text.toList.flatMap (escapeInside '"') ++ ['"'])

def quoteChar (c : Char) : String :=
  String.ofList (['\''] ++ escapeInside '\'' c ++ ['\''])

end SourceCheck
