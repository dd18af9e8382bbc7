/-!
# Blank characters

They separate tokens and are never part of one.
-/

namespace SourceCheck

/-- The White_Space property. -/
def isBlank (c : Char) : Bool :=
  let n := c.toNat
  (9 ≤ n && n ≤ 13) || n = 32 || n = 0x85 || n = 0xA0 || n = 0x1680 || (0x2000 ≤ n && n ≤ 0x200A) ||
    n = 0x2028 || n = 0x2029 || n = 0x202F || n = 0x205F || n = 0x3000

/-- The characters of an identifier. -/
def isWordChar (c : Char) : Bool :=
  c.isAlphanum || c = '_'

def isWordStart (c : Char) : Bool :=
  c.isAlpha || c = '_'

def trimBlank (text : List Char) : List Char :=
  ((text.dropWhile isBlank).reverse.dropWhile isBlank).reverse

end SourceCheck
