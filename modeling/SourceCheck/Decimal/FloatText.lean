/-!
# Text of floating-point numbers

The reals that round to a double form an interval. Its shortest decimal is the one with the fewest digits there, of
those the nearest, of two such the larger. Values are written in positional notation, dumps with a fractional part,
and with an exponent if very large or small. All arithmetic is exact.
-/

namespace SourceCheck

structure Decimal where
  digits : Nat
  exponent : Int
deriving DecidableEq, Repr

/-- A finite positive double: `mantissa * 2 ^ exponent`. -/
structure Binary where
  mantissa : Nat
  exponent : Int
deriving DecidableEq, Repr

namespace Binary

def ofFloat (x : Float) : Binary :=
  let bits : Nat := x.toBits.toNat
  let fraction : Nat := bits % Nat.pow 2 52
  let biased : Nat := bits / Nat.pow 2 52 % Nat.pow 2 11
  if biased = 0 then ⟨fraction, -1074⟩ else ⟨fraction + Nat.pow 2 52, (biased : Int) - 1075⟩

structure Ratio where
  num : Nat
  den : Nat

def ratio (n : Nat) (q k : Int) : Ratio :=
  ⟨n * Nat.pow 2 q.toNat * Nat.pow 10 k.toNat, Nat.pow 2 (-q).toNat * Nat.pow 10 (-k).toNat⟩

/-- Twice the reach of rounding below a value, in quarters of a unit in the last place: half as wide just above a
power of two. -/
def low (b : Binary) : Nat :=
  if b.mantissa = Nat.pow 2 52 ∧ b.exponent ≠ -1074 then 4 * b.mantissa - 1 else 4 * b.mantissa - 2

def high (b : Binary) : Nat :=
  4 * b.mantissa + 2

/-- Whether `d * 10 ^ k` rounds to the value. The ends of the interval do if the mantissa is even. -/
def rounds (b : Binary) (d : Nat) (k : Int) : Bool :=
  let lowEnd := ratio b.low (b.exponent - 2) (-k)
  let highEnd := ratio b.high (b.exponent - 2) (-k)
  let closed := b.mantissa % 2 = 0
  (lowEnd.num < d * lowEnd.den || closed && lowEnd.num = d * lowEnd.den) &&
    (d * highEnd.den < highEnd.num || closed && d * highEnd.den = highEnd.num)

def magnitude (b : Binary) : Int :=
  let r := ratio b.mantissa b.exponent 0
  if r.den ≤ r.num then
    ((Nat.toDigits 10 (r.num / r.den)).length : Int) - 1
  else
    let j := (Nat.toDigits 10 (r.den / r.num)).length - 1
    if r.num * Nat.pow 10 j = r.den then -(j : Int) else -(j : Int) - 1

/-- The nearest decimal with `n` digits that rounds to the value. A tie goes up. -/
def withDigits? (b : Binary) (n : Nat) : Option Decimal :=
  let k := b.magnitude + 1 - n
  let r := ratio b.mantissa b.exponent (-k)
  let below := r.num / r.den
  let above := below + 1
  match b.rounds below k, b.rounds above k with
  | true, true =>
    if (r.num - below * r.den) * 2 < r.den then some ⟨below, k⟩ else some ⟨above, k⟩
  | true, false => some ⟨below, k⟩
  | false, true => some ⟨above, k⟩
  | false, false => none

/-- Seventeen digits always suffice. -/
def shortest (b : Binary) : Decimal :=
  ((List.range 17).findSome? fun n => b.withDigits? (n + 1)).getD ⟨0, 0⟩

end Binary

/-! ### Text -/

structure FloatFormat where
  minFraction : Nat
  /-- Whether to write an exponent, given that of the leading digit. -/
  scientific : Int → Bool

namespace FloatFormat

/-- Values: always positional, and whole numbers without a point. -/
def value : FloatFormat := ⟨0, fun _ => false⟩

/-- At least one fractional digit, and an exponent from `1e16` up and below `1e-4`. -/
def dump : FloatFormat := ⟨1, fun e => 16 ≤ e || e < -4⟩

def significant (d : Decimal) : List Char × Int :=
  let digits := Nat.toDigits 10 d.digits
  let trimmed := (digits.reverse.dropWhile (· = '0')).reverse
  (trimmed, d.exponent + digits.length - 1)

/-- Positional notation of `digits` whose first has exponent `lead`. -/
def positional (minFraction : Nat) (digits : List Char) (lead : Int) : List Char :=
  let whole :=
    if lead < 0 then ['0']
    else
      let n := lead.toNat + 1
      digits.take n ++ List.replicate (n - digits.length) '0'
  let fraction :=
    if lead < 0 then List.replicate (-lead - 1).toNat '0' ++ digits
    else digits.drop (lead.toNat + 1)
  let fraction := fraction ++ List.replicate (minFraction - fraction.length) '0'
  if fraction.isEmpty then whole else whole ++ '.' :: fraction

/-- Scientific notation of `digits` whose first has exponent `lead`. -/
def exponential (digits : List Char) (lead : Int) : List Char :=
  let mark := 'e' :: (toString lead).toList
  match digits with
  | d :: rest@(_ :: _) => d :: '.' :: rest ++ mark
  | ds => ds ++ mark

def write (format : FloatFormat) (x : Float) : String :=
  if x.isNaN then "NaN"
  else
    let negative := Nat.pow 2 63 ≤ x.toBits.toNat
    let body : List Char :=
      if x.isInf then ['i', 'n', 'f']
      else if x.toBits.toNat % Nat.pow 2 63 = 0 then positional format.minFraction ['0'] 0
      else
        let (digits, lead) := significant (Binary.ofFloat x).shortest
        if format.scientific lead then exponential digits lead
        else positional format.minFraction digits lead
    String.ofList (if negative then '-' :: body else body)

end FloatFormat

end SourceCheck
