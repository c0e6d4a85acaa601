import FilterClause.Text.Basic
import FilterClause.Toml.Moment
import FilterClause.Toml.Node

/-!
# TOML scalars

The values of TOML that are written without quotes or brackets: booleans, integers, floating-point
numbers, dates and times. Settings use no booleans and no numbers, so these are only recognised.
-/

namespace FilterClause.Toml

/-! ## Numbers -/

/-- Digits of some kind, with single underscores allowed between them. -/
def isGrouped (isDigit : Char → Bool) : List Char → Bool
  | [] => false
  | [c] => isDigit c
  | c :: '_' :: rest => isDigit c && isGrouped isDigit rest
  | c :: rest => isDigit c && isGrouped isDigit rest

/-- Decimal digits, grouped or not, that have a leading zero only in the number zero. -/
def isDecimal (cs : List Char) : Bool :=
  isGrouped Char.isDigit cs && (cs.head? ≠ some '0' || cs.length = 1)

/-- The number that grouped digits spell to a base. -/
def groupedNumber (base : Nat) (cs : List Char) : Nat :=
  cs.foldl (fun n c => if c = '_' then n else base * n + (Text.hexDigit? c).getD 0) 0

/-- Characters without a sign in front, and whether the sign was a minus. -/
def dropSign : List Char → Bool × List Char
  | '-' :: rest => (true, rest)
  | '+' :: rest => (false, rest)
  | cs => (false, cs)

/-- An integer has to fit into 128 bits. -/
def isInRange (negative : Bool) (n : Nat) : Bool :=
  if negative then n ≤ Nat.pow 2 127 else n < Nat.pow 2 128

/-- An integer with a base other than ten. -/
def isBasedInteger : List Char → Bool
  | '0' :: 'x' :: rest =>
    isGrouped (fun c => (Text.hexDigit? c).isSome) rest && isInRange false (groupedNumber 16 rest)
  | '0' :: 'o' :: rest =>
    isGrouped (fun c => '0' ≤ c && c ≤ '7') rest && isInRange false (groupedNumber 8 rest)
  | '0' :: 'b' :: rest =>
    isGrouped (fun c => c = '0' || c = '1') rest && isInRange false (groupedNumber 2 rest)
  | _ => false

/-- A decimal integer, with or without a sign. -/
def isInteger (cs : List Char) : Bool :=
  let (negative, digits) := dropSign cs
  isDecimal digits && isInRange negative (groupedNumber 10 digits)

/-- The characters of grouped decimal digits. -/
def isDigitOrUnderscore (c : Char) : Bool :=
  c.isDigit || c = '_'

/-- The least number too great to be rounded to a finite number of 64 bits. -/
def floatBound : Nat :=
  Nat.pow 2 1024 - Nat.pow 2 970

/-- The number `mantissa · 10 ^ exponent` is below the bound of finite numbers. Numbers whose count
of digits puts them far from the bound are not computed. -/
def isFiniteFloat (mantissa : Nat) (exponent : Int) : Bool :=
  let digits : Int := (Nat.toDigits 10 mantissa).length
  if mantissa = 0 then true
  else if digits + exponent < 300 then true
  else if digits + exponent > 320 then false
  else if 0 ≤ exponent then mantissa * Nat.pow 10 exponent.toNat < floatBound
  else mantissa < floatBound * Nat.pow 10 (-exponent).toNat

/-- An exponent with its sign, as the value of the digits after `e`. -/
def exponent? (cs : List Char) : Option Int :=
  let (negative, digits) := dropSign cs
  if isGrouped Char.isDigit digits then
    let n : Int := groupedNumber 10 digits
    some (if negative then -n else n)
  else none

/-- The rest of a floating-point number after its fraction. -/
def isFloatEnd (mantissa fraction : List Char) : List Char → Bool
  | [] => isFiniteFloat (groupedNumber 10 (mantissa ++ fraction))
      (-((fraction.filter Char.isDigit).length : Int))
  | c :: rest =>
    (c = 'e' || c = 'E') &&
      match exponent? rest with
      | none => false
      | some e => isFiniteFloat (groupedNumber 10 (mantissa ++ fraction))
          (e - ((fraction.filter Char.isDigit).length : Int))

/-- A floating-point number: digits with a fraction, an exponent or both, or one of the special
numbers. -/
def isFloat (cs : List Char) : Bool :=
  let (_, cs) := dropSign cs
  let whole := cs.takeWhile isDigitOrUnderscore
  if cs = ['i', 'n', 'f'] ∨ cs = ['n', 'a', 'n'] then true
  else if !isDecimal whole then false
  else
    match cs.dropWhile isDigitOrUnderscore with
    | [] => false
    | '.' :: rest =>
      let fraction := rest.takeWhile isDigitOrUnderscore
      isGrouped Char.isDigit fraction &&
        isFloatEnd whole fraction (rest.dropWhile isDigitOrUnderscore)
    | rest => isFloatEnd whole [] rest

/-! ## Reading -/

/-- A number or a boolean. -/
def isPlain (cs : List Char) : Bool :=
  cs = "true".toList || cs = "false".toList || isInteger cs || isBasedInteger cs || isFloat cs

/-- The value that the characters of a scalar stand for. -/
def scalar? (cs : List Char) : Option Node :=
  match Moment.ofChars? cs with
  | some moment => some (.moment moment)
  | none => if isPlain cs then some .other else none

/-- The characters that end a scalar. -/
def endsScalar (c : Char) : Bool :=
  c = ' ' || c = '\t' || c = '\n' || c = '\r' || c = ',' || c = ']' || c = '\x7d' || c = '#'

/-- A scalar at the head of the characters, and what follows it. A space is part of it between a day
and a time. -/
def takeScalar? (cs : List Char) : Option (Node × List Char) :=
  let token := cs.takeWhile (!endsScalar ·)
  match Day.ofChars? token, cs.dropWhile (!endsScalar ·) with
  | some day, ' ' :: d :: rest =>
    if d.isDigit then
      (scalar? (token ++ ' ' :: d :: rest.takeWhile (!endsScalar ·))).map fun node =>
        (node, rest.dropWhile (!endsScalar ·))
    else some (.moment (.day day), ' ' :: d :: rest)
  | _, after => (scalar? token).map fun node => (node, after)

end FilterClause.Toml
