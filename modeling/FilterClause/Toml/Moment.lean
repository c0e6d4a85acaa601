import FilterClause.CalendarDate

/-!
# TOML dates and times

A moment is a day, a time of day, or a day with a time and perhaps an offset from universal time. A
day may be divided from the time by `T`, `t` or a space, seconds may be missing, and a second may
have a fraction of any length, of which nine digits count.

A document that is read gives each moment in one spelling, `Moment.text`: with `T`, with seconds,
without zeros at the end of a fraction, and with `Z` for universal time.
-/

namespace FilterClause.Toml

/-- A day of the calendar. -/
structure Day where
  year : Nat
  month : Nat
  day : Nat
  deriving DecidableEq, Repr

/-- A time of day; the second 60 is a leap second. -/
structure TimeOfDay where
  hour : Nat
  minute : Nat
  second : Nat
  nanosecond : Nat
  deriving DecidableEq, Repr

/-- How far a clock is ahead of universal time. -/
inductive Offset
  | universal
  | ahead (minutes : Int)
  deriving DecidableEq, Repr

/-- A date, a time, or both. -/
inductive Moment
  | day (day : Day)
  | time (time : TimeOfDay)
  | dayTime (day : Day) (time : TimeOfDay) (offset : Option Offset)
  deriving DecidableEq, Repr

/-! ## Reading -/

/-- The calendar day that characters spell, if it exists. -/
def Day.ofChars? (cs : List Char) : Option Day :=
  match CalendarDate.ofChars? cs with
  | some (.day y m d) => if (CalendarDate.day y m d).exists? then some ⟨y, m, d⟩ else none
  | _ => none

/-- The number that two digits spell, up to a bound. -/
def twoDigits? (bound : Nat) (a b : Char) : Option Nat :=
  (CalendarDate.number? [a, b]).filter (· ≤ bound)

/-- The number of digits of a fraction that count. -/
def fractionDigits : Nat := 9

/-- The billionths that the digits of a fraction stand for. -/
def billionths (digits : List Char) : Nat :=
  let counted := digits.take fractionDigits
  (CalendarDate.number? counted).getD 0 * Nat.pow 10 (fractionDigits - counted.length)

/-- The billionths of a fraction at the head of the characters, and what follows it; none where
there is no fraction. -/
def takeFraction : List Char → Nat × List Char
  | '.' :: d :: rest =>
    if d.isDigit then
      (billionths ((d :: rest).takeWhile Char.isDigit), rest.dropWhile Char.isDigit)
    else (0, '.' :: d :: rest)
  | cs => (0, cs)

/-- A time of day at the head of the characters, and what follows it. -/
def takeTime? : List Char → Option (TimeOfDay × List Char)
  | h₁ :: h₂ :: ':' :: m₁ :: m₂ :: ':' :: s₁ :: s₂ :: rest => do
    let hour ← twoDigits? 23 h₁ h₂
    let minute ← twoDigits? 59 m₁ m₂
    let second ← twoDigits? 60 s₁ s₂
    let (nanosecond, after) := takeFraction rest
    return (⟨hour, minute, second, nanosecond⟩, after)
  | h₁ :: h₂ :: ':' :: m₁ :: m₂ :: rest => do
    let hour ← twoDigits? 23 h₁ h₂
    let minute ← twoDigits? 59 m₁ m₂
    return (⟨hour, minute, 0, 0⟩, rest)
  | _ => none

/-- The offset that characters spell. -/
def Offset.ofChars? : List Char → Option Offset
  | ['Z'] | ['z'] => some .universal
  | [sign, a, b, ':', c, d] => do
    let hours ← twoDigits? 23 a b
    let minutes ← twoDigits? 59 c d
    let size : Int := hours * 60 + minutes
    if sign = '+' then some (.ahead size) else if sign = '-' then some (.ahead (-size)) else none
  | _ => none

namespace Moment

/-- The moment of a day with a time of day and what follows that, perhaps an offset. -/
def ofParts? (d : Day) (t : TimeOfDay) : List Char → Option Moment
  | [] => some (.dayTime d t none)
  | after => (Offset.ofChars? after).map fun offset => .dayTime d t (some offset)

/-- The moment that characters spell which begin with a day. -/
def ofDay? (cs : List Char) : Option Moment :=
  match Day.ofChars? (cs.take 10), cs.drop 10 with
  | none, _ => none
  | some d, [] => some (.day d)
  | some d, c :: rest =>
    if c = 'T' || c = 't' || c = ' ' then
      match takeTime? rest with
      | some (t, after) => ofParts? d t after
      | none => none
    else none

/-- The moment that characters spell. -/
def ofChars? (cs : List Char) : Option Moment :=
  match takeTime? cs with
  | some (t, []) => some (.time t)
  | _ => ofDay? cs

end Moment

/-! ## Writing -/

/-- A number with zeros in front, at least `width` digits long. -/
def padded (width n : Nat) : List Char :=
  let digits := Nat.toDigits 10 n
  List.replicate (width - digits.length) '0' ++ digits

/-- The spelling of a day. -/
def Day.chars (d : Day) : List Char :=
  padded 4 d.year ++ '-' :: padded 2 d.month ++ '-' :: padded 2 d.day

/-- The spelling of a fraction of a second, without zeros at its end. -/
def fractionChars (nanosecond : Nat) : List Char :=
  if nanosecond = 0 then []
  else '.' :: ((padded fractionDigits nanosecond).reverse.dropWhile (· = '0')).reverse

/-- The spelling of a time of day. -/
def TimeOfDay.chars (t : TimeOfDay) : List Char :=
  padded 2 t.hour ++ ':' :: padded 2 t.minute ++ ':' :: padded 2 t.second ++
    fractionChars t.nanosecond

/-- The spelling of an offset; an offset of nothing is positive. -/
def Offset.chars : Offset → List Char
  | .universal => ['Z']
  | .ahead minutes =>
    (if minutes < 0 then '-' else '+') :: padded 2 (minutes.natAbs / 60) ++
      ':' :: padded 2 (minutes.natAbs % 60)

/-- The spelling of a moment. -/
def Moment.text : Moment → String
  | .day d => String.ofList d.chars
  | .time t => String.ofList t.chars
  | .dayTime d t offset =>
    String.ofList (d.chars ++ 'T' :: t.chars ++ (offset.map Offset.chars).getD [])

end FilterClause.Toml
