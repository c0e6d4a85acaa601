/-!
# Calendar dates

The dates that a filter may name: a year, a month of a year, or a day, written `YYYY`, `YYYY-MM` and
`YYYY-MM-DD` in ASCII digits. A month or day that is written has to exist in the Gregorian calendar,
extended backwards to the year 0.
-/

namespace FilterClause

/-- A year, a month of it, or a day of that month. -/
inductive CalendarDate
  | year (year : Nat)
  | month (year month : Nat)
  | day (year month day : Nat)
  deriving DecidableEq, Repr

namespace CalendarDate

/-! ## The calendar -/

/-- Every fourth year is a leap year, except the centuries that 400 does not divide. -/
def isLeapYear (year : Nat) : Bool :=
  year % 4 = 0 && (year % 100 ≠ 0 || year % 400 = 0)

/-- The number of days of a month, and none for a number that is no month. -/
def daysIn (year : Nat) : Nat → Nat
  | 1 | 3 | 5 | 7 | 8 | 10 | 12 => 31
  | 4 | 6 | 9 | 11 => 30
  | 2 => if isLeapYear year then 29 else 28
  | _ => 0

/-- A date exists when its month is one of twelve and its day one of that month. -/
def exists? : CalendarDate → Bool
  | .year _ => true
  | .month _ m => 1 ≤ m && m ≤ 12
  | .day y m d => 1 ≤ d && d ≤ daysIn y m

/-! ## Reading -/

/-- The value of an ASCII digit. -/
def digit? (c : Char) : Option Nat :=
  if c.isDigit then some (c.toNat - '0'.toNat) else none

/-- The number that ASCII digits spell. -/
def number? (cs : List Char) : Option Nat :=
  cs.foldlM (fun n c => (digit? c).map (10 * n + ·)) 0

/-- The date that characters spell, whether it exists or not. -/
def ofChars? : List Char → Option CalendarDate
  | [y₁, y₂, y₃, y₄] => do
    return .year (← number? [y₁, y₂, y₃, y₄])
  | [y₁, y₂, y₃, y₄, '-', m₁, m₂] => do
    return .month (← number? [y₁, y₂, y₃, y₄]) (← number? [m₁, m₂])
  | [y₁, y₂, y₃, y₄, '-', m₁, m₂, '-', d₁, d₂] => do
    return .day (← number? [y₁, y₂, y₃, y₄]) (← number? [m₁, m₂]) (← number? [d₁, d₂])
  | _ => none

/-- The existing date that a text spells. -/
def parse? (s : String) : Option CalendarDate :=
  (ofChars? s.toList).filter exists?

/-- A text is a date when it spells an existing one. -/
def isDate (s : String) : Bool :=
  (parse? s).isSome

end CalendarDate

end FilterClause
