import FilterClause.Operand
import Mathlib.Tactic.IntervalCases

/-!
# Which texts are dates

A text is a date when its characters are those of a year, a month or a day (`IsSpelled`) and the
calendar has it (`IsReal`); any other text is refused as it is given (`dateOperand_isDate`).

The two halves are independent. `ofChars?_eq_some_iff` says what is read, `exists?_iff` that the days of
a month are counted as the standard library's Gregorian calendar counts them. There a day is a
`Std.Time.PlainDate`, which cannot be built for a day that its month lacks.
-/

namespace FilterClause

namespace CalendarDate

/-! ## Digits -/

/-- The characters are ASCII digits, as many as the width says, and spell the number. -/
structure IsNumeral (width n : ℕ) (cs : List Char) : Prop where
  length : cs.length = width
  digit : ∀ c ∈ cs, '0' ≤ c ∧ c ≤ '9'
  value : Nat.ofDigitChars 10 cs 0 = n

theorem isDigit_iff {c : Char} : c.isDigit = true ↔ '0' ≤ c ∧ c ≤ '9' := by
  simp [Char.isDigit, Char.le_def]

/-- Characters are read from the left, and all of them have to be digits. -/
theorem foldlM_digit?_eq_some_iff {cs : List Char} {start n : ℕ} :
    cs.foldlM (fun n c => (digit? c).map (10 * n + ·)) start = some n ↔
      (∀ c ∈ cs, '0' ≤ c ∧ c ≤ '9') ∧ Nat.ofDigitChars 10 cs start = n := by
  induction cs generalizing start with
  | nil => simp
  | cons c cs ih =>
    rw [List.foldlM_cons, Nat.ofDigitChars_cons, List.forall_mem_cons, ← isDigit_iff, digit?]
    cases c.isDigit with
    | false => simp
    | true => simpa using ih

theorem number?_eq_some_iff {cs : List Char} {n : ℕ} :
    number? cs = some n ↔ IsNumeral cs.length n cs := by
  rw [number?, foldlM_digit?_eq_some_iff]
  exact ⟨fun h => ⟨rfl, h.1, h.2⟩, fun h => ⟨h.digit, h.value⟩⟩

/-! ## Reading -/

/-- The characters of a date: four digits of the year, two of the month and two of the day, with a
hyphen in front of what follows the year. -/
inductive IsSpelled : CalendarDate → List Char → Prop
  | year {y : ℕ} {ys : List Char} (hy : IsNumeral 4 y ys) : IsSpelled (.year y) ys
  | month {y m : ℕ} {ys ms : List Char} (hy : IsNumeral 4 y ys) (hm : IsNumeral 2 m ms) :
      IsSpelled (.month y m) (ys ++ '-' :: ms)
  | day {y m d : ℕ} {ys ms ds : List Char} (hy : IsNumeral 4 y ys) (hm : IsNumeral 2 m ms)
      (hd : IsNumeral 2 d ds) : IsSpelled (.day y m d) (ys ++ '-' :: ms ++ '-' :: ds)

theorem IsNumeral.exists_two {n : ℕ} {cs : List Char} (h : IsNumeral 2 n cs) :
    ∃ c₁ c₂, cs = [c₁, c₂] ∧ number? [c₁, c₂] = some n := by
  match cs, h with
  | [c₁, c₂], h => exact ⟨c₁, c₂, rfl, number?_eq_some_iff.2 h⟩

theorem IsNumeral.exists_four {n : ℕ} {cs : List Char} (h : IsNumeral 4 n cs) :
    ∃ c₁ c₂ c₃ c₄, cs = [c₁, c₂, c₃, c₄] ∧ number? [c₁, c₂, c₃, c₄] = some n := by
  match cs, h with
  | [c₁, c₂, c₃, c₄], h => exact ⟨c₁, c₂, c₃, c₄, rfl, number?_eq_some_iff.2 h⟩

/-- A date is read from its own characters and from no others. -/
theorem ofChars?_eq_some_iff {cs : List Char} {date : CalendarDate} :
    ofChars? cs = some date ↔ date.IsSpelled cs := by
  constructor
  · intro h
    unfold ofChars? at h
    split at h
    · obtain ⟨y, hy, hdate⟩ := Option.bind_eq_some_iff.1 h
      cases hdate
      exact .year (number?_eq_some_iff.1 hy)
    · obtain ⟨y, hy, h⟩ := Option.bind_eq_some_iff.1 h
      obtain ⟨m, hm, hdate⟩ := Option.bind_eq_some_iff.1 h
      cases hdate
      exact .month (number?_eq_some_iff.1 hy) (number?_eq_some_iff.1 hm)
    · obtain ⟨y, hy, h⟩ := Option.bind_eq_some_iff.1 h
      obtain ⟨m, hm, h⟩ := Option.bind_eq_some_iff.1 h
      obtain ⟨d, hd, hdate⟩ := Option.bind_eq_some_iff.1 h
      cases hdate
      exact .day (number?_eq_some_iff.1 hy) (number?_eq_some_iff.1 hm) (number?_eq_some_iff.1 hd)
    · cases h
  · intro h
    cases h with
    | year hy =>
      obtain ⟨_, _, _, _, rfl, hyear⟩ := hy.exists_four
      simp [ofChars?, hyear]
    | month hy hm =>
      obtain ⟨_, _, _, _, rfl, hyear⟩ := hy.exists_four
      obtain ⟨_, _, rfl, hmonth⟩ := hm.exists_two
      simp [ofChars?, hyear, hmonth]
    | day hy hm hd =>
      obtain ⟨_, _, _, _, rfl, hyear⟩ := hy.exists_four
      obtain ⟨_, _, rfl, hmonth⟩ := hm.exists_two
      obtain ⟨_, _, rfl, hday⟩ := hd.exists_two
      simp [ofChars?, hyear, hmonth, hday]

/-! ## The calendar -/

/-- The calendar has the date: every year, the months 1 to 12, and the days of the Gregorian
calendar. -/
def IsReal : CalendarDate → Prop
  | .year _ => True
  | .month _ m => 1 ≤ m ∧ m ≤ 12
  | .day y m d =>
    ∃ date : Std.Time.PlainDate, date.year.toInt = y ∧ date.month.val = m ∧ date.day.val = d

/-- The leap years of both calendars are the same. -/
theorem isLeapYear_eq_isLeap (y : ℕ) :
    isLeapYear y = Std.Time.Year.Offset.isLeap (Std.Time.Year.Offset.ofNat y) := by
  have hyear : (Std.Time.Year.Offset.ofNat y).toInt = (y : ℤ) := rfl
  rw [Bool.eq_iff_iff, isLeapYear, Std.Time.Year.Offset.isLeap, hyear]
  simp only [Bool.and_eq_true, Bool.or_eq_true, decide_eq_true_eq,
    Int.tmod_eq_emod_of_nonneg (Int.natCast_nonneg y)]
  omega

/-- The months of both calendars have the same number of days. -/
theorem daysIn_eq_days (y : ℕ) (month : Std.Time.Month.Ordinal) :
    (daysIn y month.val.toNat : ℤ) = (month.days (isLeapYear y)).val := by
  obtain ⟨m, hlow, hhigh⟩ := month
  unfold daysIn
  cases isLeapYear y <;> interval_cases m <;> rfl

/-- Only months have days. -/
theorem month_of_daysIn_pos {y m : ℕ} (h : 0 < daysIn y m) : 1 ≤ m ∧ m ≤ 12 := by
  unfold daysIn at h
  split at h <;> omega

theorem exists?_iff {date : CalendarDate} : date.exists? = true ↔ date.IsReal := by
  cases date with
  | year y => exact ⟨fun _ => trivial, fun _ => rfl⟩
  | month y m => simp [exists?, IsReal]
  | day y m d =>
    rw [exists?, Bool.and_eq_true, decide_eq_true_eq, decide_eq_true_eq]
    constructor
    · rintro ⟨hlow, hhigh⟩
      obtain ⟨hmonth, hlast⟩ := month_of_daysIn_pos (hlow.trans hhigh)
      let month : Std.Time.Month.Ordinal := ⟨m, by omega, by omega⟩
      have hdays : (daysIn y m : ℤ) = (month.days (isLeapYear y)).val := daysIn_eq_days y month
      have hmost := (month.days (isLeapYear y)).property.2
      let day : Std.Time.Day.Ordinal := ⟨d, by omega, by omega⟩
      have hvalid : (Std.Time.Year.Offset.ofNat y).Valid month day := by
        show (d : ℤ) ≤ (month.days _).val
        rw [← isLeapYear_eq_isLeap, ← hdays]
        omega
      exact ⟨⟨_, month, day, hvalid⟩, rfl, rfl, rfl⟩
    · rintro ⟨⟨year, month, day, hvalid⟩, hyear, hmonth, hday⟩
      obtain rfl : year = Std.Time.Year.Offset.ofNat y := hyear
      dsimp only at hmonth hday
      have hdays := daysIn_eq_days y month
      rw [hmonth, Int.toNat_natCast, isLeapYear_eq_isLeap] at hdays
      have hle : day.val ≤ (month.days _).val := hvalid
      have hfirst := day.property.1
      rw [← hdays] at hle
      omega

/-! ## Texts -/

theorem isDate_iff {value : String} :
    isDate value = true ↔ ∃ date : CalendarDate, date.IsSpelled value.toList ∧ date.IsReal := by
  rw [isDate, parse?, Option.isSome_iff_exists]
  simp only [Option.filter_eq_some_iff, ofChars?_eq_some_iff, exists?_iff]

/-- A text is taken as a date exactly when it is, from its first to its last character, a year in four
ASCII digits, with a hyphen and a month in two, or with those and a hyphen and a day of that month in
two; any other text is refused, and the error has it unchanged. -/
theorem dateOperand_isDate (value : String) :
    (dateOperand value = .ok (.date value) ↔
      ∃ date : CalendarDate, date.IsSpelled value.toList ∧ date.IsReal) ∧
    ((¬ ∃ date : CalendarDate, date.IsSpelled value.toList ∧ date.IsReal) →
      dateOperand value = .error (.invalidDate value)) := by
  rw [← isDate_iff, dateOperand]
  cases isDate value with
  | false => simp
  | true => simp

/-- A century has a leap day when 400 divides it; digits of other scripts and a line end are refused. -/
theorem dateOperand_isDate_century :
    (∃ date : CalendarDate, date.IsSpelled "0000-02-29".toList ∧ date.IsReal) ∧
      ∀ value ∈ ["1900-02-29", "２０００-02-29", "2000-02-29\n"],
        (¬ ∃ date : CalendarDate, date.IsSpelled value.toList ∧ date.IsReal) ∧
          dateOperand value = .error (.invalidDate value) := by
  refine ⟨(dateOperand_isDate "0000-02-29").1.1 (by decide +kernel), fun value hvalue => ?_⟩
  have hnot : ¬ ∃ date : CalendarDate, date.IsSpelled value.toList ∧ date.IsReal := by
    rw [← isDate_iff]
    revert value
    decide +kernel
  exact ⟨hnot, (dateOperand_isDate value).2 hnot⟩

end CalendarDate

end FilterClause
